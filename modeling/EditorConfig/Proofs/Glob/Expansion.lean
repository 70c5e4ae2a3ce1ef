import EditorConfig.Proofs.Glob.Literal
import EditorConfig.Proofs.Glob.Seam

/-!
# Brace expansion

Braces around alternatives may be written out: one glob for each alternative.

* `Glob.braced`   a glob with alternatives between two other parts.

Main statement: a glob with braces accepts a path exactly when one of the globs does that have an
alternative in the place of the braces (`Pattern.accepts_braced`).
-/

namespace EditorConfig

namespace Text

theorem eq_of_cutPair? {sep : Char} {t a b : Text} (h : cutPair? sep t = some (a, b)) :
    t = a ++ sep :: sep :: b := by
  fun_induction cutPair? sep t generalizing a with
  | case1 => cases h
  | case2 => cases h
  | case3 c d t hc =>
    obtain ⟨rfl, rfl⟩ := hc
    cases h
    rfl
  | case4 c d t _ ih =>
    obtain ⟨⟨x, y⟩, hx, hy⟩ := Option.map_eq_some_iff.1 h
    cases hy
    rw [ih hx, List.cons_append]

theorem intercalate_cons_append {α : Type} (sep : α) (a : List α) {as : List (List α)}
    (h : as ≠ []) (u : List α) :
    [sep].intercalate (a :: as) ++ u = a ++ sep :: ([sep].intercalate as ++ u) := by
  rw [List.intercalate_cons_of_ne_nil h, List.append_assoc, List.append_assoc,
    List.singleton_append]

theorem signs_intercalate_append {as : List Text} (h : ∀ a ∈ as, endsOpen a = false) (u : Text) :
    signs ([','].intercalate as ++ u)
      = [.plain ','].intercalate (as.map signs) ++ signs u := by
  induction as with
  | nil => rfl
  | cons a as ih =>
    have ha := h a (by simp)
    have has := ih fun b hb => h b (List.mem_cons_of_mem _ hb)
    cases as with
    | nil =>
      rw [List.map_singleton, List.intercalate_singleton, List.intercalate_singleton,
        signs_append ha]
    | cons b bs =>
      have hmap : (b :: bs).map signs ≠ [] := by simp
      show signs ([','].intercalate (a :: b :: bs) ++ u)
        = [.plain ','].intercalate (signs a :: (b :: bs).map signs) ++ signs u
      rw [intercalate_cons_append _ _ (List.cons_ne_nil b bs), intercalate_cons_append _ _ hmap,
        signs_append ha, signs_plain (by decide), has]

theorem endsOpen_intercalate_append {as : List Text} (h : ∀ a ∈ as, endsOpen a = false)
    (u : Text) : endsOpen ([','].intercalate as ++ u) = endsOpen u := by
  induction as with
  | nil => rfl
  | cons a as ih =>
    obtain ⟨ha, has⟩ := List.forall_mem_cons.1 h
    cases as with
    | nil => rw [List.intercalate_singleton, endsOpen_append ha]
    | cons b bs =>
      rw [intercalate_cons_append _ _ (List.cons_ne_nil b bs), endsOpen_append ha,
        endsOpen_plain (by decide), ih has]

end Text

namespace Brace

/-! ## Ranges -/

theorem eq_map_of_plainText? {ss : List Sign} {t : Text} (h : plainText? ss = some t) :
    ss = t.map .plain := by
  induction ss generalizing t with
  | nil =>
    cases h
    rfl
  | cons s ss ih =>
    cases s with
    | quoted c => cases h
    | plain c =>
      obtain ⟨u, hu, rfl⟩ := Option.map_eq_some_iff.1 h
      rw [ih hu, List.map_cons]

/-- A number is written without commas. -/
theorem comma_not_mem_of_readInt? {t : Text} {n : Int} (h : Decimal.readInt? t = some n) :
    ',' ∉ t := by
  have hdigits : (Decimal.unsigned t).2.all Char.isDigit = true := by
    unfold Decimal.readInt? at h
    simp only at h
    by_cases hc : (Decimal.unsigned t).2.all Char.isDigit = true
    · exact hc
    · simp [hc] at h
  have hmem : ',' ∉ (Decimal.unsigned t).2 := by
    intro hm
    exact absurd (List.all_eq_true.1 hdigits ',' hm) (by decide)
  unfold Decimal.unsigned at hmem
  split at hmem
  · simpa using hmem
  · simpa using hmem
  · exact hmem

/-- A body with a comma is no range. -/
theorem range?_of_comma_mem {body : List Sign} (h : .plain ',' ∈ body) : range? body = none := by
  cases hr : range? body with
  | none => rfl
  | some bounds =>
    simp only [range?, bind, Option.bind_eq_some_iff] at hr
    obtain ⟨t, ht, ⟨a, b⟩, hab, low, hlow, high, hhigh, -⟩ := hr
    rw [eq_map_of_plainText? ht, Text.eq_of_cutPair? hab] at h
    have hm : ',' ∈ a ∨ ',' ∈ b := by simpa using h
    rcases hm with hm | hm
    · exact absurd hm (comma_not_mem_of_readInt? hlow)
    · exact absurd hm (comma_not_mem_of_readInt? hhigh)

theorem comma_mem_intercalate {as : List (List Sign)} (h : 2 ≤ as.length) :
    .plain ',' ∈ [.plain ','].intercalate as := by
  match as with
  | a :: b :: bs =>
    rw [List.intercalate_cons_of_ne_nil (List.cons_ne_nil b bs)]
    simp

end Brace

namespace Seamless

theorem of_head {α : Type} {star slash v : α} (hstar : v ≠ star) (hslash : v ≠ slash)
    (us vs : List α) : Seamless star slash us (v :: vs) := by
  constructor
  · intro h
    rcases h.2 with h | h
    · exact hstar (Option.some.inj h)
    · exact hslash (Option.some.inj h)
  · intro h
    exact hstar (List.cons_prefix_cons.1 h.2).1.symm

theorem of_getLast? {α : Type} {star slash : α} {us : List α} (hstar : us.getLast? ≠ some star)
    (hslash : us.getLast? ≠ some slash) (vs : List α) : Seamless star slash us vs :=
  ⟨fun h => hstar h.1, fun h => hslash h.1⟩

end Seamless

namespace Glob

variable {pre post : Text} {as : List Text}

/-! ## The glob with braces -/

/-- Alternatives between two other parts of a glob. -/
def braced (pre : Text) (as : List Text) (post : Text) : Text :=
  pre ++ '{' :: ([','].intercalate as ++ '}' :: post)

/-- A text that can stand between the commas of a group. -/
structure Alternative (t : Text) : Prop extends Whole t where
  commas : Brace.CommasInside 0 t.signs

theorem Alternative.nil : Alternative [] := ⟨.nil, Brace.commasInside_nil⟩

/-- A letter is read as itself. -/
theorem Alternative.letter {c : Char} (hc : c ∉ ['\\', '[', '{', '}', ',']) :
    Alternative [c] := by
  simp only [List.mem_cons, List.not_mem_nil, or_false, not_or] at hc
  obtain ⟨hquote, hbracket, hopening, hclosing, hcomma⟩ := hc
  have hsigns : Text.signs [c] = [.plain c] := Text.signs_plain hquote []
  have hnested : Brace.Nested 0 [.plain c] :=
    (Brace.nested_nil.2 rfl).cons_plain (by simpa using hopening) (by simpa using hclosing)
  refine ⟨⟨?_, Text.endsOpen_plain hquote [], ?_⟩, ?_⟩
  · rw [hsigns]
    simpa using Ne.symm hbracket
  · rwa [hsigns]
  · rw [hsigns, Brace.commasInside_cons (by simpa using hclosing)]
    exact ⟨by simpa using hcomma, Brace.commasInside_nil⟩

theorem signs_braced (hpre : Text.endsOpen pre = false) (has : ∀ a ∈ as, Text.endsOpen a = false) :
    (braced pre as post).signs
      = pre.signs ++ .plain '{' :: ([.plain ','].intercalate (as.map Text.signs)
        ++ .plain '}' :: post.signs) := by
  rw [braced, Text.signs_append hpre, Text.signs_plain (by decide),
    Text.signs_intercalate_append has, Text.signs_plain (by decide)]

theorem ofText_braced (hpre : Whole pre) (hlen : 2 ≤ as.length) (has : ∀ a ∈ as, Alternative a)
    (hpost : Brace.balanced post.signs = true) :
    ofText (braced pre as post)
      = (ofText pre).append (seq (group (choice (as.map ofText))) (ofText post)) := by
  have hnested : ∀ b ∈ as.map Text.signs, Brace.Nested 0 b ∧ Brace.CommasInside 0 b := by
    intro b hb
    obtain ⟨a, ha, rfl⟩ := List.mem_map.1 hb
    exact ⟨(has a ha).nested, (has a ha).commas⟩
  have hbody : Brace.Nested 0 ([.plain ','].intercalate (as.map Text.signs)) :=
    .intercalate fun b hb => (hnested b hb).1
  have hcomma : Sign.plain ',' ∈ [Sign.plain ','].intercalate (as.map Text.signs) :=
    Brace.comma_mem_intercalate (by rwa [List.length_map])
  have hne : as.map Text.signs ≠ [] := by
    intro he
    rw [he] at hcomma
    cases hcomma
  have hsigns : (braced pre as post).signs = _ :=
    signs_braced hpre.closed fun a ha => (has a ha).closed
  have hbalanced := Brace.balanced_append hpre.nested.balanced (Brace.balanced_group hbody hpost)
  have hgroup : ofBody ([.plain ','].intercalate (as.map Text.signs))
      = group (choice (as.map ofText)) := by
    rw [ofBody_alternatives (Brace.range?_of_comma_mem hcomma) hcomma,
      Brace.alternatives_intercalate hne hnested, List.map_map]
    rfl
  rw [ofText, hsigns, ofSigns_of_balanced hbalanced,
    ofSignsWith_append hpre.no_bracket hpre.nested (.of_head (by decide) (by decide) _ _),
    ofSignsWith_group (lead_group (Brace.closing?_append hbody _)), hgroup, ofText, ofText,
    ofSigns_of_balanced hpre.nested.balanced, ofSigns_of_balanced hpost]

theorem fits_append {g k : Glob} : (g.append k).Fits ↔ g.Fits ∧ k.Fits := by
  unfold Fits
  rw [items_append]
  exact List.forall_mem_append

theorem ofText_alternative (hpre : Whole pre) {a : Text} (ha : Whole a)
    (hpost : Brace.balanced post.signs = true) (hleft : Seamless '*' '/' pre a)
    (hright : Seamless '*' '/' a post) (hempty : a = [] → Seamless '*' '/' pre post) :
    ofText (pre ++ a ++ post) = (ofText pre).append ((ofText a).append (ofText post)) := by
  have hbalanced : Brace.balanced (Text.signs (a ++ post)) = true := by
    rw [Text.signs_append ha.closed]
    exact Brace.balanced_append ha.nested.balanced hpost
  rw [List.append_assoc, ofText_append hpre hbalanced (hleft.append_right hright hempty),
    ofText_append ha hpost hright]

/-- Cutting a path for the glob with braces is cutting it for one of its alternatives. -/
theorem takes_braced {g k : Glob} (hne : as ≠ []) (t : Text) :
    (g.append (seq (group (choice (as.map ofText))) k)).Takes t
      ↔ ∃ a ∈ as, (g.append ((ofText a).append k)).Takes t := by
  have hchoice (v : Text) : (group (choice (as.map ofText))).Takes v
      ↔ ∃ a ∈ as, (ofText a).Takes v := by
    show (choice (as.map ofText)).Takes v ↔ _
    rw [takes_choice (by simpa using hne)]
    constructor
    · intro h1
      obtain ⟨g, hg, hv⟩ := h1
      obtain ⟨a, ha, rfl⟩ := List.mem_map.1 hg
      exact ⟨a, ha, hv⟩
    · intro h1
      obtain ⟨a, ha, hv⟩ := h1
      exact ⟨ofText a, List.mem_map_of_mem ha, hv⟩
  simp only [takes_append]
  constructor
  · intro h1
    obtain ⟨u, _, rfl, hu, v, w, rfl, hv, hw⟩ := h1
    obtain ⟨a, ha, hv⟩ := (hchoice v).1 hv
    exact ⟨a, ha, u, v ++ w, rfl, hu, v, w, rfl, hv, hw⟩
  · intro h1
    obtain ⟨a, ha, u, _, rfl, hu, v, w, rfl, hv, hw⟩ := h1
    exact ⟨u, v ++ w, rfl, hu, v, w, rfl, (hchoice v).2 ⟨a, ha, hv⟩, hw⟩

/-- When the glob with braces does not nest too deep, no alternative does. -/
theorem Fits.of_braced {g k : Glob}
    (h : (g.append (seq (group (choice (as.map ofText))) k)).Fits) {a : Text} (ha : a ∈ as) :
    (g.append ((ofText a).append k)).Fits := by
  obtain ⟨hg, hgroup, hk⟩ : g.Fits ∧ (group (choice (as.map ofText))).Fits ∧ k.Fits := by
    rwa [← fits_seq, ← fits_append]
  have hfits := hgroup.of_group_choice (List.mem_map_of_mem ha) (proper_ofText a)
  rw [fits_append, fits_append]
  exact ⟨hg, hfits, hk⟩

/-! ## In front of question marks -/

theorem alternative_letters (v : Text) :
    ∀ a ∈ [['a'], ['b']], Alternative a ∧ Seamless '*' '/' a v := by
  intro a ha
  have hletter : a = ['a'] ∨ a = ['b'] := by simpa using ha
  rcases hletter with rfl | rfl
  · exact ⟨.letter (by decide), .of_getLast? (by decide) (by decide) v⟩
  · exact ⟨.letter (by decide), .of_getLast? (by decide) (by decide) v⟩

theorem ofText_braced_letters (n : Nat) :
    ofText (braced [] [['a'], ['b']] (List.replicate n '?'))
      = seq (group (alt (seq (char 'a') empty) (seq (char 'b') empty))) (ones n) := by
  have ha : ofText ['a'] = seq (char 'a') empty := ofText_letter (by decide)
  have hb : ofText ['b'] = seq (char 'b') empty := ofText_letter (by decide)
  rw [ofText_braced .nil (by decide) (fun a ha => (alternative_letters [] a ha).1)
    (balanced_questionMarks n), ofText_questionMarks, ofText_nil, List.map_cons,
    List.map_singleton, ha, hb]
  rfl

theorem ofText_letter_questionMarks (n : Nat) :
    ofText ('a' :: List.replicate n '?') = seq (char 'a') (ones n) := by
  obtain ⟨hletter, hseam⟩ := alternative_letters (List.replicate n '?') ['a'] List.mem_cons_self
  have happend := ofText_append hletter.toWhole (balanced_questionMarks n) hseam
  rwa [ofText_letter (by decide), ofText_questionMarks] at happend

end Glob

namespace Pattern

/-- **Brace expansion.**  A glob with braces accepts a path exactly when one of the globs does that
have an alternative in the place of the braces.  All parts but the last one have to be whole, no
token may lie across a place where two parts meet, the glob with braces must not be refused, and the
others must have room. -/
theorem accepts_braced [Regex.Engine] {pre post : Text} {as : List Text} (hpre : Glob.Whole pre)
    (hlen : 2 ≤ as.length) (has : ∀ a ∈ as, Glob.Alternative a)
    (hpost : Brace.balanced post.signs = true)
    (hseams : ∀ a ∈ as, Seamless '*' '/' pre a ∧ Seamless '*' '/' a post)
    (hempty : [] ∈ as → Seamless '*' '/' pre post)
    (hsome : (compile (Glob.braced pre as post)).expression.isSome = true)
    (hroom : ∀ a ∈ as, (Glob.ofText (pre ++ a ++ post)).HasRoom) (path : Text) :
    (compile (Glob.braced pre as post)).accepts path = true
      ↔ ∃ a ∈ as, (compile (pre ++ a ++ post)).accepts path = true := by
  have hne : as ≠ [] := by
    rintro rfl
    exact absurd hlen (by decide)
  have hbraced := Glob.ofText_braced hpre hlen has hpost
  have halternative (a : Text) (ha : a ∈ as) : Glob.ofText (pre ++ a ++ post)
      = (Glob.ofText pre).append ((Glob.ofText a).append (Glob.ofText post)) :=
    Glob.ofText_alternative hpre (has a ha).toWhole hpost (hseams a ha).1 (hseams a ha).2
      fun he => hempty (he ▸ ha)
  have heach (a : Text) (ha : a ∈ as) : (compile (pre ++ a ++ post)).expression.isSome = true := by
    have hfits := (isSome_compile.1 hsome).1
    rw [hbraced] at hfits
    refine isSome_compile.2 ⟨?_, hroom a ha⟩
    rw [halternative a ha]
    exact hfits.of_braced ha
  rw [accepts_iff_takes hsome, hbraced, Glob.takes_braced hne]
  refine exists_congr fun a => and_congr_right fun ha => ?_
  rw [accepts_iff_takes (heach a ha), halternative a ha]

/-- Either kind of source, or nothing, in front of an exclamation mark. -/
theorem accepts_braced_sources :
    (compile (Glob.braced "src/".toList ["*.{c,h}".toList, []] ['!'])).expression.isSome = true ∧
      (∀ a ∈ ["*.{c,h}".toList, []], (Glob.ofText ("src/".toList ++ a ++ ['!'])).HasRoom) ∧
      ((compile (Glob.braced "src/".toList ["*.{c,h}".toList, []] ['!'])).accepts
          "src/a.h!".toList = true
        ↔ ∃ a ∈ ["*.{c,h}".toList, []],
          (compile ("src/".toList ++ a ++ ['!'])).accepts "src/a.h!".toList = true) := by
  let sources : Glob := .seq .run (.seq (.char '.')
    (.seq (.group (.alt (.seq (.char 'c') .empty) (.seq (.char 'h') .empty))) .empty))
  have hpre : Glob.Whole "src/".toList := by
    refine ⟨by simp [Text.signs], by simp [Text.endsOpen], ?_⟩
    simp [Text.signs]
    decide
  have halternative : Glob.Alternative "*.{c,h}".toList := by
    refine ⟨⟨by simp [Text.signs], by simp [Text.endsOpen], ?_⟩, ?_⟩
    · simp [Text.signs]
      decide
    · simp [Text.signs, Brace.commasInside_cons, Brace.commasInside_nil, Brace.deeper]
  have has : ∀ a ∈ ["*.{c,h}".toList, []], Glob.Alternative a := by
    simpa using ⟨halternative, .nil⟩
  have hpost : Brace.balanced (Text.signs ['!']) = true := rfl
  have hseams : ∀ a ∈ ["*.{c,h}".toList, []],
      Seamless '*' '/' "src/".toList a ∧ Seamless '*' '/' a ['!'] := by
    simp [Seamless]
  have hempty : [] ∈ ["*.{c,h}".toList, []] → Seamless '*' '/' "src/".toList ['!'] := by
    simp [Seamless]
  have hfolder : Glob.ofText "src/".toList = .literal "src/".toList := Glob.ofText_bare (by simp)
  have hmark : Glob.ofText ['!'] = .seq (.char '!') .empty := Glob.ofText_letter (by decide)
  have hsources : Glob.ofText "*.{c,h}".toList = sources := by
    simp [Glob.ofText, Text.signs, Glob.ofSigns, Glob.ofSignsWith_cons, Glob.ofSignsWith_nil,
      Glob.lead, Brace.closing?, Brace.deeper, Brace.balanced, Glob.ofBody_eq, Brace.range?,
      Brace.plainText?, Brace.alternatives, Text.cutPair?, Glob.choice, sources]
  have hsome : (compile (Glob.braced "src/".toList ["*.{c,h}".toList, []] ['!'])).expression.isSome
      = true := by
    have hglob := Glob.ofText_braced hpre (by decide) has hpost
    rw [hfolder, hmark, List.map_cons, List.map_singleton, hsources, Glob.ofText_nil] at hglob
    exact isSome_compile_of_weight_le hglob (by decide) (by decide)
  have hroom : ∀ a ∈ ["*.{c,h}".toList, []],
      (Glob.ofText ("src/".toList ++ a ++ ['!'])).HasRoom := by
    intro a ha
    apply Glob.hasRoom_of_weight_le (Glob.proper_ofText _)
    rw [Glob.ofText_alternative hpre (has a ha).toWhole hpost (hseams a ha).1 (hseams a ha).2
      fun he => hempty (he ▸ ha), hfolder, hmark]
    rcases List.mem_cons.1 ha with rfl | ha
    · rw [hsources]
      decide
    · rw [List.mem_singleton.1 ha, Glob.ofText_nil]
      decide
  exact ⟨hsome, hroom, accepts_braced hpre (by decide) has hpost hseams hempty hsome hroom _⟩

/-- In front of too many question marks neither the braces nor the alternatives have room: all of
them are compared letter by letter. -/
theorem braced_unlike_alternatives :
    let as : List Text := [['a'], ['b']]
    let post : Text := List.replicate 100000 '?'
    let path : Text := 'a' :: post
    Glob.Whole [] ∧ (∀ a ∈ as, Glob.Alternative a) ∧ Brace.balanced post.signs = true ∧
      (∀ a ∈ as, Seamless '*' '/' [] a ∧ Seamless '*' '/' a post) ∧
      (∃ r, Regex.parse? (expressionText (Glob.braced [] as post)) = some r ∧
        r.height ≤ Regex.nestLimit) ∧
      (∃ a ∈ as, (compile ([] ++ a ++ post)).accepts path = true) ∧
      (compile (Glob.braced [] as post)).accepts path = false := by
  intro as post path
  have hpost : Brace.balanced post.signs = true := Glob.balanced_questionMarks 100000
  have hbraced := Glob.ofText_braced_letters 100000
  have hfits : (Glob.ofText (Glob.braced [] as post)).Fits := by
    rw [hbraced, Glob.fits_seq]
    exact ⟨by decide, Glob.fits_ones _⟩
  have has := Glob.alternative_letters post
  have hweight (g : Glob) : Regex.sizeLimit < 1024 + (Glob.seq g (.ones 100000)).weight :=
    Glob.lt_weight_seq_ones g (by decide)
  refine ⟨.nil, fun a ha => (has a ha).1, hpost, fun a ha => ⟨.nil_left, (has a ha).2⟩, ?_,
    ⟨['a'], List.mem_cons_self, ?_⟩, ?_⟩
  · exact ⟨_, Glob.parse?_expressionText _,
      (Glob.height_expression_le (Glob.proper_ofText _)).2 hfits⟩
  · have halternative := Glob.ofText_letter_questionMarks 100000
    exact (accepts_iff_eq (refused_of_weight_lt halternative (hweight _)) path).2 rfl
  · apply accepts_eq_false_of_ne (refused_of_weight_lt hbraced (hweight _))
    intro hsame
    have hhead : 'a' = '{' := (List.cons.inj hsame).1
    cases hhead

end Pattern

end EditorConfig
