import EditorConfig.Proofs.Glob.Pieces
import EditorConfig.Matcher

/-!
# Globs whose expression is accepted

How deep an expression nests and how large its program is, are told by its items: what stands in a
row makes no level of its own.

* `Regex.IsItem`   the expressions that stand in a row;
* `Glob.Fits`      no item of the glob nests as deep as the limit;
* `Glob.HasRoom`   the program for the glob stays within the limit;
* `Glob.weight`    what the items of the glob add to a program.

Main statements: a glob gets an expression exactly when it fits and has room
(`Pattern.isSome_compile`); its pattern then accepts exactly the paths that the glob covers
(`Pattern.accepts_compile_iff_covers`), which it need not do otherwise
(`Pattern.covers_unlike_accepts`).
-/

namespace EditorConfig

namespace Regex

/-! ## Heights -/

/-- An expression that is neither a sequence nor a choice. -/
def IsItem : Regex → Prop
  | one _ => True
  | many _ => True
  | group _ => True
  | _ => False

theorem IsItem.heightAt {r : Regex} (h : r.IsItem) (p q : Place) : heightAt p r = heightAt q r := by
  cases r with
  | one a => rfl
  | many a => rfl
  | group r => rfl
  | empty => exact absurd h id
  | seq r s => exact absurd h id
  | alt r s => exact absurd h id

/-- Wherever an expression stands, it makes at most one level more than elsewhere. -/
theorem heightAt_le (p q : Place) (r : Regex) : heightAt p r ≤ heightAt q r + 1 := by
  cases r with
  | seq r s =>
    show (if p = .inSequence then 0 else 1) + _ ≤ (if q = .inSequence then 0 else 1) + _ + 1
    split <;> omega
  | alt r s =>
    show (if p = .inChoice then 0 else 1) + _ ≤ (if q = .inChoice then 0 else 1) + _ + 1
    split <;> omega
  | _ => exact Nat.le_succ _

theorem heightAt_inSequence_le (r : Regex) : heightAt .inSequence r ≤ heightAt .alone r := by
  cases r with
  | seq r s => exact Nat.add_le_add_right (Nat.zero_le 1) _
  | _ => exact Nat.le_refl _

/-- A row of items nests as deep as its deepest item. -/
theorem heightAt_concat_le {rs : List Regex} (h : ∀ r ∈ rs, r.IsItem) {n : Nat} :
    heightAt .inSequence (concat rs) ≤ n ↔ ∀ r ∈ rs, heightAt .alone r ≤ n := by
  induction rs with
  | nil => simp [concat, heightAt]
  | cons r rs ih =>
    have hr := h r (by simp)
    have hrs := ih fun s hs => h s (List.mem_cons_of_mem _ hs)
    rw [List.forall_mem_cons, ← hrs]
    cases rs with
    | nil =>
      show heightAt .inSequence r ≤ n ↔ heightAt .alone r ≤ n ∧ 0 ≤ n
      rw [hr.heightAt .inSequence .alone]
      exact ⟨fun hn => ⟨hn, Nat.zero_le n⟩, And.left⟩
    | cons s rs =>
      show 0 + max (heightAt .alone r) (heightAt .inSequence (concat (s :: rs))) ≤ n ↔ _
      omega

theorem heightAt_le_concat {rs : List Regex} (h : ∀ r ∈ rs, r.IsItem) {r : Regex} (hr : r ∈ rs) :
    heightAt .alone r ≤ heightAt .alone (concat rs) :=
  Nat.le_trans ((heightAt_concat_le h).1 (Nat.le_refl _) r hr) (heightAt_inSequence_le _)

theorem heightAt_le_choice {rs : List Regex} {r : Regex} (hr : r ∈ rs) :
    heightAt .alone r ≤ heightAt .alone (choice rs) := by
  induction rs with
  | nil => cases hr
  | cons s rs ih =>
    cases rs with
    | nil =>
      obtain rfl := List.mem_singleton.1 hr
      exact Nat.le_refl _
    | cons t rs =>
      show _ ≤ 1 + max (heightAt .alone s) (heightAt .inChoice (choice (t :: rs)))
      rcases List.mem_cons.1 hr with rfl | hr
      · omega
      · have hle := ih hr
        have hplace := heightAt_le .alone .inChoice (choice (t :: rs))
        omega

end Regex

namespace Glob

/-! ## Items of globs -/

theorem isItem_of_mem_branches {g : Glob} {rs : List Regex} (h : rs ∈ g.branches) :
    ∀ r ∈ rs, r.IsItem := by
  induction g generalizing rs with
  | empty => simp_all [branches]
  | bracket b =>
    obtain rfl := List.mem_singleton.1 h
    intro r hr
    obtain ⟨k, -, rfl⟩ := List.mem_map.1 hr
    trivial
  | seq g k ihg ihk =>
    obtain rfl := List.mem_singleton.1 h
    intro r hr
    rcases List.mem_append.1 hr with hr | hr
    · obtain ⟨ss, hs, hr⟩ := List.mem_flatten.1 hr
      exact ihg hs r hr
    · obtain ⟨ss, hs, hr⟩ := List.mem_flatten.1 hr
      exact ihk hs r hr
  | alt g k ihg ihk =>
    rcases List.mem_append.1 h with h | h
    · exact ihg h
    · exact ihk h
  | _ =>
    obtain rfl := List.mem_singleton.1 h
    intro r hr
    obtain rfl := List.mem_singleton.1 hr
    trivial

theorem isItem_of_mem_items {g : Glob} {r : Regex} (h : r ∈ g.items) : r.IsItem := by
  obtain ⟨rs, hrs, hr⟩ := List.mem_flatten.1 h
  exact isItem_of_mem_branches hrs r hr

theorem mem_branches_choice {gs : List Glob} {g : Glob} (hg : g ∈ gs) {rs : List Regex}
    (h : rs ∈ g.branches) : rs ∈ (choice gs).branches := by
  induction gs with
  | nil => cases hg
  | cons k gs ih =>
    cases gs with
    | nil =>
      obtain rfl := List.mem_singleton.1 hg
      exact h
    | cons l gs =>
      show rs ∈ k.branches ++ (choice (l :: gs)).branches
      rcases List.mem_cons.1 hg with rfl | hg
      · exact List.mem_append_left _ h
      · exact List.mem_append_right _ (ih hg)

/-! ## Fitting globs -/

/-- No item nests as deep as the limit; one level is left for the row of the items. -/
def Fits (g : Glob) : Prop := ∀ r ∈ g.items, Regex.heightAt .alone r < Regex.nestLimit

instance decidableFits (g : Glob) : Decidable g.Fits :=
  inferInstanceAs (Decidable (∀ r ∈ g.items, Regex.heightAt .alone r < Regex.nestLimit))

theorem height_expression_le {g : Glob} (h : g.Proper false) :
    g.expression.height ≤ Regex.nestLimit ↔ g.Fits := by
  rw [expression_eq h]
  show 1 + Regex.heightAt .inSequence (.concat g.items) ≤ 250 ↔ _
  have hle := Regex.heightAt_concat_le (n := 249) fun r (hr : r ∈ g.items) => isItem_of_mem_items hr
  constructor
  · intro hh r hr
    exact Nat.lt_succ_of_le (hle.1 (by omega) r hr)
  · intro hh
    have := hle.2 fun r hr => Nat.le_of_lt_succ (hh r hr)
    omega

theorem fits_seq {g k : Glob} : (seq g k).Fits ↔ g.Fits ∧ k.Fits := by
  unfold Fits
  rw [items_seq]
  exact List.forall_mem_append

theorem fits_empty : empty.Fits := by
  intro r hr
  cases hr

theorem proper_ofText (t : Text) : (ofText t).Proper false := proper_ofSignsWith _ _

/-- A group nests deeper than each of its alternatives. -/
theorem Fits.of_group_choice {gs : List Glob} (h : (group (choice gs)).Fits) {g : Glob}
    (hg : g ∈ gs) (hproper : g.Proper false) : g.Fits := by
  intro r hr
  have hbranch : g.items ∈ (choice gs).branches :=
    mem_branches_choice hg (by rw [branches_eq hproper]; exact List.mem_cons_self)
  have hgroup := h _ List.mem_cons_self
  have hchoice := Regex.heightAt_le_choice (List.mem_map_of_mem (f := Regex.concat) hbranch)
  have hconcat := Regex.heightAt_le_concat (fun _ => isItem_of_mem_items) hr
  have hdeeper : Regex.heightAt .alone (.group (.choice ((choice gs).branches.map .concat)))
      = 1 + Regex.heightAt .alone (.choice ((choice gs).branches.map .concat)) := rfl
  omega

/-! ## Globs that have room -/

/-- The program for the expression of the glob stays within the limit. -/
def HasRoom [Regex.Engine] (g : Glob) : Prop := Regex.Engine.hasRoom g.expression = true

/-- What the items of the glob add to a program. -/
def weight (g : Glob) : Nat := (Regex.concat g.items).weight

theorem weight_seq (g k : Glob) : (seq g k).weight = g.weight + k.weight := by
  rw [weight, items_seq, Regex.weight_concat_append]
  rfl

theorem size_expression {g : Glob} (h : g.Proper false) :
    g.expression.size = 1024 + g.weight := by
  rw [expression_eq h, Regex.size, weight]

theorem hasRoom_of_weight_le [Regex.Engine] {g : Glob} (h : g.Proper false)
    (hw : 1024 + g.weight ≤ Regex.sizeLimit) : g.HasRoom := by
  apply Regex.Engine.hasRoom_of_size_le
  rwa [size_expression h]

/-- What comes last in a glob has room when the whole glob has. -/
theorem HasRoom.of_seq [Regex.Engine] {g k : Glob} (h : (seq g k).HasRoom) (hk : k.Proper false) :
    k.HasRoom := by
  have hrow : (seq g k).expression = .concat (g.items ++ k.items) := rfl
  rw [HasRoom, hrow] at h
  rw [HasRoom, expression_eq hk]
  exact Regex.Engine.hasRoom_of_append h

theorem not_hasRoom_of_lt {g : Glob} (h : g.Proper false)
    (hw : Regex.sizeLimit < 1024 + g.weight) : ¬g.HasRoom := by
  intro hroom
  have hle : g.expression.size ≤ Regex.sizeLimit := of_decide_eq_true hroom
  rw [size_expression h] at hle
  exact Nat.not_le_of_lt hw hle

/-! ## Question marks -/

/-- So many tokens for one character each. -/
def ones : Nat → Glob
  | 0 => empty
  | n + 1 => seq one (ones n)

theorem ofSignsWith_questionMarks (braces : Bool) (n : Nat) :
    ofSignsWith braces (List.replicate n (.plain '?')) = ones n := by
  induction n with
  | zero => exact ofSignsWith_nil braces
  | succ n ih => rw [List.replicate_succ, ofSignsWith_token (g := one) rfl, ih, ones]

theorem signs_questionMarks (n : Nat) :
    Text.signs (List.replicate n '?') = List.replicate n (.plain '?') := by
  have hquote : '\\' ∉ List.replicate n '?' := by
    intro hm
    exact absurd (List.eq_of_mem_replicate hm) (by decide)
  rw [Text.signs_of_not_mem hquote, List.map_replicate]

theorem balanced_questionMarks (n : Nat) :
    Brace.balanced (Text.signs (List.replicate n '?')) = true := by
  rw [signs_questionMarks, Brace.balanced, List.count_replicate, List.count_replicate]
  rfl

theorem ofText_questionMarks (n : Nat) : ofText (List.replicate n '?') = ones n := by
  rw [ofText, signs_questionMarks, ofSigns, ofSignsWith_questionMarks]

theorem fits_ones (n : Nat) : (ones n).Fits := by
  induction n with
  | zero => exact fits_empty
  | succ n ih =>
    have hone : one.Fits := by decide
    exact fits_seq.2 ⟨hone, ih⟩

theorem weight_ones (n : Nat) : (ones n).weight = 1040 * n := by
  induction n with
  | zero => rfl
  | succ n ih =>
    have hone : one.weight = 1040 := by decide
    rw [ones, weight_seq, hone, ih, Nat.mul_succ, Nat.add_comm]

/-- Enough of them leave no room, whatever stands in front of them. -/
theorem lt_weight_seq_ones (g : Glob) {n : Nat} (hn : 32263 ≤ n) :
    Regex.sizeLimit < 1024 + (seq g (ones n)).weight := by
  rw [weight_seq, weight_ones, Regex.sizeLimit]
  omega

theorem takes_ones {n : Nat} {c : Char} (hc : c ≠ '/') : (ones n).Takes (List.replicate n c) := by
  induction n with
  | zero => rfl
  | succ n ih => exact ⟨[c], List.replicate n c, rfl, ⟨c, hc, rfl⟩, ih⟩

end Glob

namespace Pattern

/-! ## Accepted expressions -/

theorem expression_compile [Regex.Engine] (glob : Text) :
    (compile glob).expression = (some (Glob.ofText glob).expression).filter fun r =>
      r.height ≤ Regex.nestLimit && Regex.Engine.hasRoom r := by
  show Regex.compile? (expressionText glob) = _
  rw [Regex.compile?, Glob.parse?_expressionText]

/-- A glob gets an expression exactly when it fits and has room. -/
theorem isSome_compile [Regex.Engine] {glob : Text} :
    (compile glob).expression.isSome = true
      ↔ (Glob.ofText glob).Fits ∧ (Glob.ofText glob).HasRoom := by
  rw [← Glob.height_expression_le (Glob.proper_ofText glob), expression_compile]
  simp [Option.isSome_filter, Glob.HasRoom]

theorem isSome_compile_of_weight_le [Regex.Engine] {glob : Text} {g : Glob}
    (hg : Glob.ofText glob = g) (hfits : g.Fits) (hw : 1024 + g.weight ≤ Regex.sizeLimit) :
    (compile glob).expression.isSome = true := by
  subst hg
  exact isSome_compile.2 ⟨hfits, Glob.hasRoom_of_weight_le (Glob.proper_ofText glob) hw⟩

/-- A cautious engine refuses a glob of great weight. -/
theorem refused_of_weight_lt {glob : Text} {g : Glob} (hg : Glob.ofText glob = g)
    (hw : Regex.sizeLimit < 1024 + g.weight) : (compile glob).expression = none := by
  subst hg
  rw [← Option.not_isSome_iff_eq_none, isSome_compile]
  exact fun h => Glob.not_hasRoom_of_lt (Glob.proper_ofText glob) hw h.2

theorem accepts_compile [Regex.Engine] {glob : Text}
    (h : (compile glob).expression.isSome = true) (path : Text) :
    (compile glob).accepts path = (Glob.ofText glob).expression.accepts path := by
  obtain ⟨r, hr⟩ := Option.isSome_iff_exists.1 h
  have hexpression := hr
  rw [expression_compile] at hexpression
  obtain rfl := Option.some.inj (Option.filter_eq_some_iff.1 hexpression).1
  rw [accepts, hr]

theorem accepts_iff_takes [Regex.Engine] {glob : Text}
    (h : (compile glob).expression.isSome = true) (path : Text) :
    (compile glob).accepts path = true ↔ (Glob.ofText glob).Takes path := by
  rw [accepts_compile h, Regex.accepts_iff]
  exact Glob.denotes_expression (Glob.proper_ofText glob).inGroup

/-- Without an expression a glob is compared letter by letter. -/
theorem accepts_iff_eq [Regex.Engine] {glob : Text} (h : (compile glob).expression = none)
    (path : Text) : (compile glob).accepts path = true ↔ path = glob := by
  rw [accepts, h]
  exact beq_iff_eq.trans eq_comm

theorem accepts_eq_false_of_ne [Regex.Engine] {glob path : Text}
    (h : (compile glob).expression = none) (hne : path ≠ glob) :
    (compile glob).accepts path = false := by
  rw [← Bool.not_eq_true, accepts_iff_eq h]
  exact hne

/-- A glob that takes just its own text accepts that, with an expression or without one. -/
theorem accepts_iff_eq_of_takes [Regex.Engine] {glob : Text}
    (h : ∀ path, (Glob.ofText glob).Takes path ↔ path = glob) (path : Text) :
    (compile glob).accepts path = true ↔ path = glob := by
  cases hexpression : (compile glob).expression with
  | none => exact accepts_iff_eq hexpression path
  | some r => exact (accepts_iff_takes (Option.isSome_of_eq_some hexpression) path).trans (h path)

/-- **What a glob means.**  The text of the expression for a glob is always an expression.  Unless
that nests too deep or has no room, the pattern of the glob accepts exactly the paths that can be
cut into pieces for its tokens. -/
theorem accepts_compile_iff_covers [Regex.Engine] (glob : Text) :
    ∃ r, Regex.parse? (expressionText glob) = some r ∧
      (r.height ≤ Regex.nestLimit → Regex.Engine.hasRoom r = true →
        ∀ path, (compile glob).accepts path = true
          ↔ Glob.Covers (Brace.balanced glob.signs) glob.signs path) := by
  refine ⟨_, Glob.parse?_expressionText glob, fun hheight hroom path => ?_⟩
  have hfits := (Glob.height_expression_le (Glob.proper_ofText glob)).1 hheight
  rw [accepts_iff_takes (isSome_compile.2 ⟨hfits, hroom⟩)]
  exact (Glob.covers_iff_takes _ _ path).symm

/-- Directories, a character and a number. -/
theorem accepts_compile_iff_covers_number :
    let glob : Text := "/**/?{1..3}".toList
    let path : Text := "/a/b/c2".toList
    ∃ r, Regex.parse? (expressionText glob) = some r ∧ r.height ≤ Regex.nestLimit ∧
      Regex.Engine.hasRoom r = true ∧ (compile glob).accepts path = true := by
  intro glob path
  have hsigns : glob.signs = .plain '/' :: .plain '*' :: .plain '*' :: .plain '/' :: .plain '?' ::
      .plain '{' :: ['1', '.', '.', '3', '}'].map .plain := by
    simp [glob, Text.signs]
  have hbalanced : Brace.balanced glob.signs = true := by
    rw [hsigns]
    rfl
  have hglob : Glob.ofText glob = .seq .dirs (.seq .one (.seq (.range 1 3) .empty)) := by
    have hlead : Glob.lead true (.plain '{') (['1', '.', '.', '3', '}'].map .plain)
        = (.group (['1', '.', '.', '3'].map .plain), []) := rfl
    have hrange : Brace.range? (['1', '.', '.', '3'].map .plain) = some (1, 3) := rfl
    rw [Glob.ofText, Glob.ofSigns, hbalanced, hsigns, Glob.ofSignsWith_token (g := .dirs) rfl,
      Glob.ofSignsWith_token (g := .one) rfl, Glob.ofSignsWith_group hlead,
      Glob.ofBody_range hrange, Glob.ofSignsWith_nil]
  have hcovers : Glob.Covers (Brace.balanced glob.signs) glob.signs path := by
    rw [hsigns]
    have hdirs : '\n' ∉ ['a', '/', 'b'] := by decide
    have hone : 'c' ≠ '/' := by decide
    have hlow : (1 : Int) ≤ 2 := by decide
    have hhigh : (2 : Int) ≤ 3 := by decide
    exact .cons (.dirs hdirs) (.cons (.one hone) (.cons (.number rfl rfl hlow hhigh) .nil))
  obtain ⟨r, hr, haccepts⟩ := accepts_compile_iff_covers glob
  obtain rfl : (Glob.ofText glob).expression = r :=
    Option.some.inj ((Glob.parse?_expressionText glob).symm.trans hr)
  have hheight : (Glob.ofText glob).expression.height ≤ Regex.nestLimit := by
    rw [hglob]
    decide
  have hroom : Regex.Engine.hasRoom (Glob.ofText glob).expression = true := by
    rw [hglob]
    decide
  exact ⟨_, hr, hheight, hroom, (haccepts hheight hroom path).2 hcovers⟩

theorem questionMarks_refused {n : Nat} (hn : 32263 ≤ n) :
    (compile (List.replicate n '?')).expression = none := by
  apply refused_of_weight_lt (Glob.ofText_questionMarks n)
  rw [Glob.weight_ones, Regex.sizeLimit]
  omega

theorem covers_questionMarks {n : Nat} {c : Char} (hc : c ≠ '/') :
    Glob.Covers (Brace.balanced (Text.signs (List.replicate n '?')))
      (Text.signs (List.replicate n '?')) (List.replicate n c) := by
  rw [Glob.covers_iff_takes]
  show (Glob.ofText (List.replicate n '?')).Takes _
  rw [Glob.ofText_questionMarks]
  exact Glob.takes_ones hc

theorem height_questionMarks (n : Nat) :
    ∃ r, Regex.parse? (expressionText (List.replicate n '?')) = some r ∧
      r.height ≤ Regex.nestLimit := by
  refine ⟨_, Glob.parse?_expressionText _, ?_⟩
  rw [Glob.height_expression_le (Glob.proper_ofText _), Glob.ofText_questionMarks]
  exact Glob.fits_ones n

/-- So many question marks do not nest, but they have no room; and they do not stand for themselves
only. -/
theorem covers_unlike_accepts :
    let glob : Text := List.replicate 100000 '?'
    let path : Text := List.replicate 100000 'a'
    (∃ r, Regex.parse? (expressionText glob) = some r ∧ r.height ≤ Regex.nestLimit) ∧
      Glob.Covers (Brace.balanced glob.signs) glob.signs path ∧
      (compile glob).accepts path = false := by
  intro glob path
  refine ⟨height_questionMarks _, covers_questionMarks (by decide), ?_⟩
  apply accepts_eq_false_of_ne (questionMarks_refused (by decide))
  intro hsame
  have hmem : 'a' ∈ List.replicate 100000 '?' := by
    rw [← hsame]
    exact List.mem_replicate.2 ⟨by decide, rfl⟩
  exact absurd (List.eq_of_mem_replicate hmem) (by decide)

end Pattern

theorem Selector.selects_eq [Regex.Engine] {selector : Text} {g : Glob}
    (hg : Glob.ofText (anchored selector) = g) (hfits : g.Fits)
    (hw : 1024 + g.weight ≤ Regex.sizeLimit) (path : Text) :
    selects selector path = g.expression.accepts (Path.anchored path) := by
  have hsome := Pattern.isSome_compile_of_weight_le hg hfits hw
  subst hg
  exact Pattern.accepts_compile hsome _

end EditorConfig
