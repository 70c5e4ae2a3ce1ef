import Mathlib.Data.List.Induction
import EditorConfig.Proofs.Glob.Nesting
import EditorConfig.Proofs.Text.Sign

/-!
# Where groups end

* `Brace.openAfter`   how many groups are open behind signs, when one was open in front of them;
* `Brace.ClosesAt`    the position of the brace that closes a group;
* `Brace.Divided`     a body with its alternatives: nothing is lost, and every part is nested.

A group is read in terms of signs.  Here its end is told in terms of characters and positions: a
plain brace behind which as many groups were closed as were opened, for the first time.

Main statement: what is read of a group ends at such a position, or there is none; and the body is
divided into nested parts at the commas of its own (`Brace.closing?_coherent`).
-/

namespace EditorConfig

/-! ## Positions in a text -/

namespace Text

variable {t : Text} {c : Char} {start e : Nat}

theorem drop_eq_extract_append (hle : start ≤ e) (hc : t[e]? = some c) :
    t.drop start = t.extract start e ++ c :: t.drop (e + 1) := by
  obtain ⟨he, rfl⟩ := List.getElem?_eq_some_iff.1 hc
  have hdrop : (t.drop start).drop (e - start) = t[e] :: t.drop (e + 1) := by
    rw [List.drop_drop, Nat.add_sub_cancel' hle, List.drop_eq_getElem_cons he]
  rw [← hdrop]
  exact (List.take_append_drop _ _).symm

/-- A character behind `start`, found by the text in front of it. -/
theorem extract_of_drop_eq {a b : Text} (h : t.drop start = a ++ c :: b) :
    t.extract start (start + a.length) = a ∧ t[start + a.length]? = some c ∧
      t.drop (start + a.length + 1) = b := by
  refine ⟨?_, ?_, ?_⟩
  · show (t.drop start).take (start + a.length - start) = a
    rw [Nat.add_sub_cancel_left, h, List.take_left]
  · rw [← List.getElem?_drop, h, List.getElem?_append_right (Nat.le_refl _), Nat.sub_self]
    rfl
  · rw [Nat.add_assoc, ← List.drop_drop, h, List.drop_length_add_append]
    rfl

theorem extract_succ (hle : start ≤ e) (hc : t[e]? = some c) :
    t.extract start (e + 1) = t.extract start e ++ [c] := by
  show (t.drop start).take (e + 1 - start) = _
  rw [Nat.succ_sub hle, List.take_add_one, List.getElem?_drop, Nat.add_sub_cancel' hle, hc]
  rfl

theorem extract_eq_take {n : Nat} (hn : n ≤ e) :
    t.extract start n = (t.extract start e).take (n - start) := by
  show (t.drop start).take (n - start) = ((t.drop start).take (e - start)).take (n - start)
  rw [List.take_take, Nat.min_eq_left (Nat.sub_le_sub_right hn start)]

/-! ## Signs of the first characters -/

/-- The first characters have as many plain ones of a kind as the first signs; a backslash whose
character is cut off does not count. -/
theorem exists_prefix_count_take (t : Text) (n : Nat) :
    ∃ us, us <+: signs t ∧ ∀ c, us.count (.plain c) = (signs (t.take n)).count (.plain c) := by
  fun_induction signs t generalizing n with
  | case1 => exact ⟨[], List.prefix_rfl, by simp⟩
  | case2 =>
    cases n with
    | zero => exact ⟨[], List.nil_prefix, by simp⟩
    | succ n => exact ⟨[.quoted '\\'], List.prefix_rfl, by simp [signs]⟩
  | case3 d t ih =>
    cases n with
    | zero => exact ⟨[], List.nil_prefix, by simp⟩
    | succ n =>
      cases n with
      | zero => exact ⟨[], List.nil_prefix, by simp [signs]⟩
      | succ n =>
        obtain ⟨us, hus, hcount⟩ := ih n
        refine ⟨.quoted d :: us, (List.prefix_cons_inj _).2 hus, fun c => ?_⟩
        rw [List.take_succ_cons, List.take_succ_cons, signs_quoted, List.count_cons,
          List.count_cons, hcount]
  | case4 d t hd ih =>
    cases n with
    | zero => exact ⟨[], List.nil_prefix, by simp⟩
    | succ n =>
      obtain ⟨us, hus, hcount⟩ := ih n
      refine ⟨.plain d :: us, (List.prefix_cons_inj _).2 hus, fun c => ?_⟩
      rw [List.take_succ_cons, signs_plain hd, List.count_cons, List.count_cons, hcount]

/-- The first signs are the signs of the first characters. -/
theorem exists_take_signs_eq {us : List Sign} (h : us <+: signs t) :
    ∃ n, n ≤ t.length ∧ signs (t.take n) = us := by
  fun_induction signs t generalizing us with
  | case1 => exact ⟨0, Nat.le_refl _, (List.prefix_nil.1 h).symm⟩
  | case2 =>
    cases us with
    | nil => exact ⟨0, Nat.zero_le _, rfl⟩
    | cons u us =>
      obtain ⟨rfl, hus⟩ := List.cons_prefix_cons.1 h
      obtain rfl := List.prefix_nil.1 hus
      exact ⟨1, Nat.le_refl _, rfl⟩
  | case3 d t ih =>
    cases us with
    | nil => exact ⟨0, Nat.zero_le _, rfl⟩
    | cons u us =>
      obtain ⟨rfl, hus⟩ := List.cons_prefix_cons.1 h
      obtain ⟨n, hn, rfl⟩ := ih hus
      exact ⟨n + 2, Nat.add_le_add_right hn 2, signs_quoted d _⟩
  | case4 d t hd ih =>
    cases us with
    | nil => exact ⟨0, Nat.zero_le _, rfl⟩
    | cons u us =>
      obtain ⟨rfl, hus⟩ := List.cons_prefix_cons.1 h
      obtain ⟨n, hn, rfl⟩ := ih hus
      exact ⟨n + 1, Nat.succ_le_succ hn, signs_plain hd _⟩

/-- Signs with plain commas between their parts are those of texts with commas between them. -/
theorem exists_intercalate_of_signs {as : List (List Sign)} (hne : as ≠ [])
    (h : signs t = [.plain ','].intercalate as) :
    ∃ ts, ts.map signs = as ∧ [','].intercalate ts = t := by
  induction as generalizing t with
  | nil => exact absurd rfl hne
  | cons a as ih =>
    cases as with
    | nil =>
      rw [List.intercalate_singleton] at h
      exact ⟨[t], by rw [List.map_singleton, h], List.intercalate_singleton⟩
    | cons b bs =>
      rw [List.intercalate_cons_of_ne_nil (List.cons_ne_nil b bs), List.append_assoc,
        List.singleton_append] at h
      obtain ⟨x, y, rfl, -, rfl, hy⟩ := exists_append_of_signs h
      obtain ⟨ts, hts, rfl⟩ := ih (List.cons_ne_nil b bs) hy
      have hts' : ts ≠ [] := by
        rintro rfl
        cases hts
      refine ⟨x :: ts, by rw [List.map_cons, hts], ?_⟩
      rw [List.intercalate_cons_of_ne_nil hts', List.append_assoc, List.singleton_append]

end Text

namespace Brace

variable {ss body rest : List Sign} {depth : Nat} {t : Text} {start e : Nat}

/-! ## Open groups -/

/-- How many groups are open behind the signs, when one was open in front of them. -/
def openAfter (ss : List Sign) : Int := 1 + ss.count (.plain '{') - ss.count (.plain '}')

theorem Nested.openAfter_pos (h : Nested 0 ss) {us : List Sign} (hus : us <+: ss) :
    0 < openAfter us := by
  have hle := h.count_le us hus
  rw [openAfter]
  omega

/-- Groups are opened and closed one at a time, so that none is closed which is not open as long as
the number of open ones does not become zero. -/
theorem openAfter_pos (h : ∀ us, us <+: ss → openAfter us ≠ 0) : 0 < openAfter ss := by
  induction ss using List.reverseRecOn with
  | nil => decide
  | append_singleton ss s ih =>
    have hpos := ih fun us hus => h us (hus.trans (List.prefix_append ss [s]))
    have hne := h (ss ++ [s]) List.prefix_rfl
    have hone : [s].count (.plain '}') ≤ 1 := List.count_le_length
    simp only [openAfter, List.count_append] at hpos hne ⊢
    omega

theorem nested_of_openAfter (h : ∀ us, us <+: ss → openAfter us ≠ 0)
    (hend : openAfter ss = 1) : Nested 0 ss where
  count_le := by
    intro us hus
    have hpos := openAfter_pos fun vs hvs => h vs (hvs.trans hus)
    rw [openAfter] at hpos
    omega
  count_eq := by
    rw [openAfter] at hend
    omega

theorem openAfter_closing (ss : List Sign) :
    openAfter (ss ++ [.plain '}']) = openAfter ss - 1 := by
  have hopening : [Sign.plain '}'].count (.plain '{') = 0 := by decide
  have hclosing : [Sign.plain '}'].count (.plain '}') = 1 := by decide
  rw [openAfter, openAfter, List.count_append, List.count_append, hopening, hclosing]
  omega

/-! ## The end of a group -/

/-- What is read of a group is nested. -/
theorem nested_of_closing? (h : closing? depth ss = some (body, rest)) : Nested depth body := by
  induction ss generalizing depth body with
  | nil => cases h
  | cons s ss ih =>
    rw [closing?] at h
    by_cases hs : s = .plain '}' ∧ depth = 0
    · rw [if_pos hs] at h
      cases h
      exact nested_nil.2 hs.2
    · rw [if_neg hs] at h
      obtain ⟨⟨b, r⟩, hbr, he⟩ := Option.map_eq_some_iff.1 h
      cases he
      exact nested_cons.2 ⟨fun hc => Nat.pos_of_ne_zero fun h0 => hs ⟨hc, h0⟩, ih hbr⟩

theorem closing?_eq_some_iff : closing? depth ss = some (body, rest)
    ↔ ss = body ++ .plain '}' :: rest ∧ Nested depth body := by
  constructor
  · intro h
    exact ⟨eq_of_closing? h, nested_of_closing? h⟩
  · rintro ⟨rfl, h⟩
    exact closing?_append h rest

/-- The character at `e` closes the group whose body begins at `start`: it is a plain brace, and
behind it no group is open for the first time. -/
structure ClosesAt (t : Text) (start e : Nat) : Prop where
  start_le : start ≤ e
  brace : t[e]? = some '}'
  unquoted : Text.endsOpen (t.extract start e) = false
  returns : openAfter (Text.signs (t.extract start (e + 1))) = 0
  first : ∀ n, start ≤ n → n ≤ e → openAfter (Text.signs (t.extract start n)) ≠ 0

theorem signs_extract_succ (hle : start ≤ e) (hbrace : t[e]? = some '}')
    (hopen : Text.endsOpen (t.extract start e) = false) :
    Text.signs (t.extract start (e + 1)) = Text.signs (t.extract start e) ++ [.plain '}'] := by
  rw [Text.extract_succ hle hbrace, Text.signs_append hopen, Text.signs_plain (by decide),
    Text.signs_nil]

theorem ClosesAt.nested (h : ClosesAt t start e) : Nested 0 (Text.signs (t.extract start e)) := by
  apply nested_of_openAfter
  · intro us hus
    obtain ⟨n, hn, rfl⟩ := Text.exists_take_signs_eq hus
    have hlength : (t.extract start e).length ≤ e - start := List.length_take_le _ _
    have hle : start + n ≤ e := by
      have := h.start_le
      omega
    have htake : t.extract start (start + n) = (t.extract start e).take n := by
      rw [Text.extract_eq_take hle, Nat.add_sub_cancel_left]
    rw [← htake]
    exact h.first _ (Nat.le_add_right start n) hle
  · have hreturns := h.returns
    rw [signs_extract_succ h.start_le h.brace h.unquoted, openAfter_closing] at hreturns
    omega

theorem closesAt_of_nested (hle : start ≤ e) (hbrace : t[e]? = some '}')
    (hopen : Text.endsOpen (t.extract start e) = false)
    (hnested : Nested 0 (Text.signs (t.extract start e))) : ClosesAt t start e where
  start_le := hle
  brace := hbrace
  unquoted := hopen
  returns := by
    have heq := hnested.count_eq
    rw [signs_extract_succ hle hbrace hopen, openAfter_closing, openAfter]
    omega
  first := by
    intro n hn hne
    obtain ⟨us, hus, hcount⟩ := Text.exists_prefix_count_take (t.extract start e) (n - start)
    have hpos := hnested.openAfter_pos hus
    rw [openAfter, hcount, hcount, ← Text.extract_eq_take hne] at hpos
    exact Int.ne_of_gt hpos

/-- A group is read up to the position where it is closed. -/
theorem closing?_drop_eq_some_iff :
    closing? 0 (Text.signs (t.drop start)) = some (body, rest)
      ↔ ∃ e, ClosesAt t start e ∧ body = Text.signs (t.extract start e) ∧
          rest = Text.signs (t.drop (e + 1)) := by
  rw [closing?_eq_some_iff]
  constructor
  · rintro ⟨hsigns, hnested⟩
    obtain ⟨a, b, hdrop, hopen, rfl, rfl⟩ := Text.exists_append_of_signs hsigns
    obtain ⟨ha, hbrace, hb⟩ := Text.extract_of_drop_eq hdrop
    refine ⟨start + a.length, ?_, by rw [ha], by rw [hb]⟩
    rw [← ha] at hopen hnested
    exact closesAt_of_nested (Nat.le_add_right start _) hbrace hopen hnested
  · rintro ⟨e, he, rfl, rfl⟩
    refine ⟨?_, he.nested⟩
    rw [Text.drop_eq_extract_append he.start_le he.brace, Text.signs_append he.unquoted,
      Text.signs_plain (by decide)]

/-! ## Alternatives -/

/-- The depth that is kept along nested signs is the number of groups that were opened and not
closed. -/
theorem foldl_deeper_add_count {us : List Sign} (h : Nested depth ss) (hus : us <+: ss) :
    us.foldl deeper depth + us.count (.plain '}') = depth + us.count (.plain '{') := by
  induction us generalizing depth ss with
  | nil => rfl
  | cons u us ih =>
    obtain ⟨ts, rfl⟩ := hus
    obtain ⟨hpos, hn⟩ := nested_cons.1 h
    have hgo := ih hn (List.prefix_append us ts)
    have hadd := deeper_add_count hpos us
    rw [List.foldl_cons]
    omega

/-- A nested body falls into nested parts, each with its commas inside of braces. -/
theorem exists_alternatives_eq_cons (h : Nested depth ss) :
    ∃ a as, alternatives depth ss = a :: as ∧ (Nested depth a ∧ CommasInside depth a) ∧
      ∀ b ∈ as, Nested 0 b ∧ CommasInside 0 b := by
  induction ss generalizing depth with
  | nil => exact ⟨[], [], rfl, ⟨h, commasInside_nil⟩, by simp⟩
  | cons s ss ih =>
    obtain ⟨hpos, hss⟩ := nested_cons.1 h
    obtain ⟨a, as, halt, ha, has⟩ := ih hss
    rw [alternatives]
    by_cases hs : s = .plain ',' ∧ depth = 0
    · have hempty : Nested 0 [] ∧ CommasInside 0 [] := ⟨nested_nil.2 rfl, commasInside_nil⟩
      obtain ⟨rfl, rfl⟩ := hs
      rw [if_pos ⟨rfl, rfl⟩]
      refine ⟨[], _, rfl, hempty, fun b hb => ?_⟩
      rw [show alternatives 0 ss = a :: as from halt] at hb
      rcases List.mem_cons.1 hb with rfl | hb
      · exact ha
      · exact has b hb
    · have hcomma (hc : s = .plain ',') : 0 < depth :=
        Nat.pos_of_ne_zero fun h0 => hs ⟨hc, h0⟩
      have hfirst : Nested depth (s :: a) := nested_cons.2 ⟨hpos, ha.1⟩
      rw [if_neg hs, halt]
      exact ⟨s :: a, as, rfl, ⟨hfirst, (commasInside_cons hpos).2 ⟨hcomma, ha.2⟩⟩, has⟩

theorem nested_of_mem_alternatives (h : Nested 0 ss) {a : List Sign} (ha : a ∈ alternatives 0 ss) :
    Nested 0 a ∧ CommasInside 0 a := by
  obtain ⟨b, bs, halt, hb, hbs⟩ := exists_alternatives_eq_cons h
  rw [halt] at ha
  rcases List.mem_cons.1 ha with rfl | ha
  · exact hb
  · exact hbs a ha

theorem length_alternatives_eq_one_iff (h : Nested 0 ss) :
    (alternatives 0 ss).length = 1 ↔ CommasInside 0 ss := by
  constructor
  · intro hone
    obtain ⟨a, ha⟩ := List.length_eq_one_iff.1 hone
    have hss : a = ss := by
      have := intercalate_alternatives 0 ss
      rwa [ha, List.intercalate_singleton] at this
    exact hss ▸ (nested_of_mem_alternatives h (ha ▸ List.mem_singleton.2 rfl)).2
  · intro hc
    rw [alternatives_of_commasInside h hc]
    rfl

/-- The body of a group with its alternatives. -/
structure Divided (body : Text) : Prop where
  nested : Nested 0 body.signs
  /-- Behind the signs `us` the body is divided at the depth `us.foldl deeper 0`; so in front of a
  closing brace there is always a depth to take one from. -/
  depth_pos : ∀ us, us ++ [.plain '}'] <+: body.signs → 0 < us.foldl deeper 0
  joined : ∃ parts : List Text,
    parts.map Text.signs = alternatives 0 body.signs ∧ [','].intercalate parts = body
  parts : ∀ a ∈ alternatives 0 body.signs, Nested 0 a ∧ balanced a = true ∧ CommasInside 0 a
  /-- A body with commas is one part exactly when all its commas are inside of braces. -/
  one_iff : (alternatives 0 body.signs).length = 1 ∧ .plain ',' ∈ body.signs
    ↔ CommasInside 0 body.signs ∧ .plain ',' ∈ body.signs

theorem Nested.divided {body : Text} (h : Nested 0 body.signs) : Divided body where
  nested := h
  depth_pos := by
    intro us hus
    have hdepth := foldl_deeper_add_count h ((List.prefix_append us _).trans hus)
    have hpos := h.openAfter_pos hus
    rw [openAfter_closing, openAfter] at hpos
    omega
  joined := by
    obtain ⟨a, as, halt, -⟩ := exists_alternatives_eq_cons h
    have hne : alternatives 0 body.signs ≠ [] := by
      rw [halt]
      exact List.cons_ne_nil a as
    exact Text.exists_intercalate_of_signs hne (intercalate_alternatives 0 body.signs).symm
  parts := by
    intro a ha
    obtain ⟨hn, hc⟩ := nested_of_mem_alternatives h ha
    exact ⟨hn, hn.balanced, hc⟩
  one_iff := by rw [length_alternatives_eq_one_iff h]

/-- **Where a group ends, and how its body is divided.**  What is read as the body of a group ends
at the position of a plain brace behind which no group is open for the first time; it is nested, and
it is divided into nested parts at the commas of its own.  When no group is read, there is no such
position.  The brace is plain in the whole text, too, unless the characters in front of the body end
with an open backslash. -/
theorem closing?_coherent (t : Text) (start : Nat) :
    (∀ body rest, closing? 0 (Text.signs (t.drop start)) = some (body, rest) →
      ∃ e, ClosesAt t start e ∧ e < t.length ∧
        (Text.endsOpen (t.take start) = false → Text.endsOpen (t.take e) = false) ∧
        body = Text.signs (t.extract start e) ∧ rest = Text.signs (t.drop (e + 1)) ∧
        Divided (t.extract start e)) ∧
    (closing? 0 (Text.signs (t.drop start)) = none → ∀ e, ¬ClosesAt t start e) := by
  refine ⟨fun body rest h => ?_, fun h e he => ?_⟩
  · obtain ⟨e, he, hbody, hrest⟩ := closing?_drop_eq_some_iff.1 h
    obtain ⟨hlt, -⟩ := List.getElem?_eq_some_iff.1 he.brace
    refine ⟨e, he, hlt, fun hopen => ?_, hbody, hrest, he.nested.divided⟩
    have htake : t.take e = t.take start ++ t.extract start e := by
      rw [← List.take_add, Nat.add_sub_cancel' he.start_le]
    rw [htake, Text.endsOpen_append hopen, he.unquoted]
  · have hsome := closing?_drop_eq_some_iff.2 ⟨e, he, rfl, rfl⟩
    rw [h] at hsome
    cases hsome

/-- A quoted brace closes nothing. -/
example : closing? 0 (Text.signs (['{', 'a', '\\', '}', ',', '{', '}', '}', 'd'].drop 1))
    = some (Text.signs ['a', '\\', '}', ',', '{', '}'], [.plain 'd']) := by decide

end Brace

end EditorConfig
