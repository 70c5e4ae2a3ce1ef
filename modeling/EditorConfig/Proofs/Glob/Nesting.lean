import EditorConfig.Glob.Basic

/-!
# Nested braces

* `Brace.Nested`         signs that never close more braces than are open, and leave none open;
* `Brace.CommasInside`   signs whose plain commas all stand between braces.

Main statements: a group ends behind a nested body (`closing?_append`), a group that is opened in
nested signs is closed there (`exists_closing?`), and nested parts with commas between them are the
alternatives of their body (`alternatives_intercalate`).
-/

namespace EditorConfig

namespace Text

theorem infix_intercalate {α : Type} {sep a : List α} {as : List (List α)} (h : a ∈ as) :
    a <:+: sep.intercalate as := by
  induction as with
  | nil => cases h
  | cons b as ih =>
    by_cases hne : as = []
    · subst hne
      obtain rfl := List.mem_singleton.1 h
      exact ⟨[], [], by simp⟩
    · rw [List.intercalate_cons_of_ne_nil hne]
      rcases List.mem_cons.1 h with rfl | h
      · exact ⟨[], sep ++ sep.intercalate as, by simp⟩
      · exact (ih h).trans (List.suffix_append _ _).isInfix

end Text

namespace Brace

variable {depth : Nat} {s : Sign} {ss : List Sign}

/-! ## Depth -/

/-- Where `depth` braces are open, the signs never close more than are open, and they close all. -/
structure Nested (depth : Nat) (ss : List Sign) : Prop where
  count_le : ∀ us, us <+: ss → us.count (.plain '}') ≤ depth + us.count (.plain '{')
  count_eq : ss.count (.plain '}') = depth + ss.count (.plain '{')

/-- Where `depth` braces are open, a brace is open in front of every plain comma. -/
def CommasInside (depth : Nat) (ss : List Sign) : Prop :=
  ∀ us, us ++ [.plain ','] <+: ss → us.count (.plain '}') < depth + us.count (.plain '{')

theorem deeper_opening (depth : Nat) : deeper depth (.plain '{') = depth + 1 := rfl

theorem deeper_closing (depth : Nat) : deeper depth (.plain '}') = depth - 1 := rfl

theorem deeper_other (ho : s ≠ .plain '{') (hc : s ≠ .plain '}') : deeper depth s = depth := by
  rw [deeper, if_neg ho, if_neg hc]

/-- The depth keeps account of the braces. -/
theorem deeper_add_count (hs : s = .plain '}' → 0 < depth) (us : List Sign) :
    deeper depth s + us.count (.plain '{') + (s :: us).count (.plain '}')
      = depth + (s :: us).count (.plain '{') + us.count (.plain '}') := by
  by_cases ho : s = .plain '{'
  · subst ho
    rw [deeper_opening, List.count_cons_self, List.count_cons_of_ne (by decide)]
    omega
  · by_cases hc : s = .plain '}'
    · subst hc
      have hpos := hs rfl
      rw [deeper_closing, List.count_cons_self, List.count_cons_of_ne (by decide)]
      omega
    · rw [deeper_other ho hc, List.count_cons_of_ne ho, List.count_cons_of_ne hc]

/-- A group that is open around the signs changes nothing else. -/
theorem deeper_succ (hs : s = .plain '}' → 0 < depth) :
    deeper (depth + 1) s = deeper depth s + 1 := by
  unfold deeper
  split
  · rfl
  · split
    · next hc =>
      have hpos := hs hc
      omega
    · rfl

theorem nested_nil : Nested depth [] ↔ depth = 0 := by
  constructor
  · intro h
    have := h.count_eq
    simp only [List.count_nil] at this
    omega
  · rintro rfl
    refine ⟨fun us hus => ?_, rfl⟩
    rw [List.prefix_nil.1 hus]
    exact Nat.le_refl _

theorem nested_cons :
    Nested depth (s :: ss) ↔ (s = .plain '}' → 0 < depth) ∧ Nested (deeper depth s) ss := by
  constructor
  · intro h
    have hs : s = .plain '}' → 0 < depth := by
      rintro rfl
      have hone : 1 ≤ depth := by simpa using h.count_le [.plain '}'] (by simp)
      exact hone
    refine ⟨hs, fun us hus => ?_, ?_⟩
    · have hle := h.count_le (s :: us) ((List.prefix_cons_inj s).2 hus)
      have hadd := deeper_add_count hs us
      omega
    · have heq := h.count_eq
      have hadd := deeper_add_count hs ss
      omega
  · intro h1
    obtain ⟨hs, h⟩ := h1
    refine ⟨fun us hus => ?_, ?_⟩
    · cases us with
      | nil => simp
      | cons u us =>
        obtain ⟨rfl, hpre⟩ := List.cons_prefix_cons.1 hus
        have hle := h.count_le us hpre
        have hadd := deeper_add_count hs us
        omega
    · have heq := h.count_eq
      have hadd := deeper_add_count hs ss
      omega

instance decidableNested : (depth : Nat) → (ss : List Sign) → Decidable (Nested depth ss)
  | _, [] => decidable_of_iff _ nested_nil.symm
  | depth, s :: ss =>
    have := decidableNested (deeper depth s) ss
    decidable_of_iff _ nested_cons.symm

theorem Nested.balanced (h : Nested 0 ss) : balanced ss = true := by
  have := h.count_eq
  rw [Brace.balanced, beq_iff_eq]
  omega

theorem balanced_append {ts : List Sign} (hs : Brace.balanced ss = true)
    (ht : Brace.balanced ts = true) : Brace.balanced (ss ++ ts) = true := by
  simp only [Brace.balanced, beq_iff_eq, List.count_append] at *
  omega

theorem balanced_group {rest : List Sign} (hs : Nested 0 ss) (hrest : Brace.balanced rest = true) :
    Brace.balanced (.plain '{' :: (ss ++ .plain '}' :: rest)) = true := by
  have hcount := hs.count_eq
  rw [Brace.balanced, beq_iff_eq] at hrest ⊢
  rw [List.count_cons_self, List.count_cons_of_ne (by decide), List.count_append,
    List.count_append, List.count_cons_of_ne (by decide), List.count_cons_self]
  omega

theorem Nested.append {ts : List Sign} (hs : Nested depth ss) (ht : Nested 0 ts) :
    Nested depth (ss ++ ts) := by
  induction ss generalizing depth with
  | nil =>
    obtain rfl := nested_nil.1 hs
    exact ht
  | cons s ss ih =>
    obtain ⟨hpos, hs⟩ := nested_cons.1 hs
    exact nested_cons.2 ⟨hpos, ih hs⟩

theorem Nested.cons_plain (hs : Nested depth ss) (ho : s ≠ .plain '{') (hc : s ≠ .plain '}') :
    Nested depth (s :: ss) := by
  apply nested_cons.2
  rw [deeper_other ho hc]
  exact ⟨fun h => absurd h hc, hs⟩

theorem Nested.intercalate {as : List (List Sign)} (h : ∀ a ∈ as, Nested 0 a) :
    Nested 0 ([.plain ','].intercalate as) := by
  induction as with
  | nil => exact nested_nil.2 rfl
  | cons a as ih =>
    have ha := h a (by simp)
    have has := ih fun b hb => h b (List.mem_cons_of_mem _ hb)
    cases as with
    | nil =>
      rw [List.intercalate_singleton]
      exact ha
    | cons b bs =>
      rw [List.intercalate_cons_of_ne_nil (by simp), List.append_assoc]
      exact ha.append (has.cons_plain (by decide) (by decide))

/-! ## Groups -/

/-- Reading a group loses the closing brace only. -/
theorem eq_of_closing? {body rest : List Sign} (h : closing? depth ss = some (body, rest)) :
    ss = body ++ .plain '}' :: rest := by
  induction ss generalizing depth body with
  | nil => cases h
  | cons s ss ih =>
    rw [closing?] at h
    by_cases hs : s = .plain '}' ∧ depth = 0
    · rw [if_pos hs] at h
      cases h
      rw [hs.1]
      rfl
    · rw [if_neg hs] at h
      obtain ⟨⟨b, r⟩, hbr, he⟩ := Option.map_eq_some_iff.1 h
      cases he
      rw [ih hbr]
      rfl

/-- The body of a group and what follows the group are parts of the signs that the group is in. -/
theorem infix_of_closing? {body rest : List Sign} (h : closing? depth ss = some (body, rest))
    (s : Sign) : body <:+: s :: ss ∧ rest <:+: s :: ss := by
  rw [eq_of_closing? h]
  exact ⟨⟨[s], .plain '}' :: rest, rfl⟩, ⟨s :: (body ++ [.plain '}']), [], by simp⟩⟩

/-- A group ends behind a nested body. -/
theorem closing?_append {body : List Sign} (h : Nested depth body) (rest : List Sign) :
    closing? depth (body ++ .plain '}' :: rest) = some (body, rest) := by
  induction body generalizing depth with
  | nil =>
    obtain rfl := nested_nil.1 h
    rfl
  | cons s body ih =>
    obtain ⟨hpos, h⟩ := nested_cons.1 h
    have hne : ¬(s = .plain '}' ∧ depth = 0) := by
      intro hs
      have := hpos hs.1
      omega
    rw [List.cons_append, closing?, if_neg hne, ih h]
    rfl

/-- What is nested behind `depth + 1 + outer` open braces falls into a part that leaves just the
last `outer + 1` of them open, the brace that closes one more, and a nested rest. -/
theorem Nested.split {outer : Nat} (h : Nested (depth + 1 + outer) ss) :
    ∃ body rest, ss = body ++ .plain '}' :: rest ∧ Nested depth body ∧ Nested outer rest := by
  induction ss generalizing depth with
  | nil =>
    have := nested_nil.1 h
    omega
  | cons s ss ih =>
    obtain ⟨-, hss⟩ := nested_cons.1 h
    by_cases ho : s = .plain '{'
    · subst ho
      have hdepth : deeper (depth + 1 + outer) (.plain '{') = depth + 1 + 1 + outer := by
        rw [deeper_opening]
        omega
      rw [hdepth] at hss
      obtain ⟨body, rest, rfl, hbody, hrest⟩ := ih hss
      exact ⟨.plain '{' :: body, rest, rfl, nested_cons.2 ⟨by simp, hbody⟩, hrest⟩
    · by_cases hc : s = .plain '}'
      · subst hc
        have hdepth : deeper (depth + 1 + outer) (.plain '}') = depth + outer := by
          rw [deeper_closing]
          omega
        rw [hdepth] at hss
        cases depth with
        | zero =>
          rw [Nat.zero_add] at hss
          exact ⟨[], ss, rfl, nested_nil.2 rfl, hss⟩
        | succ depth =>
          obtain ⟨body, rest, rfl, hbody, hrest⟩ := ih hss
          exact ⟨.plain '}' :: body, rest, rfl,
            nested_cons.2 ⟨fun _ => Nat.succ_pos depth, hbody⟩, hrest⟩
      · rw [deeper_other ho hc] at hss
        obtain ⟨body, rest, rfl, hbody, hrest⟩ := ih hss
        exact ⟨s :: body, rest, rfl, hbody.cons_plain ho hc, hrest⟩

/-- One brace more closes one group more. -/
theorem Nested.closed (h : Nested depth ss) : Nested (depth + 1) (ss ++ [.plain '}']) := by
  induction ss generalizing depth with
  | nil =>
    obtain rfl := nested_nil.1 h
    exact nested_cons.2 ⟨fun _ => Nat.one_pos, nested_nil.2 rfl⟩
  | cons s ss ih =>
    obtain ⟨hpos, hss⟩ := nested_cons.1 h
    have hclosed := ih hss
    rw [← deeper_succ hpos] at hclosed
    exact nested_cons.2 ⟨fun _ => Nat.succ_pos depth, hclosed⟩

theorem Nested.group (h : Nested 0 ss) : Nested 0 (.plain '{' :: (ss ++ [.plain '}'])) :=
  nested_cons.2 ⟨by simp, h.closed⟩

/-- A group that is opened in nested signs is closed there, and what follows it is nested. -/
theorem exists_closing? (h : Nested 0 (.plain '{' :: ss)) :
    ∃ body rest, ss = body ++ .plain '}' :: rest ∧ Nested 0 body ∧
      closing? 0 ss = some (body, rest) ∧ Nested 0 rest := by
  have hss : Nested (0 + 1 + 0) ss := (nested_cons.1 h).2
  obtain ⟨body, rest, rfl, hbody, hrest⟩ := hss.split
  exact ⟨body, rest, rfl, hbody, closing?_append hbody rest, hrest⟩

/-! ## Alternatives -/

theorem exists_mem_alternatives (depth : Nat) (ss : List Sign) :
    ∃ a, a ∈ alternatives depth ss := by
  cases ss with
  | nil => exact ⟨[], List.mem_singleton.2 rfl⟩
  | cons s ss =>
    unfold alternatives
    split
    · exact ⟨[], List.mem_cons_self⟩
    · split
      · exact ⟨[s], List.mem_singleton.2 rfl⟩
      · next a as _ => exact ⟨s :: a, List.mem_cons_self⟩

/-- The alternatives with commas between them give back the body. -/
theorem intercalate_alternatives (depth : Nat) (ss : List Sign) :
    [.plain ','].intercalate (alternatives depth ss) = ss := by
  induction ss generalizing depth with
  | nil => rfl
  | cons s ss ih =>
    rw [alternatives]
    by_cases hs : s = .plain ',' ∧ depth = 0
    · have hne : alternatives depth ss ≠ [] := by
        obtain ⟨a, ha⟩ := exists_mem_alternatives depth ss
        exact List.ne_nil_of_mem ha
      rw [if_pos hs, List.intercalate_cons_of_ne_nil hne, ih, hs.1]
      rfl
    · rw [if_neg hs]
      have hss := ih (deeper depth s)
      cases ha : alternatives (deeper depth s) ss with
      | nil =>
        obtain ⟨a, hm⟩ := exists_mem_alternatives (deeper depth s) ss
        rw [ha] at hm
        cases hm
      | cons a as =>
        rw [ha] at hss
        show [Sign.plain ','].intercalate ((s :: a) :: as) = s :: ss
        rw [List.intercalate_cons_cons_left, hss]

theorem infix_of_mem_alternatives {a : List Sign} (h : a ∈ alternatives depth ss) : a <:+: ss := by
  rw [← intercalate_alternatives depth ss]
  exact Text.infix_intercalate h

theorem commasInside_nil : CommasInside depth [] := by
  intro us hus
  simp at hus

theorem commasInside_cons (hs : s = .plain '}' → 0 < depth) :
    CommasInside depth (s :: ss)
      ↔ (s = .plain ',' → 0 < depth) ∧ CommasInside (deeper depth s) ss := by
  constructor
  · intro h
    refine ⟨?_, fun us hus => ?_⟩
    · rintro rfl
      have := h [] (by simp)
      simpa using this
    · have hlt := h (s :: us) ((List.prefix_cons_inj s).2 hus)
      have hadd := deeper_add_count hs us
      omega
  · intro h1 us hus
    obtain ⟨hcomma, h⟩ := h1
    cases us with
    | nil =>
      have hpos := hcomma (List.cons_prefix_cons.1 hus).1.symm
      simpa using hpos
    | cons u us =>
      obtain ⟨rfl, hpre⟩ := List.cons_prefix_cons.1 hus
      have hlt := h us hpre
      have hadd := deeper_add_count hs us
      omega

/-- Inside a group no comma is outside of it. -/
theorem CommasInside.closed (h : Nested depth ss) :
    CommasInside (depth + 1) (ss ++ [.plain '}']) := by
  induction ss generalizing depth with
  | nil =>
    obtain rfl := nested_nil.1 h
    exact (commasInside_cons fun _ => Nat.one_pos).2 ⟨by simp, commasInside_nil⟩
  | cons s ss ih =>
    obtain ⟨hpos, hss⟩ := nested_cons.1 h
    have hclosed := ih hss
    rw [← deeper_succ hpos] at hclosed
    exact (commasInside_cons fun _ => Nat.succ_pos depth).2 ⟨fun _ => Nat.succ_pos depth, hclosed⟩

theorem CommasInside.group (h : Nested 0 ss) :
    CommasInside 0 (.plain '{' :: (ss ++ [.plain '}'])) :=
  (commasInside_cons (by simp)).2 ⟨by simp, .closed h⟩

/-- The first part of a body ends at the first comma of its own. -/
theorem alternatives_append_comma (hn : Nested depth ss) (hc : CommasInside depth ss)
    (rest : List Sign) :
    alternatives depth (ss ++ .plain ',' :: rest) = ss :: alternatives 0 rest := by
  induction ss generalizing depth with
  | nil =>
    obtain rfl := nested_nil.1 hn
    rfl
  | cons s ss ih =>
    obtain ⟨hpos, hn⟩ := nested_cons.1 hn
    obtain ⟨hcomma, hc⟩ := (commasInside_cons hpos).1 hc
    have hne : ¬(s = .plain ',' ∧ depth = 0) := by
      intro hs
      have := hcomma hs.1
      omega
    rw [List.cons_append, alternatives, if_neg hne, ih hn hc]

theorem alternatives_of_commasInside (hn : Nested depth ss) (hc : CommasInside depth ss) :
    alternatives depth ss = [ss] := by
  induction ss generalizing depth with
  | nil => rfl
  | cons s ss ih =>
    obtain ⟨hpos, hn⟩ := nested_cons.1 hn
    obtain ⟨hcomma, hc⟩ := (commasInside_cons hpos).1 hc
    have hne : ¬(s = .plain ',' ∧ depth = 0) := by
      intro hs
      have := hcomma hs.1
      omega
    rw [alternatives, if_neg hne, ih hn hc]

/-- Nested parts with commas between them are the alternatives of the body that they make up. -/
theorem alternatives_intercalate {as : List (List Sign)} (hne : as ≠ [])
    (h : ∀ a ∈ as, Nested 0 a ∧ CommasInside 0 a) :
    alternatives 0 ([.plain ','].intercalate as) = as := by
  induction as with
  | nil => exact absurd rfl hne
  | cons a as ih =>
    obtain ⟨hn, hc⟩ := h a (by simp)
    cases as with
    | nil => rw [List.intercalate_singleton, alternatives_of_commasInside hn hc]
    | cons b bs =>
      have has := ih (by simp) fun d hd => h d (List.mem_cons_of_mem _ hd)
      rw [List.intercalate_cons_of_ne_nil (by simp), List.append_assoc, List.singleton_append,
        alternatives_append_comma hn hc, has]

end Brace

end EditorConfig
