import EditorConfig.Regex.Basic

/-!
# Matching by marking

A text is matched by keeping a mark for each of its positions: the positions that a part of the
expression can end at.  Each part of the expression turns the marks before it into the marks after
it, in one pass over the text.

* `Regex.advance`   the marks after an expression, from the marks before it;
* `Regex.rests`     the rests of the text at the marked positions;
* `Regex.accepts`   whether an expression takes the whole text.

Main statements: `mem_rests_advance` says what the marks mean, `accepts_iff` that matching decides
`Denotes`.
-/

namespace EditorConfig.Regex

/-! ## Marks -/

/-- The rests of `t` at the marked positions; the first mark is for the whole of `t`. -/
def rests : List Bool → Text → List Text
  | [], _ => []
  | m :: _, [] => if m then [[]] else []
  | m :: ms, c :: t => (if m then [c :: t] else []) ++ rests ms t

/-- The marks after one character that `a` takes; `start` is the mark of the first position. -/
def step (a : Atom) (start : Bool) : List Bool → Text → List Bool
  | _, [] => [start]
  | ms, c :: t => start :: step a (ms.headD false && a.has c) ms.tail t

/-- The marks after any number of characters that `a` takes; `start` is the mark that is carried
to the first position. -/
def sweep (a : Atom) (start : Bool) : List Bool → Text → List Bool
  | ms, [] => [ms.headD false || start]
  | ms, c :: t =>
    (ms.headD false || start) :: sweep a ((ms.headD false || start) && a.has c) ms.tail t

/-- The positions marked in one list or the other. -/
def either : List Bool → List Bool → List Bool
  | [], ns => ns
  | ms, [] => ms
  | m :: ms, n :: ns => (m || n) :: either ms ns

/-- The marks after `r`, from the marks before it. -/
def advance (t : Text) : Regex → List Bool → List Bool
  | empty, ms => ms
  | one a, ms => step a false ms t
  | many a, ms => sweep a false ms t
  | group r, ms => advance t r ms
  | seq r s, ms => advance t s (advance t r ms)
  | alt r s, ms => either (advance t r ms) (advance t s ms)

/-- Whether `r` takes the whole of `t`. -/
def accepts (r : Regex) (t : Text) : Bool := (advance t r [true])[t.length]?.getD false

/-! ## What the marks mean -/

theorem mem_rests_nil {ms : List Bool} {u : Text} :
    u ∈ rests ms [] ↔ ms.headD false = true ∧ u = [] := by
  cases ms with
  | nil => simp [rests]
  | cons m ms => cases m <;> simp [rests]

theorem mem_rests_cons {ms : List Bool} {c : Char} {t u : Text} :
    u ∈ rests ms (c :: t) ↔ (ms.headD false = true ∧ u = c :: t) ∨ u ∈ rests ms.tail t := by
  cases ms with
  | nil => cases t <;> simp [rests]
  | cons m ms => cases m <;> simp [rests]

theorem headD_either (ms ns : List Bool) :
    (either ms ns).headD false = (ms.headD false || ns.headD false) := by
  cases ms <;> cases ns <;> simp [either]

theorem tail_either (ms ns : List Bool) : (either ms ns).tail = either ms.tail ns.tail := by
  cases ms with
  | nil => simp [either]
  | cons m ms =>
    cases ns with
    | nil => cases ms <;> simp [either]
    | cons n ns => simp [either]

theorem mem_rests_either {ms ns : List Bool} {t u : Text} :
    u ∈ rests (either ms ns) t ↔ u ∈ rests ms t ∨ u ∈ rests ns t := by
  induction t generalizing ms ns with
  | nil => simp only [mem_rests_nil, headD_either, Bool.or_eq_true, or_and_right]
  | cons c t ih =>
    rw [mem_rests_cons, mem_rests_cons, mem_rests_cons, headD_either, tail_either, ih]
    simp only [Bool.or_eq_true, or_and_right, or_assoc, or_left_comm]

theorem mem_rests_step {a : Atom} {start : Bool} {ms : List Bool} {t u : Text} :
    u ∈ rests (step a start ms t) t ↔
      (start = true ∧ u = t) ∨ ∃ c, a.has c = true ∧ c :: u ∈ rests ms t := by
  induction t generalizing start ms with
  | nil => simp [step, mem_rests_nil]
  | cons c t ih =>
    rw [step, mem_rests_cons, List.headD_cons, List.tail_cons, ih]
    simp only [mem_rests_cons, Bool.and_eq_true, List.cons.injEq]
    constructor
    · rintro (h | ⟨⟨h, hc⟩, rfl⟩ | ⟨d, hd, h⟩)
      · exact .inl h
      · exact .inr ⟨c, hc, .inl ⟨h, rfl, rfl⟩⟩
      · exact .inr ⟨d, hd, .inr h⟩
    · rintro (h | ⟨d, hd, (⟨h, rfl, rfl⟩ | h)⟩)
      · exact .inl h
      · exact .inr (.inl ⟨⟨h, hd⟩, rfl⟩)
      · exact .inr (.inr ⟨d, hd, h⟩)

theorem mem_rests_sweep {a : Atom} {start : Bool} {ms : List Bool} {t u : Text} :
    u ∈ rests (sweep a start ms t) t ↔
      ∃ p, (∀ c ∈ p, a.has c = true) ∧ ((start = true ∧ p ++ u = t) ∨ p ++ u ∈ rests ms t) := by
  induction t generalizing start ms with
  | nil =>
    rw [sweep, mem_rests_nil, List.headD_cons, Bool.or_eq_true]
    simp only [List.append_eq_nil_iff, mem_rests_nil]
    constructor
    · rintro ⟨h | h, rfl⟩
      · exact ⟨[], by simp, .inr ⟨h, rfl, rfl⟩⟩
      · exact ⟨[], by simp, .inl ⟨h, rfl, rfl⟩⟩
    · rintro ⟨p, -, (⟨h, rfl, rfl⟩ | ⟨h, rfl, rfl⟩)⟩
      · exact ⟨.inr h, rfl⟩
      · exact ⟨.inl h, rfl⟩
  | cons c t ih =>
    rw [sweep, mem_rests_cons, List.headD_cons, List.tail_cons, ih]
    simp only [mem_rests_cons, Bool.and_eq_true, Bool.or_eq_true]
    constructor
    · rintro (⟨h | h, rfl⟩ | ⟨p, hp, (⟨⟨h | h, hc⟩, rfl⟩ | h)⟩)
      · exact ⟨[], by simp, .inr (.inl ⟨h, rfl⟩)⟩
      · exact ⟨[], by simp, .inl ⟨h, rfl⟩⟩
      · exact ⟨c :: p, by simpa [hc] using hp, .inr (.inl ⟨h, rfl⟩)⟩
      · exact ⟨c :: p, by simpa [hc] using hp, .inl ⟨h, rfl⟩⟩
      · exact ⟨p, hp, .inr (.inr h)⟩
    · rintro ⟨p, hp, (⟨h, hpu⟩ | ⟨h, hpu⟩ | h)⟩
      · cases p with
        | nil => exact .inl ⟨.inr h, hpu⟩
        | cons d p =>
          obtain ⟨rfl, rfl⟩ := List.cons.inj hpu
          exact .inr ⟨p, fun e he => hp e (by simp [he]), .inl ⟨⟨.inr h, hp d (by simp)⟩, rfl⟩⟩
      · cases p with
        | nil => exact .inl ⟨.inl h, hpu⟩
        | cons d p =>
          obtain ⟨rfl, rfl⟩ := List.cons.inj hpu
          exact .inr ⟨p, fun e he => hp e (by simp [he]), .inl ⟨⟨.inl h, hp d (by simp)⟩, rfl⟩⟩
      · exact .inr ⟨p, hp, .inr h⟩

/-- A position is marked after `r` when a text of `r` leads to it from a position marked before. -/
theorem mem_rests_advance {r : Regex} {ms : List Bool} {t u : Text} :
    u ∈ rests (advance t r ms) t ↔ ∃ p, r.Denotes p ∧ p ++ u ∈ rests ms t := by
  induction r generalizing ms u with
  | empty => simp [advance, Denotes]
  | one a =>
    rw [advance, mem_rests_step]
    simp only [Denotes, Bool.false_eq_true, false_and, false_or]
    constructor
    · rintro ⟨c, hc, h⟩
      exact ⟨[c], ⟨c, hc, rfl⟩, h⟩
    · rintro ⟨p, ⟨c, hc, rfl⟩, h⟩
      exact ⟨c, hc, h⟩
  | many a => rw [advance, mem_rests_sweep]; simp [Denotes]
  | group r ih => exact ih
  | seq r s ihr ihs =>
    rw [advance, ihs]
    simp only [ihr, Denotes]
    constructor
    · rintro ⟨q, hq, p, hp, h⟩
      exact ⟨p ++ q, ⟨p, q, rfl, hp, hq⟩, by simpa using h⟩
    · rintro ⟨-, ⟨p, q, rfl, hp, hq⟩, h⟩
      exact ⟨q, hq, p, hp, by simpa using h⟩
  | alt r s ihr ihs =>
    rw [advance, mem_rests_either, ihr, ihs]
    simp only [Denotes, or_and_right, exists_or]

theorem nil_mem_rests {ms : List Bool} {t : Text} :
    [] ∈ rests ms t ↔ ms[t.length]?.getD false = true := by
  induction t generalizing ms with
  | nil =>
    cases ms with
    | nil => simp [rests]
    | cons m ms => cases m <;> simp [rests]
  | cons c t ih =>
    cases ms with
    | nil => simp [rests]
    | cons m ms => simp [rests, ih]

/-- Matching decides what an expression denotes. -/
theorem accepts_iff {r : Regex} {t : Text} : r.accepts t = true ↔ r.Denotes t := by
  rw [accepts, ← nil_mem_rests, mem_rests_advance]
  have start (u : Text) : u ∈ rests [true] t ↔ u = t := by
    cases t <;> simp [rests]
  simp [start]

end EditorConfig.Regex
