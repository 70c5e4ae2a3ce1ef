import EditorConfig.Regex.Basic

/-!
# What the marks of a class stand for

* `Mark.Joins`     the dash at a place makes a range of the characters beside it;
* `Mark.Ranges`    the marks have the range from one character to another;
* `Mark.Lone`      the marks have a dash that makes no range;
* `Mark.Spans`     a range of the marks runs across a character;
* `Mark.Stands`    the characters that marks stand for, as long as no two dashes meet;
* `Mark.Apart`     no two dashes meet.

Main statements: where no two dashes meet, marks describe one union, and it has the characters that
they stand for (`any_has_iff`); where two dashes meet, a member is taken away again
(`exists_member_removed`).  A character that is not written out comes from a range
(`spans_of_any_has`).
-/

namespace EditorConfig

theorem Regex.Interval.has_iff {low high c : Char} :
    (Interval.mk low high).has c = true ↔ low ≤ c ∧ c ≤ high := by
  simp [has]

theorem Regex.Interval.has_self_iff {a c : Char} : (Interval.mk a a).has c = true ↔ c = a := by
  rw [has_iff]
  constructor
  · intro h
    exact Char.le_antisymm h.2 h.1
  · rintro rfl
    exact ⟨Char.le_refl c, Char.le_refl c⟩

namespace Mark

/-! ## Ranges -/

/-- The dash at a place makes a range of the characters beside it.  Right after a range it stands
for itself. -/
def Joins (ms : List Mark) : Nat → Prop
  | 0 => False
  | 1 => ms[1]? = some .dash
  | i + 2 => ms[i + 2]? = some .dash ∧ ¬Joins ms i

instance decidableJoins (ms : List Mark) : (i : Nat) → Decidable (Joins ms i)
  | 0 => inferInstanceAs (Decidable False)
  | 1 => inferInstanceAs (Decidable (ms[1]? = some .dash))
  | i + 2 =>
    have := decidableJoins ms i
    inferInstanceAs (Decidable (ms[i + 2]? = some .dash ∧ ¬Joins ms i))

/-- In `a-c-e` the first dash makes a range and the second one is a character. -/
example :
    let ms := [.member 'a', .dash, .member 'c', .dash, .member 'e']
    Joins ms 1 ∧ ¬Joins ms 3 := by
  decide

def Ranges (ms : List Mark) (low high : Char) : Prop :=
  ∃ i, Joins ms (i + 1) ∧ ms[i]? = some (.member low) ∧ ms[i + 2]? = some (.member high)

def Lone (ms : List Mark) : Prop := ∃ i, ms[i]? = some .dash ∧ ¬Joins ms i

/-- A range of the marks runs across the character. -/
def Spans (ms : List Mark) (c : Char) : Prop := ∃ low high, Ranges ms low high ∧ low ≤ c ∧ c ≤ high

section
variable {m : Mark} {ms : List Mark} {low high a b : Char}

/-- A mark in front that begins no range moves the ranges by one place. -/
theorem joins_cons (h : ms.head? ≠ some .dash) : ∀ i, Joins (m :: ms) (i + 1) ↔ Joins ms i
  | 0 => by simpa [Joins, List.head?_eq_getElem?] using h
  | 1 => by simp [Joins]
  | i + 2 => and_congr Iff.rfl (not_congr (joins_cons h i))

/-- A range in front moves the ranges by three places: a dash behind it makes none. -/
theorem joins_range : ∀ i,
    Joins (.member low :: .dash :: .member high :: ms) (i + 3) ↔ Joins ms i
  | 0 => by simp [Joins]
  | 1 => by simp [Joins]
  | i + 2 => and_congr Iff.rfl (not_congr (joins_range i))

theorem ranges_cons (h : ms.head? ≠ some .dash) : Ranges (m :: ms) a b ↔ Ranges ms a b := by
  constructor
  · rintro ⟨i, hi, ha, hb⟩
    rw [joins_cons h] at hi
    cases i with
    | zero => exact absurd hi id
    | succ i => exact ⟨i, hi, ha, hb⟩
  · rintro ⟨i, hi, ha, hb⟩
    exact ⟨i + 1, (joins_cons h (i + 1)).2 hi, ha, hb⟩

theorem lone_cons (h : ms.head? ≠ some .dash) : Lone (m :: ms) ↔ m = .dash ∨ Lone ms := by
  constructor
  · rintro ⟨i, hi, hj⟩
    cases i with
    | zero => exact .inl (Option.some.inj hi)
    | succ i => exact .inr ⟨i, hi, fun hi' => hj ((joins_cons h i).2 hi')⟩
  · rintro (rfl | ⟨i, hi, hj⟩)
    · exact ⟨0, rfl, id⟩
    · exact ⟨i + 1, hi, fun hi' => hj ((joins_cons h i).1 hi')⟩

theorem ranges_range : Ranges (.member low :: .dash :: .member high :: ms) a b ↔
    (a = low ∧ b = high) ∨ Ranges ms a b := by
  constructor
  · rintro ⟨i, hi, ha, hb⟩
    match i, hi, ha, hb with
    | 0, _, ha, hb =>
      cases ha
      cases hb
      exact .inl ⟨rfl, rfl⟩
    | 1, hi, _, _ => exact absurd hi.1 (by simp)
    | 2, hi, _, _ => exact absurd ((joins_range 0).1 hi) id
    | i + 3, hi, ha, hb => exact .inr ⟨i, (joins_range (i + 1)).1 hi, ha, hb⟩
  · rintro (⟨rfl, rfl⟩ | ⟨i, hi, ha, hb⟩)
    · exact ⟨0, rfl, rfl, rfl⟩
    · exact ⟨i + 3, (joins_range (i + 1)).2 hi, ha, hb⟩

theorem not_spans_dash (c : Char) : ¬Spans [.dash] c := by
  rintro ⟨low, high, ⟨i, -, hlow, -⟩, -⟩
  have hm := List.mem_of_getElem? hlow
  simp at hm

theorem lone_range : Lone (.member low :: .dash :: .member high :: ms) ↔ Lone ms := by
  constructor
  · rintro ⟨i, hi, hj⟩
    match i, hi, hj with
    | 1, _, hj => exact absurd rfl hj
    | i + 3, hi, hj => exact ⟨i, hi, fun hi' => hj ((joins_range i).2 hi')⟩
  · rintro ⟨i, hi, hj⟩
    exact ⟨i + 3, hi, fun hi' => hj ((joins_range i).1 hi')⟩

end

/-! ## Characters -/

/-- The characters that marks stand for, as long as no two dashes meet. -/
def Stands (ms : List Mark) (c : Char) : Prop :=
  .member c ∈ ms ∨ (c = '-' ∧ Lone ms) ∨ ∃ low high, Ranges ms low high ∧ low ≤ c ∧ c ≤ high

section
variable {m : Mark} {ms : List Mark} {low high c : Char}

theorem not_stands_nil (c : Char) : ¬Stands [] c := by
  simp [Stands, Lone, Ranges]

theorem eq_char_iff : c = m.char ↔ .member c = m ∨ (c = '-' ∧ m = .dash) := by
  cases m <;> simp [char]

theorem stands_cons (h : ms.head? ≠ some .dash) :
    Stands (m :: ms) c ↔ c = m.char ∨ Stands ms c := by
  rw [eq_char_iff]
  simp only [Stands, ranges_cons h, lone_cons h, List.mem_cons]
  grind

/-- The two ends of a range are characters of the range. -/
theorem stands_range (hle : low ≤ high) :
    Stands (.member low :: .dash :: .member high :: ms) c ↔
      (low ≤ c ∧ c ≤ high) ∨ Stands ms c := by
  have hends : (c = low ∨ c = high) → low ≤ c ∧ c ≤ high := by
    rintro (rfl | rfl)
    · exact ⟨Char.le_refl c, hle⟩
    · exact ⟨hle, Char.le_refl c⟩
  simp only [Stands, lone_range, ranges_range, List.mem_cons, member.injEq, reduceCtorEq, false_or]
  constructor
  · rintro ((hc | hc | hc) | hlone | ⟨a, b, (⟨rfl, rfl⟩ | hab), hc⟩)
    · exact .inl (hends (.inl hc))
    · exact .inl (hends (.inr hc))
    · exact .inr (.inl hc)
    · exact .inr (.inr (.inl hlone))
    · exact .inl hc
    · exact .inr (.inr (.inr ⟨a, b, hab, hc⟩))
  · rintro (hc | hc | hlone | ⟨a, b, hab, hc⟩)
    · exact .inr (.inr ⟨low, high, .inl ⟨rfl, rfl⟩, hc⟩)
    · exact .inl (.inr (.inr hc))
    · exact .inr (.inl hlone)
    · exact .inr (.inr ⟨a, b, .inr hab, hc⟩)

end

/-! ## Unions -/

/-- No two dashes meet. -/
def Apart (ms : List Mark) : Prop := ¬[.dash, .dash] <:+: ms

instance : DecidablePred Apart := fun _ => inferInstanceAs (Decidable (¬_))

theorem Apart.of_suffix {ms ns : List Mark} (h : Apart ms) (hns : ns <:+ ms) : Apart ns :=
  fun hdashes => h (hdashes.trans hns.isInfix)

/-- A mark in front brings two dashes together only when it is one and meets one. -/
theorem Apart.cons {m : Mark} {ms : List Mark} (h : Apart ms)
    (hm : m = .dash → ms.head? ≠ some .dash) : Apart (m :: ms) := by
  intro hdashes
  rcases List.infix_cons_iff.1 hdashes with hp | hi
  · obtain ⟨rfl, ns, rfl⟩ := List.cons_prefix_cons.1 hp
    exact hm rfl rfl
  · exact h hi

/-- The marks do not end with a dash. -/
def Closed (ms : List Mark) : Prop := ms.getLast? ≠ some .dash

theorem Closed.of_suffix {ms ns : List Mark} (h : Closed ms) (hns : ns <:+ ms) : Closed ns := by
  intro hlast
  obtain ⟨us, rfl⟩ := hns
  apply h
  rw [List.getLast?_append, hlast]
  rfl

theorem closed_nil : Closed [] := by simp [Closed]

theorem Closed.cons {m : Mark} {ms : List Mark} (h : Closed ms) (hm : ms = [] → m ≠ .dash) :
    Closed (m :: ms) := by
  cases ms with
  | nil => simpa [Closed] using hm rfl
  | cons n ns =>
    intro hlast
    rw [List.getLast?_cons_cons] at hlast
    exact h hlast

/-- What stands behind a dash ends with a member. -/
theorem Closed.exists_member {ms : List Mark} (h : Closed (.dash :: ms)) :
    ∃ c, .member c ∈ ms := by
  cases hlast : ms.getLast? with
  | none =>
    obtain rfl := List.getLast?_eq_none_iff.1 hlast
    exact absurd rfl h
  | some m =>
    cases m with
    | dash => exact absurd (by rw [List.getLast?_cons, hlast]; rfl) h
    | member c => exact ⟨c, List.mem_of_getLast? hlast⟩

/-- The ways to go on along the marks: a union that is taken away begins, a range, or a mark that
stands for its character. -/
theorem unions?_induction
    {P : List Mark → List Regex.Interval → List (List Regex.Interval) → Prop}
    (nil : P [] [] [])
    (minus : ∀ ms base removed, unions? ms = some (base, removed) → P ms base removed →
      P (.dash :: .dash :: ms) [] (base :: removed))
    (range : ∀ low high ms base removed, low ≤ high → P ms base removed →
      P (.member low :: .dash :: .member high :: ms) (⟨low, high⟩ :: base) removed)
    (single : ∀ m ms base removed, (m = .dash → ms.head? ≠ some .dash) →
      (∀ high ns, ms ≠ .dash :: .member high :: ns) → P ms base removed →
      P (m :: ms) (⟨m.char, m.char⟩ :: base) removed)
    {ms : List Mark} {base : List Regex.Interval} {removed : List (List Regex.Interval)}
    (h : unions? ms = some (base, removed)) : P ms base removed := by
  fun_induction unions? ms generalizing base removed with
  | case1 =>
    cases h
    exact nil
  | case2 ms ih =>
    obtain ⟨⟨base, removed⟩, hms, he⟩ := Option.map_eq_some_iff.1 h
    cases he
    exact minus ms base removed hms (ih hms)
  | case3 m high ms hm hle ih =>
    obtain ⟨⟨base, removed⟩, hms, he⟩ := Option.map_eq_some_iff.1 h
    cases he
    cases m with
    | dash => exact absurd rfl hm
    | member low => exact range low high ms base removed hle (ih hms)
  | case4 => cases h
  | case5 m ms hm hrange ih =>
    obtain ⟨⟨base, removed⟩, hms, he⟩ := Option.map_eq_some_iff.1 h
    cases he
    refine single m ms base removed (fun hdash hhead => ?_) hrange (ih hms)
    obtain ⟨ns, hns⟩ := List.head?_eq_some_iff.1 hhead
    exact hm ns hdash hns

section
variable {ms : List Mark} {base : List Regex.Interval} {removed : List (List Regex.Interval)}

/-- **Marks without two dashes in a row** describe one union, of the characters they stand for. -/
theorem any_has_iff (h : unions? ms = some (base, removed)) :
    Apart ms → Closed ms →
      removed = [] ∧ ∀ c, base.any (·.has c) = true ↔ Stands ms c := by
  refine unions?_induction (P := fun ms base removed => Apart ms → Closed ms →
    removed = [] ∧ ∀ c, base.any (·.has c) = true ↔ Stands ms c) ?nil ?minus ?range ?single h
  case nil => exact fun _ _ => ⟨rfl, fun c => by simp [not_stands_nil]⟩
  case minus =>
    intro ms base removed _ _ hapart
    exact absurd ⟨[], ms, rfl⟩ hapart
  case range =>
    intro low high ms base removed hle ih hapart hclosed
    have hsuffix : ms <:+ .member low :: .dash :: .member high :: ms :=
      ⟨[.member low, .dash, .member high], rfl⟩
    obtain ⟨rfl, hbase⟩ := ih (hapart.of_suffix hsuffix) (hclosed.of_suffix hsuffix)
    refine ⟨rfl, fun c => ?_⟩
    rw [List.any_cons, Bool.or_eq_true, Regex.Interval.has_iff, hbase, stands_range hle]
  case single =>
    intro m ms base removed hm hrange ih hapart hclosed
    have hsuffix : ms <:+ m :: ms := List.suffix_cons m ms
    obtain ⟨rfl, hbase⟩ := ih (hapart.of_suffix hsuffix) (hclosed.of_suffix hsuffix)
    have hhead : ms.head? ≠ some .dash := by
      intro hdash
      obtain ⟨ns, rfl⟩ := List.head?_eq_some_iff.1 hdash
      match ns with
      | [] => exact hclosed (by simp)
      | .dash :: ns => exact hapart ⟨[m], ns, rfl⟩
      | .member high :: ns => exact hrange high ns rfl
    refine ⟨rfl, fun c => ?_⟩
    rw [List.any_cons, Bool.or_eq_true, Regex.Interval.has_self_iff, hbase, stands_cons hhead]

/-- Each member lies in the first union or in one that is taken away from it. -/
theorem any_has_of_member (h : unions? ms = some (base, removed)) {c : Char} :
    .member c ∈ ms → base.any (·.has c) = true ∨ removed.any (·.any (·.has c)) = true := by
  refine unions?_induction (P := fun ms base removed => .member c ∈ ms →
    base.any (·.has c) = true ∨ removed.any (·.any (·.has c)) = true) ?nil ?minus ?range ?single h
  case nil =>
    intro hc
    cases hc
  case minus =>
    intro ms base removed _ ih hc
    have hc : .member c ∈ ms := by simpa using hc
    rw [List.any_cons, Bool.or_eq_true]
    exact .inr (ih hc)
  case range =>
    intro low high ms base removed hle ih hc
    have hc : c = low ∨ c = high ∨ .member c ∈ ms := by simpa using hc
    rw [List.any_cons, Bool.or_eq_true, Regex.Interval.has_iff]
    rcases hc with rfl | rfl | hc
    · exact .inl (.inl ⟨Char.le_refl c, hle⟩)
    · exact .inl (.inl ⟨hle, Char.le_refl c⟩)
    · exact (ih hc).imp .inr id
  case single =>
    intro m ms base removed _ _ ih hc
    rw [List.any_cons, Bool.or_eq_true, Regex.Interval.has_self_iff]
    rcases List.mem_cons.1 hc with rfl | hc
    · exact .inl (.inl rfl)
    · exact (ih hc).imp .inr id

/-- **Where two dashes meet** a member is taken away, for what stands behind them ends with one. -/
theorem exists_member_removed (h : unions? ms = some (base, removed)) :
    Closed ms → ¬Apart ms → ∃ c, .member c ∈ ms ∧ removed.any (·.any (·.has c)) = true := by
  refine unions?_induction (P := fun ms _ removed => Closed ms → ¬Apart ms →
    ∃ c, .member c ∈ ms ∧ removed.any (·.any (·.has c)) = true) ?nil ?minus ?range ?single h
  case nil =>
    intro _ hmeet
    exact absurd (by simp [Apart]) hmeet
  case minus =>
    intro ms base removed hms _ hclosed _
    obtain ⟨c, hc⟩ := (hclosed.of_suffix (List.suffix_cons .dash (.dash :: ms))).exists_member
    refine ⟨c, List.mem_cons_of_mem _ (List.mem_cons_of_mem _ hc), ?_⟩
    rw [List.any_cons, Bool.or_eq_true]
    exact any_has_of_member hms hc
  case range =>
    intro low high ms base removed _ ih hclosed hmeet
    have hsuffix : ms <:+ .member low :: .dash :: .member high :: ms :=
      ⟨[.member low, .dash, .member high], rfl⟩
    have hms : ¬Apart ms := fun h =>
      hmeet (((h.cons (by simp)).cons (by simp)).cons (by simp))
    obtain ⟨c, hc, hremoved⟩ := ih (hclosed.of_suffix hsuffix) hms
    exact ⟨c, hsuffix.mem hc, hremoved⟩
  case single =>
    intro m ms base removed hm _ ih hclosed hmeet
    have hsuffix : ms <:+ m :: ms := List.suffix_cons m ms
    obtain ⟨c, hc, hremoved⟩ := ih (hclosed.of_suffix hsuffix) fun h => hmeet (h.cons hm)
    exact ⟨c, hsuffix.mem hc, hremoved⟩

/-- **A character that is not written out** is in the first union only for a range across it; two
dashes in front leave that union empty. -/
theorem spans_of_any_has (h : unions? ms = some (base, removed)) {c : Char} (hdash : c ≠ '-')
    (hc : .member c ∉ ms) : base.any (·.has c) = true → Spans ms c := by
  suffices hall : .member c ∉ ms → base.any (·.has c) = true →
      (∀ ns, ms ≠ .dash :: .dash :: ns) ∧ Spans ms c from fun hbase => (hall hc hbase).2
  clear hc
  refine unions?_induction (P := fun ms base _ => .member c ∉ ms → base.any (·.has c) = true →
    (∀ ns, ms ≠ .dash :: .dash :: ns) ∧ Spans ms c) ?nil ?minus ?range ?single h
  case nil =>
    intro _ hbase
    cases hbase
  case minus =>
    intro ms base removed _ _ _ hbase
    cases hbase
  case range =>
    intro low high ms base removed hle ih hc hbase
    refine ⟨by simp, ?_⟩
    rw [List.any_cons, Bool.or_eq_true, Regex.Interval.has_iff] at hbase
    rcases hbase with hbase | hbase
    · exact ⟨low, high, ranges_range.2 (.inl ⟨rfl, rfl⟩), hbase⟩
    · have hms : .member c ∉ ms := fun hm => hc (by simp [hm])
      obtain ⟨-, a, b, hab, hbetween⟩ := ih hms hbase
      exact ⟨a, b, ranges_range.2 (.inr hab), hbetween⟩
  case single =>
    intro m ms base removed hm hrange ih hc hbase
    obtain ⟨hne, hms⟩ := List.ne_and_not_mem_of_not_mem_cons hc
    refine ⟨?_, ?_⟩
    · rintro ns he
      cases he
      exact hm rfl rfl
    · rw [List.any_cons, Bool.or_eq_true, Regex.Interval.has_self_iff, eq_char_iff] at hbase
      rcases hbase with (rfl | ⟨rfl, -⟩) | hbase
      · exact absurd rfl hne
      · exact absurd rfl hdash
      · obtain ⟨hdashes, a, b, hab, hbetween⟩ := ih hms hbase
        refine ⟨a, b, (ranges_cons fun hhead => ?_).2 hab, hbetween⟩
        obtain ⟨ns, rfl⟩ := List.head?_eq_some_iff.1 hhead
        match ns with
        | [] => exact not_spans_dash c ⟨a, b, hab, hbetween⟩
        | .dash :: ns => exact hdashes ns rfl
        | .member d :: ns => exact hrange d ns rfl

end

end Mark

end EditorConfig
