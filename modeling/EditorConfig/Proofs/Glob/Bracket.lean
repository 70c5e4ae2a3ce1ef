import EditorConfig.Glob.Basic
import EditorConfig.Proofs.Regex.Marks
import EditorConfig.Regex.Parser

/-!
# Bracket classes of a glob as classes of an expression

A class that a glob accepts is written into the expression and read again there.

* `Mark.Ordered`   no range between the marks runs backwards.

Main statement: an accepted class can be written, and its text denotes a class of the expression
(`writable_of_read?`, `exists_charClass?_of_read?`).
-/

namespace EditorConfig

namespace Mark

/-- No dash between two members stands for a range that runs backwards. -/
def Ordered (ms : List Mark) : Prop :=
  ∀ a b, [.member a, .dash, .member b] <:+: ms → a ≤ b

theorem ordered_nil : Ordered [] := by
  intro a b h
  exact absurd (List.eq_nil_of_infix_nil h) (by simp)

theorem Ordered.of_cons {m : Mark} {ms : List Mark} (h : Ordered (m :: ms)) : Ordered ms :=
  fun a b hab => h a b (hab.trans (List.suffix_cons m ms).isInfix)

theorem Ordered.cons_dash {ms : List Mark} (h : Ordered ms) : Ordered (.dash :: ms) := by
  intro a b hab
  rcases List.infix_cons_iff.1 hab with hp | hi
  · have := (List.cons_prefix_cons.1 hp).1
    cases this
  · exact h a b hi

/-- A member in front makes a new range only when a dash and a member follow it. -/
theorem Ordered.cons_member {c : Char} {ms : List Mark} (h : Ordered ms)
    (hc : ∀ b ns, ms = .dash :: .member b :: ns → c ≤ b) : Ordered (.member c :: ms) := by
  intro a b hab
  rcases List.infix_cons_iff.1 hab with hp | hi
  · obtain ⟨ha, ns, hns⟩ := List.cons_prefix_cons.1 hp
    cases ha
    exact hc b ns hns.symm
  · exact h a b hi

theorem exists_unions? {ms : List Mark} (h : Ordered ms) :
    ∃ base removed, unions? ms = some (base, removed) := by
  fun_induction unions? ms with
  | case1 => exact ⟨[], [], rfl⟩
  | case2 ms ih =>
    obtain ⟨base, removed, he⟩ := ih h.of_cons.of_cons
    exact ⟨[], base :: removed, by rw [he]; rfl⟩
  | case3 m high ms _ hle ih =>
    obtain ⟨base, removed, he⟩ := ih h.of_cons.of_cons.of_cons
    exact ⟨⟨m.char, high⟩ :: base, removed, by rw [he]; rfl⟩
  | case4 m high ms hm hle =>
    cases m with
    | member a => exact absurd (h a high ⟨[], ms, rfl⟩) hle
    | dash => exact absurd rfl hm
  | case5 m ms _ _ ih =>
    obtain ⟨base, removed, he⟩ := ih h.of_cons
    exact ⟨⟨m.char, m.char⟩ :: base, removed, by rw [he]; rfl⟩

end Mark

namespace Bracket

/-- What reading one more sign of a body can do: end the class, put a dash before the next
character, or add a member. -/
theorem marksFrom?_cons {first : Bool} {last : Option Char} {s : Sign} {ss rest : List Sign}
    {ms : List Mark} (h : marksFrom? first last (s :: ss) = some (ms, rest)) :
    (s = .plain ']' ∧ first = false ∧ ms = [] ∧ rest = ss) ∨
    (s = .plain '-' ∧ first = false ∧
      (∃ t ts, ss = t :: ts ∧ t ≠ .plain ']' ∧ ∀ a, last = some a → a ≤ t.char) ∧
      ∃ ns, marksFrom? false none ss = some (ns, rest) ∧ ms = .dash :: ns) ∨
    (s ≠ .plain '/' ∧ (s = .plain ']' → first = true) ∧
      (s = .plain '-' → first = true ∨ ss.head? = some (.plain ']')) ∧
      ∃ ns, marksFrom? false (some s.char) ss = some (ns, rest) ∧ ms = .member s.char :: ns) := by
  cases s with
  | quoted c =>
    rw [marksFrom?] at h
    exact .inr (.inr ⟨by simp, by simp, by simp, Text.onto_eq_some.1 h⟩)
  | plain c =>
    unfold marksFrom? at h
    split at h
    · next hend =>
      simp only [Option.some.injEq, Prod.mk.injEq] at h
      exact .inl ⟨by rw [hend.1], hend.2, h.1.symm, h.2.symm⟩
    · next hend =>
      split at h
      · contradiction
      · next hslash =>
        split at h
        · next hdash =>
          obtain ⟨rfl, hfirst, hnext⟩ := hdash
          split at h
          · contradiction
          · next t ts =>
            split at h
            · contradiction
            · next hlast =>
              refine .inr (.inl ⟨rfl, hfirst, ⟨t, ts, rfl, by simpa using hnext, ?_⟩,
                Text.onto_eq_some.1 h⟩)
              rintro a rfl
              simpa using hlast
        · next hdash =>
          refine .inr (.inr ⟨by simpa using hslash, ?_, ?_, Text.onto_eq_some.1 h⟩)
          · intro he
            cases he
            simpa using hend
          · intro he
            cases he
            by_cases hf : first = true
            · exact .inl hf
            · exact .inr (by simpa [hf] using hdash)

theorem char_of_marksFrom? {first : Bool} {last : Option Char} {s : Sign} {ss rest : List Sign}
    {m : Mark} {ms : List Mark} (h : marksFrom? first last (s :: ss) = some (m :: ms, rest)) :
    m.char = s.char := by
  rcases marksFrom?_cons h with ⟨-, -, hm, -⟩ | ⟨rfl, -, -, ns, -, hm⟩ | ⟨-, -, -, ns, -, hm⟩
  · cases hm
  · cases hm
    rfl
  · cases hm
    rfl

/-- The ranges of the marks do not run backwards, nor does one that begins with the last character
before the signs. -/
theorem ordered_marksFrom? {first : Bool} {last : Option Char} {ss rest : List Sign}
    {ms : List Mark} (h : marksFrom? first last ss = some (ms, rest)) :
    Mark.Ordered ms ∧
      ∀ a b ns, last = some a → ms = .dash :: .member b :: ns → a ≤ b := by
  induction ss generalizing first last ms with
  | nil => simp [marksFrom?] at h
  | cons s ss ih =>
    rcases marksFrom?_cons h with ⟨-, -, rfl, -⟩ | ⟨-, -, ⟨t, ts, rfl, -, ht⟩, ns, hns, rfl⟩ |
      ⟨-, -, -, ns, hns, rfl⟩
    · exact ⟨Mark.ordered_nil, by simp⟩
    · refine ⟨(ih hns).1.cons_dash, ?_⟩
      rintro a b ns' ha hms
      have hb : b = t.char := by
        cases hms
        exact char_of_marksFrom? hns
      rw [hb]
      exact ht a ha
    · refine ⟨(ih hns).1.cons_member fun b ns' he => (ih hns).2 s.char b ns' rfl he, ?_⟩
      simp

theorem exists_member_of_marksFrom? {last : Option Char} {ss rest : List Sign} {ms : List Mark}
    (h : marksFrom? true last ss = some (ms, rest)) : ∃ c ns, ms = .member c :: ns := by
  cases ss with
  | nil => simp [marksFrom?] at h
  | cons s ss =>
    rcases marksFrom?_cons h with ⟨-, hf, -⟩ | ⟨-, hf, -⟩ | ⟨-, -, -, ns, -, rfl⟩
    · cases hf
    · cases hf
    · exact ⟨s.char, ns, rfl⟩

theorem exists_marks_of_read? {ss rest : List Sign} {b : Bracket} (h : read? ss = some (b, rest)) :
    ∃ us, marksFrom? true none us = some (b.marks, rest) := by
  simp only [read?, Option.map_eq_some_iff, Prod.exists, Prod.mk.injEq] at h
  obtain ⟨ms, r, hr, rfl, rfl⟩ := h
  exact ⟨_, hr⟩

theorem suffix_of_marksFrom? {first : Bool} {last : Option Char} {ss rest : List Sign}
    {ms : List Mark} (h : marksFrom? first last ss = some (ms, rest)) : rest <:+ ss := by
  induction ss generalizing first last ms with
  | nil => simp [marksFrom?] at h
  | cons s ss ih =>
    rcases marksFrom?_cons h with ⟨-, -, -, rfl⟩ | ⟨-, -, -, ns, hns, -⟩ | ⟨-, -, -, ns, hns, -⟩
    · exact List.suffix_cons s rest
    · exact (ih hns).trans (List.suffix_cons s ss)
    · exact (ih hns).trans (List.suffix_cons s ss)

/-- What follows a class is the end of what followed its opening bracket. -/
theorem suffix_of_read? {ss rest : List Sign} {b : Bracket} (h : read? ss = some (b, rest)) :
    rest <:+ ss := by
  simp only [read?, Option.map_eq_some_iff, Prod.exists, Prod.mk.injEq] at h
  obtain ⟨ms, r, hr, -, rfl⟩ := h
  have hsuffix := suffix_of_marksFrom? hr
  split at hsuffix
  · exact hsuffix.trans (List.tail_suffix ss)
  · exact hsuffix

theorem writable_of_read? {ss rest : List Sign} {b : Bracket} (h : read? ss = some (b, rest)) :
    (Regex.Token.bracket b).Writable := by
  obtain ⟨us, hus⟩ := exists_marks_of_read? h
  exact exists_member_of_marksFrom? hus

theorem exists_charClass?_of_read? {ss rest : List Sign} {b : Bracket}
    (h : read? ss = some (b, rest)) : ∃ k, b.charClass? = some k := by
  obtain ⟨us, hus⟩ := exists_marks_of_read? h
  obtain ⟨base, removed, he⟩ := Mark.exists_unions? (ordered_marksFrom? hus).1
  exact ⟨⟨b.negated, base, removed⟩, by rw [charClass?, he]; rfl⟩

end Bracket

end EditorConfig
