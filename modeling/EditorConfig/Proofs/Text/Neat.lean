import EditorConfig.Proofs.Text.Case
import Mathlib.Data.List.TakeWhile

/-!
# Neat texts

* `Text.Neat`     a text on one line, with no white space at its ends;
* `Text.IsName`   a neat text in small letters that can stand before the `=` of a pair.

Main statements: trimming makes neat texts (`neat_trim`), and small letters make names of them
(`isName_lower`).
-/

namespace EditorConfig.Text

/-! ## White space at the ends -/

theorem trim_eq_self_iff {t : Text} :
    trim t = t ↔ t.head?.all (fun c => !isBlank c) ∧ t.getLast?.all (fun c => !isBlank c) := by
  constructor
  · intro h
    have hhead := head?_trim t
    have hlast := getLast?_trim t
    rw [h] at hhead hlast
    exact ⟨hhead, hlast⟩
  · exact fun h => trim_eq_self h.1 h.2

theorem trim_cons_of_isBlank {c : Char} (hc : isBlank c = true) (t : Text) :
    trim (c :: t) = trim t := by
  rw [trim, trimStart, List.dropWhile_cons_of_pos hc]
  rfl

theorem trimEnd_append (a t : Text) (ha : a.getLast?.all (fun c => !isBlank c)) :
    trimEnd (a ++ t) = a ++ trimEnd t := by
  have hself : a.reverse.dropWhile isBlank = a.reverse := by
    rw [← List.head?_reverse] at ha
    exact trimStart_eq_self ha
  unfold trimEnd
  rw [List.reverse_append, List.dropWhile_append]
  split
  · next hnil =>
    rw [hself, List.isEmpty_iff.1 hnil]
    simp
  · simp

/-- Behind a trimmed text only the end is left to trim. -/
theorem trim_append {a : Text} (hne : a ≠ []) (ha : trim a = a) (t : Text) :
    trim (a ++ t) = a ++ trimEnd t := by
  obtain ⟨hhead, hlast⟩ := trim_eq_self_iff.1 ha
  have hstart : trimStart (a ++ t) = a ++ t := by
    obtain ⟨c, a, rfl⟩ := List.exists_cons_of_ne_nil hne
    exact trimStart_eq_self hhead
  rw [trim, hstart, trimEnd_append a t hlast]

theorem trimEnd_append_of_blank {s : Text} (h : ∀ c ∈ s, isBlank c = true) (t : Text) :
    trimEnd (t ++ s) = trimEnd t := by
  have hs : ∀ c ∈ s.reverse, isBlank c = true := fun c hc => h c (List.mem_reverse.1 hc)
  rw [trimEnd, List.reverse_append, List.dropWhile_append_of_pos hs]
  rfl

/-- White space in front of a text is trimmed. -/
theorem trim_append_of_blank_left {s : Text} (h : ∀ c ∈ s, isBlank c = true) (t : Text) :
    trim (s ++ t) = trim t := by
  rw [trim, trimStart, List.dropWhile_append_of_pos h]
  rfl

/-- White space behind a text is trimmed. -/
theorem trim_append_of_blank_right {s : Text} (h : ∀ c ∈ s, isBlank c = true) (t : Text) :
    trim (t ++ s) = trim t := by
  rw [trim, trim, trimStart, trimStart, List.dropWhile_append]
  split
  · next hempty =>
    rw [List.isEmpty_iff.1 hempty, List.dropWhile_eq_nil_iff.2 h]
  · exact trimEnd_append_of_blank h _

theorem infix_trim (t : Text) : trim t <:+: t := by
  have hstart : trimStart t <:+ t := List.dropWhile_suffix isBlank
  obtain ⟨u, hu⟩ := exists_eq_trimEnd_append (t := trimStart t)
  have hend : trim t <+: trimStart t := ⟨u, hu.symm⟩
  exact hend.isInfix.trans hstart.isInfix

/-- The first character of a text that starts with no white space stays the first one. -/
theorem head?_trim_of_head? {t : Text} (h : t.head?.all (fun c => !isBlank c))
    (hne : trim t ≠ []) : (trim t).head? = t.head? := by
  obtain ⟨u, hu⟩ := exists_eq_trimEnd_append (t := trimStart t)
  obtain ⟨c, r, hr⟩ := List.exists_cons_of_ne_nil hne
  rw [← trim, trimStart_eq_self h, hr] at hu
  rw [hr, hu]
  rfl

/-! ## Neat texts -/

/-- A text on one line, with no white space at its ends. -/
structure Neat (t : Text) : Prop where
  unbroken : '\n' ∉ t
  trimmed : trim t = t

instance (t : Text) : Decidable (Neat t) :=
  decidable_of_iff ('\n' ∉ t ∧ trim t = t) ⟨fun h => ⟨h.1, h.2⟩, fun h => ⟨h.1, h.2⟩⟩

theorem neat_trim {t : Text} (h : '\n' ∉ t) : Neat (trim t) where
  unbroken := fun hm => h ((infix_trim t).subset hm)
  trimmed := trim_trim t

/-- No white space appears when a text is put in small letters. -/
theorem neat_lower {t : Text} (h : Neat t) : Neat (lower t) where
  unbroken := fun hm => h.unbroken (mem_of_mem_lower (by decide) hm)
  trimmed := by
    have hends := trim_eq_self_iff.1 h.trimmed
    rw [Option.all_eq_true, Option.all_eq_true] at hends
    rw [trim_eq_self_iff, Option.all_eq_true, Option.all_eq_true]
    refine ⟨fun c hc => ?_, fun c hc => ?_⟩
    · by_cases hb : isBlank c = true
      · exact hends.1 c (head?_of_head?_lower (isMark_of_isBlank hb) hc)
      · simpa using hb
    · by_cases hb : isBlank c = true
      · exact hends.2 c (getLast?_of_getLast?_lower (isMark_of_isBlank hb) hc)
      · simpa using hb

/-- A neat text in small letters that can stand before the `=` of a pair. -/
structure IsName (t : Text) : Prop extends Neat t where
  ne_nil : t ≠ []
  small : lower t = t
  unsplit : '=' ∉ t
  start : t.head? ∉ [some '[', some '#', some ';']

instance (t : Text) : Decidable (IsName t) :=
  decidable_of_iff (Neat t ∧ t ≠ [] ∧ lower t = t ∧ '=' ∉ t ∧
      t.head? ∉ [some '[', some '#', some ';'])
    ⟨fun h => ⟨h.1, h.2.1, h.2.2.1, h.2.2.2.1, h.2.2.2.2⟩,
      fun h => ⟨h.toNeat, h.ne_nil, h.small, h.unsplit, h.start⟩⟩

/-- No mark appears when a text is put in small letters. -/
theorem isName_lower {t : Text} (h : Neat t) (hne : t ≠ []) (hsplit : '=' ∉ t)
    (hstart : t.head? ∉ [some '[', some '#', some ';']) : IsName (lower t) where
  toNeat := neat_lower h
  ne_nil := lower_ne_nil hne
  small := lower_lower t
  unsplit := fun hm => hsplit (mem_of_mem_lower (by decide) hm)
  start := by
    have hback {c : Char} (hc : isMark c = true) (h : t.head? ≠ some c) :
        (lower t).head? ≠ some c := fun hlower => h (head?_of_head?_lower hc hlower)
    simp only [List.mem_cons, List.not_mem_nil, or_false, not_or] at hstart ⊢
    obtain ⟨hopen, hhash, hsemi⟩ := hstart
    exact ⟨hback (by decide) hopen, hback (by decide) hhash, hback (by decide) hsemi⟩

end EditorConfig.Text
