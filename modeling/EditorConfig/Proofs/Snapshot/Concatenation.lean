import EditorConfig.Proofs.Snapshot.Grammar

/-!
# Config files one after the other

* `Line.Headed`   every pair stands behind a header.

Main statement: when a text whose pairs stand behind headers is put below another one, its sections
come after those of the other, the first fault is the fault, and the root flag is that of the text
above (`parse_append`).
-/

namespace EditorConfig

namespace Line

/-- Every pair stands behind a header. -/
def Headed (ls : List Line) : Prop :=
  ∀ before name value after, ls = before ++ pair name value :: after →
    ∃ selector, header selector ∈ before

theorem headed_header (selector : Text) (ls : List Line) : Headed (header selector :: ls) := by
  intro before name value after h
  cases before with
  | nil => cases h
  | cons l before =>
    obtain rfl := (List.cons.inj h).1
    exact ⟨selector, List.mem_cons_self⟩

theorem headed_cons {l : Line} {ls : List Line} (hheader : ∀ selector, l ≠ header selector)
    (hpair : ∀ name value, l ≠ pair name value) : Headed (l :: ls) ↔ Headed ls := by
  constructor
  · intro h before name value after hls
    obtain ⟨selector, hm⟩ := h (l :: before) name value after (by rw [hls, List.cons_append])
    rcases List.mem_cons.1 hm with he | hm
    · exact absurd he.symm (hheader selector)
    · exact ⟨selector, hm⟩
  · intro h before name value after heq
    cases before with
    | nil => exact absurd (List.cons.inj heq).1 (hpair name value)
    | cons m before =>
      obtain ⟨selector, hm⟩ := h before name value after (List.cons.inj heq).2
      exact ⟨selector, List.mem_cons_of_mem _ hm⟩

/-- Then there is nothing in front of the first section. -/
theorem sections_fst_eq_nil_iff {ls : List Line} : (sections ls).1 = [] ↔ Headed ls := by
  induction ls with
  | nil => exact iff_of_true rfl fun before name value after h => by simp at h
  | cons l ls ih =>
    cases l with
    | header selector => exact iff_of_true rfl (headed_header selector ls)
    | ignorable => exact ih.trans (headed_cons (by simp) (by simp)).symm
    | bad fault => exact ih.trans (headed_cons (by simp) (by simp)).symm
    | pair name value =>
      refine iff_of_false (List.cons_ne_nil _ _) fun h => ?_
      obtain ⟨selector, hm⟩ := h [] name value ls rfl
      cases hm

instance : DecidablePred Headed := fun _ => decidable_of_iff _ sections_fst_eq_nil_iff

/-- The first fault of the lines above comes first; the lines below are counted on. -/
theorem firstFault?_append (n : Nat) (ls ms : List Line) :
    firstFault? n (ls ++ ms) = (firstFault? n ls).or (firstFault? (n + ls.length) ms) := by
  induction ls generalizing n with
  | nil => rfl
  | cons l ls ih =>
    have hlater : firstFault? (n + 1) (ls ++ ms)
        = (firstFault? (n + 1) ls).or (firstFault? (n + (l :: ls).length) ms) := by
      rw [ih, List.length_cons, Nat.add_assoc, Nat.add_comm 1]
    cases l with
    | bad fault => rfl
    | ignorable => exact hlater
    | header selector => exact hlater
    | pair name value => exact hlater

/-- Lines that are counted from a later number have their fault later. -/
theorem firstFault?_add (n k : Nat) (ls : List Line) :
    firstFault? (n + k) ls = (firstFault? n ls).map fun f => { f with line := f.line + k } := by
  induction ls generalizing n with
  | nil => rfl
  | cons l ls ih =>
    have hlater : firstFault? (n + k + 1) ls
        = (firstFault? (n + 1) ls).map fun f => { f with line := f.line + k } := by
      rw [← ih, Nat.add_right_comm]
    cases l with
    | bad fault => rfl
    | ignorable => exact hlater
    | header selector => exact hlater
    | pair name value => exact hlater

end Line

namespace Snapshot

/-- The mark of a byte order is the one of the text above. -/
theorem unmarked_append (a b : Text) :
    unmarked (a ++ '\n' :: b) = unmarked a ++ '\n' :: b := by
  cases a with
  | nil => exact if_neg (show some '\n' ≠ some (Char.ofNat 0xfeff) by decide)
  | cons c a =>
    unfold unmarked
    rw [List.cons_append, List.head?_cons, List.head?_cons]
    by_cases hc : some c = some (Char.ofNat 0xfeff)
    · rw [if_pos hc, if_pos hc]
      rfl
    · rw [if_neg hc, if_neg hc]
      rfl

theorem unmarked_of_head? {t : Text} (h : t.head? ≠ some (Char.ofNat 0xfeff)) : unmarked t = t :=
  if_neg h

theorem lines_append {b : Text} (h : b.head? ≠ some (Char.ofNat 0xfeff)) (a : Text) :
    lines (a ++ '\n' :: b) = lines a ++ lines b := by
  rw [lines, unmarked_append, List.splitOn_append_cons_self, List.map_append, lines, lines,
    unmarked_of_head? h]

theorem count_unmarked (t : Text) : (unmarked t).count '\n' = t.count '\n' := by
  unfold unmarked
  split
  · next h =>
    obtain ⟨c, t, rfl⟩ := List.exists_cons_of_ne_nil (fun he : t = [] => by simp [he] at h)
    obtain rfl : c = Char.ofNat 0xfeff := by simpa using h
    exact (List.count_cons_of_ne (by decide)).symm
  · rfl

theorem length_lines (t : Text) : (lines t).length = t.count '\n' + 1 := by
  rw [lines, List.length_map, Text.length_splitOn, count_unmarked]

/-- **One config file below another.**  Let the text `b` begin without the mark of a byte order, and
let all its pairs stand behind headers.  Below a text that reads, it reads with the root flag of the
text above and with its own sections behind the others; if it fails, its line is counted on.  A text
that fails fails in the same way above any other. -/
theorem parse_append (a : Text) {b : Text} (hmark : b.head? ≠ some (Char.ofNat 0xfeff))
    (hb : Line.Headed (lines b)) :
    (∀ f g, parse a = .ok f → parse b = .ok g →
      parse (a ++ '\n' :: b) = .ok { f with sections := f.sections ++ g.sections }) ∧
      (∀ f, parse a = .error f → parse (a ++ '\n' :: b) = .error f) ∧
      ∀ f g, parse a = .ok f → parse b = .error g →
        parse (a ++ '\n' :: b) = .error ⟨g.line + 1 + a.count '\n', g.fault⟩ := by
  have hfault : Line.firstFault? 1 (lines (a ++ '\n' :: b))
      = (Line.firstFault? 1 (lines a)).or ((Line.firstFault? 1 (lines b)).map fun f =>
          { f with line := f.line + (a.count '\n' + 1) }) := by
    rw [lines_append hmark, Line.firstFault?_append, length_lines, Line.firstFault?_add]
  simp only [parse, ofLines_eq_ok_iff, ofLines_eq_error_iff, hfault]
  refine ⟨?below, ?above, ?later⟩
  case below =>
    rintro f g ⟨ha, rfl⟩ ⟨hb', rfl⟩
    rw [ha, hb', lines_append hmark, Line.sections_append _ (Line.sections_fst_eq_nil_iff.2 hb)]
    exact ⟨rfl, rfl⟩
  case above =>
    intro f ha
    rw [ha]
    rfl
  case later =>
    rintro f g ⟨ha, -⟩ hb'
    rw [ha, hb', Option.none_or, Option.map_some, Nat.add_assoc, Nat.add_comm 1]

/-- A text with two newlines, a mark in front and nothing behind its last newline: what stands below
it begins in line four. -/
theorem parse_append_marked :
    let a := Char.ofNat 0xfeff :: "root = true\r\n[a]\n".toList
    let b := "# no pair\n[b]\nk = 1".toList
    let c := "; no pair\n[b\n".toList
    Line.Headed (lines b) ∧ Line.Headed (lines c) ∧
      parse (a ++ '\n' :: b) = .ok { isRoot := true, sections :=
        [⟨"a".toList, .empty⟩, ⟨"b".toList, .ofList [("k".toList, "1".toList)]⟩] } ∧
      parse (c ++ '\n' :: b) = .error ⟨2, .unclosedHeader⟩ ∧
      parse (a ++ '\n' :: c) = .error ⟨5, .unclosedHeader⟩ := by
  intro a b c
  have hb : Line.Headed (lines b) := by decide
  have hc : Line.Headed (lines c) := by decide
  have hfail : parse c = .error ⟨2, .unclosedHeader⟩ := rfl
  refine ⟨hb, hc, ?_, ?_, ?_⟩
  · exact (parse_append a (by decide) hb).1 { isRoot := true, sections := [⟨"a".toList, .empty⟩] }
      { sections := [⟨"b".toList, .ofList [("k".toList, "1".toList)]⟩] } rfl rfl
  · exact (parse_append c (by decide) hb).2.1 _ hfail
  · exact (parse_append a (by decide) hc).2.2 { isRoot := true, sections := [⟨"a".toList, .empty⟩] }
      _ rfl hfail

end Snapshot

end EditorConfig
