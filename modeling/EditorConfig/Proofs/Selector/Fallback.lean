import EditorConfig.Proofs.Glob.Expansion
import EditorConfig.Proofs.Glob.Literal
import EditorConfig.Proofs.Selector.Basename

/-!
# Selectors that nest too deep

A selector whose expression is refused is compared letter by letter, and so is the `/**/` that was
put in front of it.

* `Glob.nest`   braces that nest to a given depth.

Main statements: braces are refused from a depth of 125 on (`Selector.pattern_nest_eq_none_iff`); a
selector that is refused covers the files of its own name in the directory `/**` and nowhere else
(`Selector.selects_own_name_iff`).
-/

namespace EditorConfig

namespace Glob

/-! ## Nested braces -/

/-- Alternatives in braces are an alternative. -/
theorem Alternative.braced {as : List Text} (h : ∀ a ∈ as, Alternative a) :
    Alternative (braced [] as []) := by
  have hclosed : ∀ a ∈ as, Text.endsOpen a = false := fun a ha => (h a ha).closed
  have hsigns : (Glob.braced [] as []).signs
      = .plain '{' :: ([.plain ','].intercalate (as.map Text.signs) ++ [.plain '}']) :=
    signs_braced rfl hclosed
  have hnested : Brace.Nested 0 ([.plain ','].intercalate (as.map Text.signs)) := by
    apply Brace.Nested.intercalate
    intro b hb
    obtain ⟨a, ha, rfl⟩ := List.mem_map.1 hb
    exact (h a ha).nested
  have hbracket : ∀ s ∈ [Sign.plain ','].intercalate (as.map Text.signs), s ≠ .plain '[' := by
    refine Text.forall_mem_intercalate (by simp) fun b hb s hs he => ?_
    obtain ⟨a, ha, rfl⟩ := List.mem_map.1 hb
    exact (h a ha).no_bracket (he ▸ hs)
  refine ⟨⟨?_, ?_, ?_⟩, ?_⟩
  · rw [hsigns]
    simpa using fun hm => hbracket _ hm rfl
  · rw [Glob.braced, List.nil_append, Text.endsOpen_plain (by decide),
      Text.endsOpen_intercalate_append hclosed]
    rfl
  · rw [hsigns]
    exact hnested.group
  · rw [hsigns]
    exact .group hnested

/-- The letter `x` in so many pairs of braces, with another alternative in each. -/
def nest : Nat → Text
  | 0 => ['x']
  | n + 1 => braced [] [['a'], nest n] []

theorem forall_mem_nest {n : Nat} (h : Alternative (nest n)) :
    ∀ a ∈ [['a'], nest n], Alternative a := by
  intro a ha
  rcases List.mem_cons.1 ha with rfl | ha
  · exact .letter (by decide)
  · obtain rfl := List.mem_singleton.1 ha
    exact h

theorem alternative_nest (n : Nat) : Alternative (nest n) := by
  induction n with
  | zero => exact .letter (by decide)
  | succ n ih => exact .braced (forall_mem_nest ih)

theorem slash_not_mem_nest (n : Nat) : '/' ∉ nest n := by
  induction n with
  | zero => decide
  | succ n ih => simp [nest, braced, List.intercalate, ih]

theorem ofText_nest_succ (n : Nat) : ofText (nest (n + 1))
    = seq (group (alt (ofText ['a']) (ofText (nest n)))) empty := by
  have hbraced : ofText (nest (n + 1)) = (ofText []).append
      (seq (group (choice ([['a'], nest n].map ofText))) (ofText [])) :=
    ofText_braced .nil (Nat.le_refl 2) (forall_mem_nest (alternative_nest n)) rfl
  rw [ofText_nil] at hbraced
  exact hbraced

/-- Each pair of braces makes two levels more: a group, and the choice in it. -/
theorem items_nest (n : Nat) :
    ∃ r : Regex, (ofText (nest n)).items = [r] ∧ r.IsItem ∧ r.heightAt .alone = 2 * n ∧
      r.weight = 296 * n + 40 := by
  induction n with
  | zero =>
    have hletter : ofText ['x'] = seq (char 'x') empty := ofText_letter (by decide)
    exact ⟨.one (.char 'x'), by rw [nest, hletter]; rfl, trivial, rfl, rfl⟩
  | succ n ih =>
    obtain ⟨r, hitems, hitem, hheight, hweight⟩ := ih
    have hletter : ofText ['a'] = seq (char 'a') empty := ofText_letter (by decide)
    refine ⟨.group (.alt (.one (.char 'a')) r), ?_, trivial, ?_, ?_⟩
    · rw [ofText_nest_succ, items_seq]
      show [Regex.group (.choice
        (((ofText ['a']).branches ++ (ofText (nest n)).branches).map .concat))] = _
      rw [branches_eq (proper_ofText _), branches_eq (proper_ofText _), hitems, hletter]
      rfl
    · show 1 + (1 + max 0 (r.heightAt .inChoice)) = _
      rw [hitem.heightAt .inChoice .alone, hheight]
      omega
    · show 40 + r.weight + 256 = _
      rw [hweight]
      omega

theorem fits_nest {n : Nat} : (ofText (nest n)).Fits ↔ n < 125 := by
  obtain ⟨r, hitems, -, hheight, -⟩ := items_nest n
  rw [Fits, hitems, List.forall_mem_singleton, hheight]
  show 2 * n < 250 ↔ n < 125
  omega

theorem weight_nest (n : Nat) : (ofText (nest n)).weight = 296 * n + 40 := by
  obtain ⟨r, hitems, -, -, hweight⟩ := items_nest n
  rw [weight, hitems]
  exact hweight

end Glob

namespace Selector

variable {s : Text}

theorem pattern_nest_eq_none_iff [Regex.Engine] {n : Nat} :
    (pattern (Glob.nest n)).expression = none ↔ 125 ≤ n := by
  have hglob := ofText_anchored (Glob.slash_not_mem_nest n)
  have hfits : (Glob.seq .dirs (Glob.ofText (Glob.nest n))).Fits ↔ n < 125 := by
    have hdirs : Glob.dirs.Fits := by decide
    rw [Glob.fits_seq, Glob.fits_nest, and_iff_right hdirs]
  rw [← Option.not_isSome_iff_eq_none, ← Nat.not_lt]
  apply not_congr
  show (Pattern.compile (anchored (Glob.nest n))).expression.isSome = true ↔ _
  constructor
  · intro h
    exact hfits.1 (hglob ▸ (Pattern.isSome_compile.1 h).1)
  · intro hn
    apply Pattern.isSome_compile_of_weight_le hglob (hfits.2 hn)
    have hdirs : Glob.dirs.weight = 1544 := by decide
    rw [Glob.weight_seq, Glob.weight_nest, hdirs, Regex.sizeLimit]
    omega

theorem selects_iff_of_refused [Regex.Engine] (hslash : '/' ∉ s)
    (hrefused : (pattern s).expression = none) (path : Text) :
    selects s path = true ↔ Path.anchored path = "/**/".toList ++ s := by
  show (Pattern.compile (anchored s)).accepts (Path.anchored path) = true ↔ _
  rw [Pattern.accepts_iff_eq hrefused, anchored, if_pos hslash]

/-- The path is shorter than the glob that it is compared with. -/
theorem not_selects_at_root [Regex.Engine] (hslash : '/' ∉ s)
    (hrefused : (pattern s).expression = none) :
    selects s ('/' :: s) = false := by
  rw [← Bool.not_eq_true, selects_iff_of_refused hslash hrefused]
  intro h
  have hlength := congrArg List.length h
  simp [Path.anchored] at hlength

/-- **A refused selector** does not cover the files of its own name, but in one directory: the one
that is written like the `/**` in front of the selector. -/
theorem selects_own_name_iff [Regex.Engine] (hslash : '/' ∉ s)
    (hrefused : (pattern s).expression = none) {d : Text} (hd : d = [] ∨ d.head? = some '/') :
    selects s (d ++ '/' :: s) = true ↔ d = "/**".toList := by
  have hhead : (d ++ '/' :: s).head? = some '/' := by
    rcases hd with rfl | hd
    · rfl
    · rw [List.head?_append, hd, Option.some_or]
  have hself : "/**/".toList ++ s = "/**".toList ++ '/' :: s := rfl
  rw [selects_iff_of_refused hslash hrefused, Path.anchored, if_pos hhead, hself]
  exact List.append_left_inj _

theorem selects_own_name_iff_nest :
    '/' ∉ Glob.nest 125 ∧ (pattern (Glob.nest 125)).expression = none ∧
      selects (Glob.nest 125) ("/**".toList ++ '/' :: Glob.nest 125) = true := by
  have hrefused := pattern_nest_eq_none_iff.2 (Nat.le_refl 125)
  have hslash := Glob.slash_not_mem_nest 125
  exact ⟨hslash, hrefused, (selects_own_name_iff hslash hrefused (.inr rfl)).2 rfl⟩

/-- Braces that nest 125 deep do not cover the file that is named like them. -/
theorem nest_misses_own_name :
    '/' ∉ Glob.nest 125 ∧ (pattern (Glob.nest 125)).expression = none ∧
      selects (Glob.nest 125) ('/' :: Glob.nest 125) = false := by
  have hrefused := pattern_nest_eq_none_iff.2 (Nat.le_refl 125)
  have hslash := Glob.slash_not_mem_nest 125
  exact ⟨hslash, hrefused, not_selects_at_root hslash hrefused⟩

end Selector

end EditorConfig
