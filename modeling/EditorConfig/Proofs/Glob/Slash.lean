import EditorConfig.Proofs.Glob.Reading

/-!
# Globs that stay in one directory

* `Glob.classes`     the bracket classes of a glob;
* `Glob.SlashFree`   no part of the glob can take a slash;
* `Sign.StayInside`  signs without a slash and without two stars in a row.

Main statements: a glob that is free of slashes takes no path with one (`not_mem_of_takes`), and a
glob is free of slashes when its signs are and its classes are (`slashFree_ofSignsWith`).
-/

namespace EditorConfig

namespace Decimal

theorem slash_not_mem_int (n : Int) : '/' ∉ int n := by
  have digits (m : Nat) : '/' ∉ nat m := fun h => absurd (isDigit_of_mem_nat h) (by decide)
  cases n with
  | ofNat m => exact digits m
  | negSucc m =>
    show '/' ∉ '-' :: nat (m + 1)
    simp [digits]

end Decimal

/-- There is no slash among the signs, and no two plain stars stand next to each other. -/
def Sign.StayInside (ss : List Sign) : Prop :=
  (∀ s ∈ ss, s.char ≠ '/') ∧ ¬[.plain '*', .plain '*'] <:+: ss

theorem Sign.StayInside.of_infix {ss us : List Sign} (h : StayInside ss) (hus : us <:+: ss) :
    StayInside us :=
  ⟨fun s hs => h.1 s (hus.mem hs), fun hstars => h.2 (hstars.trans hus)⟩

namespace Glob

/-! ## Classes -/

/-- The bracket classes of a glob. -/
def classes : Glob → List Bracket
  | bracket b => [b]
  | group g => g.classes
  | seq g h => g.classes ++ h.classes
  | alt g h => g.classes ++ h.classes
  | _ => []

theorem mem_classes_choice {gs : List Glob} {g : Glob} (hg : g ∈ gs) {b : Bracket}
    (hb : b ∈ g.classes) : b ∈ (choice gs).classes := by
  induction gs with
  | nil => cases hg
  | cons k gs ih =>
    cases gs with
    | nil =>
      obtain rfl := List.mem_singleton.1 hg
      exact hb
    | cons l gs =>
      show b ∈ k.classes ++ (choice (l :: gs)).classes
      rcases List.mem_cons.1 hg with rfl | hg
      · exact List.mem_append_left _ hb
      · exact List.mem_append_right _ (ih hg)

/-! ## Slashes -/

/-- No part of the glob can take a slash. -/
def SlashFree : Glob → Prop
  | char c => c ≠ '/'
  | anyRun => False
  | dirs => False
  | bracket b => ¬Has b '/'
  | group g => g.SlashFree
  | seq g h => g.SlashFree ∧ h.SlashFree
  | alt g h => g.SlashFree ∧ h.SlashFree
  | _ => True

theorem slashFree_choice {gs : List Glob} (h : ∀ g ∈ gs, g.SlashFree) : (choice gs).SlashFree := by
  induction gs with
  | nil => trivial
  | cons g gs ih =>
    have hg := h g (by simp)
    have hgs := ih fun k hk => h k (List.mem_cons_of_mem _ hk)
    cases gs with
    | nil => exact hg
    | cons k gs => exact ⟨hg, hgs⟩

theorem not_mem_of_takes {g : Glob} (h : g.SlashFree) {t : Text} (ht : g.Takes t) : '/' ∉ t := by
  induction g generalizing t with
  | empty =>
    obtain rfl : t = [] := ht
    simp
  | char c =>
    obtain rfl : t = [c] := ht
    simpa using Ne.symm h
  | one =>
    obtain ⟨c, hc, rfl⟩ := ht
    simpa using Ne.symm hc
  | run => exact ht
  | anyRun => exact absurd h id
  | dirs => exact absurd h id
  | bracket b =>
    obtain ⟨c, hc, rfl⟩ := ht
    intro hm
    obtain rfl := List.mem_singleton.1 hm
    exact h hc
  | range low high =>
    obtain ⟨n, -, -, rfl⟩ := ht
    exact Decimal.slash_not_mem_int n
  | group g ih => exact ih h ht
  | seq g k ihg ihk =>
    obtain ⟨u, v, rfl, hu, hv⟩ := ht
    have hu := ihg h.1 hu
    have hv := ihk h.2 hv
    simp [hu, hv]
  | alt g k ihg ihk =>
    rcases ht with ht | ht
    · exact ihg h.1 ht
    · exact ihk h.2 ht

/-! ## Reading -/

theorem slashFree_of_lead {braces : Bool} {s : Sign} {ss rest : List Sign} {g : Glob}
    (h : lead braces s ss = (.token g, rest)) (hs : Sign.StayInside (s :: ss))
    (hb : ∀ b ∈ g.classes, ¬Has b '/') : g.SlashFree := by
  have hcases : ∀ g, (lead braces s ss).1 = .token g → (∀ b ∈ g.classes, ¬Has b '/') →
      g.SlashFree := by
    revert hs
    refine lead_cases (P := fun s ss l _ => Sign.StayInside (s :: ss) →
      ∀ g, l = .token g → (∀ b ∈ g.classes, ¬Has b '/') → g.SlashFree)
      ?quoted ?anyRun ?run ?dirs ?one ?bracket ?group ?plain s ss
    case quoted =>
      intro c ss hs g hg _
      cases hg
      exact hs.1 (.quoted c) List.mem_cons_self
    case anyRun =>
      intro rest hs
      exact absurd ⟨[], rest, rfl⟩ hs.2
    case dirs =>
      intro rest hs
      exact absurd rfl (hs.1 (.plain '/') List.mem_cons_self)
    case bracket =>
      intro ss b rest _ _ g hg hb
      cases hg
      exact hb b List.mem_cons_self
    case group =>
      intro ss body rest _ _ _ g hg
      cases hg
    case plain =>
      intro c ss _ hs g hg _
      cases hg
      exact hs.1 (.plain c) List.mem_cons_self
    all_goals
      intros
      next hg _ =>
        cases hg
        trivial
  rw [h] at hcases
  exact hcases g rfl hb

/-- A glob is free of slashes when its signs are, and when no class of it takes one. -/
theorem slashFree_ofSignsWith (braces : Bool) (ss : List Sign) :
    Sign.StayInside ss → (∀ b ∈ (ofSignsWith braces ss).classes, ¬Has b '/') →
      (ofSignsWith braces ss).SlashFree := by
  refine ofSignsWith_induction (P := fun _ ss g => Sign.StayInside ss →
    (∀ b ∈ g.classes, ¬Has b '/') → g.SlashFree)
    ?nil ?token ?range ?alternatives ?literal braces ss
  case nil =>
    intros
    trivial
  case token =>
    intro braces s ss rest g k hl hk hs hb
    have hrest : rest <:+ s :: ss := by
      have := (lead_suffix braces s ss).trans (List.suffix_cons s ss)
      rwa [hl] at this
    exact ⟨slashFree_of_lead hl hs fun b hm => hb b (List.mem_append_left _ hm),
      hk (hs.of_infix hrest.isInfix) fun b hm => hb b (List.mem_append_right _ hm)⟩
  case range =>
    intro ss body rest low high k hbody _ hk hs hb
    obtain ⟨-, hrest⟩ := Brace.infix_of_closing? hbody (.plain '{')
    exact ⟨trivial, hk (hs.of_infix hrest) fun b hm => hb b (List.mem_append_right _ hm)⟩
  case alternatives =>
    intro ss body rest k hbody _ _ ha hk hs hb
    obtain ⟨hin, hrest⟩ := Brace.infix_of_closing? hbody (.plain '{')
    refine ⟨slashFree_choice fun g hg => ?_,
      hk (hs.of_infix hrest) fun b hm => hb b (List.mem_append_right _ hm)⟩
    obtain ⟨a, hm, rfl⟩ := List.mem_map.1 hg
    exact ha a hm (hs.of_infix ((Brace.infix_of_mem_alternatives hm).trans hin)) fun b hb' =>
      hb b (List.mem_append_left _ (mem_classes_choice hg hb'))
  case literal =>
    intro ss body rest k hbody _ _ hg hk hs hb
    obtain ⟨hin, hrest⟩ := Brace.infix_of_closing? hbody (.plain '{')
    have hbraces : SlashFree (seq (char '{') (seq (ofSigns body) (char '}'))) := by
      have hopen : '{' ≠ '/' := by decide
      have hclose : '}' ≠ '/' := by decide
      refine ⟨hopen, hg (hs.of_infix hin) fun b hm => ?_, hclose⟩
      have hmem : b ∈ (seq (char '{') (seq (ofSigns body) (char '}'))).classes :=
        List.mem_append_right _ (List.mem_append_left _ hm)
      exact hb b (List.mem_append_left _ hmem)
    exact ⟨hbraces, hk (hs.of_infix hrest) fun b hm => hb b (List.mem_append_right _ hm)⟩

end Glob

end EditorConfig
