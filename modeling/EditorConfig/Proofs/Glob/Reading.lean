import EditorConfig.Proofs.Glob.Expression
import EditorConfig.Proofs.Glob.Nesting

/-!
# What reading a glob can do

* `Glob.ofSignsWith_induction`   one case for each way in which a glob goes on: at its end, with a
                                 token, or with a group that is a range, a choice or plain braces.

Main statement: every glob that is read is proper (`proper_ofSignsWith`), so that its text is an
expression.
-/

namespace EditorConfig

namespace Brace

theorem le_of_range? {body : List Sign} {low high : Int} (h : range? body = some (low, high)) :
    low ≤ high := by
  simp only [range?, bind, Option.bind_eq_some_iff] at h
  obtain ⟨t, -, ⟨a, b⟩, -, l, -, m, -, hlm⟩ := h
  split at hlm
  · next hle =>
    simp only [Option.some.injEq, Prod.mk.injEq] at hlm
    obtain ⟨rfl, rfl⟩ := hlm
    exact hle.1
  · contradiction

end Brace

namespace Glob

/-! ## One token -/

/-- The plain character `c` has no meaning before the signs `ss`. -/
def StandsForItself (braces : Bool) (c : Char) (ss : List Sign) : Prop :=
  c ≠ '*' ∧ c ≠ '?' ∧ (c = '/' → ¬[.plain '*', .plain '*', .plain '/'] <+: ss) ∧
    (c = '[' → Bracket.read? ss = none) ∧
    (c = '{' → braces = true → Brace.closing? 0 ss = none)

/-- One case for each token that a glob can begin with. -/
theorem lead_cases {braces : Bool} {P : Sign → List Sign → Lead → List Sign → Prop}
    (quoted : ∀ c ss, P (.quoted c) ss (.token (.char c)) ss)
    (anyRun : ∀ rest, P (.plain '*') (.plain '*' :: rest) (.token .anyRun) rest)
    (run : ∀ ss, ss.head? ≠ some (.plain '*') → P (.plain '*') ss (.token .run) ss)
    (dirs : ∀ rest,
      P (.plain '/') (.plain '*' :: .plain '*' :: .plain '/' :: rest) (.token .dirs) rest)
    (one : ∀ ss, P (.plain '?') ss (.token .one) ss)
    (bracket : ∀ ss b rest, Bracket.read? ss = some (b, rest) →
      P (.plain '[') ss (.token (.bracket b)) rest)
    (group : ∀ ss body rest, braces = true → Brace.closing? 0 ss = some (body, rest) →
      P (.plain '{') ss (.group body) rest)
    (plain : ∀ c ss, StandsForItself braces c ss → P (.plain c) ss (.token (.char c)) ss)
    (s : Sign) (ss : List Sign) : P s ss (lead braces s ss).1 (lead braces s ss).2 := by
  cases s with
  | quoted c => exact quoted c ss
  | plain c =>
    unfold lead
    split
    · next c' heq => cases heq
    · next c' heq =>
      cases heq
      split
      · next hc =>
        subst hc
        split
        · next rest => exact anyRun rest
        · next hne =>
          refine run ss fun hh => ?_
          obtain ⟨rest, rfl⟩ := List.head?_eq_some_iff.1 hh
          exact hne rest rfl
      · next hstar =>
        split
        · next hc =>
          subst hc
          split
          · next rest => exact dirs rest
          · next hne =>
            refine plain '/' ss ⟨by decide, by decide, fun _ hp => ?_, by simp, by simp⟩
            obtain ⟨rest, rfl⟩ := hp
            exact hne rest rfl
        · next hslash =>
          split
          · next hc =>
            subst hc
            exact one ss
          · next hone =>
            split
            · next hc =>
              subst hc
              split
              · next b rest hb => exact bracket ss b rest hb
              · next hb => exact plain '[' ss ⟨by decide, by decide, by simp, fun _ => hb, by simp⟩
            · next hbracket =>
              split
              · next hc =>
                obtain ⟨rfl, hbraces⟩ := hc
                split
                · next body rest hb => exact group ss body rest hbraces hb
                · next hb =>
                  exact plain '{' ss ⟨by decide, by decide, by simp, by simp, fun _ _ => hb⟩
              · next hbrace =>
                exact plain c ss ⟨hstar, hone, fun h => absurd h hslash, fun h => absurd h hbracket,
                  fun hc hb => absurd ⟨hc, hb⟩ hbrace⟩

theorem lead_of_standsForItself {braces : Bool} {c : Char} {ss : List Sign}
    (h : StandsForItself braces c ss) :
    lead braces (.plain c) ss = (.token (.char c), ss) := by
  obtain ⟨hstar, hone, hslash, hbracket, hbrace⟩ := h
  by_cases h1 : c = '/'
  · subst h1
    have hne (rest : List Sign) : ss ≠ .plain '*' :: .plain '*' :: .plain '/' :: rest := by
      rintro rfl
      exact hslash rfl ⟨rest, rfl⟩
    simp [lead]
  · by_cases h2 : c = '['
    · subst h2
      simp [lead, hbracket rfl]
    · by_cases h3 : c = '{' ∧ braces = true
      · obtain ⟨rfl, rfl⟩ := h3
        simp [lead, hbrace rfl rfl]
      · simp [lead, hstar, hone, h1, h2, h3]

theorem lead_run {braces : Bool} {ss : List Sign} (h : ss.head? ≠ some (.plain '*')) :
    lead braces (.plain '*') ss = (.token .run, ss) := by
  cases ss with
  | nil => rfl
  | cons s ss =>
    have hs : s ≠ .plain '*' := fun he => h (by rw [he]; rfl)
    simp [lead, hs]

theorem lead_group {ss body rest : List Sign} (h : Brace.closing? 0 ss = some (body, rest)) :
    lead true (.plain '{') ss = (.group body, rest) := by
  simp [lead, h]

/-- What follows a token is the end of what followed its first sign. -/
theorem lead_suffix (braces : Bool) (s : Sign) (ss : List Sign) :
    (lead braces s ss).2 <:+ ss := by
  refine lead_cases (P := fun _ ss _ rest => rest <:+ ss)
    ?quoted ?anyRun ?run ?dirs ?one ?bracket ?group ?plain s ss
  case anyRun => exact fun rest => List.suffix_cons _ rest
  case dirs => exact fun rest => ⟨[.plain '*', .plain '*', .plain '/'], rfl⟩
  case bracket => exact fun ss b rest hb => Bracket.suffix_of_read? hb
  case group =>
    intro ss body rest _ hbody
    rw [Brace.eq_of_closing? hbody]
    exact ⟨body ++ [.plain '}'], by simp⟩
  all_goals
    intros
    exact List.suffix_rfl

theorem lead_eq_group {braces : Bool} {s : Sign} {ss body rest : List Sign}
    (h : lead braces s ss = (.group body, rest)) :
    braces = true ∧ s = .plain '{' ∧ Brace.closing? 0 ss = some (body, rest) := by
  have hcases : ∀ body, (lead braces s ss).1 = .group body →
      braces = true ∧ s = .plain '{' ∧ Brace.closing? 0 ss = some (body, (lead braces s ss).2) := by
    refine lead_cases (P := fun s ss l rest => ∀ body, l = .group body →
      braces = true ∧ s = .plain '{' ∧ Brace.closing? 0 ss = some (body, rest))
      ?quoted ?anyRun ?run ?dirs ?one ?bracket ?group ?plain s ss
    case group =>
      intro ss body rest hb hc body' hbody
      cases hbody
      exact ⟨hb, rfl, hc⟩
    all_goals
      intros
      contradiction
  rw [h] at hcases
  exact hcases body rfl

/-- A token that is read is proper: it offers no choice, and a class has been accepted. -/
theorem proper_of_lead {braces : Bool} {s : Sign} {ss rest : List Sign} {g : Glob}
    (h : lead braces s ss = (.token g, rest)) : g.Proper false := by
  have hcases : ∀ g, (lead braces s ss).1 = .token g → g.Proper false := by
    refine lead_cases (P := fun _ _ l _ => ∀ g, l = .token g → g.Proper false)
      ?quoted ?anyRun ?run ?dirs ?one ?bracket ?group ?plain s ss
    case bracket =>
      intro ss b rest hb g hg
      cases hg
      exact ⟨Bracket.writable_of_read? hb, Bracket.exists_charClass?_of_read? hb⟩
    all_goals simp [Proper]
  rw [h] at hcases
  exact hcases g rfl

/-! ## All tokens -/

/-- Reading as a rule for evaluation: one token, and then the rest. -/
theorem ofSignsWith_cons (braces : Bool) (s : Sign) (ss : List Sign) :
    ofSignsWith braces (s :: ss)
      = match lead braces s ss with
        | (.token g, rest) => .seq g (ofSignsWith braces rest)
        | (.group body, rest) => .seq (ofBody body) (ofSignsWith braces rest) := by
  cases hl : lead braces s ss with
  | mk l rest =>
    cases l with
    | token g => rw [ofSignsWith_token hl]
    | group body => rw [ofSignsWith_group hl]

theorem ofBody_eq (body : List Sign) :
    ofBody body
      = match Brace.range? body with
        | some (low, high) => .range low high
        | none =>
          if .plain ',' ∈ body then .group (choice ((Brace.alternatives 0 body).map ofSigns))
          else .seq (.char '{') (.seq (ofSigns body) (.char '}')) := by
  cases hr : Brace.range? body with
  | some bounds => rw [ofBody_range hr]
  | none =>
    by_cases hc : .plain ',' ∈ body
    · rw [ofBody_alternatives hr hc]
      exact (if_pos hc).symm
    · rw [ofBody_literal hr hc]
      exact (if_neg hc).symm

/-- Reading, one case for each way in which a glob goes on. -/
theorem ofSignsWith_induction {P : Bool → List Sign → Glob → Prop}
    (nil : ∀ braces, P braces [] .empty)
    (token : ∀ braces s ss rest g h, lead braces s ss = (.token g, rest) → P braces rest h →
      P braces (s :: ss) (.seq g h))
    (range : ∀ ss body rest low high h, Brace.closing? 0 ss = some (body, rest) →
      Brace.range? body = some (low, high) → P true rest h →
      P true (.plain '{' :: ss) (.seq (.range low high) h))
    (alternatives : ∀ ss body rest h, Brace.closing? 0 ss = some (body, rest) →
      Brace.range? body = none → .plain ',' ∈ body →
      (∀ a ∈ Brace.alternatives 0 body, P (Brace.balanced a) a (ofSigns a)) → P true rest h →
      P true (.plain '{' :: ss)
        (.seq (.group (choice ((Brace.alternatives 0 body).map ofSigns))) h))
    (literal : ∀ ss body rest h, Brace.closing? 0 ss = some (body, rest) →
      Brace.range? body = none → .plain ',' ∉ body →
      P (Brace.balanced body) body (ofSigns body) → P true rest h →
      P true (.plain '{' :: ss) (.seq (.seq (.char '{') (.seq (ofSigns body) (.char '}'))) h))
    (braces : Bool) (ss : List Sign) : P braces ss (ofSignsWith braces ss) := by
  induction hn : ss.length using Nat.strongRecOn generalizing braces ss with
  | ind n ih =>
    subst hn
    cases ss with
    | nil =>
      rw [ofSignsWith_nil]
      exact nil braces
    | cons s ss =>
      obtain ⟨hle, -⟩ := length_lead braces s ss
      cases hl : lead braces s ss with
      | mk l rest =>
        rw [hl] at hle
        have hrest := ih rest.length (Nat.lt_succ_of_le hle) braces rest rfl
        cases l with
        | token g =>
          rw [ofSignsWith_token hl]
          exact token braces s ss rest g _ hl hrest
        | group body =>
          rw [ofSignsWith_group hl]
          obtain ⟨rfl, rfl, hc⟩ := lead_eq_group hl
          have hbody := Brace.length_closing? hc
          cases hr : Brace.range? body with
          | some bounds =>
            rw [ofBody_range hr]
            exact range ss body rest _ _ _ hc hr hrest
          | none =>
            by_cases hcomma : .plain ',' ∈ body
            · rw [ofBody_alternatives hr hcomma]
              refine alternatives ss body rest _ hc hr hcomma (fun a ha => ?_) hrest
              have := Brace.length_of_mem_alternatives ha
              exact ih a.length (by simp only [List.length_cons]; omega) _ a rfl
            · rw [ofBody_literal hr hcomma]
              refine literal ss body rest _ hc hr hcomma ?_ hrest
              exact ih body.length (by simp only [List.length_cons]; omega) _ body rfl

theorem proper_ofSignsWith (braces : Bool) (ss : List Sign) :
    (ofSignsWith braces ss).Proper false := by
  refine ofSignsWith_induction (P := fun _ _ g => g.Proper false)
    ?nil ?token ?range ?alternatives ?literal braces ss
  case nil =>
    intro braces
    trivial
  case token =>
    intro braces s ss rest g h hl hh
    exact ⟨proper_of_lead hl, hh⟩
  case range =>
    intro ss body rest low high h _ hr hh
    exact ⟨Brace.le_of_range? hr, hh⟩
  case alternatives =>
    intro ss body rest h _ _ _ ha hh
    refine ⟨proper_choice fun g hg => ?_, hh⟩
    obtain ⟨a, hm, rfl⟩ := List.mem_map.1 hg
    exact ha a hm
  case literal =>
    intro ss body rest h _ _ _ hb hh
    exact ⟨⟨trivial, hb, trivial⟩, hh⟩

theorem parse?_expressionText (t : Text) :
    Regex.parse? (Pattern.expressionText t) = some (ofText t).expression :=
  parse?_regexText (proper_ofSignsWith _ _)

end Glob

end EditorConfig
