import EditorConfig.Glob.Basic

/-!
# Reading globs

A glob is read from left to right, one token at a time.  Every text is a glob: what does not fit
stands for itself.

* `Glob.lead`        the token that a glob begins with, and the signs after it;
* `Glob.ofSigns`     the glob that signs stand for;
* `Glob.ofText`      the glob that a text stands for.
-/

namespace EditorConfig.Glob

/-- A token; the body of a group is still to be read. -/
inductive Lead where
  | token (g : Glob)
  | group (body : List Sign)
deriving DecidableEq, Repr

/-- The token that begins with `s`, and the signs after it.  A `{` opens a group only when
`braces` holds and the group is closed. -/
def lead (braces : Bool) (s : Sign) (ss : List Sign) : Lead × List Sign :=
  match s with
  | .quoted c => (.token (.char c), ss)
  | .plain c =>
    if c = '*' then
      match ss with
      | .plain '*' :: ss => (.token .anyRun, ss)
      | ss => (.token .run, ss)
    else if c = '/' then
      match ss with
      | .plain '*' :: .plain '*' :: .plain '/' :: ss => (.token .dirs, ss)
      | ss => (.token (.char '/'), ss)
    else if c = '?' then (.token .one, ss)
    else if c = '[' then
      match Bracket.read? ss with
      | some (b, ss) => (.token (.bracket b), ss)
      | none => (.token (.char '['), ss)
    else if c = '{' ∧ braces = true then
      match Brace.closing? 0 ss with
      | some (body, ss) => (.group body, ss)
      | none => (.token (.char '{'), ss)
    else (.token (.char c), ss)

/-- The signs that a token leaves, and the body of a group, are fewer than there were. -/
theorem length_lead (braces : Bool) (s : Sign) (ss : List Sign) :
    (lead braces s ss).2.length ≤ ss.length ∧
      ∀ body, (lead braces s ss).1 = .group body → body.length < ss.length := by
  unfold lead
  split
  · simp
  · split
    · split
      · simp only [List.length_cons, reduceCtorEq, false_implies, implies_true, and_true]
        omega
      · simp
    · split
      · split
        · simp only [List.length_cons, reduceCtorEq, false_implies, implies_true, and_true]
          omega
        · simp
      · split
        · simp
        · split
          · split
            · next h =>
              have := Bracket.length_read? h
              simp only [reduceCtorEq, false_implies, implies_true, and_true]
              omega
            · simp
          · split
            · split
              · next h =>
                have := Brace.length_closing? h
                simp only [Lead.group.injEq, forall_eq']
                omega
              · simp
            · simp

mutual

/-- The glob that signs stand for, when it is known whether their braces are balanced. -/
def ofSignsWith (braces : Bool) : List Sign → Glob
  | [] => .empty
  | s :: ss =>
    match h : (lead braces s ss).1 with
    | .token g => .seq g (ofSignsWith braces (lead braces s ss).2)
    | .group body =>
      have := (length_lead braces s ss).2 body h
      .seq (ofBody body) (ofSignsWith braces (lead braces s ss).2)
termination_by ss => (ss.length, 0)
decreasing_by
  · exact Prod.Lex.left _ _ (Nat.lt_succ_of_le (length_lead braces s ss).1)
  · exact Prod.Lex.left _ _ (Nat.lt_succ_of_lt this)
  · exact Prod.Lex.left _ _ (Nat.lt_succ_of_le (length_lead braces s ss).1)

/-- The glob that a group stands for: a range of numbers, alternatives, or, when the body has no
comma at all, the braces themselves with the body between them. -/
def ofBody (body : List Sign) : Glob :=
  match Brace.range? body with
  | some (low, high) => .range low high
  | none =>
    if Sign.plain ',' ∈ body then
      .group (choice ((Brace.alternatives 0 body).attach.map fun ⟨a, _⟩ =>
        ofSignsWith (Brace.balanced a) a))
    else .seq (.char '{') (.seq (ofSignsWith (Brace.balanced body) body) (.char '}'))
termination_by (body.length, 1)
decreasing_by
  · next h =>
    have := Brace.length_of_mem_alternatives h
    rcases Nat.lt_or_eq_of_le this with h | h
    · exact Prod.Lex.left _ _ h
    · rw [h]
      exact Prod.Lex.right _ (by decide)
  · exact Prod.Lex.right _ (by decide)

end

def ofSigns (ss : List Sign) : Glob := ofSignsWith (Brace.balanced ss) ss

def ofText (t : Text) : Glob := ofSigns t.signs

/-! ## One token at a time -/

theorem ofSignsWith_nil (braces : Bool) : ofSignsWith braces [] = .empty := by
  rw [ofSignsWith]

theorem ofSignsWith_token {braces : Bool} {s : Sign} {ss rest : List Sign} {g : Glob}
    (h : lead braces s ss = (.token g, rest)) :
    ofSignsWith braces (s :: ss) = .seq g (ofSignsWith braces rest) := by
  rw [ofSignsWith]
  split
  · next h' => rw [h] at h' ⊢; cases h'; rfl
  · next h' => rw [h] at h'; cases h'

theorem ofSignsWith_group {braces : Bool} {s : Sign} {ss body rest : List Sign}
    (h : lead braces s ss = (.group body, rest)) :
    ofSignsWith braces (s :: ss) = .seq (ofBody body) (ofSignsWith braces rest) := by
  rw [ofSignsWith]
  split
  · next h' => rw [h] at h'; cases h'
  · next h' =>
    have h1 := h'
    rw [h] at h1
    cases h1
    simp only [h]

theorem ofBody_range {body : List Sign} {low high : Int}
    (h : Brace.range? body = some (low, high)) : ofBody body = .range low high := by
  rw [ofBody, h]

theorem ofBody_alternatives {body : List Sign} (h : Brace.range? body = none)
    (hc : .plain ',' ∈ body) :
    ofBody body = .group (choice ((Brace.alternatives 0 body).map ofSigns)) := by
  rw [ofBody, h]
  simp only [hc, if_true]
  congr 2
  exact @List.attach_map_val _ _ (Brace.alternatives 0 body) ofSigns

theorem ofBody_literal {body : List Sign} (h : Brace.range? body = none)
    (hc : .plain ',' ∉ body) :
    ofBody body = .seq (.char '{') (.seq (ofSigns body) (.char '}')) := by
  rw [ofBody, h]
  simp [hc, ofSigns]

end EditorConfig.Glob
