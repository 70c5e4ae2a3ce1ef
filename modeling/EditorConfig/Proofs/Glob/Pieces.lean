import EditorConfig.Proofs.Glob.Reading

/-!
# The pieces of a path

What a glob means, told token by token and without any expression: the path is cut into pieces,
and each token takes one piece.

* `Glob.Piece`    the text that the first token of a glob can take, and the signs after the token;
* `Glob.Covers`   the paths that can be cut into one piece for each token.

Main statement: the glob that is read takes exactly the paths that it covers (`covers_iff_takes`).
-/

namespace EditorConfig

namespace Glob

mutual

/-- The token that the signs begin with can take the piece, and leaves the signs that are named
next.  `braces` says whether the braces of the glob are balanced. -/
inductive Piece : (braces : Bool) → List Sign → List Sign → Text → Prop
  | quoted {braces : Bool} {c : Char} {ss : List Sign} : Piece braces (.quoted c :: ss) ss [c]
  | slash {braces : Bool} {ss : List Sign} :
      Piece braces (.plain '/' :: .plain '*' :: .plain '*' :: .plain '/' :: ss) ss ['/']
  | dirs {braces : Bool} {ss : List Sign} {w : Text} (hw : '\n' ∉ w) :
      Piece braces (.plain '/' :: .plain '*' :: .plain '*' :: .plain '/' :: ss) ss
        ('/' :: w ++ ['/'])
  | anyRun {braces : Bool} {ss : List Sign} {w : Text} (hw : '\n' ∉ w) :
      Piece braces (.plain '*' :: .plain '*' :: ss) ss w
  | run {braces : Bool} {ss : List Sign} {w : Text} (hss : ss.head? ≠ some (.plain '*'))
      (hw : '/' ∉ w) : Piece braces (.plain '*' :: ss) ss w
  | one {braces : Bool} {ss : List Sign} {c : Char} (hc : c ≠ '/') :
      Piece braces (.plain '?' :: ss) ss [c]
  | bracket {braces : Bool} {ss rest : List Sign} {b : Bracket} {c : Char}
      (hb : Bracket.read? ss = some (b, rest)) (hc : Has b c) :
      Piece braces (.plain '[' :: ss) rest [c]
  | number {ss body rest : List Sign} {low high n : Int}
      (hbody : Brace.closing? 0 ss = some (body, rest))
      (hrange : Brace.range? body = some (low, high)) (hl : low ≤ n) (hh : n ≤ high) :
      Piece true (.plain '{' :: ss) rest (Decimal.int n)
  | alternative {ss body rest a : List Sign} {w : Text}
      (hbody : Brace.closing? 0 ss = some (body, rest)) (hrange : Brace.range? body = none)
      (hcomma : .plain ',' ∈ body) (ha : a ∈ Brace.alternatives 0 body)
      (hw : Covers (Brace.balanced a) a w) : Piece true (.plain '{' :: ss) rest w
  | braces {ss body rest : List Sign} {w : Text}
      (hbody : Brace.closing? 0 ss = some (body, rest)) (hrange : Brace.range? body = none)
      (hcomma : .plain ',' ∉ body) (hw : Covers (Brace.balanced body) body w) :
      Piece true (.plain '{' :: ss) rest ('{' :: w ++ ['}'])
  | plain {braces : Bool} {c : Char} {ss : List Sign} (hc : StandsForItself braces c ss) :
      Piece braces (.plain c :: ss) ss [c]

/-- A path can be cut into consecutive pieces, one for each token of the signs. -/
inductive Covers : (braces : Bool) → List Sign → Text → Prop
  | nil {braces : Bool} : Covers braces [] []
  | cons {braces : Bool} {ss rest : List Sign} {u v : Text} (hu : Piece braces ss rest u)
      (hv : Covers braces rest v) : Covers braces ss (u ++ v)

end

/-- What the first token can take, in terms of the token that is read. -/
def Lead.Gives : Lead → Text → Prop
  | .token g, w => g.Takes w
  | .group body, w =>
    match Brace.range? body with
    | some (low, high) => ∃ n, low ≤ n ∧ n ≤ high ∧ w = Decimal.int n
    | none =>
      if .plain ',' ∈ body then
        ∃ a ∈ Brace.alternatives 0 body, Covers (Brace.balanced a) a w
      else ∃ v, Covers (Brace.balanced body) body v ∧ w = '{' :: v ++ ['}']

theorem Piece.lead {braces : Bool} {ss rest : List Sign} {w : Text} (h : Piece braces ss rest w) :
    ∃ s ts l, ss = s :: ts ∧ Glob.lead braces s ts = (l, rest) ∧ l.Gives w := by
  cases h with
  | quoted => exact ⟨_, _, _, rfl, rfl, rfl⟩
  | slash => exact ⟨_, _, .token .dirs, rfl, rfl, .inl rfl⟩
  | @dirs _ _ u hw => exact ⟨_, _, .token .dirs, rfl, rfl, .inr ⟨u, hw, rfl⟩⟩
  | anyRun hw => exact ⟨_, _, .token .anyRun, rfl, rfl, hw⟩
  | run hss hw =>
    refine ⟨_, _, .token .run, rfl, ?_, hw⟩
    have hne (ts : List Sign) : rest ≠ .plain '*' :: ts := by
      rintro rfl
      exact hss rfl
    simp [Glob.lead]
  | @one _ _ c hc => exact ⟨_, _, .token .one, rfl, rfl, c, hc, rfl⟩
  | @bracket _ _ _ b c hb hc =>
    exact ⟨_, _, .token (.bracket b), rfl, by simp [Glob.lead, hb], c, hc, rfl⟩
  | @number _ body _ low high n hbody hrange hl hh =>
    refine ⟨_, _, .group body, rfl, by simp [Glob.lead, hbody], ?_⟩
    rw [Lead.Gives, hrange]
    exact ⟨n, hl, hh, rfl⟩
  | @alternative _ body _ a _ hbody hrange hcomma ha hw =>
    refine ⟨_, _, .group body, rfl, by simp [Glob.lead, hbody], ?_⟩
    rw [Lead.Gives, hrange]
    exact (if_pos hcomma).symm ▸ ⟨a, ha, hw⟩
  | @braces _ body _ v hbody hrange hcomma hw =>
    refine ⟨_, _, .group body, rfl, by simp [Glob.lead, hbody], ?_⟩
    rw [Lead.Gives, hrange]
    exact (if_neg hcomma).symm ▸ ⟨v, hw, rfl⟩
  | plain hc => exact ⟨_, _, _, rfl, lead_of_standsForItself hc, rfl⟩

theorem piece_of_gives {braces : Bool} {s : Sign} {ss : List Sign} {w : Text}
    (h : (lead braces s ss).1.Gives w) : Piece braces (s :: ss) (lead braces s ss).2 w := by
  revert h
  refine lead_cases (P := fun s ss l rest => l.Gives w → Piece braces (s :: ss) rest w)
    ?quoted ?anyRun ?run ?dirs ?one ?bracket ?group ?plain s ss
  case quoted =>
    rintro c ss ⟨rfl⟩
    exact .quoted
  case anyRun =>
    intro rest hw
    exact .anyRun hw
  case run =>
    intro ss hss hw
    exact .run hss hw
  case dirs =>
    rintro rest (rfl | ⟨u, hu, rfl⟩)
    · exact .slash
    · exact .dirs hu
  case one =>
    rintro ss ⟨c, hc, rfl⟩
    exact .one hc
  case bracket =>
    rintro ss b rest hb ⟨c, hc, rfl⟩
    exact .bracket hb hc
  case group =>
    intro ss body rest hbraces hbody hw
    subst hbraces
    rw [Lead.Gives] at hw
    split at hw
    · next low high hrange =>
      obtain ⟨n, hl, hh, rfl⟩ := hw
      exact .number hbody hrange hl hh
    · next hrange =>
      split at hw
      · next hcomma =>
        obtain ⟨a, ha, hw⟩ := hw
        exact .alternative hbody hrange hcomma ha hw
      · next hcomma =>
        obtain ⟨v, hv, rfl⟩ := hw
        exact .braces hbody hrange hcomma hv
  case plain =>
    rintro c ss hc ⟨rfl⟩
    exact .plain hc

theorem covers_cons {braces : Bool} {s : Sign} {ss : List Sign} {t : Text} :
    Covers braces (s :: ss) t
      ↔ ∃ u v, t = u ++ v ∧ (lead braces s ss).1.Gives u ∧
          Covers braces (lead braces s ss).2 v := by
  constructor
  · intro h
    cases h with
    | @cons _ _ rest u v hu hv =>
      obtain ⟨s', ts, l, he, hl, hg⟩ := hu.lead
      cases he
      exact ⟨u, v, rfl, by rw [hl]; exact hg, by rw [hl]; exact hv⟩
  · intro h1
    obtain ⟨u, v, rfl, hu, hv⟩ := h1
    exact .cons (piece_of_gives hu) hv

/-! ## The glob that is read -/

theorem covers_nil {braces : Bool} {t : Text} : Covers braces [] t ↔ t = [] := by
  constructor
  · intro h
    cases h with
    | nil => rfl
    | cons hu hv =>
      obtain ⟨s, ts, l, he, -⟩ := hu.lead
      cases he
  · rintro rfl
    exact .nil

theorem takes_choice {gs : List Glob} (h : gs ≠ []) {t : Text} :
    (choice gs).Takes t ↔ ∃ g ∈ gs, g.Takes t := by
  induction gs with
  | nil => exact absurd rfl h
  | cons g gs ih =>
    cases gs with
    | nil => simp [choice]
    | cons k gs =>
      show g.Takes t ∨ (choice (k :: gs)).Takes t ↔ _
      rw [ih (by simp)]
      simp only [List.mem_cons, or_and_right, exists_or, exists_eq_left]

theorem takes_braces {g : Glob} {t : Text} :
    (seq (char '{') (seq g (char '}'))).Takes t ↔ ∃ v, g.Takes v ∧ t = '{' :: v ++ ['}'] := by
  constructor
  · intro h1
    obtain ⟨_, _, rfl, rfl, v, _, rfl, hv, rfl⟩ := h1
    exact ⟨v, hv, rfl⟩
  · intro h1
    obtain ⟨v, hv, rfl⟩ := h1
    exact ⟨['{'], v ++ ['}'], rfl, rfl, v, ['}'], rfl, hv, rfl⟩

/-- The glob that is read takes exactly the paths that can be cut into pieces. -/
theorem covers_iff_takes (braces : Bool) (ss : List Sign) :
    ∀ t, Covers braces ss t ↔ (ofSignsWith braces ss).Takes t := by
  refine ofSignsWith_induction (P := fun braces ss g => ∀ t, Covers braces ss t ↔ g.Takes t)
    ?nil ?token ?range ?alternatives ?literal braces ss
  case nil =>
    intro braces t
    exact covers_nil
  case token =>
    intro braces s ss rest g h hl hh t
    rw [covers_cons, hl]
    simp only [hh]
    exact Iff.rfl
  case range =>
    intro ss body rest low high h hbody hrange hh t
    have hl : lead true (.plain '{') ss = (.group body, rest) := by simp [lead, hbody]
    rw [covers_cons, hl]
    simp only [hh, Lead.Gives, hrange]
    exact Iff.rfl
  case alternatives =>
    intro ss body rest h hbody hrange hcomma ha hh t
    have hl : lead true (.plain '{') ss = (.group body, rest) := by simp [lead, hbody]
    have hne : (Brace.alternatives 0 body).map ofSigns ≠ [] := by
      obtain ⟨a, hm⟩ := Brace.exists_mem_alternatives 0 body
      exact List.ne_nil_of_mem (List.mem_map_of_mem hm)
    have hgives (u : Text) : (Lead.group body).Gives u
        ↔ (group (choice ((Brace.alternatives 0 body).map ofSigns))).Takes u := by
      show _ ↔ (choice _).Takes u
      rw [takes_choice hne]
      simp only [Lead.Gives, hrange, hcomma, if_true, List.mem_map]
      constructor
      · intro h1
        obtain ⟨a, hm, hu⟩ := h1
        exact ⟨_, ⟨a, hm, rfl⟩, (ha a hm u).1 hu⟩
      · intro h1
        obtain ⟨_, ⟨a, hm, rfl⟩, hu⟩ := h1
        exact ⟨a, hm, (ha a hm u).2 hu⟩
    rw [covers_cons, hl]
    simp only [hh, hgives]
    exact Iff.rfl
  case literal =>
    intro ss body rest h hbody hrange hcomma hb hh t
    have hl : lead true (.plain '{') ss = (.group body, rest) := by simp [lead, hbody]
    have hgives (u : Text) : (Lead.group body).Gives u
        ↔ (seq (char '{') (seq (ofSigns body) (char '}'))).Takes u := by
      rw [takes_braces]
      simp only [Lead.Gives, hrange, hcomma, if_false, hb]
    rw [covers_cons, hl]
    simp only [hh, hgives]
    exact Iff.rfl

end Glob

end EditorConfig
