import EditorConfig.Proofs.Glob.Fit

/-!
# Globs that stand for themselves

* `Sign.Bare`      a sign that has no meaning wherever it stands in a glob;
* `Text.escaped`   a text with a backslash in front of each character;
* `Glob.literal`   the glob that takes a text letter by letter.

Main statement: a text matches exactly itself when each of its characters is quoted, and also when
none of them has a meaning (`Pattern.accepts_literal`).
-/

namespace EditorConfig

/-! ## Signs without a meaning -/

namespace Sign

/-- The sign stands for its character, whatever comes before or after it. -/
def Bare (s : Sign) : Prop := s ∉ ['*', '?', '[', '{'].map plain

instance : DecidablePred Bare := fun _ => inferInstanceAs (Decidable (¬_))

theorem bare_quoted (c : Char) : Bare (.quoted c) := by simp [Bare]

theorem bare_plain {c : Char} : Bare (.plain c) ↔ c ∉ ['*', '?', '[', '{'] := by
  simp [Bare]

end Sign

namespace Text

def escaped (t : Text) : Text := t.flatMap fun c => ['\\', c]

theorem escaped_cons (c : Char) (t : Text) : escaped (c :: t) = '\\' :: c :: escaped t := rfl

theorem length_escaped (t : Text) : (escaped t).length = 2 * t.length := by
  induction t with
  | nil => rfl
  | cons c t ih =>
    rw [escaped_cons, List.length_cons, List.length_cons, ih, List.length_cons]
    omega

theorem signs_escaped (t : Text) : signs (escaped t) = t.map .quoted := by
  induction t with
  | nil => rfl
  | cons c t ih => rw [escaped_cons, signs_quoted, ih, List.map_cons]

end Text

namespace Glob

/-! ## Letter by letter -/

def literal : Text → Glob
  | [] => empty
  | c :: t => seq (char c) (literal t)

theorem literal_cons (c : Char) (t : Text) : literal (c :: t) = seq (char c) (literal t) := rfl

theorem takes_literal {t u : Text} : (literal t).Takes u ↔ u = t := by
  induction t generalizing u with
  | nil => exact Iff.rfl
  | cons c t ih =>
    show (∃ v w, u = v ++ w ∧ v = [c] ∧ (literal t).Takes w) ↔ u = c :: t
    constructor
    · intro h
      obtain ⟨v, w, rfl, rfl, hw⟩ := h
      rw [ih.1 hw]
      rfl
    · intro h
      exact ⟨[c], t, h, rfl, ih.2 rfl⟩

theorem fits_char (c : Char) : (char c).Fits := by
  intro r hr
  obtain rfl : r = .one (.char c) := List.mem_singleton.1 hr
  show 0 < 250
  omega

theorem fits_literal (t : Text) : (literal t).Fits := by
  induction t with
  | nil => exact fits_empty
  | cons c t ih => exact fits_seq.2 ⟨fits_char c, ih⟩

theorem weight_literal_replicate (n : Nat) (c : Char) :
    (literal (List.replicate n c)).weight = n * (40 * c.utf8Size) := by
  induction n with
  | zero => exact (Nat.zero_mul _).symm
  | succ n ih =>
    have hchar : (char c).weight = 40 * c.utf8Size := rfl
    rw [List.replicate_succ, literal_cons, weight_seq, hchar, ih, Nat.succ_mul n, Nat.add_comm]

/-! ## Reading -/

/-- A bare sign is read as its character when only bare signs come behind it: a slash begins no
`/**/` there. -/
theorem lead_bare {braces : Bool} {s : Sign} {ss : List Sign} (hs : s.Bare)
    (hss : ∀ t ∈ ss, t.Bare) : lead braces s ss = (.token (.char s.char), ss) := by
  cases s with
  | quoted c => rfl
  | plain c =>
    have hc := Sign.bare_plain.1 hs
    simp only [List.mem_cons, List.not_mem_nil, or_false, not_or] at hc
    obtain ⟨hstar, hone, hbracket, hbrace⟩ := hc
    apply lead_of_standsForItself
    refine ⟨hstar, hone, fun _ hdirs => ?_, fun h => absurd h hbracket, fun h => absurd h hbrace⟩
    have hmem : Sign.plain '*' ∈ ss := hdirs.mem List.mem_cons_self
    exact absurd (hss _ hmem) (by decide)

theorem ofSignsWith_bare {braces : Bool} {ss : List Sign} (h : ∀ s ∈ ss, s.Bare) :
    ofSignsWith braces ss = literal (ss.map Sign.char) := by
  induction ss with
  | nil => exact ofSignsWith_nil braces
  | cons s ss ih =>
    obtain ⟨hs, hss⟩ := List.forall_mem_cons.1 h
    rw [ofSignsWith_token (lead_bare hs hss), ih hss, List.map_cons, literal_cons]

theorem ofText_escaped (t : Text) : ofText t.escaped = literal t := by
  have hbare : ∀ s ∈ t.map Sign.quoted, s.Bare := by
    intro s hs
    obtain ⟨c, -, rfl⟩ := List.mem_map.1 hs
    exact Sign.bare_quoted c
  have hchars : (t.map Sign.quoted).map Sign.char = t := by
    rw [List.map_map]
    exact List.map_id t
  rw [ofText, Text.signs_escaped, ofSigns, ofSignsWith_bare hbare, hchars]

theorem ofSignsWith_plain {braces : Bool} {t : Text} (h : ∀ c ∈ t, c ∉ ['*', '?', '[', '{']) :
    ofSignsWith braces (t.map .plain) = literal t := by
  have hbare : ∀ s ∈ t.map Sign.plain, s.Bare := by
    intro s hs
    obtain ⟨c, hc, rfl⟩ := List.mem_map.1 hs
    exact Sign.bare_plain.2 (h c hc)
  have hchars : (t.map Sign.plain).map Sign.char = t := by
    rw [List.map_map]
    exact List.map_id t
  rw [ofSignsWith_bare hbare, hchars]

theorem ofText_bare {t : Text} (h : ∀ c ∈ t, c ∉ ['\\', '*', '?', '[', '{']) :
    ofText t = literal t := by
  have hquote : '\\' ∉ t := fun hm => h _ hm List.mem_cons_self
  rw [ofText, Text.signs_of_not_mem hquote, ofSigns,
    ofSignsWith_plain fun c hc hm => h c hc (List.mem_cons_of_mem _ hm)]

theorem ofText_letter {c : Char} (hc : c ∉ ['\\', '*', '?', '[', '{']) :
    ofText [c] = seq (char c) empty := by
  apply ofText_bare
  intro d hd
  rwa [List.mem_singleton.1 hd]

end Glob

namespace Pattern

/-- **Texts that stand for themselves.**  With a backslash in front of each character a text matches
exactly itself, unless that has no room.  It does so without backslashes in any case, when none of
its characters has a meaning. -/
theorem accepts_literal [Regex.Engine] (t path : Text) :
    ((Glob.ofText t.escaped).HasRoom →
      ((compile t.escaped).accepts path = true ↔ path = t)) ∧
      ((∀ c ∈ t, c ∉ ['\\', '*', '?', '[', '{']) →
        ((compile t).accepts path = true ↔ path = t)) := by
  constructor
  · intro hroom
    have hfits : (Glob.ofText t.escaped).Fits := by
      rw [Glob.ofText_escaped]
      exact Glob.fits_literal t
    rw [accepts_iff_takes (isSome_compile.2 ⟨hfits, hroom⟩), Glob.ofText_escaped,
      Glob.takes_literal]
  · intro h
    apply accepts_iff_eq_of_takes
    intro path
    rw [Glob.ofText_bare h, Glob.takes_literal]

/-- What has a meaning in an expression only has none in a glob. -/
theorem accepts_literal_metacharacters :
    let t : Text := ['/', '^', '(', '.', '+', '|', ']', ')', '}', '$', '&', '&', '-', '#', '\n']
    (∀ c ∈ t, c ∉ ['\\', '*', '?', '[', '{']) ∧ (compile t).accepts t = true ∧
      (Glob.ofText t.escaped).HasRoom ∧ (compile t.escaped).accepts t = true := by
  intro t
  have ht : ∀ c ∈ t, c ∉ ['\\', '*', '?', '[', '{'] := by simp [t]
  have hroom : (Glob.ofText t.escaped).HasRoom := by
    apply Glob.hasRoom_of_weight_le (Glob.proper_ofText _)
    rw [Glob.ofText_escaped]
    decide
  obtain ⟨hescaped, hbare⟩ := accepts_literal t t
  exact ⟨ht, (hbare ht).2 rfl, hroom, (hescaped hroom).2 rfl⟩

/-- A text that is long enough has no room. -/
theorem euros_refused {n : Nat} (hn : 279612 ≤ n) :
    (compile (Text.escaped (List.replicate n '€'))).expression = none := by
  apply refused_of_weight_lt (Glob.ofText_escaped _)
  have hbytes : 40 * '€'.utf8Size = 120 := by decide
  rw [Glob.weight_literal_replicate, Regex.sizeLimit, hbytes]
  omega

/-- Refused for its size, an escaped text is compared with its backslashes. -/
theorem escaped_misses_itself :
    (compile (Text.escaped (List.replicate 400000 '€'))).accepts (List.replicate 400000 '€')
      = false := by
  apply accepts_eq_false_of_ne (euros_refused (by decide))
  intro hsame
  have hlength := congrArg List.length hsame
  rw [Text.length_escaped, List.length_replicate] at hlength
  omega

end Pattern

end EditorConfig
