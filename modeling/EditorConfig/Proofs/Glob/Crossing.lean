import EditorConfig.Proofs.Glob.Members
import EditorConfig.Proofs.Selector.Basename

/-!
# Globs that cross directories

Without a slash and without two stars in a row, only a bracket class can take a slash: one that is
turned round, or one with a range that runs across the slash.

Main statement: a glob that matches a path with a slash has such a class, and each class that takes
a slash takes part in such a match (`Pattern.crosses_by_classes`).
-/

namespace EditorConfig

namespace Bracket

/-! ## Characters of a class -/

theorem mem_chars_of_marksFrom? {first : Bool} {last : Option Char} {ss rest : List Sign}
    {ms : List Mark} (h : marksFrom? first last ss = some (ms, rest)) {c : Char}
    (hc : .member c ∈ ms) : c ∈ ss.map Sign.char := by
  induction ss generalizing first last ms with
  | nil => simp [marksFrom?] at h
  | cons s ss ih =>
    rcases marksFrom?_cons h with ⟨-, -, rfl, -⟩ | ⟨-, -, -, ns, hns, rfl⟩ | ⟨-, -, -, ns, hns, rfl⟩
    · cases hc
    · have hc : .member c ∈ ns := by simpa using hc
      exact List.mem_cons_of_mem _ (ih hns hc)
    · rcases List.mem_cons.1 hc with he | hc
      · cases he
        exact List.mem_cons_self
      · exact List.mem_cons_of_mem _ (ih hns hc)

/-- The members of a class stand in the text that it is read from. -/
theorem mem_chars_of_read? {ss rest : List Sign} {b : Bracket} (h : read? ss = some (b, rest))
    {c : Char} (hc : .member c ∈ b.marks) : c ∈ ss.map Sign.char := by
  obtain ⟨⟨ms, us⟩, hms, he⟩ := Option.map_eq_some_iff.1 h
  cases he
  have hm := mem_chars_of_marksFrom? hms hc
  split at hm
  · exact ((List.tail_suffix ss).map Sign.char).mem hm
  · exact hm

/-- A class takes a character that is not written in it by being turned round, or by a range. -/
theorem negated_or_spans_of_has {b : Bracket} {c : Char} (h : Glob.Has b c) (hdash : c ≠ '-')
    (hc : .member c ∉ b.marks) : b.negated = true ∨ Mark.Spans b.marks c := by
  obtain ⟨k, hk, hkc⟩ := h
  obtain ⟨⟨base, removed⟩, hunions, rfl⟩ := Option.map_eq_some_iff.1 hk
  cases hnegated : b.negated with
  | true => exact .inl rfl
  | false =>
    have hbase : base.any (·.has c) = true := by
      rw [Regex.CharClass.has, hnegated, Bool.false_bne, Bool.and_eq_true] at hkc
      exact hkc.1
    exact .inr (Mark.spans_of_any_has hunions hdash hc hbase)

end Bracket

namespace Glob

variable {g : Glob} {inGroup : Bool}

/-! ## Classes of a glob -/

theorem exists_mem_classes_of_choice {gs : List Glob} {b : Bracket} (h : b ∈ (choice gs).classes) :
    ∃ g ∈ gs, b ∈ g.classes := by
  induction gs with
  | nil => cases h
  | cons g gs ih =>
    cases gs with
    | nil => exact ⟨g, List.mem_cons_self, h⟩
    | cons k gs =>
      rcases List.mem_append.1 h with h | h
      · exact ⟨g, List.mem_cons_self, h⟩
      · obtain ⟨l, hl, hb⟩ := ih h
        exact ⟨l, List.mem_cons_of_mem _ hl, hb⟩

theorem read?_of_lead {braces : Bool} {s : Sign} {ss rest : List Sign}
    (h : lead braces s ss = (.token g, rest)) {b : Bracket} (hb : b ∈ g.classes) :
    Bracket.read? ss = some (b, rest) := by
  have hcases : ∀ g, (lead braces s ss).1 = .token g → b ∈ g.classes →
      Bracket.read? ss = some (b, (lead braces s ss).2) := by
    refine lead_cases (P := fun _ ss l rest => ∀ g, l = .token g → b ∈ g.classes →
      Bracket.read? ss = some (b, rest)) ?quoted ?anyRun ?run ?dirs ?one ?bracket ?group ?plain s ss
    case bracket =>
      intro ss k rest hread g hg hb
      cases hg
      obtain rfl := List.mem_singleton.1 hb
      exact hread
    case group =>
      intro ss body rest _ _ g hg
      cases hg
    all_goals
      intros
      next hg hb =>
        cases hg
        cases hb
  rw [h] at hcases
  exact hcases g rfl hb

/-- The members of the classes of a glob stand in the glob. -/
theorem mem_chars_of_mem_classes (braces : Bool) (ss : List Sign) {b : Bracket} {c : Char} :
    b ∈ (ofSignsWith braces ss).classes → .member c ∈ b.marks → c ∈ ss.map Sign.char := by
  refine ofSignsWith_induction (P := fun _ ss g => b ∈ g.classes → .member c ∈ b.marks →
    c ∈ ss.map Sign.char) ?nil ?token ?range ?alternatives ?literal braces ss
  case nil =>
    intro _ hb
    cases hb
  case token =>
    intro braces s ss rest g k hl hk hb hc
    rcases List.mem_append.1 hb with hb | hb
    · exact List.mem_cons_of_mem _ (Bracket.mem_chars_of_read? (read?_of_lead hl hb) hc)
    · have hrest : rest <:+ ss := by
        have hsuffix := lead_suffix braces s ss
        rwa [hl] at hsuffix
      exact List.mem_cons_of_mem _ ((hrest.map Sign.char).mem (hk hb hc))
  case range =>
    intro ss body rest low high k hbody _ hk hb hc
    obtain ⟨-, hrest⟩ := Brace.infix_of_closing? hbody (.plain '{')
    exact (hrest.map Sign.char).mem (hk hb hc)
  case alternatives =>
    intro ss body rest k hbody _ _ ha hk hb hc
    obtain ⟨hin, hrest⟩ := Brace.infix_of_closing? hbody (.plain '{')
    rcases List.mem_append.1 hb with hb | hb
    · obtain ⟨g, hg, hb⟩ := exists_mem_classes_of_choice hb
      obtain ⟨a, hm, rfl⟩ := List.mem_map.1 hg
      have halternative := (Brace.infix_of_mem_alternatives hm).trans hin
      exact (halternative.map Sign.char).mem (ha a hm hb hc)
    · exact (hrest.map Sign.char).mem (hk hb hc)
  case literal =>
    intro ss body rest k hbody _ _ hg hk hb hc
    obtain ⟨hin, hrest⟩ := Brace.infix_of_closing? hbody (.plain '{')
    rcases List.mem_append.1 hb with hb | hb
    · have hb : b ∈ (ofSigns body).classes := by simpa [classes] using hb
      exact (hin.map Sign.char).mem (hg hb hc)
    · exact (hrest.map Sign.char).mem (hk hb hc)

theorem mem_of_mem_classes {t : Text} {b : Bracket} (hb : b ∈ (ofText t).classes) {c : Char}
    (hc : .member c ∈ b.marks) : c ∈ t := by
  obtain ⟨s, hs, rfl⟩ := List.mem_map.1 (mem_chars_of_mem_classes _ _ hb hc)
  exact Text.char_mem_of_mem_signs hs

/-! ## Texts that a glob takes -/

/-- A glob takes some text when each of its classes has a character. -/
theorem exists_takes (h : g.Proper inGroup) (hfull : ∀ b ∈ g.classes, ∃ c, Has b c) :
    ∃ t, g.Takes t := by
  induction g generalizing inGroup with
  | empty => exact ⟨[], rfl⟩
  | char c => exact ⟨[c], rfl⟩
  | one => exact ⟨['a'], 'a', by decide, rfl⟩
  | run => exact ⟨[], List.not_mem_nil⟩
  | anyRun => exact ⟨[], List.not_mem_nil⟩
  | dirs => exact ⟨['/'], .inl rfl⟩
  | bracket b =>
    obtain ⟨c, hc⟩ := hfull b List.mem_cons_self
    exact ⟨[c], c, hc, rfl⟩
  | range low high => exact ⟨Decimal.int low, low, Int.le_refl low, h, rfl⟩
  | group g ih => exact ih h hfull
  | seq g k ihg ihk =>
    obtain ⟨u, hu⟩ := ihg h.1 fun b hb => hfull b (List.mem_append_left _ hb)
    obtain ⟨v, hv⟩ := ihk h.2 fun b hb => hfull b (List.mem_append_right _ hb)
    exact ⟨u ++ v, u, v, rfl, hu, hv⟩
  | alt g k ihg _ =>
    obtain ⟨u, hu⟩ := ihg h.2.1 fun b hb => hfull b (List.mem_append_left _ hb)
    exact ⟨u, .inl hu⟩

/-- Each character of a class then occurs in a text that the glob takes. -/
theorem exists_takes_mem (h : g.Proper inGroup) (hfull : ∀ b ∈ g.classes, ∃ c, Has b c)
    {b : Bracket} (hb : b ∈ g.classes) {c : Char} (hc : Has b c) : ∃ t, g.Takes t ∧ c ∈ t := by
  induction g generalizing inGroup with
  | bracket k =>
    obtain rfl := List.mem_singleton.1 hb
    exact ⟨[c], ⟨c, hc, rfl⟩, List.mem_singleton.2 rfl⟩
  | group g ih => exact ih h hfull hb
  | seq g k ihg ihk =>
    have hleft : ∀ b ∈ g.classes, ∃ c, Has b c := fun b hb => hfull b (List.mem_append_left _ hb)
    have hright : ∀ b ∈ k.classes, ∃ c, Has b c := fun b hb => hfull b (List.mem_append_right _ hb)
    rcases List.mem_append.1 hb with hb | hb
    · obtain ⟨u, hu, hcu⟩ := ihg h.1 hleft hb
      obtain ⟨v, hv⟩ := exists_takes h.2 hright
      exact ⟨u ++ v, ⟨u, v, rfl, hu, hv⟩, List.mem_append_left v hcu⟩
    · obtain ⟨u, hu⟩ := exists_takes h.1 hleft
      obtain ⟨v, hv, hcv⟩ := ihk h.2 hright hb
      exact ⟨u ++ v, ⟨u, v, rfl, hu, hv⟩, List.mem_append_right u hcv⟩
  | alt g k ihg ihk =>
    rcases List.mem_append.1 hb with hb | hb
    · obtain ⟨u, hu, hcu⟩ := ihg h.2.1 (fun b hb => hfull b (List.mem_append_left _ hb)) hb
      exact ⟨u, .inl hu, hcu⟩
    · obtain ⟨u, hu, hcu⟩ := ihk h.2.2 (fun b hb => hfull b (List.mem_append_right _ hb)) hb
      exact ⟨u, .inr hu, hcu⟩
  | _ => cases hb

theorem ofText_negated : ofText ['x', '[', '!', 'a', ']', 'y']
    = seq (char 'x') (seq (bracket ⟨true, [.member 'a']⟩) (seq (char 'y') empty)) := by
  show ofSigns [.plain 'x', .plain '[', .plain '!', .plain 'a', .plain ']', .plain 'y'] = _
  rw [ofSigns, ofSignsWith_token (g := char 'x') rfl,
    ofSignsWith_token (g := bracket ⟨true, [.member 'a']⟩) rfl,
    ofSignsWith_token (g := char 'y') rfl, ofSignsWith_nil]

end Glob

namespace Pattern

variable {glob : Text}

theorem not_mem_of_accepts [Regex.Engine] (hslash : '/' ∉ glob) (hstars : ¬['*', '*'] <:+: glob)
    (hclasses : ∀ b ∈ (Glob.ofText glob).classes, ¬Glob.Has b '/') {path : Text}
    (h : (compile glob).accepts path = true) : '/' ∉ path := by
  cases hexpr : (compile glob).expression with
  | none =>
    rw [(accepts_iff_eq hexpr path).1 h]
    exact hslash
  | some r =>
    have hsome := Option.isSome_of_eq_some hexpr
    have hfree : (Glob.ofText glob).SlashFree :=
      Glob.slashFree_ofSignsWith _ _ (Selector.stayInside_signs hslash hstars) hclasses
    exact Glob.not_mem_of_takes hfree ((accepts_iff_takes hsome path).1 h)

/-- **Only classes cross directories.**  Let a glob have no slash and no two stars in a row.  It
matches a path with a slash only when a class of it takes the slash, one that is turned round or has
a range that runs across.  Each class that takes a slash does so in a path that the glob matches,
unless some class has no character at all. -/
theorem crosses_by_classes [Regex.Engine] (hslash : '/' ∉ glob) (hstars : ¬['*', '*'] <:+: glob) :
    (∀ path, (compile glob).accepts path = true → '/' ∈ path →
      ∃ b ∈ (Glob.ofText glob).classes,
        Glob.Has b '/' ∧ (b.negated = true ∨ Mark.Spans b.marks '/')) ∧
    ((compile glob).expression.isSome = true →
      (∀ b ∈ (Glob.ofText glob).classes, ∃ c, Glob.Has b c) →
      ∀ b ∈ (Glob.ofText glob).classes, Glob.Has b '/' →
        ∃ path, (compile glob).accepts path = true ∧ '/' ∈ path) := by
  constructor
  · intro path h hpath
    apply Classical.byContradiction
    intro hnone
    refine not_mem_of_accepts hslash hstars (fun b hb hc => hnone ⟨b, hb, hc, ?_⟩) h hpath
    have hmember : .member '/' ∉ b.marks := fun hm => hslash (Glob.mem_of_mem_classes hb hm)
    exact Bracket.negated_or_spans_of_has hc (by decide) hmember
  · intro hsome hfull b hb hc
    obtain ⟨path, ht, hm⟩ := Glob.exists_takes_mem (Glob.proper_ofText glob) hfull hb hc
    exact ⟨path, (accepts_iff_takes hsome path).2 ht, hm⟩

/-- `[!a]` stands for any character but one, so `x[!a]y` goes from one directory to another. -/
theorem crosses_by_classes_negated :
    let glob : Text := ['x', '[', '!', 'a', ']', 'y']
    '/' ∉ glob ∧ ¬['*', '*'] <:+: glob ∧ (compile glob).expression.isSome = true ∧
      ∃ path, (compile glob).accepts path = true ∧ '/' ∈ path := by
  intro glob
  have hslash : '/' ∉ glob := by decide
  have hstars : ¬['*', '*'] <:+: glob := by decide
  have hglob := Glob.ofText_negated
  have hsome : (compile glob).expression.isSome = true :=
    isSome_compile_of_weight_le hglob (by decide) (by decide)
  have hhas : Glob.Has ⟨true, [.member 'a']⟩ '/' := ⟨_, rfl, by decide⟩
  refine ⟨hslash, hstars, hsome, (crosses_by_classes hslash hstars).2 hsome ?_ ⟨true, [.member 'a']⟩
    ?_ hhas⟩
  · intro b hb
    rw [hglob] at hb
    obtain rfl := List.mem_singleton.1 hb
    exact ⟨'/', hhas⟩
  · rw [hglob]
    exact List.mem_cons_self

/-- A class that is turned round takes a slash, though the glob has none. -/
theorem class_takes_slash :
    let glob : Text := ['x', '[', '!', 'a', ']', 'y']
    '/' ∉ glob ∧ ¬['*', '*'] <:+: glob ∧ (compile glob).accepts ['x', '/', 'y'] = true := by
  intro glob
  have hsome : (compile glob).expression.isSome = true :=
    isSome_compile_of_weight_le Glob.ofText_negated (by decide) (by decide)
  refine ⟨by decide, by decide, (accepts_iff_takes hsome _).2 ?_⟩
  rw [Glob.ofText_negated]
  have hhas : Glob.Has ⟨true, [.member 'a']⟩ '/' := ⟨_, rfl, by decide⟩
  exact ⟨['x'], ['/', 'y'], rfl, rfl, ['/'], ['y'], rfl, ⟨'/', hhas, rfl⟩, ['y'], [], rfl, rfl, rfl⟩

end Pattern

end EditorConfig
