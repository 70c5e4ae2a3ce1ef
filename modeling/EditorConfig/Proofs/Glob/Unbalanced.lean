import EditorConfig.Proofs.Glob.Literal
import EditorConfig.Proofs.Glob.Members

/-!
# Braces that do not pair up

A glob with more opening than closing braces, or with fewer, has no groups: its braces are
characters, as they are behind a backslash.

* `Sign.quoteBrace`    a plain brace becomes a quoted one;
* `Text.quoteBraces`   a text with a backslash in front of each plain brace;
* `Glob.minuses`       a class from which unions are taken away a given number of times.

Main statements: quoting the braces of such a glob leaves its expression as it is, and leaves what
its pattern accepts as it is, exactly when the expression is not refused
(`Pattern.accepts_quoteBraces_iff`); a class is refused from 249 minuses on
(`Glob.fits_minuses`).
-/

namespace EditorConfig

/-! ## Quoted braces -/

namespace Sign

def IsBrace (s : Sign) : Prop := s = .plain '{' ∨ s = .plain '}'

instance : DecidablePred IsBrace := fun _ => inferInstanceAs (Decidable (_ ∨ _))

/-- A plain brace becomes a quoted one; any other sign stays as it is. -/
def quoteBrace (s : Sign) : Sign := if s.IsBrace then .quoted s.char else s

variable {s : Sign} {c : Char}

theorem quoteBrace_of_isBrace (h : s.IsBrace) : s.quoteBrace = .quoted s.char := if_pos h

theorem quoteBrace_of_not_isBrace (h : ¬s.IsBrace) : s.quoteBrace = s := if_neg h

theorem isBrace_plain : (plain c).IsBrace ↔ c = '{' ∨ c = '}' := by
  simp [IsBrace]

theorem not_isBrace_quoted : ¬(quoted c).IsBrace := by
  simp [IsBrace]

@[simp] theorem char_quoteBrace (s : Sign) : s.quoteBrace.char = s.char := by
  unfold quoteBrace
  split
  · rfl
  · rfl

/-- The plain signs that are not braces are the same before and after. -/
theorem quoteBrace_eq_plain_iff (hc : ¬(plain c).IsBrace) :
    s.quoteBrace = plain c ↔ s = plain c := by
  by_cases hs : s.IsBrace
  · rw [quoteBrace_of_isBrace hs]
    constructor
    · intro h
      cases h
    · rintro rfl
      exact absurd hs hc
  · rw [quoteBrace_of_not_isBrace hs]

theorem head?_map_quoteBrace (hc : ¬(plain c).IsBrace) (ss : List Sign) :
    (ss.map quoteBrace).head? = some (plain c) ↔ ss.head? = some (plain c) := by
  cases ss with
  | nil => rfl
  | cons s ss => simpa using quoteBrace_eq_plain_iff hc

theorem prefix_of_prefix_map_quoteBrace {cs : Text} (hcs : ∀ c ∈ cs, ¬(plain c).IsBrace)
    {ss : List Sign} (h : cs.map plain <+: ss.map quoteBrace) : cs.map plain <+: ss := by
  induction cs generalizing ss with
  | nil => exact List.nil_prefix
  | cons c cs ih =>
    obtain ⟨hc, hcs⟩ := List.forall_mem_cons.1 hcs
    cases ss with
    | nil => simp at h
    | cons s ss =>
      obtain ⟨hs, hss⟩ := List.cons_prefix_cons.1 h
      rw [(quoteBrace_eq_plain_iff hc).1 hs.symm]
      exact (List.prefix_cons_inj _).2 (ih hcs hss)

end Sign

namespace Text

/-- The text with a backslash in front of each plain brace. -/
def quoteBraces : Text → Text
  | [] => []
  | c :: t =>
    if c = '\\' then
      match t with
      | [] => ['\\']
      | d :: u => '\\' :: d :: quoteBraces u
    else if c = '{' ∨ c = '}' then '\\' :: c :: quoteBraces t
    else c :: quoteBraces t

theorem signs_quoteBraces (t : Text) : signs (quoteBraces t) = (signs t).map Sign.quoteBrace := by
  fun_induction quoteBraces t with
  | case1 => rfl
  | case2 => rfl
  | case3 d u ih =>
    rw [signs_quoted, signs_quoted, ih, List.map_cons,
      Sign.quoteBrace_of_not_isBrace Sign.not_isBrace_quoted]
  | case4 c t hc hbrace ih =>
    rw [signs_quoted, signs_plain hc, ih, List.map_cons,
      Sign.quoteBrace_of_isBrace (Sign.isBrace_plain.2 hbrace)]
    rfl
  | case5 c t hc hbrace ih =>
    rw [signs_plain hc, signs_plain hc, ih, List.map_cons,
      Sign.quoteBrace_of_not_isBrace (mt Sign.isBrace_plain.1 hbrace)]

/-- A text that has plain braces gets backslashes. -/
theorem not_isBrace_of_quoteBraces_eq {t : Text} (h : quoteBraces t = t) :
    ∀ s ∈ signs t, ¬s.IsBrace := by
  intro s hs hbrace
  rw [← h, signs_quoteBraces] at hs
  obtain ⟨u, -, rfl⟩ := List.mem_map.1 hs
  by_cases hu : u.IsBrace
  · rw [Sign.quoteBrace_of_isBrace hu] at hbrace
    exact Sign.not_isBrace_quoted hbrace
  · rw [Sign.quoteBrace_of_not_isBrace hu] at hbrace
    exact hu hbrace

theorem map_onto {α β γ : Type} (f : β → γ) (a : α) (r : Option (List α × β)) :
    (onto a r).map (Prod.map id f) = onto a (r.map (Prod.map id f)) := by
  cases r with
  | none => rfl
  | some r => rfl

end Text

/-! ## Reading with quoted braces -/

namespace Bracket

/-- A brace in the body of a class is a member, quoted or not. -/
theorem marksFrom?_map_quoteBrace (first : Bool) (last : Option Char) (ss : List Sign) :
    marksFrom? first last (ss.map Sign.quoteBrace)
      = (marksFrom? first last ss).map (Prod.map id (List.map Sign.quoteBrace)) := by
  induction ss generalizing first last with
  | nil => rfl
  | cons s ss ih =>
    rw [List.map_cons]
    by_cases hs : s.IsBrace
    · have hmember : marksFrom? first last (s :: ss)
          = Text.onto (.member s.char) (marksFrom? false (some s.char) ss) := by
        apply marksFrom?_member
        · rintro rfl
          exact absurd hs (by decide)
        · rintro rfl
          exact absurd hs (by decide)
        · rintro rfl
          exact absurd hs (by decide)
      rw [Sign.quoteBrace_of_isBrace hs, hmember, Text.map_onto, ← ih]
      rfl
    · rw [Sign.quoteBrace_of_not_isBrace hs]
      cases s with
      | quoted c =>
        rw [marksFrom?, marksFrom?, Text.map_onto, ih]
      | plain c =>
        have hend := Sign.head?_map_quoteBrace (c := ']') (by decide) ss
        rw [marksFrom?.eq_def, marksFrom?.eq_def first last (.plain c :: ss)]
        simp only [ne_eq, hend]
        split
        · rfl
        · split
          · rfl
          · split
            · cases ss with
              | nil => rfl
              | cons t ts =>
                simp only [List.map_cons, Sign.char_quoteBrace]
                split
                · rfl
                · rw [Text.map_onto, ← ih, List.map_cons]
            · rw [Text.map_onto, ih]

theorem read?_map_quoteBrace (ss : List Sign) :
    read? (ss.map Sign.quoteBrace)
      = (read? ss).map (Prod.map id (List.map Sign.quoteBrace)) := by
  have hbang := Sign.head?_map_quoteBrace (c := '!') (by decide) ss
  have hcaret := Sign.head?_map_quoteBrace (c := '^') (by decide) ss
  simp only [read?, hbang, hcaret, ← List.map_tail, ← apply_ite (List.map Sign.quoteBrace),
    marksFrom?_map_quoteBrace, Option.map_map]
  rfl

end Bracket

namespace Glob

/-- Where braces open no groups, a token is the same with its braces quoted. -/
theorem lead_map_quoteBrace (braces : Bool) (s : Sign) (ss : List Sign) :
    lead braces s.quoteBrace (ss.map .quoteBrace)
      = ((lead false s ss).1, (lead false s ss).2.map .quoteBrace) := by
  refine lead_cases (P := fun s ss l rest => lead braces s.quoteBrace (ss.map .quoteBrace)
    = (l, rest.map .quoteBrace))
    ?quoted ?anyRun ?run ?dirs ?one ?bracket ?group ?plain s ss
  case quoted =>
    intro c ss
    rw [Sign.quoteBrace_of_not_isBrace Sign.not_isBrace_quoted]
    rfl
  case anyRun => exact fun rest => rfl
  case run =>
    intro ss hss
    exact lead_run (mt (Sign.head?_map_quoteBrace (by decide) ss).1 hss)
  case dirs => exact fun rest => rfl
  case one => exact fun ss => rfl
  case bracket =>
    intro ss b rest hb
    have hread : Bracket.read? (ss.map .quoteBrace) = some (b, rest.map .quoteBrace) := by
      rw [Bracket.read?_map_quoteBrace, hb]
      rfl
    show lead braces (.plain '[') _ = _
    simp [lead, hread]
  case group =>
    intro ss body rest h
    cases h
  case plain =>
    rintro c ss ⟨hstar, hone, hslash, hbracket, -⟩
    by_cases hc : (Sign.plain c).IsBrace
    · rw [Sign.quoteBrace_of_isBrace hc]
      rfl
    · rw [Sign.quoteBrace_of_not_isBrace hc]
      apply lead_of_standsForItself
      refine ⟨hstar, hone, fun h hp => hslash h ?_, fun h => ?_, fun h => ?_⟩
      · have hstars : ∀ c ∈ ['*', '*', '/'], ¬(Sign.plain c).IsBrace := by
          simp [Sign.isBrace_plain]
        exact Sign.prefix_of_prefix_map_quoteBrace hstars hp
      · rw [Bracket.read?_map_quoteBrace, hbracket h]
        rfl
      · exact absurd (Sign.isBrace_plain.2 (.inl h)) hc

theorem ofSignsWith_map_quoteBrace (braces : Bool) (ss : List Sign) :
    ofSignsWith braces (ss.map .quoteBrace) = ofSignsWith false ss := by
  suffices hall : ∀ b, b = false → ofSignsWith braces (ss.map .quoteBrace) = ofSignsWith b ss from
    hall false rfl
  intro b
  refine ofSignsWith_induction (P := fun b ss g => b = false →
    ofSignsWith braces (ss.map .quoteBrace) = g)
    ?nil ?token ?range ?alternatives ?literal b ss
  case nil => exact fun _ _ => ofSignsWith_nil braces
  case token =>
    rintro _ s ss rest g h hl hrest rfl
    have hlead := lead_map_quoteBrace braces s ss
    rw [hl] at hlead
    rw [List.map_cons, ofSignsWith_token hlead, hrest rfl]
  case range =>
    intro ss body rest low high h _ _ _ hb
    cases hb
  case alternatives =>
    intro ss body rest h _ _ _ _ _ hb
    cases hb
  case literal =>
    intro ss body rest h _ _ _ _ _ hb
    cases hb

/-- Braces that do not pair up read like quoted ones. -/
theorem ofText_quoteBraces {g : Text} (h : Brace.balanced g.signs = false) :
    ofText g.quoteBraces = ofText g := by
  rw [ofText, ofText, Text.signs_quoteBraces, ofSigns, ofSigns, ofSignsWith_map_quoteBrace, h]

/-! ## Classes with many minuses -/

/-- Two dashes and a plus, so many times, and the end of the class. -/
def minusTail : Nat → Text
  | 0 => [']']
  | n + 1 => '-' :: '-' :: '+' :: minusTail n

/-- A class that takes the plus away from itself so many times, behind a brace that stays open. -/
def minuses (n : Nat) : Text := '{' :: '[' :: '+' :: minusTail n

def minusMarks : Nat → List Mark
  | 0 => []
  | n + 1 => .dash :: .dash :: .member '+' :: minusMarks n

theorem mem_minusTail {n : Nat} {c : Char} (h : c ∈ minusTail n) : c ∈ ['+', '-', ']'] := by
  induction n with
  | zero =>
    obtain rfl := List.mem_singleton.1 h
    decide
  | succ n ih =>
    rw [minusTail, List.mem_cons, List.mem_cons, List.mem_cons] at h
    rcases h with rfl | rfl | rfl | htail
    · decide
    · decide
    · decide
    · exact ih htail

theorem mem_minuses {n : Nat} {c : Char} (h : c ∈ minuses n) : c ∈ ['{', '[', '+', '-', ']'] := by
  rw [minuses, List.mem_cons, List.mem_cons, List.mem_cons] at h
  rcases h with rfl | rfl | rfl | htail
  · decide
  · decide
  · decide
  · exact List.mem_cons_of_mem _ (List.mem_cons_of_mem _ (mem_minusTail htail))

theorem signs_minuses (n : Nat) : (minuses n).signs = (minuses n).map .plain :=
  Text.signs_of_not_mem fun h => absurd (mem_minuses h) (by decide)

theorem count_minuses (n : Nat) :
    (minuses n).signs.count (.plain '{') ≠ (minuses n).signs.count (.plain '}') := by
  have hclosing : .plain '}' ∉ (minuses n).signs := by
    intro h
    exact absurd (mem_minuses (Text.char_mem_of_mem_signs h)) (by decide)
  rw [List.count_eq_zero_of_not_mem hclosing, signs_minuses, minuses, List.map_cons,
    List.count_cons_self]
  exact Nat.succ_ne_zero _

theorem marksFrom?_minusTail (n : Nat) :
    Bracket.marksFrom? false (some '+') ((minusTail n).map .plain)
      = some (minusMarks n, []) := by
  induction n with
  | zero => rfl
  | succ n ih =>
    have hdash : Bracket.marksFrom? false (some '+') ((minusTail (n + 1)).map .plain)
        = Text.onto .dash (Text.onto .dash (Text.onto (.member '+')
          (Bracket.marksFrom? false (some '+') ((minusTail n).map .plain)))) := rfl
    rw [hdash, ih]
    rfl

theorem ofText_minuses (n : Nat) :
    ofText (minuses n)
      = seq (char '{') (seq (bracket ⟨false, .member '+' :: minusMarks n⟩) empty) := by
  have hbraces : Brace.balanced (minuses n).signs = false := by
    simpa [Brace.balanced] using count_minuses n
  have hread : Bracket.read? (.plain '+' :: (minusTail n).map .plain)
      = some (⟨false, .member '+' :: minusMarks n⟩, []) := by
    have hmarks : Bracket.marksFrom? true none (.plain '+' :: (minusTail n).map .plain)
        = Text.onto (.member '+')
          (Bracket.marksFrom? false (some '+') ((minusTail n).map .plain)) := rfl
    simp [Bracket.read?, hmarks, marksFrom?_minusTail]
  have hclass : lead false (.plain '[') (.plain '+' :: (minusTail n).map .plain)
      = (.token (.bracket ⟨false, .member '+' :: minusMarks n⟩), []) := by
    simp [lead, hread]
  rw [ofText, ofSigns, hbraces, signs_minuses, minuses, List.map_cons,
    ofSignsWith_token (g := char '{') rfl, List.map_cons, List.map_cons, ofSignsWith_token hclass,
    ofSignsWith_nil]

theorem unions?_minusMarks (n : Nat) :
    Mark.unions? (.member '+' :: minusMarks n)
      = some ([⟨'+', '+'⟩], List.replicate n [⟨'+', '+'⟩]) := by
  induction n with
  | zero => rfl
  | succ n ih =>
    have hminus : Mark.unions? (.member '+' :: minusMarks (n + 1))
        = ((Mark.unions? (.member '+' :: minusMarks n)).map fun us => ([], us.1 :: us.2)).map
            fun us => (⟨'+', '+'⟩ :: us.1, us.2) := rfl
    rw [hminus, ih]
    rfl

/-- Each union that is taken away makes one level more. -/
theorem height_minuses (n : Nat) :
    Regex.CharClass.height ⟨false, [⟨'+', '+'⟩], List.replicate n [⟨'+', '+'⟩]⟩ = n + 1 := by
  have hfold (h : Nat) : (List.replicate n [(⟨'+', '+'⟩ : Regex.Interval)]).foldl
      (fun h is => 1 + max h (if 2 ≤ is.length then 1 else 0)) h = n + h := by
    induction n generalizing h with
    | zero => simp
    | succ n ih =>
      have hstep : 1 + max h (if 2 ≤ [(⟨'+', '+'⟩ : Regex.Interval)].length then 1 else 0)
          = 1 + h := by simp
      rw [List.replicate_succ, List.foldl_cons, hstep, ih]
      omega
  show 1 + (List.replicate n [(⟨'+', '+'⟩ : Regex.Interval)]).foldl
    (fun h is => 1 + max h (if 2 ≤ is.length then 1 else 0)) 0 = n + 1
  rw [hfold, Nat.add_zero, Nat.add_comm]

theorem fits_minuses {n : Nat} : (ofText (minuses n)).Fits ↔ n < 249 := by
  have hclass : (bracket ⟨false, .member '+' :: minusMarks n⟩).items
      = [.one (.oneOf ⟨false, [⟨'+', '+'⟩], List.replicate n [⟨'+', '+'⟩]⟩)] := by
    simp [items, branches, Bracket.charClass?, unions?_minusMarks]
  rw [ofText_minuses, fits_seq, fits_seq, and_iff_right (fits_char _), and_iff_left fits_empty,
    Fits, hclass, List.forall_mem_singleton]
  show Regex.CharClass.height _ < 250 ↔ n < 249
  rw [height_minuses, Nat.succ_lt_succ_iff]

end Glob

/-! ## Patterns -/

namespace Pattern

variable {g : Text}

theorem expression_quoteBraces [Regex.Engine] (h : Brace.balanced g.signs = false) :
    (compile g.quoteBraces).expression = (compile g).expression := by
  show Regex.compile? (expressionText g.quoteBraces) = Regex.compile? (expressionText g)
  rw [expressionText, Glob.ofText_quoteBraces h, ← expressionText]

theorem balanced_of_quoteBraces_eq (h : g.quoteBraces = g) : Brace.balanced g.signs = true := by
  have hbraces := Text.not_isBrace_of_quoteBraces_eq h
  have hopening : .plain '{' ∉ g.signs := fun hm => hbraces _ hm (.inl rfl)
  have hclosing : .plain '}' ∉ g.signs := fun hm => hbraces _ hm (.inr rfl)
  rw [Brace.balanced, List.count_eq_zero_of_not_mem hopening,
    List.count_eq_zero_of_not_mem hclosing]
  rfl

/-- Compared letter by letter, the two globs are different texts. -/
theorem accepts_self_of_refused [Regex.Engine] (h : Brace.balanced g.signs = false)
    (hrefused : (compile g).expression = none) :
    (compile g).accepts g = true ∧ (compile g.quoteBraces).accepts g = false := by
  refine ⟨(accepts_iff_eq hrefused g).2 rfl, ?_⟩
  apply accepts_eq_false_of_ne ((expression_quoteBraces h).trans hrefused)
  intro hsame
  rw [balanced_of_quoteBraces_eq hsame.symm] at h
  cases h

/-- **Braces that do not pair up.**  When a glob has more braces of one kind than of the other, its
expression is that of the glob with all its braces quoted.  Both patterns then accept the same
paths, unless the expression is refused: each of them is compared with its own text then. -/
theorem accepts_quoteBraces_iff [Regex.Engine]
    (h : g.signs.count (.plain '{') ≠ g.signs.count (.plain '}')) :
    (Glob.ofText g).regexText = (Glob.ofText g.quoteBraces).regexText ∧
      ((∀ path, (compile g).accepts path = (compile g.quoteBraces).accepts path) ↔
        (compile g).expression.isSome = true) := by
  have hbraces : Brace.balanced g.signs = false := by simpa [Brace.balanced] using h
  refine ⟨by rw [Glob.ofText_quoteBraces hbraces], fun hsame => ?_, fun hsome path => ?_⟩
  · rw [← Option.ne_none_iff_isSome]
    intro hrefused
    obtain ⟨hself, hquoted⟩ := accepts_self_of_refused hbraces hrefused
    rw [hsame, hquoted] at hself
    cases hself
  · obtain ⟨r, hr⟩ := Option.isSome_iff_exists.1 hsome
    rw [accepts, accepts, expression_quoteBraces hbraces, hr]

/-- A range of a class that ends with a brace is the same range when the brace is quoted. -/
theorem accepts_quoteBraces_iff_range :
    let g : Text := ['}', '[', '{', '-', '}', ']']
    g.signs.count (.plain '{') ≠ g.signs.count (.plain '}') ∧
      g.quoteBraces = ['\\', '}', '[', '\\', '{', '-', '\\', '}', ']'] ∧
      ∀ path, (compile g).accepts path = (compile g.quoteBraces).accepts path := by
  intro g
  have hcount : g.signs.count (.plain '{') ≠ g.signs.count (.plain '}') := by decide
  have hglob : Glob.ofText g = .seq (.char '}')
      (.seq (.bracket ⟨false, [.member '{', .dash, .member '}']⟩) .empty) := by
    show Glob.ofSigns [.plain '}', .plain '[', .plain '{', .plain '-', .plain '}', .plain ']'] = _
    rw [Glob.ofSigns, Glob.ofSignsWith_token (g := .char '}') rfl,
      Glob.ofSignsWith_token (g := .bracket ⟨false, [.member '{', .dash, .member '}']⟩) rfl,
      Glob.ofSignsWith_nil]
  have hsome : (compile g).expression.isSome = true :=
    isSome_compile_of_weight_le hglob (by decide) (by decide)
  exact ⟨hcount, rfl, (accepts_quoteBraces_iff hcount).2.2 hsome⟩

/-- With too many minuses behind it, a brace that is not closed is not the same as a quoted one. -/
theorem minuses_unlike_quoted :
    let g := Glob.minuses 250
    g.signs.count (.plain '{') ≠ g.signs.count (.plain '}') ∧
      (compile g).accepts g = true ∧ (compile g.quoteBraces).accepts g = false := by
  intro g
  have hcount := Glob.count_minuses 250
  have hrefused : (compile g).expression = none := by
    rw [← Option.not_isSome_iff_eq_none, isSome_compile, Glob.fits_minuses]
    omega
  exact ⟨hcount, accepts_self_of_refused (by simpa [Brace.balanced] using hcount) hrefused⟩

end Pattern

end EditorConfig
