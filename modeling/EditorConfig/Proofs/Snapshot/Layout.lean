import EditorConfig.Proofs.Snapshot.Concatenation
import EditorConfig.Proofs.Text.Neat

/-!
# The layout of config files

* `Text.Idle`            a line that is blank or a comment;
* `Text.Spacing`         white space within a line;
* `Snapshot.Adds`        what an edit of the layout puts between two texts;
* `Snapshot.Edits`       several edits, with the places of the lines that they insert;
* `Snapshot.inserted`    how many of these lines stand above a line.

An edit leaves every line what it was, and puts at most one ignorable line between them.

Main statement: edits of the layout change nothing but the number of a bad line, by the lines that
are inserted above it (`parse_edits`).
-/

namespace EditorConfig

namespace Text

/-! ## Lines of a text -/

/-- A line begins behind this text. -/
def StartsLine (a : Text) : Prop := a.getLast? ∈ [none, some '\n']

/-- A line ends in front of this text. -/
def EndsLine (b : Text) : Prop := b.head? ∈ [none, some '\n']

/-- White space within a line. -/
def Spacing (w : Text) : Prop := ∀ c ∈ w, isBlank c = true ∧ c ≠ '\n'

/-- A line whose first character that is not white space, if there is one, begins a comment. -/
def Idle (l : Text) : Prop :=
  '\n' ∉ l ∧ l.find? (fun c => !isBlank c) ∈ [none, some '#', some ';']

instance (a : Text) : Decidable (StartsLine a) := inferInstanceAs (Decidable (_ ∈ _))

instance (b : Text) : Decidable (EndsLine b) := inferInstanceAs (Decidable (_ ∈ _))

instance (w : Text) : Decidable (Spacing w) := List.decidableBAll _ w

instance (l : Text) : Decidable (Idle l) := inferInstanceAs (Decidable (_ ∧ _))

variable {a b l p w : Text}

theorem Spacing.blank (h : Spacing w) : ∀ c ∈ w, isBlank c = true := fun c hc => (h c hc).1

theorem Spacing.unbroken (h : Spacing w) : '\n' ∉ w := fun hm => (h '\n' hm).2 rfl

theorem Spacing.append (hp : Spacing p) (hw : Spacing w) : Spacing (p ++ w) := by
  intro c hc
  rcases List.mem_append.1 hc with hc | hc
  · exact hp c hc
  · exact hw c hc

/-- The lines of a text are those in front of a place where a line begins, and those behind it. -/
theorem StartsLine.exists_splitOn (h : StartsLine a) :
    ∃ ps : List Text, ps.length = a.count '\n' ∧
      ∀ t, List.splitOn '\n' (a ++ t) = ps ++ List.splitOn '\n' t := by
  have ha : a.getLast? = none ∨ a.getLast? = some '\n' := by simpa [StartsLine] using h
  rcases ha with ha | ha
  · rw [List.getLast?_eq_none_iff.1 ha]
    exact ⟨[], rfl, fun t => rfl⟩
  · obtain ⟨a, rfl⟩ := List.getLast?_eq_some_iff.1 ha
    refine ⟨List.splitOn '\n' a, ?_, fun t => ?_⟩
    · rw [length_splitOn, List.count_append]
      rfl
    · rw [List.append_assoc]
      exact List.splitOn_append_cons_self a t

theorem EndsLine.exists_splitOn (h : EndsLine b) :
    ∃ qs : List Text, ∀ t, List.splitOn '\n' (t ++ b) = List.splitOn '\n' t ++ qs := by
  have hb : b.head? = none ∨ b.head? = some '\n' := by simpa [EndsLine] using h
  rcases hb with hb | hb
  · rw [List.head?_eq_none_iff.1 hb]
    exact ⟨[], fun t => by rw [List.append_nil, List.append_nil]⟩
  · obtain ⟨b, rfl⟩ := List.head?_eq_some_iff.1 hb
    exact ⟨List.splitOn '\n' b, fun t => List.splitOn_append_cons_self t b⟩

/-- A text without a newline becomes part of the last line of what it follows. -/
theorem exists_splitOn_append (a : Text) :
    ∃ ps q, ∀ s, '\n' ∉ s → List.splitOn '\n' (a ++ s) = ps ++ [q ++ s] := by
  induction a with
  | nil => exact ⟨[], [], fun s hs => List.splitOn_eq_singleton hs⟩
  | cons c a ih =>
    obtain ⟨ps, q, h⟩ := ih
    by_cases hc : c = '\n'
    · refine ⟨[] :: ps, q, fun s hs => ?_⟩
      rw [List.cons_append, hc, splitOn_cons_self, h s hs]
      rfl
    · have hletter : '\n' ∉ [c] := by simpa using Ne.symm hc
      cases ps with
      | nil => exact ⟨[], c :: q, fun s hs => splitOn_append hletter (h s hs)⟩
      | cons r ps => exact ⟨(c :: r) :: ps, q, fun s hs => splitOn_append hletter (h s hs)⟩

theorem Idle.head?_ne (h : Idle l) : l.head? ≠ some (Char.ofNat 0xfeff) := by
  intro hhead
  obtain ⟨r, rfl⟩ := List.head?_eq_some_iff.1 hhead
  have hfind : (Char.ofNat 0xfeff :: r).find? (fun c => !isBlank c)
      = some (Char.ofNat 0xfeff) := List.find?_cons_of_pos (by decide)
  have hmem := h.2
  rw [hfind] at hmem
  exact absurd hmem (by decide)

theorem Spacing.head?_ne (h : Spacing w) : w.head? ≠ some (Char.ofNat 0xfeff) := fun hhead =>
  absurd (h.blank _ (List.mem_of_head? hhead)) (by decide)

end Text

namespace Line

/-- A blank line or a comment is passed over. -/
theorem ofText_idle {l : Text} (h : Text.Idle l) : ofText l = ignorable := by
  have hstart : (Text.trimStart l).head? ∈ [none, some '#', some ';'] := by
    rw [Text.trimStart, ← List.find?_not_eq_head?_dropWhile]
    exact h.2
  rw [ofText]
  cases ht : Text.trim l with
  | nil => rfl
  | cons c t =>
    obtain ⟨u, hu⟩ := Text.exists_eq_trimEnd_append (t := Text.trimStart l)
    have hsplit : Text.trimStart l = c :: (t ++ u) := by
      rw [hu]
      show Text.trim l ++ u = _
      rw [ht]
      rfl
    rw [hsplit] at hstart
    have hc : c = '#' ∨ c = ';' := by simpa using hstart
    rw [ofTrimmed, if_pos hc]

/-- Lines with a fault are among those that were counted. -/
theorem line_of_firstFault? {n : Nat} {ls : List Line} {f : FileFault}
    (h : firstFault? n ls = some f) : n ≤ f.line ∧ f.line < n + ls.length := by
  obtain ⟨i, hline, hi, -⟩ := firstFault?_eq_some_iff.1 h
  have hlt : i < ls.length := (List.getElem?_eq_some_iff.1 hi).1
  omega

theorem sections_ignorable (ls ms : List Line) :
    sections (ls ++ ignorable :: ms) = sections (ls ++ ms) := by
  induction ls with
  | nil => rfl
  | cons l ls ih =>
    cases l with
    | ignorable => exact ih
    | header selector => simp only [List.cons_append, sections, ih]
    | pair name value => simp only [List.cons_append, sections, ih]
    | bad fault => exact ih

end Line

namespace Snapshot

/-! ## Edits -/

/-- An edit may put the second text between the first and the third.  Where it inserts a line, the
number tells how many lines stand above. -/
inductive Adds : Text → Text → Text → Option Nat → Prop
  | above {a l : Text} (b : Text) (ha : Text.StartsLine a) (hl : Text.Idle l) :
    Adds a (l ++ ['\n']) b (some (a.count '\n'))
  /-- A new last line, below one without a newline. -/
  | below {l : Text} (a : Text) (hl : Text.Idle l) : Adds a ('\n' :: l) [] (some (a.count '\n' + 1))
  /-- A new last line, behind the last newline. -/
  | last {a l : Text} (ha : Text.StartsLine a) (hl : Text.Idle l) :
    Adds a l [] (some (a.count '\n'))
  /-- White space at the start of a line, among what is there. -/
  | indent {a p w : Text} (b : Text) (ha : Text.StartsLine a) (hp : Text.Spacing p)
    (hw : Text.Spacing w) : Adds (a ++ p) w b none
  /-- White space at the end of a line, among what is there. -/
  | trail {p w b : Text} (a : Text) (hb : Text.EndsLine b) (hp : Text.Spacing p)
    (hw : Text.Spacing w) : Adds a w (p ++ b) none
  | carriageReturn (a b : Text) : Adds a ['\r'] ('\n' :: b) none

/-- Several edits, one after the other. -/
inductive Edits : Text → List (Option Nat) → Text → Prop
  | nil (t : Text) : Edits t [] t
  | cons {a w b u : Text} {e : Option Nat} {es : List (Option Nat)} (h : Adds a w b e)
    (hs : Edits (a ++ w ++ b) es u) : Edits (a ++ b) (e :: es) u

/-- The number that line `n` has after an edit. -/
def moved (e : Option Nat) (n : Nat) : Nat :=
  match e with
  | none => n
  | some i => if i < n then n + 1 else n

/-- How many lines the edits insert above line `n`. -/
def inserted : List (Option Nat) → Nat → Nat
  | [], _ => 0
  | none :: es, n => inserted es n
  | some i :: es, n => if i < n then inserted es (n + 1) + 1 else inserted es n

theorem add_inserted_cons (e : Option Nat) (es : List (Option Nat)) (n : Nat) :
    n + inserted (e :: es) n = moved e n + inserted es (moved e n) := by
  cases e with
  | none => rfl
  | some i =>
    simp only [inserted, moved]
    split
    · omega
    · rfl

/-! ## Lines with other numbers -/

/-- The lines `ms` read like `ls`, but what is bad line `n` of `ls` is line `g n` of `ms`. -/
def Renumbered (g : Nat → Nat) (ls ms : List Line) : Prop :=
  ofLines ms = (ofLines ls).mapError fun f => { f with line := g f.line }

section
variable {g g' : Nat → Nat} {ls ms ns : List Line}

theorem Renumbered.refl (ls : List Line) : Renumbered (fun n => n) ls ls := by
  show ofLines ls = (ofLines ls).mapError fun f => f
  cases ofLines ls <;> rfl

theorem Renumbered.trans (h : Renumbered g ls ms) (h' : Renumbered g' ms ns) :
    Renumbered (fun n => g' (g n)) ls ns := by
  rw [Renumbered, h', h]
  cases ofLines ls <;> rfl

theorem renumbered_of_fault (hs : Line.sections ms = Line.sections ls)
    (hf : Line.firstFault? 1 ms
      = (Line.firstFault? 1 ls).map fun f => { f with line := g f.line }) :
    Renumbered g ls ms := by
  rw [Renumbered, ofLines, ofLines, hs, hf]
  cases Line.firstFault? 1 ls <;> rfl

end

/-- A fault stays where it is when only lines below it move. -/
theorem map_moved_firstFault? (ls : List Line) :
    ((Line.firstFault? 1 ls).map fun f => { f with line := moved (some ls.length) f.line })
      = Line.firstFault? 1 ls := by
  cases hls : Line.firstFault? 1 ls with
  | none => rfl
  | some f =>
    have hline := Line.line_of_firstFault? hls
    have hstays : moved (some ls.length) f.line = f.line := if_neg (by omega)
    show some { f with line := moved (some ls.length) f.line } = some f
    rw [hstays]

/-- A line that is passed over moves those below it on. -/
theorem renumbered_ignorable (ls ms : List Line) :
    Renumbered (moved (some ls.length)) (ls ++ ms) (ls ++ .ignorable :: ms) := by
  apply renumbered_of_fault (Line.sections_ignorable ls ms)
  have hbelow : Line.firstFault? (1 + ls.length) (.ignorable :: ms)
      = (Line.firstFault? (1 + ls.length) ms).map fun f => { f with line := f.line + 1 } :=
    Line.firstFault?_add (1 + ls.length) 1 ms
  rw [Line.firstFault?_append, Line.firstFault?_append, Option.map_or, map_moved_firstFault?,
    hbelow]
  cases hms : Line.firstFault? (1 + ls.length) ms with
  | none => rfl
  | some f =>
    have hline := Line.line_of_firstFault? hms
    have hmoves : moved (some ls.length) f.line = f.line + 1 := if_pos (by omega)
    show _ = (Line.firstFault? 1 ls).or (some { f with line := moved _ f.line })
    rw [hmoves]
    rfl

/-- There is nothing below a last line that is passed over. -/
theorem renumbered_last (ls : List Line) :
    Renumbered (moved (some ls.length)) (ls ++ [.ignorable]) (ls ++ [.ignorable]) := by
  have hnone : Line.firstFault? (1 + ls.length) [.ignorable] = none := rfl
  apply renumbered_of_fault rfl
  rw [Line.firstFault?_append, hnone, Option.or_none, map_moved_firstFault?]

/-! ## One edit -/

/-- The lines of a text without a mark in front. -/
def rows (t : Text) : List Line := (t.splitOn '\n').map Line.ofText

section
variable {a b p t u w : Text} {e : Option Nat} {es : List (Option Nat)}

theorem rows_indent (ha : Text.StartsLine a) (hp : Text.Spacing p) (hw : Text.Spacing w)
    (b : Text) :
    rows (a ++ p ++ w ++ b) = rows (a ++ p ++ b) := by
  obtain ⟨ps, -, hps⟩ := ha.exists_splitOn
  obtain ⟨q, qs, hqs⟩ := List.exists_cons_of_ne_nil (List.splitOn_ne_nil '\n' b)
  have hfirst {s : Text} (hs : Text.Spacing s) :
      rows (a ++ (s ++ b)) = ps.map Line.ofText ++ Line.ofText q :: qs.map Line.ofText := by
    rw [rows, hps, Text.splitOn_append hs.unbroken hqs, List.map_append, List.map_cons,
      Line.ofText, Text.trim_append_of_blank_left hs.blank]
    rfl
  rw [List.append_assoc, List.append_assoc, List.append_assoc, ← List.append_assoc p,
    hfirst (hp.append hw), hfirst hp]

theorem rows_trail (hb : Text.EndsLine b) (hp : Text.Spacing p) (hw : Text.Spacing w) (a : Text) :
    rows (a ++ w ++ (p ++ b)) = rows (a ++ (p ++ b)) := by
  obtain ⟨qs, hqs⟩ := hb.exists_splitOn
  obtain ⟨ps, q, hps⟩ := Text.exists_splitOn_append a
  have hlast {s : Text} (hs : Text.Spacing s) :
      rows (a ++ s ++ b) = ps.map Line.ofText ++ [Line.ofText q] ++ qs.map Line.ofText := by
    rw [rows, hqs, hps s hs.unbroken, List.map_append, List.map_append, List.map_singleton,
      Line.ofText, Text.trim_append_of_blank_right hs.blank]
    rfl
  rw [← List.append_assoc, ← List.append_assoc, List.append_assoc a w, hlast (hw.append hp),
    hlast hp]

/-- What one edit does to the lines. -/
theorem renumbered_of_adds (h : Adds a w b e) :
    Renumbered (moved e) (rows (a ++ b)) (rows (a ++ w ++ b)) := by
  cases h with
  | @above _ l _ ha hl =>
    obtain ⟨ps, hlength, hps⟩ := ha.exists_splitOn
    have hrows : rows (a ++ (l ++ ['\n']) ++ b)
        = ps.map Line.ofText ++ .ignorable :: rows b := by
      rw [rows, List.append_assoc, hps, List.append_assoc, List.singleton_append,
        Text.splitOn_append hl.1 (Text.splitOn_cons_self '\n' b), List.append_nil, List.map_append,
        List.map_cons, Line.ofText_idle hl]
      rfl
    rw [hrows, rows, hps, List.map_append, ← hlength, ← List.length_map (f := Line.ofText)]
    exact renumbered_ignorable _ _
  | @below l _ hl =>
    have hrows : rows (a ++ '\n' :: l) = rows a ++ [.ignorable] := by
      rw [rows, List.splitOn_append_cons_self, List.splitOn_eq_singleton hl.1, List.map_append,
        List.map_singleton, Line.ofText_idle hl]
      rfl
    have hlength : (rows a).length = a.count '\n' + 1 := by
      rw [rows, List.length_map, Text.length_splitOn]
    have hmoved := renumbered_ignorable (rows a) []
    rw [List.append_nil, hlength, ← hrows] at hmoved
    rwa [List.append_nil, List.append_nil]
  | last ha hl =>
    obtain ⟨ps, hlength, hps⟩ := ha.exists_splitOn
    have hrows {l : Text} (hl : Text.Idle l) :
        rows (a ++ l) = ps.map Line.ofText ++ [.ignorable] := by
      rw [rows, hps, List.splitOn_eq_singleton hl.1, List.map_append, List.map_singleton,
        Line.ofText_idle hl]
    have hempty : Text.Idle [] := by decide
    rw [hrows hempty, List.append_nil, hrows hl, ← hlength, ← List.length_map (f := Line.ofText)]
    exact renumbered_last _
  | indent _ ha hp hw =>
    rw [rows_indent ha hp hw]
    exact .refl _
  | trail _ hb hp hw =>
    rw [rows_trail hb hp hw]
    exact .refl _
  | carriageReturn _ b =>
    have hb : Text.EndsLine ('\n' :: b) := .tail _ (.head _)
    have hrows := rows_trail (p := []) (w := ['\r']) hb (by decide) (by decide) a
    rw [List.nil_append] at hrows
    rw [hrows]
    exact .refl _

/-- No edit puts the mark of a byte order in front. -/
theorem head?_ne_of_adds (h : Adds a w b e) (hab : (a ++ b).head? ≠ some (Char.ofNat 0xfeff)) :
    (a ++ w ++ b).head? ≠ some (Char.ofNat 0xfeff) := by
  have hnewline : some '\n' ≠ some (Char.ofNat 0xfeff) := by decide
  have hw : w.head? ≠ some (Char.ofNat 0xfeff) := by
    cases h with
    | @above _ l _ _ hl =>
      cases l with
      | nil => exact hnewline
      | cons c l => exact hl.head?_ne
    | below _ hl => exact hnewline
    | last _ hl => exact hl.head?_ne
    | indent _ _ _ hw => exact hw.head?_ne
    | trail _ _ _ hw => exact hw.head?_ne
    | carriageReturn => decide
  cases a with
  | cons c a => exact hab
  | nil =>
    cases w with
    | nil => exact hab
    | cons c w => exact hw

/-! ## Several edits -/

theorem renumbered_of_edits (h : Edits t es u) :
    Renumbered (fun n => n + inserted es n) (rows t) (rows u) := by
  induction h with
  | nil t => exact .refl _
  | @cons a w b u e es h _ ih =>
    have hboth := (renumbered_of_adds h).trans ih
    simp only [← add_inserted_cons] at hboth
    exact hboth

theorem head?_ne_of_edits (h : Edits t es u) (ht : t.head? ≠ some (Char.ofNat 0xfeff)) :
    u.head? ≠ some (Char.ofNat 0xfeff) := by
  induction h with
  | nil t => exact ht
  | cons h _ ih => exact ih (head?_ne_of_adds h ht)

end

/-- The mark of the byte order of a text, if there is one. -/
def mark (t : Text) : Text := if t.head? = some (Char.ofNat 0xfeff) then [Char.ofNat 0xfeff] else []

theorem unmarked_mark_append {t u : Text} {es : List (Option Nat)} (h : Edits (unmarked t) es u) :
    unmarked (mark t ++ u) = u := by
  by_cases ht : t.head? = some (Char.ofNat 0xfeff)
  · rw [mark, if_pos ht]
    rfl
  · rw [unmarked_of_head? ht] at h
    rw [mark, if_neg ht]
    exact unmarked_of_head? (head?_ne_of_edits h ht)

/-- **The layout of a config file does not matter.**  Let a text be edited behind the mark of its
byte order: blank lines and comments are inserted, white space is added at the ends of lines, and
newlines become a carriage return and a newline.  What was read before is read afterwards, and a
text that fails fails with the same fault, as many lines farther as were inserted above it. -/
theorem parse_edits {t u : Text} {es : List (Option Nat)} (h : Edits (unmarked t) es u) :
    (∀ f, parse t = .ok f → parse (mark t ++ u) = .ok f) ∧
      ∀ f, parse t = .error f →
        parse (mark t ++ u) = .error ⟨f.line + inserted es f.line, f.fault⟩ := by
  have hparse : parse (mark t ++ u)
      = (parse t).mapError fun f => { f with line := f.line + inserted es f.line } := by
    rw [parse, lines, unmarked_mark_append h]
    exact renumbered_of_edits h
  rw [hparse]
  constructor
  · intro f hf
    rw [hf]
    rfl
  · intro f hf
    rw [hf]
    rfl

/-- A comment above the header, white space in front of its carriage return, an empty line behind a
new carriage return: two of these lines stand above the bad one. -/
theorem parse_edits_marked :
    let m := Char.ofNat 0xfeff
    let body := "[a]\r\nk = 1\nwords".toList
    let edited := "; c\r\n[a]\t\r\nk = 1\r\n\nwords".toList
    Edits (unmarked (m :: body)) [some 0, none, none, some 3] edited ∧
      parse (m :: edited) = .error ⟨5, .notPair "words".toList⟩ := by
  intro m body edited
  have hline : Edits "; c\r\n[a]\t\r\nk = 1\r\nwords".toList [some 3] edited :=
    .cons (a := "; c\r\n[a]\t\r\nk = 1\r\n".toList) (b := "words".toList)
      (.above (l := []) _ (by decide) (by decide)) (.nil edited)
  have hreturn : Edits "; c\r\n[a]\t\r\nk = 1\nwords".toList [none, some 3] edited :=
    .cons (a := "; c\r\n[a]\t\r\nk = 1".toList) (b := "\nwords".toList)
      (.carriageReturn _ "words".toList) hline
  have hspace : Edits "; c\r\n[a]\r\nk = 1\nwords".toList [none, none, some 3] edited :=
    .cons (a := "; c\r\n[a]".toList) (b := "\r\nk = 1\nwords".toList)
      (.trail (p := ['\r']) (w := ['\t']) (b := "\nk = 1\nwords".toList) _
        (by decide) (by decide) (by decide)) hreturn
  have hedits : Edits (unmarked (m :: body)) [some 0, none, none, some 3] edited :=
    .cons (a := []) (b := body) (.above (l := "; c\r".toList) _ (by decide) (by decide)) hspace
  exact ⟨hedits, (parse_edits (t := m :: body) hedits).2 ⟨3, .notPair "words".toList⟩ rfl⟩

end Snapshot

end EditorConfig
