import EditorConfig.Snapshot
import Mathlib.Data.List.Forall2

/-!
# The grammar of config files

A config file told line by line, without a reader that runs through it.

* `Line.Denotes`     what a trimmed line stands for, kind by kind;
* `Line.LastPair`    the last pair with a name among some lines;
* `Line.Block`       a header and the lines up to the next one;
* `Snapshot.Says`    a snapshot says what the lines before the first header and the blocks say.

Main statement: every line is of exactly one kind; a text has a fault exactly when some line is bad,
and then it is the first one; any other text is read as its blocks say (`parse_grammar`).
-/

namespace EditorConfig

/-- A relation that is a function on the right items is a function on the right list. -/
theorem forall₂_iff_eq_map {α β : Type} {R : α → β → Prop} {f : β → α} {as : List α}
    {bs : List β} (h : ∀ b ∈ bs, ∀ a, R a b ↔ a = f b) :
    List.Forall₂ R as bs ↔ as = bs.map f := by
  induction bs generalizing as with
  | nil => simp
  | cons b bs ih =>
    have hb := h b List.mem_cons_self
    have hbs (as : List α) : List.Forall₂ R as bs ↔ as = bs.map f :=
      ih fun c hc => h c (List.mem_cons_of_mem _ hc)
    rw [List.forall₂_cons_right_iff, List.map_cons]
    simp only [hb, hbs]
    constructor
    · rintro ⟨a, as, rfl, rfl, rfl⟩
      rfl
    · rintro rfl
      exact ⟨f b, bs.map f, rfl, rfl, rfl⟩

namespace Line

/-! ## Kinds of lines -/

/-- What a trimmed line stands for. -/
inductive Denotes : Text → Line → Prop
  | blank : Denotes [] ignorable
  | comment {t : Text} (h : t.head? ∈ [some '#', some ';']) : Denotes t ignorable
  | header (inner : Text) : Denotes ('[' :: inner ++ [']']) (header (Text.trim inner))
  | unclosed {t : Text} (h : ∀ inner, t ≠ inner ++ [']']) :
    Denotes ('[' :: t) (bad .unclosedHeader)
  | pair {t name value : Text} (hstart : t.head? ∉ [some '#', some ';', some '['])
    (hcut : t = name ++ '=' :: value) (hfirst : '=' ∉ name) (hname : Text.trim name ≠ []) :
    Denotes t (pair (Text.lower (Text.trim name)) (Text.trim value))
  | nameless {t name value : Text} (hstart : t.head? ∉ [some '#', some ';', some '['])
    (hcut : t = name ++ '=' :: value) (hfirst : '=' ∉ name) (hname : Text.trim name = []) :
    Denotes t (bad .missingName)
  | unsplit {t : Text} (hstart : t.head? ∉ [none, some '#', some ';', some '['])
    (hcut : '=' ∉ t) : Denotes t (bad (.notPair t))

theorem denotes_ofHeader (t : Text) : Denotes ('[' :: t) (ofHeader t) := by
  unfold ofHeader
  split
  · next h =>
    obtain ⟨inner, rfl⟩ := List.getLast?_eq_some_iff.1 h
    rw [List.dropLast_concat]
    exact .header inner
  · next h => exact .unclosed fun inner he => h (by rw [he, List.getLast?_concat])

theorem denotes_ofPair {t : Text} (h : t.head? ∉ [none, some '#', some ';', some '[']) :
    Denotes t (ofPair t) := by
  have hstart : t.head? ∉ [some '#', some ';', some '['] := fun hm => h (List.mem_cons_of_mem _ hm)
  unfold ofPair
  split
  · next hcut => exact .unsplit h (Text.cut?_eq_none.1 hcut)
  · next name value hcut =>
    obtain ⟨hparts, hfirst⟩ := Text.cut?_eq_some.1 hcut
    split
    · next hname => exact .nameless hstart hparts hfirst hname
    · next hname => exact .pair hstart hparts hfirst hname

/-- Every line is of some kind. -/
theorem denotes_ofTrimmed (t : Text) : Denotes t (ofTrimmed t) := by
  cases t with
  | nil => exact .blank
  | cons c t =>
    rw [ofTrimmed]
    split
    · next hc => exact .comment (by simpa using hc)
    · next hc =>
      split
      · next hopen =>
        subst hopen
        exact denotes_ofHeader t
      · next hopen =>
        rw [not_or] at hc
        exact denotes_ofPair (by simp [hc, hopen])

theorem ofTrimmed_eq_ofPair {t : Text} (h : t.head? ∉ [some '#', some ';', some '['])
    (hne : t ≠ []) : ofTrimmed t = ofPair t := by
  obtain ⟨c, t, rfl⟩ := List.exists_cons_of_ne_nil hne
  have hc : c ≠ '#' ∧ c ≠ ';' ∧ c ≠ '[' := by simpa using h
  obtain ⟨hhash, hsemi, hopen⟩ := hc
  rw [ofTrimmed, if_neg (by simp [hhash, hsemi]), if_neg hopen]

/-- No line is of two kinds, or of one kind in two ways. -/
theorem eq_ofTrimmed {t : Text} {l : Line} (h : Denotes t l) : l = ofTrimmed t := by
  cases h with
  | blank => rfl
  | comment h =>
    cases t with
    | nil => simp at h
    | cons c t => rw [ofTrimmed, if_pos (by simpa using h)]
  | header inner =>
    rw [List.cons_append, ofTrimmed, if_neg (by decide), if_pos rfl, ofHeader,
      if_pos List.getLast?_concat, List.dropLast_concat]
  | unclosed h =>
    have hlast (t : Text) (h : ∀ inner, t ≠ inner ++ [']']) : t.getLast? ≠ some ']' := fun he =>
      have ⟨inner, hinner⟩ := List.getLast?_eq_some_iff.1 he
      h inner hinner
    rw [ofTrimmed, if_neg (by decide), if_pos rfl, ofHeader, if_neg (hlast _ h)]
  | @pair _ name value hstart hcut hfirst hname =>
    have hne : t ≠ [] := by simp [hcut]
    rw [ofTrimmed_eq_ofPair hstart hne, ofPair, Text.cut?_eq_some.2 ⟨hcut, hfirst⟩]
    simp only [if_neg hname]
  | @nameless _ name value hstart hcut hfirst hname =>
    have hne : t ≠ [] := by simp [hcut]
    rw [ofTrimmed_eq_ofPair hstart hne, ofPair, Text.cut?_eq_some.2 ⟨hcut, hfirst⟩]
    simp only [if_pos hname]
  | unsplit hstart hcut =>
    have hne : t ≠ [] := by
      rintro rfl
      simp at hstart
    have hstart' : t.head? ∉ [some '#', some ';', some '['] :=
      fun hm => hstart (List.mem_cons_of_mem _ hm)
    rw [ofTrimmed_eq_ofPair hstart' hne, ofPair, Text.cut?_eq_none.2 hcut]

theorem denotes_iff {t : Text} {l : Line} : Denotes t l ↔ l = ofTrimmed t :=
  ⟨eq_ofTrimmed, fun h => h ▸ denotes_ofTrimmed t⟩

/-! ## The first bad line -/

/-- The fault that is found is the one of the first bad line. -/
theorem firstFault?_eq_some_iff {n : Nat} {ls : List Line} {f : FileFault} :
    firstFault? n ls = some f
      ↔ ∃ i, f.line = n + i ∧ ls[i]? = some (bad f.fault) ∧
          ∀ j < i, ∀ fault, ls[j]? ≠ some (bad fault) := by
  induction ls generalizing n with
  | nil => simp [firstFault?]
  | cons l ls ih =>
    have hlater (hl : ∀ fault, l ≠ bad fault) :
        (∃ i, f.line = n + 1 + i ∧ ls[i]? = some (bad f.fault) ∧
            ∀ j < i, ∀ fault, ls[j]? ≠ some (bad fault))
          ↔ ∃ i, f.line = n + i ∧ (l :: ls)[i]? = some (bad f.fault) ∧
              ∀ j < i, ∀ fault, (l :: ls)[j]? ≠ some (bad fault) := by
      constructor
      · rintro ⟨i, hline, hbad, hfirst⟩
        refine ⟨i + 1, by omega, hbad, fun j hj fault => ?_⟩
        cases j with
        | zero => simpa using hl fault
        | succ j => exact hfirst j (by omega) fault
      · rintro ⟨i, hline, hbad, hfirst⟩
        cases i with
        | zero => exact absurd (by simpa using hbad) (hl f.fault)
        | succ i => exact ⟨i, by omega, hbad, fun j hj => hfirst (j + 1) (by omega)⟩
    cases l with
    | bad fault =>
      rw [firstFault?]
      constructor
      · intro h
        obtain rfl := Option.some.inj h
        exact ⟨0, rfl, rfl, by simp⟩
      · rintro ⟨i, hline, hbad, hfirst⟩
        cases i with
        | zero =>
          obtain rfl : fault = f.fault := by simpa using hbad
          obtain rfl : f.line = n := hline
          rfl
        | succ i => exact absurd rfl (hfirst 0 (by omega) fault)
    | ignorable => exact ih.trans (hlater (by simp))
    | header selector => exact ih.trans (hlater (by simp))
    | pair name value => exact ih.trans (hlater (by simp))

theorem firstFault?_eq_none {ls : List Line} {n : Nat} :
    firstFault? n ls = none ↔ ∀ l ∈ ls, ∀ fault, l ≠ bad fault := by
  induction ls generalizing n with
  | nil => simp [firstFault?]
  | cons l ls ih => cases l <;> simp [firstFault?, ih]

/-! ## Blocks -/

/-- No line is a header. -/
def Headless (ls : List Line) : Prop := ∀ selector, header selector ∉ ls

/-- A header and the lines up to the next one. -/
structure Block where
  selector : Text
  body : List Line

def Block.lines (b : Block) : List Line := header b.selector :: b.body

/-- The lines in front of the first header, and the blocks after them. -/
structure CutInto (ls preamble : List Line) (blocks : List Block) : Prop where
  lines : ls = preamble ++ blocks.flatMap Block.lines
  preamble : Headless preamble
  bodies : ∀ b ∈ blocks, Headless b.body

theorem Headless.of_cons {l : Line} {ls : List Line} (h : Headless (l :: ls)) : Headless ls :=
  fun selector hm => h selector (List.mem_cons_of_mem _ hm)

theorem exists_cutInto (ls : List Line) : ∃ preamble blocks, CutInto ls preamble blocks := by
  induction ls with
  | nil => exact ⟨[], [], rfl, by simp [Headless], by simp⟩
  | cons l ls ih =>
    obtain ⟨preamble, blocks, rfl, hpreamble, hbodies⟩ := ih
    by_cases hl : ∃ selector, l = header selector
    · obtain ⟨selector, rfl⟩ := hl
      refine ⟨[], ⟨selector, preamble⟩ :: blocks, rfl, by simp [Headless], fun b hb => ?_⟩
      rcases List.mem_cons.1 hb with rfl | hb
      · exact hpreamble
      · exact hbodies b hb
    · refine ⟨l :: preamble, blocks, rfl, fun selector hm => ?_, hbodies⟩
      rcases List.mem_cons.1 hm with he | hm
      · exact hl ⟨selector, he.symm⟩
      · exact hpreamble selector hm

/-- Lines whose pairs stand behind a header have sections of their own, whatever stands before. -/
theorem sections_append (ls : List Line) {ms : List Line} (h : (sections ms).1 = []) :
    sections (ls ++ ms) = ((sections ls).1, (sections ls).2 ++ (sections ms).2) := by
  induction ls with
  | nil => exact Prod.ext h rfl
  | cons l ls ih =>
    cases l with
    | ignorable => exact ih
    | header selector => simp only [List.cons_append, sections, ih]
    | pair name value => simp only [List.cons_append, sections, ih]
    | bad fault => exact ih

theorem sections_headless {ls : List Line} (h : Headless ls) : (sections ls).2 = [] := by
  induction ls with
  | nil => rfl
  | cons l ls ih =>
    have hls := ih h.of_cons
    cases l with
    | header selector => exact absurd List.mem_cons_self (h selector)
    | ignorable => exact hls
    | pair name value => exact hls
    | bad fault => exact hls

/-- The section of a block. -/
def Block.toSection (b : Block) : Section := ⟨b.selector, .ofList (sections b.body).1⟩

theorem Block.sections_lines {b : Block} (h : Headless b.body) :
    sections b.lines = ([], [b.toSection]) := by
  show ([], b.toSection :: (sections b.body).2) = _
  rw [sections_headless h]

theorem sections_blocks {blocks : List Block} (h : ∀ b ∈ blocks, Headless b.body) :
    sections (blocks.flatMap Block.lines) = ([], blocks.map Block.toSection) := by
  induction blocks with
  | nil => rfl
  | cons b blocks ih =>
    have hb := Block.sections_lines (h b List.mem_cons_self)
    have hblocks := ih fun c hc => h c (List.mem_cons_of_mem _ hc)
    rw [List.flatMap_cons, sections_append _ (by rw [hblocks]), hblocks, hb]
    rfl

theorem CutInto.sections_eq {ls preamble : List Line} {blocks : List Block}
    (h : CutInto ls preamble blocks) :
    sections ls = ((sections preamble).1, blocks.map Block.toSection) := by
  have hblocks := sections_blocks h.bodies
  rw [h.lines, sections_append _ (by rw [hblocks]), sections_headless h.preamble, hblocks]
  rfl

/-! ## Pairs -/

/-- The last pair with this name gives it this value. -/
def LastPair (name value : Text) (ls : List Line) : Prop :=
  ∃ before after, ls = before ++ pair name value :: after ∧ ∀ v, pair name v ∉ after

theorem lastPair_cons {name value : Text} {l : Line} {ls : List Line} :
    LastPair name value (l :: ls)
      ↔ LastPair name value ls ∨ l = pair name value ∧ ∀ v, pair name v ∉ ls := by
  constructor
  · rintro ⟨before, after, heq, hafter⟩
    cases before with
    | nil =>
      obtain ⟨rfl, rfl⟩ := List.cons.inj heq
      exact .inr ⟨rfl, hafter⟩
    | cons m before => exact .inl ⟨before, after, (List.cons.inj heq).2, hafter⟩
  · rintro (⟨before, after, rfl, hafter⟩ | ⟨rfl, hls⟩)
    · exact ⟨l :: before, after, rfl, hafter⟩
    · exact ⟨[], ls, rfl, hls⟩

/-- Among headless lines, a name has the value of its last pair, and none without such a pair. -/
theorem lastValue?_sections (name : Text) {ls : List Line} (h : Headless ls) :
    (Properties.lastValue? name (sections ls).1 = none ↔ ∀ v, pair name v ∉ ls) ∧
      ∀ value, Properties.lastValue? name (sections ls).1 = some value
        ↔ LastPair name value ls := by
  induction ls with
  | nil => simp [sections, Properties.lastValue?, LastPair]
  | cons l ls ih =>
    obtain ⟨hnone, hsome⟩ := ih h.of_cons
    have hother (hl : ∀ v, l ≠ pair name v) :
        (Properties.lastValue? name (sections ls).1 = none ↔ ∀ v, pair name v ∉ l :: ls) ∧
          ∀ value, Properties.lastValue? name (sections ls).1 = some value
            ↔ LastPair name value (l :: ls) := by
      refine ⟨hnone.trans ?_, fun value => (hsome value).trans ?_⟩
      · exact forall_congr' fun v => by simp [(hl v).symm]
      · simp [lastPair_cons, hl]
    cases l with
    | header selector => exact absurd List.mem_cons_self (h selector)
    | ignorable => exact hother (by simp)
    | bad fault => exact hother (by simp)
    | pair n v =>
      simp only [sections, Properties.lastValue?]
      by_cases hn : n = name
      · subst hn
        refine ⟨⟨fun hv => by simp at hv, fun hv => absurd List.mem_cons_self (hv v)⟩,
          fun value => ?_⟩
        rw [Option.or_eq_some_iff, hsome, hnone, lastPair_cons]
        simp [and_comm]
      · have := hother (by simp [hn])
        simpa [hn] using this

end Line

/-! ## Snapshots -/

/-- A section says what its block says: the last pair with a name wins, and nothing else is
declared. -/
structure Section.Says (s : Section) (b : Line.Block) : Prop where
  selector : s.selector = b.selector
  properties : ∀ name value, s.properties.get? name = some value ↔ Line.LastPair name value b.body

theorem Section.says_iff {s : Section} {b : Line.Block} (h : Line.Headless b.body) :
    s.Says b ↔ s = b.toSection := by
  have hget (name value : Text) : b.toSection.properties.get? name = some value
      ↔ Line.LastPair name value b.body := by
    rw [← (Line.lastValue?_sections name h).2 value]
    exact Eq.congr_left (Properties.get?_ofList _ name)
  constructor
  · intro hsaid
    have hproperties : s.properties = b.toSection.properties := by
      refine Properties.ext_get? fun name => Option.ext fun value => ?_
      rw [hsaid.properties, hget]
    cases s with
    | mk selector properties =>
      obtain rfl : selector = b.selector := hsaid.selector
      exact congrArg (Section.mk b.selector) hproperties
  · rintro rfl
    exact ⟨rfl, hget⟩

namespace Snapshot

/-- A snapshot says what the lines say: it is a root if the last pair `root` in front of the first
header is `true`, and it has the sections of the blocks. -/
structure Says (f : Snapshot) (preamble : List Line) (blocks : List Line.Block) : Prop where
  path : f.path = []
  isRoot : f.isRoot = true
    ↔ ∃ value, Line.LastPair "root".toList value preamble ∧ value.map Char.toLower = "true".toList
  sections : List.Forall₂ Section.Says f.sections blocks

theorem declaresRoot_iff {preamble : List Line} (h : Line.Headless preamble) :
    declaresRoot (Line.sections preamble).1 = true
      ↔ ∃ value, Line.LastPair "root".toList value preamble ∧
          value.map Char.toLower = "true".toList := by
  have hlast := (Line.lastValue?_sections "root".toList h).2
  simp only [← hlast]
  unfold declaresRoot
  cases Properties.lastValue? "root".toList (Line.sections preamble).1 with
  | none => simp
  | some value =>
    have hsame : Text.sameLetters "true".toList value = true
        ↔ value.map Char.toLower = "true".toList := beq_iff_eq.trans eq_comm
    simpa using hsame

/-- What the lines say makes up the snapshot. -/
theorem says_iff {f : Snapshot} {ls preamble : List Line} {blocks : List Line.Block}
    (h : Line.CutInto ls preamble blocks) :
    f.Says preamble blocks
      ↔ f = { isRoot := declaresRoot (Line.sections ls).1, sections := (Line.sections ls).2 } := by
  have hsections : List.Forall₂ Section.Says f.sections blocks
      ↔ f.sections = blocks.map Line.Block.toSection :=
    forall₂_iff_eq_map fun b hb s => Section.says_iff (h.bodies b hb)
  rw [h.sections_eq]
  constructor
  · rintro ⟨hpath, hroot, hsaid⟩
    have hflag := Bool.eq_iff_iff.2 (hroot.trans (declaresRoot_iff h.preamble).symm)
    cases f with
    | mk isRoot path sections =>
      obtain rfl : path = [] := hpath
      obtain rfl : isRoot = _ := hflag
      obtain rfl := hsections.1 hsaid
      rfl
  · rintro rfl
    exact ⟨rfl, declaresRoot_iff h.preamble, hsections.2 rfl⟩

/-! ## Texts -/

theorem ofLines_eq_error_iff {ls : List Line} {f : FileFault} :
    ofLines ls = .error f ↔ Line.firstFault? 1 ls = some f := by
  unfold ofLines
  cases Line.firstFault? 1 ls with
  | none => simp
  | some g => simp

theorem ofLines_eq_ok_iff {ls : List Line} {f : Snapshot} :
    ofLines ls = .ok f ↔ Line.firstFault? 1 ls = none ∧
      f = { isRoot := declaresRoot (Line.sections ls).1, sections := (Line.sections ls).2 } := by
  unfold ofLines
  cases Line.firstFault? 1 ls with
  | none => simp [eq_comm]
  | some g => simp

/-- **The grammar of config files.**  Each part of a text between newlines, without the mark of the
byte order and trimmed, stands for exactly one line.  Reading fails exactly when some line is bad,
with the number and the fault of the first one; otherwise it gives the snapshot that says what the
lines say, cut into blocks at the headers. -/
theorem parse_grammar (t : Text) :
    ∃ ls, (∀ ms, List.Forall₂ (fun l p => Line.Denotes (Text.trim p) l) ms
        ((unmarked t).splitOn '\n') ↔ ms = ls) ∧
      (∀ f, parse t = .error f ↔ ∃ i, f.line = i + 1 ∧ ls[i]? = some (.bad f.fault) ∧
        ∀ j < i, ∀ fault, ls[j]? ≠ some (.bad fault)) ∧
      ∀ f, parse t = .ok f ↔ (∀ l ∈ ls, ∀ fault, l ≠ .bad fault) ∧
        ∃ preamble blocks, Line.CutInto ls preamble blocks ∧ f.Says preamble blocks := by
  refine ⟨lines t, fun ms => ?_, fun f => ?_, fun f => ?_⟩
  · exact forall₂_iff_eq_map fun p _ l => Line.denotes_iff
  · rw [parse, ofLines_eq_error_iff, Line.firstFault?_eq_some_iff]
    simp only [Nat.add_comm 1]
  · rw [parse, ofLines_eq_ok_iff, Line.firstFault?_eq_none]
    refine and_congr_right fun _ => ?_
    constructor
    · intro hf
      obtain ⟨preamble, blocks, hcut⟩ := Line.exists_cutInto (lines t)
      exact ⟨preamble, blocks, hcut, (says_iff hcut).2 hf⟩
    · rintro ⟨preamble, blocks, hcut, hsaid⟩
      exact (says_iff hcut).1 hsaid

/-- The last pair wins, and only the last bracket closes a header. -/
example : parse "root = no\nROOT = True\n[ a]b ]\nK = 1\n#\nk = =".toList
    = .ok { isRoot := true, sections := [⟨"a]b".toList, .ofList [("k".toList, "=".toList)]⟩] } := by
  rfl

end Snapshot

end EditorConfig
