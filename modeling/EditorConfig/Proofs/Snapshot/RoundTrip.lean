import EditorConfig.Proofs.Snapshot.Grammar
import EditorConfig.Proofs.Text.Neat

/-!
# Config files in normal form

* `Line.render`       a line as it is written in normal form;
* `Snapshot.written`  the lines of a snapshot: `root = true` for a root, then the header and the
                      pairs of each section;
* `Snapshot.render`   these lines, each with a newline behind it;
* `Snapshot.Normal`   selectors and values are neat texts, and names are names.

Main statement: reading undoes rendering for snapshots in normal form, and whatever is read is in
normal form (`parse_render`).
-/

namespace EditorConfig

/-! ## Lines -/

namespace Line

/-- A line in normal form; an empty one unless it is a header or a pair. -/
def render : Line → Text
  | ignorable => []
  | header selector => '[' :: selector ++ [']']
  | pair name value => name ++ " = ".toList ++ value
  | bad _ => []

/-- A line that is not bad, with texts that are read as they are written. -/
def Normal : Line → Prop
  | ignorable => True
  | header selector => Text.Neat selector
  | pair name value => Text.IsName name ∧ Text.Neat value
  | bad _ => False

theorem ofTrimmed_pair {name t : Text} (h : Text.IsName name) :
    ofTrimmed (name ++ t) = ofPair (name ++ t) := by
  obtain ⟨c, r, rfl⟩ := List.exists_cons_of_ne_nil h.ne_nil
  have hc : c ≠ '[' ∧ c ≠ '#' ∧ c ≠ ';' := by simpa using h.start
  obtain ⟨hopen, hhash, hsemi⟩ := hc
  rw [List.cons_append, ofTrimmed, if_neg (by simp [hhash, hsemi]), if_neg hopen]

theorem ofText_header {selector : Text} (h : Text.Neat selector) :
    ofText ('[' :: selector ++ [']']) = header selector := by
  have hline : Text.trim ('[' :: selector ++ [']']) = '[' :: (selector ++ [']']) :=
    Text.trim_eq_self rfl (by rw [List.getLast?_concat]; rfl)
  rw [ofText, hline, ofTrimmed, if_neg (by decide), if_pos rfl, ofHeader,
    if_pos List.getLast?_concat, List.dropLast_concat, h.trimmed]

theorem trim_trimEnd_blank {value : Text} (h : Text.Neat value) :
    Text.trim (Text.trimEnd (' ' :: value)) = value := by
  by_cases hv : value = []
  · subst hv
    decide
  · have hlast := (Text.trim_eq_self_iff.1 h.trimmed).2
    have hend : Text.trimEnd (' ' :: value) = ' ' :: value :=
      Text.trimEnd_eq_self (by rwa [List.getLast?_cons_of_ne_nil hv])
    rw [hend, Text.trim_cons_of_isBlank (by decide), h.trimmed]

theorem ofText_pair {name value : Text} (hn : Text.IsName name) (hv : Text.Neat value) :
    ofText (name ++ " = ".toList ++ value) = pair name value := by
  have hsign : Text.trim (name ++ [' ', '=']) = name ++ [' ', '='] := by
    rw [Text.trim_append hn.ne_nil hn.trimmed]
    rfl
  have hline : Text.trim (name ++ " = ".toList ++ value)
      = name ++ [' '] ++ '=' :: Text.trimEnd (' ' :: value) := by
    have := Text.trim_append (by simp) hsign (' ' :: value)
    simpa using this
  have hcut : (name ++ [' '] ++ '=' :: Text.trimEnd (' ' :: value)).cut? '='
      = some (name ++ [' '], Text.trimEnd (' ' :: value)) :=
    Text.cut?_eq_some.2 ⟨rfl, by simp [hn.unsplit]⟩
  have hname : Text.trim (name ++ [' ']) = name := by
    rw [Text.trim_append hn.ne_nil hn.trimmed]
    exact List.append_nil name
  rw [ofText, hline, List.append_assoc, ofTrimmed_pair hn, ← List.append_assoc, ofPair, hcut]
  simp only [hname, if_neg hn.ne_nil, hn.small, trim_trimEnd_blank hv]

/-- A line in normal form is read as it was. -/
theorem ofText_render {l : Line} (h : l.Normal) : ofText l.render = l := by
  cases l with
  | ignorable => rfl
  | header selector => exact ofText_header h
  | pair name value => exact ofText_pair h.1 h.2
  | bad fault => cases h

theorem newline_not_mem_render {l : Line} (h : l.Normal) : '\n' ∉ l.render := by
  cases l with
  | ignorable => simp [render]
  | header selector => simp [render, Text.Neat.unbroken h]
  | pair name value => simp [render, h.1.unbroken, h.2.unbroken]
  | bad fault => cases h

theorem normal_ofHeader {t : Text} (h : '\n' ∉ t) :
    (ofHeader t).Normal ∨ ∃ fault, ofHeader t = bad fault := by
  unfold ofHeader
  split
  · exact .inl (Text.neat_trim fun hm => h ((List.dropLast_sublist t).subset hm))
  · exact .inr ⟨_, rfl⟩

theorem normal_ofPair {c : Char} {t : Text} (h : Text.Neat (c :: t))
    (hc : c ≠ '[' ∧ c ≠ '#' ∧ c ≠ ';') :
    (ofPair (c :: t)).Normal ∨ ∃ fault, ofPair (c :: t) = bad fault := by
  unfold ofPair
  split
  · exact .inr ⟨_, rfl⟩
  · next name value hcut =>
    obtain ⟨hparts, hsplit⟩ := Text.cut?_eq_some.1 hcut
    have hunbroken : '\n' ∉ name ∧ '\n' ∉ value := by
      have := h.unbroken
      rw [hparts] at this
      simp_all
    split
    · exact .inr ⟨_, rfl⟩
    · next hne =>
      have hhead : name.head? = some c := by
        cases name with
        | nil => exact absurd Text.trim_nil hne
        | cons d name =>
          obtain rfl := (List.cons.inj hparts).1
          rfl
      have hblank : name.head?.all (fun c => !Text.isBlank c) := by
        rw [hhead]
        exact (Text.trim_eq_self_iff.1 h.trimmed).1
      have hname : Text.IsName (Text.lower (Text.trim name)) := by
        apply Text.isName_lower (Text.neat_trim hunbroken.1) hne
        · exact fun hm => hsplit ((Text.infix_trim name).subset hm)
        · rw [Text.head?_trim_of_head? hblank hne, hhead]
          simpa using hc
      exact .inl ⟨hname, Text.neat_trim hunbroken.2⟩

/-- What is read from one line is bad or in normal form. -/
theorem normal_ofText {t : Text} (h : '\n' ∉ t) :
    (ofText t).Normal ∨ ∃ fault, ofText t = bad fault := by
  have hneat : Text.Neat (Text.trim t) := Text.neat_trim h
  unfold ofText
  cases hu : Text.trim t with
  | nil => exact .inl trivial
  | cons c u =>
    rw [hu] at hneat
    rw [ofTrimmed]
    split
    · exact .inl trivial
    · next hcomment =>
      split
      · exact normal_ofHeader fun hm => hneat.unbroken (List.mem_cons_of_mem _ hm)
      · next hheader =>
        rw [not_or] at hcomment
        exact normal_ofPair hneat (by simp [hcomment, hheader])

end Line

/-! ## Files -/

theorem Line.sections_pairs (es : List (Text × Text)) (ls : List Line) :
    sections (es.map (fun e => pair e.1 e.2) ++ ls)
      = (es ++ (sections ls).1, (sections ls).2) := by
  induction es with
  | nil => rfl
  | cons e es ih =>
    rw [List.map_cons, List.cons_append, sections, ih]
    rfl

theorem Line.mem_pairs {ls : List Line} {e : Text × Text} (h : e ∈ (sections ls).1) :
    pair e.1 e.2 ∈ ls := by
  induction ls with
  | nil => cases h
  | cons l ls ih =>
    cases l with
    | header selector => cases h
    | pair name value =>
      rcases List.mem_cons.1 h with rfl | h
      · exact List.mem_cons_self
      · exact List.mem_cons_of_mem _ (ih h)
    | ignorable => exact List.mem_cons_of_mem _ (ih h)
    | bad fault => exact List.mem_cons_of_mem _ (ih h)

/-- The texts of a section stand in its header and its pairs. -/
theorem Line.mem_sections {ls : List Line} {s : Section} (h : s ∈ (sections ls).2) :
    header s.selector ∈ ls ∧ ∀ e ∈ s.properties.entries, pair e.1 e.2 ∈ ls := by
  induction ls with
  | nil => cases h
  | cons l ls ih =>
    have later (h : s ∈ (sections ls).2) :
        header s.selector ∈ l :: ls ∧ ∀ e ∈ s.properties.entries, pair e.1 e.2 ∈ l :: ls :=
      ⟨List.mem_cons_of_mem _ (ih h).1, fun e he => List.mem_cons_of_mem _ ((ih h).2 e he)⟩
    cases l with
    | header selector =>
      rcases List.mem_cons.1 h with rfl | h
      · exact ⟨List.mem_cons_self,
          fun e he => List.mem_cons_of_mem _ (mem_pairs (Properties.mem_ofList he))⟩
      · exact later h
    | pair name value => exact later h
    | ignorable => exact later h
    | bad fault => exact later h

/-! ## Snapshots -/

namespace Section

/-- The header of a section and its pairs. -/
def written (s : Section) : List Line :=
  .header s.selector :: s.properties.entries.map fun e => .pair e.1 e.2

/-- The selector and the values are neat, and the names are names. -/
structure Normal (s : Section) : Prop where
  selector : Text.Neat s.selector
  properties : ∀ e ∈ s.properties.entries, Text.IsName e.1 ∧ Text.Neat e.2

instance (s : Section) : Decidable s.Normal :=
  decidable_of_iff (Text.Neat s.selector ∧
      ∀ e ∈ s.properties.entries, Text.IsName e.1 ∧ Text.Neat e.2)
    ⟨fun h => ⟨h.1, h.2⟩, fun h => ⟨h.1, h.2⟩⟩

theorem normal_written {s : Section} (h : s.Normal) {l : Line} (hl : l ∈ s.written) :
    l.Normal := by
  rcases List.mem_cons.1 hl with rfl | hl
  · exact h.selector
  · obtain ⟨e, he, rfl⟩ := List.mem_map.1 hl
    exact h.properties e he

theorem sections_written (s : Section) {ls : List Line} (h : (Line.sections ls).1 = []) :
    Line.sections (s.written ++ ls) = ([], s :: (Line.sections ls).2) := by
  have hpairs := Line.sections_pairs s.properties.entries ls
  rw [h, List.append_nil] at hpairs
  rw [written, List.cons_append, Line.sections, hpairs]
  simp only [Properties.ofList_entries]

end Section

namespace Snapshot

/-- The lines of a snapshot in normal form. -/
def written (f : Snapshot) : List Line :=
  (if f.isRoot then [.pair "root".toList "true".toList] else []) ++
    f.sections.flatMap Section.written

/-- A snapshot in normal form. -/
def render (f : Snapshot) : Text := f.written.flatMap fun l => l.render ++ ['\n']

def Normal (f : Snapshot) : Prop := ∀ s ∈ f.sections, s.Normal

instance (f : Snapshot) : Decidable f.Normal :=
  inferInstanceAs (Decidable (∀ s ∈ f.sections, s.Normal))

theorem normal_root : Line.Normal (.pair "root".toList "true".toList) :=
  ⟨by decide, by decide⟩

theorem normal_written {f : Snapshot} (h : f.Normal) {l : Line} (hl : l ∈ f.written) :
    l.Normal := by
  rcases List.mem_append.1 hl with hl | hl
  · split at hl
    · obtain rfl := List.mem_singleton.1 hl
      exact normal_root
    · cases hl
  · obtain ⟨s, hs, hl⟩ := List.mem_flatMap.1 hl
    exact Section.normal_written (h s hs) hl

theorem sections_written (ss : List Section) :
    Line.sections (ss.flatMap Section.written ++ [.ignorable]) = ([], ss) := by
  induction ss with
  | nil => rfl
  | cons s ss ih =>
    rw [List.flatMap_cons, List.append_assoc, Section.sections_written s (by rw [ih]), ih]

theorem ofLines_written {f : Snapshot} (h : f.Normal) :
    ofLines (f.written ++ [.ignorable]) = .ok { f with path := [] } := by
  have hfault : Line.firstFault? 1 (f.written ++ [.ignorable]) = none := by
    rw [Line.firstFault?_eq_none]
    intro l hl fault hbad
    rw [hbad] at hl
    rcases List.mem_append.1 hl with hl | hl
    · exact normal_written h hl
    · simp at hl
  rw [ofLines, hfault, written, List.append_assoc]
  cases hroot : f.isRoot with
  | true =>
    have hpairs : Line.sections ([.pair "root".toList "true".toList] ++
        (f.sections.flatMap Section.written ++ [.ignorable]))
          = ([("root".toList, "true".toList)], f.sections) := by
      have := Line.sections_pairs [("root".toList, "true".toList)]
        (f.sections.flatMap Section.written ++ [.ignorable])
      rwa [sections_written] at this
    simp only [if_true]
    rw [hpairs]
    rfl
  | false =>
    simp only [Bool.false_eq_true, if_false, List.nil_append, sections_written]
    rfl

/-- No mark of a byte order is mistaken for a part of the first line. -/
theorem unmarked_render (f : Snapshot) : unmarked f.render = f.render := by
  apply if_neg
  unfold render written
  cases f.isRoot with
  | true =>
    show some 'r' ≠ some (Char.ofNat 0xfeff)
    decide
  | false =>
    cases f.sections with
    | nil =>
      show none ≠ some (Char.ofNat 0xfeff)
      decide
    | cons s ss =>
      show some '[' ≠ some (Char.ofNat 0xfeff)
      decide

/-- Lines that end with a newline are read one by one, and nothing stands behind the last one. -/
theorem lines_render {f : Snapshot} (h : f.Normal) :
    lines f.render = f.written ++ [.ignorable] := by
  have hunbroken : ∀ p ∈ f.written.map Line.render, '\n' ∉ p := by
    intro p hp
    obtain ⟨l, hl, rfl⟩ := List.mem_map.1 hp
    exact Line.newline_not_mem_render (normal_written h hl)
  have hsplit := Text.splitOn_flatMap_append hunbroken
  rw [List.flatMap_map] at hsplit
  have hread : f.written.map (Line.ofText ∘ Line.render) = f.written := by
    have hline : ∀ l ∈ f.written, (Line.ofText ∘ Line.render) l = id l :=
      fun l hl => Line.ofText_render (normal_written h hl)
    rw [List.map_congr_left hline, List.map_id]
  rw [lines, unmarked_render, render, hsplit, List.map_append, List.map_map, hread]
  rfl

theorem normal_of_parse {t : Text} {f : Snapshot} (h : parse t = .ok f) :
    f.Normal ∧ f.path = [] := by
  unfold parse ofLines at h
  split at h
  · cases h
  · next hfault =>
    obtain rfl := Except.ok.inj h
    have hnormal (l : Line) (hl : l ∈ lines t) : l.Normal := by
      obtain ⟨p, hp, rfl⟩ := List.mem_map.1 hl
      rcases Line.normal_ofText (Text.not_mem_of_mem_splitOn hp) with hn | ⟨fault, hbad⟩
      · exact hn
      · exact absurd hbad (Line.firstFault?_eq_none.1 hfault _ hl fault)
    refine ⟨fun s hs => ?_, rfl⟩
    obtain ⟨hheader, hpairs⟩ := Line.mem_sections hs
    exact ⟨hnormal _ hheader, fun e he => hnormal _ (hpairs e he)⟩

/-- Rendering and reading: a snapshot in normal form comes back, apart from the path, which is not
part of the text; and what is read from any text is in normal form, so that it comes back too. -/
theorem parse_render :
    (∀ f : Snapshot, f.Normal → parse f.render = .ok { f with path := [] }) ∧
      ∀ t f, parse t = .ok f → f.Normal ∧ parse f.render = .ok f := by
  have hrender (f : Snapshot) (h : f.Normal) : parse f.render = .ok { f with path := [] } := by
    rw [parse, lines_render h, ofLines_written h]
  refine ⟨hrender, fun t f h => ?_⟩
  obtain ⟨hnormal, hpath⟩ := normal_of_parse h
  refine ⟨hnormal, ?_⟩
  rw [hrender f hnormal, ← hpath]

/-- The signs of the format stand in a selector, in values and behind the start of a name; one
value is empty and one holds a carriage return. -/
theorem parse_render_signs :
    let f : Snapshot :=
      { isRoot := true
        sections := [⟨"#a]=[;b".toList, .ofList [("k".toList, []), ("é[".toList, "=\r#".toList)]⟩] }
    let g : Snapshot := { sections := [⟨"*".toList, .ofList [("k".toList, "v".toList)]⟩] }
    f.Normal ∧ parse f.render = .ok f ∧
      parse "[ * ]\r\nK=v".toList = .ok g ∧ g.Normal ∧ parse g.render = .ok g := by
  intro f g
  have hf : f.Normal := by decide
  have hg : parse "[ * ]\r\nK=v".toList = .ok g := rfl
  exact ⟨hf, parse_render.1 f hf, hg, parse_render.2 _ g hg⟩

end Snapshot

end EditorConfig
