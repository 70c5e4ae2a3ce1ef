import EditorConfig.Resolver

/-!
# Stacked sections

The definitions of several sections, merged from the nearest one on, select one value for each
setting.

* `Setting.first`           the first setting of a list that is not absent;
* `Definition.stacked`      the definition of sections, the nearest one first;
* `Resolution.stackedOn`    a resolution with farther sections added to it.

Main statement: each field of stacked sections is the first one that a section sets
(`Definition.stacked_eq`), and sections may be stacked in groups (`stackedOn_append`).
-/

namespace EditorConfig

namespace Setting

variable {α : Type}

/-- The first setting that is not absent, if there is one. -/
def first (l : List (Setting α)) : Setting α := (l.find? fun s => !s.isAbsent).getD .absent

theorem first_cons (s : Setting α) (l : List (Setting α)) : first (s :: l) = s.or (first l) := by
  cases s with
  | absent => rfl
  | unset => rfl
  | value a => rfl

end Setting

namespace Properties

theorem or_empty (ps : Properties) : ps.or empty = ps := by
  refine ext_get? fun name => ?_
  rw [get?_or, get?_empty, Option.or_none]

theorem empty_or (ps : Properties) : empty.or ps = ps := by
  refine ext_get? fun name => ?_
  rw [get?_or, get?_empty, Option.none_or]

theorem or_assoc (ps qs rs : Properties) : (ps.or qs).or rs = ps.or (qs.or rs) := by
  refine ext_get? fun name => ?_
  rw [get?_or, get?_or, get?_or, get?_or, Option.or_assoc]

theorem get?_foldr_or {α : Type} (f : α → Properties) (l : List α) (name : Text) :
    (l.foldr (fun a ps => (f a).or ps) empty).get? name
      = l.findSome? fun a => (f a).get? name := by
  induction l with
  | nil => rfl
  | cons a l ih =>
    rw [List.foldr_cons, get?_or, ih, List.findSome?_cons]
    cases (f a).get? name with
    | none => rfl
    | some v => rfl

end Properties

namespace Definition

/-! ## Merging -/

theorem merged_assoc (a b c : Definition) : (a.merged b).merged c = a.merged (b.merged c) := by
  simp only [merged, Option.or_assoc, Setting.or_assoc, Properties.or_assoc]

theorem merged_empty (d : Definition) : d.merged {} = d := by
  simp only [merged, Option.or_none, Setting.or_absent, Properties.or_empty]

theorem empty_merged {d : Definition} (h : d.version = none) : ({} : Definition).merged d = d := by
  simp only [merged, Option.none_or, Setting.absent_or, Properties.empty_or, ← h]

/-! ## Stacking -/

/-- The definition of sections, the nearest one first. -/
def stacked (ss : List Section) : Definition :=
  ss.foldr (fun s d => (ofProperties s.properties).merged d) {}

theorem stacked_cons (s : Section) (ss : List Section) :
    stacked (s :: ss) = (ofProperties s.properties).merged (stacked ss) := rfl

theorem version_stacked (ss : List Section) : (stacked ss).version = none := by
  cases ss with
  | nil => rfl
  | cons s ss => rfl

theorem stacked_append (ss ts : List Section) :
    stacked (ss ++ ts) = (stacked ss).merged (stacked ts) := by
  induction ss with
  | nil => exact (empty_merged (version_stacked ts)).symm
  | cons s ss ih => rw [List.cons_append, stacked_cons, ih, stacked_cons, merged_assoc]

/-- Every field of stacked sections is the first one that a section sets; a section hides the raw
properties of those behind it. -/
theorem stacked_eq (ss : List Section) :
    let ds := ss.map fun s => ofProperties s.properties
    stacked ss =
      { charset := ds.findSome? charset
        indentStyle := ds.findSome? indentStyle
        indentSize := ds.findSome? indentSize
        tabWidth := .first (ds.map tabWidth)
        endOfLine := ds.findSome? endOfLine
        trimTrailingWhitespace := .first (ds.map trimTrailingWhitespace)
        insertFinalNewline := .first (ds.map insertFinalNewline)
        raw := ss.foldr (fun s ps => s.properties.or ps) .empty } := by
  induction ss with
  | nil => rfl
  | cons s ss ih =>
    have findSome (f : Definition → Option Text) (d : Definition) (ds : List Definition) :
        (d :: ds).findSome? f = (f d).or (ds.findSome? f) := by
      rw [List.findSome?_cons]
      cases f d with
      | none => rfl
      | some v => rfl
    rw [stacked_cons, ih]
    simp only [List.map_cons, findSome, Setting.first_cons, List.foldr_cons]
    rfl

theorem get?_raw_stacked (ss : List Section) (name : Text) :
    (stacked ss).raw.get? name = ss.findSome? fun s => s.properties.get? name := by
  rw [stacked_eq]
  exact Properties.get?_foldr_or Section.properties ss name

end Definition

namespace Resolution

/-- A resolution with farther sections, the nearest of them first. -/
def stackedOn (r : Resolution) (ss : List Section) : Resolution :=
  r.add (.stacked ss) (ss.flatMap fun s => Definition.warnings s.properties)

theorem stackedOn_nil (r : Resolution) : r.stackedOn [] = r := by
  rw [stackedOn, add]
  show Resolution.mk (r.definition.merged {}) (r.warnings ++ []) = r
  rw [Definition.merged_empty, List.append_nil]

theorem stackedOn_append (r : Resolution) (ss ts : List Section) :
    r.stackedOn (ss ++ ts) = (r.stackedOn ss).stackedOn ts := by
  simp only [stackedOn, add, Definition.stacked_append, Definition.merged_assoc,
    List.flatMap_append, List.append_assoc]

theorem stackedOn_cons (r : Resolution) (s : Section) (ss : List Section) :
    r.stackedOn (s :: ss)
      = (r.add (Definition.ofProperties s.properties)
          (Definition.warnings s.properties)).stackedOn ss := by
  simp only [stackedOn, add, Definition.stacked_cons, Definition.merged_assoc,
    List.flatMap_cons, List.append_assoc]

theorem empty_stackedOn (ss : List Section) :
    ({} : Resolution).stackedOn ss
      = ⟨.stacked ss, ss.flatMap fun s => Definition.warnings s.properties⟩ := by
  rw [stackedOn, add, Definition.empty_merged (Definition.version_stacked ss)]
  rfl

theorem add_stackedOn (r : Resolution) (ss : List Section) :
    r.add (({} : Resolution).stackedOn ss).definition (({} : Resolution).stackedOn ss).warnings
      = r.stackedOn ss := by
  rw [empty_stackedOn]
  rfl

end Resolution

end EditorConfig
