import EditorConfig.Proofs.Definition.Agreement
import EditorConfig.Proofs.Stack

/-!
# Laws of merging

Merging fills gaps, field by field and name by name.

* `Definition.piled`      definitions merged one after the other, the nearest one first;
* `Setting.Reads`         a declared value is `unset` or reads;
* `Definition.Readable`   the three properties of a section whose values have to read do so.

Main statements: definitions that are piled up file by file are those that are piled up at once
(`merging_laws`); two sections may be merged before or after their definitions are made, as long as
their values read and the nearer one has no indent size without a tab width (`ofProperties_or`).
-/

namespace EditorConfig

namespace Setting

variable {α : Type}

theorem or_or_self (s t : Setting α) : (s.or t).or s = s.or t := by
  cases s with
  | absent => exact or_absent t
  | unset => rfl
  | value a => rfl

end Setting

namespace Properties

theorem or_self (ps : Properties) : ps.or ps = ps := by
  refine ext_get? fun name => ?_
  rw [get?_or, Option.or_self]

theorem or_or_self (ps qs : Properties) : (ps.or qs).or ps = ps.or qs := by
  refine ext_get? fun name => ?_
  rw [get?_or, get?_or]
  cases ps.get? name with
  | none => exact Option.or_none
  | some v => rfl

end Properties

namespace Definition

/-! ## One definition over another -/

theorem empty_merged_eq_iff {d : Definition} :
    ({} : Definition).merged d = d ↔ d.version = none := by
  constructor
  · intro h
    rw [← h]
    rfl
  · exact empty_merged

theorem merged_self (d : Definition) : d.merged d = d := by
  simp only [merged, Option.or_self, Setting.or_self, Properties.or_self]

/-- A definition that has been merged already has nothing more to give. -/
theorem merged_merged_self (a b : Definition) : (a.merged b).merged a = a.merged b := by
  have hor (s t : Option Text) : (s.or t).or s = s.or t := by
    cases s with
    | none => exact Option.or_none
    | some v => rfl
  simp only [merged, hor, Setting.or_or_self, Properties.or_or_self]

/-! ## Piles of definitions -/

/-- Definitions merged one after the other, the nearest one first. -/
def piled (ds : List Definition) : Definition := ds.foldl merged {}

theorem foldl_merged (d : Definition) (ds : List Definition) :
    ds.foldl merged d = d.merged (piled ds) := by
  induction ds generalizing d with
  | nil => exact (merged_empty d).symm
  | cons e ds ih =>
    have hpile : piled (e :: ds) = (({} : Definition).merged e).merged (piled ds) := ih _
    calc (e :: ds).foldl merged d
        = (d.merged e).merged (piled ds) := ih _
      _ = ((d.merged {}).merged e).merged (piled ds) := by rw [merged_empty]
      _ = d.merged (piled (e :: ds)) := by rw [hpile, merged_assoc, merged_assoc, merged_assoc]

theorem piled_append (ds es : List Definition) :
    piled (ds ++ es) = (piled ds).merged (piled es) := by
  rw [piled, List.foldl_append, foldl_merged]
  rfl

/-- Piles of piles are piles. -/
theorem piled_map_piled (dss : List (List Definition)) :
    piled (dss.map piled) = piled dss.flatten := by
  induction dss with
  | nil => rfl
  | cons ds dss ih =>
    have hempty : ({} : Definition).merged (piled ds) = piled ds := by
      rw [← foldl_merged]
      rfl
    rw [List.map_cons, List.flatten_cons, piled_append, ← ih, piled, List.foldl_cons, foldl_merged,
      hempty]

/-- The definition that config files stack up is a pile of the definitions of their sections. -/
theorem piled_ofProperties (ss : List Section) :
    piled (ss.map fun s => ofProperties s.properties) = stacked ss := by
  induction ss with
  | nil => rfl
  | cons s ss ih =>
    rw [List.map_cons, piled, List.foldl_cons, foldl_merged, ih, stacked_cons,
      empty_merged (d := ofProperties s.properties) rfl]

/-- **Laws of merging.**  Merging is associative and idempotent, has the empty definition for a
neutral element as far as versions go, and gains nothing from a definition that it has seen.  Hence
sections may be merged file by file or all at once, which gives what config files stack up. -/
theorem merging_laws (a b c : Definition) (files : List (List Section)) :
    (a.merged b).merged c = a.merged (b.merged c) ∧
      a.merged {} = a ∧
      (({} : Definition).merged a = a ↔ a.version = none) ∧
      a.merged a = a ∧
      (a.merged b).merged a = a.merged b ∧
      piled (files.map fun ss => piled (ss.map fun s => ofProperties s.properties))
        = piled (files.flatten.map fun s => ofProperties s.properties) ∧
      piled (files.flatten.map fun s => ofProperties s.properties) = stacked files.flatten := by
  refine ⟨merged_assoc a b c, merged_empty a, empty_merged_eq_iff, merged_self a,
    merged_merged_self a b, ?_, piled_ofProperties files.flatten⟩
  have hpiles := piled_map_piled (files.map (List.map fun s => ofProperties s.properties))
  rwa [List.map_map, ← List.map_flatten] at hpiles

end Definition

/-! ## Values that read -/

namespace Setting

variable {α : Type} {read : Text → Except Value.Fault α} {name : Text}
  {ps child parent : Properties}

/-- A declared value is `unset` or reads. -/
def Reads (read : Text → Except Value.Fault α) (declared : Option Text) : Prop :=
  ∀ v, declared = some v → Value.isUnset v = true ∨ ∃ a, read v = .ok a

theorem warnings_eq_nil_iff : warnings read name ps = [] ↔ Reads read (ps.get? name) := by
  unfold warnings Reads
  cases hv : ps.get? name with
  | none => simp
  | some v =>
    cases hu : Value.isUnset v with
    | true => simp [hu]
    | false => cases hr : read v <;> simp [hu, hr]

theorem Reads.or {v w : Option Text} (hv : Reads read v) (hw : Reads read w) :
    Reads read (v.or w) := by
  cases v with
  | none => exact hw
  | some v => exact hv

theorem declared_eq_of_get? {ps qs : Properties} (h : ps.get? name = qs.get? name) :
    declared read name ps = declared read name qs := by
  unfold declared
  rw [h]

/-- A value that reads sets something, so nothing is inherited past it. -/
theorem Reads.declared_or {v : Text} (h : Reads read (ps.get? name)) (hv : ps.get? name = some v)
    (s : Setting α) : (declared read name ps).or s = declared read name ps := by
  cases hu : Value.isUnset v with
  | true =>
    rw [declared_of_isUnset hv hu]
    rfl
  | false =>
    obtain ⟨a, ha⟩ := (h v hv).resolve_left (by simp [hu])
    rw [declared_of_ok hv hu ha]
    rfl

theorem declared_or (h : Reads read (child.get? name)) :
    declared read name (child.or parent)
      = (declared read name child).or (declared read name parent) := by
  have hget := Properties.get?_or child parent name
  cases hv : child.get? name with
  | none =>
    rw [hv, Option.none_or] at hget
    rw [declared_of_none hv, absent_or, declared_eq_of_get? hget]
  | some v =>
    rw [hv, Option.some_or, ← hv] at hget
    rw [h.declared_or hv, declared_eq_of_get? hget]

end Setting

namespace Definition

/-- The values of a section that have to read do so, or are `unset`. -/
structure Readable (ps : Properties) : Prop where
  trimTrailingWhitespace : Setting.Reads Value.truth (ps.get? Property.trimTrailingWhitespace)
  insertFinalNewline : Setting.Reads Value.truth (ps.get? Property.insertFinalNewline)
  tabWidth : Setting.Reads Value.width (ps.get? Property.tabWidth)

variable {ps child parent : Properties}

theorem warnings_eq_nil_iff : warnings ps = [] ↔ Readable ps := by
  simp only [warnings, List.append_eq_nil_iff, Setting.warnings_eq_nil_iff]
  exact ⟨fun h => ⟨h.1.1, h.1.2, h.2⟩, fun h => ⟨⟨h.1, h.2⟩, h.3⟩⟩

theorem Readable.or (hchild : Readable child) (hparent : Readable parent) :
    Readable (child.or parent) := by
  constructor <;> rw [Properties.get?_or]
  case trimTrailingWhitespace =>
    exact hchild.trimTrailingWhitespace.or hparent.trimTrailingWhitespace
  case insertFinalNewline => exact hchild.insertFinalNewline.or hparent.insertFinalNewline
  case tabWidth => exact hchild.tabWidth.or hparent.tabWidth

/-! ## Two sections in one -/

/-- A tab width is found before or after merging, unless the nearer section takes its indent size
for one while the farther section declares one. -/
theorem declaredTabWidth_or (h : Setting.Reads Value.width (child.get? Property.tabWidth))
    (hwidths : child.contains Property.tabWidth = true
      ∨ child.contains Property.indentSize = false) :
    declaredTabWidth (child.or parent) = (declaredTabWidth child).or (declaredTabWidth parent) := by
  have htab := Properties.get?_or child parent Property.tabWidth
  have hsize := Properties.get?_or child parent Property.indentSize
  cases hv : child.get? Property.tabWidth with
  | some v =>
    rw [hv, Option.some_or] at htab
    rw [declaredTabWidth_of_some hv, declaredTabWidth_of_some htab, h.declared_or hv]
    exact Setting.declared_eq_of_get? (htab.trans hv.symm)
  | none =>
    have hnone : child.get? Property.indentSize = none := by
      simpa [Properties.contains, hv] using hwidths
    rw [hv, Option.none_or] at htab
    rw [hnone, Option.none_or] at hsize
    have habsent : declaredTabWidth child = .absent := by
      rw [declaredTabWidth_of_none hv, indentWidth?, hnone]
      rfl
    rw [habsent, Setting.absent_or, declaredTabWidth, declaredTabWidth, Properties.contains,
      Properties.contains, htab, hsize, Setting.declared_eq_of_get? htab]

/-- **Two sections in one.**  When the values of two sections read, and the nearer one has no indent
size without a tab width, the definition of both their properties together is the definition of the
nearer one merged over that of the farther one; there are no warnings either way. -/
theorem ofProperties_or (hchild : Readable child) (hparent : Readable parent)
    (hwidths : child.contains Property.tabWidth = true
      ∨ child.contains Property.indentSize = false) :
    ofProperties (child.or parent) = (ofProperties child).merged (ofProperties parent) ∧
      warnings (child.or parent) = [] ∧ warnings child = [] ∧ warnings parent = [] := by
  refine ⟨?_, warnings_eq_nil_iff.2 (hchild.or hparent), warnings_eq_nil_iff.2 hchild,
    warnings_eq_nil_iff.2 hparent⟩
  simp only [ofProperties, merged, Properties.get?_or, Option.map_or,
    declaredTabWidth_or hchild.tabWidth hwidths,
    Setting.declared_or hchild.trimTrailingWhitespace,
    Setting.declared_or hchild.insertFinalNewline]

/-- An unset tab width stays unset, although both sections have a numeric indent size. -/
theorem ofProperties_or_unset :
    let child := Properties.ofList
      [(Property.tabWidth, "UNSET".toList), (Property.indentSize, ['2'])]
    let parent := Properties.ofList
      [(Property.indentSize, ['8']), (Property.trimTrailingWhitespace, ['T'])]
    Readable child ∧ Readable parent ∧ child.contains Property.tabWidth = true ∧
      ofProperties (child.or parent) = (ofProperties child).merged (ofProperties parent) ∧
      (ofProperties (child.or parent)).tabWidth = .unset ∧
      (ofProperties (child.or parent)).trimTrailingWhitespace = .value true := by
  have hchild : Readable (.ofList
      [(Property.tabWidth, "UNSET".toList), (Property.indentSize, ['2'])]) :=
    warnings_eq_nil_iff.1 (by decide)
  have hparent : Readable (.ofList
      [(Property.indentSize, ['8']), (Property.trimTrailingWhitespace, ['T'])]) :=
    warnings_eq_nil_iff.1 (by decide)
  exact ⟨hchild, hparent, by decide, (ofProperties_or hchild hparent (.inl (by decide))).1,
    by decide, by decide⟩

end Definition

end EditorConfig
