import EditorConfig.Proofs.Definition.Merging
import EditorConfig.Proofs.Resolver.Precedence
import EditorConfig.Proofs.Resolver.Transparency
import EditorConfig.Proofs.Selector.Basename
import Mathlib.Data.List.Basic

/-!
# What a resolution warns of

* `Property.checked`      the properties whose values have to read;
* `Property.refusal?`     why a value is refused under the name of such a property;
* `Properties.warning?`   the warning about what a section declares under a name.

Main statement: a resolution warns of each value that a matching section declares and that is
refused, in the order of the sections and hidden or not; it is strict exactly when there is none
(`warnings_resolve`).
-/

namespace EditorConfig

/-! ## Values that are refused -/

namespace Value

variable {α : Type} {read : Text → Except Fault α} {v : Text} {f : Fault}

/-- Why a value neither is `unset` nor reads. -/
def refusal? (read : Text → Except Fault α) (v : Text) : Option Fault :=
  if isUnset v then none
  else match read v with
    | .ok _ => none
    | .error f => some f

theorem refusal?_eq_some_iff :
    refusal? read v = some f ↔ isUnset v = false ∧ read v = .error f := by
  unfold refusal?
  cases hu : isUnset v with
  | true => simp
  | false => cases hr : read v <;> simp

end Value

namespace Property

/-- The properties whose values have to read, in the order in which they are read. -/
def checked : List Text := [trimTrailingWhitespace, insertFinalNewline, tabWidth]

/-- Why a value is refused under the name of a checked property: widths are positive numbers, the
others truth values. -/
def refusal? (name v : Text) : Option Value.Fault :=
  if name = tabWidth then Value.refusal? Value.width v else Value.refusal? Value.truth v

theorem refusal?_eq_some_iff {name v : Text} {f : Value.Fault} :
    refusal? name v = some f ↔ Value.isUnset v = false ∧
      if name = tabWidth then Value.width v = .error f else Value.truth v = .error f := by
  unfold refusal?
  split
  · exact Value.refusal?_eq_some_iff
  · exact Value.refusal?_eq_some_iff

end Property

/-! ## One section -/

/-- The warning about the value that a section declares under the name of a checked property. -/
def Properties.warning? (ps : Properties) (name : Text) : Option Warning :=
  (ps.get? name).bind fun v => (Property.refusal? name v).map fun f => ⟨name, v, f.message⟩

theorem Properties.warning?_eq_some_iff {ps : Properties} {name : Text} {w : Warning} :
    ps.warning? name = some w ↔ name = w.property ∧ ps.get? w.property = some w.value ∧
      Value.isUnset w.value = false ∧ ∃ f, w.reason = f.message ∧
        if w.property = Property.tabWidth then Value.width w.value = .error f
        else Value.truth w.value = .error f := by
  simp only [warning?, Option.bind_eq_some_iff, Option.map_eq_some_iff,
    Property.refusal?_eq_some_iff]
  constructor
  · rintro ⟨v, hv, f, ⟨hset, hf⟩, rfl⟩
    exact ⟨rfl, hv, hset, f, rfl, hf⟩
  · rintro ⟨rfl, hv, hset, f, hreason, hf⟩
    refine ⟨w.value, hv, f, ⟨hset, hf⟩, ?_⟩
    rw [← hreason]

theorem Setting.warnings_eq_toList {α : Type} (read : Text → Except Value.Fault α) (name : Text)
    (ps : Properties) :
    warnings read name ps = ((ps.get? name).bind fun v =>
      (Value.refusal? read v).map fun f => Warning.mk name v f.message).toList := by
  unfold warnings
  cases hv : ps.get? name with
  | none => rfl
  | some v =>
    cases hu : Value.isUnset v with
    | true => simp [Value.refusal?, hu]
    | false => cases hr : read v <;> simp [Value.refusal?, hu, hr]

namespace Definition

/-- A section has at most one warning for each checked property. -/
theorem warnings_eq_filterMap (ps : Properties) :
    warnings ps = Property.checked.filterMap ps.warning? := by
  have htruth {name : Text} (hname : name ≠ Property.tabWidth) :
      Setting.warnings Value.truth name ps = (ps.warning? name).toList := by
    simp only [Setting.warnings_eq_toList, Properties.warning?, Property.refusal?, hname, if_false]
  have hwidth : Setting.warnings Value.width Property.tabWidth ps
      = (ps.warning? Property.tabWidth).toList := by
    simp only [Setting.warnings_eq_toList, Properties.warning?, Property.refusal?, if_true]
  rw [warnings, htruth (by decide), htruth (by decide), hwidth, List.filterMap_eq_flatMap_toList]
  simp only [Property.checked, List.flatMap_cons, List.flatMap_nil, List.append_nil,
    List.append_assoc]

end Definition

/-! ## One file -/

/-- All sections match whose selector is a star, below a directory without line feeds. -/
theorem Snapshot.matching_of_star [Regex.Engine] {file : Snapshot} {rest : List Text} {d b : Text}
    (hstar : ∀ sec ∈ file.sections, sec.selector = ['*'])
    (hpath : '/' :: ['/'].intercalate rest = d ++ '/' :: b) (hb : '/' ∉ b)
    (hd : d = [] ∨ d.head? = some '/') (hn : '\n' ∉ d) :
    file.matching rest = file.sections.reverse := by
  rw [matching, List.filter_eq_self]
  intro sec hsec
  rw [hstar sec (List.mem_reverse.1 hsec)]
  exact (Selector.selects_star_iff (by rw [← hpath]; rfl) hb hd).2 hn

/-! ## A resolution -/

namespace Resolution

variable {res : Resolution}

theorem strict_eq_ok_iff {d : Definition} :
    res.strict = .ok d ↔ res.warnings = [] ∧ d = res.definition := by
  unfold strict
  split
  · next h => simp [h, eq_comm]
  · next h => simp [h]

theorem strict_eq_error_iff {e : ResolveError} :
    res.strict = .error e ↔ res.warnings ≠ [] ∧ e = .warnings res.warnings := by
  unfold strict
  split
  · next h => simp [h]
  · next h => simp [h, eq_comm]

end Resolution

namespace Resolver

variable {r : Resolver} {src : Source} {home : Option Text} {target : Text} {s : Session}
  {res : Resolution}

theorem absolute?_of_resolve_eq_ok [Regex.Engine] (h : (r.resolve home src target s).1 = .ok res) :
    ∃ names, Path.absolute? home target = some names := by
  cases hn : Path.absolute? home target with
  | none =>
    rw [resolve, hn] at h
    cases h
  | some names => exact ⟨names, rfl⟩

/-- A source that fails at worst for want of a file does not stop a resolution. -/
theorem exists_resolve_eq_ok [Regex.Engine] {names : List Text} {version : Option Version}
    (hs : s.Faithful r src) (hn : Path.absolute? home target = some names)
    (hv : r.requestedVersion = .ok version)
    (hsrc : ∀ path e, src path = .error e → e.isMissing = true) :
    ∃ res, (r.resolve home src target s).1 = .ok res := by
  rw [(Session.resolve_faithful hs home target).1, resolve_eq_walk hn hv]
  cases hw : (r.walk src {} {} (Path.ancestors names)).1 with
  | ok found => exact ⟨_, rfl⟩
  | error x =>
    obtain ⟨path, e, -, -, he, hfatal⟩ := (walk_eq_error {} [] {} _ x).1 hw
    rw [hsrc path e he] at hfatal
    cases hfatal

theorem warnings_eq_flatMap [Regex.Engine] {names : List Text} (hs : s.Faithful r src)
    (hn : Path.absolute? home target = some names) (h : (r.resolve home src target s).1 = .ok res) :
    res.warnings
      = (r.sections src names).flatMap fun sec => Definition.warnings sec.properties := by
  rw [(Session.resolve_faithful hs home target).1] at h
  obtain ⟨version, -, rfl⟩ := resolve_eq_ok hn h
  rw [Resolution.empty_stackedOn]

/-- **What a resolution warns of.**  The warnings are those of the matching sections one after the
other, at most one for each checked property.  There is one for each value that a matching section
declares and that neither is `unset` nor reads, whether a nearer section hides it or not.  A strict
resolution has the same definition if there is no such value, and otherwise fails with these
warnings. -/
theorem warnings_resolve [Regex.Engine] (hs : s.Faithful r src)
    (h : (r.resolve home src target s).1 = .ok res) :
    ∃ names, Path.absolute? home target = some names ∧
      let ss := r.sections src names
      res.warnings
          = ss.flatMap (fun sec => Property.checked.filterMap sec.properties.warning?) ∧
        (∀ w, w ∈ res.warnings ↔ w.property ∈ Property.checked ∧
          (∃ sec ∈ ss, sec.properties.get? w.property = some w.value) ∧
          Value.isUnset w.value = false ∧ ∃ f, w.reason = f.message ∧
            if w.property = Property.tabWidth then Value.width w.value = .error f
            else Value.truth w.value = .error f) ∧
        (∀ d, res.strict = .ok d
          ↔ d = res.definition ∧ ∀ sec ∈ ss, Definition.Readable sec.properties) ∧
        ∀ e, res.strict = .error e
          ↔ e = .warnings res.warnings ∧ ∃ sec ∈ ss, ¬Definition.Readable sec.properties := by
  obtain ⟨names, hn⟩ := absolute?_of_resolve_eq_ok h
  have hflat := warnings_eq_flatMap hs hn h
  have hnil : res.warnings = []
      ↔ ∀ sec ∈ r.sections src names, Definition.Readable sec.properties := by
    rw [hflat, List.flatMap_eq_nil_iff]
    simp only [Definition.warnings_eq_nil_iff]
  simp only [Definition.warnings_eq_filterMap] at hflat
  refine ⟨names, hn, hflat, fun w => ?_, fun d => ?_, fun e => ?_⟩
  · simp only [hflat, List.mem_flatMap, List.mem_filterMap, Properties.warning?_eq_some_iff]
    constructor
    · rintro ⟨sec, hsec, name, hname, rfl, hdeclared, hrefused⟩
      exact ⟨hname, ⟨sec, hsec, hdeclared⟩, hrefused⟩
    · rintro ⟨hname, ⟨sec, hsec, hdeclared⟩, hrefused⟩
      exact ⟨sec, hsec, w.property, hname, rfl, hdeclared, hrefused⟩
  · rw [Resolution.strict_eq_ok_iff, hnil, and_comm]
  · rw [Resolution.strict_eq_error_iff, ne_eq, hnil, and_comm]
    simp only [not_forall, exists_prop]

/-! ## The same file twice -/

/-- A config file whose last section hides a tab width that does not read. -/
def hidingFile : Snapshot where
  sections := [⟨['*'], .ofList [(Property.tabWidth, "wide".toList)]⟩,
    ⟨['*'], .ofList [(Property.tabWidth, ['4']), (Property.insertFinalNewline, ['2'])]⟩]

theorem sections_hidingFile [Regex.Engine] :
    ({} : Resolver).sections (fun _ => .ok hidingFile) [['a'], ['x']]
      = hidingFile.sections.reverse ++ hidingFile.sections.reverse := by
  show hidingFile.matching [['x']] ++ (hidingFile.matching [['a'], ['x']] ++ []) = _
  have hstar : ∀ sec ∈ hidingFile.sections, sec.selector = ['*'] := by simp [hidingFile]
  rw [Snapshot.matching_of_star hstar (d := []) (b := ['x']) rfl (by decide) (.inl rfl) (by decide),
    Snapshot.matching_of_star hstar (d := ['/', 'a']) (b := ['x']) rfl (by decide) (.inr rfl)
      (by decide),
    List.append_nil]

/-- The hidden tab width is warned of as well, once for each directory that has the file. -/
theorem warnings_resolve_hidingFile :
    let src : Source := fun _ => .ok hidingFile
    let s := Session.opened (some (some 1)) none
    let notTruth : Warning :=
      ⟨Property.insertFinalNewline, ['2'], "expected true or false".toList⟩
    let notWidth : Warning :=
      ⟨Property.tabWidth, "wide".toList, "invalid digit found in string".toList⟩
    s.Faithful {} src ∧
      ∃ res, (({} : Resolver).resolve none src "/a/x".toList s).1 = .ok res ∧
        res.definition.tabWidth = .value 4 ∧
        res.warnings = [notTruth, notWidth, notTruth, notWidth] ∧
        res.strict = .error (.warnings res.warnings) := by
  intro src s notTruth notWidth
  have hs : s.Faithful {} src := Session.faithful_opened _ _
  have hn : Path.absolute? none "/a/x".toList = some [['a'], ['x']] := by decide
  obtain ⟨res, h⟩ := exists_resolve_eq_ok hs hn rfl (fun path e he => by cases he)
  obtain ⟨names, hnames, hwarnings, -, -, herror⟩ := warnings_resolve hs h
  obtain rfl : [['a'], ['x']] = names := Option.some.inj (hn.symm.trans hnames)
  rw [sections_hidingFile] at hwarnings herror
  refine ⟨hs, res, h, ?_, hwarnings, (herror _).2 ⟨rfl, ?_⟩⟩
  · rw [(Session.resolve_faithful hs none _).1] at h
    obtain ⟨version, -, rfl⟩ := resolve_eq_ok hn h
    rw [Resolution.empty_stackedOn, sections_hidingFile]
    rfl
  · refine ⟨⟨['*'], .ofList [(Property.tabWidth, "wide".toList)]⟩, by decide, fun hreads => ?_⟩
    exact absurd (Definition.warnings_eq_nil_iff.2 hreads) (by decide)

end Resolver

end EditorConfig
