import EditorConfig.Proofs.Definition.Report
import EditorConfig.Proofs.Resolver.Warnings

/-!
# Truth values that do not read

A truth value that does not read is no typed setting, but it stays among the raw properties.

* `Property.truths`      the properties whose values are truth values;
* `Properties.mended`    a map without the truth values that are refused;
* `Source.mended`        a source without them.

Main statement: without the refused truth values a resolution has the same typed settings.  Its
report is the same exactly when no truth value is declared by matching sections that are all
refused, since the report of the resolution as it was has the nearest of these (`resolve_mended`).
-/

namespace EditorConfig

/-! ## Maps -/

namespace Properties

theorem find?_filter (p : Text → Text → Bool) (name : Text) {es : List (Text × Text)}
    (h : es.Pairwise fun a b => a.1 < b.1) :
    find? name (es.filter fun e => p e.1 e.2) = (find? name es).filter (p name) := by
  induction es with
  | nil => rfl
  | cons e es ih =>
    have ⟨he, hes⟩ := List.pairwise_cons.1 h
    have ih := ih hes
    by_cases hp : p e.1 e.2 = true
    · rw [List.filter_cons_of_pos (p := fun e => p e.1 e.2) (a := e) hp, find?, find?, ih]
      split
      · next heq => rw [Option.filter_some_pos (heq ▸ hp)]
      · rfl
    · rw [List.filter_cons_of_neg (p := fun e => p e.1 e.2) (a := e) hp, find?, ih]
      split
      · next heq =>
        have honly : find? e.1 es = none := find?_eq_none_of_lt he
        rw [← heq, honly, Option.filter_some_neg (Bool.not_eq_true _ ▸ hp)]
        rfl
      · rfl

/-- The entries that pass a test. -/
def filter (p : Text → Text → Bool) (ps : Properties) : Properties where
  entries := ps.entries.filter fun e => p e.1 e.2
  ascending := ps.ascending.filter _

theorem get?_filter (p : Text → Text → Bool) (ps : Properties) (name : Text) :
    (ps.filter p).get? name = (ps.get? name).filter (p name) := find?_filter p name ps.ascending

end Properties

/-! ## Mended sections -/

/-- The properties whose values are truth values. -/
def Property.truths : List Text := [trimTrailingWhitespace, insertFinalNewline]

/-- The map without the truth values that are refused. -/
def Properties.mended (ps : Properties) : Properties :=
  ps.filter fun name v => !Property.truths.contains name || (Value.refusal? Value.truth v).isNone

def Section.mended (s : Section) : Section := { s with properties := s.properties.mended }

def Snapshot.mended (file : Snapshot) : Snapshot :=
  { file with sections := file.sections.map Section.mended }

def Source.mended (src : Source) : Source := fun path => (src path).map Snapshot.mended

section
variable {ps : Properties} {name : Text}

theorem Properties.get?_mended_of_mem (h : name ∈ Property.truths) :
    ps.mended.get? name = (ps.get? name).filter fun v => (Value.refusal? Value.truth v).isNone := by
  rw [mended, get?_filter, List.contains_iff_mem.2 h]
  rfl

theorem Properties.get?_mended_of_not_mem (h : name ∉ Property.truths) :
    ps.mended.get? name = ps.get? name := by
  rw [mended, get?_filter]
  cases ps.get? name with
  | none => rfl
  | some v => simp [h]

/-- A refused value declares as little as none. -/
theorem Setting.declared_mended (h : name ∈ Property.truths) :
    declared Value.truth name ps.mended = declared Value.truth name ps := by
  unfold declared
  rw [Properties.get?_mended_of_mem h]
  cases ps.get? name with
  | none => rfl
  | some v =>
    cases hf : Value.refusal? Value.truth v with
    | none => rw [Option.filter_some_pos (a := v) (by rw [hf]; rfl)]
    | some f =>
      obtain ⟨hu, hr⟩ := Value.refusal?_eq_some_iff.1 hf
      rw [Option.filter_some_neg (a := v) (by rw [hf]; rfl)]
      simp only [hu, hr, Bool.false_eq_true, if_false]

/-- A truth value is set wherever one is left. -/
theorem Setting.declared_eq_absent_iff (h : name ∈ Property.truths) :
    declared Value.truth name ps = .absent ↔ ps.mended.get? name = none := by
  rw [Properties.get?_mended_of_mem h]
  unfold declared Value.refusal?
  cases ps.get? name with
  | none => simp
  | some v =>
    cases hu : Value.isUnset v with
    | true => simp [hu]
    | false => cases hr : Value.truth v <;> simp [hu, hr]

end

namespace Definition

theorem ofProperties_mended (ps : Properties) :
    ofProperties ps.mended = { ofProperties ps with raw := ps.mended } := by
  have hother (name : Text) (h : name ∉ Property.truths) : ps.mended.get? name = ps.get? name :=
    Properties.get?_mended_of_not_mem h
  have htab := hother Property.tabWidth (by decide)
  have hsize := hother Property.indentSize (by decide)
  have hwidth : declaredTabWidth ps.mended = declaredTabWidth ps := by
    unfold declaredTabWidth Properties.contains
    rw [htab, hsize, Setting.declared_eq_of_get? htab]
  have htrim : Property.trimTrailingWhitespace ∈ Property.truths := by decide
  have hfinal : Property.insertFinalNewline ∈ Property.truths := by decide
  unfold ofProperties
  rw [hother Property.charset (by decide), hother Property.indentStyle (by decide), hsize,
    hother Property.endOfLine (by decide), hwidth, Setting.declared_mended htrim,
    Setting.declared_mended hfinal]

/-! ## Stacked sections -/

theorem stacked_mended (ss : List Section) :
    stacked (ss.map Section.mended)
      = { stacked ss with raw := (stacked (ss.map Section.mended)).raw } := by
  induction ss with
  | nil => rfl
  | cons s ss ih =>
    have hs : ofProperties s.mended.properties
        = { ofProperties s.properties with raw := s.mended.properties } :=
      ofProperties_mended s.properties
    rw [List.map_cons, stacked_cons, stacked_cons, ih, hs]
    rfl

theorem get?_raw_stacked_mended (ss : List Section) (name : Text) :
    (stacked (ss.map Section.mended)).raw.get? name
      = ss.findSome? fun s => s.properties.mended.get? name := by
  rw [get?_raw_stacked, List.findSome?_map]
  rfl

theorem typedText?_merged (d parent : Definition) (name : Text) :
    (d.merged parent).typedText? name = (d.typedText? name).or (parent.typedText? name) := by
  have htext {α : Type} (write : α → Text) (s t : Setting α) :
      (s.or t).text? write = (s.text? write).or (t.text? write) := by cases s <;> rfl
  unfold typedText? merged
  split_ifs <;> first | rfl | exact htext _ _ _

theorem typedText?_ofProperties_eq_none_iff {ps : Properties} {name : Text}
    (h : name ∈ Property.truths) :
    (ofProperties ps).typedText? name = none ↔ ps.mended.get? name = none := by
  have htext (s : Setting Bool) : s.text? Value.ofTruth = none ↔ s = .absent := by
    cases s <;> simp [Setting.text?]
  rw [← Setting.declared_eq_absent_iff h, ← htext]
  rcases List.mem_pair.1 h with rfl | rfl
  · rfl
  · rfl

/-- A truth value is set exactly when a section declares one that is not refused. -/
theorem typedText?_stacked_eq_none_iff (ss : List Section) {name : Text}
    (h : name ∈ Property.truths) :
    (stacked ss).typedText? name = none
      ↔ (stacked (ss.map Section.mended)).raw.get? name = none := by
  rw [get?_raw_stacked_mended, List.findSome?_eq_none_iff]
  induction ss with
  | nil =>
    have hnone : (stacked []).typedText? name = none := by
      rcases List.mem_pair.1 h with rfl | rfl
      · rfl
      · rfl
    simp [hnone]
  | cons s ss ih =>
    rw [stacked_cons, typedText?_merged, Option.or_eq_none_iff, ih,
      typedText?_ofProperties_eq_none_iff h, List.forall_mem_cons]

/-! ## Reports -/

section
variable {d : Definition} {raw : Properties} {name : Text}

theorem get?_report_of_mem_truths (h : name ∈ Property.truths) :
    d.report.get? name = (d.raw.get? name).map fun value => (d.typedText? name).getD value := by
  rcases List.mem_pair.1 h with rfl | rfl
  · exact get?_report_of_ne (by decide) (by decide)
  · exact get?_report_of_ne (by decide) (by decide)

/-- What is reported under another name depends on raw properties with other names only. -/
theorem get?_report_of_not_mem_truths
    (hraw : ∀ name ∉ Property.truths, raw.get? name = d.raw.get? name)
    (h : name ∉ Property.truths) :
    ({ d with raw } : Definition).report.get? name = d.report.get? name := by
  have hsize : ({ d with raw } : Definition).impliedIndentSize? = d.impliedIndentSize? := by
    unfold impliedIndentSize? Properties.contains
    rw [hraw Property.indentSize (by decide)]
    rfl
  have hwidth : ({ d with raw } : Definition).impliedTabWidth? = d.impliedTabWidth? := by
    unfold impliedTabWidth? Properties.contains
    rw [hraw Property.tabWidth (by decide)]
  rw [get?_report, get?_report, hsize, hwidth, hraw name h]
  rfl

end

/-- What the definition `d` of sections shares with the definition `d'` of the mended ones. -/
structure MendedAs (d d' : Definition) : Prop where
  typed : d' = { d with raw := d'.raw }
  other : ∀ name ∉ Property.truths, d'.raw.get? name = d.raw.get? name
  set_iff : ∀ name ∈ Property.truths, d.typedText? name = none ↔ d'.raw.get? name = none
  declared : ∀ name ∈ Property.truths, d.raw.get? name = none → d'.raw.get? name = none

theorem mendedAs_stacked (ss : List Section) (version : Option Version) :
    MendedAs { stacked ss with version } { stacked (ss.map Section.mended) with version } where
  typed := by
    rw [stacked_mended]
  other name h := by
    refine (get?_raw_stacked_mended ss name).trans (Eq.trans ?_ (get?_raw_stacked ss name).symm)
    simp only [Properties.get?_mended_of_not_mem h]
  set_iff _ h := typedText?_stacked_eq_none_iff ss h
  declared name h hraw := by
    refine (get?_raw_stacked_mended ss name).trans (List.findSome?_eq_none_iff.2 fun s hs => ?_)
    have hnone : s.properties.get? name = none :=
      List.findSome?_eq_none_iff.1 ((get?_raw_stacked ss name).symm.trans hraw) s hs
    rw [Properties.get?_mended_of_mem h, hnone]
    rfl

section
variable {d d' : Definition}

/-- The mended definition has truth values in its report as they are set. -/
theorem MendedAs.get?_report (h : d.MendedAs d') (name : Text) :
    d'.report.get? name
      = if name ∈ Property.truths then d.typedText? name else d.report.get? name := by
  split
  · next hname =>
    have htext : d'.typedText? name = d.typedText? name := by
      rw [h.typed]
      rfl
    rw [get?_report_of_mem_truths hname, htext]
    cases ht : d.typedText? name with
    | none =>
      rw [(h.set_iff name hname).1 ht]
      rfl
    | some t =>
      have hdeclared : d'.raw.get? name ≠ none := fun hnone => by
        rw [(h.set_iff name hname).2 hnone] at ht
        cases ht
      obtain ⟨v, hv⟩ := Option.ne_none_iff_exists'.1 hdeclared
      rw [hv]
      rfl
  · next hname =>
    rw [h.typed]
    exact get?_report_of_not_mem_truths h.other hname

/-- The reports are the same unless a truth value is declared, but not set. -/
theorem MendedAs.report_eq_iff (h : d.MendedAs d') :
    d'.report = d.report ↔
      ∀ name ∈ Property.truths, d.raw.get? name ≠ none → d'.raw.get? name ≠ none := by
  constructor
  · intro heq name hname hdeclared hnone
    obtain ⟨v, hv⟩ := Option.ne_none_iff_exists'.1 hdeclared
    have hreport := h.get?_report name
    rw [heq, if_pos hname, (h.set_iff name hname).2 hnone, get?_report_of_mem_truths hname,
      hv] at hreport
    cases hreport
  · intro hall
    refine Properties.ext_get? fun name => ?_
    rw [h.get?_report]
    split
    · next hname =>
      rw [get?_report_of_mem_truths hname]
      cases hv : d.raw.get? name with
      | none => exact (h.set_iff name hname).2 (h.declared name hname hv)
      | some v =>
        have hset : d.typedText? name ≠ none := fun hnone =>
          hall name hname (by simp [hv]) ((h.set_iff name hname).1 hnone)
        obtain ⟨t, ht⟩ := Option.ne_none_iff_exists'.1 hset
        rw [ht]
        rfl
    · rfl

end

theorem get?_raw_stacked_ne_none_iff (ss : List Section) (name : Text) :
    (stacked ss).raw.get? name ≠ none ↔ ∃ s ∈ ss, s.properties.contains name = true := by
  rw [get?_raw_stacked, ne_eq, List.findSome?_eq_none_iff]
  simp only [not_forall, exists_prop, Properties.contains, Option.isSome_iff_ne_none, ne_eq]

end Definition

/-! ## Mended sources -/

theorem Snapshot.matching_mended [Regex.Engine] (file : Snapshot) (rest : List Text) :
    file.mended.matching rest = (file.matching rest).map Section.mended := by
  rw [matching, matching, mended, ← List.map_reverse, List.filter_map]
  rfl

namespace Resolver

variable {r : Resolver} {src : Source}

theorem sections_mended [Regex.Engine] (names : List Text) :
    r.sections src.mended names = (r.sections src names).map Section.mended := by
  have hfound : r.found src.mended names
      = (r.found src names).map fun f => (f.1.mended, f.2) := by
    rw [found, found, List.map_filterMap]
    congr 1
    funext k
    rw [Source.mended]
    cases src (r.configPath (names.take k)) with
    | error e => rfl
    | ok file => rfl
  rw [sections, hfound, upTo_map, List.flatMap_map, sections, List.map_flatMap]
  simp only [Snapshot.matching_mended]
  rfl

theorem walk_mended_eq_error [Regex.Engine] (dirs : List (List Text × List Text))
    (x : ResolveError) :
    (r.walk src.mended {} {} dirs).1 = .error x ↔ (r.walk src {} {} dirs).1 = .error x := by
  have hends : endsWalk ∘ src.mended = endsWalk ∘ src := by
    funext path
    show endsWalk ((src path).map Snapshot.mended) = endsWalk (src path)
    cases src path with
    | error e => rfl
    | ok file => rfl
  have herror (path : Text) (e : SourceError) :
      src.mended path = .error e ↔ src path = .error e := by
    rw [Source.mended]
    cases src path <;> simp [Except.map]
  refine (walk_eq_error {} [] {} dirs x).trans (Iff.trans ?_ (walk_eq_error {} [] {} dirs x).symm)
  simp only [hends, herror]

theorem resolve_mended_eq_error [Regex.Engine] (home : Option Text) (target : Text)
    (x : ResolveError) :
    (r.resolve home src.mended target {}).1 = .error x
      ↔ (r.resolve home src target {}).1 = .error x := by
  cases hn : Path.absolute? home target with
  | none => rw [resolve, resolve, hn]
  | some names =>
    cases hv : r.requestedVersion with
    | error e =>
      rw [resolve, resolve, hn]
      simp only [hv]
    | ok version =>
      have hmap (out : Except ResolveError Resolution) :
          (out.map fun found => { found with definition.version := version }) = .error x
            ↔ out = .error x := by
        cases out <;> simp [Except.map]
      rw [resolve_eq_walk hn hv, resolve_eq_walk hn hv, hmap, hmap]
      exact walk_mended_eq_error _ x

/-- **Refused truth values.**  A resolution fails with the same error when the truth values that
are refused are taken out of all sections, or else has the same version and the same typed
settings.  In the report the two truth values are then written as they are set, if they are; they
were before as well, unless all matching sections that declare one of them have it refused. -/
theorem resolve_mended [Regex.Engine] {s s' : Session} (hs : s.Faithful r src)
    (hs' : s'.Faithful r src.mended) (home : Option Text) (target : Text) :
    (∀ x, (r.resolve home src.mended target s').1 = .error x
      ↔ (r.resolve home src target s).1 = .error x) ∧
    ∀ res, (r.resolve home src target s).1 = .ok res → ∃ names res',
      Path.absolute? home target = some names ∧
      (r.resolve home src.mended target s').1 = .ok res' ∧
      let d := res.definition
      let d' := res'.definition
      d' = { d with raw := d'.raw } ∧
      (∀ name, d'.report.get? name
        = if name ∈ Property.truths then d.typedText? name else d.report.get? name) ∧
      (d'.report = d.report ↔ ∀ name ∈ Property.truths,
        (∃ sec ∈ r.sections src names, sec.properties.contains name = true) →
          ∃ sec ∈ r.sections src names, sec.properties.mended.contains name = true) := by
  have hfresh := (Session.resolve_faithful hs home target).1
  have hfresh' := (Session.resolve_faithful hs' home target).1
  rw [hfresh, hfresh']
  refine ⟨resolve_mended_eq_error home target, fun res h => ?_⟩
  obtain ⟨names, hn⟩ := absolute?_of_resolve_eq_ok h
  cases h' : (r.resolve home src.mended target {}).1 with
  | error x =>
    rw [(resolve_mended_eq_error home target x).1 h'] at h
    cases h
  | ok res' =>
    obtain ⟨version, hv, rfl⟩ := resolve_eq_ok hn h
    obtain ⟨version', hv', rfl⟩ := resolve_eq_ok hn h'
    obtain rfl : version = version' := Option.some.inj (hv.symm.trans hv')
    refine ⟨names, _, hn, rfl, ?_⟩
    rw [Resolution.empty_stackedOn, Resolution.empty_stackedOn, sections_mended]
    have hmended := Definition.mendedAs_stacked (r.sections src names) version
    refine ⟨hmended.typed, hmended.get?_report, hmended.report_eq_iff.trans ?_⟩
    simp only [Definition.get?_raw_stacked_ne_none_iff, List.mem_map, exists_exists_and_eq_and]
    rfl

/-! ## One root file -/

/-- A root file with sections that declare the final newline one after the other. -/
def newlineFile (vs : List Text) : Snapshot where
  isRoot := true
  sections := vs.map fun v => ⟨['*'], .ofList [(Property.insertFinalNewline, v)]⟩

theorem sections_newlineFile [Regex.Engine] (vs : List Text) :
    ({} : Resolver).sections (fun _ => .ok (newlineFile vs)) [['x']]
      = (newlineFile vs).sections.reverse := by
  have hstar : ∀ sec ∈ (newlineFile vs).sections, sec.selector = ['*'] := by simp [newlineFile]
  show (newlineFile vs).matching [['x']] ++ [] = _
  rw [Snapshot.matching_of_star hstar (d := []) (b := ['x']) rfl (by decide) (.inl rfl) (by decide),
    List.append_nil]

/-- A refused value that hides a truth value does not show in the report. -/
theorem resolve_mended_hiding :
    let src : Source := fun _ => .ok (newlineFile ["true".toList, "maybe".toList])
    let s := Session.opened (some (some 1)) none
    s.Faithful {} src ∧ s.Faithful {} src.mended ∧
      ∃ res res', (({} : Resolver).resolve none src "/x".toList s).1 = .ok res ∧
        (({} : Resolver).resolve none src.mended "/x".toList s).1 = .ok res' ∧
        res.definition.raw.get? Property.insertFinalNewline = some "maybe".toList ∧
        res'.definition.report = res.definition.report ∧
        res.definition.report.get? Property.insertFinalNewline = some "true".toList := by
  intro src s
  have hs : s.Faithful {} src := Session.faithful_opened _ _
  have hs' : s.Faithful {} src.mended := Session.faithful_opened _ _
  have hn : Path.absolute? none "/x".toList = some [['x']] := by decide
  obtain ⟨res, h⟩ := exists_resolve_eq_ok hs hn rfl (fun path e he => by cases he)
  obtain ⟨names, res', hnames, h', -, -, hreport⟩ :=
    (resolve_mended hs hs' none "/x".toList).2 res h
  obtain rfl : [['x']] = names := Option.some.inj (hn.symm.trans hnames)
  rw [sections_newlineFile] at hreport
  have hdefinition :
      res.definition.raw.get? Property.insertFinalNewline = some "maybe".toList ∧
        res.definition.report.get? Property.insertFinalNewline = some "true".toList := by
    rw [(Session.resolve_faithful hs none _).1] at h
    obtain ⟨version, -, rfl⟩ := resolve_eq_ok hn h
    rw [Resolution.empty_stackedOn, sections_newlineFile]
    exact ⟨rfl, rfl⟩
  exact ⟨hs, hs', res, res', h, h', hdefinition.1, hreport.2 (by decide), hdefinition.2⟩

/-- A refused value that is declared alone is reported as it is written. -/
theorem report_resolve_refused :
    let src : Source := fun _ => .ok (newlineFile ["maybe".toList])
    ∃ res res', (({} : Resolver).resolve none src "/x".toList {}).1 = .ok res ∧
      (({} : Resolver).resolve none src.mended "/x".toList {}).1 = .ok res' ∧
      res.definition.report = .ofList [(Property.insertFinalNewline, "maybe".toList)] ∧
      res'.definition.report = .empty ∧ res'.definition.report ≠ res.definition.report := by
  intro src
  have hn : Path.absolute? none "/x".toList = some [['x']] := by decide
  have hs : ({} : Session).Faithful {} src := Session.faithful_uncached
  have hs' : ({} : Session).Faithful {} src.mended := Session.faithful_uncached
  obtain ⟨res, h⟩ := exists_resolve_eq_ok hs hn rfl (fun path e he => by cases he)
  obtain ⟨res', h'⟩ := exists_resolve_eq_ok hs' hn rfl (fun path e he => by cases he)
  have hreport : res.definition.report
      = .ofList [(Property.insertFinalNewline, "maybe".toList)] := by
    obtain ⟨version, hv, rfl⟩ := resolve_eq_ok hn h
    cases hv
    rw [Resolution.empty_stackedOn, sections_newlineFile]
    decide
  have hreport' : res'.definition.report = .empty := by
    obtain ⟨version, hv, rfl⟩ := resolve_eq_ok hn h'
    cases hv
    rw [Resolution.empty_stackedOn, sections_mended, sections_newlineFile]
    decide
  refine ⟨res, res', h, h', hreport, hreport', ?_⟩
  rw [hreport, hreport']
  decide

end Resolver

end EditorConfig
