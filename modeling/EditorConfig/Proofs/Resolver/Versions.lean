import EditorConfig.Proofs.Definition.FixedPoint
import EditorConfig.Proofs.Resolver.Warnings

/-!
# One target for two versions

* `Version.Recent`          no version, or one that is not older than 0.9.0;
* `Definition.forVersion`   the same settings for another version;
* `Definition.OnlyTab`      the style is `tab`, and nothing else gives a width;
* `Definition.TabShows`     two reports that agree but for this style.

Main statement: two requests that differ in their versions read the same files and find the same
settings; the reports differ only where a recent version shows the tab style (`resolve_versions`).
-/

namespace EditorConfig

/-! ## Recent versions -/

namespace Version

/-- No version, or one that is not older than 0.9.0; the pre-releases of 0.9.0 are older. -/
def Recent (v : Option Version) : Prop :=
  ∀ x, v = some x → 0 < x.major ∨ 9 < x.minor ∨ x.minor = 9 ∧ (0 < x.patch ∨ x.pre = [])

theorem preOrder_nil_eq_lt_iff (ids : List Text) : preOrder ids [] = .lt ↔ ids ≠ [] := by
  cases ids <;> simp [preOrder]

theorem order_tabSizeVersion_eq_lt_iff (x : Version) :
    x.order Definition.tabSizeVersion = .lt
      ↔ x.major = 0 ∧ (x.minor < 9 ∨ x.minor = 9 ∧ x.patch = 0 ∧ x.pre ≠ []) := by
  have hpre : preOrder x.pre Definition.tabSizeVersion.pre = .lt ↔ x.pre ≠ [] :=
    preOrder_nil_eq_lt_iff x.pre
  simp only [order, Ordering.then_eq_lt, Nat.compare_eq_lt, Nat.compare_eq_eq, hpre]
  simp [Definition.tabSizeVersion]

theorem recent_iff (v : Option Version) :
    Recent v ↔ v.all (·.atLeast Definition.tabSizeVersion) = true := by
  cases v with
  | none => simp [Recent]
  | some x =>
    have horder := order_tabSizeVersion_eq_lt_iff x
    have hrecent : Recent (some x)
        ↔ 0 < x.major ∨ 9 < x.minor ∨ x.minor = 9 ∧ (0 < x.patch ∨ x.pre = []) := by
      simp [Recent]
    have hleast : x.atLeast Definition.tabSizeVersion = true
        ↔ ¬x.order Definition.tabSizeVersion = .lt := bne_iff_ne
    rw [Option.all_some, hleast, horder, hrecent]
    by_cases hpre : x.pre = []
    · simp only [hpre, ne_eq, not_true_eq_false, and_false, or_false, or_true, and_true]
      omega
    · simp only [hpre, ne_eq, not_false_eq_true, and_true, or_false]
      omega

end Version

/-! ## Reports for two versions -/

namespace Definition

/-- The same settings for another version. -/
def forVersion (d : Definition) (w : Option Version) : Definition := { d with version := w }

/-- The style is `tab`, and nothing else gives a width. -/
structure OnlyTab (d : Definition) : Prop where
  indentSize : d.raw.get? Property.indentSize = none
  indentStyle : d.indentStyle = some tab
  tabWidth : d.tabWidth = .absent

instance (d : Definition) : Decidable d.OnlyTab :=
  decidable_of_iff (d.raw.get? Property.indentSize = none ∧ d.indentStyle = some tab ∧
      d.tabWidth = .absent)
    ⟨fun h => ⟨h.1, h.2.1, h.2.2⟩, fun h => ⟨h.indentSize, h.indentStyle, h.tabWidth⟩⟩

/-- The reports agree but for the indent size.  That one differs exactly when the style gives the
only width; then the first report has `tab` for it, and the second one does not have it. -/
structure TabShows (d e : Definition) : Prop where
  elsewhere : ∀ name, name ≠ Property.indentSize → d.report.get? name = e.report.get? name
  differ_iff : d.report ≠ e.report ↔ d.OnlyTab
  shown : d.report ≠ e.report →
    d.report.get? Property.indentSize = some tab ∧ e.report.get? Property.indentSize = none

variable {d : Definition} {w : Option Version}

theorem reportsTabSize_iff (d : Definition) :
    d.reportsTabSize = true ↔ d.indentStyle = some tab ∧ Version.Recent d.version := by
  rw [reportsTabSize, Bool.and_eq_true, decide_eq_true_iff, Version.recent_iff]

/-- The version shows nowhere but in the indent size. -/
theorem get?_report_forVersion {name : Text} (h : name ≠ Property.indentSize) :
    (d.forVersion w).report.get? name = d.report.get? name := by
  rw [get?_report, get?_report, if_neg h.symm, if_neg h.symm]
  rfl

theorem report_forVersion_of_implied
    (h : (d.forVersion w).impliedIndentSize? = d.impliedIndentSize?) :
    (d.forVersion w).report = d.report := by
  rw [report, report, h]
  rfl

/-- Versions on the same side of 0.9.0 have the same report. -/
theorem report_forVersion (h : Version.Recent d.version ↔ Version.Recent w) :
    (d.forVersion w).report = d.report := by
  apply report_forVersion_of_implied
  have htab : (d.forVersion w).reportsTabSize = d.reportsTabSize := by
    rw [Bool.eq_iff_iff, reportsTabSize_iff, reportsTabSize_iff, h]
    rfl
  rw [impliedIndentSize?, impliedIndentSize?, htab]
  rfl

/-- Where the style gives the only width, a recent version shows it and an older one nothing. -/
theorem OnlyTab.get?_report (h : d.OnlyTab) (hd : d.AgreesWithRaw) :
    (Version.Recent d.version → d.report.get? Property.indentSize = some tab) ∧
      (¬Version.Recent d.version → d.report.get? Property.indentSize = none) := by
  have hsize : d.indentSize = none := hd.indentSize.trans h.indentSize
  rw [get?_report_indentSize hd, impliedIndentSize?_of_none h.indentSize, h.tabWidth, hsize]
  constructor
  · intro hrecent
    have hreports := (reportsTabSize_iff d).2 ⟨h.indentStyle, hrecent⟩
    rw [hreports]
    rfl
  · intro hold
    have hreports : d.reportsTabSize = false :=
      Bool.eq_false_iff.2 fun hr => hold ((reportsTabSize_iff d).1 hr).2
    rw [hreports]
    rfl

theorem impliedIndentSize?_of_absent (hraw : d.raw.get? Property.indentSize = none)
    (htab : d.tabWidth = .absent) (hstyle : d.indentStyle ≠ some tab) :
    d.impliedIndentSize? = none := by
  have hreports : d.reportsTabSize = false :=
    Bool.eq_false_iff.2 fun hr => hstyle ((reportsTabSize_iff d).1 hr).1
  rw [impliedIndentSize?_of_none hraw, htab, hreports]
  rfl

/-- Any other width hides the style. -/
theorem report_forVersion_of_not_onlyTab (hd : d.AgreesWithRaw) (h : ¬d.OnlyTab) :
    (d.forVersion w).report = d.report := by
  apply report_forVersion_of_implied
  cases hraw : d.raw.get? Property.indentSize with
  | some size =>
    rw [impliedIndentSize?_of_some hraw,
      impliedIndentSize?_of_some (d := d.forVersion w) hraw]
  | none =>
    have hnewer := impliedIndentSize?_of_none hraw
    have holder := impliedIndentSize?_of_none (d := d.forVersion w) hraw
    have hwidth : (d.forVersion w).tabWidth = d.tabWidth := rfl
    cases htab : d.tabWidth with
    | unset => rw [hnewer, holder, hwidth, htab]
    | value n =>
      cases n with
      | zero => exact absurd htab hd.tabWidth.ne_zero
      | succ n => rw [hnewer, holder, hwidth, htab]
    | absent =>
      have hstyle : d.indentStyle ≠ some tab := fun hs => h ⟨hraw, hs, htab⟩
      rw [impliedIndentSize?_of_absent hraw htab hstyle]
      exact impliedIndentSize?_of_absent (d := d.forVersion w) hraw htab hstyle

theorem tabShows_forVersion (hd : d.AgreesWithRaw) (hnew : Version.Recent d.version)
    (hold : ¬Version.Recent w) : TabShows d (d.forVersion w) := by
  have hshown (h : d.OnlyTab) :
      d.report.get? Property.indentSize = some tab ∧
        (d.forVersion w).report.get? Property.indentSize = none := by
    have h' : (d.forVersion w).OnlyTab := { h with }
    exact ⟨(h.get?_report hd).1 hnew, (h'.get?_report { hd with }).2 hold⟩
  have hdiffer : d.report ≠ (d.forVersion w).report ↔ d.OnlyTab := by
    constructor
    · intro hne
      by_cases h : d.OnlyTab
      · exact h
      · exact absurd (report_forVersion_of_not_onlyTab hd h).symm hne
    · intro h heq
      obtain ⟨hnewer, holder⟩ := hshown h
      rw [heq, holder] at hnewer
      cases hnewer
  exact ⟨fun name hname => (get?_report_forVersion hname).symm, hdiffer,
    fun hne => hshown (hdiffer.1 hne)⟩

end Definition

/-! ## Resolutions for two versions -/

namespace Resolver

variable {src : Source}

/-- The walk does not look at the version. -/
theorem walk_version [Regex.Engine] (r : Resolver) (v : Option Text) (found : Resolution)
    (s : Session) (dirs : List (List Text × List Text)) :
    ({ r with version := v }).walk src found s dirs = r.walk src found s dirs := by
  induction dirs generalizing found s with
  | nil => rfl
  | cons d dirs ih =>
    simp only [walk, ih]
    rfl

theorem requestedVersion_of_valid {r : Resolver}
    (h : ∀ t, r.version = some t → Version.requested? t ≠ none) :
    r.requestedVersion = .ok (r.version.bind Version.requested?) := by
  unfold requestedVersion
  cases hv : r.version with
  | none => rfl
  | some t =>
    obtain ⟨v, ht⟩ := Option.ne_none_iff_exists'.1 (h t hv)
    simp only [Option.bind_some, ht]

/-- Another version changes nothing but the version of the definition that is found. -/
theorem resolve_forVersion [Regex.Engine] (r : Resolver) {v w : Option Text}
    (hv : ∀ t, v = some t → Version.requested? t ≠ none)
    (hw : ∀ t, w = some t → Version.requested? t ≠ none) (home : Option Text) (src : Source)
    (target : Text) (s : Session) :
    let a := ({ r with version := v }).resolve home src target s
    ({ r with version := w }).resolve home src target s
      = (a.1.map fun x =>
          { x with definition := x.definition.forVersion (w.bind Version.requested?) }, a.2) := by
  intro a
  have hrv := requestedVersion_of_valid (r := { r with version := v }) hv
  have hrw := requestedVersion_of_valid (r := { r with version := w }) hw
  cases hn : Path.absolute? home target with
  | none =>
    have hnone (t : Option Text) : ({ r with version := t }).resolve home src target s
        = (.error (.noDirectory target), s) := by
      rw [resolve, hn]
    rw [show a = _ from hnone v, hnone w]
    rfl
  | some names =>
    rw [show a = _ from resolve_eq_walk hn hrv s, resolve_eq_walk hn hrw s]
    simp only [walk_version]
    cases (r.walk src {} s (Path.ancestors names)).1 <;> rfl

theorem version_of_resolve [Regex.Engine] {r : Resolver}
    (hr : ∀ t, r.version = some t → Version.requested? t ≠ none)
    {home : Option Text} {target : Text} {s : Session} {x : Resolution}
    (hx : (r.resolve home src target s).1 = .ok x) :
    x.definition.version = r.version.bind Version.requested? := by
  obtain ⟨names, hn⟩ := absolute?_of_resolve_eq_ok hx
  rw [resolve_eq_walk hn (requestedVersion_of_valid hr)] at hx
  cases hwalk : (r.walk src {} s (Path.ancestors names)).1 with
  | error e =>
    rw [hwalk] at hx
    cases hx
  | ok found =>
    rw [hwalk] at hx
    cases hx
    rfl

/-- **What the version is for.**  Two requests for one target whose versions are absent or valid
leave the same session behind, and fail alike or find the same settings and warnings.  Versions on
the same side of 0.9.0 have the same report; otherwise the reports differ at most in the indent
size. -/
theorem resolve_versions [Regex.Engine] (r : Resolver) {v w : Option Text}
    (hv : ∀ t, v = some t → Version.requested? t ≠ none)
    (hw : ∀ t, w = some t → Version.requested? t ≠ none) (home : Option Text) (src : Source)
    (target : Text) (s : Session) :
    let a := ({ r with version := v }).resolve home src target s
    let b := ({ r with version := w }).resolve home src target s
    let newer := v.bind Version.requested?
    let older := w.bind Version.requested?
    a.2 = b.2 ∧ (∀ e, a.1 = .error e ↔ b.1 = .error e) ∧
      ∀ x, a.1 = .ok x → x.definition.version = newer ∧
        ∃ y, b.1 = .ok y ∧ y = { x with definition := x.definition.forVersion older } ∧
          ((Version.Recent newer ↔ Version.Recent older) →
            x.definition.report = y.definition.report) ∧
          (Version.Recent newer → ¬Version.Recent older →
            Definition.TabShows x.definition y.definition) := by
  intro a b newer older
  have hb : b = (a.1.map fun x => { x with definition := x.definition.forVersion older }, a.2) :=
    r.resolve_forVersion hv hw home src target s
  rw [hb]
  refine ⟨rfl, fun e => ?_, fun x hx => ?_⟩
  · cases a.1 with
    | error e' => exact Iff.rfl
    | ok x => simp [Except.map]
  · have hversion : x.definition.version = newer := version_of_resolve hv hx
    have hreachable : x.definition.Reachable := reachable_resolve hx
    rw [hx]
    refine ⟨hversion, _, rfl, rfl, fun h => ?_, fun hnew hold => ?_⟩
    · rw [← hversion] at h
      exact (Definition.report_forVersion h).symm
    · rw [← hversion] at hnew
      exact Definition.tabShows_forVersion hreachable.agreesWithRaw hnew hold

/-! ## A file with the style alone -/

/-- A config file that gives every file the tab style, and no width. -/
def styleFile : Snapshot where
  sections := [⟨['*'], .ofList [(Property.indentStyle, Definition.tab)]⟩]

theorem onlyTab_styleFile [Regex.Engine] {res : Resolution}
    (h : (({} : Resolver).resolve none (fun _ => .ok styleFile) "/x".toList {}).1 = .ok res) :
    res.definition.OnlyTab := by
  have hn : Path.absolute? none "/x".toList = some [['x']] := by decide
  have hstar : ∀ sec ∈ styleFile.sections, sec.selector = ['*'] := by simp [styleFile]
  have hmatching : styleFile.matching [['x']] = styleFile.sections.reverse :=
    Snapshot.matching_of_star hstar (d := []) (b := ['x']) rfl (by decide) (.inl rfl) (by decide)
  have hsections : ({} : Resolver).sections (fun _ => .ok styleFile) [['x']]
      = styleFile.sections.reverse := by
    show styleFile.matching [['x']] ++ [] = _
    rw [hmatching, List.append_nil]
  have hstyle : (Definition.stacked styleFile.sections.reverse).OnlyTab := by decide
  obtain ⟨version, -, rfl⟩ := resolve_eq_ok hn h
  rw [Resolution.empty_stackedOn, hsections]
  exact { hstyle with }

/-- A pre-release of 0.9.0 does not report the style that no version at all reports. -/
theorem resolve_versions_preRelease :
    let src : Source := fun _ => .ok styleFile
    let w := some "v0.9.0-a".toList
    (∀ t, w = some t → Version.requested? t ≠ none) ∧
      ∃ x y : Resolution, (({} : Resolver).resolve none src "/x".toList {}).1 = .ok x ∧
        (({ version := w } : Resolver).resolve none src "/x".toList {}).1 = .ok y ∧
        x.definition.report.get? Property.indentSize = some Definition.tab ∧
        y.definition.report.get? Property.indentSize = none := by
  intro src w
  have hw : ∀ t, w = some t → Version.requested? t ≠ none := by
    intro t ht
    obtain rfl := Option.some.inj ht
    decide
  have hn : Path.absolute? none "/x".toList = some [['x']] := by decide
  have hs : ({} : Session).Faithful {} src := Session.faithful_uncached
  obtain ⟨x, hx⟩ := exists_resolve_eq_ok hs hn rfl fun path e he => by cases he
  obtain ⟨-, -, hfound⟩ := resolve_versions {} (v := none) (by simp) hw none src "/x".toList {}
  obtain ⟨-, y, hy, -, -, hshows⟩ := hfound x hx
  have hnew : Version.Recent none := by simp [Version.Recent]
  have hold : ¬Version.Recent (w.bind Version.requested?) := by
    rw [Version.recent_iff]
    decide
  have hdiffers := (hshows hnew hold).differ_iff.2 (onlyTab_styleFile hx)
  exact ⟨hw, x, y, hx, hy, (hshows hnew hold).shown hdiffers⟩

end Resolver

end EditorConfig
