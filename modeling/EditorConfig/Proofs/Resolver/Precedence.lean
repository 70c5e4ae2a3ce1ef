import EditorConfig.Proofs.Faithful
import EditorConfig.Proofs.Glob.Fit
import EditorConfig.Proofs.Resolver.Walk

/-!
# Which section wins

* `Snapshot.matching`    the sections of a config file that cover some names below it;
* `Resolver.found`       the config files above a target, the nearest one first;
* `Resolver.sections`    the matching sections of these files up to the first root file.

Main statement: a resolution takes each raw property and each typed setting from the first section
of this list that sets it (`definition_resolve`).
-/

namespace EditorConfig

/-- The sections that cover the names `rest` below the directory of the file, the last one
first. -/
def Snapshot.matching [Regex.Engine] (file : Snapshot) (rest : List Text) : List Section :=
  file.sections.reverse.filter fun s => Selector.selects s.selector ('/' :: ['/'].intercalate rest)

namespace Resolver

/-- The config files of the directories above some names, from the parent up to the root, each
with the names below its directory. -/
def found (r : Resolver) (src : Source) (names : List Text) : List (Snapshot × List Text) :=
  (List.range names.length).reverse.filterMap fun k =>
    (src (r.configPath (names.take k))).toOption.map fun file => (file, names.drop k)

/-- The matching sections of the config files up to the first root file. -/
def sections [Regex.Engine] (r : Resolver) (src : Source) (names : List Text) : List Section :=
  (upTo (fun f => f.1.isRoot) (r.found src names)).flatMap fun f => f.1.matching f.2

variable {r : Resolver} {src : Source}

/-- The config files of some directories, each with the names below it. -/
def foundIn (r : Resolver) (src : Source) (dirs : List (List Text × List Text)) :
    List (Snapshot × List Text) :=
  dirs.filterMap fun d => (src (r.configPath d.1)).toOption.map fun file => (file, d.2)

theorem foundIn_ancestors (names : List Text) :
    r.foundIn src (Path.ancestors names) = r.found src names := by
  rw [foundIn, Path.ancestors_eq, List.filterMap_map]
  rfl

theorem foundIn_cons_error {dir rest : List Text} {e : SourceError}
    (h : src (r.configPath dir) = .error e) (dirs : List (List Text × List Text)) :
    r.foundIn src ((dir, rest) :: dirs) = r.foundIn src dirs :=
  List.filterMap_cons_none (by simp [h, Except.toOption])

theorem foundIn_cons_ok {dir rest : List Text} {file : Snapshot}
    (h : src (r.configPath dir) = .ok file) (dirs : List (List Text × List Text)) :
    r.foundIn src ((dir, rest) :: dirs) = (file, rest) :: r.foundIn src dirs :=
  List.filterMap_cons_some (by simp [h, Except.toOption])

theorem add_resolution [Regex.Engine] {m : Matcher} (hm : m.Faithful) (found : Resolution)
    (file : Snapshot) {rest : List Text} (hrest : rest ≠ []) :
    found.add (m.resolution file (Path.below rest)).1.definition
        (m.resolution file (Path.below rest)).1.warnings
      = found.stackedOn (file.matching rest) := by
  rw [(Matcher.faithful_resolution hm file (Path.below rest)).1, Resolution.add_stackedOn,
    Path.below_eq hrest]
  rfl

/-- A walk that succeeds stacks the matching sections up to the first root file. -/
theorem walk_eq_ok [Regex.Engine] {found res : Resolution} {asked : List Text} {m : Matcher}
    {dirs : List (List Text × List Text)} (hm : m.Faithful) (hdirs : ∀ d ∈ dirs, d.2 ≠ [])
    (h : (r.walk src found ⟨⟨none, asked⟩, m⟩ dirs).1 = .ok res) :
    res = found.stackedOn ((upTo (fun f => f.1.isRoot) (r.foundIn src dirs)).flatMap
      fun f => f.1.matching f.2) := by
  revert hm hdirs h
  refine walk_induction (P := fun found s dirs out => s.matcher.Faithful → (∀ d ∈ dirs, d.2 ≠ []) →
    out.1 = .ok res → res = found.stackedOn ((upTo (fun f => f.1.isRoot)
      (r.foundIn src dirs)).flatMap fun f => f.1.matching f.2))
    ?done ?missing ?fatal ?root ?file found asked m dirs
  case done =>
    intro found asked m hm hdirs hres
    cases hres
    exact (Resolution.stackedOn_nil _).symm
  case missing =>
    intro found asked m dir rest dirs e out hsrc _ hout hm hdirs hres
    rw [foundIn_cons_error hsrc]
    exact hout hm (fun d hd => hdirs d (List.mem_cons_of_mem _ hd)) hres
  case fatal =>
    intro found asked m dir rest dirs e _ _ _ _ hres
    cases hres
  case root =>
    intro found asked m dir rest dirs file hsrc hf hm hdirs hres
    cases hres
    rw [foundIn_cons_ok hsrc, upTo_cons_of_pos (p := fun f => f.1.isRoot) (a := (file, rest)) hf,
      List.flatMap_singleton]
    exact add_resolution hm found file (hdirs (dir, rest) (by simp))
  case file =>
    intro found asked m dir rest dirs file out hsrc hf hout hm hdirs hres
    have hfaithful := (Matcher.faithful_resolution hm file (Path.below rest)).2
    have hrest := hout hfaithful (fun d hd => hdirs d (List.mem_cons_of_mem _ hd)) hres
    rw [add_resolution hm found file (hdirs (dir, rest) (by simp))] at hrest
    rw [foundIn_cons_ok hsrc, upTo_cons_of_neg (p := fun f => f.1.isRoot) (a := (file, rest)) hf,
      List.flatMap_cons, Resolution.stackedOn_append]
    exact hrest

theorem requestedVersion_eq_ok {version : Option Version} (h : r.requestedVersion = .ok version) :
    r.version.mapM Version.requested? = some version := by
  unfold requestedVersion at h
  cases hv : r.version with
  | none =>
    rw [hv] at h
    cases h
    rfl
  | some t =>
    rw [hv] at h
    cases ht : Version.requested? t with
    | none =>
      simp only [ht] at h
      cases h
    | some v =>
      simp only [ht] at h
      cases h
      simp [ht]

theorem resolve_eq_ok [Regex.Engine] {home : Option Text} {target : Text} {names : List Text}
    {res : Resolution} (hn : Path.absolute? home target = some names)
    (h : (r.resolve home src target {}).1 = .ok res) :
    ∃ version, r.version.mapM Version.requested? = some version ∧
      res = { ({} : Resolution).stackedOn (r.sections src names) with
        definition.version := version } := by
  cases hv : r.requestedVersion with
  | error e =>
    rw [resolve, hn] at h
    simp only [hv] at h
    cases h
  | ok version =>
    rw [resolve_eq_walk hn hv] at h
    cases hw : (r.walk src {} {} (Path.ancestors names)).1 with
    | error e =>
      rw [hw] at h
      cases h
    | ok out =>
      have hdirs : ∀ d ∈ Path.ancestors names, d.2 ≠ [] :=
        fun d hd => (Path.append_of_mem_ancestors hd).2
      have hout := walk_eq_ok (Matcher.faithful_uncached rfl) hdirs hw
      rw [foundIn_ancestors] at hout
      rw [hw] at h
      cases h
      exact ⟨version, requestedVersion_eq_ok hv, by rw [hout]; rfl⟩

/-- **Which section wins.**  Each raw property of a resolution is the one of the first matching
section that declares it, each typed setting the one of the first matching section that sets it by
itself, and the version is the one asked for. -/
theorem definition_resolve [Regex.Engine] (r : Resolver) (home : Option Text) (src : Source)
    (target : Text) (names : List Text) (res : Resolution)
    (hn : Path.absolute? home target = some names)
    (h : (r.resolve home src target {}).1 = .ok res) :
    let ss := r.sections src names
    let ds := ss.map fun s => Definition.ofProperties s.properties
    (∀ name, res.definition.raw.get? name = ss.findSome? fun s => s.properties.get? name) ∧
      res.definition.charset = ds.findSome? Definition.charset ∧
      res.definition.indentStyle = ds.findSome? Definition.indentStyle ∧
      res.definition.indentSize = ds.findSome? Definition.indentSize ∧
      res.definition.tabWidth = .first (ds.map Definition.tabWidth) ∧
      res.definition.endOfLine = ds.findSome? Definition.endOfLine ∧
      res.definition.trimTrailingWhitespace = .first (ds.map Definition.trimTrailingWhitespace) ∧
      res.definition.insertFinalNewline = .first (ds.map Definition.insertFinalNewline) ∧
      r.version.mapM Version.requested? = some res.definition.version := by
  obtain ⟨version, hv, rfl⟩ := resolve_eq_ok hn h
  rw [Resolution.empty_stackedOn, Definition.stacked_eq]
  refine ⟨fun name => ?_, rfl, rfl, rfl, rfl, rfl, rfl, rfl, hv⟩
  exact Properties.get?_foldr_or Section.properties _ name

/-! ## Two config files -/

/-- A config file in `/a` with two sections for `/a/b`. -/
def nearFile : Snapshot where
  sections := [⟨"/b".toList, .ofList [(Property.indentSize, ['2'])]⟩,
    ⟨['*'], .ofList [(Property.indentSize, ['8'])]⟩]

/-- A root file in `/` with one section for `/a/b`. -/
def rootFile : Snapshot where
  isRoot := true
  sections := [⟨"a/b".toList, .ofList [(Property.tabWidth, ['4'])]⟩,
    ⟨"/b".toList, .ofList [(Property.charset, "latin1".toList)]⟩]

def twoFiles : Source := fun path =>
  if path = "/a/.editorconfig".toList then .ok nearFile
  else if path = "/.editorconfig".toList then .ok rootFile
  else .error (.missing path)

theorem isMissing_of_twoFiles {path : Text} {e : SourceError} (h : twoFiles path = .error e) :
    e.isMissing = true := by
  unfold twoFiles at h
  split at h
  · cases h
  · split at h
    · cases h
    · cases h
      rfl

theorem sections_twoFiles [Regex.Engine] : ({} : Resolver).sections twoFiles [['a'], ['b']]
    = nearFile.sections.reverse ++ rootFile.sections.take 1 := by
  have any : Glob.ofText (Selector.anchored ['*']) = .seq .dirs (.seq .run .empty) := by
    show Glob.ofSigns [.plain '/', .plain '*', .plain '*', .plain '/', .plain '*'] = _
    rw [Glob.ofSigns, Glob.ofSignsWith_token (g := .dirs) rfl,
      Glob.ofSignsWith_token (g := .run) rfl, Glob.ofSignsWith_nil]
  have b : Glob.ofText (Selector.anchored "/b".toList)
      = .seq (.char '/') (.seq (.char 'b') .empty) := by
    show Glob.ofSigns [.plain '/', .plain 'b'] = _
    rw [Glob.ofSigns, Glob.ofSignsWith_token (g := .char '/') rfl,
      Glob.ofSignsWith_token (g := .char 'b') rfl, Glob.ofSignsWith_nil]
  have ab : Glob.ofText (Selector.anchored "a/b".toList)
      = .seq (.char '/') (.seq (.char 'a') (.seq (.char '/') (.seq (.char 'b') .empty))) := by
    show Glob.ofSigns [.plain '/', .plain 'a', .plain '/', .plain 'b'] = _
    rw [Glob.ofSigns, Glob.ofSignsWith_token (g := .char '/') rfl,
      Glob.ofSignsWith_token (g := .char 'a') rfl, Glob.ofSignsWith_token (g := .char '/') rfl,
      Glob.ofSignsWith_token (g := .char 'b') rfl, Glob.ofSignsWith_nil]
  have hf : ({} : Resolver).found twoFiles [['a'], ['b']]
    = [(nearFile, [['b']]), (rootFile, [['a'], ['b']])] := by rfl
  have hnear : nearFile.matching [['b']] = nearFile.sections.reverse := by
    simp only [Snapshot.matching, nearFile, List.reverse_cons, List.reverse_nil, List.nil_append,
      List.cons_append, List.filter_cons, Selector.selects_eq any (by decide) (by decide),
      Selector.selects_eq b (by decide) (by decide)]
    rfl
  have hroot : rootFile.matching [['a'], ['b']] = rootFile.sections.take 1 := by
    simp only [Snapshot.matching, rootFile, List.reverse_cons, List.reverse_nil, List.nil_append,
      List.cons_append, List.filter_cons, Selector.selects_eq b (by decide) (by decide),
      Selector.selects_eq ab (by decide) (by decide)]
    rfl
  rw [sections, hf]
  show nearFile.matching [['b']] ++ (rootFile.matching [['a'], ['b']] ++ []) = _
  rw [hnear, hroot, List.append_nil]

/-- The last section of the nearer file wins; the root file still gives the raw tab width. -/
theorem definition_resolve_twoFiles :
    ∃ res, (({} : Resolver).resolve none twoFiles "/a/b".toList {}).1 = .ok res ∧
      res.definition.raw.get? Property.indentSize = some ['8'] ∧
      res.definition.raw.get? Property.tabWidth = some ['4'] ∧
      res.definition.raw.get? Property.charset = none ∧
      res.definition.tabWidth = .value 8 := by
  have hn : Path.absolute? none "/a/b".toList = some [['a'], ['b']] := by decide
  cases h : (({} : Resolver).resolve none twoFiles "/a/b".toList {}).1 with
  | error x =>
    rw [resolve_eq_walk hn rfl] at h
    cases hw : (({} : Resolver).walk twoFiles {} {} (Path.ancestors [['a'], ['b']])).1 with
    | error y =>
      obtain ⟨path, e, -, -, he, hfatal⟩ := (walk_eq_error {} [] {} _ y).1 hw
      rw [isMissing_of_twoFiles he] at hfatal
      cases hfatal
    | ok res =>
      rw [hw] at h
      cases h
  | ok res =>
    obtain ⟨hraw, -, -, -, htab, -⟩ := definition_resolve {} none twoFiles _ _ res hn h
    rw [sections_twoFiles] at hraw htab
    refine ⟨res, rfl, ?_, ?_, ?_, ?_⟩
    · rw [hraw]; decide
    · rw [hraw]; decide
    · rw [hraw]; decide
    · rw [htab]; decide

end Resolver

end EditorConfig
