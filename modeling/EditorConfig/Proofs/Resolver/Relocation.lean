import EditorConfig.Proofs.Resolver.Transparency

/-!
# Moving a tree of config files

* `Source.Alike`     two answers that mean the same to a walk;
* `Source.mounted`   a source that holds a tree below one directory and fails everywhere else.

Main statement: a target below a root file gets the same resolution when the tree that the root
file stands in is moved to another directory, whatever lies outside (`resolve_relocated`).
-/

namespace EditorConfig

/-! ## Paths below a directory -/

namespace Path

theorem ancestors_append (ns ms : List Text) :
    ancestors (ns ++ ms) = (ancestors ms).map (fun d => (ns ++ d.1, d.2))
      ++ (ancestors ns).map fun d => (d.1, d.2 ++ ms) := by
  induction ns with
  | nil => simp
  | cons n ns ih =>
    rw [List.cons_append, ancestors, ih, ancestors, List.map_append, List.map_append, List.map_map,
      List.map_map, List.map_map, List.append_assoc]
    rfl

theorem root_mem_ancestors {ns : List Text} (h : ns ≠ []) : ([], ns) ∈ ancestors ns := by
  cases ns with
  | nil => exact absurd rfl h
  | cons n ns => exact List.mem_append_right _ List.mem_cons_self

end Path

/-! ## Answers -/

/-- The two answers mean the same to a walk: files with the same sections and root flag, or no
file, or some other failure. -/
inductive Source.Alike : Except SourceError Snapshot → Except SourceError Snapshot → Prop
  | files {f g : Snapshot} (hroot : f.isRoot = g.isRoot) (hsections : f.sections = g.sections) :
    Alike (.ok f) (.ok g)
  | failures {e e' : SourceError} (h : e.isMissing = e'.isMissing) : Alike (.error e) (.error e')

theorem Source.Alike.refl (a : Except SourceError Snapshot) : Alike a a := by
  cases a with
  | error e => exact .failures rfl
  | ok f => exact .files rfl rfl

theorem Matcher.resolution_congr [Regex.Engine] {f g : Snapshot} (h : f.sections = g.sections)
    (m : Matcher) (path : Text) : m.resolution f path = m.resolution g path := by
  rw [resolution, resolution, h]

namespace Resolver

variable {r : Resolver} {src src' : Source}

/-! ## Two walks side by side -/

/-- Two walks that begin below `dir` and below `dir'` and get like answers on the way go on alike.
They end at the root files of the two directories at the latest, so that nothing above these is
read. -/
theorem walk_relocated [Regex.Engine] {dir dir' : List Text} {dirs : List (List Text × List Text)}
    (halike : ∀ d ∈ dirs,
      Source.Alike (src (r.configPath (dir ++ d.1))) (src' (r.configPath (dir' ++ d.1))))
    (hroot : ∃ file, src (r.configPath dir) = .ok file ∧ file.isRoot = true)
    (hdir : ∃ rest, ([], rest) ∈ dirs) (above above' : List (List Text × List Text))
    (found : Resolution) (asked asked' : List Text) (m : Matcher) :
    (r.walk src found ⟨⟨none, asked⟩, m⟩
        (dirs.map (fun d => (dir ++ d.1, d.2)) ++ above)).1.toOption
      = (r.walk src' found ⟨⟨none, asked'⟩, m⟩
          (dirs.map (fun d => (dir' ++ d.1, d.2)) ++ above')).1.toOption := by
  induction dirs generalizing found asked asked' m with
  | nil =>
    obtain ⟨rest, hrest⟩ := hdir
    cases hrest
  | cons d dirs ih =>
    obtain ⟨below, rest⟩ := d
    have hhead := halike (below, rest) List.mem_cons_self
    have htail := fun d hd => halike d (List.mem_cons_of_mem _ hd)
    have hread := read_uncached src (r.configPath (dir ++ below)) asked
    have hread' := read_uncached src' (r.configPath (dir' ++ below)) asked'
    have hon (hends : endsWalk (src (r.configPath (dir ++ below))) = false) :
        ∃ rest, ([], rest) ∈ dirs := by
      obtain ⟨rest', hmem⟩ := hdir
      rcases List.mem_cons.1 hmem with heq | hmem
      · obtain ⟨file, hfile, hfileRoot⟩ := hroot
        cases heq
        rw [List.append_nil, hfile] at hends
        exact absurd hfileRoot (Bool.eq_false_iff.1 hends)
      · exact ⟨rest', hmem⟩
    rw [List.map_cons, List.map_cons, List.cons_append, List.cons_append]
    generalize src (r.configPath (dir ++ below)) = answer at hhead hread hon
    generalize src' (r.configPath (dir' ++ below)) = answer' at hhead hread'
    cases hhead with
    | @failures e e' hkind =>
      cases he : e.isMissing with
      | false =>
        rw [walk_fatal (s := ⟨⟨none, asked⟩, m⟩) hread he,
          walk_fatal (s := ⟨⟨none, asked'⟩, m⟩) hread' (hkind ▸ he)]
        rfl
      | true =>
        rw [walk_missing (s := ⟨⟨none, asked⟩, m⟩) hread he,
          walk_missing (s := ⟨⟨none, asked'⟩, m⟩) hread' (hkind ▸ he)]
        exact ih htail (hon (by rw [endsWalk, he]; rfl)) found _ _ m
    | @files f g hflag hsections =>
      have hgiven := Matcher.resolution_congr hsections m (Path.below rest)
      cases hf : f.isRoot with
      | true =>
        rw [walk_root (s := ⟨⟨none, asked⟩, m⟩) hread hf,
          walk_root (s := ⟨⟨none, asked'⟩, m⟩) hread' (hflag ▸ hf), hgiven]
      | false =>
        rw [walk_file (s := ⟨⟨none, asked⟩, m⟩) hread hf,
          walk_file (s := ⟨⟨none, asked'⟩, m⟩) hread' (hflag ▸ hf), hgiven]
        exact ih htail (hon hf) _ _ _ _

/-! ## Targets -/

/-- **Moving a tree.**  Let a root file stand in `dir`, and let each config path below `dir` and the
same one below `dir'` get like answers.  Then the resolutions of a target below `dir` and of the
same target below `dir'` both fail, or both succeed with the same definition and warnings.  Each may
have its own caches, as long as they are faithful. -/
theorem resolve_relocated [Regex.Engine] (r : Resolver) (home home' : Option Text)
    (src src' : Source) {s s' : Session} (hs : s.Faithful r src) (hs' : s'.Faithful r src')
    {dir dir' rest : List Text}
    (hdir : ∀ n ∈ dir, Path.IsName n) (hdir' : ∀ n ∈ dir', Path.IsName n)
    (hrest : ∀ n ∈ rest, Path.IsName n) (hne : rest ≠ [])
    (halike : ∀ names, (∀ n ∈ names, Path.IsName n) →
      Source.Alike (src (r.configPath (dir ++ names))) (src' (r.configPath (dir' ++ names))))
    (hroot : ∃ file, src (r.configPath dir) = .ok file ∧ file.isRoot = true) :
    (r.resolve home src (Path.ofNames (dir ++ rest)) s).1.toOption
      = (r.resolve home' src' (Path.ofNames (dir' ++ rest)) s').1.toOption := by
  rw [(Session.resolve_faithful hs home _).1, (Session.resolve_faithful hs' home' _).1]
  have hn := Path.absolute?_ofNames (List.forall_mem_append.2 ⟨hdir, hrest⟩) home
  have hn' := Path.absolute?_ofNames (List.forall_mem_append.2 ⟨hdir', hrest⟩) home'
  cases hv : r.requestedVersion with
  | error e =>
    rw [resolve, resolve, hn, hn']
    simp only [hv]
  | ok version =>
    have hsteps : ∀ d ∈ Path.ancestors rest,
        Source.Alike (src (r.configPath (dir ++ d.1))) (src' (r.configPath (dir' ++ d.1))) := by
      intro d hd
      obtain ⟨happend, -⟩ := Path.append_of_mem_ancestors hd
      apply halike
      intro n hmem
      apply hrest
      rw [← happend]
      exact List.mem_append_left _ hmem
    have hwalk := walk_relocated hsteps hroot ⟨rest, Path.root_mem_ancestors hne⟩
      ((Path.ancestors dir).map fun d => (d.1, d.2 ++ rest))
      ((Path.ancestors dir').map fun d => (d.1, d.2 ++ rest)) {} [] [] {}
    rw [← Path.ancestors_append, ← Path.ancestors_append] at hwalk
    have hmap (out : Except ResolveError Resolution) :
        (out.map fun found => { found with definition.version := version }).toOption
          = out.toOption.map fun found => { found with definition.version := version } := by
      cases out with
      | error e => rfl
      | ok found => rfl
    rw [resolve_eq_walk hn hv, resolve_eq_walk hn' hv, hmap, hmap]
    exact congrArg _ hwalk

end Resolver

/-! ## A tree in two places -/

/-- The source that holds `tree` below a directory, and cannot be read anywhere else. -/
def Source.mounted (dir : List Text) (tree : Source) : Source := fun path =>
  if (Path.below dir).isPrefixOf path then tree (path.drop (Path.below dir).length)
  else .error (.unreadable path .permissionDenied)

theorem Source.mounted_configPath {r : Resolver} (hname : Path.isAbsolute r.name = false)
    (tree : Source) {dir names : List Text} (hdir : ∀ n ∈ dir, Path.IsName n)
    (hnames : ∀ n ∈ names, Path.IsName n) :
    mounted dir tree (r.configPath (dir ++ names)) = tree (Path.below names ++ '/' :: r.name) := by
  have hpath : r.configPath (dir ++ names)
      = Path.below dir ++ (Path.below names ++ '/' :: r.name) := by
    rw [Resolver.configPath, Path.join_ofNames (List.forall_mem_append.2 ⟨hdir, hnames⟩) hname,
      Path.below, List.flatMap_append, List.append_assoc]
    rfl
  rw [mounted, hpath, if_pos (List.isPrefixOf_iff_prefix.2 (List.prefix_append _ _)),
    List.drop_left]

theorem Source.alike_mounted {r : Resolver} (hname : Path.isAbsolute r.name = false)
    (tree : Source) {dir dir' : List Text} (hdir : ∀ n ∈ dir, Path.IsName n)
    (hdir' : ∀ n ∈ dir', Path.IsName n) (names : List Text) (hnames : ∀ n ∈ names, Path.IsName n) :
    Alike (mounted dir tree (r.configPath (dir ++ names)))
      (mounted dir' tree (r.configPath (dir' ++ names))) := by
  rw [mounted_configPath hname tree hdir hnames, mounted_configPath hname tree hdir' hnames]
  exact .refl _

/-- A root file, and a file for `src` below it. -/
def sourceTree : Source := fun path =>
  if path = "/.editorconfig".toList then
    .ok { isRoot := true, sections := [⟨['*'], .ofList [(Property.indentSize, ['8'])]⟩] }
  else if path = "/src/.editorconfig".toList then
    .ok { sections := [⟨"src/*".toList, .ofList [(Property.indentSize, ['4'])]⟩,
      ⟨"*.c".toList, .ofList [(Property.indentSize, ['2'])]⟩] }
  else .error (.missing path)

/-- The tree in `/a` and in `/b/c`: a target in `src` is resolved alike, and neither walk reads what
lies outside. -/
theorem resolve_relocated_sourceTree :
    let src := Source.mounted [['a']] sourceTree
    let src' := Source.mounted [['b'], ['c']] sourceTree
    let res := (({} : Resolver).resolve none src "/a/src/x.c".toList {}).1
    let res' := (({} : Resolver).resolve none src' "/b/c/src/x.c".toList {}).1
    (∀ names, (∀ n ∈ names, Path.IsName n) →
      Source.Alike (src (({} : Resolver).configPath ([['a']] ++ names)))
        (src' (({} : Resolver).configPath ([['b'], ['c']] ++ names)))) ∧
    (∃ file, src (({} : Resolver).configPath [['a']]) = .ok file ∧ file.isRoot = true) ∧
    res.toOption = res'.toOption ∧ res.toOption.isSome = true := by
  intro src src' res res'
  have hdir : ∀ n ∈ [['a']], Path.IsName n := by decide
  have hdir' : ∀ n ∈ [['b'], ['c']], Path.IsName n := by decide
  have halike := Source.alike_mounted (r := {}) rfl sourceTree hdir hdir'
  have hroot : ∃ file, src (({} : Resolver).configPath [['a']]) = .ok file ∧ file.isRoot = true :=
    ⟨_, rfl, rfl⟩
  have hmoved : (({} : Resolver).resolve none src
        (Path.ofNames ([['a']] ++ ["src".toList, "x.c".toList])) {}).1.toOption
      = (({} : Resolver).resolve none src'
          (Path.ofNames ([['b'], ['c']] ++ ["src".toList, "x.c".toList])) {}).1.toOption :=
    Resolver.resolve_relocated {} none none src src' Session.faithful_uncached
      Session.faithful_uncached hdir hdir' (by decide) (by decide) halike hroot
  refine ⟨halike, hroot, hmoved, ?_⟩
  have hn : Path.absolute? none "/a/src/x.c".toList
      = some [['a'], "src".toList, "x.c".toList] := by decide
  have hlast : (Resolver.upTo (Resolver.endsWalk ∘ src)
      ((Path.ancestors [['a'], "src".toList, "x.c".toList]).map
        fun d => ({} : Resolver).configPath d.1)).getLast? = some "/a/.editorconfig".toList := by
    decide
  show (Resolver.resolve {} none src "/a/src/x.c".toList {}).1.toOption.isSome = true
  rw [Resolver.resolve_eq_walk hn rfl]
  cases hwalk : (({} : Resolver).walk src {} {}
      (Path.ancestors [['a'], "src".toList, "x.c".toList])).1 with
  | ok found => rfl
  | error x =>
    obtain ⟨path, e, -, hpath, he, -⟩ := (Resolver.walk_eq_error {} [] {} _ x).1 hwalk
    rw [hlast] at hpath
    cases hpath
    cases he

end EditorConfig
