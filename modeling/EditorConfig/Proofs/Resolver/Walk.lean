import EditorConfig.Proofs.Path

/-!
# The walk through the directories

* `Resolver.upTo`        a list up to and including the first item with a property;
* `Resolver.endsWalk`    the answers that end the walk;
* `Resolver.asks`        the paths that the source is asked for;
* `Resolver.walk_induction`   one case for each way in which the walk goes on.

Main statement: a target without an absolute path fails first and a wrong version next, without
any question to the source; otherwise the source is asked for exactly the paths in `asks`, the last
answer alone can be fatal, and nothing beyond it matters (`resolve_boundary`).
-/

namespace EditorConfig.Resolver

/-! ## Up to the first -/

variable {α β : Type}

/-- The items up to and including the first one with the property. -/
def upTo (p : α → Bool) (l : List α) : List α := l.take (l.findIdx p + 1)

@[simp] theorem upTo_nil (p : α → Bool) : upTo p [] = [] := rfl

theorem upTo_cons_of_pos {p : α → Bool} {a : α} (h : p a = true) (l : List α) :
    upTo p (a :: l) = [a] := by
  simp [upTo, List.findIdx_cons, h]

theorem upTo_cons_of_neg {p : α → Bool} {a : α} (h : p a = false) (l : List α) :
    upTo p (a :: l) = a :: upTo p l := by
  simp [upTo, List.findIdx_cons, h]

theorem upTo_map (p : β → Bool) (f : α → β) (l : List α) :
    upTo p (l.map f) = (upTo (p ∘ f) l).map f := by
  rw [upTo, upTo, List.findIdx_map, List.map_take]

/-- An item in front is the last one only if nothing follows it. -/
theorem exists_last_cons_iff {Q : α → β → Prop} {a : α} {l : List α} (h : ∀ b, ¬Q a b)
    {R : α → β → Prop} :
    (∃ x b, R x b ∧ l.getLast? = some x ∧ Q x b)
      ↔ ∃ x b, R x b ∧ (a :: l).getLast? = some x ∧ Q x b := by
  rw [List.getLast?_cons]
  constructor
  · intro h1
    obtain ⟨x, b, hR, hx, hQ⟩ := h1
    exact ⟨x, b, hR, by rw [hx]; rfl, hQ⟩
  · intro h1
    obtain ⟨x, b, hR, hx, hQ⟩ := h1
    cases hl : l.getLast? with
    | none =>
      rw [hl] at hx
      cases hx
      exact absurd hQ (h b)
    | some y =>
      rw [hl] at hx
      cases hx
      exact ⟨y, b, hR, rfl, hQ⟩

/-! ## Answers -/

/-- A root file ends the walk, and so does a failure other than a missing file. -/
def endsWalk : Except SourceError Snapshot → Bool
  | .ok file => file.isRoot
  | .error e => !e.isMissing

/-- The config paths of the directories above some names, from the parent up to the root. -/
def configPaths (r : Resolver) (names : List Text) : List Text :=
  (List.range names.length).reverse.map fun k => r.configPath (names.take k)

/-- The paths that the source is asked for, up to the first answer that ends the walk. -/
def asks (r : Resolver) (src : Source) (names : List Text) : List Text :=
  upTo (endsWalk ∘ src) (r.configPaths names)

theorem map_ancestors (r : Resolver) (names : List Text) :
    (Path.ancestors names).map (fun d => r.configPath d.1) = r.configPaths names := by
  rw [Path.ancestors_eq, List.map_map]
  rfl

variable {r : Resolver} {src : Source}

theorem upTo_missing {path : Text} {e : SourceError} (hsrc : src path = .error e)
    (he : e.isMissing = true) (paths : List Text) :
    upTo (endsWalk ∘ src) (path :: paths) = path :: upTo (endsWalk ∘ src) paths := by
  have hends : (endsWalk ∘ src) path = false := by simp [endsWalk, hsrc, he]
  rw [upTo_cons_of_neg hends]

theorem upTo_fatal {path : Text} {e : SourceError} (hsrc : src path = .error e)
    (he : e.isMissing = false) (paths : List Text) :
    upTo (endsWalk ∘ src) (path :: paths) = [path] := by
  have hends : (endsWalk ∘ src) path = true := by simp [endsWalk, hsrc, he]
  rw [upTo_cons_of_pos hends]

theorem upTo_root {path : Text} {file : Snapshot} (hsrc : src path = .ok file)
    (hf : file.isRoot = true) (paths : List Text) :
    upTo (endsWalk ∘ src) (path :: paths) = [path] := by
  have hends : (endsWalk ∘ src) path = true := by simp [endsWalk, hsrc, hf]
  rw [upTo_cons_of_pos hends]

theorem upTo_file {path : Text} {file : Snapshot} (hsrc : src path = .ok file)
    (hf : file.isRoot = false) (paths : List Text) :
    upTo (endsWalk ∘ src) (path :: paths) = path :: upTo (endsWalk ∘ src) paths := by
  have hends : (endsWalk ∘ src) path = false := by simp [endsWalk, hsrc, hf]
  rw [upTo_cons_of_neg hends]

/-! ## One step of the walk -/

section
variable {s : Session} {reader : Reader} {dir rest : List Text} {e : SourceError}
  {file : Snapshot}

theorem walk_missing [Regex.Engine]
    (hread : s.reader.read src (r.configPath dir) = (.error e, reader))
    (he : e.isMissing = true) (found : Resolution) (dirs : List (List Text × List Text)) :
    r.walk src found s ((dir, rest) :: dirs) = r.walk src found { s with reader } dirs := by
  rw [walk, hread]
  simp only [he, if_true]

theorem walk_fatal [Regex.Engine]
    (hread : s.reader.read src (r.configPath dir) = (.error e, reader))
    (he : e.isMissing = false) (found : Resolution) (dirs : List (List Text × List Text)) :
    r.walk src found s ((dir, rest) :: dirs)
      = (.error (.unusable (r.configPath dir) e), { s with reader }) := by
  rw [walk, hread]
  simp only [he, Bool.false_eq_true, if_false]

theorem walk_root [Regex.Engine] (hread : s.reader.read src (r.configPath dir) = (.ok file, reader))
    (hf : file.isRoot = true) (found : Resolution) (dirs : List (List Text × List Text)) :
    r.walk src found s ((dir, rest) :: dirs)
      = (.ok (found.add (s.matcher.resolution file (Path.below rest)).1.definition
            (s.matcher.resolution file (Path.below rest)).1.warnings),
          ⟨reader, (s.matcher.resolution file (Path.below rest)).2⟩) := by
  rw [walk, hread]
  simp only [hf, if_true]

theorem walk_file [Regex.Engine] (hread : s.reader.read src (r.configPath dir) = (.ok file, reader))
    (hf : file.isRoot = false) (found : Resolution) (dirs : List (List Text × List Text)) :
    r.walk src found s ((dir, rest) :: dirs)
      = r.walk src (found.add (s.matcher.resolution file (Path.below rest)).1.definition
            (s.matcher.resolution file (Path.below rest)).1.warnings)
          ⟨reader, (s.matcher.resolution file (Path.below rest)).2⟩ dirs := by
  rw [walk, hread]
  simp only [hf, Bool.false_eq_true, if_false]

end

theorem read_uncached (src : Source) (path : Text) (asked : List Text) :
    Reader.read src path ⟨none, asked⟩ = (src path, ⟨none, asked ++ [path]⟩) := rfl

/-- A walk without a cache, one case for each way in which it goes on. -/
theorem walk_induction [Regex.Engine]
    {P : Resolution → Session → List (List Text × List Text) →
      Except ResolveError Resolution × Session → Prop}
    (done : ∀ found asked m, P found ⟨⟨none, asked⟩, m⟩ [] (.ok found, ⟨⟨none, asked⟩, m⟩))
    (missing : ∀ found asked m dir rest dirs e out, src (r.configPath dir) = .error e →
      e.isMissing = true → P found ⟨⟨none, asked ++ [r.configPath dir]⟩, m⟩ dirs out →
      P found ⟨⟨none, asked⟩, m⟩ ((dir, rest) :: dirs) out)
    (fatal : ∀ found asked m dir rest dirs e, src (r.configPath dir) = .error e →
      e.isMissing = false → P found ⟨⟨none, asked⟩, m⟩ ((dir, rest) :: dirs)
        (.error (.unusable (r.configPath dir) e), ⟨⟨none, asked ++ [r.configPath dir]⟩, m⟩))
    (root : ∀ found asked m dir rest dirs file, src (r.configPath dir) = .ok file →
      file.isRoot = true → P found ⟨⟨none, asked⟩, m⟩ ((dir, rest) :: dirs)
        (.ok (found.add (m.resolution file (Path.below rest)).1.definition
            (m.resolution file (Path.below rest)).1.warnings),
          ⟨⟨none, asked ++ [r.configPath dir]⟩, (m.resolution file (Path.below rest)).2⟩))
    (file : ∀ found asked m dir rest dirs file out, src (r.configPath dir) = .ok file →
      file.isRoot = false →
      P (found.add (m.resolution file (Path.below rest)).1.definition
            (m.resolution file (Path.below rest)).1.warnings)
          ⟨⟨none, asked ++ [r.configPath dir]⟩, (m.resolution file (Path.below rest)).2⟩ dirs out →
      P found ⟨⟨none, asked⟩, m⟩ ((dir, rest) :: dirs) out)
    (found : Resolution) (asked : List Text) (m : Matcher) (dirs : List (List Text × List Text)) :
    P found ⟨⟨none, asked⟩, m⟩ dirs (r.walk src found ⟨⟨none, asked⟩, m⟩ dirs) := by
  induction dirs generalizing found asked m with
  | nil => exact done found asked m
  | cons d dirs ih =>
    obtain ⟨dir, rest⟩ := d
    have hread := read_uncached src (r.configPath dir) asked
    cases hsrc : src (r.configPath dir) with
    | error e =>
      rw [hsrc] at hread
      cases he : e.isMissing with
      | true =>
        rw [walk_missing (s := ⟨⟨none, asked⟩, m⟩) hread he]
        exact missing found asked m dir rest dirs e _ hsrc he (ih _ _ _)
      | false =>
        rw [walk_fatal (s := ⟨⟨none, asked⟩, m⟩) hread he]
        exact fatal found asked m dir rest dirs e hsrc he
    | ok f =>
      rw [hsrc] at hread
      cases hf : f.isRoot with
      | true =>
        rw [walk_root (s := ⟨⟨none, asked⟩, m⟩) hread hf]
        exact root found asked m dir rest dirs f hsrc hf
      | false =>
        rw [walk_file (s := ⟨⟨none, asked⟩, m⟩) hread hf]
        exact file found asked m dir rest dirs f _ hsrc hf (ih _ _ _)

/-! ## What is asked -/

theorem asked_walk [Regex.Engine] (found : Resolution) (asked : List Text) (m : Matcher)
    (dirs : List (List Text × List Text)) :
    (r.walk src found ⟨⟨none, asked⟩, m⟩ dirs).2.reader
      = ⟨none, asked ++ upTo (endsWalk ∘ src) (dirs.map fun d => r.configPath d.1)⟩ := by
  refine walk_induction (P := fun _ s dirs out => out.2.reader
    = ⟨none, s.reader.asked ++ upTo (endsWalk ∘ src) (dirs.map fun d => r.configPath d.1)⟩)
    ?done ?missing ?fatal ?root ?file found asked m dirs
  case done =>
    intro found asked m
    simp
  case missing =>
    intro found asked m dir rest dirs e out hsrc he hout
    rw [hout, List.map_cons, upTo_missing hsrc he, List.append_assoc, List.singleton_append]
  case fatal =>
    intro found asked m dir rest dirs e hsrc he
    rw [List.map_cons, upTo_fatal hsrc he]
  case root =>
    intro found asked m dir rest dirs file hsrc hf
    rw [List.map_cons, upTo_root hsrc hf]
  case file =>
    intro found asked m dir rest dirs file out hsrc hf hout
    rw [hout, List.map_cons, upTo_file hsrc hf, List.append_assoc, List.singleton_append]

/-! ## What is fatal -/

/-- The walk fails exactly when the last answer is a failure other than a missing file, and then
with that answer. -/
theorem walk_eq_error [Regex.Engine] (found : Resolution) (asked : List Text) (m : Matcher)
    (dirs : List (List Text × List Text)) (x : ResolveError) :
    (r.walk src found ⟨⟨none, asked⟩, m⟩ dirs).1 = .error x
      ↔ ∃ path e, x = .unusable path e ∧
          (upTo (endsWalk ∘ src) (dirs.map fun d => r.configPath d.1)).getLast? = some path ∧
          src path = .error e ∧ e.isMissing = false := by
  refine walk_induction (P := fun _ _ dirs out => out.1 = .error x ↔
    ∃ path e, x = .unusable path e ∧
      (upTo (endsWalk ∘ src) (dirs.map fun d => r.configPath d.1)).getLast? = some path ∧
      src path = .error e ∧ e.isMissing = false)
    ?done ?missing ?fatal ?root ?file found asked m dirs
  case done =>
    intro found asked m
    simp
  case missing =>
    intro found asked m dir rest dirs e out hsrc he hout
    rw [hout, List.map_cons, upTo_missing hsrc he]
    exact exists_last_cons_iff (by simp [hsrc, he])
  case fatal =>
    intro found asked m dir rest dirs e hsrc he
    rw [List.map_cons, upTo_fatal hsrc he]
    constructor
    · intro h1
      cases h1
      exact ⟨_, e, rfl, rfl, hsrc, he⟩
    · intro h1
      obtain ⟨path, e', rfl, hlast, hsrc', -⟩ := h1
      obtain rfl : r.configPath dir = path := by simpa using hlast
      rw [hsrc] at hsrc'
      cases hsrc'
      rfl
  case root =>
    intro found asked m dir rest dirs file hsrc hf
    rw [List.map_cons, upTo_root hsrc hf]
    constructor
    · intro h1
      cases h1
    · intro h1
      obtain ⟨path, e', rfl, hlast, hsrc', -⟩ := h1
      obtain rfl : r.configPath dir = path := by simpa using hlast
      rw [hsrc] at hsrc'
      cases hsrc'
  case file =>
    intro found asked m dir rest dirs file out hsrc hf hout
    rw [hout, List.map_cons, upTo_file hsrc hf]
    exact exists_last_cons_iff (by simp [hsrc])

/-! ## What does not matter -/

/-- Sources that agree on what is asked of the first one lead to the same end. -/
theorem walk_eq_of_agree [Regex.Engine] {src' : Source} (found : Resolution) (asked : List Text)
    (m : Matcher) (dirs : List (List Text × List Text))
    (h : ∀ path ∈ upTo (endsWalk ∘ src) (dirs.map fun d => r.configPath d.1),
      src' path = src path) :
    r.walk src' found ⟨⟨none, asked⟩, m⟩ dirs = r.walk src found ⟨⟨none, asked⟩, m⟩ dirs := by
  have hread {dir : List Text} {paths asked : List Text}
      (h : ∀ path ∈ r.configPath dir :: paths, src' path = src path) :
      Reader.read src' (r.configPath dir) ⟨none, asked⟩
        = (src (r.configPath dir), ⟨none, asked ++ [r.configPath dir]⟩) := by
    rw [read_uncached, h _ List.mem_cons_self]
  revert h
  refine walk_induction (P := fun found s dirs out =>
    (∀ path ∈ upTo (endsWalk ∘ src) (dirs.map fun d => r.configPath d.1), src' path = src path) →
    r.walk src' found s dirs = out) ?done ?missing ?fatal ?root ?file found asked m dirs
  case done =>
    intro found asked m _
    rfl
  case missing =>
    intro found asked m dir rest dirs e out hsrc he hout h
    rw [List.map_cons, upTo_missing hsrc he] at h
    rw [walk_missing ((hread h).trans (by rw [hsrc])) he]
    exact hout fun path hp => h path (List.mem_cons_of_mem _ hp)
  case fatal =>
    intro found asked m dir rest dirs e hsrc he h
    rw [List.map_cons, upTo_fatal hsrc he] at h
    rw [walk_fatal ((hread h).trans (by rw [hsrc])) he]
  case root =>
    intro found asked m dir rest dirs file hsrc hf h
    rw [List.map_cons, upTo_root hsrc hf] at h
    rw [walk_root ((hread h).trans (by rw [hsrc])) hf]
  case file =>
    intro found asked m dir rest dirs file out hsrc hf hout h
    rw [List.map_cons, upTo_file hsrc hf] at h
    rw [walk_file ((hread h).trans (by rw [hsrc])) hf]
    exact hout fun path hp => h path (List.mem_cons_of_mem _ hp)

/-! ## Resolutions -/

theorem resolve_eq_walk [Regex.Engine] {home : Option Text} {target : Text} {names : List Text}
    {version : Option Version} (hn : Path.absolute? home target = some names)
    (hv : r.requestedVersion = .ok version) (s : Session) :
    r.resolve home src target s
      = ((r.walk src {} s (Path.ancestors names)).1.map
          fun found => { found with definition.version := version },
        (r.walk src {} s (Path.ancestors names)).2) := by
  rw [resolve, hn]
  simp only [hv]
  cases hw : r.walk src {} s (Path.ancestors names) with
  | mk out s' =>
    cases out with
    | error e => rfl
    | ok found => rfl

theorem exists_requestedVersion (h : ∀ t, r.version = some t → Version.requested? t ≠ none) :
    ∃ version, r.requestedVersion = .ok version := by
  unfold requestedVersion
  cases hv : r.version with
  | none => exact ⟨none, rfl⟩
  | some t =>
    obtain ⟨v, ht⟩ := Option.ne_none_iff_exists'.1 (h t hv)
    exact ⟨some v, by simp only [ht]⟩

/-- **The boundary of the walk.**  A target without an absolute path fails first, then a wrong
version, both without a question to the source.  Otherwise the source is asked for the paths in
`asks` and for nothing else; the resolution fails exactly when the last of their answers is a
failure other than a missing file; and sources that agree on these paths give the same result after
the same questions. -/
theorem resolve_boundary [Regex.Engine] (r : Resolver) (home : Option Text) (src : Source)
    (target : Text) (m : Matcher) :
    (Path.absolute? home target = none →
      r.resolve home src target { matcher := m }
        = (.error (.noDirectory target), { matcher := m })) ∧
    ∀ names, Path.absolute? home target = some names →
      (∀ t, r.version = some t → Version.requested? t = none →
        r.resolve home src target { matcher := m }
          = (.error (.invalidVersion t), { matcher := m })) ∧
      ((∀ t, r.version = some t → Version.requested? t ≠ none) →
        (r.resolve home src target { matcher := m }).2.reader.asked = r.asks src names ∧
        (∀ x, (r.resolve home src target { matcher := m }).1 = .error x
          ↔ ∃ path e, x = .unusable path e ∧ (r.asks src names).getLast? = some path ∧
              src path = .error e ∧ e.isMissing = false) ∧
        ∀ src' : Source, (∀ path ∈ r.asks src names, src' path = src path) →
          r.resolve home src' target { matcher := m }
            = r.resolve home src target { matcher := m }) := by
  refine ⟨fun hn => by rw [resolve, hn], fun names hn => ⟨fun t ht hv => ?_, fun hv => ?_⟩⟩
  · have hr : r.requestedVersion = .error (.invalidVersion t) := by
      rw [requestedVersion, ht]
      simp only [hv]
    rw [resolve, hn]
    simp only [hr]
  · obtain ⟨version, hr⟩ := exists_requestedVersion hv
    have hasked : (r.walk src {} { matcher := m } (Path.ancestors names)).2.reader
        = ⟨none, r.asks src names⟩ := by
      rw [asked_walk, map_ancestors]
      rfl
    have herror (x : ResolveError) :
        (r.walk src {} { matcher := m } (Path.ancestors names)).1 = .error x
          ↔ ∃ path e, x = .unusable path e ∧ (r.asks src names).getLast? = some path ∧
              src path = .error e ∧ e.isMissing = false := by
      rw [walk_eq_error, map_ancestors]
      rfl
    refine ⟨?_, fun x => ?_, fun src' h => ?_⟩
    · rw [resolve_eq_walk hn hr, hasked]
    · rw [resolve_eq_walk hn hr]
      refine Iff.trans ?_ (herror x)
      show Except.map _ _ = Except.error x ↔ _ = Except.error x
      cases (r.walk src {} ⟨⟨none, []⟩, m⟩ (Path.ancestors names)).1 with
      | error e => exact Iff.rfl
      | ok found => simp [Except.map]
    · rw [resolve_eq_walk hn hr, resolve_eq_walk hn hr]
      have hwalk : r.walk src' {} { matcher := m } (Path.ancestors names)
          = r.walk src {} { matcher := m } (Path.ancestors names) := by
        refine walk_eq_of_agree {} [] m (Path.ancestors names) ?_
        rw [map_ancestors]
        exact h
      rw [hwalk]

/-- The directory itself has no config file and the next one has one that cannot be read: what lies
above is not asked for. -/
theorem resolve_boundary_denied :
    let denied : SourceError := .unreadable "/a/.editorconfig".toList .permissionDenied
    let src : Source := fun path =>
      if path = "/a/.editorconfig".toList then .error denied else .error (.missing path)
    let r : Resolver := { version := some "0.15.1".toList }
    let near : List Text := ["/a/b/.editorconfig".toList, "/a/.editorconfig".toList]
    Path.absolute? none "c".toList = none ∧
      (r.resolve none src "c".toList {}).1 = .error (.noDirectory "c".toList) ∧
      Path.absolute? none "/a/b/c".toList = some [['a'], ['b'], ['c']] ∧
      Version.requested? "one".toList = none ∧
      (({ version := some "one".toList } : Resolver).resolve none src "/a/b/c".toList {}).1
        = .error (.invalidVersion "one".toList) ∧
      Version.requested? "0.15.1".toList ≠ none ∧
      (r.resolve none src "/a/b/c".toList {}).2.reader.asked = near ∧
      (r.resolve none src "/a/b/c".toList {}).1
        = .error (.unusable "/a/.editorconfig".toList denied) ∧
      ∀ src' : Source, (∀ path ∈ near, src' path = src path) →
        r.resolve none src' "/a/b/c".toList {} = r.resolve none src "/a/b/c".toList {} := by
  intro denied src r near
  have hnone : Path.absolute? none "c".toList = none := by decide
  have hnames : Path.absolute? none "/a/b/c".toList = some [['a'], ['b'], ['c']] := by decide
  have hwrong : Version.requested? "one".toList = none := by decide
  have hright : Version.requested? "0.15.1".toList ≠ none := by decide
  have hversion : ∀ t, r.version = some t → Version.requested? t ≠ none := by
    rintro t ⟨rfl⟩
    exact hright
  have hasks : r.asks src [['a'], ['b'], ['c']] = near := by decide
  obtain ⟨hpath, hwalk⟩ := resolve_boundary r none src "/a/b/c".toList {}
  obtain ⟨hasked, herror, hagree⟩ := (hwalk _ hnames).2 hversion
  rw [hasks] at hasked herror hagree
  refine ⟨hnone, ?_, hnames, hwrong, ?_, hright, hasked, ?_, hagree⟩
  · rw [(resolve_boundary r none src "c".toList {}).1 hnone]
  · rw [((resolve_boundary _ none src "/a/b/c".toList {}).2 _ hnames).1 _ rfl hwrong]
  · exact (herror _).2 ⟨_, denied, rfl, rfl, rfl, rfl⟩

end EditorConfig.Resolver
