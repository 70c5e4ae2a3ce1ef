import EditorConfig.Proofs.Faithful
import EditorConfig.Proofs.Resolver.Walk

/-!
# Caches do not show

* `Step`, `Session.step`     what may be done with a session, and the answer to it;
* `Session.answers`          the answers to several steps, one after the other;
* `Session.opened`           a session with empty caches of any size, or without;
* `Resolver.IsConfigPath`    the paths that a resolution may read;
* `Session.Faithful`         both caches hold what a fresh look-up would give.

A step keeps a session faithful, and a faithful session answers like one without caches.

Main statement: whatever was done before, each step of a session with caches gets the answer that
it gets without them (`answers_opened`).
-/

namespace EditorConfig

/-! ## Steps -/

inductive Step where
  | resolve (home : Option Text) (target : Text)
  | select (selector path : Text)
  | invalidate (path : Text)
  | clearReader
  | clearMatcher
deriving DecidableEq, Repr

inductive Answer where
  | resolved (res : Except ResolveError Resolution)
  | selected (covers : Bool)
  | done
deriving Repr

namespace Session

def step [Regex.Engine] (r : Resolver) (src : Source) (s : Session) : Step → Answer × Session
  | .resolve home target =>
    let (res, s) := r.resolve home src target s
    (.resolved res, s)
  | .select selector path =>
    let (covers, matcher) := s.matcher.selects selector path
    (.selected covers, { s with matcher })
  | .invalidate path => (.done, { s with reader := s.reader.invalidate path })
  | .clearReader => (.done, { s with reader := s.reader.clear })
  | .clearMatcher => (.done, { s with matcher := s.matcher.clear })

/-- The answers to steps that are taken one after the other. -/
def answers [Regex.Engine] (r : Resolver) (src : Source) (s : Session) : List Step → List Answer
  | [] => []
  | x :: xs => (s.step r src x).1 :: ((s.step r src x).2).answers r src xs

/-- A session with empty caches.  Each of the two may be left out, and each may have a limit. -/
def opened (files patterns : Option (Option Nat)) : Session where
  reader := { cache := files.map .empty }
  matcher := { cache := patterns.map .empty }

end Session

/-! ## Config paths -/

namespace Resolver

/-- A path that the resolution of some target may read. -/
def IsConfigPath (r : Resolver) (path : Text) : Prop :=
  ∃ home target names, Path.absolute? home target = some names ∧ path ∈ r.configPaths names

variable {r : Resolver}

theorem isName_of_mem_absolute? {home : Option Text} {target n : Text} {names : List Text}
    (h : Path.absolute? home target = some names) (hn : n ∈ names) : Path.IsName n := by
  unfold Path.absolute? at h
  split at h
  · cases h
    exact Path.isName_of_mem_names hn
  · obtain ⟨dir, -, rfl⟩ := Option.map_eq_some_iff.1 h
    exact Path.isName_of_mem_names hn

theorem IsConfigPath.exists_dir {path : Text} (h : r.IsConfigPath path) :
    ∃ dir, (∀ n ∈ dir, Path.IsName n) ∧ r.configPath dir = path := by
  obtain ⟨home, target, names, hn, hp⟩ := h
  obtain ⟨k, -, rfl⟩ := List.mem_map.1 hp
  exact ⟨names.take k, fun n hm => isName_of_mem_absolute? hn (List.mem_of_mem_take hm), rfl⟩

theorem IsConfigPath.eq_of_parts_eq {p q : Text} (hp : r.IsConfigPath p) (hq : r.IsConfigPath q)
    (h : Path.parts p = Path.parts q) : p = q := by
  obtain ⟨dir, hdir, rfl⟩ := hp.exists_dir
  obtain ⟨dir', hdir', rfl⟩ := hq.exists_dir
  exact configPath_eq_of_parts_eq hdir hdir' h

end Resolver

/-! ## Faithful sessions -/

namespace Session

/-- Both caches hold what a fresh look-up would give. -/
structure Faithful [Regex.Engine] (r : Resolver) (src : Source) (s : Session) : Prop where
  reader : s.reader.Faithful src r.IsConfigPath
  matcher : s.matcher.Faithful

variable {r : Resolver} {src : Source}

theorem faithful_opened [Regex.Engine] (files patterns : Option (Option Nat)) :
    (opened files patterns).Faithful r src where
  reader := by
    intro c hc
    obtain ⟨limit, -, rfl⟩ := Option.map_eq_some_iff.1 hc
    exact Cache.holds_empty limit
  matcher := by
    intro c hc
    obtain ⟨limit, -, rfl⟩ := Option.map_eq_some_iff.1 hc
    exact Cache.holds_empty limit

theorem faithful_uncached [Regex.Engine] : ({} : Session).Faithful r src :=
  faithful_opened none none

/-- Two faithful sessions walk alike, however different their caches are. -/
theorem walk_faithful [Regex.Engine] {s t : Session} (hs : s.Faithful r src) (ht : t.Faithful r src)
    (found : Resolution) {dirs : List (List Text × List Text)}
    (hdirs : ∀ d ∈ dirs, r.IsConfigPath (r.configPath d.1)) :
    (r.walk src found s dirs).1 = (r.walk src found t dirs).1 ∧
      (r.walk src found s dirs).2.Faithful r src := by
  induction dirs generalizing found s t with
  | nil => exact ⟨rfl, hs⟩
  | cons d dirs ih =>
    obtain ⟨dir, rest⟩ := d
    have hdir : r.IsConfigPath (r.configPath dir) := hdirs (dir, rest) (by simp)
    have hdirs' : ∀ d ∈ dirs, r.IsConfigPath (r.configPath d.1) :=
      fun d hd => hdirs d (List.mem_cons_of_mem _ hd)
    obtain ⟨hsread, hsreader⟩ :=
      Reader.faithful_read (fun _ _ => Resolver.IsConfigPath.eq_of_parts_eq) hs.reader hdir
    obtain ⟨htread, htreader⟩ :=
      Reader.faithful_read (fun _ _ => Resolver.IsConfigPath.eq_of_parts_eq) ht.reader hdir
    cases hsr : s.reader.read src (r.configPath dir) with
    | mk a reader =>
      cases htr : t.reader.read src (r.configPath dir) with
      | mk b reader' =>
        rw [hsr] at hsread hsreader
        rw [htr] at htread htreader
        have hsame : a = b := hsread.trans htread.symm
        subst hsame
        cases a with
        | error e =>
          have hs' : Faithful r src ⟨reader, s.matcher⟩ := ⟨hsreader, hs.matcher⟩
          have ht' : Faithful r src ⟨reader', t.matcher⟩ := ⟨htreader, ht.matcher⟩
          cases he : e.isMissing with
          | true =>
            rw [Resolver.walk_missing hsr he, Resolver.walk_missing htr he]
            exact ih hs' ht' found hdirs'
          | false =>
            rw [Resolver.walk_fatal hsr he, Resolver.walk_fatal htr he]
            exact ⟨rfl, hs'⟩
        | ok file =>
          obtain ⟨hsgiven, hsmatcher⟩ :=
            Matcher.faithful_resolution hs.matcher file (Path.below rest)
          obtain ⟨htgiven, htmatcher⟩ :=
            Matcher.faithful_resolution ht.matcher file (Path.below rest)
          have hs' : Faithful r src ⟨reader, _⟩ := ⟨hsreader, hsmatcher⟩
          have ht' : Faithful r src ⟨reader', _⟩ := ⟨htreader, htmatcher⟩
          cases hf : file.isRoot with
          | true =>
            rw [Resolver.walk_root hsr hf, Resolver.walk_root htr hf, hsgiven, htgiven]
            exact ⟨rfl, hs'⟩
          | false =>
            rw [Resolver.walk_file hsr hf, Resolver.walk_file htr hf, hsgiven, htgiven]
            exact ih hs' ht' _ hdirs'

theorem resolve_faithful [Regex.Engine] {s : Session} (hs : s.Faithful r src) (home : Option Text)
    (target : Text) :
    (r.resolve home src target s).1 = (r.resolve home src target {}).1 ∧
      (r.resolve home src target s).2.Faithful r src := by
  cases hn : Path.absolute? home target with
  | none =>
    rw [Resolver.resolve, Resolver.resolve, hn]
    exact ⟨rfl, hs⟩
  | some names =>
    cases hv : r.requestedVersion with
    | error e =>
      rw [Resolver.resolve, Resolver.resolve, hn]
      simp only [hv]
      exact ⟨trivial, hs⟩
    | ok version =>
      have hdirs : ∀ d ∈ Path.ancestors names, r.IsConfigPath (r.configPath d.1) := by
        intro d hd
        refine ⟨home, target, names, hn, ?_⟩
        rw [← Resolver.map_ancestors]
        exact List.mem_map_of_mem hd
      obtain ⟨hwalk, hfaithful⟩ := walk_faithful hs faithful_uncached {} hdirs
      rw [Resolver.resolve_eq_walk hn hv, Resolver.resolve_eq_walk hn hv]
      refine ⟨?_, hfaithful⟩
      show Except.map _ _ = Except.map _ _
      rw [hwalk]

/-- A faithful session answers a step like one without caches, and stays faithful. -/
theorem step_faithful [Regex.Engine] {s : Session} (hs : s.Faithful r src) (x : Step) :
    (s.step r src x).1 = (({} : Session).step r src x).1 ∧
      (s.step r src x).2.Faithful r src := by
  cases x with
  | resolve home target =>
    obtain ⟨hres, hfaithful⟩ := resolve_faithful hs home target
    exact ⟨congrArg Answer.resolved hres, hfaithful⟩
  | select selector path =>
    obtain ⟨hcovers, hfaithful⟩ := Matcher.faithful_selects hs.matcher selector path
    exact ⟨congrArg Answer.selected hcovers, hs.reader, hfaithful⟩
  | invalidate path => exact ⟨rfl, Reader.faithful_invalidate hs.reader path, hs.matcher⟩
  | clearReader => exact ⟨rfl, Reader.faithful_clear s.reader, hs.matcher⟩
  | clearMatcher => exact ⟨rfl, hs.reader, Matcher.faithful_clear s.matcher⟩

theorem answers_faithful [Regex.Engine] {s : Session} (hs : s.Faithful r src) (xs : List Step) :
    s.answers r src xs = xs.map fun x => (({} : Session).step r src x).1 := by
  induction xs generalizing s with
  | nil => rfl
  | cons x xs ih =>
    obtain ⟨hanswer, hfaithful⟩ := step_faithful hs x
    rw [answers, hanswer, ih hfaithful, List.map_cons]

/-- **Caches do not show.**  Whatever steps are taken in a session that begins with empty caches,
each of them gets the answer that it gets in a fresh session without caches.  The source may answer
two spellings of one path differently, since all config paths of a resolver with the same parts are
the same text. -/
theorem answers_opened [Regex.Engine] (r : Resolver) (src : Source) :
    (∀ (files patterns : Option (Option Nat)) (xs : List Step),
      (opened files patterns).answers r src xs
        = xs.map fun x => (({} : Session).step r src x).1) ∧
      ∀ p q, r.IsConfigPath p → r.IsConfigPath q → Path.parts p = Path.parts q → p = q :=
  ⟨fun files patterns => answers_faithful (faithful_opened files patterns),
    fun _ _ => Resolver.IsConfigPath.eq_of_parts_eq⟩

end Session

end EditorConfig
