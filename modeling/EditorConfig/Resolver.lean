import EditorConfig.Matcher
import EditorConfig.Source

/-!
# Resolving

The definition of a file comes from the config files in the directories above it: within one file
the last matching section wins, among files the nearest one.  The walk ends at a root file.

* `Resolution`               a definition, and the values that did not read on the way;
* `ResolveError`             why there is no resolution, with its wording;
* `Session`                  a reader and a matcher, as they are handed from step to step;
* `Matcher.resolution`       the resolution that one config file alone gives a path;
* `Resolver.resolve`         the resolution of a target.
-/

namespace EditorConfig

/-! ## Results -/

structure Resolution where
  definition : Definition := {}
  warnings : List Warning := []
deriving DecidableEq, Repr

inductive ResolveError where
  | noDirectory (target : Text)
  | invalidVersion (version : Text)
  | unusable (path : Text) (cause : SourceError)
  | warnings (ws : List Warning)
deriving DecidableEq, Repr

def ResolveError.message : ResolveError → Text
  | noDirectory target => "cannot get absolute path for ".toList ++ target
  | invalidVersion version =>
    "version ".toList ++ version ++ " error: invalid semantic version".toList
  | unusable path _ => "cannot parse the config file ".toList ++ path
  | warnings ws => Warning.messages ws

/-- The definition, unless there are warnings. -/
def Resolution.strict (r : Resolution) : Except ResolveError Definition :=
  if r.warnings = [] then .ok r.definition else .error (.warnings r.warnings)

/-- One more definition, farther than those before it. -/
def Resolution.add (r : Resolution) (d : Definition) (ws : List Warning) : Resolution :=
  ⟨r.definition.merged d, r.warnings ++ ws⟩

/-! ## One config file -/

structure Session where
  reader : Reader := {}
  matcher : Matcher := {}
deriving DecidableEq, Repr

/-- The matching sections among `ss` added to `r`, in order. -/
def Matcher.addMatching [Regex.Engine] (m : Matcher) (path : Text) (r : Resolution) :
    List Section → Resolution × Matcher
  | [] => (r, m)
  | s :: ss =>
    match m.selects s.selector path with
    | (true, m) =>
      m.addMatching path
        (r.add (Definition.ofProperties s.properties) (Definition.warnings s.properties)) ss
    | (false, m) => m.addMatching path r ss

/-- What a config file gives a path relative to its directory: its last section comes first. -/
def Matcher.resolution [Regex.Engine] (m : Matcher) (file : Snapshot) (path : Text) :
  Resolution × Matcher :=
  m.addMatching path {} file.sections.reverse

/-! ## The walk -/

structure Resolver where
  /-- The name of config files. -/
  name : Text := ".editorconfig".toList
  /-- The version to resolve for, as requested. -/
  version : Option Text := none
deriving DecidableEq, Repr

namespace Resolver

/-- The path of the config file in a directory. -/
def configPath (r : Resolver) (dir : List Text) : Text := Path.join (Path.ofNames dir) r.name

/-- The config files of the directories, each with the names below it, added to `found`. -/
def walk [Regex.Engine] (r : Resolver) (src : Source) (found : Resolution) (s : Session) :
    List (List Text × List Text) → Except ResolveError Resolution × Session
  | [] => (.ok found, s)
  | (dir, rest) :: dirs =>
    match s.reader.read src (r.configPath dir) with
    | (.error e, reader) =>
      if e.isMissing then r.walk src found { s with reader } dirs
      else (.error (.unusable (r.configPath dir) e), { s with reader })
    | (.ok file, reader) =>
      let (given, matcher) := s.matcher.resolution file (Path.below rest)
      let found := found.add given.definition given.warnings
      if file.isRoot then (.ok found, ⟨reader, matcher⟩)
      else r.walk src found ⟨reader, matcher⟩ dirs

/-- The version asked for, if any; it has to be one. -/
def requestedVersion (r : Resolver) : Except ResolveError (Option Version) :=
  match r.version with
  | none => .ok none
  | some t =>
    match Version.requested? t with
    | some v => .ok (some v)
    | none => .error (.invalidVersion t)

/-- The resolution of a target; `home` is the current directory, if it is known.  A target
without an absolute path fails before anything else, a wrong version before any file is read. -/
def resolve [Regex.Engine] (r : Resolver) (home : Option Text) (src : Source) (target : Text)
    (s : Session) : Except ResolveError Resolution × Session :=
  match Path.absolute? home target with
  | none => (.error (.noDirectory target), s)
  | some names =>
    match r.requestedVersion with
    | .error e => (.error e, s)
    | .ok version =>
      match r.walk src {} s (Path.ancestors names) with
      | (.error e, s) => (.error e, s)
      | (.ok found, s) => (.ok { found with definition.version := version }, s)

/-- A resolver on one line, for people who look for faults. -/
def description (r : Resolver) : Text :=
  let version := match r.version with
    | none => "None".toList
    | some v => "Some(".toList ++ Text.quoted v ++ [')']
  "Resolver \x7b name: ".toList ++ Text.quoted r.name ++ ", version: ".toList ++ version
    ++ ", .. \x7d".toList

end Resolver

end EditorConfig
