import EditorConfig.Source
import EditorConfig.Resolver
import EditorConfig.Toml.Document

/-!
# Configuration of a resolver

* `Config`             the name of config files, the version, and whether to keep what was read;
* `Config.ofToml?`     a configuration from TOML text; missing keys take their defaults;
* `Config.load`        a configuration from a file;
* `Config.resolver`, `Config.session`   the resolver for a configuration, and where it starts.
-/

namespace EditorConfig

structure Config where
  name : Text := ".editorconfig".toList
  /-- The version to resolve for, not checked yet. -/
  version : Option Text := none
  /-- Keep snapshots and patterns between resolutions. -/
  cache : Bool := false
  /-- The most that each cache keeps; none or zero sets no limit. -/
  cacheCapacity : Option Nat := none
deriving DecidableEq, Repr

/-- Why a configuration cannot be had. -/
inductive ConfigError where
  | unreadable (kind : IoKind)
  | malformed
deriving DecidableEq, Repr

namespace Config

/-! ## Reading -/

/-- The value under a key, read in the way that its type asks for. -/
def optional? {α : Type} (read : Toml.Value → Option α) (key : Text) (es : Toml.Entries) :
    Option (Option α) :=
  match es.get? key with
  | none => some none
  | some v => (read v).map some

def textValue? : Toml.Value → Option Text
  | .text t => some t
  | _ => none

def truthValue? : Toml.Value → Option Bool
  | .truth b => some b
  | _ => none

def countValue? : Toml.Value → Option Nat
  | .integer (.ofNat n) => some n
  | _ => none

/-- The configuration that a document describes; other keys do not matter. -/
def ofEntries? (es : Toml.Entries) : Option Config := do
  let name ← optional? textValue? "name".toList es
  let version ← optional? textValue? "version".toList es
  let cache ← optional? truthValue? "cache".toList es
  let cacheCapacity ← optional? countValue? "cache_capacity".toList es
  let defaults : Config := {}
  some { name := name.getD defaults.name, version, cache := cache.getD defaults.cache,
         cacheCapacity }

def ofToml? (t : Text) : Option Config := (Toml.document? t).bind ofEntries?

def load (tree : FileTree) (path : Text) : Except ConfigError Config :=
  match tree.readText path with
  | .error kind => .error (.unreadable kind)
  | .ok t =>
    match ofToml? t with
    | none => .error .malformed
    | some c => .ok c

/-! ## Use -/

def resolver (c : Config) : Resolver := ⟨c.name, c.version⟩

/-- The limit of each cache. -/
def limit (c : Config) : Option Nat := c.cacheCapacity.filter (0 < ·)

/-- A session before its first step. -/
def session (c : Config) : Session :=
  if c.cache then ⟨{ cache := some (.empty c.limit) }, { cache := some (.empty c.limit) }⟩ else {}

end Config

end EditorConfig
