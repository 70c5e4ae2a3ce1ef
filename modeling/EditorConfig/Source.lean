import EditorConfig.Cache
import EditorConfig.Path
import EditorConfig.Snapshot

/-!
# Sources of config files

* `SourceError`          why there is no snapshot of a path, with its wording;
* `Source`               the answer for every path, at one moment;
* `Reader`               a source asked through a cache, with a record of what was asked;
* `Reader.read`          the snapshot of a path: a kept one, or the answer of the source;
* `FileTree`             folders and files by their names from the root;
* `FileTree.node`        what a path leads to;
* `FileTree.readText`    the text of a file;
* `FileTree.source`      a file tree as a source of config files;
* `FileTree.write`, `FileTree.mkdir`, `FileTree.remove`   changes.
-/

namespace EditorConfig

/-! ## Errors -/

/-- The kinds of failure when a file is read. -/
inductive IoKind where
  | notFound
  | permissionDenied
  | timedOut
  | notADirectory
  | isADirectory
  | invalidData
deriving DecidableEq, Repr

inductive SourceError where
  | missing (path : Text)
  | unreadable (path : Text) (kind : IoKind)
  | malformed (path : Text) (fault : FileFault)
deriving DecidableEq, Repr

namespace SourceError

def isMissing : SourceError → Bool
  | missing _ => true
  | _ => false

def path : SourceError → Text
  | missing path => path
  | unreadable path _ => path
  | malformed path _ => path

def message : SourceError → Text
  | missing path => path ++ " does not exist".toList
  | unreadable path _ => "failed to read config file ".toList ++ path
  | malformed path _ => "invalid config file ".toList ++ path

end SourceError

/-! ## Sources -/

/-- What is read at each path, as long as no file changes. -/
abbrev Source := Text → Except SourceError Snapshot

/-- The answer for a file with the given text. -/
def Source.ofText (path content : Text) : Except SourceError Snapshot :=
  match Snapshot.parse content with
  | .ok file => .ok { file with path }
  | .error fault => .error (.malformed path fault)

/-! ## Readers -/

structure Reader where
  /-- The snapshots kept, by the parts of their paths; without a cache the source is always
  asked. -/
  cache : Option (Cache (List Path.Part) Snapshot) := none
  /-- The paths that the source was asked for, in order. -/
  asked : List Text := []
deriving DecidableEq, Repr

namespace Reader

/-- The snapshot of a path.  Errors are not kept, so that the source is asked again. -/
def read (src : Source) (path : Text) (r : Reader) : Except SourceError Snapshot × Reader :=
  match r.cache with
  | none => (src path, { r with asked := r.asked ++ [path] })
  | some c =>
    match c.request? (Path.parts path) with
    | some (file, c) => (.ok file, { r with cache := some c })
    | none =>
      match src path with
      | .ok file => (.ok file, ⟨some (c.store (Path.parts path) file), r.asked ++ [path]⟩)
      | .error e => (.error e, { r with asked := r.asked ++ [path] })

/-- The reader without the snapshot of a path. -/
def invalidate (r : Reader) (path : Text) : Reader :=
  { r with cache := r.cache.map (·.erase (Path.parts path)) }

def clear (r : Reader) : Reader := { r with cache := r.cache.map Cache.clear }

end Reader

/-! ## File trees -/

structure FileTree where
  /-- Each node with its names from the root; a folder holds no content. -/
  nodes : List (List Text × Option ByteArray) := []

namespace FileTree

/-! ### Looking -/

/-- The node with the given names; the root is a folder. -/
def find? (tree : FileTree) (names : List Text) : Option (Option ByteArray) :=
  if names = [] then some none else tree.nodes.lookup names

/-- What the parts of a path lead to from the node `at`: a file's content, or `none` for a folder.
Only a folder leads any farther. -/
def nodeFrom (tree : FileTree) (here : List Text) : List Text → Except IoKind (Option ByteArray)
  | [] =>
    match tree.find? here with
    | none => .error .notFound
    | some n => .ok n
  | p :: ps =>
    match tree.find? here with
    | none => .error .notFound
    | some (some _) => .error .notADirectory
    | some none => tree.nodeFrom (Path.fold here p) ps

def node (tree : FileTree) (path : Text) : Except IoKind (Option ByteArray) :=
  tree.nodeFrom [] (path.splitOn '/')

/-- The text of the file at a path. -/
def readText (tree : FileTree) (path : Text) : Except IoKind Text :=
  match tree.node path with
  | .error kind => .error kind
  | .ok none => .error .isADirectory
  | .ok (some content) =>
    match String.fromUTF8? content with
    | none => .error .invalidData
    | some s => .ok s.toList

def source (tree : FileTree) : Source := fun path =>
  match tree.readText path with
  | .ok content => Source.ofText path content
  | .error .notFound => .error (.missing path)
  | .error kind => .error (.unreadable path kind)

/-! ### Changing -/

def mkdirFrom (tree : FileTree) (here : List Text) : List Text → FileTree
  | [] => tree
  | n :: ns =>
    let tree := match tree.find? (here ++ [n]) with
      | some _ => tree
      | none => ⟨(here ++ [n], none) :: tree.nodes⟩
    tree.mkdirFrom (here ++ [n]) ns

/-- The tree with the folders on the way to a path, and the path a folder. -/
def mkdir (tree : FileTree) (path : Text) : FileTree := tree.mkdirFrom [] (Path.names path)

/-- The tree with a file at a path, and folders on the way to it. -/
def write (tree : FileTree) (path : Text) (content : ByteArray) : FileTree :=
  let names := Path.names path
  let tree := tree.mkdirFrom [] names.dropLast
  ⟨(names, some content) :: tree.nodes.filter fun n => n.1 ≠ names⟩

/-- The tree without a path and what is below it. -/
def remove (tree : FileTree) (path : Text) : FileTree :=
  ⟨tree.nodes.filter fun n => !(Path.names path).isPrefixOf n.1⟩

end FileTree

end EditorConfig
