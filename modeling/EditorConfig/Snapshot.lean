import EditorConfig.Definition
import EditorConfig.Text.Basic
import EditorConfig.Text.Quoted

/-!
# Config files

A config file is read line by line: blank lines and comments, headers `[selector]`, and pairs
`name = value`.  The first line that is none of these is the fault of the file.

* `Section`             a selector and the properties under it;
* `Section.declaring`   a section with one more property, under a name in small letters;
* `Snapshot`            a config file as it was read;
* `Line`                the kinds of lines;
* `Line.ofText`         the kind of a line;
* `LineFault`           what is wrong with a line, with its wording;
* `Snapshot.parse`      the snapshot of a text, or its first bad line.
-/

namespace EditorConfig

/-! ## Snapshots -/

structure Section where
  selector : Text
  /-- Names are in small letters, values as written. -/
  properties : Properties := .empty
deriving DecidableEq, Repr

def Section.declaring (s : Section) (name value : Text) : Section :=
  { s with properties := s.properties.insert (Text.lower name) value }

structure Snapshot where
  /-- No farther config file applies. -/
  isRoot : Bool := false
  /-- Where the file was read from. -/
  path : Text := []
  sections : List Section := []
deriving DecidableEq, Repr

/-! ## Lines -/

inductive LineFault where
  | unclosedHeader
  | missingName
  /-- The line, without the white space around it. -/
  | notPair (line : Text)
deriving DecidableEq, Repr

def LineFault.message : LineFault → Text
  | unclosedHeader => "unterminated section header".toList
  | missingName => "missing property name".toList
  | notPair line => "expected `key = value`, found ".toList ++ Text.quoted line

inductive Line where
  | ignorable
  | header (selector : Text)
  | pair (name value : Text)
  | bad (fault : LineFault)
deriving DecidableEq, Repr

namespace Line

/-- A header, from the text after its opening bracket. -/
def ofHeader (t : Text) : Line :=
  if t.getLast? = some ']' then header (Text.trim t.dropLast) else bad .unclosedHeader

/-- A pair, from a trimmed line. -/
def ofPair (t : Text) : Line :=
  match t.cut? '=' with
  | none => bad (.notPair t)
  | some (name, value) =>
    if Text.trim name = [] then bad .missingName
    else pair (Text.lower (Text.trim name)) (Text.trim value)

/-- The kind of a trimmed line. -/
def ofTrimmed : Text → Line
  | [] => ignorable
  | c :: t =>
    if c = '#' ∨ c = ';' then ignorable else if c = '[' then ofHeader t else ofPair (c :: t)

def ofText (t : Text) : Line := ofTrimmed (Text.trim t)

end Line

/-! ## Files -/

/-- A bad line, counted from one. -/
structure FileFault where
  line : Nat
  fault : LineFault
deriving DecidableEq, Repr

def FileFault.message (f : FileFault) : Text :=
  "line ".toList ++ Decimal.nat f.line ++ ": ".toList ++ f.fault.message

namespace Line

/-- The first bad line; `n` is the number of the first one here. -/
def firstFault? (n : Nat) : List Line → Option FileFault
  | [] => none
  | .bad fault :: _ => some ⟨n, fault⟩
  | _ :: ls => firstFault? (n + 1) ls

/-- The pairs before the first header, and the sections after it. -/
def sections : List Line → List (Text × Text) × List Section
  | [] => ([], [])
  | .header selector :: ls =>
    let (pairs, rest) := sections ls
    ([], ⟨selector, .ofList pairs⟩ :: rest)
  | .pair name value :: ls =>
    let (pairs, rest) := sections ls
    ((name, value) :: pairs, rest)
  | _ :: ls => sections ls

end Line

/-- Whether the pairs before the first header make a file the root. -/
def declaresRoot (pairs : List (Text × Text)) : Bool :=
  ((Properties.lastValue? "root".toList pairs).map (Text.sameLetters "true".toList)).getD false

namespace Snapshot

def ofLines (ls : List Line) : Except FileFault Snapshot :=
  match Line.firstFault? 1 ls with
  | some f => .error f
  | none =>
    let (pairs, sections) := Line.sections ls
    .ok { isRoot := declaresRoot pairs, sections }

/-- A text without the mark of its byte order. -/
def unmarked (t : Text) : Text := if t.head? = some (Char.ofNat 0xfeff) then t.tail else t

/-- The lines of a text; a carriage return before a newline is white space of the line. -/
def lines (t : Text) : List Line := ((unmarked t).splitOn '\n').map Line.ofText

def parse (t : Text) : Except FileFault Snapshot := ofLines (lines t)

end Snapshot

end EditorConfig
