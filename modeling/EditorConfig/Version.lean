import EditorConfig.Text.Decimal

/-!
# Versions

Versions follow Semantic Versioning 2.0.

* `Version`               three numbers, pre-release identifiers and build identifiers;
* `Version.parse?`        the version that a text denotes;
* `Version.text`          the way a version is written;
* `Version.order`         precedence, which does not look at the build;
* `Version.requested?`    the version that a request names, perhaps in a shorter form.
-/

namespace EditorConfig

structure Version where
  major : Nat
  minor : Nat
  patch : Nat
  pre : List Text := []
  build : List Text := []
deriving DecidableEq, Repr

namespace Version

/-! ## Reading and writing -/

/-- `2 ^ 64`; the numbers of a version are smaller. -/
def numberLimit : Nat := 0x10000000000000000

/-- Digits without leading zeros, of a number of 64 bits. -/
def number? (t : Text) : Option Nat :=
  if t ≠ [] ∧ t.all Char.isDigit ∧ (t = ['0'] ∨ t.head? ≠ some '0')
      ∧ Decimal.value t < numberLimit then some (Decimal.value t)
  else none

def isIdentifierChar (c : Char) : Bool := c.isAlphanum || c == '-'

def isBuildIdentifier (t : Text) : Bool := t ≠ [] && t.all isIdentifierChar

def isNumeric (t : Text) : Bool := t.all Char.isDigit

/-- A numeric identifier of a pre-release has no leading zeros. -/
def isPreIdentifier (t : Text) : Bool :=
  isBuildIdentifier t && !(isNumeric t && t.head? = some '0' && t ≠ ['0'])

/-- A text and, when `sep` occurs in it, the identifiers after the first `sep`. -/
def suffixed? (sep : Char) (valid : Text → Bool) (t : Text) : Option (Text × List Text) :=
  match t.cut? sep with
  | none => some (t, [])
  | some (before, after) =>
    let identifiers := after.splitOn '.'
    if identifiers.all valid then some (before, identifiers) else none

def parse? (t : Text) : Option Version := do
  let (t, build) ← suffixed? '+' isBuildIdentifier t
  let (t, pre) ← suffixed? '-' isPreIdentifier t
  match t.splitOn '.' with
  | [major, minor, patch] =>
    return ⟨← number? major, ← number? minor, ← number? patch, pre, build⟩
  | _ => none

def suffixText (sep : Char) (identifiers : List Text) : Text :=
  if identifiers = [] then [] else sep :: ['.'].intercalate identifiers

def preText (v : Version) : Text := ['.'].intercalate v.pre

def buildText (v : Version) : Text := ['.'].intercalate v.build

def text (v : Version) : Text :=
  ['.'].intercalate [Decimal.nat v.major, Decimal.nat v.minor, Decimal.nat v.patch]
    ++ suffixText '-' v.pre ++ suffixText '+' v.build

/-! ## Precedence -/

/-- Numeric identifiers come first, in the order of their numbers; the others by their letters. -/
def identifierOrder (s t : Text) : Ordering :=
  match isNumeric s, isNumeric t with
  | true, true => compare (Decimal.value s) (Decimal.value t)
  | true, false => .lt
  | false, true => .gt
  | false, false => if s < t then .lt else if s = t then .eq else .gt

/-- The first difference decides; otherwise the shorter list comes first. -/
def identifiersOrder : List Text → List Text → Ordering
  | [], [] => .eq
  | [], _ :: _ => .lt
  | _ :: _, [] => .gt
  | s :: ss, t :: ts => (identifierOrder s t).then (identifiersOrder ss ts)

/-- A pre-release comes before its release. -/
def preOrder (s t : List Text) : Ordering :=
  match s, t with
  | [], [] => .eq
  | [], _ :: _ => .gt
  | _ :: _, [] => .lt
  | s, t => identifiersOrder s t

def order (v w : Version) : Ordering :=
  (compare v.major w.major).then <| (compare v.minor w.minor).then <|
    (compare v.patch w.patch).then (preOrder v.pre w.pre)

/-- Whether `v` is `w` or newer. -/
def atLeast (v w : Version) : Bool := v.order w != .lt

/-! ## Requests -/

/-- A text with the numbers that it leaves out, which are zero. -/
def padded (t : Text) : Text :=
  match (t.splitOn '.').length with
  | 1 => t ++ ".0.0".toList
  | 2 => t ++ ".0".toList
  | _ => t

/-- The version that a request names: a `v` in front is left out, missing numbers are zero. -/
def requested? (t : Text) : Option Version :=
  parse? (padded (if t.head? = some 'v' then t.tail else t))

end Version

end EditorConfig
