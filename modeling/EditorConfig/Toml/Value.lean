import EditorConfig.Text.Basic
import EditorConfig.Text.Decimal

/-!
# TOML values

* `Toml.Value`         the values of a TOML document;
* `Toml.Origin`        how a table came to be, which decides who may add to it;
* `Toml.edit`          a change to the table at the end of a path, where the path is allowed;
* `Toml.integer?`      integers of 64 bits, in four bases, with underscores between digits;
* `Toml.isFloat`       floating-point numbers that are not too large;
* `Toml.isMoment`      dates, times of day, and both together;
* `Toml.scalar?`       the value that a run of characters denotes;
* `Toml.basic?`        the rest of a string between quotation marks, with escapes;
* `Toml.basicLines?`   the same over several lines;
* `Toml.literal?`      the rest of a string between apostrophes, without escapes;
* `Toml.literalLines?` the same over several lines;
* `Toml.string?`       a string of any kind, and the text after it.
-/

namespace EditorConfig.Toml

/-! ## Values -/

/-- How a table came to be. -/
inductive Origin where
  /-- It has a header of its own. -/
  | header
  /-- A header below it mentions it. -/
  | mentioned
  /-- A dotted key leads through it. -/
  | dotted
  /-- It is written between braces, and complete. -/
  | braces
deriving DecidableEq, Repr

/-- Floating-point numbers and points in time are recognised, but not worked with. -/
inductive Value where
  | text (t : Text)
  | integer (n : Int)
  | float
  | moment
  | truth (b : Bool)
  | array (vs : List Value)
  | table (origin : Origin) (entries : List (Text × Value))
  /-- The tables under one header between double brackets. -/
  | tables (ts : List (List (Text × Value)))

abbrev Entries := List (Text × Value)

namespace Entries

def get? (es : Entries) (key : Text) : Option Value := List.lookup key es

/-- The entries with a value put in place of the old one, or at the end. -/
def set (key : Text) (v : Value) : Entries → Entries
  | [] => [(key, v)]
  | (k, w) :: es => if k = key then (k, v) :: es else (k, w) :: set key v es

end Entries

/-- The entries `es` of a table with the origin `o`, after the change `f` to the table at the end
of the path.  Tables on the way come into being when they are missing.  A dotted key may not lead
through a table that has a header. -/
def edit (dotted : Bool) (f : Origin → Entries → Option Entries) :
    List Text → Origin → Entries → Option Entries
  | [], o, es => f o es
  | key :: path, _, es =>
    match es.get? key with
    | none =>
      let origin := if dotted then Origin.dotted else .mentioned
      (edit dotted f path origin []).map fun t => es.set key (.table origin t)
    | some (.table .braces _) => none
    | some (.table origin t) =>
      if dotted ∧ origin = .header then none
      else (edit dotted f path origin t).map fun t => es.set key (.table origin t)
    | some (.tables ts) =>
      match ts.getLast? with
      | none => none
      | some t =>
        (edit dotted f path .header t).map fun t => es.set key (.tables (ts.dropLast ++ [t]))
    | some _ => none

/-- A new entry under a dotted key; its path may lead only through tables of dotted keys. -/
def define (path : List Text) (key : Text) (v : Value) (es : Entries) : Option Entries :=
  edit true (fun origin es =>
    if (origin = .dotted ↔ path = []) ∨ (es.get? key).isSome then none
    else some (es.set key v)) path .header es

/-- The table under the header `[path.key]`, which is empty or was only mentioned before. -/
def openTable (path : List Text) (key : Text) (es : Entries) : Option Entries :=
  edit false (fun _ es =>
    match es.get? key with
    | none => some (es.set key (.table .header []))
    | some (.table .mentioned t) => some (es.set key (.table .header t))
    | some _ => none) path .header es

/-- One more table under the header `[[path.key]]`. -/
def openTables (path : List Text) (key : Text) (es : Entries) : Option Entries :=
  edit false (fun _ es =>
    match es.get? key with
    | none => some (es.set key (.tables [[]]))
    | some (.tables ts) => some (es.set key (.tables (ts ++ [[]])))
    | some _ => none) path .header es

/-! ## Numbers -/

/-- The digits of a number, when single underscores stand only between digits. -/
def digits? (isDigit : Char → Bool) (t : Text) : Option Text :=
  let ps := t.splitOn '_'
  if ps.all fun p => p ≠ [] && p.all isDigit then some ps.flatten else none

/-- A number without its sign, and whether the sign is a minus. -/
def signed : Text → Bool × Text
  | '-' :: t => (true, t)
  | '+' :: t => (false, t)
  | t => (false, t)

/-- Decimal digits without leading zeros. -/
def whole? (t : Text) : Option Text :=
  (digits? Char.isDigit t).filter fun ds => ds.head? ≠ some '0' || t = ['0']

def hexDigit (c : Char) : Nat :=
  if c.isDigit then Decimal.digit c else c.toLower.toNat - 'a'.toNat + 10

def isHexDigit (c : Char) : Bool := c.isDigit || ('a' ≤ c.toLower && c.toLower ≤ 'f')

def inBase (base : Nat) (ds : Text) : Nat := ds.foldl (fun n c => base * n + hexDigit c) 0

/-- An integer that fits in 64 bits; only decimal ones have a sign. -/
def integer? (t : Text) : Option Int :=
  let fits (n : Int) : Option Int := if Decimal.isWord n then some n else none
  match t with
  | '0' :: 'x' :: t => (digits? isHexDigit t).bind fun ds => fits (inBase 16 ds)
  | '0' :: 'o' :: t =>
    (digits? (fun c => '0' ≤ c && c ≤ '7') t).bind fun ds => fits (inBase 8 ds)
  | '0' :: 'b' :: t =>
    (digits? (fun c => c = '0' || c = '1') t).bind fun ds => fits (inBase 2 ds)
  | t =>
    let (minus, t) := signed t
    (whole? t).bind fun ds => fits (if minus then -(Decimal.value ds) else Decimal.value ds)

/-- The smallest number that does not round to a finite number of double precision: half a unit
above the largest one. -/
def finiteLimit : Nat := Nat.pow 2 1024 - Nat.pow 2 970

/-- Whether `m · 10 ^ e` rounds to a finite number of double precision. -/
def isFinite (m : Nat) (e : Int) : Bool :=
  let places : Int := (Decimal.nat m).length + e
  if m = 0 ∨ places < 300 then true
  else if places > 320 then false
  else if 0 ≤ e then m * Nat.pow 10 e.toNat < finiteLimit
  else m < finiteLimit * Nat.pow 10 (-e).toNat

/-- An exponent: digits with at most one sign in front. -/
def exponent? (t : Text) : Option Int :=
  let (minus, t) := signed t
  (digits? Char.isDigit t).map fun ds => if minus then -(Decimal.value ds) else Decimal.value ds

/-- Whether a number without its sign is one with a fraction or an exponent; a positive one has to
be finite. -/
def isUnsignedFloat (minus : Bool) (t : Text) : Bool :=
  let (mantissa, exponent) := match t.cut? 'e' <|> t.cut? 'E' with
    | some (m, e) => (m, some e)
    | none => (t, none)
  let (front, fraction) := match mantissa.cut? '.' with
    | some (f, d) => (f, some d)
    | none => (mantissa, none)
  match whole? front, fraction.map (digits? Char.isDigit), exponent.map exponent? with
  | some _, none, none => false
  | some ds, none, some (some e) => minus || isFinite (Decimal.value ds) e
  | some ds, some (some fs), none => minus || isFinite (Decimal.value (ds ++ fs)) (-fs.length)
  | some ds, some (some fs), some (some e) =>
    minus || isFinite (Decimal.value (ds ++ fs)) (e - fs.length)
  | _, _, _ => false

def isFloat (t : Text) : Bool :=
  let (minus, t) := signed t
  t = "inf".toList || t = "nan".toList || isUnsignedFloat minus t

/-! ## Dates and times -/

/-- A number of exactly `n` digits. -/
def fixed? (n : Nat) (t : Text) : Option Nat :=
  if t.length = n ∧ t.all Char.isDigit then some (Decimal.value t) else none

def daysOf (year month : Nat) : Nat :=
  if month = 2 then
    if year % 4 = 0 ∧ (year % 100 ≠ 0 ∨ year % 400 = 0) then 29 else 28
  else if month ∈ [4, 6, 9, 11] then 30 else 31

def isDate (t : Text) : Bool :=
  match t.splitOn '-' with
  | [y, m, d] =>
    match fixed? 4 y, fixed? 2 m, fixed? 2 d with
    | some y, some m, some d => 1 ≤ m && m ≤ 12 && 1 ≤ d && d ≤ daysOf y m
    | _, _, _ => false
  | _ => false

/-- Hours and minutes. -/
def isClock (h m : Text) : Bool :=
  match fixed? 2 h, fixed? 2 m with
  | some h, some m => h ≤ 23 && m ≤ 59
  | _, _ => false

/-- A time of day; the seconds may have a fraction, and there may be a leap second. -/
def isTime (t : Text) : Bool :=
  match t.splitOn ':' with
  | [h, m, s] =>
    let (s, fraction) := match Text.cut? '.' s with
      | some (s, f) => (s, some f)
      | none => (s, none)
    isClock h m && (fixed? 2 s).any (· ≤ 60)
      && fraction.all fun f => f ≠ [] && f.all Char.isDigit
  | _ => false

/-- A distance from universal time. -/
def isOffset (t : Text) : Bool :=
  match t.splitOn ':' with
  | [h, m] => isClock h m
  | _ => false

/-- A time of day, perhaps with its distance from universal time. -/
def isZonedTime (t : Text) : Bool :=
  isTime t
    || (t.getLast?.any (fun c => c = 'Z' || c = 'z') && isTime t.dropLast)
    || [t.cut? '+', t.cut? '-'].any (fun cut => cut.any fun (a, b) => isTime a && isOffset b)

def isMoment (t : Text) : Bool :=
  isDate t || isTime t || (isDate (t.take 10)
    && (t.drop 10).head?.any (fun c => c = 'T' || c = 't' || c = ' ')
    && isZonedTime (t.drop 11))

/-! ## Any of them -/

def scalar? (t : Text) : Option Value :=
  if t = "true".toList then some (.truth true)
  else if t = "false".toList then some (.truth false)
  else if isMoment t then some .moment
  else if isFloat t then some .float
  else (integer? t).map .integer

/-! ## Strings -/

open Text (onto)

/-- Characters that may stand in comments and strings. -/
def isOrdinary (c : Char) : Bool := c = '\t' || (32 ≤ c.toNat && c.toNat ≠ 127)

def isBlank (c : Char) : Bool := c = ' ' || c = '\t'

/-- The character with a code point in hexadecimal. -/
def scalarValue? (t : Text) : Option Char :=
  let n := inBase 16 t
  if t.all isHexDigit ∧ n.isValidChar then some (Char.ofNat n) else none

/-- The meaning of a short escape. -/
def escape? (c : Char) : Option Char :=
  [('b', '\x08'), ('t', '\t'), ('n', '\n'), ('f', '\x0c'), ('r', '\r'), ('"', '"'),
    ('\\', '\\')].lookup c

def basic? : Text → Option (Text × Text)
  | [] => none
  | '"' :: t => some ([], t)
  | '\\' :: 'u' :: a :: b :: c :: d :: t =>
    (scalarValue? [a, b, c, d]).bind fun x => onto x (basic? t)
  | '\\' :: 'U' :: a :: b :: c :: d :: e :: f :: g :: h :: t =>
    (scalarValue? [a, b, c, d, e, f, g, h]).bind fun x => onto x (basic? t)
  | '\\' :: c :: t => (escape? c).bind fun x => onto x (basic? t)
  | c :: t => if isOrdinary c ∧ c ≠ '\\' then onto c (basic? t) else none

/-- Whether only blanks stand before the end of the line. -/
def endsLine (t : Text) : Bool :=
  match t.dropWhile isBlank with
  | '\n' :: _ => true
  | '\r' :: '\n' :: _ => true
  | _ => false

/-- `skipping` says that a backslash at the end of a line is still taking away white space. -/
def basicLines? (skipping : Bool) : Text → Option (Text × Text)
  | [] => none
  | '"' :: '"' :: '"' :: '"' :: '"' :: t => some (['"', '"'], t)
  | '"' :: '"' :: '"' :: '"' :: t => some (['"'], t)
  | '"' :: '"' :: '"' :: t => some ([], t)
  | '\r' :: '\n' :: t => if skipping then basicLines? true t else onto '\n' (basicLines? false t)
  | '\n' :: t => if skipping then basicLines? true t else onto '\n' (basicLines? false t)
  | '\\' :: 'u' :: a :: b :: c :: d :: t =>
    (scalarValue? [a, b, c, d]).bind fun x => onto x (basicLines? false t)
  | '\\' :: 'U' :: a :: b :: c :: d :: e :: f :: g :: h :: t =>
    (scalarValue? [a, b, c, d, e, f, g, h]).bind fun x => onto x (basicLines? false t)
  | '\\' :: c :: t =>
    if endsLine (c :: t) then basicLines? true (c :: t)
    else (escape? c).bind fun x => onto x (basicLines? false t)
  | c :: t =>
    if skipping ∧ isBlank c then basicLines? true t
    else if isOrdinary c ∧ c ≠ '\\' then onto c (basicLines? false t)
    else none

def literal? : Text → Option (Text × Text)
  | [] => none
  | '\'' :: t => some ([], t)
  | c :: t => if isOrdinary c then onto c (literal? t) else none

def literalLines? : Text → Option (Text × Text)
  | [] => none
  | '\'' :: '\'' :: '\'' :: '\'' :: '\'' :: t => some (['\'', '\''], t)
  | '\'' :: '\'' :: '\'' :: '\'' :: t => some (['\''], t)
  | '\'' :: '\'' :: '\'' :: t => some ([], t)
  | '\r' :: '\n' :: t => onto '\n' (literalLines? t)
  | '\n' :: t => onto '\n' (literalLines? t)
  | c :: t => if isOrdinary c then onto c (literalLines? t) else none

/-- A text without the newline in front. -/
def afterNewline : Text → Text
  | '\r' :: '\n' :: t => t
  | '\n' :: t => t
  | t => t

/-- A string on one line, as keys are. -/
def lineString? : Text → Option (Text × Text)
  | '"' :: t => basic? t
  | '\'' :: t => literal? t
  | _ => none

def string? : Text → Option (Text × Text)
  | '"' :: '"' :: '"' :: t => basicLines? false (afterNewline t)
  | '\'' :: '\'' :: '\'' :: t => literalLines? (afterNewline t)
  | t => lineString? t

end EditorConfig.Toml
