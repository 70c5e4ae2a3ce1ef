import EditorConfig.Toml.Value

/-!
# TOML documents

* `Toml.key?`        a key with its parts, and the text after it;
* `Toml.value?`      a value, and the text after it;
* `Toml.document?`   the entries of a whole document.

Every function that is not recursion on the text counts down a number of steps that is larger than
the length of the text.
-/

namespace EditorConfig.Toml

/-! ## Blanks and lines -/

def afterBlanks (t : Text) : Text := t.dropWhile isBlank

/-- The text after blanks, newlines and comments. -/
def afterLines? (inComment : Bool) : Text → Option Text
  | [] => some []
  | '\r' :: '\n' :: t => afterLines? false t
  | '\n' :: t => afterLines? false t
  | c :: t =>
    if inComment then if isOrdinary c then afterLines? true t else none
    else if isBlank c then afterLines? false t
    else if c = '#' then afterLines? true t
    else some (c :: t)

/-- The text after the end of a line, when nothing but a comment stands before it. -/
def nextLine? (inComment : Bool) : Text → Option Text
  | [] => some []
  | '\r' :: '\n' :: t => some t
  | '\n' :: t => some t
  | c :: t =>
    if inComment then if isOrdinary c then nextLine? true t else none
    else if isBlank c then nextLine? false t
    else if c = '#' then nextLine? true t
    else none

/-- The text after the character `c`. -/
def after? (c : Char) (t : Text) : Option Text := if t.head? = some c then some t.tail else none

/-! ## Keys -/

def isBareChar (c : Char) : Bool := c.isAlphanum || c = '-' || c = '_'

def simpleKey? (t : Text) : Option (Text × Text) :=
  match t.takeWhile isBareChar with
  | [] => lineString? t
  | k => some (k, t.dropWhile isBareChar)

/-- The most levels of tables or arrays that are accepted. -/
def depthLimit : Nat := 79

/-- The parts of a dotted key, and the text after it and after blanks. -/
def keyParts? : Nat → Text → Option (List Text × Text)
  | 0, _ => none
  | steps + 1, t => do
    let (k, t) ← simpleKey? t
    let t := afterBlanks t
    match after? '.' t with
    | none => some ([k], t)
    | some t =>
      let (ks, t) ← keyParts? steps (afterBlanks t)
      some (k :: ks, t)

/-- A key as the path to a table and the last part. -/
def key? (t : Text) : Option ((List Text × Text) × Text) := do
  let (ks, t) ← keyParts? (t.length + 1) t
  if depthLimit < ks.length then none
  else ks.getLast?.map fun k => ((ks.dropLast, k), t)

/-! ## Values -/

def isScalarChar (c : Char) : Bool := c.isAlphanum || c ∈ ['+', '-', '_', '.', ':']

/-- A value that is neither a string nor a collection; a date and a time may stand apart. -/
def bare? (t : Text) : Option (Value × Text) :=
  let run := t.takeWhile isScalarChar
  let rest := t.dropWhile isScalarChar
  match rest with
  | ' ' :: c :: more =>
    if isDate run ∧ c.isDigit then
      let time := (c :: more).takeWhile isScalarChar
      (scalar? (run ++ ' ' :: time)).map (·, (c :: more).dropWhile isScalarChar)
    else (scalar? run).map (·, rest)
  | _ => (scalar? run).map (·, rest)

mutual

/-- A value; `depth` is the number of levels that may still be opened. -/
def valueIn? (depth : Nat) : Nat → Text → Option (Value × Text)
  | 0, _ => none
  | steps + 1, t =>
    match t, depth with
    | '[' :: t, d + 1 => (itemsIn? d steps t).map fun (vs, t) => (.array vs, t)
    | '\x7b' :: t, d + 1 =>
      match afterBlanks t with
      | '\x7d' :: t => some (.table .braces [], t)
      | t => (pairsIn? d [] steps t).map fun (es, t) => (.table .braces es, t)
    | '[' :: _, 0 => none
    | '\x7b' :: _, 0 => none
    | '"' :: t, _ => (string? ('"' :: t)).map fun (s, t) => (.text s, t)
    | '\'' :: t, _ => (string? ('\'' :: t)).map fun (s, t) => (.text s, t)
    | t, _ => bare? t

/-- The rest of an array. -/
def itemsIn? (depth : Nat) : Nat → Text → Option (List Value × Text)
  | 0, _ => none
  | steps + 1, t => do
    match ← afterLines? false t with
    | ']' :: t => some ([], t)
    | t =>
      let (v, t) ← valueIn? depth steps t
      match ← afterLines? false t with
      | ']' :: t => some ([v], t)
      | ',' :: t =>
        let (vs, t) ← itemsIn? depth steps t
        some (v :: vs, t)
      | _ => none

/-- The rest of a table between braces, from a key on. -/
def pairsIn? (depth : Nat) (es : Entries) : Nat → Text → Option (Entries × Text)
  | 0, _ => none
  | steps + 1, t => do
    let ((path, k), t) ← key? (afterBlanks t)
    let (v, t) ← valueIn? depth steps (afterBlanks (← after? '=' t))
    let es ← define path k v es
    match afterBlanks t with
    | '\x7d' :: t => some (es, t)
    | ',' :: t => pairsIn? depth es steps t
    | _ => none

end

def value? (t : Text) : Option (Value × Text) := valueIn? depthLimit (2 * t.length + 1) t

/-! ## Statements -/

/-- What has been read of a document: its entries, and the path of the last header. -/
structure State where
  entries : Entries := []
  current : List Text := []

/-- One more pair in the table of the last header. -/
def State.define? (s : State) (path : List Text) (k : Text) (v : Value) : Option State :=
  (edit false (fun _ es => define path k v es) s.current .header s.entries).map fun es =>
    { s with entries := es }

/-- One statement on a line of its own, from its first character on, and the next line. -/
def statement? (s : State) : Text → Option (State × Text)
  | '[' :: '[' :: t => do
    let ((path, k), t) ← key? (afterBlanks t)
    let es ← openTables path k s.entries
    let t ← nextLine? false (← after? ']' (← after? ']' t))
    some (⟨es, path ++ [k]⟩, t)
  | '[' :: t => do
    let ((path, k), t) ← key? (afterBlanks t)
    let es ← openTable path k s.entries
    let t ← nextLine? false (← after? ']' t)
    some (⟨es, path ++ [k]⟩, t)
  | t => do
    let ((path, k), t) ← key? t
    let (v, t) ← value? (afterBlanks (← after? '=' t))
    let t ← nextLine? false t
    let s ← s.define? path k v
    some (s, t)

def statements? (s : State) : Nat → Text → Option State
  | 0, _ => none
  | steps + 1, t => do
    match ← afterLines? false t with
    | [] => some s
    | t =>
      let (s, t) ← statement? s t
      statements? s steps t

/-- The entries of a document; a mark of the byte order may stand in front. -/
def document? (t : Text) : Option Entries :=
  let t := if t.head? = some (Char.ofNat 0xfeff) then t.tail else t
  (statements? {} (t.length + 1) t).map State.entries

end EditorConfig.Toml
