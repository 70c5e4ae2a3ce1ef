import EditorConfig.Text.Basic

/-!
# Regular expressions

The expressions that stand for selectors: only one-character expressions are repeated.  Between the
brackets of a class stand characters and dashes.  A dash between two characters makes a range, two
dashes in a row take what follows away from what precedes, any other dash is a character.

* `Mark`                 a character or a dash between the brackets;
* `Bracket`              a class as it is written;
* `Bracket.signs`        the way it is written;
* `Bracket.charClass?`   the class that is meant, unless a range runs backwards;
* `CharClass.has`        membership;
* `CharClass.height`, `CharClass.weight`   how deep the class nests, and how much it adds to a
                         program;
* `Atom`                 what takes a single character;
* `Regex`                expressions;
* `Regex.Denotes`        the texts that an expression stands for;
* `Regex.height`         how deep an expression nests when it is pinned to both ends of the text;
* `Regex.concat`, `Regex.choice`   a sequence and a choice of several expressions;
* `Regex.size`           a bound for the size of the program that an expression is turned into;
* `Regex.Engine`         which programs have room.
-/

namespace EditorConfig

/-! ## Characters with a meaning -/

/-- The characters that have a meaning in an expression. -/
def Regex.isMeta (c : Char) : Bool := "\\.+*?()|[]\x7b\x7d^$#&-~".toList.contains c

/-- A character as it is written in an expression when it stands for itself. -/
def Sign.literal (c : Char) : Sign := if Regex.isMeta c then .quoted c else .plain c

theorem Sign.literal_of_isMeta {c : Char} (h : Regex.isMeta c = true) : literal c = .quoted c :=
  if_pos h

theorem Sign.literal_of_not_isMeta {c : Char} (h : ¬Regex.isMeta c = true) :
    literal c = .plain c :=
  if_neg h

/-- A character with a meaning never stands alone for itself. -/
theorem Sign.literal_ne_plain {c d : Char} (hd : Regex.isMeta d = true) : literal c ≠ .plain d := by
  by_cases h : Regex.isMeta c = true
  · simp [literal_of_isMeta h]
  · rw [literal_of_not_isMeta h]
    rintro ⟨rfl⟩
    exact h hd

/-! ## Written classes -/

inductive Mark where
  | member (c : Char)
  | dash
deriving DecidableEq, Repr

namespace Mark

/-- The character that a mark stands for when it is a member. -/
def char : Mark → Char
  | member c => c
  | dash => '-'

def sign : Mark → Sign
  | member c => .literal c
  | dash => .plain '-'

end Mark

structure Bracket where
  negated : Bool
  marks : List Mark
deriving DecidableEq, Repr

def Bracket.signs (b : Bracket) : List Sign :=
  .plain '[' :: (if b.negated then [.plain '^'] else []) ++ b.marks.map Mark.sign ++ [.plain ']']

/-! ## Classes -/

namespace Regex

/-- The characters from `low` to `high`. -/
structure Interval where
  low : Char
  high : Char
deriving DecidableEq, Repr

def Interval.has (i : Interval) (c : Char) : Bool := i.low ≤ c && c ≤ i.high

/-- The bytes that an interval adds to a program at most: characters of one byte are one way from
state to state, and any other interval falls into no more than 36 of them. -/
def Interval.weight (i : Interval) : Nat := if i.high.toNat < 128 then 40 else 1200

/-- A union of intervals, less other such unions; `negated` turns the outcome round. -/
structure CharClass where
  negated : Bool
  base : List Interval
  removed : List (List Interval)
deriving DecidableEq, Repr

namespace CharClass

def has (k : CharClass) (c : Char) : Bool :=
  k.negated != (k.base.any (·.has c) && !k.removed.any (·.any (·.has c)))

/-- A union of two or more intervals is one level; so is each difference, from left to right. -/
def height (k : CharClass) : Nat :=
  let union (is : List Interval) : Nat := if 2 ≤ is.length then 1 else 0
  1 + k.removed.foldl (fun h is => 1 + max h (union is)) (union k.base)

/-- The bytes that a class adds to a program at most.  One that is turned round has an interval
more, which goes on to the last character there is. -/
def weight (k : CharClass) : Nat :=
  64 + (k.base ++ k.removed.flatten).foldr (fun i n => i.weight + n) 0
    + if k.negated then 936 else 0

end CharClass

end Regex

/-- The unions that marks describe: the first one, and those taken away from it. -/
def Mark.unions? : List Mark → Option (List Regex.Interval × List (List Regex.Interval))
  | [] => some ([], [])
  | .dash :: .dash :: ms => (unions? ms).map fun (base, removed) => ([], base :: removed)
  | m :: .dash :: .member high :: ms =>
    if m.char ≤ high then
      (unions? ms).map fun (base, removed) => (⟨m.char, high⟩ :: base, removed)
    else none
  | m :: ms => (unions? ms).map fun (base, removed) => (⟨m.char, m.char⟩ :: base, removed)

/-- The class that is meant, unless a range runs backwards. -/
def Bracket.charClass? (b : Bracket) : Option Regex.CharClass :=
  (Mark.unions? b.marks).map fun (base, removed) => ⟨b.negated, base, removed⟩

/-! ## Expressions -/

namespace Regex

inductive Atom where
  | char (c : Char)
  /-- Any character but the newline. -/
  | dot
  | oneOf (k : CharClass)
deriving DecidableEq, Repr

namespace Atom

def has : Atom → Char → Bool
  | char c, d => d == c
  | dot, d => d != '\n'
  | oneOf k, d => k.has d

def height : Atom → Nat
  | char _ => 0
  | dot => 0
  | oneOf k => k.height

/-- The bytes that an atom adds to a program at most. -/
def weight : Atom → Nat
  | char c => 40 * c.utf8Size
  | dot => CharClass.weight ⟨true, [⟨'\n', '\n'⟩], []⟩
  | oneOf k => k.weight

end Atom

end Regex

inductive Regex where
  | empty
  | one (a : Regex.Atom)
  /-- Any number of characters, each taken by the atom. -/
  | many (a : Regex.Atom)
  | group (r : Regex)
  | seq (r s : Regex)
  | alt (r s : Regex)
deriving DecidableEq, Repr

namespace Regex

/-! ## Meaning -/

def Denotes : Regex → Text → Prop
  | empty, t => t = []
  | one a, t => ∃ c, a.has c = true ∧ t = [c]
  | many a, t => ∀ c ∈ t, a.has c = true
  | group r, t => r.Denotes t
  | seq r s, t => ∃ u v, t = u ++ v ∧ r.Denotes u ∧ s.Denotes v
  | alt r s, t => r.Denotes t ∨ s.Denotes t

/-! ## Nesting -/

/-- Where an expression stands: a sequence inside a sequence, or a choice inside a choice, is not
a level of its own. -/
inductive Place where
  | alone
  | inSequence
  | inChoice
deriving DecidableEq, Repr

/-- The nesting of an expression at a place. -/
def heightAt : Place → Regex → Nat
  | _, empty => 0
  | _, one a => a.height
  | _, many a => 1 + a.height
  | _, group r => 1 + heightAt .alone r
  | p, seq r s =>
    (if p = .inSequence then 0 else 1) + max (heightAt .alone r) (heightAt .inSequence s)
  | p, alt r s =>
    (if p = .inChoice then 0 else 1) + max (heightAt .alone r) (heightAt .inChoice s)

/-- With the two ends of the text pinned, the whole expression is a sequence. -/
def height (r : Regex) : Nat := 1 + heightAt .inSequence r

/-! ## Sequences and choices -/

def concat : List Regex → Regex
  | [] => empty
  | [r] => r
  | r :: s :: rs => seq r (concat (s :: rs))

def choice : List Regex → Regex
  | [] => empty
  | [r] => r
  | r :: s :: rs => alt r (choice (s :: rs))

theorem denotes_concat_nil (t : Text) : (concat []).Denotes t ↔ t = [] := Iff.rfl

theorem denotes_concat_cons (r : Regex) (rs : List Regex) (t : Text) :
    (concat (r :: rs)).Denotes t ↔ ∃ u v, t = u ++ v ∧ r.Denotes u ∧ (concat rs).Denotes v := by
  cases rs with
  | nil =>
    constructor
    · intro h
      exact ⟨t, [], by simp, h, rfl⟩
    · rintro ⟨u, v, rfl, hu, rfl⟩
      simpa [concat] using hu
  | cons s rs => exact Iff.rfl

theorem denotes_choice_cons (r s : Regex) (rs : List Regex) (t : Text) :
    (choice (r :: s :: rs)).Denotes t ↔ r.Denotes t ∨ (choice (s :: rs)).Denotes t := Iff.rfl

/-! ## Size -/

/-- The bytes that an expression adds to a program at most: 32 for each state, and 8 for each way
from one state to the next. -/
def weight : Regex → Nat
  | empty => 0
  | one a => a.weight
  | many a => a.weight + 128
  | group r => r.weight
  | seq r s => r.weight + s.weight
  | alt r s => r.weight + s.weight + 256

/-- The bytes of the whole program at most, with its first and its last states. -/
def size (r : Regex) : Nat := 1024 + r.weight

theorem weight_concat_cons (r : Regex) (rs : List Regex) :
    (concat (r :: rs)).weight = r.weight + (concat rs).weight := by
  cases rs with
  | nil => exact (Nat.add_zero _).symm
  | cons s rs => rfl

theorem weight_concat_append (rs ss : List Regex) :
    (concat (rs ++ ss)).weight = (concat rs).weight + (concat ss).weight := by
  induction rs with
  | nil => exact (Nat.zero_add _).symm
  | cons r rs ih =>
    rw [List.cons_append, weight_concat_cons, weight_concat_cons, ih, Nat.add_assoc]

/-- The most bytes that a program may take, which is 32 mebibytes. -/
def sizeLimit : Nat := 33554432

/-- How large programs really are is left to the engine that makes them. -/
class Engine where
  /-- Whether the program for an expression stays within the limit. -/
  hasRoom : Regex → Bool
  hasRoom_of_size_le {r : Regex} : r.size ≤ sizeLimit → hasRoom r = true
  /-- The end of a row has room when the whole row has. -/
  hasRoom_of_append {rs ss : List Regex} :
    hasRoom (concat (rs ++ ss)) = true → hasRoom (concat ss) = true

/-- The engine that refuses whatever might not have room. -/
instance Engine.cautious : Engine where
  hasRoom r := r.size ≤ sizeLimit
  hasRoom_of_size_le := decide_eq_true
  hasRoom_of_append := by
    intro rs ss h
    have hle := of_decide_eq_true h
    rw [size, weight_concat_append] at hle
    exact decide_eq_true (Nat.le_trans (Nat.add_le_add_left (Nat.le_add_left _ _) _) hle)

end Regex

end EditorConfig
