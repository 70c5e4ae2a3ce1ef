import EditorConfig.Text.Basic

/-!
# Decimal numbers

* `Decimal.nat`, `Decimal.int`   a number as it is written, without a plus sign or leading zeros;
* `Decimal.value`                the number that a row of digits denotes;
* `Decimal.readBelow`            reading a natural number below a limit, from left to right;
* `Decimal.isWord`               the signed numbers of 64 bits;
* `Decimal.readInt?`             reading such a number.

Main statement: the digits of a number denote it (`value_nat`).
-/

namespace EditorConfig.Decimal

/-! ## Writing -/

def nat (n : Nat) : Text := Nat.toDigits 10 n

def int : Int → Text
  | .ofNat n => nat n
  | .negSucc n => '-' :: nat (n + 1)

/-! ## Reading -/

def digit (c : Char) : Nat := c.toNat - '0'.toNat

def value (t : Text) : Nat := Nat.ofDigitChars 10 t 0

/-- Why a text is not a natural number in the range asked for. -/
inductive Fault where
  | nothing
  | badDigit
  | tooLarge
deriving DecidableEq, Repr

/-- `n` is the number read so far; the first trouble from the left decides the fault. -/
def readOn (limit n : Nat) : Text → Except Fault Nat
  | [] => .ok n
  | c :: t =>
    if !c.isDigit then .error .badDigit
    else if 10 * n + digit c < limit then readOn limit (10 * n + digit c) t
    else .error .tooLarge

/-- A number below `limit`; one plus sign may stand in front. -/
def readBelow (limit : Nat) : Text → Except Fault Nat
  | [] => .error .nothing
  | '+' :: [] => .error .badDigit
  | '+' :: c :: t => readOn limit 0 (c :: t)
  | c :: t => readOn limit 0 (c :: t)

/-- The digits of a number with at most one sign in front, and whether the sign is a minus. -/
def unsigned : Text → Bool × Text
  | '+' :: t => (false, t)
  | '-' :: t => (true, t)
  | t => (false, t)

/-- The numbers from `-2 ^ 63` to `2 ^ 63 - 1`. -/
def isWord (n : Int) : Bool := -0x8000000000000000 ≤ n && n < 0x8000000000000000

/-- A number of 64 bits: digits with at most one sign in front. -/
def readInt? (t : Text) : Option Int :=
  let (minus, digits) := unsigned t
  let n : Int := if minus then -(value digits) else value digits
  if digits ≠ [] ∧ digits.all Char.isDigit ∧ isWord n then some n else none

/-! ## Reading what was written -/

theorem nat_ne_nil (n : Nat) : nat n ≠ [] := Nat.toDigits_ne_nil

theorem isDigit_of_mem_nat {n : Nat} {c : Char} (h : c ∈ nat n) : c.isDigit = true :=
  Nat.isDigit_of_mem_toDigits (by decide) (by decide) h

@[simp] theorem value_nat (n : Nat) : value (nat n) = n :=
  Nat.ofDigitChars_toDigits (by decide) (by decide)

/-- More digits make no smaller number. -/
theorem le_ofDigitChars (t : Text) (n : Nat) : n ≤ Nat.ofDigitChars 10 t n := by
  induction t generalizing n with
  | nil => exact Nat.le_of_eq Nat.ofDigitChars_nil.symm
  | cons c t ih =>
    rw [Nat.ofDigitChars_cons]
    have := ih (10 * n + (c.toNat - '0'.toNat))
    omega

/-- A natural number begins with a digit or with a plus sign. -/
theorem head_of_readBelow {limit n : Nat} {c : Char} {t : Text}
    (h : readBelow limit (c :: t) = .ok n) : c = '+' ∨ c.isDigit = true := by
  by_cases hplus : c = '+'
  · exact .inl hplus
  · right
    have hread : readBelow limit (c :: t) = readOn limit 0 (c :: t) := by
      simp [readBelow, hplus]
    rw [hread, readOn] at h
    cases hc : c.isDigit with
    | true => rfl
    | false =>
      rw [hc] at h
      cases h

end EditorConfig.Decimal
