import EditorConfig.Properties
import EditorConfig.Text.Basic
import EditorConfig.Text.Case
import EditorConfig.Text.Decimal

/-!
# Values of properties

* `Setting`            a value that may be absent, or explicitly unset;
* `Setting.or`         a setting, or the inherited one where it is absent;
* `Value.isUnset`      the word `unset`, in any case;
* `Value.truth`        a truth value;
* `Value.width`        a positive number of 32 bits;
* `Value.Fault`        why a value does not read, with its wording;
* `Warning`            a value that does not read, under its name;
* `Setting.declared`   the setting that a property declares, with a warning where it does not read.

Main statements: no value that reads is `unset` as well (`not_isUnset_of_truth`,
`not_isUnset_of_width`), and one lemma for each setting that a property may declare.
-/

namespace EditorConfig

/-! ## Settings -/

inductive Setting (α : Type) where
  /-- Not declared; may still be inherited. -/
  | absent
  /-- Declared as `unset`; nothing is inherited. -/
  | unset
  | value (a : α)
deriving DecidableEq, Repr

namespace Setting

variable {α : Type}

instance : Inhabited (Setting α) := ⟨absent⟩

def isAbsent : Setting α → Bool
  | absent => true
  | _ => false

def isUnset : Setting α → Bool
  | unset => true
  | _ => false

def value? : Setting α → Option α
  | value a => some a
  | _ => none

def or : Setting α → Setting α → Setting α
  | absent, s => s
  | s, _ => s

@[simp] theorem absent_or (s : Setting α) : absent.or s = s := rfl

@[simp] theorem unset_or (s : Setting α) : unset.or s = unset := rfl

@[simp] theorem value_or (a : α) (s : Setting α) : (value a).or s = value a := rfl

@[simp] theorem or_absent (s : Setting α) : s.or absent = s := by cases s <;> rfl

theorem or_assoc (r s t : Setting α) : (r.or s).or t = r.or (s.or t) := by cases r <;> rfl

@[simp] theorem or_self (s : Setting α) : s.or s = s := by cases s <;> rfl

end Setting

/-! ## Values -/

namespace Value

inductive Fault where
  | notTruth
  | notPositive
  | number (f : Decimal.Fault)
deriving DecidableEq, Repr

def Fault.message : Fault → Text
  | notTruth => "expected true or false".toList
  | notPositive => "expected a positive integer".toList
  | number .nothing => "cannot parse integer from empty string".toList
  | number .badDigit => "invalid digit found in string".toList
  | number .tooLarge => "number too large to fit in target type".toList

def unset : Text := "unset".toList

def isUnset (v : Text) : Bool := Text.sameLetters v unset

/-- `true`, `t` or `1`, and `false`, `f` or `0`, in any case. -/
def truth (v : Text) : Except Fault Bool :=
  let w := v.map Char.toLower
  if w ∈ ["true".toList, "t".toList, "1".toList] then .ok true
  else if w ∈ ["false".toList, "f".toList, "0".toList] then .ok false
  else .error .notTruth

/-- `2 ^ 32`; widths are smaller. -/
def widthLimit : Nat := 0x100000000

/-- A positive number below the limit. -/
def width (v : Text) : Except Fault Nat :=
  match Decimal.readBelow widthLimit v with
  | .ok 0 => .error .notPositive
  | .ok n => .ok n
  | .error f => .error (.number f)

/-- The way a truth value is written. -/
def ofTruth (b : Bool) : Text := if b then "true".toList else "false".toList

/-! ### What reads is not `unset` -/

variable {v : Text}

theorem map_toLower_of_isUnset (h : isUnset v = true) : v.map Char.toLower = unset :=
  eq_of_beq h

theorem not_isUnset_of_truth {b : Bool} (h : truth v = .ok b) : isUnset v = false := by
  rw [← Bool.not_eq_true]
  intro hu
  unfold truth at h
  rw [map_toLower_of_isUnset hu] at h
  cases h

theorem width_eq_ok {w : Nat} (h : width v = .ok w) :
    Decimal.readBelow widthLimit v = .ok w ∧ w ≠ 0 := by
  unfold width at h
  split at h
  · cases h
  · next n hzero hread =>
    obtain rfl := Except.ok.inj h
    exact ⟨hread, hzero⟩
  · cases h

theorem toLower_of_isDigit {c : Char} (h : c.isDigit = true) : c.toLower = c := by
  have hle : c.val.toNat ≤ '9'.val.toNat :=
    UInt32.le_iff_toNat_le.1 (of_decide_eq_true (Bool.and_eq_true_iff.1 h).2)
  have hsmall : ¬(c.val ≥ 'A'.val ∧ c.val ≤ 'Z'.val) := by
    intro hcapital
    have hge := UInt32.le_iff_toNat_le.1 hcapital.1
    exact absurd (Nat.le_trans hge hle) (by decide)
  unfold Char.toLower
  exact dif_neg hsmall

theorem not_isUnset_of_width {w : Nat} (h : width v = .ok w) : isUnset v = false := by
  rw [← Bool.not_eq_true]
  intro hu
  have hmap := map_toLower_of_isUnset hu
  cases v with
  | nil => cases hmap
  | cons c t =>
    have hc : c.toLower = 'u' := (List.cons.inj hmap).1
    rcases Decimal.head_of_readBelow (width_eq_ok h).1 with rfl | hdigit
    · exact absurd hc (by decide)
    · rw [toLower_of_isDigit hdigit] at hc
      rw [hc] at hdigit
      exact absurd hdigit (by decide)

end Value

/-! ## Warnings -/

/-- A value that could not be read; its property counts as not declared. -/
structure Warning where
  property : Text
  value : Text
  reason : Text
deriving DecidableEq, Repr

namespace Warning

def message (w : Warning) : Text :=
  w.property ++ '=' :: w.value ++ " is not an acceptable value: ".toList ++ w.reason

/-- Several warnings on one line. -/
def messages (ws : List Warning) : Text := "; ".toList.intercalate (ws.map message)

end Warning

/-! ## Declared settings -/

namespace Setting

variable {α : Type}

/-- The setting that `ps` declares under `name`; a value that does not read leaves it absent. -/
def declared (read : Text → Except Value.Fault α) (name : Text) (ps : Properties) : Setting α :=
  match ps.get? name with
  | none => absent
  | some v =>
    if Value.isUnset v then unset
    else match read v with
      | .ok a => value a
      | .error _ => absent

section
variable {read : Text → Except Value.Fault α} {name v : Text} {ps : Properties} {a : α}

theorem declared_of_none (h : ps.get? name = none) : declared read name ps = .absent := by
  simp only [declared, h]

theorem declared_of_isUnset (h : ps.get? name = some v) (hv : Value.isUnset v = true) :
    declared read name ps = .unset := by
  simp only [declared, h, hv, if_true]

theorem declared_of_ok (h : ps.get? name = some v) (hv : Value.isUnset v = false)
    (ha : read v = .ok a) : declared read name ps = .value a := by
  simp only [declared, h, hv, ha, Bool.false_eq_true, if_false]

theorem declared_of_error {f : Value.Fault} (h : ps.get? name = some v)
    (hv : Value.isUnset v = false) (hf : read v = .error f) : declared read name ps = .absent := by
  simp only [declared, h, hv, hf, Bool.false_eq_true, if_false]

theorem declared_eq_value (h : declared read name ps = .value a) :
    ∃ v, ps.get? name = some v ∧ read v = .ok a := by
  unfold declared at h
  split at h
  · cases h
  · next v hv =>
    split at h
    · cases h
    · split at h
      · next b hb =>
        cases h
        exact ⟨v, hv, hb⟩
      · cases h

end

/-- The warning about the value that `ps` declares under `name`, if there is one. -/
def warnings (read : Text → Except Value.Fault α) (name : Text) (ps : Properties) :
    List Warning :=
  match ps.get? name with
  | none => []
  | some v =>
    if Value.isUnset v then []
    else match read v with
      | .ok _ => []
      | .error f => [⟨name, v, f.message⟩]

/-- The way a setting is written. -/
def text? (write : α → Text) : Setting α → Option Text
  | absent => none
  | unset => some Value.unset
  | value a => some (write a)

end Setting

end EditorConfig
