import EditorConfig.Text.Decimal

/-!
# Numbers as they are written

* `Decimal.Numeral`     digits with at most one sign in front, and the number that they denote;
* `Decimal.Canonical`   no plus sign, and no zero that could be left out.

Main statements: a text that reads as a number is the way that number is written, unless a plus sign
or a zero stands in front (`eq_nat_of_readBelow`).  Reading a signed number takes the numerals whose
number has 64 bits (`readInt?_eq_some_iff`), and a number is written as its only canonical numeral
(`eq_int_iff`).
-/

namespace EditorConfig.Decimal

/-! ## Digits -/

theorem toNat_of_isDigit {c : Char} (h : c.isDigit = true) :
    c.toNat = 48 + digit c ∧ digit c < 10 := by
  obtain ⟨hge, hle⟩ := Bool.and_eq_true_iff.1 h
  have hlow : 48 ≤ c.toNat := UInt32.le_iff_toNat_le.1 (of_decide_eq_true hge)
  have hhigh : c.toNat ≤ 57 := UInt32.le_iff_toNat_le.1 (of_decide_eq_true hle)
  have hdigit : digit c = c.toNat - 48 := rfl
  omega

theorem nat_digit {c : Char} (h : c.isDigit = true) : nat (digit c) = [c] := by
  obtain ⟨hc, hlt⟩ := toNat_of_isDigit h
  have hchar : Nat.digitChar (digit c) = c := by
    apply Char.toNat_inj.1
    rw [Nat.toNat_digitChar_of_lt_ten hlt, hc]
  rw [nat, Nat.toDigits_of_lt_base hlt, hchar]

theorem ofDigitChars_cons (c : Char) (t : Text) (n : Nat) :
    Nat.ofDigitChars 10 (c :: t) n = Nat.ofDigitChars 10 t (10 * n + digit c) :=
  Nat.ofDigitChars_cons

/-- Digits behind a number that is not zero are written behind it. -/
theorem nat_ofDigitChars {n : Nat} (hn : 0 < n) {t : Text} (h : ∀ c ∈ t, c.isDigit = true) :
    nat (Nat.ofDigitChars 10 t n) = nat n ++ t := by
  induction t generalizing n with
  | nil => rw [Nat.ofDigitChars_nil, List.append_nil]
  | cons c t ih =>
    obtain ⟨hc, ht⟩ := List.forall_mem_cons.1 h
    have hstep : nat (10 * n + digit c) = nat n ++ [c] := by
      rw [← nat_digit hc]
      exact (Nat.toDigits_append_toDigits (by decide) hn (toNat_of_isDigit hc).2).symm
    rw [ofDigitChars_cons, ih (by omega) ht, hstep, List.append_assoc]
    rfl

/-- Digits that begin with no zero denote a positive number, and are the way it is written. -/
theorem eq_nat_value {t : Text} (hne : t ≠ []) (hd : ∀ c ∈ t, c.isDigit = true)
    (hzero : t.head? ≠ some '0') : 0 < value t ∧ t = nat (value t) := by
  obtain ⟨c, t, rfl⟩ := List.exists_cons_of_ne_nil hne
  obtain ⟨hc, ht⟩ := List.forall_mem_cons.1 hd
  have hpos : 0 < digit c := by
    have hne : c.toNat ≠ 48 := fun he => hzero (congrArg some (Char.toNat_inj.1 he))
    have heq := (toNat_of_isDigit hc).1
    omega
  have hvalue : value (c :: t) = Nat.ofDigitChars 10 t (digit c) := by
    rw [value, ofDigitChars_cons, Nat.mul_zero, Nat.zero_add]
  rw [hvalue, nat_ofDigitChars hpos ht, nat_digit hc]
  exact ⟨Nat.lt_of_lt_of_le hpos (le_ofDigitChars t _), rfl⟩

/-! ## Reading natural numbers -/

theorem readOn_ok {limit n m : Nat} {t : Text} (h : readOn limit n t = .ok m) :
    (∀ c ∈ t, c.isDigit = true) ∧ m = Nat.ofDigitChars 10 t n := by
  induction t generalizing n with
  | nil =>
    cases h
    exact ⟨by simp, Nat.ofDigitChars_nil.symm⟩
  | cons c t ih =>
    rw [readOn] at h
    split at h
    · cases h
    · next hc =>
      split at h
      · obtain ⟨ht, hm⟩ := ih h
        have hc : c.isDigit = true := by simpa using hc
        exact ⟨List.forall_mem_cons.2 ⟨hc, ht⟩, hm⟩
      · cases h

/-- Without a plus sign in front, only digits read as a number. -/
theorem readBelow_ok {limit n : Nat} {t : Text} (h : readBelow limit t = .ok n)
    (hplus : t.head? ≠ some '+') :
    t ≠ [] ∧ (∀ c ∈ t, c.isDigit = true) ∧ n = value t := by
  cases t with
  | nil => cases h
  | cons c t =>
    have hc : c ≠ '+' := fun hc => hplus (congrArg some hc)
    have hread : readBelow limit (c :: t) = readOn limit 0 (c :: t) := by
      simp [readBelow, hc]
    rw [hread] at h
    exact ⟨by simp, readOn_ok h⟩

/-- **Numbers without a sign or leading zeros** are written as they are read. -/
theorem eq_nat_of_readBelow {limit n : Nat} {t : Text} (h : readBelow limit t = .ok n)
    (hplus : t.head? ≠ some '+') (hzero : t.head? ≠ some '0') : t = nat n := by
  obtain ⟨hne, hdigits, rfl⟩ := readBelow_ok h hplus
  exact (eq_nat_value hne hdigits hzero).2

/-- No other number is read from the way a number is written. -/
theorem eq_of_readBelow_nat {limit n m : Nat} (h : readBelow limit (nat n) = .ok m) : m = n := by
  have hplus : (nat n).head? ≠ some '+' := by
    intro hhead
    exact absurd (isDigit_of_mem_nat (List.mem_of_head? hhead)) (by decide)
  rw [(readBelow_ok h hplus).2.2, value_nat]

/-! ## Numerals -/

inductive Numeral : Text → Int → Prop
  | plain {t : Text} (hne : t ≠ []) (hd : ∀ c ∈ t, c.isDigit = true) : Numeral t (value t)
  | plus {t : Text} (hne : t ≠ []) (hd : ∀ c ∈ t, c.isDigit = true) : Numeral ('+' :: t) (value t)
  | minus {t : Text} (hne : t ≠ []) (hd : ∀ c ∈ t, c.isDigit = true) :
      Numeral ('-' :: t) (-(value t))

theorem Numeral.mem {t : Text} {n : Int} (h : Numeral t n) {c : Char} (hc : c ∈ t) :
    c = '+' ∨ c = '-' ∨ c.isDigit = true := by
  cases h with
  | plain _ hd => exact .inr (.inr (hd c hc))
  | plus _ hd => exact (List.mem_cons.1 hc).imp id fun hc => .inr (hd c hc)
  | minus _ hd => exact .inr ((List.mem_cons.1 hc).imp id (hd c))

/-! ## Reading signed numbers -/

theorem head?_of_digits {t : Text} (hd : ∀ c ∈ t, c.isDigit = true) {c : Char}
    (hc : c.isDigit = false) : t.head? ≠ some c := by
  intro hhead
  have hdigit := hd c (List.mem_of_head? hhead)
  rw [hc] at hdigit
  cases hdigit

theorem unsigned_digits {t : Text} (hd : ∀ c ∈ t, c.isDigit = true) :
    unsigned t = (false, t) := by
  fun_cases unsigned t with
  | case1 t => exact absurd rfl (head?_of_digits hd (c := '+') rfl)
  | case2 t => exact absurd rfl (head?_of_digits hd (c := '-') rfl)
  | case3 => rfl

/-- The number of a sign and the digits behind it. -/
def signed (s : Bool × Text) : Int := if s.1 then -(value s.2) else value s.2

theorem numeral_iff {t : Text} {n : Int} : Numeral t n ↔
    (unsigned t).2 ≠ [] ∧ (∀ c ∈ (unsigned t).2, c.isDigit = true) ∧ n = signed (unsigned t) := by
  constructor
  · intro h
    cases h with
    | plain hne hd =>
      rw [unsigned_digits hd]
      exact ⟨hne, hd, rfl⟩
    | plus hne hd => exact ⟨hne, hd, rfl⟩
    | minus hne hd => exact ⟨hne, hd, rfl⟩
  · intro h
    obtain ⟨hne, hd, rfl⟩ := h
    revert hne hd
    fun_cases unsigned t with
    | case1 t => exact .plus
    | case2 t => exact .minus
    | case3 => exact .plain

/-- **Reading a signed number** takes the numerals whose number has 64 bits. -/
theorem readInt?_eq_some_iff {t : Text} {n : Int} :
    readInt? t = some n ↔ Numeral t n ∧ isWord n = true := by
  have hread : readInt? t
      = if (unsigned t).2 ≠ [] ∧ (unsigned t).2.all Char.isDigit ∧ isWord (signed (unsigned t))
        then some (signed (unsigned t)) else none := rfl
  rw [hread, numeral_iff]
  simp only [List.all_eq_true]
  constructor
  · intro h
    split at h
    · next hall =>
      cases h
      exact ⟨⟨hall.1, hall.2.1, rfl⟩, hall.2.2⟩
    · cases h
  · intro h
    obtain ⟨⟨hne, hd, rfl⟩, hword⟩ := h
    exact if_pos ⟨hne, hd, hword⟩

/-! ## Writing -/

/-- No plus sign stands in front, and no zero in front of another digit; zero has no sign. -/
structure Canonical (t : Text) : Prop where
  no_plus : t.head? ≠ some '+'
  no_zero : t.head? = some '0' → t = ['0']
  no_negated_zero : ¬['-', '0'] <+: t

theorem head?_nat {n : Nat} (hn : 0 < n) : (nat n).head? ≠ some '0' := by
  induction n using Nat.strongRecOn with
  | ind n ih =>
    by_cases hlt : n < 10
    · rw [nat, Nat.toDigits_of_lt_base hlt]
      intro h
      have hchar : Nat.digitChar n = '0' := Option.some.inj h
      have hcode := Nat.toNat_digitChar_of_lt_ten hlt
      rw [hchar] at hcode
      have hzero : '0'.toNat = 48 := rfl
      omega
    · have hdiv : 0 < n / 10 := by omega
      have hsplit : nat n = nat (n / 10) ++ nat (n % 10) := by
        have happend := Nat.toDigits_append_toDigits (b := 10) (by decide) hdiv
          (Nat.mod_lt n (by decide))
        rw [Nat.div_add_mod] at happend
        exact happend.symm
      obtain ⟨c, t, ht⟩ := List.exists_cons_of_ne_nil (nat_ne_nil (n / 10))
      have hhead := ih (n / 10) (by omega) hdiv
      rw [ht] at hhead
      rw [hsplit, ht]
      exact hhead

theorem canonical_nat (n : Nat) : Canonical (nat n) := by
  have hd : ∀ c ∈ nat n, c.isDigit = true := fun c hc => isDigit_of_mem_nat hc
  refine ⟨head?_of_digits hd rfl, fun hzero => ?_, fun hminus => ?_⟩
  · cases n with
    | zero => rfl
    | succ n => exact absurd hzero (head?_nat (Nat.succ_pos n))
  · exact absurd (hd '-' (hminus.mem List.mem_cons_self)) (by decide)

theorem canonical_minus {n : Nat} (hn : 0 < n) : Canonical ('-' :: nat n) := by
  refine ⟨by simp, by simp, fun h => ?_⟩
  obtain ⟨-, t, ht⟩ := List.cons_prefix_cons.1 h
  apply head?_nat hn
  rw [← ht]
  rfl

/-- **A number is written** as its only canonical numeral. -/
theorem eq_int_iff {t : Text} {n : Int} : t = int n ↔ Numeral t n ∧ Canonical t := by
  constructor
  · rintro rfl
    have numeral (m : Nat) : nat m ≠ [] ∧ ∀ c ∈ nat m, c.isDigit = true :=
      ⟨nat_ne_nil m, fun c hc => isDigit_of_mem_nat hc⟩
    cases n with
    | ofNat m =>
      have hm := Numeral.plain (numeral m).1 (numeral m).2
      rw [value_nat] at hm
      exact ⟨hm, canonical_nat m⟩
    | negSucc m =>
      have hm := Numeral.minus (numeral (m + 1)).1 (numeral (m + 1)).2
      rw [value_nat] at hm
      exact ⟨hm, canonical_minus (Nat.succ_pos m)⟩
  · intro h
    obtain ⟨hnumeral, hcanonical⟩ := h
    cases hnumeral with
    | plain hne hd =>
      by_cases hzero : t.head? = some '0'
      · rw [hcanonical.no_zero hzero]
        rfl
      · exact (eq_nat_value hne hd hzero).2
    | plus hne hd => exact absurd rfl hcanonical.no_plus
    | @minus ds hne hd =>
      have hzero : ds.head? ≠ some '0' := by
        intro hhead
        obtain ⟨us, rfl⟩ := List.head?_eq_some_iff.1 hhead
        exact hcanonical.no_negated_zero ⟨us, rfl⟩
      obtain ⟨hpos, hds⟩ := eq_nat_value hne hd hzero
      obtain ⟨k, hk⟩ := Nat.exists_eq_succ_of_ne_zero (Nat.ne_of_gt hpos)
      rw [hk] at hds ⊢
      show '-' :: ds = '-' :: nat (k + 1)
      rw [hds]

end EditorConfig.Decimal
