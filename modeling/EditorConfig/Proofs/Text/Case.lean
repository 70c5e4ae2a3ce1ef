import EditorConfig.Text.Basic
import EditorConfig.Text.Case

/-!
# Small letters

* `Text.Capital`   `n` is one of the capitals of a run of the table;
* `Text.IsSmall`   a character that a text in small letters keeps, at the end of a word as well;
* `Text.isMark`    white space and the signs that lines of a config file are made of.

Main statements: small letters stay as they are (`lower_lower`), and every mark in a text in small
letters stood in the same place before (`mem_of_mem_lower`, `head?_of_head?_lower`,
`getLast?_of_getLast?_lower`).

The table is checked run against run: the small letters of one run, taken as an interval, are
compared one by one with the capitals of another run only when the two intervals meet.
-/

namespace EditorConfig.Text

/-! ## The table -/

/-- `n` is one of the capitals of the run. -/
def Capital (run : Nat × Nat × Nat × Nat) (n : Nat) : Prop :=
  run.1 ≤ n ∧ n ≤ run.2.1 ∧ (n - run.1) % run.2.2.1 = 0

instance (run : Nat × Nat × Nat × Nat) (n : Nat) : Decidable (Capital run n) :=
  inferInstanceAs (Decidable (_ ∧ _))

/-- The small letter that belongs to a capital of the run. -/
def image (run : Nat × Nat × Nat × Nat) (n : Nat) : Nat := run.2.2.2 + (n - run.1)

section
variable {run : Nat × Nat × Nat × Nat} {runs : List (Nat × Nat × Nat × Nat)} {n : Nat}

theorem smallIn_cons_of_capital (h : Capital run n) : smallIn (run :: runs) n = image run n :=
  if_pos h

theorem smallIn_cons_of_not_capital (h : ¬Capital run n) :
    smallIn (run :: runs) n = smallIn runs n :=
  if_neg h

theorem smallIn_eq_self (h : ∀ run ∈ runs, ¬Capital run n) : smallIn runs n = n := by
  induction runs with
  | nil => rfl
  | cons run runs ih =>
    rw [smallIn_cons_of_not_capital (h run List.mem_cons_self)]
    exact ih fun r hr => h r (List.mem_cons_of_mem _ hr)

/-- A number stays, or a run with this capital gives its small letter. -/
theorem smallIn_cases (runs : List (Nat × Nat × Nat × Nat)) (n : Nat) :
    smallIn runs n = n ∨ ∃ run ∈ runs, Capital run n ∧ smallIn runs n = image run n := by
  induction runs with
  | nil => exact .inl rfl
  | cons run runs ih =>
    by_cases hrun : Capital run n
    · exact .inr ⟨run, List.mem_cons_self, hrun, smallIn_cons_of_capital hrun⟩
    · rw [smallIn_cons_of_not_capital hrun]
      exact ih.imp id fun ⟨r, hr, hn⟩ => ⟨r, List.mem_cons_of_mem _ hr, hn⟩

end

/-- No small letter of the run `r` is a capital of the run `q`. -/
def apart (r q : Nat × Nat × Nat × Nat) : Bool :=
  Nat.blt (image r r.2.1) q.1 || (Nat.blt q.2.1 r.2.2.2 ||
    (List.range (r.2.1 - r.1 + 1)).all fun k =>
      !(Nat.beq (k % r.2.2.1) 0 && (Nat.ble q.1 (r.2.2.2 + k) && (Nat.ble (r.2.2.2 + k) q.2.1 &&
        Nat.beq ((r.2.2.2 + k - q.1) % q.2.2.1) 0))))

theorem not_capital_image {r q : Nat × Nat × Nat × Nat} (h : apart r q = true) {n : Nat}
    (hn : Capital r n) : ¬Capital q (image r n) := by
  obtain ⟨first, last, stride, target⟩ := r
  obtain ⟨hfirst, hlast, hstride⟩ := hn
  simp only at hfirst hlast hstride
  intro ⟨h1, h2, h3⟩
  simp only [image] at h1 h2 h3
  simp only [apart, image, Bool.or_eq_true, Nat.blt_eq] at h
  rcases h with h | h | h
  · omega
  · omega
  · have hk : n - first ∈ List.range (last - first + 1) := by
      rw [List.mem_range]
      omega
    have hall := List.all_eq_true.1 h _ hk
    rw [hstride, h3, Nat.ble_eq_true_of_le h1, Nat.ble_eq_true_of_le h2] at hall
    simp at hall

theorem lowerRuns_apart : (lowerRuns.all fun r => lowerRuns.all fun q => apart r q) = true := by
  decide +kernel

/-- Where no small letter of the table lies: below `¡` except for `k`, at `İ` and `Σ`, at white
space, and among the surrogates. -/
def keptOut : List (Nat × Nat) := [
  (0, 0x6a), (0x6c, 0xa0), (0x130, 0x130), (0x3a3, 0x3a3), (0x1680, 0x1680), (0x2000, 0x205f),
  (0x3000, 0x3000), (0xd800, 0xdfff)]

/-- The small letters of a run, as an interval, keep out. -/
def keepsOut (r : Nat × Nat × Nat × Nat) : Bool :=
  Nat.blt (image r r.2.1) 0x110000 &&
    keptOut.all fun out => Nat.blt (image r r.2.1) out.1 || Nat.blt out.2 r.2.2.2

theorem lowerRuns_keepsOut : lowerRuns.all keepsOut = true := by decide +kernel

/-! ## Characters -/

/-- A character that a text in small letters keeps, at the end of a word as well. -/
def IsSmall (c : Char) : Prop := c ≠ 'Σ' ∧ small c = [c]

instance (c : Char) : Decidable (IsSmall c) := inferInstanceAs (Decidable (_ ∧ _))

/-- White space and the signs that the lines of a config file are made of. -/
def isMark (c : Char) : Bool := isBlank c || c = '=' || c = '[' || c = '#' || c = ';'

theorem keptOut_of_isMark {c : Char} (h : isMark c = true) :
    ∃ out ∈ keptOut, out.1 ≤ c.toNat ∧ c.toNat ≤ out.2 := by
  simp only [isMark, isBlank, Bool.or_eq_true, Bool.and_eq_true, decide_eq_true_eq] at h
  rcases h with (((h | rfl) | rfl) | rfl) | rfl
  · simp only [keptOut, List.mem_cons, List.not_mem_nil, or_false, exists_eq_or_imp, exists_eq_left]
    omega
  all_goals decide

theorem isMark_of_isBlank {c : Char} (h : isBlank c = true) : isMark c = true := by
  simp [isMark, h]

/-! ## Small letters of the table -/

section
variable {run : Nat × Nat × Nat × Nat} {n : Nat} (hrun : run ∈ lowerRuns) (hn : Capital run n)
include hrun hn

theorem smallIn_image : smallIn lowerRuns (image run n) = image run n := by
  apply smallIn_eq_self
  intro q hq
  have h := List.all_eq_true.1 (List.all_eq_true.1 lowerRuns_apart run hrun) q hq
  exact not_capital_image h hn

theorem image_keepsOut :
    image run n < 0x110000 ∧ ∀ out ∈ keptOut, image run n < out.1 ∨ out.2 < image run n := by
  have h := List.all_eq_true.1 lowerRuns_keepsOut run hrun
  obtain ⟨hfirst, hlast, -⟩ := hn
  simp only [keepsOut, image, Bool.and_eq_true, List.all_eq_true, Bool.or_eq_true,
    Nat.blt_eq] at h ⊢
  refine ⟨by omega, fun out hout => ?_⟩
  have := h.2 out hout
  omega

theorem toNat_image : (Char.ofNat (image run n)).toNat = image run n := by
  obtain ⟨hmax, hout⟩ := image_keepsOut hrun hn
  have hvalid : (image run n).isValidChar := by
    have hsurrogate := hout (0xd800, 0xdfff) (by decide)
    unfold Nat.isValidChar
    omega
  rw [Char.ofNat, dif_pos hvalid]
  rfl

/-- A small letter of the table is none of the characters that are kept out. -/
theorem ofNat_image_ne {c : Char} (hc : ∃ out ∈ keptOut, out.1 ≤ c.toNat ∧ c.toNat ≤ out.2) :
    Char.ofNat (image run n) ≠ c := by
  rintro rfl
  obtain ⟨out, hmem, hlo, hhi⟩ := hc
  rw [toNat_image hrun hn] at hlo hhi
  have := (image_keepsOut hrun hn).2 out hmem
  omega

theorem isSmall_image : IsSmall (Char.ofNat (image run n)) := by
  have hout := (image_keepsOut hrun hn).2
  refine ⟨ofNat_image_ne hrun hn (by decide), ?_⟩
  by_cases hascii : image run n < 128
  · have hk : image run n = 0x6b := by
      have hbelow := hout (0, 0x6a) (by decide)
      have habove := hout (0x6c, 0xa0) (by decide)
      omega
    rw [hk]
    decide
  · have hdot : Char.ofNat (image run n) ≠ 'İ' := ofNat_image_ne hrun hn (by decide)
    rw [small, toNat_image hrun hn, if_neg hascii, if_neg hdot, smallIn_image hrun hn]

theorem isMark_image : isMark (Char.ofNat (image run n)) = false := by
  cases hmark : isMark (Char.ofNat (image run n)) with
  | false => rfl
  | true => exact absurd rfl (ofNat_image_ne hrun hn (keptOut_of_isMark hmark))

end

/-! ## All small letters -/

/-- Where the characters of a small letter come from. -/
theorem mem_small {c d : Char} (h : d ∈ small c) :
    (c.toNat < 128 ∧ d = c.toLower) ∨ (c = 'İ' ∧ (d = 'i' ∨ d = Char.ofNat 0x307)) ∨
      (small c = [c] ∧ d = c) ∨
        ∃ run ∈ lowerRuns, Capital run c.toNat ∧ d = Char.ofNat (image run c.toNat) := by
  by_cases hascii : c.toNat < 128
  · rw [small, if_pos hascii] at h
    exact .inl ⟨hascii, List.mem_singleton.1 h⟩
  · by_cases hdot : c = 'İ'
    · rw [small, if_neg hascii, if_pos hdot] at h
      exact .inr (.inl ⟨hdot, by simpa using h⟩)
    · have hsmall : small c = [Char.ofNat (smallIn lowerRuns c.toNat)] := by
        rw [small, if_neg hascii, if_neg hdot]
      rw [hsmall, List.mem_singleton] at h
      rcases smallIn_cases lowerRuns c.toNat with hself | ⟨run, hrun, hc, himage⟩
      · rw [hself, Char.ofNat_toNat] at hsmall h
        exact .inr (.inr (.inl ⟨hsmall, h⟩))
      · rw [himage] at h
        exact .inr (.inr (.inr ⟨run, hrun, hc, h⟩))

theorem toLower_ascii {c : Char} (h : c.toNat < 128) :
    IsSmall c.toLower ∧ (isMark c.toLower = true → c.toLower = c) := by
  have hall : ∀ n < 128, IsSmall (Char.ofNat n).toLower ∧
      (isMark (Char.ofNat n).toLower = true → (Char.ofNat n).toLower = Char.ofNat n) := by
    decide
  have hc := hall c.toNat h
  rwa [Char.ofNat_toNat] at hc

theorem isSmall_of_mem_small {c d : Char} (h : d ∈ small c) : IsSmall d := by
  rcases mem_small h with ⟨hascii, rfl⟩ | ⟨rfl, hd⟩ | ⟨hself, rfl⟩ | ⟨run, hrun, hc, rfl⟩
  · exact (toLower_ascii hascii).1
  · rcases hd with rfl | rfl <;> decide
  · refine ⟨?_, hself⟩
    rintro rfl
    revert hself
    decide
  · exact isSmall_image hrun hc

/-- No character turns into a mark. -/
theorem eq_of_mem_small {c d : Char} (h : d ∈ small c) (hd : isMark d = true) : d = c := by
  rcases mem_small h with ⟨hascii, rfl⟩ | ⟨rfl, hmem⟩ | ⟨-, rfl⟩ | ⟨run, hrun, hc, rfl⟩
  · exact (toLower_ascii hascii).2 hd
  · have hno : isMark 'i' = false ∧ isMark (Char.ofNat 0x307) = false := by decide
    rcases hmem with rfl | rfl
    · rw [hno.1] at hd
      cases hd
    · rw [hno.2] at hd
      cases hd
  · rfl
  · rw [isMark_image hrun hc] at hd
    cases hd

theorem small_ne_nil (c : Char) : small c ≠ [] := by
  unfold small
  split
  · exact List.cons_ne_nil _ _
  · split <;> exact List.cons_ne_nil _ _

/-- The two small sigmas. -/
theorem isSmall_sigma (inWord : Bool) :
    IsSmall (if inWord then 'ς' else 'σ') ∧ isMark (if inWord then 'ς' else 'σ') = false := by
  cases inWord <;> decide

/-! ## Texts -/

/-- A text in small letters has a part for each character. -/
theorem lowerFrom_cons (inWord : Bool) (c : Char) (t : Text) :
    ∃ p inWord', lowerFrom inWord (c :: t) = p ++ lowerFrom inWord' t ∧ p ≠ [] ∧
      ∀ d ∈ p, IsSmall d ∧ (isMark d = true → d = c) := by
  refine ⟨_, _, rfl, ?_⟩
  by_cases hc : c = 'Σ'
  · rw [if_pos hc]
    refine ⟨List.cons_ne_nil _ _, fun d hd => ?_⟩
    obtain ⟨hsmall, hmark⟩ := isSmall_sigma (inWord && !startsCased t)
    obtain rfl := List.mem_singleton.1 hd
    refine ⟨hsmall, fun h => ?_⟩
    rw [hmark] at h
    cases h
  · rw [if_neg hc]
    exact ⟨small_ne_nil c, fun d hd => ⟨isSmall_of_mem_small hd, eq_of_mem_small hd⟩⟩

theorem lowerFrom_ne_nil (inWord : Bool) {t : Text} (h : t ≠ []) : lowerFrom inWord t ≠ [] := by
  obtain ⟨c, t, rfl⟩ := List.exists_cons_of_ne_nil h
  obtain ⟨p, inWord', he, hp, -⟩ := lowerFrom_cons inWord c t
  rw [he]
  exact List.append_ne_nil_of_left_ne_nil hp _

theorem lower_ne_nil {t : Text} (h : t ≠ []) : lower t ≠ [] := lowerFrom_ne_nil false h

theorem isSmall_of_mem_lowerFrom {inWord : Bool} {t : Text} {d : Char}
    (h : d ∈ lowerFrom inWord t) : IsSmall d := by
  induction t generalizing inWord with
  | nil => cases h
  | cons c t ih =>
    obtain ⟨p, inWord', he, -, hp⟩ := lowerFrom_cons inWord c t
    rw [he] at h
    rcases List.mem_append.1 h with h | h
    · exact (hp d h).1
    · exact ih h

theorem lowerFrom_of_isSmall (inWord : Bool) {t : Text} (h : ∀ c ∈ t, IsSmall c) :
    lowerFrom inWord t = t := by
  induction t generalizing inWord with
  | nil => rfl
  | cons c t ih =>
    have ⟨hsigma, hc⟩ := h c List.mem_cons_self
    rw [lowerFrom, if_neg hsigma, hc, ih _ fun d hd => h d (List.mem_cons_of_mem _ hd)]
    rfl

theorem lower_lower (t : Text) : lower (lower t) = lower t :=
  lowerFrom_of_isSmall false fun _ h => isSmall_of_mem_lowerFrom h

/-! ## Marks -/

theorem mem_of_mem_lowerFrom {inWord : Bool} {t : Text} {d : Char} (hd : isMark d = true)
    (h : d ∈ lowerFrom inWord t) : d ∈ t := by
  induction t generalizing inWord with
  | nil => cases h
  | cons c t ih =>
    obtain ⟨p, inWord', he, -, hp⟩ := lowerFrom_cons inWord c t
    rw [he] at h
    rcases List.mem_append.1 h with h | h
    · rw [(hp d h).2 hd]
      exact List.mem_cons_self
    · exact List.mem_cons_of_mem _ (ih h)

theorem mem_of_mem_lower {t : Text} {d : Char} (hd : isMark d = true) (h : d ∈ lower t) : d ∈ t :=
  mem_of_mem_lowerFrom hd h

theorem head?_of_head?_lower {t : Text} {d : Char} (hd : isMark d = true)
    (h : (lower t).head? = some d) : t.head? = some d := by
  cases t with
  | nil => cases h
  | cons c t =>
    obtain ⟨p, inWord', he, hne, hp⟩ := lowerFrom_cons false c t
    obtain ⟨e, p, rfl⟩ := List.exists_cons_of_ne_nil hne
    rw [lower, he, List.cons_append, List.head?_cons] at h
    obtain rfl := Option.some.inj h
    rw [List.head?_cons, (hp e List.mem_cons_self).2 hd]

theorem getLast?_of_getLast?_lowerFrom {inWord : Bool} {t : Text} {d : Char}
    (hd : isMark d = true) (h : (lowerFrom inWord t).getLast? = some d) :
    t.getLast? = some d := by
  induction t generalizing inWord with
  | nil => cases h
  | cons c t ih =>
    obtain ⟨p, inWord', he, -, hp⟩ := lowerFrom_cons inWord c t
    rw [he] at h
    by_cases ht : t = []
    · subst ht
      rw [lowerFrom, List.append_nil] at h
      rw [List.getLast?_singleton, (hp d (List.mem_of_getLast? h)).2 hd]
    · have hlast := List.getLast?_eq_some_getLast (lowerFrom_ne_nil inWord' ht)
      rw [List.getLast?_append, hlast, Option.some_or, ← hlast] at h
      rw [List.getLast?_cons_of_ne_nil ht, ih h]

theorem getLast?_of_getLast?_lower {t : Text} {d : Char} (hd : isMark d = true)
    (h : (lower t).getLast? = some d) : t.getLast? = some d :=
  getLast?_of_getLast?_lowerFrom hd h

end EditorConfig.Text
