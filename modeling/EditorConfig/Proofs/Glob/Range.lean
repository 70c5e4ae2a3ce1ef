import EditorConfig.Proofs.Glob.Expansion
import EditorConfig.Proofs.Text.Decimal

/-!
# Ranges of numbers

* `Brace.IsRange`   a text `low..high` whose bounds are in order and not too far apart.

Main statement: braces around such a text match the numbers of the range as they are written, and
braces around any other text without a meaning match themselves (`Pattern.accepts_range`).
-/

namespace EditorConfig

namespace Text

theorem cutPair?_cons {sep c : Char} {t : Text} (hc : c ≠ sep) (ht : t ≠ []) :
    cutPair? sep (c :: t) = (cutPair? sep t).map fun (a, b) => (c :: a, b) := by
  obtain ⟨d, u, rfl⟩ := List.exists_cons_of_ne_nil ht
  rw [cutPair?, if_neg fun hcd => hc hcd.1]

/-- A text without separators is cut where two of them follow it. -/
theorem cutPair?_append {sep : Char} {a : Text} (h : sep ∉ a) (b : Text) :
    cutPair? sep (a ++ sep :: sep :: b) = some (a, b) := by
  induction a with
  | nil => exact if_pos ⟨rfl, rfl⟩
  | cons c a ih =>
    obtain ⟨hc, ha⟩ := List.ne_and_not_mem_of_not_mem_cons h
    rw [List.cons_append, cutPair?_cons hc.symm (by simp), ih ha]
    rfl

end Text

namespace Brace

/-! ## Bounds -/

/-- A text `low..high` of two numerals.  No dot stands in a numeral, so the dots between them are
the first two that meet. -/
structure IsRange (t : Text) (low high : Int) : Prop where
  split : ∃ l h, t = l ++ '.' :: '.' :: h ∧ Decimal.Numeral l low ∧ Decimal.Numeral h high
  low_word : Decimal.isWord low = true
  high_word : Decimal.isWord high = true
  le : low ≤ high
  near : high - low < 10000

theorem plainText?_map (t : Text) : plainText? (t.map .plain) = some t := by
  induction t with
  | nil => rfl
  | cons c t ih => rw [List.map_cons, plainText?, ih, Option.map_some]

theorem dot_not_mem_of_numeral {t : Text} {n : Int} (h : Decimal.Numeral t n) : '.' ∉ t := by
  intro hm
  have hcases := h.mem hm
  revert hcases
  decide

/-- The bounds that are read from a body are those of a range. -/
theorem range?_eq_some_iff {t : Text} {low high : Int} :
    range? (t.map .plain) = some (low, high) ↔ IsRange t low high := by
  have hcut : range? (t.map .plain) = (Text.cutPair? '.' t).bind fun (l, h) =>
      (Decimal.readInt? l).bind fun low => (Decimal.readInt? h).bind fun high =>
        if low ≤ high ∧ high - low < 10000 then some (low, high) else none := by
    show (plainText? (t.map .plain)).bind _ = _
    rw [plainText?_map]
    rfl
  rw [hcut]
  constructor
  · intro h
    obtain ⟨⟨l, m⟩, hlm, h⟩ := Option.bind_eq_some_iff.1 h
    obtain ⟨a, ha, h⟩ := Option.bind_eq_some_iff.1 h
    obtain ⟨b, hb, h⟩ := Option.bind_eq_some_iff.1 h
    obtain ⟨hl, hlow⟩ := Decimal.readInt?_eq_some_iff.1 ha
    obtain ⟨hm, hhigh⟩ := Decimal.readInt?_eq_some_iff.1 hb
    split at h
    · next hbounds =>
      cases h
      exact ⟨⟨l, m, Text.eq_of_cutPair? hlm, hl, hm⟩, hlow, hhigh, hbounds.1, hbounds.2⟩
    · cases h
  · intro h
    obtain ⟨l, m, rfl, hl, hm⟩ := h.split
    rw [Text.cutPair?_append (dot_not_mem_of_numeral hl)]
    show (Decimal.readInt? l).bind _ = _
    rw [Decimal.readInt?_eq_some_iff.2 ⟨hl, h.low_word⟩]
    show (Decimal.readInt? m).bind _ = _
    rw [Decimal.readInt?_eq_some_iff.2 ⟨hm, h.high_word⟩]
    exact if_pos ⟨h.le, h.near⟩

theorem nested_plain {t : Text} (h : ∀ c ∈ t, c ≠ '{' ∧ c ≠ '}') : Nested 0 (t.map .plain) := by
  induction t with
  | nil => exact nested_nil.2 rfl
  | cons c t ih =>
    obtain ⟨⟨ho, hc⟩, ht⟩ := List.forall_mem_cons.1 h
    exact (ih ht).cons_plain (fun he => ho (Sign.plain.inj he)) fun he => hc (Sign.plain.inj he)

end Brace

namespace Regex

/-! ## Heights -/

theorem heightAt_choice_le {rs : List Regex} {n : Nat} (h : ∀ r ∈ rs, heightAt .alone r ≤ n) :
    heightAt .inChoice (choice rs) ≤ n + 1 := by
  induction rs with
  | nil => exact Nat.zero_le _
  | cons r rs ih =>
    obtain ⟨hr, hrs⟩ := List.forall_mem_cons.1 h
    have htail := ih hrs
    cases rs with
    | nil =>
      have hplace := heightAt_le .inChoice .alone r
      show heightAt .inChoice r ≤ n + 1
      omega
    | cons s rs =>
      show 0 + max (heightAt .alone r) (heightAt .inChoice (choice (s :: rs))) ≤ n + 1
      omega

/-- A text makes a row of characters. -/
theorem heightAt_ofText_le (t : Text) : heightAt .alone (ofText t) ≤ 1 := by
  have hitems : ∀ r ∈ t.map fun c => one (.char c), r.IsItem ∧ heightAt .alone r = 0 := by
    intro r hr
    obtain ⟨c, -, rfl⟩ := List.mem_map.1 hr
    exact ⟨trivial, rfl⟩
  have hrow : heightAt .inSequence (ofText t) ≤ 0 :=
    (heightAt_concat_le fun r hr => (hitems r hr).1).2 fun r hr => Nat.le_of_eq (hitems r hr).2
  have hplace := heightAt_le .alone .inSequence (ofText t)
  omega

/-! ## Sizes -/

theorem weight_choice_le {rs : List Regex} {n : Nat} (h : ∀ r ∈ rs, r.weight ≤ n) :
    (choice rs).weight ≤ rs.length * (n + 256) := by
  induction rs with
  | nil => exact Nat.zero_le _
  | cons r rs ih =>
    obtain ⟨hr, hrs⟩ := List.forall_mem_cons.1 h
    have htail := ih hrs
    rw [List.length_cons, Nat.succ_mul]
    cases rs with
    | nil =>
      show r.weight ≤ _
      omega
    | cons s rs =>
      show r.weight + (choice (s :: rs)).weight + 256 ≤ _
      omega

/-- Each character of one byte is one state. -/
theorem weight_ofText {t : Text} (h : ∀ c ∈ t, c.utf8Size = 1) :
    (ofText t).weight = 40 * t.length := by
  induction t with
  | nil => rfl
  | cons c t ih =>
    obtain ⟨hc, ht⟩ := List.forall_mem_cons.1 h
    show (concat (.one (.char c) :: t.map fun c => .one (.char c))).weight = _
    rw [weight_concat_cons, ← ofText, ih ht, List.length_cons, Nat.mul_succ, Nat.add_comm]
    show 40 * t.length + 40 * c.utf8Size = _
    rw [hc]

end Regex

namespace Decimal

theorem utf8Size_of_mem_int {n : Int} {c : Char} (h : c ∈ int n) : c.utf8Size = 1 := by
  have hdigit (hc : c.isDigit = true) : c.utf8Size = 1 := by
    obtain ⟨hcode, hlt⟩ := toNat_of_isDigit hc
    rw [Char.utf8Size_eq_one_iff, UInt32.le_iff_toNat_le]
    show c.toNat ≤ 127
    omega
  rcases (eq_int_iff.1 (rfl : int n = int n)).1.mem h with rfl | rfl | hc
  · rfl
  · rfl
  · exact hdigit hc

theorem isWord_iff {n : Int} :
    isWord n = true ↔ -0x8000000000000000 ≤ n ∧ n < 0x8000000000000000 := by
  rw [isWord, Bool.and_eq_true, decide_eq_true_iff, decide_eq_true_iff]

/-- A number of 64 bits is written with a sign and 19 digits at most. -/
theorem length_int_le {n : Int} (h : isWord n = true) : (int n).length ≤ 20 := by
  have hnat {m : Nat} (hm : m < 10 ^ 19) : (nat m).length ≤ 19 :=
    (Nat.length_toDigits_le_iff (by decide) (by decide)).2 hm
  obtain ⟨hlow, hhigh⟩ := isWord_iff.1 h
  cases n with
  | ofNat m =>
    have hm : (m : Int) < 0x8000000000000000 := hhigh
    exact Nat.le_succ_of_le (hnat (by omega))
  | negSucc m =>
    have hm : m + 1 < 10 ^ 19 := by omega
    exact Nat.succ_le_succ (hnat hm)

end Decimal

namespace Glob

/-- However many numbers a range has, its expression nests no deeper. -/
theorem fits_range (low high : Int) : (range low high).Fits := by
  intro r hr
  obtain rfl : r = .group (.choice ((numbers low high).map fun n => .ofText (Decimal.int n))) :=
    List.mem_singleton.1 hr
  have hchoice : Regex.heightAt .inChoice
      (.choice ((numbers low high).map fun n => .ofText (Decimal.int n))) ≤ 1 + 1 := by
    apply Regex.heightAt_choice_le
    intro s hs
    obtain ⟨n, -, rfl⟩ := List.mem_map.1 hs
    exact Regex.heightAt_ofText_le _
  have hplace := Regex.heightAt_le .alone .inChoice
    (.choice ((numbers low high).map fun n => .ofText (Decimal.int n)))
  show 1 + Regex.heightAt .alone
    (.choice ((numbers low high).map fun n => .ofText (Decimal.int n))) < 250
  omega

/-- The most numbers that a range can have, at the most bytes for each. -/
theorem weight_range_le {low high : Int} (hlow : Decimal.isWord low = true)
    (hhigh : Decimal.isWord high = true) (hnear : high - low < 10000) :
    (range low high).weight ≤ 10560000 := by
  have hnumber : ∀ r ∈ (numbers low high).map fun n => Regex.ofText (Decimal.int n),
      r.weight ≤ 800 := by
    intro r hr
    obtain ⟨n, hn, rfl⟩ := List.mem_map.1 hr
    have hword : Decimal.isWord n = true := by
      obtain ⟨hln, hnh⟩ := mem_numbers.1 hn
      have hl := (Decimal.isWord_iff.1 hlow).1
      have hh := (Decimal.isWord_iff.1 hhigh).2
      exact Decimal.isWord_iff.2 ⟨Int.le_trans hl hln, Int.lt_of_le_of_lt hnh hh⟩
    rw [Regex.weight_ofText fun c hc => Decimal.utf8Size_of_mem_int hc]
    exact Nat.mul_le_mul_left 40 (Decimal.length_int_le hword)
  have hchoice := Regex.weight_choice_le hnumber
  have hlength : (numbers low high).length ≤ 10000 := by
    rw [numbers, List.length_map, List.length_range]
    omega
  have hrange : (range low high).weight
      = (Regex.choice ((numbers low high).map fun n => .ofText (Decimal.int n))).weight := rfl
  rw [List.length_map] at hchoice
  omega

/-! ## A body in braces -/

/-- Braces around a text without braces and backslashes are a group of that body. -/
theorem ofText_braces {t : Text} (h : ∀ c ∈ t, c ∉ ['\\', '{', '}']) :
    ofText ('{' :: t ++ ['}']) = seq (ofBody (t.map .plain)) empty := by
  simp only [List.mem_cons, List.not_mem_nil, or_false, not_or] at h
  have hquote : '\\' ∉ '{' :: t ++ ['}'] := by
    have ht : '\\' ∉ t := fun hm => (h _ hm).1 rfl
    simpa using ht
  have hnested : Brace.Nested 0 (t.map .plain) := Brace.nested_plain fun c hc => (h c hc).2
  have hsigns : Text.signs ('{' :: t ++ ['}']) = .plain '{' :: (t.map .plain ++ [.plain '}']) := by
    rw [Text.signs_of_not_mem hquote, List.map_append]
    rfl
  rw [ofText, hsigns, ofSigns_of_balanced (Brace.balanced_group hnested rfl),
    ofSignsWith_group (lead_group (Brace.closing?_append hnested [])), ofSignsWith_nil]

theorem takes_seq_empty {g : Glob} {t : Text} : (seq g empty).Takes t ↔ g.Takes t := by
  constructor
  · intro h
    obtain ⟨u, v, rfl, hu, rfl⟩ := h
    rw [List.append_nil]
    exact hu
  · intro h
    exact ⟨t, [], (List.append_nil t).symm, h, rfl⟩

end Glob

namespace Pattern

/-- **Ranges of numbers.**  In braces, a range matches the numbers from its lower to its upper
bound, each as its canonical numeral.  Any other text matches itself with its braces, as long as it
has no character that means something there. -/
theorem accepts_range [Regex.Engine] {t : Text}
    (ht : ∀ c ∈ t, c ∉ ['\\', '*', '?', '[', '{', '}', ',']) (path : Text) :
    (∀ low high, Brace.IsRange t low high →
      ((compile ('{' :: t ++ ['}'])).accepts path = true ↔
        ∃ n, low ≤ n ∧ n ≤ high ∧ Decimal.Numeral path n ∧ Decimal.Canonical path)) ∧
    ((¬∃ low high, Brace.IsRange t low high) →
      ((compile ('{' :: t ++ ['}'])).accepts path = true ↔ path = '{' :: t ++ ['}'])) := by
  simp only [List.mem_cons, List.not_mem_nil, or_false, not_or] at ht
  have hglob := Glob.ofText_braces (t := t) fun c hc => by simp [ht c hc]
  constructor
  · intro low high hrange
    rw [Glob.ofBody_range (Brace.range?_eq_some_iff.2 hrange)] at hglob
    have hsome : (compile ('{' :: t ++ ['}'])).expression.isSome = true := by
      apply isSome_compile_of_weight_le hglob
      · exact Glob.fits_seq.2 ⟨Glob.fits_range low high, Glob.fits_empty⟩
      · have hempty : Glob.empty.weight = 0 := rfl
        have hweight := Glob.weight_range_le hrange.low_word hrange.high_word hrange.near
        rw [Glob.weight_seq, hempty, Regex.sizeLimit]
        omega
    rw [accepts_iff_takes hsome, hglob, Glob.takes_seq_empty]
    show (∃ n, low ≤ n ∧ n ≤ high ∧ path = Decimal.int n) ↔ _
    simp only [Decimal.eq_int_iff]
  · intro hnone
    have hrange : Brace.range? (t.map .plain) = none := by
      rw [Option.eq_none_iff_forall_ne_some]
      intro bounds hbounds
      exact hnone ⟨bounds.1, bounds.2, Brace.range?_eq_some_iff.1 hbounds⟩
    have hcomma : .plain ',' ∉ t.map Sign.plain := by
      intro hm
      obtain ⟨c, hc, he⟩ := List.mem_map.1 hm
      exact (ht c hc).2.2.2.2.2.2 (Sign.plain.inj he)
    have hbody : Glob.ofSigns (t.map .plain) = .literal t :=
      Glob.ofSignsWith_plain fun c hc => by simp [ht c hc]
    rw [Glob.ofBody_literal hrange hcomma, hbody] at hglob
    apply accepts_iff_eq_of_takes
    intro path
    rw [hglob, Glob.takes_seq_empty, Glob.takes_braces]
    simp only [Glob.takes_literal, exists_eq_left]

/-- The bounds may lie at either end of the words; a range from end to end is none. -/
theorem accepts_range_words :
    let t : Text := "9223372036854775806..+9223372036854775807".toList
    let wide : Text := "-9223372036854775808..9223372036854775807".toList
    (∀ c ∈ t, c ∉ ['\\', '*', '?', '[', '{', '}', ',']) ∧
      Brace.IsRange t 9223372036854775806 9223372036854775807 ∧
      (compile ('{' :: t ++ ['}'])).accepts "9223372036854775807".toList = true ∧
      (∀ c ∈ wide, c ∉ ['\\', '*', '?', '[', '{', '}', ',']) ∧
      (¬∃ low high, Brace.IsRange wide low high) ∧
      (compile ('{' :: wide ++ ['}'])).accepts ('{' :: wide ++ ['}']) = true := by
  intro t wide
  have ht : ∀ c ∈ t, c ∉ ['\\', '*', '?', '[', '{', '}', ','] := by simp [t]
  have hwide : ∀ c ∈ wide, c ∉ ['\\', '*', '?', '[', '{', '}', ','] := by simp [wide]
  have hrange : Brace.IsRange t 9223372036854775806 9223372036854775807 :=
    Brace.range?_eq_some_iff.1 (by decide)
  have hread : Brace.range? (wide.map .plain) = none := by decide
  have hnone : ¬∃ low high, Brace.IsRange wide low high := by
    intro h
    obtain ⟨low, high, h⟩ := h
    rw [Brace.range?_eq_some_iff.2 h] at hread
    cases hread
  have hhigh : "9223372036854775807".toList = Decimal.int 9223372036854775807 := rfl
  obtain ⟨hnumeral, hcanonical⟩ := Decimal.eq_int_iff.1 hhigh
  refine ⟨ht, hrange, ?_, hwide, hnone, ((accepts_range hwide _).2 hnone).2 rfl⟩
  exact ((accepts_range ht _).1 _ _ hrange).2
    ⟨_, by decide, Int.le_refl _, hnumeral, hcanonical⟩

end Pattern

end EditorConfig
