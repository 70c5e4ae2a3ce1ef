/-!
# Text

Text is a list of characters, so that every reader in this library is recursion on a list.  In globs
and in expressions a backslash takes the special meaning from the character after it.  Both are
read as a list of signs, so that no later step has to look for backslashes.

* `Text.cut?`       a text cut at the first occurrence of a character;
* `Text.cutPair?`   a text cut at the first place where a character stands twice;
* `Text.onto`       an item put in front of what was read of the items after it;
* `Sign`            a character that may carry a meaning (`plain`) or stands for itself (`quoted`);
* `Text.signs`      a text as signs; a backslash at the very end stands for itself;
* `Sign.text`       the way a sign is written;
* `Text.isBlank`    the characters with the Unicode property `White_Space`;
* `Text.trim`       a text without the white space at its two ends.

Main statements: what `List.splitOn` gives are parts without the separator, one more than there are
separators (`not_mem_of_mem_splitOn`, `length_splitOn`); `cut?` finds the first occurrence
(`cut?_eq_some`); written signs are read back (`signs_flatMap_text`); a trimmed text has no white
space at its ends (`head?_trim`, `getLast?_trim`), and trimming it again changes nothing
(`trim_trim`).
-/

namespace EditorConfig

abbrev Text := List Char

namespace Text

/-! ## Parts between separators -/

theorem forall_mem_intercalate {α : Type} {P : α → Prop} {sep : List α} {ls : List (List α)}
    (hsep : ∀ a ∈ sep, P a) (hls : ∀ l ∈ ls, ∀ a ∈ l, P a) : ∀ a ∈ sep.intercalate ls, P a := by
  induction ls with
  | nil => simp [List.intercalate]
  | cons l ls ih =>
    have ih := ih fun k hk => hls k (List.mem_cons_of_mem _ hk)
    cases ls with
    | nil =>
      rw [List.intercalate_singleton]
      exact hls l (by simp)
    | cons k ls =>
      rw [List.intercalate_cons_cons]
      intro a ha
      rcases List.mem_append.1 ha with ha | ha
      · rcases List.mem_append.1 ha with ha | ha
        · exact hls l (by simp) a ha
        · exact hsep a ha
      · exact ih a ha

theorem splitOn_cons_self (sep : Char) (t : Text) :
    (sep :: t).splitOn sep = [] :: t.splitOn sep :=
  List.splitOn_append_cons_self [] t

/-- A text without separators becomes part of the first part of what follows it. -/
theorem splitOn_append {sep : Char} {a t p : Text} {ps : List Text} (h : sep ∉ a)
    (ht : t.splitOn sep = p :: ps) : (a ++ t).splitOn sep = (a ++ p) :: ps := by
  induction a with
  | nil => exact ht
  | cons c a ih =>
    obtain ⟨hc, ha⟩ := List.ne_and_not_mem_of_not_mem_cons h
    rw [List.cons_append, List.splitOn_cons_eq_if_modifyHead, if_neg (by simpa using hc.symm),
      ih ha]
    rfl

/-- Parts that each end with the separator come back, with an empty one behind them. -/
theorem splitOn_flatMap_append {sep : Char} {ps : List Text} (h : ∀ p ∈ ps, sep ∉ p) :
    (ps.flatMap (· ++ [sep])).splitOn sep = ps ++ [[]] := by
  induction ps with
  | nil => rfl
  | cons p ps ih =>
    obtain ⟨hp, hps⟩ := List.forall_mem_cons.1 h
    rw [List.flatMap_cons, List.append_assoc, List.singleton_append,
      List.splitOn_append_cons_self_of_not_mem hp, ih hps, List.cons_append]

/-- No part holds the separator. -/
theorem not_mem_of_mem_splitOn {sep : Char} {t p : Text} (h : p ∈ t.splitOn sep) : sep ∉ p := by
  induction t generalizing p with
  | nil =>
    obtain rfl := List.mem_singleton.1 h
    exact List.not_mem_nil
  | cons c t ih =>
    rw [List.splitOn_cons_eq_if_modifyHead] at h
    split at h
    · rcases List.mem_cons.1 h with rfl | h
      · exact List.not_mem_nil
      · exact ih h
    · next hc =>
      have hc : c ≠ sep := by simpa using hc
      cases ht : t.splitOn sep with
      | nil => exact absurd ht (List.splitOn_ne_nil sep t)
      | cons q qs =>
        rw [ht] at h ih
        rcases List.mem_cons.1 h with rfl | h
        · exact List.not_mem_cons_of_ne_of_not_mem hc.symm (ih List.mem_cons_self)
        · exact ih (List.mem_cons_of_mem _ h)

theorem length_splitOn (sep : Char) (t : Text) :
    (t.splitOn sep).length = t.count sep + 1 := by
  induction t with
  | nil => rfl
  | cons c t ih =>
    rw [List.splitOn_cons_eq_if_modifyHead, List.count_cons]
    split
    · rw [List.length_cons, ih]
    · rw [List.length_modifyHead, ih, Nat.add_zero]

/-! ## Cutting in two -/

/-- The text before and after the first `sep`, if there is one. -/
def cut? (sep : Char) : Text → Option (Text × Text)
  | [] => none
  | c :: t => if c = sep then some ([], t) else (cut? sep t).map fun (a, b) => (c :: a, b)

/-- The text before and after the first place where `sep` stands twice, if there is one. -/
def cutPair? (sep : Char) : Text → Option (Text × Text)
  | [] => none
  | [_] => none
  | c :: d :: t =>
    if c = sep ∧ d = sep then some ([], t)
    else (cutPair? sep (d :: t)).map fun (a, b) => (c :: a, b)

/-- A cut loses the separator only, and the first part holds none. -/
theorem cut?_eq_some {sep : Char} {t a b : Text} :
    cut? sep t = some (a, b) ↔ t = a ++ sep :: b ∧ sep ∉ a := by
  induction t generalizing a with
  | nil => simp [cut?]
  | cons c t ih =>
    unfold cut?
    split
    · next h =>
      subst h
      constructor
      · intro h
        simp only [Option.some.injEq, Prod.mk.injEq] at h
        simp [← h.1, h.2]
      · rintro ⟨h, hn⟩
        cases a with
        | nil => simp_all
        | cons x a => simp_all
    · next h =>
      constructor
      · intro hs
        obtain ⟨⟨x, y⟩, hx, hy⟩ := Option.map_eq_some_iff.1 hs
        simp only [Prod.mk.injEq] at hy
        obtain ⟨rfl, rfl⟩ := hy
        obtain ⟨rfl, hn⟩ := ih.1 hx
        exact ⟨rfl, by simp [hn, Ne.symm h]⟩
      · rintro ⟨he, hn⟩
        cases a with
        | nil => simp_all
        | cons x a =>
          simp only [List.cons_append, List.cons.injEq] at he
          obtain ⟨rfl, rfl⟩ := he
          have := ih.2 ⟨rfl, fun hm => hn (List.mem_cons_of_mem _ hm)⟩
          simp [this]

theorem cut?_eq_none {sep : Char} {t : Text} : cut? sep t = none ↔ sep ∉ t := by
  induction t with
  | nil => simp [cut?]
  | cons c t ih =>
    unfold cut?
    split
    · next h => simp [h]
    · next h => simp [ih, Ne.symm h]

/-! ## Reading item by item -/

/-- An item put in front of what was read of the items after it; the rest is still unread. -/
def onto {α β : Type} (a : α) (r : Option (List α × β)) : Option (List α × β) :=
  r.map fun (as, rest) => (a :: as, rest)

@[simp] theorem onto_none {α β : Type} (a : α) : onto a (none : Option (List α × β)) = none := rfl

@[simp] theorem onto_some {α β : Type} (a : α) (as : List α) (rest : β) :
    onto a (some (as, rest)) = some (a :: as, rest) := rfl

theorem onto_eq_some {α β : Type} {a : α} {r : Option (List α × β)} {as : List α} {rest : β} :
    onto a r = some (as, rest) ↔ ∃ bs, r = some (bs, rest) ∧ as = a :: bs := by
  cases r with
  | none => simp
  | some p =>
    obtain ⟨bs, r⟩ := p
    rw [onto_some]
    constructor
    · intro h
      simp only [Option.some.injEq, Prod.mk.injEq] at h
      exact ⟨bs, by rw [h.2], h.1.symm⟩
    · rintro ⟨cs, h, rfl⟩
      simp only [Option.some.injEq, Prod.mk.injEq] at h
      rw [h.1, h.2]

end Text

/-! ## Plain and quoted characters -/

inductive Sign where
  | plain (c : Char)
  | quoted (c : Char)
deriving DecidableEq, Repr

namespace Sign

/-- The character, whether it carries a meaning or not. -/
def char : Sign → Char
  | plain c => c
  | quoted c => c

def text : Sign → Text
  | plain c => [c]
  | quoted c => ['\\', c]

end Sign

namespace Text

def signs : Text → List Sign
  | [] => []
  | c :: t =>
    if c = '\\' then
      match t with
      | [] => [.quoted '\\']
      | d :: u => .quoted d :: signs u
    else .plain c :: signs t

@[simp] theorem signs_nil : signs [] = [] := rfl

@[simp] theorem signs_quoted (c : Char) (t : Text) :
    signs ('\\' :: c :: t) = .quoted c :: signs t := by
  simp [signs]

theorem signs_plain {c : Char} (h : c ≠ '\\') (t : Text) :
    signs (c :: t) = .plain c :: signs t := by
  rw [signs.eq_def]
  simp [h]

theorem signs_of_not_mem {t : Text} (h : '\\' ∉ t) : signs t = t.map .plain := by
  induction t with
  | nil => rfl
  | cons c t ih =>
    obtain ⟨hc, ht⟩ := List.ne_and_not_mem_of_not_mem_cons h
    rw [signs_plain hc.symm, ih ht, List.map_cons]

/-- Written signs are read back; only a plain backslash cannot be written. -/
theorem signs_flatMap_text {ss : List Sign} (h : .plain '\\' ∉ ss) :
    signs (ss.flatMap Sign.text) = ss := by
  induction ss with
  | nil => rfl
  | cons s ss ih =>
    have hss := ih fun hm => h (List.mem_cons_of_mem _ hm)
    cases s with
    | plain c =>
      have hc : c ≠ '\\' := fun he => h (by simp [he])
      show signs (c :: ss.flatMap Sign.text) = _
      rw [signs_plain hc, hss]
    | quoted c =>
      show signs ('\\' :: c :: ss.flatMap Sign.text) = _
      rw [signs_quoted, hss]

/-! ## White space -/

/-- White space: the 25 characters of the Unicode property `White_Space`. -/
def isBlank (c : Char) : Bool :=
  let n := c.toNat
  (9 ≤ n && n ≤ 13) || n = 32 || n = 0x85 || n = 0xa0 || n = 0x1680 ||
    (0x2000 ≤ n && n ≤ 0x200a) || n = 0x2028 || n = 0x2029 || n = 0x202f || n = 0x205f ||
    n = 0x3000

def trimStart (t : Text) : Text := t.dropWhile isBlank

def trimEnd (t : Text) : Text := (t.reverse.dropWhile isBlank).reverse

def trim (t : Text) : Text := trimEnd (trimStart t)

theorem trim_nil : trim [] = [] := rfl

theorem trimStart_eq_self {t : Text} (h : t.head?.all (fun c => !isBlank c)) : trimStart t = t := by
  cases t with
  | nil => rfl
  | cons c t => exact List.dropWhile_cons_of_neg (by simpa using h)

theorem trimEnd_eq_self {t : Text} (h : t.getLast?.all (fun c => !isBlank c)) : trimEnd t = t := by
  rw [← List.head?_reverse] at h
  have hreverse : t.reverse.dropWhile isBlank = t.reverse := trimStart_eq_self h
  rw [trimEnd, hreverse, List.reverse_reverse]

/-- A text with no white space at its ends stays as it is. -/
theorem trim_eq_self {t : Text} (hs : t.head?.all (fun c => !isBlank c))
    (he : t.getLast?.all (fun c => !isBlank c)) : trim t = t := by
  rw [trim, trimStart_eq_self hs, trimEnd_eq_self he]

theorem head?_dropWhile_blank (t : Text) :
    (t.dropWhile isBlank).head?.all (fun c => !isBlank c) := by
  induction t with
  | nil => rfl
  | cons c t ih =>
    rw [List.dropWhile_cons]
    split
    · exact ih
    · next h => simpa using h

theorem getLast?_trim (t : Text) : (trim t).getLast?.all (fun c => !isBlank c) := by
  rw [trim, trimEnd, List.getLast?_reverse]
  exact head?_dropWhile_blank _

theorem exists_eq_trimEnd_append {t : Text} : ∃ u, t = trimEnd t ++ u := by
  have h := List.takeWhile_append_dropWhile (p := isBlank) (l := t.reverse)
  refine ⟨(t.reverse.takeWhile isBlank).reverse, ?_⟩
  rw [trimEnd, ← List.reverse_append, h, List.reverse_reverse]

theorem head?_trim (t : Text) : (trim t).head?.all (fun c => !isBlank c) := by
  obtain ⟨u, hu⟩ := exists_eq_trimEnd_append (t := trimStart t)
  have hs := head?_dropWhile_blank t
  cases ht : trim t with
  | nil => rfl
  | cons c r =>
    have hstart : trimStart t = c :: (r ++ u) := by
      rw [hu, ← trim, ht]
      rfl
    rw [← trimStart, hstart] at hs
    exact hs

theorem trim_trim (t : Text) : trim (trim t) = trim t :=
  trim_eq_self (head?_trim t) (getLast?_trim t)

end Text

end EditorConfig
