import EditorConfig.Matcher
import EditorConfig.Proofs.Glob.Bracket

/-!
# The expression of a glob

The tokens of a glob are written down as text and read again as an expression.

* `Glob.Proper`       every class can be written and read, every range holds a number, and only a
                      group offers a choice;
* `Glob.branches`     the branches of a glob, each the list of its items;
* `Glob.expression`   the expression that is read.

Main statements: the text of a proper glob is read as its expression (`parse?_regexText`), and the
expression denotes the texts that the glob takes (`denotes_expression`).
-/

namespace EditorConfig

namespace Regex

/-! ## Sequences and choices -/

theorem denotes_concat_append {rs ss : List Regex} {t : Text} :
    (concat (rs ++ ss)).Denotes t
      ↔ ∃ u v, t = u ++ v ∧ (concat rs).Denotes u ∧ (concat ss).Denotes v := by
  induction rs generalizing t with
  | nil =>
    constructor
    · intro h
      exact ⟨[], t, rfl, rfl, h⟩
    · intro h1
      obtain ⟨u, v, rfl, rfl, hv⟩ := h1
      exact hv
  | cons r rs ih =>
    rw [List.cons_append, denotes_concat_cons]
    constructor
    · intro h1
      obtain ⟨u, w, rfl, hu, hw⟩ := h1
      obtain ⟨v, x, rfl, hv, hx⟩ := ih.1 hw
      exact ⟨u ++ v, x, by simp, (denotes_concat_cons r rs _).2 ⟨u, v, rfl, hu, hv⟩, hx⟩
    · intro h1
      obtain ⟨u, v, rfl, hu, hv⟩ := h1
      obtain ⟨x, y, rfl, hx, hy⟩ := (denotes_concat_cons r rs u).1 hu
      exact ⟨x, y ++ v, by simp, hx, ih.2 ⟨y, v, rfl, hy, hv⟩⟩

theorem denotes_choice {rs : List Regex} (h : rs ≠ []) {t : Text} :
    (choice rs).Denotes t ↔ ∃ r ∈ rs, r.Denotes t := by
  induction rs with
  | nil => exact absurd rfl h
  | cons r rs ih =>
    cases rs with
    | nil => simp [choice]
    | cons s rs =>
      rw [denotes_choice_cons, ih (by simp)]
      simp only [List.mem_cons, or_and_right, exists_or, exists_eq_left]

/-- The expression of a text that stands for itself. -/
def ofText (t : Text) : Regex := concat (t.map fun c => .one (.char c))

theorem denotes_ofText {t u : Text} : (ofText t).Denotes u ↔ u = t := by
  induction t generalizing u with
  | nil => exact denotes_concat_nil u
  | cons c t ih =>
    show (concat (Regex.one (.char c) :: t.map fun c => .one (.char c))).Denotes u ↔ _
    rw [denotes_concat_cons]
    constructor
    · intro h1
      obtain ⟨x, y, rfl, ⟨d, hd, rfl⟩, hy⟩ := h1
      obtain rfl := ih.1 hy
      obtain rfl : d = c := by simpa [Atom.has] using hd
      rfl
    · rintro rfl
      exact ⟨[c], t, rfl, ⟨c, by simp [Atom.has], rfl⟩, ih.2 rfl⟩

/-! ## Written tokens -/

theorem Token.plain_backslash_not_mem_signs (t : Token) : .plain '\\' ∉ t.signs := by
  have literal (c : Char) : .plain '\\' ≠ Sign.literal c := Ne.symm (Sign.literal_ne_plain rfl)
  cases t with
  | char c => simpa [signs] using literal c
  | bracket b =>
    have hmarks : .plain '\\' ∉ b.marks.map Mark.sign := by
      intro h
      obtain ⟨m, -, hm⟩ := List.mem_map.1 h
      cases m with
      | member c => exact literal c hm.symm
      | dash => cases hm
    cases hn : b.negated <;> simp [signs, Bracket.signs, hn, hmarks]
  | dot => decide
  | star => decide
  | bar => decide
  | opening => decide
  | closing => decide

theorem parse?_text {ts : List Token} (h : ∀ t ∈ ts, t.Writable) :
    parse? ('^' :: Token.text ts ++ ['$']) = parseFrom {} [] ts := by
  have hsigns : .plain '\\' ∉ .plain '^' :: ts.flatMap Token.signs ++ [.plain '$'] := by
    have hts : .plain '\\' ∉ ts.flatMap Token.signs := by
      intro hm
      obtain ⟨t, -, ht⟩ := List.mem_flatMap.1 hm
      exact t.plain_backslash_not_mem_signs ht
    simp [hts]
  have htext : '^' :: Token.text ts ++ ['$']
      = (Sign.plain '^' :: ts.flatMap Token.signs ++ [Sign.plain '$']).flatMap Sign.text := by
    simp [Token.text, Sign.text]
  rw [parse?, htext, Text.signs_flatMap_text hsigns]
  show (Token.ofSigns? (ts.flatMap Token.signs ++ [.plain '$'])).bind (parseFrom {} []) = _
  rw [Token.ofSigns?_signs h]
  rfl

/-! ## Reading characters -/

theorem parseFrom_chars (t : Text) (f : Frame) (fs : List Frame) (ts : List Token) :
    parseFrom f fs (t.map .char ++ ts)
      = parseFrom ⟨f.branches, (t.map fun c => .one (.char c)).reverse ++ f.items⟩ fs ts := by
  induction t generalizing f with
  | nil => rfl
  | cons c t ih =>
    rw [List.map_cons, List.cons_append, parseFrom, ih]
    simp [Frame.add]

/-- Texts with bars between them are read as the branches of a group. -/
theorem parseFrom_texts {us : List Text} (hus : us ≠ []) (bs : List Regex) (f : Frame)
    (fs : List Frame) (ts : List Token) :
    parseFrom ⟨bs, []⟩ (f :: fs)
        ([.bar].intercalate (us.map fun u => u.map .char) ++ .closing :: ts)
      = parseFrom (f.add (.group (choice (bs.reverse ++ us.map ofText)))) fs ts := by
  induction us generalizing bs with
  | nil => exact absurd rfl hus
  | cons u us ih =>
    cases us with
    | nil =>
      rw [List.map_singleton, List.intercalate_singleton, parseFrom_chars, parseFrom]
      simp [Frame.close, ofText]
    | cons v us =>
      rw [List.map_cons, List.intercalate_cons_of_ne_nil (by simp), List.append_assoc,
        List.append_assoc, parseFrom_chars, List.singleton_append, parseFrom, Frame.branch,
        ih (by simp)]
      simp [ofText]

end Regex

namespace Glob

open Regex (Token Frame parseFrom)

/-! ## Proper globs -/

/-- Classes can be written and read, ranges hold a number, and a choice stands only where
`inGroup` allows it, that is, directly inside a group. -/
def Proper (inGroup : Bool) : Glob → Prop
  | bracket b => (Token.bracket b).Writable ∧ ∃ k, b.charClass? = some k
  | range low high => low ≤ high
  | group g => g.Proper true
  | seq g h => g.Proper false ∧ h.Proper false
  | alt g h => inGroup = true ∧ g.Proper false ∧ h.Proper true
  | _ => True

theorem Proper.inGroup {g : Glob} (h : g.Proper false) : g.Proper true := by
  cases g with
  | alt g h' => exact absurd h.1 (by simp)
  | _ => exact h

theorem proper_choice {gs : List Glob} (h : ∀ g ∈ gs, g.Proper false) :
    (choice gs).Proper true := by
  induction gs with
  | nil => trivial
  | cons g gs ih =>
    have hg := h g (by simp)
    have hgs := ih fun k hk => h k (List.mem_cons_of_mem _ hk)
    cases gs with
    | nil => exact hg.inGroup
    | cons k gs => exact ⟨rfl, hg, hgs⟩

/-! ## Branches -/

/-- Every character but the slash. -/
def notSlash : Regex.CharClass := ⟨true, [⟨'/', '/'⟩], []⟩

theorem has_notSlash {c : Char} : notSlash.has c = true ↔ c ≠ '/' := by
  have h : Regex.Interval.has ⟨'/', '/'⟩ c = true ↔ c = '/' := by
    simp only [Regex.Interval.has, Bool.and_eq_true, decide_eq_true_eq]
    constructor
    · intro h
      obtain ⟨h1, h2⟩ := h
      exact Char.le_antisymm h2 h1
    · rintro rfl
      exact ⟨Char.le_refl _, Char.le_refl _⟩
  simp [notSlash, Regex.CharClass.has, ← h]

/-- The branches of a glob, each the list of its items. -/
def branches : Glob → List (List Regex)
  | empty => [[]]
  | char c => [[.one (.char c)]]
  | one => [[.one (.oneOf notSlash)]]
  | run => [[.many (.oneOf notSlash)]]
  | anyRun => [[.many .dot]]
  | dirs =>
    [[.group (.choice [.ofText ['/'],
      .concat [.one (.char '/'), .many .dot, .one (.char '/')]])]]
  | bracket b => [b.charClass?.toList.map fun k => .one (.oneOf k)]
  | range low high => [[.group (.choice ((numbers low high).map fun n => .ofText (Decimal.int n)))]]
  | group g => [[.group (.choice (g.branches.map .concat))]]
  | seq g h => [g.branches.flatten ++ h.branches.flatten]
  | alt g h => g.branches ++ h.branches

/-- The items of a glob that offers no choice of its own. -/
def items (g : Glob) : List Regex := g.branches.flatten

theorem items_seq (g k : Glob) : (seq g k).items = g.items ++ k.items := by
  simp [items, branches]

def expression (g : Glob) : Regex := .choice (g.branches.map .concat)

theorem branches_ne_nil (g : Glob) : g.branches ≠ [] := by
  induction g with
  | alt g h ihg _ => simp [branches, ihg]
  | _ => simp [branches]

theorem branches_eq {g : Glob} (h : g.Proper false) : g.branches = [g.items] := by
  cases g with
  | alt g k => exact absurd h.1 (by simp)
  | _ => simp [items, branches]

theorem expression_eq {g : Glob} (h : g.Proper false) : g.expression = .concat g.items := by
  rw [expression, branches_eq h]
  rfl

/-! ## Reading tokens -/

/-- Reading the tokens of `g` puts its items behind those of the innermost group. -/
def ReadsItems (g : Glob) : Prop :=
  ∀ (f : Frame) (fs : List Frame) (ts : List Token),
    parseFrom f fs (g.tokens ++ ts) = parseFrom ⟨f.branches, g.items.reverse ++ f.items⟩ fs ts

/-- Reading the tokens of `g` up to the end of a group puts its branches behind those of the
group. -/
def ReadsBranches (g : Glob) : Prop :=
  ∀ (bs : List Regex) (f : Frame) (fs : List Frame) (ts : List Token),
    parseFrom ⟨bs, []⟩ (f :: fs) (g.tokens ++ .closing :: ts)
      = parseFrom (f.add (.group (.choice (bs.reverse ++ g.branches.map .concat)))) fs ts

theorem ReadsItems.readsBranches {g : Glob} (h : g.ReadsItems) (hg : g.Proper false) :
    g.ReadsBranches := by
  intro bs f fs ts
  rw [h, parseFrom, branches_eq hg]
  simp [Frame.close]

theorem numbers_ne_nil {low high : Int} (h : low ≤ high) : numbers low high ≠ [] := by
  have hpos : (high - low + 1).toNat ≠ 0 := by omega
  simp [numbers, hpos]

theorem readsItems_range {low high : Int} (h : low ≤ high) : (range low high).ReadsItems := by
  intro f fs ts
  have ht : (numbers low high).map (fun n => (Decimal.int n).map Token.char)
      = ((numbers low high).map Decimal.int).map fun u => u.map Token.char := by
    rw [List.map_map]
    rfl
  have hne : (numbers low high).map Decimal.int ≠ [] := by simpa using numbers_ne_nil h
  rw [tokens, ht, List.cons_append, List.cons_append, List.append_assoc, parseFrom,
    List.singleton_append, Regex.parseFrom_texts hne]
  simp [items, branches, Frame.add, Function.comp_def]

/-- Every proper glob is read as its items; the branches of one that is directly inside a group
are read as branches. -/
theorem readsItems_and_readsBranches (g : Glob) :
    (g.Proper false → g.ReadsItems) ∧ (g.Proper true → g.ReadsBranches) := by
  have both {g : Glob} (hg : g.Proper true → g.Proper false) (h : g.Proper false → g.ReadsItems) :
      (g.Proper false → g.ReadsItems) ∧ (g.Proper true → g.ReadsBranches) :=
    ⟨h, fun ht => (h (hg ht)).readsBranches (hg ht)⟩
  induction g with
  | empty => exact both id fun _ f fs ts => rfl
  | char c => exact both id fun _ f fs ts => by rw [tokens, List.singleton_append, parseFrom]; rfl
  | one => exact both id fun _ f fs ts => by rw [tokens, List.singleton_append, parseFrom]; rfl
  | run =>
    refine both id fun _ f fs ts => ?_
    rw [tokens, List.cons_append, parseFrom]
    show parseFrom (f.add (.one (.oneOf notSlash))) fs (.star :: ts) = _
    rw [parseFrom]
    rfl
  | anyRun =>
    refine both id fun _ f fs ts => ?_
    rw [tokens, List.cons_append, parseFrom, List.singleton_append, parseFrom]
    rfl
  | dirs =>
    refine both id fun _ f fs ts => ?_
    simp only [tokens, List.cons_append, List.nil_append, parseFrom, Frame.repeatLast?, Frame.add,
      Frame.branch]
    rfl
  | bracket b =>
    refine both id fun hb f fs ts => ?_
    obtain ⟨k, hk⟩ := hb.2
    rw [tokens, List.singleton_append, parseFrom, hk]
    simp [items, branches, hk, Frame.add]
  | range low high => exact both id fun h => readsItems_range h
  | group g ih =>
    refine both id fun hg f fs ts => ?_
    rw [tokens, List.cons_append, List.cons_append, List.append_assoc, parseFrom,
      List.singleton_append, ih.2 hg]
    rfl
  | seq g h ihg ihh =>
    refine both id fun hgh f fs ts => ?_
    rw [tokens, List.append_assoc, ihg.1 hgh.1, ihh.1 hgh.2]
    simp [items, branches]
  | alt g h ihg ihh =>
    refine ⟨fun ha => absurd ha.1 (by simp), fun ha bs f fs ts => ?_⟩
    rw [tokens, List.append_assoc, ihg.1 ha.2.1, List.cons_append, parseFrom, Frame.branch,
      ihh.2 ha.2.2, branches, branches_eq ha.2.1]
    simp

theorem parseFrom_tokens {g : Glob} (h : g.Proper false) :
    parseFrom {} [] g.tokens = some g.expression := by
  have hr := (readsItems_and_readsBranches g).1 h {} [] []
  rw [List.append_nil] at hr
  rw [hr, parseFrom, expression_eq h]
  simp

/-! ## Writing tokens -/

theorem writable_in_group {ts : List Token} (h : ∀ t ∈ ts, t.Writable) :
    ∀ t ∈ Token.opening :: ts ++ [.closing], t.Writable := by
  intro t ht
  rcases List.mem_append.1 ht with ht | ht
  · rcases List.mem_cons.1 ht with rfl | ht
    · trivial
    · exact h t ht
  · obtain rfl := List.mem_singleton.1 ht
    trivial

theorem writable_of_mem_tokens {g : Glob} (h : g.Proper true) : ∀ t ∈ g.tokens, t.Writable := by
  induction g with
  | bracket b =>
    intro t ht
    obtain rfl := List.mem_singleton.1 ht
    exact h.1
  | range low high =>
    refine writable_in_group (Text.forall_mem_intercalate ?_ ?_)
    · simp [Token.Writable]
    · simp [Token.Writable]
  | group g ih => exact writable_in_group (ih h)
  | seq g k ihg ihk =>
    intro t ht
    rcases List.mem_append.1 ht with ht | ht
    · exact ihg h.1.inGroup t ht
    · exact ihk h.2.inGroup t ht
  | alt g k ihg ihk =>
    intro t ht
    rcases List.mem_append.1 ht with ht | ht
    · exact ihg h.2.1.inGroup t ht
    · rcases List.mem_cons.1 ht with rfl | ht
      · trivial
      · exact ihk h.2.2 t ht
  | _ => simp [tokens, Token.Writable]

theorem parse?_regexText {g : Glob} (h : g.Proper false) :
    Regex.parse? ('^' :: g.regexText ++ ['$']) = some g.expression := by
  rw [regexText, Regex.parse?_text (writable_of_mem_tokens h.inGroup), parseFrom_tokens h]

/-! ## Meaning -/

theorem mem_numbers {low high n : Int} : n ∈ numbers low high ↔ low ≤ n ∧ n ≤ high := by
  simp only [numbers, List.mem_map, List.mem_range]
  constructor
  · intro h1
    obtain ⟨k, hk, rfl⟩ := h1
    have : (Int.ofNat k : Int) = k := rfl
    omega
  · intro h1
    obtain ⟨hl, hh⟩ := h1
    refine ⟨(n - low).toNat, by omega, ?_⟩
    have : (Int.ofNat (n - low).toNat : Int) = n - low := Int.toNat_of_nonneg (by omega)
    omega

theorem denotes_dirs {t : Text} : dirs.expression.Denotes t ↔ dirs.Takes t := by
  show (Regex.ofText ['/']).Denotes t ∨ (Regex.concat _).Denotes t ↔ _
  rw [Regex.denotes_ofText, Regex.denotes_concat_cons, Takes]
  refine or_congr_right ?_
  constructor
  · intro h1
    obtain ⟨_, _, rfl, ⟨c, hc, rfl⟩, u, v, rfl, hu, d, hd, rfl⟩ := h1
    obtain rfl : c = '/' := by simpa [Regex.Atom.has] using hc
    obtain rfl : d = '/' := by simpa [Regex.Atom.has] using hd
    refine ⟨u, ?_, rfl⟩
    intro hn
    exact absurd (hu '\n' hn) (by decide)
  · intro h1
    obtain ⟨u, hu, rfl⟩ := h1
    refine ⟨['/'], u ++ ['/'], rfl, ⟨'/', by decide, rfl⟩, u, ['/'], rfl, ?_, '/', by decide, rfl⟩
    intro c hc
    have hcn : c ≠ '\n' := fun he => hu (he ▸ hc)
    simpa [Regex.Atom.has] using hcn

theorem denotes_range {low high : Int} (h : low ≤ high) {t : Text} :
    (range low high).expression.Denotes t ↔ (range low high).Takes t := by
  have hne : (numbers low high).map (fun n => Regex.ofText (Decimal.int n)) ≠ [] := by
    simpa using numbers_ne_nil h
  show (Regex.choice ((numbers low high).map fun n => .ofText (Decimal.int n))).Denotes t ↔ _
  rw [Regex.denotes_choice hne]
  constructor
  · intro h1
    obtain ⟨r, hr, ht⟩ := h1
    obtain ⟨n, hn, rfl⟩ := List.mem_map.1 hr
    have hb := mem_numbers.1 hn
    exact ⟨n, hb.1, hb.2, Regex.denotes_ofText.1 ht⟩
  · intro h1
    obtain ⟨n, hl, hh, rfl⟩ := h1
    exact ⟨_, List.mem_map_of_mem (mem_numbers.2 ⟨hl, hh⟩), Regex.denotes_ofText.2 rfl⟩

theorem denotes_expression {g : Glob} (h : g.Proper true) {t : Text} :
    g.expression.Denotes t ↔ g.Takes t := by
  induction g generalizing t with
  | empty => exact Iff.rfl
  | char c =>
    show (∃ d, (d == c) = true ∧ t = [d]) ↔ t = [c]
    simp
  | one =>
    show (∃ c, notSlash.has c = true ∧ t = [c]) ↔ ∃ c, c ≠ '/' ∧ t = [c]
    simp only [has_notSlash]
  | run =>
    show (∀ c ∈ t, notSlash.has c = true) ↔ '/' ∉ t
    simp only [has_notSlash]
    exact ⟨fun h hm => h '/' hm rfl, fun h c hc he => h (he ▸ hc)⟩
  | anyRun =>
    show (∀ c ∈ t, (c != '\n') = true) ↔ '\n' ∉ t
    simp only [bne_iff_ne]
    exact ⟨fun h hm => h '\n' hm rfl, fun h c hc he => h (he ▸ hc)⟩
  | dirs => exact denotes_dirs
  | bracket b =>
    obtain ⟨k, hk⟩ := h.2
    have he : (bracket b).expression = .one (.oneOf k) := by simp [expression, branches, hk]; rfl
    rw [he]
    show (∃ c, k.has c = true ∧ t = [c]) ↔ ∃ c, Has b c ∧ t = [c]
    simp [Has, hk]
  | range low high => exact denotes_range h
  | group g ih => exact ih h
  | seq g k ihg ihk =>
    have he : (seq g k).expression = .concat (g.items ++ k.items) := rfl
    rw [he, Regex.denotes_concat_append, ← expression_eq h.1, ← expression_eq h.2]
    simp only [ihg h.1.inGroup, ihk h.2.inGroup]
    exact Iff.rfl
  | alt g k ihg ihk =>
    have hg := ihg h.2.1.inGroup (t := t)
    rw [expression, branches_eq h.2.1] at hg
    have hk := ihk h.2.2 (t := t)
    rw [expression, Regex.denotes_choice (by simpa using branches_ne_nil k)] at hk
    rw [expression, branches, branches_eq h.2.1,
      Regex.denotes_choice (by simp)]
    show _ ↔ g.Takes t ∨ k.Takes t
    rw [← hg, ← hk]
    simp only [List.map_append, List.map_singleton, List.mem_append, List.mem_singleton,
      or_and_right, exists_or, exists_eq_left]
    exact Iff.rfl

end Glob

end EditorConfig
