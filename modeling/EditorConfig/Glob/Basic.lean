import EditorConfig.Regex.Basic
import EditorConfig.Regex.Parser
import EditorConfig.Text.Basic
import EditorConfig.Text.Decimal

/-!
# Globs

A group of a glob stands in braces.  `[abc]`, `[a-d]` and `[!abc]` stand for one character: the
closing bracket is the first plain `]` that is not the first character of the body; a plain `/`
before it, a range that runs backwards, or a missing bracket leaves no class at all.

* `Glob`                 a glob as a tree of its parts;
* `Glob.tokens`          the expression that stands for the glob;
* `Glob.regexText`       its text;
* `Glob.Takes`           the paths that a glob takes: a sequence takes what its parts take one after
                         the other;
* `Brace.balanced`       as many plain `{` as plain `}`;
* `Brace.closing?`       the body of a group that has just been opened, and what follows the group;
* `Brace.alternatives`   the parts of a body between its own commas;
* `Brace.range?`         the bounds of a body `low..high`;
* `Bracket.read?`        the class whose body the signs begin with, and the signs after it.
-/

namespace EditorConfig

/-! ## Trees -/

inductive Glob where
  | empty
  /-- The character itself. -/
  | char (c : Char)
  /-- `?`: a character other than `/`. -/
  | one
  /-- `*`: any characters other than `/`. -/
  | run
  /-- `**`: any characters but newlines. -/
  | anyRun
  /-- `/**/`: a slash, or any run of directories between two slashes. -/
  | dirs
  | bracket (b : Bracket)
  /-- `{low..high}`: a number from `low` to `high`. -/
  | range (low high : Int)
  /-- `{…}` around alternatives. -/
  | group (g : Glob)
  | seq (g h : Glob)
  | alt (g h : Glob)
deriving DecidableEq, Repr

namespace Glob

/-- The numbers from `low` to `high`. -/
def numbers (low high : Int) : List Int :=
  (List.range (high - low + 1).toNat).map fun n => low + Int.ofNat n

/-- A choice of several globs. -/
def choice : List Glob → Glob
  | [] => empty
  | [g] => g
  | g :: h :: gs => alt g (choice (h :: gs))

/-- The tokens of the expression for a glob, without anchors. -/
def tokens : Glob → List Regex.Token
  | empty => []
  | char c => [.char c]
  | one => [.bracket ⟨true, [.member '/']⟩]
  | run => [.bracket ⟨true, [.member '/']⟩, .star]
  | anyRun => [.dot, .star]
  | dirs => [.opening, .char '/', .bar, .char '/', .dot, .star, .char '/', .closing]
  | bracket b => [.bracket b]
  | range low high =>
    .opening :: [.bar].intercalate ((numbers low high).map fun n => (Decimal.int n).map .char)
      ++ [.closing]
  | group g => .opening :: g.tokens ++ [.closing]
  | seq g h => g.tokens ++ h.tokens
  | alt g h => g.tokens ++ .bar :: h.tokens

/-- The text of the expression for a glob, without anchors. -/
def regexText (g : Glob) : Text := Regex.Token.text g.tokens

/-- The characters that a bracket class stands for. -/
def Has (b : Bracket) (c : Char) : Prop := ∃ k, b.charClass? = some k ∧ k.has c = true

def Takes : Glob → Text → Prop
  | empty, t => t = []
  | char c, t => t = [c]
  | one, t => ∃ c, c ≠ '/' ∧ t = [c]
  | run, t => '/' ∉ t
  | anyRun, t => '\n' ∉ t
  | dirs, t => t = ['/'] ∨ ∃ u, '\n' ∉ u ∧ t = '/' :: u ++ ['/']
  | bracket b, t => ∃ c, Has b c ∧ t = [c]
  | range low high, t => ∃ n, low ≤ n ∧ n ≤ high ∧ t = Decimal.int n
  | group g, t => g.Takes t
  | seq g h, t => ∃ u v, t = u ++ v ∧ g.Takes u ∧ h.Takes v
  | alt g h, t => g.Takes t ∨ h.Takes t

end Glob

/-! ## Braces -/

namespace Brace

def balanced (ss : List Sign) : Bool := ss.count (.plain '{') == ss.count (.plain '}')

/-- The depth after one more sign. -/
def deeper (depth : Nat) (s : Sign) : Nat :=
  if s = .plain '{' then depth + 1 else if s = .plain '}' then depth - 1 else depth

/-- The signs before the brace that closes `depth + 1` open groups, and the signs after it. -/
def closing? (depth : Nat) : List Sign → Option (List Sign × List Sign)
  | [] => none
  | s :: ss =>
    if s = .plain '}' ∧ depth = 0 then some ([], ss)
    else (closing? (deeper depth s) ss).map fun (body, rest) => (s :: body, rest)

/-- The parts between the plain commas at depth zero; there is always at least one. -/
def alternatives (depth : Nat) : List Sign → List (List Sign)
  | [] => [[]]
  | s :: ss =>
    if s = .plain ',' ∧ depth = 0 then [] :: alternatives depth ss
    else match alternatives (deeper depth s) ss with
      | [] => [[s]]
      | a :: as => (s :: a) :: as

/-- The most numbers that a range may stand for. -/
def rangeLimit : Nat := 10000

/-- The text of signs that are all plain. -/
def plainText? : List Sign → Option Text
  | [] => some []
  | .plain c :: ss => (plainText? ss).map (c :: ·)
  | .quoted _ :: _ => none

/-- The bounds of a body `low..high`, if they are in order and not too far apart. -/
def range? (body : List Sign) : Option (Int × Int) := do
  let (low, high) ← Text.cutPair? '.' (← plainText? body)
  let low ← Decimal.readInt? low
  let high ← Decimal.readInt? high
  if low ≤ high ∧ high - low < rangeLimit then some (low, high) else none

/-! ### Sizes -/

theorem length_closing? {depth : Nat} {ss body rest : List Sign}
    (h : closing? depth ss = some (body, rest)) : body.length + rest.length < ss.length := by
  induction ss generalizing depth body with
  | nil => simp [closing?] at h
  | cons s ss ih =>
    unfold closing? at h
    split at h
    · simp only [Option.some.injEq, Prod.mk.injEq] at h
      obtain ⟨rfl, rfl⟩ := h
      simp
    · simp only [Option.map_eq_some_iff, Prod.exists, Prod.mk.injEq] at h
      obtain ⟨b, r, hr, rfl, rfl⟩ := h
      have := ih hr
      simp only [List.length_cons]
      omega

theorem length_of_mem_alternatives {depth : Nat} {ss a : List Sign}
    (h : a ∈ alternatives depth ss) : a.length ≤ ss.length := by
  induction ss generalizing depth a with
  | nil => simp_all [alternatives]
  | cons s ss ih =>
    unfold alternatives at h
    split at h
    · rcases List.mem_cons.1 h with rfl | h
      · simp
      · exact Nat.le_succ_of_le (ih h)
    · split at h
      · simp only [List.mem_singleton] at h
        simp [h]
      · next b bs hb =>
        rcases List.mem_cons.1 h with rfl | h
        · exact Nat.succ_le_succ (ih (hb ▸ List.mem_cons_self))
        · exact Nat.le_succ_of_le (ih (hb ▸ List.mem_cons_of_mem _ h))

end Brace

/-! ## Bracket classes -/

namespace Bracket

open Text (onto)

/-- The marks up to the closing bracket, and the signs after it.  `first` says that no mark
precedes, `last` is the character before, unless it completed a range. -/
def marksFrom? (first : Bool) (last : Option Char) : List Sign → Option (List Mark × List Sign)
  | [] => none
  | .quoted c :: ss => onto (.member c) (marksFrom? false (some c) ss)
  | .plain c :: ss =>
    if c = ']' ∧ first = false then some ([], ss)
    else if c = '/' then none
    else if c = '-' ∧ first = false ∧ ss.head? ≠ some (.plain ']') then
      match ss with
      | [] => none
      | s :: _ =>
        if last.any (s.char < ·) then none else onto .dash (marksFrom? false none ss)
    else onto (.member c) (marksFrom? false (some c) ss)

/-- The class whose body the signs begin with, and the signs after it. -/
def read? (ss : List Sign) : Option (Bracket × List Sign) :=
  let negated := ss.head? = some (.plain '!') ∨ ss.head? = some (.plain '^')
  (marksFrom? true none (if negated then ss.tail else ss)).map fun (ms, rest) =>
    (⟨negated, ms⟩, rest)

/-! ### Sizes -/

theorem length_marksFrom? {first : Bool} {last : Option Char} {ss rest : List Sign}
    {ms : List Mark} (h : marksFrom? first last ss = some (ms, rest)) :
    rest.length < ss.length := by
  induction ss generalizing first last ms with
  | nil => simp [marksFrom?] at h
  | cons s ss ih =>
    have step {first last m} (h : onto m (marksFrom? first last ss) = some (ms, rest)) :
        rest.length < (s :: ss).length := by
      obtain ⟨ns, hn, -⟩ := Text.onto_eq_some.1 h
      exact Nat.lt_succ_of_lt (ih hn)
    unfold marksFrom? at h
    split at h
    · contradiction
    · next heq =>
      obtain ⟨rfl, rfl⟩ := List.cons.inj heq
      exact step h
    · next heq =>
      obtain ⟨rfl, rfl⟩ := List.cons.inj heq
      split at h
      · simp only [Option.some.injEq, Prod.mk.injEq] at h
        simp [h.2]
      · split at h
        · contradiction
        · split at h
          · split at h
            · contradiction
            · split at h
              · contradiction
              · exact step h
          · exact step h

theorem length_read? {ss rest : List Sign} {b : Bracket} (h : read? ss = some (b, rest)) :
    rest.length < ss.length := by
  simp only [read?, Option.map_eq_some_iff, Prod.exists, Prod.mk.injEq] at h
  obtain ⟨ms, r, hr, -, rfl⟩ := h
  have := length_marksFrom? hr
  split at this
  · rw [List.length_tail] at this
    omega
  · exact this

end Bracket

end EditorConfig
