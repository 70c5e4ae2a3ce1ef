import EditorConfig.Regex.Basic

/-!
# Reading expressions

The text of an expression is a row of tokens.  Groups are written `(?:…)`, and a character with a
meaning stands for itself after a backslash only.  The tokens are read from left to right with a
stack of open groups.  The language is the one that selectors need: the expression is pinned to both
ends of the text, and only one-character expressions are repeated.

* `Token`            what the text of an expression is made of;
* `Token.text`       the text of tokens;
* `Token.read?`      the token that signs begin with, and the signs after it;
* `Token.ofSigns?`   the tokens that signs stand for;
* `Regex.Frame`      what has been read of one group;
* `Regex.parse?`     the expression that a text denotes, if it is one;
* `Regex.compile?`   the same, unless the expression nests too deep or its program has no room.

Main statement: written tokens are read back (`ofSigns?_signs`).
-/

namespace EditorConfig.Regex

/-! ## Tokens -/

inductive Token where
  /-- The character itself. -/
  | char (c : Char)
  /-- `.`: any character but the newline. -/
  | dot
  | bracket (b : Bracket)
  /-- `*` after a token that takes one character: any number of them. -/
  | star
  | bar
  | opening
  | closing
deriving DecidableEq, Repr

namespace Token

/-! ### Writing -/

def signs : Token → List Sign
  | char c => [.literal c]
  | dot => [.plain '.']
  | bracket b => b.signs
  | star => [.plain '*']
  | bar => [.plain '|']
  | opening => [.plain '(', .plain '?', .plain ':']
  | closing => [.plain ')']

def text (ts : List Token) : Text := (ts.flatMap signs).flatMap Sign.text

theorem text_append (ts us : List Token) : text (ts ++ us) = text ts ++ text us := by
  rw [text, List.flatMap_append, List.flatMap_append]
  rfl

/-! ### Reading -/

/-- The marks up to the closing bracket, and the signs after it. -/
def marks? : List Sign → Option (List Mark × List Sign)
  | [] => none
  | .quoted c :: ss => if isMeta c then Text.onto (.member c) (marks? ss) else none
  | .plain c :: ss =>
    if c = ']' then some ([], ss)
    else if c = '-' then Text.onto .dash (marks? ss)
    else if isMeta c then none
    else Text.onto (.member c) (marks? ss)

/-- A class whose opening bracket has been read; its first mark is a character. -/
def bracket? (ss : List Sign) : Option (Token × List Sign) :=
  let negated := ss.head? = some (.plain '^')
  match marks? (if negated then ss.tail else ss) with
  | some (.member c :: ms, rest) => some (.bracket ⟨negated, .member c :: ms⟩, rest)
  | _ => none

/-- The token that signs begin with, and the signs after it. -/
def read? : List Sign → Option (Token × List Sign)
  | [] => none
  | .quoted c :: ss => if isMeta c then some (.char c, ss) else none
  | .plain c :: ss =>
    if c = '(' then
      match ss with
      | .plain '?' :: .plain ':' :: ss => some (.opening, ss)
      | _ => none
    else if c = ')' then some (.closing, ss)
    else if c = '|' then some (.bar, ss)
    else if c = '*' then some (.star, ss)
    else if c = '.' then some (.dot, ss)
    else if c = '[' then bracket? ss
    else if isMeta c then none
    else some (.char c, ss)

theorem length_marks? {ss rest : List Sign} {ms : List Mark} (h : marks? ss = some (ms, rest)) :
    rest.length < ss.length := by
  induction ss generalizing ms with
  | nil => simp [marks?] at h
  | cons s ss ih =>
    have step {m : Mark} (h : Text.onto m (marks? ss) = some (ms, rest)) :
        rest.length < (s :: ss).length := by
      obtain ⟨ns, hn, -⟩ := Text.onto_eq_some.1 h
      exact Nat.lt_succ_of_lt (ih hn)
    cases s with
    | quoted c =>
      rw [marks?] at h
      split at h
      · exact step h
      · contradiction
    | plain c =>
      rw [marks?] at h
      split at h
      · simp only [Option.some.injEq, Prod.mk.injEq] at h
        simp [h.2]
      · split at h
        · exact step h
        · split at h
          · contradiction
          · exact step h

theorem length_bracket? {ss rest : List Sign} {t : Token} (h : bracket? ss = some (t, rest)) :
    rest.length < ss.length := by
  simp only [bracket?] at h
  split at h
  · next hm =>
    simp only [Option.some.injEq, Prod.mk.injEq] at h
    have := length_marks? hm
    rw [h.2] at this
    split at this
    · rw [List.length_tail] at this
      omega
    · exact this
  · contradiction

/-- A token takes at least one sign. -/
theorem length_read? {ss rest : List Sign} {t : Token} (h : read? ss = some (t, rest)) :
    rest.length < ss.length := by
  unfold read? at h
  split at h
  · contradiction
  · split at h
    · simp only [Option.some.injEq, Prod.mk.injEq] at h
      simp [h.2]
    · contradiction
  · next c ss =>
    have one {u : Token} (h : some (u, ss) = some (t, rest)) :
        rest.length < (Sign.plain c :: ss).length := by
      simp only [Option.some.injEq, Prod.mk.injEq] at h
      simp [h.2]
    split at h
    · split at h
      · simp only [Option.some.injEq, Prod.mk.injEq] at h
        simp only [List.length_cons, h.2]
        omega
      · contradiction
    · split at h
      · exact one h
      · split at h
        · exact one h
        · split at h
          · exact one h
          · split at h
            · exact one h
            · split at h
              · exact Nat.lt_succ_of_lt (length_bracket? h)
              · split at h
                · contradiction
                · exact one h

/-- The tokens that signs stand for, up to the `$` that ends the expression. -/
def ofSigns? (ss : List Sign) : Option (List Token) :=
  if ss = [.plain '$'] then some []
  else match h : read? ss with
    | none => none
    | some (t, rest) =>
      have := length_read? h
      (ofSigns? rest).map (t :: ·)
termination_by ss.length

theorem ofSigns?_eq {ss rest : List Sign} {t : Token} (hs : ss ≠ [.plain '$'])
    (h : read? ss = some (t, rest)) : ofSigns? ss = (ofSigns? rest).map (t :: ·) := by
  rw [ofSigns?, if_neg hs]
  split
  · next h' => rw [h] at h'; contradiction
  · next h' => rw [h] at h'; cases h'; rfl

/-! ### Reading what was written -/

/-- A class can be written when its first mark is a character. -/
def Writable : Token → Prop
  | bracket b => ∃ c ms, b.marks = .member c :: ms
  | _ => True

theorem marks?_append (ms : List Mark) (ss : List Sign) :
    marks? (ms.map Mark.sign ++ .plain ']' :: ss) = some (ms, ss) := by
  induction ms with
  | nil => rfl
  | cons m ms ih =>
    rw [List.map_cons, List.cons_append]
    cases m with
    | dash =>
      show Text.onto .dash (marks? _) = _
      rw [ih]
      rfl
    | member c =>
      show marks? (Sign.literal c :: _) = _
      by_cases hc : isMeta c = true
      · rw [Sign.literal_of_isMeta hc, marks?, if_pos hc, ih]
        rfl
      · have hne {d : Char} (hd : isMeta d = true) : c ≠ d := by
          rintro rfl
          exact hc hd
        rw [Sign.literal_of_not_isMeta hc, marks?, if_neg (hne rfl), if_neg (hne rfl), if_neg hc,
          ih]
        rfl

theorem bracket?_append {b : Bracket} (hb : (bracket b).Writable) (ss : List Sign) :
    bracket? (b.signs.tail ++ ss) = some (.bracket b, ss) := by
  obtain ⟨negated, marks⟩ := b
  obtain ⟨c, ms, rfl⟩ := hb
  have hm := marks?_append (.member c :: ms) ss
  rw [List.map_cons, List.cons_append] at hm
  have hc : (Mark.member c).sign ≠ .plain '^' := Sign.literal_ne_plain rfl
  cases negated <;> simp [bracket?, Bracket.signs, hm, hc]

theorem read?_append {t : Token} (ht : t.Writable) (ss : List Sign) :
    read? (t.signs ++ ss) = some (t, ss) := by
  cases t with
  | bracket b => exact bracket?_append ht ss
  | char c =>
    show read? (Sign.literal c :: ss) = _
    by_cases hc : isMeta c = true
    · rw [Sign.literal_of_isMeta hc, read?, if_pos hc]
    · have hne {d : Char} (hd : isMeta d = true) : c ≠ d := by
        rintro rfl
        exact hc hd
      rw [Sign.literal_of_not_isMeta hc]
      simp [read?, hc, @hne '(' rfl, @hne ')' rfl, @hne '|' rfl, @hne '*' rfl, @hne '.' rfl,
        @hne '[' rfl]
  | dot => rfl
  | star => rfl
  | bar => rfl
  | opening => rfl
  | closing => rfl

theorem signs_ne_nil (t : Token) : t.signs ≠ [] := by
  cases t <;> simp [signs, Bracket.signs]

/-- Written tokens are read back. -/
theorem ofSigns?_signs {ts : List Token} (hts : ∀ t ∈ ts, t.Writable) :
    ofSigns? (ts.flatMap signs ++ [.plain '$']) = some ts := by
  induction ts with
  | nil => rw [ofSigns?]; rfl
  | cons t ts ih =>
    have hread := read?_append (hts t (by simp)) (ts.flatMap signs ++ [.plain '$'])
    have hne : t.signs ++ (ts.flatMap signs ++ [.plain '$']) ≠ [.plain '$'] := by
      intro h
      have hl := congrArg List.length h
      have ht := List.length_pos_iff.2 (signs_ne_nil t)
      simp only [List.length_append, List.length_singleton] at hl
      omega
    rw [List.flatMap_cons, List.append_assoc, ofSigns?_eq hne hread,
      ih fun u hu => hts u (List.mem_cons_of_mem _ hu)]
    rfl

end Token

/-! ## Expressions -/

/-- An open group: the finished branches and the items of the last one, both in reverse. -/
structure Frame where
  branches : List Regex := []
  items : List Regex := []
deriving DecidableEq, Repr

namespace Frame

def add (f : Frame) (r : Regex) : Frame := { f with items := r :: f.items }

/-- The last branch ends and a new one begins. -/
def branch (f : Frame) : Frame := ⟨concat f.items.reverse :: f.branches, []⟩

def close (f : Frame) : Regex := choice (concat f.items.reverse :: f.branches).reverse

/-- The last item is repeated, if it is a one-character expression. -/
def repeatLast? (f : Frame) : Option Frame :=
  match f.items with
  | one a :: rs => some { f with items := many a :: rs }
  | _ => none

end Frame

/-- The rest of an expression, with the innermost group and the groups around it.  Only a group
offers a choice. -/
def parseFrom : Frame → List Frame → List Token → Option Regex
  | f, [], [] => some (concat f.items.reverse)
  | _, _ :: _, [] => none
  | f, fs, .char c :: ts => parseFrom (f.add (one (.char c))) fs ts
  | f, fs, .dot :: ts => parseFrom (f.add (one .dot)) fs ts
  | f, fs, .bracket b :: ts =>
    match b.charClass? with
    | none => none
    | some k => parseFrom (f.add (one (.oneOf k))) fs ts
  | f, fs, .star :: ts =>
    match f.repeatLast? with
    | none => none
    | some f => parseFrom f fs ts
  | _, [], .bar :: _ => none
  | f, g :: gs, .bar :: ts => parseFrom f.branch (g :: gs) ts
  | f, fs, .opening :: ts => parseFrom {} (f :: fs) ts
  | _, [], .closing :: _ => none
  | f, g :: gs, .closing :: ts => parseFrom (g.add (group f.close)) gs ts

/-- The expression that stands between `^` and `$`. -/
def parse? (t : Text) : Option Regex :=
  match t.signs with
  | .plain '^' :: ss => (Token.ofSigns? ss).bind (parseFrom {} [])
  | _ => none

/-- The deepest nesting that is accepted. -/
def nestLimit : Nat := 250

/-- An expression that is fit for matching. -/
def compile? [Engine] (t : Text) : Option Regex :=
  (parse? t).filter fun r => r.height ≤ nestLimit && Engine.hasRoom r

end EditorConfig.Regex
