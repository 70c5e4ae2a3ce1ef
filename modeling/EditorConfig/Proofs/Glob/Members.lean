import EditorConfig.Proofs.Glob.Expression
import EditorConfig.Proofs.Glob.Bracket
import EditorConfig.Proofs.Regex.Marks
import EditorConfig.Proofs.Text.Sign

/-!
# The members of a bracket class

A class is the text between its brackets.

* `Bracket.negates`, `Bracket.inside`   the mark that turns a class round, and the text after it;
* `Bracket.Closes`                      where the body of a class ends;
* `Bracket.marksOf`                     the characters of a body, and the dashes between them;
* `Mark.Rising`                         no dash has a smaller character behind it than in front.

Main statements: when a text begins with a class, and what the class stands for
(`read?_body`); a class has each of its characters exactly when no two dashes meet
(`has_members_iff_apart`).
-/

namespace EditorConfig

namespace Mark

/-- No dash has a smaller character behind it than in front of it; another dash counts as a
character here. -/
def Rising (ms : List Mark) : Prop := ∀ a m, [.member a, .dash, m] <:+: ms → a ≤ m.char

theorem rising_nil : Rising [] := by
  intro a m h
  simp at h

theorem Rising.of_append {ns : List Mark} (ms : List Mark) (h : Rising (ms ++ ns)) : Rising ns :=
  fun a m ham => h a m (ham.trans (List.suffix_append ms ns).isInfix)

theorem rising_cons_dash {ms : List Mark} : Rising (.dash :: ms) ↔ Rising ms := by
  constructor
  · exact fun h a m ham => h a m (ham.trans (List.suffix_cons _ ms).isInfix)
  · intro h a m ham
    rcases List.infix_cons_iff.1 ham with hp | hi
    · cases (List.cons_prefix_cons.1 hp).1
    · exact h a m hi

theorem rising_cons_member {c : Char} {ms : List Mark} :
    Rising (.member c :: ms) ↔ (∀ m ns, ms = .dash :: m :: ns → c ≤ m.char) ∧ Rising ms := by
  constructor
  · intro h
    refine ⟨?_, fun a m ham => h a m (ham.trans (List.suffix_cons _ ms).isInfix)⟩
    rintro m ns rfl
    exact h c m ⟨[], ns, rfl⟩
  · rintro ⟨hc, h⟩ a m ham
    rcases List.infix_cons_iff.1 ham with hp | hi
    · obtain ⟨he, ns, rfl⟩ := List.cons_prefix_cons.1 hp
      cases he
      exact hc m ns rfl
    · exact h a m hi

end Mark

namespace Bracket

/-! ## Bodies -/

/-- Whether the text after an opening bracket begins with a mark that turns the class round. -/
def negates (t : Text) : Bool := t.head? = some '!' || t.head? = some '^'

/-- The text after an opening bracket, without the mark that turns the class round. -/
def inside (t : Text) : Text := if negates t then t.tail else t

/-- The bracket between `body` and `after` closes the class: it is the first plain one that is not
the first character of the body. -/
structure Closes (t body after : Text) : Prop where
  eq : t = body ++ ']' :: after
  /-- No backslash quotes the bracket. -/
  unquoted : body.endsOpen = false
  ne_nil : body ≠ []
  first : .plain ']' ∉ body.signs.tail

theorem Closes.signs_eq {t body after : Text} (h : Closes t body after) :
    t.signs = body.signs ++ .plain ']' :: after.signs := by
  rw [h.eq, Text.signs_append h.unquoted, Text.signs_plain (by decide)]

/-- The first `x` of a list cuts it in one way only. -/
theorem eq_of_first_eq {x : Sign} {a b u v : List Sign} (ha : x ∉ a) (hu : x ∉ u)
    (h : a ++ x :: b = u ++ x :: v) : a = u ∧ b = v := by
  have hcut {l m : List Sign} (hl : x ∉ l) : (l ++ x :: m).takeWhile (· != x) = l := by
    have hall : ∀ y ∈ l, (y != x) = true := by
      intro y hy
      simpa using fun he : y = x => hl (he ▸ hy)
    rw [List.takeWhile_append_of_pos hall]
    simp
  have hau : a = u := by rw [← hcut ha, h, hcut hu]
  subst hau
  exact ⟨rfl, by simpa using h⟩

/-- A class is closed in one place at most. -/
theorem Closes.signs_unique {t body after body' after' : Text} (h : Closes t body after)
    (h' : Closes t body' after') : body.signs = body'.signs ∧ after.signs = after'.signs := by
  have hsigns := h.signs_eq.symm.trans h'.signs_eq
  obtain ⟨s, ss, hs⟩ := List.exists_cons_of_ne_nil (Text.signs_ne_nil h.ne_nil)
  obtain ⟨s', ss', hs'⟩ := List.exists_cons_of_ne_nil (Text.signs_ne_nil h'.ne_nil)
  have hfirst : .plain ']' ∉ ss := by simpa [hs] using h.first
  have hfirst' : .plain ']' ∉ ss' := by simpa [hs'] using h'.first
  rw [hs, hs', List.cons_append, List.cons_append, List.cons.injEq] at hsigns
  obtain ⟨rfl, hafter⟩ := eq_of_first_eq hfirst hfirst' hsigns.2
  rw [hs, hs', hsigns.1]
  exact ⟨rfl, hafter⟩

/-- The marks of signs behind the first one.  A plain dash is a dash, unless it is the last. -/
def innerMarks : List Sign → List Mark
  | [] => []
  | s :: ss => (if s = .plain '-' ∧ ss ≠ [] then .dash else .member s.char) :: innerMarks ss

/-- The marks of a body.  A plain dash is a dash, unless it is the first sign or the last one; any
other sign is a character. -/
def marksOf : List Sign → List Mark
  | [] => []
  | s :: ss => .member s.char :: innerMarks ss

theorem innerMarks_dash {ss : List Sign} (h : ss ≠ []) :
    innerMarks (.plain '-' :: ss) = .dash :: innerMarks ss := by
  rw [innerMarks, if_pos ⟨rfl, h⟩]

theorem innerMarks_member {s : Sign} {ss : List Sign} (h : s = .plain '-' → ss = []) :
    innerMarks (s :: ss) = .member s.char :: innerMarks ss := by
  rw [innerMarks, if_neg fun hs => hs.2 (h hs.1)]

/-- Each mark has the character of its sign. -/
theorem innerMarks_cons (s : Sign) (ss : List Sign) :
    ∃ m, innerMarks (s :: ss) = m :: innerMarks ss ∧ m.char = s.char := by
  by_cases h : s = .plain '-' ∧ ss ≠ []
  · obtain ⟨rfl, hss⟩ := h
    exact ⟨.dash, innerMarks_dash hss, rfl⟩
  · exact ⟨.member s.char, by rw [innerMarks, if_neg h], rfl⟩

theorem closed_innerMarks (ss : List Sign) : Mark.Closed (innerMarks ss) := by
  induction ss with
  | nil => exact Mark.closed_nil
  | cons s ss ih =>
    refine ih.cons fun hms => ?_
    have hss : ss = [] := by
      cases ss with
      | nil => rfl
      | cons t ts => simp [innerMarks] at hms
    simp [hss]

theorem closed_marksOf (ss : List Sign) : Mark.Closed (marksOf ss) := by
  cases ss with
  | nil => exact Mark.closed_nil
  | cons s ss => exact (closed_innerMarks ss).cons fun _ => by simp

/-! ## Reading a body -/

/-- A dash goes before a character that is not smaller than the one before it. -/
theorem marksFrom?_dash {last : Option Char} {t : Sign} {ts : List Sign} (ht : t ≠ .plain ']')
    (hlast : ∀ a, last = some a → a ≤ t.char) :
    marksFrom? false last (.plain '-' :: t :: ts)
      = Text.onto .dash (marksFrom? false none (t :: ts)) := by
  have hany : last.any (t.char < ·) = false := by
    cases last with
    | none => rfl
    | some a => simpa using hlast a rfl
  simp [marksFrom?, ht, hany]

/-- Any other sign but a slash or the closing bracket is a member. -/
theorem marksFrom?_member {first : Bool} {last : Option Char} {s : Sign} {ss : List Sign}
    (hslash : s ≠ .plain '/') (hend : s = .plain ']' → first = true)
    (hdash : s = .plain '-' → first = true ∨ ss.head? = some (.plain ']')) :
    marksFrom? first last (s :: ss)
      = Text.onto (.member s.char) (marksFrom? false (some s.char) ss) := by
  cases s with
  | quoted c => rfl
  | plain c =>
    have hend' : ¬(c = ']' ∧ first = false) := by
      rintro ⟨rfl, hfirst⟩
      rw [hend rfl] at hfirst
      cases hfirst
    have hslash' : c ≠ '/' := fun hc => hslash (congrArg Sign.plain hc)
    have hdash' : ¬(c = '-' ∧ first = false ∧ ss.head? ≠ some (.plain ']')) := by
      rintro ⟨rfl, hfirst, hhead⟩
      rcases hdash rfl with h | h
      · rw [h] at hfirst
        cases hfirst
      · exact hhead h
    rw [marksFrom?.eq_def]
    simp only [if_neg hend', if_neg hslash', if_neg hdash']
    rfl

/-- Reading on behind the first sign succeeds on a body that ends with a plain bracket, holds no
slash, and has no dash with a smaller character behind it than in front; the first dash has `last`
in front of it. -/
theorem marksFrom?_inner {last : Option Char} {body : List Sign} (rest : List Sign)
    (hend : .plain ']' ∉ body) (hslash : .plain '/' ∉ body)
    (hrising : Mark.Rising ((last.map Mark.member).toList ++ innerMarks body)) :
    marksFrom? false last (body ++ .plain ']' :: rest) = some (innerMarks body, rest) := by
  induction body generalizing last with
  | nil => simp [marksFrom?, innerMarks]
  | cons s ss ih =>
    obtain ⟨hs, hss⟩ := List.ne_and_not_mem_of_not_mem_cons hend
    obtain ⟨hs', hss'⟩ := List.ne_and_not_mem_of_not_mem_cons hslash
    by_cases hdash : s = .plain '-' ∧ ss ≠ []
    · obtain ⟨rfl, hne⟩ := hdash
      obtain ⟨t, ts, rfl⟩ := List.exists_cons_of_ne_nil hne
      rw [innerMarks_dash hne] at hrising ⊢
      have hlast : ∀ a, last = some a → a ≤ t.char := by
        rintro a rfl
        obtain ⟨m, hm, hchar⟩ := innerMarks_cons t ts
        rw [hm] at hrising
        rw [← hchar]
        exact hrising a m ⟨[], innerMarks ts, rfl⟩
      have ht : t ≠ .plain ']' := (List.ne_and_not_mem_of_not_mem_cons hss).1.symm
      have hrest : marksFrom? false none (t :: ts ++ .plain ']' :: rest)
          = some (innerMarks (t :: ts), rest) :=
        ih hss hss' (Mark.rising_cons_dash.1 (hrising.of_append _))
      rw [List.cons_append, List.cons_append, marksFrom?_dash ht hlast, ← List.cons_append, hrest,
        Text.onto_some]
    · have hnil : s = .plain '-' → ss = [] := fun h => Classical.not_not.1 fun hne => hdash ⟨h, hne⟩
      rw [innerMarks_member hnil] at hrising ⊢
      have hrest : marksFrom? false (some s.char) (ss ++ .plain ']' :: rest)
          = some (innerMarks ss, rest) := ih hss hss' (hrising.of_append _)
      rw [List.cons_append, marksFrom?_member (Ne.symm hs') (fun h => absurd h.symm hs) fun h => ?_,
        hrest, Text.onto_some]
      rw [hnil h]
      exact .inr rfl

/-- There is no other way to succeed. -/
theorem exists_body_of_marksFrom? {last : Option Char} {ss rest : List Sign} {ms : List Mark}
    (h : marksFrom? false last ss = some (ms, rest)) :
    ∃ body, ss = body ++ .plain ']' :: rest ∧ .plain ']' ∉ body ∧ .plain '/' ∉ body ∧
      ms = innerMarks body ∧ Mark.Rising ((last.map Mark.member).toList ++ ms) := by
  induction ss generalizing last ms with
  | nil => simp [marksFrom?] at h
  | cons s ss ih =>
    rcases marksFrom?_cons h with ⟨rfl, -, rfl, rfl⟩ |
      ⟨rfl, -, ⟨t, ts, rfl, ht, hlast⟩, ns, hns, rfl⟩ | ⟨hslash, hend, hdash, ns, hns, rfl⟩
    · refine ⟨[], rfl, by simp, by simp, rfl, ?_⟩
      cases last with
      | none => exact Mark.rising_nil
      | some a => exact Mark.rising_cons_member.2 ⟨by simp, Mark.rising_nil⟩
    · obtain ⟨body, hbody, hend, hslash, rfl, hrising⟩ := ih hns
      cases body with
      | nil => exact absurd (List.cons.inj hbody).1 ht
      | cons u body =>
        obtain ⟨rfl, -⟩ := List.cons.inj hbody
        refine ⟨.plain '-' :: t :: body, by rw [hbody]; rfl, by simpa using hend,
          by simpa using hslash, (innerMarks_dash (by simp)).symm, ?_⟩
        cases last with
        | none => exact Mark.rising_cons_dash.2 hrising
        | some a =>
          refine Mark.rising_cons_member.2 ⟨fun m ns hm => ?_, Mark.rising_cons_dash.2 hrising⟩
          obtain ⟨n, hn, hchar⟩ := innerMarks_cons t body
          rw [hn] at hm
          cases hm
          rw [hchar]
          exact hlast a rfl
    · obtain ⟨body, rfl, hclose, hfree, rfl, hrising⟩ := ih hns
      have hs : s ≠ .plain ']' := fun h => absurd (hend h) Bool.false_ne_true
      have hnil : s = .plain '-' → body = [] := by
        intro h
        have hhead := (hdash h).resolve_left Bool.false_ne_true
        cases body with
        | nil => rfl
        | cons t body =>
          cases hhead
          exact absurd List.mem_cons_self hclose
      refine ⟨s :: body, rfl, by simp [hs.symm, hclose], by simp [hslash.symm, hfree],
        (innerMarks_member hnil).symm, ?_⟩
      cases last with
      | none => exact hrising
      | some a => exact Mark.rising_cons_member.2 ⟨by simp, hrising⟩

/-- A class can be read from its first sign on when its body is free of slashes and of dashes with a
smaller character behind them than in front. -/
theorem marksFrom?_body {body rest : List Sign} (hne : body ≠ [])
    (hend : .plain ']' ∉ body.tail) (hslash : .plain '/' ∉ body)
    (hrising : Mark.Rising (marksOf body)) :
    marksFrom? true none (body ++ .plain ']' :: rest) = some (marksOf body, rest) := by
  obtain ⟨s, ss, rfl⟩ := List.exists_cons_of_ne_nil hne
  obtain ⟨hs, hss⟩ := List.ne_and_not_mem_of_not_mem_cons hslash
  have hrest : marksFrom? false (some s.char) (ss ++ .plain ']' :: rest)
      = some (innerMarks ss, rest) := marksFrom?_inner rest hend hss hrising
  rw [List.cons_append, marksFrom?_member hs.symm (fun _ => rfl) (fun _ => .inl rfl), hrest,
    Text.onto_some]
  rfl

theorem exists_body_of_first {ss rest : List Sign} {ms : List Mark}
    (h : marksFrom? true none ss = some (ms, rest)) :
    ∃ body, ss = body ++ .plain ']' :: rest ∧ body ≠ [] ∧ .plain ']' ∉ body.tail ∧
      .plain '/' ∉ body ∧ ms = marksOf body ∧ Mark.Rising ms := by
  cases ss with
  | nil => simp [marksFrom?] at h
  | cons s ss =>
    rcases marksFrom?_cons h with ⟨-, hf, -⟩ | ⟨-, hf, -⟩ | ⟨hslash, -, -, ns, hns, rfl⟩
    · cases hf
    · cases hf
    · obtain ⟨body, rfl, hend, hfree, rfl, hrising⟩ := exists_body_of_marksFrom? hns
      exact ⟨s :: body, rfl, by simp, hend, by simp [hslash.symm, hfree], rfl, hrising⟩

/-! ## Reading a class -/

theorem head?_signs_iff {t : Text} {c : Char} (hc : c ≠ '\\') :
    t.signs.head? = some (.plain c) ↔ t.head? = some c := by
  constructor
  · exact Text.head?_of_head?_signs
  · intro h
    obtain ⟨u, rfl⟩ := List.head?_eq_some_iff.1 h
    rw [Text.signs_plain hc, List.head?_cons]

theorem read?_signs (t : Text) :
    read? t.signs = (marksFrom? true none (inside t).signs).map fun (ms, rest) =>
      (⟨negates t, ms⟩, rest) := by
  have hmark : (t.signs.head? = some (.plain '!') ∨ t.signs.head? = some (.plain '^'))
      ↔ negates t = true := by
    rw [head?_signs_iff (by decide), head?_signs_iff (by decide)]
    simp [negates]
  cases hneg : negates t with
  | false =>
    rw [hneg] at hmark
    simp [read?, inside, hneg, hmark]
  | true =>
    have htail : (inside t).signs = t.signs.tail := by
      have hhead : t.head? = some '!' ∨ t.head? = some '^' := by simpa [negates] using hneg
      rw [inside, hneg, if_pos rfl]
      rcases hhead with h | h
      · obtain ⟨u, rfl⟩ := List.head?_eq_some_iff.1 h
        rw [Text.signs_plain (by decide)]
        rfl
      · obtain ⟨u, rfl⟩ := List.head?_eq_some_iff.1 h
        rw [Text.signs_plain (by decide)]
        rfl
    rw [hneg] at hmark
    simp [read?, htail, hmark]

/-- The texts after an opening bracket that begin with a class. -/
theorem read?_eq_some_iff {t : Text} {b : Bracket} {rest : List Sign} :
    read? t.signs = some (b, rest) ↔
      ∃ body after, Closes (inside t) body after ∧ .plain '/' ∉ body.signs ∧
        Mark.Rising (marksOf body.signs) ∧ b = ⟨negates t, marksOf body.signs⟩ ∧
        rest = after.signs := by
  rw [read?_signs]
  constructor
  · intro h
    obtain ⟨⟨ms, us⟩, hms, he⟩ := Option.map_eq_some_iff.1 h
    cases he
    obtain ⟨ss, hss, hne, hend, hslash, rfl, hrising⟩ := exists_body_of_first hms
    obtain ⟨body, after, ht, hopen, rfl, rfl⟩ := Text.exists_append_of_signs hss
    refine ⟨body, after, ⟨ht, hopen, ?_, hend⟩, hslash, hrising, rfl, rfl⟩
    rintro rfl
    exact hne rfl
  · rintro ⟨body, after, hclose, hslash, hrising, rfl, rfl⟩
    rw [hclose.signs_eq, marksFrom?_body (Text.signs_ne_nil hclose.ne_nil) hclose.first hslash
      hrising]
    rfl

/-! ## What a class stands for -/

theorem has_iff_unions {b : Bracket} {base : List Regex.Interval}
    {removed : List (List Regex.Interval)} (h : Mark.unions? b.marks = some (base, removed))
    {c : Char} :
    Glob.Has b c ↔
      (b.negated != (base.any (·.has c) && !removed.any (·.any (·.has c)))) = true := by
  have hclass : b.charClass? = some ⟨b.negated, base, removed⟩ := by rw [charClass?, h]; rfl
  constructor
  · rintro ⟨k, hk, hc⟩
    rw [hclass] at hk
    cases hk
    exact hc
  · exact fun hc => ⟨_, hclass, hc⟩

theorem exists_unions?_of_read? {ss rest : List Sign} {b : Bracket}
    (h : read? ss = some (b, rest)) :
    ∃ base removed, Mark.unions? b.marks = some (base, removed) := by
  obtain ⟨us, hus⟩ := exists_marks_of_read? h
  exact Mark.exists_unions? (ordered_marksFrom? hus).1

theorem has_iff_stands {b : Bracket} {base : List Regex.Interval}
    {removed : List (List Regex.Interval)} (h : Mark.unions? b.marks = some (base, removed))
    (hapart : Mark.Apart b.marks) (hclosed : Mark.Closed b.marks) {c : Char} :
    Glob.Has b c ↔ if b.negated then ¬Mark.Stands b.marks c else Mark.Stands b.marks c := by
  obtain ⟨rfl, hbase⟩ := Mark.any_has_iff h hapart hclosed
  rw [has_iff_unions h, ← hbase]
  cases b.negated <;> simp

/-- **Bracket classes.**  A text begins with a class unless the class is not closed, has a plain
slash in its body, or has a dash with a smaller character behind it than in front.  The class that
is read ends where it is closed, and can be written as an expression, which takes its characters
one by one.  If no two dashes meet, these are the characters that the body stands for, or all the
others. -/
theorem read?_body (t : Text) :
    (read? t.signs = none ↔
      (∀ body after, ¬Closes (inside t) body after) ∨
        ∃ body after, Closes (inside t) body after ∧
          (.plain '/' ∈ body.signs ∨ ¬Mark.Rising (marksOf body.signs))) ∧
    ∀ b rest, read? t.signs = some (b, rest) →
      ∃ body after, Closes (inside t) body after ∧ rest = after.signs ∧
        (∃ r, Regex.parse? ('^' :: (Glob.bracket b).regexText ++ ['$']) = some r ∧
          ∀ p, r.Denotes p ↔ ∃ c, Glob.Has b c ∧ p = [c]) ∧
        (Mark.Apart (marksOf body.signs) → ∀ c, Glob.Has b c ↔
          if negates t then ¬Mark.Stands (marksOf body.signs) c
          else Mark.Stands (marksOf body.signs) c) := by
  refine ⟨⟨fun hnone => ?_, fun hbad => ?_⟩, fun b rest hread => ?_⟩
  · by_cases hclose : ∃ body after, Closes (inside t) body after
    · obtain ⟨body, after, hclose⟩ := hclose
      refine .inr ⟨body, after, hclose, Classical.byContradiction fun hgood => ?_⟩
      obtain ⟨hslash, hrising⟩ := not_or.1 hgood
      have hread := read?_eq_some_iff.2
        ⟨body, after, hclose, hslash, Classical.not_not.1 hrising, rfl, rfl⟩
      rw [hnone] at hread
      cases hread
    · exact .inl fun body after h => hclose ⟨body, after, h⟩
  · rw [Option.eq_none_iff_forall_ne_some]
    rintro ⟨b, rest⟩ hread
    obtain ⟨body, after, hclose, hslash, hrising, -, -⟩ := read?_eq_some_iff.1 hread
    rcases hbad with hnone | ⟨body', after', hclose', hbad⟩
    · exact hnone body after hclose
    · rw [← (hclose.signs_unique hclose').1] at hbad
      rcases hbad with hbad | hbad
      · exact hslash hbad
      · exact hbad hrising
  · obtain ⟨body, after, hclose, -, -, rfl, rfl⟩ := read?_eq_some_iff.1 hread
    have hproper : (Glob.bracket ⟨negates t, marksOf body.signs⟩).Proper false :=
      ⟨writable_of_read? hread, exists_charClass?_of_read? hread⟩
    obtain ⟨base, removed, hunions⟩ := exists_unions?_of_read? hread
    refine ⟨body, after, hclose, rfl, ⟨_, Glob.parse?_regexText hproper, fun p => ?_⟩,
      fun hapart c => has_iff_stands hunions hapart (closed_marksOf _)⟩
    exact Glob.denotes_expression hproper.inGroup

/-- A dash that another one follows is refused behind a greater character, though it stands between
no two characters. -/
theorem read?_two_dashes :
    let t : Text := ['a', '-', '-', 'b', ']']
    let body : Text := ['a', '-', '-', 'b']
    read? t.signs = none ∧ Closes (inside t) body [] ∧ .plain '/' ∉ body.signs ∧
      Mark.Ordered (marksOf body.signs) := by
  refine ⟨by decide, ⟨rfl, rfl, by decide, by decide⟩, by decide, ?_⟩
  intro a b hab
  have hmarks : marksOf (Text.signs ['a', '-', '-', 'b'])
      = [.member 'a', .dash, .dash, .member 'b'] := rfl
  rw [hmarks] at hab
  simp [List.infix_cons_iff] at hab

/-- **When a class has its own characters.**  A class that is not turned round has each character
of its body exactly when no two dashes meet there. -/
theorem has_members_iff_apart {t body after : Text} {b : Bracket} {rest : List Sign}
    (hread : read? t.signs = some (b, rest)) (hplain : negates t = false)
    (hclose : Closes t body after) :
    (∀ c, .member c ∈ marksOf body.signs → Glob.Has b c) ↔ Mark.Apart (marksOf body.signs) := by
  have hinside : inside t = t := by rw [inside, hplain]; rfl
  obtain ⟨base, removed, hunions⟩ := exists_unions?_of_read? hread
  obtain ⟨body', after', hclose', -, -, rfl, -⟩ := read?_eq_some_iff.1 hread
  rw [hinside] at hclose'
  obtain ⟨hbody, -⟩ := hclose'.signs_unique hclose
  rw [hbody, hplain] at hunions ⊢
  have hclosed := closed_marksOf body.signs
  constructor
  · refine fun hall => Classical.byContradiction fun hmeet => ?_
    obtain ⟨c, hc, hremoved⟩ := Mark.exists_member_removed hunions hclosed hmeet
    have hhas := (has_iff_unions hunions).1 (hall c hc)
    rw [hremoved] at hhas
    simp at hhas
  · intro hapart c hc
    rw [has_iff_stands hunions hapart hclosed]
    exact .inl hc

/-- A quoted bracket belongs to the body. -/
theorem has_members_iff_apart_quoted :
    let t : Text := ['a', '-', 'c', '\\', ']', 'x', ']', '.', 'h']
    let body : Text := ['a', '-', 'c', '\\', ']', 'x']
    let after : Text := ['.', 'h']
    let b : Bracket := ⟨false, [.member 'a', .dash, .member 'c', .member ']', .member 'x']⟩
    read? t.signs = some (b, after.signs) ∧ negates t = false ∧ Closes t body after ∧
      ∀ c, .member c ∈ marksOf body.signs → Glob.Has b c := by
  intro t body after b
  have hread : read? t.signs = some (b, after.signs) := by decide
  have hclose : Closes t body after := ⟨rfl, rfl, by decide, by decide⟩
  exact ⟨hread, rfl, hclose, (has_members_iff_apart hread rfl hclose).2 (by decide)⟩

/-- What stands behind two dashes is taken away. -/
theorem member_lost_behind_two_dashes :
    let t : Text := ['+', '-', '-', 'a', ']']
    let body : Text := ['+', '-', '-', 'a']
    let b : Bracket := ⟨false, [.member '+', .dash, .dash, .member 'a']⟩
    read? t.signs = some (b, []) ∧ negates t = false ∧ Closes t body [] ∧
      .member 'a' ∈ marksOf body.signs ∧ ¬Glob.Has b 'a' := by
  refine ⟨by decide, rfl, ⟨rfl, rfl, by decide, by decide⟩, by decide, ?_⟩
  rintro ⟨k, hk, hc⟩
  cases hk
  exact absurd hc (by decide)

end Bracket

end EditorConfig
