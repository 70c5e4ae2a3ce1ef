import EditorConfig.Proofs.Glob.Nesting
import EditorConfig.Proofs.Glob.Reading
import EditorConfig.Proofs.Text.Sign

/-!
# Globs in two parts

A glob that is written in two parts is read part by part, unless a token lies across the seam.

* `Seamless`         no token of several characters lies across a seam;
* `Glob.Whole`       a text that can stand in front of any seam;
* `Glob.append`      the tokens of one glob and then those of another.

Main statements: read up to a seam and read on from there, a glob is the same as read in one go
(`ofSignsWith_append`, `ofText_append`); so its expression is written part by part
(`regexText_ofText_append`).
-/

namespace EditorConfig

/-! ## Seams -/

/-- No `**` and no `/**/` lies across the seam between two parts. -/
def Seamless {α : Type} (star slash : α) (left right : List α) : Prop :=
  ¬(left.getLast? = some star ∧ (right.head? = some star ∨ right.head? = some slash)) ∧
    ¬(left.getLast? = some slash ∧ [star, star, slash] <+: right)

namespace Seamless

variable {α : Type} {star slash : α} {us vs ws : List α}

theorem nil_left : Seamless star slash [] vs := by
  constructor
  · intro h
    cases h.1
  · intro h
    cases h.1

theorem of_suffix (h : Seamless star slash us vs) (hws : ws <:+ us) :
    Seamless star slash ws vs := by
  cases ws with
  | nil => exact nil_left
  | cons w ws =>
    obtain ⟨xs, rfl⟩ := hws
    have hlast : (xs ++ w :: ws).getLast? = (w :: ws).getLast? := by
      rw [List.getLast?_append, List.getLast?_cons, Option.some_or]
    rw [Seamless, hlast] at h
    exact h

/-- The stars and the slash behind a directory do not reach across a seam. -/
theorem prefix_of_prefix_append (h : Seamless star slash vs ws) (hne : vs ≠ [])
    (hp : [star, star, slash] <+: vs ++ ws) : [star, star, slash] <+: vs := by
  obtain ⟨v, us, rfl⟩ := List.exists_cons_of_ne_nil hne
  obtain ⟨hv, hrest⟩ := List.cons_prefix_cons.1 hp
  subst hv
  cases us with
  | nil =>
    obtain ⟨xs, rfl⟩ := hrest
    exact absurd ⟨rfl, .inl rfl⟩ h.1
  | cons w us =>
    obtain ⟨hw, hlast⟩ := List.cons_prefix_cons.1 hrest
    subst hw
    cases us with
    | nil =>
      obtain ⟨xs, rfl⟩ := hlast
      exact absurd ⟨rfl, .inr rfl⟩ h.1
    | cons x us =>
      obtain ⟨hx, -⟩ := List.cons_prefix_cons.1 hlast
      subst hx
      exact ⟨us, rfl⟩

/-- Two seams, one behind the other; between them may stand nothing. -/
theorem append_right (h : Seamless star slash us vs) (hvs : Seamless star slash vs ws)
    (hnil : vs = [] → Seamless star slash us ws) : Seamless star slash us (vs ++ ws) := by
  by_cases hne : vs = []
  · subst hne
    exact hnil rfl
  · have hhead : (vs ++ ws).head? = vs.head? := by
      obtain ⟨v, vs, rfl⟩ := List.exists_cons_of_ne_nil hne
      rfl
    rw [Seamless, hhead]
    refine ⟨h.1, fun hp => h.2 ⟨hp.1, ?_⟩⟩
    exact hvs.prefix_of_prefix_append hne hp.2

/-- Behind a slash that ends a part, or in it, there are no stars and slash across the seam. -/
theorem not_prefix_append (h : Seamless star slash (slash :: us) vs)
    (hp : ¬[star, star, slash] <+: us) : ¬[star, star, slash] <+: us ++ vs := by
  intro hpre
  by_cases hne : us = []
  · subst hne
    exact h.2 ⟨rfl, hpre⟩
  · have hus : Seamless star slash us vs := h.of_suffix (List.suffix_cons slash us)
    exact hp (hus.prefix_of_prefix_append hne hpre)

/-- A star with no star behind it has none behind it across the seam. -/
theorem head?_append_ne (h : Seamless star slash (star :: us) vs) (hh : us.head? ≠ some star) :
    (us ++ vs).head? ≠ some star := by
  cases us with
  | nil => exact fun hv => h.1 ⟨rfl, .inl hv⟩
  | cons u us => exact hh

/-- A seam of texts is one of their signs. -/
theorem signs {t u : Text} (h : Seamless '*' '/' t u) :
    Seamless (.plain '*') (.plain '/') t.signs u.signs := by
  constructor
  · intro hs
    refine h.1 ⟨Text.getLast?_of_getLast?_signs hs.1, ?_⟩
    exact hs.2.imp Text.head?_of_head?_signs Text.head?_of_head?_signs
  · intro hs
    exact h.2 ⟨Text.getLast?_of_getLast?_signs hs.1, Text.prefix_of_prefix_signs hs.2⟩

end Seamless

namespace Glob

open Brace (Nested)

/-! ## One token in front of a seam -/

/-- In front of a seam a token is read as it is read at the end of a glob, and what it leaves can
stand in front of the seam again. -/
theorem lead_append {s : Sign} {ss vs : List Sign} (hb : .plain '[' ∉ s :: ss)
    (hn : Nested 0 (s :: ss)) (hs : Seamless (.plain '*') (.plain '/') (s :: ss) vs) :
    lead true s (ss ++ vs) = ((lead true s ss).1, (lead true s ss).2 ++ vs) ∧
      (lead true s ss).2 <:+ ss ∧ Nested 0 (lead true s ss).2 := by
  have other {s : Sign} {ss : List Sign} (hn : Nested 0 (s :: ss)) (ho : s ≠ .plain '{')
      (hc : s ≠ .plain '}') : Nested 0 ss := by
    have := (Brace.nested_cons.1 hn).2
    rwa [Brace.deeper_other ho hc] at this
  revert hb hn hs
  refine lead_cases (P := fun s ss l rest => .plain '[' ∉ s :: ss → Nested 0 (s :: ss) →
    Seamless (.plain '*') (.plain '/') (s :: ss) vs →
    lead true s (ss ++ vs) = (l, rest ++ vs) ∧ rest <:+ ss ∧ Nested 0 rest)
    ?quoted ?anyRun ?run ?dirs ?one ?bracket ?group ?plain s ss
  case quoted =>
    intro c ss _ hn _
    exact ⟨rfl, List.suffix_rfl, other hn (by simp) (by simp)⟩
  case anyRun =>
    intro rest _ hn _
    exact ⟨rfl, List.suffix_cons _ _, other (other hn (by decide) (by decide)) (by decide)
      (by decide)⟩
  case run =>
    intro ss hss _ hn hs
    exact ⟨lead_run (hs.head?_append_ne hss), List.suffix_rfl, other hn (by decide) (by decide)⟩
  case dirs =>
    intro rest _ hn _
    have hstars := other (other hn (by decide) (by decide)) (by decide) (by decide)
    exact ⟨rfl, ⟨[.plain '*', .plain '*', .plain '/'], rfl⟩,
      other (other hstars (by decide) (by decide)) (by decide) (by decide)⟩
  case one =>
    intro ss _ hn _
    exact ⟨rfl, List.suffix_rfl, other hn (by decide) (by decide)⟩
  case bracket =>
    intro ss b rest _ hb
    exact absurd List.mem_cons_self hb
  case group =>
    intro ss body rest _ hbody _ hn _
    obtain ⟨body', rest', rfl, hin, hbody', hrest⟩ := Brace.exists_closing? hn
    obtain ⟨rfl, rfl⟩ : body' = body ∧ rest' = rest := by simpa [hbody'] using hbody
    refine ⟨lead_group ?_, ⟨body' ++ [.plain '}'], by simp⟩, hrest⟩
    rw [List.append_assoc, List.cons_append, Brace.closing?_append hin]
  case plain =>
    intro c ss hc hb hn hs
    obtain ⟨hstar, hone, hslash, hbracket, hbrace⟩ := hc
    have hopen : c ≠ '{' := by
      rintro rfl
      obtain ⟨body, rest, -, -, hclosed, -⟩ := Brace.exists_closing? hn
      rw [hbrace rfl rfl] at hclosed
      cases hclosed
    have hclose : c ≠ '}' := by
      rintro rfl
      exact absurd ((Brace.nested_cons.1 hn).1 rfl) (Nat.lt_irrefl 0)
    have hc : StandsForItself true c (ss ++ vs) := by
      refine ⟨hstar, hone, ?_, ?_, fun h => absurd h hopen⟩
      · rintro rfl
        exact hs.not_prefix_append (hslash rfl)
      · rintro rfl
        exact absurd List.mem_cons_self hb
    exact ⟨lead_of_standsForItself hc, List.suffix_rfl,
      other hn (by simpa using hopen) (by simpa using hclose)⟩

/-! ## All tokens up to a seam -/

/-- The tokens of one glob and then those of another. -/
def append : Glob → Glob → Glob
  | empty, k => k
  | seq g h, k => seq g (h.append k)
  | g, k => seq g k

theorem items_append (g k : Glob) : (g.append k).items = g.items ++ k.items := by
  induction g with
  | empty => rfl
  | seq g h _ ih =>
    show (seq g (h.append k)).items = (seq g h).items ++ k.items
    rw [items_seq, items_seq, ih, List.append_assoc]
  | _ => exact items_seq _ k

/-- A path is taken when it can be cut in two, one part for each glob. -/
theorem takes_append (g k : Glob) (t : Text) :
    (g.append k).Takes t ↔ ∃ u v, t = u ++ v ∧ g.Takes u ∧ k.Takes v := by
  induction g generalizing t with
  | empty =>
    constructor
    · intro h
      exact ⟨[], t, rfl, rfl, h⟩
    · intro h1
      obtain ⟨_, v, rfl, rfl, hv⟩ := h1
      exact hv
  | seq g h _ ih =>
    constructor
    · intro h1
      obtain ⟨u, w, rfl, hu, hw⟩ := h1
      obtain ⟨v, x, rfl, hv, hx⟩ := (ih w).1 hw
      exact ⟨u ++ v, x, by simp, ⟨u, v, rfl, hu, hv⟩, hx⟩
    · intro h1
      obtain ⟨_, x, rfl, ⟨u, v, rfl, hu, hv⟩, hx⟩ := h1
      exact ⟨u, v ++ x, by simp, hu, (ih _).2 ⟨v, x, rfl, hv, hx⟩⟩
  | _ => exact Iff.rfl

/-- Read up to a seam and read on from there, a glob is the same as read in one go. -/
theorem ofSignsWith_append {us vs : List Sign} (hb : .plain '[' ∉ us) (hn : Nested 0 us)
    (hs : Seamless (.plain '*') (.plain '/') us vs) :
    ofSignsWith true (us ++ vs) = (ofSignsWith true us).append (ofSignsWith true vs) := by
  induction hl : us.length using Nat.strongRecOn generalizing us with
  | ind n ih =>
    cases us with
    | nil =>
      rw [List.nil_append, ofSignsWith_nil]
      rfl
    | cons s ss =>
      obtain ⟨hlead, hsuffix, hrest⟩ := lead_append hb hn hs
      cases hls : lead true s ss with
      | mk l rest =>
        rw [hls] at hlead hsuffix hrest
        have hsuf : rest <:+ s :: ss := hsuffix.trans (List.suffix_cons s ss)
        have hlt : rest.length < n := by
          rw [← hl, List.length_cons]
          exact Nat.lt_succ_of_le hsuffix.length_le
        have hb' : .plain '[' ∉ rest := fun h => hb (hsuf.mem h)
        have hgo := ih rest.length hlt hb' hrest (hs.of_suffix hsuf) rfl
        cases l with
        | token g =>
          rw [List.cons_append, ofSignsWith_token hls, ofSignsWith_token hlead, hgo]
          rfl
        | group body =>
          rw [List.cons_append, ofSignsWith_group hls, ofSignsWith_group hlead, hgo]
          rfl

/-! ## Whole texts -/

/-- A text that can stand in front of any seam: no class begins in it, it does not end with a
backslash that quotes nothing, and its braces are nested. -/
structure Whole (t : Text) : Prop where
  no_bracket : .plain '[' ∉ t.signs
  closed : t.endsOpen = false
  nested : Nested 0 t.signs

theorem Whole.nil : Whole [] := ⟨by simp, rfl, Brace.nested_nil.2 rfl⟩

theorem ofText_nil : ofText [] = empty := ofSignsWith_nil _

theorem ofSigns_of_balanced {ss : List Sign} (h : Brace.balanced ss = true) :
    ofSigns ss = ofSignsWith true ss := by
  rw [ofSigns, h]

theorem ofText_append {t u : Text} (ht : Whole t) (hu : Brace.balanced u.signs = true)
    (hs : Seamless '*' '/' t u) : ofText (t ++ u) = (ofText t).append (ofText u) := by
  have hbalanced := Brace.balanced_append ht.nested.balanced hu
  rw [ofText, Text.signs_append ht.closed, ofSigns_of_balanced hbalanced,
    ofSignsWith_append ht.no_bracket ht.nested hs.signs, ofText, ofText,
    ofSigns_of_balanced ht.nested.balanced, ofSigns_of_balanced hu]

/-! ## Expressions in two parts -/

theorem tokens_append (g k : Glob) : (g.append k).tokens = g.tokens ++ k.tokens := by
  induction g with
  | empty => rfl
  | seq g h _ ih =>
    show g.tokens ++ (h.append k).tokens = g.tokens ++ h.tokens ++ k.tokens
    rw [ih, List.append_assoc]
  | _ => rfl

theorem regexText_append (g k : Glob) : (g.append k).regexText = g.regexText ++ k.regexText := by
  rw [regexText, tokens_append, Regex.Token.text_append]
  rfl

/-- **Expressions in two parts.**  Where a whole text meets a text with as many opening as closing
braces, and no token lies across the seam, the expression of both together is the expression of the
first one and then that of the second one. -/
theorem regexText_ofText_append {t u : Text} (ht : Whole t) (hu : Brace.balanced u.signs = true)
    (hs : Seamless '*' '/' t u) :
    (ofText (t ++ u)).regexText = (ofText t).regexText ++ (ofText u).regexText := by
  rw [ofText_append ht hu hs, regexText_append]

/-- Two stars behind a slash are a token of their own when no slash follows them; and in the second
part a brace may close before one opens. -/
theorem regexText_ofText_append_stars :
    let t := "\\*{a,{b,c}}/".toList
    let u : Text := ['*', '*', 'a', '}', '{']
    Whole t ∧ Brace.balanced u.signs = true ∧ Seamless '*' '/' t u ∧
      (ofText (t ++ u)).regexText = (ofText t).regexText ++ (ofText u).regexText := by
  intro t u
  have ht : Whole t := by
    refine ⟨by simp [t, Text.signs], by simp [t, Text.endsOpen], ?_⟩
    simp [t, Text.signs]
    decide
  have hu : Brace.balanced u.signs = true := by decide
  have hs : Seamless '*' '/' t u := by simp [t, u, Seamless]
  exact ⟨ht, hu, hs, regexText_ofText_append ht hu hs⟩

end Glob

end EditorConfig
