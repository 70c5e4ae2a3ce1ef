import EditorConfig.Proofs.Text.Decimal
import EditorConfig.Resolver

/-!
# The grammar of versions

* `Version.Number`     digits without leading zeros, and the number of 64 bits that they denote;
* `Version.Suffix`     nothing, or identifiers with dots between them behind a separator;
* `Version.Spells`     a text that writes a version in full;
* `Version.Names`      a text that may leave out numbers, and the version with zeros for them;
* `Version.Requests`   such a text with at most one `v` in front.

Main statements: the reader takes the texts of the grammar (`parse?_eq_some_iff`), each version has
one full text (`spells_iff`), and what a resolver is asked for is what the grammar of requests says
(`Resolver.requestedVersion_grammar`).
-/

namespace EditorConfig

namespace Version

/-! ## Numbers -/

/-- `t` has digits, no zero in front of another digit, and denotes `n`, which has 64 bits. -/
structure Number (t : Text) (n : Nat) : Prop where
  ne_nil : t ≠ []
  digits : ∀ c ∈ t, c.isDigit = true
  no_zero : t.head? = some '0' → t = ['0']
  value : Decimal.value t = n
  small : n < numberLimit

theorem number?_eq_some_iff {t : Text} {n : Nat} : number? t = some n ↔ Number t n := by
  simp only [number?, List.all_eq_true]
  constructor
  · intro h
    split at h
    · next hall =>
      obtain ⟨hne, hdigits, hzero, hsmall⟩ := hall
      cases h
      exact ⟨hne, hdigits, fun h0 => hzero.resolve_right (not_not_intro h0), rfl, hsmall⟩
    · cases h
  · intro h
    obtain ⟨hne, hdigits, hzero, rfl, hsmall⟩ := h
    apply if_pos
    refine ⟨hne, hdigits, ?_, hsmall⟩
    by_cases h0 : t.head? = some '0'
    · exact .inl (hzero h0)
    · exact .inr h0

/-- A number has one text. -/
theorem number_iff {t : Text} {n : Nat} : Number t n ↔ t = Decimal.nat n ∧ n < numberLimit := by
  constructor
  · intro h
    refine ⟨?_, h.small⟩
    rw [← h.value]
    by_cases hzero : t.head? = some '0'
    · rw [h.no_zero hzero]
      rfl
    · exact (Decimal.eq_nat_value h.ne_nil h.digits hzero).2
  · rintro ⟨rfl, hsmall⟩
    exact ⟨Decimal.nat_ne_nil n, fun _ hc => Decimal.isDigit_of_mem_nat hc,
      (Decimal.canonical_nat n).no_zero, Decimal.value_nat n, hsmall⟩

theorem number_zero : Number ['0'] 0 := number_iff.2 ⟨rfl, by decide⟩

theorem Number.not_mem {t : Text} {n : Nat} (h : Number t n) {c : Char} (hc : c.isDigit = false) :
    c ∉ t := by
  intro hmem
  have hdigit := h.digits c hmem
  rw [hc] at hdigit
  cases hdigit

/-! ## Identifiers -/

/-- Letters, digits and hyphens, at least one of them. -/
structure Identifier (t : Text) : Prop where
  ne_nil : t ≠ []
  chars : ∀ c ∈ t, c.isAlphanum = true ∨ c = '-'

/-- An identifier which, when it is a number, has no zero in front of another digit. -/
structure PreIdentifier (t : Text) : Prop extends Identifier t where
  no_zero : (∀ c ∈ t, c.isDigit = true) → t.head? = some '0' → t = ['0']

theorem isBuildIdentifier_iff {t : Text} : isBuildIdentifier t = true ↔ Identifier t := by
  have hchar (c : Char) : isIdentifierChar c = true ↔ c.isAlphanum = true ∨ c = '-' := by
    rw [isIdentifierChar, Bool.or_eq_true, beq_iff_eq]
  simp only [isBuildIdentifier, Bool.and_eq_true, decide_eq_true_eq, List.all_eq_true, hchar]
  exact ⟨fun h => ⟨h.1, h.2⟩, fun h => ⟨h.ne_nil, h.chars⟩⟩

theorem isPreIdentifier_iff {t : Text} : isPreIdentifier t = true ↔ PreIdentifier t := by
  have hnumeric : isNumeric t = true ↔ ∀ c ∈ t, c.isDigit = true := List.all_eq_true
  have hzero : (!(isNumeric t && t.head? = some '0' && t ≠ ['0'])) = true
      ↔ ((∀ c ∈ t, c.isDigit = true) → t.head? = some '0' → t = ['0']) := by
    rw [← hnumeric]
    cases isNumeric t with
    | true => by_cases h0 : t.head? = some '0' <;> simp [h0]
    | false => simp
  rw [isPreIdentifier, Bool.and_eq_true, isBuildIdentifier_iff, hzero]
  exact ⟨fun h => ⟨h.1, h.2⟩, fun h => ⟨h.toIdentifier, h.no_zero⟩⟩

theorem Identifier.not_mem {t : Text} (h : Identifier t) {c : Char} (hc : c.isAlphanum = false)
    (hhyphen : c ≠ '-') : c ∉ t := by
  intro hmem
  rcases h.chars c hmem with hchar | hchar
  · rw [hc] at hchar
    cases hchar
  · exact hhyphen hchar

/-! ## Suffixes -/

/-- Nothing, or `sep` and then valid identifiers with dots between them. -/
inductive Suffix (sep : Char) (P : Text → Prop) : Text → List Text → Prop
  | none : Suffix sep P [] []
  | some {is : List Text} (hne : is ≠ []) (h : ∀ i ∈ is, P i) :
      Suffix sep P (sep :: ['.'].intercalate is) is

variable {sep : Char} {P : Text → Prop} {valid : Text → Bool}

/-- Identifiers have one text as a suffix. -/
theorem suffix_iff {t : Text} {is : List Text} :
    Suffix sep P t is ↔ (∀ i ∈ is, P i) ∧ t = suffixText sep is := by
  unfold suffixText
  constructor
  · intro h
    cases h with
    | none => exact ⟨by simp, rfl⟩
    | some hne h => exact ⟨h, (if_neg hne).symm⟩
  · rintro ⟨h, rfl⟩
    split
    · next hnil =>
      rw [hnil]
      exact .none
    · next hne => exact .some hne h

theorem Suffix.not_mem {t : Text} {is : List Text} (h : Suffix sep P t is)
    (hP : ∀ i, P i → Identifier i) {c : Char} (hc : c.isAlphanum = false) (hhyphen : c ≠ '-')
    (hsep : c ≠ sep) (hdot : c ≠ '.') : c ∉ t := by
  cases h with
  | none => simp
  | some _ h =>
    intro hmem
    have hrest : ∀ d ∈ ['.'].intercalate is, d ≠ c := by
      apply Text.forall_mem_intercalate
      · intro d hd
        rw [List.mem_singleton.1 hd]
        exact Ne.symm hdot
      · intro i hi d hd he
        subst he
        exact (hP i (h i hi)).not_mem hc hhyphen hd
    rcases List.mem_cons.1 hmem with he | hmem
    · exact hsep he
    · exact hrest c hmem rfl

theorem suffixed?_eq_some_iff (hvalid : ∀ i, valid i = true ↔ P i) (hP : ∀ i, P i → Identifier i)
    {t a : Text} {is : List Text} :
    suffixed? sep valid t = some (a, is) ↔ ∃ s, t = a ++ s ∧ sep ∉ a ∧ Suffix sep P s is := by
  have hall (is : List Text) : is.all valid = true ↔ ∀ i ∈ is, P i := by
    simp only [List.all_eq_true, hvalid]
  unfold suffixed?
  constructor
  · intro h
    split at h
    · next hcut =>
      cases h
      exact ⟨[], (List.append_nil _).symm, Text.cut?_eq_none.1 hcut, .none⟩
    · next before after hcut =>
      obtain ⟨rfl, hbefore⟩ := Text.cut?_eq_some.1 hcut
      simp only at h
      split at h
      · next hvalid =>
        cases h
        have hsuffix : Suffix sep P (sep :: ['.'].intercalate (after.splitOn '.'))
            (after.splitOn '.') :=
          .some (List.splitOn_ne_nil '.' after) ((hall _).1 hvalid)
        rw [List.intercalate_splitOn] at hsuffix
        exact ⟨sep :: after, rfl, hbefore, hsuffix⟩
      · cases h
  · rintro ⟨s, rfl, ha, hs⟩
    cases hs with
    | none => rw [List.append_nil, Text.cut?_eq_none.2 ha]
    | some hne h =>
      have hsplit : List.splitOn '.' (['.'].intercalate is) = is :=
        List.splitOn_intercalate '.'
          (fun i hi => (hP i (h i hi)).not_mem (by decide) (by decide)) hne
      rw [Text.cut?_eq_some.2 ⟨rfl, ha⟩]
      simp only [hsplit]
      exact if_pos ((hall is).2 h)

/-! ## Full texts -/

/-- The text behind the second dot: the last number, then the pre-release, then the build. -/
inductive Ending : Text → Version → Prop
  | mk {patch pre build : Text} {v : Version} (hpatch : Number patch v.patch)
      (hpre : Suffix '-' PreIdentifier pre v.pre) (hbuild : Suffix '+' Identifier build v.build) :
      Ending (patch ++ pre ++ build) v

/-- Three numbers with dots between them, and the pre-release and the build behind the last. -/
inductive Spells : Text → Version → Prop
  | mk {major minor ending : Text} {v : Version} (hmajor : Number major v.major)
      (hminor : Number minor v.minor) (hending : Ending ending v) :
      Spells (major ++ '.' :: (minor ++ '.' :: ending)) v

/-- Numbers of 64 bits and identifiers of the right form. -/
structure Valid (v : Version) : Prop where
  major : v.major < numberLimit
  minor : v.minor < numberLimit
  patch : v.patch < numberLimit
  pre : ∀ i ∈ v.pre, PreIdentifier i
  build : ∀ i ∈ v.build, Identifier i

/-- **A version has one full text**, the way it is written. -/
theorem spells_iff {t : Text} {v : Version} : Spells t v ↔ v.Valid ∧ t = v.text := by
  have htext : v.text = Decimal.nat v.major ++ '.' :: (Decimal.nat v.minor ++ '.' ::
      (Decimal.nat v.patch ++ suffixText '-' v.pre ++ suffixText '+' v.build)) := by
    simp [text, List.intercalate]
  rw [htext]
  constructor
  · intro h
    obtain ⟨hmajor, hminor, ⟨hpatch, hpre, hbuild⟩⟩ := h
    refine ⟨⟨hmajor.small, hminor.small, hpatch.small, (suffix_iff.1 hpre).1,
      (suffix_iff.1 hbuild).1⟩, ?_⟩
    rw [(number_iff.1 hmajor).1, (number_iff.1 hminor).1, (number_iff.1 hpatch).1,
      (suffix_iff.1 hpre).2, (suffix_iff.1 hbuild).2]
  · intro h
    obtain ⟨h, rfl⟩ := h
    exact ⟨number_iff.2 ⟨rfl, h.major⟩, number_iff.2 ⟨rfl, h.minor⟩, number_iff.2 ⟨rfl, h.patch⟩,
      suffix_iff.2 ⟨h.pre, rfl⟩, suffix_iff.2 ⟨h.build, rfl⟩⟩

/-! ## Reading -/

theorem suffixed?_build {t a : Text} {is : List Text} :
    suffixed? '+' isBuildIdentifier t = some (a, is)
      ↔ ∃ s, t = a ++ s ∧ '+' ∉ a ∧ Suffix '+' Identifier s is :=
  suffixed?_eq_some_iff (fun _ => isBuildIdentifier_iff) fun _ hi => hi

theorem suffixed?_pre {t a : Text} {is : List Text} :
    suffixed? '-' isPreIdentifier t = some (a, is)
      ↔ ∃ s, t = a ++ s ∧ '-' ∉ a ∧ Suffix '-' PreIdentifier s is :=
  suffixed?_eq_some_iff (fun _ => isPreIdentifier_iff) fun _ hi => hi.toIdentifier

theorem splitOn_eq_three {t a b c : Text} : t.splitOn '.' = [a, b, c]
    ↔ t = a ++ '.' :: (b ++ '.' :: c) ∧ '.' ∉ a ∧ '.' ∉ b ∧ '.' ∉ c := by
  have htext : ['.'].intercalate [a, b, c] = a ++ '.' :: (b ++ '.' :: c) := by
    simp [List.intercalate]
  constructor
  · intro h
    have hmem : ∀ p ∈ [a, b, c], '.' ∉ p := fun p hp =>
      Text.not_mem_of_mem_splitOn (h.symm ▸ hp : p ∈ t.splitOn '.')
    refine ⟨?_, hmem a (by simp), hmem b (by simp), hmem c (by simp)⟩
    rw [← htext, ← h, List.intercalate_splitOn]
  · intro h
    obtain ⟨rfl, ha, hb, hc⟩ := h
    rw [← htext]
    exact List.splitOn_intercalate '.' (by simp [ha, hb, hc]) (by simp)

theorem spells_of_parse? {t : Text} {v : Version} (h : parse? t = some v) : Spells t v := by
  simp only [parse?, Option.bind_eq_bind, Option.bind_eq_some_iff, Prod.exists] at h
  obtain ⟨front, build, hbuild, core, pre, hpre, h⟩ := h
  obtain ⟨b, rfl, -, hb⟩ := suffixed?_build.1 hbuild
  obtain ⟨p, rfl, -, hp⟩ := suffixed?_pre.1 hpre
  split at h
  · next major minor patch hcore =>
    simp only [Option.bind_eq_some_iff, Option.pure_def, Option.some.injEq] at h
    obtain ⟨x, hx, y, hy, z, hz, rfl⟩ := h
    have hending : Ending (patch ++ p ++ b) ⟨x, y, z, pre, build⟩ :=
      ⟨number?_eq_some_iff.1 hz, hp, hb⟩
    have hspells := Spells.mk (number?_eq_some_iff.1 hx) (number?_eq_some_iff.1 hy) hending
    rw [(splitOn_eq_three.1 hcore).1]
    simpa using hspells
  · cases h

theorem parse?_of_spells {t : Text} {v : Version} (h : Spells t v) : parse? t = some v := by
  obtain @⟨major, minor, _, _, hmajor, hminor, @⟨patch, pre, build, _, hpatch, hpre, hbuild⟩⟩ := h
  have hdots : List.splitOn '.' (major ++ '.' :: (minor ++ '.' :: patch)) = [major, minor, patch] :=
    splitOn_eq_three.2 ⟨rfl, hmajor.not_mem rfl, hminor.not_mem rfl, hpatch.not_mem rfl⟩
  have hcore {c : Char} (hdigit : c.isDigit = false) (hdot : c ≠ '.') :
      c ∉ major ++ '.' :: (minor ++ '.' :: patch) := by
    simp [hmajor.not_mem hdigit, hminor.not_mem hdigit, hpatch.not_mem hdigit, hdot]
  have hplus : '+' ∉ (major ++ '.' :: (minor ++ '.' :: patch)) ++ pre := by
    rw [List.mem_append, not_or]
    refine ⟨hcore rfl (by decide), ?_⟩
    exact hpre.not_mem (fun _ hi => hi.toIdentifier) rfl (by decide) (by decide) (by decide)
  have htext : major ++ '.' :: (minor ++ '.' :: (patch ++ pre ++ build))
      = (major ++ '.' :: (minor ++ '.' :: patch)) ++ pre ++ build := by simp
  rw [parse?, htext, suffixed?_build.2 ⟨build, rfl, hplus, hbuild⟩]
  simp only [Option.bind_eq_bind, Option.bind_some, Option.pure_def, hdots,
    suffixed?_pre.2 ⟨pre, rfl, hcore rfl (by decide), hpre⟩, number?_eq_some_iff.2 hmajor,
    number?_eq_some_iff.2 hminor, number?_eq_some_iff.2 hpatch]

/-- **Reading a version** takes the full texts. -/
theorem parse?_eq_some_iff {t : Text} {v : Version} : parse? t = some v ↔ Spells t v :=
  ⟨spells_of_parse?, parse?_of_spells⟩

/-! ## Texts that leave out numbers -/

/-- One number, two numbers, or a full text; the numbers left out are zero. -/
inductive Names : Text → Version → Prop
  | major {t : Text} {n : Nat} (h : Number t n) : Names t ⟨n, 0, 0, [], []⟩
  | minor {s t : Text} {n m : Nat} (hs : Number s n) (ht : Number t m) :
      Names (s ++ '.' :: t) ⟨n, m, 0, [], []⟩
  | full {t : Text} {v : Version} (h : Spells t v) : Names t v

theorem append_dot_inj {a b s t : Text} (ha : '.' ∉ a) (hb : '.' ∉ b)
    (h : a ++ '.' :: s = b ++ '.' :: t) : a = b ∧ s = t := by
  have hcut := Text.cut?_eq_some.2 ⟨h, hb⟩
  rw [Text.cut?_eq_some.2 ⟨rfl, ha⟩] at hcut
  simpa using hcut

/-- The parts before the first two dots are the first two numbers. -/
theorem spells_dots_iff {a b t : Text} {v : Version} (ha : '.' ∉ a) (hb : '.' ∉ b) :
    Spells (a ++ '.' :: (b ++ '.' :: t)) v ↔ Number a v.major ∧ Number b v.minor ∧ Ending t v := by
  constructor
  · intro h
    generalize htext : a ++ '.' :: (b ++ '.' :: t) = s at h
    obtain ⟨hmajor, hminor, hending⟩ := h
    obtain ⟨rfl, hrest⟩ := append_dot_inj ha (hmajor.not_mem rfl) htext
    obtain ⟨rfl, rfl⟩ := append_dot_inj hb (hminor.not_mem rfl) hrest
    exact ⟨hmajor, hminor, hending⟩
  · intro h
    exact ⟨h.1, h.2.1, h.2.2⟩

theorem Suffix.eq_nil {is : List Text} (h : Suffix sep P [] is) : is = [] := by
  cases h with
  | none => rfl

/-- Behind a zero there is nothing. -/
theorem ending_zero_iff {v : Version} :
    Ending ['0'] v ↔ v = ⟨v.major, v.minor, 0, [], []⟩ := by
  obtain ⟨major, minor, n, ps, bs⟩ := v
  constructor
  · intro h
    generalize htext : ['0'] = s at h
    obtain @⟨patch, pre, build, _, hpatch, hpre, hbuild⟩ := h
    obtain ⟨c, ds, rfl⟩ := List.exists_cons_of_ne_nil hpatch.ne_nil
    simp only [List.cons_append, List.cons.injEq, List.nil_eq, List.append_eq_nil_iff] at htext
    obtain ⟨rfl, ⟨rfl, rfl⟩, rfl⟩ := htext
    have hzero : n = 0 := hpatch.value.symm
    have hps : ps = [] := hpre.eq_nil
    have hbs : bs = [] := hbuild.eq_nil
    rw [hzero, hps, hbs]
  · intro h
    rw [h]
    exact Ending.mk (v := ⟨major, minor, 0, [], []⟩) number_zero .none .none

theorem padded_of_one {t : Text} (h : '.' ∉ t) :
    padded t = t ++ '.' :: (['0'] ++ '.' :: ['0']) := by
  rw [padded, List.splitOn_eq_singleton h]
  rfl

theorem padded_of_two {a b : Text} (ha : '.' ∉ a) (hb : '.' ∉ b) :
    padded (a ++ '.' :: b) = a ++ '.' :: (b ++ '.' :: ['0']) := by
  rw [padded, List.splitOn_append_cons_self, List.splitOn_eq_singleton ha,
    List.splitOn_eq_singleton hb]
  exact List.append_assoc a ('.' :: b) ['.', '0']

theorem padded_of_more (a b t : Text) :
    padded (a ++ '.' :: (b ++ '.' :: t)) = a ++ '.' :: (b ++ '.' :: t) := by
  have hlength : 3 ≤ ((a ++ '.' :: (b ++ '.' :: t)).splitOn '.').length := by
    rw [Text.length_splitOn]
    simp only [List.count_append, List.count_cons_self]
    omega
  unfold padded
  split
  · omega
  · omega
  · rfl

/-- **With the zeros that it leaves out** a text is a full text just when it names a version.  A
pre-release or a build never comes before the zeros: `0` is all that stands behind the last dot. -/
theorem spells_padded_iff {t : Text} {v : Version} : Spells (padded t) v ↔ Names t v := by
  constructor
  · intro h
    cases hfirst : t.cut? '.' with
    | none =>
      have ht := Text.cut?_eq_none.1 hfirst
      rw [padded_of_one ht, spells_dots_iff ht (by decide), ending_zero_iff] at h
      obtain ⟨hmajor, hminor, hv⟩ := h
      have hzero : v.minor = 0 := hminor.value.symm
      rw [hv, hzero]
      exact .major hmajor
    | some p =>
      obtain ⟨a, s⟩ := p
      obtain ⟨rfl, ha⟩ := Text.cut?_eq_some.1 hfirst
      cases hsecond : s.cut? '.' with
      | none =>
        have hs := Text.cut?_eq_none.1 hsecond
        rw [padded_of_two ha hs, spells_dots_iff ha hs, ending_zero_iff] at h
        obtain ⟨hmajor, hminor, hv⟩ := h
        rw [hv]
        exact .minor hmajor hminor
      | some q =>
        obtain ⟨b, u⟩ := q
        obtain ⟨rfl, -⟩ := Text.cut?_eq_some.1 hsecond
        rw [padded_of_more] at h
        exact .full h
  · intro h
    cases h with
    | major h =>
      have ht := h.not_mem (c := '.') rfl
      rw [padded_of_one ht]
      exact ⟨h, number_zero, ending_zero_iff.2 rfl⟩
    | minor hs ht =>
      rw [padded_of_two (hs.not_mem rfl) (ht.not_mem rfl)]
      exact ⟨hs, ht, ending_zero_iff.2 rfl⟩
    | full h =>
      obtain ⟨hmajor, hminor, hending⟩ := h
      rw [padded_of_more]
      exact ⟨hmajor, hminor, hending⟩

/-! ## Requests -/

/-- A text that names the version, with at most one `v` in front. -/
def Requests (s : Text) (v : Version) : Prop := ∃ t, (s = t ∨ s = 'v' :: t) ∧ Names t v

theorem Number.head?_ne {t s : Text} {n : Nat} (h : Number t n) : (t ++ s).head? ≠ some 'v' := by
  obtain ⟨c, ds, rfl⟩ := List.exists_cons_of_ne_nil h.ne_nil
  intro hhead
  have hc : c = 'v' := Option.some.inj hhead
  exact h.not_mem (c := 'v') rfl (hc ▸ List.mem_cons_self)

theorem Names.head?_ne {t : Text} {v : Version} (h : Names t v) : t.head? ≠ some 'v' := by
  cases h with
  | major h =>
    rw [← List.append_nil t]
    exact h.head?_ne
  | minor hs _ => exact hs.head?_ne
  | full h =>
    obtain ⟨hmajor, _, _⟩ := h
    exact hmajor.head?_ne

theorem requested?_eq_some_iff {s : Text} {v : Version} :
    requested? s = some v ↔ Requests s v := by
  rw [requested?, parse?_eq_some_iff, spells_padded_iff]
  constructor
  · intro h
    split at h
    · next hv =>
      obtain ⟨t, rfl⟩ := List.head?_eq_some_iff.1 hv
      exact ⟨t, .inr rfl, h⟩
    · exact ⟨s, .inl rfl, h⟩
  · intro h
    obtain ⟨t, rfl | rfl, h⟩ := h
    · rw [if_neg h.head?_ne]
      exact h
    · exact h

/-! ## Shorter texts have no suffix -/

/-- What stands before a character that the beginning of the text does not hold. -/
theorem prefix_of_append_cons {c : Char} {p s a b : Text} (h : p ++ s = a ++ c :: b)
    (hc : c ∉ p) : p <+: a := by
  rcases List.append_eq_append_iff.1 h with ⟨x, rfl, -⟩ | ⟨x, rfl, hx⟩
  · exact List.prefix_append p x
  · cases x with
    | nil => simp
    | cons d x =>
      rw [List.cons_append, List.cons.injEq] at hx
      obtain ⟨rfl, -⟩ := hx
      exact absurd (by simp) hc

/-- Only a full text holds more than digits and dots, and two of its dots come first. -/
theorem Names.two_le_count {core rest : Text} {v : Version} (h : Names (core ++ sep :: rest) v)
    (hdigit : sep.isDigit = false) (hdot : sep ≠ '.') : 2 ≤ core.count '.' := by
  generalize htext : core ++ sep :: rest = t at h
  have hsep : sep ∈ t := by
    rw [← htext]
    simp
  cases h with
  | major h => exact absurd hsep (h.not_mem hdigit)
  | minor hs ht =>
    rcases List.mem_append.1 hsep with hmem | hmem
    · exact absurd hmem (hs.not_mem hdigit)
    · exact absurd ((List.mem_cons.1 hmem).resolve_left hdot) (ht.not_mem hdigit)
  | full h =>
    obtain @⟨major, minor, ending, _, hmajor, hminor, _⟩ := h
    have hfront : sep ∉ major ++ '.' :: (minor ++ ['.']) := by
      simp [hmajor.not_mem hdigit, hminor.not_mem hdigit, hdot]
    have happend : (major ++ '.' :: (minor ++ ['.'])) ++ ending = core ++ sep :: rest := by
      rw [htext]
      simp
    obtain ⟨x, rfl⟩ := prefix_of_append_cons happend hfront
    simp only [List.count_append, List.count_cons_self]
    omega

theorem Requests.two_le_count {core rest : Text} {v : Version}
    (h : Requests (core ++ sep :: rest) v) (hsep : sep = '-' ∨ sep = '+') :
    2 ≤ core.count '.' := by
  have hother : sep.isDigit = false ∧ sep ≠ '.' ∧ sep ≠ 'v' := by
    rcases hsep with rfl | rfl <;> decide
  obtain ⟨hdigit, hdot, hv⟩ := hother
  obtain ⟨t, ht | ht, h⟩ := h
  · rw [← ht] at h
    exact h.two_le_count hdigit hdot
  · cases core with
    | nil => exact absurd (List.cons.inj ht).1 hv
    | cons c core =>
      rw [List.cons_append, List.cons.injEq] at ht
      obtain ⟨rfl, rfl⟩ := ht
      rw [List.count_cons_of_ne (by decide)]
      exact h.two_le_count hdigit hdot

end Version

namespace Resolver

open Version (Requests)

theorem requestedVersion_eq (r : Resolver) (s : Text) :
    ({ r with version := some s } : Resolver).requestedVersion
      = match Version.requested? s with
        | some v => .ok (some v)
        | none => .error (.invalidVersion s) := rfl

theorem requestedVersion_of_requests (r : Resolver) {s : Text} {v : Version} (h : Requests s v) :
    ({ r with version := some s } : Resolver).requestedVersion = .ok (some v) := by
  rw [requestedVersion_eq, Version.requested?_eq_some_iff.2 h]

theorem requestedVersion_of_not_requests (r : Resolver) {s : Text} (h : ∀ v, ¬Requests s v) :
    ({ r with version := some s } : Resolver).requestedVersion = .error (.invalidVersion s) := by
  cases hv : Version.requested? s with
  | some v => exact absurd (Version.requested?_eq_some_iff.1 hv) (h v)
  | none => rw [requestedVersion_eq, hv]

/-- **The grammar of requests.** A request names a version when it is one number, two numbers or a
full text, with at most one `v` in front; any other request is refused as it stands.  So a text
with fewer than two dots in front of a hyphen or a plus is refused, and the way a version is written
names it, also behind a `v`. -/
theorem requestedVersion_grammar (r : Resolver) :
    (∀ s v, ({ r with version := some s } : Resolver).requestedVersion = .ok (some v)
      ↔ Requests s v) ∧
    (∀ s, (∀ v, ¬Requests s v) →
      ({ r with version := some s } : Resolver).requestedVersion = .error (.invalidVersion s)) ∧
    (∀ core sep rest, core.count '.' < 2 → sep = '-' ∨ sep = '+' →
      ({ r with version := some (core ++ sep :: rest) } : Resolver).requestedVersion
        = .error (.invalidVersion (core ++ sep :: rest))) ∧
    ∀ v : Version, v.Valid →
      ({ r with version := some v.text } : Resolver).requestedVersion = .ok (some v) ∧
      ({ r with version := some ('v' :: v.text) } : Resolver).requestedVersion = .ok (some v) := by
  refine ⟨fun s v => ⟨fun h => ?_, r.requestedVersion_of_requests⟩,
    fun s => r.requestedVersion_of_not_requests, fun core sep rest hcount hsep => ?_,
    fun v hv => ?_⟩
  · rw [← Version.requested?_eq_some_iff]
    rw [requestedVersion_eq] at h
    cases hs : Version.requested? s with
    | some w =>
      rw [hs] at h
      cases h
      rfl
    | none =>
      rw [hs] at h
      cases h
  · apply requestedVersion_of_not_requests
    intro v hv
    have hdots := hv.two_le_count hsep
    omega
  · have hnames := Version.Names.full (Version.spells_iff.2 ⟨hv, rfl⟩)
    exact ⟨r.requestedVersion_of_requests ⟨v.text, .inl rfl, hnames⟩,
      r.requestedVersion_of_requests ⟨v.text, .inr rfl, hnames⟩⟩

theorem requestedVersion_grammar_preRelease :
    let v : Version := ⟨1, 2, 0, ["rc".toList, "1".toList], ["5".toList]⟩
    v.Valid ∧ v.text = "1.2.0-rc.1+5".toList ∧
      ({ version := some "v1.2.0-rc.1+5".toList } : Resolver).requestedVersion = .ok (some v) := by
  have hv : Version.Valid ⟨1, 2, 0, ["rc".toList, "1".toList], ["5".toList]⟩ := by
    refine ⟨by decide, by decide, by decide, fun i hi => ?_, fun i hi => ?_⟩
    · exact Version.isPreIdentifier_iff.1 (List.all_eq_true.1 (by decide) i hi)
    · exact Version.isBuildIdentifier_iff.1 (List.all_eq_true.1 (by decide) i hi)
  exact ⟨hv, by decide, ((requestedVersion_grammar {}).2.2.2 _ hv).2⟩

end Resolver

end EditorConfig
