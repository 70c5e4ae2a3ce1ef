import EditorConfig.Resolver

/-!
# Typed settings and raw properties

A definition keeps each property twice: as declared, and as a typed setting.  Merging treats the
two by different rules, and a value that does not read sets nothing.

* `Setting.Follows`            a setting says what the value of its property says;
* `Definition.Reachable`       the definitions of sections, merged in any order;
* `Definition.AgreesWithRaw`   what the typed settings have to do with the raw properties.

Main statement: every definition that can be reached agrees with its raw properties, and every
resolution gives such a definition (`agreesWithRaw_of_reachable`).
-/

namespace EditorConfig

/-! ## One setting -/

namespace Setting

variable {α : Type} {read : Text → Except Value.Fault α}

/-- A setting says what the value of its property says.  A value that does not read says nothing
about it. -/
structure Follows (read : Text → Except Value.Fault α) (declared : Option Text)
    (s : Setting α) : Prop where
  absent : declared = none → s = .absent
  unset : ∀ v, declared = some v → Value.isUnset v = true → s = .unset
  value : ∀ v a, declared = some v → read v = .ok a → s = .value a

/-- A section's own setting follows its property, when no value reads and is `unset` as well. -/
theorem follows_declared (hread : ∀ v a, read v = .ok a → Value.isUnset v = false) (name : Text)
    (ps : Properties) : (declared read name ps).Follows read (ps.get? name) where
  absent := declared_of_none
  unset := fun _ => declared_of_isUnset
  value := fun v a h ha => declared_of_ok h (hread v a ha) ha

/-- The nearer property decides where it is declared, and so does the nearer setting. -/
theorem Follows.or {s t : Setting α} {v w : Option Text} (hs : s.Follows read v)
    (ht : t.Follows read w) : (s.or t).Follows read (v.or w) := by
  cases v with
  | none =>
    rw [hs.absent rfl]
    exact ht
  | some v =>
    refine ⟨fun h => ?_, fun x hx hu => ?_, fun x a hx ha => ?_⟩
    · cases h
    · cases hx
      rw [hs.unset v rfl hu, unset_or]
    · cases hx
      rw [hs.value v a rfl ha, value_or]

end Setting

/-! ## Definitions -/

namespace Definition

/-- The definitions of sections and the empty one, merged in any order and nesting, for any
version. -/
inductive Reachable : Definition → Prop
  | empty : Reachable {}
  | ofProperties (ps : Properties) : Reachable (ofProperties ps)
  | merged {d parent : Definition} (hd : Reachable d) (hparent : Reachable parent) :
    Reachable (d.merged parent)
  | resolvedFor {d : Definition} (version : Option Version) (hd : Reachable d) :
    Reachable { d with version }

/-! ## One section -/

/-- The number that is the indent size of a section, if it is one. -/
def indentWidth? (ps : Properties) : Option Nat :=
  (ps.get? Property.indentSize).bind fun size => (Value.width size).toOption

theorem indentWidth?_eq_some {ps : Properties} {w : Nat} :
    indentWidth? ps = some w
      ↔ ∃ size, ps.get? Property.indentSize = some size ∧ Value.width size = .ok w := by
  unfold indentWidth?
  rw [Option.bind_eq_some_iff]
  refine exists_congr fun size => and_congr_right fun _ => ?_
  cases Value.width size with
  | error f => simp [Except.toOption]
  | ok n => simp [Except.toOption]

theorem declaredTabWidth_of_some {ps : Properties} {v : Text}
    (h : ps.get? Property.tabWidth = some v) :
    declaredTabWidth ps = Setting.declared Value.width Property.tabWidth ps := by
  rw [declaredTabWidth, Properties.contains, h]
  rfl

theorem declaredTabWidth_of_none {ps : Properties} (h : ps.get? Property.tabWidth = none) :
    declaredTabWidth ps = (indentWidth? ps).elim .absent .value := by
  rw [declaredTabWidth, Properties.contains, h, indentWidth?]
  cases ps.get? Property.indentSize with
  | none => rfl
  | some size => cases hw : Value.width size <;> simp [hw, Except.toOption]

/-- A tab width is positive.  It comes from its own property or from the indent size, is unset only
by its own, and is the indent size where that reads and its own is not declared. -/
structure FollowsWidths (own size : Option Text) (s : Setting Nat) : Prop where
  ne_zero : s ≠ .value 0
  absent : own = none → size = none → s = .absent
  unset : s = .unset → own.isSome = true
  implied : ∀ v w, own = none → size = some v → Value.width v = .ok w → s = .value w

theorem followsWidths_declaredTabWidth (ps : Properties) :
    FollowsWidths (ps.get? Property.tabWidth) (ps.get? Property.indentSize)
      (declaredTabWidth ps) := by
  have hzero (v : Text) : Value.width v ≠ .ok 0 := fun hw => (Value.width_eq_ok hw).2 rfl
  cases htab : ps.get? Property.tabWidth with
  | some v =>
    rw [declaredTabWidth_of_some htab]
    refine ⟨fun h => ?_, fun h => ?_, fun _ => rfl, fun _ _ h => ?_⟩
    · obtain ⟨x, -, hx⟩ := Setting.declared_eq_value h
      exact hzero x hx
    · cases h
    · cases h
  | none =>
    rw [declaredTabWidth_of_none htab]
    cases hw : indentWidth? ps with
    | none =>
      refine ⟨fun h => ?_, fun _ _ => rfl, fun h => ?_, fun v w _ hsize hv => ?_⟩
      · cases h
      · cases h
      · rw [indentWidth?_eq_some.2 ⟨v, hsize, hv⟩] at hw
        cases hw
    | some n =>
      obtain ⟨size, hsize, hn⟩ := indentWidth?_eq_some.1 hw
      rw [hsize]
      refine ⟨fun h => ?_, fun _ h => ?_, fun h => ?_, fun v w _ hv hw => ?_⟩
      · cases h
        exact hzero size hn
      · cases h
      · cases h
      · cases hv
        rw [hn] at hw
        cases hw
        rfl

theorem FollowsWidths.or {own own' size size' : Option Text} {s s' : Setting Nat}
    (h : FollowsWidths own size s) (h' : FollowsWidths own' size' s') :
    FollowsWidths (own.or own') (size.or size') (s.or s') where
  ne_zero := by
    cases s with
    | absent => exact h'.ne_zero
    | unset => exact h.ne_zero
    | value w => exact h.ne_zero
  absent := by
    intro hown hsize
    obtain ⟨hown, hown'⟩ := Option.or_eq_none_iff.1 hown
    obtain ⟨hsize, hsize'⟩ := Option.or_eq_none_iff.1 hsize
    rw [h.absent hown hsize]
    exact h'.absent hown' hsize'
  unset := by
    intro hs
    rw [Option.isSome_or]
    cases s with
    | absent => rw [h'.unset hs, Bool.or_true]
    | unset => rw [h.unset rfl, Bool.true_or]
    | value w => cases hs
  implied := by
    intro v w hown hsize hw
    obtain ⟨hown, hown'⟩ := Option.or_eq_none_iff.1 hown
    cases size with
    | some x =>
      cases hsize
      rw [h.implied v w hown rfl hw]
      rfl
    | none =>
      rw [h.absent hown rfl]
      exact h'.implied v w hown' hsize hw

/-! ## Every definition -/

/-- The typed settings and the raw properties agree.  Three texts follow their property in small
letters and one as it is, the truth values follow theirs as far as it reads, and the tab width
follows its own property and the indent size. -/
structure AgreesWithRaw (d : Definition) : Prop where
  charset : d.charset = (d.raw.get? Property.charset).map Text.lower
  indentStyle : d.indentStyle = (d.raw.get? Property.indentStyle).map Text.lower
  endOfLine : d.endOfLine = (d.raw.get? Property.endOfLine).map Text.lower
  indentSize : d.indentSize = d.raw.get? Property.indentSize
  trimTrailingWhitespace :
    d.trimTrailingWhitespace.Follows Value.truth (d.raw.get? Property.trimTrailingWhitespace)
  insertFinalNewline :
    d.insertFinalNewline.Follows Value.truth (d.raw.get? Property.insertFinalNewline)
  tabWidth :
    FollowsWidths (d.raw.get? Property.tabWidth) (d.raw.get? Property.indentSize) d.tabWidth

theorem agreesWithRaw_ofProperties (ps : Properties) : (ofProperties ps).AgreesWithRaw where
  charset := rfl
  indentStyle := rfl
  endOfLine := rfl
  indentSize := rfl
  trimTrailingWhitespace := Setting.follows_declared (fun _ _ => Value.not_isUnset_of_truth) _ ps
  insertFinalNewline := Setting.follows_declared (fun _ _ => Value.not_isUnset_of_truth) _ ps
  tabWidth := followsWidths_declaredTabWidth ps

theorem AgreesWithRaw.merged {d parent : Definition} (hd : d.AgreesWithRaw)
    (hp : parent.AgreesWithRaw) : (d.merged parent).AgreesWithRaw := by
  have hraw (name : Text) :
      (d.merged parent).raw.get? name = (d.raw.get? name).or (parent.raw.get? name) :=
    Properties.get?_or d.raw parent.raw name
  constructor <;> rw [hraw]
  case charset =>
    rw [Option.map_or, ← hd.charset, ← hp.charset]
    rfl
  case indentStyle =>
    rw [Option.map_or, ← hd.indentStyle, ← hp.indentStyle]
    rfl
  case endOfLine =>
    rw [Option.map_or, ← hd.endOfLine, ← hp.endOfLine]
    rfl
  case indentSize =>
    rw [← hd.indentSize, ← hp.indentSize]
    rfl
  case trimTrailingWhitespace => exact hd.trimTrailingWhitespace.or hp.trimTrailingWhitespace
  case insertFinalNewline => exact hd.insertFinalNewline.or hp.insertFinalNewline
  case tabWidth =>
    rw [hraw]
    exact hd.tabWidth.or hp.tabWidth

theorem Reachable.agreesWithRaw {d : Definition} (h : d.Reachable) : d.AgreesWithRaw := by
  induction h with
  | empty => exact agreesWithRaw_ofProperties .empty
  | ofProperties ps => exact agreesWithRaw_ofProperties ps
  | merged _ _ hd hparent => exact hd.merged hparent
  | resolvedFor version _ hd => exact { hd with }

end Definition

/-! ## Every resolution -/

/-- Adding matching sections leads from one reachable definition to another, whatever the matcher
has in its cache. -/
theorem Matcher.reachable_addMatching [Regex.Engine] (m : Matcher) (path : Text) {r : Resolution}
    (hr : r.definition.Reachable) (ss : List Section) :
    (m.addMatching path r ss).1.definition.Reachable := by
  induction ss generalizing m r with
  | nil => exact hr
  | cons s ss ih =>
    rw [addMatching]
    split
    · exact ih _ (hr.merged (.ofProperties s.properties))
    · exact ih _ hr

namespace Resolver

variable {r : Resolver} {src : Source}

theorem reachable_walk [Regex.Engine] {found res : Resolution} {s : Session}
    {dirs : List (List Text × List Text)} (hfound : found.definition.Reachable)
    (h : (r.walk src found s dirs).1 = .ok res) :
    res.definition.Reachable := by
  induction dirs generalizing found s with
  | nil =>
    cases h
    exact hfound
  | cons d dirs ih =>
    obtain ⟨dir, rest⟩ := d
    rw [walk] at h
    split at h
    · split at h
      · exact ih hfound h
      · cases h
    · next file reader _ =>
      have hgiven : (s.matcher.resolution file (Path.below rest)).1.definition.Reachable :=
        Matcher.reachable_addMatching _ _ .empty _
      have hadded := hfound.merged hgiven
      simp only at h
      split at h
      · cases h
        exact hadded
      · exact ih hadded h

theorem reachable_resolve [Regex.Engine] {home : Option Text} {target : Text} {s : Session}
    {res : Resolution} (h : (r.resolve home src target s).1 = .ok res) :
    res.definition.Reachable := by
  unfold resolve at h
  split at h
  · cases h
  · split at h
    · cases h
    · next version _ =>
      split at h
      · cases h
      · next found _ hwalk =>
        cases h
        have hfound : found.definition.Reachable := reachable_walk .empty (congrArg Prod.fst hwalk)
        exact hfound.resolvedFor version

end Resolver

/-- **Typed settings agree with the raw properties** in every definition that is merged from those
of sections, in any order and nesting, and every resolution gives such a definition. -/
theorem Definition.agreesWithRaw_of_reachable [Regex.Engine] :
    (∀ d : Definition, d.Reachable → d.AgreesWithRaw) ∧
      ∀ (r : Resolver) (home : Option Text) (src : Source) (target : Text) (s : Session)
        (res : Resolution), (r.resolve home src target s).1 = .ok res →
        res.definition.Reachable ∧ res.definition.AgreesWithRaw :=
  ⟨fun _ h => h.agreesWithRaw, fun _ _ _ _ _ _ h =>
    have hreachable := Resolver.reachable_resolve h
    ⟨hreachable, hreachable.agreesWithRaw⟩⟩

/-- A value that does not read is kept as declared, and a farther one sets what it leaves absent. -/
theorem Definition.agreesWithRaw_of_reachable_maybe :
    let near : Properties := .ofList [(Property.trimTrailingWhitespace, "maybe".toList)]
    let far : Properties := .ofList [(Property.trimTrailingWhitespace, "true".toList)]
    let d := (Definition.ofProperties near).merged (Definition.ofProperties far)
    let src : Source := fun _ => .ok { isRoot := true, sections := [⟨['*'], near⟩] }
    d.Reachable ∧ d.AgreesWithRaw ∧
      d.raw.get? Property.trimTrailingWhitespace = some "maybe".toList ∧
      d.trimTrailingWhitespace = .value true ∧
      ∃ res, (({} : Resolver).resolve none src "/x".toList {}).1 = .ok res ∧
        res.definition.AgreesWithRaw := by
  intro near far d src
  have hreachable : d.Reachable := .merged (.ofProperties near) (.ofProperties far)
  have hresolved : ∃ res, (({} : Resolver).resolve none src "/x".toList {}).1 = .ok res :=
    ⟨_, rfl⟩
  obtain ⟨hagrees, hevery⟩ := agreesWithRaw_of_reachable
  obtain ⟨res, hres⟩ := hresolved
  exact ⟨hreachable, hagrees d hreachable, by decide, by decide, res, hres,
    (hevery _ _ _ _ _ res hres).2⟩

end EditorConfig
