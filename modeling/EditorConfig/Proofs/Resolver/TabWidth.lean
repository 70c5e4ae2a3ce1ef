import EditorConfig.Proofs.Definition.Agreement
import EditorConfig.Proofs.Resolver.Precedence
import EditorConfig.Proofs.Resolver.Transparency
import EditorConfig.Proofs.Selector.Basename

/-!
# A declared tab width among other sections

A section without a tab width takes its indent size for one, before it is merged with the others.

* `Resolver.MadeOf`             the definitions that are made of matching sections;
* `Definition.FirstTabWidth`    the tab width that is declared first, and the sections before it.

Main statement: the tab width that is declared first is the one of the definition exactly when no
section before it has another number for its indent size (`tabWidth_eq_iff`).
-/

namespace EditorConfig

/-! ## Where a definition comes from -/

/-- A resolution and a single config file make their definitions of the sections that match, the
nearest one first.  Caches may be at work, as long as they are faithful. -/
inductive Resolver.MadeOf [Regex.Engine] : List Section → Definition → Prop
  | target {r : Resolver} {home : Option Text} {src : Source} {target : Text} {names : List Text}
    {s : Session} {res : Resolution} (hs : s.Faithful r src)
    (hn : Path.absolute? home target = some names) (h : (r.resolve home src target s).1 = .ok res) :
    MadeOf (r.sections src names) res.definition
  | file {m : Matcher} (hm : m.Faithful) (file : Snapshot) (path : Text) :
    MadeOf (file.sections.reverse.filter fun s => Selector.selects s.selector path)
      (m.resolution file path).1.definition

theorem Resolver.MadeOf.tabWidth_eq [Regex.Engine] {ss : List Section} {d : Definition}
    (h : MadeOf ss d) : d.tabWidth = (Definition.stacked ss).tabWidth := by
  cases h with
  | @target _ home _ target _ _ _ hs hn h =>
    rw [(Session.resolve_faithful hs home target).1] at h
    obtain ⟨version, -, rfl⟩ := resolve_eq_ok hn h
    rw [Resolution.empty_stackedOn]
  | file hm file path =>
    rw [(Matcher.faithful_resolution hm file path).1, Resolution.empty_stackedOn]

namespace Definition

/-! ## Stacked sections -/

/-- The first section that declares a tab width stands behind the sections `near`, and what it
declares is a positive number or `unset`. -/
def FirstTabWidth (ss near : List Section) (tab : Setting Nat) : Prop :=
  ∃ s far v, ss = near ++ s :: far ∧
    (∀ n ∈ near, n.properties.get? Property.tabWidth = none) ∧
    s.properties.get? Property.tabWidth = some v ∧
    (Value.isUnset v = true ∧ tab = .unset ∨ ∃ w, Value.width v = .ok w ∧ tab = .value w)

/-- The first indent size that is a number. -/
def firstIndentWidth? (ss : List Section) : Option Nat :=
  ss.findSome? fun s => indentWidth? s.properties

theorem firstIndentWidth?_cons (s : Section) (ss : List Section) :
    firstIndentWidth? (s :: ss) = (indentWidth? s.properties).or (firstIndentWidth? ss) := by
  rw [firstIndentWidth?, List.findSome?_cons]
  cases indentWidth? s.properties with
  | none => rfl
  | some w => rfl

/-- Sections without a tab width take the first indent size that is a number. -/
theorem tabWidth_stacked_of_none {ss : List Section}
    (h : ∀ s ∈ ss, s.properties.get? Property.tabWidth = none) :
    (stacked ss).tabWidth = (firstIndentWidth? ss).elim .absent .value := by
  induction ss with
  | nil => rfl
  | cons s ss ih =>
    have hs := h s List.mem_cons_self
    have hss := ih fun t ht => h t (List.mem_cons_of_mem _ ht)
    show (declaredTabWidth s.properties).or (stacked ss).tabWidth = _
    rw [declaredTabWidth_of_none hs, hss, firstIndentWidth?_cons]
    cases indentWidth? s.properties with
    | none => rfl
    | some w => rfl

/-- The tab width that is declared first, unless a section before it has a number for its indent
size. -/
theorem tabWidth_stacked {ss near : List Section} {tab : Setting Nat}
    (h : FirstTabWidth ss near tab) :
    (stacked ss).tabWidth = (firstIndentWidth? near).elim tab .value := by
  obtain ⟨s, far, v, rfl, hnear, hv, htab⟩ := h
  have hs : declaredTabWidth s.properties = tab := by
    rw [declaredTabWidth_of_some hv]
    rcases htab with ⟨hu, rfl⟩ | ⟨w, hw, rfl⟩
    · exact Setting.declared_of_isUnset hv hu
    · exact Setting.declared_of_ok hv (Value.not_isUnset_of_width hw) hw
  have hset (t : Setting Nat) : tab.or t = tab := by
    rcases htab with ⟨-, rfl⟩ | ⟨w, -, rfl⟩
    · rfl
    · rfl
  rw [stacked_append, stacked_cons]
  show (stacked near).tabWidth.or ((declaredTabWidth s.properties).or _) = _
  rw [hs, hset, tabWidth_stacked_of_none hnear]
  cases firstIndentWidth? near with
  | none => rfl
  | some w => rfl

/-- **When a declared tab width stands.**  The tab width that is declared first among the matching
sections is the one of the definition exactly when no section before it has an indent size that is
a number, or the first such number is the same. -/
theorem tabWidth_eq_iff [Regex.Engine] {ss near : List Section} {d : Definition} {tab : Setting Nat}
    (hd : Resolver.MadeOf ss d) (h : FirstTabWidth ss near tab) :
    d.tabWidth = tab ↔ ∀ w, firstIndentWidth? near = some w → tab = .value w := by
  rw [hd.tabWidth_eq, tabWidth_stacked h]
  cases firstIndentWidth? near with
  | none => simp
  | some w =>
    show Setting.value w = tab ↔ _
    constructor
    · intro hw x hx
      cases hx
      exact hw.symm
    · intro hw
      exact (hw w rfl).symm

/-! ## One config file -/

/-- A config file with a tab width in its first section and an indent size in its last one. -/
def sized (size : Text) : Snapshot where
  sections := [⟨['*'], .ofList [(Property.tabWidth, ['4'])]⟩,
    ⟨['*'], .ofList [(Property.indentSize, size)]⟩]

theorem selects_star [Regex.Engine] : Selector.selects ['*'] "/x".toList = true :=
  (Selector.selects_star_iff (d := []) (b := ['x']) rfl (by decide) (.inl rfl)).2 (by decide)

theorem madeOf_sized [Regex.Engine] (size : Text) :
    Resolver.MadeOf (sized size).sections.reverse
      (({} : Matcher).resolution (sized size) "/x".toList).1.definition := by
  have hall : (sized size).sections.reverse.filter
      (fun s => Selector.selects s.selector "/x".toList) = (sized size).sections.reverse := by
    have hstar : ∀ s ∈ (sized size).sections.reverse, s.selector = ['*'] := by simp [sized]
    rw [List.filter_eq_self]
    intro s hs
    rw [hstar s hs, selects_star]
  have hmade := Resolver.MadeOf.file (m := {}) (Matcher.faithful_uncached rfl) (sized size)
    "/x".toList
  rwa [hall] at hmade

theorem firstTabWidth_sized (size : Text) :
    FirstTabWidth (sized size).sections.reverse
      [⟨['*'], .ofList [(Property.indentSize, size)]⟩] (.value 4) := by
  refine ⟨⟨['*'], .ofList [(Property.tabWidth, ['4'])]⟩, [], ['4'], rfl, ?_, rfl, ?_⟩
  · intro s hs
    obtain rfl := List.mem_singleton.1 hs
    rfl
  · exact .inr ⟨4, rfl, rfl⟩

/-- An indent size that is no number leaves the tab width as it is declared. -/
theorem tabWidth_eq_iff_sized :
    let ss := (sized "tab".toList).sections.reverse
    let d := (({} : Matcher).resolution (sized "tab".toList) "/x".toList).1.definition
    Resolver.MadeOf ss d ∧ (∃ near, FirstTabWidth ss near (.value 4)) ∧ d.tabWidth = .value 4 := by
  refine ⟨madeOf_sized _, ⟨_, firstTabWidth_sized _⟩, ?_⟩
  apply (tabWidth_eq_iff (madeOf_sized "tab".toList) (firstTabWidth_sized "tab".toList)).2
  intro w hw
  have hnone :
      firstIndentWidth? [⟨['*'], .ofList [(Property.indentSize, "tab".toList)]⟩] = none := by
    rfl
  rw [hnone] at hw
  cases hw

/-- An indent size that is a number takes the place of the tab width that is declared. -/
theorem tabWidth_displaced :
    let ss := (sized ['2']).sections.reverse
    let d := (({} : Matcher).resolution (sized ['2']) "/x".toList).1.definition
    Resolver.MadeOf ss d ∧ (∃ near, FirstTabWidth ss near (.value 4)) ∧ d.tabWidth = .value 2 := by
  refine ⟨madeOf_sized _, ⟨_, firstTabWidth_sized _⟩, ?_⟩
  rw [(madeOf_sized ['2']).tabWidth_eq, tabWidth_stacked (firstTabWidth_sized ['2'])]
  rfl

end Definition

end EditorConfig
