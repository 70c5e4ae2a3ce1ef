import EditorConfig.Proofs.Definition.Report
import EditorConfig.Proofs.Text.Case
import EditorConfig.Proofs.Text.Decimal

/-!
# Reading a report

A report is a map of properties, so it declares a definition in its turn.

* `Setting.Written`              a value is written the way its setting is;
* `Setting.Heeds`                a setting is absent only where its property says nothing;
* `Definition.Settled`           the values are written like the typed settings, and nothing is
                                 filled in;
* `Definition.PlainIndentSize`   a number for an indent size has no sign and no leading zeros;
* `Definition.reread`            the definition that a report declares.

Main statement: the report of a definition that can be reached declares a definition with the same
report (`report_reread`).
-/

namespace EditorConfig

/-! ## One setting -/

namespace Setting

variable {α : Type} {read : Text → Except Value.Fault α} {write : α → Text}

/-- The value is written the way its setting is. -/
structure Written (read : Text → Except Value.Fault α) (write : α → Text) (v : Text) : Prop where
  unset : Value.isUnset v = true → v = Value.unset
  value : ∀ a, read v = .ok a → write a = v

/-- What a section declares by such a value is written as the value again. -/
theorem Written.getD_text? {v : Text} (h : Written read write v) {name : Text} {ps : Properties}
    (hv : ps.get? name = some v) : ((declared read name ps).text? write).getD v = v := by
  cases hu : Value.isUnset v with
  | true =>
    rw [declared_of_isUnset hv hu]
    exact (h.unset hu).symm
  | false =>
    cases ha : read v with
    | ok a =>
      rw [declared_of_ok hv hu ha]
      exact h.value a ha
    | error f =>
      rw [declared_of_error hv hu ha]
      rfl

/-- The setting is absent only where its property says nothing. -/
def Heeds (read : Text → Except Value.Fault α) (own : Option Text) (s : Setting α) : Prop :=
  s = .absent → ∀ v, own = some v → Value.isUnset v = false ∧ ∀ a, read v ≠ .ok a

theorem Follows.heeds {own : Option Text} {s : Setting α} (h : s.Follows read own) :
    s.Heeds read own := by
  rintro rfl v hv
  refine ⟨?_, fun a ha => ?_⟩
  · rw [← Bool.not_eq_true]
    intro hu
    cases h.unset v hv hu
  · cases h.value v a hv ha

theorem Heeds.or {own own' : Option Text} {s s' : Setting α} (h : s.Heeds read own)
    (h' : s'.Heeds read own') : (s.or s').Heeds read (own.or own') := by
  cases s with
  | absent =>
    intro hs v hv
    rcases Option.or_eq_some_iff.1 hv with hv | ⟨-, hv⟩
    · exact h rfl v hv
    · exact h' hs v hv
  | unset =>
    intro hs
    cases hs
  | value a =>
    intro hs
    cases hs

/-- The typed form of a value is written in the way of the setting. -/
theorem Heeds.written {v : Text} {s : Setting α} (h : s.Heeds read (some v))
    (hunset : Written read write Value.unset) (hwrite : ∀ a, Written read write (write a)) :
    Written read write ((s.text? write).getD v) := by
  cases s with
  | absent =>
    obtain ⟨hu, hread⟩ := h rfl v rfl
    refine ⟨fun hu' => ?_, fun a ha => absurd ha (hread a)⟩
    rw [text?, Option.getD_none, hu] at hu'
    cases hu'
  | unset => exact hunset
  | value a => exact hwrite a

end Setting

namespace Value

open Setting (Written)

theorem written_truth_unset : Written truth ofTruth unset := ⟨fun _ => rfl, fun _ h => nomatch h⟩

theorem written_ofTruth (b : Bool) : Written truth ofTruth (ofTruth b) := by
  have hread : truth (ofTruth b) = .ok b := by cases b <;> rfl
  refine ⟨fun hu => ?_, fun a ha => ?_⟩
  · rw [not_isUnset_of_truth hread] at hu
    cases hu
  · rw [hread] at ha
    cases ha
    rfl

theorem written_width_unset : Written width Decimal.nat unset :=
  ⟨fun _ => rfl, fun _ h => nomatch h⟩

/-- The number need not be small enough to be read back. -/
theorem written_nat (n : Nat) : Written width Decimal.nat (Decimal.nat n) := by
  refine ⟨fun hu => ?_, fun w hw => ?_⟩
  · have hmap : (Decimal.nat n).map Char.toLower = Decimal.nat n := by
      have hdigits (c : Char) (hc : c ∈ Decimal.nat n) : c.toLower = c :=
        toLower_of_isDigit (Decimal.isDigit_of_mem_nat hc)
      rw [List.map_congr_left hdigits, List.map_id']
    have heq := hmap.symm.trans (map_toLower_of_isUnset hu)
    have hdigit : Char.isDigit 'u' = true :=
      Decimal.isDigit_of_mem_nat (n := n) (heq ▸ List.mem_cons_self)
    exact absurd hdigit (by decide)
  · rw [Decimal.eq_of_readBelow_nat (width_eq_ok hw).1]

/-- A width without a sign or leading zeros. -/
theorem written_of_width {v : Text} {w : Nat} (h : width v = .ok w) (hplus : v.head? ≠ some '+')
    (hzero : v.head? ≠ some '0') : Written width Decimal.nat v := by
  rw [Decimal.eq_nat_of_readBelow (width_eq_ok h).1 hplus hzero]
  exact written_nat w

end Value

namespace Definition

/-! ## Settled definitions -/

/-- The values are written like the typed settings, and neither width is filled in. -/
structure Settled (d : Definition) : Prop where
  written : ∀ name v, d.raw.get? name = some v → (d.typedText? name).getD v = v
  indentSize : d.impliedIndentSize? = none
  tabWidth : d.impliedTabWidth? = none

theorem Settled.report_eq {d : Definition} (h : d.Settled) : d.report = d.raw := by
  apply Properties.ext_get?
  intro name
  rw [get?_report, h.indentSize, h.tabWidth, ite_self, ite_self, Option.none_or, Option.none_or]
  cases hv : d.raw.get? name with
  | none => rfl
  | some v => exact congrArg some (h.written name v hv)

/-! ## The tab width and its property -/

theorem heeds_declaredTabWidth (ps : Properties) :
    (declaredTabWidth ps).Heeds Value.width (ps.get? Property.tabWidth) := by
  cases hv : ps.get? Property.tabWidth with
  | none =>
    intro _ v hv
    cases hv
  | some v =>
    rw [declaredTabWidth_of_some hv, ← hv]
    exact (Setting.follows_declared (fun _ _ => Value.not_isUnset_of_width) _ ps).heeds

/-- A nearer indent size may take the place of what the property says, but not leave it out. -/
theorem Reachable.heeds_tabWidth {d : Definition} (h : d.Reachable) :
    d.tabWidth.Heeds Value.width (d.raw.get? Property.tabWidth) := by
  induction h with
  | empty => exact heeds_declaredTabWidth .empty
  | ofProperties ps => exact heeds_declaredTabWidth ps
  | @merged d parent _ _ hd hparent =>
    have hraw : (d.merged parent).raw.get? Property.tabWidth
        = (d.raw.get? Property.tabWidth).or (parent.raw.get? Property.tabWidth) :=
      Properties.get?_or d.raw parent.raw Property.tabWidth
    rw [hraw]
    exact hd.or hparent
  | resolvedFor _ _ hd => exact hd

/-! ## The values of a report -/

/-- An indent size that is a number has no sign and no leading zeros. -/
def PlainIndentSize (d : Definition) : Prop :=
  ∀ size w, d.raw.get? Property.indentSize = some size → Value.width size = .ok w →
    size.head? ≠ some '+' ∧ size.head? ≠ some '0'

variable {d : Definition} {name v : Text}

theorem get?_report_indentSize (h : d.AgreesWithRaw) :
    d.report.get? Property.indentSize = d.impliedIndentSize?.or d.indentSize := by
  have htab : Property.tabWidth ≠ Property.indentSize := by decide
  have htyped : d.typedText? Property.indentSize = d.raw.get? Property.indentSize := h.indentSize
  rw [get?_report, if_neg htab, if_pos rfl, Option.none_or, h.indentSize, htyped]
  cases d.raw.get? Property.indentSize <;> rfl

/-- A text that follows its property in small letters is reported in small letters. -/
theorem get?_report_lower (htab : Property.tabWidth ≠ name) (hsize : Property.indentSize ≠ name)
    (htyped : d.typedText? name = (d.raw.get? name).map Text.lower) :
    d.report.get? name = (d.raw.get? name).map Text.lower := by
  rw [get?_report_of_ne htab hsize, htyped]
  cases d.raw.get? name <;> rfl

theorem map_lower_report (htab : Property.tabWidth ≠ name) (hsize : Property.indentSize ≠ name)
    (htyped : d.typedText? name = (d.raw.get? name).map Text.lower) :
    (d.report.get? name).map Text.lower = d.report.get? name := by
  rw [get?_report_lower htab hsize htyped]
  cases d.raw.get? name with
  | none => rfl
  | some r => exact congrArg some (Text.lower_lower r)

/-- A truth value is reported as it is written. -/
theorem written_truth {s : Setting Bool} (htab : Property.tabWidth ≠ name)
    (hsize : Property.indentSize ≠ name) (htyped : d.typedText? name = s.text? Value.ofTruth)
    (hs : s.Follows Value.truth (d.raw.get? name)) (hv : d.report.get? name = some v) :
    Setting.Written Value.truth Value.ofTruth v := by
  rw [get?_report_of_ne htab hsize, htyped] at hv
  obtain ⟨r, hr, rfl⟩ := Option.map_eq_some_iff.1 hv
  rw [hr] at hs
  exact hs.heeds.written Value.written_truth_unset Value.written_ofTruth

theorem written_impliedTabWidth (h : d.AgreesWithRaw) (hplain : d.PlainIndentSize)
    (hv : d.impliedTabWidth? = some v) : Setting.Written Value.width Decimal.nat v := by
  cases hraw : d.raw.get? Property.tabWidth with
  | some width =>
    rw [impliedTabWidth?_of_some hraw] at hv
    cases hv
  | none =>
    rw [impliedTabWidth?_of_none hraw] at hv
    obtain ⟨size, hsize, hv⟩ := Option.bind_eq_some_iff.1 hv
    split at hv
    · cases hv
      exact Value.written_width_unset
    split at hv
    · next hok =>
      cases hv
      rw [h.indentSize] at hsize
      cases hw : Value.width v with
      | error f =>
        rw [hw] at hok
        cases hok
      | ok w =>
        obtain ⟨hplus, hzero⟩ := hplain v w hsize hw
        exact Value.written_of_width hw hplus hzero
    · cases hv

/-- The tab width is reported as it is written, if the indent size is plain. -/
theorem written_tabWidth (hd : d.Reachable) (hplain : d.PlainIndentSize)
    (hv : d.report.get? Property.tabWidth = some v) :
    Setting.Written Value.width Decimal.nat v := by
  rw [get?_report_tabWidth] at hv
  rcases Option.or_eq_some_iff.1 hv with himplied | ⟨-, hdeclared⟩
  · exact written_impliedTabWidth hd.agreesWithRaw hplain himplied
  · obtain ⟨r, hr, rfl⟩ := Option.map_eq_some_iff.1 hdeclared
    have hheeds := hd.heeds_tabWidth
    rw [hr] at hheeds
    exact hheeds.written Value.written_width_unset Value.written_nat

/-! ## The definition of a report -/

/-- The definition that the report declares, for the same version. -/
def reread (d : Definition) : Definition := { ofProperties d.report with version := d.version }

theorem written_reread (hd : d.Reachable) (hplain : d.PlainIndentSize)
    (hv : d.reread.raw.get? name = some v) : (d.reread.typedText? name).getD v = v := by
  have hagrees := hd.agreesWithRaw
  have hv : d.report.get? name = some v := hv
  have small (htab : Property.tabWidth ≠ name) (hsize : Property.indentSize ≠ name)
      (htyped : d.typedText? name = (d.raw.get? name).map Text.lower) :
      ((d.report.get? name).map Text.lower).getD v = v := by
    rw [map_lower_report htab hsize htyped, hv]
    rfl
  unfold typedText?
  split
  · next h =>
    subst h
    exact small (by decide) (by decide) hagrees.charset
  split
  · next h =>
    subst h
    exact small (by decide) (by decide) hagrees.indentStyle
  split
  · next h =>
    subst h
    exact congrArg (Option.getD · v) hv
  split
  · next h =>
    subst h
    exact small (by decide) (by decide) hagrees.endOfLine
  split
  · next h =>
    subst h
    show ((declaredTabWidth d.report).text? Decimal.nat).getD v = v
    rw [declaredTabWidth_of_some hv]
    exact (written_tabWidth hd hplain hv).getD_text? hv
  split
  · next h =>
    subst h
    have hwritten := written_truth (by decide) (by decide) rfl hagrees.trimTrailingWhitespace hv
    exact hwritten.getD_text? hv
  split
  · next h =>
    subst h
    have hwritten := written_truth (by decide) (by decide) rfl hagrees.insertFinalNewline hv
    exact hwritten.getD_text? hv
  rfl

theorem reportsTabSize_reread (h : d.AgreesWithRaw) :
    d.reread.reportsTabSize = d.reportsTabSize := by
  have htab : Property.tabWidth ≠ Property.indentStyle := by decide
  have hsize : Property.indentSize ≠ Property.indentStyle := by decide
  have htyped : d.typedText? Property.indentStyle
      = (d.raw.get? Property.indentStyle).map Text.lower := h.indentStyle
  have hstyle : d.reread.indentStyle = d.indentStyle := by
    show (d.report.get? Property.indentStyle).map Text.lower = _
    rw [map_lower_report htab hsize htyped, get?_report_lower htab hsize htyped, h.indentStyle]
  rw [reportsTabSize, hstyle]
  rfl

/-- Where nothing gives a tab width, the report gives none either. -/
theorem tabWidth_reread_of_absent (hd : d.Reachable) (htab : d.tabWidth = .absent)
    (hsize : d.report.get? Property.indentSize = none) : d.reread.tabWidth = .absent := by
  have hindent : d.indentSize = none := by
    rw [get?_report_indentSize hd.agreesWithRaw] at hsize
    exact (Option.or_eq_none_iff.1 hsize).2
  have himplied : d.impliedTabWidth? = none := by
    rw [impliedTabWidth?, hindent]
    exact ite_self _
  have hreport : d.report.get? Property.tabWidth = d.raw.get? Property.tabWidth := by
    rw [get?_report_tabWidth, himplied, htab]
    cases d.raw.get? Property.tabWidth <;> rfl
  show declaredTabWidth d.report = .absent
  cases hv : d.raw.get? Property.tabWidth with
  | none =>
    rw [declaredTabWidth_of_none (hreport.trans hv), indentWidth?, hsize]
    rfl
  | some v =>
    obtain ⟨hu, hread⟩ := hd.heeds_tabWidth htab v hv
    rw [declaredTabWidth_of_some (hreport.trans hv)]
    cases hw : Value.width v with
    | ok w => exact absurd hw (hread w)
    | error f => exact Setting.declared_of_error (hreport.trans hv) hu hw

theorem impliedIndentSize?_reread (hd : d.Reachable) : d.reread.impliedIndentSize? = none := by
  have hagrees := hd.agreesWithRaw
  cases hsize : d.report.get? Property.indentSize with
  | some size => exact impliedIndentSize?_of_some (d := d.reread) hsize
  | none =>
    obtain ⟨himplied, hindent⟩ :=
      Option.or_eq_none_iff.1 ((get?_report_indentSize hagrees).symm.trans hsize)
    rw [impliedIndentSize?_of_none (hagrees.indentSize.symm.trans hindent)] at himplied
    rw [impliedIndentSize?_of_none (d := d.reread) hsize]
    cases htab : d.tabWidth with
    | absent =>
      rw [htab] at himplied
      rw [tabWidth_reread_of_absent hd htab hsize, reportsTabSize_reread hagrees]
      exact himplied
    | unset =>
      have hunset : d.reread.tabWidth = .unset := by
        have hv := hagrees.reportsTabWidth.unset htab
        exact (declaredTabWidth_of_some hv).trans (Setting.declared_of_isUnset hv rfl)
      rw [hunset]
    | value w =>
      rw [htab] at himplied
      cases w with
      | zero => exact absurd htab hagrees.tabWidth.ne_zero
      | succ w => cases himplied

theorem impliedTabWidth?_reread (hd : d.Reachable) : d.reread.impliedTabWidth? = none := by
  have hagrees := hd.agreesWithRaw
  cases htab : d.report.get? Property.tabWidth with
  | some width => exact impliedTabWidth?_of_some (d := d.reread) htab
  | none =>
    obtain ⟨himplied, hraw⟩ := Option.or_eq_none_iff.1 ((get?_report_tabWidth d).symm.trans htab)
    have hraw : d.raw.get? Property.tabWidth = none := Option.map_eq_none_iff.1 hraw
    have hindent : d.reread.indentSize = d.impliedIndentSize?.or d.indentSize :=
      get?_report_indentSize hagrees
    rw [impliedTabWidth?_of_none hraw] at himplied
    rw [impliedTabWidth?_of_none (d := d.reread) htab, hindent]
    cases hsize : d.raw.get? Property.indentSize with
    | some size =>
      rw [impliedIndentSize?_of_some hsize, Option.none_or]
      exact himplied
    | none =>
      have habsent : d.tabWidth = .absent := hagrees.tabWidth.absent hraw hsize
      rw [impliedIndentSize?_of_none hsize, habsent, hagrees.indentSize, hsize, Option.or_none]
      cases d.reportsTabSize <;> rfl

/-- **A report declares its own report.**  Take a definition that is merged from those of sections,
for any version, and whose indent size has no sign and no leading zeros if it is a number.  Then
the definition that its report declares, for the same version, has the same report. -/
theorem report_reread (hd : d.Reachable) (hplain : d.PlainIndentSize) :
    d.reread.report = d.report :=
  Settled.report_eq ⟨fun _ _ hv => written_reread hd hplain hv, impliedIndentSize?_reread hd,
    impliedTabWidth?_reread hd⟩

/-- The width that is filled in is declared the second time. -/
theorem report_reread_filled :
    let d : Definition := { ofProperties (.ofList [(Property.indentSize, "12".toList),
      (Property.indentStyle, "TAB".toList)]) with version := some tabSizeVersion }
    d.Reachable ∧ d.PlainIndentSize ∧ d.reread.report = d.report := by
  intro d
  have hd : d.Reachable := .resolvedFor (some tabSizeVersion) (.ofProperties _)
  have hplain : d.PlainIndentSize := by
    intro size w hsize _
    have hget : d.raw.get? Property.indentSize = some "12".toList := by decide
    obtain rfl := Option.some.inj (hget.symm.trans hsize)
    decide
  exact ⟨hd, hplain, report_reread hd hplain⟩

/-- The tab width is a copy of a signed indent size, until it is read as a number. -/
example :
    let d := ofProperties (.ofList [(Property.indentSize, "+4".toList)])
    d.report.get? Property.tabWidth = some "+4".toList ∧
      d.reread.report.get? Property.tabWidth = some "4".toList := by
  decide

end Definition

end EditorConfig
