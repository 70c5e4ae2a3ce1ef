import EditorConfig.Proofs.Definition.Agreement

/-!
# The tab width in a report

* `Definition.get?_report`       one property of a report;
* `Definition.ReportsTabWidth`   how the typed tab width shows in the report.

Main statement: in every definition that can be reached, a declared tab width is reported in its
typed form, and one that is not declared is reported as the indent size is spelled, which is the
same number (`reportsTabWidth_of_reachable`).
-/

namespace EditorConfig

theorem Properties.get?_filled (ps : Properties) (name query : Text) (filling : Option Text) :
    (match filling with
      | some value => ps.insert name value
      | none => ps).get? query
      = (if name = query then filling else none).or (ps.get? query) := by
  cases filling with
  | none => simp
  | some value =>
    rw [get?_insert]
    split <;> simp

namespace Definition

variable {d : Definition}

/-! ## Widths that are filled in -/

theorem impliedIndentSize?_of_some {size : Text}
    (h : d.raw.get? Property.indentSize = some size) : d.impliedIndentSize? = none := by
  rw [impliedIndentSize?, Properties.contains, h]
  rfl

theorem impliedIndentSize?_of_none (h : d.raw.get? Property.indentSize = none) :
    d.impliedIndentSize? = match d.tabWidth with
      | .unset => none
      | .value (w + 1) => some (Decimal.nat (w + 1))
      | _ => if d.reportsTabSize then some tab else none := by
  rw [impliedIndentSize?, Properties.contains, h]
  rfl

theorem impliedTabWidth?_of_some {width : Text}
    (h : d.raw.get? Property.tabWidth = some width) : d.impliedTabWidth? = none := by
  rw [impliedTabWidth?, Properties.contains, h]
  rfl

theorem impliedTabWidth?_of_none (h : d.raw.get? Property.tabWidth = none) :
    d.impliedTabWidth? = d.indentSize.bind fun size =>
      if Value.isUnset size then some Value.unset
      else if (Value.width size).isOk then some size
      else none := by
  rw [impliedTabWidth?, Properties.contains, h]
  cases d.indentSize <;> rfl

/-! ## One property -/

/-- A width that is filled in hides what is declared under its name. -/
theorem get?_report (d : Definition) (name : Text) :
    d.report.get? name
      = (if Property.tabWidth = name then d.impliedTabWidth? else none).or
          ((if Property.indentSize = name then d.impliedIndentSize? else none).or
            ((d.raw.get? name).map fun value => (d.typedText? name).getD value)) := by
  refine (Properties.get?_filled _ Property.tabWidth name d.impliedTabWidth?).trans ?_
  refine congrArg (Option.or _) ?_
  refine (Properties.get?_filled _ Property.indentSize name d.impliedIndentSize?).trans ?_
  rw [Properties.get?_mapValues]

theorem get?_report_of_ne {name : Text} (htab : Property.tabWidth ≠ name)
    (hsize : Property.indentSize ≠ name) :
    d.report.get? name = (d.raw.get? name).map fun value => (d.typedText? name).getD value := by
  rw [get?_report, if_neg htab, if_neg hsize, Option.none_or, Option.none_or]

theorem get?_report_tabWidth (d : Definition) :
    d.report.get? Property.tabWidth
      = d.impliedTabWidth?.or
          ((d.raw.get? Property.tabWidth).map fun value =>
            (d.tabWidth.text? Decimal.nat).getD value) := by
  have hsize : Property.indentSize ≠ Property.tabWidth := by decide
  rw [get?_report, if_pos rfl, if_neg hsize, Option.none_or]
  rfl

/-- A tab width that is declared and set is reported in its typed form. -/
theorem get?_report_of_declared {t : Text} (h : (d.raw.get? Property.tabWidth).isSome = true)
    (ht : d.tabWidth.text? Decimal.nat = some t) :
    d.report.get? Property.tabWidth = some t := by
  obtain ⟨v, hv⟩ := Option.isSome_iff_exists.1 h
  rw [get?_report_tabWidth, impliedTabWidth?_of_some hv, hv, ht]
  rfl

/-- An undeclared tab width is reported as the indent size is spelled, where that reads. -/
theorem get?_report_of_indentSize {size : Text} {w : Nat}
    (h : d.raw.get? Property.tabWidth = none) (hsize : d.indentSize = some size)
    (hw : Value.width size = .ok w) : d.report.get? Property.tabWidth = some size := by
  have himplied : d.impliedTabWidth? = some size := by
    rw [impliedTabWidth?_of_none h, hsize]
    simp [Value.not_isUnset_of_width hw, hw, Except.isOk, Except.toBool]
  rw [get?_report_tabWidth, himplied]
  rfl

/-! ## Both views -/

/-- The typed tab width shows in the report.  An unset one is reported as `unset`, a declared one
by its number.  One that is not declared is reported as the indent size is spelled, if that is a
number, and then it is the same number. -/
structure ReportsTabWidth (d : Definition) : Prop where
  unset : d.tabWidth = .unset → d.report.get? Property.tabWidth = some Value.unset
  declared : ∀ w, d.tabWidth = .value w → (d.raw.get? Property.tabWidth).isSome = true →
    d.report.get? Property.tabWidth = some (Decimal.nat w)
  implied : ∀ w, d.tabWidth = .value w → d.raw.get? Property.tabWidth = none →
    ∃ size, d.indentSize = some size ∧ ∀ n, Value.width size = .ok n →
      n = w ∧ d.report.get? Property.tabWidth = some size

theorem AgreesWithRaw.reportsTabWidth (h : d.AgreesWithRaw) : d.ReportsTabWidth where
  unset := by
    intro htab
    apply get?_report_of_declared (h.tabWidth.unset htab)
    rw [htab]
    rfl
  declared := by
    intro w htab hraw
    apply get?_report_of_declared hraw
    rw [htab]
    rfl
  implied := by
    intro w htab hraw
    cases hsize : d.raw.get? Property.indentSize with
    | none =>
      rw [h.tabWidth.absent hraw hsize] at htab
      cases htab
    | some size =>
      have hindent : d.indentSize = some size := h.indentSize.trans hsize
      refine ⟨size, hindent, fun n hn => ?_⟩
      have hvalue : d.tabWidth = .value n := h.tabWidth.implied size n hraw hsize hn
      rw [htab] at hvalue
      cases hvalue
      exact ⟨rfl, get?_report_of_indentSize hraw hindent hn⟩

/-- **The typed tab width shows in the report** of every definition that is merged from those of
sections, and so of every resolution. -/
theorem reportsTabWidth_of_reachable [Regex.Engine] :
    (∀ d : Definition, d.Reachable → d.ReportsTabWidth) ∧
      ∀ (r : Resolver) (home : Option Text) (src : Source) (target : Text) (s : Session)
        (res : Resolution), (r.resolve home src target s).1 = .ok res →
        res.definition.ReportsTabWidth :=
  ⟨fun _ h => h.agreesWithRaw.reportsTabWidth, fun _ _ _ _ _ _ h =>
    (Resolver.reachable_resolve h).agreesWithRaw.reportsTabWidth⟩

/-- The report spells a number like the indent size; and an indent size that is no number hides a
farther one, which still gives the typed tab width. -/
theorem report_tabWidth_unlike_typed :
    let signed := ofProperties (.ofList [(Property.indentSize, "+4".toList)])
    let hidden := (ofProperties (.ofList [(Property.indentSize, Value.unset)])).merged
      (ofProperties (.ofList [(Property.indentSize, ['4'])]))
    (signed.Reachable ∧ signed.tabWidth = .value 4 ∧
        signed.report.get? Property.tabWidth = some "+4".toList ∧ "+4".toList ≠ Decimal.nat 4) ∧
      hidden.Reachable ∧ hidden.tabWidth = .value 4 ∧
        hidden.report.get? Property.tabWidth = some Value.unset ∧ Value.unset ≠ Decimal.nat 4 :=
  ⟨⟨.ofProperties _, by decide, by decide, by decide⟩,
    .merged (.ofProperties _) (.ofProperties _), by decide, by decide, by decide⟩

end Definition

end EditorConfig
