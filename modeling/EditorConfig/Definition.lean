import EditorConfig.Value
import EditorConfig.Version

/-!
# Definitions

A definition holds the settings of one file: seven typed ones, and every property as declared.

* `Definition`                the settings;
* `Definition.ofProperties`   the definition that one section declares;
* `Definition.warnings`       the values of a section that do not read;
* `Definition.merged`         a definition with its gaps filled from a farther one;
* `Definition.report`         the properties in their final form.
-/

namespace EditorConfig

/-! ## Names with a meaning -/

namespace Property

def charset : Text := "charset".toList
def indentStyle : Text := "indent_style".toList
def indentSize : Text := "indent_size".toList
def tabWidth : Text := "tab_width".toList
def endOfLine : Text := "end_of_line".toList
def trimTrailingWhitespace : Text := "trim_trailing_whitespace".toList
def insertFinalNewline : Text := "insert_final_newline".toList

end Property

structure Definition where
  charset : Option Text := none
  indentStyle : Option Text := none
  /-- A number, `tab` or `unset`, as declared. -/
  indentSize : Option Text := none
  tabWidth : Setting Nat := .absent
  endOfLine : Option Text := none
  trimTrailingWhitespace : Setting Bool := .absent
  insertFinalNewline : Setting Bool := .absent
  /-- Every declared property, whether it has a meaning or not. -/
  raw : Properties := .empty
  /-- The version that the definition was resolved for. -/
  version : Option Version := none
deriving DecidableEq, Repr

namespace Definition

/-! ## One section -/

/-- The tab width that a section declares; without one, a numeric indent size. -/
def declaredTabWidth (ps : Properties) : Setting Nat :=
  if ps.contains Property.tabWidth then Setting.declared Value.width Property.tabWidth ps
  else match (ps.get? Property.indentSize).map Value.width with
    | some (.ok w) => .value w
    | _ => .absent

def ofProperties (ps : Properties) : Definition where
  charset := (ps.get? Property.charset).map Text.lower
  indentStyle := (ps.get? Property.indentStyle).map Text.lower
  indentSize := ps.get? Property.indentSize
  tabWidth := declaredTabWidth ps
  endOfLine := (ps.get? Property.endOfLine).map Text.lower
  trimTrailingWhitespace := Setting.declared Value.truth Property.trimTrailingWhitespace ps
  insertFinalNewline := Setting.declared Value.truth Property.insertFinalNewline ps
  raw := ps

/-- The values of a section that do not read, in the order of the typed settings. -/
def warnings (ps : Properties) : List Warning :=
  Setting.warnings Value.truth Property.trimTrailingWhitespace ps
    ++ Setting.warnings Value.truth Property.insertFinalNewline ps
    ++ Setting.warnings Value.width Property.tabWidth ps

/-! ## Merging -/

/-- The definition `d`, with the fields that are absent taken from `parent`. -/
def merged (d parent : Definition) : Definition where
  charset := d.charset.or parent.charset
  indentStyle := d.indentStyle.or parent.indentStyle
  indentSize := d.indentSize.or parent.indentSize
  tabWidth := d.tabWidth.or parent.tabWidth
  endOfLine := d.endOfLine.or parent.endOfLine
  trimTrailingWhitespace := d.trimTrailingWhitespace.or parent.trimTrailingWhitespace
  insertFinalNewline := d.insertFinalNewline.or parent.insertFinalNewline
  raw := d.raw.or parent.raw
  version := d.version

/-! ## Reporting -/

/-- The written form of the typed setting under a name, if the name has one and it is set. -/
def typedText? (d : Definition) (name : Text) : Option Text :=
  if name = Property.charset then d.charset
  else if name = Property.indentStyle then d.indentStyle
  else if name = Property.indentSize then d.indentSize
  else if name = Property.endOfLine then d.endOfLine
  else if name = Property.tabWidth then d.tabWidth.text? Decimal.nat
  else if name = Property.trimTrailingWhitespace then d.trimTrailingWhitespace.text? Value.ofTruth
  else if name = Property.insertFinalNewline then d.insertFinalNewline.text? Value.ofTruth
  else none

def tab : Text := "tab".toList

/-- `indent_size = tab` is reported from this version on. -/
def tabSizeVersion : Version := { major := 0, minor := 9, patch := 0 }

/-- Whether the tab style shows in the indent size. -/
def reportsTabSize (d : Definition) : Bool :=
  d.indentStyle = some tab && d.version.all (·.atLeast tabSizeVersion)

/-- The indent size that is reported when none is declared. -/
def impliedIndentSize? (d : Definition) : Option Text :=
  if d.raw.contains Property.indentSize then none
  else match d.tabWidth with
    | .unset => none
    | .value (w + 1) => some (Decimal.nat (w + 1))
    | _ => if d.reportsTabSize then some tab else none

/-- The tab width that is reported when none is declared. -/
def impliedTabWidth? (d : Definition) : Option Text :=
  if d.raw.contains Property.tabWidth then none
  else match d.indentSize with
    | none => none
    | some size =>
      if Value.isUnset size then some Value.unset
      else if (Value.width size).isOk then some size
      else none

/-- Every declared property in its typed form, with the two widths filled in from each other. -/
def report (d : Definition) : Properties :=
  let ps := d.raw.mapValues fun name value => (d.typedText? name).getD value
  let ps := match d.impliedIndentSize? with
    | some size => ps.insert Property.indentSize size
    | none => ps
  match d.impliedTabWidth? with
  | some width => ps.insert Property.tabWidth width
  | none => ps

end Definition

end EditorConfig
