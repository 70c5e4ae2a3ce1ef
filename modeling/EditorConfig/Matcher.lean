import EditorConfig.Cache
import EditorConfig.Glob.Reading
import EditorConfig.Path
import EditorConfig.Regex.Marking
import EditorConfig.Regex.Parser

/-!
# Patterns, selectors and matchers

A pattern is a glob made ready for matching.  Every glob makes a pattern: when its expression is
refused, because it nests too deep or its program has no room, the pattern takes the text of the
glob and nothing else.  The selector of a section is a glob relative to the directory of its file;
without a slash it means a name at any depth.  A matcher decides whether selectors cover paths;
with a cache it keeps the patterns it has made.

* `Pattern.compile`     the pattern of a glob;
* `Pattern.accepts`     whether the pattern takes the whole of a path;
* `Selector.anchored`   the glob of a selector, for paths that begin with a slash;
* `Selector.selects`    whether a selector covers a path;
* `Made`                a pattern together with its number among all that were made;
* `Matcher.request`     the pattern of a selector: a kept one, or a new one;
* `Matcher.selects`     whether a selector covers a path.
-/

namespace EditorConfig

/-! ## Patterns -/

structure Pattern where
  /-- The glob that the pattern was made from. -/
  glob : Text
  /-- The expression; without one the glob is taken letter by letter. -/
  expression : Option Regex
deriving DecidableEq, Repr

namespace Pattern

/-- The text of the expression for a glob, pinned to both ends of the path. -/
def expressionText (glob : Text) : Text := '^' :: (Glob.ofText glob).regexText ++ ['$']

def compile [Regex.Engine] (glob : Text) : Pattern := ⟨glob, Regex.compile? (expressionText glob)⟩

def accepts (p : Pattern) (path : Text) : Bool :=
  match p.expression with
  | some r => r.accepts path
  | none => p.glob == path

end Pattern

/-! ## Selectors -/

namespace Selector

/-- The glob of a selector, for paths that begin with a slash. -/
def anchored (selector : Text) : Text :=
  if '/' ∉ selector then "/**/".toList ++ selector
  else if selector.head? = some '/' then selector
  else '/' :: selector

def pattern [Regex.Engine] (selector : Text) : Pattern := Pattern.compile (anchored selector)

def selects [Regex.Engine] (selector path : Text) : Bool :=
  (pattern selector).accepts (Path.anchored path)

end Selector

/-! ## Matchers -/

/-- A pattern as it was made: one number, one object. -/
structure Made where
  number : Nat
  pattern : Pattern
deriving DecidableEq, Repr

structure Matcher where
  /-- The patterns kept, by selector; without a cache every request makes a new one. -/
  cache : Option (Cache Text Made) := none
  /-- How many patterns have been made. -/
  made : Nat := 0
deriving DecidableEq, Repr

namespace Matcher

def make [Regex.Engine] (m : Matcher) (selector : Text) : Made :=
  ⟨m.made, Selector.pattern selector⟩

def request [Regex.Engine] (m : Matcher) (selector : Text) : Made × Matcher :=
  match m.cache with
  | none => (m.make selector, { m with made := m.made + 1 })
  | some c =>
    match c.request? selector with
    | some (p, c) => (p, { m with cache := some c })
    | none => (m.make selector, ⟨some (c.store selector (m.make selector)), m.made + 1⟩)

def selects [Regex.Engine] (m : Matcher) (selector path : Text) : Bool × Matcher :=
  let (p, m) := m.request selector
  (p.pattern.accepts (Path.anchored path), m)

def clear (m : Matcher) : Matcher := { m with cache := m.cache.map Cache.clear }

end Matcher

end EditorConfig
