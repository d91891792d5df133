import Clausal.Layout.Phrases

/-!
# Forms

A form is a tagged list that is not written as a call: `[between a b c]`, `[cast x type]`. Its rule
gets the tag and the arguments.
-/

namespace Clausal

/-- The rule of a form: from its tag and its arguments to a layout.

As for a clause, the layout is settled before any of it is evaluated. Rules that choose it by the
session, or that recover when one of their arguments cannot be written, are not of this type. -/
abbrev FormRule := String → List Value → Layout

namespace Form

/-- The form has the wrong arguments. -/
def wrongArguments (op : String) (args : List Value) (expected : String) : Layout :=
  .fail (.arguments op expected) (.call op args)

/-- The form has the wrong number of arguments. -/
def wrongCount (op : String) (args : List Value) (n : Nat) : Layout :=
  wrongArguments op args (Nat.repr n ++ " argument(s)")

/-- A rule for one argument. -/
def unary (body : String → Value → Layout) : FormRule
  | op, [a] => body op a
  | op, args => wrongCount op args 1

/-- A rule for two arguments. -/
def binary (body : String → Value → Value → Layout) : FormRule
  | op, [a, b] => body op a b
  | op, args => wrongCount op args 2

/-- A rule for three arguments. -/
def ternary (body : String → Value → Value → Value → Layout) : FormRule
  | op, [a, b, c] => body op a b c
  | op, args => wrongCount op args 3

/-- A type or unit: a name is a keyword, a string is taken over. -/
def keywordArgument : Value → Layout
  | .ident name => keyword name
  | .str text => text
  | v => .fail .notKeyword v

end Form

end Clausal
