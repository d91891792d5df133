import Clausal.Form.Basic

/-!
# Predicate forms

Membership, negation, existence, ranges, patterns and case distinctions.
-/

namespace Clausal.Form

open Layout

/-- The candidates of a membership test. -/
def candidates (v : Value) : Layout :=
  match v.paramRef? with
  | some name => .namedList name
  | none =>
    match v with
    | .seq items => valueList items
    | v => nest v

/-- Membership in a list, in a named list or in the rows of a statement. -/
def membership : FormRule :=
  binary fun op subject set =>
    .wrap (inner subject ++ (" " ++ keyword op ++ " ") ++ candidates set)

/-- Negation. -/
def negation : FormRule := unary fun _ v => .wrap ("NOT " ++ inner v)

/-- Existence of a row. -/
def existence : FormRule :=
  unary fun _ v =>
    match v with
    | .map s => "EXISTS " ++ nestedStatement s
    | v => "EXISTS" ++ parens (top v)

/-- A range test. -/
def range : FormRule :=
  ternary fun op subject low high =>
    .wrap (inner subject ++ (" " ++ keyword op ++ " ") ++ inner low ++ " AND " ++ inner high)

/-- The branches of a case distinction; arguments come in pairs. -/
def branches : List Value → Layout
  | condition :: result :: rest =>
    (if condition.isWord "else" then " ELSE " ++ top result
     else " WHEN " ++ top condition ++ " THEN " ++ top result) ++ branches rest
  | _ => empty

/-- A case distinction. -/
def distinction : FormRule := fun op args =>
  if args.isEmpty || args.length % 2 != 0 then wrongArguments op args "condition/value pairs"
  else "CASE" ++ branches args ++ " END"

/-- The escape character of a pattern. -/
def escaping : FormRule :=
  binary fun _ pattern character => .wrap (top pattern ++ " ESCAPE " ++ .literal character)

end Clausal.Form
