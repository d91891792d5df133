import Clausal.Form.Basic

/-!
# Term forms

Casts, intervals, arrays, verbatim text, parameters, aggregates and windows.
-/

namespace Clausal.Form

open Layout

/-- A cast to a type. -/
def cast : FormRule :=
  binary fun _ subject type => "CAST(" ++ top subject ++ " AS " ++ keywordArgument type ++ ")"

/-- An interval: an amount and an optional unit. -/
def interval : FormRule
  | _, [amount] => "INTERVAL " ++ top amount
  | _, [amount, unit] => "INTERVAL " ++ top amount ++ " " ++ keywordArgument unit
  | op, args => wrongArguments op args "an amount and an optional unit"

/-- Text taken over as it is. -/
def verbatim : FormRule := unary fun _ v => raw v

/-- Values written into the text. -/
def inlined : FormRule := fun _ args => join " " (args.map .literal)

/-- Explicit parentheses. -/
def nested : FormRule := unary fun _ v => nest v

/-- A named parameter. -/
def parameter : FormRule :=
  unary fun _ v =>
    match v.text? with
    | some name => .named name
    | none => .fail .paramNotName v

/-- A value bound as one parameter, whatever its shape. -/
def lifted : FormRule := unary fun _ v => .value v

/-- An array. -/
def array : FormRule :=
  unary fun _ v =>
    match v with
    | .map s => "ARRAY" ++ nestedStatement s
    | v => "ARRAY[" ++ exprs v ++ "]"

/-- A row of values. -/
def composite : FormRule := fun _ args => valueList args

/-- Distinct values only. -/
def distinct : FormRule := unary fun _ v => "DISTINCT " ++ top v

/-- A name, from a name or a string. -/
def entity : FormRule :=
  unary fun _ v =>
    match v.text? with
    | some name => .entity name
    | none => .fail .entityNotName v

/-- An aggregate over the rows that satisfy a predicate. -/
def filtered : FormRule :=
  binary fun _ aggregate predicate =>
    top aggregate ++ " FILTER (WHERE " ++ top predicate ++ ")"

/-- An aggregate over ordered rows. -/
def withinGroup : FormRule :=
  binary fun _ aggregate order =>
    top aggregate ++ " WITHIN GROUP (ORDER BY " ++ orderItems order.items ++ ")"

/-- The window of a window function: a name, a specification, or none. -/
def window : Value → Layout
  | .ident name => .entity name
  | .str name => .entity name
  | .map s => nestedStatement s
  | .null => "()"
  | v => .fail .windowShape v

/-- A window function. -/
def windowed : FormRule := binary fun _ subject spec => top subject ++ " OVER " ++ window spec

/-- A time in a zone; the zone is always written into the text. -/
def atTimeZone : FormRule :=
  binary fun _ subject zone =>
    .wrap
      (inner subject ++ " AT TIME ZONE " ++
        .literal
          (match zone with
            | .ident name => .str name
            | v => v))

/-- An argument with order items, for aggregates. -/
def ordered : FormRule
  | _, subject :: items => top subject ++ " ORDER BY " ++ orderItems items
  | op, [] => wrongArguments op [] "an expression and order items"

end Clausal.Form
