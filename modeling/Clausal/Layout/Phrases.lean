import Clausal.Layout.Basic

/-!
# Phrases

Layouts that many clauses and forms share: lists of expressions, tables and columns, aliases,
assignments and order items. Where a list is wanted, any other value is a list of itself.
-/

namespace Clausal.Layout

/-- The name of a column. -/
def column (v : Value) : Layout :=
  match v.text? with
  | some name => .entity name
  | none => .fail .notColumn v

/-- Columns in parentheses. -/
def columns (vs : List Value) : Layout := parens (commas (vs.map column))

/-- A target and its alias. A string names the target and is not bound. -/
def withAlias (target name : Value) : Layout :=
  let targetPart :=
    match target with
    | .str s => .entity s
    | v => top v
  let namePart :=
    match name.text? with
    | some s => .aliasMark ++ .aliasName s
    | none => .fail .aliasNotName name
  targetPart ++ namePart

/-- A table, with or without alias. A string names the table and is not bound. -/
def table : Value → Layout
  | .str name => .entity name
  | v => .aliased v

/-- Items that may carry aliases. -/
def aliasedList (v : Value) : Layout := commas (v.items.map .aliased)

/-- Tables, with or without aliases. -/
def tables (v : Value) : Layout := commas (v.items.map table)

/-- Expressions. -/
def exprs (v : Value) : Layout := commas (v.items.map top)

/-- Expressions in parentheses. -/
def valueList (vs : List Value) : Layout := parens (commas (vs.map top))

/-- An expression and its direction, which is ascending unless a name says otherwise. -/
def orderItem : Value → Layout
  | .seq [v] => top v ++ " ASC"
  | .seq [v, .ident direction] => top v ++ (" " ++ keyword direction)
  | v => top v ++ " ASC"

/-- Order items. -/
def orderItems (vs : List Value) : Layout := commas (vs.map orderItem)

/-- Assignments to columns. -/
def assignments (s : Statement) : Layout :=
  if s.isEmpty then .fail .noAssignments (.map s)
  else commas (s.map fun e => .entity e.1 ++ " = " ++ top e.2)

/-- A call of a function. A lone statement needs no parentheses of its own. -/
def call (name : String) (args : List Value) : Layout :=
  let body :=
    match args with
    | [.map s] => .statement s
    | args => commas (args.map top)
  functionName name ++ parens body

/-- A statement in parentheses, or an expression in parentheses. -/
def nest : Value → Layout
  | .map s => nestedStatement s
  | v => parens (top v)

/-- Text taken over as it is: a string, or strings and expressions one after the other. -/
def raw : Value → Layout
  | .str sql => sql
  | .seq parts =>
    parts.foldr
      (fun part rest =>
        (match part with
          | .str sql => (sql : Layout)
          | v => top v) ++ rest)
      empty
  | v => .fail .rawShape v

end Clausal.Layout
