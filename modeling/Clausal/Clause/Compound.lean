import Clausal.Clause.Basic

/-!
# Clauses that combine statements

Common table expressions, set operations, parentheses and verbatim text.
-/

namespace Clausal.Clause

open Layout

/-- Text taken over as it is. -/
def verbatim : ClauseRule := fun _ payload _ => raw payload

/-- Explicit parentheses. -/
def nested : ClauseRule := fun _ payload _ => nest payload

/-- The name of a common table, with or without columns. -/
def bindingName : Value → Layout
  | .seq [table] => column table
  | .seq (table :: cols) => column table ++ " " ++ columns cols
  | v => column v

/-- A common table: a name and a statement. -/
def binding : Value → Layout
  | .seq [name, query] => bindingName name ++ " AS " ++ nest query
  | v => .fail .bindingShape v

/-- Common tables. -/
def bindings : ClauseRule := fun tag payload _ =>
  match payload.rows? with
  | some items => (keyword tag ++ " ") ++ commas (items.map binding)
  | none => .fail .noBindings payload

/-- A member of a set operation, without parentheses. -/
def member : Value → Layout
  | .map s => .statement s
  | v => top v

/-- A set operation. -/
def setOperation : ClauseRule := fun tag payload _ =>
  match payload.rows? with
  | some items => join (" " ++ keyword tag ++ " ") (items.map member)
  | none => .fail .setOperationShape payload

end Clausal.Clause
