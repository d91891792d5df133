import Clausal.Clause.Basic

/-!
# Clauses that change rows

Insertions, updates, deletions, and what happens when an inserted row is there already.
-/

namespace Clausal.Clause

open Layout

/-- The target of an insertion: a table, with columns or with an alias. -/
def insertTarget : Value → Layout
  | .ident name => .entity name
  | .str name => .entity name
  | .seq [table] => column table
  | .seq [table, .seq cols] => column table ++ " " ++ columns cols
  | .seq [table, .ident name] => withAlias table (.ident name)
  | .seq [table, .str name] => withAlias table (.str name)
  | v => .fail .insertTarget v

/-- An insertion, of rows that another clause gives or of the rows of a statement. -/
def insertion : ClauseRule := fun tag payload _ =>
  let word := keyword tag ++ " "
  match payload with
  | .seq [target, .map query] => word ++ insertTarget target ++ " " ++ .statement query
  | target => word ++ insertTarget target

/-- Columns in parentheses. -/
def columnNames : ClauseRule := fun _ payload _ => columns payload.items

/-- All of the rows as maps, if all of them are. -/
def rowMaps? : List Value → Option (List Statement)
  | [] => some []
  | .map row :: rest => (rowMaps? rest).map (row :: ·)
  | _ => none

/-- The keys of the rows, in the order in which they first occur. -/
def rowKeys (rows : List Statement) : List String :=
  (rows.flatMap Statement.tags).foldl (fun seen k => if k ∈ seen then seen else seen ++ [k]) []

/-- The texts of names, or the first value that is none. -/
def nameTexts : List Value → Except Value (List String)
  | [] => .ok []
  | v :: vs =>
    match v.text? with
    | none => .error v
    | some name =>
      match nameTexts vs with
      | .ok names => .ok (name :: names)
      | .error v => .error v

/-- The columns of rows given as maps: those of a `columns` clause, or all that occur. -/
def rowColumns (rows : List Statement) (named : Option Value) : Except Value (List String) :=
  match named with
  | some (.seq names) => nameTexts names
  | some (.ident name) => .ok [name]
  | some (.str name) => .ok [name]
  | _ => .ok (rowKeys rows)

/-- One row: under each column its value, or what stands for a missing one. -/
def mapRow (cols : List String) (row : Statement) : Layout :=
  parens (commas (cols.map fun column =>
    match row.get? column with
    | some v => top v
    | none => .missing column))

/-- Rows given as maps. Their columns are listed unless a `columns` clause lists them. -/
def mapRows (rows : List Statement) (statement : Statement) : Layout :=
  let named := statement.get? "columns"
  match rowColumns rows named with
  | .error v => .fail .notColumn v
  | .ok cols =>
    let body := "VALUES " ++ commas (rows.map (mapRow cols))
    if named.isSome then body else parens (commas (cols.map .entity)) ++ " " ++ body

/-- One row given as a list. -/
def listRow : Value → Layout
  | .seq values => valueList values
  | v => .fail .mixedRows v

/-- The rows of an insertion. -/
def rows : ClauseRule := fun _ payload statement =>
  if payload.isWord "default" then "DEFAULT VALUES"
  else
    match payload.rows? with
    | none => .fail .noRows payload
    | some rows =>
      match rowMaps? rows with
      | some maps => mapRows maps statement
      | none => "VALUES " ++ commas (rows.map listRow)

/-- The table of an update. -/
def update : ClauseRule := fun _ payload _ => "UPDATE " ++ table payload

/-- The assignments of an update. -/
def assignment : ClauseRule := fun _ payload _ =>
  match payload with
  | .map s => "SET " ++ assignments s
  | v => .fail .setShape v

/-- A deletion from several tables. -/
def deletion : ClauseRule := fun _ payload _ => "DELETE " ++ tables payload

/-- A deletion from one table. -/
def deletionFrom : ClauseRule := fun _ payload _ => "DELETE FROM " ++ table payload

/-- Emptying tables. -/
def truncation : ClauseRule := fun _ payload _ => "TRUNCATE " ++ tables payload

/-- A conflict, with or without the columns that conflict. -/
def conflict : ClauseRule := fun _ payload _ =>
  match payload with
  | .null => "ON CONFLICT"
  | .seq [] => "ON CONFLICT"
  | v => "ON CONFLICT " ++ columns v.items

/-- The constraint that conflicts. -/
def constraint : ClauseRule := fun _ payload _ => "ON CONSTRAINT " ++ column payload

/-- A conflict that is passed over. -/
def nothing : ClauseRule := fun _ _ _ => "DO NOTHING"

/-- Columns that take the values of the refused row. -/
def excluded (v : Value) : Layout := column v ++ " = EXCLUDED." ++ column v

/-- Columns that take the values of the inserted row. -/
def inserted (v : Value) : Layout := column v ++ " = VALUES" ++ parens (column v)

/-- What a conflicting row is changed to: assignments, or columns. -/
def conflictFields (payload : Value) : Value → Layout
  | .map s => assignments s
  | v =>
    if v.items.isEmpty then .fail .updateColumns payload else commas (v.items.map excluded)

/-- A conflict that changes the row: fields, and optionally a condition under `fields` and
`where`. -/
def conflictUpdate : ClauseRule := fun _ payload _ =>
  let head : Layout := "DO UPDATE SET "
  match payload with
  | .map spec =>
    match Statement.get? spec "fields" with
    | some fields =>
      head ++ conflictFields payload fields ++
        (match Statement.get? spec "where" with
          | some predicate => .lead " WHERE " (top predicate)
          | none => empty)
    | none => head ++ conflictFields payload payload
  | _ => head ++ conflictFields payload payload

/-- What a duplicate row is changed to. -/
def duplicateUpdate : ClauseRule := fun _ payload _ =>
  "ON DUPLICATE KEY UPDATE " ++
    (match payload with
      | .map s => assignments s
      | v => commas (v.items.map inserted))

end Clausal.Clause
