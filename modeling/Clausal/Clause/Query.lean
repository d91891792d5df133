import Clausal.Clause.Basic

/-!
# Query clauses

Selections, sources, joins, conditions, grouping, windows, order, paging and locks.
-/

namespace Clausal.Clause

open Layout

/-- Keywords after a head, each after a blank. -/
def modifiers (head : String) : List Value → Except Value String
  | [] => .ok head
  | .ident name :: rest => modifiers (head ++ " " ++ keyword name) rest
  | v :: _ => .error v

/-- A selection; a plain one heeds the `modifiers` beside it. -/
def select : ClauseRule := fun tag payload statement =>
  let head :=
    match tag, statement.get? "modifiers" with
    | "select", some words => modifiers (keyword tag) words.items
    | _, _ => .ok (keyword tag)
  match head with
  | .ok head => head ++ .lead " " (aliasedList payload)
  | .error v => .fail .modifierNotKeyword v

/-- A selection that is distinct on a list, which comes first. -/
def selectDistinctOn : ClauseRule := fun _ payload _ =>
  match payload with
  | .seq (on :: items) =>
    "SELECT DISTINCT ON " ++ parens (exprs on) ++ " " ++ aliasedList (.seq items)
  | v => .fail .distinctOnShape v

/-- A keyword and tables. -/
def sources : ClauseRule := fun tag payload _ => (keyword tag ++ " ") ++ tables payload

/-- The condition of a join: none, columns of the same name, or an expression. -/
def joinCondition : Value → Layout
  | .null => empty
  | .seq (head :: rest) =>
    if head.isWord "using" then " USING " ++ columns rest
    else .lead " ON " (top (.seq (head :: rest)))
  | v => .lead " ON " (top v)

/-- Joins: tables and conditions in turn. -/
def joins : ClauseRule := fun tag payload _ =>
  let word := if tag = "join" then "INNER JOIN" else keyword tag
  match payload.evenItems? with
  | some items =>
    join " " ((pairs items).map fun (source, condition) =>
      (word ++ " ") ++ table source ++ joinCondition condition)
  | none => .fail .joinShape payload

/-- Cross joins. -/
def crossJoin : ClauseRule := fun _ payload _ => "CROSS JOIN " ++ tables payload

/-- A condition; without text there is no clause. -/
def condition : ClauseRule := fun tag payload _ =>
  match payload with
  | .null => empty
  | v => .lead (keyword tag ++ " ") (top v)

/-- A keyword and expressions. -/
def expressions : ClauseRule := fun tag payload _ => (keyword tag ++ " ") ++ exprs payload

/-- A window: its name and its specification. -/
def namedWindow (name : Value) : Value → Layout
  | .map spec => column name ++ " AS " ++ nestedStatement spec
  | v => column name ++ .fail .windowSpec v

/-- Windows: names and specifications in turn. -/
def windows : ClauseRule := fun _ payload _ =>
  match payload.rows?, payload.evenItems? with
  | some _, some items =>
    "WINDOW " ++ commas ((pairs items).map fun (name, spec) => namedWindow name spec)
  | _, _ => .fail .windowPairs payload

/-- The order of rows. -/
def orderBy : ClauseRule := fun _ payload _ => "ORDER BY " ++ orderItems payload.items

/-- The number of rows. -/
def limit : ClauseRule := fun _ payload _ => "LIMIT " ++ top payload

/-- The number of rows skipped. -/
def offset : ClauseRule := fun _ payload statement =>
  "OFFSET " ++ top payload ++ (if statement.contains "fetch" then " ROWS" else "")

/-- The number of rows, in the long form. -/
def fetch : ClauseRule := fun _ payload statement =>
  (if statement.contains "offset" then "FETCH NEXT " else "FETCH FIRST ") ++ top payload ++
    " ROWS ONLY"

/-- What to do about rows that others have locked. -/
def waitPolicy? : Value → Option String
  | .ident "nowait" => some (keyword "nowait")
  | .ident "skip-locked" => some (keyword "skip-locked")
  | .ident "wait" => some (keyword "wait")
  | _ => none

/-- A row lock: strength, tables and wait policy; of several policies the last counts. -/
def rowLock : ClauseRule := fun _ payload _ =>
  match payload.items with
  | .ident strength :: rest =>
    let locked := rest.filter fun v => (waitPolicy? v).isNone
    let policy := (rest.filterMap waitPolicy?).getLast?
    ("FOR " ++ keyword strength) ++
      (if locked.isEmpty then empty else " OF " ++ commas (locked.map column)) ++
      (match policy with
        | some words => (" " ++ words : String)
        | none => "")
  | _ => .fail .lockStrength payload

/-- A table lock. -/
def tableLock : ClauseRule := fun _ payload _ =>
  match modifiers "LOCK" payload.items with
  | .ok words => if payload.items.isEmpty then "LOCK " else words
  | .error v => .fail .lockKeywords v

/-- Columns of changed rows. -/
def returning : ClauseRule := fun _ payload _ => "RETURNING " ++ aliasedList payload

end Clausal.Clause
