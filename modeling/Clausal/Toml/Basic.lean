import Clausal.Decimal.Binary64
import Clausal.Json.Basic
import Clausal.Table

/-!
# TOML documents

The values of a TOML document, and the tables under construction while one is read. A table can be
opened once by its own header; it can come into being earlier, as part of the path of another header
or of a dotted key, and only the first of these may still be opened later.
-/

namespace Clausal

open Decimal (Binary64)

/-- A value in a TOML document. -/
inductive Toml where
  | str (s : String)
  | int (n : Int64)
  | float (x : Binary64)
  | bool (b : Bool)
  /-- A date, a time or both, in normal form. -/
  | date (text : String)
  | arr (items : List Toml)
  | table (entries : List (String × Toml))

namespace Toml

instance : Inhabited Toml := ⟨.bool false⟩

/-- How a table came into being. -/
inductive Origin where
  /-- By a header of its own. -/
  | header
  /-- As part of the path of a header. -/
  | path
  /-- By a dotted key. -/
  | dotted
deriving DecidableEq

/-- What stands under a key while a document is read. -/
inductive Node where
  | leaf (v : Toml)
  | branch (origin : Origin) (entries : List (String × Node))
  /-- Tables that share one header. -/
  | rows (tables : List (List (String × Node)))

/-- Keys and what stands under them. -/
abbrev Entries := List (String × Node)

/-- Changes the last item of a list. -/
def changeLast {α β : Type} (change : α → Option (α × β)) : List α → Option (List α × β)
  | [] => none
  | [a] => (change a).map fun (a, b) => ([a], b)
  | a :: as => (changeLast change as).map fun (as, b) => (a :: as, b)

/-- Changes the table at a path, and makes the tables on the way that are missing. Dotted keys
(`dotted`) may not pass through a table that has a header. -/
def changeAt {α : Type} (dotted : Bool) (change : Origin → Entries → Option (Entries × α)) :
    List String → Origin → Entries → Option (Entries × α)
  | [], origin, entries => change origin entries
  | k :: ks, _, entries =>
    match Table.get? k entries with
    | none =>
      let origin := if dotted then .dotted else .path
      (changeAt dotted change ks origin []).map fun (inner, a) =>
        (Table.put k (.branch origin inner) entries, a)
    | some (.leaf _) => none
    | some (.rows tables) =>
      (changeLast (changeAt dotted change ks .header) tables).map fun (tables, a) =>
        (Table.put k (.rows tables) entries, a)
    | some (.branch origin inner) =>
      if dotted ∧ origin = .header then none
      else
        (changeAt dotted change ks origin inner).map fun (inner, a) =>
          (Table.put k (.branch origin inner) entries, a)

/-- Adds a value under a dotted key. No key may be given twice, and a dotted key may only add to
tables that dotted keys have made. -/
def addValue (path : List String) (key : String) (v : Toml) (origin : Origin) (entries : Entries) :
    Option Entries :=
  let add (found : Origin) (inner : Entries) : Option (Entries × Unit) :=
    if decide (found = .dotted) == path.isEmpty then none
    else if Table.has key inner then none
    else some (inner ++ [(key, .leaf v)], ())
  (changeAt true add path origin entries).map Prod.fst

/-- A document under construction: finished tables, and the one whose header came last. -/
structure Draft where
  root : Entries := []
  /-- The path of the open table; the root has none. -/
  path : List String := []
  /-- The open table shares its header with others. -/
  isRow : Bool := false
  current : Entries := []

namespace Draft

/-- Puts the open table at its place. -/
def close (d : Draft) : Option Entries :=
  match d.path.getLast? with
  | none => some d.current
  | some key =>
    let place (_ : Origin) (inner : Entries) : Option (Entries × Unit) :=
      if d.isRow then
        match Table.get? key inner with
        | some (.rows tables) => some (Table.put key (.rows (tables ++ [d.current])) inner, ())
        | _ => none
      else if Table.has key inner then none
      else some (inner ++ [(key, .branch .header d.current)], ())
    (changeAt false place d.path.dropLast .header d.root).map Prod.fst

/-- Opens a table by its header. A table that came into being on the way to another keeps its
entries. -/
def openTable (d : Draft) (path : List String) : Option Draft := do
  let root ← d.close
  let key ← path.getLast?
  let take (_ : Origin) (inner : Entries) : Option (Entries × Entries) :=
    match Table.get? key inner with
    | none => some (inner, [])
    | some (.branch .path entries) => some (Table.erase key inner, entries)
    | some _ => none
  let (root, current) ← changeAt false take path.dropLast .header root
  return ⟨root, path, false, current⟩

/-- Opens one more table of those that share a header. -/
def openRow (d : Draft) (path : List String) : Option Draft := do
  let root ← d.close
  let key ← path.getLast?
  let make (_ : Origin) (inner : Entries) : Option (Entries × Unit) :=
    match Table.get? key inner with
    | none => some (inner ++ [(key, .rows [])], ())
    | some (.rows _) => some (inner, ())
    | some _ => none
  let (root, _) ← changeAt false make path.dropLast .header root
  return ⟨root, path, true, []⟩

/-- Adds a value to the open table. -/
def add (d : Draft) (path : List String) (key : String) (v : Toml) : Option Draft :=
  (addValue path key v .header d.current).map fun current => { d with current := current }

end Draft

mutual

/-- The value that a node stands for. -/
def ofNode : Node → Toml
  | .leaf v => v
  | .branch _ entries => .table (ofEntries entries)
  | .rows tables => .arr (ofRows tables)

/-- The values that entries stand for. -/
def ofEntries : List (String × Node) → List (String × Toml)
  | [] => []
  | (k, n) :: rest => (k, ofNode n) :: ofEntries rest

/-- The tables that rows stand for. -/
def ofRows : List (List (String × Node)) → List Toml
  | [] => []
  | entries :: rest => .table (ofEntries entries) :: ofRows rest

end

/-- The key under which a date is held. -/
def dateKey : String := "$__toml_private_datetime"

mutual

/-- The JSON document of a value. Infinities and NaN have none and become null. -/
def toJson : Toml → Json
  | .str s => .str s
  | .int n => .int n
  | .float x => if x.isFinite then .float x else .null
  | .bool b => .bool b
  | .date text => .obj [(dateKey, .str text)]
  | .arr items => .arr (toJsonItems items)
  | .table entries => .obj (toJsonEntries entries)

/-- The documents of the items of an array. -/
def toJsonItems : List Toml → List Json
  | [] => []
  | v :: vs => v.toJson :: toJsonItems vs

/-- The documents of the entries of a table. -/
def toJsonEntries : List (String × Toml) → List (String × Json)
  | [] => []
  | (k, v) :: rest => (k, v.toJson) :: toJsonEntries rest

end

end Toml

end Clausal
