import Clausal.Json.Reader
import Clausal.Value.Basic

/-!
# Values as JSON

Names are written as strings with a leading colon; every other string is a literal. A lone colon is
a literal too.
-/

namespace Clausal

/-- The value that a JSON string stands for. -/
def Value.ofText (s : String) : Value :=
  match Text.stripLeading? ':' s with
  | none | some "" => .str s
  | some name => .ident name

mutual

/-- The value that a JSON document stands for. -/
def Value.ofJson : Json → Value
  | .null => .null
  | .bool b => .bool b
  | .int n => .int n
  | .float x => .float x
  | .str s => Value.ofText s
  | .arr items => .seq (Value.ofJsonItems items)
  | .obj entries => .map (Value.ofJsonEntries [] entries)

/-- The values of the items of an array. -/
def Value.ofJsonItems : List Json → List Value
  | [] => []
  | j :: js => Value.ofJson j :: Value.ofJsonItems js

/-- Stores the entries of an object into a statement one by one. -/
def Value.ofJsonEntries (s : Statement) : List (String × Json) → Statement
  | [] => s
  | (k, j) :: rest => Value.ofJsonEntries (s.insert k (Value.ofJson j)) rest

end

mutual

/-- The JSON document of a value. Infinities and NaN have none and become null. -/
def Value.toJson : Value → Json
  | .null => .null
  | .bool b => .bool b
  | .int n => .int n
  | .float x => if x.isFinite then .float x else .null
  | .str s => .str s
  | .ident name => .str (":" ++ name)
  | .seq items => .arr (Value.toJsonItems items)
  | .map entries => .obj (Value.toJsonEntries entries)

/-- The documents of the items of a list. -/
def Value.toJsonItems : List Value → List Json
  | [] => []
  | v :: vs => v.toJson :: Value.toJsonItems vs

/-- The documents of the entries of a map. -/
def Value.toJsonEntries : List (String × Value) → List (String × Json)
  | [] => []
  | (k, v) :: rest => (k, v.toJson) :: Value.toJsonEntries rest

end

/-- Why a text is not a statement. -/
inductive JsonFault where
  /-- The text is not a JSON document. -/
  | notJson
  /-- The document is not an object. -/
  | notObject
deriving DecidableEq

/-- The wording of a fault, where it has one of its own. -/
def JsonFault.message? : JsonFault → Option String
  | .notJson => none
  | .notObject => some "statement must be a JSON object"

/-- The value that a JSON text stands for. -/
def Value.readJson (s : String) : Except JsonFault Value :=
  match Json.read? s with
  | some j => .ok (Value.ofJson j)
  | none => .error .notJson

/-- The statement that a JSON text stands for. -/
def Statement.readJson (s : String) : Except JsonFault Statement :=
  match Value.readJson s with
  | .ok (.map stmt) => .ok stmt
  | .ok _ => .error .notObject
  | .error e => .error e

end Clausal
