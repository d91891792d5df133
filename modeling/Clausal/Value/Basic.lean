import Clausal.Decimal.Binary64
import Clausal.Table
import Clausal.Text.Pieces

/-!
# Values and statements

SQL described as data. Scalars, names, tagged lists and whole statements are all values, so that
they can be nested in one another. A statement is a table from clause tags to payloads; the same
shape serves as a map from column names to values.
-/

namespace Clausal

open Decimal (Binary64)

/-- A piece of SQL described as data. -/
inductive Value where
  | null
  | bool (b : Bool)
  | int (n : Int64)
  | float (x : Binary64)
  /-- A string literal. -/
  | str (s : String)
  /-- A name: of a table, column, alias, operator or function. -/
  | ident (name : String)
  /-- A list; headed by a name it is an operator or function with its arguments. -/
  | seq (items : List Value)
  /-- A statement, or a map from column names to values. -/
  | map (entries : List (String × Value))

/-- A statement: payloads under clause tags, in the order in which the tags came. -/
abbrev Statement := Table Value

namespace Value

instance : Inhabited Value := ⟨.null⟩

/-- The value is null. -/
def isNull : Value → Bool
  | .null => true
  | _ => false

/-- The name that the value is, if it is one. -/
def ident? : Value → Option String
  | .ident name => some name
  | _ => none

/-- The items of a list. -/
def seq? : Value → Option (List Value)
  | .seq items => some items
  | _ => none

/-- The entries of a map. -/
def map? : Value → Option Statement
  | .map s => some s
  | _ => none

/-- The text of a name or of a string. -/
def text? : Value → Option String
  | .ident name => some name
  | .str s => some s
  | _ => none

/-- The items of a list; any other value is a list of itself. -/
def items : Value → List Value
  | .seq items => items
  | v => [v]

/-- The value is the name `word`, in any case of `A` to `Z`. -/
def isWord (word : String) : Value → Bool
  | .ident name => Text.sameWord name word
  | _ => false

/-- A list headed by the name `op`. -/
def call (op : String) (args : List Value) : Value := .seq (.ident op :: args)

/-- A reference to a named parameter. -/
def param (name : String) : Value := call "param" [.ident name]

/-- SQL text that is taken over as it is. -/
def raw (sql : String) : Value := call "raw" [.str sql]

/-- A value that is written into the text instead of being bound. -/
def inlined (v : Value) : Value := call "inline" [v]

/-- The name of the parameter that a value refers to: `?name`, or a list of `param` and a name. -/
def paramRef? : Value → Option String
  | .ident name =>
    match Text.stripLeading? '?' name with
    | some "" => none
    | found => found
  | .seq [head, arg] => if head.isWord "param" then arg.text? else none
  | _ => none

end Value

namespace Statement

/-- The tag that a key stands for: one leading colon is dropped. -/
def tagOf (key : String) : String := (Text.stripLeading? ':' key).getD key

/-- The payload under a key. -/
def get? (s : Statement) (key : String) : Option Value := Table.get? (tagOf key) s

/-- There is a payload under the key. -/
def contains (s : Statement) (key : String) : Bool := Table.has (tagOf key) s

/-- Stores a payload under a key. -/
def insert (s : Statement) (key : String) (v : Value) : Statement := Table.put (tagOf key) v s

/-- Takes the payload under a key out. -/
def remove (s : Statement) (key : String) : Statement := Table.erase (tagOf key) s

/-- The tags in order. -/
def tags (s : Statement) : List String := Table.keys s

end Statement

end Clausal
