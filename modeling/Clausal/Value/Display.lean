import Clausal.Decimal.Spelling
import Clausal.Text.Quoted
import Clausal.Value.Basic

/-!
# Readable values

The form in which a value stands in a message: names with a colon, lists in brackets, maps in
braces.
-/

namespace Clausal

mutual

/-- The readable form of a value. -/
def Value.display : Value → String
  | .null => "nil"
  | .bool b => if b then "true" else "false"
  | .int n => toString n.toInt
  | .float x => x.readable
  | .str s => Text.quoted s
  | .ident name => ":" ++ name
  | .seq items => "[" ++ String.intercalate " " (Value.displayItems items) ++ "]"
  | .map entries => "\x7b" ++ String.intercalate " " (Value.displayEntries entries) ++ "\x7d"

/-- The readable forms of the items of a list. -/
def Value.displayItems : List Value → List String
  | [] => []
  | v :: vs => v.display :: Value.displayItems vs

/-- The readable forms of the entries of a map. -/
def Value.displayEntries : List (String × Value) → List String
  | [] => []
  | (k, v) :: rest => (":" ++ k ++ " " ++ v.display) :: Value.displayEntries rest

end

/-- The readable form of a statement. -/
def Statement.display (s : Statement) : String := Value.display (.map s)

end Clausal
