import Clausal.Decimal.Binary64
import Clausal.Table

/-!
# JSON documents

Objects keep the order of their keys. Numbers are 64-bit integers where they can be, and
floating-point numbers otherwise.
-/

namespace Clausal

open Decimal (Binary64)

/-- A JSON document. -/
inductive Json where
  | null
  | bool (b : Bool)
  | int (n : Int64)
  | float (x : Binary64)
  | str (s : String)
  | arr (items : List Json)
  | obj (entries : List (String × Json))

namespace Json

instance : Inhabited Json := ⟨.null⟩

/-- The field of an object. -/
def field? (key : String) : Json → Option Json
  | .obj entries => Table.get? key entries
  | _ => none

end Json

end Clausal
