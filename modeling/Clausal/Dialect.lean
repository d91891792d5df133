import Clausal.Text.Pieces
import Clausal.Text.Upper

/-!
# Dialects

A dialect says how names are put in delimiters, in which order clauses stand, and whether an alias
is introduced by `AS`. Inside delimiters the closing one is written twice. `DialectSpec` describes a
dialect by data.
-/

namespace Clausal

/-- A dialect of SQL. -/
structure Dialect where
  name : String
  /-- Puts a name in delimiters. -/
  quote : String → String
  /-- Brings the clause tags into the order of the dialect. -/
  arrange : List String → List String := id
  /-- An alias is introduced by `AS`. -/
  aliasKeyword : Bool := true

/-- A name between delimiters, with the closing one doubled inside. -/
def delimit (opening closing : Char) (part : String) : String :=
  String.ofList (opening :: Text.double closing part.toList ++ [closing])

/-- Puts `tag` before the first `before`, or at the end if there is none. -/
def insertBefore (tag before : String) : List String → List String
  | [] => [tag]
  | t :: ts => if t = before then tag :: t :: ts else t :: insertBefore tag before ts

/-- Moves `clause` before the first `before`. Nothing moves unless both are there and differ. -/
def moveBefore (order : List String) (clause before : String) : List String :=
  if clause = before then order
  else if before ∈ order ∧ clause ∈ order then insertBefore clause before (order.erase clause)
  else order

namespace Dialect

/-- The standard. -/
def ansi : Dialect := { name := "ansi", quote := delimit '\x22' '\x22' }

/-- Names in backticks, and assignments after the joins. -/
def mysql : Dialect :=
  { name := "mysql"
    quote := delimit '\x60' '\x60'
    arrange := fun order => moveBefore order "set" "where" }

/-- Names in brackets. -/
def sqlserver : Dialect := { name := "sqlserver", quote := delimit '[' ']' }

/-- Aliases without `AS`. -/
def oracle : Dialect :=
  { name := "oracle", quote := delimit '\x22' '\x22', aliasKeyword := false }

/-- The dialects that are always there. -/
def builtin : List Dialect := [ansi, mysql, sqlserver, oracle]

/-- The name of the dialect that is used unless another is asked for. -/
def defaultName : String := "ansi"

end Dialect

/-- A dialect described by data. -/
structure DialectSpec where
  name : String := "custom"
  opening : Char := '\x22'
  closing : Char := '\x22'
  /-- Names are put in capitals first. -/
  upper : Bool := false
  aliasKeyword : Bool := true
  /-- Clauses that move before others, one after the other. -/
  moves : List (String × String) := []
  /-- Clauses taken out of the order. -/
  drop : List String := []
  /-- Clauses added at the end. -/
  append : List String := []
  reverse : Bool := false

/-- Brings clause tags into the order that the description asks for. -/
def DialectSpec.arrange (d : DialectSpec) (order : List String) : List String :=
  let moved := d.moves.foldl (fun order m => moveBefore order m.1 m.2) order
  let kept := moved.filter (fun t => !d.drop.contains t) ++ d.append
  if d.reverse then kept.reverse else kept

/-- The dialect that the description stands for. -/
def DialectSpec.toDialect (d : DialectSpec) : Dialect :=
  { name := d.name
    quote := fun part => delimit d.opening d.closing (if d.upper then Text.upper part else part)
    arrange := d.arrange
    aliasKeyword := d.aliasKeyword }

end Clausal
