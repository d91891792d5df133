import Clausal.Layout.Phrases

/-!
# Operators

Infix operators. A policy says how many operands an operator takes, whether null operands are
dropped, and whether a single operand may stand for itself.
-/

namespace Clausal

/-- How many operands an operator takes. -/
inductive Arity where
  /-- Exactly two. -/
  | binary
  /-- Two or more; neighbours are compared and the comparisons joined by `AND`. -/
  | comparison
  /-- Any number, joined by the operator. -/
  | variadic
deriving DecidableEq

/-- The rules for one operator. -/
structure OperatorPolicy where
  arity : Arity
  /-- Null operands are dropped. -/
  ignoreNull : Bool := false
  /-- A single operand is written as it is. -/
  unary : Bool := false
  /-- The SQL text, if it is not the keyword of the tag. -/
  sql : Option String := none
deriving DecidableEq

/-- Neighbouring items in pairs. -/
def neighbours {α : Type} (xs : List α) : List (α × α) := xs.zip xs.tail

/-- The test that replaces a comparison with null. -/
def nullTest? (op : String) : Option String :=
  if op = "=" then some " IS NULL"
  else if op = "<>" ∨ op = "!=" then some " IS NOT NULL"
  else none

/-- Two operands with the operator between them, or a null test. -/
def comparison (op sql : String) (lhs rhs : Value) : Layout :=
  let plain := Layout.inner lhs ++ (" " ++ sql ++ " ") ++ Layout.inner rhs
  match nullTest? op with
  | none => plain
  | some test =>
    if rhs.isNull then Layout.inner lhs ++ test
    else if lhs.isNull then Layout.inner rhs ++ test
    else plain

/-- The operands of an operator, joined as its arity says. -/
def OperatorPolicy.joined (p : OperatorPolicy) (op sql : String) (operands : List Value)
    (whole : Value) : Layout :=
  match p.arity with
  | .binary =>
    match operands with
    | [lhs, rhs] => .wrap (comparison op sql lhs rhs)
    | _ => .fail .notTwoOperands whole
  | .comparison =>
    .wrap (.join " AND " ((neighbours operands).map fun pair => comparison op sql pair.1 pair.2))
  | .variadic => .wrap (.joinKept (" " ++ sql ++ " ") (operands.map .inner))

/-- An operator with its operands. `whole` is the expression for messages. -/
def OperatorPolicy.layout (p : OperatorPolicy) (op : String) (args : List Value) (whole : Value) :
    Layout :=
  let operands := if p.ignoreNull then args.filter (fun v => !v.isNull) else args
  match operands with
  | [] => if p.ignoreNull then .empty else .fail .noOperands whole
  | [v] => if p.unary then .expr .same v else .fail .oneOperand whole
  | operands => p.joined op (p.sql.getD (keyword op)) operands whole

namespace OperatorPolicy

/-- Exactly two operands. -/
def binary : OperatorPolicy := { arity := .binary }

/-- A chain of comparisons. -/
def comparison : OperatorPolicy := { arity := .comparison }

/-- Two or more operands. -/
def variadic : OperatorPolicy := { arity := .variadic }

/-- One or more operands. -/
def collecting : OperatorPolicy := { arity := .variadic, unary := true }

/-- Any operands, nulls left out. -/
def connective : OperatorPolicy := { arity := .variadic, ignoreNull := true, unary := true }

/-- The operators that are always there. -/
def builtin : Table OperatorPolicy :=
  ["=", "<>", "!=", "<", ">", "<=", ">="].map (·, comparison) ++
  ["and", "or"].map (·, connective) ++
  ["+", "*", "||", "&", "|", "^"].map (·, collecting) ++
  ["-", "/", "%", "mod"].map (·, variadic) ++
  ["is", "is-not", "like", "not-like", "ilike", "not-ilike", "regexp", "~", "~*", "!~", "@>", "<@",
    "&&", "->", "->>", "#>", "#>>"].map (·, binary)

end OperatorPolicy

end Clausal
