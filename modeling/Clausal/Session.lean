import Clausal.Literal
import Clausal.Name
import Clausal.Sql

/-!
# Sessions

What is fixed while one statement is written (`Context`), and what changes on the way (`Session`):
the parameters bound so far and a marker of where in the statement the writing stands. A run either
gives a result or a fault, and in both cases a session to go on with.
-/

namespace Clausal

/-- Where in the statement the writing stands. -/
structure Marker where
  /-- The clause that is being written. -/
  clause : Option String := none
  /-- The next expression may be a pair of a target and its alias. -/
  aliasPosition : Bool := false
  /-- The expression stands inside an operator. -/
  nested : Bool := false
deriving DecidableEq

/-- What changes while a statement is written. -/
structure Session where
  slots : List Slot := []
  marker : Marker := {}

/-- What is fixed while a statement is written. -/
structure Context where
  style : NameStyle
  /-- Values are written into the text. -/
  inline : Bool := false
  /-- Holes are numbered. -/
  numbered : Bool := false
  /-- The result is kept for other values of the named parameters. -/
  caching : Bool := false
  /-- The clause tags in the order in which clauses are written. -/
  order : List String := []
  params : Table Value := []
  /-- Columns that are left to their default where a row has no value for them. -/
  defaultColumns : List String := []

/-- The last position of `x` in a list. -/
def lastIndex? (x : String) : List String → Option Nat
  | [] => none
  | y :: ys =>
    match lastIndex? x ys with
    | some n => some (n + 1)
    | none => if y = x then some 0 else none

/-- The place of a clause in the order: its last position counts. -/
def Context.rank? (c : Context) (tag : String) : Option Nat := lastIndex? tag c.order

/-- A computation that may bind parameters and may fail. -/
abbrev Run := ExceptT Fault (StateM Session)

namespace Run

variable {α : Type}

/-- Runs `body` under a changed marker and puts the marker back, also after a fault. -/
def under (change : Marker → Marker) (body : Run α) : Run α := fun s =>
  let (result, after) := body.run { s with marker := change s.marker }
  (result, { after with marker := s.marker })

/-- Binds a parameter and leaves a hole for it. -/
def bind (slot : Slot) : Run Sql := do
  let s ← get
  set { s with slots := s.slots ++ [slot] }
  return [.hole (s.slots.length + 1)]

/-- A literal text, or the fault that kept it from being one. -/
def ofLiteral (text : Except Fault String) : Run Sql := do
  return Sql.ofText (← liftExcept text)
where
  liftExcept : Except Fault String → Run String
    | .ok text => pure text
    | .error e => throw e

/-- The value of a named parameter. -/
def lookup (c : Context) (name : String) : Run Value :=
  match Table.get? name c.params with
  | some v => pure v
  | none => throw (.missingParam name)

/-- Sends a value on: a literal in the text, or a bound parameter. -/
def value (c : Context) (v : Value) : Run Sql :=
  if c.inline then ofLiteral v.literal else bind (.literal v)

/-- Sends the value of a named parameter on; while caching, only its name. -/
def named (c : Context) (name : String) : Run Sql :=
  if c.inline then do ofLiteral (← lookup c name).literal
  else if c.caching then bind (.named name)
  else do bind (.literal (← lookup c name))

/-- Sends values on one by one, divided by commas. -/
def values (c : Context) : List Value → Run Sql
  | [] => pure []
  | [v] => value c v
  | v :: vs => do
    let first ← value c v
    let rest ← values c vs
    return first ++ Sql.ofText ", " ++ rest

/-- Expands a named parameter into a list. How many holes that takes depends on its value, so that
it is refused while caching. -/
def namedList (c : Context) (name : String) : Run Sql :=
  if c.caching then throw (.malformed .listWhileCaching (.ident ("?" ++ name)))
  else do
    match ← lookup c name with
    | .seq items => return (← values c items).parens
    | _ => return (← named c name).parens

/-- The marker after `under` is the marker before it, whether the body gave a result or a fault. -/
@[simp]
theorem marker_under (change : Marker → Marker) (body : Run α) (s : Session) :
    (under change body s).2.marker = s.marker := rfl

end Run

end Clausal
