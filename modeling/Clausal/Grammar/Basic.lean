import Clausal.Clause.Builtin
import Clausal.Form.Builtin
import Clausal.Operator
import Clausal.Text.Blank

/-!
# Grammars

The clauses, forms, operators and dialects that are known. Grammars can be extended: a registration
changes a grammar in place, unless it is refused. The order of the clauses is part of the grammar.
-/

namespace Clausal

/-- Clause rules and the order in which clauses are written. -/
structure ClauseTable where
  order : List String := []
  rules : Table ClauseRule := []

/-- Everything that is known about how to write SQL. -/
structure Grammar where
  clauses : ClauseTable := {}
  forms : Table FormRule := []
  operators : Table OperatorPolicy := []
  dialects : Table Dialect := []

/-- The key under which a tag is registered: without colon and blanks, in small letters. -/
def registryKey (tag : String) : Except RegistrationFault String :=
  let bare := Text.trim ((Text.stripLeading? ':' tag).getD tag)
  if bare.isEmpty then .error .emptyTag else .ok (Text.lower bare)

/-- A change of a registry: it gives a result or is refused, and leaves a registry in both cases. -/
abbrev Registering (σ : Type) := ExceptT RegistrationFault (StateM σ)

/-- What a registration says about a clause. -/
structure ClauseEntry where
  tag : String
  /-- The place of the clause in the order. -/
  priority : Nat
deriving DecidableEq

namespace ClauseTable

/-- The clauses that are always there. -/
def builtin : ClauseTable := ⟨Table.keys Clause.builtin, Clause.builtin⟩

/-- The place of a clause in the order. -/
def priority? (t : ClauseTable) (tag : String) : Option Nat := t.order.idxOf? tag

/-- The rule of a clause. -/
def rule? (t : ClauseTable) (tag : String) : Option ClauseRule := Table.get? tag t.rules

/-- The key that a clause is to be put before; it must be another clause that is there. -/
def checkBefore (t : ClauseTable) (tag : String) :
    Option String → Except RegistrationFault (Option String)
  | none => .ok none
  | some before =>
    match registryKey before with
    | .error e => .error e
    | .ok before =>
      if before = tag then .error (.beforeItself tag)
      else if before ∈ t.order then .ok (some before)
      else .error (.beforeUnknown tag before)

/-- The place for a clause among the others: where `before` stands, or the end. -/
def placeAmong (others : List String) : Option String → Nat
  | some before => (others.idxOf? before).getD others.length
  | none => others.length

/-- Registers or replaces a clause before another one, or at the end. -/
def register (tag : String) (rule : ClauseRule) (before : Option String) :
    Registering ClauseTable ClauseEntry := do
  let tag ← registryKey tag
  let before ← (← get).checkBefore tag before
  modify fun t => { t with order := t.order.filter (· != tag) }
  let priority := placeAmong (← get).order before
  modify fun t => { t with order := t.order.insertIdx priority tag }
  modify fun t => { t with rules := Table.put tag rule t.rules }
  return ⟨tag, priority⟩

end ClauseTable

namespace Grammar

/-- A grammar that knows nothing but the default dialect. -/
def bare : Grammar := { dialects := [(Dialect.ansi.name, Dialect.ansi)] }

/-- The grammar that is used unless another is built. -/
def standard : Grammar :=
  { clauses := .builtin
    forms := Form.builtin
    operators := OperatorPolicy.builtin
    dialects := Dialect.builtin.map fun d => (d.name, d) }

/-- A change of the clauses, as a change of the grammar. -/
def onClauses {α : Type} (change : Registering ClauseTable α) : Registering Grammar α := fun g =>
  let (result, clauses) := change.run g.clauses
  (result, { g with clauses := clauses })

/-- Registers or replaces a clause. -/
def registerClause (tag : String) (rule : ClauseRule) (before : Option String) :
    Registering Grammar ClauseEntry :=
  onClauses (ClauseTable.register tag rule before)

/-- Registers or replaces a form, and gives its key. -/
def registerForm (tag : String) (rule : FormRule) : Registering Grammar String := do
  let tag ← registryKey tag
  modify fun g => { g with forms := Table.put tag rule g.forms }
  return tag

/-- Registers or replaces an operator, which must not be written as nothing. -/
def registerOperator (tag : String) (policy : OperatorPolicy) :
    Registering Grammar OperatorPolicy := do
  let tag ← registryKey tag
  if policy.sql = some "" then throw (.emptySql tag)
  modify fun g => { g with operators := Table.put tag policy g.operators }
  return policy

/-- Registers or replaces a dialect. -/
def registerDialect (name : String) (dialect : Dialect) : Registering Grammar Dialect := do
  let name ← registryKey name
  modify fun g => { g with dialects := Table.put name dialect g.dialects }
  return dialect

/-- The operator under a tag. -/
def operator? (g : Grammar) (tag : String) : Option OperatorPolicy := Table.get? tag g.operators

/-- The form under a tag. -/
def form? (g : Grammar) (tag : String) : Option FormRule := Table.get? tag g.forms

/-- The dialect under a name, which is read like a tag. -/
def dialect? (g : Grammar) (name : String) : Option Dialect :=
  match registryKey name with
  | .ok key => Table.get? key g.dialects
  | .error _ => none

/-- The names of the dialects in ascending order. -/
def dialectNames (g : Grammar) : List String := (Table.keys g.dialects).mergeSort (fun a b => a ≤ b)

/-- The clause tags in the order of a dialect. -/
def clauseOrder (g : Grammar) (d : Dialect) : List String := d.arrange g.clauses.order

end Grammar

end Clausal
