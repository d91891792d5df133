import Clausal.Fault

/-!
# Lint

Checks that refuse statements which are well-formed but hardly meant: deleting or changing rows
without a condition, selecting nothing, testing membership in an empty list and, at the strict
level, in a list with a null. Statements inside the statement are checked as well.
-/

namespace Clausal

/-- How much is checked. -/
inductive LintLevel where
  | off
  | basic
  | strict
deriving DecidableEq

/-- The name of a level. -/
def LintLevel.name : LintLevel → String
  | .off => "none"
  | .basic => "basic"
  | .strict => "strict"

/-- The level with a name. -/
def LintLevel.ofName? (name : String) : Option LintLevel :=
  [LintLevel.off, .basic, .strict].find? fun level => level.name = name

/-- The level that a word stands for: in any case, after any colons. -/
def LintLevel.read (word : String) : Except Fault LintLevel :=
  let name := Text.lower (String.ofList (word.toList.dropWhile (· = ':')))
  match LintLevel.ofName? name with
  | some level => .ok level
  | none => .error (.unknownLevel name)

/-- What the linter found: the reason and the offending value. -/
structure Violation where
  reason : LintReason
  clause : Value

mutual

/-- The condition leaves every row in: it is null, empty, or joins only such conditions. -/
def isVacuous : Value → Bool
  | .null => true
  | .seq [] => true
  | .seq (head :: rest) => (head.isWord "and" || head.isWord "or") && allVacuous rest
  | _ => false

/-- All of the conditions are vacuous. -/
def allVacuous : List Value → Bool
  | [] => true
  | v :: vs => isVacuous v && allVacuous vs

end

namespace Lint

/-- The clauses that must not stand without a condition. -/
def guardedTags : List String := ["delete", "delete-from", "update"]

/-- The statement has a condition that can leave rows out. -/
def hasCondition (s : Statement) : Bool :=
  match s.get? "where" with
  | some v => !isVacuous v
  | none => false

/-- A deletion or change without a condition. -/
def unguarded? (s : Statement) : Option Violation :=
  if hasCondition s then none
  else (guardedTags.findSome? fun tag => s.get? tag).map fun target => ⟨.missingWhere, target⟩

/-- The list is empty. -/
def isEmptyList : Value → Bool
  | .seq [] => true
  | _ => false

/-- A selection of nothing. -/
def emptySelection? (tag : String) (payload : Value) : Option Violation :=
  if (tag = "select" ∨ tag = "select-distinct") ∧ isEmptyList payload then
    some ⟨.emptySelect, payload⟩
  else none

/-- The list of candidates, where it can be known. -/
def candidates? (params : Table Value) (v : Value) : Option (List Value) :=
  match v.paramRef? with
  | some name => (Table.get? name params).bind Value.seq?
  | none => v.seq?

/-- A membership test whose candidates are refused. -/
def membership? (level : LintLevel) (params : Table Value) : List Value → Option Violation
  | [head, subject, set] =>
    if head.isWord "in" || head.isWord "not-in" then
      match candidates? params set with
      | none => none
      | some items =>
        let whole := .seq [head, subject, set]
        if items.isEmpty then some ⟨.emptyIn, whole⟩
        else if level = .strict ∧ items.any Value.isNull then some ⟨.nilIn, whole⟩
        else none
    else none
  | _ => none

mutual

/-- The first violation in a value. -/
def value? (level : LintLevel) (params : Table Value) : Value → Option Violation
  | .map entries => (unguarded? entries).or (entries? level params entries)
  | .seq items => (membership? level params items).or (items? level params items)
  | _ => none

/-- The first violation in the items of a list. -/
def items? (level : LintLevel) (params : Table Value) : List Value → Option Violation
  | [] => none
  | v :: vs => (value? level params v).or (items? level params vs)

/-- The first violation in the clauses of a statement. -/
def entries? (level : LintLevel) (params : Table Value) : List (String × Value) → Option Violation
  | [] => none
  | (tag, payload) :: rest =>
    ((emptySelection? tag payload).or (value? level params payload)).or
      (entries? level params rest)

end

/-- Refuses a statement with a violation. -/
def check (level : LintLevel) (s : Statement) (params : Table Value) : Except Fault Unit :=
  match level with
  | .off => .ok ()
  | level =>
    match value? level params (.map s) with
    | some v => .error (.lint v.reason v.clause)
    | none => .ok ()

end Lint

end Clausal
