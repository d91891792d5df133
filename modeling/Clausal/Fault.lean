import Clausal.Value.Display

/-!
# Faults

Why a request is refused. A fault names its cause and carries the offending value; `Fault.message`
is the only place that words it.
-/

namespace Clausal

/-- What is wrong with the shape of a value. -/
inductive Complaint where
  | emptyExpression
  | headNotName
  | aliasNotName
  | callWithoutName
  | paramWithoutName
  | noOperands
  | oneOperand
  | notTwoOperands
  /-- A form got arguments of another number or kind than it wants. -/
  | arguments (form expected : String)
  | notKeyword
  | rawShape
  | paramNotName
  | entityNotName
  | windowShape
  | listWhileCaching
  | inlineNonFinite
  | inlineStatement
  | modifierNotKeyword
  | distinctOnShape
  | joinShape
  | windowPairs
  | windowSpec
  | lockStrength
  | lockKeywords
  | insertTarget
  | noRows
  | mixedRows
  | notColumn
  | setShape
  | updateColumns
  | noAssignments
  | noBindings
  | bindingShape
  | setOperationShape
  /-- The wording of a registered rule. -/
  | custom (message : String)
deriving DecidableEq

/-- The wording of a complaint. -/
def Complaint.message : Complaint → String
  | .emptyExpression => "empty expression"
  | .headNotName => "expected an operator or function name"
  | .aliasNotName => "alias must be a name"
  | .callWithoutName => "function sigil without a name"
  | .paramWithoutName => "parameter sigil without a name"
  | .noOperands => "operator requires operands"
  | .oneOperand => "operator requires two operands"
  | .notTwoOperands => "binary operator requires exactly two operands"
  | .arguments form expected => form ++ " expects " ++ expected
  | .notKeyword => "expected a keyword"
  | .rawShape => "raw expects a string or a list"
  | .paramNotName => "param expects a name"
  | .entityNotName => "entity expects a name"
  | .windowShape => "over expects a window name or spec"
  | .listWhileCaching => "cannot cache a statement that expands a named parameter list"
  | .inlineNonFinite => "cannot inline a non-finite float"
  | .inlineStatement => "cannot inline a statement"
  | .modifierNotKeyword => "modifiers must be keywords"
  | .distinctOnShape => "select-distinct-on expects an ON list followed by columns"
  | .joinShape => "join expects table/condition pairs"
  | .windowPairs => "window expects name/spec pairs"
  | .windowSpec => "window spec must be a map"
  | .lockStrength => "for expects a lock strength"
  | .lockKeywords => "lock expects keywords"
  | .insertTarget => "unrecognized insert target"
  | .noRows => "values expects a non-empty list of rows"
  | .mixedRows => "values rows must all be maps or all be lists"
  | .notColumn => "expected a column name"
  | .setShape => "set expects a column map"
  | .updateColumns => "do-update-set expects columns"
  | .noAssignments => "expected at least one assignment"
  | .noBindings => "with expects a list of bindings"
  | .bindingShape => "with binding must be [name statement]"
  | .setOperationShape => "set operation expects statements"
  | .custom message => message

/-- Why the linter objects to a statement. -/
inductive LintReason where
  /-- Rows are deleted or changed without a condition. -/
  | missingWhere
  /-- A candidate list without candidates. -/
  | emptyIn
  /-- A selection of nothing. -/
  | emptySelect
  /-- A null among the candidates. -/
  | nilIn
deriving DecidableEq

/-- The name of a reason. -/
def LintReason.name : LintReason → String
  | .missingWhere => "missing-where"
  | .emptyIn => "empty-in"
  | .emptySelect => "empty-select"
  | .nilIn => "nil-in"

/-- Why something cannot be registered. -/
inductive RegistrationFault where
  | emptyTag
  | emptySql (tag : String)
  | beforeItself (tag : String)
  | beforeUnknown (tag before : String)
deriving DecidableEq

/-- The wording of a registration fault. -/
def RegistrationFault.message : RegistrationFault → String
  | .emptyTag => "tag must not be empty"
  | .emptySql tag => "operator '" ++ tag ++ "' has empty SQL text"
  | .beforeItself tag => "clause '" ++ tag ++ "' cannot be ordered before itself"
  | .beforeUnknown tag before =>
    "clause '" ++ tag ++ "' cannot be ordered before unknown clause '" ++ before ++ "'"

/-- Why a request is refused. -/
inductive Fault where
  /-- A value has a shape that cannot be written as SQL. -/
  | malformed (complaint : Complaint) (fragment : Value)
  | lint (reason : LintReason) (clause : Value)
  | missingParam (name : String)
  | unknownDialect (name : String)
  | registration (fault : RegistrationFault)
  /-- A word that names no lint level. -/
  | unknownLevel (word : String)
  /-- A registered rule that expands into itself again and again. -/
  | endless

/-- The wording of a fault. -/
def Fault.message : Fault → String
  | .malformed complaint fragment =>
    "Malformed DSL: " ++ complaint.message ++ " in " ++ fragment.display
  | .lint reason clause => "Lint violation (" ++ reason.name ++ "): " ++ clause.display
  | .missingParam name => "Missing value for named parameter '" ++ name ++ "'"
  | .unknownDialect name => "Unknown dialect: '" ++ name ++ "'"
  | .registration fault => "Registration error: " ++ fault.message
  | .unknownLevel word =>
    "Configuration error: unknown checking level '" ++ word ++
      "' (expected none, basic or strict)"
  | .endless => "a registered rule expands without end"

end Clausal
