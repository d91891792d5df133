import Clausal.CommandLine.Invocation
import Clausal.Json.Writer
import Clausal.Settings

/-!
# The command

From an understood call and what stands around it to the text that is printed, or a line that says
what went wrong. The input is wanted only when no statement is given.
-/

namespace Clausal.CommandLine

/-- What stands around a call. -/
structure Surroundings where
  /-- The text of the input. -/
  input : String := ""
  /-- The text of a file. -/
  file : String → Option String := fun _ => none
  /-- The text of the settings that are used when no path is given. -/
  defaultSettings : Option String := none
  /-- The dialect that is used when none is given. -/
  dialect : Option String := none

/-- Why a call fails. -/
inductive Failure where
  | exprNotJson
  | statementNotJson
  | paramsNotJson
  /-- The settings under this path cannot be used. -/
  | settings (path : String)
  /-- The settings that are always there cannot be used. -/
  | defaultSettings
  | noStatement
  | unknownDialect (name : String)
  | fault (e : Fault)

/-- The wording of a failure. -/
def Failure.message : Failure → String
  | .exprNotJson => "expression is not valid JSON"
  | .statementNotJson => "statement is not a JSON object"
  | .paramsNotJson => "--params must be a JSON object"
  | .settings path => "failed to load config " ++ path
  | .defaultSettings => "Configuration error: TOML parse error"
  | .noStatement => "no statement given; try `sqlweave --help`"
  | .unknownDialect name => "unknown dialect '" ++ name ++ "'"
  | .fault e => e.message

/-- The outcome of a computation that may fail. -/
abbrev Try := Except Failure

/-- Passes a fault on as a failure. -/
def Try.ofFault {α : Type} (r : Except Fault α) : Try α := r.mapError .fault

/-- The settings that a call starts from. -/
def baseSettings (i : Invocation) (w : Surroundings) : Try Settings :=
  match i.config with
  | some path =>
    match (w.file path).bind Settings.read? with
    | some s => .ok s
    | none => .error (.settings path)
  | none =>
    match w.defaultSettings with
    | none => .ok {}
    | some text =>
      match Settings.read? text with
      | some s => .ok s
      | none => .error .defaultSettings

/-- The parameters given in the call. -/
def givenParams (i : Invocation) : Try (Table Json) :=
  match i.params with
  | none => .ok []
  | some text =>
    match Json.read? text with
    | some (.obj entries) => .ok entries
    | _ => .error .paramsNotJson

/-- The options of a call: its own arguments go before the settings. -/
def options (i : Invocation) (w : Surroundings) : Try Options := do
  let base ← baseSettings i w
  let checking ←
    match i.checking with
    | some word => Try.ofFault (LintLevel.read word)
    | none => pure base.checking
  let params ← givenParams i
  return Settings.toOptions {
    dialect := (i.dialect.or w.dialect).or base.dialect
    quoted := if i.quoted then some true else base.quoted
    quotedSnake := base.quotedSnake || i.quotedSnake
    inline := base.inline || i.inline
    numbered := base.numbered || i.numbered
    checking := checking
    defaultColumns := base.defaultColumns
    params := Table.putAll base.params params }

/-- The lines that list parameters, counted from `n`. -/
def paramLines (n : Nat) : List Value → String
  | [] => ""
  | v :: vs => "  $" ++ Nat.repr n ++ " = " ++ v.display ++ "\n" ++ paramLines (n + 1) vs

/-- SQL and parameters for reading. -/
def tableText (f : Formatted) : String :=
  "SQL:\n  " ++ f.sql ++ "\n" ++
    (if f.params.isEmpty then "" else "\nParameters:\n" ++ paramLines 1 f.params)

/-- SQL and parameters as JSON. -/
def jsonText (f : Formatted) : String :=
  Json.pretty (.obj [("sql", .str f.sql), ("params", .arr (f.params.map Value.toJson))]) ++ "\n"

/-- SQL and parameters in the form that is asked for. -/
def resultText (i : Invocation) (f : Formatted) : String :=
  match i.format with
  | .table => tableText f
  | .json => jsonText f

/-- The line of a dialect: its name, how it delimits names, how it writes aliases. -/
def dialectLine (g : Grammar) (name : String) : String :=
  match g.dialect? name with
  | none => ""
  | some d =>
    "  " ++ Text.padRight 12 name ++ " " ++ Text.padRight 14 (d.quote "name") ++ " " ++
      (if d.aliasKeyword then "x AS y" else "x y") ++ "\n"

/-- The list of dialects. -/
def dialectsText (g : Grammar) : String :=
  "Registered dialects\n\n" ++ String.join (g.dialectNames.map (dialectLine g))

/-- Numbered lines, counted from `n`. -/
def clauseLines (n : Nat) : List String → String
  | [] => ""
  | tag :: tags =>
    "  " ++ Text.padLeft 3 (Nat.repr n) ++ "  " ++ tag ++ "\n" ++ clauseLines (n + 1) tags

/-- The list of clauses in the order of a dialect. -/
def clausesText (g : Grammar) (dialect : Option String) : Try String :=
  let name := dialect.getD Dialect.defaultName
  match g.dialect? name with
  | none => .error (.unknownDialect name)
  | some d =>
    .ok ("Clause order for " ++ name ++ "\n" ++ String.join (List.replicate 40 "─") ++ "\n" ++
      clauseLines 0 (g.clauseOrder d))

/-- What a call prints. -/
def output (g : Grammar) (i : Invocation) (w : Surroundings) : Try String := do
  match i.task with
  | .expr text =>
    match Value.readJson text with
    | .error _ => throw .exprNotJson
    | .ok v =>
      let o ← options i w
      return resultText i (← Try.ofFault (g.formatExpr v o))
  | .dialects => return dialectsText g
  | .clauses dialect => clausesText g dialect
  | .statement text =>
    let text := text.getD w.input
    if (Text.trim text).isEmpty then throw .noStatement
    match Statement.readJson text with
    | .error _ => throw .statementNotJson
    | .ok s =>
      let o ← options i w
      return resultText i (← Try.ofFault (g.format s o))

/-- How a call ends. -/
structure Outcome where
  exit : Nat
  stdout : String := ""
  stderr : String := ""

/-- The version of the command. -/
def versionText : String := "sqlweave 0.3.0\n"

/-- A short help. -/
def helpText : String :=
  "Format data-described SQL statements\n\nUsage: sqlweave [OPTIONS] [STATEMENT] [COMMAND]\n"

/-- The outcome of arguments that do not lead to a run. -/
def Halt.outcome : Halt → Outcome
  | .usage => { exit := 2, stderr := "error: unexpected arguments; try `sqlweave --help`\n" }
  | .version => { exit := 0, stdout := versionText }
  | .help => { exit := 0, stdout := helpText }

/-- The outcome of an understood call. -/
def Invocation.run (i : Invocation) (w : Surroundings) : Outcome :=
  match output Grammar.standard i w with
  | .ok text => { exit := 0, stdout := text }
  | .error failure => { exit := 1, stderr := "Error: " ++ failure.message ++ "\n" }

/-- The call reads its statement from the input. -/
def Invocation.wantsInput (i : Invocation) : Bool :=
  match i.task with
  | .statement none => true
  | _ => false

/-- The outcome of a call. -/
def run (args : List String) (w : Surroundings) : Outcome :=
  match Invocation.read args with
  | .ok i => i.run w
  | .error halt => halt.outcome

end Clausal.CommandLine
