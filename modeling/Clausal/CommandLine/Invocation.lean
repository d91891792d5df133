import Clausal.CommandLine.Arguments

/-!
# Invocations

What the command is asked to do: write a statement, write an expression, list the dialects or list
the clauses.
-/

namespace Clausal.CommandLine

/-- The form of the output. -/
inductive OutputFormat where
  | table
  | json
deriving DecidableEq

/-- What is to be done. -/
inductive Task where
  /-- Write a statement; without a text it is read from the input. -/
  | statement (text : Option String)
  /-- Write an expression. -/
  | expr (text : String)
  /-- List the dialects. -/
  | dialects
  /-- List the clauses in the order of a dialect. -/
  | clauses (dialect : Option String)

/-- An understood call of the command. -/
structure Invocation where
  task : Task
  dialect : Option String := none
  quoted : Bool := false
  quotedSnake : Bool := false
  inline : Bool := false
  numbered : Bool := false
  checking : Option String := none
  params : Option String := none
  /-- The path of the settings. -/
  config : Option String := none
  format : OutputFormat := .table

/-- Any value will do. -/
def anyValue : OptionKind := .value fun _ => true

/-- A path, which must not be empty. -/
def pathValue : OptionKind := .value fun s => !s.isEmpty

/-- The option that asks for help. -/
def helpOption : OptionSpec := ⟨"help", some 'h', .help⟩

/-- The option that selects a dialect. -/
def dialectOption : OptionSpec := ⟨"dialect", some 'd', anyValue⟩

/-- What the command itself takes. -/
def mainSpec : CommandSpec :=
  { options := [
      dialectOption,
      ⟨"quoted", none, .flag⟩,
      ⟨"quoted-snake", none, .flag⟩,
      ⟨"inline", none, .flag⟩,
      ⟨"numbered", none, .flag⟩,
      ⟨"checking", none, anyValue⟩,
      ⟨"params", some 'p', anyValue⟩,
      ⟨"config", some 'c', pathValue⟩,
      ⟨"format", some 'f', .value fun s => s == "table" || s == "json"⟩,
      ⟨"verbose", some 'v', .flag⟩,
      ⟨"version", some 'V', .version⟩,
      helpOption]
    positionals := 1
    commands := ["expr", "dialects", "clauses", "help"] }

/-- What the subcommand `expr` takes. -/
def exprSpec : CommandSpec := { options := [helpOption], positionals := 1 }

/-- What the subcommand `dialects` takes. -/
def dialectsSpec : CommandSpec := { options := [helpOption] }

/-- What the subcommand `clauses` takes. -/
def clausesSpec : CommandSpec := { options := [dialectOption, helpOption] }

/-- The task of a subcommand. -/
def subtask (name : String) (args : List String) : Except Halt Task := do
  match name with
  | "expr" =>
    match (← Arguments.read exprSpec args).positionals with
    | [text] => return .expr text
    | _ => throw .usage
  | "dialects" =>
    let _ ← Arguments.read dialectsSpec args
    return .dialects
  | "clauses" => return .clauses ((← Arguments.read clausesSpec args).value? "dialect")
  | _ =>
    if args.all fun arg => ["expr", "dialects", "clauses", "help"].contains arg then throw .help
    else throw .usage

/-- Understands the arguments of the command. -/
def Invocation.read (args : List String) : Except Halt Invocation := do
  let a ← Arguments.read mainSpec args
  let task ←
    match a.command with
    | some (name, rest) => subtask name rest
    | none => pure (.statement a.positionals.head?)
  return {
    task := task
    dialect := a.value? "dialect"
    quoted := a.isGiven "quoted"
    quotedSnake := a.isGiven "quoted-snake"
    inline := a.isGiven "inline"
    numbered := a.isGiven "numbered"
    checking := a.value? "checking"
    params := a.value? "params"
    config := a.value? "config"
    format := if a.value? "format" = some "json" then .json else .table }

end Clausal.CommandLine
