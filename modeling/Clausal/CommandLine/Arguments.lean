import Clausal.Table
import Clausal.Text.Pieces

/-!
# Arguments

Reading the arguments of a command: options in long and short form with attached or following
values, positional arguments, and the name of a subcommand with the arguments that belong to it.
Every option may be given once. After a double dash everything is positional.
-/

namespace Clausal.CommandLine

/-- What an option does. -/
inductive OptionKind where
  /-- It is given or not. -/
  | flag
  /-- It takes a value, which has to satisfy the test. -/
  | value (accepts : String → Bool)
  /-- It asks for the version. -/
  | version
  /-- It asks for help. -/
  | help

/-- An option of a command. -/
structure OptionSpec where
  long : String
  short : Option Char := none
  kind : OptionKind

/-- What a command takes. -/
structure CommandSpec where
  options : List OptionSpec
  /-- How many positional arguments there may be. -/
  positionals : Nat := 0
  /-- The names of the subcommands. -/
  commands : List String := []

/-- Why arguments do not lead to a run. -/
inductive Halt where
  /-- They cannot be understood. -/
  | usage
  | version
  | help
deriving DecidableEq

/-- The arguments read so far. -/
structure Arguments where
  /-- The options given, with their values; flags have an empty one. -/
  given : Table String := []
  positionals : List String := []
  /-- A subcommand and its arguments. -/
  command : Option (String × List String) := none

namespace Arguments

/-- Records an option, which must not have been given before. -/
def give (a : Arguments) (name value : String) : Except Halt Arguments :=
  if Table.has name a.given then .error .usage
  else .ok { a with given := Table.put name value a.given }

/-- Records the value of an option. -/
def giveValue (a : Arguments) (o : OptionSpec) (value : String) : Except Halt Arguments :=
  match o.kind with
  | .value accepts => if accepts value then a.give o.long value else .error .usage
  | _ => .error .usage

/-- Records positional arguments, of which there may be only so many. -/
def addPositionals (spec : CommandSpec) (a : Arguments) (args : List String) :
    Except Halt Arguments :=
  let all := a.positionals ++ args
  if all.length ≤ spec.positionals then .ok { a with positionals := all } else .error .usage

/-- Records an option that was met, with a value if one is attached. An option that still waits for
its value is handed back. -/
def meet (a : Arguments) (o : OptionSpec) (attached : Option String) :
    Except Halt (Arguments × Option OptionSpec) :=
  match o.kind, attached with
  | .value _, some value => do return (← a.giveValue o value, none)
  | .value _, none => .ok (a, some o)
  | _, some _ => .error .usage
  | .flag, none => do return (← a.give o.long "", none)
  | .version, none => .error .version
  | .help, none => .error .help

/-- A long option, with a value attached after an equals sign or without. -/
def meetLong (spec : CommandSpec) (a : Arguments) (text : String) :
    Except Halt (Arguments × Option OptionSpec) :=
  let (name, attached) :=
    match Text.cutFirst? '=' text with
    | some (name, value) => (name, some value)
    | none => (text, none)
  match spec.options.find? fun o => o.long = name with
  | some o => a.meet o attached
  | none => .error .usage

/-- The value attached to a short option, if there is one. -/
def attachedValue : List Char → Option String
  | [] => none
  | '=' :: cs => some (String.ofList cs)
  | cs => some (String.ofList cs)

/-- Short options one after the other; the rest of the word is the value of one that takes a
value. -/
def meetShort (spec : CommandSpec) (a : Arguments) :
    List Char → Except Halt (Arguments × Option OptionSpec)
  | [] => .ok (a, none)
  | c :: cs =>
    match spec.options.find? fun o => o.short = some c with
    | none => .error .usage
    | some o =>
      match o.kind with
      | .value _ => a.meet o (attachedValue cs)
      | _ => do
        let (a, _) ← a.meet o none
        meetShort spec a cs

/-- Reads arguments. `waiting` is an option whose value comes next. -/
def readFrom (spec : CommandSpec) (a : Arguments) (waiting : Option OptionSpec) :
    List String → Except Halt Arguments
  | [] => if waiting.isSome then .error .usage else .ok a
  | arg :: rest =>
    match waiting, arg.toList with
    | none, ['-', '-'] => addPositionals spec a rest
    | none, '-' :: '-' :: text => do
      let (a, waiting) ← meetLong spec a (String.ofList text)
      readFrom spec a waiting rest
    | none, '-' :: c :: cs => do
      let (a, waiting) ← meetShort spec a (c :: cs)
      readFrom spec a waiting rest
    | some _, '-' :: _ :: _ => .error .usage
    | some o, _ => do
      let a ← a.giveValue o arg
      readFrom spec a none rest
    | none, _ =>
      if spec.commands.contains arg then .ok { a with command := some (arg, rest) }
      else do
        let a ← addPositionals spec a [arg]
        readFrom spec a none rest

/-- Reads the arguments of a command. -/
def read (spec : CommandSpec) (args : List String) : Except Halt Arguments :=
  readFrom spec {} none args

/-- The value of an option. -/
def value? (a : Arguments) (name : String) : Option String := Table.get? name a.given

/-- The flag is given. -/
def isGiven (a : Arguments) (name : String) : Bool := Table.has name a.given

end Arguments

end Clausal.CommandLine
