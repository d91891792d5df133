import Clausal.CommandLine.Program

/-!
# The executable

Gathers arguments, environment, settings and input, and prints the outcome of the call.
-/

namespace Clausal.CommandLine

/-- The text of a file, if it can be read. -/
def readText (path : String) : IO (Option String) := do
  try
    return some (← IO.FS.readFile path)
  catch _ =>
    return none

/-- The path of the settings that are used when no path is given. -/
def defaultPath : IO (Option String) := do
  let base ←
    match ← IO.getEnv "XDG_CONFIG_HOME" with
    | some dir => pure (some dir)
    | none => pure ((← IO.getEnv "HOME").map (· ++ "/.config"))
  return base.map (· ++ "/sqlweave/config.toml")

/-- What stands around a call. -/
def surroundings (i : Invocation) : IO Surroundings := do
  let config ←
    match i.config with
    | some path => readText path
    | none => pure none
  let settings ←
    match i.config, ← defaultPath with
    | none, some path => readText path
    | _, _ => pure none
  let input ← if i.wantsInput then (← IO.getStdin).readToEnd else pure ""
  return {
    input := input
    file := fun path => if i.config = some path then config else none
    defaultSettings := settings
    dialect := ← IO.getEnv "SQLWEAVE_DIALECT" }

end Clausal.CommandLine

open Clausal.CommandLine in
/-- Runs the command. -/
def main (args : List String) : IO UInt32 := do
  let outcome ←
    match Invocation.read args with
    | .ok i => do pure (i.run (← surroundings i))
    | .error halt => pure halt.outcome
  IO.print outcome.stdout
  IO.eprint outcome.stderr
  return outcome.exit.toUInt32
