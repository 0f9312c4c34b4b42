-- The program: it looks up the environment and the settings file, and prints the answer.
import ControlBus.Cli

open ControlBus

/-- The variables in a block of definitions, each ended by a null character. -/
def environmentVariables (block : String) : List (String × String) :=
  (block.splitOn "\x00").filterMap fun definition =>
    match definition.splitOn "=" with
    | name :: value@(_ :: _) => some (name, "=".intercalate value)
    | _ => none

/-- The text of a file, if there is one. -/
def fileText? (path : String) : IO (Option String) := do
  try return some (← IO.FS.readFile path)
  catch _ => return none

def main (args : List String) : IO UInt32 := do
  let vars := environmentVariables ((← fileText? "/proc/self/environ").getD "")
  let text ← match Cli.Request.ofArguments args with
    | .ok (.check options) =>
      match options.config with
      | some path => fileText? path
      | none => pure none
    | _ => pure none
  let outcome := Cli.run args vars fun _ => text
  IO.print outcome.stdout
  IO.eprint outcome.stderr
  return outcome.exitCode
