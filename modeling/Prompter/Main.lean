import Prompter.CommandLine
import Prompter.Console.Printer
import Prompter.Session.Operation

namespace Prompter

def readText (path : Text) : IO (Except Text Text) := do
  try return .ok (← IO.FS.readFile (String.ofList path)).toList
  catch e => return .error e.toString.toList

def complain (message : Text) : IO Unit := IO.eprint (String.ofList (Console.failureText message))

def startSession (config : Config) : Except SessionError Unit := do
  Session.checkConfig config
  .error (Session.failedToStart config "starting programs is not supported")

/-- Gives the exit code. No interpreter can be started here, so that a session whose settings are
right is refused all the same. -/
def follow (options : CommandLine) : IO UInt32 := do
  let document ← match options.configFile with
    | some path => readText path
    | none => pure (.ok [])
  match options.config fun _ ↦ document with
  | .error e =>
    complain e.message
    return 2
  | .ok config =>
    match startSession config with
    | .error e =>
      complain e.message
      return 1
    | .ok _ => return 0

end Prompter

def main (args : List String) : IO UInt32 := do
  match Prompter.CommandLine.parse (args.map (·.toList)) with
  | .ok options => Prompter.follow options
  | .error r =>
    let text := String.ofList r.message
    if r.exitCode = 0 then IO.println text else IO.eprintln text
    return r.exitCode.toUInt32
