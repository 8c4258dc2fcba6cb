import Prompter.Config
import Prompter.Text.Decimal

namespace Prompter

structure CommandLine where
  configFile : Option Text := none
  interpreter : Option Text := none
  args : List Text := []
  workingDirectory : Option Text := none
  prompt : Option Text := none
  timeout : Option Nat := none
  json : Bool := false
  mirrored : Bool := false
  verbosity : Nat := 0
  deriving DecidableEq, Repr

namespace CommandLine

inductive Refusal where
  | unknownArgument
  | invalidValue
  | malformedNumber
  | unexpectedValue
  | repeated
  | helpRequested
  | versionRequested
  deriving DecidableEq, Repr

def Refusal.exitCode : Refusal → Nat
  | helpRequested => 0
  | versionRequested => 0
  | _ => 2

def usage : Text :=
  "Usage: prompter [--config FILE] [--interpreter PROGRAM] [--arg ARG]... [--cwd DIR]\n" ++
  "                [--prompt PROMPT] [--timeout-ms N] [--json] [--mirror] [-v]..."

def version : Text := "prompter 0.1.0"

def Refusal.message : Refusal → Text
  | unknownArgument => "error: unknown argument\n" ++ usage
  | invalidValue => "error: a value is missing or empty\n" ++ usage
  | malformedNumber => "error: a number is expected\n" ++ usage
  | unexpectedValue => "error: a flag takes no value\n" ++ usage
  | repeated => "error: an option is given twice\n" ++ usage
  | helpRequested => usage
  | versionRequested => version

inductive Setting where
  | configFile
  | interpreter
  | arg
  | workingDirectory
  | prompt
  | timeout
  deriving DecidableEq, Repr

inductive Flag where
  | json
  | mirrored
  | verbose
  | help
  | version
  deriving DecidableEq, Repr

def setting? (name : Text) : Option Setting :=
  if name = "config" then some .configFile
  else if name = "interpreter" then some .interpreter
  else if name = "arg" then some .arg
  else if name = "cwd" then some .workingDirectory
  else if name = "prompt" then some .prompt
  else if name = "timeout-ms" then some .timeout
  else none

def flag? (name : Text) : Option Flag :=
  if name = "json" then some .json
  else if name = "mirror" then some .mirrored
  else if name = "verbose" then some .verbose
  else if name = "help" then some .help
  else if name = "version" then some .version
  else none

def shortFlag? (c : Char) : Option Flag :=
  if c = 'v' then some .verbose
  else if c = 'h' then some .help
  else if c = 'V' then some .version
  else none

/-- Keeps a first value; a second one is refused. -/
def once {α : Type} (old : Option α) (new : α) : Except Refusal (Option α) :=
  if old.isSome then .error .repeated else .ok (some new)

def path (t : Text) : Except Refusal Text := if t.isEmpty then .error .invalidValue else .ok t

def milliseconds (t : Text) : Except Refusal Nat :=
  match Text.number? UInt64.size t with
  | some n => .ok n
  | none => .error .malformedNumber

def set (c : CommandLine) (s : Setting) (value : Text) : Except Refusal CommandLine := do
  match s with
  | .configFile =>
    let _ ← once c.configFile value
    return { c with configFile := some (← path value) }
  | .interpreter => return { c with interpreter := ← once c.interpreter value }
  | .arg => return { c with args := c.args ++ [value] }
  | .workingDirectory =>
    let _ ← once c.workingDirectory value
    return { c with workingDirectory := some (← path value) }
  | .prompt => return { c with prompt := ← once c.prompt value }
  | .timeout =>
    let _ ← once c.timeout 0
    return { c with timeout := some (← milliseconds value) }

def raise (c : CommandLine) : Flag → Except Refusal CommandLine
  | .json => if c.json then .error .repeated else .ok { c with json := true }
  | .mirrored => if c.mirrored then .error .repeated else .ok { c with mirrored := true }
  | .verbose => .ok { c with verbosity := min 255 (c.verbosity + 1) }
  | .help => .error .helpRequested
  | .version => .error .versionRequested

/-- A setting whose value has come, or has not come yet, as an argument of its own. It is judged
when the next known option comes or the arguments end. -/
structure Pending where
  setting : Setting
  value : Option Text

def settle (c : CommandLine) : Option Pending → Except Refusal CommandLine
  | none => .ok c
  | some ⟨_, none⟩ => .error .invalidValue
  | some ⟨s, some value⟩ => c.set s value

/-- An argument `--name` or `--name=value`. -/
def long (c : CommandLine) (pending : Option Pending) (body : Text) :
    Except Refusal (CommandLine × Option Pending) := do
  let name := body.takeWhile (· ≠ '=')
  let value := (body.dropWhile (· ≠ '=')).tail?
  match setting? name, flag? name, value with
  | some s, _, none => return (← c.settle pending, some ⟨s, none⟩)
  | some s, _, some v => return (← (← c.settle pending).set s v, none)
  | none, some _, some _ => .error .unexpectedValue
  | none, some f, none => return (← (← c.settle pending).raise f, none)
  | none, none, _ => .error .unknownArgument

/-- The letters after a single dash, each a flag. -/
def short (c : CommandLine) (pending : Option Pending) (letters : Text) :
    Except Refusal (CommandLine × Option Pending) :=
  letters.foldlM (fun (c, pending) letter ↦ do
    let some f := shortFlag? letter | .error .unknownArgument
    return (← (← c.settle pending).raise f, none)) (c, pending)

def parseFrom (c : CommandLine) (pending : Option Pending) : List Text → Except Refusal CommandLine
  | [] => c.settle pending
  | ['-', '-'] :: rest => if rest.isEmpty then c.settle pending else .error .unknownArgument
  | ('-' :: '-' :: body) :: rest => do
    let (c, pending) ← c.long pending body
    c.parseFrom pending rest
  | ('-' :: d :: letters) :: rest => do
    let (c, pending) ← c.short pending (d :: letters)
    c.parseFrom pending rest
  | value :: rest =>
    match pending with
    | some ⟨s, none⟩ => c.parseFrom (some ⟨s, some value⟩) rest
    | _ => .error .unknownArgument

def parse (args : List Text) : Except Refusal CommandLine := parseFrom {} none args

def config (c : CommandLine) (files : Config.Files) : Except ConfigError Config := do
  let base ← match c.configFile with
    | none => .ok {}
    | some path => Config.ofFile files path
  return { base with
    interpreter := c.interpreter.getD base.interpreter
    args := if c.args.isEmpty then base.args else c.args
    workingDirectory := c.workingDirectory <|> base.workingDirectory
    prompt := c.prompt.getD base.prompt
    commandTimeout := c.timeout.getD base.commandTimeout }

end CommandLine

end Prompter
