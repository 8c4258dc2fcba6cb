import Prompter.Config.Document
import Prompter.Duration

namespace Prompter

structure Config where
  interpreter : Text := "hwhile"
  args : List Text := []
  workingDirectory : Option Text := none
  prompt : Text := "HWhile> "
  /-- How long a command may take in milliseconds, 0 for any time. -/
  commandTimeout : Nat := 10000
  echoOutput : Bool := true
  deriving DecidableEq, Repr

inductive ConfigError where
  | unreadable (path reason : Text)
  | malformed
  deriving DecidableEq, Repr

namespace ConfigError

def message : ConfigError → Text
  | unreadable path reason => "設定ファイルを開けません: " ++ path ++ ": " ++ reason
  | malformed => "設定の解析に失敗しました"

end ConfigError

namespace Config

def timeLimit (c : Config) : Option Nat :=
  if c.commandTimeout = 0 then none else some c.commandTimeout

/-- Makes one setting; there is no other key, and each has one type of value. -/
def set? (c : Config) (key : Text) (value : Document.Value) : Option Config :=
  match value with
  | .string t =>
    if key = "interpreter" then some { c with interpreter := t }
    else if key = "working_dir" then some { c with workingDirectory := some t }
    else if key = "prompt" then some { c with prompt := t }
    else none
  | .strings ts => if key = "args" then some { c with args := ts } else none
  | .number n => if key = "command_timeout_ms" then some { c with commandTimeout := n } else none
  | .boolean b => if key = "echo_output" then some { c with echoOutput := b } else none

/-- The defaults with the settings of a document, each of which may be made once. -/
def ofDocument (document : Text) : Except ConfigError Config := do
  let some entries := Document.entries? document | .error .malformed
  if ¬ (entries.map (·.1)).Nodup then .error .malformed
  let some config := entries.foldlM (fun c e ↦ set? c e.1 e.2) {} | .error .malformed
  return config

abbrev Files := Text → Except Text Text

def ofFile (files : Files) (path : Text) : Except ConfigError Config :=
  match files path with
  | .ok document => ofDocument document
  | .error reason => .error (.unreadable path reason)

end Config

end Prompter
