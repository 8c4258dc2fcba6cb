import Prompter.Duration
import Prompter.Tree.Error

namespace Prompter

inductive SessionError where
  | transport (message : Text)
  /-- The operation makes no sense now; nothing has been sent. -/
  | usage (message : Text)
  /-- The reply to `command` does not have the form that the command calls for. -/
  | unexpectedReply (command raw : Text)
  | timeout (command : Text) (elapsed : Duration)
  /-- The session was stopped while `command` was unanswered. -/
  | stopped (command : Text)
  | malformedTree (e : TreeError)
  | domain (e : DomainError)
  | io (message : Text)
  deriving DecidableEq, Repr

namespace SessionError

def message : SessionError → Text
  | transport m => "transport error: " ++ m
  | usage m => "usage error: " ++ m
  | unexpectedReply command raw => "unexpected reply to `" ++ command ++ "`: " ++ raw.quoted
  | timeout command elapsed => "`" ++ command ++ "` timed out after " ++ elapsed.text
  | stopped command => "session stopped before `" ++ command ++ "` was answered"
  | malformedTree e => "malformed tree in reply: " ++ e.message
  | domain e => e.diagnostic.text
  | io m => "IO error: " ++ m

end SessionError

end Prompter
