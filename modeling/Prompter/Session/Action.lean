import Prompter.Session.Operation

namespace Prompter.Session

inductive Action where
  | load (program input : Text)
  | run
  | step
  | store
  | listBreakpoints
  | addBreakpoint (line : Nat) (program : Option Text)
  | deleteBreakpoint (line : Nat) (program : Option Text)
  | help
  | changeDirectory (directory : Text)
  | evaluate (expression : Text)
  | execute (command : Text) (echo : Echo)
  | stop
  deriving DecidableEq, Repr

inductive Value where
  | nothing
  | state (s : State)
  | outcome (o : Outcome)
  | bindings (b : Bindings)
  | listing (l : Listing)
  | lines (ls : List Text)
  | frame (f : Frame)
  deriving DecidableEq

def perform (echo : Echo) : Action → Operation Value
  | .load program input => .state <$> load echo program input
  | .run => .outcome <$> run echo
  | .step => .outcome <$> step echo
  | .store => .bindings <$> store echo
  | .listBreakpoints => .listing <$> listBreakpoints echo
  | .addBreakpoint n program => .state <$> addBreakpoint echo n program
  | .deleteBreakpoint n program => .state <$> deleteBreakpoint echo n program
  | .help => .lines <$> help echo
  | .changeDirectory directory => .lines <$> changeDirectory echo directory
  | .evaluate expression => .lines <$> evaluate echo expression
  | .execute command mode => .frame <$> execute command mode
  | .stop => (fun _ ↦ .nothing) <$> stop

end Prompter.Session
