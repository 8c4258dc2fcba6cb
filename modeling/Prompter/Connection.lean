import Prompter.Dispatcher
import Prompter.Text.Utf8

namespace Prompter

inductive Read where
  | bytes (bs : Utf8.Bytes)
  | ended
  | failed (message : Text)
  deriving DecidableEq, Repr

/-- A dispatcher with the reader of the interpreter's output. Once that has ended or failed nothing
more is read. -/
structure Connection where
  dispatcher : Dispatcher
  decoder : Utf8.Decoder := {}
  reading : Bool := true

namespace Connection

abbrev Step := Connection × List Dispatcher.Notice

def step (c : Connection) (e : Dispatcher.Event) : Step :=
  let (dispatcher, notices) := c.dispatcher.step e
  ({ c with dispatcher }, notices)

/-- The dispatcher is given the characters that a read completes, if any. -/
def read (c : Connection) (r : Read) : Step :=
  if !c.reading then (c, [])
  else
    match r with
    | .bytes bs =>
      let (text, decoder) := c.decoder.decode bs
      if text.isEmpty then ({ c with decoder }, []) else { c with decoder }.step (.deliver text)
    | .ended => { c with reading := false }.step (.close .outputEnded)
    | .failed message => { c with reading := false }.step (.close (.readFailed message))

inductive Event where
  | dispatch (e : Dispatcher.Event)
  | read (r : Read)
  deriving DecidableEq, Repr

def take (c : Connection) : Event → Step
  | .dispatch e => c.step e
  | .read r => c.read r

def run (c : Connection) : List Event → Step
  | [] => (c, [])
  | e :: rest =>
    let (c, notices) := c.take e
    let (c, more) := c.run rest
    (c, notices ++ more)

end Connection

end Prompter
