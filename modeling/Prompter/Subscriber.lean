import Prompter.Dispatcher

namespace Prompter

inductive Heard where
  | turn (text : Text)
  | lagged (missed : Nat)
  deriving DecidableEq, Repr

/-- Beyond the bound the oldest turn is lost, and the next read says how many have been. -/
structure Subscriber where
  /-- The turns that wait to be read, oldest first. -/
  unread : List Text := []
  missed : Nat := 0
  /-- All that has been read. -/
  heard : List Heard := []
  deriving DecidableEq, Repr

namespace Subscriber

def capacity : Nat := 64

def offer (s : Subscriber) (text : Text) : Subscriber :=
  if s.unread.length < capacity then { s with unread := s.unread ++ [text] }
  else { s with unread := s.unread.tail ++ [text], missed := s.missed + 1 }

def read (s : Subscriber) : Subscriber :=
  if s.missed = 0 then
    match s.unread with
    | [] => s
    | text :: rest => { s with unread := rest, heard := s.heard ++ [.turn text] }
  else { s with missed := 0, heard := s.heard ++ [.lagged s.missed] }

def notify (s : Subscriber) : Dispatcher.Notice → Subscriber
  | .published text => s.offer text
  | _ => s

end Subscriber

structure Broadcast where
  dispatcher : Dispatcher
  subscriber : Subscriber := {}

namespace Broadcast

inductive Event where
  | dispatch (e : Dispatcher.Event)
  | read
  deriving DecidableEq, Repr

abbrev Step := Broadcast × List Dispatcher.Notice

def step (b : Broadcast) : Event → Step
  | .dispatch e =>
    let (dispatcher, notices) := b.dispatcher.step e
    (⟨dispatcher, notices.foldl Subscriber.notify b.subscriber⟩, notices)
  | .read => ({ b with subscriber := b.subscriber.read }, [])

def run (b : Broadcast) : List Event → Step
  | [] => (b, [])
  | e :: rest =>
    let (b, notices) := b.step e
    let (b, more) := b.run rest
    (b, notices ++ more)

def start (prompt : Text) : Broadcast := { dispatcher := .start prompt }

end Broadcast

end Prompter
