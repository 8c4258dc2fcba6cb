import Prompter.Connection
import Prompter.Session.Action

namespace Prompter.Session

/-- What happens at the connection during one wait, and, where the wait is for the end of the
interpreter, why that cannot be had, if so. -/
structure Wait where
  events : List Connection.Event := []
  fault : Option Text := none

def Wait.replied (prompt : Text) (id : CallId) (reply : Text) : Wait where
  events := [.dispatch .takeTurn, .dispatch (.written id),
    .dispatch (.deliver (reply ++ "\n" ++ prompt)), .dispatch (.resume id)]

structure Exchange where
  command : Text
  answer : Except SessionError Frame

structure Scene where
  action : Action
  before : List Connection.Event := []
  waits : List Wait := []

/-- An operation that is over, and the snapshot that it has left. Without a result it has been
given up. -/
structure Deed where
  action : Action
  exchanges : List Exchange
  result : Option (Except SessionError Value)
  state : State

/-- A session whose connection others may use too, between two operations and while one of them
waits. An operation is given up if what it waits for does not come. -/
structure Live where
  connection : Connection
  state : State := {}
  /-- All that has come about at the dispatcher. -/
  notices : List Dispatcher.Notice := []
  /-- The commands of the current operation that have been answered. -/
  exchanges : List Exchange := []
  /-- The waits to come of the current operation. -/
  waits : List Wait := []
  deeds : List Deed := []

namespace Live

def begin (connection : Connection) : Live := { connection }

def greeted (prompt : Text) : Live :=
  begin { dispatcher := ((Dispatcher.start prompt).run [.deliver prompt, .resume 0]).1 }

def returned? (id : CallId) (ns : List Dispatcher.Notice) : Option (Except SessionError Frame) :=
  ns.findSome? fun
    | .returned c result => if c.id = id then some result else none
    | _ => none

def shutDowns (ns : List Dispatcher.Notice) : Nat :=
  ns.countP fun
    | .shutDown => true
    | _ => false

def happen (w : Live) (es : List Connection.Event) : List Dispatcher.Notice × Live :=
  let (connection, notices) := w.connection.run es
  (notices, { w with connection, notices := w.notices ++ notices })

def nextWait (w : Live) : Wait × Live := (w.waits.headD {}, { w with waits := w.waits.tail })

/-- Makes a call and waits for its return; cancels it if it has not returned at the end. -/
def ask (command : Text) (echo : Echo) (w : Live) : Option (Except SessionError Frame) × Live :=
  let id := w.connection.dispatcher.nextId
  let (wait, w) := w.nextWait
  let (notices, w) := w.happen (.dispatch (.submit command echo) :: wait.events)
  match returned? id notices with
  | some answer => (some answer, { w with exchanges := w.exchanges ++ [⟨command, answer⟩] })
  | none => (none, (w.happen [.dispatch (.cancel id)]).2)

/-- Closes the dispatcher and waits until the line to the interpreter has been given up, which
happens after all that others have asked for earlier, and until the interpreter has ended. -/
def hangUp (w : Live) : Option (Except SessionError Unit) × Live :=
  let earlier := w.connection.dispatcher.queue.count .shutdown
  let (wait, w) := w.nextWait
  let (notices, w) := w.happen (.dispatch .shutdown :: wait.events)
  if earlier < shutDowns notices then
    match wait.fault with
    | some message => (some (.error (.io message)), w)
    | none => (some (.ok ()), w)
  else (none, w)

def host : Dialogue.Host (OptionT (StateM Live)) where
  ask := fun command echo ↦ OptionT.mk (ask command echo)
  look := OptionT.mk fun w ↦ (some w.state, w)
  become s := OptionT.mk fun w ↦ (some (), { w with state := s })
  hangUp := OptionT.mk hangUp

/-- How a dialogue goes in a live session. It has no outcome if it is given up. -/
def converse {α : Type} (w : Live) (d : Dialogue α) : Option α × Live := (d.hold host).run w

def act (echo : Echo) (w : Live) (scene : Scene) : Live :=
  let (_, w) := w.happen scene.before
  let (result, w) := { w with waits := scene.waits, exchanges := [] }.converse
    (perform echo scene.action).run
  { w with deeds := w.deeds ++ [⟨scene.action, w.exchanges, result, w.state⟩] }

def run (echo : Echo) (w : Live) (scenes : List Scene) : Live := scenes.foldl (act echo) w

end Live

end Prompter.Session
