import Prompter.Proofs.Dispatcher.Lines
import Prompter.Proofs.Dispatcher.Shut

namespace Prompter

def Call.heed (c : Call) (fs : List Frame) : Call :=
  { c with answer := c.answer <|> fs.head?.map fun frame ↦ .ok (frame.echoed c.command) }

namespace Call

variable {c : Call}

theorem heed_nil : c.heed [] = c := by
  obtain ⟨id, command, echo, stage, answer⟩ := c
  cases answer <;> rfl

theorem heed_of_answer {r : Except SessionError Frame} (h : c.answer = some r) (fs : List Frame) :
    c.heed fs = c := by
  obtain ⟨id, command, echo, stage, answer⟩ := c
  cases h
  rfl

theorem heed_append (fs gs : List Frame) (s : Stage) :
    { c.heed fs with stage := s }.heed gs = { c.heed (fs ++ gs) with stage := s } := by
  cases ha : c.answer <;> cases fs <;> simp [heed, ha]

end Call

namespace Dispatcher

theorem handOverAll_append (d : Dispatcher) (fs gs : List Frame) :
    d.handOverAll (fs ++ gs) =
      (((d.handOverAll fs).1.handOverAll gs).1,
        (d.handOverAll fs).2 ++ ((d.handOverAll fs).1.handOverAll gs).2) := by
  induction fs generalizing d with
  | nil => simp [handOverAll]
  | cons f fs ih => simp [handOverAll, ih]

theorem handOver_framer (d : Dispatcher) (g : Framer) (f : Frame) :
    { d with framer := g }.handOver f =
      ({ (d.handOver f).1 with framer := g }, (d.handOver f).2) := by
  obtain ⟨framer, pending⟩ := d
  cases pending <;> rfl

theorem handOverAll_framer (d : Dispatcher) (g : Framer) (fs : List Frame) :
    { d with framer := g }.handOverAll fs =
      ({ (d.handOverAll fs).1 with framer := g }, (d.handOverAll fs).2) := by
  induction fs generalizing d with
  | nil => rfl
  | cons f fs ih => simp only [handOverAll, handOver_framer, ih]

theorem handOverAll_nil {d : Dispatcher} (h : d.pending = []) (fs : List Frame) :
    d.handOverAll fs = (d, fs.map .unclaimed) := by
  induction fs with
  | nil => rfl
  | cons f fs ih => simp only [handOverAll, handOver_nil f h, ih, List.map_cons,
      List.singleton_append]

/-- It makes no difference whether the chunks come one by one or their frames at the end. -/
theorem run_deliver (d : Dispatcher) (ts : List Text) :
    d.run (ts.map .deliver) =
      { d with framer := (d.framer.run (ts.map .chunk)).1 }.handOverAll
        (d.framer.run (ts.map .chunk)).2 := by
  induction ts generalizing d with
  | nil => rfl
  | cons t ts ih =>
    have hstep : d.step (.deliver t) =
        { d with framer := (d.framer.feed t).1 }.handOverAll (d.framer.feed t).2 := rfl
    have hframer := (handOverAll_outline { d with framer := (d.framer.feed t).1 }
      (d.framer.feed t).2).framer
    simp only [List.map_cons, run, Framer.run, Framer.take, hstep, ih, hframer,
      handOverAll_append]
    simp only [handOverAll_framer]

section

variable (f : Framer) (closed : Option Text)

/-- Nobody calls. Where the dispatcher is closed, the line has been given up too. -/
def resting (n : CallId) : Dispatcher where
  framer := f
  pending := []
  closed := closed
  writable := closed.isNone
  calls := []
  nextId := n

def calling (c : Call) : Dispatcher where
  framer := f
  pending := []
  closed := closed
  writable := closed.isNone
  queue := [.call c.id]
  calls := [c]
  nextId := c.id + 1

/-- The only call has registered its request. The greeting has no turn. -/
def serving (c : Call) : Dispatcher where
  framer := f
  pending := if c.answer.isNone then [c.request] else []
  holder := if c.id = 0 then none else some c.id
  calls := [c]
  nextId := c.id + 1

end

variable {f : Framer} {c : Call}

theorem submit_resting (f : Framer) (closed : Option Text) (n : CallId) (command : Text)
    (echo : Echo) :
    (resting f closed n).step (.submit command echo) =
      (calling f closed ⟨n, command.trim, echo, .queued, none⟩, []) := rfl

theorem takeTurn_open (h0 : c.id ≠ 0) (ha : c.answer = none) : (calling f none c).step .takeTurn =
    (serving f.beginTurn { c with stage := .writing }, [.registered c.request]) := by
  simp [step, takeTurn, calling, find?, register, updateCall, serving, h0, ha, Call.request]

theorem takeTurn_closed (f : Framer) (reason : Text) (c : Call) :
    (calling f (some reason) c).step .takeTurn =
      (resting f (some reason) (c.id + 1), [.returned c (.error gone)]) := by
  simp [step, takeTurn, calling, find?, finish, remove, resting, gone]

theorem handOverAll_serving (fs : List Frame) :
    ((serving f c).handOverAll fs).1 = serving f (c.heed fs) := by
  cases ha : c.answer with
  | some r => rw [Call.heed_of_answer ha, handOverAll_nil (by simp [serving, ha])]
  | none =>
    cases fs with
    | nil => rw [Call.heed_nil, handOverAll]
    | cons frame fs =>
      have hp : (serving f c).pending = [c.request] := by simp [serving, ha]
      rw [handOverAll, handOver_cons frame hp]
      simp [handOverAll_nil, updateCall, serving, Call.heed, Call.request, ha]

theorem written_serving (hs : c.stage = .writing) : (serving f c).step (.written c.id) =
    (serving f { c with stage := .waiting }, [.wrote (c.command ++ ['\n'])]) := by
  simp [step, onCall, serving, find?, hs, written, updateCall, Call.request]

theorem resume_serving {r : Except SessionError Frame} (hs : c.stage = .waiting)
    (ha : c.answer = some r) : (serving f c).step (.resume c.id) =
      (resting f none (c.id + 1), ((serving f c).finish c r).2) := by
  simp [step, onCall, serving, find?, hs, ha, finish, remove, resting]

end Dispatcher

end Prompter
