import Mathlib.Data.List.Induction
import Prompter.Dispatcher

namespace Prompter

deriving instance DecidableEq for Call, Dispatcher.Notice

theorem Call.ne_queued_of_writing {c : Call} (h : c.stage = .writing) : c.stage ≠ .queued := by
  rw [h]
  decide

theorem Call.ne_queued_of_waiting {c : Call} (h : c.stage = .waiting) : c.stage ≠ .queued := by
  rw [h]
  decide

def Call.outline (c : Call) : CallId × Text × Echo × Stage := (c.id, c.command, c.echo, c.stage)

def Waiter.id? : Waiter → Option CallId
  | .call id => some id
  | .shutdown => none

namespace Dispatcher

theorem run_concat (d : Dispatcher) (es : List Event) (e : Event) :
    d.run (es ++ [e]) =
      (((d.run es).1.step e).1, (d.run es).2 ++ ((d.run es).1.step e).2) := by
  simp [run_append, run]

theorem run_induction {d : Dispatcher} {P : List Event → List Notice → Dispatcher → Prop}
    (hs : P [] [] d)
    (h : ∀ es e, P es (d.run es).2 (d.run es).1 →
      P (es ++ [e]) ((d.run es).2 ++ ((d.run es).1.step e).2) ((d.run es).1.step e).1)
    (es : List Event) : P es (d.run es).2 (d.run es).1 := by
  induction es using List.reverseRecOn with
  | nil => exact hs
  | append_singleton es e ih =>
    rw [run_concat]
    exact h es e ih

theorem exists_of_mem_run {d : Dispatcher} {es : List Event} {n : Notice} (h : n ∈ (d.run es).2) :
    ∃ a e b, es = a ++ e :: b ∧ n ∈ ((d.run a).1.step e).2 := by
  induction es using List.reverseRecOn with
  | nil => cases h
  | append_singleton es e ih =>
    rw [run_concat, List.mem_append] at h
    obtain h | h := h
    · obtain ⟨a, e', b, rfl, hn⟩ := ih h
      exact ⟨a, e', b ++ [e], by simp, hn⟩
    · exact ⟨es, e, [], rfl, h⟩

def queued (d : Dispatcher) : List CallId := d.queue.filterMap Waiter.id?

theorem mem_of_find? {d : Dispatcher} {id : CallId} {c : Call} (h : d.find? id = some c) :
    c ∈ d.calls ∧ c.id = id :=
  ⟨List.mem_of_find?_eq_some h, by simpa using List.find?_some h⟩

theorem find?_eq_none {d : Dispatcher} {id : CallId} :
    d.find? id = none ↔ ∀ c ∈ d.calls, c.id ≠ id := by
  simp [find?]

section Fields

variable (d : Dispatcher) (id : CallId) (f : Call → Call)

@[simp] theorem updateCall_pending : (d.updateCall id f).pending = d.pending := rfl
@[simp] theorem updateCall_holder : (d.updateCall id f).holder = d.holder := rfl
@[simp] theorem updateCall_queue : (d.updateCall id f).queue = d.queue := rfl
@[simp] theorem updateCall_nextId : (d.updateCall id f).nextId = d.nextId := rfl
@[simp] theorem remove_pending : (d.remove id).pending = d.pending := rfl

theorem mem_updateCall {c : Call} :
    c ∈ (d.updateCall id f).calls ↔
      ∃ c₀ ∈ d.calls, (if c₀.id = id then f c₀ else c₀) = c := by
  simp [updateCall]

theorem outline_updateCall (h : ∀ c, (f c).outline = c.outline) :
    (d.updateCall id f).calls.map Call.outline = d.calls.map Call.outline := by
  simp only [updateCall, List.map_map]
  apply List.map_congr_left
  intro c _
  simp only [Function.comp]
  split
  · exact h c
  · rfl

theorem mem_remove {c : Call} : c ∈ (d.remove id).calls ↔ c ∈ d.calls ∧ c.id ≠ id := by
  simp [remove]

theorem queued_remove : (d.remove id).queued = d.queued.filter (· ≠ id) := by
  simp only [queued, remove]
  induction d.queue with
  | nil => rfl
  | cons w rest ih =>
    cases w with
    | call j =>
      by_cases h : j = id
      · simpa [Waiter.id?, h] using ih
      · simpa [Waiter.id?, h] using ih
    | shutdown => simpa [List.filterMap_cons, Waiter.id?] using ih

end Fields

theorem handOver_nil {d : Dispatcher} (f : Frame) (h : d.pending = []) :
    d.handOver f = (d, [.unclaimed f]) := by
  simp [handOver, h]

theorem handOver_cons {d : Dispatcher} (f : Frame) {r : Request} {rest : List Request}
    (h : d.pending = r :: rest) :
    d.handOver f = ({ d with pending := rest }.updateCall r.call fun c ↦
      { c with answer := some (.ok (f.echoed r.command)) }, [.answered r f]) := by
  simp [handOver, h]

theorem mem_handOver {d : Dispatcher} {f : Frame} {r : Request} {rest : List Request}
    (h : d.pending = r :: rest) {c : Call} (hc : c ∈ (d.handOver f).1.calls) :
    (c ∈ d.calls ∧ c.id ≠ r.call) ∨
      ∃ c₀ ∈ d.calls, c₀.id = r.call ∧
        c = { c₀ with answer := some (.ok (f.echoed r.command)) } := by
  rw [handOver_cons f h] at hc
  obtain ⟨c₀, hc₀, rfl⟩ := (mem_updateCall ..).1 hc
  split
  next he => exact .inr ⟨c₀, hc₀, he, rfl⟩
  next he => exact .inl ⟨hc₀, he⟩

theorem handOverAll_induction {P : List Notice → Dispatcher → Prop}
    (h : ∀ ns d f, P ns d → P (ns ++ (d.handOver f).2) (d.handOver f).1)
    (fs : List Frame) (ns : List Notice) (d : Dispatcher) (hd : P ns d) :
    P (ns ++ (d.handOverAll fs).2) (d.handOverAll fs).1 := by
  induction fs generalizing ns d with
  | nil => simpa [handOverAll] using hd
  | cons f fs ih =>
    have hf := ih _ _ (h ns d f hd)
    simpa only [handOverAll, List.append_assoc] using hf

structure SameOutline (d d' : Dispatcher) : Prop where
  calls : d'.calls.map Call.outline = d.calls.map Call.outline
  framer : d'.framer = d.framer
  closed : d'.closed = d.closed
  writable : d'.writable = d.writable
  holder : d'.holder = d.holder
  queue : d'.queue = d.queue
  nextId : d'.nextId = d.nextId

theorem SameOutline.trans {d₁ d₂ d₃ : Dispatcher} (h : SameOutline d₁ d₂)
    (h' : SameOutline d₂ d₃) : SameOutline d₁ d₃ :=
  ⟨h'.calls.trans h.calls, h'.framer.trans h.framer, h'.closed.trans h.closed,
    h'.writable.trans h.writable, h'.holder.trans h.holder, h'.queue.trans h.queue,
    h'.nextId.trans h.nextId⟩

theorem handOver_outline (d : Dispatcher) (f : Frame) : SameOutline d (d.handOver f).1 := by
  cases h : d.pending with
  | nil => rw [handOver_nil f h]; exact ⟨rfl, rfl, rfl, rfl, rfl, rfl, rfl⟩
  | cons r rest =>
    rw [handOver_cons f h]
    exact ⟨outline_updateCall _ _ _ fun _ ↦ rfl, rfl, rfl, rfl, rfl, rfl, rfl⟩

theorem mem_calls_handOverAll {d : Dispatcher} {fs : List Frame} {c : Call}
    (hc : c ∈ (d.handOverAll fs).1.calls) :
    c ∈ d.calls ∨ ∃ c₀ ∈ d.calls, ∃ r f, r.call = c₀.id ∧ .answered r f ∈ (d.handOverAll fs).2 ∧
      c = { c₀ with answer := some (.ok (f.echoed r.command)) } := by
  refine handOverAll_induction
    (P := fun ns d' ↦ ∀ c ∈ d'.calls, c ∈ d.calls ∨
      ∃ c₀ ∈ d.calls, ∃ r f, r.call = c₀.id ∧ .answered r f ∈ ns ∧
        c = { c₀ with answer := some (.ok (f.echoed r.command)) })
    (fun ns d' f h c hc ↦ ?_) fs [] d (fun c hc ↦ .inl hc) c hc
  have hkept (hc : c ∈ d'.calls) : c ∈ d.calls ∨ ∃ c₀ ∈ d.calls, ∃ r g, r.call = c₀.id ∧
      .answered r g ∈ ns ++ (d'.handOver f).2 ∧
        c = { c₀ with answer := some (.ok (g.echoed r.command)) } := by
    refine (h c hc).imp_right fun ⟨c₀, hc₀, r, g, hr, hg, he⟩ ↦ ?_
    exact ⟨c₀, hc₀, r, g, hr, List.mem_append_left _ hg, he⟩
  cases hp : d'.pending with
  | nil =>
    rw [handOver_nil f hp] at hc
    exact hkept hc
  | cons r rest =>
    have hn : (.answered r f : Notice) ∈ ns ++ (d'.handOver f).2 := by simp [handOver_cons f hp]
    rcases mem_handOver hp hc with ⟨hc, -⟩ | ⟨c₁, hc₁, hi, rfl⟩
    · exact hkept hc
    · rcases h c₁ hc₁ with hc₁ | ⟨c₀, hc₀, r', g, -, -, rfl⟩
      · exact .inr ⟨c₁, hc₁, r, f, hi.symm, hn, rfl⟩
      · exact .inr ⟨c₀, hc₀, r, f, hi.symm, hn, rfl⟩

theorem handOverAll_outline (d : Dispatcher) (fs : List Frame) :
    SameOutline d (d.handOverAll fs).1 :=
  handOverAll_induction (P := fun _ d' ↦ SameOutline d d')
    (fun _ d' f h ↦ h.trans (handOver_outline d' f)) fs [] d ⟨rfl, rfl, rfl, rfl, rfl, rfl, rfl⟩

def rejectAll (d : Dispatcher) (c : Closing) (requests : List Request) : Dispatcher :=
  requests.foldl (fun d r ↦ d.updateCall r.call fun call ↦
    { call with answer := some (.error (c.rejection r.command)) }) d

theorem close_eq (d : Dispatcher) (c : Closing) :
    d.close c =
      (rejectAll { d with pending := [], closed := d.closed <|> some c.reason } c d.pending,
        d.pending.map .rejected) := rfl

theorem rejectAll_outline (d : Dispatcher) (c : Closing) (requests : List Request) :
    SameOutline d (d.rejectAll c requests) := by
  induction requests generalizing d with
  | nil => exact ⟨rfl, rfl, rfl, rfl, rfl, rfl, rfl⟩
  | cons r rest ih =>
    refine .trans ?_ (ih _)
    exact ⟨outline_updateCall _ _ _ fun _ ↦ rfl, rfl, rfl, rfl, rfl, rfl, rfl⟩

@[simp] theorem rejectAll_pending (d : Dispatcher) (c : Closing) (requests : List Request) :
    (d.rejectAll c requests).pending = d.pending := by
  induction requests generalizing d with
  | nil => rfl
  | cons r rest ih => exact ih _

@[simp] theorem close_pending (d : Dispatcher) (c : Closing) : (d.close c).1.pending = [] :=
  rejectAll_pending _ c d.pending

theorem close_closed (d : Dispatcher) (c : Closing) :
    (d.close c).1.closed = (d.closed <|> some c.reason) :=
  (rejectAll_outline _ c d.pending).closed

theorem close_isClosed (d : Dispatcher) (c : Closing) : (d.close c).1.closed.isSome := by
  rw [close_closed]
  cases d.closed <;> rfl

theorem mem_rejectAll {d : Dispatcher} {c : Closing} {requests : List Request} {call : Call}
    (h : call ∈ (d.rejectAll c requests).calls) :
    (call ∈ d.calls ∧ ∀ r ∈ requests, r.call ≠ call.id) ∨
      ∃ r ∈ requests, ∃ c₀ ∈ d.calls, c₀.id = r.call ∧
        call = { c₀ with answer := some (.error (c.rejection r.command)) } := by
  induction requests generalizing d with
  | nil => exact .inl ⟨h, by simp⟩
  | cons r rest ih =>
    rcases ih h with ⟨h, hrest⟩ | ⟨r', hr', c₁, hc₁, hi, rfl⟩
    · obtain ⟨c₀, hc₀, rfl⟩ := (mem_updateCall ..).1 h
      by_cases he : c₀.id = r.call
      · exact .inr ⟨r, List.mem_cons_self, c₀, hc₀, he, by simp [he]⟩
      · simp only [he, if_false] at hrest ⊢
        exact .inl ⟨hc₀, List.forall_mem_cons.2 ⟨Ne.symm he, hrest⟩⟩
    · obtain ⟨c₀, hc₀, rfl⟩ := (mem_updateCall ..).1 hc₁
      refine .inr ⟨r', List.mem_cons_of_mem _ hr', c₀, hc₀, ?_, ?_⟩
      · rw [← hi]; split <;> rfl
      · split <;> rfl

def Event.call? : Event → Option CallId
  | .written id => some id
  | .writeFailed id _ => some id
  | .resume id => some id
  | .expire id _ => some id
  | .cancel id => some id
  | _ => none

/-- What one event can do. The invariants of a run are proved by cases on it. -/
inductive Outcome (d : Dispatcher) : Event → Dispatcher → List Notice → Prop
  | idle (e : Event) (he : e = .takeTurn ∨ e.call?.isSome) : Outcome d e d []
  | submit (command : Text) (echo : Echo) :
    Outcome d (.submit command echo) (d.submit command echo).1 []
  | close (c : Closing) : Outcome d (.close c) (d.close c).1 (d.close c).2
  | shutdown :
    Outcome d .shutdown
      { (d.close .stopped).1 with queue := (d.close .stopped).1.queue ++ [.shutdown] }
      (d.close .stopped).2
  | hangUp (rest : List Waiter) (hh : d.holder = none) (hq : d.queue = .shutdown :: rest) :
    Outcome d .takeTurn { d with queue := rest, writable := false } [.shutDown]
  /-- The turn comes to a call that is there no more. -/
  | pass (id : CallId) (rest : List Waiter) (hh : d.holder = none)
      (hq : d.queue = .call id :: rest) (hf : d.find? id = none) :
    Outcome d .takeTurn { d with queue := rest } []
  | refuse (c : Call) (rest : List Waiter) (message : Text) (hh : d.holder = none)
      (hq : d.queue = .call c.id :: rest) (hc : c ∈ d.calls)
      (hr : d.writable = false ∨ d.closed.isSome) :
    Outcome d .takeTurn (d.remove c.id) [.returned c (.error (.transport message))]
  | register (c : Call) (rest : List Waiter) (hh : d.holder = none)
      (hq : d.queue = .call c.id :: rest) (hc : c ∈ d.calls) (hw : d.writable = true)
      (ho : d.closed = none) :
    Outcome d .takeTurn ({ d with queue := rest }.register c).1 [.registered ⟨c.id, c.command⟩]
  | written (c : Call) (hc : c ∈ d.calls) (hs : c.stage = .writing) :
    Outcome d (.written c.id) (d.written c).1 [.wrote (c.command ++ ['\n'])]
  | writeFailed (c : Call) (message : Text) (hc : c ∈ d.calls) (hs : c.stage = .writing) :
    Outcome d (.writeFailed c.id message) ({ d with pending := d.pending.dropLast }.remove c.id)
      (d.pending.getLast?.toList.map .withdrawn ++
        [.returned c (.error (.transport ("failed to write `" ++ c.command ++ "`: " ++ message)))])
  | deliver (chunk : Text) : Outcome d (.deliver chunk) (d.deliver chunk).1 (d.deliver chunk).2
  | resume (c : Call) (result : Except SessionError Frame) (hc : c ∈ d.calls)
      (hs : c.stage = .waiting) (ha : c.answer = some result) :
    Outcome d (.resume c.id) (d.remove c.id) (d.finish c result).2
  | expire (c : Call) (elapsed : Duration) (hc : c ∈ d.calls) (hs : c.stage = .waiting)
      (ha : c.answer = none) :
    Outcome d (.expire c.id elapsed) (d.remove c.id)
      [.returned c (.error (.timeout c.command elapsed))]
  | cancel (c : Call) (hc : c ∈ d.calls) :
    Outcome d (.cancel c.id) (d.remove c.id) [.cancelled c]

theorem finish_error (d : Dispatcher) (c : Call) (e : SessionError) :
    d.finish c (.error e) = (d.remove c.id, [.returned c (.error e)]) := rfl

theorem finish_notices (d : Dispatcher) (c : Call) (result : Except SessionError Frame) :
    (d.finish c result).2 = [.returned c result] ∨
      ∃ text, (d.finish c result).2 = [.published text, .returned c result] := by
  unfold finish
  split
  next => exact .inr ⟨_, rfl⟩
  next => exact .inl rfl

theorem remove_dequeue {d : Dispatcher} {id : CallId} {rest : List Waiter}
    (hq : d.queue = .call id :: rest) : { d with queue := rest }.remove id = d.remove id := by
  simp [remove, hq]

theorem takeTurn_outcome (d : Dispatcher) :
    Outcome d .takeTurn d.takeTurn.1 d.takeTurn.2 := by
  unfold takeTurn
  split
  next rest hh hq => exact .hangUp rest hh hq
  next id rest hh hq =>
    dsimp only
    split
    next hf => exact .pass id rest hh hq hf
    next c hf =>
      obtain ⟨hc, rfl⟩ := mem_of_find? hf
      split
      next hw =>
        rw [finish_error, remove_dequeue hq]
        exact .refuse c rest _ hh hq hc (.inl (by simpa using hw))
      next hw =>
        split
        next reason ho =>
          rw [finish_error, remove_dequeue hq]
          exact .refuse c rest _ hh hq hc (.inr (ho ▸ rfl))
        next ho => exact .register c rest hh hq hc (by simpa using hw) ho
  next => exact .idle _ (.inl rfl)

theorem onCall_outcome {d : Dispatcher} {e : Event} {id : CallId} {stage : Stage}
    {f : Call → Step} (he : e.call?.isSome) (h : ∀ c ∈ d.calls, c.id = id → c.stage = stage →
      Outcome d e (f c).1 (f c).2) :
    Outcome d e (d.onCall id stage f).1 (d.onCall id stage f).2 := by
  unfold onCall
  split
  next c hf =>
    obtain ⟨hc, hi⟩ := mem_of_find? hf
    split
    next hs => exact h c hc hi hs
    next => exact .idle e (.inr he)
  next => exact .idle e (.inr he)

theorem step_outcome (d : Dispatcher) (e : Event) : Outcome d e (d.step e).1 (d.step e).2 := by
  cases e with
  | submit command echo => exact .submit command echo
  | shutdown => exact .shutdown
  | takeTurn => exact takeTurn_outcome d
  | written id =>
    apply onCall_outcome rfl
    intro c hc hi hs
    subst hi
    exact .written c hc hs
  | writeFailed id message =>
    apply onCall_outcome rfl
    intro c hc hi hs
    subst hi
    exact .writeFailed c message hc hs
  | deliver chunk => exact .deliver chunk
  | close c => exact .close c
  | resume id =>
    apply onCall_outcome rfl
    intro c hc hi hs
    subst hi
    split
    next result ha => exact .resume c result hc hs ha
    next => exact .idle _ (.inr rfl)
  | expire id elapsed =>
    apply onCall_outcome rfl
    intro c hc hi hs
    subst hi
    split
    next => exact .idle _ (.inr rfl)
    next ha => exact .expire c elapsed hc hs ha
  | cancel id =>
    simp only [step]
    split
    next c hf =>
      obtain ⟨hc, rfl⟩ := mem_of_find? hf
      exact .cancel c hc
    next => exact .idle _ (.inr rfl)

end Dispatcher

end Prompter
