import Prompter.Proofs.Dispatcher.Lines

namespace Prompter.Dispatcher

def Event.closing? : Event → Option Closing
  | .shutdown => some .stopped
  | .close c => some c
  | _ => none

/-- How a command fails that is unanswered when the event comes: a stop names the command, the end
of the interpreter's output says what has happened to it. -/
inductive Rejection (command : Text) : Event → SessionError → Prop
  | stopped (e : Event) (he : e = .shutdown ∨ e = .close .stopped) :
    Rejection command e (.stopped command)
  | outputEnded :
    Rejection command (.close .outputEnded) (.transport "interpreter closed its output")
  | readFailed (message : Text) :
    Rejection command (.close (.readFailed message)) (.transport ("read failed: " ++ message))

theorem rejection {e : Event} {closing : Closing} (he : e.closing? = some closing)
    (command : Text) : Rejection command e (closing.rejection command) := by
  cases e with
  | shutdown =>
    cases he
    exact .stopped _ (.inl rfl)
  | close c =>
    cases he
    cases closing with
    | stopped => exact .stopped _ (.inr rfl)
    | outputEnded => exact .outputEnded
    | readFailed message => exact .readFailed message
  | _ => cases he

section Step

variable {d d' : Dispatcher} {e : Event} {ns : List Notice}

/-- An event that closes rejects all requests; any other leaves the record of a closing alone. -/
theorem Outcome.closing (h : Outcome d e d' ns) :
    (e.closing? = none ∧ rejected ns = [] ∧ d'.closed = d.closed) ∨
      ∃ c, e.closing? = some c ∧ ns = d.pending.map .rejected ∧
        d'.calls = (d.close c).1.calls ∧ d'.closed = (d.close c).1.closed := by
  have hnone {ns : List Notice} (hns : ∀ n ∈ ns, n.rejected? = none) : rejected ns = [] :=
    List.filterMap_eq_nil_iff.2 hns
  cases h with
  | idle e he =>
    refine .inl ⟨?_, rfl, rfl⟩
    obtain rfl | hcall := he
    · rfl
    · cases e with
      | shutdown => cases hcall
      | close c => cases hcall
      | _ => rfl
  | close c => exact .inr ⟨c, rfl, rfl, rfl, rfl⟩
  | shutdown => exact .inr ⟨.stopped, rfl, rfl, rfl, rfl⟩
  | writeFailed c message =>
    refine .inl ⟨rfl, hnone fun n hn ↦ ?_, rfl⟩
    rcases List.mem_append.1 hn with hn | hn
    · obtain ⟨r, -, rfl⟩ := List.mem_map.1 hn
      rfl
    · obtain rfl := List.mem_singleton.1 hn
      rfl
  | deliver chunk =>
    refine .inl ⟨rfl, hnone fun n hn ↦ ?_, (handOverAll_outline _ _).closed⟩
    rcases mem_handOverAll hn with ⟨r, f, rfl⟩ | ⟨f, rfl⟩ <;> rfl
  | resume c result =>
    refine .inl ⟨rfl, ?_, rfl⟩
    obtain he | ⟨t, he⟩ := finish_notices d c result <;> rw [he] <;> rfl
  | _ => exact .inl ⟨rfl, rfl, rfl⟩

theorem answer_close (ha : Awaited d) {closing : Closing} {c : Call}
    (hc : c ∈ (d.close closing).1.calls) (hr : c.request ∈ d.pending) :
    c.answer = some (.error (closing.rejection c.command)) := by
  rcases mem_rejectAll hc with ⟨-, hne⟩ | ⟨r, hmem, c₀, -, hi, rfl⟩
  · exact absurd rfl (hne _ hr)
  · obtain rfl : c₀.request = r := List.inj_on_of_nodup_map ha.nodup hr hmem hi
    rfl

theorem mem_close (ha : Awaited d) {c : Call} (hc : c ∈ d.calls) (hr : c.request ∈ d.pending)
    (closing : Closing) :
    { c with answer := some (.error (closing.rejection c.command)) } ∈
      (d.close closing).1.calls := by
  have hm : c.outline ∈ (d.close closing).1.calls.map Call.outline := by
    rw [close_eq, (rejectAll_outline _ closing d.pending).calls]
    exact List.mem_map_of_mem hc
  obtain ⟨⟨id, command, echo, stage, answer⟩, hc', hout⟩ := List.mem_map.1 hm
  cases hout
  have hanswer := answer_close ha hc' hr
  exact hanswer ▸ hc'

end Step

section Aftermath

variable {d₀ d d' : Dispatcher} {e : Event} {ns ns' : List Notice}

def Turnless (d : Dispatcher) (id : CallId) : Prop := id ∈ d.queued ∨ d.nextId ≤ id

theorem Orderly.not_turnless (ho : Orderly d) {c : Call} (hc : c ∈ d.calls)
    (hs : c.stage ≠ .queued) : ¬ Turnless d c.id := by
  rintro (hq | hle)
  · exact hs ((ho.stage_queued c hc).2 hq)
  · exact Nat.not_le_of_gt (ho.lt_nextId c hc) hle

theorem Awaited.not_turnless (ha : Awaited d) {r : Request} (hr : r ∈ d.pending) :
    ¬ Turnless d r.call := by
  rintro (hq | hle)
  · have hlt := (List.pairwise_append.1 ha.sorted).2.2 r.call (List.mem_map_of_mem hr) r.call hq
    exact Nat.lt_irrefl _ hlt
  · exact Nat.not_le_of_gt (ha.lt_nextId r hr) hle

theorem Outcome.turnless (h : Outcome d e d' ns) {id : CallId} (ht : Turnless d' id) :
    Turnless d id := by
  obtain ⟨-, hn, hq⟩ | ⟨-, hn, hq⟩ | ⟨c, -, -, hn, hq, -⟩ := h.order
  · exact ht.imp (fun hid ↦ hq.subset hid) fun hle ↦ hn ▸ hle
  · obtain hid | hle := ht
    · rw [hq, List.mem_append, List.mem_singleton] at hid
      exact hid.imp_right fun heq ↦ Nat.le_of_eq heq.symm
    · rw [hn] at hle
      exact .inr (Nat.le_of_succ_le hle)
  · exact ht.imp (fun hid ↦ hq ▸ List.mem_cons_of_mem _ hid) fun hle ↦ hn ▸ hle

theorem Outcome.registered_of_closed (h : Outcome d e d' ns) (hc : d.isClosed) :
    registered ns = [] := by
  obtain ⟨hr, -⟩ | ⟨hr, -⟩ | ⟨c, -, -, -, -, -, hopen⟩ := h.order
  · exact hr
  · exact hr
  · simp [Dispatcher.isClosed, hopen] at hc

theorem Outcome.resolved_of_closed (h : Outcome d e d' ns) (ha : Awaited d) (hc : d.isClosed) :
    resolved ns = [] := by
  have hperm := h.fifo.1.perm
  rw [ha.closed hc, h.registered_of_closed hc] at hperm
  exact (List.append_eq_nil_iff.1 hperm.eq_nil).1

theorem Outcome.closed_of_closed (h : Outcome d e d' ns) (hc : d.isClosed) :
    d'.closed = d.closed := by
  obtain ⟨-, -, hclosed⟩ | ⟨c, -, -, -, hclosed⟩ := h.closing
  · exact hclosed
  · obtain ⟨reason, hr⟩ := Option.isSome_iff_exists.1 hc
    rw [hclosed, close_closed, hr]
    rfl

theorem Outcome.isClosed (h : Outcome d e d' ns) (hc : d.isClosed) : d'.isClosed := by
  rwa [Dispatcher.isClosed, h.closed_of_closed hc]

theorem Awaited.answer_ne_none (ha : Awaited d) (hc : d.isClosed) {c : Call} (hm : c ∈ d.calls)
    (hs : c.stage ≠ .queued) : c.answer ≠ none := by
  intro hnone
  have hp := ha.pending c hm hs hnone
  rw [ha.closed hc] at hp
  cases hp

/-- What has happened since `d₀`, where the dispatcher was closed. The calls that had the turn
before go on with the answers that they have; no other call comes to make a request. -/
structure Aftermath (d₀ : Dispatcher) (ns : List Notice) (d : Dispatcher) : Prop where
  closed : d.closed = d₀.closed
  registered : registered ns = []
  turnless : ∀ id, Turnless d id → Turnless d₀ id
  calls : ∀ c ∈ d.calls, c.stage ≠ .queued → ∃ c₀ ∈ d₀.calls, c₀.request = c.request ∧
    c₀.stage ≠ .queued ∧ c₀.answer = c.answer ∧ (c.stage = .writing → c₀.stage = .writing)
  wrote : ∀ text, .wrote text ∈ ns → ∃ c ∈ d₀.calls, c.stage = .writing ∧ text = c.request.line
  returned : ∀ c result, .returned c result ∈ ns →
    (Turnless d₀ c.id ∧ ∃ message, result = .error (.transport message)) ∨
      ∃ c₀ ∈ d₀.calls, c₀.request = c.request ∧ c₀.stage ≠ .queued ∧
        (c₀.answer = some result ∨
          c.stage = .writing ∧ ∃ message, result = .error (.transport message))

theorem Aftermath.refl (d : Dispatcher) : Aftermath d [] d where
  closed := rfl
  registered := rfl
  turnless _ := id
  calls c hc hs := ⟨c, hc, rfl, hs, rfl, id⟩
  wrote := by simp
  returned := by simp

theorem Aftermath.step (h : Aftermath d₀ ns d) (hc₀ : d₀.isClosed) (ho : Orderly d)
    (ha : Awaited d) (hs : Outcome d e d' ns') : Aftermath d₀ (ns ++ ns') d' := by
  have hclosed : d.isClosed := by rwa [isClosed, h.closed]
  have hreg := hs.registered_of_closed hclosed
  have hres := hs.resolved_of_closed ha hclosed
  constructor
  case closed => exact (hs.closed_of_closed hclosed).trans h.closed
  case registered => rw [registered_append, h.registered, hreg, List.append_nil]
  case turnless => exact fun id hid ↦ h.turnless id (hs.turnless hid)
  case calls =>
    intro c hc hq
    cases hs.origin ho hc with
    | kept _ hm => exact h.calls c hm hq
    | submitted => exact absurd rfl hq
    | registered c₁ hm he hn =>
      rw [hn] at hreg
      cases hreg
    | written c₁ hm hw =>
      obtain ⟨c₀, hc₀, hr, hq₀, ha₀, -⟩ := h.calls c₁ hm (Call.ne_queued_of_writing hw)
      exact ⟨c₀, hc₀, hr, hq₀, ha₀, Stage.noConfusion⟩
    | answered c₁ r f hm hr hn =>
      have hmem := mem_resolved_of_answered hn
      rw [hres] at hmem
      cases hmem
    | rejected c₁ r error hm hr hn =>
      have hmem : r ∈ resolved ns' := List.mem_filterMap.2 ⟨_, hn, rfl⟩
      rw [hres] at hmem
      cases hmem
  case wrote =>
    intro text hn
    rcases List.mem_append.1 hn with hn | hn
    · exact h.wrote text hn
    · obtain ⟨c, hc, hw, -, rfl⟩ := hs.of_wrote hn
      obtain ⟨c₀, hc₀, hr, -, -, hw₀⟩ := h.calls c hc (Call.ne_queued_of_writing hw)
      exact ⟨c₀, hc₀, hw₀ hw, congrArg Request.line hr.symm⟩
  case returned =>
    intro c result hn
    rcases List.mem_append.1 hn with hn | hn
    · exact h.returned c result hn
    · obtain ⟨hc, -, hend⟩ := hs.of_ended hn rfl
      cases hend with
      | refused rest message hq =>
        have hid : c.id ∈ d.queued := queued_cons hq ▸ List.mem_cons_self
        exact .inl ⟨h.turnless c.id (.inl hid), message, rfl⟩
      | unwritten _ message hw =>
        obtain ⟨c₀, hc₀, hr, hq₀, -⟩ := h.calls c hc (Call.ne_queued_of_writing hw)
        exact .inr ⟨c₀, hc₀, hr, hq₀, .inr ⟨hw, message, rfl⟩⟩
      | answered _ hw hanswer =>
        obtain ⟨c₀, hc₀, hr, hq₀, ha₀, -⟩ := h.calls c hc (Call.ne_queued_of_waiting hw)
        exact .inr ⟨c₀, hc₀, hr, hq₀, .inl (ha₀.trans hanswer)⟩
      | expired elapsed hw hanswer =>
        exact absurd hanswer (ha.answer_ne_none hclosed hc (Call.ne_queued_of_waiting hw))

theorem aftermath_run (hc : d.isClosed) (ho : Orderly d) (ha : Awaited d) (es : List Event) :
    Aftermath d (d.run es).2 (d.run es).1 :=
  later_induction ho ha (.refl d) (fun h ho ha hs ↦ h.step hc ho ha hs) es

end Aftermath

section Draining

variable {d : Dispatcher}

theorem Orderly.find?_eq (ho : Orderly d) {c : Call} (hc : c ∈ d.calls) :
    d.find? c.id = some c := by
  cases hf : d.find? c.id with
  | none => exact absurd rfl (find?_eq_none.1 hf c hc)
  | some c' =>
    obtain ⟨hc', hi⟩ := mem_of_find? hf
    rw [ho.eq_of_id hc' hc hi]

theorem takeTurn_of_closed (ho : Orderly d) {reason : Text} (hc : d.closed = some reason)
    (hh : d.holder = none) {id : CallId} {rest : List Waiter} (hq : d.queue = .call id :: rest) :
    ∃ c ∈ d.calls, c.id = id ∧ d.takeTurn = (d.remove id, [.returned c (.error (.transport
      (if d.writable then "interpreter is gone: " ++ reason
        else "no active interpreter (session stopped)")))]) := by
  obtain ⟨c, hm, rfl⟩ := ho.of_queued id (queued_cons hq ▸ List.mem_cons_self)
  have hf : { d with queue := rest }.find? c.id = some c := ho.find?_eq hm
  refine ⟨c, hm, rfl, ?_⟩
  unfold takeTurn
  split
  next rest' hh' hq' =>
    rw [hq] at hq'
    cases hq'
  next id' rest' hh' hq' =>
    rw [hq] at hq'
    cases hq'
    dsimp only
    rw [hf]
    dsimp only
    split
    next hw => rw [finish_error, remove_dequeue hq, if_neg (by simpa using hw)]
    next hw =>
      split
      next reason' hr =>
        cases hc.symm.trans hr
        rw [finish_error, remove_dequeue hq, if_pos (by simpa using hw)]
      next hopen => cases hc.symm.trans hopen
  next hne => exact absurd hq (hne _ rest hh)

/-- The events that wait for nothing: neither for the interpreter nor for a caller or a clock. -/
def Event.isOwn : Event → Bool
  | .takeTurn => true
  | .written _ => true
  | .resume _ => true
  | _ => false

/-- What there is left to do. A call whose line is being written has one more step to go. -/
def work (d : Dispatcher) : Nat := d.calls.length + d.writing.length + d.queue.length

theorem work_remove (ho : Orderly d) {c : Call} (hc : c ∈ d.calls) (hs : c.stage ≠ .writing) :
    work (d.remove c.id) < work d := by
  have hcalls : (d.remove c.id).calls.length < d.calls.length :=
    List.length_filter_lt_length_iff_exists.2 ⟨c, hc, by simp⟩
  have hqueue : (d.remove c.id).queue.length ≤ d.queue.length := List.length_filter_le ..
  rw [work, work, ho.writing_remove hc hs]
  omega

theorem work_written (ho : Orderly d) {c : Call} (hc : c ∈ d.calls) (hs : c.stage = .writing) :
    work (d.written c).1 < work d := by
  have hcalls : (d.written c).1.calls.length = d.calls.length := List.length_map ..
  rw [work, work, ho.writing_written hc hs, ho.writing_of_mem hc hs, hcalls]
  exact Nat.add_lt_add_right (Nat.lt_succ_self _) _

/-- As long as there are calls after a closing, one of them can go on. -/
theorem exists_progress (ho : Orderly d) (ha : Awaited d) (hc : d.isClosed)
    (hne : d.calls ≠ []) : ∃ e, e.isOwn ∧ work (d.step e).1 < work d := by
  by_cases hw : ∃ c ∈ d.calls, c.stage = .writing
  · obtain ⟨c, hm, hs⟩ := hw
    refine ⟨.written c.id, rfl, ?_⟩
    rw [step, onCall, ho.find?_eq hm]
    simpa only [hs, if_true] using work_written ho hm hs
  by_cases hr : ∃ c ∈ d.calls, c.stage = .waiting
  · obtain ⟨c, hm, hs⟩ := hr
    obtain ⟨result, hanswer⟩ := Option.ne_none_iff_exists'.1
      (ha.answer_ne_none hc hm (Call.ne_queued_of_waiting hs))
    refine ⟨.resume c.id, rfl, ?_⟩
    rw [step, onCall, ho.find?_eq hm]
    simp only [hs, if_true, hanswer]
    exact work_remove ho hm (by rw [hs]; decide)
  -- every call waits for the turn, which nobody has
  have hqueued (c : Call) (hm : c ∈ d.calls) : c.stage = .queued := by
    cases hs : c.stage with
    | queued => rfl
    | writing => exact absurd ⟨c, hm, hs⟩ hw
    | waiting => exact absurd ⟨c, hm, hs⟩ hr
  have hh : d.holder = none := by
    apply Option.eq_none_iff_forall_ne_some.2
    intro id hid
    obtain ⟨c, hm, -, hs⟩ := ho.of_holder id hid
    exact hs (hqueued c hm)
  refine ⟨.takeTurn, rfl, ?_⟩
  cases hq : d.queue with
  | nil =>
    obtain ⟨c, hm⟩ := List.exists_mem_of_ne_nil _ hne
    have hid := (ho.stage_queued c hm).1 (hqueued c hm)
    simp [queued, hq] at hid
  | cons w rest =>
    cases w with
    | shutdown =>
      simp only [step, takeTurn, hh, hq, work, writing, List.length_cons]
      omega
    | call id =>
      obtain ⟨reason, hreason⟩ := Option.isSome_iff_exists.1 hc
      obtain ⟨c, hm, rfl, hstep⟩ := takeTurn_of_closed ho hreason hh hq
      rw [step, hstep]
      exact work_remove ho hm (by rw [hqueued c hm]; decide)

theorem exists_drained (ho : Orderly d) (ha : Awaited d) (hc : d.isClosed) :
    ∃ es, (∀ e ∈ es, e.isOwn) ∧ (d.run es).1.calls = [] := by
  induction hn : work d using Nat.strongRecOn generalizing d with
  | ind n ih =>
    by_cases hne : d.calls = []
    · exact ⟨[], by simp, hne⟩
    · obtain ⟨e, he, hlt⟩ := exists_progress ho ha hc hne
      have hs := step_outcome d e
      obtain ⟨es, hown, hcalls⟩ :=
        ih _ (hn ▸ hlt) (ho.outcome hs) (ha.outcome ho hs) (hs.isClosed hc) rfl
      exact ⟨e :: es, List.forall_mem_cons.2 ⟨he, hown⟩, hcalls⟩

end Draining

theorem closed_run (prompt : Text) (es : List Event) :
    ((start prompt).run es).1.closed = (es.findSome? Event.closing?).map Closing.reason := by
  refine run_induction
    (P := fun es _ d ↦ d.closed = (es.findSome? Event.closing?).map Closing.reason) rfl
    (fun es e h ↦ ?_) es
  rw [List.findSome?_append, List.findSome?_singleton]
  obtain ⟨he, -, hclosed⟩ | ⟨c, he, -, -, hclosed⟩ :=
    (step_outcome ((start prompt).run es).1 e).closing
  · rw [hclosed, h, he, Option.or_none]
  · rw [hclosed, close_closed, h, he]
    cases es.findSome? Event.closing? <;> rfl

/-- What is final about a closing, in the run of `es` up to the state `d`. -/
structure Final (prompt : Text) (es : List Event) (d : Dispatcher) : Prop where
  /-- The reason on record is that of the first closing. -/
  reason : d.closed = (es.findSome? Event.closing?).map Closing.reason
  pending : d.isClosed → d.pending = []
  /-- Without the interpreter and without waiting, all calls come to their end. -/
  drained : d.isClosed → ∃ later, (∀ e ∈ later, e.isOwn) ∧ (d.run later).1.calls = []
  /-- A call that gets the turn makes no request, writes nothing and fails. -/
  turn : ∀ reason, d.closed = some reason → d.holder = none →
    ∀ id rest, d.queue = .call id :: rest → ∃ c ∈ d.calls, c.id = id ∧
      d.step .takeTurn = (d.remove id, [.returned c (.error (.transport
        (if d.writable then "interpreter is gone: " ++ reason
          else "no active interpreter (session stopped)")))])
  /-- A closing rejects all requests there are. Their calls return the rejection, or that the line
  could not be written. -/
  rejected : ∀ a e b, es = a ++ e :: b → e.closing?.isSome →
    let before := ((start prompt).run a).1
    let after := (before.step e).1
    (before.step e).2 = before.pending.map .rejected ∧ after.pending = [] ∧
      (∀ c ∈ before.calls, c.request ∈ before.pending → ∃ error, Rejection c.command e error ∧
        { c with answer := some (.error error) } ∈ after.calls) ∧
      ∀ c result, c.request ∈ before.pending → .returned c result ∈ (after.run b).2 →
        (∃ error, Rejection c.command e error ∧ result = .error error) ∨
          c.stage = .writing ∧ ∃ message, result = .error (.transport message)
  /-- Nothing is asked after a closing, and only a line that was being written is written. -/
  silent : ∀ a b, es = a ++ b → ((start prompt).run a).1.isClosed →
    let before := ((start prompt).run a).1
    let later := (before.run b).2
    d.closed = before.closed ∧ registered later = [] ∧
      (∀ text, .wrote text ∈ later →
        ∃ c ∈ before.calls, c.stage = .writing ∧ text = c.request.line) ∧
      ∀ c result, Turnless before c.id → .returned c result ∈ later →
        ∃ message, result = .error (.transport message)

theorem final_run (prompt : Text) (es : List Event) :
    Final prompt es ((start prompt).run es).1 := by
  have ho := orderly_run prompt es
  have ha := awaited_run prompt es
  constructor
  case reason => exact closed_run prompt es
  case pending => exact ha.closed
  case drained => exact exists_drained ho ha
  case turn =>
    intro reason hc hh id rest hq
    exact takeTurn_of_closed ho hc hh hq
  case rejected =>
    rintro a e b rfl he
    have ho := orderly_run prompt a
    have ha := awaited_run prompt a
    have hs := step_outcome ((start prompt).run a).1 e
    obtain ⟨hnone, -⟩ | ⟨closing, he, hns, hcalls, hclosed⟩ := hs.closing
    · rw [hnone] at he
      cases he
    have hafter : (((start prompt).run a).1.step e).1.isClosed := by
      rw [isClosed, hclosed]
      exact close_isClosed ..
    have ha' := ha.outcome ho hs
    refine ⟨hns, ha'.closed hafter, fun c hc hr ↦ ?_, fun c result hr hn ↦ ?_⟩
    · refine ⟨closing.rejection c.command, rejection he c.command, ?_⟩
      rw [hcalls]
      exact mem_close ha hc hr closing
    · have h := aftermath_run hafter (ho.outcome hs) ha' b
      obtain ⟨ht, -⟩ | ⟨c₀, hc₀, hr₀, -, hanswer | hw⟩ := h.returned c result hn
      · exact absurd (hs.turnless ht) (ha.not_turnless hr)
      · rw [hcalls] at hc₀
        have hcommand : c₀.command = c.command := congrArg Request.command hr₀
        have hrejected := answer_close ha hc₀ (hr₀ ▸ hr)
        rw [hanswer, hcommand, Option.some.injEq] at hrejected
        exact .inl ⟨_, rejection he c.command, hrejected⟩
      · exact .inr hw
  case silent =>
    rintro a b rfl hc
    have hafter := aftermath_run hc (orderly_run prompt a) (awaited_run prompt a) b
    rw [run_append]
    refine ⟨hafter.closed, hafter.registered, hafter.wrote, fun c result ht hn ↦ ?_⟩
    obtain ⟨-, hmessage⟩ | ⟨c₀, hc₀, hr, hq, -⟩ := hafter.returned c result hn
    · exact hmessage
    · have hi : c₀.id = c.id := congrArg Request.call hr
      exact absurd (hi ▸ ht) ((orderly_run prompt a).not_turnless hc₀ hq)

end Prompter.Dispatcher
