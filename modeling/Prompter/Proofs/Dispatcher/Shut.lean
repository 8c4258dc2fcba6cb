import Prompter.Connection
import Prompter.Proofs.Dispatcher.Closing

namespace Prompter

namespace Dispatcher

def gone : SessionError := .transport "no active interpreter (session stopped)"

/-- The line has been given up, and since then nobody has had the turn. -/
structure Shut (d : Dispatcher) : Prop where
  orderly : Orderly d
  closed : d.isClosed
  unwritable : d.writable = false
  free : d.holder = none

variable {d d' : Dispatcher} {e : Event} {ns : List Notice}

theorem Outcome.unwritable (h : Outcome d e d' ns) (hw : d.writable = false)
    (hh : d.holder = none) : d'.writable = false ∧ d'.holder = none := by
  have hremove (id : CallId) : (d.remove id).holder = none := by simp [remove, hh]
  cases h with
  | idle | submit | pass | written => exact ⟨hw, hh⟩
  | close c =>
    have ho := rejectAll_outline { d with pending := [], closed := d.closed <|> some c.reason } c
      d.pending
    exact ⟨ho.writable.trans hw, ho.holder.trans hh⟩
  | shutdown =>
    have ho := rejectAll_outline
      { d with pending := [], closed := d.closed <|> some Closing.stopped.reason } .stopped
      d.pending
    exact ⟨ho.writable.trans hw, ho.holder.trans hh⟩
  | hangUp rest => exact ⟨rfl, hh⟩
  | refuse c => exact ⟨hw, hremove c.id⟩
  | register c rest _ hq hc hopen => exact absurd (hw.symm.trans hopen) Bool.false_ne_true
  | deliver chunk =>
    have ho := handOverAll_outline { d with framer := (d.framer.feed chunk).1 }
      (d.framer.feed chunk).2
    exact ⟨ho.writable.trans hw, ho.holder.trans hh⟩
  | writeFailed c message hc hs =>
    exact ⟨hw, by simp [remove, hh]⟩
  | resume c | expire c | cancel c => exact ⟨hw, hremove c.id⟩

theorem Outcome.of_shutDown (h : Outcome d e d' ns) (hn : .shutDown ∈ ns) :
    d'.writable = false ∧ d'.holder = none := by
  cases h with
  | hangUp rest hh hq => exact ⟨rfl, hh⟩
  | close c | shutdown =>
    obtain ⟨r, -, hr⟩ := List.mem_map.1 hn
    cases hr
  | deliver chunk =>
    obtain ⟨r, f, hr⟩ | ⟨f, hf⟩ := mem_handOverAll hn
    · cases hr
    · cases hf
  | writeFailed c message => simp at hn
  | resume c result =>
    obtain he | ⟨t, he⟩ := finish_notices d c result <;> simp [he] at hn
  | _ => simp at hn

theorem Outcome.of_returned_queued (h : Outcome d e d' ns) {c : Call}
    {result : Except SessionError Frame} (hn : .returned c result ∈ ns) (hs : c.stage = .queued) :
    e = .takeTurn ∧ ∃ rest, d.queue = .call c.id :: rest := by
  cases h with
  | refuse c' rest message hh hq =>
    cases List.mem_singleton.1 hn
    exact ⟨rfl, rest, hq⟩
  | close | shutdown =>
    obtain ⟨r, -, hr⟩ := List.mem_map.1 hn
    cases hr
  | deliver chunk =>
    obtain ⟨r, f, hr⟩ | ⟨f, hf⟩ := mem_handOverAll hn
    · cases hr
    · cases hf
  | writeFailed c' message hc hw =>
    obtain ⟨rfl, -⟩ : c = c' ∧ _ := by simpa using hn
    exact Stage.noConfusion (hs.symm.trans hw)
  | resume c' result' hc hw =>
    have hcc : c = c' := by
      obtain he | ⟨t, he⟩ := finish_notices d c' result' <;> simp [he] at hn <;> exact hn.1
    exact Stage.noConfusion (hs.symm.trans (hcc ▸ hw))
  | expire c' elapsed hc hw =>
    cases List.mem_singleton.1 hn
    exact Stage.noConfusion (hs.symm.trans hw)
  | _ => simp at hn

namespace Shut

theorem step (h : Shut d) (e : Event) : Shut (d.step e).1 := by
  have hs := step_outcome d e
  obtain ⟨hw, hh⟩ := hs.unwritable h.unwritable h.free
  exact ⟨h.orderly.outcome hs, hs.isClosed h.closed, hw, hh⟩

theorem stage (h : Shut d) {c : Call} (hc : c ∈ d.calls) (h0 : c.id ≠ 0) : c.stage = .queued := by
  by_contra hs
  have hturn := h.orderly.turn c hc h0 hs
  rw [h.free] at hturn
  cases hturn

theorem not_wrote (h : Shut d) (e : Event) (text : Text) : .wrote text ∉ (d.step e).2 := by
  intro hn
  obtain ⟨c, hc, hs, -⟩ := (step_outcome d e).of_wrote hn
  have h0 : c.id ≠ 0 := by
    intro h0
    rw [h.orderly.stage_zero c hc h0] at hs
    cases hs
  rw [h.stage hc h0] at hs
  cases hs

theorem takeTurn (h : Shut d) {id : CallId} {rest : List Waiter} (hq : d.queue = .call id :: rest) :
    ∃ c ∈ d.calls, c.id = id ∧ d.takeTurn = (d.remove id, [.returned c (.error gone)]) := by
  obtain ⟨reason, hr⟩ := Option.isSome_iff_exists.1 h.closed
  obtain ⟨c, hc, hid, he⟩ := takeTurn_of_closed h.orderly hr h.free hq
  rw [h.unwritable] at he
  exact ⟨c, hc, hid, he⟩

theorem returned (h : Shut d) {c : Call} {result : Except SessionError Frame}
    (hn : .returned c result ∈ (d.step e).2) (h0 : c.id ≠ 0) : result = .error gone := by
  have hs := step_outcome d e
  have hc := (hs.of_ended hn rfl).1
  obtain ⟨rfl, rest, hq⟩ := hs.of_returned_queued hn (h.stage hc h0)
  obtain ⟨c', -, -, he⟩ := h.takeTurn hq
  rw [Dispatcher.step, he] at hn
  cases List.mem_singleton.1 hn
  rfl

end Shut

/-- The call waits for the turn behind at most `n` others. -/
def Behind (d : Dispatcher) (id : CallId) (n : Nat) : Prop :=
  ∃ front back, d.queue = front ++ .call id :: back ∧ front.length ≤ n

variable {id j : CallId} {n : Nat}

theorem Behind.mem_queued (h : Behind d id n) : id ∈ d.queued := by
  obtain ⟨front, back, hq, -⟩ := h
  exact List.mem_filterMap.2 ⟨.call id, by simp [hq], rfl⟩

theorem Behind.mono (h : Behind d id n) {m : Nat} (hm : n ≤ m) : Behind d id m := by
  obtain ⟨front, back, hq, hn⟩ := h
  exact ⟨front, back, hq, Nat.le_trans hn hm⟩

theorem Behind.append (h : Behind d id n) (hq : ∃ more, d'.queue = d.queue ++ more) :
    Behind d' id n := by
  obtain ⟨front, back, hd, hn⟩ := h
  obtain ⟨more, hq⟩ := hq
  exact ⟨front, back ++ more, by simp [hq, hd], hn⟩

theorem Behind.remove (h : Behind d id n) (hj : j ≠ id) : Behind (d.remove j) id n := by
  obtain ⟨front, back, hq, hn⟩ := h
  refine ⟨front.filter (· ≠ .call j), back.filter (· ≠ .call j), ?_, ?_⟩
  · simp [Dispatcher.remove, hq, List.filter_append, Ne.symm hj]
  · exact Nat.le_trans (List.length_filter_le ..) hn

/-- Only the turn brings a call forward, and only a cancellation takes it away. -/
theorem Behind.outcome (h : Behind d id n) (ho : Orderly d) (hs : Outcome d e d' ns)
    (ht : e ≠ .takeTurn) (he : e ≠ .cancel id) : Behind d' id n := by
  have hne {c : Call} (hc : c ∈ d.calls) (hstage : c.stage ≠ .queued) : c.id ≠ id := by
    rintro rfl
    exact hstage ((ho.stage_queued c hc).2 h.mem_queued)
  cases hs with
  | idle => exact h
  | submit command echo => exact h.append ⟨[.call d.nextId], rfl⟩
  | close c =>
    exact h.append ⟨[], by rw [close_eq, (rejectAll_outline _ c d.pending).queue]; simp⟩
  | shutdown =>
    exact h.append ⟨[.shutdown], by rw [close_eq, (rejectAll_outline _ .stopped d.pending).queue]⟩
  | hangUp | pass | refuse | register => exact absurd rfl ht
  | written c => exact h.append ⟨[], (List.append_nil _).symm⟩
  | deliver chunk =>
    exact h.append ⟨[], by rw [Dispatcher.deliver, (handOverAll_outline _ _).queue]; simp⟩
  | writeFailed c message hc hw =>
    have hdrop : Behind { d with pending := d.pending.dropLast } id n := h.append ⟨[], by simp⟩
    exact hdrop.remove (hne hc (Call.ne_queued_of_writing hw))
  | resume c result hc hw => exact h.remove (hne hc (Call.ne_queued_of_waiting hw))
  | expire c elapsed hc hw => exact h.remove (hne hc (Call.ne_queued_of_waiting hw))
  | cancel c hc => exact h.remove fun hid ↦ he (hid ▸ rfl)

theorem Shut.turn_behind (h : Shut d) (hb : Behind d id n) :
    (∃ c result, .returned c result ∈ d.takeTurn.2 ∧ c.id = id) ∨
      ∃ m, n = m + 1 ∧ Behind d.takeTurn.1 id m := by
  obtain ⟨front, back, hq, hn⟩ := hb
  cases front with
  | nil =>
    obtain ⟨c, -, hc, he⟩ := h.takeTurn hq
    exact .inl ⟨c, .error gone, by rw [he]; exact List.mem_cons_self, hc⟩
  | cons w front =>
    have hrest : Behind { d with queue := front ++ .call id :: back } id front.length :=
      ⟨front, back, rfl, Nat.le_refl _⟩
    refine .inr ⟨n - 1, by simp at hn; omega, ?_⟩
    have hle : front.length ≤ n - 1 := by simp at hn; omega
    cases w with
    | shutdown =>
      have he : d.takeTurn = ({ d with queue := front ++ .call id :: back, writable := false },
          [.shutDown]) := by simp [Dispatcher.takeTurn, h.free, hq]
      rw [he]
      exact ⟨front, back, rfl, hle⟩
    | call j =>
      obtain ⟨c, -, -, he⟩ := h.takeTurn hq
      have hj : j ≠ id := by
        have hsorted := h.orderly.sorted
        rw [queued_cons hq, List.pairwise_cons] at hsorted
        exact Nat.ne_of_lt (hsorted.1 id hrest.mem_queued)
      rw [he, ← remove_dequeue hq]
      exact (hrest.mono hle).remove hj

end Dispatcher

namespace Connection

open Dispatcher

theorem run_append (c : Connection) (a b : List Event) :
    c.run (a ++ b) = (((c.run a).1.run b).1, (c.run a).2 ++ ((c.run a).1.run b).2) := by
  induction a generalizing c with
  | nil => simp [run]
  | cons e rest ih => simp [run, ih]

/-- A read brings nothing to the dispatcher, or one event that is none of a caller or of the
turn. -/
theorem take_cases (c : Connection) (e : Event) :
    (∃ c', c.take e = (c', []) ∧ c'.dispatcher = c.dispatcher ∧ ∃ r, e = .read r) ∨
      ∃ e' c', c.take e = (c', (c.dispatcher.step e').2) ∧
        c'.dispatcher = (c.dispatcher.step e').1 ∧
        (e = .dispatch e' ∨ (∃ r, e = .read r) ∧ e'.call? = none ∧ e' ≠ .takeTurn) := by
  cases e with
  | dispatch e => exact .inr ⟨e, _, rfl, rfl, .inl rfl⟩
  | read r =>
    unfold take read
    dsimp only
    split
    · exact .inl ⟨c, rfl, rfl, r, rfl⟩
    · cases r with
      | bytes bs =>
        dsimp only
        split
        · exact .inl ⟨_, rfl, rfl, _, rfl⟩
        · exact .inr ⟨.deliver _, _, rfl, rfl, .inr ⟨⟨_, rfl⟩, rfl, nofun⟩⟩
      | ended =>
        exact .inr ⟨.close .outputEnded, _, rfl, rfl, .inr ⟨⟨_, rfl⟩, rfl, nofun⟩⟩
      | failed message =>
        exact .inr ⟨.close (.readFailed message), _, rfl, rfl,
          .inr ⟨⟨_, rfl⟩, rfl, nofun⟩⟩

theorem run_induction {P : List Notice → Dispatcher → Prop}
    (h : ∀ ns d e, P ns d → P (ns ++ (d.step e).2) (d.step e).1) (ns : List Notice)
    {c : Connection} (hc : P ns c.dispatcher) (es : List Event) :
    P (ns ++ (c.run es).2) (c.run es).1.dispatcher := by
  induction es generalizing ns c with
  | nil => simpa [run] using hc
  | cons e es ih =>
    have he : P (ns ++ (c.take e).2) (c.take e).1.dispatcher := by
      obtain ⟨c', he, hd, -⟩ | ⟨e', c', he, hd, -⟩ := c.take_cases e
      · rwa [he, hd, List.append_nil]
      · rw [he, hd]
        exact h ns c.dispatcher e' hc
    simpa only [run, List.append_assoc] using ih _ he

theorem orderly_run {c : Connection} (h : Orderly c.dispatcher) (es : List Event) :
    Orderly (c.run es).1.dispatcher :=
  run_induction (P := fun _ d ↦ Orderly d) (fun _ d e h ↦ h.outcome (step_outcome d e)) [] h es

/-- Nothing is written, and no call returns anything but the error. -/
structure Mute (ns : List Notice) : Prop where
  wrote : ∀ text, .wrote text ∉ ns
  returned : ∀ c result, .returned c result ∈ ns → c.id ≠ 0 → result = .error gone

theorem shut_run {c : Connection} (h : Shut c.dispatcher) (es : List Event) :
    Shut (c.run es).1.dispatcher ∧ Mute (c.run es).2 := by
  refine run_induction (P := fun ns d ↦ Shut d ∧ Mute ns) (fun ns d e ⟨hd, hns⟩ ↦ ?_) []
    ⟨h, by simp, by simp⟩ es
  refine ⟨hd.step e, fun text hn ↦ ?_, fun c result hn h0 ↦ ?_⟩
  · obtain hn | hn := List.mem_append.1 hn
    · exact hns.wrote text hn
    · exact hd.not_wrote e text hn
  · obtain hn | hn := List.mem_append.1 hn
    · exact hns.returned c result hn h0
    · exact hd.returned hn h0

/-- Once somebody has asked for it, the line is given up for good. -/
theorem shut_of_shutDown {c : Connection} {es : List Event} (h : Orderly c.dispatcher)
    (hn : .shutDown ∈ (c.run (.dispatch .shutdown :: es)).2) :
    Shut (c.run (.dispatch .shutdown :: es)).1.dispatcher := by
  have hstart := step_outcome c.dispatcher .shutdown
  have hclosed : (c.dispatcher.step .shutdown).1.isClosed := close_isClosed c.dispatcher .stopped
  have hnone : .shutDown ∉ (c.dispatcher.step .shutdown).2 := by
    intro hn
    obtain ⟨r, -, hr⟩ := List.mem_map.1 hn
    cases hr
  have hall := run_induction (P := fun ns d ↦ Orderly d ∧ d.isClosed ∧
      (.shutDown ∈ ns → d.writable = false ∧ d.holder = none)) (fun ns d e ⟨ho, hc, hw⟩ ↦ ?_)
    (c := (c.step .shutdown).1) _ ⟨h.outcome hstart, hclosed, fun hn ↦ absurd hn hnone⟩ es
  · obtain ⟨ho, hc, hw⟩ := hall
    exact ⟨ho, hc, (hw hn).1, (hw hn).2⟩
  · have hs := step_outcome d e
    refine ⟨ho.outcome hs, hs.isClosed hc, fun hn ↦ ?_⟩
    obtain hn | hn := List.mem_append.1 hn
    · exact hs.unwritable (hw hn).1 (hw hn).2
    · exact hs.of_shutDown hn

theorem behind_take {c : Connection} {id : CallId} {n : Nat} {e : Event} (h : Shut c.dispatcher)
    (hb : Behind c.dispatcher id n) (hc : e ≠ .dispatch (.cancel id)) :
    (∃ call result, .returned call result ∈ (c.take e).2 ∧ call.id = id) ∨
      ∃ m, Behind (c.take e).1.dispatcher id m ∧ n = m + [e].count (.dispatch .takeTurn) := by
  obtain ⟨c', he, hd, r, rfl⟩ | ⟨e', c', he, hd, hsource⟩ := c.take_cases e
  · rw [he, hd]
    exact .inr ⟨n, hb, rfl⟩
  rw [he, hd]
  by_cases ht : e' = .takeTurn
  · subst ht
    obtain rfl | ⟨-, -, hne⟩ := hsource
    · exact (h.turn_behind hb).imp_right fun ⟨m, hm, hm'⟩ ↦ ⟨m, hm', hm⟩
    · exact absurd rfl hne
  · have hcancel : e' ≠ .cancel id := by
      rintro rfl
      obtain rfl | ⟨-, hnone, -⟩ := hsource
      · exact hc rfl
      · cases hnone
    have hne : e ≠ .dispatch .takeTurn := by
      obtain rfl | ⟨⟨r, rfl⟩, -⟩ := hsource
      · exact fun heq ↦ ht (Event.dispatch.inj heq)
      · exact nofun
    refine .inr ⟨n, hb.outcome h.orderly (step_outcome _ e') ht hcancel, ?_⟩
    simp [hne]

/-- With enough turns a call returns, whatever else happens meanwhile. -/
theorem returned_of_turns {c : Connection} {id : CallId} {n : Nat} {es : List Event}
    (h : Shut c.dispatcher) (hb : Behind c.dispatcher id n) (hc : .dispatch (.cancel id) ∉ es)
    (hn : n < es.count (.dispatch .takeTurn)) :
    ∃ call result, .returned call result ∈ (c.run es).2 ∧ call.id = id := by
  induction es generalizing c n with
  | nil => cases hn
  | cons e es ih =>
    rw [List.mem_cons, not_or] at hc
    obtain ⟨call, result, hr, hid⟩ | ⟨m, hm, rfl⟩ := behind_take h hb (Ne.symm hc.1)
    · exact ⟨call, result, List.mem_append_left _ hr, hid⟩
    · have hshut : Shut (c.take e).1.dispatcher := (shut_run h [e]).1
      have hcount : ([e] ++ es).count (.dispatch .takeTurn) = _ := List.count_append
      rw [List.singleton_append] at hcount
      obtain ⟨call, result, hr, hid⟩ := ih hshut hm hc.2 (by omega)
      exact ⟨call, result, List.mem_append_right _ hr, hid⟩

end Connection

end Prompter
