import Prompter.Proofs.Dispatcher.Turn

namespace Prompter.Dispatcher

def Notice.gaveUp? : Notice → Option CallId
  | .returned c (.error (.timeout _ _)) => some c.id
  | .cancelled c => some c.id
  | _ => none

def gaveUp (ns : List Notice) : List CallId := ns.filterMap Notice.gaveUp?

theorem gaveUp_append (a b : List Notice) : gaveUp (a ++ b) = gaveUp a ++ gaveUp b :=
  List.filterMap_append

theorem ended_of_gaveUp {ns : List Notice} {id : CallId} (h : id ∈ gaveUp ns) :
    ∃ n ∈ ns, ∃ c, n.ended? = some c ∧ c.id = id := by
  obtain ⟨n, hn, he⟩ := List.mem_filterMap.1 h
  unfold Notice.gaveUp? at he
  split at he
  next c command elapsed => exact ⟨_, hn, c, rfl, Option.some.inj he⟩
  next c => exact ⟨_, hn, c, rfl, Option.some.inj he⟩
  next => cases he

/-- The greeting has been received, and whoever waited for it has gone on. -/
def Greeted (ns : List Notice) : Prop := ∃ c frame, c.id = 0 ∧ .returned c (.ok frame) ∈ ns

theorem Outcome.caller {d d' : Dispatcher} {e : Event} {ns : List Notice} (h : Outcome d e d' ns)
    (ho : Orderly d) (ha : Awaited d) {c : Call} (hc : c ∈ d.calls) (h0 : c.id ≠ 0)
    (hs : c.stage ≠ .queued) (hp : c.request ∈ d.pending) (hp' : c.request ∈ d'.pending) :
    c.id ∈ gaveUp ns ∨ ∃ c' ∈ d'.calls, c'.request = c.request ∧ c'.stage ≠ .queued := by
  obtain hthere | ⟨n, hn, hended⟩ := h.survives ho hc hs
  · exact .inr hthere
  obtain ⟨-, -, hend⟩ := h.of_ended hn hended
  cases hend with
  | refused rest message hq => exact absurd (ho.stage_of_next hc hq) hs
  | unwritten reason message hw he hdrop =>
    -- the request that is withdrawn is the newest and stands in the queue once
    exfalso
    obtain hnil | hl := ha.getLast?_of_writing ho hc hw
    · rw [hnil] at hp
      cases hp
    · have hnodup := ha.nodup.of_map
      rw [← List.dropLast_append_getLast? _ hl, List.nodup_append] at hnodup
      rw [hdrop] at hp'
      exact hnodup.2.2 _ hp' _ List.mem_cons_self rfl
  | answered result hw hanswer =>
    obtain hnil | ⟨hnone, -⟩ := ha.newest c hc h0 hs
    · rw [hnil] at hp
      cases hp
    · rw [hanswer] at hnone
      cases hnone
  | expired elapsed => exact .inl (List.mem_filterMap.2 ⟨_, hn, rfl⟩)
  | cancelled => exact .inl (List.mem_filterMap.2 ⟨_, hn, rfl⟩)

/-- Of a request that is pending the caller is still there or has given up. -/
theorem caller_run (prompt : Text) (es : List Event) :
    ∀ r ∈ ((start prompt).run es).1.pending, r.call ≠ 0 →
      r.call ∈ gaveUp ((start prompt).run es).2 ∨
        ∃ c ∈ ((start prompt).run es).1.calls, c.request = r ∧ c.stage ≠ .queued := by
  refine run_induction (P := fun _ ns d ↦ ∀ r ∈ d.pending, r.call ≠ 0 →
    r.call ∈ gaveUp ns ∨ ∃ c ∈ d.calls, c.request = r ∧ c.stage ≠ .queued) ?_
    (fun es e h r hr h0 ↦ ?_) es
  · intro r hr h0
    obtain rfl := List.mem_singleton.1 hr
    exact absurd rfl h0
  · have ho := orderly_run prompt es
    have hs := step_outcome ((start prompt).run es).1 e
    rw [gaveUp_append]
    rcases List.mem_append.1 (hs.fifo.1.perm.subset
      (List.mem_append_right _ (hs.fifo.2 ▸ hr))) with hp | hreg
    · obtain hgone | ⟨c, hc, rfl, hstage⟩ := h r hp h0
      · exact .inl (List.mem_append_left _ hgone)
      · exact (hs.caller ho (awaited_run prompt es) hc h0 hstage hp hr).imp_left
          (List.mem_append_right _)
    · obtain ⟨-, c, hc, hcr, hw⟩ := hs.of_registered ho hreg
      exact .inr ⟨c, hc, hcr, Call.ne_queued_of_writing hw⟩

theorem ended_run (prompt : Text) (es : List Event) :
    ∀ n ∈ ((start prompt).run es).2, ∀ c, n.ended? = some c →
      c.id < ((start prompt).run es).1.nextId ∧
        ∀ c' ∈ ((start prompt).run es).1.calls, c'.id ≠ c.id := by
  refine run_induction (P := fun _ ns d ↦ ∀ n ∈ ns, ∀ c, n.ended? = some c →
    c.id < d.nextId ∧ ∀ c' ∈ d.calls, c'.id ≠ c.id) (by simp) (fun es e h n hn c he ↦ ?_) es
  have ho := orderly_run prompt es
  have hs := step_outcome ((start prompt).run es).1 e
  rcases List.mem_append.1 hn with hn | hn
  · obtain ⟨hlt, hgone⟩ := h n hn c he
    exact hs.ended ho hlt hgone
  · obtain ⟨hc, hcalls, -⟩ := hs.of_ended hn he
    refine ⟨hs.length_commands ▸ Nat.lt_add_right _ (ho.lt_nextId c hc), fun c' hc' ↦ ?_⟩
    rw [hcalls] at hc'
    exact ((mem_remove ..).1 hc').2

section Greeted

variable {prompt : Text} {es : List Event}

theorem gone_of_gaveUp {id : CallId} (h : id ∈ gaveUp ((start prompt).run es).2) :
    ∀ c ∈ ((start prompt).run es).1.calls, c.id ≠ id := by
  obtain ⟨n, hn, c, he, rfl⟩ := ended_of_gaveUp h
  exact (ended_run prompt es n hn c he).2

theorem not_mem_pending_of_resolved {r : Request} (h : r ∈ resolved ((start prompt).run es).2) :
    r ∉ ((start prompt).run es).1.pending := by
  have hnodup := (resolved_run prompt es).nodup_iff.2 (requests_nodup prompt es).of_map
  exact fun hp ↦ (List.nodup_append.1 hnodup).2.2 r h r hp rfl

theorem mem_requests_of_pending {r : Request} (h : r ∈ ((start prompt).run es).1.pending) :
    r ∈ requests ((start prompt).run es).2 :=
  (resolved_run prompt es).subset (List.mem_append_right _ h)

namespace Greeted

theorem ne_zero_of_call (h : Greeted ((start prompt).run es).2) :
    ∀ c ∈ ((start prompt).run es).1.calls, c.id ≠ 0 := by
  obtain ⟨c, frame, h0, hn⟩ := h
  exact h0 ▸ (ended_run prompt es _ hn c rfl).2

theorem ne_zero_of_pending (h : Greeted ((start prompt).run es).2) :
    ∀ r ∈ ((start prompt).run es).1.pending, r.call ≠ 0 := by
  obtain ⟨c, frame, h0, hn⟩ := h
  obtain ⟨hanswered, hcommand⟩ := returned_run prompt es c frame hn
  obtain ⟨f, hf, -⟩ := hanswered.own hcommand
  have hgreeting : c.request = ⟨0, greeting⟩ := by
    rw [h0] at hcommand
    rw [Call.request, h0, ← Option.some.inj hcommand]
  have hresolved : ⟨0, greeting⟩ ∈ resolved ((start prompt).run es).2 :=
    hgreeting ▸ mem_resolved_of_answered hf
  intro r hp hr
  obtain rfl | hreg := List.mem_cons.1 (mem_requests_of_pending hp)
  · exact not_mem_pending_of_resolved hresolved hp
  · exact ne_zero_of_registered hreg hr

theorem eq_of_turn (h : Greeted ((start prompt).run es).2) {c c' : Call}
    (hc : c ∈ ((start prompt).run es).1.calls) (hs : c.stage ≠ .queued)
    (hc' : c' ∈ ((start prompt).run es).1.calls) (hs' : c'.stage ≠ .queued) : c = c' := by
  have ho := orderly_run prompt es
  have hturn := ho.turn c hc (h.ne_zero_of_call c hc) hs
  rw [ho.turn c' hc' (h.ne_zero_of_call c' hc') hs', Option.some.injEq] at hturn
  exact ho.eq_of_id hc hc' hturn.symm

/-- When a call has the turn, the caller of any other pending request has given up. -/
theorem gaveUp_of_ne (h : Greeted ((start prompt).run es).2) {c : Call}
    (hc : c ∈ ((start prompt).run es).1.calls) (hs : c.stage ≠ .queued) {r : Request}
    (hr : r ∈ ((start prompt).run es).1.pending) (hne : r ≠ c.request) :
    r.call ∈ gaveUp ((start prompt).run es).2 := by
  obtain hgone | ⟨c', hc', rfl, hs'⟩ := caller_run prompt es r hr (h.ne_zero_of_pending r hr)
  · exact hgone
  · exact absurd (congrArg Call.request (h.eq_of_turn hc' hs' hc hs)) hne

theorem settled_or_gaveUp (h : Greeted ((start prompt).run es).2) {c : Call}
    (hc : c ∈ ((start prompt).run es).1.calls) (hs : c.stage ≠ .queued) :
    ∃ earlier, requests ((start prompt).run es).2 = earlier ++ [c.request] ∧
      ∀ r ∈ earlier, r ∈ resolved ((start prompt).run es).2 ∨
        r.call ∈ gaveUp ((start prompt).run es).2 := by
  obtain ⟨a, b, -, hn, hsteady⟩ := turn_run prompt es c hc (h.ne_zero_of_call c hc) hs
  have hreq := requests_of_turn hn hsteady
  refine ⟨_, hreq, fun r hr ↦ ?_⟩
  have hnodup := (requests_nodup prompt es).of_map
  rw [hreq, List.nodup_append] at hnodup
  have hne : r ≠ c.request := hnodup.2.2 r hr c.request List.mem_cons_self
  have hmem : r ∈ requests ((start prompt).run es).2 := hreq ▸ List.mem_append_left _ hr
  rcases List.mem_append.1 ((resolved_run prompt es).mem_iff.2 hmem) with hresolved | hp
  · exact .inl hresolved
  · exact .inr (h.gaveUp_of_ne hc hs hp hne)

theorem pending_eq (h : Greeted ((start prompt).run es).2) :
    ∃ left newest, ((start prompt).run es).1.pending = left ++ Option.toList newest ∧
      (∀ r ∈ left, r.call ∈ gaveUp ((start prompt).run es).2) ∧
      ∀ r ∈ newest, ∃ c ∈ ((start prompt).run es).1.calls, c.request = r ∧ c.stage ≠ .queued ∧
        c.answer = none := by
  by_cases hturn : ∃ c ∈ ((start prompt).run es).1.calls, c.stage ≠ .queued ∧
      c.request ∈ ((start prompt).run es).1.pending
  · obtain ⟨c, hc, hs, hp⟩ := hturn
    have ha := awaited_run prompt es
    obtain hnil | ⟨hanswer, hl⟩ := ha.newest c hc (h.ne_zero_of_call c hc) hs
    · rw [hnil] at hp
      cases hp
    have hsplit := List.dropLast_append_getLast? _ hl
    refine ⟨_, some c.request, hsplit.symm, fun r hr ↦ ?_, ?_⟩
    · have hnodup := ha.nodup.of_map
      rw [← hsplit, List.nodup_append] at hnodup
      exact h.gaveUp_of_ne hc hs (List.dropLast_subset _ hr)
        (hnodup.2.2 r hr _ List.mem_cons_self)
    · rintro r ⟨⟩
      exact ⟨c, hc, rfl, hs, hanswer⟩
  · refine ⟨_, none, (List.append_nil _).symm, fun r hr ↦ ?_, by simp⟩
    obtain hgone | ⟨c, hc, rfl, hs⟩ := caller_run prompt es r hr (h.ne_zero_of_pending r hr)
    · exact hgone
    · exact absurd ⟨c, hc, hs, hr⟩ hturn

end Greeted

end Greeted

def writes (ns : List Notice) : List Text := ns.filterMap Notice.wrote?

theorem writes_append (a b : List Notice) : writes (a ++ b) = writes a ++ writes b :=
  List.filterMap_append

def writtenOf (w : List Request) (ns : List Notice) : List Request := (writes ns).flatMap fun _ ↦ w

/-- The requests in the order in which their lines are written. -/
def writers (d : Dispatcher) : List Event → List Request
  | [] => []
  | e :: rest => writtenOf d.writing (d.step e).2 ++ (d.step e).1.writers rest

theorem writers_append (d : Dispatcher) (a b : List Event) :
    d.writers (a ++ b) = d.writers a ++ (d.run a).1.writers b := by
  induction a generalizing d with
  | nil => rfl
  | cons e rest ih => simp [writers, run, ih]

theorem writers_concat (d : Dispatcher) (es : List Event) (e : Event) :
    d.writers (es ++ [e]) =
      d.writers es ++ writtenOf (d.run es).1.writing ((d.run es).1.step e).2 := by
  simp [writers_append, writers]

theorem LineStep.writtenOf {w w' : List Request} {ns : List Notice} (h : LineStep w ns w')
    (hne : ∀ text ∈ writes ns, text ≠ []) :
    writes ns = (writtenOf w ns).map Request.line ∧
      (Dispatcher.writtenOf w ns ++ w').Sublist (w ++ registered ns) := by
  have hnone (hs : sent ns = []) : writes ns = [] := by
    apply List.eq_nil_iff_forall_not_mem.2
    exact fun text ht ↦ hne text ht (List.flatten_eq_nil_iff.1 hs text ht)
  unfold Dispatcher.writtenOf
  cases h with
  | quiet _ _ hr hs hl => simp [hnone hs]
  | begun r => exact ⟨rfl, List.Sublist.refl _⟩
  | ended r => exact ⟨rfl, List.Sublist.refl _⟩
  | lost r _ hr hs hl => simp [hnone hs]

theorem writers_run (prompt : Text) (es : List Event) :
    writes ((start prompt).run es).2 = ((start prompt).writers es).map Request.line ∧
      ((start prompt).writers es ++ ((start prompt).run es).1.writing).Sublist
        (registered ((start prompt).run es).2) := by
  refine run_induction (P := fun es ns d ↦
    writes ns = ((start prompt).writers es).map Request.line ∧
      ((start prompt).writers es ++ d.writing).Sublist (registered ns)) ?_ (fun es e h ↦ ?_) es
  · exact ⟨rfl, List.Sublist.refl _⟩
  · obtain ⟨hwrites, hsub⟩ := h
    have hs := step_outcome ((start prompt).run es).1 e
    have hne : ∀ text ∈ writes (((start prompt).run es).1.step e).2, text ≠ [] := by
      intro text ht
      obtain ⟨n, hn, he⟩ := List.mem_filterMap.1 ht
      cases n with
      | wrote line =>
        cases he
        obtain ⟨c, -, -, -, rfl⟩ := hs.of_wrote hn
        simp [Request.line]
      | _ => cases he
    obtain ⟨hnew, hnewsub⟩ := (hs.line (orderly_run prompt es)).writtenOf hne
    rw [writers_concat, writes_append, registered_append, hwrites, hnew, List.map_append,
      List.append_assoc]
    exact ⟨rfl, (hnewsub.append_left _).trans
      (List.append_assoc .. ▸ hsub.append_right _)⟩

theorem writes_run (prompt : Text) (es : List Event) :
    ∃ done : List Request, writes ((start prompt).run es).2 = done.map Request.line ∧
      (done ++ ((start prompt).run es).1.writing).Sublist
        (registered ((start prompt).run es).2) :=
  ⟨_, writers_run prompt es⟩

/-- How turns follow one another, in the run of `es` with the notices `ns` up to the state `d`. -/
structure Succession (es : List Event) (ns : List Notice) (d : Dispatcher) : Prop where
  single : ∀ c ∈ d.calls, c.stage ≠ .queued → ∀ c' ∈ d.calls, c'.stage ≠ .queued → c = c'
  /-- While a call has the turn, every earlier request has been settled or left by its caller. -/
  earlier : ∀ c ∈ d.calls, c.stage ≠ .queued → ∃ earlier, requests ns = earlier ++ [c.request] ∧
    ∀ r ∈ earlier, r ∈ resolved ns ∨ r.call ∈ gaveUp ns
  /-- Only a call that has the turn writes, and only its own line. -/
  wrote : ∀ e text, .wrote text ∈ (d.step e).2 →
    ∃ c ∈ d.calls, c.stage = .writing ∧ text = c.request.line
  /-- Of the pending requests at most the newest has a caller who waits for it. -/
  waiting : ∃ left newest, d.pending = left ++ Option.toList newest ∧
    (∀ r ∈ left, r.call ∈ gaveUp ns ∧ ∀ c ∈ d.calls, c.id ≠ r.call) ∧
    ∀ r ∈ newest, ∃ c ∈ d.calls, c.request = r ∧ c.stage ≠ .queued ∧ c.answer = none
  length : d.pending.length ≤ d.pending.countP (·.call ∈ gaveUp ns) + 1
  /-- Calls are numbered in the order in which they queue for the turn. -/
  order : ∃ done : List Request, writes ns = done.map Request.line ∧
    (done.map Request.call).Pairwise (· < ·) ∧ ∀ r ∈ done, (commands es)[r.call]? = some r.command

theorem succession_run (prompt : Text) (es : List Event)
    (h : Greeted ((start prompt).run es).2) :
    Succession es ((start prompt).run es).2 ((start prompt).run es).1 := by
  obtain ⟨left, newest, hpending, hleft, hnewest⟩ := h.pending_eq
  constructor
  case single => exact fun c hc hs c' hc' hs' ↦ h.eq_of_turn hc hs hc' hs'
  case earlier => exact fun c hc hs ↦ h.settled_or_gaveUp hc hs
  case wrote =>
    intro e text hn
    obtain ⟨c, hc, hs, -, ht⟩ := (step_outcome _ e).of_wrote hn
    exact ⟨c, hc, hs, ht⟩
  case waiting =>
    exact ⟨left, newest, hpending, fun r hr ↦ ⟨hleft r hr, gone_of_gaveUp (hleft r hr)⟩, hnewest⟩
  case length =>
    have hcount : left.countP (·.call ∈ gaveUp ((start prompt).run es).2) = left.length :=
      List.countP_eq_length.2 fun r hr ↦ decide_eq_true (hleft r hr)
    have hone : (Option.toList newest).length ≤ 1 := by cases newest <;> simp
    rw [hpending, List.countP_append, List.length_append, hcount]
    omega
  case order =>
    obtain ⟨done, hwrites, hsub⟩ := writes_run prompt es
    have hdone := (List.sublist_append_left ..).trans hsub
    have hsorted := (List.pairwise_append.1 (requests_sorted prompt es).1).1
    refine ⟨done, hwrites, hsorted.sublist ((hdone.cons _).map _), fun r hr ↦ ?_⟩
    exact (named_run prompt es).requests r (List.mem_cons_of_mem _ (hdone.subset hr))

/-- The first caller gives up at its deadline, while the second one waits for the turn. -/
def secondTurn : List Event :=
  [.deliver "> ", .resume 0, .submit "a" .silent, .submit "b" .silent, .takeTurn, .written 1,
    .expire 1 ⟨5⟩, .takeTurn, .written 2]

def greetingFrame : Frame := ⟨[greeting], greeting ++ "\n> ".toList⟩

def greetingCall : Call :=
  { id := 0, command := greeting, echo := .silent, stage := .waiting,
    answer := some (.ok greetingFrame) }

theorem succession_run_secondTurn :
    let d := ((start "> ").run secondTurn).1
    let ns := ((start "> ").run secondTurn).2
    Greeted ns ∧ d.pending = [⟨1, "a"⟩, ⟨2, "b"⟩] ∧ gaveUp ns = [1] ∧
      d.pending.length ≤ d.pending.countP (·.call ∈ gaveUp ns) + 1 := by
  intro d ns
  have h : Greeted ns := ⟨greetingCall, greetingFrame, rfl, by decide +kernel⟩
  exact ⟨h, by decide +kernel, by decide +kernel, (succession_run "> " secondTurn h).length⟩

end Prompter.Dispatcher
