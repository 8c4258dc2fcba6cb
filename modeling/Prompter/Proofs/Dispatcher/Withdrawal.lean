import Prompter.Proofs.Dispatcher.Closing

namespace Prompter.Dispatcher

def settling (r : Request) (ns : List Notice) : List Notice := ns.filter (·.resolved? = some r)

@[simp] theorem settling_append (r : Request) (a b : List Notice) :
    settling r (a ++ b) = settling r a ++ settling r b :=
  List.filter_append ..

theorem settling_eq_nil {r : Request} {ns : List Notice}
    (h : ∀ r' ∈ resolved ns, r'.call ≠ r.call) : settling r ns = [] := by
  rw [settling, List.filter_eq_nil_iff]
  intro n hn he
  exact h r (List.mem_filterMap.2 ⟨n, hn, by simpa using he⟩) rfl

section Through

variable {d d' : Dispatcher} {id : CallId} {ns : List Notice}

/-- The request of a call has left the queue for good. -/
structure Through (d : Dispatcher) (id : CallId) : Prop where
  no_request : ∀ r ∈ d.pending, r.call ≠ id
  not_turnless : ¬ Turnless d id

theorem Through.of_fifo (h : Through d id) (hf : Fifo d.pending ns)
    (hp : ns.foldl Notice.settle d.pending = d'.pending) (hr : ∀ r ∈ registered ns, r.call ≠ id)
    (ht : Turnless d' id → Turnless d id) : Through d' id ∧ ∀ r ∈ resolved ns, r.call ≠ id := by
  have hperm := hf.perm
  rw [hp] at hperm
  have hall (r : Request) (hmem : r ∈ resolved ns ++ d'.pending) : r.call ≠ id :=
    (List.mem_append.1 (hperm.subset hmem)).elim (h.no_request r) (hr r)
  exact ⟨⟨fun r hmem ↦ hall r (List.mem_append_right _ hmem), mt ht h.not_turnless⟩,
    fun r hmem ↦ hall r (List.mem_append_left _ hmem)⟩

theorem Through.outcome {e : Event} (h : Through d id) (hs : Outcome d e d' ns) :
    Through d' id ∧ ∀ r ∈ resolved ns, r.call ≠ id := by
  refine h.of_fifo hs.fifo.1 hs.fifo.2 (fun r hr ↦ ?_) hs.turnless
  obtain ⟨hn, -⟩ | ⟨hn, -⟩ | ⟨c, -, rfl, -, hq, -⟩ := hs.order
  · rw [hn] at hr
    cases hr
  · rw [hn] at hr
    cases hr
  · obtain rfl := List.mem_singleton.1 hr
    rintro rfl
    exact h.not_turnless (.inl (hq ▸ List.mem_cons_self))

theorem Through.handOverAll (h : Through d id) (fs : List Frame) :
    Through (d.handOverAll fs).1 id ∧ ∀ r ∈ resolved (d.handOverAll fs).2, r.call ≠ id := by
  obtain ⟨hf, hp⟩ := fifo_handOverAll d fs
  have ho := handOverAll_outline d fs
  refine h.of_fifo hf hp (by simp [registered_handOverAll]) ?_
  simp only [Turnless, queued, ho.queue, ho.nextId, imp_self]

theorem Through.run (h : Through d id) (es : List Event) : Through (d.run es).1 id :=
  run_induction (P := fun _ _ d ↦ Through d id) h (fun _ e h ↦ (h.outcome (step_outcome _ e)).1) es

end Through

section Behind

variable (d : Dispatcher) (q : List Request)

/-- The same step with other requests pending: those that it makes come behind them. -/
def behind (s : Step) : Step := ({ s.1 with pending := q ++ registered s.2 }, s.2)

theorem finish_behind (c : Call) (result : Except SessionError Frame) :
    { d with pending := q }.finish c result = behind q (d.finish c result) := by
  have hr : registered (d.finish c result).2 = [] := by
    obtain he | ⟨text, he⟩ := finish_notices d c result <;> rw [he] <;> rfl
  rw [behind, hr, List.append_nil]
  rfl

theorem idle_behind : ({ d with pending := q }, []) = behind q (d, []) := by
  simp [behind, registered]

theorem onCall_behind {id : CallId} {stage : Stage} {f g : Call → Step}
    (h : ∀ c, f c = behind q (g c)) :
    { d with pending := q }.onCall id stage f = behind q (d.onCall id stage g) := by
  have hfind : { d with pending := q }.find? id = d.find? id := rfl
  rw [onCall, onCall, hfind]
  cases d.find? id with
  | none => exact idle_behind d q
  | some c =>
    dsimp only
    split
    next => exact h c
    next => exact idle_behind d q

theorem takeTurn_behind : { d with pending := q }.takeTurn = behind q d.takeTurn := by
  obtain ⟨framer, pending, closed, writable, holder, queue, calls, nextId⟩ := d
  cases holder with
  | some id => simp [takeTurn, behind, registered]
  | none =>
    cases queue with
    | nil => simp [takeTurn, behind, registered]
    | cons w rest =>
      cases w with
      | shutdown => simp [takeTurn, behind, registered, Notice.registered?]
      | call id =>
        simp only [takeTurn, find?]
        cases calls.find? (·.id = id) with
        | none => simp [behind, registered]
        | some c =>
          have hfinish (result : Except SessionError Frame) :=
            finish_behind ⟨framer, pending, closed, writable, none, rest, calls, nextId⟩ q c result
          dsimp only
          split
          next => exact hfinish _
          next =>
            cases closed with
            | some reason => exact hfinish _
            | none => rfl

def Event.settles : Event → Bool
  | .writeFailed _ _ => true
  | .deliver _ => true
  | .close _ => true
  | .shutdown => true
  | _ => false

/-- No other event looks at the pending requests. -/
theorem step_behind {e : Event} (he : e.settles = false) :
    { d with pending := q }.step e = behind q (d.step e) := by
  cases e with
  | submit command echo => simp [step, submit, behind, registered]
  | takeTurn => exact takeTurn_behind d q
  | written id =>
    refine onCall_behind d q fun c ↦ ?_
    simp [written, behind, registered, Notice.registered?, updateCall]
  | resume id =>
    refine onCall_behind d q fun c ↦ ?_
    split
    next => exact finish_behind ..
    next => exact idle_behind d q
  | expire id elapsed =>
    refine onCall_behind d q fun c ↦ ?_
    split
    next => exact idle_behind d q
    next => exact finish_behind ..
  | cancel id =>
    have hfind : { d with pending := q }.find? id = d.find? id := rfl
    simp only [step, hfind]
    split
    next => simp [behind, registered, Notice.registered?, remove]
    next => exact idle_behind d q
  | _ => cases he

end Behind

section Ahead

variable {d k : Dispatcher} {r : Request}

/-- Of two dispatchers, `k` has a request that `d` does not have, and `r` is ahead of it, or in both
of them `r` has left the queue. -/
inductive Ahead (r : Request) (d k : Dispatcher) : Prop
  | pending (before after : List Request) (own : Request) (hr : r ∈ before)
    (hk : k.pending = before ++ own :: after) (hd : d = { k with pending := before ++ after })
  | through (hd : Through d r.call) (hk : Through k r.call)

theorem Awaited.call_ne {a b : List Request} (ha : Awaited d) (hp : d.pending = a ++ b)
    (hr : r ∈ a) : ∀ r' ∈ b, r'.call ≠ r.call := by
  intro r' hr' he
  have hnodup := ha.nodup
  rw [hp, List.map_append, List.nodup_append'] at hnodup
  exact hnodup.2.2 (List.mem_map_of_mem hr) (he ▸ List.mem_map_of_mem hr')

theorem Ahead.of_through {ns ns' : List Notice}
    (hd : Through d r.call ∧ ∀ r' ∈ resolved ns, r'.call ≠ r.call)
    (hk : Through k r.call ∧ ∀ r' ∈ resolved ns', r'.call ≠ r.call) :
    Ahead r d k ∧ settling r ns = settling r ns' :=
  ⟨.through hd.1 hk.1, by rw [settling_eq_nil hd.2, settling_eq_nil hk.2]⟩

theorem Ahead.getElem? (h : Ahead r d k) (ha : Awaited k) (i : Nat) :
    d.pending[i]? = some r ↔ k.pending[i]? = some r := by
  cases h with
  | through hd hk =>
    have hnone {d : Dispatcher} (h : Through d r.call) : d.pending[i]? ≠ some r :=
      fun he ↦ h.no_request r (List.mem_of_getElem? he) rfl
    exact iff_of_false (hnone hd) (hnone hk)
  | pending before after own hr hk hd =>
    have hbehind := ha.call_ne hk hr
    rw [hd, hk]
    rcases Nat.lt_or_ge i before.length with hi | hi
    · rw [List.getElem?_append_left hi, List.getElem?_append_left hi]
    · rw [List.getElem?_append_right hi, List.getElem?_append_right hi]
      exact iff_of_false
        (fun he ↦ hbehind r (List.mem_cons_of_mem _ (List.mem_of_getElem? he)) rfl)
        (fun he ↦ hbehind r (List.mem_of_getElem? he) rfl)

theorem Ahead.handOver {before after : List Request} {own : Request} (ha : Awaited k)
    (hr : r ∈ before) (hk : k.pending = before ++ own :: after) (f : Frame) :
    Ahead r ({ k with pending := before ++ after }.handOver f).1 (k.handOver f).1 ∧
      ({ k with pending := before ++ after }.handOver f).2 = (k.handOver f).2 := by
  obtain ⟨r₀, before, rfl⟩ := List.exists_cons_of_ne_nil (List.ne_nil_of_mem hr)
  have hd : { k with pending := r₀ :: before ++ after }.handOver f = _ := handOver_cons f rfl
  rw [hd, handOver_cons f hk]
  refine ⟨?_, rfl⟩
  by_cases hmem : r ∈ before
  · exact .pending before after own hmem rfl rfl
  · obtain rfl : r = r₀ := (List.mem_cons.1 hr).resolve_right hmem
    have hsplit : k.pending = [r] ++ (before ++ own :: after) := hk
    have hgone := ha.call_ne hsplit List.mem_cons_self
    have hnt : ¬ Turnless k r.call := ha.not_turnless (hk ▸ List.mem_cons_self)
    refine .through ⟨fun r' hr' ↦ hgone r' ?_, hnt⟩ ⟨hgone, hnt⟩
    exact ((List.sublist_cons_self own after).append_left before).subset hr'

theorem Ahead.handOverAll (h : Ahead r d k) (ho : Orderly k) (ha : Awaited k) (fs : List Frame) :
    Ahead r (d.handOverAll fs).1 (k.handOverAll fs).1 ∧
      settling r (d.handOverAll fs).2 = settling r (k.handOverAll fs).2 := by
  induction fs generalizing d k with
  | nil => exact ⟨h, rfl⟩
  | cons f fs ih =>
    cases h with
    | through hd hk =>
      exact Ahead.of_through (hd.handOverAll (f :: fs)) (hk.handOverAll (f :: fs))
    | pending before after own hr hk hd =>
      subst hd
      obtain ⟨hnext, hnotices⟩ := Ahead.handOver ha hr hk f
      obtain ⟨hrest, hsettling⟩ := ih hnext (ho.congr (handOver_outline k f)) (ha.handOver ho f)
      refine ⟨hrest, ?_⟩
      simp only [Dispatcher.handOverAll, settling_append, hnotices, hsettling]

theorem settling_rejected {before after : List Request} {own : Request} (h : own ≠ r) :
    settling r ((before ++ after).map .rejected) =
      settling r ((before ++ own :: after).map .rejected) := by
  simp [settling, Notice.resolved?, h]

theorem Awaited.through {e : Event} {d' : Dispatcher} {ns : List Notice} (ha : Awaited d)
    (hr : r ∈ d.pending) (hs : Outcome d e d' ns) (hp : d'.pending = []) : Through d' r.call :=
  ⟨by simp [hp], fun ht ↦ ha.not_turnless hr (hs.turnless ht)⟩

theorem Ahead.exists_concat {before after : List Request} {own : Request} {c : Call}
    (hod : Orderly { k with pending := before ++ after })
    (had : Awaited { k with pending := before ++ after }) (hok : Orderly k) (hak : Awaited k)
    (hr : r ∈ before) (hk : k.pending = before ++ own :: after) (hc : c ∈ k.calls)
    (hs : c.stage = .writing) : ∃ after', after = after' ++ [c.request] := by
  have hlastd : (before ++ after).getLast? = some c.request := by
    refine (had.getLast?_of_writing hod hc hs).resolve_left fun hnil ↦ ?_
    exact List.ne_nil_of_mem (List.mem_append_left _ hr) hnil
  have hlastk : k.pending.getLast? = some c.request := by
    refine (hak.getLast?_of_writing hok hc hs).resolve_left fun hnil ↦ ?_
    simp [hk] at hnil
  rw [hk] at hlastk
  cases List.eq_nil_or_concat' after with
  | inl hnil =>
    -- then the missing request would be in the queue twice
    subst hnil
    rw [List.append_nil] at hlastd
    have hown : own = c.request := by simpa using hlastk
    have hne := hak.call_ne hk (List.mem_of_getLast? hlastd) own List.mem_cons_self
    exact absurd (congrArg Request.call hown) hne
  | inr hconcat =>
    obtain ⟨after', r', rfl⟩ := hconcat
    rw [← List.cons_append, ← List.append_assoc, List.getLast?_concat] at hlastk
    exact ⟨after', Option.some.inj hlastk ▸ rfl⟩

theorem Ahead.writeFailed {before after : List Request} {own : Request}
    (hod : Orderly { k with pending := before ++ after })
    (had : Awaited { k with pending := before ++ after }) (hok : Orderly k) (hak : Awaited k)
    (hr : r ∈ before) (hk : k.pending = before ++ own :: after) (id : CallId) (message : Text) :
    Ahead r ({ k with pending := before ++ after }.step (.writeFailed id message)).1
        (k.step (.writeFailed id message)).1 ∧
      ({ k with pending := before ++ after }.step (.writeFailed id message)).2 =
        (k.step (.writeFailed id message)).2 := by
  have hfind : { k with pending := before ++ after }.find? id = k.find? id := rfl
  simp only [Dispatcher.step, onCall, hfind]
  cases hf : k.find? id with
  | none => exact ⟨.pending before after own hr hk rfl, rfl⟩
  | some c =>
    dsimp only
    split
    next hs =>
      obtain ⟨after, rfl⟩ := Ahead.exists_concat hod had hok hak hr hk (mem_of_find? hf).1 hs
      rw [← List.append_assoc]
      rw [← List.cons_append, ← List.append_assoc] at hk
      simp only [Dispatcher.writeFailed, finish_error, hk, List.dropLast_concat,
        List.getLast?_concat, and_true]
      exact .pending before after own hr rfl rfl
    next => exact ⟨.pending before after own hr hk rfl, rfl⟩

theorem Ahead.step (h : Ahead r d k) (hod : Orderly d) (had : Awaited d) (hok : Orderly k)
    (hak : Awaited k) (e : Event) :
    Ahead r (d.step e).1 (k.step e).1 ∧
      settling r (d.step e).2 = settling r (k.step e).2 := by
  cases h with
  | through hd hk =>
    exact Ahead.of_through (hd.outcome (step_outcome d e)) (hk.outcome (step_outcome k e))
  | pending before after own hr hk hd =>
    have hown : own.call ≠ r.call := hak.call_ne hk hr own List.mem_cons_self
    have hrd : r ∈ d.pending := by rw [hd]; exact List.mem_append_left _ hr
    have hrk : r ∈ k.pending := by rw [hk]; exact List.mem_append_left _ hr
    have hclose (hd' : (d.step e).1.pending = []) (hk' : (k.step e).1.pending = []) :
        Ahead r (d.step e).1 (k.step e).1 :=
      .through (had.through hrd (step_outcome d e) hd') (hak.through hrk (step_outcome k e) hk')
    have hrejected :
        settling r (d.pending.map .rejected) = settling r (k.pending.map .rejected) := by
      rw [hd, hk]
      exact settling_rejected fun he ↦ hown (congrArg Request.call he)
    by_cases hs : e.settles
    · cases e with
      | close c => exact ⟨hclose (close_pending d c) (close_pending k c), hrejected⟩
      | shutdown => exact ⟨hclose (close_pending d _) (close_pending k _), hrejected⟩
      | deliver chunk =>
        subst hd
        let framer := (k.framer.feed chunk).1
        have hahead : Ahead r { k with framer, pending := before ++ after } { k with framer } :=
          .pending before after own hr hk rfl
        exact hahead.handOverAll { hok with } { hak with } _
      | writeFailed id message =>
        subst hd
        obtain ⟨hahead, hnotices⟩ := Ahead.writeFailed hod had hok hak hr hk id message
        exact ⟨hahead, congrArg _ hnotices⟩
      | _ => cases hs
    · rw [Bool.not_eq_true] at hs
      have hkstep : k.step e = behind k.pending (k.step e) := step_behind k k.pending hs
      have hpending : (k.step e).1.pending = k.pending ++ registered (k.step e).2 :=
        congrArg (·.1.pending) hkstep
      rw [hd, step_behind k _ hs]
      refine ⟨.pending before (after ++ registered (k.step e).2) own hr ?_ ?_, rfl⟩
      · rw [hpending, hk, List.append_assoc, List.cons_append]
      · rw [behind, List.append_assoc]

theorem Ahead.run (h : Ahead r d k) (hod : Orderly d) (had : Awaited d) (hok : Orderly k)
    (hak : Awaited k) (es : List Event) :
    Ahead r (d.run es).1 (k.run es).1 ∧ settling r (d.run es).2 = settling r (k.run es).2 := by
  induction es generalizing d k with
  | nil => exact ⟨h, rfl⟩
  | cons e es ih =>
    have hsd := step_outcome d e
    have hsk := step_outcome k e
    obtain ⟨hahead, hnotices⟩ := h.step hod had hok hak e
    obtain ⟨hrun, hsettling⟩ := ih hahead (hod.outcome hsd) (had.outcome hod hsd)
      (hok.outcome hsk) (hak.outcome hok hsk)
    refine ⟨hrun, ?_⟩
    simp only [Dispatcher.run, settling_append, hnotices, hsettling]

end Ahead

section Failure

variable {d : Dispatcher} {c : Call}

theorem Awaited.exists_front (ha : Awaited d) (ho : Orderly d) (hc : c ∈ d.calls)
    (hs : c.stage = .writing) :
    d.pending = [] ∨ ∃ front, d.pending = front ++ [c.request] ∧ ∀ r ∈ front, r.call ≠ c.id := by
  refine (ha.getLast?_of_writing ho hc hs).imp_right fun hlast ↦ ?_
  have hsplit := (List.dropLast_append_getLast? _ hlast).symm
  exact ⟨_, hsplit, fun r hr ↦ (ha.call_ne hsplit hr _ List.mem_cons_self).symm⟩

theorem step_writeFailed (ho : Orderly d) (ha : Awaited d) (hc : c ∈ d.calls)
    (hs : c.stage = .writing) (message : Text) :
    d.step (.writeFailed c.id message) =
      ({ d.remove c.id with pending := d.pending.filter (·.call ≠ c.id) },
        (d.pending.filter (·.call = c.id)).map .withdrawn ++ [.returned c (.error (.transport
          ("failed to write `" ++ c.command ++ "`: " ++ message)))]) := by
  simp only [step, onCall, ho.find?_eq hc, hs, if_true, writeFailed, finish_error]
  obtain hnil | ⟨front, hfront, hne⟩ := ha.exists_front ho hc hs
  · rw [hnil]
    rfl
  · have hown : front.filter (·.call = c.id) = [] := by simpa using hne
    have hothers : front.filter (·.call ≠ c.id) = front := by simpa using hne
    rw [hfront, List.filter_append, List.filter_append, hown, hothers]
    simp [Call.request, remove]

theorem ahead_of_failure (ho : Orderly d) (ha : Awaited d) (hc : c ∈ d.calls)
    (hs : c.stage = .writing) (message : Text) {r : Request} (hr : r ∈ d.pending)
    (hne : r.call ≠ c.id) :
    Ahead r (d.step (.writeFailed c.id message)).1 (d.remove c.id) := by
  obtain hnil | ⟨front, hfront, hothers⟩ := ha.exists_front ho hc hs
  · rw [hnil] at hr
    cases hr
  · have hmem : r ∈ front := by
      rw [hfront, List.mem_append, List.mem_singleton] at hr
      exact hr.resolve_right fun he ↦ hne (congrArg Request.call he)
    refine .pending front [] c.request hmem hfront ?_
    rw [step_writeFailed ho ha hc hs, hfront]
    have hfilter : (front ++ [c.request]).filter (·.call ≠ c.id) = front := by
      simpa [Call.request] using hothers
    rw [hfilter, List.append_nil]

/-- A failed write takes back its own request only. Let the call end likewise, but its request stay
where it is: whatever comes later, every other request has the same place then as with the
withdrawal, and leaves the queue in the same way. -/
theorem writeFailed_withdraws_own (prompt : Text) (es later : List Event) (message : Text)
    (hc : c ∈ ((start prompt).run es).1.calls) (hs : c.stage = .writing) :
    let d := ((start prompt).run es).1
    let error : SessionError := .transport ("failed to write `" ++ c.command ++ "`: " ++ message)
    let failed := d.step (.writeFailed c.id message)
    let kept := d.finish c (.error error)
    failed = ({ kept.1 with pending := d.pending.filter (·.call ≠ c.id) },
      (d.pending.filter (·.call = c.id)).map .withdrawn ++ [.returned c (.error error)]) ∧
    (∀ r ∈ (failed.1.run later).1.pending, r.call ≠ c.id) ∧
    ∀ r ∈ d.pending, r.call ≠ c.id →
      (∀ i : Nat, (failed.1.run later).1.pending[i]? = some r ↔
        (kept.1.run later).1.pending[i]? = some r) ∧
      settling r (failed.1.run later).2 = settling r (kept.1.run later).2 := by
  intro d error failed kept
  have ho : Orderly d := orderly_run prompt es
  have ha : Awaited d := awaited_run prompt es
  have hout : Outcome d (.writeFailed c.id message) failed.1 failed.2 := step_outcome d _
  have hfailed : failed = _ := step_writeFailed ho ha hc hs message
  refine ⟨hfailed, ?_, fun r hr hne ↦ ?_⟩
  · have hthrough : Through failed.1 c.id := by
      refine ⟨fun r hr ↦ ?_, ?_⟩
      · rw [hfailed] at hr
        simpa using (List.mem_filter.1 hr).2
      · exact mt hout.turnless (ho.not_turnless hc (Call.ne_queued_of_writing hs))
    exact (hthrough.run later).no_request
  · have hok : Orderly kept.1 := ho.remove c.id
    have hak : Awaited kept.1 := ha.remove c.id
    have hahead : Ahead r failed.1 kept.1 := ahead_of_failure ho ha hc hs message hr hne
    obtain ⟨hrun, hsettling⟩ := hahead.run (ho.outcome hout) (ha.outcome ho hout) hok hak later
    have hlater : Awaited (kept.1.run later).1 :=
      later_induction (P := fun _ d ↦ Awaited d) hok hak hak (fun _ ho ha hs ↦ ha.outcome ho hs)
        later
    exact ⟨hrun.getElem? hlater, hsettling⟩

/-- The greeting is still due when a first call cannot write its line. -/
theorem writeFailed_withdraws_own_greeting :
    let d := ((start "> ").run [.submit "a" .publish, .takeTurn]).1
    let c : Call := { id := 1, command := "a", echo := .publish, stage := .writing }
    let later : List Event := [.deliver "hello\n> x\n> ", .close .outputEnded]
    let failed := d.step (.writeFailed 1 "broken pipe")
    (c ∈ d.calls ∧ c.stage = .writing) ∧ d.pending = [⟨0, greeting⟩, ⟨1, "a"⟩] ∧
      (∀ r ∈ (failed.1.run later).1.pending, r.call ≠ 1) ∧
      settling ⟨0, greeting⟩ (failed.1.run later).2 =
        settling ⟨0, greeting⟩ ((d.remove 1).run later).2 ∧
      settling ⟨0, greeting⟩ (failed.1.run later).2 =
        [.answered ⟨0, greeting⟩ ⟨["hello"], "hello\n> x\n> "⟩] := by
  intro d c later failed
  have hc : c ∈ d.calls := by decide +kernel
  have hs : c.stage = .writing := rfl
  have hp : d.pending = [⟨0, greeting⟩, ⟨1, "a"⟩] := by decide +kernel
  obtain ⟨-, hown, hothers⟩ :=
    writeFailed_withdraws_own "> " [.submit "a" .publish, .takeTurn] later "broken pipe" hc hs
  refine ⟨⟨hc, hs⟩, hp, hown, (hothers ⟨0, greeting⟩ ?_ (by decide)).2, by decide +kernel⟩
  rw [show _ = _ from hp]
  exact List.mem_cons_self

end Failure

end Prompter.Dispatcher
