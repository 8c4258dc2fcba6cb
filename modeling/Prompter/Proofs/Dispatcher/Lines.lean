import Prompter.Proofs.Dispatcher.Requests
import Prompter.Proofs.Text.Lines

namespace Prompter

def Request.line (r : Request) : Text := r.command ++ ['\n']

def Call.request (c : Call) : Request := ⟨c.id, c.command⟩

def Call.writing? (c : Call) : Option Request := if c.stage = .writing then some c.request else none

theorem Call.writing?_eq_none {c : Call} (h : c.stage ≠ .writing) : c.writing? = none := if_neg h

theorem Call.writing?_eq_some {c : Call} (h : c.stage = .writing) : c.writing? = some c.request :=
  if_pos h

namespace Dispatcher

def writing (d : Dispatcher) : List Request := d.calls.filterMap Call.writing?

def Notice.wrote? : Notice → Option Text
  | .wrote text => some text
  | _ => none

def Notice.lost? : Notice → Option CallId
  | .returned c _ => c.writing?.map Request.call
  | .cancelled c => c.writing?.map Request.call
  | _ => none

def sent (ns : List Notice) : Text := (ns.filterMap Notice.wrote?).flatten

def lost (ns : List Notice) : List CallId := ns.filterMap Notice.lost?

/-- The requests whose lines have been written or are being written. -/
def kept (ns : List Notice) : List Request := (registered ns).filter (·.call ∉ lost ns)

theorem sent_append (a b : List Notice) : sent (a ++ b) = sent a ++ sent b := by
  simp [sent, List.filterMap_append]

theorem lost_append (a b : List Notice) : lost (a ++ b) = lost a ++ lost b :=
  List.filterMap_append

theorem sent_eq_nil {ns : List Notice} (h : ∀ n ∈ ns, n.wrote? = none) : sent ns = [] := by
  rw [sent, List.filterMap_eq_nil_iff.2 h, List.flatten_nil]

theorem lost_eq_nil {ns : List Notice} (h : ∀ n ∈ ns, n.lost? = none) : lost ns = [] :=
  List.filterMap_eq_nil_iff.2 h

theorem lost_ended {c : Call} {n : Notice} (h : n.lost? = c.writing?.map Request.call) :
    lost [n] = (c.writing?.map Request.call).toList := by
  cases hw : c.writing? <;> simp [lost, h, hw]

theorem SameOutline.writing {d d' : Dispatcher} (h : SameOutline d d') :
    d'.writing = d.writing := by
  have hw : Call.writing? = (fun o : CallId × Text × Echo × Stage ↦
      if o.2.2.2 = .writing then some (⟨o.1, o.2.1⟩ : Request) else none) ∘ Call.outline := rfl
  rw [Dispatcher.writing, Dispatcher.writing, hw, ← List.filterMap_map, h.calls, List.filterMap_map]

namespace Orderly

variable {d d' : Dispatcher}

theorem writing_of_mem (h : Orderly d) {c : Call} (hc : c ∈ d.calls) (hs : c.stage = .writing) :
    d.writing = [c.request] := by
  obtain ⟨xs, ys, he⟩ := List.append_of_mem hc
  have hnodup := h.nodup
  rw [he, List.map_append, List.map_cons, List.nodup_middle, List.nodup_cons, List.mem_append]
    at hnodup
  have hne (c' : Call) (hc' : c' ∈ xs ∨ c' ∈ ys) : c'.writing? = none := by
    refine Call.writing?_eq_none fun hs' ↦ hnodup.1 ?_
    have hm : c' ∈ d.calls := by simp [he, hc'.imp_right Or.inr]
    have hturn := h.turn_of_writing hc hs
    rw [h.turn_of_writing hm hs', Option.some.injEq] at hturn
    exact hc'.imp (fun hx ↦ hturn ▸ List.mem_map_of_mem hx) fun hy ↦ hturn ▸ List.mem_map_of_mem hy
  rw [writing, he, List.filterMap_append, List.filterMap_cons, Call.writing?_eq_some hs,
    List.filterMap_eq_nil_iff.2 fun c' hx ↦ hne c' (.inl hx),
    List.filterMap_eq_nil_iff.2 fun c' hy ↦ hne c' (.inr hy)]
  rfl

theorem writing_of_holder (h : Orderly d) (hh : d.holder = none) : d.writing = [] := by
  refine List.filterMap_eq_nil_iff.2 fun c hc ↦ Call.writing?_eq_none fun hs ↦ ?_
  rw [h.turn_of_writing hc hs] at hh
  cases hh

theorem writing_remove (h : Orderly d) {c : Call} (hc : c ∈ d.calls) (hs : c.stage ≠ .writing) :
    (d.remove c.id).writing = d.writing := by
  rw [writing, writing, Dispatcher.remove, List.filterMap_filter]
  apply List.filterMap_congr
  intro c' hc'
  by_cases hi : c'.id = c.id
  · rw [h.eq_of_id hc' hc hi, Call.writing?_eq_none hs]
    simp
  · simp [hi]

theorem writing_remove_self (h : Orderly d) {c : Call} (hc : c ∈ d.calls)
    (hs : c.stage = .writing) : (d.remove c.id).writing = [] := by
  have hturn := h.turn_of_writing hc hs
  refine (h.remove c.id).writing_of_holder ?_
  simp [Dispatcher.remove, hturn]

theorem writing_written (h : Orderly d) {c : Call} (hc : c ∈ d.calls) (hs : c.stage = .writing) :
    (d.written c).1.writing = [] := by
  have hturn := h.turn_of_writing hc hs
  refine List.filterMap_eq_nil_iff.2 fun c' hc' ↦ Call.writing?_eq_none ?_
  rcases h.mem_update rfl hc hc' with rfl | ⟨hm, hne⟩
  · exact Stage.noConfusion
  · intro hs'
    have hturn' := h.turn_of_writing hm hs'
    rw [hturn, Option.some.injEq] at hturn'
    exact hne hturn'.symm

end Orderly

inductive LineStep : List Request → List Notice → List Request → Prop
  | quiet (w : List Request) (ns : List Notice) (hr : registered ns = []) (hs : sent ns = [])
      (hl : lost ns = []) : LineStep w ns w
  | begun (r : Request) : LineStep [] [.registered r] [r]
  | ended (r : Request) : LineStep [r] [.wrote r.line] []
  | lost (r : Request) (ns : List Notice) (hr : registered ns = []) (hs : sent ns = [])
      (hl : lost ns = [r.call]) : LineStep [r] ns []

theorem Orderly.lineStep_remove {d : Dispatcher} (h : Orderly d) {c : Call} (hc : c ∈ d.calls)
    {ns : List Notice} (hr : registered ns = []) (hs : sent ns = [])
    (hl : lost ns = (c.writing?.map Request.call).toList) :
    LineStep d.writing ns (d.remove c.id).writing := by
  by_cases hw : c.stage = .writing
  · rw [h.writing_of_mem hc hw, h.writing_remove_self hc hw]
    rw [Call.writing?_eq_some hw] at hl
    exact .lost c.request ns hr hs hl
  · rw [h.writing_remove hc hw]
    rw [Call.writing?_eq_none hw] at hl
    exact .quiet _ ns hr hs hl

theorem Outcome.line {d d' : Dispatcher} {e : Event} {ns : List Notice} (h : Outcome d e d' ns)
    (ho : Orderly d) : LineStep d.writing ns d'.writing := by
  have hclose (c : Closing) : LineStep d.writing (d.close c).2 (d.close c).1.writing := by
    rw [close_eq, (rejectAll_outline _ c d.pending).writing]
    exact .quiet _ _ (registered_rejected _) (sent_eq_nil (by simp [Notice.wrote?]))
      (lost_eq_nil (by simp [Notice.lost?]))
  cases h with
  | idle e => exact .quiet _ _ rfl rfl rfl
  | submit command echo =>
    have hw : (d.submit command echo).1.writing = d.writing := by
      simp [Dispatcher.submit, writing, Call.writing?]
    rw [hw]
    exact .quiet _ _ rfl rfl rfl
  | close c => exact hclose c
  | shutdown => exact hclose .stopped
  | hangUp rest hh hq => exact .quiet _ _ rfl rfl rfl
  | pass id rest hh hq => exact .quiet _ _ rfl rfl rfl
  | refuse c rest message hh hq hc =>
    exact ho.lineStep_remove hc rfl rfl (lost_ended rfl)
  | register c rest hh hq hc =>
    have hm : ({ c with stage := .writing } : Call) ∈
        ({ d with queue := rest }.register c).1.calls :=
      (mem_updateCall ..).2 ⟨c, hc, if_pos rfl⟩
    rw [ho.writing_of_holder hh, (ho.register hh hq hc).writing_of_mem hm rfl]
    exact .begun c.request
  | written c hc hs =>
    rw [ho.writing_of_mem hc hs, ho.writing_written hc hs]
    exact .ended c.request
  | writeFailed c message hc hs =>
    cases d.pending.getLast? with
    | none => exact ho.lineStep_remove hc rfl rfl (lost_ended rfl)
    | some r => exact ho.lineStep_remove hc rfl rfl (lost_ended rfl)
  | deliver chunk =>
    rw [Dispatcher.deliver, (handOverAll_outline _ _).writing]
    refine .quiet _ _ (registered_handOverAll _ _) (sent_eq_nil fun n hn ↦ ?_)
      (lost_eq_nil fun n hn ↦ ?_)
    · rcases mem_handOverAll hn with ⟨r, f, rfl⟩ | ⟨f, rfl⟩ <;> rfl
    · rcases mem_handOverAll hn with ⟨r, f, rfl⟩ | ⟨f, rfl⟩ <;> rfl
  | resume c result hc hs =>
    obtain he | ⟨t, he⟩ := finish_notices d c result
    · rw [he]
      exact ho.lineStep_remove hc rfl rfl (lost_ended rfl)
    · rw [he]
      exact ho.lineStep_remove hc rfl rfl (lost_ended rfl)
  | expire c elapsed hc hs =>
    exact ho.lineStep_remove hc rfl rfl (lost_ended rfl)
  | cancel c hc =>
    exact ho.lineStep_remove hc rfl rfl (lost_ended rfl)

theorem Outcome.of_registered {d d' : Dispatcher} {e : Event} {ns : List Notice}
    (h : Outcome d e d' ns) (ho : Orderly d) {r : Request} (hr : r ∈ registered ns) :
    ns = [.registered r] ∧ ∃ c ∈ d'.calls, c.request = r ∧ c.stage = .writing := by
  have hline := h.line ho
  generalize d.writing = w at hline
  generalize hw : d'.writing = w' at hline
  cases hline with
  | quiet _ _ hnil => simp [hnil] at hr
  | lost _ _ hnil => simp [hnil] at hr
  | ended => cases hr
  | begun r' =>
    obtain rfl : r = r' := List.mem_singleton.1 hr
    obtain ⟨c, hc, hcr⟩ := List.mem_filterMap.1 (hw ▸ List.mem_singleton_self r)
    have hs : c.stage = .writing := by
      by_contra hs
      rw [Call.writing?_eq_none hs] at hcr
      cases hcr
    rw [Call.writing?_eq_some hs] at hcr
    exact ⟨rfl, c, hc, Option.some.inj hcr, hs⟩

theorem Outcome.of_wrote {d d' : Dispatcher} {e : Event} {ns : List Notice}
    (h : Outcome d e d' ns) {text : Text} (hn : .wrote text ∈ ns) :
    ∃ c ∈ d.calls, c.stage = .writing ∧ ns = [.wrote c.request.line] ∧ text = c.request.line := by
  cases h with
  | written c hc hs =>
    obtain he := List.mem_singleton.1 hn
    cases he
    exact ⟨c, hc, hs, rfl, rfl⟩
  | resume c result =>
    obtain he | ⟨t, he⟩ := finish_notices d c result <;> simp [he] at hn
  | deliver chunk => obtain ⟨r, f, he⟩ | ⟨f, he⟩ := mem_handOverAll hn <;> cases he
  | close c => simp [close_eq] at hn
  | shutdown => simp [close_eq] at hn
  | _ => simp at hn

/-- The lines so far, of which `w` is being written. -/
structure Written (ns : List Notice) (w : List Request) : Prop where
  lost : ∀ id ∈ lost ns, id ∈ (registered ns).map Request.call
  length : (kept ns).length + (Dispatcher.lost ns).length = (registered ns).length
  sent : ∃ done, kept ns = done ++ w ∧ sent ns = done.flatMap Request.line

theorem Written.quiet {ns ns' : List Notice} {w w' : List Request} (h : Written ns w)
    (hr : registered ns' = []) (hl : Dispatcher.lost ns' = [])
    (hs : ∀ done, kept ns = done ++ w → Dispatcher.sent ns = done.flatMap Request.line →
      ∃ done', kept ns = done' ++ w' ∧ Dispatcher.sent (ns ++ ns') = done'.flatMap Request.line) :
    Written (ns ++ ns') w' := by
  have hr' : registered (ns ++ ns') = registered ns := by
    rw [registered_append, hr, List.append_nil]
  have hl' : Dispatcher.lost (ns ++ ns') = Dispatcher.lost ns := by
    rw [lost_append, hl, List.append_nil]
  have hk : kept (ns ++ ns') = kept ns := by rw [kept, hr', hl', kept]
  obtain ⟨done, hkept, hsent⟩ := h.sent
  refine ⟨?_, ?_, ?_⟩
  · rw [hl', hr']
    exact h.lost
  · rw [hk, hl', hr']
    exact h.length
  · rw [hk]
    exact hs done hkept hsent

theorem Written.step {ns ns' : List Notice} {w w' : List Request} (h : Written ns w)
    (hs : LineStep w ns' w') (hn : ((registered (ns ++ ns')).map Request.call).Nodup) :
    Written (ns ++ ns') w' := by
  cases hs with
  | quiet _ _ hr hs hl =>
    refine h.quiet hr hl fun done hkept hsent ↦ ⟨done, hkept, ?_⟩
    rw [sent_append, hs, List.append_nil, hsent]
  | ended r =>
    refine h.quiet rfl rfl fun done hkept hsent ↦ ⟨done ++ [r], ?_, ?_⟩
    · rw [hkept, List.append_nil]
    · rw [sent_append, hsent, List.flatMap_append]
      simp [Dispatcher.sent, Notice.wrote?]
  | begun r =>
    have hr : registered (ns ++ [.registered r]) = registered ns ++ [r] := registered_append _ _
    have hl : Dispatcher.lost (ns ++ [.registered r]) = Dispatcher.lost ns := by
      simp [Dispatcher.lost, Notice.lost?]
    have hnew : r.call ∉ Dispatcher.lost ns := by
      intro hm
      rw [hr, List.map_append, List.nodup_append] at hn
      exact hn.2.2 _ (h.lost _ hm) r.call (by simp) rfl
    have hk : kept (ns ++ [.registered r]) = kept ns ++ [r] := by
      rw [kept, hl, hr, List.filter_append, kept]
      simp [hnew]
    obtain ⟨done, hkept, hsent⟩ := h.sent
    have hlength := h.length
    refine ⟨?_, ?_, done, ?_, ?_⟩
    · rw [hl, hr, List.map_append]
      exact fun id hid ↦ List.mem_append_left _ (h.lost id hid)
    · rw [hk, hl, hr, List.length_append, List.length_append]
      omega
    · rw [hk, hkept, List.append_nil]
    · rw [sent_append, hsent]
      exact List.append_nil _
  | lost r _ hr hs hl =>
    have hr' : registered (ns ++ ns') = registered ns := by
      rw [registered_append, hr, List.append_nil]
    have hl' : Dispatcher.lost (ns ++ ns') = Dispatcher.lost ns ++ [r.call] := by
      rw [lost_append, hl]
    obtain ⟨done, hkept, hsent⟩ := h.sent
    have hsub : (done ++ [r]).Sublist (registered ns) := hkept ▸ List.filter_sublist
    have hne : ∀ r' ∈ done, r'.call ≠ r.call := by
      rw [hr'] at hn
      have hdone := hn.sublist (hsub.map _)
      rw [List.map_append, List.nodup_append] at hdone
      exact fun r' hm ↦ hdone.2.2 _ (List.mem_map_of_mem hm) _ (by simp)
    have hk : kept (ns ++ ns') = done := by
      have hf : kept (ns ++ ns') = (kept ns).filter (·.call ≠ r.call) := by
        rw [kept, hl', hr', kept, List.filter_filter]
        apply List.filter_congr
        intro r' _
        simp [not_or, Bool.and_comm]
      rw [hf, hkept, List.filter_append, List.filter_eq_self.2 (by simpa using hne)]
      simp
    have hlength := h.length
    refine ⟨?_, ?_, done, ?_, ?_⟩
    · rw [hl', hr']
      intro id hid
      rcases List.mem_append.1 hid with hid | hid
      · exact h.lost id hid
      · rw [List.mem_singleton.1 hid]
        exact List.mem_map_of_mem (hsub.subset (by simp))
    · rw [hk, hl', hr']
      simp only [hkept, List.length_append, List.length_singleton] at hlength ⊢
      omega
    · rw [hk, List.append_nil]
    · rw [sent_append, hs, List.append_nil, hsent]

theorem written_run (prompt : Text) (es : List Event) :
    Written ((start prompt).run es).2 ((start prompt).run es).1.writing := by
  refine run_induction (P := fun _ ns d ↦ Written ns d.writing) ?_ (fun es e h ↦ ?_) es
  · exact ⟨by simp [lost], rfl, [], rfl, rfl⟩
  · have hn := requests_nodup prompt (es ++ [e])
    rw [run_concat] at hn
    exact h.step ((step_outcome _ e).line (orderly_run prompt es)) (List.nodup_cons.1 hn).2

theorem writing_eq_nil {d : Dispatcher} (h : ∀ c ∈ d.calls, c.stage ≠ .writing) :
    d.writing = [] :=
  List.filterMap_eq_nil_iff.2 fun c hc ↦ Call.writing?_eq_none (h c hc)

theorem count_flatMap_line (rs : List Request) :
    (rs.flatMap Request.line).count '\n' =
      rs.length + (rs.flatMap Request.command).count '\n' := by
  induction rs with
  | nil => rfl
  | cons r rs ih =>
    have hr : r.line.count '\n' = r.command.count '\n' + 1 := by simp [Request.line]
    simp only [List.flatMap_cons, List.count_append, ih, hr, List.length_cons]
    omega

theorem flatMap_line (rs : List Request) :
    rs.flatMap Request.line = (rs.map Request.command).flatMap (· ++ ['\n']) := by
  rw [List.flatMap_map]
  rfl

/-- Between two writes there are as many lines as requests, but for the lines that have been lost
and for the line feeds in commands. -/
theorem line_count (prompt : Text) (es : List Event)
    (h : ∀ c ∈ ((start prompt).run es).1.calls, c.stage ≠ .writing) :
    let ns := ((start prompt).run es).2
    (sent ns).count '\n' + (lost ns).length =
        (registered ns).length + ((kept ns).flatMap Request.command).count '\n' ∧
      (lost ns = [] → ((sent ns).count '\n' = (registered ns).length ↔
        ∀ r ∈ registered ns, '\n' ∉ r.command)) ∧
      ((∀ r ∈ registered ns, '\n' ∉ r.command) →
        Text.splitLines (sent ns) = (kept ns).map Request.command ++ [[]]) := by
  intro ns
  have hw := written_run prompt es
  rw [writing_eq_nil h] at hw
  obtain ⟨done, hkept, hsent⟩ := hw.sent
  rw [List.append_nil] at hkept
  subst hkept
  have hlength : (kept ns).length + (lost ns).length = (registered ns).length := hw.length
  have hcount : (sent ns).count '\n' =
      (kept ns).length + ((kept ns).flatMap Request.command).count '\n' :=
    hsent ▸ count_flatMap_line _
  refine ⟨?_, fun hl ↦ ?_, fun hn ↦ ?_⟩
  · rw [hcount, ← hlength]
    omega
  · have hk : kept ns = registered ns := List.filter_eq_self.2 (by simp [ns, hl])
    rw [hcount, hk, Nat.add_eq_left, List.count_eq_zero]
    simp [List.mem_flatMap]
  · rw [hsent, flatMap_line, Text.splitLines_flatMap]
    intro command hm
    obtain ⟨r, hr, rfl⟩ := List.mem_map.1 hm
    exact hn r (List.mem_filter.1 hr).1

theorem line_count_one :
    let ns := ((start "> ").run [.submit "a" .silent, .takeTurn, .written 1]).2
    lost ns = [] ∧ (sent ns).count '\n' = (registered ns).length :=
  ⟨by decide, ((line_count "> " [.submit "a" .silent, .takeTurn, .written 1] (by decide)).2.1
    (by decide)).2 (by decide)⟩

/-- One request is two lines where the command has a line feed in it. -/
theorem two_lines_of_one_request :
    let (d, ns) := (start "> ").run [.submit "a\nb" .silent, .takeTurn, .written 1]
    (∀ c ∈ d.calls, c.stage ≠ .writing) ∧ lost ns = [] ∧ (sent ns).count '\n' = 2 ∧
      (registered ns).length = 1 := by
  decide

end Dispatcher

end Prompter
