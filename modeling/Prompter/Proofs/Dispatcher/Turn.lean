import Mathlib.Data.List.Perm.Subperm
import Prompter.Proofs.Dispatcher.Matching

namespace Prompter.Dispatcher

theorem exists_of_outline {d d' : Dispatcher}
    (h : d'.calls.map Call.outline = d.calls.map Call.outline) {c : Call} (hc : c ∈ d.calls) :
    ∃ c' ∈ d'.calls, c'.request = c.request ∧ c'.stage = c.stage := by
  have hm : c.outline ∈ d'.calls.map Call.outline := h ▸ List.mem_map_of_mem hc
  obtain ⟨c', hc', hout⟩ := List.mem_map.1 hm
  simp only [Call.outline, Prod.mk.injEq] at hout
  exact ⟨c', hc', by rw [Call.request, Call.request, hout.1, hout.2.1], hout.2.2.2⟩

theorem Orderly.stage_of_next {d : Dispatcher} (ho : Orderly d) {c : Call} (hc : c ∈ d.calls)
    {rest : List Waiter} (hq : d.queue = .call c.id :: rest) : c.stage = .queued :=
  (ho.stage_queued c hc).2 (queued_cons hq ▸ List.mem_cons_self)

theorem Orderly.survives_remove {d : Dispatcher} (ho : Orderly d) {c c₁ : Call} (hc : c ∈ d.calls)
    (hs : c.stage ≠ .queued) (hc₁ : c₁ ∈ d.calls) {ns : List Notice} {n : Notice} (hn : n ∈ ns)
    (he : n.ended? = some c₁) :
    (∃ c' ∈ (d.remove c₁.id).calls, c'.request = c.request ∧ c'.stage ≠ .queued) ∨
      ∃ n ∈ ns, n.ended? = some c := by
  by_cases hi : c.id = c₁.id
  · exact .inr ⟨n, hn, ho.eq_of_id hc hc₁ hi ▸ he⟩
  · exact .inl ⟨c, (mem_remove ..).2 ⟨hc, hi⟩, rfl, hs⟩

theorem Outcome.survives {d d' : Dispatcher} {e : Event} {ns : List Notice}
    (h : Outcome d e d' ns) (ho : Orderly d) {c : Call} (hc : c ∈ d.calls)
    (hs : c.stage ≠ .queued) :
    (∃ c' ∈ d'.calls, c'.request = c.request ∧ c'.stage ≠ .queued) ∨
      ∃ n ∈ ns, n.ended? = some c := by
  have houtline {d' : Dispatcher} (h : d'.calls.map Call.outline = d.calls.map Call.outline) :
      ∃ c' ∈ d'.calls, c'.request = c.request ∧ c'.stage ≠ .queued := by
    obtain ⟨c', hc', hr, hst⟩ := exists_of_outline h hc
    exact ⟨c', hc', hr, hst ▸ hs⟩
  cases h with
  | idle => exact .inl ⟨c, hc, rfl, hs⟩
  | submit => exact .inl ⟨c, List.mem_append_left _ hc, rfl, hs⟩
  | close closing => exact .inl (houtline (rejectAll_outline _ closing d.pending).calls)
  | shutdown => exact .inl (houtline (rejectAll_outline _ .stopped d.pending).calls)
  | hangUp => exact .inl ⟨c, hc, rfl, hs⟩
  | pass => exact .inl ⟨c, hc, rfl, hs⟩
  | refuse c₁ rest message hh hq hc₁ => exact ho.survives_remove hc hs hc₁ List.mem_cons_self rfl
  | register c₁ =>
    refine .inl ⟨_, (mem_updateCall ..).2 ⟨c, hc, rfl⟩, ?_⟩
    split
    · exact ⟨rfl, Stage.noConfusion⟩
    · exact ⟨rfl, hs⟩
  | written c₁ =>
    refine .inl ⟨_, (mem_updateCall ..).2 ⟨c, hc, rfl⟩, ?_⟩
    split
    · exact ⟨rfl, Stage.noConfusion⟩
    · exact ⟨rfl, hs⟩
  | writeFailed c₁ message hc₁ =>
    exact ho.survives_remove hc hs hc₁ (List.mem_append_right _ List.mem_cons_self) rfl
  | deliver chunk => exact .inl (houtline (handOverAll_outline _ _).calls)
  | resume c₁ result hc₁ =>
    obtain he | ⟨t, he⟩ := finish_notices d c₁ result
    · rw [he]
      exact ho.survives_remove hc hs hc₁ List.mem_cons_self rfl
    · rw [he]
      exact ho.survives_remove hc hs hc₁ (List.mem_cons_of_mem _ List.mem_cons_self) rfl
  | expire c₁ elapsed hc₁ => exact ho.survives_remove hc hs hc₁ List.mem_cons_self rfl
  | cancel c₁ hc₁ => exact ho.survives_remove hc hs hc₁ List.mem_cons_self rfl

theorem ended_of_lost {ns : List Notice} {id : CallId} (h : id ∈ lost ns) :
    ∃ n ∈ ns, ∃ c, n.ended? = some c ∧ c.id = id ∧ c.stage = .writing := by
  obtain ⟨n, hn, hl⟩ := List.mem_filterMap.1 h
  refine ⟨n, hn, ?_⟩
  have hwriting (c : Call) (hc : c.writing?.map Request.call = some id) :
      c.id = id ∧ c.stage = .writing := by
    by_cases hs : c.stage = .writing
    · rw [Call.writing?_eq_some hs] at hc
      exact ⟨Option.some.inj hc, hs⟩
    · rw [Call.writing?_eq_none hs] at hc
      cases hc
  cases n with
  | returned c result => exact ⟨c, rfl, hwriting c hl⟩
  | cancelled c => exact ⟨c, rfl, hwriting c hl⟩
  | _ => cases hl

/-- Only with its end the call that has the turn makes way for another request. -/
theorem Outcome.steady {d d' : Dispatcher} {e : Event} {ns : List Notice} (h : Outcome d e d' ns)
    (ho : Orderly d) {c : Call} (hc : c ∈ d.calls) (h0 : c.id ≠ 0) (hs : c.stage ≠ .queued)
    (hc' : ∃ c' ∈ d'.calls, c'.id = c.id) : registered ns = [] ∧ lost ns = [] := by
  have hturn := ho.turn c hc h0 hs
  constructor
  · obtain ⟨hr, -⟩ | ⟨hr, -⟩ | ⟨c₁, -, -, -, -, hh, -⟩ := h.order
    · exact hr
    · exact hr
    · rw [hturn] at hh
      cases hh
  · apply List.eq_nil_iff_forall_not_mem.2
    intro id hid
    obtain ⟨n, hn, c₁, he, rfl, hw⟩ := ended_of_lost hid
    obtain ⟨hc₁, hcalls, -⟩ := h.of_ended hn he
    rw [ho.turn_of_writing hc₁ hw, Option.some.injEq] at hturn
    obtain ⟨c', hm, hi⟩ := hc'
    rw [hcalls] at hm
    exact ((mem_remove ..).1 hm).2 (hi.trans hturn.symm)

theorem Origin.before {d : Dispatcher} {e : Event} {ns : List Notice} {c : Call}
    (h : Origin d e ns c) (hs : c.stage ≠ .queued) :
    (e = .takeTurn ∧ ns = [.registered c.request]) ∨
      ∃ c₀ ∈ d.calls, c₀.request = c.request ∧ c₀.stage ≠ .queued := by
  cases h with
  | kept _ hc => exact .inr ⟨c, hc, rfl, hs⟩
  | submitted => exact absurd rfl hs
  | registered c₀ hc he hn => exact .inl ⟨he, hn⟩
  | written c₀ hc hw => exact .inr ⟨c₀, hc, rfl, Call.ne_queued_of_writing hw⟩
  | answered c₀ r f hc => exact .inr ⟨c₀, hc, rfl, hs⟩
  | rejected c₀ r error hc => exact .inr ⟨c₀, hc, rfl, hs⟩

theorem Origin.before_waiting {d : Dispatcher} {e : Event} {ns : List Notice} {c : Call}
    (h : Origin d e ns c) (hs : c.stage = .waiting) :
    (e = .written c.id ∧ ns = [.wrote c.request.line]) ∨
      ∃ c₀ ∈ d.calls, c₀.request = c.request ∧ c₀.stage = .waiting := by
  cases h with
  | kept _ hc => exact .inr ⟨c, hc, rfl, hs⟩
  | submitted => cases hs
  | registered => cases hs
  | written c₀ hc hw he hn => exact .inl ⟨he, hn⟩
  | answered c₀ r f hc => exact .inr ⟨c₀, hc, rfl, hs⟩
  | rejected c₀ r error hc => exact .inr ⟨c₀, hc, rfl, hs⟩

/-- Between `ns` and `ns'` no request was made and no line was lost. -/
def Steady (ns ns' : List Notice) : Prop := registered ns' = registered ns ∧ lost ns' = lost ns

theorem Steady.append {ns ns' ns'' : List Notice} (h : Steady ns ns') (hr : registered ns'' = [])
    (hl : lost ns'' = []) : Steady ns (ns' ++ ns'') := by
  constructor
  · rw [registered_append, hr, List.append_nil, h.1]
  · rw [lost_append, hl, List.append_nil, h.2]

/-- Since the call came to its stage, with the event `event`, no other request was made. -/
theorem since_run (S : Stage → Prop) (event : CallId → Event) (notice : Request → Notice)
    (hS : ∀ s, S s → s ≠ .queued)
    (hstep : ∀ {d e ns} {c : Call}, Origin d e ns c → S c.stage →
      (e = event c.id ∧ ns = [notice c.request]) ∨
        ∃ c₀ ∈ d.calls, c₀.request = c.request ∧ S c₀.stage)
    (prompt : Text) (es : List Event) :
    ∀ c ∈ ((start prompt).run es).1.calls, c.id ≠ 0 → S c.stage →
      ∃ a b, es = a ++ event c.id :: b ∧
        (((start prompt).run a).1.step (event c.id)).2 = [notice c.request] ∧
        Steady ((start prompt).run (a ++ [event c.id])).2 ((start prompt).run es).2 := by
  refine run_induction (P := fun es ns d ↦ ∀ c ∈ d.calls, c.id ≠ 0 → S c.stage →
    ∃ a b, es = a ++ event c.id :: b ∧
      (((start prompt).run a).1.step (event c.id)).2 = [notice c.request] ∧
      Steady ((start prompt).run (a ++ [event c.id])).2 ns) ?_ (fun es e h c hc h0 hs ↦ ?_) es
  · simp [start]
  · have ho := orderly_run prompt es
    have hout := step_outcome ((start prompt).run es).1 e
    obtain ⟨rfl, hn⟩ | ⟨c₀, hc₀, hr, hs₀⟩ := hstep (hout.origin ho hc) hs
    · refine ⟨es, [], rfl, hn, ?_⟩
      rw [run_concat]
      exact ⟨rfl, rfl⟩
    · have hi : c₀.id = c.id := congrArg Request.call hr
      obtain ⟨a, b, he, hn, hsteady⟩ := h c₀ hc₀ (hi ▸ h0) hs₀
      obtain ⟨hreg, hlost⟩ := hout.steady ho hc₀ (hi ▸ h0) (hS _ hs₀) ⟨c, hc, hi.symm⟩
      rw [hi, hr] at hn
      rw [hi] at he hsteady
      exact ⟨a, b ++ [e], by simp [he], hn, hsteady.append hreg hlost⟩

theorem turn_run (prompt : Text) (es : List Event) :
    ∀ c ∈ ((start prompt).run es).1.calls, c.id ≠ 0 → c.stage ≠ .queued →
      ∃ a b, es = a ++ .takeTurn :: b ∧
        (((start prompt).run a).1.step .takeTurn).2 = [.registered c.request] ∧
        Steady ((start prompt).run (a ++ [.takeTurn])).2 ((start prompt).run es).2 :=
  since_run (· ≠ .queued) (fun _ ↦ .takeTurn) .registered (fun _ h ↦ h) Origin.before prompt es

theorem line_run (prompt : Text) (es : List Event) :
    ∀ c ∈ ((start prompt).run es).1.calls, c.id ≠ 0 → c.stage = .waiting →
      ∃ a b, es = a ++ .written c.id :: b ∧
        (((start prompt).run a).1.step (.written c.id)).2 = [.wrote c.request.line] ∧
        Steady ((start prompt).run (a ++ [.written c.id])).2 ((start prompt).run es).2 :=
  since_run (· = .waiting) .written (fun r ↦ .wrote r.line) (fun _ h ↦ h ▸ Stage.noConfusion)
    Origin.before_waiting prompt es

theorem registered_of_turn {prompt : Text} {a es : List Event} {c : Call}
    (hn : (((start prompt).run a).1.step .takeTurn).2 = [.registered c.request])
    (hs : Steady ((start prompt).run (a ++ [.takeTurn])).2 ((start prompt).run es).2) :
    registered ((start prompt).run es).2 = registered ((start prompt).run a).2 ++ [c.request] := by
  rw [hs.1, run_concat, registered_append, hn]
  rfl

theorem requests_of_turn {prompt : Text} {a es : List Event} {c : Call}
    (hn : (((start prompt).run a).1.step .takeTurn).2 = [.registered c.request])
    (hs : Steady ((start prompt).run (a ++ [.takeTurn])).2 ((start prompt).run es).2) :
    requests ((start prompt).run es).2 = requests ((start prompt).run a).2 ++ [c.request] := by
  rw [requests, registered_of_turn hn hs]
  rfl

theorem kept_of_turn {prompt : Text} {a es : List Event} {c : Call}
    (hn : (((start prompt).run a).1.step .takeTurn).2 = [.registered c.request])
    (hs : Steady ((start prompt).run (a ++ [.takeTurn])).2 ((start prompt).run es).2) :
    kept ((start prompt).run es).2 = kept ((start prompt).run a).2 ++ [c.request] := by
  have hreg := registered_of_turn hn hs
  have hlost : lost ((start prompt).run es).2 = lost ((start prompt).run a).2 := by
    rw [hs.2, run_concat, lost_append, hn]
    exact List.append_nil _
  have hnew : c.id ∉ lost ((start prompt).run a).2 := by
    intro hm
    have hnodup := requests_nodup prompt es
    rw [requests, hreg, List.map_cons, List.map_append, List.nodup_cons, List.nodup_append]
      at hnodup
    exact hnodup.2.2.2 c.id ((written_run prompt a).lost _ hm) c.id List.mem_cons_self rfl
  rw [kept, hreg, hlost, List.filter_append, kept]
  simp [Call.request, hnew]

/-- Once a request has been rejected no call gets a frame, unless it has it already. -/
structure Unrejected (ns : List Notice) (d : Dispatcher) : Prop where
  open_ : d.closed = none → rejected ns = []
  calls : ∀ c ∈ d.calls, c.id ≠ 0 → c.stage ≠ .queued →
    rejected ns = [] ∨ ∃ e, c.answer = some (.error e)

theorem Unrejected.step {ns ns' : List Notice} {d d' : Dispatcher} {e : Event}
    (h : Unrejected ns d) (ho : Orderly d) (ha : Awaited d) (hs : Outcome d e d' ns') :
    Unrejected (ns ++ ns') d' := by
  obtain ⟨-, hr, hclosed⟩ | ⟨closing, -, hnotices, hcalls, hclosed⟩ := hs.closing
  · have hns : rejected (ns ++ ns') = rejected ns := by rw [rejected_append, hr, List.append_nil]
    constructor
    · rw [hns, hclosed]
      exact h.open_
    · intro c hc h0 hq
      rw [hns]
      cases hs.origin ho hc with
      | kept _ hm => exact h.calls c hm h0 hq
      | submitted => exact absurd rfl hq
      | registered c₀ hm he hn =>
        obtain ⟨hreg, -⟩ | ⟨hreg, -⟩ | ⟨-, -, -, -, -, -, hopen⟩ := hs.order
        · simp [hn, Dispatcher.registered, Notice.registered?] at hreg
        · simp [hn, Dispatcher.registered, Notice.registered?] at hreg
        · exact .inl (h.open_ hopen)
      | written c₀ hm hw => exact h.calls c₀ hm h0 (Call.ne_queued_of_writing hw)
      | answered c₀ r f hm hrc hn =>
        refine .inl ((h.calls c₀ hm h0 hq).resolve_right ?_)
        rintro ⟨error, herror⟩
        obtain ⟨hreg, -⟩ := hs.steady ho hm h0 hq ⟨_, hc, rfl⟩
        have hmem := hs.fifo.1.perm.subset (List.mem_append_left _ (mem_resolved_of_answered hn))
        rw [hreg, List.append_nil] at hmem
        obtain hnil | ⟨hnone, -⟩ := ha.newest c₀ hm h0 hq
        · simp [hnil] at hmem
        · simp [hnone] at herror
      | rejected c₀ r error => exact .inr ⟨error, rfl⟩
  · have hr : rejected ns' = d.pending := hnotices ▸ rejected_map d.pending
    constructor
    · intro hnone
      have hsome := close_isClosed d closing
      rw [← hclosed, hnone] at hsome
      cases hsome
    · intro c hc h0 hq
      rw [hcalls] at hc
      rcases mem_rejectAll hc with ⟨hm, hne⟩ | ⟨r, -, c₀, -, -, rfl⟩
      · obtain hnil | ⟨-, hl⟩ := ha.newest c hm h0 hq
        · rw [rejected_append, hr, hnil, List.append_nil]
          exact h.calls c hm h0 hq
        · exact absurd rfl (hne _ (List.mem_of_getLast? hl))
      · exact .inr ⟨_, rfl⟩

theorem unrejected_run (prompt : Text) (es : List Event) :
    Unrejected ((start prompt).run es).2 ((start prompt).run es).1 := by
  refine run_induction (P := fun _ ns d ↦ Unrejected ns d) ⟨fun _ ↦ rfl, fun _ _ _ _ ↦ .inl rfl⟩
    (fun es e h ↦ ?_) es
  exact h.step (orderly_run prompt es) (awaited_run prompt es) (step_outcome _ e)

theorem mem_resolved {ns : List Notice} {r : Request} (h : r ∈ resolved ns) :
    r ∈ (answered ns).map Prod.fst ∨ r ∈ rejected ns ∨ .withdrawn r ∈ ns := by
  obtain ⟨n, hn, he⟩ := List.mem_filterMap.1 h
  cases n with
  | answered r' f =>
    obtain rfl : r' = r := Option.some.inj he
    exact .inl (List.mem_map.2 ⟨(r', f), List.mem_filterMap.2 ⟨_, hn, rfl⟩, rfl⟩)
  | rejected r' => exact .inr (.inl (List.mem_filterMap.2 ⟨_, hn, he⟩))
  | withdrawn r' =>
    obtain rfl : r' = r := Option.some.inj he
    exact .inr (.inr hn)
  | _ => cases he

theorem mem_lost_of_withdrawn {prompt : Text} {es : List Event} {r : Request}
    (h : .withdrawn r ∈ ((start prompt).run es).2) : r.call ∈ lost ((start prompt).run es).2 := by
  obtain ⟨c, message, hi, hs, hn⟩ := withdrawn_run prompt es r h
  refine List.mem_filterMap.2 ⟨_, hn, ?_⟩
  rw [Notice.lost?, Call.writing?_eq_some hs, ← hi]
  rfl

theorem zero_not_mem_lost (prompt : Text) (es : List Event) :
    0 ∉ lost ((start prompt).run es).2 := by
  intro h
  obtain ⟨r, hr, h0⟩ := List.mem_map.1 ((written_run prompt es).lost 0 h)
  exact ne_zero_of_registered hr h0

variable {prompt : Text} {es : List Event}

theorem length_kept_lt (hp : ((start prompt).run es).1.pending = [])
    (hr : rejected ((start prompt).run es).2 = []) :
    (kept ((start prompt).run es).2).length < (answered ((start prompt).run es).2).length := by
  have hperm := resolved_run prompt es
  rw [hp, List.append_nil] at hperm
  have hmem (r : Request) (hreq : r ∈ requests ((start prompt).run es).2)
      (hlost : r.call ∉ lost ((start prompt).run es).2) :
      r ∈ (answered ((start prompt).run es).2).map Prod.fst := by
    obtain h | h | h := mem_resolved (hperm.mem_iff.2 hreq)
    · exact h
    · rw [hr] at h
      cases h
    · exact absurd (mem_lost_of_withdrawn h) hlost
  have hsub : (⟨0, greeting⟩ :: kept ((start prompt).run es).2) ⊆
      (answered ((start prompt).run es).2).map Prod.fst := by
    refine List.cons_subset.2 ⟨hmem _ List.mem_cons_self (zero_not_mem_lost prompt es), ?_⟩
    intro r hk
    obtain ⟨hreg, hlost⟩ := List.mem_filter.1 hk
    exact hmem r (List.mem_cons_of_mem _ hreg) (by simpa using hlost)
  have hnodup : (⟨0, greeting⟩ :: kept ((start prompt).run es).2).Nodup :=
    (requests_nodup prompt es).of_map.sublist (List.filter_sublist.cons_cons _)
  have hle := (List.subperm_of_subset hnodup hsub).length_le
  rwa [List.length_cons, List.length_map] at hle

theorem concat_of_sublist {α : Type} {l l' : List α} {x : α} (h : l.Sublist (l' ++ [x]))
    (hn : (l' ++ [x]).Nodup) (hx : x ∈ l) : ∃ k, l = k ++ [x] := by
  obtain ⟨k, m, rfl, hk, hm⟩ := List.sublist_append_iff.1 h
  obtain rfl | rfl := List.sublist_singleton.1 hm
  · rw [List.append_nil] at hx
    exact absurd rfl ((List.nodup_append.1 hn).2.2 x (hk.subset hx) x List.mem_cons_self)
  · exact ⟨k, rfl⟩

theorem answered_of_answer {c : Call} {frame : Frame} (hc : c ∈ ((start prompt).run es).1.calls)
    (h0 : c.id ≠ 0) (ha : c.answer = some (.ok frame)) :
    (kept ((start prompt).run es).2).length < (answered ((start prompt).run es).2).length ∧
      ∃ earlier f, answered ((start prompt).run es).2 = earlier ++ [(c.request, f)] ∧
        frame = f.echoed c.command := by
  have hawaited := awaited_run prompt es
  have hq : c.stage ≠ .queued := fun hq ↦ by simp [hawaited.unanswered c hc hq] at ha
  have hp : ((start prompt).run es).1.pending = [] := by
    obtain hnil | ⟨hnone, -⟩ := hawaited.newest c hc h0 hq
    · exact hnil
    · simp [hnone] at ha
  have hr : rejected ((start prompt).run es).2 = [] := by
    obtain hnil | ⟨error, he⟩ := (unrejected_run prompt es).calls c hc h0 hq
    · exact hnil
    · simp [he] at ha
  refine ⟨length_kept_lt hp hr, ?_⟩
  obtain ⟨a, b, -, hn, hsteady⟩ := turn_run prompt es c hc h0 hq
  obtain ⟨f, hf, rfl⟩ :=
    (answeredWith_run prompt es c hc frame ha).own ((named_run prompt es).calls c hc)
  have hreq := requests_of_turn hn hsteady
  have hsub : ((answered ((start prompt).run es).2).map Prod.fst).Sublist
      (requests ((start prompt).run es).2) := (fifo_run prompt es).1.answered_sublist
  have hnodup := (requests_nodup prompt es).of_map
  have hmem : (c.request, f) ∈ answered ((start prompt).run es).2 :=
    List.mem_filterMap.2 ⟨_, hf, rfl⟩
  have hfst := hnodup.sublist hsub
  rw [hreq] at hsub hnodup
  obtain ⟨k, hk⟩ := concat_of_sublist hsub hnodup (List.mem_map_of_mem hmem)
  obtain ⟨earlier, last, hsplit, -, hlast⟩ := List.map_eq_append_iff.1 hk
  obtain ⟨⟨r, f'⟩, rfl, rfl⟩ := List.map_eq_singleton_iff.1 hlast
  have hmem' : (c.request, f') ∈ answered ((start prompt).run es).2 := by simp [hsplit]
  have heq := List.inj_on_of_nodup_map hfst hmem hmem' rfl
  refine ⟨earlier, f', hsplit, ?_⟩
  rw [(Prod.mk.inj heq).2]

end Prompter.Dispatcher
