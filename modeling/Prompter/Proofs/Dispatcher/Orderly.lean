import Mathlib.Data.List.Pairwise
import Mathlib.Data.List.Nodup
import Prompter.Proofs.Dispatcher.Outcome

namespace Prompter.Dispatcher

/-- The calls and the turn. Call 0, which waits for the greeting, never has the turn. -/
structure Orderly (d : Dispatcher) : Prop where
  nextId_pos : 0 < d.nextId
  nodup : (d.calls.map Call.id).Nodup
  lt_nextId : ∀ c ∈ d.calls, c.id < d.nextId
  stage_zero : ∀ c ∈ d.calls, c.id = 0 → c.stage = .waiting
  stage_queued : ∀ c ∈ d.calls, (c.stage = .queued ↔ c.id ∈ d.queued)
  of_queued : ∀ id ∈ d.queued, ∃ c ∈ d.calls, c.id = id
  sorted : d.queued.Pairwise (· < ·)
  turn : ∀ c ∈ d.calls, c.id ≠ 0 → c.stage ≠ .queued → d.holder = some c.id
  of_holder : ∀ id, d.holder = some id → ∃ c ∈ d.calls, c.id = id ∧ c.stage ≠ .queued

theorem queued_cons {d : Dispatcher} {id : CallId} {rest : List Waiter}
    (hq : d.queue = .call id :: rest) : d.queued = id :: { d with queue := rest }.queued := by
  simp [queued, hq, Waiter.id?]

theorem queued_shutdown {d : Dispatcher} {rest : List Waiter} (hq : d.queue = .shutdown :: rest) :
    d.queued = { d with queue := rest }.queued := by
  simp [queued, hq, List.filterMap_cons, Waiter.id?]

theorem queued_concat_shutdown (d : Dispatcher) :
    { d with queue := d.queue ++ [Waiter.shutdown] }.queued = d.queued := by
  simp [queued, Waiter.id?, List.filterMap_cons]

namespace Orderly

variable {d d' : Dispatcher}

theorem eq_of_id (h : Orderly d) {c c' : Call} (hc : c ∈ d.calls) (hc' : c' ∈ d.calls)
    (he : c.id = c'.id) : c = c' :=
  List.inj_on_of_nodup_map h.nodup hc hc' he

theorem mem_update (h : Orderly d) {d₁ : Dispatcher} (hd : d₁.calls = d.calls) {c c' : Call}
    (hc : c ∈ d.calls) {f : Call → Call} (hc' : c' ∈ (d₁.updateCall c.id f).calls) :
    c' = f c ∨ c' ∈ d.calls ∧ c'.id ≠ c.id := by
  obtain ⟨c₀, hc₀, rfl⟩ := (mem_updateCall ..).1 hc'
  rw [hd] at hc₀
  split
  next he => exact .inl (congrArg f (h.eq_of_id hc₀ hc he))
  next he => exact .inr ⟨hc₀, he⟩

theorem start (prompt : Text) : Orderly (start prompt) := by
  constructor <;> simp [Dispatcher.start, queued]

theorem congr (h : Orderly d) (hs : SameOutline d d') : Orderly d' := by
  have hq : d'.queued = d.queued := by simp only [queued, hs.queue]
  have hids : d'.calls.map Call.id = d.calls.map Call.id := by
    have := congrArg (List.map Prod.fst) hs.calls
    simpa only [List.map_map, Function.comp_def, Call.outline] using this
  have hto (c : Call) (hc : c ∈ d'.calls) : ∃ c₀ ∈ d.calls, c₀.id = c.id ∧ c₀.stage = c.stage := by
    have hm : c.outline ∈ d.calls.map Call.outline := hs.calls ▸ List.mem_map_of_mem hc
    obtain ⟨c₀, hc₀, he⟩ := List.mem_map.1 hm
    simp only [Call.outline, Prod.mk.injEq] at he
    exact ⟨c₀, hc₀, he.1, he.2.2.2⟩
  have hof (c : Call) (hc : c ∈ d.calls) : ∃ c' ∈ d'.calls, c'.id = c.id ∧ c'.stage = c.stage := by
    have hm : c.outline ∈ d'.calls.map Call.outline := hs.calls ▸ List.mem_map_of_mem hc
    obtain ⟨c', hc', he⟩ := List.mem_map.1 hm
    simp only [Call.outline, Prod.mk.injEq] at he
    exact ⟨c', hc', he.1, he.2.2.2⟩
  constructor
  case nextId_pos => exact hs.nextId ▸ h.nextId_pos
  case nodup => exact hids ▸ h.nodup
  case lt_nextId =>
    intro c hc
    obtain ⟨c₀, hc₀, hi, -⟩ := hto c hc
    exact hs.nextId ▸ hi ▸ h.lt_nextId c₀ hc₀
  case stage_zero =>
    intro c hc h0
    obtain ⟨c₀, hc₀, hi, he⟩ := hto c hc
    exact he ▸ h.stage_zero c₀ hc₀ (hi.trans h0)
  case stage_queued =>
    intro c hc
    obtain ⟨c₀, hc₀, hi, he⟩ := hto c hc
    rw [hq, ← hi, ← he]
    exact h.stage_queued c₀ hc₀
  case of_queued =>
    intro id hid
    obtain ⟨c, hc, rfl⟩ := h.of_queued id (hq ▸ hid)
    obtain ⟨c', hc', hi, -⟩ := hof c hc
    exact ⟨c', hc', hi⟩
  case sorted => exact hq ▸ h.sorted
  case turn =>
    intro c hc h0 hst
    obtain ⟨c₀, hc₀, hi, he⟩ := hto c hc
    rw [hs.holder, ← hi]
    exact h.turn c₀ hc₀ (hi ▸ h0) (he ▸ hst)
  case of_holder =>
    intro id hid
    obtain ⟨c, hc, rfl, hst⟩ := h.of_holder id (hs.holder ▸ hid)
    obtain ⟨c', hc', hi, he⟩ := hof c hc
    exact ⟨c', hc', hi, he ▸ hst⟩

theorem submit (h : Orderly d) (command : Text) (echo : Echo) :
    Orderly (d.submit command echo).1 := by
  have hq : (d.submit command echo).1.queued = d.queued ++ [d.nextId] := by
    simp [Dispatcher.submit, queued, Waiter.id?]
  have hlt (id : CallId) (hid : id ∈ d.queued) : id < d.nextId := by
    obtain ⟨c, hc, rfl⟩ := h.of_queued id hid
    exact h.lt_nextId c hc
  have hpos := h.nextId_pos
  constructor
  case nextId_pos => exact Nat.succ_pos _
  case nodup =>
    simp only [Dispatcher.submit, List.map_append, List.map_cons, List.map_nil]
    refine List.Nodup.append h.nodup (List.nodup_singleton _) ?_
    simp only [List.disjoint_singleton, List.mem_map, not_exists, not_and]
    exact fun c hc he ↦ (Nat.ne_of_lt (h.lt_nextId c hc)) he
  case lt_nextId =>
    simp only [Dispatcher.submit, List.mem_append, List.mem_singleton]
    rintro c (hc | rfl)
    · exact Nat.lt_succ_of_lt (h.lt_nextId c hc)
    · exact Nat.lt_succ_self _
  case stage_zero =>
    simp only [Dispatcher.submit, List.mem_append, List.mem_singleton]
    rintro c (hc | rfl) h0
    · exact h.stage_zero c hc h0
    · exact absurd h0 (Nat.ne_of_gt hpos)
  case stage_queued =>
    rw [hq]
    simp only [Dispatcher.submit, List.mem_append, List.mem_singleton]
    rintro c (hc | rfl)
    · have hne := Nat.ne_of_lt (h.lt_nextId c hc)
      rw [h.stage_queued c hc]
      simp [hne]
    · simp
  case of_queued =>
    rw [hq]
    simp only [Dispatcher.submit, List.mem_append, List.mem_singleton]
    rintro id (hid | rfl)
    · obtain ⟨c, hc, he⟩ := h.of_queued id hid
      exact ⟨c, .inl hc, he⟩
    · exact ⟨_, .inr rfl, rfl⟩
  case sorted =>
    rw [hq, List.pairwise_append]
    exact ⟨h.sorted, List.pairwise_singleton _ _, by simpa using hlt⟩
  case turn =>
    simp only [Dispatcher.submit, List.mem_append, List.mem_singleton]
    rintro c (hc | rfl) h0 hst
    · exact h.turn c hc h0 hst
    · exact absurd rfl hst
  case of_holder =>
    intro id hid
    obtain ⟨c, hc, he⟩ := h.of_holder id hid
    exact ⟨c, List.mem_append_left _ hc, he⟩

theorem remove (h : Orderly d) (id : CallId) : Orderly (d.remove id) := by
  constructor
  case nextId_pos => exact h.nextId_pos
  case nodup => exact h.nodup.sublist (List.filter_sublist.map _)
  case lt_nextId => exact fun c hc ↦ h.lt_nextId c ((mem_remove ..).1 hc).1
  case stage_zero => exact fun c hc ↦ h.stage_zero c ((mem_remove ..).1 hc).1
  case stage_queued =>
    intro c hc
    obtain ⟨hc, hi⟩ := (mem_remove ..).1 hc
    rw [h.stage_queued c hc, queued_remove]
    simp [hi]
  case of_queued =>
    intro j hj
    rw [queued_remove, List.mem_filter] at hj
    obtain ⟨c, hc, rfl⟩ := h.of_queued j hj.1
    exact ⟨c, (mem_remove ..).2 ⟨hc, by simpa using hj.2⟩, rfl⟩
  case sorted => rw [queued_remove]; exact h.sorted.filter _
  case turn =>
    intro c hc h0 hst
    obtain ⟨hc, hi⟩ := (mem_remove ..).1 hc
    have hh := h.turn c hc h0 hst
    simp [Dispatcher.remove, hh, hi]
  case of_holder =>
    intro j hj
    simp only [Dispatcher.remove] at hj
    split at hj
    · cases hj
    next hne =>
      obtain ⟨c, hc, rfl, hst⟩ := h.of_holder j hj
      refine ⟨c, (mem_remove ..).2 ⟨hc, ?_⟩, rfl, hst⟩
      rintro rfl
      exact hne hj

theorem dequeue (h : Orderly d) {id : CallId} {rest : List Waiter}
    (hq : d.queue = .call id :: rest) (hf : ∀ c ∈ d.calls, c.id ≠ id) :
    Orderly { d with queue := rest } := by
  have hcons := queued_cons hq
  refine { h with stage_queued := ?_, of_queued := ?_, sorted := ?_ }
  · intro c hc
    rw [h.stage_queued c hc, hcons, List.mem_cons]
    exact or_iff_right (hf c hc)
  · exact fun j hj ↦ h.of_queued j (hcons ▸ List.mem_cons_of_mem _ hj)
  · exact (List.pairwise_cons.1 (hcons ▸ h.sorted)).2

theorem setStage (h : Orderly d) {c : Call} {s : Stage} {d₁ : Dispatcher} (hc : c ∈ d.calls)
    (h0 : c.id ≠ 0) (hs : s ≠ .queued) (hcalls : d₁.calls = d.calls)
    (hnext : d₁.nextId = d.nextId) (hholder : d₁.holder = some c.id)
    (hmem : ∀ id, id ∈ d₁.queued ↔ id ∈ d.queued ∧ id ≠ c.id)
    (hsorted : d₁.queued.Pairwise (· < ·))
    (hfree : ∀ c' ∈ d.calls, c'.id ≠ 0 → c'.stage ≠ .queued → c'.id = c.id) :
    Orderly (d₁.updateCall c.id fun c ↦ { c with stage := s }) := by
  have hcases (c' : Call)
      (hc' : c' ∈ (d₁.updateCall c.id fun c ↦ { c with stage := s }).calls) :
      (c'.id = c.id ∧ c'.stage = s) ∨ (c' ∈ d.calls ∧ c'.id ≠ c.id) := by
    refine (h.mem_update hcalls hc hc').imp_left ?_
    rintro rfl
    exact ⟨rfl, rfl⟩
  have hids : (d₁.updateCall c.id fun c ↦ { c with stage := s }).calls.map Call.id =
      d.calls.map Call.id := by
    simp only [updateCall, List.map_map, hcalls]
    apply List.map_congr_left
    intro c' _
    simp only [Function.comp]
    split <;> rfl
  have hmoved : ({ c with stage := s } : Call) ∈
      (d₁.updateCall c.id fun c ↦ { c with stage := s }).calls :=
    (mem_updateCall ..).2 ⟨c, hcalls ▸ hc, by simp⟩
  constructor
  case nextId_pos => exact hnext ▸ h.nextId_pos
  case nodup => exact hids ▸ h.nodup
  case lt_nextId =>
    intro c' hc'
    have hm : c'.id ∈ d.calls.map Call.id := hids ▸ List.mem_map_of_mem hc'
    obtain ⟨c₀, hc₀, he⟩ := List.mem_map.1 hm
    rw [updateCall_nextId, hnext, ← he]
    exact h.lt_nextId c₀ hc₀
  case stage_zero =>
    intro c' hc' hz
    rcases hcases c' hc' with ⟨he, -⟩ | ⟨hm, -⟩
    · exact absurd (he.symm.trans hz) h0
    · exact h.stage_zero c' hm hz
  case stage_queued =>
    intro c' hc'
    change c'.stage = .queued ↔ c'.id ∈ d₁.queued
    rw [hmem]
    rcases hcases c' hc' with ⟨he, hst⟩ | ⟨hm, he⟩
    · simp [he, hst, hs]
    · simp [h.stage_queued c' hm, he]
  case of_queued =>
    intro id hid
    obtain ⟨hid, -⟩ := (hmem id).1 hid
    obtain ⟨c₀, hc₀, rfl⟩ := h.of_queued id hid
    have hm : c₀.id ∈ (d₁.updateCall c.id fun c ↦ { c with stage := s }).calls.map Call.id :=
      hids ▸ List.mem_map_of_mem hc₀
    simpa using hm
  case sorted => exact hsorted
  case turn =>
    intro c' hc' hz hst
    rw [updateCall_holder, hholder]
    rcases hcases c' hc' with ⟨he, -⟩ | ⟨hm, -⟩
    · rw [he]
    · rw [hfree c' hm hz hst]
  case of_holder =>
    intro id hid
    rw [updateCall_holder, hholder, Option.some.injEq] at hid
    exact ⟨_, hmoved, hid, hs⟩

theorem ne_zero_of_queued (h : Orderly d) {c : Call} (hc : c ∈ d.calls) (hq : c.id ∈ d.queued) :
    c.id ≠ 0 := by
  intro h0
  have hs := (h.stage_queued c hc).2 hq
  rw [h.stage_zero c hc h0] at hs
  cases hs

theorem ne_zero_of_writing (h : Orderly d) {c : Call} (hc : c ∈ d.calls)
    (hs : c.stage = .writing) : c.id ≠ 0 := by
  intro h0
  rw [h.stage_zero c hc h0] at hs
  cases hs

theorem turn_of_writing (h : Orderly d) {c : Call} (hc : c ∈ d.calls) (hs : c.stage = .writing) :
    d.holder = some c.id :=
  h.turn c hc (h.ne_zero_of_writing hc hs) (Call.ne_queued_of_writing hs)

theorem register (h : Orderly d) {c : Call} {rest : List Waiter} (hh : d.holder = none)
    (hq : d.queue = .call c.id :: rest) (hc : c ∈ d.calls) :
    Orderly ({ d with queue := rest }.register c).1 := by
  have hcons := queued_cons hq
  have hsorted := hcons ▸ h.sorted
  rw [List.pairwise_cons] at hsorted
  refine h.setStage hc (h.ne_zero_of_queued hc (hcons ▸ List.mem_cons_self)) (by decide) rfl rfl
    rfl ?_ hsorted.2 ?_
  · intro id
    change id ∈ { d with queue := rest }.queued ↔ _
    rw [hcons, List.mem_cons]
    constructor
    · exact fun hid ↦ ⟨.inr hid, Nat.ne_of_gt (hsorted.1 id hid)⟩
    · exact fun hid ↦ hid.1.resolve_left hid.2
  · intro c' hc' h0 hs
    rw [h.turn c' hc' h0 hs] at hh
    cases hh

theorem written (h : Orderly d) {c : Call} (hc : c ∈ d.calls) (hs : c.stage = .writing) :
    Orderly (d.written c).1 := by
  have h0 := h.ne_zero_of_writing hc hs
  have hst := Call.ne_queued_of_writing hs
  have hholder := h.turn_of_writing hc hs
  refine h.setStage hc h0 (by decide) rfl rfl hholder ?_ h.sorted ?_
  · intro id
    refine ⟨fun hid ↦ ⟨hid, ?_⟩, And.left⟩
    rintro rfl
    exact hst ((h.stage_queued c hc).2 hid)
  · intro c' hc' h0' hs'
    rw [h.turn c' hc' h0' hs', Option.some.injEq] at hholder
    exact hholder

theorem close (h : Orderly d) (c : Closing) : Orderly (d.close c).1 := by
  have h' : Orderly { d with pending := [], closed := d.closed <|> some c.reason } := { h with }
  exact h'.congr (rejectAll_outline _ c d.pending)

theorem outcome {e : Event} {ns : List Notice} (h : Orderly d) (ho : Outcome d e d' ns) :
    Orderly d' := by
  cases ho with
  | idle => exact h
  | submit command echo => exact h.submit command echo
  | close c => exact h.close c
  | shutdown =>
    have hc := h.close .stopped
    have hq := queued_concat_shutdown (d.close .stopped).1
    refine { hc with stage_queued := ?_, of_queued := ?_, sorted := ?_ }
    · rw [hq]; exact hc.stage_queued
    · rw [hq]; exact hc.of_queued
    · rw [hq]; exact hc.sorted
  | hangUp rest hh hq =>
    have he := queued_shutdown hq
    refine { h with stage_queued := ?_, of_queued := ?_, sorted := ?_ }
    · exact he ▸ h.stage_queued
    · exact he ▸ h.of_queued
    · exact he ▸ h.sorted
  | pass id rest hh hq hf => exact h.dequeue hq (find?_eq_none.1 hf)
  | refuse c => exact h.remove c.id
  | register c rest hh hq hc hw hclosed => exact h.register hh hq hc
  | written c hc hs => exact h.written hc hs
  | writeFailed c message hc hs =>
    have h' : Orderly { d with pending := d.pending.dropLast } := { h with }
    exact h'.remove c.id
  | deliver chunk =>
    have h' : Orderly { d with framer := (d.framer.feed chunk).1 } := { h with }
    exact h'.congr (handOverAll_outline _ _)
  | resume c => exact h.remove c.id
  | expire c => exact h.remove c.id
  | cancel c => exact h.remove c.id

end Orderly

end Prompter.Dispatcher
