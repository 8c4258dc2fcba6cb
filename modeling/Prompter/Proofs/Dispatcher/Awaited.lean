import Prompter.Proofs.Dispatcher.Orderly

namespace Prompter.Dispatcher

structure Awaited (d : Dispatcher) : Prop where
  sorted : (d.pending.map Request.call ++ d.queued).Pairwise (· < ·)
  lt_nextId : ∀ r ∈ d.pending, r.call < d.nextId
  pending : ∀ c ∈ d.calls, c.stage ≠ .queued → c.answer = none → ⟨c.id, c.command⟩ ∈ d.pending
  newest : ∀ c ∈ d.calls, c.id ≠ 0 → c.stage ≠ .queued →
    d.pending = [] ∨ c.answer = none ∧ d.pending.getLast? = some ⟨c.id, c.command⟩
  unanswered : ∀ c ∈ d.calls, c.stage = .queued → c.answer = none
  closed : d.closed.isSome → d.pending = []

namespace Awaited

variable {d d' : Dispatcher}

theorem start (prompt : Text) : Awaited (start prompt) := by
  constructor <;> simp [Dispatcher.start, queued]

theorem nodup (h : Awaited d) : (d.pending.map Request.call).Nodup :=
  (List.pairwise_append.1 h.sorted).1.imp Nat.ne_of_lt

theorem handOver (h : Awaited d) (ho : Orderly d) (f : Frame) : Awaited (d.handOver f).1 := by
  cases hp : d.pending with
  | nil => rw [handOver_nil f hp]; exact h
  | cons r rest =>
    have hpending : (d.handOver f).1.pending = rest := by rw [handOver_cons f hp]; rfl
    have hqueued : (d.handOver f).1.queued = d.queued := by rw [handOver_cons f hp]; rfl
    have hsorted := h.sorted
    rw [hp, List.map_cons, List.cons_append, List.pairwise_cons] at hsorted
    have hopen : ¬ d.closed.isSome := fun hc ↦ by simp [h.closed hc] at hp
    constructor
    case sorted => rw [hpending, hqueued]; exact hsorted.2
    case lt_nextId =>
      rw [hpending, (handOver_outline d f).nextId]
      exact fun r' hr' ↦ h.lt_nextId r' (hp ▸ List.mem_cons_of_mem _ hr')
    case pending =>
      intro c hc hs ha
      rw [hpending]
      rcases mem_handOver hp hc with ⟨hc, hne⟩ | ⟨c₀, hc₀, he, rfl⟩
      · have hm := h.pending c hc hs ha
        rw [hp, List.mem_cons] at hm
        refine hm.resolve_left ?_
        rintro rfl
        exact hne rfl
      · cases ha
    case newest =>
      intro c hc h0 hs
      rw [hpending]
      rcases mem_handOver hp hc with ⟨hc, hne⟩ | ⟨c₀, hc₀, he, rfl⟩
      · obtain hnil | ⟨ha, hl⟩ := h.newest c hc h0 hs
        · simp [hnil] at hp
        · cases rest with
          | nil => exact .inl rfl
          | cons r' rest =>
            rw [hp, List.getLast?_cons_cons] at hl
            exact .inr ⟨ha, hl⟩
      · -- the oldest request is that of the call with the turn, which made the newest
        obtain hnil | ⟨-, hl⟩ := h.newest c₀ hc₀ h0 hs
        · simp [hnil] at hp
        · refine .inl (List.eq_nil_iff_forall_not_mem.2 fun r' hr' ↦ ?_)
          have hlast : (⟨c₀.id, c₀.command⟩ : Request) ∈ rest := by
            cases rest with
            | nil => cases hr'
            | cons r'' rest =>
              rw [hp, List.getLast?_cons_cons] at hl
              exact List.mem_of_getLast? hl
          have hlt := hsorted.1 c₀.id (List.mem_append_left _ (List.mem_map_of_mem hlast))
          exact Nat.ne_of_lt hlt he.symm
    case unanswered =>
      intro c hc hs
      rcases mem_handOver hp hc with ⟨hc, -⟩ | ⟨c₀, hc₀, he, rfl⟩
      · exact h.unanswered c hc hs
      · have hq := (ho.stage_queued c₀ hc₀).1 hs
        exact absurd he.symm (Nat.ne_of_lt (hsorted.1 c₀.id (List.mem_append_right _ hq)))
    case closed =>
      intro hc
      rw [(handOver_outline d f).closed] at hc
      exact absurd hc hopen

theorem handOverAll (h : Awaited d) (ho : Orderly d) (fs : List Frame) :
    Awaited (d.handOverAll fs).1 := by
  have hall : Orderly (d.handOverAll fs).1 ∧ Awaited (d.handOverAll fs).1 := by
    refine handOverAll_induction (P := fun _ d ↦ Orderly d ∧ Awaited d) ?_ fs [] d ⟨ho, h⟩
    exact fun _ d f hd ↦ ⟨hd.1.congr (handOver_outline d f), hd.2.handOver hd.1 f⟩
  exact hall.2

theorem close (h : Awaited d) (ho : Orderly d) (c : Closing) : Awaited (d.close c).1 := by
  have hp := close_pending d c
  have hq : (d.close c).1.queued = d.queued := by
    simp only [queued, (rejectAll_outline _ c d.pending).queue, close_eq]
  constructor
  case sorted => rw [hp, hq]; exact ho.sorted
  case lt_nextId => simp
  case pending =>
    intro call hc hs ha
    rcases mem_rejectAll hc with ⟨hc, hr⟩ | ⟨r, hr, c₀, hc₀, he, rfl⟩
    · exact absurd rfl (hr _ (h.pending call hc hs ha))
    · cases ha
  case newest => exact fun _ _ _ _ ↦ .inl hp
  case unanswered =>
    intro call hc hs
    rcases mem_rejectAll hc with ⟨hc, -⟩ | ⟨r, hr, c₀, hc₀, he, rfl⟩
    · exact h.unanswered call hc hs
    · have hm := (ho.stage_queued c₀ hc₀).1 hs
      have hlt := (List.pairwise_append.1 h.sorted).2.2 r.call (List.mem_map_of_mem hr) c₀.id hm
      exact absurd he.symm (Nat.ne_of_lt hlt)
  case closed => exact fun _ ↦ hp

theorem submit (h : Awaited d) (ho : Orderly d) (command : Text) (echo : Echo) :
    Awaited (d.submit command echo).1 := by
  have hq : (d.submit command echo).1.queued = d.queued ++ [d.nextId] := by
    simp [Dispatcher.submit, queued, Waiter.id?]
  have hlt (id : CallId) (hid : id ∈ d.pending.map Request.call ++ d.queued) : id < d.nextId := by
    rcases List.mem_append.1 hid with hid | hid
    · obtain ⟨r, hr, rfl⟩ := List.mem_map.1 hid
      exact h.lt_nextId r hr
    · obtain ⟨c, hc, rfl⟩ := ho.of_queued id hid
      exact ho.lt_nextId c hc
  constructor
  case sorted =>
    rw [hq, ← List.append_assoc, List.pairwise_append]
    exact ⟨h.sorted, List.pairwise_singleton _ _,
      fun a ha b hb ↦ List.mem_singleton.1 hb ▸ hlt a ha⟩
  case lt_nextId => exact fun r hr ↦ Nat.lt_succ_of_lt (h.lt_nextId r hr)
  case pending =>
    simp only [Dispatcher.submit, List.mem_append, List.mem_singleton]
    rintro c (hc | rfl) hs ha
    · exact h.pending c hc hs ha
    · exact absurd rfl hs
  case newest =>
    simp only [Dispatcher.submit, List.mem_append, List.mem_singleton]
    rintro c (hc | rfl) h0 hs
    · exact h.newest c hc h0 hs
    · exact absurd rfl hs
  case unanswered =>
    simp only [Dispatcher.submit, List.mem_append, List.mem_singleton]
    rintro c (hc | rfl) hs
    · exact h.unanswered c hc hs
    · rfl
  case closed => exact h.closed

theorem remove (h : Awaited d) (id : CallId) : Awaited (d.remove id) := by
  constructor
  case sorted =>
    rw [queued_remove]
    exact h.sorted.sublist (List.filter_sublist.append_left _)
  case lt_nextId => exact h.lt_nextId
  case pending => exact fun c hc ↦ h.pending c ((mem_remove ..).1 hc).1
  case newest => exact fun c hc ↦ h.newest c ((mem_remove ..).1 hc).1
  case unanswered => exact fun c hc ↦ h.unanswered c ((mem_remove ..).1 hc).1
  case closed => exact h.closed

theorem register (h : Awaited d) (ho : Orderly d) {c : Call} {rest : List Waiter}
    (hh : d.holder = none) (hq : d.queue = .call c.id :: rest) (hc : c ∈ d.calls)
    (hopen : d.closed = none) : Awaited ({ d with queue := rest }.register c).1 := by
  have hcons := queued_cons hq
  have hmem : c.id ∈ d.queued := hcons ▸ List.mem_cons_self
  have hsorted := h.sorted
  rw [hcons] at hsorted
  have hp : ({ d with queue := rest }.register c).1.pending = d.pending ++ [⟨c.id, c.command⟩] :=
    rfl
  have hcases (c' : Call) (hc' : c' ∈ ({ d with queue := rest }.register c).1.calls) :
      c' = { c with stage := .writing } ∨ c' ∈ d.calls ∧ c'.id ≠ c.id :=
    ho.mem_update rfl hc hc'
  constructor
  case sorted =>
    rw [hp, List.map_append, List.append_assoc]
    exact hsorted
  case lt_nextId =>
    rw [hp]
    simp only [List.mem_append, List.mem_singleton]
    rintro r (hr | rfl)
    · exact h.lt_nextId r hr
    · exact ho.lt_nextId c hc
  case pending =>
    intro c' hc' hs ha
    rw [hp, List.mem_append, List.mem_singleton]
    rcases hcases c' hc' with rfl | ⟨hm, -⟩
    · exact .inr rfl
    · exact .inl (h.pending c' hm hs ha)
  case newest =>
    intro c' hc' h0 hs
    rw [hp]
    rcases hcases c' hc' with rfl | ⟨hm, -⟩
    · exact .inr ⟨h.unanswered c hc ((ho.stage_queued c hc).2 hmem), by simp⟩
    · rw [ho.turn c' hm h0 hs] at hh
      cases hh
  case unanswered =>
    intro c' hc' hs
    rcases hcases c' hc' with rfl | ⟨hm, -⟩
    · cases hs
    · exact h.unanswered c' hm hs
  case closed =>
    intro hclosed
    change d.closed.isSome at hclosed
    simp [hopen] at hclosed

theorem written (h : Awaited d) (ho : Orderly d) {c : Call} (hc : c ∈ d.calls)
    (hs : c.stage = .writing) : Awaited (d.written c).1 := by
  have hst := Call.ne_queued_of_writing hs
  have hcases (c' : Call) (hc' : c' ∈ (d.written c).1.calls) :
      c' = { c with stage := .waiting } ∨ c' ∈ d.calls ∧ c'.id ≠ c.id :=
    ho.mem_update rfl hc hc'
  constructor
  case sorted => exact h.sorted
  case lt_nextId => exact h.lt_nextId
  case pending =>
    intro c' hc' hs' ha
    rcases hcases c' hc' with rfl | ⟨hm, -⟩
    · exact h.pending c hc hst ha
    · exact h.pending c' hm hs' ha
  case newest =>
    intro c' hc' h0 hs'
    rcases hcases c' hc' with rfl | ⟨hm, -⟩
    · exact h.newest c hc h0 hst
    · exact h.newest c' hm h0 hs'
  case unanswered =>
    intro c' hc' hs'
    rcases hcases c' hc' with rfl | ⟨hm, -⟩
    · cases hs'
    · exact h.unanswered c' hm hs'
  case closed => exact h.closed

theorem getLast?_of_writing (h : Awaited d) (ho : Orderly d) {c : Call} (hc : c ∈ d.calls)
    (hs : c.stage = .writing) :
    d.pending = [] ∨ d.pending.getLast? = some ⟨c.id, c.command⟩ := by
  have hst := Call.ne_queued_of_writing hs
  exact (h.newest c hc (ho.ne_zero_of_writing hc hs) hst).imp_right And.right

theorem writeFailed (h : Awaited d) (ho : Orderly d) {c : Call} (hc : c ∈ d.calls)
    (hs : c.stage = .writing) :
    Awaited ({ d with pending := d.pending.dropLast }.remove c.id) := by
  have hholder := ho.turn_of_writing hc hs
  have honly (c' : Call) (hc' : c' ∈ d.calls) (hne : c'.id ≠ c.id) (hs' : c'.stage ≠ .queued) :
      c'.id = 0 := by
    by_contra h0'
    rw [ho.turn c' hc' h0' hs', Option.some.injEq] at hholder
    exact hne hholder
  constructor
  case sorted =>
    rw [queued_remove]
    exact h.sorted.sublist (((List.dropLast_sublist _).map _).append List.filter_sublist)
  case lt_nextId => exact fun r hr ↦ h.lt_nextId r ((List.dropLast_sublist _).subset hr)
  case pending =>
    intro c' hc' hs' ha
    obtain ⟨hc', hne⟩ := (mem_remove ..).1 hc'
    have hm := h.pending c' hc' hs' ha
    rcases h.getLast?_of_writing ho hc hs with hnil | hl
    · rw [hnil] at hm
      cases hm
    · rw [← List.dropLast_append_getLast? _ hl, List.mem_append, List.mem_singleton] at hm
      apply hm.resolve_right
      intro he
      rw [Request.mk.injEq] at he
      exact hne he.1
  case newest =>
    intro c' hc' h0' hs'
    obtain ⟨hc', hne⟩ := (mem_remove ..).1 hc'
    exact absurd (honly c' hc' hne hs') h0'
  case unanswered => exact fun c' hc' ↦ h.unanswered c' ((mem_remove ..).1 hc').1
  case closed =>
    intro hclosed
    change d.pending.dropLast = []
    rw [h.closed hclosed, List.dropLast_nil]

theorem outcome {e : Event} {ns : List Notice} (h : Awaited d) (ho : Orderly d)
    (hs : Outcome d e d' ns) : Awaited d' := by
  cases hs with
  | idle => exact h
  | submit command echo => exact h.submit ho command echo
  | close c => exact h.close ho c
  | shutdown =>
    have hc := h.close ho .stopped
    have hsorted := hc.sorted
    rw [← queued_concat_shutdown] at hsorted
    exact { hc with sorted := hsorted }
  | hangUp rest hh hq =>
    have hsorted := h.sorted
    rw [queued_shutdown hq] at hsorted
    exact { h with sorted := hsorted }
  | pass id rest hh hq hf =>
    refine { h with sorted := ?_ }
    have hsorted := h.sorted
    rw [queued_cons hq] at hsorted
    exact hsorted.sublist ((List.sublist_cons_self ..).append_left _)
  | refuse c => exact h.remove c.id
  | register c rest hh hq hc hw hopen => exact h.register ho hh hq hc hopen
  | written c hc hs => exact h.written ho hc hs
  | writeFailed c message hc hs => exact h.writeFailed ho hc hs
  | deliver chunk =>
    have h' : Awaited { d with framer := (d.framer.feed chunk).1 } := { h with }
    have ho' : Orderly { d with framer := (d.framer.feed chunk).1 } := { ho with }
    exact h'.handOverAll ho' _
  | resume c => exact h.remove c.id
  | expire c => exact h.remove c.id
  | cancel c => exact h.remove c.id

end Awaited

theorem orderly_run (prompt : Text) (es : List Event) : Orderly ((start prompt).run es).1 :=
  run_induction (P := fun _ _ d ↦ Orderly d) (.start prompt)
    (fun _ e h ↦ h.outcome (step_outcome _ e)) es

theorem awaited_run (prompt : Text) (es : List Event) : Awaited ((start prompt).run es).1 :=
  run_induction (P := fun _ _ d ↦ Awaited d) (.start prompt)
    (fun es e h ↦ h.outcome (orderly_run prompt es) (step_outcome _ e)) es

/-- What an event keeps in good order is kept by a run from any state that is in good order. -/
theorem later_induction {d : Dispatcher} (ho : Orderly d) (ha : Awaited d)
    {P : List Notice → Dispatcher → Prop} (h : P [] d)
    (hs : ∀ {ns d₁ e d₂ ns'}, P ns d₁ → Orderly d₁ → Awaited d₁ → Outcome d₁ e d₂ ns' →
      P (ns ++ ns') d₂) (es : List Event) : P (d.run es).2 (d.run es).1 := by
  have hall : Orderly (d.run es).1 ∧ Awaited (d.run es).1 ∧ P (d.run es).2 (d.run es).1 := by
    refine run_induction (P := fun _ ns d ↦ Orderly d ∧ Awaited d ∧ P ns d) ⟨ho, ha, h⟩
      (fun es e ⟨ho, ha, h⟩ ↦ ?_) es
    have hout := step_outcome (d.run es).1 e
    exact ⟨ho.outcome hout, ha.outcome ho hout, hs h ho ha hout⟩
  exact hall.2.2

end Prompter.Dispatcher
