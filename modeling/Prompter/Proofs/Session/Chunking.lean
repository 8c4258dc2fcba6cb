import Prompter.Proofs.Session.Attached
import Prompter.Proofs.Session.Likeness

namespace Prompter.Session

/-- What there is to see of an operation apart from raw text. -/
def Deed.outline (d : Deed) : Action × Option (Except SessionError Value) × State :=
  (d.action, d.result.map fun r ↦ (r.map Value.bare).mapError SessionError.bare, d.state)

theorem outline_of_alike {r r' : Except SessionError Value}
    (h : Alike (fun v w ↦ v.bare = w.bare) r r') :
    (r.map Value.bare).mapError SessionError.bare =
      (r'.map Value.bare).mapError SessionError.bare := by
  cases h with
  | ok h => exact congrArg Except.ok h
  | error h => exact congrArg Except.error h

theorem alike_of_lines {x y : Except SessionError Frame}
    (h : x.map Frame.lines = y.map Frame.lines) : Alike Frame.Same x y := by
  match x, y, h with
  | .error e, .error _, rfl => exact .error rfl
  | .ok f, .ok g, h => exact .ok (Except.ok.inj h)

namespace Attached

variable {α : Type} (i : Respondent) (cutting cutting' : Cutting) {w w' : Attached}
  {actions : List Action}

/-- Two sessions that have performed the actions, each of which has come to an end, and that cannot
be told apart but by raw text. -/
structure Twin (actions : List Action) (w w' : Attached) : Prop where
  ready : ∃ closed, w.Ready closed ∧ w'.Ready closed
  heard : w.heard = w'.heard
  state : w.live.state = w'.live.state
  deeds : w.live.deeds.map Deed.outline = w'.live.deeds.map Deed.outline
  actions : w.live.deeds.map Deed.action = actions
  ended : ∀ d ∈ w.live.deeds, d.result.isSome

theorem Twin.converse (h : Twin actions w w') (fault : Option Text) {R : α → α → Prop}
    {d d' : Dialogue α} (hd : d.Like R d') :
    ∃ a b v v', w.converse i cutting fault d = (some a, v) ∧
      w'.converse i cutting' fault d' = (some b, v') ∧ R a b ∧ Twin actions v v' := by
  induction hd generalizing w w' with
  | done hab => exact ⟨_, _, w, w', rfl, rfl, hab, h⟩
  | @ask command echo next next' _ ih =>
    obtain ⟨closed, hw, hw'⟩ := h.ready
    obtain ⟨x, v, hx, hv⟩ := hw.ask i cutting command echo
    obtain ⟨y, v', hy, hv'⟩ := hw'.ask i cutting' command echo
    have hxy : Alike Frame.Same x y := by
      refine alike_of_lines ?_
      rw [hv.answer, hv'.answer, h.heard]
    rw [converse_ask hx, converse_ask hy, Option.elim_some, Option.elim_some]
    refine ih x y hxy ⟨⟨closed, hv.ready, hv'.ready⟩, ?_, ?_, ?_, ?_, ?_⟩
    · rw [hv.heard, hv'.heard, h.heard]
    · rw [hv.state, hv'.state, h.state]
    · rw [hv.deeds, hv'.deeds, h.deeds]
    · rw [hv.deeds, h.actions]
    · rw [hv.deeds]
      exact h.ended
  | look _ ih =>
    rw [converse_look, converse_look, ← h.state]
    exact ih w.live.state h
  | become _ ih => exact ih ⟨h.ready, h.heard, rfl, h.deeds, h.actions, h.ended⟩
  | hangUp _ ih =>
    obtain ⟨closed, hw, hw'⟩ := h.ready
    obtain ⟨v, hx, hv, hheard, hs, hdeeds, -⟩ := hw.hangUp fault
    obtain ⟨v', hy, hv', hheard', hs', hdeeds', -⟩ := hw'.hangUp fault
    rw [converse_hangUp hx, converse_hangUp hy, Option.elim_some, Option.elim_some]
    refine ih _ ⟨⟨_, hv, hv'⟩, ?_, ?_, ?_, ?_, ?_⟩
    · rw [hheard, hheard', h.heard]
    · rw [hs, hs', h.state]
    · rw [hdeeds, hdeeds', h.deeds]
    · rw [hdeeds, h.actions]
    · rw [hdeeds]
      exact h.ended

theorem Twin.act (h : Twin actions w w') (echo : Echo) (errand : Errand) :
    Twin (actions ++ [errand.action]) (w.act i cutting echo errand)
      (w'.act i cutting' echo errand) := by
  have hbefore : Twin actions { w with live := { w.live with exchanges := [] } }
      { w' with live := { w'.live with exchanges := [] } } :=
    ⟨h.ready, h.heard, h.state, h.deeds, h.actions, h.ended⟩
  obtain ⟨r, r', v, v', hv, hv', hr, htwin⟩ := hbefore.converse i cutting cutting' errand.fault
    (like_perform echo errand.action)
  rw [act_eq hv, act_eq hv']
  refine ⟨htwin.ready, htwin.heard, htwin.state, ?_, ?_, ?_⟩
  · simp only [List.map_append, List.map_cons, htwin.deeds, Deed.outline, htwin.state,
      Option.map_some, outline_of_alike hr]
  · simp only [List.map_append, htwin.actions, List.map_cons, List.map_nil]
  · exact List.forall_mem_append.2 ⟨htwin.ended, by simp⟩

/-- However the output of the interpreter is cut into reads, a session sends the same, each of its
operations comes to the same end apart from raw text, and the snapshots are the same. -/
theorem run_outline (echo : Echo) (errands : List Errand) :
    let w := (attach i cutting).run i cutting echo errands
    let w' := (attach i cutting').run i cutting' echo errands
    w.heard = w'.heard ∧ w.live.deeds.map Deed.outline = w'.live.deeds.map Deed.outline ∧
      w.live.deeds.map Deed.action = errands.map Errand.action ∧
      ∀ d ∈ w.live.deeds, d.result.isSome := by
  suffices htwin : Twin (errands.map Errand.action)
      ((attach i cutting).run i cutting echo errands)
      ((attach i cutting').run i cutting' echo errands) from
    ⟨htwin.heard, htwin.deeds, htwin.actions, htwin.ended⟩
  induction errands using List.reverseRecOn with
  | nil =>
    obtain ⟨hw, hheard⟩ := ready_attach i cutting
    obtain ⟨hw', hheard'⟩ := ready_attach i cutting'
    exact ⟨⟨none, hw, hw'⟩, rfl, rfl, rfl, rfl, by simp [run, attach, Live.begin]⟩
  | append_singleton errands errand ih =>
    rw [run_concat, run_concat, List.map_append]
    exact ih.act i cutting cutting' echo errand

end Attached

end Prompter.Session
