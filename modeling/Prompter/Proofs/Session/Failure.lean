import Prompter.Proofs.Session.History

namespace Prompter.Session

namespace Exchange

def listing? (x : Exchange) : Option Listing :=
  (x.answer.bind (Reply.decodeBreakpoints x.command)).toOption

def bindings? (x : Exchange) : Option Bindings :=
  (x.answer.bind (Reply.decodeStore x.command)).toOption

end Exchange

namespace State

variable {s : State}

theorem heed_listBreakpoints (s : State) (x : Exchange) :
    s.heed .listBreakpoints x =
      s.withBreakpoints (x.listing?.elim s.breakpoints (·.map LineSet.ofList)) := by
  obtain ⟨command, e | frame⟩ := x
  · rfl
  · simp only [heed, Action.reading, Exchange.listing?, Except.bind]
    cases Reply.decodeBreakpoints command frame <;> rfl

theorem heed_store (s : State) (x : Exchange) :
    s.heed .store x = s.withBindings (x.bindings?.getD s.bindings) := by
  obtain ⟨command, e | frame⟩ := x
  · rfl
  · simp only [heed, Action.reading, Exchange.bindings?, Except.bind]
    cases Reply.decodeStore command frame <;> rfl

end State

/-- How an operation has fared with what it attempts further, if it came to that. -/
def Deed.refresh? (d : Deed) (a : Action) : Option Exchange :=
  (d.action.refreshes.zip d.exchanges.tail).lookup a

theorem State.heedAll_refreshes (s : State) (a : Action) (xs : List Exchange) :
    s.heedAll (a.refreshes.zip xs) =
      { s with
        breakpoints := (((a.refreshes.zip xs).lookup .listBreakpoints).bind
          Exchange.listing?).elim s.breakpoints (·.map LineSet.ofList)
        bindings := (((a.refreshes.zip xs).lookup .store).bind
          Exchange.bindings?).getD s.bindings } := by
  cases a with
  | load program input =>
    match xs with
    | [] => rfl
    | [y] => exact s.heed_listBreakpoints y
    | y :: z :: _ =>
      change (s.heed .listBreakpoints y).heed .store z = _
      rw [heed_listBreakpoints, heed_store]
      rfl
  | run | step =>
    match xs with
    | [] => rfl
    | y :: _ => exact s.heed_store y
  | _ => rfl

namespace Deed.Follows

variable {d : Deed} {s : State}

theorem state_of_error {e : SessionError} (h : d.Follows s) (hr : d.result = some (.error e)) :
    d.state = s := by
  obtain ⟨a, xs, r, s'⟩ := d
  replace h : Did s a r s' xs := h
  obtain rfl : r = some (.error e) := hr
  cases h with
  | refused | failed | unstopped => rfl
  | told h hc hx hs hr' => split at hr' <;> cases hr'

theorem of_reading {x : Exchange} {xs : List Exchange} {news : News} (h : d.Follows s)
    (hxs : d.exchanges = x :: xs) (hx : d.action.reading x = .ok news) :
    d.state = (s.after news).heedAll (d.action.refreshes.zip xs) ∧
      d.result = if xs.length = d.action.refreshes.length then
        some (.ok (news.value d.state)) else none := by
  obtain ⟨a, xs', r, s'⟩ := d
  replace h : Did s a r s' xs' := h
  obtain rfl : xs' = x :: xs := hxs
  cases h with
  | failed h hc hx' => cases hx.symm.trans hx'
  | told h hc hx' hs hr =>
    obtain rfl := Except.ok.inj (hx.symm.trans hx')
    exact ⟨hs, hr⟩

end Deed.Follows

/-- An operation that fails changes nothing. One that has been told what its own command was to
bring succeeds unless it is given up, and a table stays as it was if it could not be had. -/
theorem act_all_or_nothing (echo : Echo) (w : Live) (scene : Scene) :
    ∃ d, (w.act echo scene).deeds = w.deeds ++ [d] ∧ d.action = scene.action ∧
      d.state = (w.act echo scene).state ∧
      (∀ e, d.result = some (.error e) → d.state = w.state) ∧
      ∀ x xs news, d.exchanges = x :: xs → d.action.reading x = .ok news →
        let s := w.state.after news
        d.state =
          { s with
            breakpoints := ((d.refresh? .listBreakpoints).bind Exchange.listing?).elim
              s.breakpoints (·.map LineSet.ofList)
            bindings := ((d.refresh? .store).bind Exchange.bindings?).getD s.bindings } ∧
        d.result = if xs.length = d.action.refreshes.length then
          some (.ok (news.value d.state)) else none := by
  obtain ⟨d, hd, ha, hs, hf⟩ := w.act_deed echo scene
  refine ⟨d, hd, ha, hs, fun e ↦ hf.state_of_error, fun x xs news hxs hx ↦ ?_⟩
  obtain ⟨hstate, hresult⟩ := hf.of_reading hxs hx
  refine ⟨?_, hresult⟩
  rw [State.heedAll_refreshes] at hstate
  rw [Deed.refresh?, Deed.refresh?, hxs]
  exact hstate

end Prompter.Session
