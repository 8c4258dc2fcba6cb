import Prompter.Proofs.Session.Soundness

namespace Prompter

namespace Table

theorem foldl_erase_empty {α : Type} (ks : List Text) : ks.foldl erase (∅ : Table α) = ∅ := by
  induction ks with
  | nil => rfl
  | cons k ks ih => exact ih

end Table

/-- Edits in order. Each says whether a line of a program is added, and which. -/
def Breakpoints.editAll (t : Breakpoints) (es : List (Bool × Text × Nat)) : Breakpoints :=
  es.foldl (fun t (added, program, n) ↦ t.edit added program n) t

namespace Session

def News.program? : News → Option Text
  | .loaded program => some program
  | _ => none

def News.edit? : News → Option (Bool × Text × Nat)
  | .edited added program n => some (added, program, n)
  | _ => none

namespace State

theorem bindings_foldl (s : State) {ns : List News} (h : ∀ b, .bindings b ∉ ns) :
    (ns.foldl State.after s).bindings =
      (ns.filterMap News.program?).foldl Table.erase s.bindings := by
  induction ns generalizing s with
  | nil => rfl
  | cons news ns ih =>
    rw [List.foldl_cons, ih _ fun b hb ↦ h b (.tail _ hb)]
    cases news with
    | loaded | started | ended | paused | loopExit | listing | lines | frame => rfl
    | bindings b => exact absurd (.head _) (h b)
    | edited added program n =>
      rw [State.after, withBreakpoint_eq]
      rfl

theorem breakpoints_foldl (s : State) {ns : List News} (h : ∀ l, .listing l ∉ ns) :
    (ns.foldl State.after s).breakpoints =
      s.breakpoints.editAll (ns.filterMap News.edit?) := by
  induction ns generalizing s with
  | nil => rfl
  | cons news ns ih =>
    rw [List.foldl_cons, ih _ fun l hl ↦ h l (.tail _ hl)]
    cases news with
    | loaded | started | ended | paused | loopExit | bindings | lines | frame => rfl
    | listing l => exact absurd (.head _) (h l)
    | edited added program n =>
      rw [State.after, withBreakpoint_eq]
      rfl

end State

/-- The tables of a snapshot, by the news since the session began or was last stopped: the last
one of each kind that has been told, without the variables of programs loaded since, and with the
breakpoints added and deleted since. Tables that have not been told of yet start empty. -/
structure Confirmed (news : List News) (s : State) : Prop where
  bindings {before after : List News} {b : Bindings} (h : news = before ++ .bindings b :: after)
    (hlast : ∀ b', .bindings b' ∉ after) :
    s.bindings = (after.filterMap News.program?).foldl Table.erase b
  unbound (h : ∀ b, .bindings b ∉ news) : s.bindings = ∅
  breakpoints {before after : List News} {l : Listing} (h : news = before ++ .listing l :: after)
    (hlast : ∀ l', .listing l' ∉ after) :
    s.breakpoints = Breakpoints.editAll (l.map LineSet.ofList) (after.filterMap News.edit?)
  unlisted (h : ∀ l, .listing l ∉ news) :
    s.breakpoints = Breakpoints.editAll ∅ (news.filterMap News.edit?)

theorem confirmed_foldl (news : List News) : Confirmed news (news.foldl State.after {}) where
  bindings := by
    rintro before after b rfl hlast
    rw [List.foldl_append, List.foldl_cons, State.bindings_foldl _ hlast]
    rfl
  unbound h := by
    rw [State.bindings_foldl _ h]
    exact Table.foldl_erase_empty _
  breakpoints := by
    rintro before after l rfl hlast
    rw [List.foldl_append, List.foldl_cons, State.breakpoints_foldl _ hlast]
    rfl
  unlisted h := State.breakpoints_foldl _ h

/-- Which snapshot is in the value that an operation returns. -/
def Action.Returns (s : State) : Action → Value → Prop
  | .load _ _, v | .addBreakpoint _ _, v | .deleteBreakpoint _ _, v => v = .state s
  | .run, v | .step, v => ∃ cause, v = .outcome ⟨cause, s⟩
  | _, _ => True

theorem Action.returns_value {a : Action} {x : Exchange} {news : News} (s : State)
    (h : a.reading x = .ok news) : a.Returns s (news.value s) := by
  obtain ⟨command, answer⟩ := x
  cases answer with
  | error e => cases h
  | ok frame =>
    cases a with
    | load | addBreakpoint | deleteBreakpoint =>
      obtain ⟨_, -, rfl⟩ := eq_ok_of_map h
      rfl
    | run | step =>
      obtain ⟨reply, -, rfl⟩ := eq_ok_of_map h
      cases reply <;> exact ⟨_, rfl⟩
    | store | listBreakpoints | help | changeDirectory | evaluate | execute | stop => trivial

theorem Deed.Follows.returns {d : Deed} {s : State} {v : Value} (h : d.Follows s)
    (hr : d.result = some (.ok v)) : d.action.Returns d.state v := by
  obtain ⟨a, xs, r, s'⟩ := d
  replace h : Did s a r s' xs := h
  obtain rfl : r = some (.ok v) := hr
  cases h with
  | told h hc hx hs hr' =>
    split at hr'
    next =>
      obtain rfl := Except.ok.inj (Option.some.inj hr')
      exact Action.returns_value s' hx
    next => cases hr'
  | stopped h =>
    subst h
    trivial

/-- The snapshot follows from what has been told, and it is the one that operations return. -/
theorem snapshot_run (echo : Echo) (c : Connection) (scenes : List Scene) :
    let w := (Live.begin c).run echo scenes
    Confirmed (heard w.deeds) w.state ∧
      ∀ scene : Scene, ∃ d, (w.act echo scene).deeds = w.deeds ++ [d] ∧ d.action = scene.action ∧
        ∀ v, d.result = some (.ok v) → d.action.Returns (w.act echo scene).state v := by
  intro w
  constructor
  · rw [(history_run echo c scenes).state_eq]
    exact confirmed_foldl _
  · intro scene
    obtain ⟨d, hd, ha, hs, hf⟩ := w.act_deed echo scene
    refine ⟨d, hd, ha, fun v hv ↦ ?_⟩
    rw [← hs]
    exact hf.returns hv

end Session

end Prompter
