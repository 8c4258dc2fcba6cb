import Prompter.Proofs.Session.History
import Prompter.Proofs.Table

namespace Prompter

namespace Breakpoints

def put (t : Breakpoints) (program : Text) (lines : LineSet) : Breakpoints :=
  if lines.isEmpty then t.erase program else t.insert program lines

def edit (t : Breakpoints) (added : Bool) (program : Text) (n : Nat) : Breakpoints :=
  let lines := (t.get? program).getD ∅
  t.put program (if added then lines.insert n else lines.erase n)

theorem all_put {t : Breakpoints} (h : t.All (· ≠ ∅)) (program : Text) (lines : LineSet) :
    (t.put program lines).All (· ≠ ∅) := by
  unfold put
  split
  next => exact h.erase program
  next hne => exact h.insert (fun hempty ↦ hne (LineSet.isEmpty_iff.2 hempty)) program

end Breakpoints

namespace Reply

theorem foldlM_induction {α β ε : Type} {P : β → Prop} {f : β → α → Except ε β}
    (h : ∀ b a b', P b → f b a = .ok b' → P b') {l : List α} {b b' : β} (hb : P b)
    (hl : l.foldlM f b = .ok b') : P b' := by
  induction l generalizing b with
  | nil => exact Except.ok.inj hl ▸ hb
  | cons a l ih =>
    rw [List.foldlM_cons] at hl
    cases ha : f b a with
    | error e => rw [ha] at hl; cases hl
    | ok b₁ => exact ih (h b a b₁ hb ha) (by rw [ha] at hl; exact hl)

theorem decodeStore_all {command : Text} {frame : Frame} {b : Bindings}
    (h : decodeStore command frame = .ok b) : b.All (· ≠ ∅) := by
  refine foldlM_induction (P := fun b : Bindings ↦ b.All (· ≠ ∅)) (fun b line b' hb hf ↦ ?_)
    Table.all_empty h
  cases hform : fits command line (binding? line) with
  | error e => rw [hform] at hf; cases hf
  | ok entry =>
    obtain ⟨program, name, value⟩ := entry
    rw [hform] at hf
    cases hvalue : tree value with
    | error e => simp [hvalue, bind, Except.bind] at hf
    | ok v =>
      simp only [hvalue, bind, Except.bind, pure, Except.pure, Except.ok.injEq] at hf
      have hne (t : Table Tree) : t.insert name v ≠ ∅ := t.insert_ne_empty name v
      exact hf ▸ hb.insert (hne _) program

theorem decodeBreakpoints_all {command : Text} {frame : Frame} {l : Listing}
    (h : decodeBreakpoints command frame = .ok l) : l.All (· ≠ []) := by
  refine foldlM_induction (P := fun l : Listing ↦ l.All (· ≠ [])) (fun l line l' hl hf ↦ ?_)
    Table.all_empty h
  cases hform : fits command line (breakpoint? line) with
  | error e => rw [hform] at hf; cases hf
  | ok entry =>
    obtain ⟨program, n⟩ := entry
    rw [hform] at hf
    refine Except.ok.inj hf ▸ hl.insert ?_ program
    split
    next hn =>
      intro hnil
      rw [hnil] at hn
      cases hn
    next => simp

end Reply

namespace Session

theorem State.withBreakpoint_eq (s : State) (program : Text) (n : Nat) (on : Bool) :
    s.withBreakpoint program n on = s.withBreakpoints (s.breakpoints.edit on program n) := by
  cases on with
  | true =>
    have hne : ¬(((s.breakpoints.get? program).getD ∅).insert n).isEmpty := by
      rw [LineSet.isEmpty_iff]
      exact LineSet.insert_ne_empty _ n
    exact congrArg s.withBreakpoints (if_neg hne).symm
  | false =>
    change s.deleteBreakpoint program n = s.withBreakpoints
      (s.breakpoints.put program (((s.breakpoints.get? program).getD ∅).erase n))
    unfold State.deleteBreakpoint
    cases hlines : s.breakpoints.get? program with
    | none => exact congrArg s.withBreakpoints (Table.erase_of_get?_eq_none hlines).symm
    | some lines => rfl

def News.moves : News → Bool
  | .loaded _ | .ended _ _ | .paused _ _ _ => true
  | _ => false

theorem State.after_phase (s : State) {news : News} (h : news.moves = false) :
    (s.after news).phase = s.phase := by
  cases news with
  | loaded | ended | paused => cases h
  | started | loopExit | bindings | listing | lines | frame => rfl
  | edited added program n =>
    change (s.withBreakpoint program n added).phase = _
    rw [s.withBreakpoint_eq]
    rfl

structure State.Sound (s : State) : Prop where
  idle : s.program = none → s.line = none ∧ s.done = false
  ended : s.program ≠ none → (s.done = true ↔ s.line = none)
  bindings : s.bindings.All (· ≠ ∅)
  breakpoints : s.breakpoints.All (· ≠ ∅)

def Runnable (s : State) : Prop := s.phase = .loaded ∨ s.phase = .paused

theorem Runnable.program_done {s : State} (h : Runnable s) : s.program ≠ none ∧ s.done = false := by
  unfold Runnable State.phase at h
  cases hp : s.program <;> cases hd : s.done <;> simp_all

/-- What is relied upon when the snapshot is replaced. -/
def News.Apt (s : State) : News → Prop
  | .ended _ _ | .paused _ _ _ => Runnable s
  | .bindings b => b.All (· ≠ ∅)
  | .listing l => l.All (· ≠ [])
  | _ => True

namespace State

variable {s : State}

theorem sound_empty : Sound {} :=
  ⟨fun _ ↦ ⟨rfl, rfl⟩, fun h ↦ absurd rfl h, Table.all_empty, Table.all_empty⟩

theorem Sound.withBreakpoints (h : s.Sound) {b : Breakpoints} (hb : b.All (· ≠ ∅)) :
    (s.withBreakpoints b).Sound := ⟨h.idle, h.ended, h.bindings, hb⟩

theorem Sound.after (h : s.Sound) {news : News} (hn : news.Apt s) : (s.after news).Sound := by
  cases news with
  | loaded program =>
    refine ⟨fun hp ↦ ?_, fun _ ↦ ?_, h.bindings.erase program, h.breakpoints⟩
    · cases hp
    · simp [State.after, loaded]
  | ended name value =>
    refine ⟨fun hp ↦ absurd hp hn.program_done.1, fun _ ↦ ?_, h.bindings, h.breakpoints⟩
    simp [State.after, completed]
  | paused program n note =>
    refine ⟨fun hp ↦ ?_, fun _ ↦ ?_, h.bindings, h.breakpoints⟩
    · cases hp
    · simp [State.after, pausedAt, hn.program_done.2]
  | bindings b => exact ⟨h.idle, h.ended, hn, h.breakpoints⟩
  | listing l =>
    exact h.withBreakpoints
      (Table.All.map fun program ns hns ↦ LineSet.ofList_ne_empty (hn _ _ hns))
  | edited added program n =>
    change (s.withBreakpoint program n added).Sound
    rw [withBreakpoint_eq]
    exact h.withBreakpoints (Breakpoints.all_put h.breakpoints program _)
  | started | loopExit | lines | frame => exact h

end State

variable {s s' : State} {a : Action} {r : Option (Except SessionError Value)} {x : Exchange}
  {xs : List Exchange} {news : News}

theorem runnable_of_not {s : State} (h : ¬(s.phase = .idle ∨ s.phase = .completed)) :
    Runnable s := by
  unfold Runnable
  cases hp : s.phase <;> simp_all

theorem Action.reading_apt (h : a.reading x = .ok news) (hs : ¬a.Refused s) : news.Apt s := by
  have hof := reading_of h
  cases news with
  | loaded | started | loopExit | edited | lines | frame => trivial
  | ended | paused =>
    obtain rfl | rfl := hof <;> exact runnable_of_not hs
  | bindings b =>
    obtain ⟨frame, -, hframe⟩ := eq_ok_of_bind hof.2
    exact Reply.decodeStore_all hframe
  | listing l =>
    obtain ⟨frame, -, hframe⟩ := eq_ok_of_bind hof.2
    exact Reply.decodeBreakpoints_all hframe

theorem State.heedAll_induction {P : State → Prop} {es : List (Action × Exchange)}
    (h : ∀ e ∈ es, ∀ s news, P s → e.1.reading e.2 = .ok news → P (s.after news)) (hs : P s) :
    P (s.heedAll es) := by
  induction es generalizing s with
  | nil => exact hs
  | cons e es ih =>
    refine ih (fun e he ↦ h e (.tail _ he)) ?_
    dsimp only [State.heed]
    split
    next news hnews => exact h e (.head es) s news hs hnews
    next => exact hs

theorem Action.not_refused_of_mem {b : Action} (h : b ∈ a.refreshes) (s : State) :
    ¬b.Refused s := by
  obtain rfl | rfl := eq_of_mem_refreshes h <;> exact id

theorem Did.sound (h : Did s a r s' xs) (hs : s.Sound) : s'.Sound := by
  cases h with
  | refused | unanswered | failed | unstopped => exact hs
  | told ha hc hx hs' hr =>
    rw [hs']
    -- Each answer heeded keeps the snapshot sound, the refreshes being possible in any phase.
    refine State.heedAll_induction (fun e he t news ht hnews ↦ ht.after ?_)
      (hs.after (Action.reading_apt hx ha))
    exact Action.reading_apt hnews (Action.not_refused_of_mem (List.of_mem_zip he).1 t)
  | stopped => exact State.sound_empty

theorem History.sound {ds : List Deed} (h : History ds s) : s.Sound := by
  induction h with
  | begin => exact State.sound_empty
  | act h hd ih => exact Did.sound hd ih

theorem Deed.Follows.leaves_completed {d : Deed} (h : d.Follows s) (hs : s.phase = .completed)
    (hd : d.state.phase ≠ .completed) : d.stopped = true ∨ d.loaded?.isSome := by
  obtain ⟨a, xs, r, s'⟩ := d
  replace h : Did s a r s' xs := h
  cases h with
  | refused | unanswered | failed | unstopped => exact absurd hs hd
  | stopped h =>
    subst h
    exact .inl rfl
  | @told x news _ _ xs ha hc hx hs' hr =>
    -- What is asked for further brings nothing but tables, so the first reply decides.
    have hphase : (s.after news).phase ≠ .completed := by
      intro hcompleted
      refine hd (hs' ▸ State.heedAll_induction (P := (·.phase = .completed)) ?_ hcompleted)
      intro e he t news ht hnews
      obtain ⟨l, rfl⟩ | ⟨b, rfl⟩ := Action.reading_of_mem (List.of_mem_zip he).1 hnews
      · exact ht
      · exact ht
    have hof := Action.reading_of hx
    cases hm : news.moves with
    | false => exact absurd ((s.after_phase hm).trans hs) hphase
    | true =>
      cases news with
      | started | loopExit | bindings | listing | edited | lines | frame => cases hm
      | loaded name =>
        obtain ⟨⟨program, input, rfl⟩, hname⟩ := hof
        exact .inr (by simp [Deed.loaded?, hname, Except.toOption])
      | ended | paused => obtain rfl | rfl := hof <;> exact absurd (.inr hs) ha

theorem Did.of_refused (h : Did s a r s' xs) (ha : a.Refused s) :
    ∃ message, r = some (.error (.usage message)) ∧ s' = s ∧ xs = [] := by
  cases h with
  | refused message => exact ⟨message, rfl, rfl, rfl⟩
  | unanswered h | failed h | told h => exact absurd ha h
  | stopped h | unstopped h => subst h; exact ha.elim

theorem Live.converse_of_always {α : Type} {d : Dialogue α} {w : Live} {xs : List Exchange}
    (h : d.Always (fun r _ _ ↦ r ≠ none) w.state xs) :
    ∃ r s, w.converse d = (r, { w with state := s }) := by
  induction d generalizing w xs with
  | done a => exact ⟨some a, w.state, rfl⟩
  | ask command echo next ih => exact absurd rfl h.1
  | look next ih => exact ih w.state h
  | become s next ih => exact ih (w := { w with state := s }) h
  | hangUp next ih => exact absurd rfl h.1

theorem Live.act_of_refused (echo : Echo) {w : Live} {scene : Scene}
    (h : scene.action.Refused w.state) :
    ∃ message, w.act echo scene =
      { (w.happen scene.before).2 with
        waits := scene.waits
        exchanges := []
        deeds := w.deeds ++ [⟨scene.action, [], some (.error (.usage message)), w.state⟩] } := by
  let v : Live := { (w.happen scene.before).2 with waits := scene.waits, exchanges := [] }
  have hdid := perform_did echo w.state scene.action
  obtain ⟨⟨message, hr, hs, hxs⟩, -⟩ := converse_always (w := v)
    (hdid.mono fun r s' xs hd ↦ hd.of_refused h)
  -- The dialogue is over before it has waited, so the connection sees nothing of it.
  obtain ⟨r, s, hv⟩ := converse_of_always (w := v) (hdid.mono fun r s' xs hd hnone ↦ by
    obtain ⟨message, hr, -⟩ := hd.of_refused h
    rw [hr] at hnone
    cases hnone)
  rw [hv] at hr hs hxs
  obtain rfl : s = w.state := hs
  obtain rfl : r = _ := hr
  exact ⟨message, Live.act_eq hv⟩

/-- Every snapshot is sound. An operation that is refused adds nothing to what has happened at
the connection, and from the end of a program only a load and a stop lead on. -/
theorem sound_run (echo : Echo) (c : Connection) (scenes : List Scene) :
    let w := (Live.begin c).run echo scenes
    w.state.Sound ∧ ∀ scene : Scene,
      (scene.action.Refused w.state → ∃ message, w.act echo scene =
        { (w.happen scene.before).2 with
          waits := scene.waits
          exchanges := []
          deeds := w.deeds ++ [⟨scene.action, [], some (.error (.usage message)), w.state⟩] }) ∧
      (w.state.phase = .completed → (w.act echo scene).state.phase ≠ .completed →
        ∃ d, (w.act echo scene).deeds = w.deeds ++ [d] ∧
          (d.stopped = true ∨ d.loaded?.isSome)) := by
  intro w
  refine ⟨(history_run echo c scenes).sound, fun scene ↦ ⟨Live.act_of_refused echo, ?_⟩⟩
  intro hs hs'
  obtain ⟨d, hd, -, hstate, hf⟩ := w.act_deed echo scene
  rw [← hstate] at hs'
  exact ⟨d, hd, hf.leaves_completed hs hs'⟩

end Session

end Prompter
