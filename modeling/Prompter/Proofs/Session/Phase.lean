import Mathlib.Data.List.Basic
import Prompter.Proofs.Session.Soundness

namespace Prompter.Session

def Cause.isDone : Cause → Bool
  | .done _ _ => true
  | _ => false

def Cause.line? : Cause → Option Nat
  | .breakpoint line _ => some line
  | _ => none

namespace Deed

def cause? (d : Deed) : Option Cause :=
  match d.result with
  | some (.ok (.outcome o)) => some o.cause
  | _ => none

def causes (d : Deed) : List Cause := d.news.filterMap News.cause?

end Deed

/-- Where a program stands that was loaded before it was said to pause and to end for `causes`. -/
structure State.Stands (s : State) (causes : List Cause) : Prop where
  program : s.program ≠ none
  done : s.done = causes.any Cause.isDone
  line : s.done = false → s.line = some ((causes.filterMap Cause.line?).getLast?.getD 0)

namespace State

variable {s : State} {causes : List Cause}

theorem stands_loaded (s : State) (program : Text) : (s.loaded program).Stands [] where
  program := Option.some_ne_none program
  done := rfl
  line _ := rfl

theorem Stands.congr {s' : State} (h : s.Stands causes) (hp : s'.program = s.program)
    (hd : s'.done = s.done) (hl : s'.line = s.line) : s'.Stands causes := by
  constructor
  · rw [hp]
    exact h.program
  · rw [hd]
    exact h.done
  · rw [hd, hl]
    exact h.line

theorem Stands.step (h : s.Stands causes) {news : News} (hn : ∀ program, news ≠ .loaded program) :
    (s.after news).Stands (causes ++ news.cause?.toList) := by
  cases news with
  | loaded program => exact absurd rfl (hn program)
  | ended name value =>
    refine ⟨h.program, ?_, fun hd ↦ by cases hd⟩
    simp [State.after, completed, News.cause?, Cause.isDone]
  | paused program n note =>
    refine ⟨Option.some_ne_none program, ?_, fun _ ↦ ?_⟩
    · simpa [State.after, pausedAt, News.cause?, Cause.isDone] using h.done
    · simp [State.after, pausedAt, News.cause?, Cause.line?]
  | started | loopExit =>
    refine ⟨h.program, ?_, ?_⟩
    · simpa [State.after, News.cause?, Cause.isDone] using h.done
    · simpa [State.after, News.cause?, Cause.line?] using h.line
  | bindings | listing | lines | frame =>
    exact (List.append_nil causes).symm ▸ h.congr rfl rfl rfl
  | edited added program n =>
    refine (List.append_nil causes).symm ▸ ?_
    change (s.withBreakpoint program n added).Stands causes
    exact s.withBreakpoint_eq program n added ▸ h.congr rfl rfl rfl

theorem Stands.run (h : s.Stands causes) {ns : List News}
    (hns : ∀ news ∈ ns, ∀ program, news ≠ .loaded program) :
    (ns.foldl State.after s).Stands (causes ++ ns.filterMap News.cause?) := by
  -- The causes so far are carried along with the snapshot.
  induction ns generalizing s causes with
  | nil => simpa using h
  | cons news ns ih =>
    have hrest := ih (h.step (hns news (.head ns))) fun n hn ↦ hns n (.tail _ hn)
    cases hc : news.cause? <;> simpa [hc] using hrest

theorem Stands.phase_eq (h : s.Stands causes) : s.phase =
    if causes.any Cause.isDone then .completed
    else if (causes.filterMap Cause.line?).getLast?.getD 0 = 0 then .loaded else .paused := by
  obtain ⟨program, hp⟩ := Option.ne_none_iff_exists'.1 h.program
  unfold phase
  rw [hp, ← h.done]
  cases hd : s.done with
  | true => rfl
  | false => simp [h.line hd]

end State

theorem Action.reading_load (program input : Text) (x : Exchange) :
    (load program input).reading x =
      (x.answer.bind (Reply.decodeLoad x.command)).map .loaded := by
  obtain ⟨command, _ | _⟩ := x <;> rfl

namespace Deed

variable {d : Deed}

theorem not_loaded (h : d.loaded? = none) : ∀ news ∈ d.news, ∀ program, news ≠ .loaded program := by
  rintro news hnews program rfl
  obtain ⟨x, xs, hxs, hx⟩ | ⟨l, hl⟩ | ⟨b, hb⟩ := mem_news hnews
  · obtain ⟨⟨name, input, ha⟩, hname⟩ := Action.reading_of hx
    simp [loaded?, ha, hxs, hname, Except.toOption] at h
  · cases hl
  · cases hb

theorem stopped_of_loaded (h : d.loaded?.isSome) : d.stopped = false := by
  apply stopped_of_ne
  intro ha
  simp [loaded?, ha] at h

theorem news_of_loaded (h : d.loaded?.isSome) : ∃ program xs,
    d.news = .loaded program :: told (d.action.refreshes.zip xs) := by
  unfold loaded? at h
  split at h
  next name input x xs ha hxs =>
    obtain ⟨program, hprogram⟩ := Option.isSome_iff_exists.1 h
    have hx : x.answer.bind (Reply.decodeLoad x.command) = .ok program := by
      revert hprogram
      cases x.answer.bind (Reply.decodeLoad x.command) <;> simp [Except.toOption]
    refine ⟨program, xs, news_cons hxs ?_⟩
    rw [ha, Action.reading_load, hx]
    rfl
  next => cases h

end Deed

theorem filterMap_told_refreshes (a : Action) (xs : List Exchange) :
    (told (a.refreshes.zip xs)).filterMap News.cause? = [] := by
  rw [List.filterMap_eq_nil_iff]
  intro news hnews
  obtain ⟨l, rfl⟩ | ⟨b, rfl⟩ := mem_told_refreshes hnews <;> rfl

/-- As long as no other program is loaded, what operations have been told decides the phase. -/
theorem History.stands {before after : List Deed} {load : Deed} {s : State}
    (h : History (before ++ load :: after) s) (hload : load.loaded?.isSome)
    (hafter : ∀ d ∈ after, d.stopped = false ∧ d.loaded? = none) :
    s.Stands (after.flatMap Deed.causes) := by
  obtain ⟨program, xs, hnews⟩ := Deed.news_of_loaded hload
  have hheard : heard (before ++ load :: after) = heard before ++ .loaded program ::
      (told (load.action.refreshes.zip xs) ++ after.flatMap Deed.news) := by
    rw [heard, sinceStop_append]
    · simp [heard, hnews]
    · intro d hd
      obtain rfl | hd := List.mem_cons.1 hd
      · exact Deed.stopped_of_loaded hload
      · exact (hafter d hd).1
  have hnot : ∀ news ∈ told (load.action.refreshes.zip xs) ++ after.flatMap Deed.news,
      ∀ program, news ≠ .loaded program := by
    intro news hnews
    obtain hnews | hnews := List.mem_append.1 hnews
    · obtain ⟨l, rfl⟩ | ⟨b, rfl⟩ := mem_told_refreshes hnews <;> exact fun _ h ↦ by cases h
    · obtain ⟨d, hd, hnews⟩ := List.mem_flatMap.1 hnews
      exact Deed.not_loaded (hafter d hd).2 news hnews
  have hstands := (State.stands_loaded ((heard before).foldl State.after {}) program).run hnot
  rw [List.filterMap_append, filterMap_told_refreshes, List.filterMap_flatMap] at hstands
  rw [h.state_eq, hheard, List.foldl_append, List.foldl_cons]
  exact hstands

theorem Deed.Follows.causes_eq {d : Deed} {s : State} (h : d.Follows s) (hr : d.result ≠ none) :
    d.causes = d.cause?.toList := by
  obtain ⟨a, xs, r, s'⟩ := d
  replace h : Did s a r s' xs := h
  cases h with
  | refused | stopped | unstopped =>
    rw [Deed.causes, Deed.news_nil rfl]
    rfl
  | unanswered => exact absurd rfl hr
  | failed h hc hx =>
    rw [Deed.causes, Deed.news_error rfl hx]
    rfl
  | @told x news _ _ xs h hc hx hs hr' =>
    rw [Deed.causes, Deed.news_cons rfl hx, List.filterMap_cons, filterMap_told_refreshes]
    have hlength : xs.length = a.refreshes.length := by
      by_contra hne
      exact hr (hr'.trans (if_neg hne))
    obtain rfl : r = _ := hr'.trans (if_pos hlength)
    cases news <;> rfl

theorem phase_eq_iff (done : Bool) (lines : List Nat) :
    ((if done then .completed else if lines.getLast?.getD 0 = 0 then .loaded else .paused : Phase) =
      if done then .completed else if lines = [] then .loaded else .paused) ↔
        done ∨ lines.getLast? ≠ some 0 := by
  cases done with
  | true => simp
  | false =>
    obtain rfl | ⟨lines, n, rfl⟩ := lines.eq_nil_or_concat
    · simp
    · -- The two rules differ only where the last line is line 0.
      by_cases hn : n = 0 <;> simp [hn]

/-- After a program has been loaded, the operations until the next load or stop decide the phase:
the last line at which it was said to pause is the one that counts. So the phase is paused whenever
the program has been said to pause, unless that line is line 0, which is where a program stands
that has just been loaded. -/
theorem phase_run (echo : Echo) (c : Connection) (scenes : List Scene) {before after : List Deed}
    {load : Deed} (h : ((Live.begin c).run echo scenes).deeds = before ++ load :: after)
    (hload : load.loaded?.isSome) (hafter : ∀ d ∈ after, d.stopped = false ∧ d.loaded? = none) :
    let s := ((Live.begin c).run echo scenes).state
    let causes := after.flatMap Deed.causes
    let lines := causes.filterMap Cause.line?
    (∀ d ∈ after, d.result ≠ none → d.causes = d.cause?.toList) ∧
      (s.phase = if causes.any Cause.isDone then .completed
        else if lines.getLast?.getD 0 = 0 then .loaded else .paused) ∧
      ((s.phase = if causes.any Cause.isDone then .completed
        else if lines = [] then .loaded else .paused) ↔
          causes.any Cause.isDone ∨ lines.getLast? ≠ some 0) := by
  intro s causes lines
  have hhistory := history_run echo c scenes
  rw [h] at hhistory
  have hphase := (hhistory.stands hload hafter).phase_eq
  refine ⟨fun d hd hr ↦ ?_, hphase, ?_⟩
  · obtain ⟨t, ht⟩ := hhistory.follows_of_mem (List.mem_append_right _ (.tail _ hd))
    exact ht.causes_eq hr
  · rw [hphase]
    exact phase_eq_iff _ lines

def stepTo (n : Nat) : List Scene :=
  [⟨.load "p" "nil", [], [.replied "> " 1 (Reply.loaded "p"), .replied "> " 2 "",
      .replied "> " 3 ""]⟩,
    ⟨.step, [], [.replied "> " 4 (Reply.position "p" n "X := nil"), .replied "> " 5 ""]⟩]

theorem phase_run_stepTo :
    let w := (Live.greeted "> ").run .silent (stepTo 3)
    ∃ load step, w.deeds = [] ++ load :: [step] ∧ load.loaded?.isSome ∧
      (step.stopped = false ∧ step.loaded? = none) ∧
      step.causes = [.breakpoint 3 (some "X := nil")] ∧ w.state.phase = .paused := by
  intro w
  have hlength : w.deeds.length = 2 := by decide +kernel
  have hdeeds : w.deeds.map (fun d ↦ (d.loaded?.isSome, d.stopped, d.causes)) =
      [(true, false, []), (false, false, [Cause.breakpoint 3 (some "X := nil")])] := by
    decide +kernel
  obtain ⟨load, step, hw⟩ := List.length_eq_two.1 hlength
  simp only [hw, List.map_cons, List.map_nil, List.cons.injEq, Prod.mk.injEq] at hdeeds
  obtain ⟨⟨hload, -, -⟩, ⟨hloaded, hstopped, hcauses⟩, -⟩ := hdeeds
  have hnone : step.loaded? = none := by simpa using hloaded
  obtain ⟨-, hphase, -⟩ := @phase_run .silent (Live.greeted "> ").connection (stepTo 3) [] [step]
    load hw hload (by simp [hstopped, hnone])
  refine ⟨load, step, hw, hload, ⟨hstopped, hnone⟩, hcauses, hphase.trans ?_⟩
  simp [hcauses, Cause.isDone, Cause.line?]

/-- A program that has been said to pause at line 0 does not count as paused. -/
theorem loaded_at_line_zero :
    let w := (Live.greeted "> ").run .silent (stepTo 0)
    w.deeds.map (fun d ↦ (d.action, d.result.isSome, d.loaded?.isSome)) =
        [(Action.load "p" "nil", true, true), (Action.step, true, false)] ∧
      w.deeds.filterMap Deed.cause? = [Cause.breakpoint 0 (some "X := nil")] ∧
      w.state.phase = .loaded := by
  decide +kernel

end Prompter.Session
