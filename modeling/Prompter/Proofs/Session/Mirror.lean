import Prompter.Proofs.Session.Keeper

namespace Prompter

open Reply

namespace Session

def Exchange.sent (x : Exchange) : Text := x.command.trim

def Action.edit (added : Bool) (n : Nat) (program : Option Text) : Action :=
  if added then .addBreakpoint n program else .deleteBreakpoint n program

/-- The operations on programs with proper names that send no commands of the caller's own. After a
line break the input of a load would be such a command. -/
def Action.Plain : Action → Prop
  | .load program input => isName program ∧ '\n' ∉ Text.trim input
  | .addBreakpoint n program | .deleteBreakpoint n program =>
    n < UInt32.size ∧ ∀ p ∈ program, isName p
  | .run | .step | .store | .listBreakpoints => True
  | _ => False

instance : DecidablePred Action.Plain
  | .load _ _ => inferInstanceAs (Decidable (_ ∧ _))
  | .addBreakpoint _ _ | .deleteBreakpoint _ _ => inferInstanceAs (Decidable (_ ∧ _))
  | .run | .step | .store | .listBreakpoints => inferInstanceAs (Decidable True)
  | .help | .changeDirectory _ | .evaluate _ | .execute _ _ | .stop =>
    inferInstanceAs (Decidable False)

end Session

namespace Keeper

open Session

variable (k : Keeper)

/-- The exchange is one with this interpreter after the lines `cs`. -/
def Answers (cs : List Text) (x : Exchange) : Prop :=
  x.answer.map Frame.replyLines = .ok (k.reply (cs ++ [x.sent]))

def Answered (cs : List Text) : List Exchange → Prop
  | [] => True
  | x :: xs => k.Answers cs x ∧ Answered (cs ++ [x.sent]) xs

instance (cs : List Text) (x : Exchange) : Decidable (k.Answers cs x) :=
  inferInstanceAs (Decidable (_ = _))

instance decidableAnswered (cs : List Text) : (xs : List Exchange) → Decidable (k.Answered cs xs)
  | [] => inferInstanceAs (Decidable True)
  | x :: xs =>
    have := decidableAnswered (cs ++ [x.sent]) xs
    inferInstanceAs (Decidable (_ ∧ _))

theorem answered_append {cs : List Text} {xs ys : List Exchange} :
    k.Answered cs (xs ++ ys) ↔
      k.Answered cs xs ∧ k.Answered (cs ++ xs.map Exchange.sent) ys := by
  induction xs generalizing cs with
  | nil => simp [Answered]
  | cons x xs ih => simp [Answered, ih, and_assoc]

/-- The snapshot agrees with the interpreter. -/
structure Mirrored (cs : List Text) (s : State) : Prop where
  breakpoints : s.breakpoints = (k.kept cs).map LineSet.ofList
  program : ∀ p ∈ s.program, isName p
  tidy : (k.kept cs).Tidy

theorem mirrored_nil : k.Mirrored [] {} where
  breakpoints := by
    rw [k.kept_nil]
    rfl
  program p hp := by cases hp
  tidy := k.kept_nil ▸ Listing.tidy_empty

end Keeper

namespace Reply

variable {command : Text} {frame : Frame}

theorem eq_some_of_fits {α : Type} {line : Text} {form : Option α} {a : α}
    (h : fits command line form = .ok a) : form = some a := by
  cases form with
  | none => cases h
  | some b => exact congrArg some (Except.ok.inj h)

theorem mem_of_lineAt {n : Nat} {line : Text} (h : lineAt command n frame = .ok line) :
    line ∈ frame.replyLines := List.mem_of_getElem? (eq_some_of_fits h)

theorem decodeEdit_eq {added : Bool} {line : Text} (h : frame.replyLines.head? = some line) :
    decodeEdit command added frame = fits command line (edit? added line) := by
  have hline : lineAt command 0 frame = .ok line := by
    rw [lineAt, ← List.head?_eq_getElem?, h]
    rfl
  rw [decodeEdit, hline]
  rfl

theorem eq_some_of_decodeEdit {added : Bool} {e : Text × Nat}
    (h : decodeEdit command added frame = .ok e) :
    ∃ line, frame.replyLines.head? = some line ∧ edit? added line = some e := by
  obtain ⟨line, hline, he⟩ := Session.eq_ok_of_bind h
  refine ⟨line, ?_, eq_some_of_fits he⟩
  rw [List.head?_eq_getElem?]
  exact eq_some_of_fits hline

theorem names_of_decodeLoad {program : Text} (h : decodeLoad command frame = .ok program) :
    ∃ line ∈ frame.replyLines, Names line program := by
  obtain ⟨line, hline, hprogram⟩ := Session.eq_ok_of_bind h
  exact ⟨line, mem_of_lineAt hline, .inl (eq_some_of_fits hprogram)⟩

theorem names_of_decodeRun {program : Text} {n : Nat}
    (h : decodeRun command frame = .ok (.breakpoint program n)) :
    ∃ line ∈ frame.replyLines, Names line program := by
  obtain ⟨line, hline, h⟩ := Session.eq_ok_of_bind h
  split at h
  next name value _ =>
    obtain ⟨v, -, hv⟩ := Session.eq_ok_of_bind h
    cases hv
  next =>
    split at h
    next =>
      obtain ⟨next, hnext, h⟩ := Session.eq_ok_of_bind h
      obtain ⟨⟨p, m, note⟩, hp, h⟩ := Session.eq_ok_of_bind h
      cases h
      exact ⟨next, mem_of_lineAt hnext, .inr ⟨n, note, eq_some_of_fits hp⟩⟩
    next => cases h

theorem names_of_decodeStep {program : Text} {n : Nat} {note : Text}
    (h : decodeStep command frame = .ok (.atLine program n note)) :
    ∃ line ∈ frame.replyLines, Names line program := by
  obtain ⟨line, hline, h⟩ := Session.eq_ok_of_bind h
  split at h
  next =>
    obtain ⟨v, -, hv⟩ := Session.eq_ok_of_bind h
    cases hv
  next =>
    split at h
    next =>
      obtain ⟨v, -, hv⟩ := Session.eq_ok_of_bind h
      cases hv
    next =>
      split at h
      next hp =>
        cases h
        exact ⟨line, mem_of_lineAt hline, .inr ⟨n, note, hp⟩⟩
      next => split at h <;> cases h

end Reply

namespace Session

variable {a : Action} {x : Exchange} {news : News} {s : State} {frame : Frame}

def News.current? : News → Option Text
  | .loaded program | .paused program _ _ => some program
  | _ => none

theorem State.program_after (s : State) (news : News) :
    (s.after news).program = (news.current? <|> s.program) := by
  cases news with
  | edited added program n => rw [State.after, State.withBreakpoint_eq]; rfl
  | loaded | paused | started | ended | loopExit | bindings | listing | lines | frame => rfl

theorem Action.names_of_reading (hx : x.answer = .ok frame) (h : a.reading x = .ok news)
    {program : Text} (hp : news.current? = some program) :
    ∃ line ∈ frame.replyLines, Names line program := by
  obtain ⟨command, answer⟩ := x
  obtain rfl : answer = .ok frame := hx
  cases a with
  | load p input =>
    obtain ⟨name, hname, rfl⟩ := eq_ok_of_map h
    obtain rfl := Option.some.inj hp
    exact names_of_decodeLoad hname
  | run =>
    obtain ⟨reply, hreply, rfl⟩ := eq_ok_of_map h
    cases reply with
    | wrote => cases hp
    | breakpoint p n =>
      obtain rfl := Option.some.inj hp
      exact names_of_decodeRun hreply
  | step =>
    obtain ⟨reply, hreply, rfl⟩ := eq_ok_of_map h
    cases reply with
    | read | wrote | loopExit => cases hp
    | atLine p n note =>
      obtain rfl := Option.some.inj hp
      exact names_of_decodeStep hreply
  | store | listBreakpoints | addBreakpoint | deleteBreakpoint =>
    obtain ⟨reply, -, rfl⟩ := eq_ok_of_map h
    cases hp
  | help | changeDirectory | evaluate | execute | stop =>
    cases h
    cases hp

theorem State.heed_of_ok (s : State) (h : a.reading x = .ok news) :
    s.heed a x = s.after news := by rw [State.heed, h]

theorem State.heed_of_error {e : SessionError} (s : State) (h : a.reading x = .error e) :
    s.heed a x = s := by rw [State.heed, h]

theorem Action.reading_edit (added : Bool) (n : Nat) (program : Option Text) (x : Exchange) :
    (Action.edit added n program).reading x =
      (x.answer.bind (decodeEdit x.command added)).map fun e ↦ .edited added e.1 e.2 := by
  obtain ⟨command, answer⟩ := x
  cases added <;> cases answer <;> rfl

theorem Action.command?_edit (added : Bool) (n : Nat) (program : Option Text) (s : State) :
    (Action.edit added n program).command? s =
      (program <|> s.program).map (editCommand added n) := by
  cases added <;> rfl

theorem Action.sent_listBreakpoints (hc : Action.listBreakpoints.command? s = some x.command) :
    x.sent = listCommand := by
  rw [Exchange.sent, ← Option.some.inj hc]
  decide

end Session

namespace Keeper.Mirrored

open Session

variable {k : Keeper} {cs : List Text} {s : State} {x : Exchange}

theorem of_kept_eq (h : k.Mirrored cs s) {cs' : List Text} (hkept : k.kept cs' = k.kept cs) :
    k.Mirrored cs' s := ⟨hkept ▸ h.breakpoints, h.program, hkept ▸ h.tidy⟩

theorem heed_unconcerned (h : k.Mirrored cs s) {a : Action} (hx : k.Answers cs x)
    (hc : Unconcerned x.sent) (hl : a ≠ .listBreakpoints)
    (he : ∀ added n program, a ≠ .edit added n program) :
    k.Mirrored (cs ++ [x.sent]) (s.heed a x) := by
  obtain ⟨frame, hframe, hlines⟩ := eq_ok_of_map hx
  obtain ⟨hkept, hnames⟩ := k.other cs hc
  cases hnews : a.reading x with
  | error e =>
    rw [s.heed_of_error hnews]
    exact h.of_kept_eq hkept
  | ok news =>
    rw [s.heed_of_ok hnews]
    refine ⟨?_, fun p hp ↦ ?_, hkept ▸ h.tidy⟩
    · have hof := Action.reading_of hnews
      rw [hkept, ← h.breakpoints]
      cases news with
      | listing l => exact absurd hof.1 hl
      | edited added p n =>
        obtain ⟨m, program, ha⟩ := hof
        exact absurd ha (he added m program)
      | loaded | started | ended | paused | loopExit | bindings | lines | frame => rfl
    · rw [s.program_after, Option.mem_def, Option.orElse_eq_some] at hp
      obtain hp | ⟨-, hp⟩ := hp
      · obtain ⟨line, hline, hname⟩ := Action.names_of_reading hframe hnews hp
        exact hnames line (hlines ▸ hline) p hname
      · exact h.program p hp

theorem reading_listBreakpoints (h : k.Mirrored cs s) (hx : k.Answers cs x)
    (hc : x.sent = listCommand) :
    Action.reading .listBreakpoints x = .ok (.listing (k.kept cs)) := by
  obtain ⟨frame, hframe, hlines⟩ := eq_ok_of_map hx
  have hdecode : decodeBreakpoints x.command frame = .ok (k.kept cs) := by
    refine Listing.decodeBreakpoints_of_spelledBy h.tidy ?_
    rw [hlines, hc]
    exact (k.listed cs).2
  rw [Action.reading, hframe]
  exact congrArg (Except.map News.listing) hdecode

theorem heed_listBreakpoints (h : k.Mirrored cs s) (hx : k.Answers cs x)
    (hc : x.sent = listCommand) :
    k.Mirrored (cs ++ [x.sent]) (s.heed .listBreakpoints x) := by
  have hkept : k.kept (cs ++ [x.sent]) = k.kept cs := hc ▸ (k.listed cs).1
  rw [s.heed_of_ok (h.reading_listBreakpoints hx hc)]
  exact ⟨hkept ▸ rfl, h.program, hkept ▸ h.tidy⟩

theorem edit (h : k.Mirrored cs s) {added : Bool} {p : Text} {n : Nat} {command : Text}
    (hkept : (k.kept (cs ++ [command])).map LineSet.ofList =
      Breakpoints.edit ((k.kept cs).map LineSet.ofList) added p n)
    (htidy : (k.kept (cs ++ [command])).Tidy) :
    k.Mirrored (cs ++ [command]) (s.withBreakpoint p n added) := by
  rw [s.withBreakpoint_eq]
  refine ⟨?_, h.program, htidy⟩
  rw [hkept, ← h.breakpoints]
  rfl

theorem heed_edit (h : k.Mirrored cs s) (hx : k.Answers cs x) {added : Bool} {p : Text} {n : Nat}
    (hp : isName p) (hn : n < UInt32.size) (hc : x.sent = editCommand added n p)
    (program : Option Text) :
    k.Mirrored (cs ++ [x.sent]) (s.heed (.edit added n program) x) := by
  obtain ⟨frame, hframe, hlines⟩ := eq_ok_of_map hx
  have hreading : (Action.edit added n program).reading x =
      (decodeEdit x.command added frame).map fun e ↦ .edited added e.1 e.2 := by
    rw [Action.reading_edit, hframe]
    rfl
  -- The interpreter confirms that it has edited just this breakpoint.
  have hconfirmed (hhead : (k.reply (cs ++ [x.sent])).head? = some (Reply.edit added p n)) :
      (Action.edit added n program).reading x = .ok (.edited added p n) := by
    rw [hreading, decodeEdit_eq (hlines ▸ hhead), edit?_edit added (isName_iff.1 hp).1 hn]
    rfl
  cases added with
  | true =>
    obtain ⟨hkept, hhead⟩ := k.set cs hp hn
    rw [← hc] at hkept hhead
    rw [s.heed_of_ok (hconfirmed hhead)]
    refine h.edit ?_ (hkept ▸ h.tidy.add hp hn)
    rw [hkept, Listing.map_add]
  | false =>
    by_cases hmem : n ∈ (k.kept cs).lines p
    · obtain ⟨hkept, hhead⟩ := k.deleted cs hp hn hmem
      rw [← hc] at hkept hhead
      rw [s.heed_of_ok (hconfirmed hhead)]
      refine h.edit ?_ (hkept ▸ h.tidy.remove p n)
      rw [hkept, Listing.map_remove]
    · obtain ⟨hkept, hhead⟩ := k.denied cs hp hn hmem
      rw [← hc] at hkept hhead
      cases he : decodeEdit x.command false frame with
      | error e =>
        rw [s.heed_of_error (by rw [hreading, he]; rfl)]
        exact h.of_kept_eq hkept
      | ok e =>
        -- Whatever it may seem to confirm, there was nothing to delete.
        obtain ⟨line, hline, hread⟩ := eq_some_of_decodeEdit he
        have hnot := hhead line (hlines ▸ hline) e.1 e.2 hread
        rw [s.heed_of_ok (by rw [hreading, he]; rfl)]
        refine h.edit ?_ (hkept ▸ h.tidy)
        rw [hkept, ← Listing.map_remove, h.tidy.remove_of_not_mem hnot]

theorem heed (h : k.Mirrored cs s) {a : Action} (ha : a.Plain) (hx : k.Answers cs x)
    (hc : a.command? s = some x.command) : k.Mirrored (cs ++ [x.sent]) (s.heed a x) := by
  have hedit (added : Bool) {n : Nat} {program : Option Text} (hn : n < UInt32.size)
      (hp : ∀ p ∈ program, isName p)
      (hc : (Action.edit added n program).command? s = some x.command) :
      k.Mirrored (cs ++ [x.sent]) (s.heed (.edit added n program) x) := by
    rw [Action.command?_edit] at hc
    obtain ⟨p, htarget, hc⟩ := Option.map_eq_some_iff.1 hc
    have hname : isName p := by
      obtain hp' | ⟨-, hp'⟩ := (Option.orElse_eq_some _ _ _).1 htarget
      · exact hp p hp'
      · exact h.program p hp'
    refine h.heed_edit hx hname hn ?_ program
    rw [Exchange.sent, ← hc, trim_editCommand added n hname]
  cases a with
  | load program input =>
    have hload : Unconcerned x.sent := by
      rw [Exchange.sent, ← Option.some.inj hc]
      exact unconcerned_load ha.1 ha.2
    exact h.heed_unconcerned hx hload (by simp) (by rintro (_ | _) n p <;> simp [Action.edit])
  | run | step | store =>
    have hplain : Unconcerned x.sent := by
      rw [Exchange.sent, ← Option.some.inj hc]
      decide
    exact h.heed_unconcerned hx hplain (by simp) (by rintro (_ | _) n p <;> simp [Action.edit])
  | listBreakpoints => exact h.heed_listBreakpoints hx (Action.sent_listBreakpoints hc)
  | addBreakpoint n program => exact hedit true ha.1 ha.2 hc
  | deleteBreakpoint n program => exact hedit false ha.1 ha.2 hc
  | help | changeDirectory | evaluate | execute | stop => exact ha.elim

theorem heedAll (h : k.Mirrored cs s) {es : List (Action × Exchange)}
    (hes : ∀ e ∈ es, e.1.Plain ∧ ∀ t, e.1.command? t = some e.2.command)
    (hx : k.Answered cs (es.map Prod.snd)) :
    k.Mirrored (cs ++ (es.map Prod.snd).map Exchange.sent) (s.heedAll es) := by
  induction es generalizing cs s with
  | nil => simpa [State.heedAll] using h
  | cons e es ih =>
    obtain ⟨ha, hc⟩ := hes e List.mem_cons_self
    have hrest := ih (h.heed ha hx.1 (hc s)) (fun e he ↦ hes e (.tail _ he)) hx.2
    simpa [State.heedAll] using hrest

end Keeper.Mirrored

namespace Session

variable {k : Keeper} {cs : List Text} {s s' : State} {a : Action}
  {r : Option (Except SessionError Value)} {xs : List Exchange}

theorem Action.zip_refreshes (h : xs.map Exchange.command <+: a.refreshes.filterMap (command? s)) :
    (a.refreshes.zip xs).map Prod.snd = xs ∧
      ∀ e ∈ a.refreshes.zip xs, e.1.Plain ∧ ∀ t, e.1.command? t = some e.2.command := by
  have hplain : ∀ b ∈ a.refreshes, b.Plain ∧ ∃ c, ∀ t, b.command? t = some c := by
    intro b hb
    obtain rfl | rfl := Action.eq_of_mem_refreshes hb <;> exact ⟨trivial, _, fun _ ↦ rfl⟩
  generalize a.refreshes = bs at h hplain
  induction bs generalizing xs with
  | nil =>
    obtain rfl : xs = [] := List.map_eq_nil_iff.1 (List.prefix_nil.1 h)
    exact ⟨rfl, by simp⟩
  | cons b bs ih =>
    cases xs with
    | nil => simp
    | cons x xs =>
      obtain ⟨hb, c, hc⟩ := hplain b List.mem_cons_self
      rw [List.filterMap_cons_some (hc s), List.map_cons, List.cons_prefix_cons] at h
      obtain ⟨hsnd, hrest⟩ := ih h.2 fun b hb ↦ hplain b (.tail _ hb)
      refine ⟨by simp [hsnd], fun e he ↦ ?_⟩
      obtain rfl | he := List.mem_cons.1 he
      · exact ⟨hb, fun t ↦ (hc t).trans (congrArg some h.1.symm)⟩
      · exact hrest e he

theorem Action.cons_prefix_commands {x : Exchange}
    (h : (x :: xs).map Exchange.command <+: a.commands s) :
    a.command? s = some x.command ∧
      xs.map Exchange.command <+: a.refreshes.filterMap (command? s) := by
  cases hc : a.command? s with
  | none =>
    have hnone : a.refreshes = [] := by cases a <;> first | rfl | cases hc
    rw [commands, List.filterMap_cons_none hc, hnone] at h
    cases List.prefix_nil.1 h
  | some c =>
    rw [commands, List.filterMap_cons_some hc, List.map_cons, List.cons_prefix_cons] at h
    exact ⟨congrArg some h.1.symm, h.2⟩

theorem Did.mirrored (h : Did s a r s' xs) (hs : k.Mirrored cs s) (ha : a.Plain)
    (hr : r ≠ none) (hx : k.Answered cs xs) :
    k.Mirrored (cs ++ xs.map Exchange.sent) s' ∧ (a = .listBreakpoints →
      r = some (.ok (.listing (k.kept (cs ++ xs.map Exchange.sent))))) := by
  cases h with
  | refused message h =>
    refine ⟨by simpa using hs, ?_⟩
    rintro rfl
    exact h.elim
  | unanswered => exact absurd rfl hr
  | stopped h | unstopped h => exact (h ▸ ha : Action.Plain .stop).elim
  | @failed x e _ hc he =>
    have hcommand := (Action.cons_prefix_commands hc).1
    refine ⟨s.heed_of_error he ▸ hs.heed ha hx.1 hcommand, ?_⟩
    rintro rfl
    rw [hs.reading_listBreakpoints hx.1 (Action.sent_listBreakpoints hcommand)] at he
    cases he
  | @told x news _ _ xs _ hc hnews hs' hr' =>
    obtain ⟨hcommand, hrest⟩ := Action.cons_prefix_commands hc
    obtain ⟨hzip, hes⟩ := Action.zip_refreshes hrest
    have hfirst := hs.heed ha hx.1 hcommand
    rw [s.heed_of_ok hnews] at hfirst
    have hall := hfirst.heedAll hes (hzip.symm ▸ hx.2)
    rw [hzip, ← hs'] at hall
    refine ⟨by simpa using hall, ?_⟩
    rintro rfl
    obtain rfl : xs = [] := List.map_eq_nil_iff.1 (List.prefix_nil.1 hrest)
    have hlist := Action.sent_listBreakpoints hcommand
    rw [hs.reading_listBreakpoints hx.1 hlist] at hnews
    obtain rfl := Except.ok.inj hnews
    have hkept : k.kept (cs ++ [listCommand]) = k.kept cs := (k.listed cs).1
    rw [hr', List.map_singleton, hlist, hkept]
    rfl

def exchanged (ds : List Deed) : List Exchange := ds.flatMap Deed.exchanges

theorem exchanged_concat (ds : List Deed) (d : Deed) :
    exchanged (ds ++ [d]) = exchanged ds ++ d.exchanges := by simp [exchanged]

theorem History.mirrored {ds : List Deed} (h : History ds s) (hplain : ∀ d ∈ ds, d.action.Plain)
    (hr : ∀ d ∈ ds, d.result ≠ none) (hx : k.Answered [] (exchanged ds)) :
    k.Mirrored ((exchanged ds).map Exchange.sent) s := by
  induction h with
  | begin => exact k.mirrored_nil
  | @act ds d s h hd ih =>
    rw [exchanged_concat, k.answered_append] at hx
    have hs := ih (fun d hd ↦ hplain d (List.mem_append_left _ hd))
      (fun d hd ↦ hr d (List.mem_append_left _ hd)) hx.1
    rw [exchanged_concat, List.map_append]
    exact (Did.mirrored hd hs (hplain d (by simp)) (hr d (by simp)) hx.2).1

theorem Live.plain_run (echo : Echo) (c : Connection) {scenes : List Scene}
    (h : ∀ scene ∈ scenes, scene.action.Plain) :
    ∀ d ∈ ((Live.begin c).run echo scenes).deeds, d.action.Plain := by
  induction scenes using List.reverseRecOn with
  | nil => intro d hd; cases hd
  | append_singleton scenes scene ih =>
    intro d hd
    obtain ⟨e, he, haction, -⟩ := ((Live.begin c).run echo scenes).act_deed echo scene
    rw [Live.run_concat, he] at hd
    obtain hd | hd := List.mem_append.1 hd
    · exact ih (fun scene hs ↦ h scene (List.mem_append_left _ hs)) d hd
    · rw [List.mem_singleton.1 hd, haction]
      exact h scene (by simp)

/-- The breakpoints of the snapshot are those of the interpreter, and a list of them has the lines
of each program in the interpreter's order. -/
theorem mirrored_run (k : Keeper) (echo : Echo) (c : Connection) (scenes : List Scene)
    (hplain : ∀ scene ∈ scenes, scene.action.Plain)
    (hresult : ∀ d ∈ ((Live.begin c).run echo scenes).deeds, d.result ≠ none)
    (hanswered : k.Answered [] (exchanged ((Live.begin c).run echo scenes).deeds)) :
    ∀ ds d, ds ++ [d] <+: ((Live.begin c).run echo scenes).deeds →
      let kept := k.kept ((exchanged (ds ++ [d])).map Exchange.sent)
      d.state.breakpoints = kept.map LineSet.ofList ∧
        (d.action = .listBreakpoints → d.result = some (.ok (.listing kept))) := by
  rintro ds d ⟨rest, hdeeds⟩
  have hhistory := history_run echo c scenes
  have hplain := Live.plain_run echo c hplain
  rw [← hdeeds] at hhistory hplain hresult hanswered
  rw [List.append_assoc, List.singleton_append] at hhistory
  obtain ⟨s, hbefore, hd⟩ := hhistory.exists_before
  simp only [List.mem_append] at hplain hresult
  rw [exchanged, List.flatMap_append, k.answered_append, ← exchanged, exchanged_concat,
    k.answered_append] at hanswered
  obtain ⟨⟨hx, hlast⟩, -⟩ := hanswered
  have hs := hbefore.mirrored (fun e he ↦ hplain e (.inl (.inl he)))
    (fun e he ↦ hresult e (.inl (.inl he))) hx
  have hafter := Did.mirrored hd hs (hplain d (by simp)) (hresult d (by simp)) hlast
  rw [exchanged_concat, List.map_append]
  exact ⟨hafter.1.breakpoints, hafter.2⟩

/-- A program is loaded and gets two breakpoints, of which one is deleted again. Another one that
is to be deleted has never been there. -/
def twoBreakpoints : List Scene :=
  let replied := Wait.replied "HWhile> "
  [{ action := .load "p" "nil"
     waits := [replied 1 "Program 'p' loaded", replied 2 "", replied 3 ""] },
    { action := .addBreakpoint 3 none
      waits := [replied 4 "Breakpoint set in program p at line 3."] },
    { action := .addBreakpoint 1 none
      waits := [replied 5 "Breakpoint set in program p at line 1."] },
    { action := .listBreakpoints
      waits := [replied 6 "Program 'p', line 3.\nProgram 'p', line 1."] },
    { action := .deleteBreakpoint 3 none
      waits := [replied 7 "Breakpoint removed from program p at line 3."] },
    { action := .deleteBreakpoint 7 (some "q")
      waits := [replied 8 "There is no such breakpoint."] }]

theorem mirrored_run_clerk :
    let deeds := ((Live.greeted "HWhile> ").run .silent twoBreakpoints).deeds
    deeds.length = 6 ∧ ∀ ds d, ds ++ [d] <+: deeds →
      let kept := clerk.kept ((exchanged (ds ++ [d])).map Exchange.sent)
      d.state.breakpoints = kept.map LineSet.ofList ∧
        (d.action = .listBreakpoints → d.result = some (.ok (.listing kept))) := by
  have hanswered : ((Live.greeted "HWhile> ").run .silent twoBreakpoints).deeds.length = 6 ∧
      (∀ d ∈ ((Live.greeted "HWhile> ").run .silent twoBreakpoints).deeds, d.result ≠ none) ∧
      clerk.Answered []
        (exchanged ((Live.greeted "HWhile> ").run .silent twoBreakpoints).deeds) := by
    decide +kernel
  exact ⟨hanswered.1, mirrored_run clerk .silent (Live.greeted "HWhile> ").connection
    twoBreakpoints (by decide +kernel) hanswered.2.1 hanswered.2.2⟩

end Session

end Prompter
