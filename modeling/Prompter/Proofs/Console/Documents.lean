import Prompter.Proofs.Console.Results
import Prompter.Proofs.Json

namespace Prompter.Console

open Session (Live)
open Text (splitLines)
open Utf8 (encode)

variable {r : Result} {rs : List Result} {out : Text}

def successes (rs : List Result) : List Message := rs.filterMap (·.outcome.toOption)

/-- The output is a line for each message, with a document that says it and has no controls. -/
def OneDocumentEach (ms : List Message) (out : Text) : Prop :=
  ∃ documents : List Text, out = documents.flatMap line ∧
    List.Forall₂ (fun t m ↦ Json.Says t (Message.json m) ∧ Json.Visible t) documents ms

def documents (ms : List Message) : Text := ms.flatMap fun m ↦ line m.json.render

theorem oneDocumentEach_documents (ms : List Message) : OneDocumentEach ms (documents ms) := by
  refine ⟨ms.map fun m ↦ m.json.render, by rw [documents, List.flatMap_map], ?_⟩
  rw [List.forall₂_map_left_iff, List.forall₂_same]
  exact fun m _ ↦ ⟨Json.says_render m.json, Json.visible_render m.json⟩

theorem successes_cons (r : Result) (rs : List Result) :
    successes (r :: rs) = successes [r] ++ successes rs := by
  rw [← List.singleton_append, successes, List.filterMap_append, successes, successes]

theorem documents_successes_cons (r : Result) (rs : List Result) :
    documents (successes (r :: rs)) = documents (successes [r]) ++ documents (successes rs) := by
  rw [successes_cons, documents, List.flatMap_append, documents, documents]

theorem written_json (r : Result) :
    (r.written .json).out = preface r.command ++ documents (successes [r]) := by
  obtain ⟨c, reason | m⟩ := r
  · exact (List.append_nil _).symm
  · have hone : documents (successes [⟨c, .ok m⟩]) = line m.json.render := List.append_nil _
    rw [hone]
    rfl

theorem out_cons (r : Result) (rs : List Result) : (transcript .json (r :: rs)).out =
    preface r.command ++ documents (successes [r]) ++ (transcript .json rs).out :=
  congrArg (· ++ (transcript .json rs).out) (written_json r)

theorem preface_of_ne {c : Command} (hc : c ≠ .help) : preface c = [] := by
  cases c with
  | help => exact absurd rfl hc
  | _ => rfl

theorem out_of_help_not_mem (h : .help ∉ rs.map Result.command) :
    (transcript .json rs).out = documents (successes rs) := by
  induction rs with
  | nil => rfl
  | cons r rs ih =>
    rw [List.map_cons, List.mem_cons, not_or] at h
    rw [out_cons, preface_of_ne (Ne.symm h.1), List.nil_append, ih h.2,
      documents_successes_cons r rs]

theorem count_line {t : Text} (h : Json.Visible t) : (line t).count '\n' = 1 := by
  rw [line, List.count_append, List.count_eq_zero.2 (Json.lineFeed_not_mem h)]
  rfl

theorem OneDocumentEach.count {ms : List Message} (h : OneDocumentEach ms out) :
    out.count '\n' = ms.length := by
  obtain ⟨texts, rfl, h⟩ := h
  induction h with
  | nil => rfl
  | cons hm _ ih =>
    rw [List.flatMap_cons, List.count_append, count_line hm.2, ih, List.length_cons, Nat.add_comm]

theorem count_helpText_pos : 0 < helpText.count '\n' :=
  List.count_pos_iff.2 <|
    List.mem_flatMap.2 ⟨_, List.mem_cons_self, List.mem_append_right _ List.mem_cons_self⟩

theorem count_preface (c : Command) :
    (preface c).count '\n' = helpText.count '\n' * [c].count .help := by
  by_cases hc : c = .help
  · rw [hc, List.count_singleton_self, Nat.mul_one]
    rfl
  · rw [preface_of_ne hc, List.count_nil, List.count_singleton, if_neg (by simpa using hc),
      Nat.mul_zero]

theorem count_out (rs : List Result) : (transcript .json rs).out.count '\n' =
    (successes rs).length + helpText.count '\n' * (rs.map Result.command).count .help := by
  induction rs with
  | nil =>
    rw [List.map_nil, List.count_nil, Nat.mul_zero]
    rfl
  | cons r rs ih =>
    have hcommands : ((r :: rs).map Result.command).count .help =
        [r.command].count .help + (rs.map Result.command).count .help := by
      rw [← List.count_append, List.singleton_append, List.map_cons]
    rw [out_cons, List.count_append, List.count_append, ih, count_preface,
      (oneDocumentEach_documents _).count, successes_cons r rs, List.length_append, hcommands,
      Nat.mul_add]
    omega

/-- What the console has written once it has performed the commands, if it has come to an end with
them. -/
structure Written (echo : Echo) (w : Live) (cs : List Command) (results : Option (List Result))
    (w' : Live) : Prop where
  attempted : w.converse (attemptAll echo cs) = (results, w')
  performed : w.converse (performAll echo .json cs) = (results.map (transcript .json), w')
  commands : ∀ rs ∈ results, rs.map Result.command = cs
  documents_iff : ∀ rs ∈ results,
    OneDocumentEach (successes rs) (transcript .json rs).out ↔ .help ∉ cs

theorem oneDocumentEach_iff : OneDocumentEach (successes rs) (transcript .json rs).out ↔
    .help ∉ rs.map Result.command := by
  refine ⟨fun hdocuments ↦ ?_, fun hhelp ↦ ?_⟩
  · have hlines := hdocuments.count
    rw [count_out, Nat.add_eq_left, Nat.mul_eq_zero] at hlines
    exact List.count_eq_zero.1 (hlines.resolve_left count_helpText_pos.ne')
  · rw [out_of_help_not_mem hhelp]
    exact oneDocumentEach_documents (successes rs)

/-- This is so after each number of commands, also if a later one comes to no end. -/
theorem out_documents_iff (echo : Echo) (w : Live) (script : Text) (n : Nat) :
    let cs := commands (splitLines script)
    run echo .json (inputs (encode script)) = performAll echo .json cs ∧
      performAll echo .json cs =
        followed (performAll echo .json (cs.take n)) (performAll echo .json (cs.drop n)) ∧
      ∃ results w', Written echo w (cs.take n) results w' := by
  intro cs
  have hquit : .quit ∉ cs.take n :=
    fun hmem ↦ quit_not_mem_commands (splitLines script) (List.mem_of_mem_take hmem)
  refine ⟨run_script echo .json script, ?_, _, _, rfl,
    converse_performAll echo .json w hquit, fun rs hrs ↦ converse_attemptAll echo hrs,
    fun rs hrs ↦ ?_⟩
  · rw [← performAll_append, List.take_append_drop]
  · rw [oneDocumentEach_iff, converse_attemptAll echo hrs]

/-- One command that succeeds and one that fails. -/
theorem out_documents_iff_mixed :
    let cs : List Command := [.state, .invalid ":break x"]
    let rs : List Result := [⟨.state, .ok (.state {})⟩,
      ⟨.invalid ":break x", .error "コマンド形式が不正です: :break x"⟩]
    (commands (splitLines ":state\n:break x\n")).take 2 = cs ∧
      (∃ w', Written .silent (Live.greeted "> ") cs (some rs) w') ∧ .help ∉ cs ∧
      OneDocumentEach [.state {}] (transcript .json rs).out := by
  intro cs rs
  have hcs : (commands (splitLines ":state\n:break x\n")).take 2 = cs := by decide +kernel
  have hresults : ((Live.greeted "> ").converse (attemptAll .silent cs)).1 = some rs := by
    with_unfolding_all rfl
  obtain ⟨-, -, results, w', h⟩ :=
    out_documents_iff .silent (Live.greeted "> ") ":state\n:break x\n" 2
  rw [hcs] at h
  obtain rfl : results = some rs := by
    rw [← hresults, h.attempted]
  have hhelp : .help ∉ cs := by decide
  exact ⟨hcs, ⟨w', h⟩, hhelp, (h.documents_iff rs rfl).2 hhelp⟩

/-- The interpreter answers the request for help, so that one document is due. -/
theorem help_text_among_documents :
    let w : Live := { Live.greeted "> " with waits := [.replied "> " 1 "Commands:"] }
    ∃ rs, (w.converse (attemptAll .silent (commands (splitLines ":help\n")))).1 = some rs ∧
      (w.converse (run .silent .json (inputs (encode ":help\n")))).1 = some (transcript .json rs) ∧
      (successes rs).length = 1 ∧
      (transcript .json rs).out = helpText ++ documents (successes rs) ∧
      ¬OneDocumentEach (successes rs) (transcript .json rs).out := by
  intro w
  have hanswered : (w.converse (attemptAll .silent (commands (splitLines ":help\n")))).1.map
      (fun rs ↦ (successes rs).length) = some 1 := by decide +kernel
  obtain ⟨rs, hrs, hone⟩ := Option.map_eq_some_iff.1 hanswered
  have hcommands : rs.map Result.command = [.help] :=
    (converse_attemptAll .silent hrs).trans (by decide +kernel)
  refine ⟨rs, hrs, by rw [converse_run, hrs, Option.map_some], hone, ?_, fun h ↦ ?_⟩
  · obtain ⟨r, rfl, hr⟩ := List.map_eq_singleton_iff.1 hcommands
    rw [out_cons, hr]
    exact List.append_nil _
  · have hhelp := oneDocumentEach_iff.1 h
    rw [hcommands] at hhelp
    exact hhelp List.mem_cons_self

end Prompter.Console
