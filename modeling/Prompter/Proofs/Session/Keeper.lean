import Prompter.Proofs.Session.Reply.Listing
import Prompter.Proofs.Text.Trim

namespace Prompter

open Reply

def listCommand : Text := ":break"

def editVerb (added : Bool) : Text := if added then ":break " else ":delbreak "

def editCommand (added : Bool) (n : Nat) (program : Text) : Text :=
  editVerb added ++ Text.decimal n ++ " " ++ program

/-- A line as it can be sent that has nothing to do with breakpoints. -/
structure Unconcerned (line : Text) : Prop where
  trim : line.trim = line
  noBreak : '\n' ∉ line
  notSet : ¬listCommand <+: line
  notDelete : ¬(":delbreak" : Text) <+: line

instance (line : Text) : Decidable (Unconcerned line) :=
  decidable_of_iff (line.trim = line ∧ '\n' ∉ line ∧ ¬listCommand <+: line ∧
      ¬(":delbreak" : Text) <+: line)
    ⟨fun h ↦ ⟨h.1, h.2.1, h.2.2.1, h.2.2.2⟩, fun h ↦ ⟨h.trim, h.noBreak, h.notSet, h.notDelete⟩⟩

/-- The program that an interpreter speaks of in a line. -/
def Names (line program : Text) : Prop :=
  loaded? line = some program ∨ ∃ n note, position? line = some (program, n, note)

/-- An interpreter that keeps the lines of each program at which it pauses, in the order in which
they have been set. What it does depends on all the lines that it has been sent. -/
structure Keeper where
  /-- The breakpoints after these lines. -/
  kept : List Text → Listing
  /-- The lines of the reply to the last line, as they stand in the frame. -/
  reply : List Text → List Text
  kept_nil : kept [] = ∅
  set (cs : List Text) {program : Text} {n : Nat} (hp : isName program) (hn : n < UInt32.size) :
    kept (cs ++ [editCommand true n program]) = (kept cs).add program n ∧
      (reply (cs ++ [editCommand true n program])).head? = some (edit true program n)
  deleted (cs : List Text) {program : Text} {n : Nat} (hp : isName program)
    (hn : n < UInt32.size) (h : n ∈ (kept cs).lines program) :
    kept (cs ++ [editCommand false n program]) = (kept cs).remove program n ∧
      (reply (cs ++ [editCommand false n program])).head? = some (edit false program n)
  /-- There is nothing to delete, and no breakpoint is said to have been deleted that is there. -/
  denied (cs : List Text) {program : Text} {n : Nat} (hp : isName program)
    (hn : n < UInt32.size) (h : n ∉ (kept cs).lines program) :
    kept (cs ++ [editCommand false n program]) = kept cs ∧
      ∀ line ∈ (reply (cs ++ [editCommand false n program])).head?,
        ∀ p m, edit? false line = some (p, m) → m ∉ (kept cs).lines p
  listed (cs : List Text) : kept (cs ++ [listCommand]) = kept cs ∧
    (kept cs).SpelledBy (reply (cs ++ [listCommand]))
  other (cs : List Text) {command : Text} (h : Unconcerned command) :
    kept (cs ++ [command]) = kept cs ∧
      ∀ line ∈ reply (cs ++ [command]), ∀ program, Names line program → isName program

theorem trim_editCommand (added : Bool) (n : Nat) {program : Text} (hp : isName program) :
    Text.trim (editCommand added n program) = editCommand added n program := by
  have hstart : Text.trimStart (editCommand added n program) = editCommand added n program := by
    cases added <;> exact Text.trimStart_cons (by decide) _
  rw [Text.trim, hstart]
  exact trimEnd_append_word _ (isName_iff.1 hp).1

theorem unconcerned_load {program input : Text} (hp : isName program)
    (hi : '\n' ∉ Text.trim input) :
    Unconcerned (Text.trim (":load " ++ program ++ " " ++ Text.trim input)) := by
  have hsolid : Text.Solid ":load" := ⟨⟨':', by decide⟩, by decide, by decide⟩
  have hcommand : ":load " ++ program ++ " " ++ Text.trim input =
      ":load" ++ (" " ++ program ++ " " ++ Text.trim input) := by
    rw [show (":load " : Text) = ":load" ++ " " by decide]
    simp only [List.append_assoc]
  have hload : (":load" : Text) <+: Text.trim (":load " ++ program ++ " " ++ Text.trim input) := by
    rw [hcommand]
    exact ⟨_, (hsolid.trim_append (a := []) (by decide) _).symm⟩
  refine ⟨Text.trim_trim _, fun h ↦ ?_, fun h ↦ ?_, fun h ↦ ?_⟩
  · have hprogram : '\n' ∉ program := fun h ↦ by
      have hblank := (isWord_iff.1 (isName_iff.1 hp).1).2 '\n' h
      exact absurd hblank (by decide)
    have hmem := Text.mem_of_mem_trim h
    simp [hprogram, hi] at hmem
  · exact (List.prefix_or_prefix_of_prefix h hload).elim (by decide) (by decide)
  · exact (List.prefix_or_prefix_of_prefix h hload).elim (by decide) (by decide)

namespace Clerk

variable {added : Bool} {program : Text} {n : Nat} (l : Listing)

def editCommand? (added : Bool) (command : Text) : Option (Text × Nat) := do
  let (number, rest) := splitFirstWord (← Text.after? (editVerb added) command)
  let n ← lineNumber? number
  let program ← Text.after? " " rest
  return (program, n)

def respond (l : Listing) (command : Text) : Listing × List Text :=
  match editCommand? true command, editCommand? false command with
  | some (program, n), _ => (l.add program n, [edit true program n])
  | none, some (program, n) =>
    if n ∈ l.lines program then (l.remove program n, [edit false program n])
    else (l, ["There is no such breakpoint."])
  | none, none =>
    if command = listCommand then (l, l.spelled)
    else if (":load " : Text) <+: command then (l, [loaded "p"]) else (l, [])

theorem editCommand?_editCommand (hn : n < UInt32.size) :
    editCommand? added (editCommand added n program) = some (program, n) := by
  have hspace : (" " : Text) = [' '] := by decide
  have hsplit := splitFirstWord_append program (show Text.isBlank ' ' = true by decide)
    fun c hc ↦ isBlank_of_mem_decimal (n := n) hc
  rw [← List.singleton_append, ← hspace] at hsplit
  have hcommand : editCommand added n program =
      editVerb added ++ (Text.decimal n ++ (" " ++ program)) := by
    simp only [editCommand, List.append_assoc]
  simp only [editCommand?, hcommand, Text.after?_append, Option.bind_eq_bind, Option.bind_some,
    hsplit, lineNumber?_decimal hn]
  rfl

theorem editCommand?_eq_none {command : Text} (h : ¬editVerb added <+: command) :
    editCommand? added command = none := by
  have hafter : Text.after? (editVerb added) command = none := if_neg (by simpa using h)
  rw [editCommand?, hafter]
  rfl

theorem respond_set (hn : n < UInt32.size) : respond l (editCommand true n program) =
    (l.add program n, [edit true program n]) := by
  rw [respond, editCommand?_editCommand hn]

theorem respond_delete (hn : n < UInt32.size) : respond l (editCommand false n program) =
    if n ∈ l.lines program then (l.remove program n, [edit false program n])
    else (l, ["There is no such breakpoint."]) := by
  have hverb : editVerb false <+: editCommand false n program :=
    ⟨Text.decimal n ++ " " ++ program, by simp only [editCommand, List.append_assoc]⟩
  have hnone : editCommand? true (editCommand false n program) = none :=
    editCommand?_eq_none fun h ↦
      (List.prefix_or_prefix_of_prefix h hverb).elim (by decide) (by decide)
  rw [respond, hnone, editCommand?_editCommand hn]

theorem respond_list : respond l listCommand = (l, l.spelled) := by
  rw [respond, editCommand?_eq_none (by decide), editCommand?_eq_none (by decide)]
  rfl

theorem respond_unconcerned {command : Text} (h : Unconcerned command) :
    respond l command =
      if (":load " : Text) <+: command then (l, [loaded "p"]) else (l, []) := by
  have hadd : ¬editVerb true <+: command := fun hc ↦
    h.notSet (List.IsPrefix.trans (by decide) hc)
  have hdelete : ¬editVerb false <+: command := fun hc ↦
    h.notDelete (List.IsPrefix.trans (by decide) hc)
  have hlist : command ≠ listCommand := fun hc ↦ h.notSet (hc ▸ List.prefix_refl _)
  rw [respond, editCommand?_eq_none hadd, editCommand?_eq_none hdelete]
  exact if_neg hlist

def kept (cs : List Text) : Listing := cs.foldl (fun l c ↦ (respond l c).1) ∅

def reply (cs : List Text) : List Text := (respond (kept cs.dropLast) (cs.getLast?.getD [])).2

theorem kept_concat (cs : List Text) (c : Text) :
    kept (cs ++ [c]) = (respond (kept cs) c).1 := List.foldl_append

theorem reply_concat (cs : List Text) (c : Text) :
    reply (cs ++ [c]) = (respond (kept cs) c).2 := by simp [reply]

end Clerk

/-- It keeps the breakpoints of any programs, but loads only one. -/
def clerk : Keeper where
  kept := Clerk.kept
  reply := Clerk.reply
  kept_nil := rfl
  set cs program n hp hn := by
    rw [Clerk.kept_concat, Clerk.reply_concat, Clerk.respond_set _ hn]
    exact ⟨rfl, rfl⟩
  deleted cs program n hp hn h := by
    rw [Clerk.kept_concat, Clerk.reply_concat, Clerk.respond_delete _ hn, if_pos h]
    exact ⟨rfl, rfl⟩
  denied cs program n hp hn h := by
    rw [Clerk.kept_concat, Clerk.reply_concat, Clerk.respond_delete _ hn, if_neg h]
    refine ⟨rfl, fun line hline p m hread ↦ ?_⟩
    have hnone : edit? false "There is no such breakpoint." = none := by decide
    rw [← Option.some.inj hline, hnone] at hread
    cases hread
  listed cs := by
    rw [Clerk.kept_concat, Clerk.reply_concat, Clerk.respond_list]
    exact ⟨rfl, Listing.spelledBy_spelled _⟩
  other cs command h := by
    rw [Clerk.kept_concat, Clerk.reply_concat, Clerk.respond_unconcerned _ h]
    split
    next =>
      refine ⟨rfl, fun line hline program hname ↦ ?_⟩
      obtain rfl := List.mem_singleton.1 hline
      obtain hname | ⟨n, note, hname⟩ := hname
      · have hloaded : loaded? (loaded "p") = some "p" := by decide
        rw [← Option.some.inj (hloaded.symm.trans hname)]
        decide
      · have hposition : position? (loaded "p") = none := by decide
        rw [hposition] at hname
        cases hname
    next => exact ⟨rfl, fun line hline ↦ by cases hline⟩

end Prompter
