import Prompter.Proofs.Session.Reply.Line
import Prompter.Proofs.Session.Soundness

namespace Prompter

/-- Names that can be told apart from the text around them, quoted or not. -/
def Reply.isName (t : Text) : Bool := isWord t && !t.contains '\''

theorem Reply.isName_iff {t : Text} : isName t = true ↔ isWord t = true ∧ '\'' ∉ t := by
  simp [isName]

namespace Listing

open Reply

variable {l l' : Listing} {program : Text} {n : Nat} {ns : List Nat}

def lines (l : Listing) (program : Text) : List Nat := (l.get? program).getD []

/-- A program without lines is left out. -/
def put (l : Listing) (program : Text) (ns : List Nat) : Listing :=
  if ns.isEmpty then l.erase program else l.insert program ns

/-- A line that is there already keeps its place. -/
def add (l : Listing) (program : Text) (n : Nat) : Listing :=
  l.put program (if n ∈ l.lines program then l.lines program else l.lines program ++ [n])

def remove (l : Listing) (program : Text) (n : Nat) : Listing :=
  l.put program ((l.lines program).filter (· ≠ n))

theorem lines_put (l : Listing) (program p : Text) (ns : List Nat) :
    (l.put program ns).lines p = if p = program then ns else l.lines p := by
  unfold put lines
  split
  next hns =>
    rw [Table.get?_erase, List.isEmpty_iff.1 hns]
    split <;> rfl
  next =>
    rw [Table.get?_insert]
    split <;> rfl

theorem insertListed_eq (l : Listing) (program : Text) (n : Nat) :
    insertListed l program n = l.add program n := by
  have hne : (if n ∈ l.lines program then l.lines program else l.lines program ++ [n]) ≠ [] := by
    split
    next hn => exact List.ne_nil_of_mem hn
    next => simp
  rw [add, put, if_neg (hne ∘ List.isEmpty_iff.1)]
  exact congrArg (Table.insert l program) (if_congr List.contains_iff_mem rfl rfl)

theorem all_put (h : l.All (· ≠ [])) (program : Text) (ns : List Nat) :
    (l.put program ns).All (· ≠ []) := by
  unfold put
  split
  next => exact h.erase program
  next hns => exact h.insert (fun hnil ↦ hns (List.isEmpty_iff.2 hnil)) program

theorem get?_eq (hl : l.All (· ≠ [])) (program : Text) :
    l.get? program = if l.lines program = [] then none else some (l.lines program) := by
  unfold lines
  cases hns : l.get? program with
  | none => rfl
  | some ns => exact (if_neg (hl program ns hns)).symm

/-- A listing without empty entries is determined by the lines of its programs. -/
theorem ext_lines (hl : l.All (· ≠ [])) (hl' : l'.All (· ≠ []))
    (h : ∀ program, l.lines program = l'.lines program) : l = l' :=
  Table.ext_get? fun program ↦ by rw [get?_eq hl, get?_eq hl', h]

/-- Every breakpoint can be told in a line of text, and none stands twice. -/
structure Tidy (l : Listing) : Prop where
  all : l.All (· ≠ [])
  nodup (program : Text) : (l.lines program).Nodup
  fits {program : Text} {n : Nat} (h : n ∈ l.lines program) : isName program ∧ n < UInt32.size

theorem tidy_empty : Tidy ∅ where
  all := Table.all_empty
  nodup _ := .nil
  fits h := by cases h

theorem Tidy.put (h : l.Tidy) (hns : ns.Nodup)
    (hfits : ∀ n ∈ ns, isName program ∧ n < UInt32.size) : (l.put program ns).Tidy where
  all := all_put h.all program ns
  nodup p := by
    rw [lines_put]
    split
    · exact hns
    · exact h.nodup p
  fits hn := by
    rw [lines_put] at hn
    split at hn
    next hp => exact hp ▸ hfits _ hn
    next => exact h.fits hn

theorem Tidy.add (h : l.Tidy) (hp : isName program) (hn : n < UInt32.size) :
    (l.add program n).Tidy := by
  unfold Listing.add
  split
  next => exact h.put (h.nodup program) fun _ ↦ h.fits
  next hnot =>
    refine h.put ?_ fun m hm ↦ ?_
    · rw [List.nodup_append_comm]
      exact List.nodup_cons.2 ⟨hnot, h.nodup program⟩
    · obtain hm | hm := List.mem_append.1 hm
      · exact h.fits hm
      · exact List.mem_singleton.1 hm ▸ ⟨hp, hn⟩

theorem Tidy.remove (h : l.Tidy) (program : Text) (n : Nat) : (l.remove program n).Tidy :=
  h.put ((h.nodup program).filter _) fun _ hm ↦ h.fits (List.mem_of_mem_filter hm)

theorem Tidy.remove_of_not_mem (h : l.Tidy) (hn : n ∉ l.lines program) :
    l.remove program n = l := by
  have hfilter : (l.lines program).filter (· ≠ n) = l.lines program :=
    List.filter_eq_self.2 fun m hm ↦ decide_eq_true fun hmn ↦ hn (hmn ▸ hm)
  refine ext_lines (all_put h.all program _) h.all fun p ↦ ?_
  rw [Listing.remove, hfilter, lines_put]
  split
  next hp => rw [hp]
  next => rfl

theorem getD_map (l : Listing) (program : Text) :
    ((l.map LineSet.ofList).get? program).getD ∅ = LineSet.ofList (l.lines program) := by
  rw [Table.get?_map, lines]
  cases l.get? program <;> rfl

theorem map_put (l : Listing) (program : Text) (ns : List Nat) :
    (l.put program ns).map LineSet.ofList =
      Breakpoints.put (l.map LineSet.ofList) program (LineSet.ofList ns) := by
  unfold put Breakpoints.put
  cases ns with
  | nil => exact Table.map_erase _ l program
  | cons n ns =>
    have hne : ¬(LineSet.ofList (n :: ns)).isEmpty := fun h ↦
      LineSet.ofList_ne_empty (List.cons_ne_nil n ns) (LineSet.isEmpty_iff.1 h)
    rw [if_neg hne]
    exact Table.map_insert _ l program (n :: ns)

theorem map_add (l : Listing) (program : Text) (n : Nat) :
    (l.add program n).map LineSet.ofList =
      Breakpoints.edit (l.map LineSet.ofList) true program n := by
  have hlines : LineSet.ofList
      (if n ∈ l.lines program then l.lines program else l.lines program ++ [n]) =
        (LineSet.ofList (l.lines program)).insert n := by
    split
    next hn =>
      refine LineSet.ext_mem fun m ↦ ?_
      rw [LineSet.mem_insert, LineSet.mem_ofList]
      exact ⟨.inr, fun hm ↦ hm.elim (fun hmn ↦ hmn ▸ hn) id⟩
    next => exact LineSet.ofList_concat _ n
  rw [add, map_put, hlines, Breakpoints.edit, getD_map]
  rfl

theorem map_remove (l : Listing) (program : Text) (n : Nat) :
    (l.remove program n).map LineSet.ofList =
      Breakpoints.edit (l.map LineSet.ofList) false program n := by
  have hlines : LineSet.ofList ((l.lines program).filter (· ≠ n)) =
      (LineSet.ofList (l.lines program)).erase n := by
    refine LineSet.ext_mem fun m ↦ ?_
    rw [LineSet.mem_erase, LineSet.mem_ofList, LineSet.mem_ofList, List.mem_filter,
      decide_eq_true_iff]
  rw [remove, map_put, hlines, Breakpoints.edit, getD_map]
  rfl

def linesIn (es : List (Text × Nat)) (program : Text) : List Nat :=
  (es.filter (·.1 = program)).map (·.2)

theorem linesIn_append (es ds : List (Text × Nat)) (program : Text) :
    linesIn (es ++ ds) program = linesIn es program ++ linesIn ds program := by simp [linesIn]

theorem linesIn_concat (es : List (Text × Nat)) (e : Text × Nat) (program : Text) :
    linesIn (es ++ [e]) program = linesIn es program ++ if e.1 = program then [e.2] else [] := by
  rw [linesIn_append]
  by_cases h : e.1 = program <;> simp [linesIn, h]

theorem linesIn_map (p : Text) (ns : List Nat) (program : Text) :
    linesIn (ns.map (p, ·)) program = if p = program then ns else [] := by
  rw [linesIn, List.filter_map, List.map_map]
  by_cases h : p = program <;> simp [h, Function.comp_def]

theorem mem_linesIn {es : List (Text × Nat)} {e : Text × Nat} (h : e ∈ es) : e.2 ∈ linesIn es e.1 :=
  List.mem_map.2 ⟨e, List.mem_filter.2 ⟨h, decide_eq_true rfl⟩, rfl⟩

def gathered (es : List (Text × Nat)) : Listing :=
  es.foldl (fun l e ↦ insertListed l e.1 e.2) ∅

theorem gathered_concat (es : List (Text × Nat)) (e : Text × Nat) :
    gathered (es ++ [e]) = (gathered es).add e.1 e.2 := by
  rw [gathered, List.foldl_append, ← gathered]
  exact insertListed_eq _ e.1 e.2

theorem lines_gathered (es : List (Text × Nat)) (program : Text) :
    (gathered es).lines program = (linesIn es program).eraseDups := by
  induction es using List.reverseRecOn generalizing program with
  | nil => rfl
  | append_singleton es e ih =>
    rw [gathered_concat, add, lines_put, ih, linesIn_concat]
    by_cases hp : program = e.1
    · subst hp
      rw [if_pos rfl, if_pos rfl, List.eraseDups_append]
      by_cases hmem : e.2 ∈ linesIn es e.1
      · rw [if_pos (List.mem_eraseDups.2 hmem)]
        simp [List.removeAll, hmem]
      · rw [if_neg (mt List.mem_eraseDups.1 hmem)]
        simp [List.removeAll, hmem, List.eraseDups_cons]
    · rw [if_neg hp, if_neg (Ne.symm hp), List.append_nil, ih]

theorem eraseDups_of_nodup (h : ns.Nodup) : ns.eraseDups = ns := by
  induction ns with
  | nil => rfl
  | cons n ns ih =>
    obtain ⟨hn, hns⟩ := List.nodup_cons.1 h
    have hne : ∀ m ∈ ns, m ≠ n := fun m hm hmn ↦ hn (hmn ▸ hm)
    have hfilter : ns.filter (fun m ↦ !m == n) = ns :=
      List.filter_eq_self.2 fun m hm ↦ by simp [hne m hm]
    rw [List.eraseDups_cons, hfilter, ih hns]

/-- The lines name all breakpoints of the listing, those of each program in their order. -/
def SpelledBy (l : Listing) (ls : List Text) : Prop :=
  ∃ es, ls = es.map (fun e ↦ breakpoint e.1 e.2) ∧ ∀ program, linesIn es program = l.lines program

def spelled (l : Listing) : List Text := l.entries.flatMap fun e ↦ e.2.map (breakpoint e.1)

theorem linesIn_entries (l : Listing) (program : Text) :
    linesIn (l.entries.flatMap fun e ↦ e.2.map (e.1, ·)) program = l.lines program := by
  obtain ⟨es, hs⟩ := l
  induction es with
  | nil => rfl
  | cons e es ih =>
    obtain ⟨hlt, hes⟩ := List.pairwise_cons.1 hs
    rw [List.flatMap_cons, linesIn_append, linesIn_map, ih hes]
    by_cases he : e.1 = program
    · subst he
      have hnone : es.find? (·.1 = e.1) = none :=
        List.find?_eq_none.2 fun d hd hde ↦
          List.lt_irrefl e.1 (of_decide_eq_true hde ▸ hlt d hd)
      simp [lines, Table.get?, hnone]
    · simp [lines, Table.get?, he]

theorem spelledBy_spelled (l : Listing) : l.SpelledBy l.spelled := by
  refine ⟨l.entries.flatMap fun e ↦ e.2.map (e.1, ·), ?_, l.linesIn_entries⟩
  rw [spelled, List.map_flatMap]
  refine List.flatMap_congr fun e _ ↦ ?_
  rw [List.map_map]
  rfl

theorem decodeBreakpoints_of_spelledBy {command : Text} {frame : Frame} (hl : l.Tidy)
    (h : l.SpelledBy frame.replyLines) : decodeBreakpoints command frame = .ok l := by
  obtain ⟨es, hlines, hes⟩ := h
  have hdecode : decodeBreakpoints command frame = .ok (gathered es) := by
    rw [decodeBreakpoints, hlines, gathered]
    refine foldlM_map (fun l' e he ↦ ?_) ∅
    obtain ⟨hname, hn⟩ := hl.fits (hes e.1 ▸ mem_linesIn he)
    obtain ⟨hword, hquote⟩ := isName_iff.1 hname
    rw [breakpoint?_breakpoint (isWord_iff.1 hword).1 hquote hn]
    rfl
  rw [hdecode]
  refine congrArg Except.ok (ext_lines (decodeBreakpoints_all hdecode) hl.all fun program ↦ ?_)
  rw [lines_gathered, hes, eraseDups_of_nodup (hl.nodup program)]

end Listing

end Prompter
