import Mathlib.Data.List.Perm.Basic
import Prompter.Proofs.Dispatcher.Outcome

namespace Prompter.Dispatcher

namespace Notice

def registered? : Notice → Option Request
  | .registered r => some r
  | _ => none

def answered? : Notice → Option (Request × Frame)
  | .answered r f => some (r, f)
  | _ => none

def frame? : Notice → Option Frame
  | .answered _ f => some f
  | .unclaimed f => some f
  | _ => none

def rejected? : Notice → Option Request
  | .rejected r => some r
  | _ => none

def resolved? : Notice → Option Request
  | .answered r _ => some r
  | .rejected r => some r
  | .withdrawn r => some r
  | _ => none

def settle (q : List Request) : Notice → List Request
  | .registered r => q ++ [r]
  | .answered .. => q.tail
  | .rejected _ => q.tail
  | .withdrawn _ => q.dropLast
  | _ => q

/-- What a notice says of the queue: a frame or a rejection is for its oldest request, a withdrawal
for its newest, and a frame is dropped where there is none. -/
def Fits (q : List Request) : Notice → Prop
  | .answered r _ => q.head? = some r
  | .rejected r => q.head? = some r
  | .withdrawn r => q.getLast? = some r
  | .unclaimed _ => q = []
  | _ => True

end Notice

def registered (ns : List Notice) : List Request := ns.filterMap Notice.registered?

def answered (ns : List Notice) : List (Request × Frame) := ns.filterMap Notice.answered?

def frames (ns : List Notice) : List Frame := ns.filterMap Notice.frame?

def rejected (ns : List Notice) : List Request := ns.filterMap Notice.rejected?

def resolved (ns : List Notice) : List Request := ns.filterMap Notice.resolved?

def requests (ns : List Notice) : List Request := ⟨0, greeting⟩ :: registered ns

def outstanding (ns : List Notice) : List Request := ns.foldl Notice.settle [⟨0, greeting⟩]

def Fifo : List Request → List Notice → Prop
  | _, [] => True
  | q, n :: ns => n.Fits q ∧ Fifo (n.settle q) ns

section Append

variable (a b : List Notice)

@[simp] theorem registered_append : registered (a ++ b) = registered a ++ registered b :=
  List.filterMap_append
@[simp] theorem answered_append : answered (a ++ b) = answered a ++ answered b :=
  List.filterMap_append
@[simp] theorem frames_append : frames (a ++ b) = frames a ++ frames b :=
  List.filterMap_append
@[simp] theorem rejected_append : rejected (a ++ b) = rejected a ++ rejected b :=
  List.filterMap_append

theorem fifo_append {q : List Request} :
    Fifo q (a ++ b) ↔ Fifo q a ∧ Fifo (a.foldl Notice.settle q) b := by
  induction a generalizing q with
  | nil => simp [Fifo]
  | cons n ns ih => simp only [List.cons_append, Fifo, List.foldl_cons, ih, and_assoc]

end Append

theorem rejected_map (q : List Request) : rejected (q.map .rejected) = q := by
  rw [rejected, List.filterMap_map]
  exact List.filterMap_some

theorem answered_sublist_frames (ns : List Notice) :
    ((answered ns).map Prod.snd).Sublist (frames ns) := by
  induction ns with
  | nil => exact List.nil_sublist _
  | cons n ns ih =>
    cases n with
    | answered r f => exact ih.cons_cons f
    | unclaimed f => exact ih.cons f
    | _ => exact ih

namespace Fifo

variable {q : List Request} {ns : List Notice}

/-- No request is lost and none is settled twice. -/
theorem perm (h : Fifo q ns) :
    (resolved ns ++ ns.foldl Notice.settle q).Perm (q ++ registered ns) := by
  induction ns generalizing q with
  | nil => simp [resolved, registered]
  | cons n ns ih =>
    obtain ⟨hn, hns⟩ := h
    have hp := ih hns
    cases n with
    | registered r =>
      change (resolved ns ++ _).Perm (q ++ ([r] ++ registered ns))
      rw [← List.append_assoc]
      exact hp
    | answered r f =>
      obtain ⟨rest, rfl⟩ := List.head?_eq_some_iff.1 hn
      exact hp.cons r
    | rejected r =>
      obtain ⟨rest, rfl⟩ := List.head?_eq_some_iff.1 hn
      exact hp.cons r
    | withdrawn r =>
      have hq := List.dropLast_append_getLast? r hn
      refine (hp.cons r).trans ?_
      change (r :: (q.dropLast ++ registered ns)).Perm (q ++ registered ns)
      conv_rhs => rw [← hq]
      rw [List.append_assoc]
      exact List.perm_middle.symm
    | _ => exact hp

theorem answered_sublist (h : Fifo q ns) :
    ((answered ns).map Prod.fst).Sublist (q ++ registered ns) := by
  induction ns generalizing q with
  | nil => exact List.nil_sublist _
  | cons n ns ih =>
    obtain ⟨hn, hns⟩ := h
    have hs := ih hns
    cases n with
    | registered r =>
      change ((answered ns).map Prod.fst).Sublist (q ++ ([r] ++ registered ns))
      rw [← List.append_assoc]
      exact hs
    | answered r f =>
      obtain ⟨rest, rfl⟩ := List.head?_eq_some_iff.1 hn
      exact hs.cons_cons r
    | rejected r =>
      obtain ⟨rest, rfl⟩ := List.head?_eq_some_iff.1 hn
      exact hs.cons r
    | withdrawn r => exact hs.trans ((List.dropLast_sublist q).append_right _)
    | _ => exact hs

theorem nil_of_unclaimed {xs ys : List Notice} {f : Frame}
    (h : Fifo q (xs ++ .unclaimed f :: ys)) : xs.foldl Notice.settle q = [] :=
  ((fifo_append xs _).1 h).2.1

end Fifo

theorem frames_handOverAll (d : Dispatcher) (fs : List Frame) :
    frames (d.handOverAll fs).2 = fs := by
  induction fs generalizing d with
  | nil => rfl
  | cons f fs ih =>
    have hf : frames (d.handOver f).2 = [f] := by
      cases h : d.pending with
      | nil => rw [handOver_nil f h]; rfl
      | cons r rest => rw [handOver_cons f h]; rfl
    simp [handOverAll, ih, hf]

theorem mem_handOverAll {d : Dispatcher} {fs : List Frame} {n : Notice}
    (h : n ∈ (d.handOverAll fs).2) : (∃ r f, n = .answered r f) ∨ ∃ f, n = .unclaimed f := by
  have hall : ∀ n ∈ (d.handOverAll fs).2, (∃ r f, n = .answered r f) ∨ ∃ f, n = .unclaimed f := by
    refine handOverAll_induction
      (P := fun ns _ ↦ ∀ n ∈ ns, (∃ r f, n = .answered r f) ∨ ∃ f, n = .unclaimed f)
      (fun ns d f hns ↦ ?_) fs [] d (by simp)
    refine List.forall_mem_append.2 ⟨hns, ?_⟩
    cases hp : d.pending with
    | nil => rw [handOver_nil f hp]; simp
    | cons r rest => rw [handOver_cons f hp]; simp
  exact hall n h

theorem fifo_handOverAll (d : Dispatcher) (fs : List Frame) :
    Fifo d.pending (d.handOverAll fs).2 ∧
      (d.handOverAll fs).2.foldl Notice.settle d.pending = (d.handOverAll fs).1.pending := by
  refine handOverAll_induction
    (P := fun ns d' ↦ Fifo d.pending ns ∧ ns.foldl Notice.settle d.pending = d'.pending)
    (fun ns d' f h ↦ ?_) fs [] d ⟨trivial, rfl⟩
  obtain ⟨hf, he⟩ := h
  rw [fifo_append, List.foldl_append, he]
  cases hp : d'.pending with
  | nil => rw [handOver_nil f hp]; exact ⟨⟨hf, rfl, trivial⟩, hp.symm⟩
  | cons r rest => rw [handOver_cons f hp]; exact ⟨⟨hf, rfl, trivial⟩, rfl⟩

theorem fifo_rejected (q : List Request) :
    Fifo q (q.map .rejected) ∧ (q.map Notice.rejected).foldl Notice.settle q = [] := by
  induction q with
  | nil => exact ⟨trivial, rfl⟩
  | cons r rest ih => exact ⟨⟨rfl, ih.1⟩, ih.2⟩

/-- Every event treats the pending requests as a queue. -/
theorem Outcome.fifo {d d' : Dispatcher} {e : Event} {ns : List Notice}
    (h : Outcome d e d' ns) :
    Fifo d.pending ns ∧ ns.foldl Notice.settle d.pending = d'.pending := by
  cases h with
  | close c => exact ⟨(fifo_rejected _).1, (fifo_rejected _).2.trans (close_pending d c).symm⟩
  | shutdown =>
    exact ⟨(fifo_rejected _).1, (fifo_rejected _).2.trans (close_pending d .stopped).symm⟩
  | writeFailed c message hc hs =>
    cases hl : d.pending.getLast? with
    | none =>
      rw [List.getLast?_eq_none_iff] at hl
      simp [Fifo, Notice.Fits, Notice.settle, hl]
    | some r => simp [Fifo, Notice.Fits, Notice.settle, hl]
  | deliver chunk => exact fifo_handOverAll { d with framer := (d.framer.feed chunk).1 } _
  | resume c result hc hs ha =>
    obtain he | ⟨t, he⟩ := finish_notices d c result
    · rw [he]; exact ⟨⟨trivial, trivial⟩, rfl⟩
    · rw [he]; exact ⟨⟨trivial, trivial, trivial⟩, rfl⟩
  | register c rest hh hq hc hw ho => exact ⟨⟨trivial, trivial⟩, rfl⟩
  | _ => simp [Fifo, Notice.Fits, Notice.settle, Dispatcher.submit, Dispatcher.written]

theorem fifo_run (prompt : Text) (es : List Event) :
    Fifo [⟨0, greeting⟩] ((start prompt).run es).2 ∧
      outstanding ((start prompt).run es).2 = ((start prompt).run es).1.pending := by
  refine run_induction (P := fun _ ns d ↦ Fifo [⟨0, greeting⟩] ns ∧ outstanding ns = d.pending)
    ⟨trivial, rfl⟩ (fun es e h ↦ ?_) es
  obtain ⟨hf, hp⟩ := (step_outcome ((start prompt).run es).1 e).fifo
  rw [← h.2] at hf hp
  refine ⟨(fifo_append ..).2 ⟨h.1, hf⟩, ?_⟩
  rw [← hp, outstanding, outstanding, List.foldl_append]

theorem resolved_run (prompt : Text) (es : List Event) :
    (resolved ((start prompt).run es).2 ++ ((start prompt).run es).1.pending).Perm
      (requests ((start prompt).run es).2) := by
  obtain ⟨hfifo, hpending⟩ := fifo_run prompt es
  exact hpending ▸ hfifo.perm

end Prompter.Dispatcher
