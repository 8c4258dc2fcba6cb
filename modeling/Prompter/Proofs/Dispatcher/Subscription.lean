import Prompter.Proofs.Dispatcher.Publicity
import Prompter.Subscriber

namespace Prompter

def Heard.turn? : Heard → Option Text
  | .turn text => some text
  | .lagged _ => none

namespace Subscriber

def turns (s : Subscriber) : List Text := s.heard.filterMap Heard.turn?

/-- Of what has been offered nothing is lost. -/
structure Current (s : Subscriber) (offered : List Text) : Prop where
  missed : s.missed = 0
  heard : s.heard = s.turns.map .turn
  offered : s.turns ++ s.unread = offered

variable {s : Subscriber} {offered : List Text}

theorem turns_offer (s : Subscriber) (text : Text) : (s.offer text).turns = s.turns := by
  unfold offer
  split <;> rfl

theorem Current.offer (h : s.Current offered) (text : Text)
    (hroom : offered.length < s.turns.length + capacity) :
    (s.offer text).Current (offered ++ [text]) := by
  have hunread : s.unread.length < capacity := by
    rw [← h.offered, List.length_append] at hroom
    exact Nat.lt_of_add_lt_add_left hroom
  rw [Subscriber.offer, if_pos hunread]
  constructor
  case missed => exact h.missed
  case heard => exact h.heard
  case offered => exact (List.append_assoc ..).symm.trans (congrArg (· ++ [text]) h.offered)

theorem Current.read (h : s.Current offered) : s.read.Current offered := by
  rw [Subscriber.read, if_pos h.missed]
  cases hu : s.unread with
  | nil => exact h
  | cons text rest =>
    have hturns : { s with unread := rest, heard := s.heard ++ [Heard.turn text] }.turns =
        s.turns ++ [text] := List.filterMap_append
    constructor
    case missed => exact h.missed
    case heard => rw [hturns, List.map_append, ← h.heard]; rfl
    case offered => rw [hturns, ← h.offered, hu, List.append_assoc]; rfl

theorem turns_notify (s : Subscriber) (n : Dispatcher.Notice) : (s.notify n).turns = s.turns := by
  unfold notify
  split
  next text => exact s.turns_offer text
  next => rfl

theorem turns_foldl_notify (s : Subscriber) (ns : List Dispatcher.Notice) :
    (ns.foldl Subscriber.notify s).turns = s.turns := by
  induction ns generalizing s with
  | nil => rfl
  | cons n ns ih => rw [List.foldl_cons, ih, turns_notify]

theorem Current.notify {ns : List Dispatcher.Notice} (h : s.Current offered)
    (hroom : (offered ++ Dispatcher.published ns).length ≤ s.turns.length + capacity) :
    (ns.foldl Subscriber.notify s).Current (offered ++ Dispatcher.published ns) := by
  induction ns generalizing s offered with
  | nil => rwa [Dispatcher.published, List.filterMap_nil, List.append_nil]
  | cons n ns ih =>
    have hn : (s.notify n).Current (offered ++ n.published?.toList) := by
      cases n with
      | published text =>
        refine h.offer text (Nat.lt_of_lt_of_le ?_ hroom)
        rw [List.length_append]
        exact Nat.lt_add_of_pos_right (Nat.succ_pos _)
      | _ => exact (List.append_nil offered).symm ▸ h
    have hcons : Dispatcher.published (n :: ns) =
        n.published?.toList ++ Dispatcher.published ns := by
      cases n <;> rfl
    rw [hcons, ← List.append_assoc] at hroom ⊢
    exact ih hn ((turns_notify s n).symm ▸ hroom)

end Subscriber

namespace Broadcast

open Dispatcher (PublicTurn Publicity Successive)

def Event.dispatched? : Event → Option Dispatcher.Event
  | .dispatch e => some e
  | .read => none

def dispatched (es : List Event) : List Dispatcher.Event := es.filterMap Event.dispatched?

theorem run_append (b : Broadcast) (es es' : List Event) :
    b.run (es ++ es') =
      (((b.run es).1.run es').1, (b.run es).2 ++ ((b.run es).1.run es').2) := by
  induction es generalizing b with
  | nil => simp [run]
  | cons e rest ih => simp [run, ih]

theorem run_concat (b : Broadcast) (es : List Event) (e : Event) :
    b.run (es ++ [e]) =
      (((b.run es).1.step e).1, (b.run es).2 ++ ((b.run es).1.step e).2) := by
  simp [run_append, run]

theorem dispatcher_run (b : Broadcast) (es : List Event) :
    ((b.run es).1.dispatcher, (b.run es).2) = b.dispatcher.run (dispatched es) := by
  induction es generalizing b with
  | nil => rfl
  | cons e rest ih =>
    obtain ⟨hd, hn⟩ := Prod.mk.inj (ih (b.step e).1)
    cases e with
    | dispatch e =>
      refine Prod.ext hd ?_
      exact congrArg ((b.dispatcher.step e).2 ++ ·) hn
    | read => exact Prod.ext hd hn

/-- There never are more public turns that have not been read than a subscriber has room for. -/
def KeepsUp (prompt : Text) (es : List Event) : Prop :=
  ∀ past, past <+: es →
    (Dispatcher.published ((start prompt).run past).2).length ≤
      ((start prompt).run past).1.subscriber.turns.length + Subscriber.capacity

theorem current_run {prompt : Text} {es : List Event} (h : KeepsUp prompt es) :
    ((start prompt).run es).1.subscriber.Current
      (Dispatcher.published ((start prompt).run es).2) := by
  induction es using List.reverseRecOn with
  | nil => exact ⟨rfl, rfl, rfl⟩
  | append_singleton es e ih =>
    have hbefore := ih fun past hp ↦ h past (hp.trans (List.prefix_append ..))
    have hroom := h _ (List.prefix_refl _)
    rw [run_concat] at hroom ⊢
    rw [Dispatcher.published_append] at hroom ⊢
    cases e with
    | dispatch e =>
      refine hbefore.notify (Nat.le_trans hroom (Nat.le_of_eq ?_))
      exact congrArg (·.length + _) (Subscriber.turns_foldl_notify ..)
    | read =>
      rw [show Dispatcher.published (((start prompt).run es).1.step .read).2 = [] from rfl,
        List.append_nil]
      exact hbefore.read

/-- What a subscriber that keeps up has of the run of `es`, in which `turns` become public. -/
structure Reception (prompt : Text) (es : List Event) (ns : List Dispatcher.Notice)
    (s : Subscriber) (turns : List PublicTurn) : Prop where
  publicity : Publicity prompt (dispatched es) ns turns
  /-- What it has not read is still there for it. -/
  current : s.Current (turns.map PublicTurn.text)
  written : Dispatcher.writes ns =
    ((Dispatcher.start prompt).writers (dispatched es)).map Request.line
  /-- A call ends once. -/
  ended : ((Dispatcher.endings ns).map Call.id).Nodup
  /-- A call that ends in any other way has no turn that is public. -/
  others : ∀ n ∈ ns, ∀ c, n.ended? = some c → n.publicReturn? = none →
    ∀ t ∈ turns, t.call.id ≠ c.id
  /-- Different turns hold different parts of the output. -/
  apart : Successive (turns.map (·.frame.raw)) (Interpreter.heard (dispatched es))

theorem others_of_endings {ns : List Dispatcher.Notice} {turns : List PublicTurn}
    (hended : ((Dispatcher.endings ns).map Call.id).Nodup)
    (hreturned : Dispatcher.publicReturns ns =
      turns.map fun t ↦ (t.call, t.frame.echoed t.call.command)) :
    ∀ n ∈ ns, ∀ c, n.ended? = some c → n.publicReturn? = none →
      ∀ t ∈ turns, t.call.id ≠ c.id := by
  intro n hn c hc hnone t ht hid
  have hmem : (t.call, t.frame.echoed t.call.command) ∈ Dispatcher.publicReturns ns :=
    hreturned ▸ List.mem_map_of_mem ht
  obtain ⟨n', hn', hpublic⟩ := List.mem_filterMap.1 hmem
  have hsame := Dispatcher.eq_of_ended hended hn hn' hc
    (Dispatcher.ended_of_publicReturn hpublic) hid.symm
  rw [← hsame, hnone] at hpublic
  cases hpublic

theorem reception_run (prompt : Text) (es : List Event) (h : KeepsUp prompt es) :
    ∃ turns, Reception prompt es ((start prompt).run es).2
      ((start prompt).run es).1.subscriber turns := by
  have hcurrent := current_run h
  have hn : ((start prompt).run es).2 = ((Dispatcher.start prompt).run (dispatched es)).2 :=
    congrArg Prod.snd (dispatcher_run (start prompt) es)
  rw [hn] at hcurrent ⊢
  obtain ⟨turns, ht⟩ := Dispatcher.publicity_run prompt (dispatched es)
  have hended := Dispatcher.endings_run prompt (dispatched es)
  refine ⟨turns, ?_⟩
  constructor
  case publicity => exact ht
  case current => exact ht.published ▸ hcurrent
  case written => exact (Dispatcher.writers_run prompt (dispatched es)).1
  case ended => exact hended
  case others => exact others_of_endings hended ht.returned
  case apart =>
    rw [← Dispatcher.raw_frames]
    apply Dispatcher.successive_of_sublist
    have hframes := (ht.answered.map Prod.snd).trans (Dispatcher.answered_sublist_frames _)
    simpa only [List.map_map, Function.comp_def] using hframes.map Frame.raw

def threeTurns : List Event :=
  [.dispatch (.deliver "> "), .dispatch (.resume 0), .dispatch (.submit " a " .publish),
    .dispatch (.submit "b" .silent), .dispatch (.submit "c" .publish), .dispatch .takeTurn,
    .dispatch (.written 1), .dispatch (.deliver "x\n> "), .dispatch (.resume 1),
    .dispatch .takeTurn, .dispatch (.written 2), .dispatch (.deliver "y\n> "),
    .dispatch (.resume 2), .read, .dispatch .takeTurn, .dispatch (.written 3),
    .dispatch (.deliver "z\n> "), .dispatch (.resume 3)]

theorem reception_run_threeTurns :
    KeepsUp "> " threeTurns ∧
      ((start "> ").run threeTurns).1.subscriber =
        { unread := ["c\nz\n> "], missed := 0, heard := [.turn "a\nx\n> "] } ∧
      ∃ turns, Reception "> " threeTurns ((start "> ").run threeTurns).2
        ((start "> ").run threeTurns).1.subscriber turns := by
  have h : KeepsUp "> " threeTurns := by
    intro past hpast
    have hall : ∀ past ∈ threeTurns.inits,
        (Dispatcher.published ((start "> ").run past).2).length ≤
          ((start "> ").run past).1.subscriber.turns.length + Subscriber.capacity := by
      decide +kernel
    exact hall past ((List.mem_inits ..).2 hpast)
  exact ⟨h, by decide +kernel, reception_run "> " threeTurns h⟩

end Broadcast

end Prompter
