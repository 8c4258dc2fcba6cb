import Mathlib.Data.List.Induction
import Prompter.Proofs.Session.Account

namespace Prompter.Session

def Deed.Follows (d : Deed) (s : State) : Prop := Did s d.action d.result d.state d.exchanges

namespace Live

theorem act_eq {echo : Echo} {w w' : Live} {scene : Scene}
    {r : Option (Except SessionError Value)}
    (h : { (w.happen scene.before).2 with waits := scene.waits, exchanges := [] }.converse
      (perform echo scene.action).run = (r, w')) :
    w.act echo scene = { w' with
      deeds := w'.deeds ++ [⟨scene.action, w'.exchanges, r, w'.state⟩] } := by
  simp only [act, h]

theorem act_deed (echo : Echo) (w : Live) (scene : Scene) :
    ∃ d, (w.act echo scene).deeds = w.deeds ++ [d] ∧ d.action = scene.action ∧
      d.state = (w.act echo scene).state ∧ d.Follows w.state := by
  have h := converse_always
    (w := { (w.happen scene.before).2 with waits := scene.waits, exchanges := [] })
    (perform_did echo w.state scene.action)
  refine ⟨⟨scene.action, _, _, _⟩, ?_, rfl, rfl, h.1⟩
  exact congrArg (· ++ _) h.2

end Live

/-- The operations since the session began, and the snapshot that they have left. -/
inductive History : List Deed → State → Prop
  | begin : History [] {}
  | act {ds : List Deed} {d : Deed} {s : State} (h : History ds s) (hd : d.Follows s) :
    History (ds ++ [d]) d.state

theorem Live.run_concat (echo : Echo) (w : Live) (scenes : List Scene) (scene : Scene) :
    w.run echo (scenes ++ [scene]) = (w.run echo scenes).act echo scene :=
  List.foldl_append

theorem history_run (echo : Echo) (c : Connection) (scenes : List Scene) :
    History ((Live.begin c).run echo scenes).deeds ((Live.begin c).run echo scenes).state := by
  induction scenes using List.reverseRecOn with
  | nil => exact .begin
  | append_singleton scenes scene ih =>
    obtain ⟨d, hd, -, hs, hf⟩ := ((Live.begin c).run echo scenes).act_deed echo scene
    rw [Live.run_concat, hd, ← hs]
    exact ih.act hf

theorem History.exists_before {ds es : List Deed} {d : Deed} {s : State}
    (h : History (ds ++ d :: es) s) : ∃ t, History ds t ∧ d.Follows t := by
  induction es using List.reverseRecOn generalizing s with
  | nil =>
    generalize hds : ds ++ [d] = all at h
    cases h with
    | begin => simp at hds
    | act h hd =>
      obtain ⟨rfl, hd'⟩ := List.append_inj' hds rfl
      obtain rfl := List.head_eq_of_cons_eq hd'
      exact ⟨_, h, hd⟩
  | append_singleton es e ih =>
    generalize hds : ds ++ d :: (es ++ [e]) = all at h
    cases h with
    | begin => simp at hds
    | act h hd =>
      rw [← List.cons_append, ← List.append_assoc] at hds
      exact ih ((List.append_inj' hds rfl).1 ▸ h)

theorem History.follows_of_mem {ds : List Deed} {d : Deed} {s : State} (h : History ds s)
    (hd : d ∈ ds) : ∃ t, d.Follows t := by
  obtain ⟨before, after, rfl⟩ := List.append_of_mem hd
  obtain ⟨t, -, ht⟩ := h.exists_before
  exact ⟨t, ht⟩

def told (es : List (Action × Exchange)) : List News :=
  es.filterMap fun e ↦ (e.1.reading e.2).toOption

theorem mem_told {es : List (Action × Exchange)} {news : News} :
    news ∈ told es ↔ ∃ e ∈ es, e.1.reading e.2 = .ok news := by
  refine List.mem_filterMap.trans (exists_congr fun e ↦ and_congr_right fun _ ↦ ?_)
  cases e.1.reading e.2 <;> simp [Except.toOption]

theorem told_cons {a : Action} {x : Exchange} {news : News} (es : List (Action × Exchange))
    (h : a.reading x = .ok news) : told ((a, x) :: es) = news :: told es := by
  simp [told, h, Except.toOption]

theorem mem_told_refreshes {a : Action} {xs : List Exchange} {news : News}
    (h : news ∈ told (a.refreshes.zip xs)) :
    (∃ l, news = .listing l) ∨ ∃ b, news = .bindings b := by
  obtain ⟨e, he, hnews⟩ := mem_told.1 h
  exact Action.reading_of_mem (List.of_mem_zip he).1 hnews

namespace Deed

def stopped (d : Deed) : Bool :=
  match d.action, d.result with
  | .stop, some (.ok _) => true
  | _, _ => false

def loaded? (d : Deed) : Option Text :=
  match d.action, d.exchanges with
  | .load _ _, x :: _ => (x.answer.bind (Reply.decodeLoad x.command)).toOption
  | _, _ => none

def news (d : Deed) : List News := told ((d.action :: d.action.refreshes).zip d.exchanges)

theorem stopped_of_ne {d : Deed} (h : d.action ≠ .stop) : d.stopped = false := by
  unfold stopped
  split
  next ha _ => exact absurd ha h
  next => rfl

end Deed

theorem ne_stop_of_sent {a : Action} {s : State} {x : Exchange} {xs : List Exchange}
    (h : (x :: xs).map Exchange.command <+: a.commands s) : a ≠ .stop := by
  rintro rfl
  cases List.prefix_nil.1 h

theorem heedAll_eq (s : State) (es : List (Action × Exchange)) :
    s.heedAll es = (told es).foldl State.after s := by
  induction es generalizing s with
  | nil => rfl
  | cons e es ih =>
    rw [State.heedAll, List.foldl_cons, ← State.heedAll, ih, State.heed]
    cases h : e.1.reading e.2 with
    | error e' => simp [told, h, Except.toOption]
    | ok news => rw [told_cons es h, List.foldl_cons]

namespace Deed

variable {d : Deed} {s : State} {x : Exchange} {xs : List Exchange} {news : News}

theorem news_nil (h : d.exchanges = []) : d.news = [] := by
  rw [Deed.news, h]
  rfl

theorem news_error {e : SessionError} (h : d.exchanges = [x]) (hx : d.action.reading x = .error e) :
    d.news = [] := by
  simp [Deed.news, told, h, hx, Except.toOption]

theorem news_cons (h : d.exchanges = x :: xs) (hx : d.action.reading x = .ok news) :
    d.news = news :: told (d.action.refreshes.zip xs) := by
  rw [Deed.news, h, List.zip_cons_cons, told_cons _ hx]

theorem mem_news (h : news ∈ d.news) :
    (∃ x xs, d.exchanges = x :: xs ∧ d.action.reading x = .ok news) ∨
      (∃ l, news = .listing l) ∨ ∃ b, news = .bindings b := by
  rw [Deed.news] at h
  cases hxs : d.exchanges with
  | nil =>
    rw [hxs] at h
    cases h
  | cons x xs =>
    obtain ⟨e, he, hnews⟩ := mem_told.1 h
    rw [hxs, List.zip_cons_cons, List.mem_cons] at he
    obtain rfl | he := he
    · exact .inl ⟨x, xs, rfl, hnews⟩
    · exact .inr (mem_told_refreshes (mem_told.2 ⟨e, he, hnews⟩))

theorem Follows.state_eq (h : d.Follows s) :
    d.state = if d.stopped then {} else d.news.foldl State.after s := by
  obtain ⟨a, xs, r, s'⟩ := d
  replace h : Did s a r s' xs := h
  cases h with
  | refused message h => simp [stopped, news_nil]
  | unanswered h => simp [stopped, news_nil]
  | failed h hc hx =>
    rw [stopped_of_ne (ne_stop_of_sent hc), news_error rfl hx]
    rfl
  | told h hc hx hs hr =>
    rw [stopped_of_ne (ne_stop_of_sent hc), news_cons rfl hx, hs, heedAll_eq]
    rfl
  | stopped h =>
    subst h
    rfl
  | unstopped h => simp [stopped, news_nil]

end Deed

def sinceStop (ds : List Deed) : List Deed :=
  ds.foldl (fun since d ↦ if d.stopped then [] else since ++ [d]) []

def heard (ds : List Deed) : List News := (sinceStop ds).flatMap Deed.news

theorem sinceStop_append (ds : List Deed) {es : List Deed} (h : ∀ d ∈ es, d.stopped = false) :
    sinceStop (ds ++ es) = sinceStop ds ++ es := by
  induction es using List.reverseRecOn with
  | nil => simp
  | append_singleton es d ih =>
    rw [← List.append_assoc, sinceStop, List.foldl_append, ← sinceStop,
      ih fun e he ↦ h e (List.mem_append_left _ he)]
    simp [h d (by simp)]

theorem heard_concat (ds : List Deed) (d : Deed) :
    heard (ds ++ [d]) = if d.stopped then [] else heard ds ++ d.news := by
  rw [heard, sinceStop, List.foldl_append, ← sinceStop]
  simp only [List.foldl_cons, List.foldl_nil]
  split
  · rfl
  · simp [heard]

theorem History.state_eq {ds : List Deed} {s : State} (h : History ds s) :
    s = (heard ds).foldl State.after {} := by
  induction h with
  | begin => rfl
  | act h hd ih =>
    rw [heard_concat, hd.state_eq, ih]
    -- To stop is to forget what has been heard as well as what was known.
    split
    · rfl
    · rw [List.foldl_append]

end Prompter.Session
