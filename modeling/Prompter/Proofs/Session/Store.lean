import Prompter.Proofs.Session.Attached
import Prompter.Proofs.Session.Reply.Line
import Prompter.Proofs.Session.Soundness
import Prompter.Proofs.Tree.Notation

namespace Prompter

namespace Bindings

variable {b : Bindings}

def value? (b : Bindings) (program name : Text) : Option Tree :=
  (b.get? program).bind (·.get? name)

def assignments (b : Bindings) : List (Text × Text × Tree) :=
  b.entries.flatMap fun e ↦ e.2.entries.map fun x ↦ (e.1, x.1, x.2)

theorem mem_assignments {program name : Text} {value : Tree} :
    (program, name, value) ∈ b.assignments ↔ b.value? program name = some value := by
  simp only [assignments, List.mem_flatMap, List.mem_map, Prod.mk.injEq, value?,
    Option.bind_eq_some_iff]
  constructor
  · rintro ⟨e, he, x, hx, rfl, rfl, rfl⟩
    exact ⟨e.2, Table.mem_entries.1 he, Table.mem_entries.1 hx⟩
  · rintro ⟨t, ht, hv⟩
    exact ⟨(program, t), Table.mem_entries.2 ht, (name, value), Table.mem_entries.2 hv, rfl, rfl,
      rfl⟩

/-- A table without empty entries is determined by the values of its variables. -/
theorem ext_value? {b b' : Bindings} (hb : b.All (· ≠ ∅)) (hb' : b'.All (· ≠ ∅))
    (h : ∀ program name, b.value? program name = b'.value? program name) : b = b' := by
  have hsome {b b' : Bindings} (hb : b.All (· ≠ ∅))
      (h : ∀ program name, b.value? program name = b'.value? program name) {program : Text}
      {t : Table Tree} (ht : b.get? program = some t) : b'.get? program = some t := by
    obtain ⟨name, value, hv⟩ := Table.exists_of_ne_empty (hb program t ht)
    have hvalue : b'.value? program name = some value := by
      rw [← h, value?, ht]
      exact hv
    obtain ⟨t', ht', -⟩ := Option.bind_eq_some_iff.1 hvalue
    have htt : t = t' := Table.ext_get? fun n ↦ by simpa [value?, ht, ht'] using h program n
    rw [htt, ht']
  refine Table.ext_get? fun program ↦ ?_
  cases ht : b.get? program with
  | some t => exact (hsome hb h ht).symm
  | none =>
    cases ht' : b'.get? program with
    | none => rfl
    | some t =>
      have hnone := hsome hb' (fun p n ↦ (h p n).symm) ht'
      rw [ht] at hnone
      cases hnone

/-- Names are words, and a program without variables has no entry. -/
def Named (b : Bindings) : Prop :=
  ∀ e ∈ b.entries, Reply.isWord e.1 ∧ e.2 ≠ ∅ ∧ ∀ x ∈ e.2.entries, Reply.isWord x.1

instance (b : Bindings) : Decidable b.Named := List.decidableBAll _ _

theorem Named.all (h : b.Named) : b.All (· ≠ ∅) :=
  fun _ _ ht ↦ (h _ (Table.mem_entries.2 ht)).2.1

theorem Named.words (h : b.Named) {e : Text × Text × Tree} (he : e ∈ b.assignments) :
    Reply.isWord e.1 ∧ Reply.isWord e.2.1 := by
  obtain ⟨d, hd, he⟩ := List.mem_flatMap.1 he
  obtain ⟨x, hx, rfl⟩ := List.mem_map.1 he
  exact ⟨(h d hd).1, (h d hd).2.2 x hx⟩

end Bindings

namespace Reply

def spelled (e : Text × Text × Tree) : Text := binding e.1 e.2.1 e.2.2.render

theorem value?_insertBinding (b : Bindings) (program name p n : Text) (value : Tree) :
    (insertBinding b program name value).value? p n =
      if p = program ∧ n = name then some value else b.value? p n := by
  simp only [insertBinding, Bindings.value?, Table.get?_insert]
  by_cases hp : p = program
  · subst hp
    by_cases hn : n = name
    · simp [hn, Table.get?_insert]
    · cases hb : b.get? p with
      | none => simp [hn, Table.get?_insert]; rfl
      | some t => simp [hn, Table.get?_insert]
  · simp [hp]

/-- The table that the lines for the variables add up to, one after another. -/
def gathered (es : List (Text × Text × Tree)) : Bindings :=
  es.foldl (fun b e ↦ insertBinding b e.1 e.2.1 e.2.2) ∅

/-- If no two lines contradict each other, each of them counts. -/
theorem value?_gathered {es : List (Text × Text × Tree)}
    (h : ∀ e ∈ es, ∀ e' ∈ es, e.1 = e'.1 → e.2.1 = e'.2.1 → e = e') (p n : Text) (v : Tree) :
    (gathered es).value? p n = some v ↔ (p, n, v) ∈ es := by
  induction es using List.reverseRecOn with
  | nil => simp [gathered, Bindings.value?, show (∅ : Bindings).get? p = none from rfl]
  | append_singleton es e ih =>
    have hes := ih fun e he e' he' ↦ h e (by simp [he]) e' (by simp [he'])
    rw [gathered, List.foldl_append, List.foldl_cons, List.foldl_nil, ← gathered,
      value?_insertBinding, List.mem_append, List.mem_singleton]
    split
    next hkey =>
      constructor
      · rintro hv
        exact .inr (by simp [Prod.ext_iff, hkey, Option.some.inj hv])
      · rintro (hmem | rfl)
        · have he := h (p, n, v) (by simp [hmem]) e (by simp) hkey.1 hkey.2
          rw [← he]
        · rfl
    next hkey =>
      rw [hes]
      refine ⟨.inl, fun hmem ↦ hmem.resolve_right ?_⟩
      rintro rfl
      exact hkey ⟨rfl, rfl⟩

theorem decodeStore_spelled {command : Text} {frame : Frame} {es : List (Text × Text × Tree)}
    (hes : ∀ e ∈ es, isWord e.1 ∧ isWord e.2.1) (hf : frame.replyLines = es.map spelled) :
    decodeStore command frame = .ok (gathered es) := by
  rw [decodeStore, hf, gathered]
  refine foldlM_map (fun b e he ↦ ?_) ∅
  obtain ⟨hp, hn⟩ := hes e he
  have hline : fits command (spelled e) (binding? (spelled e)) =
      .ok (e.1, e.2.1, e.2.2.render) := by
    rw [spelled, binding?_binding hp hn (isWord_render e.2.2)]
    rfl
  have htree : tree e.2.2.render = .ok e.2.2 := by
    rw [tree, Tree.parse_render]
    rfl
  simp only [hline, bind, Except.bind, htree]
  rfl

theorem decodeStore_assignments {command : Text} {frame : Frame} {b : Bindings} (hb : b.Named)
    {es : List (Text × Text × Tree)} (hes : es.Perm b.assignments)
    (hf : frame.replyLines = es.map spelled) : decodeStore command frame = .ok b := by
  have hmem {p n : Text} {v : Tree} : (p, n, v) ∈ es ↔ b.value? p n = some v :=
    hes.mem_iff.trans Bindings.mem_assignments
  have hdecode : decodeStore command frame = .ok (gathered es) :=
    decodeStore_spelled (fun e he ↦ hb.words (hes.mem_iff.1 he)) hf
  rw [hdecode]
  refine congrArg Except.ok (Bindings.ext_value? (decodeStore_all hdecode) hb.all fun p n ↦ ?_)
  refine Option.ext fun v ↦ ?_
  rw [← hmem]
  refine value?_gathered (fun ⟨p, n, v⟩ he ⟨p', n', v'⟩ he' hp hn ↦ ?_) p n v
  obtain rfl : p = p' := hp
  obtain rfl : n = n' := hn
  have hv := (hmem.1 he).symm.trans (hmem.1 he')
  rw [Option.some.inj hv]

end Reply

theorem Respondent.texts_spelled {ls : List Respondent.Line} {es : List (Text × Text × Tree)}
    (h : ls.map Respondent.Line.text = es.map Reply.spelled) :
    Respondent.texts ls = es.map Reply.spelled := by
  have htrim : ls.map (fun l ↦ l.text.trim) = es.map Reply.spelled := by
    have hmap : ls.map (fun l ↦ l.text.trim) = (ls.map Respondent.Line.text).map Text.trim := by
      rw [List.map_map]
      rfl
    rw [hmap, h, List.map_map]
    exact List.map_congr_left fun e _ ↦ Reply.trim_binding (Reply.isWord_render e.2.2)
  rw [Respondent.texts, htrim, List.filter_eq_self]
  intro line hline
  obtain ⟨e, -, rfl⟩ := List.mem_map.1 hline
  simp [Reply.spelled, Reply.binding]

namespace Session.Attached

variable (i : Respondent) (cutting : Cutting) (echo : Echo)

theorem perform_store_eq : ∃ next, (perform echo .store).run = .ask ":store" echo next ∧
    ∀ frame b, Reply.decodeStore ":store" frame = .ok b →
      next (.ok frame) = .look fun s ↦ .become (s.withBindings b) (.done (.ok (.bindings b))) := by
  refine ⟨_, rfl, fun frame b h ↦ ?_⟩
  simp only [Dialogue.bind, ExceptT.bindCont, h]
  rfl

/-- What the interpreter has heard when it has been asked for its store as well. -/
def askedForStore (w : Attached) : Text := w.heard ++ ":store\n"

/-- Where the interpreter replies with its variables, the store that is read is what they are. -/
theorem act_store (errands : List Errand) {b : Bindings} (hb : b.Named)
    {es : List (Text × Text × Tree)} (hes : es.Perm b.assignments)
    (hi : (i.reply ((attach i cutting).run i cutting echo errands).askedForStore).map
      Respondent.Line.text = es.map Reply.spelled)
    (hw : ((attach i cutting).run i cutting echo errands).live.connection.dispatcher.writable) :
    let w := (attach i cutting).run i cutting echo errands
    ∃ d, (w.act i cutting echo { action := .store }).live.deeds = w.live.deeds ++ [d] ∧
      d.result = some (.ok (.bindings b)) ∧ d.state = w.live.state.withBindings b ∧
      (w.act i cutting echo { action := .store }).live.state = d.state := by
  intro w
  obtain ⟨closed, hready⟩ := exists_ready i cutting echo errands
  obtain rfl : closed = none := Option.isNone_iff_eq_none.1 (hready.writable.symm.trans hw)
  let v : Attached := { w with live := { w.live with exchanges := [] } }
  have hv : v.Ready none := hready
  obtain ⟨answer, v', hask, hanswer⟩ := hv.ask i cutting ":store" echo
  obtain ⟨next, hperform, hnext⟩ := perform_store_eq echo
  have htrim : Text.trim ":store" = ":store" := by decide
  have hlines : answer.map Frame.lines = .ok (":store" :: es.map Reply.spelled) := by
    rw [hanswer.answer, expected, htrim, ← Respondent.texts_spelled hi]
    rfl
  obtain ⟨frame, rfl, hframe⟩ := eq_ok_of_map hlines
  have hdecode : Reply.decodeStore ":store" frame = .ok b :=
    Reply.decodeStore_assignments hb hes (congrArg List.tail hframe)
  have hconverse : v.converse i cutting none (perform echo .store).run =
      (some (.ok (.bindings b)),
        { v' with live := { v'.live with state := v'.live.state.withBindings b } }) := by
    rw [hperform, converse_ask hask, Option.elim_some, hnext frame b hdecode]
    rfl
  have hact : w.act i cutting echo { action := .store } = _ := act_eq hconverse
  rw [hact]
  refine ⟨⟨.store, v'.live.exchanges, some (.ok (.bindings b)), v'.live.state.withBindings b⟩, ?_,
    rfl, congrArg (State.withBindings · b) hanswer.state, rfl⟩
  exact congrArg (· ++ [_]) hanswer.deeds

def bytewise : Cutting := fun _ early reply ↦
  { before := []
    writing := []
    after := (Utf8.encode (scrap early ++ reply)).map fun b ↦ [b]
    late := false
    before_le := List.nil_prefix
    whole := by
      have hsingles (l : List UInt8) : (l.map fun b ↦ [b]).flatten = l := by
        induction l with
        | nil => rfl
        | cons b l ih => rw [List.map_cons, List.flatten_cons, ih, List.singleton_append]
      have hnone : Utf8.encode (scrap false) = [] := rfl
      rw [List.nil_append, List.nil_append, hsingles, hnone, List.append_nil] }

/-- A program whose name is not in ASCII. -/
def twoVariables : Bindings := .ofList [("é", .ofList [("X", .node .nil .nil), ("Y", .nil)])]

def storekeeper : Respondent := fun lines ↦
  if lines.getLast? = some ":store" then
    [{ text := "(é) Y = nil", noBreak := by decide, noMarker := by decide +kernel },
      { text := "(é) X = <nil.nil>", carriageReturn := true, noBreak := by decide,
        noMarker := by decide +kernel }]
  else []

theorem act_store_bytewise :
    let w := (attach storekeeper bytewise).act storekeeper bytewise .silent { action := .store }
    ∃ d, w.live.deeds = [d] ∧ d.result = some (.ok (.bindings twoVariables)) ∧
      w.live.state.bindings = twoVariables := by
  obtain ⟨hready, hheard⟩ := ready_attach storekeeper bytewise
  have hasked : (attach storekeeper bytewise).askedForStore = ":store\n" := by
    rw [askedForStore, hheard]
    rfl
  let backwards : List (Text × Text × Tree) :=
    [("é", "Y", .nil), ("é", "X", .node .nil .nil)]
  have hlines : backwards.Perm twoVariables.assignments := by decide +kernel
  obtain ⟨d, hd, hresult, hstate, hw⟩ := act_store storekeeper bytewise .silent []
    (by decide +kernel) hlines (by rw [run, List.foldl_nil, hasked]; decide +kernel)
    hready.writable
  exact ⟨d, hd, hresult, congrArg State.bindings (hw.trans hstate)⟩

end Session.Attached

end Prompter
