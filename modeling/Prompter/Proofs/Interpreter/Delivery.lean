import Prompter.Proofs.Dispatcher.Service
import Prompter.Proofs.Interpreter.Respondent
import Prompter.Proofs.Text.Utf8
import Prompter.Session.Live

namespace Prompter

open Text Utf8

/-- The characters that the reads complete, without those that complete none. -/
def Utf8.Decoder.chunks (d : Decoder) (reads : List Bytes) : List Text :=
  (d.run reads).1.filter (!·.isEmpty)

namespace Utf8.Decoder

theorem run_append (d : Decoder) (a b : List Bytes) :
    d.run (a ++ b) = ((d.run a).1 ++ ((d.run a).2.run b).1, ((d.run a).2.run b).2) := by
  induction a generalizing d with
  | nil => rfl
  | cons bytes a ih => simp [run, ih]

theorem chunks_append (d : Decoder) (a b : List Bytes) :
    d.chunks (a ++ b) = d.chunks a ++ (d.run a).2.chunks b := by
  simp [chunks, run_append]

theorem flatten_chunks (d : Decoder) (reads : List Bytes) :
    (d.chunks reads).flatten = (d.run reads).1.flatten :=
  List.flatten_filter_not_isEmpty

end Utf8.Decoder

def Read.all (reads : List Bytes) : List Connection.Event := reads.map fun bs ↦ .read (.bytes bs)

theorem Read.all_cons (bytes : Bytes) (reads : List Bytes) :
    Read.all (bytes :: reads) = .read (.bytes bytes) :: Read.all reads := rfl

theorem Connection.run_reads (dispatcher : Dispatcher) (decoder : Decoder) (reads : List Bytes) :
    ({ dispatcher, decoder } : Connection).run (Read.all reads) =
      ({ dispatcher := (dispatcher.run ((decoder.chunks reads).map .deliver)).1
         decoder := (decoder.run reads).2 },
        (dispatcher.run ((decoder.chunks reads).map .deliver)).2) := by
  induction reads generalizing dispatcher decoder with
  | nil => rfl
  | cons bytes reads ih =>
    have hrun : decoder.run (bytes :: reads) = ((decoder.decode bytes).1 ::
        ((decoder.decode bytes).2.run reads).1, ((decoder.decode bytes).2.run reads).2) := rfl
    cases ht : (decoder.decode bytes).1 with
    | nil =>
      have htake : ({ dispatcher, decoder } : Connection).take (.read (.bytes bytes)) =
          ({ dispatcher, decoder := (decoder.decode bytes).2 }, []) := by
        simp [take, read, ht]
      simp [Read.all_cons, run, htake, ih, Decoder.chunks, hrun, ht]
    | cons x t =>
      have htake : ({ dispatcher, decoder } : Connection).take (.read (.bytes bytes)) =
          ({ dispatcher := (dispatcher.deliver (x :: t)).1, decoder := (decoder.decode bytes).2 },
            (dispatcher.deliver (x :: t)).2) := by
        simp [take, read, ht, step, Dispatcher.step]
      simp [Read.all_cons, run, htake, ih, Decoder.chunks, hrun, ht, Dispatcher.run,
        Dispatcher.step]

/-- The blank at the end of the last prompt, if it is still to be read. -/
def scrap (late : Bool) : Text := if late then [' '] else []

theorem blank_scrap (late : Bool) : Blank (scrap late) ∧ '\n' ∉ scrap late := by
  cases late <;> simp [scrap, Blank, isBlank, blanks]

theorem exists_scrap {late : Bool} {bs : Bytes} (h : bs <+: encode (scrap late)) :
    ∃ a b, scrap late = scrap a ++ scrap b ∧ bs = encode (scrap a) := by
  cases late with
  | false => exact ⟨false, false, rfl, List.prefix_nil.1 h⟩
  | true =>
    obtain rfl | ⟨rest, rfl, hr⟩ := List.prefix_cons_iff.1 (show bs <+: 32 :: [] from h)
    · exact ⟨false, true, rfl, rfl⟩
    · obtain rfl := List.prefix_nil.1 hr
      exact ⟨true, false, rfl, rfl⟩

/-- How output comes in while a call is made: the scrap of the last prompt, which may be read early,
then the reply to the call, which may begin while the line is being written. A scrap of its prompt
may be left. The reads are cut anywhere. -/
structure Cut (early : Bool) (reply : Text) where
  before : List Bytes
  writing : List Bytes
  after : List Bytes
  late : Bool
  before_le : before.flatten <+: encode (scrap early)
  whole : (before ++ (writing ++ after)).flatten ++ encode (scrap late) =
    encode (scrap early ++ reply)

def Cut.events {early : Bool} {reply : Text} (cut : Cut early reply) (id : CallId) :
    List Connection.Event :=
  Read.all cut.before ++ ([.dispatch .takeTurn] ++ (Read.all cut.writing ++
    ([.dispatch (.written id)] ++ (Read.all cut.after ++ [.dispatch (.resume id)]))))

def Cut.reads {early : Bool} {reply : Text} (cut : Cut early reply) : List Connection.Event :=
  Read.all (cut.before ++ (cut.writing ++ cut.after))

abbrev Cutting := CallId → (early : Bool) → (reply : Text) → Cut early reply

theorem Cut.exists_parts {early : Bool} {reply : Text} (cut : Cut early reply) :
    ∃ a b, scrap early = scrap a ++ scrap b ∧ cut.before.flatten = encode (scrap a) ∧
      (cut.writing ++ cut.after).flatten ++ encode (scrap cut.late) =
        encode (scrap b ++ reply) := by
  obtain ⟨a, b, hscrap, hbefore⟩ := exists_scrap cut.before_le
  refine ⟨a, b, hscrap, hbefore, ?_⟩
  have hwhole := cut.whole
  rw [List.flatten_append, hbefore, hscrap, List.append_assoc, List.append_assoc, encode_append]
    at hwhole
  exact List.append_cancel_left hwhole

theorem prompt_scrap (late : Bool) :
    Interpreter.prompt = Interpreter.marker ++ scrap (!late) ++ scrap late := by
  rw [Interpreter.prompt_eq]
  cases late <;> rfl

theorem eq_of_prompt {bs : Bytes} {t : Text} {late : Bool}
    (h : bs ++ encode (scrap late) = encode (t ++ Interpreter.prompt)) :
    bs = encode (t ++ (Interpreter.marker ++ scrap (!late))) := by
  refine List.append_cancel_right (h.trans ?_)
  rw [← encode_append, List.append_assoc, ← prompt_scrap]

namespace Connection

open Dispatcher Session

/-- The events lead from `c` to `c'`; what has been written then is `text`, and `answer` is what the
call has returned. -/
def Goes (id : CallId) (c : Connection) (es : List Event) (c' : Connection) (text : Text)
    (answer : Option (Except SessionError Frame)) : Prop :=
  ∃ ns, c.run es = (c', ns) ∧ sent ns = text ∧ Live.returned? id ns = answer

variable {id : CallId} {c c' c'' : Connection} {es es' : List Event} {t t' : Text}
  {r r' : Option (Except SessionError Frame)}

theorem Goes.trans (h : Goes id c es c' t r) (h' : Goes id c' es' c'' t' r') :
    Goes id c (es ++ es') c'' (t ++ t') (r.or r') := by
  obtain ⟨ns, he, rfl, rfl⟩ := h
  obtain ⟨ns', he', rfl, rfl⟩ := h'
  refine ⟨ns ++ ns', ?_, sent_append ns ns', List.findSome?_append⟩
  rw [run_append, he, he']

section

variable (id) (decoder : Decoder) (reads : List Bytes)

theorem goes_step {dispatcher d : Dispatcher} {e : Dispatcher.Event} {ns : List Notice}
    (h : dispatcher.step e = (d, ns)) :
    Goes id { dispatcher, decoder } [.dispatch e] { dispatcher := d, decoder } (sent ns)
      (Live.returned? id ns) := by
  refine ⟨ns, ?_, rfl, rfl⟩
  simp [run, take, step, h]

theorem goes_reads (dispatcher : Dispatcher) :
    Goes id { dispatcher, decoder } (Read.all reads)
      { dispatcher := ({ dispatcher with
          framer := (dispatcher.framer.run ((decoder.chunks reads).map .chunk)).1 }.handOverAll
            (dispatcher.framer.run ((decoder.chunks reads).map .chunk)).2).1
        decoder := (decoder.run reads).2 } [] none := by
  refine ⟨_, by rw [run_reads, run_deliver], sent_eq_nil fun n hn ↦ ?_,
    List.findSome?_eq_none_iff.2 fun n hn ↦ ?_⟩
  all_goals obtain ⟨r, f, rfl⟩ | ⟨f, rfl⟩ := mem_handOverAll hn <;> rfl

theorem goes_reads_serving (f : Framer) (call : Call) :
    Goes id { dispatcher := serving f call, decoder } (Read.all reads)
      { dispatcher := serving (f.run ((decoder.chunks reads).map .chunk)).1
          (call.heed (f.run ((decoder.chunks reads).map .chunk)).2)
        decoder := (decoder.run reads).2 } [] none := by
  rw [← handOverAll_serving]
  exact goes_reads ..

theorem goes_scrap (dispatcher : Dispatcher) (hf : dispatcher.framer.AllOut) {late : Bool}
    {reads : List Bytes} (hr : reads.flatten = encode (scrap late)) :
    ∃ g : Framer, g.AllOut ∧ Goes id { dispatcher } (Read.all reads)
      { dispatcher := { dispatcher with framer := g } } [] none := by
  obtain ⟨hchunks, hdecoder⟩ := run_encode hr
  obtain ⟨hb, hn⟩ := blank_scrap late
  rw [← hchunks, ← Decoder.flatten_chunks] at hb hn
  obtain ⟨hg, hframes⟩ := hf.run_blank hb hn
  have hgoes := goes_reads id {} reads dispatcher
  rw [hframes, hdecoder] at hgoes
  exact ⟨_, hg, hgoes⟩

end

variable {f : Framer} {c : Call}

/-- The reads of a reply, with the prompt after it, give the call its frame. -/
theorem exists_frame (hf : f.AllOut) (ls : List Respondent.Line) {early late : Bool}
    {reads : List Bytes} (hr : reads.flatten =
      encode (scrap early ++ Respondent.render ls ++ (Interpreter.marker ++ scrap late))) :
    ∃ g frame, f.run ((({} : Decoder).chunks reads).map .chunk) = (g, [frame]) ∧ g.AllOut ∧
      (({} : Decoder).run reads).2 = {} ∧ frame.lines = Respondent.texts ls := by
  obtain ⟨hchunks, hdecoder⟩ := run_encode hr
  obtain ⟨hlead, hleadn⟩ := blank_scrap early
  obtain ⟨hrest, hrestn⟩ := blank_scrap late
  rw [← Decoder.flatten_chunks] at hchunks
  obtain ⟨frame, hframes, hlines, hg⟩ := hf.run_reply hlead hleadn ls hrest hrestn hchunks
  exact ⟨_, frame, Prod.ext rfl hframes, hg, hdecoder, hlines⟩

theorem sent_wrote (text : Text) : sent [.wrote text] = text := by
  simp [sent, Notice.wrote?]

theorem returned?_returned (c : Call) (r : Except SessionError Frame) :
    Live.returned? c.id [.returned c r] = some r := by
  simp [Live.returned?]

theorem goes_resume {result : Except SessionError Frame} (hs : c.stage = .waiting)
    (ha : c.answer = some result) :
    Goes c.id { dispatcher := serving f c } [.dispatch (.resume c.id)]
      { dispatcher := resting f none (c.id + 1) } [] (some result) := by
  have hstep := goes_step c.id {} (resume_serving (f := f) hs ha)
  obtain he | ⟨text, he⟩ := finish_notices (serving f c) c result
  · rwa [he, returned?_returned] at hstep
  · rw [he] at hstep
    exact returned?_returned c result ▸ hstep

/-- The reply may begin to come in while the line is being written. -/
theorem goes_reply (hf : f.AllOut) (hs : c.stage = .writing) (ha : c.answer = none)
    (ls : List Respondent.Line) {early late : Bool} {writing after : List Bytes}
    (hr : (writing ++ after).flatten =
      encode (scrap early ++ Respondent.render ls ++ (Interpreter.marker ++ scrap late))) :
    ∃ (g : Framer) (frame : Frame), g.AllOut ∧ frame.lines = Respondent.texts ls ∧
      Goes c.id { dispatcher := serving f c }
        (Read.all writing ++ ([.dispatch (.written c.id)] ++ (Read.all after ++
          [.dispatch (.resume c.id)])))
        { dispatcher := resting g none (c.id + 1) } (c.command ++ ['\n'])
        (some (.ok (frame.echoed c.command))) := by
  obtain ⟨g, frame, hrun, hg, hdecoder, hlines⟩ := exists_frame hf ls hr
  rw [Decoder.chunks_append, List.map_append, Framer.run_append, Prod.mk.injEq] at hrun
  rw [Decoder.run_append] at hdecoder
  generalize hfirst : f.run ((({} : Decoder).chunks writing).map .chunk) = first at hrun
  obtain ⟨f', frames⟩ := first
  let decoder := (({} : Decoder).run writing).2
  have hwriting := goes_reads_serving c.id {} writing f c
  rw [hfirst] at hwriting
  have hwritten := goes_step c.id decoder (written_serving (f := f') (c := c.heed frames) hs)
  have hafter := goes_reads_serving c.id decoder after f'
    { c.heed frames with stage := .waiting }
  rw [Call.heed_append, hrun.1, hrun.2, hdecoder] at hafter
  have hanswer : (c.heed [frame]).answer = some (.ok (frame.echoed c.command)) := by
    simp [Call.heed, ha]
  have hresume := goes_resume (f := g) (c := { c.heed [frame] with stage := .waiting }) rfl
    hanswer
  have hgoes := hwriting.trans (hwritten.trans (hafter.trans hresume))
  simp only [List.nil_append, List.append_nil, sent_wrote] at hgoes
  exact ⟨g, frame, hg, hlines, hgoes⟩

theorem goes_greeting (ls : List Respondent.Line)
    (cut : Cut false (Respondent.render ls ++ Interpreter.prompt)) :
    ∃ (g : Framer) (frame : Frame), g.AllOut ∧ Goes 0 { dispatcher := start Interpreter.prompt }
      (cut.reads ++ [.dispatch (.resume 0)]) { dispatcher := resting g none 1 } []
      (some (.ok (frame.echoed greeting))) := by
  have hwhole := cut.whole
  rw [← List.append_assoc (scrap false)] at hwhole
  obtain ⟨g, frame, hrun, hg, hdecoder, -⟩ := exists_frame Framer.allOut_ofPrompt ls
    (eq_of_prompt hwhole)
  have hreads := goes_reads_serving 0 {} (cut.before ++ (cut.writing ++ cut.after))
    (.ofPrompt Interpreter.prompt) ⟨0, greeting, .silent, .waiting, none⟩
  rw [hrun, hdecoder] at hreads
  exact ⟨g, frame, hg, hreads.trans (goes_resume rfl rfl)⟩

theorem run_shutdown (f : Framer) (closed : Option Text) (n : CallId) :
    ({ dispatcher := resting f closed n } : Connection).run
        [.dispatch .shutdown, .dispatch .takeTurn] =
      ({ dispatcher := resting f (closed <|> some Closing.stopped.reason) n }, [.shutDown]) := by
  cases closed <;> rfl

variable {n : CallId} {reason : Text} (hf : f.AllOut) (command : Text) (echo : Echo) {early : Bool}
  {reply : Text}

include hf

theorem goes_call (hn : n ≠ 0) {ls : List Respondent.Line}
    (hr : reply = Respondent.render ls ++ Interpreter.prompt) (cut : Cut early reply) :
    ∃ (g : Framer) (frame : Frame), g.AllOut ∧ frame.lines = Respondent.texts ls ∧
      Goes n { dispatcher := resting f none n } (.dispatch (.submit command echo) :: cut.events n)
        { dispatcher := resting g none (n + 1) } (command.trim ++ ['\n'])
        (some (.ok (frame.echoed command.trim))) := by
  subst hr
  let call : Call := ⟨n, command.trim, echo, .queued, none⟩
  obtain ⟨a, b, -, hbefore, hrest⟩ := cut.exists_parts
  rw [← List.append_assoc (scrap b)] at hrest
  have hsubmit := goes_step n {} (submit_resting f none n command echo)
  obtain ⟨f', hf', hscrap⟩ := goes_scrap n (calling f none call) hf hbefore
  have hturn := goes_step n {} (takeTurn_open (f := f') (c := call) hn rfl)
  rw [hf'.beginTurn] at hturn
  obtain ⟨g, frame, hg, hlines, hreply⟩ := goes_reply (c := { call with stage := .writing })
    hf' rfl rfl _ (eq_of_prompt hrest)
  exact ⟨g, frame, hg, hlines, hsubmit.trans (hscrap.trans (hturn.trans hreply))⟩

/-- Once the line has been given up nothing is written, and nothing but a scrap comes in. -/
theorem goes_call_closed (hr : reply = []) (cut : Cut early reply) :
    ∃ g : Framer, g.AllOut ∧ Goes n { dispatcher := resting f (some reason) n }
      (.dispatch (.submit command echo) :: cut.events n)
      { dispatcher := resting g (some reason) (n + 1) } [] (some (.error gone)) := by
  subst hr
  let call : Call := ⟨n, command.trim, echo, .queued, none⟩
  obtain ⟨a, b, -, hbefore, hrest⟩ := cut.exists_parts
  rw [List.flatten_append, List.append_nil, List.append_assoc] at hrest
  obtain ⟨a', b', hb, hwriting⟩ := exists_scrap ⟨_, hrest⟩
  rw [hwriting, hb, encode_append] at hrest
  obtain ⟨a'', -, -, hafter⟩ := exists_scrap ⟨_, List.append_cancel_left hrest⟩
  have hsubmit := goes_step n {} (submit_resting f (some reason) n command echo)
  obtain ⟨f₁, hf₁, hscrap₁⟩ := goes_scrap n (calling f (some reason) call) hf hbefore
  have hturn := goes_step call.id {} (takeTurn_closed f₁ reason call)
  rw [returned?_returned] at hturn
  obtain ⟨f₂, hf₂, hscrap₂⟩ := goes_scrap n (resting f₁ (some reason) (n + 1)) hf₁ hwriting
  have hwritten := goes_step n {}
    (show (resting f₂ (some reason) (n + 1)).step (.written n) = _ from rfl)
  obtain ⟨g, hg, hscrap₃⟩ := goes_scrap n (resting f₂ (some reason) (n + 1)) hf₂ hafter
  have hresume := goes_step n {}
    (show (resting g (some reason) (n + 1)).step (.resume n) = _ from rfl)
  exact ⟨g, hg, hsubmit.trans (hscrap₁.trans (hturn.trans (hscrap₂.trans (hwritten.trans
    (hscrap₃.trans hresume)))))⟩

end Connection

end Prompter
