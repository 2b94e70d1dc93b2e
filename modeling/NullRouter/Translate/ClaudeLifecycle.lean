import NullRouter.Translate.ClaudeBlocks
import NullRouter.Translate.CommandCode

/-!
# Lifecycle of a Claude stream

What reaches a Claude client from a provider through the OpenAI pivot: `translate_response`,
`finalize_upstream` and `finalize_response`, `crates/translate/src/lib.rs:204`. The stream is a
whole message up to the first finish, and nothing is put out at its end for one that has none.
-/

namespace NullRouter.Translate

open NullRouter.Base

/-- What a chunk asks of a Claude stream. -/
inductive ClaudeAsk where
  | reasoning
  | text
  | call (index : Nat) (named : Bool)
  | finish
  deriving DecidableEq

namespace ClaudeAsk

/-- What the content of a choice asks, in the order in which it is served. -/
def ofContent (choice : Json) : List ClaudeAsk :=
  let delta := choice.get "delta"
  (if (extractReasoningText delta).isEmpty then [] else [.reasoning]) ++
    (if (deltaText delta "content").isSome then [.text] else []) ++
    (deltaToolCalls delta).map fun call ↦ .call (indexOf call) (Claude.isNamed call)

/-- What a choice asks: its finish comes last. -/
def ofChoice (choice : Json) : List ClaudeAsk :=
  ofContent choice ++ if (choiceFinish choice).isSome then [.finish] else []

/-- What a chunk asks: nothing without a choice. -/
def ofChunk (chunk : Json) : List ClaudeAsk := (firstChoice chunk).elim [] ofChoice

/-- What asks for nothing more: a tool call that opens no block. -/
def Idle (earlier : List ClaudeAsk) : ClaudeAsk → Prop
  | .call index named => named = true → .call index true ∈ earlier
  | _ => False

/-- Nothing more is asked for after the finish. -/
def Quiet (asks : List ClaudeAsk) : Prop :=
  ¬ Somewhere (fun earlier ask ↦ .finish ∈ earlier ∧ ¬ Idle earlier ask) asks

theorem quiet_concat {asks : List ClaudeAsk} {ask : ClaudeAsk} :
    Quiet (asks ++ [ask]) ↔ Quiet asks ∧ (.finish ∈ asks → Idle asks ask) := by
  rw [Quiet, somewhere_concat, not_or, not_and, not_not, Quiet]

theorem quiet_of_unfinished {asks : List ClaudeAsk} (h : .finish ∉ asks) : Quiet asks := by
  rintro ⟨earlier, ask, later, rfl, hfinish, -⟩
  exact h (List.mem_append_left _ hfinish)

end ClaudeAsk

/-- The blocks a state holds. -/
structure Blocks where
  sent : Bool
  next : Nat
  textStarted : Bool
  textClosed : Bool
  text : Nat
  thinkingStarted : Bool
  thinking : Nat
  calls : List (Nat × ClaudeToolCall)

/-- The part of the state that the translation to Claude alone touches. -/
def StreamState.blocks (s : StreamState) : Blocks :=
  ⟨s.messageStartSent, s.nextBlockIndex, s.textBlockStarted, s.textBlockClosed, s.textBlockIndex,
    s.thinkingBlockStarted, s.thinkingBlockIndex, s.claudeToolCalls⟩

/-- The translation of a provider's events to OpenAI chunks, and the chunks it makes up at the
end. It leaves the blocks of the Claude stream alone. -/
structure Provider where
  step : Json → StreamState → List Json × StreamState
  finalize : StreamState → List Json × StreamState
  step_blocks : ∀ raw s, (step raw s).2.blocks = s.blocks
  finalize_blocks : ∀ s, (finalize s).2.blocks = s.blocks

/-- The OpenAI chunks of one event, on to Claude. -/
def Claude.serve (read : String → Option Json) (write : Json → String) :
    List Json → StreamState → List Json × StreamState
  | [], s => ([], s)
  | chunk :: chunks, s =>
    let translated := Claude.translate read write chunk s
    let rest := serve read write chunks translated.2
    (translated.1 ++ rest.1, rest.2)

namespace CommandCode

variable {s : StreamState}

theorem chunk_blocks (delta : Json) (finishReason : Option String) :
    (chunk delta finishReason s).2.blocks = s.blocks := by
  rw [chunk, chunkMeta]
  cases s.messageId <;> dsimp only <;> split <;> rfl

theorem firstChunk_blocks : (firstChunk s).2.blocks = s.blocks := rfl

theorem identify_blocks (raw : Json) : (identify raw s).blocks = s.blocks := by
  rw [identify]
  split <;> rfl

theorem toolStart_blocks (raw : Json) : (toolStart raw s).2.blocks = s.blocks := by
  simp only [toolStart, chunk_blocks, firstChunk_blocks]
  cases toolId raw with
  | some id =>
    dsimp only
    split <;> rfl
  | none =>
    dsimp only
    split <;> rfl

theorem wholeToolCall_blocks (write : Json → String) (raw : Json) :
    (wholeToolCall write raw s).2.blocks = s.blocks := by
  unfold wholeToolCall
  split
  · rfl
  · split
    · rfl
    · simp only [chunk_blocks, firstChunk_blocks]
      rfl

theorem finish_blocks (raw : Json) : (finish raw s).2.blocks = s.blocks := by
  have hchunk := chunk_blocks (s := s) (Json.object [])
    (some (s.finishReason.getD (mappedFinish raw)))
  unfold finish
  dsimp only
  split
  · exact hchunk
  · exact hchunk

theorem dispatch_blocks (write : Json → String) (event : String) (raw : Json) :
    (dispatch write event raw s).2.blocks = s.blocks := by
  unfold dispatch
  split_ifs
  · simp only [textDelta]
    split <;> simp only [chunk_blocks, firstChunk_blocks]
  · simp only [reasoning]
    split <;> simp only [chunk_blocks, firstChunk_blocks]
  · exact toolStart_blocks raw
  · simp only [toolDelta]
    split <;> simp only [chunk_blocks]
  · exact wholeToolCall_blocks write raw
  · rfl
  · exact finish_blocks raw
  · simp only [errorEvent, chunk_blocks]
    rfl
  · rfl

/-- No event touches the blocks of the Claude stream. -/
theorem translate_blocks (write : Json → String) (raw : Json) :
    (translate write raw s).2.blocks = s.blocks := by
  unfold translate
  split
  · rfl
  · split
    · rfl
    · exact (dispatch_blocks write _ raw).trans (identify_blocks raw)

end CommandCode

namespace Provider

variable (p : Provider) (read : String → Option Json) (write : Json → String)

/-- The events a Claude client receives: of the provider's events in turn, then of its end;
`finalize_response` has nothing for Claude. -/
def stream : List Json → StreamState → List Json
  | [], s =>
    let last := p.finalize s
    (Claude.serve read write last.1 last.2).1
  | raw :: raws, s =>
    let pivot := p.step raw s
    let served := Claude.serve read write pivot.1 pivot.2
    served.1 ++ stream raws served.2

/-- The OpenAI chunks on the way. -/
def pivot : List Json → StreamState → List Json
  | [], s => (p.finalize s).1
  | raw :: raws, s =>
    let pivoted := p.step raw s
    pivoted.1 ++ pivot raws (Claude.serve read write pivoted.1 pivoted.2).2

/-- A provider that speaks the pivot's own format. -/
def openAi : Provider where
  step raw s := ([raw], s)
  finalize s := ([], s)
  step_blocks _ _ := rfl
  finalize_blocks _ := rfl

/-- CommandCode. -/
def commandCode : Provider where
  step := CommandCode.translate write
  finalize s := ([], s)
  step_blocks _ _ := CommandCode.translate_blocks write _
  finalize_blocks _ := rfl

end Provider

/-- How far a stream got by what has been asked of it. -/
inductive Served (asks : List ClaudeAsk) (events : List Json) (s : StreamState) : Prop
  | unstarted (hasks : asks = []) (hevents : events = []) (hsent : s.messageStartSent = false)
      (hopen : openBlocks s = []) (htext : s.textBlockStarted = false)
      (hcalls : s.claudeToolCalls = [])
  | begun (log : List (Nat × Act)) (hunfinished : .finish ∉ asks)
      (hsent : s.messageStartSent = true)
      (hshapes : events.map shapeOf = some .start :: blockShapes log) (hsound : Sound s log)
      (hcalls : ∀ i, Claude.hasCall s.claudeToolCalls i = true ↔ .call i true ∈ asks)
  | done (whole rest : List Json) (hfinished : .finish ∈ asks) (hsent : s.messageStartSent = true)
      (hevents : events = whole ++ rest) (hwhole : WellFormed whole)
      (hrest : rest = [] ↔ ClaudeAsk.Quiet asks)
      (hcalls : ∀ i, Claude.hasCall s.claudeToolCalls i = true ↔ .call i true ∈ asks)

namespace Served

variable {asks : List ClaudeAsk} {ask : ClaudeAsk} {e e' : ClaudeOut} {earlier : List Json}

/-- An ask other than the finish. -/
theorem serve (h : Served asks (earlier ++ e.out) e.state)
    (hstarted : e.state.messageStartSent = true) (hask : ask ≠ .finish) (hputs : Puts e e')
    (hcalls : ∀ i, Claude.hasCall e'.state.claudeToolCalls i = true ↔
      Claude.hasCall e.state.claudeToolCalls i = true ∨ .call i true = ask)
    (hidle : (∀ i, Claude.hasCall e.state.claudeToolCalls i = true ↔ .call i true ∈ asks) →
      (ClaudeAsk.Idle asks ask → e'.out = e.out) ∧ (¬ ClaudeAsk.Idle asks ask → Claude.Adds e e')) :
    Served (asks ++ [ask]) (earlier ++ e'.out) e'.state := by
  cases h with
  | unstarted _ _ hsent =>
    rw [hstarted] at hsent
    cases hsent
  | begun log hunfinished hsent hshapes hsound hheld =>
    obtain ⟨blocks, hout, hsound'⟩ := hputs.sound log hsound
    refine .begun (log ++ blocks) (by simpa using ⟨hunfinished, hask.symm⟩)
      (hputs.sent.trans hsent) ?_ hsound' ?_
    · rw [List.map_append, hout, ← List.append_assoc, ← List.map_append, hshapes,
        blockShapes_append, List.cons_append]
    · intro i
      rw [hcalls, hheld, List.mem_append, List.mem_singleton]
  | done whole rest hfinished hsent hevents hwhole hrest hheld =>
    obtain ⟨more, hmore⟩ := hputs.grows
    refine .done whole (rest ++ more) (List.mem_append_left _ hfinished)
      (hputs.sent.trans hsent) ?_ hwhole ?_ ?_
    · rw [← hmore, ← List.append_assoc, hevents, List.append_assoc]
    · rw [List.append_eq_nil_iff, hrest, ClaudeAsk.quiet_concat]
      refine and_congr_right fun _ ↦ ?_
      obtain ⟨hsame, hadds⟩ := hidle hheld
      have hnil : more = [] ↔ e'.out = e.out := by
        rw [← hmore, List.append_right_eq_self]
      rw [hnil]
      refine ⟨fun hout _ ↦ ?_, fun hi ↦ hsame (hi hfinished)⟩
      by_contra hbusy
      obtain ⟨last, hlast, hgrown⟩ := hadds hbusy
      rw [hout, List.self_eq_append_right] at hgrown
      exact hlast hgrown
    · intro i
      rw [hcalls, hheld, List.mem_append, List.mem_singleton]

theorem reasoning (h : Served asks (earlier ++ e.out) e.state)
    (hstarted : e.state.messageStartSent = true) (text : String) :
    Served (asks ++ [.reasoning]) (earlier ++ (Claude.emitThinking text e).out)
      (Claude.emitThinking text e).state :=
  h.serve hstarted (by simp) (Claude.emitThinking_puts text) (by simp) fun _ ↦
    ⟨fun hidle ↦ hidle.elim, fun _ ↦ Claude.emitThinking_adds text⟩

theorem text (h : Served asks (earlier ++ e.out) e.state)
    (hstarted : e.state.messageStartSent = true) (text : String) :
    Served (asks ++ [.text]) (earlier ++ (Claude.emitText text e).out)
      (Claude.emitText text e).state :=
  h.serve hstarted (by simp) (Claude.emitText_puts text) (by simp) fun _ ↦
    ⟨fun hidle ↦ hidle.elim, fun _ ↦ Claude.emitText_adds text⟩

theorem call (h : Served asks (earlier ++ e.out) e.state)
    (hstarted : e.state.messageStartSent = true) (call : Json) :
    Served (asks ++ [.call (indexOf call) (Claude.isNamed call)])
      (earlier ++ (Claude.handleToolCall e call).out) (Claude.handleToolCall e call).state := by
  refine h.serve hstarted (by simp) (Claude.handleToolCall_puts call) ?_ ?_
  · intro i
    rw [Claude.hasCall_handleToolCall, ClaudeAsk.call.injEq, eq_comm (a := true)]
  · intro hheld
    constructor
    · exact fun hidle ↦ Claude.handleToolCall_out call fun hnamed ↦ (hheld _).mpr (hidle hnamed)
    · intro hbusy
      obtain ⟨hnamed, hnew⟩ := Classical.not_imp.mp hbusy
      exact Claude.handleToolCall_adds call hnamed (Bool.eq_false_iff.mpr (mt (hheld _).mp hnew))

theorem calls (h : Served asks (earlier ++ e.out) e.state)
    (hstarted : e.state.messageStartSent = true) (calls : List Json) :
    Served (asks ++ calls.map fun call ↦ .call (indexOf call) (Claude.isNamed call))
      (earlier ++ (calls.foldl Claude.handleToolCall e).out)
      (calls.foldl Claude.handleToolCall e).state := by
  induction calls generalizing e asks with
  | nil => simpa using h
  | cons call calls ih =>
    rw [List.map_cons, List.append_cons, List.foldl_cons]
    exact ih (h.call hstarted call) ((Claude.handleToolCall_puts call).sent.trans hstarted)

/-- The content of a choice. -/
theorem content (h : Served asks (earlier ++ e.out) e.state)
    (hstarted : e.state.messageStartSent = true) (choice : Json) :
    Served (asks ++ ClaudeAsk.ofContent choice) (earlier ++ (Claude.content choice e).out)
        (Claude.content choice e).state ∧
      (Claude.content choice e).state.messageStartSent = true := by
  rw [Claude.content, ClaudeAsk.ofContent, ← List.append_assoc, ← List.append_assoc]
  have hreasoning : ∃ e' : ClaudeOut, e' = (if (extractReasoningText (choice.get "delta")).isEmpty
        then e else Claude.emitThinking (extractReasoningText (choice.get "delta")) e) ∧
      Served (asks ++ if (extractReasoningText (choice.get "delta")).isEmpty then []
        else [.reasoning]) (earlier ++ e'.out) e'.state ∧
      e'.state.messageStartSent = true := by
    split
    · exact ⟨e, rfl, by simpa using h, hstarted⟩
    · exact ⟨_, rfl, h.reasoning hstarted _,
        (Claude.emitThinking_puts _).sent.trans hstarted⟩
  obtain ⟨e', heq, hserved, hstarted'⟩ := hreasoning
  rw [← heq]
  have hsent := fun e ↦ (Claude.handleToolCalls_puts (e := e)
    (deltaToolCalls (choice.get "delta"))).sent
  cases htext : deltaText (choice.get "delta") "content" with
  | none =>
    refine ⟨Served.calls ?_ hstarted' _, (hsent _).trans hstarted'⟩
    simpa using hserved
  | some text =>
    have hstarted'' := (Claude.emitText_puts (e := e') text).sent.trans hstarted'
    exact ⟨(hserved.text hstarted' text).calls hstarted'' _, (hsent _).trans hstarted''⟩

/-- The finish. -/
theorem finish (h : Served asks (earlier ++ e.out) e.state)
    (hstarted : e.state.messageStartSent = true) (read : String → Option Json)
    (write : Json → String) (reason : String) :
    Served (asks ++ [.finish]) (earlier ++ (Claude.handleFinish read write reason e).out)
      (Claude.handleFinish read write reason e).state := by
  have hsent : (Claude.handleFinish read write reason e).state.messageStartSent = true :=
    (Claude.stopThinkingBlock_puts.trans Claude.stopTextBlock_puts).sent.trans hstarted
  cases h with
  | unstarted _ _ hsent =>
    rw [hstarted] at hsent
    cases hsent
  | begun log hunfinished _ hshapes hsound hheld =>
    obtain ⟨blocks, next, hout, hturn⟩ := Claude.handleFinish_shapes read write reason hsound
    refine .done _ [] (by simp) hsent (List.append_nil _).symm ⟨log ++ blocks, ?_, ?_, ?_⟩ ?_ ?_
    · rw [List.map_append, hout, ← List.append_assoc, ← List.append_assoc, ← List.map_append,
        hshapes, blockShapes_append, List.cons_append]
    · rw [hturn.openings_eq, List.length_range]
    · exact hturn.wellBracketed
    · rw [ClaudeAsk.quiet_concat]
      exact iff_of_true rfl ⟨ClaudeAsk.quiet_of_unfinished hunfinished, fun h ↦
        absurd h hunfinished⟩
    · simpa using hheld
  | done whole rest hfinished _ hevents hwhole hrest hheld =>
    obtain ⟨more, hmore, hout⟩ := Claude.handleFinish_adds (e := e) read write reason
    refine .done whole (rest ++ more) (by simp) hsent ?_ hwhole ?_ (by simpa using hheld)
    · rw [hout, ← List.append_assoc, hevents, List.append_assoc]
    · rw [ClaudeAsk.quiet_concat]
      exact iff_of_false (by simp [hmore]) fun h ↦ h.2 hfinished

section Run

variable {events : List Json} {s s' : StreamState}

/-- Nothing but the blocks matters. -/
theorem congr (h : Served asks events s) (hblocks : s'.blocks = s.blocks) :
    Served asks events s' := by
  simp only [StreamState.blocks, Blocks.mk.injEq] at hblocks
  obtain ⟨hsent, hnext, htext, hclosed, htextIndex, hthinking, hthinkingIndex, hcalls⟩ := hblocks
  have hopen : openBlocks s' = openBlocks s := by
    rw [openBlocks, openBlocks, htext, htextIndex, hthinking, hthinkingIndex, hcalls]
  cases h with
  | unstarted hasks hevents hsent' hopen' htext' hcalls' =>
    exact .unstarted hasks hevents (hsent.trans hsent') (hopen.trans hopen')
      (htext.trans htext') (hcalls.trans hcalls')
  | begun log hunfinished hsent' hshapes hsound hheld =>
    refine .begun log hunfinished (hsent.trans hsent') hshapes ⟨?_, ?_⟩ ?_
    · rw [hnext, hopen]
      exact hsound.inTurn
    · rw [htext, hclosed]
      exact hsound.text
    · rw [hcalls]
      exact hheld
  | done whole rest hfinished hsent' hevents hwhole hrest hheld =>
    exact .done whole rest hfinished (hsent.trans hsent') hevents hwhole hrest
      (by rw [hcalls]; exact hheld)

/-- The first choice starts the message. -/
theorem start (h : Served asks events s) (chunk : Json) :
    Served asks (events ++ (Claude.emitMessageStart chunk ⟨s, []⟩).out)
        (Claude.emitMessageStart chunk ⟨s, []⟩).state ∧
      (Claude.emitMessageStart chunk ⟨s, []⟩).state.messageStartSent = true := by
  cases h with
  | unstarted hasks hevents hsent hopen htext hcalls =>
    obtain ⟨hshapes, hstarted, hsound⟩ := Claude.emitMessageStart_shapes
      (e := ⟨s, []⟩) chunk hsent hopen htext
    refine ⟨.begun [] (by simp [hasks]) hstarted ?_ hsound ?_, hstarted⟩
    · rw [hevents, List.nil_append, hshapes]
      rfl
    · intro i
      rw [Claude.emitMessageStart_calls, hcalls, hasks]
      simp [Claude.hasCall]
  | begun log hunfinished hsent hshapes hsound hheld =>
    rw [Claude.emitMessageStart_of_sent hsent, List.append_nil]
    exact ⟨.begun log hunfinished hsent hshapes hsound hheld, hsent⟩
  | done whole rest hfinished hsent hevents hwhole hrest hheld =>
    rw [Claude.emitMessageStart_of_sent hsent, List.append_nil]
    exact ⟨.done whole rest hfinished hsent hevents hwhole hrest hheld, hsent⟩

variable (read : String → Option Json) (write : Json → String)

/-- One chunk of the pivot. -/
theorem translate (h : Served asks events s) (chunk : Json) :
    Served (asks ++ ClaudeAsk.ofChunk chunk)
      (events ++ (Claude.translate read write chunk s).1)
      (Claude.translate read write chunk s).2 := by
  rw [Claude.translate, ClaudeAsk.ofChunk]
  cases hchoice : firstChoice chunk with
  | none => simpa using h
  | some choice =>
    have husage : (Claude.captureUsage chunk s).blocks = s.blocks := by
      rw [Claude.captureUsage]
      split <;> rfl
    obtain ⟨hstart, hstarted⟩ := (h.congr husage).start chunk
    obtain ⟨hcontent, hstarted⟩ := hstart.content hstarted choice
    simp only [Option.elim, ClaudeAsk.ofChoice, ← List.append_assoc]
    cases hfinish : choiceFinish choice with
    | none => simpa using hcontent
    | some reason => exact hcontent.finish hstarted read write reason

/-- The chunks of one event of the provider. -/
theorem chunks (h : Served asks events s) (chunks : List Json) :
    Served (asks ++ chunks.flatMap ClaudeAsk.ofChunk)
      (events ++ (Claude.serve read write chunks s).1) (Claude.serve read write chunks s).2 := by
  induction chunks generalizing asks events s with
  | nil => simpa [Claude.serve] using h
  | cons chunk chunks ih =>
    rw [List.flatMap_cons, Claude.serve, ← List.append_assoc, ← List.append_assoc]
    exact ih (h.translate read write chunk)

/-- The whole of a provider's stream. -/
theorem stream (p : Provider) (h : Served asks events s) (raws : List Json) :
    ∃ s', Served (asks ++ (p.pivot read write raws s).flatMap ClaudeAsk.ofChunk)
      (events ++ p.stream read write raws s) s' := by
  induction raws generalizing asks events s with
  | nil => exact ⟨_, (h.congr (p.finalize_blocks s)).chunks read write _⟩
  | cons raw raws ih =>
    rw [Provider.pivot, List.flatMap_append, Provider.stream, ← List.append_assoc,
      ← List.append_assoc]
    exact ih ((h.congr (p.step_blocks raw s)).chunks read write _)

end Run

end Served

/-- A whole message has nothing after it. -/
theorem WellFormed.eq_nil_of_append {whole rest : List Json} (h : WellFormed whole)
    (h' : WellFormed (whole ++ rest)) : rest = [] := by
  obtain ⟨blocks, hshapes, -, -⟩ := h
  obtain ⟨blocks', hshapes', -, -⟩ := h'
  by_contra hrest
  have hstop : some Shape.stop ∈ ((whole ++ rest).map shapeOf).dropLast := by
    rw [List.map_append, List.dropLast_append_of_ne_nil (by simpa using hrest), hshapes]
    simp
  rw [hshapes', List.dropLast_append_of_ne_nil (by simp)] at hstop
  simp [blockShapes] at hstop

/-- A stream that begins and does not end is no whole message. -/
theorem not_wellFormed_of_blocks {events : List Json} {log : List (Nat × Act)}
    (h : events.map shapeOf = some .start :: blockShapes log) : ¬ WellFormed events := by
  rintro ⟨blocks, hshapes, -, -⟩
  have hstop : some Shape.stop ∈ events.map shapeOf := by
    rw [hshapes]
    simp
  rw [h] at hstop
  simp [blockShapes] at hstop

section Stream

variable (p : Provider) (read : String → Option Json) (write : Json → String)
  (raws : List Json) (clock : Nat → Nat)

/-- What is asked of the Claude stream along a run. -/
def Provider.asks (s : StreamState) : List ClaudeAsk :=
  (p.pivot read write raws s).flatMap ClaudeAsk.ofChunk

private theorem served_stream : ∃ s', Served (p.asks read write raws { clock })
    (p.stream read write raws { clock }) s' := by
  have hnew : Served [] [] ({ clock } : StreamState) := .unstarted rfl rfl rfl rfl rfl rfl
  exact hnew.stream read write p raws

end Stream
end NullRouter.Translate
