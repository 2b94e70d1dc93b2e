import NullRouter.Base.Lifecycle
import NullRouter.Translate.Claude

/-!
# Blocks of a Claude stream

What a Claude event is to a client, read from the event, and what each function of
`openai_to_claude.rs` does to the content blocks.
-/

namespace NullRouter.Translate

open NullRouter.Base

/-- What an event is to a client. -/
inductive Shape where
  | start
  | block (index : Nat) (act : Act)
  | delta
  | stop
  deriving DecidableEq

/-- The shape of an event, where it has one: a block event names its block, and the delta of the
message carries a stop reason. -/
def shapeOf (event : Json) : Option Shape :=
  let block := fun act ↦ ((event.get "index").bind Json.asU64).map (Shape.block · act)
  match event.strField "type" with
  | none => none
  | some type =>
    if type = "message_start" then some .start
    else if type = "content_block_start" then block .opens
    else if type = "content_block_delta" then block .uses
    else if type = "content_block_stop" then block .closes
    else if type = "message_delta" then
      ((event.get "delta").bind (·.strField "stop_reason")).map fun _ ↦ .delta
    else if type = "message_stop" then some .stop
    else none

/-- The shapes of block events. -/
def blockShapes (blocks : List (Nat × Act)) : List (Option Shape) :=
  blocks.map fun b ↦ some (.block b.1 b.2)

/-- A stream that a client takes for a whole message: it starts, opens blocks 0, 1, 2 and so on,
each used and closed in turn, and ends with a stop reason and a stop. -/
def WellFormed (events : List Json) : Prop :=
  ∃ blocks, events.map shapeOf = some .start :: blockShapes blocks ++ [some .delta, some .stop] ∧
    openings blocks = List.range (openings blocks).length ∧ WellBracketed blocks

/-- The beginning of such a stream, or nothing. -/
def WellBegun (events : List Json) : Prop :=
  events = [] ∨ ∃ blocks, events.map shapeOf = some .start :: blockShapes blocks ∧
    openings blocks = List.range (openings blocks).length ∧ ∀ i, phaseAt i blocks ≠ .broken

@[simp] theorem blockShapes_append (blocks more : List (Nat × Act)) :
    blockShapes (blocks ++ more) = blockShapes blocks ++ blockShapes more := List.map_append ..

@[simp] theorem shapeOf_blockStart (index : Nat) (block : Json) :
    shapeOf (Claude.blockStart index block) = some (.block index .opens) := by
  simp [shapeOf, Claude.blockStart, Json.strField, Json.get_object, Json.asStr, Json.nat,
    Json.asU64, List.lookup_cons]

@[simp] theorem shapeOf_blockDelta (index : Nat) (delta : Json) :
    shapeOf (Claude.blockDelta index delta) = some (.block index .uses) := by
  simp [shapeOf, Claude.blockDelta, Json.strField, Json.get_object, Json.asStr, Json.nat,
    Json.asU64, List.lookup_cons]

@[simp] theorem shapeOf_blockStop (index : Nat) :
    shapeOf (Claude.blockStop index) = some (.block index .closes) := by
  simp [shapeOf, Claude.blockStop, Json.strField, Json.get_object, Json.asStr, Json.nat,
    Json.asU64, List.lookup_cons]

/-- The blocks that are open: of the thinking, of the text and of the tool calls. -/
def openBlocks (s : StreamState) : List Nat :=
  (if s.thinkingBlockStarted then [s.thinkingBlockIndex] else []) ++
    (if s.textBlockStarted then [s.textBlockIndex] else []) ++
    s.claudeToolCalls.map (·.2.blockIndex)

/-- The state keeps the blocks of a log. -/
structure Sound (s : StreamState) (log : List (Nat × Act)) : Prop where
  inTurn : InTurn s.nextBlockIndex (openBlocks s) log
  text : s.textBlockStarted = true → s.textBlockClosed = false

/-- One output comes from another by block events that the state keeps. -/
structure Puts (e e' : ClaudeOut) : Prop where
  grows : e.out <+: e'.out
  sent : e'.state.messageStartSent = e.state.messageStartSent
  sound : ∀ log, Sound e.state log → ∃ blocks,
    e'.out.map shapeOf = e.out.map shapeOf ++ blockShapes blocks ∧ Sound e'.state (log ++ blocks)

namespace Puts

variable {e e' e'' : ClaudeOut}

theorem refl (e : ClaudeOut) : Puts e e :=
  ⟨List.prefix_refl _, rfl, fun log h ↦ ⟨[], by simp [blockShapes], by simpa using h⟩⟩

theorem trans (h : Puts e e') (h' : Puts e' e'') : Puts e e'' := by
  refine ⟨h.grows.trans h'.grows, h'.sent.trans h.sent, ?_⟩
  intro log hlog
  obtain ⟨blocks, hout, hsound⟩ := h.sound log hlog
  obtain ⟨more, hout', hsound'⟩ := h'.sound _ hsound
  refine ⟨blocks ++ more, ?_, ?_⟩
  · rw [hout', hout, blockShapes_append, List.append_assoc]
  · rwa [← List.append_assoc]

/-- What is kept beside the blocks may change. -/
theorem of_state (hout : e'.out = e.out)
    (hsent : e'.state.messageStartSent = e.state.messageStartSent)
    (hnext : e'.state.nextBlockIndex = e.state.nextBlockIndex)
    (hopen : openBlocks e'.state = openBlocks e.state)
    (htext : e'.state.textBlockStarted = e.state.textBlockStarted)
    (hclosed : e'.state.textBlockClosed = e.state.textBlockClosed) : Puts e e' := by
  refine ⟨hout ▸ List.prefix_refl _, hsent, ?_⟩
  rintro log ⟨hturn, hsane⟩
  refine ⟨[], by simp [hout, blockShapes], ?_, ?_⟩
  · rw [hnext, hopen, List.append_nil]
    exact hturn
  · rw [htext, hclosed]
    exact hsane

end Puts

namespace Claude

variable {e : ClaudeOut}

theorem stopThinkingBlock_puts : Puts e (stopThinkingBlock e) := by
  unfold stopThinkingBlock
  split
  · exact .refl e
  · next hstarted =>
    refine ⟨List.prefix_append .., rfl, ?_⟩
    intro log h
    refine ⟨[(e.state.thinkingBlockIndex, .closes)], by simp [blockShapes], h.inTurn.closes ?_,
      h.text⟩
    have hlive : e.state.thinkingBlockStarted = true := by simpa using hstarted
    simp [openBlocks, hlive]

theorem stopTextBlock_puts : Puts e (stopTextBlock e) := by
  unfold stopTextBlock
  split
  · exact .refl e
  · next hstarted =>
    refine ⟨List.prefix_append .., rfl, ?_⟩
    intro log h
    refine ⟨[(e.state.textBlockIndex, .closes)], by simp [blockShapes], h.inTurn.closes ?_, nofun⟩
    have hlive : e.state.textBlockStarted = true := by
      simp only [Bool.or_eq_true, Bool.not_eq_true', not_or, Bool.not_eq_false] at hstarted
      exact hstarted.1
    simp [openBlocks, hlive, List.perm_middle]

theorem startThinkingBlock_puts : Puts e (startThinkingBlock e) := by
  unfold startThinkingBlock
  split
  · exact .refl e
  · next hstarted =>
    refine ⟨List.prefix_append .., rfl, ?_⟩
    intro log h
    refine ⟨[(e.state.nextBlockIndex, .opens)], by simp [blockShapes], h.inTurn.opens ?_, h.text⟩
    simp [openBlocks, hstarted]

theorem startTextBlock_puts : Puts e (startTextBlock e) := by
  unfold startTextBlock
  split
  · exact .refl e
  · next hstarted =>
    refine ⟨List.prefix_append .., rfl, ?_⟩
    intro log h
    refine ⟨[(e.state.nextBlockIndex, .opens)], by simp [blockShapes], h.inTurn.opens ?_,
      fun _ ↦ rfl⟩
    simp [openBlocks, hstarted, List.perm_middle]

theorem stopThinkingBlock_started (e : ClaudeOut) :
    (stopThinkingBlock e).state.thinkingBlockStarted = false := by
  unfold stopThinkingBlock
  split
  · next h => simpa using h
  · rfl

theorem startThinkingBlock_started (e : ClaudeOut) :
    (startThinkingBlock e).state.thinkingBlockStarted = true := by
  unfold startThinkingBlock
  split
  · next h => exact h
  · rfl

theorem startTextBlock_started (e : ClaudeOut) :
    (startTextBlock e).state.textBlockStarted = true := by
  unfold startTextBlock
  split
  · next h => exact h
  · rfl

/-- With a text block that is open, stopping stops it. -/
theorem stopTextBlock_started {log : List (Nat × Act)} (h : Sound e.state log) :
    (stopTextBlock e).state.textBlockStarted = false := by
  unfold stopTextBlock
  split
  · next hstopped =>
    rw [Bool.eq_false_iff]
    intro hstarted
    simp [hstarted, h.text hstarted] at hstopped
  · rfl

/-- An event that carries a part of an open block. -/
theorem delta_puts {index : Nat} (delta : Json) (hopen : index ∈ openBlocks e.state) :
    Puts e { e with out := e.out ++ [blockDelta index delta] } :=
  ⟨List.prefix_append .., rfl, fun _ h ↦
    ⟨[(index, .uses)], by simp [blockShapes], h.inTurn.uses hopen, h.text⟩⟩

theorem emitThinking_puts (reasoning : String) : Puts e (emitThinking reasoning e) := by
  refine (stopTextBlock_puts.trans startThinkingBlock_puts).trans (delta_puts _ ?_)
  simp [openBlocks, startThinkingBlock_started]

theorem emitText_puts (text : String) : Puts e (emitText text e) := by
  refine (stopThinkingBlock_puts.trans startTextBlock_puts).trans (delta_puts _ ?_)
  simp [openBlocks, startTextBlock_started]

theorem openToolBlock_puts (call : Json) (effectiveId : String) :
    Puts e (openToolBlock call effectiveId e) := by
  refine (stopThinkingBlock_puts.trans stopTextBlock_puts).trans ?_
  refine ⟨List.prefix_append .., rfl, ?_⟩
  intro log h
  refine ⟨[((stopTextBlock (stopThinkingBlock e)).state.nextBlockIndex, .opens)],
    by simp [openToolBlock, blockShapes], h.inTurn.opens ?_, h.text⟩
  simp only [openToolBlock, openBlocks]
  refine (List.Perm.append_left _ ((List.perm_orderedInsert _ _ _).map _)).trans ?_
  rw [List.map_cons]
  exact List.perm_middle

theorem nameToolBlock_puts (call : Json) : Puts e (nameToolBlock call e) := by
  unfold nameToolBlock
  dsimp only
  split
  · exact .refl e
  · refine .of_state rfl rfl rfl ?_ rfl rfl
    simp only [openBlocks, List.map_map]
    congr 1
    refine List.map_congr_left fun c _ ↦ ?_
    simp only [Function.comp]
    split <;> rfl

theorem bufferArguments_puts (call : Json) : Puts e (bufferArguments call e) := by
  unfold bufferArguments
  split
  · exact .refl e
  · split
    · exact .of_state rfl rfl rfl rfl rfl rfl
    · exact .refl e

theorem handleToolCall_puts (call : Json) : Puts e (handleToolCall e call) := by
  have hid : Puts e { e with state := (effectiveId call e.state).2 } := by
    rw [effectiveId]
    split
    · exact .of_state rfl rfl rfl rfl rfl rfl
    · exact .refl e
  rw [handleToolCall]
  refine (hid.trans ?_).trans (bufferArguments_puts call)
  split
  · exact openToolBlock_puts ..
  · exact nameToolBlock_puts call

theorem handleToolCalls_puts (calls : List Json) : Puts e (calls.foldl handleToolCall e) := by
  induction calls generalizing e with
  | nil => exact .refl e
  | cons call calls ih => exact (handleToolCall_puts call).trans ih

/-- The finish closes what is open and ends the message. -/
theorem handleFinish_shapes (read : String → Option Json) (write : Json → String) (finish : String)
    {log : List (Nat × Act)} (h : Sound e.state log) : ∃ blocks next,
    (handleFinish read write finish e).out.map shapeOf =
      e.out.map shapeOf ++ blockShapes blocks ++ [some .delta, some .stop] ∧
    InTurn next [] (log ++ blocks) := by
  have hstops := (stopThinkingBlock_puts (e := e)).trans stopTextBlock_puts
  obtain ⟨blocks, hout, hsound⟩ := hstops.sound log h
  have hthinking : (stopTextBlock (stopThinkingBlock e)).state.thinkingBlockStarted = false := by
    have h := stopThinkingBlock_started e
    unfold stopTextBlock
    split <;> exact h
  obtain ⟨log', hsound'⟩ : ∃ log', Sound (stopThinkingBlock e).state log' := by
    obtain ⟨bs, -, hs⟩ := (stopThinkingBlock_puts (e := e)).sound log h
    exact ⟨_, hs⟩
  have htext := stopTextBlock_started hsound'
  set e' := stopTextBlock (stopThinkingBlock e)
  have hcalls : ∀ (calls : List (Nat × ClaudeToolCall)) (log : List (Nat × Act)),
      InTurn e'.state.nextBlockIndex (calls.map (·.2.blockIndex)) log → ∃ blocks,
      (calls.flatMap (finishToolBlock read write e'.state)).map shapeOf = blockShapes blocks ∧
      InTurn e'.state.nextBlockIndex [] (log ++ blocks) := by
    intro calls
    induction calls with
    | nil => exact fun log h ↦ ⟨[], rfl, by simpa using h⟩
    | cons call calls ih =>
      intro log hturn
      rw [List.flatMap_cons, finishToolBlock]
      have hmem : call.2.blockIndex ∈ (call :: calls).map (·.2.blockIndex) := by simp
      split
      · obtain ⟨rest, hrest, hend⟩ := ih _ (hturn.closes (List.Perm.refl _))
        exact ⟨(call.2.blockIndex, .closes) :: rest, by simp [blockShapes, hrest], by simpa using hend⟩
      · obtain ⟨rest, hrest, hend⟩ := ih _ ((hturn.uses hmem).closes (List.Perm.refl _))
        exact ⟨(call.2.blockIndex, .uses) :: (call.2.blockIndex, .closes) :: rest,
          by simp [blockShapes, hrest], by simpa using hend⟩
  obtain ⟨rest, hrest, hend⟩ := hcalls e'.state.claudeToolCalls (log ++ blocks)
    (by simpa [openBlocks, hthinking, htext] using hsound.inTurn)
  refine ⟨blocks ++ rest, _, ?_, by rwa [← List.append_assoc]⟩
  have hdelta : ∀ usage, shapeOf (Json.object [("type", .str "message_delta"),
      ("delta", Json.object [("stop_reason", .str (finishToClaude finish))]),
      ("usage", usage)]) = some .delta := by
    intro usage
    simp [shapeOf, Json.strField, Json.get_object, Json.asStr, List.lookup_cons]
  have hstop : shapeOf (Json.object [("type", .str "message_stop")]) = some .stop := by decide
  rw [handleFinish, List.map_append, List.map_append, hout, hrest, blockShapes_append]
  simp only [List.map_cons, List.map_nil, hdelta, hstop, List.append_assoc]

/-- Finding an id may read the clock. -/
theorem messageId_state (chunk : Json) (s : StreamState) :
    ∃ readings, (messageId chunk s).2 = { s with readings } := by
  rw [messageId]
  dsimp only
  split
  · split
    · exact ⟨s.readings, rfl⟩
    · exact ⟨s.readings + 1, rfl⟩
  · exact ⟨s.readings, rfl⟩

/-- The message starts with no block open. -/
theorem emitMessageStart_shapes (chunk : Json) (hsent : e.state.messageStartSent = false)
    (hopen : openBlocks e.state = []) (htext : e.state.textBlockStarted = false) :
    (emitMessageStart chunk e).out.map shapeOf = e.out.map shapeOf ++ [some .start] ∧
      (emitMessageStart chunk e).state.messageStartSent = true ∧
      Sound (emitMessageStart chunk e).state [] := by
  rw [emitMessageStart, if_neg (by simp [hsent])]
  obtain ⟨readings, hstate⟩ := messageId_state chunk e.state
  generalize messageId chunk e.state = identified at hstate ⊢
  obtain ⟨id, s⟩ := identified
  obtain rfl : s = { e.state with readings } := hstate
  refine ⟨?_, rfl, ?_, ?_⟩
  · simp [shapeOf, Json.strField, Json.get_object, Json.asStr, List.lookup_cons]
  · change InTurn 0 (openBlocks e.state) []
    rw [hopen]
    exact .nil
  · change e.state.textBlockStarted = true → _
    rw [htext]
    intro h
    cases h

/-- A message that has started does not start again. -/
theorem emitMessageStart_of_sent {chunk : Json} (hsent : e.state.messageStartSent = true) :
    emitMessageStart chunk e = e := by
  rw [emitMessageStart, if_pos hsent]

/-- One output holds more than another. -/
def Adds (e e' : ClaudeOut) : Prop := ∃ more, more ≠ [] ∧ e'.out = e.out ++ more

theorem adds_append {e' : ClaudeOut} {out last : List Json} (h : e.out <+: out)
    (hlast : last ≠ []) (hout : e'.out = out ++ last) : Adds e e' := by
  obtain ⟨more, hmore⟩ := h
  exact ⟨more ++ last, by simp [hlast], by rw [hout, ← hmore, List.append_assoc]⟩

theorem emitThinking_adds (reasoning : String) : Adds e (emitThinking reasoning e) :=
  adds_append (stopTextBlock_puts.trans startThinkingBlock_puts).grows (by simp) rfl

theorem emitText_adds (text : String) : Adds e (emitText text e) :=
  adds_append (stopThinkingBlock_puts.trans startTextBlock_puts).grows (by simp) rfl

theorem handleFinish_adds (read : String → Option Json) (write : Json → String)
    (finish : String) : Adds e (handleFinish read write finish e) :=
  adds_append ((stopThinkingBlock_puts.trans stopTextBlock_puts).grows.trans
    (List.prefix_append ..)) (by simp) rfl

theorem openToolBlock_adds (call : Json) (effectiveId : String) :
    Adds e (openToolBlock call effectiveId e) :=
  adds_append (stopThinkingBlock_puts.trans stopTextBlock_puts).grows (by simp) rfl

section Calls

@[simp] theorem stopThinkingBlock_calls :
    (stopThinkingBlock e).state.claudeToolCalls = e.state.claudeToolCalls := by
  unfold stopThinkingBlock
  split <;> rfl

@[simp] theorem stopTextBlock_calls :
    (stopTextBlock e).state.claudeToolCalls = e.state.claudeToolCalls := by
  unfold stopTextBlock
  split <;> rfl

@[simp] theorem startThinkingBlock_calls :
    (startThinkingBlock e).state.claudeToolCalls = e.state.claudeToolCalls := by
  unfold startThinkingBlock
  split <;> rfl

@[simp] theorem startTextBlock_calls :
    (startTextBlock e).state.claudeToolCalls = e.state.claudeToolCalls := by
  unfold startTextBlock
  split <;> rfl

@[simp] theorem emitThinking_calls (reasoning : String) :
    (emitThinking reasoning e).state.claudeToolCalls = e.state.claudeToolCalls :=
  startThinkingBlock_calls.trans stopTextBlock_calls

@[simp] theorem emitText_calls (text : String) :
    (emitText text e).state.claudeToolCalls = e.state.claudeToolCalls :=
  startTextBlock_calls.trans stopThinkingBlock_calls

@[simp] theorem handleFinish_calls (read : String → Option Json) (write : Json → String)
    (finish : String) :
    (handleFinish read write finish e).state.claudeToolCalls = e.state.claudeToolCalls :=
  stopTextBlock_calls.trans stopThinkingBlock_calls

@[simp] theorem emitMessageStart_calls (chunk : Json) :
    (emitMessageStart chunk e).state.claudeToolCalls = e.state.claudeToolCalls := by
  unfold emitMessageStart
  split
  · rfl
  · obtain ⟨readings, hstate⟩ := messageId_state chunk e.state
    have hcalls := congrArg StreamState.claudeToolCalls hstate
    exact hcalls

@[simp] theorem effectiveId_calls (call : Json) (s : StreamState) :
    (effectiveId call s).2.claudeToolCalls = s.claudeToolCalls := by
  rw [effectiveId]
  split <;> rfl

@[simp] theorem bufferArguments_calls (call : Json) :
    (bufferArguments call e).state.claudeToolCalls = e.state.claudeToolCalls := by
  unfold bufferArguments
  split
  · rfl
  · split <;> rfl

@[simp] theorem bufferArguments_out (call : Json) : (bufferArguments call e).out = e.out := by
  unfold bufferArguments
  split
  · rfl
  · split <;> rfl

@[simp] theorem nameToolBlock_out (call : Json) : (nameToolBlock call e).out = e.out := by
  unfold nameToolBlock
  dsimp only
  split <;> rfl

@[simp] theorem hasCall_nameToolBlock (call : Json) (i : Nat) :
    hasCall (nameToolBlock call e).state.claudeToolCalls i = hasCall e.state.claudeToolCalls i := by
  unfold nameToolBlock
  dsimp only
  split
  · rfl
  · simp only [hasCall, List.any_map]
    congr 1
    funext c
    simp only [Function.comp]
    split <;> rfl

theorem hasCall_openToolBlock (call : Json) (effectiveId : String) (i : Nat) :
    hasCall (openToolBlock call effectiveId e).state.claudeToolCalls i = true ↔
      i = indexOf call ∨ hasCall e.state.claudeToolCalls i = true := by
  simp only [openToolBlock, hasCall, List.any_eq_true, List.mem_orderedInsert,
    stopTextBlock_calls, stopThinkingBlock_calls, exists_eq_or_imp, beq_iff_eq,
    eq_comm (a := i)]

/-- A tool call has a block once one that is named has come. -/
theorem hasCall_handleToolCall (call : Json) (i : Nat) :
    hasCall (handleToolCall e call).state.claudeToolCalls i = true ↔
      hasCall e.state.claudeToolCalls i = true ∨ (i = indexOf call ∧ isNamed call = true) := by
  rw [handleToolCall, bufferArguments_calls]
  split
  · next h =>
    rw [Bool.and_eq_true] at h
    rw [hasCall_openToolBlock, effectiveId_calls, or_comm]
    simp [h.1]
  · next h =>
    rw [hasCall_nameToolBlock, effectiveId_calls]
    refine ⟨.inl, ?_⟩
    rintro (hi | ⟨rfl, hnamed⟩)
    · exact hi
    · simpa [hnamed] using h

/-- A tool call puts out nothing exactly where it opens no block. -/
theorem handleToolCall_out (call : Json)
    (h : isNamed call = true → hasCall e.state.claudeToolCalls (indexOf call) = true) :
    (handleToolCall e call).out = e.out := by
  rw [handleToolCall, bufferArguments_out, if_neg]
  · exact nameToolBlock_out call
  · intro hopen
    rw [Bool.and_eq_true, effectiveId_calls] at hopen
    rw [h hopen.1] at hopen
    simp at hopen

theorem handleToolCall_adds (call : Json) (hnamed : isNamed call = true)
    (hnew : hasCall e.state.claudeToolCalls (indexOf call) = false) :
    Adds e (handleToolCall e call) := by
  obtain ⟨more, hmore, hout⟩ := openToolBlock_adds
    (e := { e with state := (effectiveId call e.state).2 }) call (effectiveId call e.state).1
  refine ⟨more, hmore, ?_⟩
  rw [handleToolCall, bufferArguments_out, if_pos (by simp [hnamed, hnew])]
  exact hout

end Calls

end Claude
end NullRouter.Translate
