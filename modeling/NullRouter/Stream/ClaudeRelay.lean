import NullRouter.Stream.ProviderReplies
import NullRouter.Stream.Relay
import NullRouter.Translate.Response.ClaudeToOpenai

/-!
# The stream of a Claude message as OpenAI chunks

What `crates/translate/src/response/claude_to_openai.rs` makes of the events of a message: block
by block, and then of the whole stream.
-/

namespace NullRouter.Stream

open NullRouter.Base NullRouter.Translate NullRouter.Translate.Response.ClaudeToOpenai

/-- What the events of a block leave as it is. -/
structure Standing where
  names : List (String × String)
  usage : Option Usage
  input : Nat
  cacheRead : Nat
  cacheCreation : Nat
  finishReason : Option String
  finishReasonSent : Bool

/-- The part of a state that the events of a block leave as it is. -/
def standing (s : StreamState) : Standing :=
  ⟨s.toolNameMap, s.usage, s.claudeInputTokens, s.claudeCacheReadTokens,
    s.claudeCacheCreationTokens, s.finishReason, s.finishReasonSent⟩

/-- Some tool blocks are over and no block is open. -/
structure Between (calls : Nat) (stand : Standing) (s : StreamState) : Prop where
  server : s.serverToolBlockIndex = none
  thinking : s.inThinkingBlock = false
  index : s.toolCallIndex = calls
  called : s.openaiToolCalls.isEmpty = decide (calls = 0)
  standing : standing s = stand

/-- A piece of text as a chunk shows it. -/
def contentShown (words : String) : Shown := .field "content" (.str words)

/-- The delta that opens a tool call. -/
def openingDelta (index : Nat) (id name : String) : Json :=
  Json.object [("index", Json.nat index), ("id", .str id), ("type", .str "function"),
    ("function", Json.object [("name", .str name), ("arguments", .str "")])]

/-- The delta that goes on with one. -/
def fragmentDelta (index : Nat) (id fragment : String) : Json :=
  Json.object [("index", Json.nat index), ("id", .str id),
    ("function", Json.object [("arguments", .str fragment)])]

/-- A chunk of one tool-call delta. -/
def callShown (delta : Json) : Shown := .field "tool_calls" (.arr [delta])

/-- The pieces that are not empty. -/
def filled (pieces : List String) : List String := pieces.filter (!·.isEmpty)

namespace ClaudeBlock

variable {serde : SerdeJson}

/-- What a client is shown of a block, the tool blocks before it counted. -/
def relayed (names : List (String × String)) (calls : Nat) : ClaudeBlock serde → List Shown
  | text pieces => (filled pieces).map contentShown
  | thinking pieces _ => contentShown "<think>" ::
      (filled pieces).map (fun piece ↦ .field "reasoning_content" (.str piece)) ++
        [contentShown "</think>"]
  | toolUse call => callShown (openingDelta calls call.id (originalName names call.name)) ::
      (filled call.fragments).map fun fragment ↦ callShown (fragmentDelta calls call.id fragment)

/-- The tool blocks that a block is. -/
def callCount : ClaudeBlock serde → Nat
  | toolUse _ => 1
  | _ => 0

end ClaudeBlock

section Step

variable {write : Json → String} {s : StreamState} {index : Nat}

private theorem shown_emit (delta : Json) (s : StreamState) :
    (emit delta s).1.map Shown.ofChunk = [{ delta := some delta }] := by
  rw [emit, List.map_singleton, chunk, Shown.ofChunk_buildChunk]

private theorem translate_blockStart (block : Json) :
    translate write (Claude.blockStart index block) s =
      match block.strField "type" with
      | some "server_tool_use" => ([], { s with serverToolBlockIndex := some index })
      | some "text" => ([], { s with textBlockStarted := true })
      | some "thinking" => emit (Json.object [("content", .str "<think>")])
          { s with inThinkingBlock := true, currentBlockIndex := some index }
      | some "tool_use" => openTool write (some index) block s
      | _ => ([], s) := by
  have hget (key : String) : (Claude.blockStart index block).get key = _ := Json.get_object ..
  have htype : (Claude.blockStart index block).strField "type" = some "content_block_start" := by
    rw [Json.strField, hget]
    rfl
  have hindex : eventIndex (Claude.blockStart index block) = some index := by
    rw [eventIndex, hget]
    rfl
  have hblock : (Claude.blockStart index block).get "content_block" = some block := by
    rw [hget]
    rfl
  simp only [Response.ClaudeToOpenai.translate, htype, handleBlockStart, hblock, hindex] <;> rfl

private theorem translate_blockDelta {delta : Json} (h : s.serverToolBlockIndex = none) :
    translate write (Claude.blockDelta index delta) s =
      match delta.strField "type" with
      | some "text_delta" => ((delta.strField "text").filter (!·.isEmpty)).elim ([], s) fun text ↦
          emit (Json.object [("content", .str text)]) s
      | some "thinking_delta" => ((delta.strField "thinking").filter (!·.isEmpty)).elim ([], s)
          fun text ↦ emit (reasoningDelta text false) s
      | some "input_json_delta" => ((delta.strField "partial_json").filter (!·.isEmpty)).elim
          ([], s) fun fragment ↦ argumentDelta (some index) fragment s
      | _ => ([], s) := by
  have hget (key : String) : (Claude.blockDelta index delta).get key = _ := Json.get_object ..
  have htype : (Claude.blockDelta index delta).strField "type" = some "content_block_delta" := by
    rw [Json.strField, hget]
    rfl
  have hindex : eventIndex (Claude.blockDelta index delta) = some index := by
    rw [eventIndex, hget]
    rfl
  have hserver : isServerTool (Claude.blockDelta index delta) s = false := by
    rw [isServerTool, hindex, h]
    rfl
  have hdelta : (Claude.blockDelta index delta).get "delta" = some delta := by
    rw [hget]
    rfl
  simp only [Response.ClaudeToOpenai.translate, htype, handleBlockDelta, hserver,
    Bool.false_eq_true, if_false, hdelta, hindex] <;> rfl

private theorem translate_blockStop (h : s.serverToolBlockIndex = none) :
    translate write (Claude.blockStop index) s =
      (let closed := if s.inThinkingBlock && some index == s.currentBlockIndex then
          let closed := emit (Json.object [("content", .str "</think>")]) s
          (closed.1, { closed.2 with inThinkingBlock := false })
        else ([], s)
      (closed.1, { closed.2 with textBlockStarted := false, thinkingBlockStarted := false })) := by
  have hget (key : String) : (Claude.blockStop index).get key = _ := Json.get_object ..
  have htype : (Claude.blockStop index).strField "type" = some "content_block_stop" := by
    rw [Json.strField, hget]
    rfl
  have hindex : eventIndex (Claude.blockStop index) = some index := by
    rw [eventIndex, hget]
    rfl
  have hserver : isServerTool (Claude.blockStop index) s = false := by
    rw [isServerTool, hindex, h]
    rfl
  simp only [Response.ClaudeToOpenai.translate, htype, handleBlockStop, hserver,
    Bool.false_eq_true, if_false, hindex]

private theorem relay_pieces {P : StreamState → Prop} {event : String → Json}
    {shown : String → Shown} (hstep : ∀ piece s, P s →
      (translate write (event piece) s).1.map Shown.ofChunk =
          (if piece.isEmpty then [] else [shown piece]) ∧ P (translate write (event piece) s).2)
    (pieces : List String) (s : StreamState) (h : P s) :
    (through (translate write) (pieces.map event) s).1.map Shown.ofChunk =
        (filled pieces).map shown ∧ P (through (translate write) (pieces.map event) s).2 := by
  induction pieces generalizing s with
  | nil => exact ⟨rfl, h⟩
  | cons piece pieces ih =>
    obtain ⟨hpiece, hnext⟩ := hstep piece s h
    obtain ⟨hrest, hlast⟩ := ih _ hnext
    refine ⟨?_, hlast⟩
    rw [List.map_cons, through, List.map_append, hpiece, hrest, filled, filled]
    by_cases hempty : piece.isEmpty = true
    · rw [if_pos hempty, List.filter_cons_of_neg (by simpa using hempty), List.nil_append]
    · rw [if_neg hempty, List.filter_cons_of_pos (by simpa using hempty), List.map_cons]
      rfl

/-- What a step shows and what holds of the state that it leaves. -/
private def Relays (translated : List Json × StreamState) (shown : List Shown)
    (P : StreamState → Prop) : Prop :=
  translated.1.map Shown.ofChunk = shown ∧ P translated.2

private theorem Relays.append {events events' : List Json} {shown shown' : List Shown}
    {P Q : StreamState → Prop} (h : Relays (through (translate write) events s) shown P)
    (h' : ∀ s, P s → Relays (through (translate write) events' s) shown' Q) :
    Relays (through (translate write) (events ++ events') s) (shown ++ shown') Q := by
  obtain ⟨hshown, hP⟩ := h
  obtain ⟨hshown', hQ⟩ := h' _ hP
  rw [through_append]
  refine ⟨?_, hQ⟩
  rw [List.map_append, hshown, hshown']

private theorem Relays.single {event : Json} {shown : List Shown} {P : StreamState → Prop}
    (h : Relays (translate write event s) shown P) :
    Relays (through (translate write) [event] s) shown P := by
  rw [through, through]
  refine ⟨?_, h.2⟩
  rw [List.append_nil]
  exact h.1

private theorem relays_text {P : StreamState → Prop} {piece : String}
    {step : String → List Json × StreamState} {shown : Shown} (hnone : P s)
    (hstep : Relays (step piece) [shown] P) :
    Relays (((some piece).filter (!·.isEmpty)).elim ([], s) step)
      (if piece.isEmpty then [] else [shown]) P := by
  cases hempty : piece.isEmpty with
  | true =>
    rw [Option.filter_some, if_neg (by simp [hempty])]
    exact ⟨rfl, hnone⟩
  | false =>
    rw [Option.filter_some, if_pos (by simp [hempty])]
    exact hstep

variable {calls : Nat} {stand : Standing}

private theorem Between.emit (h : Between calls stand s) (delta : Json) :
    Between calls stand (emit delta s).2 :=
  ⟨h.server, h.thinking, h.index, h.called, h.standing⟩

/-- A thinking block is open. -/
private structure InThinking (index calls : Nat) (stand : Standing) (s : StreamState) : Prop where
  server : s.serverToolBlockIndex = none
  thinking : s.inThinkingBlock = true
  block : s.currentBlockIndex = some index
  index : s.toolCallIndex = calls
  called : s.openaiToolCalls.isEmpty = decide (calls = 0)
  standing : standing s = stand

/-- A tool block is open, the call of an id. -/
private structure InTool (index calls : Nat) (id : String) (stand : Standing) (s : StreamState) :
    Prop where
  between : Between (calls + 1) stand s
  call : ∃ call, s.openaiToolCalls[index]? = some call ∧ call.index = calls ∧ call.id = id

private theorem strField_typed {key : String} (h : key ≠ "type") (kind text : String) :
    (Json.object [("type", .str kind), (key, .str text)]).strField "type" = some kind ∧
      (Json.object [("type", .str kind), (key, .str text)]).strField key = some text := by
  rw [Json.strField_object, Json.strField_object]
  simp [List.lookup_cons, beq_false_of_ne h.symm, Json.asStr]

private theorem relays_textDelta (piece : String) (h : Between calls stand s) :
    Relays (translate write (Claude.blockDelta index
        (Json.object [("type", .str "text_delta"), ("text", .str piece)])) s)
      (if piece.isEmpty then [] else [contentShown piece]) (Between calls stand) := by
  obtain ⟨htype, htext⟩ := @strField_typed "text" (by decide) "text_delta" piece
  rw [translate_blockDelta h.server]
  simp only [htype, htext]
  exact relays_text h ⟨shown_emit .., h.emit _⟩

private theorem relays_thinkingDelta (piece : String) (h : InThinking index calls stand s) :
    Relays (translate write (Claude.blockDelta index
        (Json.object [("type", .str "thinking_delta"), ("thinking", .str piece)])) s)
      (if piece.isEmpty then [] else [.field "reasoning_content" (.str piece)])
      (InThinking index calls stand) := by
  obtain ⟨htype, htext⟩ := @strField_typed "thinking" (by decide) "thinking_delta" piece
  rw [translate_blockDelta h.server]
  simp only [htype, htext]
  refine relays_text h ⟨shown_emit .., ?_⟩
  exact ⟨h.server, h.thinking, h.block, h.index, h.called, h.standing⟩

private theorem relays_fragment {id : String} (fragment : String)
    (h : InTool index calls id stand s) :
    Relays (translate write (Claude.blockDelta index
        (Json.object [("type", .str "input_json_delta"), ("partial_json", .str fragment)])) s)
      (if fragment.isEmpty then [] else [callShown (fragmentDelta calls id fragment)])
      (InTool index calls id stand) := by
  obtain ⟨htype, htext⟩ := @strField_typed "partial_json" (by decide) "input_json_delta" fragment
  obtain ⟨call, hcall, hindex, hid⟩ := h.call
  rw [translate_blockDelta h.between.server]
  simp only [htype, htext]
  refine relays_text h ?_
  simp only [argumentDelta, Option.bind_some, hcall, Option.map_some, hindex, hid]
  refine ⟨shown_emit .., ?_, ⟨⟨calls, id, call.name, call.arguments ++ fragment⟩, ?_, rfl, rfl⟩⟩
  · refine ⟨h.between.server, h.between.thinking, h.between.index, ?_, h.between.standing⟩
    exact Std.ExtTreeMap.isEmpty_eq_false_iff.mpr Std.ExtTreeMap.insert_ne_empty
  · exact Std.ExtTreeMap.getElem?_insert_self

private theorem relays_blockStop (h : Between calls stand s) :
    Relays (translate write (Claude.blockStop index) s) [] (Between calls stand) := by
  rw [translate_blockStop h.server, h.thinking]
  exact ⟨rfl, h.server, h.thinking, h.index, h.called, h.standing⟩

private theorem relays_thinkingStop (h : InThinking index calls stand s) :
    Relays (translate write (Claude.blockStop index) s) [contentShown "</think>"]
      (Between calls stand) := by
  rw [translate_blockStop h.server, h.thinking, h.block, beq_self_eq_true]
  exact ⟨shown_emit .., h.server, rfl, h.index, h.called, h.standing⟩

private theorem relays_events {serde : SerdeJson} {block : ClaudeBlock serde}
    {first rest last : List Shown} {P Q R : StreamState → Prop}
    (hstart : Relays (translate write (Claude.blockStart index block.opening) s) first P)
    (hdeltas : ∀ s, P s → Relays (through (translate write)
      (block.deltas.map (Claude.blockDelta index)) s) rest Q)
    (hstop : ∀ s, Q s → Relays (translate write (Claude.blockStop index) s) last R) :
    Relays (through (translate write) (block.events index) s) (first ++ rest ++ last) R := by
  rw [ClaudeBlock.events, ← List.singleton_append, List.append_assoc, List.append_assoc]
  refine Relays.append (.single hstart) fun s hs ↦ ?_
  exact (hdeltas s hs).append fun s hs ↦ .single (hstop s hs)

private theorem relays_toolStart {serde : SerdeJson} (call : ClaudeToolUse serde)
    (h : Between calls stand s) :
    Relays (translate write (Claude.blockStart index (ClaudeBlock.toolUse call).opening) s)
      [callShown (openingDelta calls call.id (originalName stand.names call.name))]
      (InTool index calls call.id stand) := by
  have hfield (key : String) : (ClaudeBlock.toolUse call).opening.get key = _ := Json.get_object ..
  have htype : (ClaudeBlock.toolUse call).opening.strField "type" = some "tool_use" := by
    rw [Json.strField, hfield]
    rfl
  have hname : (ClaudeBlock.toolUse call).opening.strField "name" = some call.name := by
    rw [Json.strField, hfield]
    rfl
  have hid : (ClaudeBlock.toolUse call).opening.strField "id" = some call.id := by
    rw [Json.strField, hfield]
    rfl
  have harguments : initialArguments write (ClaudeBlock.toolUse call).opening = "" := by
    rw [initialArguments, hfield]
    rfl
  have hnames : s.toolNameMap = stand.names := congrArg Standing.names h.standing
  have hrenamed : s.originalToolName call.name = originalName stand.names call.name := by
    rw [StreamState.originalToolName, originalName, hnames]
  rw [translate_blockStart, htype]
  simp only [openTool, hname, hid, harguments, Option.getD_some, hrenamed, h.index,
    Option.elim_some]
  refine ⟨shown_emit .., ?_, ⟨⟨calls, call.id, _, ""⟩, Std.ExtTreeMap.getElem?_insert_self, rfl,
    rfl⟩⟩
  refine ⟨h.server, h.thinking, rfl, ?_, h.standing⟩
  exact Std.ExtTreeMap.isEmpty_eq_false_iff.mpr Std.ExtTreeMap.insert_ne_empty

private theorem relays_block {serde : SerdeJson} (block : ClaudeBlock serde)
    (h : Between calls stand s) :
    Relays (through (translate write) (block.events index) s) (block.relayed stand.names calls)
      (Between (calls + block.callCount) stand) := by
  cases block with
  | text pieces =>
    have hevents := @relays_events write s index serde (.text pieces) []
      ((filled pieces).map contentShown) [] (Between calls stand) (Between calls stand)
      (Between calls stand) ?_ ?_ fun s ↦ relays_blockStop
    · simpa [ClaudeBlock.relayed, ClaudeBlock.callCount] using hevents
    · rw [translate_blockStart, ClaudeBlock.opening, (@strField_typed "text" (by decide) "text" "").1]
      exact ⟨rfl, h.server, h.thinking, h.index, h.called, h.standing⟩
    · intro s hs
      rw [ClaudeBlock.deltas, List.map_map]
      exact relay_pieces (fun piece s ↦ relays_textDelta piece) pieces s hs
  | thinking pieces signature =>
    refine @relays_events write s index serde (.thinking pieces signature)
      [contentShown "<think>"] _ _ (InThinking index calls stand) (InThinking index calls stand)
      _ ?_ ?_ fun s ↦ relays_thinkingStop
    · have htype : (ClaudeBlock.thinking pieces signature : ClaudeBlock serde).opening.strField
          "type" = some "thinking" := by
        rw [ClaudeBlock.opening, Json.strField_object]
        rfl
      rw [translate_blockStart, htype]
      exact ⟨shown_emit .., h.server, rfl, rfl, h.index, h.called, h.standing⟩
    · intro s hs
      obtain ⟨htype, -⟩ := @strField_typed "signature" (by decide) "signature_delta" signature
      have hsigned : ∀ s, InThinking index calls stand s → Relays (through (translate write)
          [Claude.blockDelta index (Json.object [("type", .str "signature_delta"),
            ("signature", .str signature)])] s) [] (InThinking index calls stand) := by
        intro s hs
        refine .single ?_
        rw [translate_blockDelta hs.server, htype]
        exact ⟨rfl, hs⟩
      have hpieces := @relay_pieces write _ _ _ (fun piece s ↦ relays_thinkingDelta piece) pieces s
        hs
      rw [ClaudeBlock.deltas, List.map_append, List.map_map]
      have hall := Relays.append hpieces hsigned
      rw [List.append_nil] at hall
      exact hall
  | toolUse call =>
    have hevents := @relays_events write s index serde (.toolUse call) _
      ((filled call.fragments).map fun fragment ↦
        callShown (fragmentDelta calls call.id fragment)) []
      (InTool index calls call.id stand) (InTool index calls call.id stand)
      (Between (calls + 1) stand) (relays_toolStart call h) ?_ fun s hs ↦
        relays_blockStop hs.between
    · simpa [ClaudeBlock.relayed, ClaudeBlock.callCount] using hevents
    · intro s hs
      rw [ClaudeBlock.deltas, List.map_map]
      exact relay_pieces (fun fragment s ↦ relays_fragment fragment) call.fragments s hs

variable {serde : SerdeJson}

/-- What a client is shown of blocks, the tool blocks before them counted. -/
def relayedBlocks (names : List (String × String)) : List (ClaudeBlock serde) → Nat → List Shown
  | [], _ => []
  | block :: blocks, calls =>
    block.relayed names calls ++ relayedBlocks names blocks (calls + block.callCount)

private theorem relays_blocks (blocks : List (ClaudeBlock serde)) (index : Nat)
    (h : Between calls stand s) :
    Relays (through (translate write) (ClaudeReply.blockEvents blocks index) s)
      (relayedBlocks stand.names blocks calls)
      (Between (calls + (blocks.map ClaudeBlock.callCount).sum) stand) := by
  induction blocks generalizing index calls s with
  | nil => exact ⟨rfl, h⟩
  | cons block blocks ih =>
    have hblocks := (@relays_block write s index calls stand serde block h).append fun s hs ↦
      ih (index + 1) hs
    rw [Nat.add_assoc] at hblocks
    rw [ClaudeReply.blockEvents, List.map_cons, List.sum_cons, relayedBlocks]
    exact hblocks

end Step

/-- The usage of a message as OpenAI counts it. -/
def ClaudeCounts.toUsage (counts : ClaudeCounts) (output : Nat) : Usage :=
  let prompt := counts.input + counts.cacheRead.getD 0 + counts.cacheCreation.getD 0
  { promptTokens := prompt
    completionTokens := output
    totalTokens := prompt + output
    cachedTokens := counts.cacheRead.getD 0
    cacheCreationTokens := counts.cacheCreation.getD 0 }

/-- The counts of a message's usage are read back. -/
theorem countAt_usage (counts : ClaudeCounts) (output : Nat) :
    countAt (counts.usage output) ["input_tokens"] = counts.input ∧
      countAt (counts.usage output) ["output_tokens"] = output ∧
      countAt (counts.usage output) ["cache_read_input_tokens"] = counts.cacheRead.getD 0 ∧
      countAt (counts.usage output) ["cache_creation_input_tokens"] =
        counts.cacheCreation.getD 0 := by
  have hcount (key : String) : countAt (counts.usage output) [key] =
      (((counts.usage output).get key).bind Json.asU64).getD 0 := rfl
  rw [hcount, hcount, hcount, hcount, ClaudeCounts.usage]
  simp only [Json.get_object]
  cases counts.cacheRead <;> cases counts.cacheCreation <;> exact ⟨rfl, rfl, rfl, rfl⟩

namespace ClaudeReply

variable {serde : SerdeJson} (reply : ClaudeReply serde)

/-- The finish reason that the stream of a message ends with. -/
def streamedFinish : String :=
  match reply.stopReason with
  | some reason => finishOfClaude reason
  | none => if (reply.blocks.map ClaudeBlock.callCount).sum = 0 then "stop" else "tool_calls"

/-- What stands while the blocks of a message are streamed. -/
def begun (names : List (String × String)) : Standing where
  names := names
  usage := reply.counts.map (·.toUsage 0)
  input := (reply.counts.map (·.input)).getD 0
  cacheRead := (reply.counts.bind (·.cacheRead)).getD 0
  cacheCreation := (reply.counts.bind (·.cacheCreation)).getD 0
  finishReason := none
  finishReasonSent := false

section Ends

variable {write : Json → String} {names : List (String × String)}

private theorem relays_messageStart (clock : Nat → Nat) :
    Relays (translate write reply.messageStart { clock, toolNameMap := names })
      [.role] (Between 0 (reply.begun names)) := by
  have htype : reply.messageStart.strField "type" = some "message_start" := by
    rw [messageStart, Json.strField_object]
    rfl
  have hmessage : reply.messageStart.get "message" = some (reply.message [] none
      (reply.counts.map fun counts ↦ counts.usage counts.outputAtStart)) := by
    rw [messageStart, Json.get_object]
    rfl
  have hid (usage : Option Json) :
      (reply.message [] none usage).strField "id" = some reply.id := by
    rw [Json.strField, get_message (by decide)]
    rfl
  have husage (usage : Option Json) : (reply.message [] none usage).get "usage" = usage :=
    get_message_usage ..
  simp only [Response.ClaudeToOpenai.translate, htype, handleMessageStart, hmessage,
    Option.bind_some, hid, husage]
  refine ⟨shown_emit .., ?_⟩
  cases hcounts : reply.counts with
  | none =>
    refine ⟨rfl, rfl, rfl, ?_, ?_⟩
    · exact Std.ExtTreeMap.isEmpty_empty
    · simp only [begun, hcounts]
      rfl
  | some counts =>
    obtain ⟨hinput, -, hread, hcreation⟩ := countAt_usage counts counts.outputAtStart
    have hobject : Option.filter (·.asObject.isSome)
        (some (counts.usage counts.outputAtStart)) = some (counts.usage counts.outputAtStart) :=
      rfl
    simp only [Option.map_some, hobject, startUsage]
    refine ⟨rfl, rfl, rfl, ?_, ?_⟩
    · exact Std.ExtTreeMap.isEmpty_empty
    · simp only [begun, hcounts, hinput, hread, hcreation]
      rfl

private theorem relays_finishChunk (finish : String) (usage : Option Json) (s : StreamState) :
    Relays (finishChunk finish usage s) [.last finish usage]
      fun s' ↦ s'.usage = s.usage ∧ s'.finishReasonSent = true := by
  refine ⟨?_, rfl, rfl⟩
  rw [finishChunk, List.map_singleton, chunk]
  cases usage with
  | none =>
    rw [Option.elim_none, Shown.ofChunk_buildChunk]
    rfl
  | some usage =>
    rw [Option.elim_some, Shown.ofChunk_setField_usage]
    rfl

private theorem relays_messageStop_of_sent {s : StreamState} (h : s.finishReasonSent = true) :
    translate write messageStop s = ([], s) := by
  have htype : messageStop.strField "type" = some "message_stop" := by
    rw [messageStop, Json.strField_object]
    rfl
  simp only [Response.ClaudeToOpenai.translate, htype, handleMessageStop, h, ↓reduceIte]

private theorem relays_messageStop {s : StreamState} (h : s.finishReasonSent = false)
    (hfinish : s.finishReason = none) : ∃ usage, (s.usage = none → usage = none) ∧
      Relays (translate write messageStop s)
        [.last (if s.openaiToolCalls.isEmpty then "stop" else "tool_calls") usage]
        fun s' ↦ s'.usage = s.usage := by
  have htype : messageStop.strField "type" = some "message_stop" := by
    rw [messageStop, Json.strField_object]
    rfl
  simp only [Response.ClaudeToOpenai.translate, htype, handleMessageStop, h, hfinish,
    Bool.false_eq_true, if_false,
    Option.getD_none]
  obtain ⟨hshown, husage, -⟩ := relays_finishChunk
    (if s.openaiToolCalls.isEmpty then "stop" else "tool_calls") (s.usage.map fun _ ↦ Json.object [
      ("prompt_tokens", Json.nat s.claudeInputTokens),
      ("completion_tokens", Json.nat s.claudeOutputTokens),
      ("total_tokens", Json.nat (s.claudeInputTokens + s.claudeOutputTokens))]) s
  refine ⟨_, ?_, hshown, husage⟩
  intro hnone
  rw [hnone, Option.map_none]

private theorem deltaUsage_usage {s : StreamState} {counts : ClaudeCounts}
    (hinput : s.claudeInputTokens = counts.input)
    (hread : s.claudeCacheReadTokens = counts.cacheRead.getD 0)
    (hcreation : s.claudeCacheCreationTokens = counts.cacheCreation.getD 0) :
    (deltaUsage (Json.object [("output_tokens", Json.nat counts.output)]) s).usage =
      some (counts.toUsage counts.output) := by
  have hget (key : String) : (Json.object [("output_tokens",
      Json.nat counts.output)]).get key = _ := Json.get_object ..
  simp only [deltaUsage, hget]
  simp [List.lookup_cons, usageOf, ClaudeCounts.toUsage, Json.nat, Json.asU64, hinput, hread,
    hcreation]

private theorem handleMessageDelta_eq {s : StreamState}
    (h : Between (reply.blocks.map ClaudeBlock.callCount).sum (reply.begun names) s) :
    ∃ s₁ : StreamState, s₁.usage = (reply.counts.map fun counts ↦ counts.toUsage counts.output) ∧
      s₁.finishReason = none ∧ s₁.finishReasonSent = false ∧
      s₁.openaiToolCalls.isEmpty =
        decide ((reply.blocks.map ClaudeBlock.callCount).sum = 0) ∧
      translate write reply.messageDelta s = match reply.stopReason with
        | none => ([], s₁)
        | some stopReason => finishChunk (finishOfClaude stopReason)
            (s₁.usage.map fun _ ↦ (usageOf s₁ s₁.claudeOutputTokens).toValue)
            { s₁ with finishReason := some (finishOfClaude stopReason) } := by
  have hget {key : String} (hkey : key ≠ "usage") : reply.messageDelta.get key =
      [("delta", Json.object [("stop_reason", reply.stopReason.elim .null .str),
        ("stop_sequence", .null)]), ("type", .str "message_delta")].lookup key := by
    rw [messageDelta, Json.get_object_append (by cases reply.counts <;>
      simp [optionalField, hkey.symm]), Json.get_object]
    rfl
  have htype : reply.messageDelta.strField "type" = some "message_delta" := by
    rw [Json.strField, hget (by decide)]
    rfl
  have hreason : (reply.messageDelta.get "delta").bind (·.strField "stop_reason") =
      reply.stopReason := by
    rw [hget (by decide)]
    change (Json.object _).strField "stop_reason" = _
    rw [Json.strField_object]
    cases reply.stopReason <;> rfl
  have husage : reply.messageDelta.get "usage" = reply.counts.map fun counts ↦
      Json.object [("output_tokens", Json.nat counts.output)] := by
    rw [messageDelta, Json.get_object]
    cases reply.counts <;> rfl
  obtain ⟨-, -, -, hcalled, hstanding⟩ := h
  have hfinish : s.finishReason = none := congrArg Standing.finishReason hstanding
  have hsent : s.finishReasonSent = false := congrArg Standing.finishReasonSent hstanding
  simp only [Response.ClaudeToOpenai.translate, htype, handleMessageDelta, hreason, husage]
  cases hcounts : reply.counts with
  | none =>
    refine ⟨s, ?_, hfinish, hsent, hcalled, rfl⟩
    rw [Option.map_none]
    exact (congrArg Standing.usage hstanding).trans (by rw [begun, hcounts, Option.map_none])
  | some counts =>
    rw [begun, hcounts] at hstanding
    have hcounted := @deltaUsage_usage s counts (congrArg Standing.input hstanding)
      (congrArg Standing.cacheRead hstanding) (congrArg Standing.cacheCreation hstanding)
    exact ⟨_, hcounted, hfinish, hsent, hcalled, rfl⟩

private theorem relays_end {s : StreamState}
    (h : Between (reply.blocks.map ClaudeBlock.callCount).sum (reply.begun names) s) :
    ∃ usage, (reply.counts = none → usage = none) ∧
      Relays (through (translate write) [reply.messageDelta, messageStop] s)
        [.last reply.streamedFinish usage]
        fun s' ↦ s'.usage = reply.counts.map fun counts ↦ counts.toUsage counts.output := by
  obtain ⟨s₁, husage, hfinish, hsent, hcalled, hdelta⟩ := @handleMessageDelta_eq _ reply write _ _ h
  have hunmetered : reply.counts = none → s₁.usage = none := by
    intro hnone
    rw [husage, hnone, Option.map_none]
  rw [← List.singleton_append, streamedFinish, ← husage]
  cases hstop : reply.stopReason with
  | none =>
    rw [hstop] at hdelta
    obtain ⟨usage, hnone, hstopped⟩ := @relays_messageStop write s₁ hsent hfinish
    refine ⟨usage, fun h ↦ hnone (hunmetered h), ?_⟩
    have hfirst : Relays (through (translate write) [reply.messageDelta] s) [] (· = s₁) := by
      refine .single ?_
      rw [hdelta]
      exact ⟨rfl, rfl⟩
    rw [hcalled] at hstopped
    have hboth := @Relays.append write s [reply.messageDelta] [messageStop] _ _ _ _ hfirst
      (by
        rintro s' rfl
        exact .single hstopped)
    simpa using hboth
  | some reason =>
    rw [hstop] at hdelta
    refine ⟨s₁.usage.map fun _ ↦ (usageOf s₁ s₁.claudeOutputTokens).toValue, ?_, ?_⟩
    · intro hnone
      rw [hunmetered hnone, Option.map_none]
    · have hfirst : Relays (through (translate write) [reply.messageDelta] s)
          [.last (finishOfClaude reason)
            (s₁.usage.map fun _ ↦ (usageOf s₁ s₁.claudeOutputTokens).toValue)]
          fun s' ↦ s'.usage = s₁.usage ∧ s'.finishReasonSent = true := by
        refine .single ?_
        rw [hdelta]
        exact relays_finishChunk ..
      have hboth := @Relays.append write s [reply.messageDelta] [messageStop] _ [] _
        (fun s' ↦ s'.usage = s₁.usage) hfirst fun s' hs' ↦ .single (by
          rw [relays_messageStop_of_sent hs'.2]
          exact ⟨rfl, hs'.1⟩)
      exact hboth

private theorem relays_stream (clock : Nat → Nat) :
    ∃ usage, (reply.counts = none → usage = none) ∧
      Relays (through (translate write) reply.events { clock, toolNameMap := names })
        (.role :: relayedBlocks names reply.blocks 0 ++
          [.last reply.streamedFinish usage])
        fun s ↦ s.usage = reply.counts.map fun counts ↦ counts.toUsage counts.output := by
  obtain ⟨hshown, hbegun⟩ := @relays_messageStart _ reply write names clock
  obtain ⟨hblocks, hbetween⟩ := @relays_blocks write _ _ _ _ reply.blocks 0 hbegun
  rw [Nat.zero_add] at hbetween
  obtain ⟨usage, hnone, hlast, husage⟩ := @relays_end _ reply write names _ hbetween
  refine ⟨usage, hnone, ?_⟩
  rw [events, List.cons_append, through, through_append]
  refine ⟨?_, husage⟩
  rw [List.map_append, List.map_append, hshown, hblocks, hlast]
  rfl

end Ends

end ClaudeReply

/-! ## What the chunks say together -/

theorem join_filled (pieces : List String) : String.join (filled pieces) = String.join pieces := by
  induction pieces with
  | nil => rfl
  | cons piece pieces ih =>
    rw [String.join_cons, ← ih, filled, filled]
    by_cases hempty : piece.isEmpty = true
    · rw [List.filter_cons_of_neg (by simpa using hempty), String.isEmpty_iff.mp hempty,
        String.empty_append]
    · rw [List.filter_cons_of_pos (by simpa using hempty), String.join_cons]

namespace ClaudeBlock

variable {serde : SerdeJson} (names : List (String × String)) (calls : Nat)

/-- What a block adds to the text of a streamed message: thinking is put in tags there. -/
def streamedText : ClaudeBlock serde → String
  | text pieces => String.join pieces
  | thinking _ _ => "<think></think>"
  | toolUse _ => ""

/-- What a block adds to the thinking. -/
def thoughts : ClaudeBlock serde → String
  | thinking pieces _ => String.join pieces
  | _ => ""

/-- The use of a tool that a block is. -/
def call? : ClaudeBlock serde → Option (ClaudeToolUse serde)
  | toolUse call => some call
  | _ => none

theorem text_relayed (block : ClaudeBlock serde) :
    String.join ((block.relayed names calls).map (Shown.text "content")) = block.streamedText := by
  cases block with
  | text pieces =>
    have hself : Shown.text "content" ∘ contentShown = id :=
      funext fun words ↦ Shown.text_field_self ..
    rw [relayed, List.map_map, hself, List.map_id, join_filled, streamedText]
  | thinking pieces signature =>
    have hthoughts : String.join (((filled pieces).map fun piece ↦
        Shown.field "reasoning_content" (.str piece)).map (Shown.text "content")) = "" :=
      Shown.join_text_eq_empty (List.forall_mem_map.mpr fun piece _ ↦
        Shown.text_field_of_ne _ (by decide))
    rw [relayed, List.cons_append, List.map_cons, String.join_cons, List.map_append,
      String.join_append, hthoughts]
    simp [contentShown, streamedText, String.join_cons]
  | toolUse call =>
    refine Shown.join_text_eq_empty (List.forall_mem_cons.mpr ⟨?_, List.forall_mem_map.mpr
      fun fragment _ ↦ ?_⟩)
    · exact Shown.text_field_of_ne _ (by decide)
    · exact Shown.text_field_of_ne _ (by decide)

theorem reasoning_relayed (block : ClaudeBlock serde) :
    String.join ((block.relayed names calls).map (Shown.text "reasoning_content")) =
      block.thoughts := by
  cases block with
  | text pieces =>
    exact Shown.join_text_eq_empty (List.forall_mem_map.mpr fun piece _ ↦
      Shown.text_field_of_ne _ (by decide))
  | thinking pieces signature =>
    have hself : (Shown.text "reasoning_content" ∘ fun piece ↦
        Shown.field "reasoning_content" (.str piece)) = id :=
      funext fun words ↦ Shown.text_field_self ..
    have htag (tag : String) : (contentShown tag).text "reasoning_content" = "" :=
      Shown.text_field_of_ne _ (by decide)
    rw [relayed, List.cons_append, List.map_cons, String.join_cons, List.map_append,
      String.join_append, List.map_map, hself, List.map_id, join_filled, thoughts, htag,
      List.map_singleton, htag]
    simp [String.join_cons]
  | toolUse call =>
    refine Shown.join_text_eq_empty (List.forall_mem_cons.mpr ⟨?_, List.forall_mem_map.mpr
      fun fragment _ ↦ ?_⟩)
    · exact Shown.text_field_of_ne _ (by decide)
    · exact Shown.text_field_of_ne _ (by decide)

/-- The tool-call deltas of a block, under their index. -/
def callDeltas : ClaudeBlock serde → List (Nat × List Json)
  | toolUse call => [(calls, openingDelta calls call.id (originalName names call.name) ::
      (filled call.fragments).map (fragmentDelta calls call.id))]
  | _ => []

theorem calls_relayed (block : ClaudeBlock serde) :
    (block.relayed names calls).flatMap Shown.calls =
      (block.callDeltas names calls).flatMap Prod.snd := by
  have hcall (delta : Json) : (callShown delta).calls = [delta] := Shown.calls_field_calls ..
  have hcontent (words : String) : (contentShown words).calls = [] :=
    Shown.calls_field_of_ne _ (by decide)
  cases block with
  | text pieces =>
    exact List.flatMap_eq_nil_iff.mpr (List.forall_mem_map.mpr fun piece _ ↦ hcontent piece)
  | thinking pieces signature =>
    refine List.flatMap_eq_nil_iff.mpr (List.forall_mem_append.mpr ⟨List.forall_mem_cons.mpr
      ⟨hcontent _, List.forall_mem_map.mpr fun piece _ ↦ ?_⟩, ?_⟩)
    · exact Shown.calls_field_of_ne _ (by decide)
    · exact List.forall_mem_singleton.mpr (hcontent _)
  | toolUse call =>
    rw [relayed, callDeltas, List.flatMap_singleton, List.flatMap_cons, hcall, List.flatMap_map,
      List.map_eq_flatMap]
    simp only [hcall, List.singleton_append]

/-- No chunk of a block says how the message ends or what it uses. -/
theorem unfinished_relayed (block : ClaudeBlock serde) :
    ∀ shown ∈ block.relayed names calls, shown.finish = none ∧ shown.usage = none := by
  cases block with
  | text pieces => exact List.forall_mem_map.mpr fun _ _ ↦ ⟨rfl, rfl⟩
  | thinking pieces signature =>
    exact List.forall_mem_append.mpr ⟨List.forall_mem_cons.mpr ⟨⟨rfl, rfl⟩,
      List.forall_mem_map.mpr fun _ _ ↦ ⟨rfl, rfl⟩⟩, List.forall_mem_singleton.mpr ⟨rfl, rfl⟩⟩
  | toolUse call =>
    exact List.forall_mem_cons.mpr ⟨⟨rfl, rfl⟩, List.forall_mem_map.mpr fun _ _ ↦ ⟨rfl, rfl⟩⟩

end ClaudeBlock

section Calls

variable {index : Nat} {id name fragment : String}

theorem read_openingDelta : ToolCall.read (openingDelta index id name) = ⟨id, name, ""⟩ := by
  have hfunction : (openingDelta index id name).get "function" =
      some (Json.object [("name", .str name), ("arguments", .str "")]) := by
    rw [openingDelta, Json.get_object]
    rfl
  rw [ToolCall.read, functionText_of_object (by decide) hfunction,
    functionText_of_object (by decide) hfunction, openingDelta, Json.strField_object,
    Json.strField_object, Json.strField_object]
  rfl

theorem read_fragmentDelta :
    ToolCall.read (fragmentDelta index id fragment) = ⟨id, "", fragment⟩ := by
  have hfunction : (fragmentDelta index id fragment).get "function" =
      some (Json.object [("arguments", .str fragment)]) := by
    rw [fragmentDelta, Json.get_object]
    rfl
  rw [ToolCall.read, functionText_of_object (by decide) hfunction,
    functionText_of_object (by decide) hfunction, fragmentDelta, Json.strField_object,
    Json.strField_object, Json.strField_object]
  rfl

theorem stated_openingDelta : stated (openingDelta index id name) = some index := by
  rw [stated, openingDelta, Json.get_object]
  rfl

theorem indexOf_fragmentDelta : indexOf (fragmentDelta index id fragment) = index := by
  rw [indexOf, fragmentDelta, Json.get_object]
  rfl

/-- The deltas of one call join to it. -/
theorem join_callDeltas (fragments : List String) :
    ToolCall.join (openingDelta index id name :: fragments.map (fragmentDelta index id)) =
      ⟨id, name, String.join fragments⟩ := by
  have hread : (fragments.map (fragmentDelta index id)).map ToolCall.read =
      fragments.map fun fragment ↦ ⟨id, "", fragment⟩ := by
    rw [List.map_map]
    exact List.map_congr_left fun fragment _ ↦ read_fragmentDelta
  rw [ToolCall.join, hread, read_openingDelta, foldl_add]
  simp only [List.map_map, Function.comp_def, ToolCall.mk.injEq, List.map_id']
  refine ⟨(foldl_firstText_eq_self _ _).mpr ?_, (foldl_firstText_eq_self _ _).mpr ?_, rfl⟩
  · by_cases hid : id = ""
    · exact .inr (List.forall_mem_map.mpr fun _ _ ↦ hid)
    · exact .inl hid
  · exact .inr (List.forall_mem_map.mpr fun _ _ ↦ rfl)

/-- They merge without loss. -/
theorem mergeable_callDeltas (fragments : List String) :
    Mergeable (openingDelta index id name :: fragments.map (fragmentDelta index id)) := by
  refine .inr ⟨?_, .inl ?_, ?_⟩
  · rw [stated_openingDelta]
    rfl
  · rw [function?, openingDelta, Json.get_object]
    rfl
  · rw [read_openingDelta]
    by_cases hid : id = ""
    · refine .inr (List.forall_mem_map.mpr fun fragment _ ↦ ?_)
      rw [read_fragmentDelta]
      exact hid
    · exact .inl hid

end Calls

section Blocks

variable {serde : SerdeJson} {names : List (String × String)}

/-- The tool-call deltas of blocks, the tool blocks before them counted. -/
def callsOfBlocks (names : List (String × String)) :
    List (ClaudeBlock serde) → Nat → List (Nat × List Json)
  | [], _ => []
  | block :: blocks, calls =>
    block.callDeltas names calls ++ callsOfBlocks names blocks (calls + block.callCount)

/-- The calls of blocks are numbered upwards. -/
theorem pairwise_callsOfBlocks (blocks : List (ClaudeBlock serde)) (calls : Nat) :
    ((callsOfBlocks names blocks calls).map Prod.fst).Pairwise (· < ·) ∧
      ∀ call ∈ callsOfBlocks names blocks calls, calls ≤ call.1 := by
  induction blocks generalizing calls with
  | nil => exact ⟨.nil, nofun⟩
  | cons block blocks ih =>
    cases block with
    | toolUse call =>
      obtain ⟨hsorted, hle⟩ := ih (calls + 1)
      refine ⟨List.pairwise_cons.mpr ⟨?_, hsorted⟩, List.forall_mem_cons.mpr ⟨Nat.le_refl _, ?_⟩⟩
      · intro index hindex
        obtain ⟨other, hother, rfl⟩ := List.mem_map.mp hindex
        exact hle other hother
      · intro other hother
        have := hle other hother
        omega
    | _ => exact ih calls

/-- Each call begins with the delta that opens it. -/
theorem forms_callsOfBlocks (blocks : List (ClaudeBlock serde)) (calls : Nat) :
    ∀ call ∈ callsOfBlocks names blocks calls, ∃ (id name : String) (fragments : List String),
      call.2 = openingDelta call.1 id name :: fragments.map (fragmentDelta call.1 id) := by
  induction blocks generalizing calls with
  | nil => nofun
  | cons block blocks ih =>
    refine List.forall_mem_append.mpr ⟨?_, ih _⟩
    cases block with
    | toolUse call => exact List.forall_mem_singleton.mpr ⟨_, _, _, rfl⟩
    | _ => nofun

/-- They join to the uses of tools, under the names of the client. -/
theorem join_callsOfBlocks (blocks : List (ClaudeBlock serde)) (calls : Nat) :
    (callsOfBlocks names blocks calls).map (fun call ↦ ToolCall.join call.2) =
      (blocks.filterMap ClaudeBlock.call?).map fun call ↦
        ⟨call.id, originalName names call.name, String.join call.fragments⟩ := by
  induction blocks generalizing calls with
  | nil => rfl
  | cons block blocks ih =>
    cases block with
    | toolUse call =>
      have hfirst := @join_callDeltas calls call.id (originalName names call.name)
        (filled call.fragments)
      rw [join_filled] at hfirst
      rw [callsOfBlocks, List.map_append, ih]
      simp [ClaudeBlock.callDeltas, ClaudeBlock.call?, hfirst]
    | _ => exact ih _

/-- The calls of a message as they are merged. -/
theorem merge_callsOfBlocks (blocks : List (ClaudeBlock serde)) :
    (mergeToolCalls [] ((callsOfBlocks names blocks 0).flatMap Prod.snd)).map ToolCall.read =
      (blocks.filterMap ClaudeBlock.call?).map fun call ↦
        ⟨call.id, originalName names call.name, String.join call.fragments⟩ := by
  rw [mergeToolCalls_flatMap, join_callsOfBlocks]
  · exact (pairwise_callsOfBlocks blocks 0).1.imp Nat.ne_of_lt
  · intro call hcall
    obtain ⟨id, name, fragments, hform⟩ := forms_callsOfBlocks blocks 0 call hcall
    rw [hform]
    refine List.forall_mem_cons.mpr ⟨?_, List.forall_mem_map.mpr fun _ _ ↦ indexOf_fragmentDelta⟩
    rw [indexOf, ← stated, stated_openingDelta, Option.getD_some]
  · intro call hcall
    obtain ⟨id, name, fragments, hform⟩ := forms_callsOfBlocks blocks 0 call hcall
    rw [hform]
    exact List.cons_ne_nil _ _
  · intro call hcall
    obtain ⟨id, name, fragments, hform⟩ := forms_callsOfBlocks blocks 0 call hcall
    rw [hform]
    exact mergeable_callDeltas fragments

/-- What the chunks of blocks say. -/
theorem shown_relayedBlocks (blocks : List (ClaudeBlock serde)) (calls : Nat) :
    String.join ((relayedBlocks names blocks calls).map (Shown.text "content")) =
        String.join (blocks.map ClaudeBlock.streamedText) ∧
      String.join ((relayedBlocks names blocks calls).map (Shown.text "reasoning_content")) =
        String.join (blocks.map ClaudeBlock.thoughts) ∧
      (relayedBlocks names blocks calls).flatMap Shown.calls =
        (callsOfBlocks names blocks calls).flatMap Prod.snd ∧
      ∀ shown ∈ relayedBlocks names blocks calls, shown.finish = none ∧ shown.usage = none := by
  induction blocks generalizing calls with
  | nil => exact ⟨rfl, rfl, rfl, nofun⟩
  | cons block blocks ih =>
    obtain ⟨htext, hreasoning, hcalls, hunfinished⟩ := ih (calls + block.callCount)
    refine ⟨?_, ?_, ?_, ?_⟩
    · rw [relayedBlocks, List.map_append, String.join_append, htext, ClaudeBlock.text_relayed,
        List.map_cons, String.join_cons]
    · rw [relayedBlocks, List.map_append, String.join_append, hreasoning,
        ClaudeBlock.reasoning_relayed, List.map_cons, String.join_cons]
    · rw [relayedBlocks, List.flatMap_append, hcalls, ClaudeBlock.calls_relayed, callsOfBlocks,
        List.flatMap_append]
    · exact List.forall_mem_append.mpr ⟨block.unfinished_relayed names calls, hunfinished⟩

end Blocks

/-- What is gathered of the stream of a Claude message. -/
theorem collapsed_claude {serde : SerdeJson} (write : Json → String) (reply : ClaudeReply serde)
    (clock : Nat → Nat) (names : List (String × String)) :
    let relayed := through (translate write) reply.events { clock, toolNameMap := names }
    let collapsed := ({} : Collapsed).take relayed.1
    collapsed.text = String.join (reply.blocks.map ClaudeBlock.streamedText) ∧
      collapsed.reasoning = String.join (reply.blocks.map ClaudeBlock.thoughts) ∧
      collapsed.toolCalls.map ToolCall.read = ((reply.blocks.filterMap ClaudeBlock.call?).map
        fun call ↦ ⟨call.id, originalName names call.name, String.join call.fragments⟩) ∧
      collapsed.finishReason = some reply.streamedFinish ∧
      relayed.2.usage.or collapsed.scrapedUsage =
        reply.counts.map fun counts ↦ counts.toUsage counts.output := by
  intro relayed collapsed
  obtain ⟨usage, hnone, hshown, husage⟩ := @ClaudeReply.relays_stream _ reply write names clock
  obtain ⟨htext, hreasoning, hcalls, hunfinished⟩ := @shown_relayedBlocks _ names reply.blocks 0
  obtain ⟨htaken, hthought, hmerged, hfinish⟩ := take_shown hshown
  have hread {key : String} (hkey : key ≠ "role") := @Shown.read_role_last
    (relayedBlocks names reply.blocks 0) (fun shown h ↦ (hunfinished shown h).1)
    reply.streamedFinish usage key hkey
  refine ⟨?_, ?_, ?_, ?_, ?_⟩
  · exact htaken.trans ((hread (by decide)).1.trans htext)
  · exact hthought.trans ((hread (by decide)).1.trans hreasoning)
  · rw [hmerged, (@hread "" (by decide)).2.1, hcalls, merge_callsOfBlocks]
  · rw [hfinish, (@hread "" (by decide)).2.2]
    rfl
  · cases hcounts : reply.counts with
    | some counts =>
      rw [hcounts] at husage
      rw [husage]
      rfl
    | none =>
      rw [hcounts] at husage
      rw [husage, Option.map_none, Option.none_or]
      refine scrapedUsage_of_shown hshown ?_
      refine List.forall_mem_append.mpr ⟨List.forall_mem_cons.mpr ⟨rfl, fun shown h ↦
        (hunfinished shown h).2⟩, List.forall_mem_singleton.mpr (hnone hcounts)⟩

end NullRouter.Stream
