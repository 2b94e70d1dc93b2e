import NullRouter.Translate.State

/-!
# Claude events to OpenAI chunks

`crates/translate/src/response/claude_to_openai.rs`. Writing JSON text is a parameter.
-/

namespace NullRouter.Translate.Response.ClaudeToOpenai

open NullRouter.Base

/-- `chunk`, `claude_to_openai.rs:24`. -/
def chunk (delta : Json) (finishReason : Option String) (s : StreamState) : Json × StreamState :=
  (buildChunk ⟨"chatcmpl-" ++ s.messageId.getD "", s.nowSeconds.1, s.model.getD ""⟩ delta
    finishReason, s.nowSeconds.2)

/-- A step that puts out one chunk. -/
def emit (delta : Json) (s : StreamState) : List Json × StreamState :=
  ([(chunk delta none s).1], (chunk delta none s).2)

/-- The index that an event names. -/
def eventIndex (event : Json) : Option Nat := (event.get "index").bind Json.asU64

/-- The usage of the tokens of the prompt and of those put out. -/
def usageOf (s : StreamState) (output : Nat) : Usage :=
  let prompt := s.claudeInputTokens + s.claudeCacheReadTokens + s.claudeCacheCreationTokens
  { promptTokens := prompt
    completionTokens := output
    totalTokens := prompt + output
    cachedTokens := s.claudeCacheReadTokens
    cacheCreationTokens := s.claudeCacheCreationTokens }

/-- The usage that a message starts with. -/
def startUsage (usage : Json) (s : StreamState) : StreamState :=
  let s := { s with
    claudeInputTokens := countAt usage ["input_tokens"]
    claudeCacheReadTokens := countAt usage ["cache_read_input_tokens"]
    claudeCacheCreationTokens := countAt usage ["cache_creation_input_tokens"]
    claudeOutputTokens := 0 }
  { s with usage := some (usageOf s 0) }

/-- `handle_message_start`, `claude_to_openai.rs:48`. -/
def handleMessageStart (event : Json) (s : StreamState) : List Json × StreamState :=
  let message := event.get "message"
  let identified := match message.bind (·.strField "id") with
    | some id => (id, s)
    | none => ("msg_" ++ toString s.nowMillis.1, s.nowMillis.2)
  let s := { identified.2 with
    messageId := some identified.1
    model := message.bind (·.strField "model")
    toolCallIndex := 0 }
  emit (Json.object [("role", .str "assistant")])
    (match (message.bind (·.get "usage")).filter (·.asObject.isSome) with
      | some usage => startUsage usage s
      | none => s)

/-- The arguments that a tool block starts with. -/
def initialArguments (write : Json → String) (block : Json) : String :=
  match (block.get "input").filter fun v ↦ !v.isNull && v.asObject ≠ some [] with
  | some input => write input
  | none => ""

/-- A tool block opens. -/
def openTool (write : Json → String) (index : Option Nat) (block : Json) (s : StreamState) :
    List Json × StreamState :=
  let name := s.originalToolName ((block.strField "name").getD "")
  let id := (block.strField "id").getD ""
  let arguments := initialArguments write block
  let call : OpenAiToolCall := ⟨s.toolCallIndex, id, name, arguments⟩
  emit (Json.object [("tool_calls", .arr [Json.object [("index", Json.nat s.toolCallIndex),
      ("id", .str id), ("type", .str "function"),
      ("function", Json.object [("name", .str name), ("arguments", .str arguments)])]])])
    { s with
      toolCallIndex := s.toolCallIndex + 1
      openaiToolCalls := index.elim s.openaiToolCalls (s.openaiToolCalls.insert · call) }

/-- `handle_block_start`, `claude_to_openai.rs:92`. -/
def handleBlockStart (write : Json → String) (event : Json) (s : StreamState) :
    List Json × StreamState :=
  let index := eventIndex event
  match event.get "content_block" with
  | none => ([], s)
  | some block =>
    match block.strField "type" with
    | some "server_tool_use" => ([], { s with serverToolBlockIndex := index })
    | some "text" => ([], { s with textBlockStarted := true })
    | some "thinking" => emit (Json.object [("content", .str "<think>")])
        { s with inThinkingBlock := true, currentBlockIndex := index }
    | some "tool_use" => openTool write index block s
    | _ => ([], s)

/-- A fragment of the arguments of the tool block at an index. -/
def argumentDelta (index : Option Nat) (fragment : String) (s : StreamState) :
    List Json × StreamState :=
  match index.bind fun index ↦ s.openaiToolCalls[index]?.map (index, ·) with
  | none => ([], s)
  | some (index, call) =>
    let call := { call with arguments := call.arguments ++ fragment }
    emit (Json.object [("tool_calls", .arr [Json.object [("index", Json.nat call.index),
        ("id", .str call.id), ("function", Json.object [("arguments", .str fragment)])]])])
      { s with openaiToolCalls := s.openaiToolCalls.insert index call }

/-- Whether an event is about the block of a built-in tool. -/
def isServerTool (event : Json) (s : StreamState) : Bool :=
  (eventIndex event).isSome && eventIndex event == s.serverToolBlockIndex

/-- `handle_block_delta`, `claude_to_openai.rs:152`. -/
def handleBlockDelta (event : Json) (s : StreamState) : List Json × StreamState :=
  if isServerTool event s then ([], s)
  else
    match event.get "delta" with
    | none => ([], s)
    | some delta =>
      let text := fun key : String ↦ (delta.strField key).filter (!·.isEmpty)
      match delta.strField "type" with
      | some "text_delta" => (text "text").elim ([], s) fun text ↦
          emit (Json.object [("content", .str text)]) s
      | some "thinking_delta" => (text "thinking").elim ([], s) fun text ↦
          emit (reasoningDelta text false) s
      | some "input_json_delta" => (text "partial_json").elim ([], s) fun fragment ↦
          argumentDelta (eventIndex event) fragment s
      | _ => ([], s)

/-- `handle_block_stop`, `claude_to_openai.rs:206`. -/
def handleBlockStop (event : Json) (s : StreamState) : List Json × StreamState :=
  if isServerTool event s then ([], { s with serverToolBlockIndex := none })
  else
    let closed := if s.inThinkingBlock && eventIndex event == s.currentBlockIndex then
        let closed := emit (Json.object [("content", .str "</think>")]) s
        (closed.1, { closed.2 with inThinkingBlock := false })
      else ([], s)
    (closed.1, { closed.2 with textBlockStarted := false, thinkingBlockStarted := false })

/-- The usage that a message goes on with: what is missing stays as it was, but for the tokens
put out. -/
def deltaUsage (usage : Json) (s : StreamState) : StreamState :=
  let read := fun (key : String) (previous : Nat) ↦
    ((usage.get key).bind Json.asU64).getD previous
  let s := { s with
    claudeInputTokens := read "input_tokens" s.claudeInputTokens
    claudeOutputTokens := read "output_tokens" 0
    claudeCacheReadTokens := read "cache_read_input_tokens" s.claudeCacheReadTokens
    claudeCacheCreationTokens :=
      read "cache_creation_input_tokens" s.claudeCacheCreationTokens }
  { s with usage := some (usageOf s s.claudeOutputTokens) }

/-- The last chunk, with the usage where there is one. -/
def finishChunk (finish : String) (usage : Option Json) (s : StreamState) :
    List Json × StreamState :=
  let last := chunk (Json.object []) (some finish) s
  ([usage.elim last.1 (last.1.setField "usage")],
    { last.2 with finishReasonSent := true })

/-- `handle_message_delta`, `claude_to_openai.rs:220`. -/
def handleMessageDelta (event : Json) (s : StreamState) : List Json × StreamState :=
  let s := match (event.get "usage").filter (·.asObject.isSome) with
    | some usage => deltaUsage usage s
    | none => s
  match (event.get "delta").bind (·.strField "stop_reason") with
  | none => ([], s)
  | some stopReason =>
    finishChunk (finishOfClaude stopReason)
      (s.usage.map fun _ ↦ (usageOf s s.claudeOutputTokens).toValue)
      { s with finishReason := some (finishOfClaude stopReason) }

/-- `handle_message_stop`, `claude_to_openai.rs:282`. -/
def handleMessageStop (s : StreamState) : List Json × StreamState :=
  if s.finishReasonSent then ([], s)
  else
    let finish := s.finishReason.getD
      (if s.openaiToolCalls.isEmpty then "stop" else "tool_calls")
    finishChunk finish (s.usage.map fun _ ↦ Json.object [
      ("prompt_tokens", Json.nat s.claudeInputTokens),
      ("completion_tokens", Json.nat s.claudeOutputTokens),
      ("total_tokens", Json.nat (s.claudeInputTokens + s.claudeOutputTokens))]) s

/-- `translate`, `claude_to_openai.rs:29`. -/
def translate (write : Json → String) (event : Json) (s : StreamState) :
    List Json × StreamState :=
  match event.strField "type" with
  | some "message_start" => handleMessageStart event s
  | some "content_block_start" => handleBlockStart write event s
  | some "content_block_delta" => handleBlockDelta event s
  | some "content_block_stop" => handleBlockStop event s
  | some "message_delta" => handleMessageDelta event s
  | some "message_stop" => handleMessageStop s
  | _ => ([], s)

end NullRouter.Translate.Response.ClaudeToOpenai
