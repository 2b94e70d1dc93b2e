import NullRouter.Translate.State

/-!
# OpenAI chunks to Claude events

`crates/translate/src/response/openai_to_claude.rs`: content blocks that open and close in turn,
tool arguments buffered until the finish. Reading and writing JSON text are parameters.
-/

namespace NullRouter.Translate

open NullRouter.Base

/-- The state of a translation and the events it has put out. -/
structure ClaudeOut where
  state : StreamState
  out : List Json

/-- `i64::from_str`: an optional sign, then decimal digits that do not overflow. -/
def parseI64 (s : String) : Option Int :=
  match s.toList with
  | '-' :: rest =>
    if rest ≠ [] ∧ rest.all Char.isDigit ∧ Nat.ofDigitChars 10 rest 0 ≤ 2 ^ 63 then
      some (-(Nat.ofDigitChars 10 rest 0 : Int))
    else none
  | _ => (parseU64 s).bind fun n ↦ if n < 2 ^ 63 then some (n : Int) else none

/-- `Value::as_i64`. -/
def asI64 : Json → Option Int
  | .num (.posInt n) => if n < 2 ^ 63 then some (n : Int) else none
  | .num (.negInt n) => some n
  | _ => none

/-- `json!` of an `i64`. -/
def ofI64 (n : Int) : Json := if n < 0 then .num (.negInt n) else Json.nat n.toNat

namespace Claude

/-- `CLAUDE_OAUTH_TOOL_PREFIX`. -/
def toolPrefix : String := "proxy_"

/-- `Map::remove`. -/
def removeField (fields : List (String × Json)) (key : String) : List (String × Json) :=
  fields.filter (·.1 ≠ key)

/-- `is_valid_pdf_pages`, `openai_to_claude.rs:403`. The text that a path ends in is compared
letter by letter, which is what lowering its case comes to. -/
def isValidPdfPages (filePath pages : Option String) : Bool :=
  match filePath, pages with
  | some path, some pages =>
    let digits := fun text : List Char ↦ !text.isEmpty && text.all Char.isDigit
    let start := pages.toList.takeWhile (· ≠ '-')
    let rest := pages.toList.drop start.length
    ".pdf".toList.reverse.isPrefixOf (path.toList.map Char.toLower).reverse &&
      digits start && (rest.isEmpty || digits (rest.drop 1))
  | _, _ => false

/-- A numeric text field made a number. -/
def coerceNumber (fields : List (String × Json)) (key : String) : List (String × Json) :=
  match ((fields.lookup key).bind Json.asStr).bind parseI64 with
  | some n => Json.insertField fields key (ofI64 n)
  | none => fields

/-- `sanitize_read_args`, `openai_to_claude.rs:364`. -/
def sanitizeReadArgs : Json → Json
  | .obj fields =>
    let fields := coerceNumber (coerceNumber fields "limit") "offset"
    let fields := match (fields.lookup "limit").bind asI64 with
      | some limit =>
        if limit > 2000 then Json.insertField fields "limit" (Json.nat 2000)
        else if limit < 1 then removeField fields "limit" else fields
      | none => fields
    let fields := match (fields.lookup "offset").bind asI64 with
      | some offset => if offset < 0 then Json.insertField fields "offset" (Json.nat 0) else fields
      | none => fields
    if (fields.lookup "pages").isSome &&
        !isValidPdfPages ((fields.lookup "file_path").bind Json.asStr)
          ((fields.lookup "pages").bind Json.asStr) then
      .obj (removeField fields "pages")
    else .obj fields
  | other => other

/-- `sanitize_tool_args`, `openai_to_claude.rs:350`. -/
def sanitizeToolArgs (read : String → Option Json) (write : Json → String)
    (toolName argsJson : String) : String :=
  match read argsJson with
  | none => argsJson
  | some args =>
    let name := (stripPrefix? toolPrefix toolName).getD toolName
    write (if name = "Read" then sanitizeReadArgs args else args)

/-- `capture_usage`, `openai_to_claude.rs:93`. -/
def captureUsage (chunk : Json) (s : StreamState) : StreamState :=
  match (chunk.get "usage").filter (·.asObject.isSome) with
  | none => s
  | some usage =>
    let prompt := countAt usage ["prompt_tokens"]
    let output := countAt usage ["completion_tokens"]
    let cached := countAt usage ["prompt_tokens_details", "cached_tokens"]
    let cacheRead := if cached = 0 then countAt usage ["prompt_cache_hit_tokens"] else cached
    let cacheCreate := countAt usage ["prompt_tokens_details", "cache_creation_tokens"]
    { s with
      claudeInputTokens := prompt - cacheRead - cacheCreate
      claudeOutputTokens := output
      claudeCacheReadTokens := cacheRead
      claudeCacheCreationTokens := cacheCreate
      usage := some {
        promptTokens := prompt
        completionTokens := output
        totalTokens := prompt + output
        cachedTokens := cacheRead
        cacheCreationTokens := cacheCreate
        reasoningTokens := countAt usage ["completion_tokens_details", "reasoning_tokens"] } }

/-- The id of the message: the chunk's, or what stands in for one too short. -/
def messageId (chunk : Json) (s : StreamState) : String × StreamState :=
  let id := (chunk.strField "id").getD ""
  let raw := (stripPrefix? "chatcmpl-" id).getD id
  let extend := fun key ↦ (chunk.get "extend_fields").bind (·.strField key)
  if raw.isEmpty ∨ raw = "chat" ∨ raw.utf8ByteSize < 8 then
    match (extend "requestId").or (extend "traceId") with
    | some id => (id, s)
    | none => ("msg_" ++ toString s.nowMillis.1, s.nowMillis.2)
  else (raw, s)

/-- `emit_message_start`, `openai_to_claude.rs:136`. -/
def emitMessageStart (chunk : Json) (e : ClaudeOut) : ClaudeOut :=
  if e.state.messageStartSent then e
  else
    let identified := messageId chunk e.state
    let model := (chunk.strField "model").getD "unknown"
    ⟨{ identified.2 with
        messageStartSent := true
        messageId := some identified.1
        model := some model
        nextBlockIndex := 0 },
      e.out ++ [Json.object [("type", .str "message_start"), ("message", Json.object [
        ("id", .str identified.1), ("type", .str "message"), ("role", .str "assistant"),
        ("model", .str model), ("content", .arr []), ("stop_reason", .null),
        ("stop_sequence", .null), ("usage", Json.object [("input_tokens", Json.nat 0),
          ("output_tokens", Json.nat 0)])])]]⟩

/-- The event that ends a block. -/
def blockStop (index : Nat) : Json :=
  Json.object [("type", .str "content_block_stop"), ("index", Json.nat index)]

/-- The event that begins a block. -/
def blockStart (index : Nat) (block : Json) : Json :=
  Json.object [("type", .str "content_block_start"), ("index", Json.nat index),
    ("content_block", block)]

/-- The event that carries a part of a block. -/
def blockDelta (index : Nat) (delta : Json) : Json :=
  Json.object [("type", .str "content_block_delta"), ("index", Json.nat index), ("delta", delta)]

/-- `stop_thinking_block`, `openai_to_claude.rs:325`. -/
def stopThinkingBlock (e : ClaudeOut) : ClaudeOut :=
  if !e.state.thinkingBlockStarted then e
  else ⟨{ e.state with thinkingBlockStarted := false },
    e.out ++ [blockStop e.state.thinkingBlockIndex]⟩

/-- `stop_text_block`, `openai_to_claude.rs:336`. -/
def stopTextBlock (e : ClaudeOut) : ClaudeOut :=
  if !e.state.textBlockStarted || e.state.textBlockClosed then e
  else ⟨{ e.state with textBlockClosed := true, textBlockStarted := false },
    e.out ++ [blockStop e.state.textBlockIndex]⟩

/-- A thinking block is begun unless one is open. -/
def startThinkingBlock (e : ClaudeOut) : ClaudeOut :=
  if e.state.thinkingBlockStarted then e
  else ⟨{ e.state with
      thinkingBlockIndex := e.state.nextBlockIndex
      nextBlockIndex := e.state.nextBlockIndex + 1
      thinkingBlockStarted := true },
    e.out ++ [blockStart e.state.nextBlockIndex
      (Json.object [("type", .str "thinking"), ("thinking", .str "")])]⟩

/-- A text block is begun unless one is open. -/
def startTextBlock (e : ClaudeOut) : ClaudeOut :=
  if e.state.textBlockStarted then e
  else ⟨{ e.state with
      textBlockIndex := e.state.nextBlockIndex
      nextBlockIndex := e.state.nextBlockIndex + 1
      textBlockStarted := true
      textBlockClosed := false },
    e.out ++ [blockStart e.state.nextBlockIndex
      (Json.object [("type", .str "text"), ("text", .str "")])]⟩

/-- The reasoning branch of `translate`, `openai_to_claude.rs:17`. -/
def emitThinking (reasoning : String) (e : ClaudeOut) : ClaudeOut :=
  let e := startThinkingBlock (stopTextBlock e)
  { e with out := e.out ++ [blockDelta e.state.thinkingBlockIndex
    (Json.object [("type", .str "thinking_delta"), ("thinking", .str reasoning)])] }

/-- The text branch of `translate`, `openai_to_claude.rs:17`. -/
def emitText (content : String) (e : ClaudeOut) : ClaudeOut :=
  let e := startTextBlock (stopThinkingBlock e)
  { e with out := e.out ++ [blockDelta e.state.textBlockIndex
    (Json.object [("type", .str "text_delta"), ("text", .str content)])] }

/-- The name a tool call carries. -/
def callName (call : Json) : String :=
  (((((call.get "function").bind (·.get "name")).or (call.get "name"))).bind Json.asStr).getD ""

/-- The arguments a tool call carries, where they are not empty. -/
def callArguments (call : Json) : Option String :=
  ((((call.get "function").bind (·.get "arguments")).or (call.get "arguments")).bind
    Json.asStr).filter (!·.isEmpty)

/-- A tool call's own id, or one made from the clock. -/
def effectiveId (call : Json) (s : StreamState) : String × StreamState :=
  let id := (call.strField "id").getD ""
  if id.isEmpty then
    ("toolu_gen_" ++ toString s.nowMillis.1 ++ "_" ++ toString (indexOf call), s.nowMillis.2)
  else (id, s)

/-- A tool call says which tool it is for: only such a one opens a block. -/
def isNamed (call : Json) : Bool :=
  !((call.strField "id").getD "").isEmpty || !(callName call).isEmpty

/-- A tool call of an index has a block. -/
def hasCall (calls : List (Nat × ClaudeToolCall)) (index : Nat) : Bool := calls.any (·.1 == index)

/-- What opening the block of a tool call puts out. -/
def openToolBlock (call : Json) (effectiveId : String) (e : ClaudeOut) : ClaudeOut :=
  let e := stopTextBlock (stopThinkingBlock e)
  let block := e.state.nextBlockIndex
  let name := callName call
  ⟨{ e.state with
      nextBlockIndex := block + 1
      claudeToolCalls := e.state.claudeToolCalls.orderedInsert (·.1 ≤ ·.1)
        (indexOf call, ⟨effectiveId, name, block⟩) },
    e.out ++ [blockStart block (Json.object [("type", .str "tool_use"), ("id", .str effectiveId),
      ("name", .str ((stripPrefix? toolPrefix name).getD name)), ("input", Json.object [])])]⟩

/-- A name may come after the block has opened. -/
def nameToolBlock (call : Json) (e : ClaudeOut) : ClaudeOut :=
  let name := callName call
  let rename := fun c : Nat × ClaudeToolCall ↦
    if c.1 = indexOf call ∧ c.2.name.isEmpty then (c.1, { c.2 with name }) else c
  if name.isEmpty then e
  else { e with state := { e.state with
    claudeToolCalls := e.state.claudeToolCalls.map rename } }

/-- Arguments are buffered for a tool call whose block is open. -/
def bufferArguments (call : Json) (e : ClaudeOut) : ClaudeOut :=
  match callArguments call with
  | none => e
  | some arguments =>
    if hasCall e.state.claudeToolCalls (indexOf call) then
      { e with state := { e.state with
        toolArgBuffers := pushText e.state.toolArgBuffers (indexOf call) arguments } }
    else e

/-- One turn of `handle_tool_calls`, `openai_to_claude.rs:192`. -/
def handleToolCall (e : ClaudeOut) (call : Json) : ClaudeOut :=
  let identified := effectiveId call e.state
  let e : ClaudeOut := { e with state := identified.2 }
  let e := if isNamed call && !hasCall e.state.claudeToolCalls (indexOf call) then
    openToolBlock call identified.1 e
  else nameToolBlock call e
  bufferArguments call e

/-- `claude_usage_value`, `openai_to_claude.rs:303`. -/
def claudeUsageValue (s : StreamState) : Json :=
  Json.object ([("input_tokens", Json.nat s.claudeInputTokens),
    ("output_tokens", Json.nat s.claudeOutputTokens)] ++
    (if s.claudeCacheReadTokens > 0 then
      [("cache_read_input_tokens", Json.nat s.claudeCacheReadTokens)] else []) ++
    (if s.claudeCacheCreationTokens > 0 then
      [("cache_creation_input_tokens", Json.nat s.claudeCacheCreationTokens)] else []))

/-- What the finish puts out for one tool call. -/
def finishToolBlock (read : String → Option Json) (write : Json → String) (s : StreamState)
    (call : Nat × ClaudeToolCall) : List Json :=
  let buffered := (s.toolArgBuffers[call.1]?.getD "")
  (if buffered.isEmpty then [] else [blockDelta call.2.blockIndex
    (Json.object [("type", .str "input_json_delta"),
      ("partial_json", .str (sanitizeToolArgs read write call.2.name buffered))])]) ++
    [blockStop call.2.blockIndex]

/-- `handle_finish`, `openai_to_claude.rs:267`. -/
def handleFinish (read : String → Option Json) (write : Json → String) (finish : String)
    (e : ClaudeOut) : ClaudeOut :=
  let e := stopTextBlock (stopThinkingBlock e)
  ⟨{ e.state with finishReason := some finish },
    e.out ++ e.state.claudeToolCalls.flatMap (finishToolBlock read write e.state) ++
      [Json.object [("type", .str "message_delta"),
        ("delta", Json.object [("stop_reason", .str (finishToClaude finish))]),
        ("usage", claudeUsageValue e.state)], Json.object [("type", .str "message_stop")]]⟩

/-- The content of a choice, once the message has started. -/
def content (choice : Json) (e : ClaudeOut) : ClaudeOut :=
  let delta := choice.get "delta"
  let reasoning := extractReasoningText delta
  let e := if reasoning.isEmpty then e else emitThinking reasoning e
  let e := match deltaText delta "content" with
    | none => e
    | some text => emitText text e
  (deltaToolCalls delta).foldl handleToolCall e

/-- `translate`, `openai_to_claude.rs:17`. -/
def translate (read : String → Option Json) (write : Json → String) (chunk : Json)
    (s : StreamState) : List Json × StreamState :=
  match firstChoice chunk with
  | none => ([], s)
  | some choice =>
    let e := content choice (emitMessageStart chunk ⟨captureUsage chunk s, []⟩)
    let e := match choiceFinish choice with
      | none => e
      | some finish => handleFinish read write finish e
    (e.out, e.state)

end Claude
end NullRouter.Translate
