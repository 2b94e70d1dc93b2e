import NullRouter.Translate.State

/-!
# CommandCode events to OpenAI chunks

`crates/translate/src/response/commandcode_to_openai.rs`: named events of an AI SDK stream.
Writing JSON text is a parameter.
-/

namespace NullRouter.Translate.CommandCode

open NullRouter.Base

/-- `chunk_meta`, `commandcode_to_openai.rs:23`. -/
def chunkMeta (s : StreamState) : ChunkMeta × StreamState :=
  let identified := match s.messageId with
    | some id => (id, s)
    | none => ("chatcmpl-" ++ toString s.nowMillis.1, s.nowMillis.2)
  let dated := match identified.2.commandCodeCreated with
    | some created => (created, identified.2)
    | none => identified.2.nowSeconds
  (⟨identified.1, dated.1, dated.2.model.getD ""⟩, dated.2)

/-- One chunk of the response. -/
def chunk (delta : Json) (finishReason : Option String) (s : StreamState) : Json × StreamState :=
  (buildChunk (chunkMeta s).1 delta finishReason, (chunkMeta s).2)

/-- `mapped_finish`, `commandcode_to_openai.rs:86`. -/
def mappedFinish (raw : Json) : String :=
  finishOfCommandCode ((raw.strField "finishReason").getD "")

/-- `first_chunk`, `commandcode_to_openai.rs:96`. -/
def firstChunk (s : StreamState) : Bool × StreamState :=
  (s.commandCodeChunks == 0, { s with commandCodeChunks := satAdd64 s.commandCodeChunks 1 })

/-- The role, which the first chunk carries. -/
def roleField (first : Bool) : List (String × Json) :=
  if first then [("role", .str "assistant")] else []

/-- `text_delta`, `commandcode_to_openai.rs:102`. -/
def textDelta (raw : Json) (s : StreamState) : List Json × StreamState :=
  let text := (((raw.get "text").or (raw.get "delta")).bind Json.asStr).getD ""
  if text.isEmpty then ([], s)
  else
    let first := firstChunk s
    let c := chunk (Json.object (roleField first.1 ++ [("content", .str text)])) none first.2
    ([c.1], c.2)

/-- `reasoning`, `commandcode_to_openai.rs:119`. -/
def reasoning (raw : Json) (s : StreamState) : List Json × StreamState :=
  let text := (raw.strField "text").getD ""
  if text.isEmpty then ([], s)
  else
    let first := firstChunk s
    let c := chunk (reasoningDelta text first.1) none first.2
    ([c.1], c.2)

/-- `tool_id`, `commandcode_to_openai.rs:129`. -/
def toolId (raw : Json) : Option String :=
  ((raw.get "id").or (raw.get "toolCallId")).bind Json.asStr

/-- The delta that opens a tool call. -/
def toolCallDelta (first : Bool) (index : Nat) (id name arguments : String) : Json :=
  Json.object (roleField first ++ [("tool_calls", .arr [Json.object [("index", Json.nat index),
    ("id", .str id), ("type", .str "function"),
    ("function", Json.object [("name", .str name), ("arguments", .str arguments)])]])])

/-- The next index, for a tool id that has none. -/
def indexTool (id : String) (s : StreamState) : Nat × StreamState :=
  (s.commandCodeTools, { s with
    commandCodeTools := satAdd64 s.commandCodeTools 1
    commandCodeToolIndex := s.commandCodeToolIndex.insert id s.commandCodeTools })

/-- `tool_start`, `commandcode_to_openai.rs:135`. -/
def toolStart (raw : Json) (s : StreamState) : List Json × StreamState :=
  let identified := match toolId raw with
    | some id => (id, s)
    | none => ("call_" ++ toString s.commandCodeTools ++ "_" ++ toString s.nowMillis.1,
        s.nowMillis.2)
  let indexed := match identified.2.commandCodeToolIndex[identified.1]? with
    | some index => (index, identified.2)
    | none => indexTool identified.1 identified.2
  let first := firstChunk indexed.2
  let c := chunk (toolCallDelta first.1 indexed.1 identified.1
    ((raw.strField "toolName").getD "") "") none first.2
  ([c.1], c.2)

/-- `tool_delta`, `commandcode_to_openai.rs:175`. -/
def toolDelta (raw : Json) (s : StreamState) : List Json × StreamState :=
  match (toolId raw).bind (s.commandCodeToolIndex[·]?) with
  | none => ([], s)
  | some index =>
    let fragment := (((raw.get "delta").or (raw.get "inputTextDelta")).bind Json.asStr).getD ""
    let c := chunk (Json.object [("tool_calls", .arr [Json.object [("index", Json.nat index),
      ("function", Json.object [("arguments", .str fragment)])]])]) none s
    ([c.1], c.2)

/-- `whole_tool_call`, `commandcode_to_openai.rs:198`. -/
def wholeToolCall (write : Json → String) (raw : Json) (s : StreamState) :
    List Json × StreamState :=
  match raw.strField "toolCallId" with
  | none => ([], s)
  | some id =>
    if (s.commandCodeToolIndex[id]?).isSome then ([], s)
    else
      let indexed := indexTool id s
      let arguments := match raw.get "input" with
        | some (.str text) => text
        | some other => write other
        | none => "\x7b\x7d"
      let first := firstChunk indexed.2
      let c := chunk (toolCallDelta first.1 indexed.1 id ((raw.strField "toolName").getD "")
        arguments) none first.2
      ([c.1], c.2)

/-- `finish`, `commandcode_to_openai.rs:239`. -/
def finish (raw : Json) (s : StreamState) : List Json × StreamState :=
  let reason := s.finishReason.getD (mappedFinish raw)
  let c := chunk (Json.object []) (some reason) s
  match ((raw.get "totalUsage").bind Usage.ofCommandCode).or c.2.usage with
  | none => ([c.1], c.2)
  | some usage =>
    let withUsage := match c.1 with
      | .obj fields => .obj (Json.insertField fields "usage" usage.toValue)
      | other => other
    ([withUsage], { c.2 with usage := some usage })

/-- `error_event`, `commandcode_to_openai.rs:259`. -/
def errorEvent (write : Json → String) (raw : Json) (s : StreamState) : List Json × StreamState :=
  let message := match (raw.get "error").or (raw.get "message") with
    | some (.str text) => text
    | some other => write other
    | none => "unknown"
  let s := { s with finishReason := some "stop" }
  let c := chunk (Json.object
    [("content", .str ("\n\n[CommandCode error: " ++ message ++ "]"))]) none s
  let d := chunk (Json.object []) (some "stop") c.2
  ([c.1, d.1], d.2)

/-- `finish-step` is recorded: the end of a step is not the end of the turn. -/
def finishStep (raw : Json) (s : StreamState) : List Json × StreamState :=
  ([], { s with
    finishReason := some (mappedFinish raw)
    usage := ((raw.get "usage").bind Usage.ofCommandCode).or s.usage })

/-- The first event fixes the id, the time and the model of the response. -/
def identify (raw : Json) (s : StreamState) : StreamState :=
  match s.messageId with
  | some _ => s
  | none =>
    let id := "chatcmpl-" ++ toString s.nowMillis.1
    let created := s.nowMillis.2.nowSeconds
    { created.2 with
      messageId := some id
      commandCodeCreated := some created.1
      model := some (s.model.getD ((raw.strField "model").getD "commandcode")) }

/-- What `translate` does for the type of an event; the types it does not name carry nothing a
client can render. -/
def dispatch (write : Json → String) (event : String) (raw : Json) (s : StreamState) :
    List Json × StreamState :=
  if event = "text-delta" then textDelta raw s
  else if event = "reasoning-delta" then reasoning raw s
  else if event = "tool-input-start" then toolStart raw s
  else if event = "tool-input-delta" then toolDelta raw s
  else if event = "tool-call" then wholeToolCall write raw s
  else if event = "finish-step" then finishStep raw s
  else if event = "finish" then finish raw s
  else if event = "error" then errorEvent write raw s
  else ([], s)

/-- `translate`, `commandcode_to_openai.rs:37`. -/
def translate (write : Json → String) (raw : Json) (s : StreamState) : List Json × StreamState :=
  if raw.strField "object" = some "chat.completion.chunk" then ([raw], s)
  else
    match raw.strField "type" with
    | none => ([], s)
    | some event => dispatch write event raw (identify raw s)

end NullRouter.Translate.CommandCode
