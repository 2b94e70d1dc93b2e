import NullRouter.Translate.State

/-!
# Ollama's lines to OpenAI chunks

`crates/translate/src/response/ollama_to_openai.rs`: each line is a whole object with a message, and
the last one says that it is done. Writing JSON text is a parameter.
-/

namespace NullRouter.Translate.Response.OllamaToOpenai

open NullRouter.Base

/-- `StreamState` with the fields that are Ollama's own, `state.rs:149–151` and `181–184`. -/
structure OllamaState extends StreamState where
  ollamaCreated : Option Nat := none
  ollamaHadToolCalls : Bool := false

/-- `chunk_meta`, `ollama_to_openai.rs:22`. -/
def chunkMeta (s : OllamaState) : ChunkMeta × OllamaState :=
  let identity := s.toStreamState.chunkMeta "chatcmpl-" s.ollamaCreated
  (identity.1, { s with toStreamState := identity.2 })

/-- The first line fixes the id, the time and the model of the response. -/
def identify (raw : Json) (s : OllamaState) : OllamaState :=
  match s.messageId with
  | some _ => s
  | none =>
    let fixed := s.toStreamState.fixIdentity "chatcmpl-"
    { s with
      toStreamState := { fixed.2 with model := fixed.2.model.or (raw.strField "model") }
      ollamaCreated := some fixed.1 }

/-- `finish_reason`, `ollama_to_openai.rs:110`. -/
def finishReason (raw : Json) (s : OllamaState) : String :=
  let reported := (raw.strField "done_reason").getD ""
  if reported = "tool_calls" ∨ s.ollamaHadToolCalls then "tool_calls"
  else finishOfOllama reported

/-- The index of a call: the one its function names, or its position in the line. -/
def callIndex (call : Json) (position : Nat) : Nat :=
  (((call.get "function").bind (·.get "index")).bind Json.asU64).getD position

/-- The name of a call's function. -/
def callName (call : Json) : String := ((call.get "function").bind (·.strField "name")).getD ""

/-- The arguments of a call, as JSON text. -/
def callArguments (write : Json → String) (call : Json) : String :=
  match (call.get "function").bind (·.get "arguments") with
  | some (.str text) => text
  | some other => write other
  | none => "\x7b\x7d"

/-- The id of a call: its own, or one of its position and the time. -/
def callId (call : Json) (position : Nat) (s : OllamaState) : String × OllamaState :=
  match call.strField "id" with
  | some id => (id, s)
  | none => ("call_" ++ toString position ++ "_" ++ toString s.nowMillis.1,
      { s with toStreamState := s.nowMillis.2 })

/-- `openai_tool_call`, `ollama_to_openai.rs:121`. -/
def openaiToolCall (write : Json → String) (call : Json) (position : Nat) (s : OllamaState) :
    Json × OllamaState :=
  let id := callId call position s
  (Json.object [("index", Json.nat (callIndex call position)), ("id", .str id.1),
    ("type", .str "function"), ("function", Json.object [("name", .str (callName call)),
      ("arguments", .str (callArguments write call))])], id.2)

/-- The calls of a line, from a position on. -/
def openaiToolCalls (write : Json → String) : List Json → Nat → OllamaState →
    List Json × OllamaState
  | [], _, s => ([], s)
  | call :: calls, position, s =>
    let first := openaiToolCall write call position s
    let rest := openaiToolCalls write calls (position + 1) first.2
    (first.1 :: rest.1, rest.2)

/-- The last line: the finish reason, and the usage where one is known. -/
def done (raw : Json) (s : OllamaState) : List Json × OllamaState :=
  let s := { s with usage := (Usage.ofOllama raw).or s.usage }
  let reason := finishReason raw s
  let identity := chunkMeta { s with finishReason := some reason }
  let chunk := buildChunk identity.1 (Json.object []) (some reason)
  ([identity.2.usage.elim chunk fun usage ↦ chunk.setField "usage" usage.toValue], identity.2)

/-- The calls that a message carries. -/
def messageCalls (message : Json) : Option (List Json) :=
  (message.get "tool_calls").bind Json.asArray

/-- The text that a delta carries under a key, where there is any. -/
def textField (key text : String) : List (String × Json) :=
  if text.isEmpty then [] else [(key, .str text)]

/-- The message of a line; one that carries nothing is left out. -/
def relayMessage (write : Json → String) (message : Json) (s : OllamaState) :
    List Json × OllamaState :=
  let content := (message.strField "content").getD ""
  let thinking := (message.strField "thinking").getD ""
  let texts := textField "content" content ++ textField "reasoning_content" thinking
  match messageCalls message with
  | none =>
    if texts.isEmpty then ([], s)
    else ([buildChunk (chunkMeta s).1 (Json.object texts) none], (chunkMeta s).2)
  | some calls =>
    let called := openaiToolCalls write calls 0 { s with ollamaHadToolCalls := true }
    let identity := chunkMeta called.2
    ([buildChunk identity.1 (Json.object (texts ++ [("tool_calls", .arr called.1)])) none],
      identity.2)

/-- `translate`, `ollama_to_openai.rs:36`. -/
def translate (write : Json → String) (raw : Json) (s : OllamaState) : List Json × OllamaState :=
  if raw.asObject.isNone then ([], s)
  else if (raw.get "done").bind Json.asBool = some true then done raw (identify raw s)
  else
    match raw.get "message" with
    | none => ([], identify raw s)
    | some message => relayMessage write message (identify raw s)

end NullRouter.Translate.Response.OllamaToOpenai
