import NullRouter.Translate.Schema
import NullRouter.Translate.State

/-!
# Gemini replies to OpenAI chunks

`crates/translate/src/response/gemini_to_openai.rs`, also for the Gemini CLI, Vertex and
Antigravity. Writing JSON text is a parameter.
-/

namespace NullRouter.Translate.Response.GeminiToOpenai

open NullRouter.Base

/-- `chunk`, `gemini_to_openai.rs:25`. -/
def chunk (delta : Json) (finishReason : Option String) (s : StreamState) : Json × StreamState :=
  (buildChunk ⟨"chatcmpl-" ++ s.messageId.getD "", s.nowSeconds.1, s.model.getD ""⟩ delta
    finishReason, s.nowSeconds.2)

/-- A step that puts out one chunk. -/
def emit (delta : Json) (s : StreamState) : List Json × StreamState :=
  ([(chunk delta none s).1], (chunk delta none s).2)

/-- The reply inside a chunk: Antigravity wraps it. -/
def responseOf (raw : Json) : Json := (raw.get "response").getD raw

/-- The first candidate of a reply. -/
def firstCandidate (response : Json) : Option Json :=
  (arrayField response "candidates").bind List.head?

/-- The parts of a candidate. -/
def candidateParts (candidate : Json) : List Json :=
  ((candidate.get "content").bind (arrayField · "parts")).getD []

/-- The usage of a reply, inside it or beside it. -/
def usageMeta (raw : Json) : Option Json :=
  ((responseOf raw).get "usageMetadata").or (raw.get "usageMetadata")

/-- The inline data of a part, in either spelling. -/
def inlineOf (part : Json) : Option Json := (part.get "inlineData").or (part.get "inline_data")

/-- The type of inline data. -/
def inlineMime (inline : Json) : String :=
  (((inline.get "mimeType").or (inline.get "mime_type")).bind Json.asStr).getD defaultImageMime

/-- Whether a part is the model's thinking. -/
def isThought (part : Json) : Bool := (part.get "thought").bind Json.asBool == some true

/-- Whether a part carries the signature of a thought. -/
def hasThoughtSignature (part : Json) : Bool :=
  (part.get "thoughtSignature").isSome || (part.get "thought_signature").isSome

/-- `text_delta`, `gemini_to_openai.rs:156`. -/
def textDelta (text : String) (isThought : Bool) : Json :=
  if isThought then reasoningDelta text false else Json.object [("content", .str text)]

/-- `emit_function_call`, `gemini_to_openai.rs:164`. -/
def emitFunctionCall (write : Json → String) (call : Json) (s : StreamState) :
    List Json × StreamState :=
  let name := s.originalToolName (textOrEmpty call "name")
  let arguments := write ((call.get "args").getD (Json.object []))
  let id := name ++ "-" ++ toString s.nowMillis.1 ++ "-" ++ toString s.functionIndex
  emit (Json.object [("tool_calls", .arr [Json.object [("id", .str id),
      ("index", Json.nat s.functionIndex), ("type", .str "function"),
      ("function", Json.object [("name", .str name), ("arguments", .str arguments)])]])])
    { s.nowMillis.2 with
      functionIndex := s.functionIndex + 1
      geminiToolCallCount := s.geminiToolCallCount + 1 }

/-- The chunk of the inline data of a part. -/
def emitInline (inline : Json) (s : StreamState) : List Json × StreamState :=
  match inline.strField "data" with
  | none => ([], s)
  | some data => emit (Json.object [("images", .arr [Json.object [("type", .str "image_url"),
      ("image_url", Json.object [("url", .str (encodeDataUri (inlineMime inline) data))])]])]) s

/-- One step after another, with what both put out. -/
def andThen (first second : StreamState → List Json × StreamState) (s : StreamState) :
    List Json × StreamState :=
  ((first s).1 ++ (second (first s).2).1, (second (first s).2).2)

/-- `translate_part`, `gemini_to_openai.rs:105`. A part with a signature shows no inline data. -/
def translatePart (write : Json → String) (part : Json) : StreamState → List Json × StreamState :=
  let text := fun s ↦ ((part.strField "text").filter (!·.isEmpty)).elim ([], s) fun text ↦
    emit (textDelta text (isThought part)) s
  let call := fun s ↦ (part.get "functionCall").elim ([], s) fun call ↦
    emitFunctionCall write call s
  let inline := fun s ↦ if hasThoughtSignature part then ([], s)
    else (inlineOf part).elim ([], s) fun inline ↦ emitInline inline s
  andThen text (andThen call inline)

/-- The parts of a candidate in turn. -/
def translateParts (write : Json → String) : List Json → StreamState → List Json × StreamState
  | [], s => ([], s)
  | part :: parts, s => andThen (translatePart write part) (translateParts write parts) s

/-- The first chunk of a stream names the role. -/
def identify (response : Json) (s : StreamState) : List Json × StreamState :=
  match s.messageId with
  | some _ => ([], s)
  | none =>
    let identified := match response.strField "responseId" with
      | some id => (id, s)
      | none => ("msg_" ++ toString s.nowMillis.1, s.nowMillis.2)
    emit (Json.object [("role", .str "assistant")]) { identified.2 with
      messageId := some identified.1
      model := some ((response.strField "modelVersion").getD "gemini")
      functionIndex := 0
      geminiToolCallCount := 0 }

/-- The finish reason that a candidate names, where it is not empty. -/
def candidateFinish (candidate : Json) : Option String :=
  (candidate.strField "finishReason").filter (!·.isEmpty)

/-- The end of a candidate: Gemini says `STOP` also where it calls tools. -/
def finishCandidate (candidate : Json) (s : StreamState) : List Json × StreamState :=
  match candidateFinish candidate with
  | none => ([], s)
  | some reason =>
    let finish := if finishOfGemini reason = "stop" ∧ 0 < s.geminiToolCallCount then "tool_calls"
      else finishOfGemini reason
    let last := chunk (Json.object []) (some finish) s
    ([s.usage.elim last.1 fun usage ↦ last.1.setField "usage" usage.toValue],
      { last.2 with finishReason := some finish })

/-- The usage that a chunk brings. -/
def takeUsage (raw : Json) (s : StreamState) : List Json × StreamState :=
  ([], { s with usage := ((usageMeta raw).bind Usage.ofGemini).or s.usage })

/-- `translate`, `gemini_to_openai.rs:30`. -/
def translate (write : Json → String) (raw : Json) (s : StreamState) : List Json × StreamState :=
  match firstCandidate (responseOf raw) with
  | none => ([], s)
  | some candidate =>
    andThen (identify (responseOf raw)) (andThen (translateParts write (candidateParts candidate))
      (andThen (takeUsage raw) (finishCandidate candidate))) s

end NullRouter.Translate.Response.GeminiToOpenai
