import NullRouter.Base.Offsets
import NullRouter.Translate.State

/-!
# Grok's web events to OpenAI chunks

`crates/translate/src/response/grok_web_to_openai.rs`. The answer comes twice: in tokens, and as the
whole message that ends it. Writing JSON text is a parameter.
-/

namespace NullRouter.Translate.Response.GrokWebToOpenai

open NullRouter.Base

/-- `StreamState` with the fields that are Grok's own, `state.rs:153–166`. -/
structure GrokState extends StreamState where
  grokCreated : Option Nat := none
  grokThinking : Bool := false
  grokEmitted : String := ""
  grokSawModelResponse : Bool := false
  grokFingerprint : Option String := none

/-- `chunk_meta`, `grok_web_to_openai.rs:28`. -/
def chunkMeta (s : GrokState) : ChunkMeta × GrokState :=
  let identity := s.toStreamState.chunkMeta "chatcmpl-grok-" s.grokCreated
  (identity.1, { s with toStreamState := identity.2 })

/-- A step that puts out one chunk. -/
def emit (delta : Json) (finishReason : Option String) (s : GrokState) : List Json × GrokState :=
  ([buildChunk (chunkMeta s).1 delta finishReason], (chunkMeta s).2)

/-- The first event fixes the id and the time of the response. -/
def identify (s : GrokState) : GrokState :=
  match s.messageId with
  | some _ => s
  | none =>
    let fixed := s.toStreamState.fixIdentity "chatcmpl-grok-"
    { s with toStreamState := fixed.2, grokCreated := some fixed.1 }

/-- What an error says. -/
def errorText (write : Json → String) (error : Json) : String :=
  ((error.strField "message").or
    ((error.get "code").map fun code ↦ "Grok error: " ++ write code)).getD "Grok error"

/-- An error ends the turn, and is put out as content. -/
def failed (write : Json → String) (error : Json) (s : GrokState) : List Json × GrokState :=
  emit (Json.object [("content", .str ("[Error: " ++ errorText write error ++ "]"))]) (some "stop")
    { s with finishReason := some "stop" }

/-- The build that a path names. -/
def modelHash (v : Json) (path : List String) : Option String :=
  ((v.pointer path).bind Json.asStr).filter (!·.isEmpty)

/-- The event with the whole message: it goes out in full after reasoning, and else from where the
tokens stopped. -/
def wholeMessage (modelResponse : Json) (s : GrokState) : List Json × GrokState :=
  let s := { s with
    grokFingerprint :=
      (modelHash modelResponse ["metadata", "llm_info", "modelHash"]).or s.grokFingerprint }
  let message := (modelResponse.strField "message").getD ""
  if message.isEmpty then ([], s)
  else if s.grokThinking then
    emit (Json.object [("content", .str message)]) none { s with grokSawModelResponse := true }
  else
    let remainder := (getFrom s.grokEmitted.utf8ByteSize message).getD ""
    let s := { s with grokSawModelResponse := true }
    if remainder.isEmpty then ([], s)
    else emit (Json.object [("content", .str remainder)]) none
      { s with grokEmitted := s.grokEmitted ++ remainder }

/-- An incremental token: before the whole message of a thinking mode it is reasoning. -/
def token (response : Json) (s : GrokState) : List Json × GrokState :=
  match (response.strField "token").filter (!·.isEmpty) with
  | none => ([], s)
  | some token =>
    if s.grokThinking && !s.grokSawModelResponse then
      emit (Json.object [("reasoning_content", .str token)]) none s
    else
      emit (Json.object [("content", .str token)]) none
        { s with grokEmitted := s.grokEmitted ++ token }

/-- What the event's response carries. -/
def respond (response : Json) (s : GrokState) : List Json × GrokState :=
  let s := { s with
    grokFingerprint := s.grokFingerprint.or (modelHash response ["llmInfo", "modelHash"]) }
  match response.get "modelResponse" with
  | some modelResponse => wholeMessage modelResponse s
  | none => token response s

/-- `translate`, `grok_web_to_openai.rs:42`. -/
def translate (write : Json → String) (raw : Json) (s : GrokState) : List Json × GrokState :=
  if raw.asObject.isNone then ([], s)
  else
    match raw.get "error" with
    | some error => failed write error (identify s)
    | none =>
      match raw.pointer ["result", "response"] with
      | none => ([], identify s)
      | some response => respond response (identify s)

/-- `finish`, `grok_web_to_openai.rs:153`: what the chunk that ends the stream names. -/
def finish (s : GrokState) : (ChunkMeta × Option String) × GrokState :=
  let identity := chunkMeta { s with finishReason := some "stop" }
  ((identity.1, identity.2.grokFingerprint), identity.2)

end NullRouter.Translate.Response.GrokWebToOpenai
