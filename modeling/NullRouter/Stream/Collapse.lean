import NullRouter.Stream.Pipe
import NullRouter.Stream.ToolCalls

/-!
# Collapsing a stream

`collapse_stream_to_json`, `crates/execute/src/stream.rs:626`, and `collapse_binary_body`,
`stream.rs:493`: the stream of a provider that cannot do without one becomes a single OpenAI
reply. The translation to OpenAI chunks and the binary decoder are parameters.
-/

namespace NullRouter.Stream

open NullRouter.Base NullRouter.Translate

/-- A translation to OpenAI chunks: `translate_response(target, OpenAi, …)`; the terminal chunk
of a format that never says it finished (`finish` of Grok's and Perplexity's translators: its
identity and a fingerprint); the fields of the state that all translations share. -/
structure Pivot (σ : Type) where
  translate : Json → σ → List Json × σ
  finish : Option (σ → (ChunkMeta × Option String) × σ)
  shared : σ → StreamState
  upstreamThread : σ → Option String
  upstreamAnswer : σ → Option String

/-- `finish`, `grok_web_to_openai.rs:153` and `perplexity_web_to_openai.rs:375`. -/
def closingChunk (identity : ChunkMeta) (fingerprint : Option String) : Json :=
  match buildChunk identity (Json.object []) (some "stop"), fingerprint with
  | .obj fields, some fingerprint =>
    .obj (Json.insertField fields "system_fingerprint" (.str fingerprint))
  | chunk, _ => chunk

/-- The translation for a client that speaks OpenAI's format: nothing is finalized for it. -/
def Pivot.toOpenAi {σ : Type} (pivot : Pivot σ) : Translator σ where
  translate := pivot.translate
  finalizeUpstream s := pivot.finish.elim ([], s) fun finish ↦
    ([closingChunk (finish s).1.1 (finish s).1.2], (finish s).2)
  finalizeResponse s := ([], s)
  usage s := (pivot.shared s).usage
  finishReason s := (pivot.shared s).finishReason
  upstreamThread := pivot.upstreamThread
  upstreamAnswer := pivot.upstreamAnswer

/-- The delta of a chunk's first choice. -/
def chunkDelta (chunk : Json) : Option Json := chunk.pointer ["choices", "0", "delta"]

/-- The text that a chunk's delta has under a key. -/
def chunkText (key : String) (chunk : Json) : String :=
  ((chunkDelta chunk).bind (·.strField key)).getD ""

/-- The tool-call deltas of a chunk. -/
def chunkCalls (chunk : Json) : List Json :=
  (((chunkDelta chunk).bind (·.get "tool_calls")).bind Json.asArray).getD []

/-- The finish reason of a chunk. -/
def chunkFinish (chunk : Json) : Option String :=
  (chunk.pointer ["choices", "0", "finish_reason"]).bind Json.asStr

/-- What is gathered of a stream. -/
structure Collapsed where
  text : String := ""
  reasoning : String := ""
  toolCalls : List Json := []
  finishReason : Option String := none
  scrapedUsage : Option Usage := none
  deriving DecidableEq

namespace Collapsed

/-- `take` on one chunk, `stream.rs:643`. -/
def takeChunk (c : Collapsed) (chunk : Json) : Collapsed :=
  let usage := (chunk.get "usage").filter (·.asObject.isSome)
  { text := c.text ++ chunkText "content" chunk
    reasoning := c.reasoning ++ chunkText "reasoning_content" chunk
    toolCalls := mergeToolCalls c.toolCalls (chunkCalls chunk)
    finishReason := (chunkFinish chunk).or c.finishReason
    scrapedUsage := (usage.map Usage.ofOpenai).or c.scrapedUsage }

/-- `take`, `stream.rs:643`. -/
def take (c : Collapsed) (chunks : List Json) : Collapsed := chunks.foldl takeChunk c

/-- The finish reason, assumed where the stream has named none. -/
def resolvedFinish (c : Collapsed) : String :=
  c.finishReason.getD (if c.toolCalls.isEmpty then "stop" else "tool_calls")

/-- The message of the reply. -/
def message (c : Collapsed) : Json :=
  Json.object ([("role", .str "assistant"), ("content", .str c.text)] ++
    (if c.reasoning.isEmpty then [] else [("reasoning_content", .str c.reasoning)]) ++
    (if c.toolCalls.isEmpty then [] else [("tool_calls", .arr c.toolCalls)]))

/-- The reply. -/
def envelope (c : Collapsed) (model : String) (s : StreamState) : Json :=
  Json.object ([("id", .str ("chatcmpl-" ++ s.messageId.getD "")),
    ("object", .str "chat.completion"), ("created", Json.nat s.nowSeconds.1),
    ("model", .str model),
    ("choices", .arr [Json.object [("index", Json.nat 0), ("message", c.message),
      ("finish_reason", .str c.resolvedFinish)]])] ++
    ((s.usage.or c.scrapedUsage).map fun usage ↦ ("usage", usage.toValue)).toList)

end Collapsed

section Lines

variable {σ : Type} (text : JsonText) (pivot : Pivot σ) (encoding : Encoding)

/-- One line of a body that is cut into lines. -/
def collapseLine (c : Collapsed × σ) (line : List Char) : Collapsed × σ :=
  match payload? text encoding line with
  | some payload =>
    let translated := pivot.translate payload c.2
    (c.1.take translated.1, translated.2)
  | none => c

/-- The loop over the reads of such a body. -/
def collapseLoop : List Read → LineBuffer → Collapsed × σ → LineBuffer × (Collapsed × σ)
  | [], buffer, c | none :: _, buffer, c => (buffer, c)
  | some bytes :: reads, buffer, c =>
    let pushed := buffer.push (Utf8.lossy bytes)
    collapseLoop reads pushed.1 (pushed.2.foldl (collapseLine text pivot encoding) c)

/-- The body of a provider that streams lines. -/
def collapseLines (reads : List Read) (state : σ) : Collapsed × σ :=
  let looped := collapseLoop text pivot encoding reads .new ({}, state)
  looped.1.flush.2.toList.foldl (collapseLine text pivot encoding) looped.2

end Lines

section Binary

variable {δ : Type} (decoder : BinaryDecoder δ)

/-- The loop over the reads of a binary body. -/
def collapseBinaryLoop : List Read → List Nat → δ → Collapsed → δ × Collapsed
  | [], _, d, c | none :: _, _, d, c => (d, c)
  | some bytes :: reads, pending, d, c =>
    let consumed := decoder.consume (pending ++ bytes) d
    let c := c.take consumed.1.chunks
    if consumed.1.stopAfter then (consumed.2.2, c)
    else collapseBinaryLoop reads consumed.2.1 consumed.2.2 c

/-- `collapse_binary_body`, `stream.rs:493`. -/
def collapseBinaryBody (model : String) (reads : List Read) (state : StreamState) :
    Collapsed × StreamState :=
  let started := decoder.start model state
  let looped := collapseBinaryLoop decoder reads [] started.1 {}
  (looped.2.take (decoder.finish looped.1).1, started.2)

end Binary

/-- What a provider streams: lines, or the frames of a binary protocol (Cursor and Kiro). -/
inductive Upstream (σ δ : Type) where
  | lines (pivot : Pivot σ) (encoding : Encoding) (state : σ)
  | binary (decoder : BinaryDecoder δ) (state : StreamState)

/-- `collapse_stream_to_json`, `stream.rs:626`. -/
def collapseStreamToJson {σ δ : Type} (text : JsonText) (model : String) (reads : List Read) :
    Upstream σ δ → Json
  | .lines pivot encoding state =>
    let collapsed := collapseLines text pivot encoding reads state
    collapsed.1.envelope model (pivot.shared collapsed.2)
  | .binary decoder state =>
    let collapsed := collapseBinaryBody decoder model reads state
    collapsed.1.envelope model collapsed.2

end NullRouter.Stream
