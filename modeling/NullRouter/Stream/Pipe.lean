import NullRouter.Base.Utf8
import NullRouter.Translate.Claude
import NullRouter.Translate.Concerns
import NullRouter.Translate.Responses
import NullRouter.Translate.Sse

/-!
# The streaming pipe

`pipe_stream`, `crates/execute/src/stream.rs:115`: the body of an upstream stream is decoded
read by read, cut into lines, translated and sent on as the client's frames. The translation
is a parameter, a state machine over the items of the stream.
-/

namespace NullRouter.Stream

open NullRouter.Base NullRouter.Translate

/-- `ClientFraming`, `stream.rs:18`. -/
inductive ClientFraming where
  | data
  | responsesEvents
  deriving DecidableEq

/-- `ClientFraming::for_format`, `stream.rs:27`. -/
def ClientFraming.forFormat : Format → ClientFraming
  | .openAiResponses => .responsesEvents
  | _ => .data

/-- `upstream_encoding`, `stream.rs:55`. -/
def upstreamEncoding : Format → Encoding
  | .ollama | .commandCode | .grokWeb => .ndjson
  | _ => .sse

/-- Reading and printing JSON, `serde_json::from_str` and `to_writer`. -/
structure JsonText where
  read : List Char → Option Json
  print : Json → String

/-- `frame_for`, `stream.rs:36`. -/
def frameFor (text : JsonText) (chunk : Json) (source : Format) : String :=
  let named := (chunk.strField "type").elim (dataFrame text.print chunk)
    (eventFrame text.print · chunk)
  match ClientFraming.forFormat source with
  | .data => if source = .claude then named else dataFrame text.print chunk
  | .responsesEvents => named

/-- `StreamSummary`, `stream.rs:67`. -/
structure StreamSummary where
  usage : Option Usage := none
  finishReason : Option String := none
  text : String := ""
  upstreamThread : Option String := none
  upstreamAnswer : Option String := none
  error : Option String := none
  deriving DecidableEq

/-- `collect_text`, `stream.rs:578`. -/
def collectText (chunk : Json) (summary : StreamSummary) : StreamSummary :=
  let content := ((chunk.pointer ["choices", "0", "delta", "content"]).bind Json.asStr).or
    (if chunk.strField "type" = some "content_block_delta" then
      (chunk.pointer ["delta", "text"]).bind Json.asStr
    else none)
  let reason := ((chunk.pointer ["choices", "0", "finish_reason"]).bind Json.asStr).filter
    (!·.isEmpty)
  let usage := (chunk.get "usage").filter (·.asObject.isSome)
  { summary with
    text := summary.text ++ content.getD ""
    finishReason := reason.or summary.finishReason
    usage := (usage.map Usage.ofOpenai).or summary.usage }

/-- What a translation does with its state: `translate_response` between two formats, the two
finalizers, and what the summary reads of the state at the end. -/
structure Translator (σ : Type) where
  translate : Json → σ → List Json × σ
  finalizeUpstream : σ → List Json × σ
  finalizeResponse : σ → List Json × σ
  usage : σ → Option Usage
  finishReason : σ → Option String
  upstreamThread : σ → Option String
  upstreamAnswer : σ → Option String

/-- `FrameSink`: whether a frame is delivered, given those that were. -/
abbrev Sink := List String → String → Bool

/-- Where the pipe stands: the translation, the summary, the frames delivered and whether the
client is gone. -/
structure PipeState (σ : Type) where
  translation : σ
  summary : StreamSummary
  sent : List String
  clientGone : Bool

/-- One read of the body: some bytes, or a transport error. -/
abbrev Read := Option (List Nat)

/-- The reads before the first transport error. -/
def received : List Read → List (List Nat)
  | some bytes :: reads => bytes :: received reads
  | none :: _ | [] => []

section Pipe

variable {σ : Type} (text : JsonText) (source : Format) (sink : Sink)

/-- Delivers chunks until the client is gone; those of a translation are also collected. -/
def deliver (collect : Bool) : List Json → PipeState σ → PipeState σ
  | [], s => s
  | chunk :: chunks, s =>
    let s := if collect then { s with summary := collectText chunk s.summary } else s
    let frame := frameFor text chunk source
    if sink s.sent frame then deliver collect chunks { s with sent := s.sent ++ [frame] }
    else { s with clientGone := true }

variable (translator : Translator σ) (encoding : Encoding)

/-- What a line carries to the translation; the upstream's own terminator carries nothing. -/
def payload? (line : List Char) : Option Json :=
  match parseLine text.read line encoding with
  | some (.data payload) => some payload
  | some .done | none => none

/-- One item of the stream; nothing once the client is gone. -/
def emitPayload (s : PipeState σ) (payload : Json) : PipeState σ :=
  if s.clientGone then s
  else
    let translated := translator.translate payload s.translation
    deliver text source sink true translated.1 { s with translation := translated.2 }

/-- `emit_line`, `stream.rs:540`. -/
def emitLine (s : PipeState σ) (line : List Char) : PipeState σ :=
  match payload? text encoding line with
  | some payload => emitPayload text source sink translator s payload
  | none => s

/-- The loop over the reads; it breaks on a transport error or once the client is gone. -/
def readLoop : List Read → LineBuffer → PipeState σ → LineBuffer × PipeState σ
  | [], buffer, s => (buffer, s)
  | none :: _, buffer, s => (buffer, s)
  | some bytes :: reads, buffer, s =>
    let pushed := buffer.push (Utf8.lossy bytes)
    let s := pushed.2.foldl (emitLine text source sink translator encoding) s
    if s.clientGone then (pushed.1, s) else readLoop reads pushed.1 s

/-- The end of the stream: the finalizers, the terminator and the summary. -/
def finish (s : PipeState σ) : PipeState σ :=
  let s :=
    if s.clientGone then s
    else
      let final := translator.finalizeUpstream s.translation
      deliver text source sink true final.1 { s with translation := final.2 }
  let s :=
    if s.clientGone then s
    else
      let final := translator.finalizeResponse s.translation
      deliver text source sink false final.1 { s with translation := final.2 }
  let s :=
    if s.clientGone ∨ sink s.sent doneFrame = false then s
    else { s with sent := s.sent ++ [doneFrame] }
  { s with summary := { s.summary with
      usage := (translator.usage s.translation).or s.summary.usage
      finishReason := (translator.finishReason s.translation).or s.summary.finishReason
      upstreamThread := translator.upstreamThread s.translation
      upstreamAnswer := (translator.upstreamAnswer s.translation).or s.summary.upstreamAnswer } }

/-- `pipe_stream`, `stream.rs:115`, from a state of the translation. -/
def pipeStream (reads : List Read) (state : σ) : PipeState σ :=
  let looped := readLoop text source sink translator encoding reads .new ⟨state, {}, [], false⟩
  let s := looped.2
  let s :=
    if s.clientGone then s
    else (looped.1.flush.2.toList).foldl (emitLine text source sink translator encoding) s
  finish text source sink translator s

/-- The items of a whole text: those of its complete lines, then that of what remains. -/
def payloads (body : List Char) : List Json :=
  let pushed := LineBuffer.new.push body
  (pushed.2 ++ pushed.1.flush.2.toList).filterMap (payload? text encoding)

variable {text source sink translator encoding}

theorem emitPayload_of_gone {s : PipeState σ} (h : s.clientGone = true) (payload : Json) :
    emitPayload text source sink translator s payload = s := by
  rw [emitPayload, if_pos h]

/-- Lines act by the items they carry. -/
theorem foldl_emitLine (lines : List (List Char)) (s : PipeState σ) :
    lines.foldl (emitLine text source sink translator encoding) s =
      (lines.filterMap (payload? text encoding)).foldl
        (emitPayload text source sink translator) s := by
  induction lines generalizing s with
  | nil => rfl
  | cons line lines ih =>
    rw [List.foldl_cons, ih, List.filterMap_cons, emitLine]
    cases payload? text encoding line <;> rfl

/-- Once the client is gone nothing more happens. -/
theorem foldl_emitPayload_of_gone {s : PipeState σ} (h : s.clientGone = true)
    (items : List Json) : items.foldl (emitPayload text source sink translator) s = s := by
  induction items with
  | nil => rfl
  | cons item items ih => rw [List.foldl_cons, emitPayload_of_gone h, ih]

/-- The loop over the reads acts by the items of their lines. -/
theorem readLoop_spec (reads : List Read) (buffer : LineBuffer) (s : PipeState σ) :
    let pushed := buffer.pushAll ((received reads).map Utf8.lossy)
    let looped := readLoop text source sink translator encoding reads buffer s
    looped.2 = (pushed.2.filterMap (payload? text encoding)).foldl
        (emitPayload text source sink translator) s ∧
      (looped.2.clientGone = false → looped.1 = pushed.1) := by
  induction reads generalizing buffer s with
  | nil => exact ⟨rfl, fun _ ↦ rfl⟩
  | cons read reads ih =>
    cases read with
    | none => exact ⟨rfl, fun _ ↦ rfl⟩
    | some bytes =>
      simp only [received, List.map_cons, LineBuffer.pushAll, readLoop, foldl_emitLine,
        List.filterMap_append, List.foldl_append]
      generalize (((buffer.push (Utf8.lossy bytes)).2.filterMap (payload? text encoding)).foldl
        (emitPayload text source sink translator) s) = s'
      split
      · next hgone =>
        refine ⟨(foldl_emitPayload_of_gone hgone _).symm, fun h ↦ ?_⟩
        rw [hgone] at h
        cases h
      · exact ih _ _

/-- The pipe acts by the items of the text its reads decode to. -/
theorem pipeStream_eq (reads : List Read) (state : σ) :
    pipeStream text source sink translator encoding reads state =
      finish text source sink translator
        ((payloads text encoding (Utf8.decodeReads (received reads))).foldl
          (emitPayload text source sink translator) ⟨state, {}, [], false⟩) := by
  obtain ⟨hstate, hbuffer⟩ := @readLoop_spec σ text source sink translator encoding reads .new
    ⟨state, {}, [], false⟩
  rw [LineBuffer.pushAll_new, ← List.flatMap_def] at hstate hbuffer
  rw [pipeStream, payloads, List.filterMap_append, List.foldl_append]
  change _ = finish text source sink translator (List.foldl _ (List.foldl _ _ (List.filterMap _
    (LineBuffer.new.push ((received reads).flatMap Utf8.lossy)).2)) _)
  rw [← hstate]
  congr 1
  split
  · next hgone => rw [foldl_emitPayload_of_gone hgone]
  · next hgone =>
    rw [hbuffer (by simpa using hgone), foldl_emitLine]
    rfl

end Pipe

/-!
## The binary pipe

`pipe_binary_stream`, `crates/execute/src/stream.rs:237`: bytes gather until a decoder can read
frames of them, the frames become OpenAI chunks and these the client's. The decoder of Cursor's
or Kiro's frames is a parameter.
-/

/-- `BinaryStep`, `stream.rs:326`. -/
structure BinaryStep where
  chunks : List Json
  fatal : Option String
  stopAfter : Bool
  deriving DecidableEq

/-- `BinaryDecoder`, `stream.rs:340`: its state, from an id, a time and a model; the step over the
pending bytes, with the bytes it leaves; and the terminal chunks. -/
structure BinaryDecoder (δ : Type) where
  new : String → Nat → String → δ
  consume : List Nat → δ → BinaryStep × List Nat × δ
  finish : δ → List Json × δ

/-- Items through a translation, in order. -/
def through {σ : Type} (translate : Json → σ → List Json × σ) : List Json → σ → List Json × σ
  | [], s => ([], s)
  | item :: items, s =>
    let translated := translate item s
    let rest := through translate items translated.2
    (translated.1 ++ rest.1, rest.2)

section Client

variable (text : JsonText) (source : Format)

/-- Reading JSON text that stands in a string. -/
def JsonText.readString (s : String) : Option Json := text.read s.toList

/-- `to_client`, `crates/translate/src/lib.rs:285`. -/
def toClient (chunks : List Json) (s : StreamState) : List Json × StreamState :=
  match source with
  | .claude => through (Claude.translate text.readString text.print) chunks s
  | .openAiResponses =>
    through (fun chunk s ↦
      let translated := Responses.translate text.readString (some chunk) s
      (translated.1.map (·.data), translated.2)) chunks s
  | _ => (chunks, s)

/-- `finalize_response`, `crates/translate/src/lib.rs:307`. -/
def finalizeResponse (s : StreamState) : List Json × StreamState :=
  if source = .openAiResponses then
    let flushed := Responses.flush text.readString s
    (flushed.1.map (·.data), flushed.2)
  else ([], s)

end Client

section Binary

variable {δ : Type} (decoder : BinaryDecoder δ)

/-- The identity of a response, fixed once, and the decoder that carries it. -/
def BinaryDecoder.start (model : String) (s : StreamState) : δ × StreamState :=
  let identified := match s.messageId with
    | some id => (id, s)
    | none => ("chatcmpl-" ++ toString s.nowMillis.1, s.nowMillis.2)
  let dated := { identified.2 with messageId := some identified.1 }.nowSeconds
  (decoder.new identified.1 dated.1 model, dated.2)

variable (text : JsonText) (source : Format) (sink : Sink)

/-- OpenAI chunks on to the client. -/
def relay (chunks : List Json) (s : PipeState StreamState) : PipeState StreamState :=
  let carried := toClient text source chunks s.translation
  deliver text source sink true carried.1 { s with translation := carried.2 }

/-- The loop over the reads; a fatal step ends it before its chunks are sent, a last one after. -/
def binaryLoop :
    List Read → List Nat → δ → PipeState StreamState → δ × PipeState StreamState
  | [], _, d, s | none :: _, _, d, s => (d, s)
  | some bytes :: reads, pending, d, s =>
    let consumed := decoder.consume (pending ++ bytes) d
    match consumed.1.fatal with
    | some message => (consumed.2.2, { s with summary.error := some message })
    | none =>
      let s := relay text source sink consumed.1.chunks s
      if consumed.1.stopAfter ∨ s.clientGone then (consumed.2.2, s)
      else binaryLoop reads consumed.2.1 consumed.2.2 s

/-- `pipe_binary_stream`, `stream.rs:237`. -/
def pipeBinaryStream (model : String) (reads : List Read) (state : StreamState) :
    PipeState StreamState :=
  let started := decoder.start model state
  let looped := binaryLoop decoder text source sink reads [] started.1 ⟨started.2, {}, [], false⟩
  let s := looped.2
  let s := if s.clientGone then s else relay text source sink (decoder.finish looped.1).1 s
  let s :=
    if s.clientGone then s
    else
      let final := finalizeResponse text source s.translation
      deliver text source sink false final.1 { s with translation := final.2 }
  let s :=
    if s.clientGone ∨ sink s.sent doneFrame = false then s
    else { s with sent := s.sent ++ [doneFrame] }
  { s with summary.finishReason := s.translation.finishReason.or s.summary.finishReason }

/-- The steps that are read of a body, up to one that is fatal or the last, and the decoder after
them. -/
def binarySteps : List Read → List Nat → δ → List BinaryStep × δ
  | [], _, d | none :: _, _, d => ([], d)
  | some bytes :: reads, pending, d =>
    let consumed := decoder.consume (pending ++ bytes) d
    if consumed.1.fatal.isSome ∨ consumed.1.stopAfter then ([consumed.1], consumed.2.2)
    else
      let rest := binarySteps reads consumed.2.1 consumed.2.2
      (consumed.1 :: rest.1, rest.2)

end Binary
end NullRouter.Stream
