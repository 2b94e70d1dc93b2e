import NullRouter.Bespoke.Connect
import NullRouter.Bespoke.EventStream
import NullRouter.Bespoke.Protobuf
import NullRouter.Translate.Concerns

/-!
# Cursor's responses

What the frames of Cursor's two services mean, `crates/execute/src/bespoke/cursor/response.rs` and
the decoding half of `agent.rs`, and the OpenAI chunks they become.
-/

namespace NullRouter.Bespoke.Cursor

open NullRouter.Base NullRouter.Translate

/-! ## Frames -/

/-- `ToolCall`, `response.rs:57`. -/
structure ToolCall where
  id : String
  name : String
  arguments : String
  deriving DecidableEq

/-- `Decoded`, `response.rs:46`. -/
structure Decoded where
  text : Option String := none
  thinking : Option String := none
  toolCall : Option ToolCall := none
  deriving DecidableEq

/-- `decode_tool_call`, `response.rs:99`: the name and the arguments stand flat or in the first of
the MCP parameters, flat first. -/
def decodeToolCall (call : Message) : Option ToolCall :=
  let id := (call.text 3).getD ""
  let name := (call.text 9).getD ""
  let arguments := (call.text 10).getD ""
  let nested := (call.nested 27).bind (·.nested 1)
  let name := if name = "" then nested.elim name (fun tool ↦ (tool.text 1).getD "") else name
  let arguments :=
    if arguments = "" then nested.elim arguments (fun tool ↦ (tool.text 3).getD "") else arguments
  if id ≠ "" ∧ name ≠ "" then some ⟨id, name, arguments⟩ else none

/-- `decode_frame`, `response.rs:68`. -/
def decodeFrame (payload : List UInt8) : Decoded :=
  let fields := Message.decode payload
  match (fields.nested 1).bind decodeToolCall with
  | some call => { toolCall := some call }
  | none =>
    match fields.nested 2 with
    | some inner =>
      { text := (inner.text 1).filter (· ≠ "")
        thinking := ((inner.nested 25).bind (·.text 1)).filter (· ≠ "") }
    | none => {}

/-- `std::str::from_utf8`: the text whose bytes these are. -/
def fromUtf8 (bytes : List UInt8) : Option String :=
  if Bytes.ofText (Bytes.toText bytes) = bytes then some (Bytes.toText bytes) else none

/-- `error_frame`, `response.rs:129`. -/
def errorFrame (serde : Kiro.SerdeJson) (payload : List UInt8) : Option Json :=
  if payload.head? ≠ some 0x7B then none
  else (fromUtf8 payload).bind fun text ↦
    if containsText text.toList "\"error\"".toList then (serde.fromSlice payload).toOption else none

/-- The message of `error_detail`, `response.rs:144`. -/
def errorDetail (error : Json) : String :=
  let debug := error.pointer ["error", "details", "0", "debug", "details"]
  (((debug.bind (·.strField "title")).or (debug.bind (·.strField "detail"))).or
    ((error.pointer ["error", "message"]).bind Json.asStr)).getD "API Error"

/-- `Event`, `agent.rs:76`. -/
inductive Event where
  | text (text : String)
  | requestContext
  | done
  | unsupportedExec
  deriving DecidableEq

/-- `decode_payload`, `agent.rs:116`. -/
def decodePayload (payload : List UInt8) : List Event :=
  let server := Message.decode payload
  let updates := (server.nested 1).elim [] fun update ↦
    let text := ((update.nested 1).bind (·.text 1)).filter (· ≠ "")
    (text.map Event.text).toList ++ if (update.get 14).isSome then [.done] else []
  let exec := (server.nested 2).elim [] fun exec ↦
    if (exec.get 10).isSome then [Event.requestContext] else [.unsupportedExec]
  updates ++ exec

/-! ## Chunks -/

/-- `is_composer`, `response.rs:314`. -/
def isComposer (model : String) : Bool :=
  let tail := (model.toList.reverse.takeWhile (· ≠ '/')).reverse.map Char.toLower
  tail = "composer".toList || "composer-".toList.isPrefixOf tail

/-- What follows the last of a marker, `rfind` and the `get` after it. -/
def afterLast (marker : List Char) : List Char → Option (List Char)
  | [] => if marker = [] then some [] else none
  | c :: text => (afterLast marker text).or (marker.isPrefixOf? (c :: text))

/-- `visible_after_think`, `response.rs:324`. -/
def visibleAfterThink (thinking : List Char) : List Char :=
  (afterLast "</think>".toList thinking).elim [] (·.dropWhile isWhitespace)

/-- The bytes of some characters. -/
def byteLength (text : List Char) : Nat := (text.map Char.utf8Size).sum

/-- `get(n..)` of a text: nothing where `n` is no boundary of characters. -/
def dropBytes : Nat → List Char → Option (List Char)
  | 0, text => some text
  | _ + 1, [] => none
  | n + 1, c :: text => if c.utf8Size ≤ n + 1 then dropBytes (n + 1 - c.utf8Size) text else none

/-- `Stream`, `response.rs:164`. -/
structure Stream where
  id : String
  created : Nat
  model : String
  toolIds : List String := []
  opened : Bool := false
  thinking : List Char := []
  emittedVisible : Nat := 0
  composer : Bool

namespace Stream

/-- `new`, `response.rs:182`. -/
def new (id : String) (created : Nat) (model : String) : Stream where
  id
  created
  model
  composer := isComposer model

/-- `has_content`, `response.rs:197`. -/
def hasContent (s : Stream) : Bool := s.opened || !s.toolIds.isEmpty

/-- `chunk`, `response.rs:302`. -/
def chunk (s : Stream) (delta : Json) (finishReason : Option String) : Json :=
  buildChunk ⟨s.id, s.created, s.model⟩ delta finishReason

/-- A delta with a text field, which announces the role if it is the first. -/
def textDelta (s : Stream) (field text : String) : Json × Stream :=
  (s.chunk (if s.opened then Json.object [(field, .str text)]
    else Json.object [("role", .str "assistant"), (field, .str text)]) none, { s with opened := true })

/-- `content_delta`, `response.rs:264`. -/
def contentDelta (s : Stream) (text : String) : Json × Stream := s.textDelta "content" text

/-- The chunk that opens a message without any text. -/
def opening (s : Stream) : Json :=
  s.chunk (Json.object [("role", .str "assistant"), ("content", .str "")]) none

/-- The chunks of a tool call, `response.rs:205`. -/
def pushCall (s : Stream) (call : ToolCall) : List Json × Stream :=
  let first := if s.opened then [] else [s.opening]
  let known := s.toolIds.findIdx? (· == call.id)
  let toolIds := if known.isSome then s.toolIds else s.toolIds ++ [call.id]
  let index := known.getD (toolIds.length - 1)
  let delta := Json.object [("tool_calls", .arr [Json.object [("index", Json.nat index),
    ("id", .str call.id), ("type", .str "function"),
    ("function", Json.object [("name", .str call.name), ("arguments", .str call.arguments)])]])]
  (first ++ [s.chunk delta none], { s with opened := true, toolIds })

/-- The chunks of a thinking text, `response.rs:235`: of a composer, those of the answer in it. -/
def pushThinking (s : Stream) (thinking : String) : List Json × Stream :=
  if s.composer then
    let s := { s with thinking := s.thinking ++ thinking.toList }
    let visible := visibleAfterThink s.thinking
    if s.emittedVisible < byteLength visible then
      let delta := (dropBytes s.emittedVisible visible).getD []
      let s := { s with emittedVisible := byteLength visible }
      if delta = [] then ([], s)
      else ([(s.contentDelta (String.ofList delta)).1], (s.contentDelta (String.ofList delta)).2)
    else ([], s)
  else
    let chunk := s.textDelta "reasoning_content" thinking
    ([chunk.1], chunk.2)

/-- `push`, `response.rs:202`: the call, the text and the thinking of a frame, in this order. -/
def push (s : Stream) (decoded : Decoded) : List Json × Stream :=
  let called := decoded.toolCall.elim ([], s) s.pushCall
  let texted := decoded.text.elim ([], called.2) fun text ↦
    ([(called.2.contentDelta text).1], (called.2.contentDelta text).2)
  let thought := decoded.thinking.elim ([], texted.2) texted.2.pushThinking
  (called.1 ++ texted.1 ++ thought.1, thought.2)

/-- `finish`, `response.rs:278`. -/
def finish (s : Stream) : List Json × Stream :=
  let first := if s.hasContent then [] else [s.opening]
  let reason := if s.toolIds.isEmpty then "stop" else "tool_calls"
  (first ++ [s.chunk (.obj []) (some reason)], { s with opened := s.opened || !s.hasContent })

end Stream
end NullRouter.Bespoke.Cursor
