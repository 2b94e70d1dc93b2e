import NullRouter.Bespoke.EventStream
import NullRouter.Translate.Concerns

/-!
# Kiro's responses

What the frames of Kiro's event stream mean, `crates/execute/src/bespoke/kiro/response.rs`, and the
OpenAI chunks they become.
-/

namespace NullRouter.Bespoke.Kiro

open NullRouter.Base NullRouter.Translate

/-! ## Frames -/

/-- `CONTENT_EVENTS`, `response.rs:19`, and the event that ends a turn. -/
def namedEvents : List String :=
  ["assistantResponseEvent", "reasoningContentEvent", "codeEvent", "toolUseEvent",
    "messageStopEvent"]

/-- `ToolFragment`, `response.rs:43`. -/
structure ToolFragment where
  id : String
  name : String
  input : String
  last : Bool
  deriving DecidableEq

/-- `Decoded`, `response.rs:28`. -/
structure Decoded where
  text : Option String := none
  reasoning : Option String := none
  tool : Option ToolFragment := none
  stopped : Bool := false
  exception : Option String := none
  deriving DecidableEq

/-- The exception that a frame reports, `response.rs:57`. -/
def exceptionText (frame : Frame) : String :=
  let detail := (frame.payload.bind (·.strField "message")).getD "upstream exception"
  frame.exceptionType.getD "Exception" ++ ": " ++ detail

/-- The event of a payload, by the frame's header or by a name within, `response.rs:81`. -/
def eventName (frame : Frame) (payload : Json) : String :=
  ((frame.eventType.filter (· ≠ "")).or
    (namedEvents.find? fun name ↦ (payload.get name).isSome)).getD ""

/-- The fragment of a tool call, `response.rs:117`. -/
def toolFragment (serde : SerdeJson) (inner : Json) : ToolFragment where
  id := (inner.strField "toolUseId").getD ""
  name := (inner.strField "name").getD ""
  input := match inner.get "input" with
    | some (.str text) => text
    | some value => serde.toString value
    | none => ""
  last := (inner.get "stop").bind Json.asBool = some true

/-- `decode`, `response.rs:55`. -/
def decode (serde : SerdeJson) (frame : Frame) : Decoded :=
  if frame.messageType = some "exception" then { exception := some (exceptionText frame) }
  else
    match frame.payload with
    | none => { stopped := frame.eventType = some "messageStopEvent" }
    | some payload =>
      let event := eventName frame payload
      let inner := (payload.get event).getD payload
      if event = "assistantResponseEvent" ∨ event = "codeEvent" then
        { text := (inner.strField "content").filter (· ≠ "") }
      else if event = "reasoningContentEvent" then
        { reasoning := (((inner.get "text").or (inner.get "content")).bind Json.asStr).filter
            (· ≠ "") }
      else if event = "toolUseEvent" then { tool := some (toolFragment serde inner) }
      else if event = "messageStopEvent" then { stopped := true }
      else {}

/-! ## Chunks -/

/-- `Stream`, `response.rs:146`. -/
structure Stream where
  id : String
  created : Nat
  model : String
  opened : Bool := false
  toolIds : List String := []
  usedTool : Bool := false
  finished : Bool := false

namespace Stream

/-- `new`, `response.rs:162`. -/
def new (id : String) (created : Nat) (model : String) : Stream where
  id
  created
  model

/-- `delta`, `response.rs:252`: the first announces the role. -/
def delta (s : Stream) (delta : Json) : Json × Stream :=
  (buildChunk ⟨s.id, s.created, s.model⟩
    (if s.opened then delta else delta.setField "role" (.str "assistant")) none,
    { s with opened := true })

/-- `finish`, `response.rs:228`: the terminal chunk, once. -/
def finish (s : Stream) : List Json × Stream :=
  if s.finished then ([], s)
  else
    let s := { s with finished := true }
    let first := if s.opened then ([], s)
      else ([(s.delta (Json.object [("content", .str "")])).1],
        (s.delta (Json.object [("content", .str "")])).2)
    let reason := if s.usedTool then "tool_calls" else "stop"
    (first.1 ++ [buildChunk ⟨s.id, s.created, s.model⟩ (.obj []) (some reason)], first.2)

/-- The chunk of a tool fragment, `response.rs:190`. -/
def pushTool (s : Stream) (fragment : ToolFragment) : Json × Stream :=
  let known := s.toolIds.findIdx? (· == fragment.id)
  let toolIds := if known.isSome then s.toolIds else s.toolIds ++ [fragment.id]
  let index := known.getD (toolIds.length - 1)
  { s with usedTool := true, toolIds }.delta
    (Json.object [("tool_calls", .arr [Json.object [("index", Json.nat index),
      ("id", .str fragment.id), ("type", .str "function"),
      ("function", Json.object [("name", .str fragment.name),
        ("arguments", .str fragment.input)])]])])

/-- One chunk and the state after it. -/
def one (pushed : Json × Stream) : List Json × Stream := ([pushed.1], pushed.2)

/-- `push`, `response.rs:180`: the text, the reasoning, the tool and the end of a frame, in this
order. -/
def push (s : Stream) (decoded : Decoded) : List Json × Stream :=
  let texted := decoded.text.elim ([], s) fun text ↦
    one (s.delta (Json.object [("content", .str text)]))
  let reasoned := decoded.reasoning.elim ([], texted.2) fun text ↦
    one (texted.2.delta (Json.object [("reasoning_content", .str text)]))
  let called := decoded.tool.elim ([], reasoned.2) fun fragment ↦ one (reasoned.2.pushTool fragment)
  let stopped := if decoded.stopped then called.2.finish else ([], called.2)
  (texted.1 ++ reasoned.1 ++ called.1 ++ stopped.1, stopped.2)

end Stream
end NullRouter.Bespoke.Kiro
