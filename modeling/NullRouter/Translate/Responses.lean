import NullRouter.Translate.State

/-!
# OpenAI chunks to Responses events

`crates/translate/src/response/openai_to_responses.rs`: the named events of the Responses API,
with the bookkeeping of the items that are open. Reading JSON text is a parameter.
-/

namespace NullRouter.Translate

open NullRouter.Base

/-- `ResponseEvent`, `openai_to_responses.rs:29`. -/
structure ResponseEvent where
  event : String
  data : Json
  deriving DecidableEq

/-- `Emitter`, `openai_to_responses.rs:35`. -/
structure Emitter where
  state : StreamState
  events : List ResponseEvent

/-- `reasoning_item_id`, `openai_to_responses.rs:176`. -/
def reasoningItemId (responseId : String) : String := "rs_" ++ responseId

/-- `message_item_id`, `openai_to_responses.rs:180`. -/
def messageItemId (responseId : String) (index : Nat) : String :=
  "msg_" ++ responseId ++ "_" ++ toString index

/-- The id of a function call item. -/
def callItemId (responseId : String) (index : Nat) : String :=
  "fc_" ++ responseId ++ "_" ++ toString index

/-- `custom_tool_input`, `openai_to_responses.rs:492`. -/
def customToolInput (read : String → Option Json) (arguments : String) : String :=
  ((read arguments).bind (·.strField "input")).getD arguments

namespace Emitter

/-- The stamp `Emitter::emit` puts on the data of an event. -/
def stamp (eventType : String) (seq : Nat) : Json → Json
  | .obj fields => .obj (Json.insertField (Json.insertField fields "type" (.str eventType))
      "sequence_number" (Json.nat seq))
  | other => other

/-- `Emitter::emit`, `openai_to_responses.rs:41`. -/
def emit (eventType : String) (data : Json) (e : Emitter) : Emitter :=
  let seq := e.state.responsesSeq + 1
  ⟨{ e.state with responsesSeq := seq }, e.events ++ [⟨eventType, stamp eventType seq data⟩]⟩

/-- The part of a summary item that holds its text. -/
def summaryPart (text : String) : Json :=
  Json.object [("type", .str "summary_text"), ("text", .str text)]

/-- The part of a message item that holds its text. -/
def textPart (text : String) : Json :=
  Json.object [("type", .str "output_text"), ("annotations", .arr []), ("logprobs", .arr []),
    ("text", .str text)]

/-- `start_reasoning`, `openai_to_responses.rs:184`. -/
def startReasoning (responseId : String) (index : Nat) (e : Emitter) : Emitter :=
  if e.state.reasoningItemAdded then e
  else
    let e : Emitter := { e with state := { e.state with reasoningItemAdded := true } }
    let e := e.emit "response.output_item.added" (Json.object [
      ("output_index", Json.nat index),
      ("item", Json.object [("id", .str (reasoningItemId responseId)),
        ("type", .str "reasoning"), ("summary", .arr [])])])
    e.emit "response.reasoning_summary_part.added" (Json.object [
      ("item_id", .str (reasoningItemId responseId)), ("output_index", Json.nat index),
      ("summary_index", Json.nat 0), ("part", summaryPart "")])

/-- The reasoning branch of `translate`, `openai_to_responses.rs:62`. -/
def emitReasoning (responseId : String) (index : Nat) (reasoning : String) (e : Emitter) :
    Emitter :=
  let e := (startReasoning responseId index e).emit "response.reasoning_summary_text.delta"
    (Json.object [("item_id", .str (reasoningItemId responseId)),
      ("output_index", Json.nat index), ("summary_index", Json.nat 0), ("delta", .str reasoning)])
  { e with state := { e.state with reasoningBuffer := e.state.reasoningBuffer ++ reasoning } }

/-- `close_reasoning`, `openai_to_responses.rs:208`. -/
def closeReasoning (responseId : String) (index : Nat) (e : Emitter) : Emitter :=
  if !e.state.reasoningItemAdded || e.state.reasoningItemDone then e
  else
    let text := e.state.reasoningBuffer
    let e : Emitter := { e with state := { e.state with reasoningItemDone := true } }
    let e := e.emit "response.reasoning_summary_text.done" (Json.object [
      ("item_id", .str (reasoningItemId responseId)), ("output_index", Json.nat index),
      ("summary_index", Json.nat 0), ("text", .str text)])
    let e := e.emit "response.reasoning_summary_part.done" (Json.object [
      ("item_id", .str (reasoningItemId responseId)), ("output_index", Json.nat index),
      ("summary_index", Json.nat 0), ("part", summaryPart text)])
    e.emit "response.output_item.done" (Json.object [
      ("output_index", Json.nat index),
      ("item", Json.object [("id", .str (reasoningItemId responseId)),
        ("type", .str "reasoning"), ("summary", .arr [summaryPart text])])])

/-- What `emit_text` emits for an item it has not seen. -/
def addMessage (responseId : String) (index : Nat) (e : Emitter) : Emitter :=
  if index ∈ e.state.messageItemsAdded then e
  else
    let e : Emitter := { e with state := { e.state with
      messageItemsAdded := insertMember e.state.messageItemsAdded index } }
    let e := e.emit "response.output_item.added" (Json.object [
      ("output_index", Json.nat index),
      ("item", Json.object [("id", .str (messageItemId responseId index)),
        ("type", .str "message"), ("content", .arr []), ("role", .str "assistant")])])
    e.emit "response.content_part.added" (Json.object [
      ("item_id", .str (messageItemId responseId index)), ("output_index", Json.nat index),
      ("content_index", Json.nat 0), ("part", textPart "")])

/-- `emit_text`, `openai_to_responses.rs:250`. -/
def emitText (responseId : String) (index : Nat) (content : String) (e : Emitter) : Emitter :=
  let e := (addMessage responseId index e).emit "response.output_text.delta" (Json.object [
    ("item_id", .str (messageItemId responseId index)), ("output_index", Json.nat index),
    ("content_index", Json.nat 0), ("delta", .str content), ("logprobs", .arr [])])
  { e with state := { e.state with messageText := pushText e.state.messageText index content } }

/-- `close_message`, `openai_to_responses.rs:301`. -/
def closeMessage (responseId : String) (index : Nat) (e : Emitter) : Emitter :=
  if index ∉ e.state.messageItemsAdded ∨ index ∈ e.state.messageItemsDone then e
  else
    let text := e.state.messageText[index]?.getD ""
    let e : Emitter := { e with state := { e.state with
      messageItemsDone := insertMember e.state.messageItemsDone index } }
    let e := e.emit "response.output_text.done" (Json.object [
      ("item_id", .str (messageItemId responseId index)), ("output_index", Json.nat index),
      ("content_index", Json.nat 0), ("text", .str text), ("logprobs", .arr [])])
    let e := e.emit "response.content_part.done" (Json.object [
      ("item_id", .str (messageItemId responseId index)), ("output_index", Json.nat index),
      ("content_index", Json.nat 0), ("part", textPart text)])
    e.emit "response.output_item.done" (Json.object [
      ("output_index", Json.nat index),
      ("item", Json.object [("id", .str (messageItemId responseId index)),
        ("type", .str "message"), ("content", .arr [textPart text]), ("role", .str "assistant")])])

/-- The name a tool call carries. -/
def callName (call : Json) : String := ((call.get "function").bind (·.strField "name")).getD ""

/-- The arguments a tool call carries, where they are not empty. -/
def callArguments (call : Json) : Option String :=
  ((call.get "function").bind (·.strField "arguments")).filter (!·.isEmpty)

/-- What `emit_tool_calls` keeps of a call it has not seen. -/
def noteCall (call : Json) (callId : String) (e : Emitter) : Emitter :=
  let index := indexOf call
  let name := callName call
  { e with state := { e.state with
    functionItemsAdded := insertMember e.state.functionItemsAdded index
    functionCallIds := e.state.functionCallIds.insert index callId
    functionNames :=
      if name.isEmpty then e.state.functionNames else e.state.functionNames.insert index name } }

/-- What `emit_tool_calls` keeps of a call it has seen: a name may come later. -/
def nameCall (call : Json) (e : Emitter) : Emitter :=
  let index := indexOf call
  let name := callName call
  if name.isEmpty then e
  else { e with state := { e.state with
    functionNames := e.state.functionNames.insert index
      (e.state.functionNames[index]?.getD name) } }

/-- What `emit_tool_calls` does before it emits the arguments of a call. -/
def addCall (responseId : String) (call : Json) (e : Emitter) : Emitter :=
  let index := indexOf call
  let callId := (call.strField "id").getD ("call_" ++ toString index)
  if index ∉ e.state.functionItemsAdded then
    -- text closes before a tool item opens
    (closeMessage responseId 0 (noteCall call callId e)).emit "response.output_item.added"
      (Json.object [("output_index", Json.nat index),
        ("item", Json.object [("id", .str (callItemId responseId index)),
          ("type", .str "function_call"), ("call_id", .str callId), ("name", .str (callName call)),
          ("arguments", .str "")])])
  else nameCall call e

/-- One turn of `emit_tool_calls`, `openai_to_responses.rs:359`. -/
def emitToolCall (responseId : String) (e : Emitter) (call : Json) : Emitter :=
  let e := addCall responseId call e
  match callArguments call with
  | none => e
  | some arguments =>
    let e : Emitter := { e with state := { e.state with
      functionArguments := pushText e.state.functionArguments (indexOf call) arguments } }
    e.emit "response.function_call_arguments.delta" (Json.object [
      ("item_id", .str (callItemId responseId (indexOf call))),
      ("output_index", Json.nat (indexOf call)), ("delta", .str arguments)])

/-- `close_tool_call`, `openai_to_responses.rs:430`. -/
def closeToolCall (read : String → Option Json) (responseId : String) (index : Nat)
    (e : Emitter) : Emitter :=
  if index ∈ e.state.functionItemsDone then e
  else
    let arguments := e.state.functionArguments[index]?.getD ""
    let name := e.state.functionNames[index]?.getD ""
    let callId := e.state.functionCallIds[index]?.getD ("call_" ++ toString index)
    let custom := name ∈ e.state.customToolNames
    let e : Emitter := { e with state := { e.state with
      functionItemsDone := insertMember e.state.functionItemsDone index } }
    let e := e.emit "response.function_call_arguments.done" (Json.object [
      ("item_id", .str (callItemId responseId index)), ("output_index", Json.nat index),
      ("arguments", .str arguments)])
    e.emit "response.output_item.done" (Json.object [
      ("output_index", Json.nat index),
      ("item", Json.object [("id", .str (callItemId responseId index)),
        ("type", .str (if custom then "custom_tool_call" else "function_call")),
        (if custom then ("input", .str (customToolInput read arguments))
          else ("arguments", .str arguments)),
        ("call_id", .str callId), ("name", .str name)])])

/-- What the first chunk with a choice emits, `openai_to_responses.rs:97`. -/
def begin (responseId : String) (created : Nat) (e : Emitter) : Emitter :=
  if e.state.responsesStarted then e
  else
    let e : Emitter := { e with state := { e.state with responsesStarted := true } }
    let e := e.emit "response.created" (Json.object [("response", Json.object [
      ("id", .str responseId), ("object", .str "response"), ("created_at", Json.nat created),
      ("status", .str "in_progress"), ("background", .bool false), ("error", .null),
      ("output", .arr [])])])
    e.emit "response.in_progress" (Json.object [("response", Json.object [
      ("id", .str responseId), ("object", .str "response"), ("created_at", Json.nat created),
      ("status", .str "in_progress")])])

/-- What `flush` closes: the messages, the reasoning and the tool calls. -/
def closeItems (read : String → Option Json) (responseId : String) (e : Emitter) : Emitter :=
  let e := e.state.messageItemsAdded.foldl (fun e i ↦ closeMessage responseId i e) e
  let e := closeReasoning responseId 0 e
  e.state.functionItemsAdded.foldl (fun e i ↦ closeToolCall read responseId i e) e

/-- What `flush` emits last. -/
def complete (responseId : String) (created : Nat) (e : Emitter) : Emitter :=
  let e : Emitter := { e with state := { e.state with responsesCompleted := true } }
  e.emit "response.completed" (Json.object [("response", Json.object [
    ("id", .str responseId), ("object", .str "response"), ("created_at", Json.nat created),
    ("status", .str "completed"), ("background", .bool false), ("error", .null)])])

end Emitter

namespace Responses

/-- The response id derives from the chunk's until the response has started. -/
def takeId (chunk : Json) (s : StreamState) : StreamState :=
  match chunk.strField "id" with
  | some id => if s.responsesStarted then s else { s with responseId := some ("resp_" ++ id) }
  | none => s

/-- The response id: the one the state holds, else the clock's. -/
def fixId (chunk : Json) (s : StreamState) : String × StreamState :=
  let s := takeId chunk s
  match s.responseId with
  | some id => (id, s)
  | none =>
    let now := s.nowMillis
    let id := "resp_" ++ toString now.1
    (id, { now.2 with responseId := some id })

/-- The creation time: the one fixed before, else the clock's. -/
def fixCreated (s : StreamState) : Nat × StreamState :=
  match s.responsesCreated with
  | some created => (created, s)
  | none =>
    let now := s.nowSeconds
    (now.1, { now.2 with responsesCreated := some now.1 })

/-- `flush`, `openai_to_responses.rs:505`. -/
def flush (read : String → Option Json) (s : StreamState) : List ResponseEvent × StreamState :=
  if s.responsesCompleted then ([], s)
  else if !s.responsesStarted then ([], s)
  else
    let responseId := s.responseId.getD ("resp_" ++ toString s.nowMillis.1)
    let created := s.responsesCreated.getD s.nowSeconds.1
    let e := Emitter.complete responseId created (Emitter.closeItems read responseId ⟨s, []⟩)
    (e.events, e.state)

/-- The content of a choice, once the response has begun. -/
def content (responseId : String) (choice : Json) (e : Emitter) : Emitter :=
  let delta := choice.get "delta"
  let index := indexOf choice
  let reasoning := extractReasoningText delta
  let e := if reasoning.isEmpty then e else Emitter.emitReasoning responseId index reasoning e
  let e := match deltaText delta "content" with
    | none => e
    | some text =>
      -- reasoning closes before visible output starts
      Emitter.emitText responseId index text (Emitter.closeReasoning responseId index e)
  (deltaToolCalls delta).foldl (Emitter.emitToolCall responseId) e

/-- `translate`, `openai_to_responses.rs:62`; no chunk flushes. -/
def translate (read : String → Option Json) (chunk : Option Json) (s : StreamState) :
    List ResponseEvent × StreamState :=
  match chunk with
  | none => flush read s
  | some chunk =>
    match firstChoice chunk with
    | none => ([], s)
    | some choice =>
      let identified := fixId chunk s
      let dated := fixCreated identified.2
      let e := Emitter.begin identified.1 dated.1 ⟨dated.2, []⟩
      let e := content identified.1 choice e
      if (choiceFinish choice).isSome then
        let flushed := flush read e.state
        (e.events ++ flushed.1, flushed.2)
      else (e.events, e.state)

/-- The events of a stream: of its chunks in turn, then of the flush at its end. -/
def stream (read : String → Option Json) : List Json → StreamState → List ResponseEvent
  | [], s => (translate read none s).1
  | chunk :: chunks, s =>
    let translated := translate read (some chunk) s
    translated.1 ++ stream read chunks translated.2

end Responses
end NullRouter.Translate
