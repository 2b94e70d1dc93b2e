import NullRouter.Base.Transcript
import NullRouter.Translate.ResponsesRun

/-!
# Texts of a Responses stream

What the events of `openai_to_responses.rs` say of the text or the arguments of an item: parts of
it, and in the events that close the item all of it. The two agree in the streams that do not ask
for more of an item that is closed.
-/

namespace NullRouter.Translate

open NullRouter.Base

/-- What a finished item says of its text: a custom tool call has the input its arguments hold. -/
def itemSaid (item : Json) : Option Said :=
  let text := (((item.pointer ["content", "0", "text"]).or
    (item.pointer ["summary", "0", "text"])).or (item.get "arguments")).bind Json.asStr
  (text.map .whole).or ((item.strField "input").map .reading)

/-- What an event says of the text of the item it names. -/
def saidOf (event : ResponseEvent) : Option (String × Said) :=
  let id := (event.data.strField "item_id").getD ""
  if event.event ∈ deltaEvents then (event.data.strField "delta").map fun text ↦ (id, .part text)
  else if event.event = "response.output_text.done" ∨
      event.event = "response.reasoning_summary_text.done" then
    (event.data.strField "text").map fun text ↦ (id, .whole text)
  else if event.event = "response.function_call_arguments.done" then
    (event.data.strField "arguments").map fun text ↦ (id, .whole text)
  else if event.event = "response.content_part.done" ∨
      event.event = "response.reasoning_summary_part.done" then
    ((event.data.get "part").bind (·.strField "text")).map fun text ↦ (id, .whole text)
  else if event.event = "response.output_item.done" then
    ((event.data.get "item").bind itemSaid).map fun said ↦ (carriedId event.data, said)
  else none

/-- What events say of texts, in order. -/
def saids (events : List ResponseEvent) : List (String × Said) := events.filterMap saidOf

@[simp] theorem saids_append (events more : List ResponseEvent) :
    saids (events ++ more) = saids events ++ saids more := List.filterMap_append ..

/-- The text of an item, as the state has it. -/
def StreamState.buffer (s : StreamState) : Item → String
  | .reasoning => s.reasoningBuffer
  | .message index => s.messageText[index]?.getD ""
  | .call index => s.functionArguments[index]?.getD ""

private theorem saidOf_stamp (eventType : String) (seq : Nat) (fields : List (String × Json)) :
    saidOf ⟨eventType, Emitter.stamp eventType seq (Json.object fields)⟩ =
      saidOf ⟨eventType, Json.object fields⟩ := by
  have hget (key : String) (htype : key ≠ "type") (hseq : key ≠ "sequence_number") :
      (Emitter.stamp eventType seq (Json.object fields)).get key = (Json.object fields).get key :=
    get_stamp htype hseq
  simp only [saidOf, carriedId, Json.strField, hget "item_id" (by decide) (by decide),
    hget "delta" (by decide) (by decide), hget "text" (by decide) (by decide),
    hget "arguments" (by decide) (by decide), hget "part" (by decide) (by decide),
    hget "item" (by decide) (by decide)]

/-- What one more event says. -/
theorem saids_emit (eventType : String) (fields : List (String × Json)) (e : Emitter) :
    saids (e.emit eventType (Json.object fields)).events =
      saids e.events ++ (saidOf ⟨eventType, Json.object fields⟩).toList := by
  rw [Emitter.emit, saids_append, ← saidOf_stamp eventType (e.state.responsesSeq + 1), saids, saids]
  rfl

section Events

variable {eventType id text : String} {said : Said} {fields part : List (String × Json)}

private theorem saidOf_part (h : eventType ∈ deltaEvents)
    (hid : fields.reverse.lookup "item_id" = some (.str id))
    (htext : fields.reverse.lookup "delta" = some (.str text)) :
    saidOf ⟨eventType, Json.object fields⟩ = some (id, .part text) := by
  simp only [saidOf, h, if_true, Json.strField_object, hid, htext, Option.bind_some, Json.asStr,
    Option.getD_some, Option.map_some]

private theorem saidOf_text (h : eventType = "response.output_text.done" ∨
    eventType = "response.reasoning_summary_text.done")
    (hid : fields.reverse.lookup "item_id" = some (.str id))
    (htext : fields.reverse.lookup "text" = some (.str text)) :
    saidOf ⟨eventType, Json.object fields⟩ = some (id, .whole text) := by
  have hdelta : eventType ∉ deltaEvents := by rcases h with rfl | rfl <;> decide
  simp only [saidOf, hdelta, if_false, h, if_true, Json.strField_object, hid, htext,
    Option.bind_some, Json.asStr, Option.getD_some, Option.map_some]

private theorem saidOf_arguments (hid : fields.reverse.lookup "item_id" = some (.str id))
    (htext : fields.reverse.lookup "arguments" = some (.str text)) :
    saidOf ⟨"response.function_call_arguments.done", Json.object fields⟩ =
      some (id, .whole text) := by
  have hdelta : "response.function_call_arguments.done" ∉ deltaEvents := by decide
  simp [saidOf, hdelta, Json.strField_object, hid, htext, Json.asStr]

private theorem saidOf_textPart (h : eventType = "response.content_part.done" ∨
    eventType = "response.reasoning_summary_part.done")
    (hid : fields.reverse.lookup "item_id" = some (.str id))
    (hpart : fields.reverse.lookup "part" = some (Json.object part))
    (htext : part.reverse.lookup "text" = some (.str text)) :
    saidOf ⟨eventType, Json.object fields⟩ = some (id, .whole text) := by
  have hdelta : eventType ∉ deltaEvents := by rcases h with rfl | rfl <;> decide
  rcases h with rfl | rfl
  all_goals
    simp [saidOf, hdelta, Json.strField_object, Json.get_object, hid, hpart, htext, Json.asStr]

private theorem saidOf_item (hitem : fields.reverse.lookup "item" = some (Json.object part))
    (hid : part.reverse.lookup "id" = some (.str id))
    (hsaid : itemSaid (Json.object part) = some said) :
    saidOf ⟨"response.output_item.done", Json.object fields⟩ = some (id, said) := by
  have hdelta : "response.output_item.done" ∉ deltaEvents := by decide
  simp [saidOf, hdelta, carriedId, Json.strField_object, Json.get_object, hitem, hid, hsaid,
    Json.asStr]

private theorem pointer_part {key : String}
    (h : fields.reverse.lookup key = some (.arr [Json.object part])) :
    (Json.object fields).pointer [key, "0", "text"] = (Json.object part).get "text" := by
  have hindex : Json.indexToken "0" = some 0 := by decide
  have hget := (Json.get_object fields key).trans h
  change ((((Json.object fields).get key).bind (·.token? "0")).bind (·.token? "text")) = _
  rw [hget, Option.bind_some, Json.token?, hindex]
  rfl

private theorem pointer_none {key : String} (h : fields.reverse.lookup key = none) :
    (Json.object fields).pointer [key, "0", "text"] = none := by
  change ((((Json.object fields).get key).bind (·.token? "0")).bind (·.token? "text")) = none
  rw [Json.get_object, h]
  rfl

private theorem itemSaid_part {key : String} (hkey : key = "content" ∨ key = "summary")
    (hpart : fields.reverse.lookup key = some (.arr [Json.object part]))
    (hother : key = "summary" → fields.reverse.lookup "content" = none)
    (htext : part.reverse.lookup "text" = some (.str text)) :
    itemSaid (Json.object fields) = some (.whole text) := by
  rw [itemSaid]
  rcases hkey with rfl | rfl
  · rw [pointer_part hpart, Json.get_object, htext]
    rfl
  · rw [pointer_none (hother rfl), pointer_part hpart, Json.get_object part, htext]
    rfl

private theorem itemSaid_call (hcontent : fields.reverse.lookup "content" = none)
    (hsummary : fields.reverse.lookup "summary" = none) :
    itemSaid (Json.object fields) =
      (((fields.reverse.lookup "arguments").bind Json.asStr).map .whole).or
        (((fields.reverse.lookup "input").bind Json.asStr).map .reading) := by
  rw [itemSaid, pointer_none hcontent, pointer_none hsummary, Json.strField_object,
    Json.get_object]
  rfl

/-- An event that opens an item or the response says nothing of a text. -/
theorem saidOf_opening (h : eventType ∈ ["response.created", "response.in_progress",
    "response.completed", "response.output_item.added", "response.content_part.added",
    "response.reasoning_summary_part.added"]) (data : Json) : saidOf ⟨eventType, data⟩ = none := by
  simp only [List.mem_cons, List.not_mem_nil, or_false] at h
  rcases h with rfl | rfl | rfl | rfl | rfl | rfl
  all_goals simp [saidOf, deltaEvents]

end Events

namespace Emitter

variable {responseId : String} {e : Emitter}

/-- What closing an item says of its text. -/
def closingWords (s : StreamState) (item : Item) : List (Item × Said) :=
  if s.flags.phase item = .live then List.replicate 3 (item, .whole (s.buffer item)) else []

/-- Words under the ids of their items. -/
def underIds (responseId : String) (words : List (Item × Said)) : List (String × Said) :=
  words.map (Prod.map (Item.id responseId) id)

@[simp] theorem underIds_nil (responseId : String) : underIds responseId [] = [] := rfl

@[simp] theorem underIds_append (responseId : String) (words more : List (Item × Said)) :
    underIds responseId (words ++ more) = underIds responseId words ++ underIds responseId more :=
  List.map_append

theorem emitReasoning_says (responseId : String) (index : Nat) (text : String) (e : Emitter) :
    saids (emitReasoning responseId index text e).events =
      saids e.events ++ underIds responseId [(.reasoning, .part text)] := by
  have hstart : saids (startReasoning responseId index e).events = saids e.events := by
    rw [startReasoning]
    split
    · rfl
    · rw [saids_emit, saids_emit, saidOf_opening (by decide) _,
        saidOf_opening (by decide) _]
      simp
  rw [emitReasoning, saids_emit, hstart, saidOf_part (by decide) rfl rfl]
  rfl

theorem closeReasoning_says (responseId : String) (index : Nat) (e : Emitter) :
    saids (closeReasoning responseId index e).events =
      saids e.events ++ underIds responseId (closingWords e.state .reasoning) := by
  rw [closeReasoning, closingWords]
  split
  · next hclosed =>
    rw [if_neg, underIds, List.map_nil, List.append_nil]
    rw [Flags.reasoning_live]
    rintro ⟨hadded, hdone⟩
    rw [show e.state.reasoningItemAdded = true from hadded,
      show e.state.reasoningItemDone = false from hdone] at hclosed
    cases hclosed
  · next hopen =>
    have hflags : e.state.reasoningItemAdded = true ∧ e.state.reasoningItemDone = false := by
      simpa using hopen
    rw [if_pos ((Flags.reasoning_live (f := e.state.flags)).mpr hflags), saids_emit, saids_emit,
      saids_emit, saidOf_text (.inr rfl) rfl rfl, saidOf_textPart (.inr rfl) rfl rfl rfl,
      saidOf_item rfl rfl (itemSaid_part (.inr rfl) rfl (fun _ ↦ rfl) rfl)]
    simp [underIds, Item.id, StreamState.buffer, List.replicate]

theorem emitText_says (responseId : String) (index : Nat) (text : String) (e : Emitter) :
    saids (emitText responseId index text e).events =
      saids e.events ++ underIds responseId [(.message index, .part text)] := by
  have hadd : saids (addMessage responseId index e).events = saids e.events := by
    rw [addMessage]
    split
    · rfl
    · rw [saids_emit, saids_emit, saidOf_opening (by decide) _,
        saidOf_opening (by decide) _]
      simp
  rw [emitText, saids_emit, hadd, saidOf_part (by decide) rfl rfl]
  rfl

theorem closeMessage_says (responseId : String) (index : Nat) (e : Emitter) :
    saids (closeMessage responseId index e).events =
      saids e.events ++ underIds responseId (closingWords e.state (.message index)) := by
  rw [closeMessage, closingWords]
  split
  · next hclosed =>
    rw [if_neg, underIds, List.map_nil, List.append_nil]
    rw [Flags.message_live]
    rintro ⟨hadded, hdone⟩
    exact hclosed.elim (· hadded) hdone
  · next hopen =>
    obtain ⟨hadded, hdone⟩ := not_or.mp hopen
    rw [if_pos ((Flags.message_live (f := e.state.flags) index).mpr ⟨not_not.mp hadded, hdone⟩),
      saids_emit, saids_emit, saids_emit, saidOf_text (.inl rfl) rfl rfl,
      saidOf_textPart (.inl rfl) rfl rfl rfl,
      saidOf_item rfl rfl (itemSaid_part (.inl rfl) rfl nofun rfl)]
    simp [underIds, Item.id, StreamState.buffer, List.replicate]

private theorem closingWords_noteCall (call : Json) (callId : String) (e : Emitter) :
    closingWords (noteCall call callId e).state (.message 0) = closingWords e.state (.message 0) :=
  rfl

/-- A new call ends the first message. -/
theorem addCall_says (responseId : String) (call : Json) (hs : e.state.flags.Sane) :
    saids (addCall responseId call e).events = saids e.events ++ underIds responseId
      (if e.state.flags.phase (.call (indexOf call)) = .fresh then
        closingWords e.state (.message 0) else []) := by
  rw [addCall]
  split
  · next hadded =>
    rw [if_pos ((Flags.call_fresh hs _).mpr hadded), saids_emit, saidOf_opening (by decide),
      closeMessage_says, closingWords_noteCall]
    simp [noteCall]
  · next hadded =>
    rw [if_neg fun h ↦ hadded ((Flags.call_fresh hs _).mp h), nameCall]
    split <;> simp [underIds]

theorem emitToolCall_says (responseId : String) (call : Json) {text : String}
    (htext : callArguments call = some text) :
    saids (emitToolCall responseId e call).events = saids (addCall responseId call e).events ++
      underIds responseId [(.call (indexOf call), .part text)] := by
  rw [emitToolCall, htext, saids_emit, saidOf_part (by decide) rfl rfl]
  rfl

/-- What closing a call says: a custom tool's item has its input. -/
theorem closeToolCall_says (read : String → Option Json) (responseId : String) {index : Nat}
    (hindex : index ∉ e.state.functionItemsDone) : ∃ ends,
      Closes (customToolInput read) (e.state.buffer (.call index)) ends ∧
      saids (closeToolCall read responseId index e).events =
        saids e.events ++ underIds responseId (ends.map ((.call index), ·)) := by
  rw [closeToolCall, if_neg hindex]
  set arguments := e.state.functionArguments[index]?.getD ""
  by_cases hcustom : e.state.functionNames[index]?.getD "" ∈ e.state.customToolNames
  · refine ⟨[.whole arguments, .reading (customToolInput read arguments)],
      ⟨_, rfl, by simp [StreamState.buffer, arguments]⟩, ?_⟩
    rw [saids_emit, saids_emit, saidOf_arguments rfl rfl]
    simp only [hcustom, if_true]
    rw [saidOf_item rfl rfl ((itemSaid_call rfl rfl).trans rfl)]
    simp [underIds, Item.id]
  · refine ⟨[.whole arguments, .whole arguments],
      ⟨_, rfl, by simp [StreamState.buffer, arguments]⟩, ?_⟩
    rw [saids_emit, saids_emit, saidOf_arguments rfl rfl]
    simp only [hcustom, if_false]
    rw [saidOf_item rfl rfl ((itemSaid_call rfl rfl).trans rfl)]
    simp [underIds, Item.id]

end Emitter

end NullRouter.Translate
