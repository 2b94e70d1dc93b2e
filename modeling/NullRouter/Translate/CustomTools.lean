import NullRouter.Translate.Request.ResponsesToOpenai
import NullRouter.Translate.ResponseItems

/-!
# Free-form tools of Responses clients

A tool a Responses request declares as `custom` is sent upstream as a function with one `input`
(`crates/translate/src/request/responses_to_openai.rs:386–441`), and a call to it comes back as a
`custom_tool_call` where the state of the stream knows its name
(`response/openai_to_responses.rs:430–489`). The pipeline sets that state up without the names
(`services/runtime-actix/src/pipeline.rs:1443–1455`).
-/

namespace NullRouter.Translate.CustomTools

open NullRouter.Base Request.ResponsesToOpenai Emitter

/-! ## The tools of a request -/

/-- The name of a tool that is declared free-form. -/
def customTool? (tool : Json) : Option String :=
  if (tool.get "function").isSome then none
  else (trimmedName tool).filter fun _ ↦ hasType "custom" tool

/-- The name of any other tool. -/
def functionTool? (tool : Json) : Option String :=
  if (tool.get "function").isSome then (tool.get "function").bind (·.strField "name")
  else (trimmedName tool).filter fun _ ↦ !hasType "custom" tool

/-- What `translate` gathers of the items of a request, `responses_to_openai.rs:124`. -/
def gathered (serde : SerdeJson) (body : Json) : Regroup :=
  ((body.get "input").bind normalizeInput).elim {} (regroup serde body)

/-- The tools a request declares: its own, then those that its items add. -/
def declaredTools (serde : SerdeJson) (body : Json) : List Json :=
  (arrayField body "tools").getD [] ++ (gathered serde body).additionalTools

/-- The custom tools of a request. -/
def customTools (serde : SerdeJson) (body : Json) : List String :=
  (declaredTools serde body).filterMap customTool?

/-- The function tools of a request. -/
def functionTools (serde : SerdeJson) (body : Json) : List String :=
  (declaredTools serde body).filterMap functionTool?

/-! ## The calls of a stream -/

/-- The tool-call deltas of a chunk. -/
def callDeltas (chunk : Json) : List Json :=
  (firstChoice chunk).elim [] fun choice ↦ deltaToolCalls (choice.get "delta")

/-- Whether a chunk gives a finish reason, so that the turn is over. -/
def endsTurn (chunk : Json) : Bool := ((firstChoice chunk).bind choiceFinish).isSome

/-- The chunks up to the one that ends the turn. -/
def turn : List Json → List Json
  | [] => []
  | chunk :: chunks => if endsTurn chunk then [chunk] else chunk :: turn chunks

/-- Some delta is of the call. -/
def Called (deltas : List Json) (i : Nat) : Prop := ∃ delta ∈ deltas, indexOf delta = i

instance (deltas : List Json) (i : Nat) : Decidable (Called deltas i) :=
  inferInstanceAs (Decidable (∃ delta ∈ deltas, indexOf delta = i))

/-- The first name that the deltas of a call give it. -/
def nameOf? (deltas : List Json) (i : Nat) : Option String :=
  ((deltas.filter (indexOf · = i)).map callName).find? (!·.isEmpty)

/-- The name of a call. -/
def nameOf (deltas : List Json) (i : Nat) : String := (nameOf? deltas i).getD ""

/-- The arguments of a call, put together from its deltas. -/
def argumentsOf (deltas : List Json) (i : Nat) : String :=
  String.join ((deltas.filter (indexOf · = i)).filterMap callArguments)

/-! ## The calls a client gets -/

/-- A call as a client gets it: free-form with its input, or a function with its arguments. -/
structure CallItem where
  index : Nat
  name : String
  custom : Bool
  text : String
  deriving DecidableEq

/-- The call that an event closes. -/
def callItem? (event : ResponseEvent) : Option CallItem :=
  if event.event = "response.output_item.done" then
    (event.data.get "item").bind fun item ↦
      let index := ((event.data.get "output_index").bind Json.asU64).getD 0
      let name := (item.strField "name").getD ""
      if hasType "custom_tool_call" item then
        some ⟨index, name, true, (item.strField "input").getD ""⟩
      else if hasType "function_call" item then
        some ⟨index, name, false, (item.strField "arguments").getD ""⟩
      else none
  else none

/-- The calls that a client gets. -/
def callItems (events : List ResponseEvent) : List CallItem := events.filterMap callItem?

/-- The item of a call, from what the state holds of it. -/
def closedItem (read : String → Option Json) (s : StreamState) (i : Nat) : CallItem :=
  let name := s.functionNames[i]?.getD ""
  let arguments := s.functionArguments[i]?.getD ""
  if name ∈ s.customToolNames then ⟨i, name, true, customToolInput read arguments⟩
  else ⟨i, name, false, arguments⟩

/-- The state that a response starts from, `pipeline.rs:1443`, with the names of the custom tools
that it is given: the pipeline gives none. -/
def responseState (clock : Nat → Nat) (toolNameMap : List (String × String))
    (customToolNames : List String) : StreamState := { clock, toolNameMap, customToolNames }

/-- The client gets the call, and only as `p` says. -/
def Gets (items : List CallItem) (i : Nat) (p : CallItem → Prop) : Prop :=
  (∃ item ∈ items, item.index = i) ∧ ∀ item ∈ items, item.index = i → p item

/-- Each call of a stream to a custom tool of the request is got as a free-form call with the
input that the upstream supplied, and each to a function tool as a function call. -/
def RoundTrips (serde : SerdeJson) (body : Json) (chunks : List Json) (s : StreamState) : Prop :=
  let items := callItems (Responses.stream serde.fromStr chunks s)
  let deltas := chunks.flatMap callDeltas
  ∀ i, Called deltas i →
    (nameOf deltas i ∈ customTools serde body → Gets items i fun item ↦
      item.custom = true ∧ item.text = customToolInput serde.fromStr (argumentsOf deltas i)) ∧
    (nameOf deltas i ∈ functionTools serde body → Gets items i fun item ↦ item.custom = false)

/-! ## What the state notes of the calls -/

/-- The state has noted the deltas of the calls and closed none of them. -/
structure Notes (names : List String) (deltas : List Json) (s : StreamState) : Prop where
  added : ∀ i, i ∈ s.functionItemsAdded ↔ Called deltas i
  nodup : s.functionItemsAdded.Nodup
  named : ∀ i, s.functionNames[i]? = nameOf? deltas i
  argued : ∀ i, s.functionArguments[i]?.getD "" = argumentsOf deltas i
  unclosed : s.functionItemsDone = []
  custom : s.customToolNames = names

/-- The part of the state that is about the calls. -/
def callFields (s : StreamState) :=
  (s.functionItemsAdded, s.functionItemsDone, s.functionNames, s.functionArguments,
    s.customToolNames)

/-- Nothing is said of a call that closes, and the response goes on. -/
structure Silent (e e' : Emitter) : Prop where
  items : callItems e'.events = callItems e.events
  completed : e'.state.responsesCompleted = e.state.responsesCompleted
  started : e.state.responsesStarted = true → e'.state.responsesStarted = true

/-- Nothing is about the calls. -/
structure Quiet (e e' : Emitter) : Prop extends Silent e e' where
  fields : callFields e'.state = callFields e.state

section Steps

variable {names : List String} {deltas : List Json} {s s' : StreamState} {e e' e'' : Emitter}

theorem Notes.congr (h : Notes names deltas s) (hfields : callFields s' = callFields s) :
    Notes names deltas s' := by
  simp only [callFields, Prod.mk.injEq] at hfields
  obtain ⟨hadded, hdone, hnames, harguments, hcustom⟩ := hfields
  exact ⟨by rw [hadded]; exact h.added, by rw [hadded]; exact h.nodup,
    by rw [hnames]; exact h.named, by rw [harguments]; exact h.argued, hdone.trans h.unclosed,
    hcustom.trans h.custom⟩

theorem Silent.trans (h : Silent e e') (h' : Silent e' e'') : Silent e e'' :=
  ⟨h'.items.trans h.items, h'.completed.trans h.completed, fun hs ↦ h'.started (h.started hs)⟩

theorem Quiet.refl (e : Emitter) : Quiet e e := ⟨⟨rfl, rfl, id⟩, rfl⟩

theorem Quiet.trans (h : Quiet e e') (h' : Quiet e' e'') : Quiet e e'' :=
  ⟨h.toSilent.trans h'.toSilent, h'.fields.trans h.fields⟩

private theorem callItem?_stamp (eventType : String) (seq : Nat) (fields : List (String × Json)) :
    callItem? ⟨eventType, Emitter.stamp eventType seq (Json.object fields)⟩ =
      callItem? ⟨eventType, Json.object fields⟩ := by
  simp only [callItem?]
  rw [get_stamp (by decide) (by decide), get_stamp (by decide) (by decide)]

theorem callItems_emit (eventType : String) (fields : List (String × Json)) (e : Emitter) :
    callItems (e.emit eventType (Json.object fields)).events =
      callItems e.events ++ (callItem? ⟨eventType, Json.object fields⟩).toList := by
  rw [← callItem?_stamp eventType (e.state.responsesSeq + 1), Emitter.emit, callItems,
    List.filterMap_append]
  cases h : callItem? ⟨eventType, Emitter.stamp eventType _ (Json.object fields)⟩ <;>
    simp [callItems, h]

/-- An event that closes no call. -/
theorem Quiet.emit (h : Quiet e e') {eventType : String} {fields : List (String × Json)}
    (hquiet : callItem? ⟨eventType, Json.object fields⟩ = none) :
    Quiet e (e'.emit eventType (Json.object fields)) := by
  refine h.trans ⟨⟨?_, rfl, id⟩, rfl⟩
  rw [callItems_emit, hquiet]
  exact List.append_nil _

/-- An event that closes nothing. -/
theorem Quiet.plain (h : Quiet e e') {eventType : String} {fields : List (String × Json)}
    (hplain : eventType ≠ "response.output_item.done") :
    Quiet e (e'.emit eventType (Json.object fields)) := h.emit (if_neg hplain)

/-- An event that closes an item which is no call. -/
theorem Quiet.closes (h : Quiet e e') {index : Nat} {id kind : String}
    {fields : List (String × Json)} (hkind : kind ≠ "custom_tool_call" ∧ kind ≠ "function_call")
    (hfields : fields.reverse.lookup "type" = none) :
    Quiet e (e'.emit "response.output_item.done" (Json.object [("output_index", Json.nat index),
      ("item", Json.object (("id", .str id) :: ("type", .str kind) :: fields))])) := by
  refine h.emit ?_
  have htype : (Json.object (("id", .str id) :: ("type", .str kind) :: fields)).strField "type" =
      some kind := by
    simp [Json.strField_object, List.lookup_append, hfields, Json.asStr]
  have hitem (index item : Json) :
      (Json.object [("output_index", index), ("item", item)]).get "item" = some item := by
    simp [Json.get_object]
  simp [callItem?, hitem, hasType, htype, hkind]

/-! ### The other items -/

theorem quiet_startReasoning (responseId : String) (index : Nat) (e : Emitter) :
    Quiet e (startReasoning responseId index e) := by
  unfold startReasoning
  split
  · exact .refl e
  · refine (Quiet.plain ?_ (by decide)).plain (by decide)
    exact ⟨⟨rfl, rfl, id⟩, rfl⟩

theorem quiet_emitReasoning (responseId : String) (index : Nat) (text : String) (e : Emitter) :
    Quiet e (emitReasoning responseId index text e) :=
  ((quiet_startReasoning responseId index e).plain (by decide)).trans ⟨⟨rfl, rfl, id⟩, rfl⟩

theorem quiet_closeReasoning (responseId : String) (index : Nat) (e : Emitter) :
    Quiet e (closeReasoning responseId index e) := by
  unfold closeReasoning
  split
  · exact .refl e
  · refine ((Quiet.plain ?_ (by decide)).plain (by decide)).closes (by decide) rfl
    exact ⟨⟨rfl, rfl, id⟩, rfl⟩

theorem quiet_addMessage (responseId : String) (index : Nat) (e : Emitter) :
    Quiet e (addMessage responseId index e) := by
  unfold addMessage
  split
  · exact .refl e
  · refine (Quiet.plain ?_ (by decide)).plain (by decide)
    exact ⟨⟨rfl, rfl, id⟩, rfl⟩

theorem quiet_emitText (responseId : String) (index : Nat) (content : String) (e : Emitter) :
    Quiet e (emitText responseId index content e) :=
  ((quiet_addMessage responseId index e).plain (by decide)).trans ⟨⟨rfl, rfl, id⟩, rfl⟩

theorem quiet_closeMessage (responseId : String) (index : Nat) (e : Emitter) :
    Quiet e (closeMessage responseId index e) := by
  unfold closeMessage
  split
  · exact .refl e
  · refine ((Quiet.plain ?_ (by decide)).plain (by decide)).closes (by decide) rfl
    exact ⟨⟨rfl, rfl, id⟩, rfl⟩

theorem quiet_begin (responseId : String) (created : Nat) (e : Emitter) :
    Quiet e (begin responseId created e) ∧
      (begin responseId created e).state.responsesStarted = true := by
  unfold begin
  split
  · next hstarted => exact ⟨.refl e, hstarted⟩
  · refine ⟨(Quiet.plain ?_ (by decide)).plain (by decide), rfl⟩
    exact ⟨⟨rfl, rfl, fun _ ↦ rfl⟩, rfl⟩

/-! ### Calls -/

theorem called_concat {delta : Json} {i : Nat} :
    Called (deltas ++ [delta]) i ↔ Called deltas i ∨ indexOf delta = i := by
  simp [Called, or_and_right, exists_or]

theorem nameOf?_concat (deltas : List Json) (delta : Json) (i : Nat) :
    nameOf? (deltas ++ [delta]) i = (nameOf? deltas i).or
      (if indexOf delta = i ∧ (callName delta).isEmpty = false then some (callName delta)
        else none) := by
  rw [nameOf?, List.filter_append, List.map_append, List.find?_append, ← nameOf?]
  congr 1
  by_cases hindex : indexOf delta = i
  · cases hname : (callName delta).isEmpty <;> simp [hindex, hname]
  · simp [hindex]

theorem argumentsOf_concat (deltas : List Json) (delta : Json) (i : Nat) :
    argumentsOf (deltas ++ [delta]) i = argumentsOf deltas i ++
      (if indexOf delta = i then (callArguments delta).getD "" else "") := by
  rw [argumentsOf, List.filter_append, List.filterMap_append, String.join_append, ← argumentsOf]
  congr 1
  by_cases hindex : indexOf delta = i
  · cases hargs : callArguments delta <;> simp [hindex, hargs, String.join]
  · simp [hindex, String.join]

/-- What the state notes of one more delta. -/
structure Noted (call : Json) (s s' : StreamState) : Prop where
  added : s'.functionItemsAdded = insertMember s.functionItemsAdded (indexOf call)
  named : ∀ i, s'.functionNames[i]? = s.functionNames[i]?.or
    (if indexOf call = i ∧ (callName call).isEmpty = false then some (callName call) else none)
  argued : ∀ i, s'.functionArguments[i]?.getD "" = s.functionArguments[i]?.getD "" ++
    (if indexOf call = i then (callArguments call).getD "" else "")
  done : s'.functionItemsDone = s.functionItemsDone
  custom : s'.customToolNames = s.customToolNames

theorem Notes.take (h : Notes names deltas s) {call : Json} (hnoted : Noted call s s') :
    Notes names (deltas ++ [call]) s' where
  added i := by
    rw [hnoted.added, mem_insertMember, h.added, called_concat, or_comm, eq_comm]
  nodup := by
    rw [hnoted.added]
    exact nodup_insertMember h.nodup _
  named i := by rw [hnoted.named, h.named, nameOf?_concat]
  argued i := by rw [hnoted.argued, h.argued, argumentsOf_concat]
  unclosed := hnoted.done.trans h.unclosed
  custom := hnoted.custom.trans h.custom

theorem silent_addCall (responseId : String) (call : Json) (e : Emitter) :
    Silent e (addCall responseId call e) := by
  simp only [addCall]
  split
  · have hnote (callId : String) : Silent e (noteCall call callId e) := ⟨rfl, rfl, id⟩
    exact (hnote _).trans ((quiet_closeMessage responseId 0 _).plain (by decide)).toSilent
  · simp only [nameCall]
    split
    · exact ⟨rfl, rfl, id⟩
    · exact ⟨rfl, rfl, id⟩

/-- A delta of a call closes none. -/
theorem silent_emitToolCall (responseId : String) (call : Json) (e : Emitter) :
    Silent e (emitToolCall responseId e call) := by
  rw [emitToolCall]
  refine (silent_addCall responseId call e).trans ?_
  cases callArguments call with
  | none => exact ⟨rfl, rfl, id⟩
  | some arguments =>
    exact ((Quiet.refl _).plain (by decide)).toSilent.trans ⟨rfl, rfl, id⟩

/-- The call is put among those that are added, under the first name it has. -/
theorem addCall_fields (responseId : String) (call : Json) {e : Emitter}
    (h : indexOf call ∉ e.state.functionItemsAdded →
      e.state.functionNames[indexOf call]? = none) :
    let s := (addCall responseId call e).state
    s.functionItemsAdded = insertMember e.state.functionItemsAdded (indexOf call) ∧
      (∀ i, s.functionNames[i]? = e.state.functionNames[i]?.or
        (if indexOf call = i ∧ (callName call).isEmpty = false then some (callName call)
          else none)) ∧
      s.functionArguments = e.state.functionArguments ∧
      s.functionItemsDone = e.state.functionItemsDone ∧
      s.customToolNames = e.state.customToolNames := by
  simp only [addCall]
  split
  · next hnew =>
    set callId := (call.strField "id").getD ("call_" ++ toString (indexOf call))
    have hfields := (quiet_closeMessage responseId 0 (noteCall call callId e)).fields
    simp only [callFields, Prod.mk.injEq] at hfields
    obtain ⟨hadded, hdone, hnames, harguments, hcustom⟩ := hfields
    refine ⟨hadded, fun i ↦ ?_, harguments, hdone, hcustom⟩
    change (closeMessage responseId 0 (noteCall call callId e)).state.functionNames[i]? = _
    rw [hnames]
    change (if (callName call).isEmpty then e.state.functionNames
      else e.state.functionNames.insert (indexOf call) (callName call))[i]? = _
    by_cases hindex : indexOf call = i
    · subst hindex
      cases hname : (callName call).isEmpty <;> simp [h hnew]
    · cases hname : (callName call).isEmpty <;> simp [hindex, Std.ExtTreeMap.getElem?_insert]
  · next hseen =>
    have hkept : insertMember e.state.functionItemsAdded (indexOf call) =
        e.state.functionItemsAdded := if_pos (not_not.mp hseen)
    rw [hkept, nameCall]
    split
    · next hname =>
      refine ⟨rfl, fun i ↦ ?_, rfl, rfl, rfl⟩
      simp [hname]
    · next hname =>
      refine ⟨rfl, fun i ↦ ?_, rfl, rfl, rfl⟩
      by_cases hindex : indexOf call = i
      · subst hindex
        cases e.state.functionNames[indexOf call]? <;> simp [hname]
      · simp [hindex, Std.ExtTreeMap.getElem?_insert]

/-- A delta of a call is noted. -/
theorem emitToolCall_notes (responseId : String) (call : Json) {e : Emitter}
    (h : Notes names deltas e.state) :
    Notes names (deltas ++ [call]) (emitToolCall responseId e call).state := by
  have hnone : indexOf call ∉ e.state.functionItemsAdded →
      e.state.functionNames[indexOf call]? = none := by
    intro hnew
    rw [h.added] at hnew
    have hfilter : deltas.filter (indexOf · = indexOf call) = [] :=
      List.filter_eq_nil_iff.mpr fun delta hdelta hindex ↦
        hnew ⟨delta, hdelta, of_decide_eq_true hindex⟩
    rw [h.named, nameOf?, hfilter]
    rfl
  obtain ⟨hadded, hnamed, hargued, hdone, hcustom⟩ := addCall_fields responseId call hnone
  rw [emitToolCall]
  cases hargs : callArguments call with
  | none =>
    refine h.take ⟨hadded, hnamed, fun i ↦ ?_, hdone, hcustom⟩
    rw [hargued, hargs]
    simp
  | some arguments =>
    refine h.take ⟨hadded, hnamed, fun i ↦ ?_, hdone, hcustom⟩
    change (pushText (addCall responseId call e).state.functionArguments (indexOf call)
      arguments)[i]?.getD "" = _
    rw [hargued, hargs, pushText]
    by_cases hindex : indexOf call = i
    · subst hindex
      simp
    · simp [hindex, Std.ExtTreeMap.getElem?_insert]

/-- Closing a call gives the client its item. -/
theorem closeToolCall_items (read : String → Option Json) (responseId : String) {index : Nat}
    {e : Emitter} (h : index ∉ e.state.functionItemsDone) :
    callItems (closeToolCall read responseId index e).events =
      callItems e.events ++ [closedItem read e.state index] ∧
    (closeToolCall read responseId index e).state.functionItemsDone =
      insertMember e.state.functionItemsDone index ∧
    closedItem read (closeToolCall read responseId index e).state = closedItem read e.state := by
  rw [closeToolCall, if_neg h]
  refine ⟨?_, rfl, rfl⟩
  simp only [callItems_emit]
  have hargs (fields : List (String × Json)) :
      callItem? ⟨"response.function_call_arguments.done", Json.object fields⟩ = none := by
    rw [callItem?, if_neg (by simp)]
  rw [hargs, Option.toList_none, List.append_nil]
  congr 1
  have hitem (index item : Json) :
      (Json.object [("output_index", index), ("item", item)]).get "item" = some item ∧
      (Json.object [("output_index", index), ("item", item)]).get "output_index" =
        some index := by
    rw [Json.get_object, Json.get_object]
    exact ⟨rfl, rfl⟩
  simp only [callItem?, (hitem _ _).1, (hitem _ _).2, closedItem]
  by_cases hcustom : e.state.functionNames[index]?.getD "" ∈ e.state.customToolNames
  · simp only [hcustom, if_true, hasType, Option.bind_some, Json.strField_object]
    rfl
  · simp only [hcustom, if_true, if_false, hasType, Option.bind_some, Json.strField_object]
    rfl

theorem closedItem_congr (read : String → Option Json) (h : callFields s' = callFields s) :
    closedItem read s' = closedItem read s := by
  simp only [callFields, Prod.mk.injEq] at h
  obtain ⟨-, -, hnames, harguments, hcustom⟩ := h
  funext i
  rw [closedItem, closedItem, hnames, harguments, hcustom]

theorem closeToolCalls_items (read : String → Option Json) (responseId : String) {open_ : List Nat}
    (hnodup : open_.Nodup) {e : Emitter} (h : ∀ i ∈ open_, i ∉ e.state.functionItemsDone) :
    callItems (open_.foldl (fun e i ↦ closeToolCall read responseId i e) e).events =
      callItems e.events ++ open_.map (closedItem read e.state) := by
  induction open_ generalizing e with
  | nil => simp
  | cons i rest ih =>
    obtain ⟨hnot, hrest⟩ := List.nodup_cons.mp hnodup
    obtain ⟨hitems, hdone, hclosed⟩ := closeToolCall_items read responseId (h i List.mem_cons_self)
    have hopen : ∀ j ∈ rest,
        j ∉ (closeToolCall read responseId i e).state.functionItemsDone := by
      intro j hj hmem
      rw [hdone, mem_insertMember] at hmem
      rcases hmem with rfl | hmem
      · exact hnot hj
      · exact h j (List.mem_cons_of_mem _ hj) hmem
    rw [List.foldl_cons, ih hrest hopen, hitems, hclosed, List.map_cons, List.append_assoc]
    rfl

/-- The flush gives the client the items of all calls that are open. -/
theorem flush_items (read : String → Option Json) (h : Notes names deltas s)
    (hcompleted : s.responsesCompleted = false)
    (hstarted : s.responsesStarted = false → deltas = []) :
    callItems (Responses.flush read s).1 = s.functionItemsAdded.map (closedItem read s) := by
  rw [Responses.flush, if_neg (by simp [hcompleted])]
  split
  · next hidle =>
    have hdeltas := hstarted (by simpa using hidle)
    have hnone : s.functionItemsAdded = [] := by
      refine List.eq_nil_iff_forall_not_mem.mpr fun i hi ↦ ?_
      obtain ⟨delta, hdelta, -⟩ := (h.added i).mp hi
      rw [hdeltas] at hdelta
      cases hdelta
    rw [hnone]
    rfl
  · set responseId := s.responseId.getD ("resp_" ++ toString s.nowMillis.1)
    have hmessages (l : List Nat) (e : Emitter) :
        Quiet e (l.foldl (fun e i ↦ closeMessage responseId i e) e) := by
      induction l generalizing e with
      | nil => exact .refl e
      | cons i l ih => exact (quiet_closeMessage responseId i e).trans (ih _)
    have hquiet := (hmessages s.messageItemsAdded ⟨s, []⟩).trans
      (quiet_closeReasoning responseId 0 _)
    have hnotes := h.congr hquiet.fields
    have hadded := (Prod.mk.inj hquiet.fields).1
    have hitems := closeToolCalls_items read responseId hnotes.nodup
      (fun i _ ↦ by rw [hnotes.unclosed]; exact List.not_mem_nil)
    rw [hquiet.items, closedItem_congr read hquiet.fields, hadded] at hitems
    simp only [Emitter.complete]
    rw [callItems_emit, callItem?, if_neg (by simp)]
    refine (List.append_nil _).trans ?_
    rw [closeItems, hadded]
    exact hitems

/-! ### Chunks -/

/-- The text and the reasoning of a choice leave the calls alone. -/
theorem content_eq (responseId : String) (choice : Json) (e : Emitter) :
    ∃ e', Quiet e e' ∧ Responses.content responseId choice e =
      (deltaToolCalls (choice.get "delta")).foldl (emitToolCall responseId) e' := by
  have hreasoning (text : String) (e : Emitter) : Quiet e (if text.isEmpty then e
      else emitReasoning responseId (indexOf choice) text e) := by
    split
    · exact .refl e
    · exact quiet_emitReasoning ..
  refine ⟨_, (hreasoning (extractReasoningText (choice.get "delta")) e).trans ?_, rfl⟩
  cases deltaText (choice.get "delta") "content" with
  | none => exact .refl _
  | some text => exact (quiet_closeReasoning ..).trans (quiet_emitText ..)

theorem silent_content (responseId : String) (choice : Json) (e : Emitter) :
    Silent e (Responses.content responseId choice e) := by
  obtain ⟨e', hquiet, hcontent⟩ := content_eq responseId choice e
  rw [hcontent]
  have hcalls (calls : List Json) (e : Emitter) :
      Silent e (calls.foldl (emitToolCall responseId) e) := by
    induction calls generalizing e with
    | nil => exact ⟨rfl, rfl, id⟩
    | cons call calls ih => exact (silent_emitToolCall responseId call e).trans (ih _)
  exact hquiet.toSilent.trans (hcalls _ _)

theorem content_notes (responseId : String) (choice : Json) {e : Emitter}
    (h : Notes names deltas e.state) :
    Notes names (deltas ++ deltaToolCalls (choice.get "delta"))
      (Responses.content responseId choice e).state := by
  obtain ⟨e', hquiet, hcontent⟩ := content_eq responseId choice e
  rw [hcontent]
  have hcalls (calls deltas : List Json) (e : Emitter) (h : Notes names deltas e.state) :
      Notes names (deltas ++ calls) (calls.foldl (emitToolCall responseId) e).state := by
    induction calls generalizing deltas e with
    | nil => rwa [List.append_nil]
    | cons call calls ih =>
      rw [List.append_cons]
      exact ih _ _ (emitToolCall_notes responseId call h)
  exact hcalls _ _ _ (h.congr hquiet.fields)

/-- Fixing the id and the time of a response leaves the calls alone. -/
theorem fixed_fields (chunk : Json) (s : StreamState) :
    let s' := (Responses.fixCreated (Responses.fixId chunk s).2).2
    callFields s' = callFields s ∧ s'.responsesCompleted = s.responsesCompleted := by
  have htake : callFields (Responses.takeId chunk s) = callFields s ∧
      (Responses.takeId chunk s).responsesCompleted = s.responsesCompleted := by
    unfold Responses.takeId
    split
    · split
      · exact ⟨rfl, rfl⟩
      · exact ⟨rfl, rfl⟩
    · exact ⟨rfl, rfl⟩
  have hid : callFields (Responses.fixId chunk s).2 = callFields (Responses.takeId chunk s) ∧
      (Responses.fixId chunk s).2.responsesCompleted =
        (Responses.takeId chunk s).responsesCompleted := by
    simp only [Responses.fixId]
    split
    · exact ⟨rfl, rfl⟩
    · exact ⟨rfl, rfl⟩
  have hcreated (s : StreamState) : callFields (Responses.fixCreated s).2 = callFields s ∧
      (Responses.fixCreated s).2.responsesCompleted = s.responsesCompleted := by
    unfold Responses.fixCreated
    split
    · exact ⟨rfl, rfl⟩
    · exact ⟨rfl, rfl⟩
  exact ⟨(hcreated _).1.trans (hid.1.trans htake.1), (hcreated _).2.trans (hid.2.trans htake.2)⟩

/-- What a chunk with a choice comes to, before the flush at a finish reason. -/
theorem translate_choice (read : String → Option Json) {chunk choice : Json}
    (hchoice : firstChoice chunk = some choice) (s : StreamState) :
    ∃ e : Emitter, callItems e.events = [] ∧
      e.state.responsesCompleted = s.responsesCompleted ∧ e.state.responsesStarted = true ∧
      (∀ names deltas, Notes names deltas s →
        Notes names (deltas ++ callDeltas chunk) e.state) ∧
      Responses.translate read (some chunk) s =
        if endsTurn chunk then
          (e.events ++ (Responses.flush read e.state).1, (Responses.flush read e.state).2)
        else (e.events, e.state) := by
  obtain ⟨hfields, hcompleted⟩ := fixed_fields chunk s
  set identified := Responses.fixId chunk s
  set dated := Responses.fixCreated identified.2
  obtain ⟨hbegin, hstarted⟩ := quiet_begin identified.1 dated.1 ⟨dated.2, []⟩
  set begun := begin identified.1 dated.1 ⟨dated.2, []⟩
  have hcontent := silent_content identified.1 choice begun
  have hdeltas : callDeltas chunk = deltaToolCalls (choice.get "delta") := by
    rw [callDeltas, hchoice]
    rfl
  have hends : endsTurn chunk = (choiceFinish choice).isSome := by
    rw [endsTurn, hchoice]
    rfl
  refine ⟨Responses.content identified.1 choice begun, hcontent.items.trans hbegin.items,
    (hcontent.completed.trans hbegin.completed).trans hcompleted, hcontent.started hstarted,
    fun names deltas h ↦ ?_, ?_⟩
  · rw [hdeltas]
    exact content_notes _ _ (h.congr (hbegin.fields.trans hfields))
  · simp only [Responses.translate, hchoice, hends]
    rfl

/-- A response that is complete gives no further call. -/
theorem stream_of_completed (read : String → Option Json) (chunks : List Json) {s : StreamState}
    (h : s.responsesCompleted = true) : callItems (Responses.stream read chunks s) = [] := by
  induction chunks generalizing s with
  | nil =>
    rw [Responses.stream, Responses.translate, Responses.flush, if_pos h]
    rfl
  | cons chunk chunks ih =>
    rw [Responses.stream, callItems, List.filterMap_append]
    cases hchoice : firstChoice chunk with
    | none =>
      simp only [Responses.translate, hchoice]
      exact ih h
    | some choice =>
      obtain ⟨e, hitems, hcompleted, -, -, htranslate⟩ := translate_choice read hchoice s
      have hflush : Responses.flush read e.state = ([], e.state) := by
        rw [Responses.flush, if_pos (hcompleted.trans h)]
      rw [htranslate, hflush, List.append_nil, ite_self]
      exact (congrArg (· ++ _) hitems).trans (ih (hcompleted.trans h))

/-- The calls that a stream gives are those of its turn, each as the state has it at the end of
the turn. -/
theorem stream_items (read : String → Option Json) (chunks : List Json)
    (h : Notes names deltas s) (hcompleted : s.responsesCompleted = false)
    (hstarted : s.responsesStarted = false → deltas = []) :
    ∃ s', Notes names (deltas ++ (turn chunks).flatMap callDeltas) s' ∧
      callItems (Responses.stream read chunks s) =
        s'.functionItemsAdded.map (closedItem read s') := by
  induction chunks generalizing deltas s with
  | nil =>
    refine ⟨s, by simpa [turn] using h, ?_⟩
    exact flush_items read h hcompleted hstarted
  | cons chunk chunks ih =>
    rw [Responses.stream, callItems, List.filterMap_append, turn]
    cases hchoice : firstChoice chunk with
    | none =>
      have hends : endsTurn chunk = false := by
        rw [endsTurn, hchoice]
        rfl
      have hdeltas : callDeltas chunk = [] := by
        rw [callDeltas, hchoice]
        rfl
      simp only [Responses.translate, hchoice, hends, Bool.false_eq_true, if_false,
        List.flatMap_cons, hdeltas, List.nil_append]
      exact ih h hcompleted hstarted
    | some choice =>
      obtain ⟨e, hitems, hstill, hbegun, hnotes, htranslate⟩ := translate_choice read hchoice s
      have hnoted := hnotes _ _ h
      have hgoing : e.state.responsesCompleted = false := hstill.trans hcompleted
      have hbegun' : e.state.responsesStarted = false → deltas ++ callDeltas chunk = [] :=
        fun hidle ↦ Bool.noConfusion (hidle.symm.trans hbegun)
      rw [htranslate]
      cases hends : endsTurn chunk with
      | true =>
        refine ⟨e.state, by simpa using hnoted, ?_⟩
        have hflushed := flush_items read hnoted hgoing hbegun'
        have hover : (Responses.flush read e.state).2.responsesCompleted = true := by
          rw [Responses.flush, if_neg (by simp [hgoing]), if_neg (by simp [hbegun])]
          rfl
        have hrest := stream_of_completed read chunks hover
        simp only [if_true, List.filterMap_append]
        rw [callItems] at hitems hflushed hrest
        rw [hitems, hflushed, hrest, List.nil_append, List.append_nil]
      | false =>
        simp only [Bool.false_eq_true, if_false, List.flatMap_cons, ← List.append_assoc]
        rw [callItems] at hitems
        rw [hitems]
        exact ih hnoted hgoing hbegun'

end Steps

/-! ## Round trips -/

section RoundTrip

variable (serde : SerdeJson) (body : Json) (chunks : List Json) (clock : Nat → Nat)
  (toolNameMap : List (String × String)) (names : List String)

theorem notes_responseState : Notes names [] (responseState clock toolNameMap names) where
  added i := by simp [responseState, Called]
  nodup := List.nodup_nil
  named i := by simp [responseState, nameOf?]
  argued i := by simp [responseState, argumentsOf, String.join]
  unclosed := rfl
  custom := rfl

/-- A client gets the calls of the turn, a call free-form where the state was given its name. -/
theorem gets_calls :
    let items := callItems (Responses.stream serde.fromStr chunks
      (responseState clock toolNameMap names))
    let deltas := (turn chunks).flatMap callDeltas
    (∀ i, (∃ item ∈ items, item.index = i) ↔ Called deltas i) ∧
      ∀ item ∈ items, item.name = nameOf deltas item.index ∧
        item.custom = decide (item.name ∈ names) ∧
        item.text = if item.name ∈ names
          then customToolInput serde.fromStr (argumentsOf deltas item.index)
          else argumentsOf deltas item.index := by
  obtain ⟨s, hnotes, hitems⟩ := stream_items serde.fromStr chunks
    (notes_responseState clock toolNameMap names) rfl fun _ ↦ rfl
  have hindex (i : Nat) : (closedItem serde.fromStr s i).index = i := by
    simp only [closedItem]
    split <;> rfl
  intro items deltas
  constructor
  · intro i
    simp only [items, hitems, List.mem_map, exists_exists_and_eq_and, hindex, exists_eq_right]
    exact hnotes.added i
  · intro item hitem
    simp only [items, hitems] at hitem
    obtain ⟨i, hi, rfl⟩ := List.mem_map.mp hitem
    rw [List.nil_append] at hnotes
    rw [hindex, nameOf, ← hnotes.named, ← hnotes.argued]
    simp only [closedItem, hnotes.custom]
    split
    · next hcustom => simp [hcustom]
    · next hcustom => simp [hcustom]

/-- Without the names no call is free-form. -/
theorem no_custom_call : ∀ item ∈ callItems (Responses.stream serde.fromStr chunks
    (responseState clock toolNameMap [])), item.custom = false := by
  intro item hitem
  rw [((gets_calls serde chunks clock toolNameMap []).2 item hitem).2.1]
  rfl

/-- Under the state that the pipeline sets up, the calls of a stream make the round trip exactly
where none is to a custom tool and each call to a function tool begins within the turn. -/
theorem round_trips_iff : RoundTrips serde body chunks (responseState clock toolNameMap []) ↔
    ∀ i, Called (chunks.flatMap callDeltas) i →
      nameOf (chunks.flatMap callDeltas) i ∉ customTools serde body ∧
        (nameOf (chunks.flatMap callDeltas) i ∈ functionTools serde body →
          Called ((turn chunks).flatMap callDeltas) i) := by
  have hcalled := (gets_calls serde chunks clock toolNameMap []).1
  have hfunctions := no_custom_call serde chunks clock toolNameMap
  refine forall₂_congr fun i _ ↦ and_congr ?_ (imp_congr_right fun _ ↦ ?_)
  · constructor
    · intro hgets hcustom
      obtain ⟨⟨item, hitem, hindex⟩, hall⟩ := hgets hcustom
      exact Bool.noConfusion ((hall item hitem hindex).1.symm.trans (hfunctions item hitem))
    · intro hnot hcustom
      exact absurd hcustom hnot
  · rw [← hcalled i]
    exact ⟨fun hgets ↦ hgets.1, fun hget ↦ ⟨hget, fun item hitem _ ↦ hfunctions item hitem⟩⟩

end RoundTrip

/-- Reading and printing the arguments of the one call below. -/
def listing : SerdeJson where
  fromStr text := if text = "\x7b\"input\":\"ls\"\x7d" then
    some (Json.object [("input", .str "ls")]) else none
  toText _ := "\x7b\"input\":\"ls\"\x7d"
  toTextPretty _ := "\x7b\n  \"input\": \"ls\"\n\x7d"

/-- A stream of that call, to the tool `shell`. -/
def shellCall : List Json :=
  [Json.object [("choices", .arr [Json.object [("index", Json.nat 0),
    ("delta", Json.object [("tool_calls", .arr [Json.object [("index", Json.nat 0),
      ("id", .str "call_1"), ("function", Json.object [("name", .str "shell"),
        ("arguments", .str "\x7b\"input\":\"ls\"\x7d")])]])]),
    ("finish_reason", .str "tool_calls")]])]]

/-- A call to a custom tool comes back as a function call. -/
theorem custom_call_is_a_function_call :
    ¬ ∀ (serde : SerdeJson) (body : Json) (chunks : List Json) (clock : Nat → Nat)
      (toolNameMap : List (String × String)),
      RoundTrips serde body chunks (responseState clock toolNameMap []) := by
  intro hall
  have hgets := (hall listing
    (Json.object [("input", .str "hi"),
      ("tools", .arr [Json.object [("type", .str "custom"), ("name", .str "shell")]])])
    shellCall (fun _ ↦ 0) [] 0 (by decide)).1 (by decide)
  obtain ⟨⟨item, hitem, hindex⟩, hcustom⟩ := hgets
  have hfunction := no_custom_call _ _ _ _ item hitem
  exact Bool.noConfusion ((hcustom item hitem hindex).1.symm.trans hfunction)

end NullRouter.Translate.CustomTools
