import NullRouter.Base.Keyed
import NullRouter.Translate.Request.GeminiToOpenai

/-!
# How calls and replies of tools reach Gemini

The function calls and the function responses of a Gemini request beside the tool calls and the
tool messages that they are made of, `crates/translate/src/request/openai_to_gemini.rs:43–73,
147–250`. Replies and names are kept in tables by the id of the call.
-/

namespace NullRouter.Translate.Request.OpenaiToGemini

open NullRouter.Base NullRouter.Translate.Request.GeminiNames

/-- The tool calls of a conversation, in their order. -/
def conversationCalls (messages : List Json) : List Json :=
  (messages.filter fun message ↦ message.strField "role" = some "assistant").flatMap fun message ↦
    (arrayField message "tool_calls").getD []

/-- The tool messages of a conversation, in their order. -/
def toolMessages (messages : List Json) : List Json :=
  messages.filter fun message ↦ message.strField "role" = some "tool"

/-- The ids that the tool messages answer. -/
def toolIds (messages : List Json) : List String :=
  (toolMessages messages).filterMap (·.strField "tool_call_id")

/-- The name that a call is written under. -/
def callName (call : Json) : String :=
  sanitizeFunctionName (((call.get "function").bind (·.strField "name")).getD "")

/-- The part of a reply under a name. -/
def responsePart (serde : SerdeJson) (id name : String) (response : Json) : Json :=
  Json.object [("functionResponse", Json.object [("id", .str id), ("name", .str name),
    ("response", Json.object [("result", parsedReply serde response)])])]

/-- The call that a tool message answers: the last of the function calls before it that has the
id it names. -/
def answeredCall (seen : List Json) (message : Json) : Option Json :=
  (message.strField "tool_call_id").bind fun id ↦ seen.reverse.find? (callId · == id)

/-- The part that a tool message should become: its own content under the name of the call it
answers. -/
def owedPart (serde : SerdeJson) (seen : List Json) (message : Json) : Option Json :=
  (answeredCall seen message).map fun call ↦
    responsePart serde (callId call) (callName call) (fieldOrNull message "content")

/-- The tool messages of a conversation, each with the function calls before it. -/
def withCalls (seen : List Json) : List Json → List (Json × List Json)
  | [] => []
  | message :: rest =>
    if message.strField "role" = some "assistant" then
      withCalls (seen ++ functionCalls message) rest
    else if message.strField "role" = some "tool" then (message, seen) :: withCalls seen rest
    else withCalls seen rest

/-- A part that is a function call. -/
def isCallPart (part : Json) : Bool := (part.get "functionCall").isSome

/-- A part that is a function response. -/
def isReplyPart (part : Json) : Bool := (part.get "functionResponse").isSome

/-- The parts of all turns of a Gemini request. -/
def requestParts (request : Json) : List Json :=
  ((arrayField request "contents").getD []).flatMap partsOf

/-- Tool calls and tool messages all reach the request: each call is one function call, in
order, and each tool message is one function response with its own content under the name of
the call it answers. -/
structure ToolsKept (serde : SerdeJson) (messages parts : List Json) : Prop where
  calls : parts.filter isCallPart = (conversationCalls messages).map (callPart serde)
  replies : ((parts.filter isReplyPart).map some).Perm
    ((withCalls [] messages).map fun t ↦ owedPart serde t.2 t.1)

/-- The names of the calls that have one, by their ids. -/
def namedCalls (messages : List Json) : List (String × String) :=
  ((messages.filter fun message ↦ message.strField "role" = some "assistant").flatMap
    functionCalls).filterMap fun call ↦
      (call.strField "id").bind fun id ↦
        ((call.get "function").bind (·.strField "name")).map (id, ·)

/-- The contents of the tool messages, by the ids that they answer. -/
def replyEntries (messages : List Json) : List (String × Json) :=
  (toolMessages messages).filterMap fun message ↦
    (message.strField "tool_call_id").map (·, fieldOrNull message "content")

/-- The name of the last call with an id, else one made of the id. -/
def lastName (messages : List Json) (id : String) : String :=
  sanitizeFunctionName ((lastValue (namedCalls messages) id).getD (deriveNameFromId id))

/-- The content of the last tool message that answers an id. -/
def lastReply (messages : List Json) (id : String) : Json :=
  (lastValue (replyEntries messages) id).getD .null

/-- When ids tell calls and replies apart: every call is a function call; every tool message
answers one, under the name of the last call with that id and with the content of the last
reply to it; and an id that is answered has as many calls as replies. -/
structure KeyedById (serde : SerdeJson) (messages : List Json) : Prop where
  functions : ∀ call ∈ conversationCalls messages, hasType "function" call = true
  answers : ∀ t ∈ withCalls [] messages, ∃ call, answeredCall t.2 t.1 = some call ∧
    callName call = lastName messages (callId call) ∧
    parsedReply serde (fieldOrNull t.1 "content") =
      parsedReply serde (lastReply messages (callId call))
  counts : ∀ id ∈ toolIds messages,
    ((conversationCalls messages).map callId).count id = (toolIds messages).count id

section Tables

variable (messages : List Json)

/-- The table of names holds the last name of each id. -/
theorem getElem?_callNames (id : String) :
    (callNames messages)[id]? = lastValue (namedCalls messages) id := by
  have hfold : callNames messages = (namedCalls messages).foldl
      (fun names entry ↦ names.insert entry.1 entry.2) ∅ := by
    rw [callNames, namedCalls, List.foldl_filterMap]
    congr 1
    funext names call
    cases call.strField "id" with
    | none => rfl
    | some id =>
      cases (call.get "function").bind (·.strField "name") with
      | none => rfl
      | some name => rfl
  rw [hfold, getElem?_foldl_insert]
  simp

/-- The table of replies holds the last content for each id. -/
theorem getElem?_toolResponses (id : String) :
    (toolResponses messages)[id]? = lastValue (replyEntries messages) id := by
  have hfold : toolResponses messages = (replyEntries messages).foldl
      (fun replies entry ↦ replies.insert entry.1 entry.2) ∅ := by
    rw [toolResponses, replyEntries, List.foldl_filterMap]
    congr 1
    funext replies message
    cases message.strField "tool_call_id" with
    | none => rfl
    | some id => rfl
  rw [hfold, getElem?_foldl_insert]
  simp

/-- The ids with a reply are those that the tool messages answer. -/
theorem isSome_lastValue_replyEntries {id : String} :
    (lastValue (replyEntries messages) id).isSome = true ↔ id ∈ toolIds messages := by
  have hids : (replyEntries messages).map Prod.fst = toolIds messages := by
    rw [replyEntries, toolIds, List.map_filterMap]
    congr 1
    funext message
    cases message.strField "tool_call_id" <;> rfl
  rw [isSome_lastValue_iff, hids]

end Tables

/-- A part of a reply names its id. -/
def responseId (part : Json) : String :=
  ((part.get "functionResponse").bind (·.strField "id")).getD ""

private theorem get_responsePart (serde : SerdeJson) (id name : String) (response : Json) :
    (responsePart serde id name response).get "functionResponse" =
      some (Json.object [("id", .str id), ("name", .str name),
        ("response", Json.object [("result", parsedReply serde response)])]) := by
  rw [responsePart, Json.get_object]
  rfl

@[simp] theorem responseId_responsePart (serde : SerdeJson) (id name : String) (response : Json) :
    responseId (responsePart serde id name response) = id := by
  rw [responseId, get_responsePart, Option.bind_some, Json.strField_object]
  rfl

/-- Two parts of replies to one call are equal exactly if their names and their contents are. -/
theorem responsePart_inj {serde : SerdeJson} {id name name' : String} {response response' : Json} :
    responsePart serde id name response = responsePart serde id name' response' ↔
      name = name' ∧ parsedReply serde response = parsedReply serde response' := by
  constructor
  · intro h
    have hname := congrArg
      (fun part ↦ (part.get "functionResponse").bind (·.strField "name")) h
    have hresult := congrArg (fun part ↦ ((part.get "functionResponse").bind
      (·.get "response")).bind (·.get "result")) h
    simp only [get_responsePart, Option.bind_some, Json.strField_object] at hname
    simp only [get_responsePart, Option.bind_some, Json.get_object] at hresult
    exact ⟨Option.some.inj hname, Option.some.inj hresult⟩
  · rintro ⟨rfl, hresult⟩
    rw [responsePart, responsePart, hresult]

/-- The tool messages with the calls before them are the tool messages. -/
theorem map_fst_withCalls (seen messages : List Json) :
    (withCalls seen messages).map Prod.fst = toolMessages messages := by
  induction messages generalizing seen with
  | nil => rfl
  | cons message rest ih =>
    rw [withCalls]
    split
    · next hassistant =>
      rw [ih, toolMessages, toolMessages, List.filter_cons_of_neg (by simp [hassistant])]
    · split
      · next htool =>
        rw [List.map_cons, ih, toolMessages, toolMessages,
          List.filter_cons_of_pos (by simp [htool])]
      · next htool =>
        rw [ih, toolMessages, toolMessages, List.filter_cons_of_neg (by simp [htool])]

/-- The parts that are made of contents and hold neither a call nor a reply. -/
private def IsPlain (part : Json) : Prop :=
  part.get "functionCall" = none ∧ part.get "functionResponse" = none

private theorem isPlain_object {fields : List (String × Json)}
    (h : ∀ f ∈ fields, f.1 ≠ "functionCall" ∧ f.1 ≠ "functionResponse") :
    IsPlain (Json.object fields) := by
  constructor
  · rw [Json.get_object, List.lookup_eq_none_iff]
    intro f hf
    exact bne_iff_ne.mpr (h f (List.mem_reverse.mp hf)).1.symm
  · rw [Json.get_object, List.lookup_eq_none_iff]
    intro f hf
    exact bne_iff_ne.mpr (h f (List.mem_reverse.mp hf)).2.symm

private theorem isPlain_of_mem_contentToParts {content : Option Json} {part : Json}
    (h : part ∈ contentToParts content) : IsPlain part := by
  unfold contentToParts at h
  split at h
  · rw [List.mem_singleton.mp h]
    exact isPlain_object (by simp)
  · obtain ⟨item, -, hitem⟩ := List.mem_filterMap.mp h
    unfold contentPart at hitem
    split at hitem
    · cases hitem
      exact isPlain_object (by simp)
    · split at hitem
      · obtain ⟨url, -, hurl⟩ := Option.bind_eq_some_iff.mp hitem
        split at hurl
        · obtain ⟨data, -, rfl⟩ := Option.map_eq_some_iff.mp hurl
          exact isPlain_object (by simp)
        · split at hurl
          · cases hurl
            exact isPlain_object (by simp)
          · cases hurl
      · split at hitem
        · obtain ⟨data, -, rfl⟩ := Option.map_eq_some_iff.mp hitem
          exact isPlain_object (by simp)
        · cases hitem
  · cases h

/-- The reasoning and the text of an assistant message, as parts. -/
private def textParts (message : Json) : List Json :=
  (((message.strField "reasoning_content").filter (!·.isEmpty)).map fun text ↦
    Json.object [("thought", .bool true), ("text", .str text)]).toList ++
  if (extractTextContent (message.get "content") "").isEmpty then []
  else [textPart (.str (extractTextContent (message.get "content") ""))]

private theorem isPlain_of_mem_textParts {message part : Json} (h : part ∈ textParts message) :
    IsPlain part := by
  rcases List.mem_append.mp h with h | h
  · obtain ⟨text, -, rfl⟩ := Option.map_eq_some_iff.mp (Option.mem_toList.mp h)
    exact isPlain_object (by simp)
  · split at h
    · cases h
    · rw [List.mem_singleton.mp h]
      exact isPlain_object (by simp)

/-- The part that answers a call id from the tables of a conversation. -/
def answerPart (serde : SerdeJson) (messages : List Json) (id : String) : Option Json :=
  (lastValue (replyEntries messages) id).map (responsePart serde id (lastName messages id))

/-- The parts that a message adds: plain ones, and those of an assistant message's calls, first
the calls and then the replies to them. -/
private theorem partsOf_turnsOf (serde : SerdeJson) (messages : List Json) (message : Json) :
    ∃ plain, (∀ part ∈ plain, IsPlain part) ∧
      (turnsOf serde messages message).flatMap partsOf = plain ++
        if message.strField "role" = some "assistant" then
          (functionCalls message).map (callPart serde) ++
            ((functionCalls message).map callId).filterMap (answerPart serde messages)
        else [] := by
  have hassistant : textOrEmpty message "role" = "assistant" ↔
      message.strField "role" = some "assistant" := textOrEmpty_eq_iff (by decide)
  simp only [← hassistant]
  unfold turnsOf
  simp only
  split
  · next hinstruction =>
    have hrole : ¬textOrEmpty message "role" = "assistant" := by
      rw [isInstruction, Bool.and_eq_true, beq_iff_eq] at hinstruction
      rw [hinstruction.1]
      decide
    exact ⟨[], by simp, by rw [if_neg hrole]; rfl⟩
  · split
    · next huser =>
      have hrole : ¬textOrEmpty message "role" = "assistant" := by
        rcases huser with h | ⟨h, -⟩ <;> rw [h] <;> decide
      refine ⟨contentToParts (message.get "content"),
        fun _ ↦ isPlain_of_mem_contentToParts, ?_⟩
      rw [if_neg hrole, flatMap_partsOf_turn, List.append_nil]
    · split
      · refine ⟨textParts message, fun _ ↦ isPlain_of_mem_textParts, ?_⟩
        have hanswer : (fun id ↦ (toolResponses messages)[id]?.map
            (replyPart serde (callNames messages) id)) = answerPart serde messages := by
          funext id
          rw [getElem?_toolResponses, answerPart]
          congr 1
          funext response
          rw [replyPart, getElem?_callNames]
          rfl
        unfold assistantTurns
        rw [List.flatMap_append, flatMap_partsOf_turn, flatMap_partsOf_turn, hanswer,
          ← List.append_assoc]
        rfl
      · exact ⟨[], by simp, rfl⟩

/-- The function calls of a conversation. -/
private def allFunctionCalls (messages : List Json) : List Json :=
  (messages.filter fun message ↦ message.strField "role" = some "assistant").flatMap functionCalls

private theorem flatMap_assistant {β : Type} (f : Json → List β) (messages : List Json) :
    (messages.flatMap fun message ↦
      if message.strField "role" = some "assistant" then f message else []) =
      (messages.filter fun message ↦ message.strField "role" = some "assistant").flatMap f := by
  induction messages with
  | nil => rfl
  | cons message messages ih =>
    rw [List.flatMap_cons, ih]
    by_cases h : message.strField "role" = some "assistant"
    · rw [if_pos h, List.filter_cons_of_pos (by simpa using h), List.flatMap_cons]
    · rw [if_neg h, List.filter_cons_of_neg (by simpa using h), List.nil_append]

private theorem isCallPart_callPart (serde : SerdeJson) (call : Json) :
    isCallPart (callPart serde call) = true := by
  rw [isCallPart, callPart, Json.get_object]
  rfl

private theorem isReplyPart_callPart (serde : SerdeJson) (call : Json) :
    isReplyPart (callPart serde call) = false := by
  rw [isReplyPart, callPart, Json.get_object]
  rfl

private theorem isCallPart_responsePart (serde : SerdeJson) (id name : String) (response : Json) :
    isCallPart (responsePart serde id name response) = false := by
  rw [isCallPart, responsePart, Json.get_object]
  rfl

private theorem isReplyPart_responsePart (serde : SerdeJson) (id name : String)
    (response : Json) : isReplyPart (responsePart serde id name response) = true := by
  rw [isReplyPart, get_responsePart]
  rfl

private theorem filter_calls_turnsOf (serde : SerdeJson) (messages : List Json) (message : Json) :
    ((turnsOf serde messages message).flatMap partsOf).filter isCallPart =
      if message.strField "role" = some "assistant" then
        (functionCalls message).map (callPart serde) else [] := by
  obtain ⟨plain, hplain, hparts⟩ := partsOf_turnsOf serde messages message
  have hnone : plain.filter isCallPart = [] := by
    rw [List.filter_eq_nil_iff]
    intro part hpart
    simp [isCallPart, (hplain part hpart).1]
  rw [hparts, List.filter_append, hnone, List.nil_append]
  split
  · rw [List.filter_append, List.filter_eq_self.mpr, List.filter_eq_nil_iff.mpr,
      List.append_nil]
    · intro part hpart
      obtain ⟨id, -, hid⟩ := List.mem_filterMap.mp hpart
      obtain ⟨response, -, rfl⟩ := Option.map_eq_some_iff.mp hid
      simp [isCallPart_responsePart]
    · intro part hpart
      obtain ⟨call, -, rfl⟩ := List.mem_map.mp hpart
      exact isCallPart_callPart serde call
  · rfl

private theorem filter_replies_turnsOf (serde : SerdeJson) (messages : List Json)
    (message : Json) :
    ((turnsOf serde messages message).flatMap partsOf).filter isReplyPart =
      if message.strField "role" = some "assistant" then
        ((functionCalls message).map callId).filterMap (answerPart serde messages) else [] := by
  obtain ⟨plain, hplain, hparts⟩ := partsOf_turnsOf serde messages message
  have hnone : plain.filter isReplyPart = [] := by
    rw [List.filter_eq_nil_iff]
    intro part hpart
    simp [isReplyPart, (hplain part hpart).2]
  rw [hparts, List.filter_append, hnone, List.nil_append]
  split
  · rw [List.filter_append, List.filter_eq_nil_iff.mpr, List.nil_append, List.filter_eq_self]
    · intro part hpart
      obtain ⟨id, -, hid⟩ := List.mem_filterMap.mp hpart
      obtain ⟨response, -, rfl⟩ := Option.map_eq_some_iff.mp hid
      exact isReplyPart_responsePart ..
    · intro part hpart
      obtain ⟨call, -, rfl⟩ := List.mem_map.mp hpart
      simp [isReplyPart_callPart]
  · rfl

/-- The function calls of a request are those of the conversation, in their order. -/
theorem filter_isCallPart (writer : GeminiWriter) (model : String) (body : Json) :
    (requestParts (translate writer model body)).filter isCallPart =
      (allFunctionCalls (sourceMessages body)).map (callPart writer.serde) := by
  rw [requestParts, contents_translate, Option.getD_some, partsOf_contents, List.filter_flatMap]
  simp only [filter_calls_turnsOf]
  rw [flatMap_assistant, allFunctionCalls, List.map_flatMap]

/-- The function responses of a request answer the function calls of the conversation, in their
order, each from the tables by its id. -/
theorem filter_isReplyPart (writer : GeminiWriter) (model : String) (body : Json) :
    (requestParts (translate writer model body)).filter isReplyPart =
      ((allFunctionCalls (sourceMessages body)).map callId).filterMap
        (answerPart writer.serde (sourceMessages body)) := by
  rw [requestParts, contents_translate, Option.getD_some, partsOf_contents, List.filter_flatMap]
  simp only [filter_replies_turnsOf]
  rw [flatMap_assistant, allFunctionCalls, List.map_flatMap, List.filterMap_flatMap]

private theorem allFunctionCalls_eq (messages : List Json) :
    allFunctionCalls messages = (conversationCalls messages).filter (hasType "function") := by
  rw [allFunctionCalls, conversationCalls, List.filter_flatMap]
  rfl

private theorem responseId_answerPart {serde : SerdeJson} {messages : List Json} {id : String}
    {part : Json} (h : answerPart serde messages id = some part) : responseId part = id := by
  obtain ⟨response, -, rfl⟩ := Option.map_eq_some_iff.mp h
  exact responseId_responsePart ..

private theorem strField_of_answeredCall {seen : List Json} {message call : Json}
    (h : answeredCall seen message = some call) :
    message.strField "tool_call_id" = some (callId call) := by
  obtain ⟨id, hid, hfind⟩ := Option.bind_eq_some_iff.mp h
  have hfound := List.find?_some hfind
  rw [hid, eq_of_beq hfound]

private theorem strField_of_owedPart {serde : SerdeJson} {seen : List Json} {message part : Json}
    (h : owedPart serde seen message = some part) :
    message.strField "tool_call_id" = some (responseId part) := by
  obtain ⟨call, hcall, rfl⟩ := Option.map_eq_some_iff.mp h
  rw [strField_of_answeredCall hcall, responseId_responsePart]

/-- A tool message gets what it is owed from the tables exactly if it answers a call, under the
last name and with the last content for its id. -/
private theorem owedPart_eq_iff {serde : SerdeJson} {messages seen : List Json} {message : Json} :
    (∃ id, message.strField "tool_call_id" = some id ∧
      owedPart serde seen message = answerPart serde messages id ∧
      (answerPart serde messages id).isSome = true) ↔
    ∃ call, answeredCall seen message = some call ∧
      callName call = lastName messages (callId call) ∧
      callId call ∈ toolIds messages ∧
      parsedReply serde (fieldOrNull message "content") =
        parsedReply serde (lastReply messages (callId call)) := by
  have hsome : ∀ id, (answerPart serde messages id).isSome = true ↔ id ∈ toolIds messages := by
    intro id
    rw [answerPart, Option.isSome_map, isSome_lastValue_replyEntries]
  have hanswer : ∀ id, (answerPart serde messages id).isSome = true →
      answerPart serde messages id =
        some (responsePart serde id (lastName messages id) (lastReply messages id)) := by
    intro id hid
    rw [answerPart, Option.isSome_map] at hid
    obtain ⟨response, hresponse⟩ := Option.isSome_iff_exists.mp hid
    rw [answerPart, lastReply, hresponse]
    rfl
  constructor
  · rintro ⟨id, hid, howed, hid'⟩
    rw [hanswer id hid', owedPart, Option.map_eq_some_iff] at howed
    obtain ⟨call, hcall, hpart⟩ := howed
    rw [strField_of_answeredCall hcall] at hid
    cases hid
    rw [responsePart_inj] at hpart
    exact ⟨call, hcall, hpart.1, (hsome _).mp hid', hpart.2⟩
  · rintro ⟨call, hcall, hname, hmem, hreply⟩
    have hid := (hsome _).mpr hmem
    refine ⟨callId call, strField_of_answeredCall hcall, ?_, hid⟩
    rw [hanswer _ hid, owedPart, hcall, Option.map_some, hname]
    exact congrArg some (responsePart_inj.mpr ⟨rfl, hreply⟩)

/-- All calls and all replies reach a Gemini request exactly when their ids tell them apart. -/
theorem toolsKept_iff (writer : GeminiWriter) (model : String) (body : Json) :
    ToolsKept writer.serde (sourceMessages body) (requestParts (translate writer model body)) ↔
      KeyedById writer.serde (sourceMessages body) := by
  generalize hmessages : sourceMessages body = messages
  have hcalls := filter_isCallPart writer model body
  have hreplies := filter_isReplyPart writer model body
  rw [hmessages] at hcalls hreplies
  have hids : (withCalls [] messages).filterMap (fun t ↦ t.1.strField "tool_call_id") =
      toolIds messages := by
    rw [toolIds, ← map_fst_withCalls [] messages, List.filterMap_map]
    rfl
  have hperm := @perm_answers_iff _ _ _ ((allFunctionCalls messages).map callId)
    (answerPart writer.serde messages) responseId (withCalls [] messages)
    (fun t ↦ t.1.strField "tool_call_id") (fun t ↦ owedPart writer.serde t.2 t.1) _
    (fun _ _ ↦ responseId_answerPart) (fun _ _ ↦ strField_of_owedPart)
  rw [hids] at hperm
  have hsome : ∀ id, (answerPart writer.serde messages id).isSome = true ↔
      id ∈ toolIds messages := by
    intro id
    rw [answerPart, Option.isSome_map, isSome_lastValue_replyEntries]
  constructor
  · rintro ⟨hkept, hrepliesKept⟩
    rw [hcalls, allFunctionCalls_eq] at hkept
    have hfunctions : ∀ call ∈ conversationCalls messages, hasType "function" call = true := by
      have hlength := congrArg List.length hkept
      rw [List.length_map, List.length_map] at hlength
      exact List.length_filter_eq_length_iff.mp hlength
    rw [hreplies, hperm] at hrepliesKept
    obtain ⟨hanswers, hcounts⟩ := hrepliesKept
    rw [allFunctionCalls_eq, List.filter_eq_self.mpr hfunctions] at hcounts
    refine ⟨hfunctions, ?_, fun id hid ↦ hcounts id ((hsome id).mpr hid)⟩
    intro t ht
    obtain ⟨call, hcall, hname, -, hreply⟩ := owedPart_eq_iff.mp (hanswers t ht)
    exact ⟨call, hcall, hname, hreply⟩
  · rintro ⟨hfunctions, hanswers, hcounts⟩
    have hall : allFunctionCalls messages = conversationCalls messages := by
      rw [allFunctionCalls_eq, List.filter_eq_self.mpr hfunctions]
    refine ⟨by rw [hcalls, hall], ?_⟩
    rw [hreplies, hperm]
    refine ⟨?_, fun id hid ↦ by rw [hall, hcounts id ((hsome id).mp hid)]⟩
    intro t ht
    obtain ⟨call, hcall, hname, hreply⟩ := hanswers t ht
    refine owedPart_eq_iff.mpr ⟨call, hcall, hname, ?_, hreply⟩
    have hmem : t.1 ∈ toolMessages messages := by
      rw [← map_fst_withCalls [] messages]
      exact List.mem_map_of_mem ht
    exact List.mem_filterMap.mpr ⟨t.1, hmem, strField_of_answeredCall hcall⟩

/-- A conversation in which two turns call functions under one id. -/
def repeatedId : Json :=
  let assistant := fun name ↦ Json.object [("role", .str "assistant"), ("tool_calls", .arr [
    Json.object [("id", .str "call_a"), ("type", .str "function"),
      ("function", Json.object [("name", .str name), ("arguments", .str "\x7b\x7d")])]])]
  let tool := fun content ↦ Json.object [("role", .str "tool"), ("tool_call_id", .str "call_a"),
    ("content", .str content)]
  Json.object [("messages", .arr [assistant "read", tool "first", assistant "read", tool "second"])]

/-- The first reply of that conversation is lost: its call gets the second one. -/
theorem repeatedId_loses_reply :
    ¬ ∀ (writer : GeminiWriter) (model : String), ToolsKept writer.serde
      (sourceMessages repeatedId) (requestParts (translate writer model repeatedId)) := by
  intro h
  have hkept := (h .placeholder "m").replies
  have hfirst : owedPart GeminiWriter.placeholder.serde
      (functionCalls ((sourceMessages repeatedId).headD .null))
      ((sourceMessages repeatedId).tail.headD .null) ∈
        ((requestParts (translate .placeholder "m" repeatedId)).filter isReplyPart).map some :=
    hkept.mem_iff.mpr (by decide)
  exact absurd hfirst (by decide)

end NullRouter.Translate.Request.OpenaiToGemini
