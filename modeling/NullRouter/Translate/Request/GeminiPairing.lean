import NullRouter.Base.Lists
import NullRouter.Translate.Request.GeminiToOpenai

/-!
# How the calls and replies of a Gemini conversation are paired

The tool calls and tool messages that the contents of a Gemini request become,
`crates/translate/src/request/gemini_to_openai.rs:92–197`. A call without an id gets one from its
name, and a content with a function response becomes the message of its first one.
-/

namespace NullRouter.Translate.Request.GeminiToOpenai

open NullRouter.Base

/-- The contents of a Gemini request. -/
def sourceContents (body : Json) : List Json := (arrayField body "contents").getD []

/-- The parts of a content. -/
def sourceParts (content : Json) : List Json := (arrayField content "parts").getD []

/-- The tool calls of an OpenAI message. -/
def messageCalls (message : Json) : List Json := (arrayField message "tool_calls").getD []

/-- Whether an OpenAI message is the reply of a tool. -/
def isToolMessage (message : Json) : Bool := message.strField "role" == some "tool"

/-- The texts of a content, part by part. -/
def sourceTexts (content : Json) : List String := (sourceParts content).filterMap (·.strField "text")

/-- The text of a content part of an OpenAI message. -/
def partText (part : Json) : Option String :=
  if hasType "text" part then part.strField "text" else none

/-- The texts of the content of an OpenAI message that is no tool message. -/
def messageTexts (message : Json) : List String :=
  if isToolMessage message then []
  else match message.get "content" with
    | some (.str text) => [text]
    | some (.arr parts) => parts.filterMap partText
    | _ => []

/-- The parts of a conversation that call a function of a name. -/
def callsTo (contents : List Json) (name : String) : List Json :=
  (contents.flatMap sourceParts).filter fun part ↦
    (part.get "functionCall").any fun call ↦ textOrEmpty call "name" == name

/-- The parts of a conversation that hold a reply of the function of a name. -/
def repliesTo (contents : List Json) (name : String) : List Json :=
  (contents.flatMap sourceParts).filter fun part ↦
    (part.get "functionResponse").any fun response ↦ textOrEmpty response "name" == name

/-- The id of the tool call that a part becomes. -/
def idOfCall (serde : SerdeJson) (part : Json) : Option String :=
  (toolCall serde part).bind (·.strField "id")

/-- The id that the tool message of a part answers. -/
def idOfReply (serde : SerdeJson) (part : Json) : Option String :=
  (toolMessage serde part).bind (·.strField "tool_call_id")

/-- The calls and the replies of a conversation stay paired: each call becomes one tool call and
each reply one tool message, in their order; the ids of the calls are distinct; the reply number
`k` of a function answers its call number `k`; and no text of a content is lost. -/
structure ToolsPaired (serde : SerdeJson) (contents : List Json) : Prop where
  calls : (contents.filterMap (convertContent serde)).flatMap messageCalls =
    (contents.flatMap sourceParts).filterMap (toolCall serde)
  distinct : (((contents.filterMap (convertContent serde)).flatMap messageCalls).filterMap
    (·.strField "id")).Nodup
  replies : (contents.filterMap (convertContent serde)).filter isToolMessage =
    (contents.flatMap sourceParts).filterMap (toolMessage serde)
  paired : ∀ (name : String) (k : Nat) (reply call : Json),
    (repliesTo contents name)[k]? = some reply → (callsTo contents name)[k]? = some call → idOfReply serde reply = idOfCall serde call
  texts : ∀ content ∈ contents, (sourceTexts content).Sublist
    ((convertContent serde content).toList.flatMap messageTexts)

/-- The function calls of a content. -/
def functionCalls (content : Json) : List Json :=
  (sourceParts content).filterMap (·.get "functionCall")

/-- The function responses of a content. -/
def functionResponses (content : Json) : List Json :=
  (sourceParts content).filterMap (·.get "functionResponse")

/-- When the parts of a conversation can stay paired: a content with a function response holds
that one response, no call and no text; the ids of the calls, their own or made of their names,
are distinct; and the reply number `k` of a function was given the id of its call number `k`. -/
structure Pairable (contents : List Json) : Prop where
  alone : ∀ content ∈ contents, functionResponses content ≠ [] →
    (functionResponses content).length = 1 ∧ functionCalls content = [] ∧ sourceTexts content = []
  distinct : ((contents.flatMap functionCalls).map callId).Nodup
  ordered : ∀ (name : String) (k : Nat) (reply call : Json),
    (repliesTo contents name)[k]? = some reply → (callsTo contents name)[k]? = some call →
    (reply.get "functionResponse").map callId = (call.get "functionCall").map callId

section Parts

variable {serde : SerdeJson}

/-- The tool call that a function call becomes. -/
private def writtenCall (serde : SerdeJson) (call : Json) : Json :=
  Json.object [("id", .str (callId call)), ("type", .str "function"),
    ("function", Json.object [("name", .str (textOrEmpty call "name")),
      ("arguments", .str (serde.toText ((call.get "args").getD (Json.object []))))])]

/-- The tool message that a function response becomes. -/
private def writtenReply (serde : SerdeJson) (response : Json) : Json :=
  Json.object [("role", .str "tool"), ("tool_call_id", .str (callId response)),
    ("content", .str (serde.toText ((((response.get "response").bind (·.get "result")).or
      (response.get "response")).getD (Json.object []))))]

private theorem strField_id_writtenCall (call : Json) :
    (writtenCall serde call).strField "id" = some (callId call) := by
  simp [writtenCall, Json.strField, Json.get_object, List.lookup_cons, Json.asStr]

private theorem strField_id_writtenReply (response : Json) :
    (writtenReply serde response).strField "tool_call_id" = some (callId response) := by
  simp [writtenReply, Json.strField, Json.get_object, List.lookup_cons, Json.asStr]

private theorem isToolMessage_writtenReply (response : Json) :
    isToolMessage (writtenReply serde response) = true := by
  simp [isToolMessage, writtenReply, Json.strField, Json.get_object, List.lookup_cons, Json.asStr]

private theorem messageCalls_writtenReply (response : Json) :
    messageCalls (writtenReply serde response) = [] := by
  simp [messageCalls, writtenReply, arrayField, Json.get_object, List.lookup_cons]

private theorem filterMap_toolCall (parts : List Json) :
    parts.filterMap (toolCall serde) =
      (parts.filterMap (·.get "functionCall")).map (writtenCall serde) := by
  rw [List.map_filterMap]
  rfl

private theorem filterMap_toolMessage (parts : List Json) :
    parts.filterMap (toolMessage serde) =
      (parts.filterMap (·.get "functionResponse")).map (writtenReply serde) := by
  rw [List.map_filterMap]
  rfl

private theorem idOfCall_eq (part : Json) :
    idOfCall serde part = (part.get "functionCall").map callId := by
  show ((part.get "functionCall").map (writtenCall serde)).bind _ = _
  cases part.get "functionCall" with
  | none => rfl
  | some call => exact strField_id_writtenCall call

private theorem idOfReply_eq (part : Json) :
    idOfReply serde part = (part.get "functionResponse").map callId := by
  show ((part.get "functionResponse").map (writtenReply serde)).bind _ = _
  cases part.get "functionResponse" with
  | none => rfl
  | some response => exact strField_id_writtenReply response

private theorem findSome?_toolMessage (parts : List Json) :
    parts.findSome? (toolMessage serde) =
      (parts.filterMap (·.get "functionResponse")).head?.map (writtenReply serde) := by
  rw [← List.head?_filterMap, filterMap_toolMessage, List.head?_map]

end Parts

section Content

variable {serde : SerdeJson}

private theorem convertContent_of_response {content response : Json} {others : List Json}
    (h : functionResponses content = response :: others) :
    convertContent serde content = some (writtenReply serde response) := by
  unfold functionResponses sourceParts at h
  rw [convertContent]
  cases hparts : arrayField content "parts" with
  | none =>
    rw [hparts] at h
    cases h
  | some parts =>
    rw [hparts, Option.getD_some] at h
    rw [Option.bind_some, findSome?_toolMessage, h]
    rfl

/-- The content parts of the parts of a content. -/
private def plainParts (content : Json) : List Json := (sourceParts content).flatMap contentParts

private theorem convertContent_of_no_response {content : Json}
    (h : functionResponses content = []) :
    ∃ role, role ≠ "tool" ∧ convertContent serde content =
      if functionCalls content ≠ [] then
        some (Json.object ([("role", .str "assistant")] ++
          (match plainParts content with
            | [] => []
            | [part] => [("content", (part.get "text").getD .null)]
            | parts => [("content", Json.arr parts)]) ++
          [("tool_calls", .arr ((functionCalls content).map (writtenCall serde)))]))
      else if plainParts content ≠ [] then
        some (Json.object [("role", .str role),
          ("content", collapseTextParts (plainParts content))])
      else none := by
  refine ⟨if content.strField "role" = some "user" then "user" else "assistant",
    by split <;> decide, ?_⟩
  unfold functionResponses at h
  unfold functionCalls plainParts
  unfold sourceParts at h ⊢
  rw [convertContent]
  cases hparts : arrayField content "parts" with
  | none => rfl
  | some parts =>
    rw [hparts, Option.getD_some] at h
    rw [Option.bind_some, findSome?_toolMessage, h, Option.getD_some]
    simp only [List.head?_nil, Option.map_none, filterMap_toolCall, ne_eq, List.map_eq_nil_iff]
    all_goals rfl

private theorem reads_callMessage {fields : List (String × Json)} (calls : List Json)
    (h : fields = [] ∨ ∃ value, fields = [("content", value)]) :
    let message := Json.object ([("role", .str "assistant")] ++ fields ++
      [("tool_calls", .arr calls)])
    isToolMessage message = false ∧ messageCalls message = calls ∧
      message.get "content" = fields.head?.map Prod.snd := by
  rcases h with rfl | ⟨value, rfl⟩ <;>
    simp [isToolMessage, messageCalls, arrayField, Json.strField, Json.get_object,
      List.lookup_cons, Json.asStr, Json.asArray]

private theorem reads_plainMessage {role : String} (hrole : role ≠ "tool") (value : Json) :
    let message := Json.object [("role", .str role), ("content", value)]
    isToolMessage message = false ∧ messageCalls message = [] ∧
      message.get "content" = some value := by
  simp [isToolMessage, messageCalls, arrayField, Json.strField, Json.get_object,
    List.lookup_cons, Json.asStr, hrole]

private theorem partText_text (text : Json) :
    partText (Json.object [("type", .str "text"), ("text", text)]) = text.asStr := by
  simp [partText, hasType, Json.strField, Json.get_object, List.lookup_cons, Json.asStr]

private theorem partText_image (url : Json) :
    partText (Json.object [("type", .str "image_url"), ("image_url", url)]) = none := by
  simp [partText, hasType, Json.strField, Json.get_object, List.lookup_cons, Json.asStr]

private theorem texts_contentParts (parts : List Json) :
    (parts.flatMap contentParts).filterMap partText = parts.filterMap (·.strField "text") := by
  induction parts with
  | nil => rfl
  | cons part parts ih =>
    have hpart : (contentParts part).filterMap partText = (part.strField "text").toList := by
      rw [contentParts, List.filterMap_append, Json.strField]
      cases part.get "text" with
      | none =>
        cases part.get "inlineData" with
        | none => rfl
        | some inline => simp [partText_image]
      | some text =>
        cases part.get "inlineData" with
        | none => cases htext : text.asStr <;> simp [partText_text, htext]
        | some inline => cases htext : text.asStr <;> simp [partText_text, partText_image, htext]
    rw [List.flatMap_cons, List.filterMap_append, hpart, ih]
    rw [List.filterMap_cons]
    cases part.strField "text" <;> rfl

/-- The texts of a message that is no tool message, whose content is made of some parts: a single
part may stand for itself. -/
private theorem sublist_messageTexts {message value : Json} {parts : List Json}
    (htool : isToolMessage message = false) (hcontent : message.get "content" = some value)
    (hvalue : value = .arr parts ∨ ∃ part text, parts = [part] ∧
      (partText part = none ∨ partText part = some text ∧ value = .str text)) :
    (parts.filterMap partText).Sublist (messageTexts message) := by
  rw [messageTexts, htool, if_neg Bool.false_ne_true, hcontent]
  rcases hvalue with rfl | ⟨part, text, rfl, hnone | ⟨hsome, rfl⟩⟩
  · exact List.Sublist.refl _
  · rw [List.filterMap_cons_none hnone]
    exact List.nil_sublist _
  · rw [List.filterMap_cons_some hsome]
    exact List.Sublist.refl _

private theorem get_of_partText {part : Json} {text : String} (h : partText part = some text) :
    hasType "text" part = true ∧ part.get "text" = some (.str text) := by
  rw [partText, Option.ite_none_right_eq_some] at h
  obtain ⟨htype, htext⟩ := h
  obtain ⟨value, hvalue, hstr⟩ := Option.bind_eq_some_iff.mp htext
  cases value with
  | str found => exact ⟨htype, by rw [hvalue, ← Option.some.inj hstr]⟩
  | _ => cases hstr

private theorem collapse_holds_texts (parts : List Json) :
    collapseTextParts parts = .arr parts ∨ ∃ part text, parts = [part] ∧
      (partText part = none ∨
        partText part = some text ∧ collapseTextParts parts = .str text) := by
  match parts with
  | [] => exact .inl rfl
  | [part] =>
    right
    cases h : partText part with
    | none => exact ⟨part, "", rfl, .inl h⟩
    | some text =>
      obtain ⟨htype, hget⟩ := get_of_partText h
      exact ⟨part, text, rfl, .inr ⟨h, by rw [collapseTextParts, if_pos htype, hget]; rfl⟩⟩
  | _ :: _ :: _ => exact .inl rfl

private theorem reads_of_no_response {content : Json} (h : functionResponses content = []) :
    (convertContent serde content).toList.flatMap messageCalls =
      (functionCalls content).map (writtenCall serde) ∧
    (convertContent serde content).toList.filter isToolMessage = [] ∧
    (sourceTexts content).Sublist
      ((convertContent serde content).toList.flatMap messageTexts) := by
  obtain ⟨role, hrole, hconvert⟩ := @convertContent_of_no_response serde content h
  have htexts : sourceTexts content = (plainParts content).filterMap partText :=
    (texts_contentParts (sourceParts content)).symm
  rw [hconvert, htexts]
  generalize plainParts content = parts
  split
  · next hcalls =>
    have hfilter : ∀ message, isToolMessage message = false →
        [message].filter isToolMessage = [] := by
      intro message hmessage
      rw [List.filter_cons_of_neg (by rw [hmessage]; exact Bool.false_ne_true), List.filter_nil]
    rw [Option.toList_some, List.flatMap_singleton, List.flatMap_singleton]
    match parts with
    | [] =>
      obtain ⟨htool, hmessage, -⟩ := reads_callMessage ((functionCalls content).map
        (writtenCall serde)) (.inl rfl)
      exact ⟨hmessage, hfilter _ htool, List.nil_sublist _⟩
    | [part] =>
      obtain ⟨htool, hmessage, hcontent⟩ := reads_callMessage ((functionCalls content).map
        (writtenCall serde)) (.inr ⟨(part.get "text").getD .null, rfl⟩)
      refine ⟨hmessage, hfilter _ htool, sublist_messageTexts htool hcontent (.inr ?_)⟩
      cases hpart : partText part with
      | none => exact ⟨part, "", rfl, .inl hpart⟩
      | some text =>
        exact ⟨part, text, rfl, .inr ⟨hpart, by rw [(get_of_partText hpart).2]; rfl⟩⟩
    | first :: second :: others =>
      obtain ⟨htool, hmessage, hcontent⟩ := reads_callMessage ((functionCalls content).map
        (writtenCall serde)) (.inr ⟨.arr (first :: second :: others), rfl⟩)
      exact ⟨hmessage, hfilter _ htool, sublist_messageTexts htool hcontent (.inl rfl)⟩
  · next hcalls =>
    rw [not_ne_iff.mp hcalls]
    split
    · next hparts =>
      obtain ⟨htool, hnone, hcontent⟩ := reads_plainMessage hrole (collapseTextParts parts)
      rw [Option.toList_some, List.flatMap_singleton, List.flatMap_singleton,
        List.filter_cons_of_neg (by rw [htool]; exact Bool.false_ne_true), List.filter_nil]
      exact ⟨hnone, rfl, sublist_messageTexts htool hcontent (collapse_holds_texts parts)⟩
    · next hparts =>
      rw [not_ne_iff.mp hparts]
      exact ⟨rfl, rfl, List.nil_sublist _⟩

private theorem reads_of_response {content response : Json} {others : List Json}
    (h : functionResponses content = response :: others) :
    (convertContent serde content).toList.flatMap messageCalls = [] ∧
    (convertContent serde content).toList.filter isToolMessage = [writtenReply serde response] ∧
    (convertContent serde content).toList.flatMap messageTexts = [] := by
  rw [convertContent_of_response h, Option.toList_some, List.flatMap_singleton,
    List.flatMap_singleton, messageCalls_writtenReply, messageTexts, isToolMessage_writtenReply,
    if_pos rfl, List.filter_cons_of_pos (isToolMessage_writtenReply response), List.filter_nil]
  exact ⟨rfl, rfl, rfl⟩

private theorem calls_kept_iff (contents : List Json) :
    (contents.filterMap (convertContent serde)).flatMap messageCalls =
        (contents.flatMap sourceParts).filterMap (toolCall serde) ↔
      ∀ content ∈ contents, functionResponses content ≠ [] → functionCalls content = [] := by
  rw [List.filterMap_eq_flatMap_toList, List.flatMap_assoc, List.filterMap_flatMap]
  simp only [filterMap_toolCall]
  have hcontent : ∀ content, (convertContent serde content).toList.flatMap messageCalls =
      if functionResponses content = [] then (functionCalls content).map (writtenCall serde)
      else [] := by
    intro content
    cases h : functionResponses content with
    | nil => rw [if_pos rfl, (reads_of_no_response h).1]
    | cons response others => rw [if_neg (List.cons_ne_nil _ _), (reads_of_response h).1]
  simp only [hcontent]
  rw [flatMap_eq_iff_of_sublist]
  · refine forall₂_congr fun content _ ↦ ?_
    split
    · next h => simp [h, functionCalls]
    · next h =>
      rw [forall_prop_of_true h, eq_comm, List.map_eq_nil_iff]
      rfl
  · intro content _
    split
    · exact List.Sublist.refl _
    · exact List.nil_sublist _

private theorem replies_kept_iff (contents : List Json) :
    (contents.filterMap (convertContent serde)).filter isToolMessage =
        (contents.flatMap sourceParts).filterMap (toolMessage serde) ↔
      ∀ content ∈ contents, functionResponses content ≠ [] →
        (functionResponses content).length = 1 := by
  rw [List.filterMap_eq_flatMap_toList, List.filter_flatMap, List.filterMap_flatMap]
  simp only [filterMap_toolMessage]
  have hcontent : ∀ content, (convertContent serde content).toList.filter isToolMessage =
      ((functionResponses content).take 1).map (writtenReply serde) := by
    intro content
    cases h : functionResponses content with
    | nil => exact (reads_of_no_response h).2.1
    | cons response others => exact (reads_of_response h).2.1
  simp only [hcontent]
  rw [flatMap_eq_iff_of_sublist]
  · refine forall₂_congr fun content _ ↦ ?_
    show ((functionResponses content).take 1).map (writtenReply serde) =
      (functionResponses content).map (writtenReply serde) ↔ _
    match functionResponses content with
    | [] => simp
    | [response] => simp
    | first :: second :: others => simp
  · intro content _
    exact (List.take_sublist _ _).map _

private theorem texts_kept_iff (content : Json) :
    (sourceTexts content).Sublist ((convertContent serde content).toList.flatMap messageTexts) ↔
      (functionResponses content ≠ [] → sourceTexts content = []) := by
  cases h : functionResponses content with
  | nil => simp [(@reads_of_no_response serde _ h).2.2]
  | cons response others =>
    rw [(reads_of_response h).2.2, List.sublist_nil, forall_prop_of_true (List.cons_ne_nil _ _)]

end Content

/-- The messages of a translated request: the system prompt and those of the contents. -/
theorem messages_translate (serde : SerdeJson) (model : String) (body : Json) (stream : Bool) :
    ∃ system, (∀ message ∈ system, isToolMessage message = false ∧ messageCalls message = []) ∧
      arrayField (translate serde model body stream) "messages" =
        some (system ++ (sourceContents body).filterMap (convertContent serde)) := by
  let instruction := ((body.get "systemInstruction").map extractGeminiText).getD ""
  refine ⟨if instruction.isEmpty then []
    else [Json.object [("role", .str "system"), ("content", .str instruction)]], ?_, ?_⟩
  · intro message hmessage
    split at hmessage
    · cases hmessage
    · rw [List.mem_singleton.mp hmessage]
      obtain ⟨htool, hcalls, -⟩ := reads_plainMessage (show "system" ≠ "tool" by decide)
        (.str instruction)
      exact ⟨htool, hcalls⟩
  · unfold translate
    dsimp only
    rw [arrayField, Json.get_object_append ?_, List.append_assoc, Json.get_object]
    · simp [List.lookup_cons, Json.asArray, sourceContents, instruction]
    · cases arrayField body "tools" <;> simp

/-- The calls and the replies of a Gemini conversation stay paired in its translation exactly
when its parts can stay paired. -/
theorem toolsPaired_iff (serde : SerdeJson) (contents : List Json) :
    ToolsPaired serde contents ↔ Pairable contents := by
  have hids : ((contents.flatMap sourceParts).filterMap (toolCall serde)).filterMap
      (·.strField "id") = (contents.flatMap functionCalls).map callId := by
    have hcalls : (contents.flatMap sourceParts).filterMap (·.get "functionCall") =
        contents.flatMap functionCalls := List.filterMap_flatMap
    have hid : (fun call ↦ call.strField "id") ∘ writtenCall serde = some ∘ callId := by
      funext call
      exact strField_id_writtenCall call
    rw [filterMap_toolCall, hcalls, List.filterMap_map, hid, List.filterMap_eq_map]
  constructor
  · rintro ⟨hcalls, hdistinct, hreplies, hpaired, htexts⟩
    rw [hcalls, hids] at hdistinct
    rw [calls_kept_iff] at hcalls
    rw [replies_kept_iff] at hreplies
    refine ⟨?_, hdistinct, ?_⟩
    · intro content hcontent hresponse
      exact ⟨hreplies content hcontent hresponse, hcalls content hcontent hresponse,
        (texts_kept_iff content).mp (htexts content hcontent) hresponse⟩
    · intro name k reply call hreply hcall
      rw [← @idOfReply_eq serde, ← @idOfCall_eq serde]
      exact hpaired name k reply call hreply hcall
  · rintro ⟨halone, hdistinct, hordered⟩
    have hcalls := (@calls_kept_iff serde contents).mpr
      fun content hcontent hresponse ↦ (halone content hcontent hresponse).2.1
    refine ⟨hcalls, by rw [hcalls, hids]; exact hdistinct, ?_, ?_, ?_⟩
    · rw [replies_kept_iff]
      exact fun content hcontent hresponse ↦ (halone content hcontent hresponse).1
    · intro name k reply call hreply hcall
      rw [idOfReply_eq, idOfCall_eq]
      exact hordered name k reply call hreply hcall
    · intro content hcontent
      exact (texts_kept_iff content).mpr
        fun hresponse ↦ (halone content hcontent hresponse).2.2

/-- The messages of a translated Gemini request are the system prompt and those of its contents,
and the calls and the replies stay paired in them exactly when the parts can stay paired. -/
theorem translate_paired_iff (serde : SerdeJson) (model : String) (body : Json) (stream : Bool) :
    (∃ system, (∀ message ∈ system, isToolMessage message = false ∧ messageCalls message = []) ∧
      arrayField (translate serde model body stream) "messages" =
        some (system ++ (sourceContents body).filterMap (convertContent serde))) ∧
    (ToolsPaired serde (sourceContents body) ↔ Pairable (sourceContents body)) :=
  ⟨messages_translate serde model body stream, toolsPaired_iff serde (sourceContents body)⟩

/-- A conversation in which the model reads two files at once and gets both. -/
def twoReads : List Json :=
  let call := fun file ↦ Json.object [("functionCall", Json.object [("name", .str "read"),
    ("args", Json.object [("file", .str file)])])]
  let reply := fun text ↦ Json.object [("functionResponse", Json.object [("name", .str "read"),
    ("response", Json.object [("result", .str text)])])]
  [Json.object [("role", .str "model"), ("parts", .arr [call "a", call "b"])],
    Json.object [("role", .str "user"), ("parts", .arr [reply "A", reply "B"])]]

/-- Both calls of that conversation get one id, and the second reply is lost. -/
theorem twoReads_not_paired :
    ¬ (∀ serde : SerdeJson, (((twoReads.filterMap (convertContent serde)).flatMap
        messageCalls).filterMap (·.strField "id")).Nodup) ∧
    ¬ (∀ serde : SerdeJson, (twoReads.filterMap (convertContent serde)).filter isToolMessage =
        (twoReads.flatMap sourceParts).filterMap (toolMessage serde)) ∧
    ¬ ∀ (serde : SerdeJson) (contents : List Json), ToolsPaired serde contents := by
  let serde : SerdeJson := ⟨fun _ ↦ none, fun _ ↦ "\x7b\x7d", fun _ ↦ "\x7b\x7d"⟩
  have hids : ¬(((twoReads.filterMap (convertContent serde)).flatMap messageCalls).filterMap
      (·.strField "id")).Nodup := by decide
  refine ⟨fun h ↦ hids (h serde), fun h ↦ absurd (h serde) (by decide), ?_⟩
  exact fun h ↦ hids (h serde twoReads).distinct

end NullRouter.Translate.Request.GeminiToOpenai
