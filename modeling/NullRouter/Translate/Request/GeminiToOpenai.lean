import NullRouter.Translate.Request.OpenaiToGemini
import NullRouter.Translate.Schema

/-!
# The turns of a Gemini request

The parts that the messages of a conversation add to the turns of a Gemini request, and what
merging the turns leaves of them, `crates/translate/src/request/openai_to_gemini.rs:147–370`.
-/

namespace NullRouter.Translate.Request.OpenaiToGemini

open NullRouter.Base

/-- The parts of a turn. -/
def partsOf (turn : Json) : List Json := (arrayField turn "parts").getD []

/-- A turn that is added brings its parts, in a turn of its own or in the last one. -/
theorem flatMap_partsOf_addContent {content : Json}
    (h : (content.strField "role").isSome = true) (out : List Json) :
    (addContent out content).flatMap partsOf = out.flatMap partsOf ++ partsOf content := by
  unfold addContent
  have hrole : (content.strField "role").isNone = false := by
    cases hs : content.strField "role" with
    | none => rw [hs] at h; cases h
    | some role => rfl
  simp only [hrole, Bool.false_or]
  by_cases hparts : (arrayField content "parts").getD [] = []
  · simp [hparts, partsOf]
  · have hdecide : decide ((arrayField content "parts").getD [] = []) = false := by
      simpa using hparts
    simp only [hdecide, Bool.false_eq_true, ↓reduceIte]
    rcases out.eq_nil_or_concat with rfl | ⟨init, last, rfl⟩
    · simp
    · simp only [List.concat_eq_append, List.getLast?_append, List.getLast?_singleton,
        Option.some_or, List.dropLast_concat]
      split
      · next hsame =>
        have hobject : last.asObject.isSome = true := by
          cases last with
          | obj fields => rfl
          | _ =>
            change none = content.get "role" at hsame
            rw [Json.strField, ← hsame] at h
            cases h
        simp only [List.flatMap_append, List.flatMap_singleton, List.append_assoc]
        congr 1
        rw [partsOf, arrayField_setField hobject]
        rfl
      · simp

/-- Merging turns keeps all parts in their order. -/
theorem flatMap_partsOf_normalizeContents {contents : List Json}
    (h : ∀ content ∈ contents, (content.strField "role").isSome = true) :
    (normalizeContents contents).flatMap partsOf = contents.flatMap partsOf := by
  suffices ∀ out, (contents.foldl addContent out).flatMap partsOf =
      out.flatMap partsOf ++ contents.flatMap partsOf from this []
  induction contents with
  | nil => simp
  | cons content contents ih =>
    intro out
    rw [List.foldl_cons, ih fun c hc ↦ h c (List.mem_cons_of_mem _ hc),
      flatMap_partsOf_addContent (h content (List.mem_cons_self ..)), List.flatMap_cons,
      List.append_assoc]

/-- A turn has a role. -/
theorem strField_role_turn (role : String) (parts : List Json) :
    ((turn role parts).strField "role").isSome = true := by
  simp [turn, Json.strField, Json.get_object, List.lookup_cons, Json.asStr]

/-- The parts of a turn that is made of parts. -/
@[simp] theorem partsOf_turn (role : String) (parts : List Json) :
    partsOf (turn role parts) = parts := by
  simp [partsOf, arrayField, turn, Json.get_object, Json.asArray]

/-- A turn is added only for parts. -/
theorem flatMap_partsOf_turn (role : String) (parts : List Json) :
    (if parts = [] then [] else [turn role parts]).flatMap partsOf = parts := by
  split
  · next hnil => exact hnil.symm
  · rw [List.flatMap_singleton, partsOf_turn]

/-- The turns of a message have roles. -/
theorem role_turnsOf {serde : SerdeJson} {messages : List Json} {message entry : Json}
    (h : entry ∈ turnsOf serde messages message) : (entry.strField "role").isSome = true := by
  have hif : ∀ (role : String) (parts : List Json),
      entry ∈ (if parts = [] then [] else [turn role parts]) →
        (entry.strField "role").isSome = true := by
    intro role parts hentry
    split at hentry
    · cases hentry
    · rw [List.mem_singleton.mp hentry]
      exact strField_role_turn role parts
  unfold turnsOf at h
  dsimp only at h
  split at h
  · cases h
  · split at h
    · exact hif _ _ h
    · split at h
      · rcases List.mem_append.mp h with h | h
        · exact hif _ _ h
        · exact hif _ _ h
      · cases h

/-- The turns of a translated request. -/
theorem contents_translate (writer : GeminiWriter) (model : String) (body : Json) :
    arrayField (translate writer model body) "contents" = some (normalizeContents
      ((sourceMessages body).flatMap (turnsOf writer.serde (sourceMessages body)))) := by
  unfold translate
  dsimp only
  rw [arrayField, Json.get_object_append ?_, Json.get_object]
  · simp [List.lookup_cons, Json.asArray]
  · split <;> simp

/-- The parts of a translated request are those that its messages add. -/
theorem partsOf_contents (writer : GeminiWriter) (body : Json) :
    (normalizeContents ((sourceMessages body).flatMap
      (turnsOf writer.serde (sourceMessages body)))).flatMap partsOf =
      (sourceMessages body).flatMap fun message ↦
        (turnsOf writer.serde (sourceMessages body) message).flatMap partsOf := by
  rw [flatMap_partsOf_normalizeContents, List.flatMap_assoc]
  intro content hcontent
  obtain ⟨message, -, hmem⟩ := List.mem_flatMap.mp hcontent
  exact role_turnsOf hmem

end NullRouter.Translate.Request.OpenaiToGemini

/-!
## Gemini requests to OpenAI requests

`crates/translate/src/request/gemini_to_openai.rs`: a turn that holds the reply of a function
becomes the tool message of its first reply and nothing else.
-/

namespace NullRouter.Translate.Request.GeminiToOpenai

open NullRouter.Base

/-- The id of a call or of a reply: its own, or one made from the name. -/
def callId (v : Json) : String := (v.strField "id").getD ("call_" ++ textOrEmpty v "name")

/-- The content parts of a part: its text and its data. -/
def contentParts (part : Json) : List Json :=
  ((part.get "text").map fun text ↦
    Json.object [("type", .str "text"), ("text", text)]).toList ++
  ((part.get "inlineData").map fun inline ↦
    Json.object [("type", .str "image_url"), ("image_url", Json.object
      [("url", .str (encodeDataUri (textOrEmpty inline "mimeType")
        (textOrEmpty inline "data")))])]).toList

/-- The tool call of a part. -/
def toolCall (serde : SerdeJson) (part : Json) : Option Json :=
  (part.get "functionCall").map fun call ↦
    Json.object [("id", .str (callId call)), ("type", .str "function"),
      ("function", Json.object [("name", .str (textOrEmpty call "name")),
        ("arguments", .str (serde.toText ((call.get "args").getD (Json.object []))))])]

/-- The tool message of the reply in a part. -/
def toolMessage (serde : SerdeJson) (part : Json) : Option Json :=
  (part.get "functionResponse").map fun response ↦
    let payload := (((response.get "response").bind (·.get "result")).or
      (response.get "response")).getD (Json.object [])
    Json.object [("role", .str "tool"), ("tool_call_id", .str (callId response)),
      ("content", .str (serde.toText payload))]

/-- `convert_content`, `gemini_to_openai.rs:92`. -/
def convertContent (serde : SerdeJson) (content : Json) : Option Json :=
  let mappedRole := if content.strField "role" = some "user" then "user" else "assistant"
  (arrayField content "parts").bind fun source ↦
    match source.findSome? (toolMessage serde) with
    | some message => some message
    | none =>
      let parts := source.flatMap contentParts
      let toolCalls := source.filterMap (toolCall serde)
      if toolCalls ≠ [] then
        let content := match parts with
          | [] => []
          | [part] => [("content", (part.get "text").getD .null)]
          | parts => [("content", Json.arr parts)]
        some (Json.object ([("role", .str "assistant")] ++ content ++
          [("tool_calls", .arr toolCalls)]))
      else if parts ≠ [] then
        some (Json.object [("role", .str mappedRole), ("content", collapseTextParts parts)])
      else none

/-- `extract_gemini_text`, `gemini_to_openai.rs:201`. -/
def extractGeminiText (content : Json) : String :=
  match content.asStr with
  | some text => text
  | none => String.join (((arrayField content "parts").getD []).map (textOrEmpty · "text"))

/-- A declared function. -/
def convertFunction (function : Json) : Json :=
  Json.object [("type", .str "function"), ("function", Json.object [
    ("name", fieldOrNull function "name"), ("description", .str (textOrEmpty function "description")),
    ("parameters", (function.get "parameters").getD
      (Json.object [("type", .str "object"), ("properties", Json.object [])]))])]

/-- The settings of a request. -/
def settings (body : Json) : List (String × Json) :=
  match body.get "generationConfig" with
  | none => []
  | some config =>
    ((((config.get "maxOutputTokens").bind Json.asU64).filter (· ≠ 0)).map fun maxOutput ↦
      ("max_tokens", Json.nat (adjustMaxTokens (Json.object [("max_tokens", Json.nat maxOutput),
        ("tools", fieldOrNull body "tools")]) defaultMaxTokens))).toList ++
    ((config.get "temperature").map (("temperature", ·))).toList ++
    ((config.get "topP").map (("top_p", ·))).toList

/-- `translate`, `gemini_to_openai.rs:13`. -/
def translate (serde : SerdeJson) (model : String) (body : Json) (stream : Bool) : Json :=
  let instruction := ((body.get "systemInstruction").map extractGeminiText).getD ""
  let system := if instruction.isEmpty then []
    else [Json.object [("role", .str "system"), ("content", .str instruction)]]
  let messages := ((arrayField body "contents").getD []).filterMap (convertContent serde)
  let tools := (arrayField body "tools").map fun tools ↦
    (tools.flatMap fun tool ↦ (arrayField tool "functionDeclarations").getD []).map convertFunction
  Json.object ([("model", .str model)] ++ settings body ++
    [("messages", .arr (system ++ messages)), ("stream", .bool stream)] ++
    (tools.map fun tools ↦ ("tools", Json.arr tools)).toList)

end NullRouter.Translate.Request.GeminiToOpenai
