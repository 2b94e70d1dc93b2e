import NullRouter.Base.Json
import NullRouter.Translate.Schema
import Std.Data.ExtTreeMap

/-!
# OpenAI requests to Gemini requests

`crates/translate/src/request/openai_to_gemini.rs`. The rewriting of tool schemas,
`clean_schema`, is a parameter.
-/

namespace NullRouter.Translate.Request.GeminiNames

open NullRouter.Base

/-!
## Function names

`sanitize_function_name`, `crates/translate/src/request/gemini_schema.rs:345`: every name becomes
one that Gemini takes, and a name that Gemini takes stays as it is.
-/

/-- `char::is_ascii_alphabetic`. -/
def isAsciiAlphabetic (c : Char) : Bool :=
  ('a' ≤ c && c ≤ 'z') || ('A' ≤ c && c ≤ 'Z')

/-- The characters of a Gemini function name. -/
def isNameChar (c : Char) : Bool :=
  isAsciiAlphabetic c || ('0' ≤ c && c ≤ '9') || c = '_' || c = '.' || c = ':' || c = '-'

/-- The characters that a Gemini function name starts with. -/
def isNameStart (c : Char) : Bool := isAsciiAlphabetic c || c = '_'

/-- `sanitize_function_name`, `gemini_schema.rs:345`. -/
def sanitizeFunctionName (name : String) : String :=
  if name.isEmpty then "_unknown"
  else
    let sanitized := name.toList.map fun c ↦ if isNameChar c then c else '_'
    let started := if sanitized.head?.any isNameStart then sanitized else '_' :: sanitized
    String.ofList (started.take 64)

/-- A name that Gemini takes: it starts with a letter or an underscore, holds only characters of
names, and is at most 64 characters long. -/
def IsGeminiName (name : String) : Prop :=
  name.toList.head?.any isNameStart = true ∧ name.toList.all isNameChar = true ∧
    name.length ≤ 64

instance (name : String) : Decidable (IsGeminiName name) := by
  unfold IsGeminiName
  infer_instance

private theorem isGeminiName_ofList {cs : List Char} (h : ∀ c ∈ cs, isNameChar c = true) :
    IsGeminiName (String.ofList
      ((if cs.head?.any isNameStart then cs else '_' :: cs).take 64)) := by
  have hchars : ∀ c ∈ (if cs.head?.any isNameStart then cs else '_' :: cs).take 64,
      isNameChar c = true := by
    intro c hc
    have hc := List.mem_of_mem_take hc
    split at hc
    · exact h c hc
    · rcases List.mem_cons.mp hc with rfl | hc
      · decide
      · exact h c hc
  refine ⟨?_, ?_, ?_⟩
  · rw [String.toList_ofList]
    split
    · next hstart =>
      cases cs with
      | nil => exact absurd hstart (by decide)
      | cons c cs => exact hstart
    · rfl
  · rw [String.toList_ofList, List.all_eq_true]
    exact hchars
  · rw [String.length_ofList]
    exact List.length_take_le ..

/-- Every sanitised name is one that Gemini takes. -/
theorem isGeminiName_sanitize (name : String) : IsGeminiName (sanitizeFunctionName name) := by
  unfold sanitizeFunctionName
  split
  · decide
  · refine isGeminiName_ofList fun c hc ↦ ?_
    obtain ⟨x, -, rfl⟩ := List.mem_map.mp hc
    split
    · assumption
    · decide

/-- A name is left as it is exactly when Gemini takes it. -/
theorem sanitize_eq_self_iff (name : String) :
    sanitizeFunctionName name = name ↔ IsGeminiName name := by
  constructor
  · intro h
    rw [← h]
    exact isGeminiName_sanitize name
  · rintro ⟨hstart, hchars, hlen⟩
    unfold sanitizeFunctionName
    rw [if_neg]
    · have hmap : (name.toList.map fun c ↦ if isNameChar c then c else '_') = name.toList := by
        rw [List.map_congr_left, List.map_id]
        intro c hc
        rw [if_pos (List.all_eq_true.mp hchars c hc)]
        rfl
      simp only [hmap, hstart, ↓reduceIte]
      rw [List.take_of_length_le (by rwa [String.length_toList]), String.ofList_toList]
    · intro h
      rw [String.isEmpty_iff.mp h] at hstart
      exact absurd hstart (by decide)

end NullRouter.Translate.Request.GeminiNames

namespace NullRouter.Translate.Request.OpenaiToGemini

open NullRouter.Base NullRouter.Translate.Request.GeminiNames

/-- What a Gemini request is written with: JSON text and the rewriting of schemas. -/
structure GeminiWriter where
  serde : SerdeJson
  cleanSchema : Json → Json

/-- What `clean_schema` makes of the schema of a tool without parameters. -/
def placeholderSchema : Json :=
  Json.object [("properties", Json.object [("reason", Json.object [
      ("description", .str "Brief explanation of why you are calling this tool"),
      ("type", .str "string")])]),
    ("required", .arr [.str "reason"]), ("type", .str "object")]

/-- The writer of requests that hold no JSON text and whose tools have no parameters. -/
def GeminiWriter.placeholder : GeminiWriter where
  serde :=
    { fromStr := fun _ ↦ none
      toText := fun _ ↦ "\x7b\x7d"
      toTextPretty := fun _ ↦ "\x7b\x7d" }
  cleanSchema := fun _ ↦ placeholderSchema

/-- `default_safety_settings`, `gemini_schema.rs:71`. -/
def defaultSafetySettings : Json :=
  .arr (["HARM_CATEGORY_HATE_SPEECH", "HARM_CATEGORY_DANGEROUS_CONTENT",
    "HARM_CATEGORY_SEXUALLY_EXPLICIT", "HARM_CATEGORY_HARASSMENT",
    "HARM_CATEGORY_CIVIC_INTEGRITY"].map fun category ↦
      Json.object [("category", .str category), ("threshold", .str "OFF")])

/-- A text part. -/
def textPart (text : Json) : Json := Json.object [("text", text)]

/-- A turn. -/
def turn (role : String) (parts : List Json) : Json :=
  Json.object [("role", .str role), ("parts", .arr parts)]

/-- A part that holds its data. -/
def inlinePart (mimeType data : String) : Json :=
  Json.object [("inlineData", Json.object [("mime_type", .str mimeType), ("data", .str data)])]

/-- The type and the data of the rest of a data URL: split at the first comma, the type ends at
the first semicolon. -/
def splitDataUrl (rest : String) : Option (String × String) :=
  let meta_ := rest.toList.takeWhile (· ≠ ',')
  if meta_.length = rest.toList.length then none
  else some (String.ofList (meta_.takeWhile (· ≠ ';')),
    String.ofList (rest.toList.drop (meta_.length + 1)))

/-- `push_content_part`, `openai_to_gemini.rs:282`. -/
def contentPart (item : Json) : Option Json :=
  if hasType "text" item then some (textPart (fieldOrNull item "text"))
  else if hasType "image_url" item then
    ((item.get "image_url").bind (·.strField "url")).bind fun url ↦
      match stripPrefix? "data:" url with
      | some rest => (splitDataUrl rest).map fun (mimeType, data) ↦ inlinePart mimeType data
      | none =>
        if isWebUrl url then some (Json.object [("fileData",
          Json.object [("fileUri", .str url), ("mimeType", .str "image/*")])])
        else none
  else if hasType "input_audio" item then
    ((item.get "input_audio").bind (·.strField "data")).map fun data ↦
      let format := ((item.get "input_audio").bind (·.strField "format")).getD "wav"
      inlinePart (if format = "mp3" then "audio/mpeg" else "audio/" ++ format) data
  else none

/-- `content_to_parts`, `openai_to_gemini.rs:268`. -/
def contentToParts (content : Option Json) : List Json :=
  match content with
  | some (.str text) => [textPart (.str text)]
  | some (.arr items) => items.filterMap contentPart
  | _ => []

/-- The function calls of a message that has calls. -/
def functionCalls (message : Json) : List Json :=
  ((arrayField message "tool_calls").getD []).filter (hasType "function")

/-- The names of the calls, by their ids. -/
def callNames (messages : List Json) : Std.ExtTreeMap String String :=
  ((messages.filter fun message ↦ message.strField "role" = some "assistant").flatMap
    functionCalls).foldl (fun names call ↦
      match call.strField "id", (call.get "function").bind (·.strField "name") with
      | some id, some name => names.insert id name
      | _, _ => names) ∅

/-- The replies of the tools, by the ids that they answer. -/
def toolResponses (messages : List Json) : Std.ExtTreeMap String Json :=
  (messages.filter fun message ↦ message.strField "role" = some "tool").foldl
    (fun replies message ↦ match message.strField "tool_call_id" with
      | some id => replies.insert id (fieldOrNull message "content")
      | none => replies) ∅

/-- `str::split` by a dash. -/
def splitDashes (text : String) : List String :=
  (text.toList.splitOn '-').map String.ofList

/-- `derive_name_from_id`, `openai_to_gemini.rs:255`. -/
def deriveNameFromId (id : String) : String :=
  let segments := splitDashes id
  if segments.length > 2 then "-".intercalate (segments.take (segments.length - 2)) else id

/-- The id of a call. -/
def callId (call : Json) : String := textOrEmpty call "id"

/-- The part of a call. -/
def callPart (serde : SerdeJson) (call : Json) : Json :=
  Json.object [("functionCall", Json.object [("id", .str (callId call)),
    ("name", .str (sanitizeFunctionName (((call.get "function").bind (·.strField "name")).getD ""))),
    ("args", safeParseJson serde
      (((call.get "function").bind (·.strField "arguments")).getD "\x7b\x7d"))])]

/-- Whether a value is an object or an array. -/
def isContainer : Json → Bool
  | .obj _ | .arr _ => true
  | _ => false

/-- The reply of a tool as a value. -/
def parsedReply (serde : SerdeJson) (response : Json) : Json :=
  let parsed := match response with
    | .str text => safeParseJson serde text
    | other => other
  if isContainer parsed then parsed else Json.object [("result", parsed)]

/-- The part of a reply. -/
def replyPart (serde : SerdeJson) (names : Std.ExtTreeMap String String) (id : String)
    (response : Json) : Json :=
  Json.object [("functionResponse", Json.object [("id", .str id),
    ("name", .str (sanitizeFunctionName (names[id]?.getD (deriveNameFromId id)))),
    ("response", Json.object [("result", parsedReply serde response)])])]

/-- `push_assistant_content`, `openai_to_gemini.rs:147`: the turns that a message adds. -/
def assistantTurns (serde : SerdeJson) (names : Std.ExtTreeMap String String)
    (replies : Std.ExtTreeMap String Json) (message : Json) : List Json :=
  let reasoning := ((message.strField "reasoning_content").filter (!·.isEmpty)).map fun text ↦
    Json.object [("thought", .bool true), ("text", .str text)]
  let text := extractTextContent (message.get "content") ""
  let texts := if text.isEmpty then [] else [textPart (.str text)]
  let parts := reasoning.toList ++ texts ++ (functionCalls message).map (callPart serde)
  let toolParts := ((functionCalls message).map callId).filterMap fun id ↦
    replies[id]?.map (replyPart serde names id)
  (if parts = [] then [] else [turn "model" parts]) ++
    if toolParts = [] then [] else [turn "user" toolParts]

/-- Whether a message becomes the system instruction. -/
def isInstruction (messages : List Json) (message : Json) : Bool :=
  textOrEmpty message "role" == "system" && messages.length > 1

/-- The turns that a message of the conversation adds. -/
def turnsOf (serde : SerdeJson) (messages : List Json) (message : Json) : List Json :=
  let role := textOrEmpty message "role"
  if isInstruction messages message then []
  else if role = "user" ∨ (role = "system" ∧ messages.length = 1) then
    let parts := contentToParts (message.get "content")
    if parts = [] then [] else [turn "user" parts]
  else if role = "assistant" then
    assistantTurns serde (callNames messages) (toolResponses messages) message
  else []

/-- The system instruction: each system message takes the place of the one before. -/
def systemInstruction (messages : List Json) : Option Json :=
  ((messages.filter (isInstruction messages)).getLast?).map fun message ↦
    turn "user" [textPart (.str (extractTextContent (message.get "content") ""))]

/-- One turn of `normalize_contents`. -/
def addContent (out : List Json) (content : Json) : List Json :=
  let parts := (arrayField content "parts").getD []
  if (content.strField "role").isNone || parts = [] then out
  else
    match out.getLast? with
    | some last =>
      if last.get "role" = content.get "role" then
        out.dropLast ++ [last.setField "parts" (.arr ((arrayField last "parts").getD [] ++ parts))]
      else out ++ [content]
    | none => [content]

/-- `normalize_contents`, `openai_to_gemini.rs:341`. -/
def normalizeContents (contents : List Json) : List Json := contents.foldl addContent []

/-- One tool of `convert_tools`. -/
def convertTool (clean : Json → Json) (tool : Json) : Option Json :=
  match tool.strField "name", tool.get "input_schema" with
  | some name, some schema => some (Json.object [("name", .str (sanitizeFunctionName name)),
      ("description", .str (textOrEmpty tool "description")), ("parameters", clean schema)])
  | _, _ =>
    if hasType "function" tool then
      (tool.get "function").map fun function ↦
        Json.object [("name", .str (sanitizeFunctionName (textOrEmpty function "name"))),
          ("description", .str (textOrEmpty function "description")),
          ("parameters", clean ((function.get "parameters").getD
            (Json.object [("type", .str "object"), ("properties", Json.object [])])))]
    else none

/-- `convert_tools`, `openai_to_gemini.rs:372`. -/
def convertTools (clean : Json → Json) (tools : List Json) : List Json :=
  tools.filterMap (convertTool clean)

/-- The generation settings of a request. -/
def generationConfig (body : Json) : Json :=
  Json.object ([("temperature", "temperature"), ("top_p", "topP"), ("top_k", "topK"),
    ("max_tokens", "maxOutputTokens")].filterMap fun (source, target) ↦
      (body.get source).map (target, ·))

/-- The messages of an OpenAI request. -/
def sourceMessages (body : Json) : List Json := (arrayField body "messages").getD []

/-- `translate`, `openai_to_gemini.rs:22`. -/
def translate (writer : GeminiWriter) (model : String) (body : Json) : Json :=
  let messages := sourceMessages body
  let declarations := ((arrayField body "tools").map (convertTools writer.cleanSchema)).getD []
  Json.object ([("model", .str model)] ++
    ((systemInstruction messages).map (("systemInstruction", ·))).toList ++
    [("contents", .arr (normalizeContents (messages.flatMap (turnsOf writer.serde messages)))),
      ("generationConfig", generationConfig body), ("safetySettings", defaultSafetySettings)] ++
    if declarations = [] then [] else
      [("tools", .arr [Json.object [("functionDeclarations", .arr declarations)]])])

end NullRouter.Translate.Request.OpenaiToGemini
