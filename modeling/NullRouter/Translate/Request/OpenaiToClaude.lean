import NullRouter.Base.Lists
import NullRouter.Translate.Schema

/-!
# OpenAI requests to Claude requests

`crates/translate/src/request/openai_to_claude.rs`: system messages become the system prompt,
the other messages become blocks that are merged by role, and every declared or called tool is
remembered under the name that the request gives it.
-/

namespace NullRouter.Translate.Request.OpenaiToClaude

open NullRouter.Base

/-- `CLAUDE_OAUTH_TOOL_PREFIX`. -/
def claudeOauthToolPrefix : String := ""

/-- `CLAUDE_TOOL_CHOICE_TYPES`. -/
def claudeToolChoiceTypes : List String := ["auto", "any", "tool", "none"]

/-- A text block. -/
def textBlock (text : String) : Json := Json.object [("type", .str "text"), ("text", .str text)]

/-- A block that holds its data. -/
def base64Block (kind mimeType data : String) : Json :=
  Json.object [("type", .str kind), ("source", Json.object [("type", .str "base64"),
    ("media_type", .str mimeType), ("data", .str data)])]

/-- The block of a text that is not empty. -/
def textPart (part : Json) : Option Json :=
  ((part.strField "text").filter (!·.isEmpty)).map textBlock

/-- `push_user_part`, `openai_to_claude.rs:375`. -/
def userPart (part : Json) : Option Json :=
  if hasType "text" part then textPart part
  else if hasType "tool_result" part then
    let block := Json.object [("type", .str "tool_result"),
      ("tool_use_id", fieldOrNull part "tool_use_id"), ("content", fieldOrNull part "content")]
    some (if (part.get "is_error").bind Json.asBool = some true then
      block.setField "is_error" (.bool true) else block)
  else if hasType "image_url" part then
    ((part.get "image_url").bind (·.strField "url")).bind fun url ↦
      match parseDataUri url with
      | some (mimeType, data) => some (base64Block "image" mimeType data)
      | none =>
        if isWebUrl url then
          some (Json.object [("type", .str "image"),
            ("source", Json.object [("type", .str "url"), ("url", .str url)])])
        else none
  else if hasType "image" part then
    (part.get "source").map fun source ↦
      Json.object [("type", .str "image"), ("source", source)]
  else if hasType "file" part then
    (((part.get "file").bind (·.strField "file_data")).bind parseDataUri).bind
      fun (mimeType, data) ↦
        if mimeType = "application/pdf" then some (base64Block "document" mimeType data) else none
  else none

/-- `push_assistant_part`, `openai_to_claude.rs:456`. -/
def assistantPart (part : Json) : Option Json :=
  if hasType "text" part then textPart part
  else if hasType "tool_use" part then
    some (Json.object [("type", .str "tool_use"), ("id", fieldOrNull part "id"),
      ("name", fieldOrNull part "name"), ("input", (part.get "input").getD (Json.object []))])
  else if hasType "thinking" part then some (part.eraseField "cache_control")
  else none

/-- The name of a tool call. -/
def callName (call : Json) : String :=
  ((call.get "function").bind (·.strField "name")).getD ""

/-- The function calls of a message. -/
def functionCalls (message : Json) : List Json :=
  ((arrayField message "tool_calls").getD []).filter (hasType "function")

/-- The block of a tool call. -/
def callBlock (serde : SerdeJson) (call : Json) : Json :=
  Json.object [("type", .str "tool_use"), ("id", fieldOrNull call "id"),
    ("name", .str (claudeOauthToolPrefix ++ callName call)),
    ("input", safeParseJson serde
      (((call.get "function").bind (·.strField "arguments")).getD ""))]

/-- `content_blocks`, `openai_to_claude.rs:295`. -/
def contentBlocks (serde : SerdeJson) (message : Json) : List Json :=
  let role := textOrEmpty message "role"
  let content := message.get "content"
  let textBlocks := fun text : String ↦ if text.isEmpty then [] else [textBlock text]
  if role = "tool" then
    [Json.object [("type", .str "tool_result"),
      ("tool_use_id", fieldOrNull message "tool_call_id"), ("content", content.getD .null)]]
  else if role = "user" then
    match content with
    | some (.str text) => textBlocks text
    | some (.arr parts) => parts.filterMap userPart
    | _ => []
  else if role = "assistant" then
    (match content with
      | some (.arr parts) => parts.filterMap assistantPart
      | some (.str text) => textBlocks text
      | some other => if other.isNull then [] else textBlocks (extractTextContent (some other) "\n")
      | none => []) ++
    (functionCalls message).map (callBlock serde)
  else []

/-- The names that a message's calls add to the map. -/
def calledNames (message : Json) : List String :=
  if textOrEmpty message "role" = "assistant" then (functionCalls message).map callName else []

/-- What `merge_messages` holds: the messages, the role and the parts of the one being built. -/
structure Merge where
  messages : List Json := []
  currentRole : Option String := none
  currentParts : List Json := []

/-- `flush`, `openai_to_claude.rs:162`. -/
def Merge.flush (m : Merge) : Merge :=
  match m.currentRole with
  | some role =>
    if m.currentParts = [] then m
    else { m with
      messages := m.messages ++ [Json.object [("role", .str role), ("content", .arr m.currentParts)]]
      currentParts := [] }
  | none => { m with currentParts := [] }

/-- One message of `merge_messages`. -/
def Merge.take (serde : SerdeJson) (m : Merge) (message : Json) : Merge :=
  let role := textOrEmpty message "role"
  let newRole := if role = "user" ∨ role = "tool" then "user" else "assistant"
  let blocks := contentBlocks serde message
  if blocks.any (hasType "tool_result") then
    let results := blocks.filter (hasType "tool_result")
    let others := blocks.filter (!hasType "tool_result" ·)
    let m := m.flush
    let m := { m with messages := m.messages ++
      [Json.object [("role", .str "user"), ("content", .arr results)]] }
    if others = [] then m
    else { m with currentRole := some newRole, currentParts := m.currentParts ++ others }
  else
    let m := if m.currentRole = some newRole then m
      else { m.flush with currentRole := some newRole }
    let m := { m with currentParts := m.currentParts ++ blocks }
    if blocks.any (hasType "tool_use") then m.flush else m

/-- `merge_messages`, `openai_to_claude.rs:97`. -/
def mergeMessages (serde : SerdeJson) (source : List Json) : List Json :=
  ((source.filter fun message ↦ message.strField "role" ≠ some "system").foldl
    (Merge.take serde) {}).flush.messages

/-- The types of blocks that may carry `cache_control`. -/
def cacheable (block : Json) : Bool :=
  hasType "text" block || hasType "tool_use" block || hasType "tool_result" block ||
    hasType "image" block

/-- `apply_cache_control`, `openai_to_claude.rs:172`. -/
def applyCacheControl (messages : List Json) : List Json :=
  let mark := fun block : Json ↦
    block.setField "cache_control" (Json.object [("type", .str "ephemeral")])
  updateLast (fun message ↦ message.strField "role" == some "assistant" &&
      (arrayField message "content").isSome)
    (fun message ↦ message.setField "content"
      (.arr (updateLast cacheable mark ((arrayField message "content").getD [])))) messages

/-- The text of a system message. -/
def systemText (message : Json) : String := extractTextContent (message.get "content") "\n"

/-- The texts of the system messages. -/
def systemParts (source : List Json) : List String :=
  (source.filter fun message ↦ message.strField "role" = some "system").map systemText

/-- `build_system`, `openai_to_claude.rs:206`. -/
def buildSystem (systemParts : List String) : Json :=
  let joined := "\n".intercalate systemParts
  if systemParts = [] ∨ joined.isEmpty then .arr [textBlock claudeSystemPrompt]
  else .arr [textBlock claudeSystemPrompt, Json.object [("type", .str "text"),
    ("text", .str joined),
    ("cache_control", Json.object [("type", .str "ephemeral"), ("ttl", .str "1h")])]]

/-- `json_mode_instruction`, `openai_to_claude.rs:224`. -/
def jsonModeInstruction (serde : SerdeJson) (format : Json) : Option String :=
  if hasType "json_schema" format then
    ((format.get "json_schema").bind (·.get "schema")).map fun schema ↦
      "You must respond with valid JSON that strictly follows this JSON schema:\n```json\n" ++
        serde.toTextPretty schema ++
        "\n```\nRespond ONLY with the JSON object, no other text."
  else if hasType "json_object" format then
    some "You must respond with valid JSON. Respond ONLY with a JSON object, no other text."
  else none

/-- Whether a tool is built in: of a type other than `function`. -/
def isBuiltIn (tool : Json) : Bool := (tool.strField "type").any (· ≠ "function")

/-- The declaration of a tool. -/
def toolData (tool : Json) : Json :=
  if hasType "function" tool then (tool.get "function").getD tool else tool

/-- The name that a tool is declared with. -/
def declaredName (tool : Json) : String := textOrEmpty (toolData tool) "name"

/-- One tool of `convert_tools`. -/
def convertTool (tool : Json) : Json :=
  if isBuiltIn tool then tool
  else Json.object [("name", .str (claudeOauthToolPrefix ++ declaredName tool)),
    ("description", .str (textOrEmpty (toolData tool) "description")),
    ("input_schema", (((toolData tool).get "parameters").or
      ((toolData tool).get "input_schema")).getD
        (Json.object [("type", .str "object"), ("properties", Json.object []),
          ("required", .arr [])]))]

/-- `convert_tools`, `openai_to_claude.rs:245`. -/
def convertTools (tools : List Json) : List Json :=
  updateLast (fun _ ↦ true) (fun tool ↦ tool.setField "cache_control"
    (Json.object [("type", .str "ephemeral"), ("ttl", .str "1h")])) (tools.map convertTool)

/-- `convert_tool_choice`, `openai_to_claude.rs:490`. -/
def convertToolChoice (choice : Json) : Json :=
  let auto := Json.object [("type", .str "auto")]
  match choice with
  | .str text => if text = "required" then Json.object [("type", .str "any")] else auto
  | .obj fields =>
    match ((Json.get (.obj fields) "function").bind (·.get "name")).filter (!·.isNull) with
    | some name => Json.object [("type", .str "tool"), ("name", name)]
    | none =>
      if (Json.strField (.obj fields) "type").any (claudeToolChoiceTypes.contains ·) then
        .obj fields
      else auto
  | _ => auto

/-- The messages of an OpenAI request. -/
def sourceMessages (body : Json) : List Json := (arrayField body "messages").getD []

/-- The system texts of a request, with the instruction for its response format. -/
def allSystemParts (serde : SerdeJson) (body : Json) : List String :=
  systemParts (sourceMessages body) ++
    ((body.get "response_format").bind (jsonModeInstruction serde)).toList

/-- The body of `translate`, `openai_to_claude.rs:34`. -/
def translate (serde : SerdeJson) (model : String) (body : Json) (stream : Bool)
    (modelCeiling : Nat) : Json :=
  let tools := ((arrayField body "tools").map convertTools).getD []
  Json.object ([("model", .str model), ("max_tokens", Json.nat (adjustMaxTokens body modelCeiling)),
    ("stream", .bool stream)] ++
    ((body.get "temperature").map (("temperature", ·))).toList ++
    [("messages", .arr (applyCacheControl (mergeMessages serde (sourceMessages body)))),
      ("system", buildSystem (allSystemParts serde body))] ++
    (if tools = [] then [] else [("tools", Json.arr tools)]) ++
    ((body.get "tool_choice").map fun choice ↦ ("tool_choice", convertToolChoice choice)).toList)

/-- The original names in `tool_name_map`, in the order that they are put in: those of the calls
of the messages, then those of the declared tools. -/
def originalNames (body : Json) : List String :=
  ((sourceMessages body).filter fun message ↦
    message.strField "role" ≠ some "system").flatMap calledNames ++
  (((arrayField body "tools").getD []).filter (!isBuiltIn ·)).map declaredName

/-- The `tool_name_map` of `translate`. -/
def toolNameMap (body : Json) : List (String × String) :=
  (originalNames body).map fun name ↦ (claudeOauthToolPrefix ++ name, name)

end NullRouter.Translate.Request.OpenaiToClaude
