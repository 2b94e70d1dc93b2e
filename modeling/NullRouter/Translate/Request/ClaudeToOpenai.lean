import NullRouter.Base.Lists
import NullRouter.Translate.Schema

/-!
# Claude requests to OpenAI requests

`crates/translate/src/request/claude_to_openai.rs`: a message of blocks becomes none, one or
several messages, and every tool call has an answer in the end.
-/

namespace NullRouter.Translate.Request.ClaudeToOpenai

open NullRouter.Base

/-- `MISSING_TOOL_RESPONSE`. -/
def missingToolResponse : String := "[No response received]"

/-- `strip_billing_header`, `claude_to_openai.rs:16`. -/
def stripBillingHeader (text : String) : String :=
  let marker := "x-anthropic-billing-header:".toList
  if (text.toList.take marker.length).map Char.toLower = marker then
    String.ofList ((text.toList.dropWhile (· ≠ '\n')).drop 1)
  else text

/-- The text of the system prompt, `claude_to_openai.rs:38–55`. -/
def systemText (body : Json) : String :=
  match body.get "system" with
  | some (.arr blocks) => "\n".intercalate
      ((blocks.map fun block ↦ stripBillingHeader (textOrEmpty block "text")).filter (!·.isEmpty))
  | some (.str text) => stripBillingHeader text
  | _ => ""

/-- The leading system message, if there is one. -/
def systemMessage (body : Json) : List Json :=
  if (systemText body).isEmpty then []
  else [Json.object [("role", .str "system"), ("content", .str (systemText body))]]

/-- `system_reminder_text`, `claude_to_openai.rs:140`. -/
def systemReminderText (content : Option Json) : String :=
  let text := match content with
    | some (.arr parts) => "\n".intercalate ((partTexts parts).filter (!·.isEmpty))
    | some (.str text) => text
    | _ => ""
  if (trim text).isEmpty then "" else "<instructions>\n" ++ text ++ "\n</instructions>"

/-- `tool_result_content`, `claude_to_openai.rs:279`. -/
def toolResultContent (serde : SerdeJson) (content : Option Json) : String :=
  match content with
  | some (.str text) => text
  | some (.arr parts) =>
    let text := "\n".intercalate (partTexts parts)
    if text.isEmpty then serde.toText (.arr parts) else text
  | some .null | none => ""
  | some other => serde.toText other

/-- Whether an image block holds its data. -/
def isBase64 (block : Json) : Bool :=
  ((block.get "source").bind (·.strField "type")) == some "base64"

/-- The data of an image block as a URI. -/
def imageUri (block : Json) : String :=
  let source := fun key ↦ ((block.get "source").bind (·.strField key)).getD ""
  encodeDataUri (source "media_type") (source "data")

/-- What a block adds to the content parts. -/
def partOf (block : Json) : Option Json :=
  if hasType "text" block then
    (block.get "text").map fun text ↦ Json.object [("type", .str "text"), ("text", text)]
  else if hasType "image" block then
    if isBase64 block then some (Json.object [("type", .str "image_url"),
      ("image_url", Json.object [("url", .str (imageUri block))])])
    else none
  else none

/-- What a block adds to the tool calls. -/
def callOf (serde : SerdeJson) (block : Json) : Option Json :=
  if hasType "tool_use" block then
    some (Json.object [("id", fieldOrNull block "id"), ("type", .str "function"),
      ("function", Json.object [("name", fieldOrNull block "name"),
        ("arguments", .str (serde.toText ((block.get "input").getD (Json.object []))))])])
  else none

/-- What a block adds to the tool results. -/
def resultOf (serde : SerdeJson) (block : Json) : Option Json :=
  if hasType "tool_result" block then
    some (Json.object [("role", .str "tool"), ("tool_call_id", fieldOrNull block "tool_use_id"),
      ("content", .str (toolResultContent serde (block.get "content")))])
  else none

/-- `convert_content_blocks`, `claude_to_openai.rs:188`. Tool results take the place of tool
calls. -/
def convertContentBlocks (serde : SerdeJson) (mappedRole : String) (blocks : List Json) :
    List Json :=
  let parts := blocks.filterMap partOf
  let toolCalls := blocks.filterMap (callOf serde)
  let toolResults := blocks.filterMap (resultOf serde)
  if toolResults ≠ [] then
    if parts = [] then toolResults
    else toolResults ++
      [Json.object [("role", .str "user"), ("content", collapseTextParts parts)]]
  else if toolCalls ≠ [] then
    let content := if parts = [] then [] else [("content", collapseTextParts parts)]
    [Json.object ([("role", .str "assistant")] ++ content ++ [("tool_calls", .arr toolCalls)])]
  else if parts ≠ [] then
    [Json.object [("role", .str mappedRole), ("content", collapseTextParts parts)]]
  else if blocks = [] then [Json.object [("role", .str mappedRole), ("content", .str "")]]
  else []

/-- `convert_message`, `claude_to_openai.rs:158`. -/
def convertMessage (serde : SerdeJson) (message : Json) : List Json :=
  let role := textOrEmpty message "role"
  if role = "system" then
    let text := systemReminderText (message.get "content")
    if text.isEmpty then []
    else [Json.object [("role", .str "user"), ("content", .str text)]]
  else
    let mappedRole := if role = "user" ∨ role = "tool" then "user" else "assistant"
    match message.get "content" with
    | some (.str text) => [Json.object [("role", .str mappedRole), ("content", .str text)]]
    | some (.arr blocks) => convertContentBlocks serde mappedRole blocks
    | _ => []

/-- A tool message with the id of the call that it answers. -/
def isToolReply (message : Json) : Bool :=
  message.strField "role" == some "tool" && (message.strField "tool_call_id").isSome

/-- The ids of the calls of an assistant message, if it has calls. -/
def callIds (message : Json) : Option (List String) :=
  if message.strField "role" = some "assistant" then
    ((arrayField message "tool_calls").filter (!·.isEmpty)).map (·.filterMap (·.strField "id"))
  else none

/-- The reply that stands in for a missing one. -/
def placeholder (id : String) : Json :=
  Json.object [("role", .str "tool"), ("tool_call_id", .str id),
    ("content", .str missingToolResponse)]

/-- The replies that are missing among those right after a message. -/
def placeholders (message : Json) (rest : List Json) : List Json :=
  let responded := (rest.takeWhile isToolReply).filterMap (·.strField "tool_call_id")
  (((callIds message).getD []).filter fun id ↦ !responded.contains id).map placeholder

/-- The loop of `fix_missing_tool_responses`, with the placeholders that go in after the run of
tool replies. -/
def fixFrom (pending : List Json) : List Json → List Json
  | [] => pending
  | message :: rest =>
    if isToolReply message then message :: fixFrom pending rest
    else pending ++ message :: fixFrom (placeholders message rest) rest

/-- `fix_missing_tool_responses`, `claude_to_openai.rs:302`. -/
def fixMissingToolResponses (messages : List Json) : List Json := fixFrom [] messages

/-- `convert_tool_choice`, `claude_to_openai.rs:367`. -/
def convertToolChoice (choice : Json) : Json :=
  match choice.asStr with
  | some text => .str text
  | none =>
    if hasType "any" choice then .str "required"
    else if hasType "tool" choice then Json.object [("type", .str "function"),
      ("function", Json.object [("name", fieldOrNull choice "name")])]
    else .str "auto"

/-- A declared tool, `claude_to_openai.rs:84–99`. -/
def convertTool (tool : Json) : Json :=
  Json.object [("type", .str "function"), ("function", Json.object [
    ("name", fieldOrNull tool "name"), ("description", .str (textOrEmpty tool "description")),
    ("parameters", (tool.get "input_schema").getD
      (Json.object [("type", .str "object"), ("properties", Json.object [])]))])]

/-- The messages of a Claude request. -/
def sourceMessages (body : Json) : List Json := (arrayField body "messages").getD []

/-- `translate`, `claude_to_openai.rs:30`. -/
def translate (serde : SerdeJson) (model : String) (body : Json) (stream : Bool) : Json :=
  let messages := fixMissingToolResponses
    (systemMessage body ++ (sourceMessages body).flatMap (convertMessage serde))
  let maxTokens := if ((body.get "max_tokens").bind Json.asU64).any (· ≠ 0) then
    [("max_tokens", Json.nat (adjustMaxTokens body defaultMaxTokens))] else []
  let effort := (body.get "reasoning_effort").or
    ((body.get "reasoning").bind (·.get "effort"))
  Json.object ([("model", .str model), ("messages", .arr messages), ("stream", .bool stream)] ++
    maxTokens ++
    ((body.get "temperature").map (("temperature", ·))).toList ++
    ((arrayField body "tools").map fun tools ↦ ("tools", .arr (tools.map convertTool))).toList ++
    ((body.get "tool_choice").map fun choice ↦ ("tool_choice", convertToolChoice choice)).toList ++
    (effort.map (("reasoning_effort", ·))).toList ++
    ((body.get "reasoning").map (("reasoning", ·))).toList)

end NullRouter.Translate.Request.ClaudeToOpenai
