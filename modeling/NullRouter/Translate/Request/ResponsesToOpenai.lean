import NullRouter.Translate.Schema

/-!
# Responses requests to OpenAI requests

`crates/translate/src/request/responses_to_openai.rs`: the items of `input` are regrouped into
turns, one assistant turn for each run of calls.
-/

namespace NullRouter.Translate.Request.ResponsesToOpenai

open NullRouter.Base

/-- `MAX_CALL_ID_LEN`. -/
def maxCallIdLen : Nat := 64

/-- `clamp_call_id`, `responses_to_openai.rs:33`. -/
def clampCallId (value : Option Json) : Json :=
  match value with
  | none => .null
  | some (.str id) =>
    if id.utf8ByteSize > maxCallIdLen then .str (String.ofList (id.toList.take maxCallIdLen))
    else .str id
  | some value => value

/-- The message of a text. -/
def textItem (text : String) : Json :=
  Json.object [("type", .str "message"), ("role", .str "user"),
    ("content", .arr [Json.object [("type", .str "input_text"), ("text", .str text)]])]

/-- `normalize_input`, `responses_to_openai.rs:53`. -/
def normalizeInput : Json → Option (List Json)
  | .str text => some [textItem (if (trim text).isEmpty then "..." else text)]
  | .arr [] => some [textItem "..."]
  | .arr items => some items
  | _ => none

/-- The text under one key of a reasoning item. -/
def reasoningUnder (entry : Json) (key : String) : String :=
  "\n".intercalate ((((arrayField entry key).getD []).filterMap (·.strField "text")).filter
    (!·.isEmpty))

/-- `reasoning_text`, `responses_to_openai.rs:74`. -/
def reasoningText (entry : Json) : String :=
  if (reasoningUnder entry "summary").isEmpty then reasoningUnder entry "content"
  else reasoningUnder entry "summary"

/-- What `translate` holds while it walks the items, with `PendingReasoning`. -/
structure Regroup where
  messages : List Json := []
  currentAssistant : Option Json := none
  pendingText : String := ""
  pendingEncrypted : String := ""
  additionalTools : List Json := []
  customToolNames : List String := []

namespace Regroup

/-- `PendingReasoning::clear`. -/
def clear (g : Regroup) : Regroup := { g with pendingText := "", pendingEncrypted := "" }

/-- `PendingReasoning::attach`: what the message becomes. -/
def attach (g : Regroup) (message : Json) : Json :=
  let message := if g.pendingText.isEmpty then message
    else message.setField "reasoning_content" (.str g.pendingText)
  if g.pendingEncrypted.isEmpty then message
  else message.setField "encrypted_content" (.str g.pendingEncrypted)

/-- The assistant turn that is open is closed. -/
def close (g : Regroup) : Regroup :=
  { g with messages := g.messages ++ g.currentAssistant.toList, currentAssistant := none }

end Regroup

/-- One part of `convert_content`. -/
def convertPart (part : Json) : Json :=
  if hasType "input_text" part || hasType "output_text" part then
    Json.object [("type", .str "text"), ("text", fieldOrNull part "text")]
  else if hasType "input_image" part then
    Json.object [("type", .str "image_url"), ("image_url", Json.object [
      ("url", ((part.get "image_url").or (part.get "file_id")).getD (.str "")),
      ("detail", (part.get "detail").getD (.str "auto"))])]
  else part

/-- `convert_content`, `responses_to_openai.rs:355`. -/
def convertContent (content : Option Json) : Json :=
  match content with
  | some (.arr parts) => .arr (parts.map convertPart)
  | content => content.getD .null

/-- A value as text: a string itself, anything else as JSON; also `stringify_arguments`. -/
def stringify (serde : SerdeJson) (value : Json) : String :=
  value.asStr.getD (serde.toText value)

/-- `str::trim` of a name that is not blank. -/
def trimmedName (entry : Json) : Option String :=
  ((entry.strField "name").map trim).filter (!·.isEmpty)

/-- A name put into the list of custom tools once. -/
def addCustom (names : List String) (name : String) : List String :=
  if names.contains name then names else names ++ [name]

/-- A message item. -/
def takeMessage (g : Regroup) (entry : Json) : Regroup :=
  let g := g.close
  let message := Json.object [("role", (entry.get "role").getD (.str "user")),
    ("content", convertContent (entry.get "content"))]
  if entry.strField "role" = some "assistant" then
    { g with messages := g.messages ++ [g.attach message] }.clear
  else { g with messages := g.messages ++ [message] }.clear

/-- An item that calls a tool. -/
def takeCall (serde : SerdeJson) (isCustom : Bool) (g : Regroup) (entry : Json) : Regroup :=
  match trimmedName entry with
  | none => g
  | some name =>
    let assistant := g.currentAssistant.getD (g.attach (Json.object [("role", .str "assistant"),
      ("content", .null), ("tool_calls", .arr [])]))
    let arguments := if isCustom then
      serde.toText (Json.object [("input",
        .str (((entry.get "input").map (stringify serde)).getD ""))])
      else ((entry.get "arguments").map (stringify serde)).getD "\x7b\x7d"
    let call := Json.object [("id", clampCallId (entry.get "call_id")),
      ("type", .str "function"),
      ("function", Json.object [("name", .str name), ("arguments", .str arguments)])]
    let g := if g.currentAssistant.isNone then g.clear else g
    { g with
      currentAssistant := some (assistant.setField "tool_calls"
        (.arr ((arrayField assistant "tool_calls").getD [] ++ [call])))
      customToolNames := if isCustom then addCustom g.customToolNames name
        else g.customToolNames }

/-- An item that holds the output of a call. -/
def takeOutput (serde : SerdeJson) (g : Regroup) (entry : Json) : Regroup :=
  let g := g.close
  { g with messages := g.messages ++ [Json.object [("role", .str "tool"),
    ("tool_call_id", clampCallId (entry.get "call_id")),
    ("content", .str (((entry.get "output").map (stringify serde)).getD ""))]] }

/-- A reasoning item. -/
def takeReasoning (g : Regroup) (entry : Json) : Regroup :=
  let text := reasoningText entry
  let g := if text.isEmpty then g
    else if g.pendingText.isEmpty then { g with pendingText := text }
    else { g with pendingText := g.pendingText ++ "\n" ++ text }
  match (entry.strField "encrypted_content").filter (!·.isEmpty) with
  | some encrypted => { g with pendingEncrypted := encrypted }
  | none => g

/-- The kind of an item: its type, or a message where it has a role. -/
def itemKind (entry : Json) : String :=
  ((entry.strField "type").or ((entry.get "role").map fun _ ↦ "message")).getD ""

/-- One item of `input`. -/
def Regroup.take (serde : SerdeJson) (g : Regroup) (entry : Json) : Regroup :=
  let kind := itemKind entry
  if kind = "message" then takeMessage g entry
  else if kind = "function_call" then takeCall serde false g entry
  else if kind = "custom_tool_call" then takeCall serde true g entry
  else if kind = "function_call_output" ∨ kind = "custom_tool_call_output" then
    takeOutput serde g entry
  else if kind = "additional_tools" then
    { g with additionalTools := g.additionalTools ++ (arrayField entry "tools").getD [] }
  else if kind = "reasoning" then takeReasoning g entry
  else g

/-- `normalize_tool_parameters`, `responses_to_openai.rs:465`. -/
def normalizeToolParameters (params : Option Json) : Json :=
  match params.filter (!·.isNull) with
  | none => Json.object [("type", .str "object"), ("properties", Json.object [])]
  | some params =>
    if hasType "object" params && (params.get "properties").isNone then
      params.setField "properties" (Json.object [])
    else params

/-- `convert_tool`, `responses_to_openai.rs:387`. -/
def convertTool (tool : Json) : Option Json :=
  if (tool.get "function").isSome then some tool
  else (trimmedName tool).map fun name ↦
    if hasType "custom" tool then
      let formatHint := "\n".intercalate (["syntax", "definition"].filterMap fun key ↦
        (tool.get "format").bind (·.strField key))
      let description := "\n\n".intercalate
        ([textOrEmpty tool "description", formatHint].filter (!·.isEmpty))
      Json.object [("type", .str "function"), ("function", Json.object [("name", .str name),
        ("description", .str description), ("parameters", Json.object [("type", .str "object"),
          ("properties", Json.object [("input", Json.object [("type", .str "string"),
            ("description", .str "Raw freeform input for this custom tool")])]),
          ("required", .arr [.str "input"]), ("additionalProperties", .bool false)])])]
    else Json.object [("type", .str "function"), ("function", Json.object
      ([("name", .str name), ("description", .str (textOrEmpty tool "description")),
        ("parameters", normalizeToolParameters (tool.get "parameters"))] ++
        ((tool.get "strict").map (("strict", ·))).toList))]

/-- The fields that only the Responses format has. -/
def responsesOnlyFields : List String :=
  ["input", "instructions", "include", "prompt_cache_key", "store", "reasoning",
    "client_metadata"]

/-- The leading system message. -/
def instructionMessages (body : Json) : List Json :=
  (((body.strField "instructions").filter (!·.isEmpty)).map fun text ↦
    Json.object [("role", .str "system"), ("content", .str text)]).toList

/-- The items of a request, regrouped. -/
def regroup (serde : SerdeJson) (body : Json) (items : List Json) : Regroup :=
  (items.foldl (Regroup.take serde) { messages := instructionMessages body }).close

/-- The tools of a request with those that its items add, as the chat format declares them. -/
def convertedTools (body : Json) (additionalTools : List Json) : List Json :=
  ((arrayField body "tools").getD [] ++ additionalTools).filterMap convertTool

/-- `translate`, `responses_to_openai.rs:124`. -/
def translate (serde : SerdeJson) (model : String) (body : Json) (stream : Bool) : Json :=
  match (body.get "input").bind normalizeInput with
  | none => body
  | some items =>
    let g := regroup serde body items
    let result := ((body.setField "model" (.str model)).setField "messages"
      (.arr g.messages)).setField "stream" (.bool stream)
    let tools := convertedTools body g.additionalTools
    let result := if tools = [] then result.eraseField "tools"
      else result.setField "tools" (.arr tools)
    let result := match body.get "max_output_tokens" with
      | some maxOutput =>
        let result := result.eraseField "max_output_tokens"
        if (result.get "max_tokens").isSome then result else result.setField "max_tokens" maxOutput
      | none => result
    let result := match (body.get "reasoning").bind (·.strField "effort") with
      | some effort => result.setField "reasoning_effort" (.str effort)
      | none => result
    responsesOnlyFields.foldl Json.eraseField result

end NullRouter.Translate.Request.ResponsesToOpenai
