import NullRouter.Translate.Schema
import Std.Data.ExtTreeMap

/-!
# OpenAI requests to Ollama requests

`crates/translate/src/request/openai_to_ollama.rs`: content is text, images are raw base64 beside
it, and the reply of a tool names the tool.
-/

namespace NullRouter.Translate.Request.OpenaiToOllama

open NullRouter.Base

/-- `normalize_content`, `openai_to_ollama.rs:183`. -/
def normalizeContent (content : Option Json) : String :=
  match content with
  | some (.str text) => text
  | some (.arr blocks) => "\n".intercalate (partTexts blocks)
  | _ => ""

/-- The text after the first place where a separator stands. -/
def afterFirst (separator : List Char) : List Char → Option (List Char)
  | [] => if separator.isEmpty then some [] else none
  | c :: cs => match separator.isPrefixOf? (c :: cs) with
    | some rest => some rest
    | none => afterFirst separator cs

/-- `base64_from_data_uri`, `openai_to_ollama.rs:221`. -/
def base64FromDataUri (url : String) : Option String :=
  (stripPrefix? "data:" url).bind fun rest ↦
    ((afterFirst ";base64,".toList rest.toList).filter (!·.isEmpty)).map String.ofList

/-- The URL of an image block. -/
def imageUrl (block : Json) : Option String :=
  match block.get "image_url" with
  | some (.str text) => some text
  | some object => object.strField "url"
  | none => none

/-- `extract_images`, `openai_to_ollama.rs:201`. -/
def extractImages (content : Option Json) : List String :=
  ((((content.bind Json.asArray).getD []).filter (hasType "image_url")).filterMap
    imageUrl).filterMap base64FromDataUri

/-- `ollama_tool_call`, `openai_to_ollama.rs:150`. -/
def ollamaToolCall (serde : SerdeJson) (call : Json) : Json :=
  let name := ((call.get "function").bind (·.strField "name")).getD ""
  let arguments := match (call.get "function").bind (·.get "arguments") with
    | some (.str text) =>
      match safeParseJson serde text with
      | .obj fields => .obj fields
      | _ => Json.object []
    | some other => other
    | none => Json.object []
  Json.object [("type", .str "function"), ("function", Json.object [
    ("index", Json.nat (((call.get "index").bind Json.asU64).getD 0)), ("name", .str name),
    ("arguments", arguments)])]

/-- The names of the calls, by their ids. -/
def callNames (messages : List Json) : Std.ExtTreeMap String String :=
  ((messages.filter fun message ↦ message.strField "role" = some "assistant").flatMap
    fun message ↦ (arrayField message "tool_calls").getD []).foldl (fun names call ↦
      match call.strField "id", (call.get "function").bind (·.strField "name") with
      | some id, some name => names.insert id name
      | _, _ => names) ∅

/-- The message that one message becomes. -/
def normalizeMessage (serde : SerdeJson) (names : Std.ExtTreeMap String String) (message : Json) :
    Option Json :=
  let role := textOrEmpty message "role"
  let content := normalizeContent (message.get "content")
  if role = "tool" then
    if content.isEmpty then none
    else
      let name := (((message.strField "tool_call_id").bind (names[·]?)).or
        (message.strField "name")).getD "unknown_tool"
      some (Json.object [("role", .str "tool"), ("tool_name", .str name),
        ("content", .str content)])
  else
    match (if role = "assistant" then arrayField message "tool_calls" else none) with
    | some calls => some (Json.object [("role", .str "assistant"), ("content", .str content),
        ("tool_calls", .arr (calls.map (ollamaToolCall serde)))])
    | none =>
      let images := extractImages (message.get "content")
      if content.isEmpty ∧ images = [] ∧ role ≠ "assistant" then none
      else some (Json.object ([("role", .str role), ("content", .str content)] ++
        if images = [] then [] else [("images", .arr (images.map .str))]))

/-- `normalize_messages`, `openai_to_ollama.rs:61`. -/
def normalizeMessages (serde : SerdeJson) (body : Json) : Json :=
  match arrayField body "messages" with
  | none => fieldOrNull body "messages"
  | some messages => .arr (messages.filterMap (normalizeMessage serde (callNames messages)))

/-- `translate`, `openai_to_ollama.rs:23`. -/
def translate (serde : SerdeJson) (model : String) (body : Json) (stream : Bool) : Json :=
  let options := [("temperature", "temperature"), ("max_tokens", "num_predict"),
    ("top_p", "top_p")].filterMap fun (source, target) ↦
      ((body.get source).filter (!·.isNull)).map (target, ·)
  Json.object ([("model", .str model), ("messages", normalizeMessages serde body),
    ("stream", .bool stream)] ++
    (if options = [] then [] else [("options", Json.object options)]) ++
    ((arrayField body "tools").map fun tools ↦ ("tools", Json.arr tools)).toList ++
    (((body.get "tool_choice").filter (!·.isNull)).map (("tool_choice", ·))).toList)

end NullRouter.Translate.Request.OpenaiToOllama
