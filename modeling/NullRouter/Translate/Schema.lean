import NullRouter.Base.Json

/-!
# Content parts and token limits

What the request translators share, `crates/translate/src/schema.rs`: the limits of
`adjust_max_tokens`, data URIs and the parts of a content array. Reading and printing JSON
text are parameters.
-/

namespace NullRouter.Translate

open NullRouter.Base

/-- `serde_json::from_str`, `to_string` and `to_string_pretty`. -/
structure SerdeJson where
  fromStr : String → Option Json
  toText : Json → String
  toTextPretty : Json → String

/-- `DEFAULT_MAX_TOKENS`, `schema.rs:67`. -/
def defaultMaxTokens : Nat := 64000

/-- `DEFAULT_MIN_TOKENS`, `schema.rs:69`. -/
def defaultMinTokens : Nat := 32000

/-- `CLAUDE_SYSTEM_PROMPT`, `schema.rs:72`. -/
def claudeSystemPrompt : String := "You are Claude Code, Anthropic's official CLI for Claude."

/-- `DEFAULT_IMAGE_MIME`, `schema.rs:64`. -/
def defaultImageMime : String := "image/png"

/-- `get(key).and_then(Value::as_array)`. -/
def arrayField (v : Json) (key : String) : Option (List Json) := (v.get key).bind Json.asArray

/-- An array that is set is read back. -/
theorem arrayField_setField {v : Json} {key : String} (h : v.asObject.isSome = true)
    (items : List Json) : arrayField (v.setField key (.arr items)) key = some items := by
  rw [arrayField, Json.get_setField_self h]
  rfl

/-- `get(key).cloned().unwrap_or(Value::Null)`. -/
def fieldOrNull (v : Json) (key : String) : Json := (v.get key).getD .null

/-- `get(key).and_then(Value::as_str).unwrap_or_default()`. -/
def textOrEmpty (v : Json) (key : String) : String := (v.strField key).getD ""

/-- A text that is not empty is read where it stands. -/
theorem textOrEmpty_eq_iff {v : Json} {key text : String} (h : text ≠ "") :
    textOrEmpty v key = text ↔ v.strField key = some text := by
  unfold textOrEmpty
  cases v.strField key with
  | none => simp [h.symm]
  | some found => simp

/-- Whether a block, a part or a call is of a type. -/
def hasType (kind : String) (v : Json) : Bool := v.strField "type" == some kind

/-- `str::starts_with`. -/
def startsWith (start text : String) : Bool := start.toList.isPrefixOf text.toList

/-- `str::to_ascii_lowercase`. -/
def toAsciiLowercase (text : String) : String := String.ofList (text.toList.map Char.toLower)

/-- Whether a URL is one of the web. -/
def isWebUrl (url : String) : Bool := startsWith "http://" url || startsWith "https://" url

/-- `adjust_max_tokens`, `schema.rs:81`. -/
def adjustMaxTokens (body : Json) (ceiling : Nat) : Nat :=
  let asked := (((body.get "max_tokens").bind Json.asU64).filter (· ≠ 0)).getD defaultMaxTokens
  let hasTools := (arrayField body "tools").any (!·.isEmpty)
  let floored := if hasTools && asked < defaultMinTokens then defaultMinTokens else asked
  let budget :=
    (((body.get "thinking").bind (·.get "budget_tokens")).bind Json.asU64).filter (· ≠ 0)
  let raised := match budget with
    | some budget => if floored ≤ budget then satAdd64 budget 1024 else floored
    | none => floored
  min raised ceiling

/-- `encode_data_uri`, `schema.rs:111`. -/
def encodeDataUri (mimeType base64 : String) : String := "data:" ++ mimeType ++ ";base64," ++ base64

/-- `parse_data_uri`, `schema.rs:124`: the type and the data. -/
def parseDataUri (url : String) : Option (String × String) :=
  (stripPrefix? "data:" url).bind fun rest ↦
    let mimeType := rest.toList.takeWhile (· ≠ ';')
    if mimeType.isEmpty then none
    else
      ((";base64,".toList.isPrefixOf? (rest.toList.drop mimeType.length)).filter
        (!·.isEmpty)).map fun base64 ↦ (String.ofList mimeType, String.ofList base64)

/-- `collapse_text_parts`, `schema.rs:139`: a single text part is its text. -/
def collapseTextParts (parts : List Json) : Json :=
  match parts with
  | [part] => if hasType "text" part then (part.get "text").getD (.arr parts) else .arr parts
  | _ => .arr parts

/-- `safe_parse_json`, `schema.rs:152`. -/
def safeParseJson (serde : SerdeJson) (text : String) : Json :=
  (serde.fromStr text).getD (.str text)

/-- The texts of the text parts that have one. -/
def partTexts (parts : List Json) : List String :=
  (parts.filter (hasType "text")).filterMap (·.strField "text")

/-- `extract_text_content`, `schema.rs:158`. -/
def extractTextContent (content : Option Json) (separator : String) : String :=
  match content with
  | some (.str text) => text
  | some (.arr parts) => separator.intercalate ((partTexts parts).filter (!·.isEmpty))
  | _ => ""

end NullRouter.Translate
