import NullRouter.Base.Coalesce
import NullRouter.Translate.Schema

/-!
# Kiro's request document

`crates/execute/src/bespoke/kiro/request.rs`: an OpenAI body becomes a history of turns, a current
turn taken out of it, and the specifications of the tools.
-/

namespace NullRouter.Bespoke.Kiro

open NullRouter.Base NullRouter.Translate

/-! ## Turns -/

/-- `Turn`, `request.rs:31`. -/
inductive Turn where
  | user (content : String) (images toolResults : List Json)
  | assistant (content : String) (toolUses : List Json)
  deriving DecidableEq

namespace Turn

/-- Whether a turn is a user's. -/
def isUser : Turn → Bool
  | .user .. => true
  | .assistant .. => false

/-- The text of a turn. -/
def content : Turn → String
  | .user content .. => content
  | .assistant content _ => content

/-- The images of a turn. -/
def images : Turn → List Json
  | .user _ images _ => images
  | .assistant .. => []

/-- The tool results of a turn. -/
def toolResults : Turn → List Json
  | .user _ _ toolResults => toolResults
  | .assistant .. => []

/-- The tool uses of a turn. -/
def toolUses : Turn → List Json
  | .user .. => []
  | .assistant _ toolUses => toolUses

end Turn

/-- `Conversation`, `request.rs:47`. -/
structure Conversation where
  history : List Turn
  current : Turn
  deriving DecidableEq

/-! ## Parts of messages -/

/-- The entry of an image, `request.rs:307` and `322`. -/
def imageEntry (mediaType bytes : String) : Json :=
  Json.object [("format", .str (afterLast '/' mediaType)),
    ("source", Json.object [("bytes", .str bytes)])]

/-- `image_from_data_uri`, `request.rs:301`. -/
def imageFromDataUri (url : String) : Option Json :=
  (stripPrefix? "data:" url).bind fun rest ↦
    (splitOnce ',' rest).bind fun parts ↦
      (stripSuffix? ";base64" parts.1).map fun mime ↦ imageEntry mime parts.2

/-- `image_from_claude_block`, `request.rs:311`. -/
def imageFromClaudeBlock (part : Json) : Option Json :=
  (part.get "source").bind fun source ↦
    if source.strField "type" ≠ some "base64" then none
    else
      (source.strField "data").map fun data ↦
        imageEntry ((source.strField "media_type").getD "image/png") data

/-- The address of an image part, `request.rs:186`. -/
def imageUrl (part : Json) : String :=
  ((part.pointer ["image_url", "url"]).bind Json.asStr).getD ""

/-- Whether an address is on the web, `request.rs:192`. -/
def isRemote (url : String) : Bool :=
  startsWith "http://" url || startsWith "https://" url

/-- The text that a part of a user's content adds, `request.rs:178–211`. -/
def partText (part : Json) : Option String :=
  if part.strField "type" = some "image_url" then
    if (imageFromDataUri (imageUrl part)).isSome then none
    else if isRemote (imageUrl part) then some ("[Image: " ++ imageUrl part ++ "]")
    else none
  else if part.strField "type" = some "image" then none
  else if part.strField "type" = some "tool_result" then none
  else part.strField "text"

/-- The image that a part of a user's content adds, `request.rs:185–203`. -/
def partImage (part : Json) : Option Json :=
  if part.strField "type" = some "image_url" then imageFromDataUri (imageUrl part)
  else if part.strField "type" = some "image" then imageFromClaudeBlock part
  else none

/-- The entry of a tool result, `request.rs:271` and `289`. -/
def resultEntry (id : String) (errored : Bool) (text : String) : Json :=
  Json.object [("toolUseId", .str id), ("status", .str (if errored then "error" else "success")),
    ("content", .arr [Json.object [("text", .str text)]])]

/-- `tool_result_from_block`, `request.rs:279`. -/
def toolResultFromBlock (block : Json) : Json :=
  let text := match block.get "content" with
    | some (.str text) => text
    | some (.arr parts) => "\n".intercalate (parts.filterMap (·.strField "text"))
    | _ => ""
  resultEntry (textOrEmpty block "tool_use_id")
    ((block.get "is_error").bind Json.asBool = some true) text

/-- `tool_result_from_message`, `request.rs:264`. -/
def toolResultFromMessage (message : Json) : Json :=
  resultEntry (textOrEmpty message "tool_call_id")
    ((message.get "is_error").bind Json.asBool = some true ∨
      message.strField "status" = some "error")
    (textOrEmpty message "content")

/-- The tool result that a part of a user's content adds, `request.rs:204`. -/
def partResult (part : Json) : Option Json :=
  if part.strField "type" = some "tool_result" then some (toolResultFromBlock part) else none

/-- `user_parts`, `request.rs:171`. -/
def userParts (message : Json) : String × List Json × List Json :=
  match message.get "content" with
  | some (.str text) => (text, [], [])
  | some (.arr parts) =>
    ("\n".intercalate (parts.filterMap partText), parts.filterMap partImage,
      parts.filterMap partResult)
  | _ => ("", [], [])

/-- `assistant_parts`, `request.rs:219`. -/
def assistantParts (message : Json) : String × List Json :=
  match message.get "content" with
  | some (.str text) => (trim text, [])
  | some (.arr parts) =>
    (trim ("\n".intercalate (partTexts parts)),
      (parts.filter (hasType "tool_use")).map fun part ↦
        Json.object [("toolUseId", .str (textOrEmpty part "id")),
          ("name", .str (textOrEmpty part "name")),
          ("input", (part.get "input").getD (.obj []))])
  | _ => ("", [])

/-- `tool_use_from_call`, `request.rs:247`. -/
def toolUseFromCall (serde : Translate.SerdeJson) (call : Json) : Option Json :=
  (call.get "function").bind fun function ↦
    (function.strField "name").map fun name ↦
      let input := (((function.strField "arguments").bind serde.fromStr).filter
        (·.asObject.isSome)).getD (.obj [])
      Json.object [("toolUseId", .str (textOrEmpty call "id")), ("name", .str name),
        ("input", input)]

/-! ## Conversations -/

/-- The role of a message, `request.rs:59`. -/
def role (message : Json) : String := (message.strField "role").getD "user"

/-- The turn of a message, `request.rs:63–104`. -/
def turnOf (serde : Translate.SerdeJson) (message : Json) : Turn :=
  if role message = "assistant" then
    let parts := assistantParts message
    .assistant parts.1
      (((arrayField message "tool_calls").map (·.filterMap (toolUseFromCall serde))).getD parts.2)
  else if role message = "tool" then .user "" [] [toolResultFromMessage message]
  else if role message = "system" then
    let parts := userParts message
    .user (if parts.1 = "" then parts.1
      else "<instructions>\n" ++ parts.1 ++ "\n</instructions>") parts.2.1 parts.2.2
  else
    let parts := userParts message
    .user parts.1 parts.2.1 parts.2.2

/-- The text of two turns merged, `request.rs:150–155`. -/
def joinContent (previous content : String) : String :=
  if content = "" then previous
  else if previous = "" then content
  else previous ++ "\n\n" ++ content

/-- Two user turns as one, `request.rs:145–158`. -/
def mergeTurns : Turn → Turn → Option Turn
  | .user previous images results, .user content images' results' =>
    some (.user (joinContent previous content) (images ++ images') (results ++ results'))
  | _, _ => none

/-- `merge_consecutive_users`, `request.rs:133`. -/
def mergeConsecutiveUsers (turns : List Turn) : List Turn := coalesce mergeTurns turns

/-- The position of the last user turn, `request.rs:109`. -/
def lastUser (turns : List Turn) : Option Nat :=
  (turns.reverse.findIdx? Turn.isUser).map fun i ↦ turns.length - 1 - i

/-- `convert_messages`, `request.rs:55`. -/
def convertMessages (serde : Translate.SerdeJson) (messages : List Json) : Conversation :=
  let turns := messages.map (turnOf serde)
  match (lastUser turns).bind fun i ↦ turns[i]?.map fun turn ↦ (turn, turns.eraseIdx i) with
  | some (current, rest) => ⟨mergeConsecutiveUsers rest, current⟩
  | none => ⟨mergeConsecutiveUsers turns, .user "" [] []⟩

/-- `render`, `request.rs:326`. -/
def render (turn : Turn) (model : String) : Json :=
  match turn with
  | .user content images toolResults =>
    Json.object [("userInputMessage", Json.object (
      [("content", .str (if content = "" then "continue" else content)), ("modelId", .str model)]
        ++ (if images = [] then [] else [("images", .arr images)])
        ++ (if toolResults = [] then []
          else [("userInputMessageContext", Json.object [("toolResults", .arr toolResults)])])))]
  | .assistant content toolUses =>
    Json.object [("assistantResponseMessage", Json.object (
      [("content", .str (if content = "" then "..." else content))]
        ++ (if toolUses = [] then [] else [("toolUses", .arr toolUses)])))]

/-! ## Tool specifications -/

/-- `KIRO_TOOL_NAME_MAX`, `request.rs:921`. -/
def kiroToolNameMax : Nat := 64

/-- `KIRO_TOOL_DESC_MAX`, `request.rs:922`. -/
def kiroToolDescMax : Nat := 10237

mutual

/-- `normalize_schema`, `request.rs:1010`. -/
def normalizeSchema : Json → Json
  | .arr items => .arr (normalizeItems items)
  | .obj fields => .obj (normalizeFields fields)
  | value => value
termination_by structural value => value

/-- The elements of an array of schemas. -/
def normalizeItems : List Json → List Json
  | [] => []
  | item :: items => normalizeSchema item :: normalizeItems items
termination_by structural items => items

/-- The fields of a schema, less what Kiro refuses. -/
def normalizeFields : List (String × Json) → List (String × Json)
  | [] => []
  | field :: fields =>
    if field.1 = "additionalProperties" then normalizeFields fields
    else if field.1 = "required" ∧ field.2 = .arr [] then normalizeFields fields
    else normalizeField field :: normalizeFields fields
termination_by structural fields => fields

/-- A field of a schema. -/
def normalizeField : String × Json → String × Json
  | (key, child) => (key, normalizeSchema child)
termination_by structural field => field

end

/-- The name of a tool; tools without one are passed over, `request.rs:937–944`. -/
def rawName (tool : Json) : Option String :=
  (((tool.pointer ["function", "name"]).or (tool.get "name")).bind Json.asStr).filter
    fun raw ↦ trim raw ≠ ""

/-- Whether a character may stand in a name, `request.rs:952`. -/
def isNameChar (c : Char) : Bool := c.isAlphanum || c == '_' || c == '-'

/-- The first choice for a name, `request.rs:949–963`. -/
def baseName (index : Nat) (raw : String) : String :=
  let cleaned := raw.toList.map fun c ↦ if isNameChar c then c else '_'
  if cleaned = [] then "tool_" ++ toString (index + 1)
  else String.ofList (cleaned.take kiroToolNameMax)

/-- The choice with a suffix, `request.rs:968–970`; names are ASCII, so bytes are characters. -/
def suffixed (base : String) (suffix : Nat) : String :=
  let tail := "_" ++ toString suffix
  String.ofList (base.toList.take (kiroToolNameMax - tail.length)) ++ tail

/-- The loop of `request.rs:967`, for so many rounds: the first choice that is not used yet. The
`i32` of the suffix overflows after two billion names of one base. -/
def disambiguate (used : List String) (base : String) : Nat → String → Nat → Option String
  | 0, _, _ => none
  | rounds + 1, name, suffix =>
    if name ∈ used then disambiguate used base rounds (suffixed base suffix) (suffix + 1)
    else some name

/-- The description of a tool, `request.rs:976–988`. -/
def description (tool : Json) (raw : String) : String :=
  let text :=
    (((tool.pointer ["function", "description"]).or (tool.get "description")).bind
      Json.asStr).getD ""
  if text = "" then "Tool: " ++ raw else String.ofList (text.toList.take kiroToolDescMax)

/-- The schema of a tool's parameters, `request.rs:990–995`. -/
def parameters (tool : Json) : Json :=
  (((tool.pointer ["function", "parameters"]).or (tool.get "parameters")).or
    (tool.get "input_schema")).getD (.obj [])

/-- The specification of a tool, `request.rs:997–1003`. -/
def toolSpecification (name description : String) (schema : Json) : Json :=
  Json.object [("toolSpecification", Json.object [("name", .str name),
    ("description", .str description),
    ("inputSchema", Json.object [("json", normalizeSchema schema)])])]

/-- `specs`, `name_map` and `used_names`, `request.rs:932–934`. -/
structure ToolSpecs where
  specs : List Json := []
  nameMap : List (String × String) := []
  usedNames : List String := []
  deriving DecidableEq

/-- A tool in its turn, `request.rs:936–1004`; the rounds are more than the names used. -/
def addTool (acc : ToolSpecs) (index : Nat) (tool : Json) : Option ToolSpecs :=
  match rawName tool with
  | none => some acc
  | some raw =>
    if raw ∈ acc.nameMap.map Prod.fst then some acc
    else
      let base := baseName index raw
      (disambiguate acc.usedNames base (acc.usedNames.length + 2) base 2).map fun name ↦
        { specs := acc.specs ++ [toolSpecification name (description tool raw) (parameters tool)]
          nameMap := acc.nameMap ++ [(raw, name)]
          usedNames := acc.usedNames ++ [name] }

/-- `normalize_kiro_tool_specs`, `request.rs:929`. -/
def normalizeKiroToolSpecs (tools : List Json) : Option ToolSpecs :=
  tools.zipIdx.foldlM (fun acc entry ↦ addTool acc entry.2 entry.1) {}

/-! ## The document -/

/-- `MAX_TOKENS`, `request.rs:21`. -/
def maxTokens : Nat := 32000

/-- `ACCOUNT_BOUND`, `request.rs:27`. -/
def accountBound : List String := ["api_key", "idc", "external_idp"]

/-- `DEFAULT_PROFILE_ARN`, `request.rs:398`. -/
def defaultProfileArn : String :=
  "arn:aws:codewhisperer:us-east-1:699475941385:profile/EHGA3GRVQMUK"

/-- `Context`, `request.rs:379`. -/
structure Context where
  model : String
  authMethod : Option String
  profileArn : Option String
  conversationId : String
  continuationId : String
  timestamp : String

/-- The current turn with the time of day, `request.rs:411–427`. -/
def withTime (timestamp : String) : Turn → Turn
  | .user content images toolResults =>
    let time := "[Context: Current time is " ++ timestamp ++ "]"
    .user (if content = "" then time else time ++ "\n\n" ++ content) images toolResults
  | .assistant content toolUses => .assistant content toolUses

/-- The current message with the tools it may use, `request.rs:447–458`. -/
def withTools (message : Json) (specs : List Json) : Json :=
  let inner := (message.get "userInputMessage").getD
    (Json.object [("userInputMessage", Json.object [("content", .str "")])])
  message.setField "userInputMessage" (inner.setField "tools" (.arr specs))

/-- The profile that is sent, `request.rs:477–485`. -/
def profile (context : Context) : Option String :=
  (((context.profileArn.filter (· ≠ "")).or
    (if context.authMethod.any (· ∈ accountBound) then none else some defaultProfileArn))).filter
    (· ≠ "")

/-- A field of the body, where it is a number. -/
def numberField (body : Json) (key : String) : Option Json :=
  (body.get key).filter fun value ↦
    match value with
    | .num _ => true
    | _ => false

/-- The document, once the tools are named. -/
def document (body : Json) (context : Context) (conversation : Conversation)
    (specs : List Json) : Json :=
  let current := render (withTime context.timestamp conversation.current) context.model
  Json.object (
    [("conversationState", Json.object [("chatTriggerType", .str "MANUAL"),
      ("conversationId", .str context.conversationId),
      ("agentContinuationId", .str context.continuationId), ("agentTaskType", .str "vibe"),
      ("currentMessage", if specs = [] then current else withTools current specs),
      ("history", .arr (conversation.history.map (render · context.model)))]),
    ("agentMode", .str "vibe")]
    ++ ((profile context).map fun arn ↦ ("profileArn", Json.str arn)).toList
    ++ [("inferenceConfig", Json.object ([("maxTokens", Json.nat maxTokens)]
      ++ ((numberField body "temperature").map fun value ↦ ("temperature", value)).toList
      ++ ((numberField body "top_p").map fun value ↦ ("topP", value)).toList))])

/-- `build`, `request.rs:402`. -/
def build (serde : Translate.SerdeJson) (body : Json) (context : Context) : Option Json :=
  let conversation := convertMessages serde ((arrayField body "messages").getD [])
  (normalizeKiroToolSpecs ((arrayField body "tools").getD [])).map fun named ↦
    document body context conversation named.specs

/-! ## What becomes of the turns -/

/-- A turn is a user's where its message is no assistant's. -/
theorem isUser_turnOf (serde : Translate.SerdeJson) (message : Json) :
    (turnOf serde message).isUser = true ↔ role message ≠ "assistant" := by
  rw [turnOf]
  split
  · next h => simp [h, Turn.isUser]
  · next h =>
    split
    · simp [h, Turn.isUser]
    · split <;> simp [h, Turn.isUser]

private theorem split_at_lastUser (turns : List Turn) :
    (∀ turn ∈ turns, turn.isUser = false) ∨ ∃ front current back,
      turns = front ++ current :: back ∧ current.isUser = true ∧
      ∀ turn ∈ back, turn.isUser = false := by
  induction turns with
  | nil =>
    left
    simp
  | cons turn turns ih =>
    rcases ih with hnone | ⟨front, current, back, rfl, hcurrent, hback⟩
    · cases hturn : turn.isUser with
      | false =>
        left
        simpa [hturn] using hnone
      | true =>
        right
        exact ⟨[], turn, turns, rfl, hturn, hnone⟩
    · right
      exact ⟨turn :: front, current, back, rfl, hcurrent, hback⟩

private theorem lastUser_eq_none {turns : List Turn} (h : ∀ turn ∈ turns, turn.isUser = false) :
    lastUser turns = none := by
  rw [lastUser, Option.map_eq_none_iff, List.findIdx?_eq_none_iff]
  intro turn hturn
  exact h turn (List.mem_reverse.mp hturn)

private theorem lastUser_split {front back : List Turn} {current : Turn}
    (hcurrent : current.isUser = true) (hback : ∀ turn ∈ back, turn.isUser = false) :
    lastUser (front ++ current :: back) = some front.length := by
  have hnone : back.reverse.findIdx? Turn.isUser = none := by
    rw [List.findIdx?_eq_none_iff]
    intro turn hturn
    exact hback turn (List.mem_reverse.mp hturn)
  have hreverse : (front ++ current :: back).reverse =
      back.reverse ++ current :: front.reverse := by simp
  rw [lastUser, hreverse, List.findIdx?_append, hnone, List.findIdx?_cons, if_pos hcurrent]
  simp only [Option.map_some, Option.none_or, List.length_append, List.length_cons,
    List.length_reverse, Option.some.injEq]
  omega

/-- Where there is no user turn all turns are history, and the current one is made up; else the
last user turn is the current one, and the others are history. -/
theorem convertMessages_cases (serde : Translate.SerdeJson) (messages : List Json) :
    ((∀ message ∈ messages, role message = "assistant") ∧
      convertMessages serde messages =
        ⟨mergeConsecutiveUsers (messages.map (turnOf serde)), .user "" [] []⟩) ∨
    ∃ front message back, messages = front ++ message :: back ∧ role message ≠ "assistant" ∧
      (∀ message ∈ back, role message = "assistant") ∧
      convertMessages serde messages =
        ⟨mergeConsecutiveUsers ((front ++ back).map (turnOf serde)), turnOf serde message⟩ := by
  have hrole {message : Json} (h : (turnOf serde message).isUser = false) :
      role message = "assistant" := by
    by_contra hne
    rw [(isUser_turnOf serde message).mpr hne] at h
    cases h
  rcases split_at_lastUser (messages.map (turnOf serde)) with
    hnone | ⟨front, current, back, hturns, hcurrent, hback⟩
  · left
    constructor
    · intro message hmessage
      exact hrole (hnone _ (List.mem_map_of_mem hmessage))
    · simp only [convertMessages, lastUser_eq_none hnone, Option.bind_none]
  · right
    obtain ⟨fronts, rest, rfl, rfl, hrest⟩ := List.map_eq_append_iff.mp hturns
    obtain ⟨message, backs, rfl, rfl, rfl⟩ := List.map_eq_cons_iff.mp hrest
    refine ⟨fronts, message, backs, rfl, (isUser_turnOf serde message).mp hcurrent, ?_, ?_⟩
    · intro message hmessage
      exact hrole (hback _ (List.mem_map_of_mem hmessage))
    · simp only [convertMessages, hturns, lastUser_split hcurrent hback, Option.bind_some]
      simp [List.eraseIdx_append_of_length_le]

end NullRouter.Bespoke.Kiro
