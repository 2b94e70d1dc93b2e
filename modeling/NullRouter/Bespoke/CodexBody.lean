import Mathlib.Data.List.Basic
import NullRouter.Base.Json

/-!
# Request bodies for the Codex backend

`src/crates/execute/src/bespoke/codex.rs:31–412`. The backend refuses a body that is not shaped to
its rules. The instructions of its own client are a parameter: they are a file of prose.
-/

namespace NullRouter.Bespoke.Codex

open Base

/-- `ALLOWED`: the fields that the backend accepts. -/
def allowed : List String :=
  ["model", "input", "instructions", "tools", "tool_choice", "stream", "store", "reasoning",
    "service_tier", "include", "prompt_cache_key", "client_metadata", "text"]

/-- `SERVER_ID_PREFIXES`. -/
def serverIdPrefixes : List String := ["rs_", "fc_", "resp_", "msg_"]

/-- `EFFORT_LEVELS`, in the order they are tried. -/
def effortLevels : List String := ["minimal", "medium", "xhigh", "high", "none", "low"]

/-- `HOSTED_TOOLS`: the kinds that the backend runs itself. -/
def hostedTools : List String :=
  ["image_generation", "web_search", "web_search_preview", "file_search", "computer",
    "computer_use_preview", "code_interpreter", "mcp", "local_shell", "tool_search"]

/-- `MAX_TOOL_NAME`. -/
def maxToolName : Nat := 128

/-! ## Input -/

/-- A user message of one text. -/
def userMessage (text : String) : Json :=
  .object [("type", .str "message"), ("role", .str "user"),
    ("content", .arr [.object [("type", .str "input_text"), ("text", .str text)]])]

/-- `normalise_input`. -/
def normaliseInput : Option Json → List Json
  | some (.arr items) => if items = [] then [userMessage "..."] else items
  | some (.str text) => if text = "" then [userMessage "..."] else [userMessage text]
  | _ => [userMessage "..."]

/-- Change the items of the input, where it is an array. -/
def updateInput (out : Json) (change : List Json → List Json) : Json :=
  match out.get "input" with
  | some (.arr items) => out.setField "input" (.arr (change items))
  | _ => out

/-- An item without a type is a message. -/
def isMessage (item : Json) : Bool := (item.strField "type").all (· = "message")

/-- A message of the system as one of the developer. -/
def developed (item : Json) : Json :=
  if isMessage item ∧ item.strField "role" = some "system" then
    item.setField "role" (.str "developer")
  else item

/-- `convert_system_to_developer`. -/
def convertSystemToDeveloper (out : Json) : Json := updateInput out (·.map developed)

/-- `is_server_id`. -/
def isServerId (value : String) : Bool :=
  serverIdPrefixes.any fun start ↦ (stripPrefix? start value).isSome

/-- An item that is no reference to what only the server has. -/
def kept : Json → Bool
  | .str text => !isServerId text
  | .obj fields => (Json.obj fields).strField "type" ≠ some "item_reference"
  | _ => true

/-- The item itself stays: only the id that nothing resolves goes. -/
def withoutServerId (item : Json) : Json :=
  if (item.strField "id").any isServerId then item.eraseField "id" else item

/-- `strip_server_item_ids`. -/
def stripServerItemIds (out : Json) : Json :=
  updateInput out fun items ↦ (items.filter kept).map withoutServerId

/-! ## Tools -/

/-- The type of a tool. -/
def kindOf (tool : Json) : String := (tool.strField "type").getD ""

/-- The text under a key of a tool, else of its nested function. -/
def ownOrNested (tool : Json) (key : String) : String :=
  ((tool.strField key).or ((tool.get "function").bind (·.strField key))).getD ""

/-- A name without whitespace around it, cut to the longest there may be. -/
def cutName (name : String) : Option String :=
  if trim name = "" then none else some (String.ofList ((trim name).toList.take maxToolName))

/-- The names that a tool of the request adds to the known ones. -/
def knownNames (tool : Json) : List String :=
  if kindOf tool = "namespace" then
    (((tool.get "tools").bind Json.asArray).getD []).filterMap fun sub ↦
      (sub.strField "name").bind cutName
  else if kindOf tool = "function" then (cutName (ownOrNested tool "name")).toList
  else []

/-- The parameters of a tool, else of its nested function, where these are an object. -/
def parametersOf (tool : Json) : Json :=
  let own (v : Json) := (v.get "parameters").filter fun value ↦ value.asObject.isSome
  ((own tool).or ((tool.get "function").bind own)).getD
    (.object [("type", .str "object"), ("properties", .obj [])])

/-- A function tool in its flat shape. -/
def flatTool (tool : Json) (name : String) : Json :=
  .object ([("type", .str "function"), ("name", .str name)] ++
    (if ownOrNested tool "description" = "" then []
      else [("description", .str (ownOrNested tool "description"))]) ++
    [("parameters", parametersOf tool)])

/-- What is sent of a tool: nothing where the backend cannot run it. -/
def normaliseTool (tool : Json) : Option Json :=
  if kindOf tool = "namespace" ∨ kindOf tool = "custom" then some tool
  else if kindOf tool = "function" then
    (cutName (ownOrNested tool "name")).map (flatTool tool)
  else if tool.get "function" = none ∧ tool.get "name" = none ∧ kindOf tool ∈ hostedTools then
    some tool
  else none

/-- A choice of a function that did not survive. Only a name of its own is read. -/
def namesMissing (known : List String) (choice : Json) : Bool :=
  choice.strField "type" = some "function" ∧
    ((choice.strField "name").map trim).all fun name ↦ name = "" ∨ name ∉ known

/-- `normalise_tools`. -/
def normaliseTools (out : Json) : Json :=
  match out.get "tools" with
  | some (.arr tools) =>
    let out := out.setField "tools" (.arr (tools.filterMap normaliseTool))
    if (out.get "tool_choice").any (namesMissing (tools.flatMap knownNames)) then
      out.eraseField "tool_choice"
    else out
  | _ => out

/-! ## The other fields -/

/-- `split_effort_suffix`. -/
def splitEffortSuffix (model : String) : String × Option String :=
  (effortLevels.findSome? fun level ↦
    (stripSuffix? ("-" ++ level) model).map fun base ↦ (base, some level)).getD (model, none)

/-- `normalise_effort`. -/
def normaliseEffort (value : String) : String :=
  if value = "ultra" ∨ value = "max" then "xhigh" else value

/-- The reasoning of a request: an object's effort, else the parameter's, else the suffix's. -/
def reasoningOf (out : Json) (suffixEffort : Option String) : Json :=
  match out.get "reasoning" with
  | some (.obj fields) =>
    let reasoning := Json.obj fields
    let effort := (reasoning.strField "effort").getD "low"
    let reasoning := reasoning.setField "effort" (.str (normaliseEffort effort))
    if reasoning.get "summary" = none then reasoning.setField "summary" (.str "auto")
    else reasoning
  | _ =>
    let effort := ((out.strField "reasoning_effort").or suffixEffort).getD "low"
    .object [("effort", .str (normaliseEffort effort)), ("summary", .str "auto")]

/-- `apply_reasoning`. -/
def applyReasoning (out : Json) : Json :=
  let model := (out.strField "model").getD ""
  let (baseModel, suffixEffort) := splitEffortSuffix model
  let out := if baseModel ≠ model then out.setField "model" (.str baseModel) else out
  let reasoning := reasoningOf out suffixEffort
  let out := (out.setField "reasoning" reasoning).eraseField "reasoning_effort"
  if (reasoning.strField "effort").any (· ≠ "none") then
    out.setField "include" (.arr [.str "reasoning.encrypted_content"])
  else out

/-- `normalise_service_tier`. -/
def normaliseServiceTier (out : Json) : Json :=
  match out.strField "service_tier" with
  | some tier =>
    if tier = "fast" ∨ tier = "priority" then out.setField "service_tier" (.str "priority")
    else out.eraseField "service_tier"
  | none => out

/-- The instructions and the key of the cache, where the request has none. -/
def withDefaults (defaultInstructions sessionId : String) (out : Json) : Json :=
  let out := if (out.strField "instructions").all fun text ↦ trim text = "" then
      out.setField "instructions" (.str defaultInstructions)
    else out
  if sessionId ≠ "" ∧ (out.strField "prompt_cache_key").all (· = "") then
    out.setField "prompt_cache_key" (.str sessionId)
  else out

/-- The allow-list, last. -/
def retainAllowed (out : Json) : Json := .obj ((out.asObject.getD []).filter (·.1 ∈ allowed))

/-- `shape_body`. -/
def shapeBody (defaultInstructions : String) (body : Json) (sessionId : String) : Json :=
  let out := Json.obj (body.asObject.getD [])
  let out := out.setField "input" (.arr (normaliseInput (out.get "input")))
  let out := normaliseTools (stripServerItemIds (convertSystemToDeveloper out))
  let out := (out.setField "stream" (.bool true)).setField "store" (.bool false)
  let out := withDefaults defaultInstructions sessionId out
  retainAllowed (normaliseServiceTier (applyReasoning out))

/-! ## What the backend is sent -/

/-- The tools of a body. -/
def toolsOf (body : Json) : List Json := ((body.get "tools").bind Json.asArray).getD []

/-- The names that a tool declares as it is sent. -/
def declared (tool : Json) : List String :=
  if kindOf tool = "function" then (tool.strField "name").toList else knownNames tool

/-- The function that a choice names, in its flat shape or the nested one. -/
def functionName (choice : Json) : Option String :=
  if choice.strField "type" = some "function" ∧ trim (ownOrNested choice "name") ≠ "" then
    some (trim (ownOrNested choice "name"))
  else none

/-- The function that the choice of a body names. -/
def chosen (body : Json) : Option String := (body.get "tool_choice").bind functionName

/-- An item with no reference to what only the server has, and no message of the system. -/
def Sendable (item : Json) : Prop :=
  kept item = true ∧ (item.strField "id").any isServerId = false ∧
    ¬ (isMessage item ∧ item.strField "role" = some "system")

/-- A body that is shaped to the rules of the backend, of a request. -/
structure Shaped (body out : Json) : Prop where
  input : ∃ items, out.get "input" = some (.arr items) ∧ items ≠ [] ∧ ∀ item ∈ items, Sendable item
  fields : ∀ f ∈ out.asObject.getD [], f.1 ∈ allowed
  stream : out.get "stream" = some (.bool true)
  store : out.get "store" = some (.bool false)
  tools : ∀ tool ∈ toolsOf out,
    kindOf tool ∈ "namespace" :: "custom" :: "function" :: hostedTools
  choice : ∀ name, chosen out = some name ↔
    chosen body = some name ∧ name ∈ (toolsOf out).flatMap declared

/-- The choice of a request names a declared function, if one, by a name of its own, and none
without a list of tools. -/
def ChoiceReadable (body : Json) : Prop :=
  match (body.get "tools").bind Json.asArray with
  | some tools => ∀ name, chosen body = some name → name ∈ tools.flatMap knownNames →
    ((body.get "tool_choice").bind (·.strField "name")).isSome = true
  | none => chosen body = none

variable {out : Json} {key : String}

theorem get_updateInput {change : List Json → List Json} {items : List Json}
    (hobject : out.asObject.isSome = true) (h : out.get "input" = some (.arr items)) :
    (updateInput out change).get "input" = some (.arr (change items)) := by
  rw [updateInput, h]
  exact Json.get_setField_self hobject

theorem get_updateInput_of_ne {change : List Json → List Json} (h : key ≠ "input") :
    (updateInput out change).get key = out.get key := by
  unfold updateInput
  split
  · exact Json.get_setField_of_ne h
  · rfl

theorem isSome_asObject_updateInput {change : List Json → List Json} :
    (updateInput out change).asObject.isSome = out.asObject.isSome := by
  unfold updateInput
  split <;> simp

theorem get_normaliseTools (ht : key ≠ "tools") (hc : key ≠ "tool_choice") :
    (normaliseTools out).get key = out.get key := by
  unfold normaliseTools
  split
  · dsimp only
    split <;> simp [ht, hc]
  · rfl

theorem isSome_asObject_normaliseTools :
    (normaliseTools out).asObject.isSome = out.asObject.isSome := by
  unfold normaliseTools
  split
  · dsimp only
    split <;> simp
  · rfl

theorem get_withDefaults {instructions session : String} (hi : key ≠ "instructions")
    (hk : key ≠ "prompt_cache_key") :
    (withDefaults instructions session out).get key = out.get key := by
  unfold withDefaults
  dsimp only
  split <;> split <;> simp [hi, hk]

theorem get_applyReasoning (h : key ∉ ["model", "reasoning", "reasoning_effort", "include"]) :
    (applyReasoning out).get key = out.get key := by
  simp only [List.mem_cons, List.not_mem_nil, or_false, not_or] at h
  unfold applyReasoning
  dsimp only
  split <;> split <;> simp [h]

theorem get_normaliseServiceTier (h : key ≠ "service_tier") :
    (normaliseServiceTier out).get key = out.get key := by
  unfold normaliseServiceTier
  split
  · split <;> simp [h]
  · rfl

theorem get_retainAllowed (h : key ∈ allowed) : (retainAllowed out).get key = out.get key := by
  rw [retainAllowed, Json.get, Json.lookup_filter _ (· ∈ allowed), if_pos (by simpa)]
  cases out <;> rfl

/-- The request with the input that is sent. -/
def stripped (body : Json) : Json :=
  stripServerItemIds (convertSystemToDeveloper
    ((Json.obj (body.asObject.getD [])).setField "input" (.arr (normaliseInput (body.get "input")))))

theorem shapeBody_eq (instructions : String) (body : Json) (session : String) :
    shapeBody instructions body session = retainAllowed (normaliseServiceTier (applyReasoning
      (withDefaults instructions session (((normaliseTools (stripped body)).setField "stream"
        (.bool true)).setField "store" (.bool false))))) := by
  have hobj : (Json.obj (body.asObject.getD [])).get "input" = body.get "input" := by
    cases body <;> rfl
  rw [shapeBody, hobj]
  rfl

/-- What follows the tools leaves them and the input, and sets two fields of every body. -/
theorem get_shapeBody {instructions session : String} {body : Json}
    (h : key ∈ ["input", "tools", "tool_choice", "stream", "store"]) :
    (shapeBody instructions body session).get key =
      (((normaliseTools (stripped body)).setField "stream" (.bool true)).setField "store"
        (.bool false)).get key := by
  rw [shapeBody_eq, get_retainAllowed (by unfold allowed; grind),
    get_normaliseServiceTier (by grind), get_applyReasoning (by grind),
    get_withDefaults (by grind) (by grind)]

theorem get_stripped {body : Json} (h : key ≠ "input") :
    (stripped body).get key = body.get key := by
  rw [stripped, stripServerItemIds, get_updateInput_of_ne h, convertSystemToDeveloper,
    get_updateInput_of_ne h, Json.get_setField_of_ne h]
  cases body <;> rfl

/-- The items that are sent: those that are kept, without the ids of the server. -/
def sentItems (items : List Json) : List Json :=
  ((items.map developed).filter kept).map withoutServerId

theorem get_shapeBody_input (instructions : String) (body : Json) (session : String) :
    (shapeBody instructions body session).get "input" =
      some (.arr (sentItems (normaliseInput (body.get "input")))) := by
  rw [get_shapeBody (by decide), Json.get_setField_of_ne (by decide),
    Json.get_setField_of_ne (by decide), get_normaliseTools (by decide) (by decide), stripped,
    stripServerItemIds, convertSystemToDeveloper,
    get_updateInput (by rw [isSome_asObject_updateInput]; rfl)
      (get_updateInput rfl (Json.get_setField_self rfl))]
  rfl

theorem isSome_asObject_stripped (body : Json) : (stripped body).asObject.isSome = true := by
  rw [stripped, stripServerItemIds, isSome_asObject_updateInput, convertSystemToDeveloper,
    isSome_asObject_updateInput]
  rfl

/-- The tools that are sent, and the choice unless it names a missing one. -/
theorem get_normaliseTools_of_some {tools : List Json} (hobject : out.asObject.isSome = true)
    (h : (out.get "tools").bind Json.asArray = some tools) :
    (normaliseTools out).get "tools" = some (.arr (tools.filterMap normaliseTool)) ∧
      (normaliseTools out).get "tool_choice" = (out.get "tool_choice").filter fun choice ↦
        !namesMissing (tools.flatMap knownNames) choice := by
  have htools : out.get "tools" = some (.arr tools) := by
    obtain ⟨v, hv, harray⟩ := Option.bind_eq_some_iff.mp h
    cases v with
    | arr items =>
      cases harray
      exact hv
    | _ => cases harray
  have hne : "tool_choice" ≠ "tools" := by decide
  simp only [normaliseTools, htools, Json.get_setField_of_ne hne]
  cases hchoice : out.get "tool_choice" with
  | none => simp [hchoice, Json.get_setField_self hobject]
  | some choice =>
    by_cases hmissing : namesMissing (tools.flatMap knownNames) choice = true
    · simp [Option.filter_some, hmissing, Json.get_setField_self hobject]
    · simp [Option.filter_some, hmissing, hchoice, Json.get_setField_self hobject]

theorem normaliseTools_of_none (h : (out.get "tools").bind Json.asArray = none) :
    normaliseTools out = out := by
  unfold normaliseTools
  split
  · next htools =>
    rw [htools] at h
    cases h
  · rfl

/-- A tool that is sent is of a kind that the backend runs, and declares the known names. -/
theorem normaliseTool_spec (tool : Json) :
    (∀ sent ∈ normaliseTool tool,
      kindOf sent ∈ "namespace" :: "custom" :: "function" :: hostedTools) ∧
    (normaliseTool tool).toList.flatMap declared = knownNames tool := by
  have hflat (name : String) : kindOf (flatTool tool name) = "function" ∧
      (flatTool tool name).strField "name" = some name := by
    unfold kindOf flatTool
    by_cases hd : ownOrNested tool "description" = "" <;>
      simp [hd, Json.strField_object, List.lookup_cons, Json.asStr]
  unfold normaliseTool
  split
  · next hkind => rcases hkind with h | h <;> simp [declared, knownNames, h]
  · next hkind =>
    split
    · next hfunction =>
      cases hname : cutName (ownOrNested tool "name") with
      | none => simp [knownNames, hfunction, hname]
      | some name => simp [knownNames, declared, hfunction, hname, hflat name]
    · next hfunction =>
      have hknown : knownNames tool = [] := by
        rw [not_or] at hkind
        simp [knownNames, hfunction, hkind.1]
      split
      · next hhosted => simp [declared, hfunction, hknown, hhosted.2.2]
      · simp [hknown]

theorem kept_eq (item : Json) : kept item =
    (!item.asStr.any isServerId && decide (item.strField "type" ≠ some "item_reference")) := by
  cases item <;> simp [kept, Json.asStr, Json.strField, Json.get]

theorem developed_keeps (item : Json) : (developed item).strField "type" = item.strField "type" ∧
    kept (developed item) = kept item := by
  have htype : (developed item).strField "type" = item.strField "type" := by
    unfold developed
    split <;> simp [Json.strField]
  refine ⟨htype, ?_⟩
  rw [kept_eq, kept_eq, htype]
  unfold developed
  split
  · cases item <;> rfl
  · rfl

theorem withoutServerId_keeps (item : Json) : kept (withoutServerId item) = kept item ∧
    ∀ key, key ≠ "id" → (withoutServerId item).strField key = item.strField key := by
  have hfield (key : String) (h : key ≠ "id") :
      (withoutServerId item).strField key = item.strField key := by
    unfold withoutServerId
    split <;> simp [Json.strField, h]
  refine ⟨?_, hfield⟩
  rw [kept_eq, kept_eq, hfield "type" (by decide)]
  unfold withoutServerId
  split
  · cases item <;> rfl
  · rfl

/-- An item that is kept is sent without what the backend refuses. -/
theorem sendable_sent {item : Json} (h : kept item = true) :
    Sendable (withoutServerId (developed item)) := by
  obtain ⟨htype, hkept⟩ := developed_keeps item
  obtain ⟨hkept', hfield⟩ := withoutServerId_keeps (developed item)
  refine ⟨by rw [hkept', hkept, h], ?_, fun hsystem ↦ ?_⟩
  · unfold withoutServerId
    split
    · simp [Json.strField]
    · next hid => simpa using hid
  · rw [isMessage, hfield "type" (by decide), htype, ← isMessage, hfield "role" (by decide)]
      at hsystem
    unfold developed at hsystem
    split at hsystem
    · cases item <;> simp [Json.strField, Json.get, Json.setField, Json.asStr] at hsystem
    · next hnot => exact hnot hsystem

/-- The items sent are all fit to be sent; there are some exactly where one is kept. -/
theorem sentItems_spec (items : List Json) : (∀ item ∈ sentItems items, Sendable item) ∧
    (sentItems items ≠ [] ↔ ∃ item ∈ items, kept item = true) := by
  refine ⟨fun sent hsent ↦ ?_, by simp [sentItems, developed_keeps]⟩
  obtain ⟨moved, hmoved, rfl⟩ := List.mem_map.mp hsent
  obtain ⟨hmem, hkept⟩ := List.mem_filter.mp hmoved
  obtain ⟨item, -, rfl⟩ := List.mem_map.mp hmem
  exact sendable_sent ((developed_keeps item).2 ▸ hkept)

/-- The choice that is left names the declared function that it named, unless by a nested name. -/
theorem choice_iff (choice : Option Json) (known : List String) :
    (∀ name, (choice.filter fun choice ↦ !namesMissing known choice).bind functionName = some name ↔
      choice.bind functionName = some name ∧ name ∈ known) ↔
    ∀ name, choice.bind functionName = some name → name ∈ known →
      (choice.bind (·.strField "name")).isSome = true := by
  cases choice with
  | none => simp
  | some choice =>
    rw [Option.filter_some]
    by_cases hfunction : choice.strField "type" = some "function"
    · cases hown : choice.strField "name" with
      | none =>
        have hmissing : namesMissing known choice = true := by simp [namesMissing, hfunction, hown]
        simp [hmissing, hown]
      | some own =>
        by_cases hblank : trim own = ""
        · simp [namesMissing, functionName, ownOrNested, hfunction, hown, hblank]
        · by_cases hmem : trim own ∈ known <;>
            simp [namesMissing, functionName, ownOrNested, hfunction, hown, hblank, hmem]
    · simp [namesMissing, functionName, hfunction]

/-- The tools that are sent can be run, and what of the choice is left with them. -/
theorem tools_choice_iff {body out : Json}
    (htools : out.get "tools" = (normaliseTools (stripped body)).get "tools")
    (hchoice : out.get "tool_choice" = (normaliseTools (stripped body)).get "tool_choice") :
    ((∀ tool ∈ toolsOf out, kindOf tool ∈ "namespace" :: "custom" :: "function" :: hostedTools) ∧
      ∀ name, chosen out = some name ↔
        chosen body = some name ∧ name ∈ (toolsOf out).flatMap declared) ↔ ChoiceReadable body := by
  rw [chosen, toolsOf, htools, hchoice, ChoiceReadable]
  cases hlist : (body.get "tools").bind Json.asArray with
  | none =>
    have hsame : normaliseTools (stripped body) = stripped body :=
      normaliseTools_of_none (by rw [get_stripped (by decide), hlist])
    rw [hsame, get_stripped (by decide), get_stripped (by decide), hlist, ← chosen]
    simp [Option.eq_none_iff_forall_ne_some]
  | some tools =>
    obtain ⟨hsent, hleft⟩ := get_normaliseTools_of_some (isSome_asObject_stripped body)
      (by rw [get_stripped (by decide), hlist])
    have hnames : (tools.flatMap fun tool ↦ (normaliseTool tool).toList.flatMap declared) =
        tools.flatMap knownNames := by simp only [normaliseTool_spec]
    rw [hsent, hleft, get_stripped (by decide), Option.bind_some, Json.asArray, Option.getD_some,
      List.filterMap_eq_flatMap_toList, List.flatMap_assoc, hnames]
    refine (and_iff_right fun tool htool ↦ ?_).trans (choice_iff _ _)
    obtain ⟨tool', -, hsent⟩ := List.mem_flatMap.mp htool
    exact (normaliseTool_spec tool').1 tool (by simpa using hsent)

/-- For every request, the body that is sent is shaped to the rules of the backend if and only if
an item of the input is left, and the choice names a declared function, if one, by a name of its
own, and none without a list of tools. -/
theorem shaped_shapeBody_iff (instructions : String) (body : Json) (session : String) :
    Shaped body (shapeBody instructions body session) ↔
      (∃ item ∈ normaliseInput (body.get "input"), kept item = true) ∧ ChoiceReadable body := by
  have hobject : (normaliseTools (stripped body)).asObject.isSome = true := by
    rw [isSome_asObject_normaliseTools, isSome_asObject_stripped]
  have hinput := get_shapeBody_input instructions body session
  have hchosen := @tools_choice_iff body (shapeBody instructions body session)
    (by rw [get_shapeBody (by decide), Json.get_setField_of_ne (by decide),
      Json.get_setField_of_ne (by decide)])
    (by rw [get_shapeBody (by decide), Json.get_setField_of_ne (by decide),
      Json.get_setField_of_ne (by decide)])
  rw [← (sentItems_spec _).2, ← hchosen]
  constructor
  · intro h
    obtain ⟨items, hitems, hne, -⟩ := h.input
    obtain rfl := Json.arr.inj (Option.some.inj (hinput.symm.trans hitems))
    exact ⟨hne, h.tools, h.choice⟩
  · rintro ⟨hne, htools, hchoice⟩
    refine ⟨⟨_, hinput, hne, (sentItems_spec _).1⟩, ?_, ?_, ?_, htools, hchoice⟩
    · unfold shapeBody
      exact fun _ hf ↦ of_decide_eq_true (List.mem_filter.mp hf).2
    · rw [get_shapeBody (by decide), Json.get_setField_of_ne (by decide),
        Json.get_setField_self hobject]
    · rw [get_shapeBody (by decide), Json.get_setField_self (by simpa using hobject)]

/-- A request whose whole input is a reference to an item of the server is sent without input. -/
theorem shapeBody_sends_no_input : ¬ ∀ (instructions : String) (body : Json) (session : String),
    Shaped body (shapeBody instructions body session) := by
  intro hall
  obtain ⟨items, hitems, hne, -⟩ := (hall "" (.object [("input", .arr
    [.object [("type", .str "item_reference"), ("id", .str "msg_1")]])]) "").input
  rw [get_shapeBody_input] at hitems
  obtain rfl := Json.arr.inj (Option.some.inj hitems)
  exact hne (by decide)

end NullRouter.Bespoke.Codex
