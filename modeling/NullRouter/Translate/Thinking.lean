import NullRouter.Translate.Claude
import NullRouter.Translate.Schema

/-!
# Thinking

`crates/translate/src/thinking.rs`: the intent of a request is read from the dialect that it came
in and written in the spelling of the model that it goes to. The tables of models,
`crates/providers/src/capabilities.rs`, are a parameter.
-/

namespace NullRouter.Translate

open NullRouter.Base

/-- `ThinkingFormat`, `capabilities.rs:50`. -/
inductive ThinkingFormat where
  | openAi
  | claudeAdaptive
  | claudeBudget
  | geminiLevel
  | geminiBudget
  | zai
  | qwen
  | kimi
  | deepSeek
  | miniMax
  | hunyuan
  | step
  | tokenRouter
  | kiro
  | unrecognized
  deriving DecidableEq

/-- `ThinkingRange`, `capabilities.rs:127`. -/
structure ThinkingRange where
  min : Option Nat := none
  max : Option Nat := none
  deriving DecidableEq

/-- `Capabilities`, `capabilities.rs:137`: the fields that the translators read, with the values
of `Capabilities::DEFAULT`. -/
structure Capabilities where
  vision : Bool := false
  pdf : Bool := false
  audioInput : Bool := false
  reasoning : Bool := false
  thinkingCanDisable : Bool := true
  thinkingFormat : Option ThinkingFormat := none
  thinkingRange : Option ThinkingRange := none
  maxOutput : Nat := 64000
  deriving DecidableEq

/-- The tables of models: `capabilities_for_model` and `thinking_levels`. -/
structure Catalogue where
  capabilities : String → String → Capabilities
  thinkingLevels : String → String → Option (List String)

/-- The tables, for models that they do not list. -/
def Catalogue.unlisted : Catalogue where
  capabilities := fun _ _ ↦ {}
  thinkingLevels := fun _ _ ↦ none

/-- `ThinkingIntent`, `thinking.rs:36`. -/
inductive ThinkingIntent where
  | off
  | auto
  | level (level : String)
  | budget (tokens : Nat)
  deriving DecidableEq

namespace Thinking

/-- `level_to_budget`, `thinking.rs:50`. -/
def levelToBudget : String → Option Nat
  | "none" => some 0
  | "minimal" => some 512
  | "low" => some 1024
  | "medium" => some 8192
  | "high" => some 24576
  | "xhigh" => some 32768
  | "max" => some 128000
  | _ => none

/-- `budget_to_level`, `thinking.rs:65`. -/
def budgetToLevel (budget : Nat) : Option String :=
  if budget = 0 then none
  else if budget ≤ 768 then some "minimal"
  else if budget ≤ 4096 then some "low"
  else if budget ≤ 16384 then some "medium"
  else if budget ≤ 28672 then some "high"
  else some "xhigh"

/-- `effort_to_thinking_level`, `thinking.rs:86`. -/
def effortToThinkingLevel (effort : String) : String :=
  if effort = "none" ∨ effort = "off" then "minimal"
  else if effort = "xhigh" ∨ effort = "max" then "high"
  else effort

/-- `f64::trunc` of a number within the integers that a double holds exactly. -/
def truncFloat (bits : UInt64) : Option Int :=
  let exponent := bits.toNat / 2 ^ 52 % 2 ^ 11
  let mantissa := 2 ^ 52 + bits.toNat % 2 ^ 52
  if exponent < 1023 then some 0
  else if exponent > 1023 + 52 then none
  else
    let size : Int := ((mantissa / 2 ^ (52 - (exponent - 1023)) : Nat) : Int)
    some (if bits.toNat / 2 ^ 63 = 1 then -size else size)

/-- `budget_signal`, `thinking.rs:98`. -/
def budgetSignal (value : Json) : Option Int :=
  match asI64 value, value with
  | some exact, _ => some exact
  | none, .num (.float bits) => truncFloat bits
  | none, _ => none

/-- `positive_budget`, `thinking.rs:117`. -/
def positiveBudget (value : Option Json) : Option Nat :=
  ((value.bind budgetSignal).filter (0 < ·)).map Int.toNat

/-- `intent_from_effort`, `thinking.rs:123`. -/
def intentFromEffort (effort : String) : ThinkingIntent :=
  let lowered := toAsciiLowercase effort
  if lowered = "none" ∨ lowered = "off" then .off
  else if lowered = "auto" then .auto
  else .level lowered

/-- `gemini_thinking_config`, `thinking.rs:138`. -/
def geminiThinkingConfig (body : Json) : Option Json :=
  (((body.get "thinkingConfig").or
    ((body.get "generationConfig").bind (·.get "thinkingConfig"))).or
    (((body.get "request").bind (·.get "generationConfig")).bind (·.get "thinkingConfig"))).filter
      (·.asObject.isSome)

/-- `thinking_suffix_intent`, `thinking.rs:156`. -/
def thinkingSuffixIntent (raw : String) : Option ThinkingIntent :=
  if raw = "none" ∨ raw = "off" then some .off
  else if raw = "auto" then some .auto
  else if raw = "ultra" then some (.level raw)
  else if !raw.isEmpty && raw.toList.all Char.isDigit then (parseU64 raw).map .budget
  else (levelToBudget raw).map fun _ ↦ .level raw

/-- `split_thinking_suffix`, `crates/providers/src/model.rs:149`: the id and what stands in the
last parentheses, if it is neither empty nor holds parentheses itself. -/
def splitThinkingSuffix (modelId : String) : String × Option String :=
  match (trimEnd modelId.toList).reverse with
  | ')' :: rest =>
    let inner := (rest.takeWhile fun c ↦ c ≠ '(').reverse
    match rest.drop inner.length with
    | '(' :: base =>
      if inner = [] ∨ inner.contains ')' then (modelId, none)
      else (String.ofList (trimEnd base.reverse), some (String.ofList inner))
    | _ => (modelId, none)
  | _ => (modelId, none)

/-- `parse_suffix`, `thinking.rs:178`. -/
def parseSuffix (model : String) : String × Option ThinkingIntent :=
  let (clean, suffix) := splitThinkingSuffix model
  (clean, suffix.bind fun inner ↦ thinkingSuffixIntent (toAsciiLowercase (trim inner)))

/-- `strip_thinking_suffix`, `thinking.rs:201`. -/
def stripThinkingSuffix (model : String) : String := (parseSuffix model).1

/-- The intent of Claude's `thinking`. -/
def claudeIntent (body : Json) : Option ThinkingIntent :=
  ((body.get "thinking").filter (·.asObject.isSome)).bind fun thinking ↦
    if hasType "disabled" thinking then some .off
    else if hasType "adaptive" thinking || hasType "enabled" thinking then
      some (((positiveBudget (thinking.get "budget_tokens")).map .budget).getD .auto)
    else none

/-- The effort of OpenAI's chat and Responses requests. -/
def openaiEffort (body : Json) : Option String :=
  ((body.strField "reasoning_effort").or
    (((body.get "reasoning").filter (·.asObject.isSome)).bind (·.strField "effort"))).filter
      (!·.isEmpty)

/-- `extract_gemini_or_qwen`, `thinking.rs:264`. -/
def extractGeminiOrQwen (body : Json) : Option ThinkingIntent :=
  let gemini := (geminiThinkingConfig body).bind fun config ↦
    match config.strField "thinkingLevel" with
    | some level => some (.level (toAsciiLowercase level))
    | none => ((config.get "thinkingBudget").bind budgetSignal).map fun budget ↦
      if budget = 0 then .off
      else if budget < 0 then .auto
      else .budget budget.toNat
  match gemini with
  | some intent => some intent
  | none =>
    match (body.get "enable_thinking").bind Json.asBool with
    | some false => some .off
    | some true => some (((positiveBudget (body.get "thinking_budget")).map .budget).getD .auto)
    | none => none

/-- `extract_thinking`, `thinking.rs:214`. -/
def extractThinking (body : Json) : Option ThinkingIntent :=
  match ((body.get "output_config").bind (·.strField "effort")).filter (!·.isEmpty) with
  | some effort => some (intentFromEffort effort)
  | none =>
    match claudeIntent body with
    | some intent => some intent
    | none =>
      match openaiEffort body with
      | some effort => some (intentFromEffort effort)
      | none => extractGeminiOrQwen body

/-- The fields that `strip_all` takes out. -/
def thinkingFields : List String :=
  ["thinking", "reasoning_effort", "reasoning", "thinkingConfig", "enable_thinking",
    "thinking_budget", "output_config"]

/-- `get_mut` and a change to the field, where there is one. -/
def updateField (v : Json) (key : String) (change : Json → Json) : Json :=
  match v.get key with
  | some value => v.setField key (change value)
  | none => v

/-- `strip_all`, `thinking.rs:298`. -/
def stripAll (body : Json) : Json :=
  let body := thinkingFields.foldl Json.eraseField body
  let body := updateField body "generationConfig" (·.eraseField "thinkingConfig")
  updateField body "request" fun request ↦
    updateField request "generationConfig" (·.eraseField "thinkingConfig")

/-- `native_format`, `thinking.rs:330`. -/
def nativeFormat : Format → ThinkingFormat
  | .claude => .claudeBudget
  | .gemini | .geminiCli | .vertex | .antigravity => .geminiBudget
  | .kiro => .kiro
  | .openAi | .openAiResponses | .codex | .cursor | .ollama | .commandCode | .grokWeb
  | .perplexityWeb => .openAi

/-- `i64::try_from` of a count. -/
def toI64 (n : Nat) : Option Int := if n < 2 ^ 63 then some (n : Int) else none

/-- A budget raised to the least and lowered to the most of a range. -/
def clampBudget (range : Option ThinkingRange) (budget : Int) : Int :=
  match range with
  | none => budget
  | some range =>
    let budget := ((range.min.bind toI64).map (max budget)).getD budget
    ((range.max.bind toI64).map (min budget)).getD budget

/-- `to_budget`, `thinking.rs:352`. -/
def toBudget (intent : ThinkingIntent) (range : Option ThinkingRange) : Option Int :=
  match intent with
  | .auto => some (-1)
  | .off => none
  | .budget budget => (toI64 budget).map (clampBudget range)
  | .level level => ((levelToBudget level).bind toI64).map (clampBudget range)

/-- `to_level`, `thinking.rs:373`. -/
def toLevel : ThinkingIntent → Option String
  | .off => none
  | .auto => some "auto"
  | .level level => some level
  | .budget budget => some ((budgetToLevel budget).getD "medium")

/-- `normalize_openai_level`, `thinking.rs:391`. -/
def normalizeOpenaiLevel (level : String) (supported : Option (List String)) : String :=
  if level ≠ "max" ∧ level ≠ "ultra" then level
  else if supported.any (·.contains level) then level
  else if level = "ultra" ∧ supported.any (·.contains "max") then "max"
  else "xhigh"

/-- `to_gemini_thinking_level`, `thinking.rs:405`. -/
def toGeminiThinkingLevel (intent : ThinkingIntent) : String :=
  effortToThinkingLevel (if intent = .auto then "high" else (toLevel intent).getD "high")

/-- `to_kimi_reasoning_effort`, `thinking.rs:415`. -/
def toKimiReasoningEffort (intent : ThinkingIntent) : Option String :=
  (toLevel intent).bind fun level ↦
    if level = "auto" then some "high"
    else if level = "minimal" then some "low"
    else if level = "xhigh" then some "max"
    else if level = "low" ∨ level = "medium" ∨ level = "high" ∨ level = "max" then some level
    else none

/-- `gemini_level_output_floor`, `thinking.rs:431`. -/
def geminiLevelOutputFloor (level : String) : Nat :=
  if level = "minimal" then 4096
  else if level = "low" then 8192
  else if level = "medium" then 16384
  else 65535

/-- `gemini_budget_output_floor`, `thinking.rs:441`. -/
def geminiBudgetOutputFloor (budget : Int) : Nat :=
  if budget < 0 then 32768
  else if budget ≤ 1024 then 8192
  else if budget ≤ 8192 then 16384
  else if budget ≤ 24576 then 32768
  else 65535

/-- An object under a key, made where there is none, and changed. -/
def updateObject (v : Json) (key : String) (change : Json → Json) : Json :=
  let object := ((v.get key).filter (·.asObject.isSome)).getD (Json.object [])
  v.setField key (change object)

/-- A change to `gemini_generation_config`, `thinking.rs:461`. -/
def updateGenerationConfig (body : Json) (change : Json → Json) : Json :=
  if ((body.get "request").bind Json.asObject).isSome then
    updateField body "request" (updateObject · "generationConfig" change)
  else updateObject body "generationConfig" change

/-- `set_gemini_thinking`, `thinking.rs:536`. -/
def setGeminiThinking (body config : Json) : Json :=
  updateGenerationConfig body (·.setField "thinkingConfig" config)

/-- `ensure_gemini_output_floor`, `thinking.rs:546`. -/
def ensureGeminiOutputFloor (body : Json) (floor maxOutput : Nat) : Json :=
  let target := min floor maxOutput
  updateGenerationConfig body fun generation ↦
    if ((generation.get "maxOutputTokens").bind Json.asU64).any (target ≤ ·) then generation
    else generation.setField "maxOutputTokens" (Json.nat target)

/-- A `thinking` of a type. -/
def thinkingOf (kind : String) : Json := Json.object [("type", .str kind)]

/-- A `thinking` with a budget. -/
def enabledWith (budget : Nat) : Json :=
  Json.object [("type", .str "enabled"), ("budget_tokens", Json.nat budget)]

/-- `apply_claude_adaptive`, `thinking.rs:557`. -/
def applyClaudeAdaptive (body : Json) (intent : ThinkingIntent) (disable : Bool) : Json :=
  if disable then body.setField "thinking" (thinkingOf "disabled")
  else
    let body := body.setField "thinking" (thinkingOf "adaptive")
    match toLevel intent with
    | some level => body.setField "output_config"
        (Json.object [("effort", .str (if level = "xhigh" then "high" else level))])
    | none => body

/-- The budget of a request that leaves it open. -/
def defaultBudget : Nat := 8192

/-- `apply_budget_thinking`, `thinking.rs:578`. Where the budget is left open a missing
`max_tokens` counts as 0; elsewhere it stays missing. -/
def applyBudgetThinking (body : Json) (intent : ThinkingIntent) (range : Option ThinkingRange)
    (disable : Bool) : Json :=
  if disable then body.setField "thinking" (thinkingOf "disabled")
  else
    let currentMax := (body.get "max_tokens").bind Json.asU64
    let withBudget := fun (budget : Nat) (raise : Bool) ↦
      (if raise then body.setField "max_tokens" (Json.nat (budget + 4096)) else body).setField
        "thinking" (enabledWith budget)
    match toBudget intent range with
    | some (-1) => withBudget defaultBudget (currentMax.getD 0 ≤ defaultBudget)
    | some budget =>
      if 0 < budget then withBudget budget.toNat (currentMax.any (· ≤ budget.toNat))
      else withBudget defaultBudget (currentMax.any (· ≤ defaultBudget))
    | none => withBudget defaultBudget (currentMax.any (· ≤ defaultBudget))

/-- `apply_gemini_level`, `thinking.rs:626`. -/
def applyGeminiLevel (body : Json) (intent : ThinkingIntent) (caps : Capabilities) (off : Bool) :
    Json :=
  let level := if off then "minimal" else toGeminiThinkingLevel intent
  ensureGeminiOutputFloor (setGeminiThinking body (Json.object [("thinkingLevel", .str level),
    ("includeThoughts", .bool (level ≠ "minimal"))])) (geminiLevelOutputFloor level)
    caps.maxOutput

/-- `apply_gemini_budget`, `thinking.rs:647`. -/
def applyGeminiBudget (body : Json) (intent : ThinkingIntent) (caps : Capabilities)
    (disable : Bool) : Json :=
  if disable then setGeminiThinking body
    (Json.object [("thinkingBudget", Json.nat 0), ("includeThoughts", .bool false)])
  else
    let budget := (toBudget intent caps.thinkingRange).getD (-1)
    ensureGeminiOutputFloor (setGeminiThinking body
      (Json.object [("thinkingBudget", ofI64 budget), ("includeThoughts", .bool true)]))
      (geminiBudgetOutputFloor budget) caps.maxOutput

/-- `apply_zai`, `thinking.rs:670`. -/
def applyZai (body : Json) (disable : Bool) : Json :=
  if disable then (body.setField "enable_thinking" (.bool false)).eraseField "thinking"
  else body.setField "thinking" (thinkingOf "enabled")

/-- `apply_qwen`, `thinking.rs:682`. -/
def applyQwen (body : Json) (intent : ThinkingIntent) (range : Option ThinkingRange)
    (disable : Bool) : Json :=
  if disable then body.setField "enable_thinking" (.bool false)
  else
    let body := body.setField "enable_thinking" (.bool true)
    match (toBudget intent range).filter (0 < ·) with
    | some budget => body.setField "thinking_budget" (ofI64 budget)
    | none => body

/-- `apply_deepseek`, `thinking.rs:699`. -/
def applyDeepseek (body : Json) (intent : ThinkingIntent) (disable : Bool) : Json :=
  if disable then body.setField "thinking" (thinkingOf "disabled")
  else
    let level := toLevel intent
    (body.setField "thinking" (thinkingOf "enabled")).setField "reasoning_effort"
      (.str (if level = some "xhigh" ∨ level = some "max" then "max" else "high"))

/-- `apply_kimi`, `thinking.rs:715`. -/
def applyKimi (body : Json) (intent : ThinkingIntent) (disable : Bool) : Json :=
  if disable then body.setField "thinking" (thinkingOf "disabled")
  else match toKimiReasoningEffort intent with
    | some effort => body.setField "reasoning_effort" (.str effort)
    | none => body

/-- `apply_step`, `thinking.rs:726`. -/
def applyStep (body : Json) (intent : ThinkingIntent) (disable : Bool) : Json :=
  if disable then body
  else match toLevel intent with
    | some level => body.setField "reasoning_effort"
        (.str (if level = "xhigh" ∨ level = "max" then "high" else level))
    | none => body

/-- `apply_tokenrouter`, `thinking.rs:742`. -/
def applyTokenrouter (body : Json) (intent : ThinkingIntent) (off : Bool) : Json :=
  if off ∨ intent = .auto then body
  else match toLevel intent with
    | some level => body.setField "reasoning_effort" (.str level)
    | none => body

/-- `apply_format`, `thinking.rs:481`. -/
def applyFormat (format : ThinkingFormat) (body : Json) (intent : ThinkingIntent)
    (caps : Capabilities) (supported : Option (List String)) : Json :=
  let off := decide (intent = .off)
  let effective := if off && !caps.thinkingCanDisable then .level "minimal" else intent
  let disable := off && caps.thinkingCanDisable
  match format with
  | .openAi =>
    if disable then body.setField "reasoning_effort" (.str "none")
    else match toLevel effective with
      | some level => body.setField "reasoning_effort" (.str (normalizeOpenaiLevel level supported))
      | none => body
  | .claudeAdaptive => applyClaudeAdaptive body effective disable
  | .claudeBudget | .hunyuan => applyBudgetThinking body effective caps.thinkingRange disable
  | .geminiLevel => applyGeminiLevel body effective caps off
  | .geminiBudget => applyGeminiBudget body effective caps disable
  | .zai => applyZai body disable
  | .qwen => applyQwen body effective caps.thinkingRange disable
  | .deepSeek => applyDeepseek body effective disable
  | .kimi => applyKimi body effective disable
  | .miniMax =>
    body.setField "thinking" (thinkingOf (if disable then "disabled" else "adaptive"))
  | .step => applyStep body effective disable
  | .tokenRouter => applyTokenrouter body effective off
  | .kiro | .unrecognized => body

/-- `apply`, `thinking.rs:760`. -/
def apply (catalogue : Catalogue) (target : Format) (provider model : String) (body : Json)
    (intent : Option ThinkingIntent) : Json :=
  let (cleanModel, suffix) := parseSuffix model
  let caps := catalogue.capabilities provider cleanModel
  if !caps.reasoning then stripAll body
  else match (suffix.or intent).or (extractThinking body) with
    | none => body
    | some resolved =>
      applyFormat (caps.thinkingFormat.getD (nativeFormat target)) (stripAll body) resolved caps
        (catalogue.thinkingLevels provider cleanModel)

end Thinking
end NullRouter.Translate
