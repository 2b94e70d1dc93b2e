import Mathlib
import NullRouter.Translate.ThinkingBudget

/-!
# The order of thinking efforts

Whether a greater effort or budget is written as at least as much,
`crates/translate/src/thinking.rs:50–80,352–430,481–760`: the names and the budgets are mapped by
different tables for each shape.
-/

namespace NullRouter.Translate

open NullRouter.Base Thinking ThinkingBudget

namespace ThinkingOrder

/-- The order of the effort names; the greatest three are not ordered among themselves. -/
def effortRank : String → Option Nat
  | "none" => some 0
  | "minimal" => some 1
  | "low" => some 2
  | "medium" => some 3
  | "high" => some 4
  | "xhigh" => some 5
  | "max" => some 5
  | "ultra" => some 5
  | _ => none

/-- The place of an intent among the effort names; thinking that is off has the effort `none`. -/
def intentRank : ThinkingIntent → Option Nat
  | .off => some 0
  | .level level => effortRank level
  | _ => none

/-- One effort, or one budget, is ordered below another. -/
inductive Below : ThinkingIntent → ThinkingIntent → Prop where
  | effort {a b : ThinkingIntent} {i j : Nat} :
    intentRank a = some i → intentRank b = some j → i < j → Below a b
  | budget {m n : Nat} : m < n → Below (.budget m) (.budget n)

/-- A request as it comes to the thinking pass: the model with its suffix, the body, which is an
object, and what was read from the client's request. -/
structure Request where
  model : String
  fields : List (String × Json)
  carried : Option ThinkingIntent

namespace Request

/-- The body. -/
def body (r : Request) : Json := .obj r.fields

/-- The model without its suffix. -/
def cleanModel (r : Request) : String := (parseSuffix r.model).1

/-- What the request asks for: by the suffix, by the client's request, or by the body. -/
def asked (r : Request) : Option ThinkingIntent :=
  ((parseSuffix r.model).2.or r.carried).or (extractThinking r.body)

/-- The outgoing request. -/
def outgoing (catalogue : Catalogue) (target : Format) (provider : String) (r : Request) : Json :=
  Thinking.apply catalogue target provider r.model r.body r.carried

end Request

/-- A written budget. -/
def integerOf : Json → Option Int
  | .num (.posInt n) => some n
  | .num (.negInt n) => some n
  | _ => none

/-- How much a written budget is. -/
def tokensAmount (value : Option Json) : WithBot Int :=
  match value.bind integerOf with
  | some budget => budget
  | none => ⊥

/-- How much a written level is. -/
def levelAmount (level : Option String) : WithBot Int :=
  match level.bind effortRank with
  | some rank => (rank : Int)
  | none => ⊥

/-- Where a Gemini request holds what its thinking is written into. -/
def generationConfigOf (request : Json) : Option Json :=
  if ((request.get "request").bind Json.asObject).isSome then
    (request.get "request").bind (·.get "generationConfig")
  else request.get "generationConfig"

/-- The thinking of a Gemini request. -/
def thinkingConfigOf (request : Json) : Option Json :=
  (generationConfigOf request).bind (·.get "thinkingConfig")

/-- The budget or the level that a request of a shape holds; nothing is less than anything, and a
shape that only turns thinking on has one level. -/
def written (shape : ThinkingFormat) (request : Json) : WithBot Int :=
  match shape with
  | .openAi | .deepSeek | .kimi | .step | .tokenRouter =>
    levelAmount (request.strField "reasoning_effort")
  | .claudeAdaptive => levelAmount ((request.get "output_config").bind (·.strField "effort"))
  | .claudeBudget | .hunyuan =>
    tokensAmount ((request.get "thinking").bind (·.get "budget_tokens"))
  | .geminiLevel => levelAmount ((thinkingConfigOf request).bind (·.strField "thinkingLevel"))
  | .geminiBudget => tokensAmount ((thinkingConfigOf request).bind (·.get "thinkingBudget"))
  | .qwen => tokensAmount (request.get "thinking_budget")
  | .zai | .miniMax =>
    if (request.get "thinking").any (fun t ↦ hasType "enabled" t || hasType "adaptive" t) then
      (0 : Int)
    else ⊥
  | .kiro | .unrecognized => ⊥

/-- The shape of a model. -/
def shapeOf (catalogue : Catalogue) (target : Format) (provider model : String) :
    ThinkingFormat :=
  (catalogue.capabilities provider model).thinkingFormat.getD (nativeFormat target)

/-- The tokens that an intent stands for where thinking is not switched off: an "off" that the
model does not take is the smallest effort. -/
def counted : ThinkingIntent → Option Nat
  | .off => levelToBudget "minimal"
  | .auto => none
  | .level level => levelToBudget level
  | .budget tokens => if tokens < 2 ^ 63 then some tokens else none

/-- A range brings tokens down to no more than a count: by its most, or they and its least are no
more themselves. -/
def AtMost (range : Option ThinkingRange) (tokens : Nat) (count : Int) : Prop :=
  (∃ high ∈ (range.bind (·.max)).bind toI64, high ≤ count) ∨
    ((tokens : Int) ≤ count ∧ ∀ low ∈ (range.bind (·.min)).bind toI64, low ≤ count)

/-- The model takes an intent to switch thinking off. -/
def SwitchesOff (caps : Capabilities) (intent : ThinkingIntent) : Prop :=
  intent = .off ∧ caps.thinkingCanDisable = true

/-- Where the lower budget is 0, which becomes a medium effort, the greater one is of no lower
effort. -/
def ZeroIsNoMore (a b : ThinkingIntent) : Prop :=
  a = .budget 0 → ∀ n, b = .budget n → 4096 < n

/-- When a shape keeps the order of two intents. -/
def Keeps (shape : ThinkingFormat) (caps : Capabilities) (a b : ThinkingIntent) : Prop :=
  match shape with
  | .openAi | .claudeAdaptive | .geminiLevel | .step | .tokenRouter => ZeroIsNoMore a b
  | .kimi =>
    ZeroIsNoMore a b ∧ (b = .level "ultra" → SwitchesOff caps a ∨ a = .level "none")
  | .claudeBudget | .hunyuan =>
    SwitchesOff caps a ∨ ∀ tokens ∈ counted a, match counted b with
      | none => AtMost caps.thinkingRange tokens defaultBudget
      | some more => AtMost caps.thinkingRange tokens 0 →
        AtMost caps.thinkingRange more 0 ∨ ¬AtMost caps.thinkingRange more (defaultBudget - 1)
  | .geminiBudget => counted b = none → counted a = none
  | .qwen =>
    counted b = none → SwitchesOff caps a ∨ ∀ tokens ∈ counted a, AtMost caps.thinkingRange tokens 0
  | .zai | .miniMax | .deepSeek | .kiro | .unrecognized => True

section Written

variable {body : Json} {shape : ThinkingFormat} {caps : Capabilities} {intent : ThinkingIntent}

/-- How much a shape writes of an intent that switches nothing off. -/
def amount (shape : ThinkingFormat) (range : Option ThinkingRange) (intent : ThinkingIntent) :
    WithBot Int :=
  match shape with
  | .openAi | .tokenRouter => levelAmount (toLevel intent)
  | .claudeAdaptive =>
    levelAmount ((toLevel intent).map fun level ↦ if level = "xhigh" then "high" else level)
  | .claudeBudget | .hunyuan => (((namedBudget intent range).getD defaultBudget : Nat) : Int)
  | .geminiLevel => levelAmount (some (toGeminiThinkingLevel intent))
  | .geminiBudget => (toBudget intent range).getD (-1)
  | .qwen => match (toBudget intent range).filter (0 < ·) with
    | some budget => budget
    | none => ⊥
  | .kimi => levelAmount (toKimiReasoningEffort intent)
  | .deepSeek => levelAmount (some (if toLevel intent = some "xhigh" ∨ toLevel intent = some "max"
      then "max" else "high"))
  | .step => levelAmount ((toLevel intent).map fun level ↦
      if level = "xhigh" ∨ level = "max" then "high" else level)
  | .zai | .miniMax => (0 : Int)
  | .kiro | .unrecognized => ⊥

/-- How much a shape writes of any intent. -/
def amountOf (shape : ThinkingFormat) (caps : Capabilities) (intent : ThinkingIntent) :
    WithBot Int :=
  if intent = .off then
    match shape with
    | .tokenRouter => ⊥
    | .geminiLevel => (1 : Int)
    | .openAi | .geminiBudget =>
      if caps.thinkingCanDisable then (0 : Int)
      else amount shape caps.thinkingRange (.level "minimal")
    | .claudeAdaptive | .claudeBudget | .hunyuan | .zai | .qwen | .kimi | .deepSeek | .miniMax
    | .step | .kiro | .unrecognized =>
      if caps.thinkingCanDisable then ⊥ else amount shape caps.thinkingRange (.level "minimal")
  else amount shape caps.thinkingRange intent

private theorem strField_set (hobject : body.asObject.isSome = true) (key level : String) :
    (body.setField key (.str level)).strField key = some level := by
  rw [Json.strField, Json.get_setField_self hobject]
  rfl

private theorem levelAmount_normalize (level : String) (supported : Option (List String)) :
    levelAmount (some (normalizeOpenaiLevel level supported)) = levelAmount (some level) := by
  unfold normalizeOpenaiLevel
  split
  · rfl
  · next hname =>
    have hlevel : level = "max" ∨ level = "ultra" := by
      by_contra hlevel
      exact hname (not_or.mp hlevel)
    rcases hlevel with rfl | rfl
    · split
      · rfl
      · split <;> rfl
    · split
      · rfl
      · split <;> rfl

private theorem integerOf_nat (n : Nat) : integerOf (Json.nat n) = some (n : Int) := rfl

private theorem integerOf_ofI64 (n : Int) : integerOf (ofI64 n) = some n := by
  unfold ofI64
  split
  · rfl
  · next hn =>
    rw [integerOf_nat, Int.toNat_of_nonneg (by omega)]

private theorem generationConfigOf_update (hobject : body.asObject.isSome = true)
    (change : Json → Json) : generationConfigOf (updateGenerationConfig body change) =
      some (change (((generationConfigOf body).filter (·.asObject.isSome)).getD
        (Json.object []))) := by
  unfold updateGenerationConfig generationConfigOf
  split
  · next hrequest =>
    obtain ⟨fields, hfields⟩ := Option.isSome_iff_exists.mp hrequest
    obtain ⟨request, hbody, hrequest'⟩ := Option.bind_eq_some_iff.mp hfields
    have hget : (updateField body "request" (updateObject · "generationConfig" change)).get
        "request" = some (updateObject request "generationConfig" change) := by
      rw [get_updateField_self, hbody, Option.map_some]
    have hupdated : (updateObject request "generationConfig" change).asObject.isSome = true := by
      rw [updateObject, Json.isSome_asObject_setField, hrequest']
      rfl
    rw [hget, Option.bind_some, if_pos hupdated, Option.bind_some, hbody, Option.bind_some,
      updateObject, Json.get_setField_self (by rw [hrequest']; rfl)]
  · next hrequest =>
    have hget : (updateObject body "generationConfig" change).get "request" =
        body.get "request" := by
      rw [updateObject, Json.get_setField_of_ne (by decide)]
    rw [hget, if_neg hrequest, updateObject, Json.get_setField_self hobject]

private theorem thinkingConfigOf_set (hobject : body.asObject.isSome = true) (config : Json) :
    thinkingConfigOf (setGeminiThinking body config) = some config := by
  rw [thinkingConfigOf, setGeminiThinking, generationConfigOf_update hobject, Option.bind_some]
  apply Json.get_setField_self
  cases h : (generationConfigOf body).filter (·.asObject.isSome) with
  | none => rfl
  | some generation => exact (Option.filter_eq_some_iff.mp h).2

private theorem isSome_asObject_update (change : Json → Json) :
    (updateGenerationConfig body change).asObject.isSome = body.asObject.isSome := by
  unfold updateGenerationConfig
  split
  · exact isSome_asObject_updateField ..
  · exact Json.isSome_asObject_setField ..

private theorem thinkingConfigOf_floor (hobject : body.asObject.isSome = true)
    (floor maxOutput : Nat) :
    thinkingConfigOf (ensureGeminiOutputFloor body floor maxOutput) = thinkingConfigOf body := by
  have hkeep : ∀ generation : Json, (if ((generation.get "maxOutputTokens").bind Json.asU64).any
      (min floor maxOutput ≤ ·) then generation
      else generation.setField "maxOutputTokens" (Json.nat (min floor maxOutput))).get
        "thinkingConfig" = generation.get "thinkingConfig" := by
    intro generation
    split
    · rfl
    · rw [Json.get_setField_of_ne (by decide)]
  unfold ensureGeminiOutputFloor thinkingConfigOf
  rw [generationConfigOf_update hobject, Option.bind_some]
  refine (hkeep _).trans ?_
  cases generationConfigOf body with
  | none => rfl
  | some generation =>
    rw [Option.filter_some, Option.bind_some]
    split
    · rfl
    · next hnot =>
      cases generation with
      | obj fields => exact absurd rfl hnot
      | _ => rfl

private theorem get_enabledWith (budget : Nat) :
    (enabledWith budget).get "budget_tokens" = some (Json.nat budget) := by
  simp [enabledWith, Json.get_object]

private theorem written_geminiLevel (hobject : body.asObject.isSome = true) (level : String)
    (maxOutput : Nat) :
    written .geminiLevel (ensureGeminiOutputFloor (setGeminiThinking body (Json.object
      [("thinkingLevel", .str level), ("includeThoughts", .bool (level ≠ "minimal"))]))
      (geminiLevelOutputFloor level) maxOutput) = levelAmount (some level) := by
  rw [written, thinkingConfigOf_floor (by rwa [setGeminiThinking, isSome_asObject_update]),
    thinkingConfigOf_set hobject, Option.bind_some, Json.strField_object]
  simp [List.lookup_cons, Json.asStr]

private theorem written_asking (hobject : body.asObject.isSome = true)
    (hnone : ∀ key ∈ thinkingFields, body.get key = none) (supported : Option (List String))
    (h : intent ≠ .off) :
    written shape (applyFormat shape body intent caps supported) =
      amount shape caps.thinkingRange intent := by
  have heffort : body.strField "reasoning_effort" = none := by
    rw [Json.strField, hnone _ (by decide)]
    rfl
  unfold applyFormat
  simp only [h, decide_false, Bool.false_and, Bool.false_eq_true, ↓reduceIte]
  cases shape with
  | openAi =>
    rw [amount, written]
    cases toLevel intent with
    | none => rw [heffort]
    | some level => rw [strField_set hobject, levelAmount_normalize]
  | claudeAdaptive =>
    rw [amount, applyClaudeAdaptive, if_neg Bool.false_ne_true, written]
    cases toLevel intent with
    | none =>
      rw [Json.get_setField_of_ne (by decide), hnone _ (by decide)]
      rfl
    | some level =>
      rw [Json.get_setField_self (by rwa [Json.isSome_asObject_setField])]
      rfl
  | claudeBudget | hunyuan =>
    rw [amount, written, (applyBudgetThinking_enabled hobject intent caps.thinkingRange).1,
      Option.bind_some, get_enabledWith]
    rfl
  | geminiLevel =>
    rw [amount, applyGeminiLevel, if_neg Bool.false_ne_true]
    exact written_geminiLevel hobject _ _
  | geminiBudget =>
    rw [amount, applyGeminiBudget, if_neg Bool.false_ne_true, written, thinkingConfigOf_floor,
      thinkingConfigOf_set hobject, Option.bind_some]
    · rw [tokensAmount, Json.get_object]
      simp [List.lookup_cons, integerOf_ofI64]
    · rwa [setGeminiThinking, isSome_asObject_update]
  | zai =>
    rw [amount, applyZai, if_neg Bool.false_ne_true, written, Json.get_setField_self hobject]
    rfl
  | qwen =>
    rw [amount, applyQwen, if_neg Bool.false_ne_true, written]
    cases (toBudget intent caps.thinkingRange).filter (0 < ·) with
    | none =>
      rw [Json.get_setField_of_ne (by decide), hnone _ (by decide)]
      rfl
    | some budget =>
      rw [Json.get_setField_self (by rwa [Json.isSome_asObject_setField]), tokensAmount,
        Option.bind_some, integerOf_ofI64]
  | kimi =>
    rw [amount, applyKimi, if_neg Bool.false_ne_true, written]
    cases toKimiReasoningEffort intent with
    | none => rw [heffort]
    | some level => rw [strField_set hobject]
  | deepSeek =>
    rw [amount, applyDeepseek, if_neg Bool.false_ne_true, written,
      strField_set (by rwa [Json.isSome_asObject_setField])]
  | miniMax =>
    rw [amount, written, Json.get_setField_self hobject]
    rfl
  | step =>
    rw [amount, applyStep, if_neg Bool.false_ne_true, written]
    cases toLevel intent with
    | none => rw [heffort]; rfl
    | some level => rw [strField_set hobject]; rfl
  | tokenRouter =>
    rw [amount, applyTokenrouter, written]
    by_cases hauto : intent = .auto
    · subst hauto
      rw [if_pos (.inr rfl), heffort]
      rfl
    · rw [if_neg (by simp [hauto])]
      cases toLevel intent with
      | none => rw [heffort]
      | some level => rw [strField_set hobject]
  | kiro | unrecognized => rfl

private theorem written_off (hobject : body.asObject.isSome = true)
    (hnone : ∀ key ∈ thinkingFields, body.get key = none) (supported : Option (List String)) :
    written shape (applyFormat shape body .off caps supported) = amountOf shape caps .off := by
  have heffort : body.strField "reasoning_effort" = none := by
    rw [Json.strField, hnone _ (by decide)]
    rfl
  cases hcan : caps.thinkingCanDisable with
  | false =>
    have hminimal := @written_asking body shape caps (.level "minimal") hobject hnone supported
      (by simp)
    cases shape with
    | geminiLevel => exact written_geminiLevel hobject "minimal" caps.maxOutput
    | tokenRouter =>
      rw [applyFormat, applyTokenrouter, if_pos (.inl rfl), written, heffort]
      rfl
    | _ =>
      simp only [amountOf, hcan, ↓reduceIte, Bool.false_eq_true]
      rw [← hminimal]
      simp [applyFormat, hcan]
  | true =>
    cases shape with
    | geminiLevel => exact written_geminiLevel hobject "minimal" caps.maxOutput
    | tokenRouter =>
      rw [applyFormat, applyTokenrouter, if_pos (.inl rfl), written, heffort]
      rfl
    | openAi =>
      simp only [applyFormat, hcan, amountOf, decide_true, Bool.and_self, ↓reduceIte, written]
      rw [strField_set hobject]
      rfl
    | claudeAdaptive =>
      simp only [applyFormat, hcan, amountOf, decide_true, Bool.and_self, ↓reduceIte, written,
        applyClaudeAdaptive]
      rw [Json.get_setField_of_ne (by decide), hnone _ (by decide)]
      rfl
    | claudeBudget | hunyuan | miniMax =>
      simp only [applyFormat, hcan, amountOf, decide_true, Bool.and_self, ↓reduceIte, written,
        applyBudgetThinking]
      rw [Json.get_setField_self hobject]
      decide
    | geminiBudget =>
      simp only [applyFormat, hcan, amountOf, decide_true, Bool.and_self, ↓reduceIte, written,
        applyGeminiBudget]
      rw [thinkingConfigOf_set hobject]
      decide
    | zai =>
      simp only [applyFormat, hcan, amountOf, decide_true, Bool.and_self, ↓reduceIte, written,
        applyZai]
      rw [Json.get_eraseField_self]
      rfl
    | qwen =>
      simp only [applyFormat, hcan, amountOf, decide_true, Bool.and_self, ↓reduceIte, written,
        applyQwen]
      rw [Json.get_setField_of_ne (by decide), hnone _ (by decide)]
      rfl
    | deepSeek | kimi =>
      simp only [applyFormat, hcan, amountOf, decide_true, Bool.and_self, ↓reduceIte, written,
        applyDeepseek, applyKimi]
      rw [Json.strField, Json.get_setField_of_ne (by decide), hnone _ (by decide)]
      rfl
    | step =>
      simp only [applyFormat, hcan, amountOf, decide_true, Bool.and_self, ↓reduceIte, written,
        applyStep]
      rw [heffort]
      rfl
    | kiro | unrecognized => simp [amountOf, written, hcan]

end Written

section Budgets

variable {range : Option ThinkingRange} {caps : Capabilities} {a b : ThinkingIntent}

private theorem clampBudget_le_iff (tokens : Nat) (count : Int) :
    clampBudget range tokens ≤ count ↔ AtMost range tokens count := by
  unfold AtMost
  cases range with
  | none => simp [clampBudget]
  | some range =>
    simp only [clampBudget, Option.bind_some, Option.mem_def]
    cases range.min.bind toI64 <;> cases range.max.bind toI64
    all_goals simp only [Option.map_none, Option.map_some, Option.getD_none, Option.getD_some,
      reduceCtorEq, false_and, exists_false, false_or, Option.some.injEq, forall_eq',
      exists_eq_left', IsEmpty.forall_iff, implies_true, and_true]
    all_goals omega

private theorem nonneg_of_toI64 {n : Option Nat} {high : Int} (h : n.bind toI64 = some high) :
    0 ≤ high := by
  obtain ⟨count, -, hcount⟩ := Option.bind_eq_some_iff.mp h
  unfold toI64 at hcount
  split at hcount
  · cases hcount
    exact Int.natCast_nonneg count
  · cases hcount

private theorem clampBudget_nonneg (tokens : Nat) : 0 ≤ clampBudget range tokens := by
  by_contra hneg
  have hmost : clampBudget range tokens ≤ -1 := by omega
  rcases (clampBudget_le_iff tokens _).mp hmost with ⟨high, hhigh, hle⟩ | ⟨hle, -⟩
  · have hnonneg := nonneg_of_toI64 hhigh
    omega
  · omega

private theorem clampBudget_mono {tokens more : Nat} (h : tokens ≤ more) :
    clampBudget range tokens ≤ clampBudget range more := by
  rw [clampBudget_le_iff]
  rcases (clampBudget_le_iff more (clampBudget range more)).mp le_rfl with hhigh | ⟨hle, hlow⟩
  · exact .inl hhigh
  · exact .inr ⟨by omega, hlow⟩

/-- What is asked for where thinking is not switched off. -/
def asking : ThinkingIntent → ThinkingIntent
  | .off => .level "minimal"
  | intent => intent

private theorem toBudget_asking (h : a ≠ .auto) :
    toBudget (asking a) range = (counted a).map fun tokens : Nat ↦ clampBudget range tokens := by
  have hlevel : ∀ level : String, toBudget (.level level) range =
      (levelToBudget level).map fun tokens : Nat ↦ clampBudget range tokens := by
    intro level
    rw [toBudget]
    unfold levelToBudget
    split <;> rfl
  cases a with
  | off => exact hlevel "minimal"
  | auto => exact absurd rfl h
  | level level => exact hlevel level
  | budget tokens =>
    simp only [asking, toBudget, counted, toI64]
    split <;> rfl

/-- The intents that have an effort name. -/
def named : List ThinkingIntent :=
  .off :: ["none", "minimal", "low", "medium", "high", "xhigh", "max", "ultra"].map .level

private theorem mem_named {i : Nat} (h : intentRank a = some i) : a ∈ named := by
  cases a with
  | off => decide
  | level level =>
    simp only [intentRank] at h
    unfold effortRank at h
    split at h
    all_goals first | decide | cases h
  | auto => cases h
  | budget tokens => cases h

private theorem counted_of_named : ∀ a ∈ named, ∀ b ∈ named, ∀ i ∈ intentRank a,
    ∀ j ∈ intentRank b, i < j → b ≠ .off ∧ a ≠ .auto ∧ b ≠ .auto ∧
      counted a ≠ none ∧ ∀ tokens ∈ counted a, ∀ more ∈ counted b, tokens ≤ more := by
  decide

private theorem counted_of_below (h : Below a b) :
    b ≠ .off ∧ a ≠ .auto ∧ b ≠ .auto ∧ (counted a = none → counted b = none) ∧
      ∀ tokens ∈ counted a, ∀ more ∈ counted b, tokens ≤ more := by
  cases h with
  | effort hi hj hlt =>
    obtain ⟨hoff, hauto, hauto', hsome, hle⟩ :=
      counted_of_named a (mem_named hi) b (mem_named hj) _ hi _ hj hlt
    exact ⟨hoff, hauto, hauto', fun hnone ↦ absurd hnone hsome, hle⟩
  | budget hlt =>
    refine ⟨nofun, nofun, nofun, fun hnone ↦ ?_, fun tokens htokens more hmore ↦ ?_⟩
    · simp only [counted, ite_eq_right_iff, reduceCtorEq, imp_false] at hnone ⊢
      omega
    · simp only [counted, Option.mem_def, Option.ite_none_right_eq_some,
        Option.some.injEq] at htokens hmore
      omega

private theorem amount_budget (h : a ≠ .auto) :
    amount .claudeBudget range (asking a) = ((match counted a with
      | none => (defaultBudget : Int)
      | some tokens => if 0 < clampBudget range tokens then clampBudget range tokens
          else defaultBudget) : Int) := by
  rw [amount, namedBudget, toBudget_asking h]
  cases counted a with
  | none => rfl
  | some tokens =>
    have hnonneg := @clampBudget_nonneg range tokens
    by_cases hpos : 0 < clampBudget range tokens
    · simp [hpos, Option.filter_some, Int.toNat_of_nonneg hnonneg]
    · simp [hpos, Option.filter_some]

private theorem budget_le_iff (h : Below a b) :
    (amount .claudeBudget range (asking a) ≤ amount .claudeBudget range (asking b)) ↔
      ∀ tokens ∈ counted a, match counted b with
        | none => AtMost range tokens defaultBudget
        | some more => AtMost range tokens 0 →
          AtMost range more 0 ∨ ¬AtMost range more (defaultBudget - 1) := by
  obtain ⟨-, hauto, hauto', hnone, hle⟩ := counted_of_below h
  rw [amount_budget hauto, amount_budget hauto', WithBot.coe_le_coe]
  simp only [← clampBudget_le_iff, defaultBudget]
  cases ha : counted a with
  | none => simp [hnone ha]
  | some tokens =>
    cases hb : counted b with
    | none =>
      simp only [Option.mem_def, Option.some.injEq, forall_eq']
      split <;> omega
    | some more =>
      have hmono := @clampBudget_mono range _ _ (hle tokens ha more hb)
      have hnonneg := @clampBudget_nonneg range tokens
      simp only [Option.mem_def, Option.some.injEq, forall_eq']
      split <;> split <;> omega

private theorem geminiBudget_le_iff (h : Below a b) :
    (amount .geminiBudget range (asking a) ≤ amount .geminiBudget range (asking b)) ↔
      (counted b = none → counted a = none) := by
  obtain ⟨-, hauto, hauto', hnone, hle⟩ := counted_of_below h
  rw [amount, amount, toBudget_asking hauto, toBudget_asking hauto', WithBot.coe_le_coe]
  cases ha : counted a with
  | none => simp [hnone ha]
  | some tokens =>
    have hnonneg := @clampBudget_nonneg range tokens
    cases hb : counted b with
    | none =>
      apply iff_of_false
      · simp only [Option.map_some, Option.map_none, Option.getD_some, Option.getD_none]
        omega
      · simp
    | some more => simpa using clampBudget_mono (hle tokens ha more hb)

private theorem zero_le_geminiBudget (h : Below .off b) :
    ((0 : Int) : WithBot Int) ≤ amount .geminiBudget range (asking b) ↔
      (counted b = none → counted .off = none) := by
  obtain ⟨-, -, hauto, -⟩ := counted_of_below h
  rw [amount, toBudget_asking hauto, WithBot.coe_le_coe]
  cases counted b with
  | none =>
    apply iff_of_false
    · simp
    · simp [counted, levelToBudget]
  | some more => simpa using clampBudget_nonneg more

private theorem qwen_le_iff (h : Below a b) :
    (amount .qwen range (asking a) ≤ amount .qwen range (asking b)) ↔
      (counted b = none → ∀ tokens ∈ counted a, AtMost range tokens 0) := by
  obtain ⟨-, hauto, hauto', hnone, hle⟩ := counted_of_below h
  rw [amount, amount, toBudget_asking hauto, toBudget_asking hauto']
  simp only [← clampBudget_le_iff]
  cases ha : counted a with
  | none => simp [hnone ha]
  | some tokens =>
    by_cases hpos : 0 < clampBudget range tokens
    · cases hb : counted b with
      | none => simp [Option.filter_some, hpos]
      | some more =>
        have hmono := @clampBudget_mono range _ _ (hle tokens ha more hb)
        have hpos' : 0 < clampBudget range more := by omega
        simpa [Option.filter_some, hpos, hpos'] using hmono
    · have hzero : clampBudget range tokens ≤ 0 := by omega
      simp [Option.filter_some, if_neg hpos, hzero]

end Budgets

section Levels

variable {range : Option ThinkingRange} {caps : Capabilities} {a b : ThinkingIntent}

/-- The shapes that write a name of an effort for any of them, or only turn thinking on. -/
def nameShapes : List ThinkingFormat :=
  [.openAi, .claudeAdaptive, .geminiLevel, .step, .tokenRouter, .deepSeek, .zai, .miniMax, .kiro,
    .unrecognized]

private theorem named_le : ∀ shape ∈ nameShapes, ∀ a ∈ named, ∀ b ∈ named, ∀ i ∈ intentRank a,
    ∀ j ∈ intentRank b, i < j → ∀ canDisable,
      amountOf shape { thinkingCanDisable := canDisable } a ≤
        amountOf shape { thinkingCanDisable := canDisable } b := by
  decide

private theorem kimi_named_le_iff : ∀ a ∈ named, ∀ b ∈ named, ∀ i ∈ intentRank a,
    ∀ j ∈ intentRank b, i < j → ∀ canDisable,
      (amountOf .kimi { thinkingCanDisable := canDisable } a ≤
        amountOf .kimi { thinkingCanDisable := canDisable } b ↔
      (b = .level "ultra" → (a = .off ∧ canDisable = true) ∨ a = .level "none")) := by
  decide

/-- Those that write nothing, or the same for all efforts up to `high`. -/
def flatShapes : List ThinkingFormat := [.deepSeek, .zai, .miniMax, .kiro, .unrecognized]

/-- The name that a budget becomes. -/
def bandOf (budget : Nat) : String := (budgetToLevel budget).getD "medium"

/-- The names that budgets become. -/
def bands : List String := ["minimal", "low", "medium", "high", "xhigh"]

/-- The place of that name. -/
def bandRank (budget : Nat) : Nat :=
  if budget = 0 then 3
  else if budget ≤ 768 then 1
  else if budget ≤ 4096 then 2
  else if budget ≤ 16384 then 3
  else if budget ≤ 28672 then 4
  else 5

private theorem effortRank_bandOf (budget : Nat) :
    effortRank (bandOf budget) = some (bandRank budget) := by
  unfold bandOf budgetToLevel bandRank
  split_ifs <;> rfl

private theorem bandOf_mem (budget : Nat) : bandOf budget ∈ bands := by
  unfold bandOf budgetToLevel
  split_ifs <;> decide

private theorem bandOf_low {budget : Nat} (h : 0 < budget) (hle : budget ≤ 4096) :
    bandOf budget ∈ ["minimal", "low"] := by
  unfold bandOf budgetToLevel
  rw [if_neg (by omega)]
  split_ifs <;> decide

private theorem bandRank_le {m n : Nat} (h : m < n) (hzero : m = 0 → 4096 < n) :
    bandRank m ≤ bandRank n := by
  unfold bandRank
  split_ifs <;> omega

private theorem band_le : ∀ shape ∈ .kimi :: nameShapes, ∀ x ∈ bands, ∀ y ∈ bands,
    ∀ i ∈ effortRank x, ∀ j ∈ effortRank y, i ≤ j →
      amount shape none (.level x) ≤ amount shape none (.level y) := by
  decide

private theorem medium_le_iff : ∀ shape ∈ .kimi :: nameShapes, ∀ y ∈ ["minimal", "low"],
    (amount shape none (.level "medium") ≤ amount shape none (.level y) ↔ shape ∈ flatShapes) := by
  decide

private theorem amountOf_budget {shape : ThinkingFormat} (hshape : shape ∈ .kimi :: nameShapes)
    (budget : Nat) :
    amountOf shape caps (.budget budget) = amount shape none (.level (bandOf budget)) := by
  simp only [nameShapes, List.mem_cons, List.not_mem_nil, or_false] at hshape
  rcases hshape with rfl | rfl | rfl | rfl | rfl | rfl | rfl | rfl | rfl | rfl | rfl
  all_goals rfl

private theorem budgets_le_iff {shape : ThinkingFormat} (hshape : shape ∈ .kimi :: nameShapes)
    {m n : Nat} (h : m < n) :
    amountOf shape caps (.budget m) ≤ amountOf shape caps (.budget n) ↔
      (m = 0 → 4096 < n) ∨ shape ∈ flatShapes := by
  rw [amountOf_budget hshape, amountOf_budget hshape]
  by_cases hzero : m = 0 → 4096 < n
  · exact iff_of_true (band_le shape hshape _ (bandOf_mem m) _ (bandOf_mem n) _
      (effortRank_bandOf m) _ (effortRank_bandOf n) (bandRank_le h hzero)) (.inl hzero)
  · obtain ⟨rfl, hn⟩ := Classical.not_imp.mp hzero
    rw [show bandOf 0 = "medium" from rfl,
      medium_le_iff shape hshape _ (bandOf_low h (by omega))]
    exact (or_iff_right hzero).symm

end Levels

section Order

variable {shape : ThinkingFormat} {caps : Capabilities} {a b : ThinkingIntent}

private theorem amountOf_caps (hshape : shape ∈ .kimi :: nameShapes) (intent : ThinkingIntent) :
    amountOf shape caps intent =
      amountOf shape { thinkingCanDisable := caps.thinkingCanDisable } intent := by
  simp only [nameShapes, List.mem_cons, List.not_mem_nil, or_false] at hshape
  rcases hshape with rfl | rfl | rfl | rfl | rfl | rfl | rfl | rfl | rfl | rfl | rfl
  all_goals rfl

private theorem intentRank_ne_budget {i m : Nat} (h : intentRank a = some i) : a ≠ .budget m := by
  rintro rfl
  cases h

private theorem names_le_iff (hshape : shape ∈ nameShapes) (h : Below a b) :
    amountOf shape caps a ≤ amountOf shape caps b ↔ ZeroIsNoMore a b ∨ shape ∈ flatShapes := by
  cases h with
  | effort hi hj hlt =>
    rw [amountOf_caps (List.mem_cons_of_mem _ hshape) a,
      amountOf_caps (List.mem_cons_of_mem _ hshape) b]
    exact iff_of_true (named_le shape hshape a (mem_named hi) b (mem_named hj) _ hi _ hj hlt _)
      (.inl fun hzero ↦ absurd hzero (intentRank_ne_budget hi))
  | budget hlt =>
    rw [budgets_le_iff (List.mem_cons_of_mem _ hshape) hlt]
    simp [ZeroIsNoMore]

private theorem kimi_le_iff (h : Below a b) :
    amountOf .kimi caps a ≤ amountOf .kimi caps b ↔ Keeps .kimi caps a b := by
  cases h with
  | effort hi hj hlt =>
    rw [amountOf_caps List.mem_cons_self a, amountOf_caps List.mem_cons_self b,
      kimi_named_le_iff a (mem_named hi) b (mem_named hj) _ hi _ hj hlt]
    exact (and_iff_right fun hzero ↦ absurd hzero (intentRank_ne_budget hi)).symm
  | budget hlt =>
    rw [budgets_le_iff List.mem_cons_self hlt]
    simp [Keeps, ZeroIsNoMore, flatShapes]

private theorem amountOf_eq (h : b ≠ .off) :
    amountOf shape caps b = amount shape caps.thinkingRange (asking b) := by
  unfold amountOf
  rw [if_neg h]
  cases b with
  | off => exact absurd rfl h
  | auto | level | budget => rfl

/-- What the budget shapes write of the lower intent: nothing, or no budget, where thinking is
switched off. -/
private theorem amountOf_budgetShape (hshape : shape = .claudeBudget ∨ shape = .qwen) :
    (SwitchesOff caps a → amountOf shape caps a = ⊥) ∧
      (¬SwitchesOff caps a → amountOf shape caps a =
        amount shape caps.thinkingRange (asking a)) := by
  constructor
  · rintro ⟨rfl, hcan⟩
    rcases hshape with rfl | rfl <;> simp [amountOf, hcan]
  · intro hon
    by_cases hoff : a = .off
    · subst hoff
      have hcan : caps.thinkingCanDisable = false := by simpa [SwitchesOff] using hon
      rcases hshape with rfl | rfl <;> simp [amountOf, hcan, asking]
    · exact amountOf_eq hoff

private theorem amountOf_le_iff (h : Below a b) :
    amountOf shape caps a ≤ amountOf shape caps b ↔ Keeps shape caps a b := by
  have hoff := (counted_of_below h).1
  have hclaude : amountOf .claudeBudget caps a ≤ amountOf .claudeBudget caps b ↔
      Keeps .claudeBudget caps a b := by
    rw [amountOf_eq hoff, Keeps]
    by_cases hswitch : SwitchesOff caps a
    · rw [(amountOf_budgetShape (.inl rfl)).1 hswitch]
      exact iff_of_true bot_le (.inl hswitch)
    · rw [(amountOf_budgetShape (.inl rfl)).2 hswitch, budget_le_iff h]
      exact (or_iff_right hswitch).symm
  cases shape with
  | openAi | claudeAdaptive | geminiLevel | step | tokenRouter =>
    rw [names_le_iff (by decide) h]
    exact or_iff_left (by decide)
  | zai | miniMax | deepSeek | kiro | unrecognized =>
    exact iff_of_true ((names_le_iff (by decide) h).mpr (.inr (by decide))) trivial
  | kimi => exact kimi_le_iff h
  | claudeBudget => exact hclaude
  | hunyuan => exact hclaude
  | qwen =>
    rw [amountOf_eq hoff, Keeps]
    by_cases hswitch : SwitchesOff caps a
    · rw [(amountOf_budgetShape (.inr rfl)).1 hswitch]
      exact iff_of_true bot_le fun _ ↦ .inl hswitch
    · rw [(amountOf_budgetShape (.inr rfl)).2 hswitch, qwen_le_iff h]
      simp only [hswitch, false_or]
  | geminiBudget =>
    rw [amountOf_eq hoff, Keeps]
    by_cases hswitch : SwitchesOff caps a
    · obtain ⟨rfl, hcan⟩ := hswitch
      simp only [amountOf, hcan, ↓reduceIte]
      exact zero_le_geminiBudget h
    · have hon : amountOf .geminiBudget caps a =
          amount .geminiBudget caps.thinkingRange (asking a) := by
        by_cases ha : a = .off
        · subst ha
          have hcan : caps.thinkingCanDisable = false := by simpa [SwitchesOff] using hswitch
          simp [amountOf, hcan, asking]
        · exact amountOf_eq ha
      rw [hon, geminiBudget_le_iff h]

end Order

section Requests

variable {catalogue : Catalogue} {target : Format} {provider : String}

private theorem thinkingConfigOf_stripAll (v : Json) : thinkingConfigOf (stripAll v) = none := by
  have hrequest : (stripAll v).get "request" =
      ((updateField (thinkingFields.foldl Json.eraseField v) "generationConfig"
        (·.eraseField "thinkingConfig")).get "request").map fun request ↦
          updateField request "generationConfig" (·.eraseField "thinkingConfig") :=
    get_updateField_self ..
  have hconfig : ∀ w : Json, ((updateField w "generationConfig"
      (·.eraseField "thinkingConfig")).get "generationConfig").bind (·.get "thinkingConfig") =
        none := by
    intro w
    rw [get_updateField_self]
    cases w.get "generationConfig" with
    | none => rfl
    | some generation => exact Json.get_eraseField_self generation "thinkingConfig"
  unfold thinkingConfigOf generationConfigOf
  split
  · rw [hrequest]
    cases (updateField (thinkingFields.foldl Json.eraseField v) "generationConfig"
        (·.eraseField "thinkingConfig")).get "request" with
    | none => rfl
    | some request => exact hconfig request
  · rw [stripAll, get_updateField_of_ne (by decide)]
    exact hconfig _

private theorem written_stripAll (shape : ThinkingFormat) (v : Json) :
    written shape (stripAll v) = ⊥ := by
  cases shape with
  | openAi | deepSeek | kimi | step | tokenRouter =>
    rw [written, Json.strField, get_stripAll (by decide)]
    rfl
  | claudeAdaptive | claudeBudget | hunyuan | qwen | zai | miniMax =>
    rw [written, get_stripAll (by decide)]
    rfl
  | geminiLevel | geminiBudget =>
    rw [written, thinkingConfigOf_stripAll]
    rfl
  | kiro | unrecognized => rfl

private theorem written_outgoing {r : Request} {a : ThinkingIntent} (h : r.asked = some a) :
    let caps := catalogue.capabilities provider r.cleanModel
    let shape := shapeOf catalogue target provider r.cleanModel
    written shape (r.outgoing catalogue target provider) =
      if caps.reasoning then amountOf shape caps a else ⊥ := by
  have hout : r.outgoing catalogue target provider =
      if (!(catalogue.capabilities provider r.cleanModel).reasoning) then stripAll r.body
      else applyFormat (shapeOf catalogue target provider r.cleanModel) (stripAll r.body) a
        (catalogue.capabilities provider r.cleanModel)
        (catalogue.thinkingLevels provider r.cleanModel) := by
    rw [Request.asked] at h
    rw [Request.outgoing, Thinking.apply, shapeOf, Request.cleanModel]
    generalize parseSuffix r.model = parsed at h
    dsimp only
    rw [h]
  dsimp only
  rw [hout]
  have hobject : (stripAll r.body).asObject.isSome = true := isSome_asObject_stripAll _
  cases (catalogue.capabilities provider r.cleanModel).reasoning with
  | false => exact written_stripAll _ _
  | true =>
    by_cases hoff : a = .off
    · subst hoff
      exact written_off hobject (fun _ hkey ↦ get_stripAll hkey _) _
    · refine (written_asking hobject (fun _ hkey ↦ get_stripAll hkey _) _ hoff).trans ?_
      simp only [↓reduceIte, amountOf, hoff]

end Requests

/-- Of two requests to one model, what is written of the greater effort or budget is at least what
is written of the lower one exactly when the model does not reason or its shape keeps the order. -/
theorem written_le_iff (catalogue : Catalogue) (target : Format) (provider : String)
    {x y : Request} {a b : ThinkingIntent} (hmodel : x.cleanModel = y.cleanModel)
    (hx : x.asked = some a) (hy : y.asked = some b) (hbelow : Below a b) :
    let caps := catalogue.capabilities provider x.cleanModel
    let shape := shapeOf catalogue target provider x.cleanModel
    written shape (x.outgoing catalogue target provider) ≤
        written shape (y.outgoing catalogue target provider) ↔
      (caps.reasoning = true → Keeps shape caps a b) := by
  dsimp only
  rw [written_outgoing hx, hmodel, written_outgoing hy]
  cases (catalogue.capabilities provider y.cleanModel).reasoning with
  | false => simp
  | true => simpa using amountOf_le_iff hbelow

/-- A request to Claude Sonnet 4 with an effort. -/
def effortRequest (effort : String) : Request where
  model := "claude-sonnet-4-20250514"
  fields := [("messages", .arr [])]
  carried := some (intentFromEffort effort)

/-- A high effort is written as at least what a low one is. -/
theorem low_le_high :
    written .claudeBudget ((effortRequest "low").outgoing sonnet4 .claude "anthropic") ≤
      written .claudeBudget ((effortRequest "high").outgoing sonnet4 .claude "anthropic") := by
  refine (written_le_iff sonnet4 .claude "anthropic" (x := effortRequest "low")
    (y := effortRequest "high") (a := .level "low") (b := .level "high") rfl ?_ ?_
    (.effort rfl rfl (by decide))).mpr fun _ ↦ .inr ?_
  · decide +kernel
  · decide +kernel
  · intro tokens htokens
    cases htokens
    intro hzero
    exact absurd ((clampBudget_le_iff 1024 0).mpr hzero) (by decide)

/-- The greatest effort is written as less than a high one, and a budget of 0 as more than one of
512. -/
theorem ultra_writes_less :
    (Below (.level "high") (.level "ultra") ∧
      (effortRequest "high").asked = some (.level "high") ∧
      (effortRequest "ultra").asked = some (.level "ultra") ∧
      ¬ written .claudeBudget ((effortRequest "high").outgoing sonnet4 .claude "anthropic") ≤
        written .claudeBudget ((effortRequest "ultra").outgoing sonnet4 .claude "anthropic")) ∧
    Below (.budget 0) (.budget 512) ∧
      ∃ x y : Request, x.cleanModel = y.cleanModel ∧ x.asked = some (.budget 0) ∧
        y.asked = some (.budget 512) ∧
        ¬ written .claudeBudget (x.outgoing sonnet4 .claude "anthropic") ≤
          written .claudeBudget (y.outgoing sonnet4 .claude "anthropic") := by
  refine ⟨⟨.effort rfl rfl (by decide), ?_, ?_, ?_⟩, .budget (by decide),
    ⟨"claude-sonnet-4(0)", [], none⟩, ⟨"claude-sonnet-4(512)", [], none⟩, ?_, ?_, ?_, ?_⟩
  all_goals decide +kernel

end ThinkingOrder
end NullRouter.Translate
