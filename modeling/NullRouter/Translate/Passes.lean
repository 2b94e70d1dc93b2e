import NullRouter.Translate.TranslateRequest

/-!
# What the passes over a request leave alone

Each pass of `translate_request` (`crates/translate/src/lib.rs:176–189`) changes the fields that
it is about and no other.
-/

namespace NullRouter.Translate

open NullRouter.Base

/-- The fields that the thinking pass takes out or takes something out of. -/
def strippedKeys : List String := Thinking.thinkingFields ++ ["generationConfig", "request"]

/-- The fields that the thinking pass may change. -/
def thinkingKeys : List String := strippedKeys ++ ["max_tokens"]

/-- The fields that hold the conversation of a request. -/
def conversationKeys : List String := ["messages", "input", "contents"]

/-- The fields that the parameter rules may change. -/
def paramKeys : List String :=
  ["temperature", "thinking", "reasoning_effort", "messages", "max_tokens",
    "max_completion_tokens", "max_output_tokens"]

/-- The parameter rules that the requests of a route pass. -/
def rulesOf (route : RequestRoute) : List ParamRules.StripRule :=
  if route.source.equivalent route.target then []
  else ParamRules.rules.filter
    (·.applies route.provider (Thinking.stripThinkingSuffix route.model))

/-- Two requests differ in fields among some only. -/
def SameBut (keys : List String) (before after : Json) : Prop :=
  ∀ key, key ∉ keys → after.get key = before.get key

namespace SameBut

variable {keys : List String} {a b c : Json}

theorem refl : SameBut keys a a := fun _ _ ↦ rfl

theorem trans (hab : SameBut keys a b) (hbc : SameBut keys b c) : SameBut keys a c :=
  fun key h ↦ (hbc key h).trans (hab key h)

theorem mono {more : List String} (h : keys ⊆ more) (hab : SameBut keys a b) : SameBut more a b :=
  fun key hkey ↦ hab key fun hk ↦ hkey (h hk)

theorem setField {key : String} (hkey : key ∈ keys) (value : Json) :
    SameBut keys a (a.setField key value) :=
  fun _ h ↦ Json.get_setField_of_ne (ne_of_mem_of_not_mem hkey h).symm

theorem eraseField {key : String} (hkey : key ∈ keys) : SameBut keys a (a.eraseField key) :=
  fun _ h ↦ Json.get_eraseField_of_ne (ne_of_mem_of_not_mem hkey h).symm

theorem eraseFields {names : List String} (h : names ⊆ keys) :
    SameBut keys a (names.foldl Json.eraseField a) := by
  induction names generalizing a with
  | nil => exact refl
  | cons name names ih =>
    exact (eraseField (h (List.mem_cons_self ..))).trans (ih fun _ hx ↦ h (List.mem_cons_of_mem _ hx))

theorem updateField {key : String} (hkey : key ∈ keys) (change : Json → Json) :
    SameBut keys a (Thinking.updateField a key change) := by
  unfold Thinking.updateField
  split
  · exact setField hkey _
  · exact refl

theorem updateObject {key : String} (hkey : key ∈ keys) (change : Json → Json) :
    SameBut keys a (Thinking.updateObject a key change) := setField hkey _

end SameBut

section Thinking

open Thinking SameBut

variable {body : Json}

theorem stripAll_same : SameBut strippedKeys body (stripAll body) :=
  ((eraseFields (List.subset_append_left _ _)).trans (updateField (by decide) _)).trans
    (updateField (by decide) _)

theorem isSome_asObject_updateField (v : Json) (key : String) (change : Json → Json) :
    (Thinking.updateField v key change).asObject.isSome = v.asObject.isSome := by
  unfold Thinking.updateField
  split
  · exact Json.isSome_asObject_setField ..
  · rfl

theorem get_updateField_of_ne {v : Json} {key other : String} (h : other ≠ key)
    (change : Json → Json) : (Thinking.updateField v key change).get other = v.get other := by
  unfold Thinking.updateField
  split
  · exact Json.get_setField_of_ne h
  · rfl

theorem get_updateField_self (v : Json) (key : String) (change : Json → Json) :
    (Thinking.updateField v key change).get key = (v.get key).map change := by
  unfold Thinking.updateField
  split
  · next value hvalue =>
    have hobject : v.asObject.isSome = true := by
      cases v with
      | obj fields => rfl
      | _ => cases hvalue
    rw [Json.get_setField_self hobject, hvalue, Option.map_some]
  · next hnone => rw [hnone, Option.map_none]

theorem isSome_asObject_stripAll (v : Json) :
    (stripAll v).asObject.isSome = v.asObject.isSome := by
  have hfields : ∀ (names : List String) (v : Json),
      (names.foldl Json.eraseField v).asObject.isSome = v.asObject.isSome := by
    intro names
    induction names with
    | nil => exact fun _ ↦ rfl
    | cons name names ih => exact fun v ↦ (ih _).trans (Json.isSome_asObject_eraseField v name)
  rw [stripAll, isSome_asObject_updateField, isSome_asObject_updateField, hfields]

/-- No thinking field is left where all are taken out. -/
theorem get_stripAll {key : String} (h : key ∈ thinkingFields) (v : Json) :
    (stripAll v).get key = none := by
  have hrequest : key ≠ "request" := by
    rintro rfl
    exact absurd h (by decide)
  have hconfig : key ≠ "generationConfig" := by
    rintro rfl
    exact absurd h (by decide)
  rw [stripAll, get_updateField_of_ne hrequest, get_updateField_of_ne hconfig,
    Json.get_foldl_eraseField, if_pos h]

private theorem updateGenerationConfig_same (change : Json → Json) :
    SameBut thinkingKeys body (updateGenerationConfig body change) := by
  unfold updateGenerationConfig
  split
  · exact updateField (by decide) _
  · exact updateObject (by decide) _

private theorem applyBudgetThinking_same (intent : ThinkingIntent) (range : Option ThinkingRange)
    (disable : Bool) : SameBut thinkingKeys body (applyBudgetThinking body intent range disable) := by
  have hraise : ∀ (budget : Nat) (raise : Bool), SameBut thinkingKeys body
      ((if raise then body.setField "max_tokens" (Json.nat (budget + 4096)) else body).setField
        "thinking" (enabledWith budget)) := by
    intro budget raise
    refine SameBut.trans ?_ (setField (by decide) _)
    split
    · exact setField (by decide) _
    · exact refl
  unfold applyBudgetThinking
  split
  · exact setField (by decide) _
  · dsimp only
    split
    · exact hraise _ _
    · split <;> exact hraise _ _
    · exact hraise _ _

private theorem applyFormat_same (format : ThinkingFormat) (intent : ThinkingIntent)
    (caps : Capabilities) (supported : Option (List String)) :
    SameBut thinkingKeys body (applyFormat format body intent caps supported) := by
  cases format with
  | claudeBudget => exact applyBudgetThinking_same _ _ _
  | hunyuan => exact applyBudgetThinking_same _ _ _
  | geminiLevel =>
    exact (updateGenerationConfig_same _).trans (updateGenerationConfig_same _)
  | geminiBudget =>
    simp only [applyFormat, applyGeminiBudget]
    split
    · exact updateGenerationConfig_same _
    · exact (updateGenerationConfig_same _).trans (updateGenerationConfig_same _)
  | openAi | claudeAdaptive | zai | qwen | kimi | deepSeek | miniMax | step | tokenRouter =>
    intro key h
    simp only [thinkingKeys, strippedKeys, thinkingFields, List.cons_append, List.nil_append,
      List.mem_cons,
      List.not_mem_nil, or_false, not_or] at h
    simp only [applyFormat, applyClaudeAdaptive, applyZai, applyQwen, applyDeepseek, applyKimi,
      applyStep, applyTokenrouter]
    repeat' split
    all_goals simp [h]
  | kiro => exact refl
  | unrecognized => exact refl

/-- The thinking pass changes thinking fields and the limit on the output. -/
theorem apply_same (catalogue : Catalogue) (target : Format) (provider model : String)
    (intent : Option ThinkingIntent) :
    SameBut thinkingKeys body (apply catalogue target provider model body intent) := by
  unfold apply
  dsimp only
  split
  · exact stripAll_same.mono (List.subset_append_left _ _)
  · split
    · exact refl
    · exact (stripAll_same.mono (List.subset_append_left _ _)).trans (applyFormat_same _ _ _ _)

end Thinking

section Media

open Modality SameBut

variable {body : Json}

private theorem stripMessages_same {listKey contentKey : String} {capOf : Json → Option Modality}
    {note : String → Json} {caps : Capabilities} (h : listKey ∈ conversationKeys) :
    SameBut conversationKeys body (stripMessages listKey contentKey capOf note caps body) := by
  unfold stripMessages
  split
  · exact refl
  · exact setField h _

/-- The media pass changes the conversation only. -/
theorem stripUnsupportedModalities_same (source : Format) (caps : Capabilities) :
    SameBut conversationKeys body (stripUnsupportedModalities source caps body) := by
  unfold stripUnsupportedModalities
  split
  · exact refl
  · cases source <;> exact stripMessages_same (by decide)

end Media

section Params

open ParamRules SameBut

variable {body : Json}

private theorem clampNumber_same {key : String} (h : key ∈ paramKeys) (ceiling : Nat) :
    SameBut paramKeys body (clampNumber key ceiling body) := by
  unfold clampNumber
  split
  · exact setField h _
  · exact refl

private theorem applyRule_same {rule : StripRule} (h : rule.drop ⊆ paramKeys) (ceiling : Nat) :
    SameBut paramKeys body (applyRule ceiling body rule) := by
  unfold applyRule
  have hflat : ∀ b, SameBut paramKeys b
      (if rule.flattenContent then flattenContentArrays b else b) := by
    intro b
    split
    · unfold flattenContentArrays
      split
      · exact refl
      · exact setField (by decide) _
    · exact refl
  dsimp only
  refine ((eraseFields h).trans (hflat _)).trans ?_
  cases ceilingOf rule ceiling with
  | none => exact refl
  | some ceiling =>
    refine ((clampNumber_same ?_ _).trans (clampNumber_same ?_ _)).trans (clampNumber_same ?_ _)
    all_goals decide

/-- The parameter rules change the fields that they name only. -/
theorem stripUnsupportedParams_same (provider model : String) (ceiling : Nat) :
    SameBut paramKeys body (stripUnsupportedParams provider model ceiling body) := by
  have hrules : ∀ rule ∈ rules, rule.drop ⊆ paramKeys := by
    intro rule hrule
    simp only [rules, List.mem_cons, List.not_mem_nil, or_false] at hrule
    rcases hrule with rfl | rfl | rfl | rfl | rfl | rfl | rfl <;> decide
  have hfold : ∀ (l : List StripRule) (b : Json), (∀ rule ∈ l, rule.drop ⊆ paramKeys) →
      SameBut paramKeys b (l.foldl (applyRule ceiling) b) := by
    intro l
    induction l with
    | nil => exact fun _ _ ↦ refl
    | cons rule l ih =>
      intro b hl
      exact (applyRule_same (hl rule (by simp)) ceiling).trans
        (ih _ fun r hr ↦ hl r (by simp [hr]))
  exact hfold _ _ fun rule hrule ↦ hrules rule (List.mem_filter.mp hrule).1

end Params

/-- A request between formats that are not equal goes through OpenAI and through the passes. -/
theorem body_translateRequest (catalogue : Catalogue) (writer : GeminiWriter)
    {route : RequestRoute} (h : route.source.equivalent route.target = false) (body : Json)
    (stream : Bool) (ceiling : Nat) :
    (translateRequest catalogue writer route body stream ceiling).body =
      finishRequest catalogue route (Thinking.extractThinking body) ceiling
        (openaiToTarget writer route.target (Thinking.stripThinkingSuffix route.model)
          (sourceToOpenai writer.serde route.source (Thinking.stripThinkingSuffix route.model) body
            stream) stream ceiling).body := by
  unfold translateRequest
  simp only [h, Bool.false_eq_true, ↓reduceIte]

/-- An OpenAI request to Claude. -/
theorem body_translateRequest_claude (catalogue : Catalogue) (writer : GeminiWriter)
    {route : RequestRoute} (hsource : route.source = .openAi) (htarget : route.target = .claude)
    (body : Json) (stream : Bool) (ceiling : Nat) :
    (translateRequest catalogue writer route body stream ceiling).body =
      finishRequest catalogue route (Thinking.extractThinking body) ceiling
        (Request.OpenaiToClaude.translate writer.serde
          (Thinking.stripThinkingSuffix route.model) body stream ceiling) := by
  rw [body_translateRequest catalogue writer (by rw [hsource, htarget]; rfl), hsource,
    sourceToOpenai, htarget, openaiToTarget]

/-- An OpenAI request to Gemini. -/
theorem body_translateRequest_gemini (catalogue : Catalogue) (writer : GeminiWriter)
    {route : RequestRoute} (hsource : route.source = .openAi)
    (htarget : route.target = .gemini ∨ route.target = .geminiCli ∨ route.target = .vertex)
    (body : Json) (stream : Bool) (ceiling : Nat) :
    (translateRequest catalogue writer route body stream ceiling).body =
      finishRequest catalogue route (Thinking.extractThinking body) ceiling
        (Request.OpenaiToGemini.translate writer (Thinking.stripThinkingSuffix route.model)
          body) := by
  have hne : route.source.equivalent route.target = false := by
    rw [hsource]
    rcases htarget with h | h | h <;> rw [h] <;> rfl
  rw [body_translateRequest catalogue writer hne, hsource, sourceToOpenai]
  rcases htarget with h | h | h <;> rw [h, openaiToTarget]

/-- A field that no pass is about is left as the translators wrote it. -/
theorem get_finishRequest {key : String} (hthinking : key ∉ thinkingKeys)
    (hconversation : key ∉ conversationKeys) (hparams : key ∉ paramKeys) (catalogue : Catalogue)
    (route : RequestRoute) (intent : Option ThinkingIntent) (ceiling : Nat) (body : Json) :
    (finishRequest catalogue route intent ceiling body).get key = body.get key := by
  unfold finishRequest
  dsimp only
  rw [stripUnsupportedParams_same _ _ _ _ hparams,
    stripUnsupportedModalities_same _ _ _ hconversation, apply_same _ _ _ _ _ _ hthinking]

end NullRouter.Translate
