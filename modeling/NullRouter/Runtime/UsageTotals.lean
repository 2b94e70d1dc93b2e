import NullRouter.Translate.UsageArithmetic

/-!
# Usage totals and expiry times

The arithmetic of the runtime on what a provider answers: the usage of a body,
`services/runtime-actix/src/pipeline.rs:87`, and the time at which a refreshed token expires,
`crates/execute/src/refresh.rs:423`. With that of the translators it is exact wherever the sums fit.
-/

namespace NullRouter.Runtime

open NullRouter.Base NullRouter.Translate

section Body

variable (add : Nat → Nat → Option Nat) (usage : Json)

/-- The cached tokens of a body's usage, in OpenAI's or in Claude's spelling. -/
def bodyCached : Nat :=
  max (countAt usage ["prompt_tokens_details", "cached_tokens"])
    (countAt usage ["cache_read_input_tokens"])

/-- The tokens put into the cache, in OpenAI's or in Claude's spelling. -/
def bodyCacheCreation : Nat :=
  max (countAt usage ["prompt_tokens_details", "cache_creation_tokens"])
    (countAt usage ["cache_creation_input_tokens"])

/-- The prompt of a body's usage: OpenAI's, or Claude's with its cached tokens. -/
def bodyPrompt : Option Nat :=
  if countAt usage ["prompt_tokens"] = 0 then
    (add (countAt usage ["input_tokens"]) (bodyCached usage)).bind fun read ↦
      add read (bodyCacheCreation usage)
  else some (countAt usage ["prompt_tokens"])

/-- The completion of a body's usage. -/
def bodyCompletion : Nat :=
  if countAt usage ["completion_tokens"] = 0 then countAt usage ["output_tokens"]
  else countAt usage ["completion_tokens"]

/-- The total of a body's usage: the one that it states, or the sum. -/
def bodyTotal (prompt : Nat) : Option Nat :=
  if countAt usage ["total_tokens"] = 0 then add prompt (bodyCompletion usage)
  else some (countAt usage ["total_tokens"])

/-- The usage of a body: none where all of it is zero. -/
def bodyUsage (prompt total : Nat) : Option Usage :=
  if prompt = 0 ∧ bodyCompletion usage = 0 ∧ total = 0 then none
  else some {
    promptTokens := prompt
    completionTokens := bodyCompletion usage
    totalTokens := total
    cachedTokens := bodyCached usage
    cacheCreationTokens := bodyCacheCreation usage
    reasoningTokens := countAt usage ["completion_tokens_details", "reasoning_tokens"] }

/-- `usage_from_body`, `pipeline.rs:87`. -/
def usageFromBody (body : Json) : Option (Option Usage) :=
  match (body.get "usage").filter (·.asObject.isSome) with
  | none => some none
  | some usage =>
    (bodyPrompt add usage).bind fun prompt ↦
      (bodyTotal add usage prompt).map (bodyUsage usage prompt)

/-- When a token expires, in milliseconds, `refresh.rs:426`. -/
def expiresAtMillis (mul : Nat → Nat → Option Nat) (nowMs expiresIn : Nat) : Option Nat :=
  (mul expiresIn 1000).bind (add nowMs)

end Body

/-- The prompt of a body's usage, as a number. -/
def promptOf (usage : Json) : Nat :=
  if countAt usage ["prompt_tokens"] = 0 then
    countAt usage ["input_tokens"] + bodyCached usage + bodyCacheCreation usage
  else countAt usage ["prompt_tokens"]

/-- The sums that are made of a body's usage: each where the body does not state it. -/
def bodySums (usage : Json) : List Nat :=
  (if countAt usage ["prompt_tokens"] = 0 then [promptOf usage] else []) ++
    if countAt usage ["total_tokens"] = 0 then [promptOf usage + bodyCompletion usage] else []

/-- The usage object of a body. -/
def usageObject (body : Json) : Option Json := (body.get "usage").filter (·.asObject.isSome)

private theorem exactWhere_bodyPrompt (usage : Json) :
    ExactWhere (countAt usage ["prompt_tokens"] = 0 → promptOf usage ≤ u64Max)
      (fun checks ↦ bodyPrompt (addU64 checks) usage) (promptOf usage) := by
  unfold bodyPrompt promptOf
  split
  · next hzero =>
    have hread := ExactWhere.add (countAt usage ["input_tokens"]) (bodyCached usage)
    have hprompt := ExactWhere.add (countAt usage ["input_tokens"] + bodyCached usage)
      (bodyCacheCreation usage)
    refine (hread.bind hprompt).congr ⟨fun h _ ↦ h.2, fun h ↦ ⟨?_, h hzero⟩⟩
    have hfits := h hzero
    omega
  · next hstated => exact (ExactWhere.pure _).congr ⟨fun _ h ↦ absurd h hstated, fun _ ↦ trivial⟩

private theorem exactWhere_bodyTotal (usage : Json) :
    ExactWhere (countAt usage ["total_tokens"] = 0 →
        promptOf usage + bodyCompletion usage ≤ u64Max)
      (fun checks ↦ bodyTotal (addU64 checks) usage (promptOf usage))
      (if countAt usage ["total_tokens"] = 0 then promptOf usage + bodyCompletion usage
        else countAt usage ["total_tokens"]) := by
  unfold bodyTotal
  split
  · next hzero => exact (ExactWhere.add _ _).congr ⟨fun h _ ↦ h, fun h ↦ h hzero⟩
  · next hstated => exact (ExactWhere.pure _).congr ⟨fun _ h ↦ absurd h hstated, fun _ ↦ trivial⟩

private theorem bodyUsage_eq_some {usage : Json} {prompt total : Nat} {u : Usage}
    (h : bodyUsage usage prompt total = some u) :
    u.promptTokens = prompt ∧ u.completionTokens = bodyCompletion usage ∧
      u.totalTokens = total := by
  rw [bodyUsage] at h
  split at h
  · cases h
  · cases h
    exact ⟨rfl, rfl, rfl⟩

/-- The usage of a body is exact where the sums that it does not state fit. -/
theorem exactWhere_usageFromBody (body : Json) :
    ∃ usage, ExactWhere (∀ object ∈ usageObject body, ∀ sum ∈ bodySums object, sum ≤ u64Max)
        (fun checks ↦ usageFromBody (addU64 checks) body) usage ∧
      ∀ u ∈ usage, ∀ object ∈ usageObject body, u.totalTokens =
        if countAt object ["total_tokens"] = 0 then u.promptTokens + u.completionTokens
        else countAt object ["total_tokens"] := by
  unfold usageFromBody
  rw [← usageObject]
  cases usageObject body with
  | none => exact ⟨none, (ExactWhere.pure none).congr (by simp), by simp⟩
  | some object =>
    have hsums : (∀ sum ∈ bodySums object, sum ≤ u64Max) ↔
        (countAt object ["prompt_tokens"] = 0 → promptOf object ≤ u64Max) ∧
          (countAt object ["total_tokens"] = 0 →
            promptOf object + bodyCompletion object ≤ u64Max) := by
      rw [bodySums, List.forall_mem_append]
      refine and_congr ?_ ?_ <;> split <;> simp_all
    refine ⟨_, ((exactWhere_bodyPrompt object).bind
      ((exactWhere_bodyTotal object).map _)).congr ?_, ?_⟩
    · simpa using hsums.symm
    · intro u hu object' hobject'
      cases hobject'
      obtain ⟨hprompt, hcompletion, htotal⟩ := bodyUsage_eq_some hu
      rw [hprompt, hcompletion, htotal]

/-- The expiry time is exact where it fits. -/
theorem exactWhere_expiresAtMillis (nowMs expiresIn : Nat) :
    ExactWhere (nowMs + expiresIn * 1000 ≤ u64Max)
      (fun checks ↦ expiresAtMillis (addU64 checks) (mulU64 checks) nowMs expiresIn)
      (nowMs + expiresIn * 1000) := by
  have hmul := ExactWhere.mul expiresIn 1000
  have hadd := ExactWhere.add nowMs (expiresIn * 1000)
  refine (hmul.bind hadd).congr ⟨fun h ↦ h.2, fun h ↦ ⟨?_, h⟩⟩
  omega

/-- On the response path no addition of counts and no conversion to milliseconds overflows where
the sums fit, and a total is the sum of its parts unless the provider states one. -/
theorem usage_arithmetic_exact :
    (∀ raw kind, ∃ usage,
      ExactWhere (raw.asObject.isSome = true → (Usage.added raw kind).sum ≤ u64Max)
        (fun checks ↦ Usage.toOpenaiUsage (addU64 checks) raw kind) usage ∧
      ∀ u ∈ usage, u.totalTokens =
        (Usage.statedTotal raw kind).getD (u.promptTokens + u.completionTokens)) ∧
    (∀ s output,
      ExactWhere (s.claudeInputTokens + s.claudeCacheReadTokens + s.claudeCacheCreationTokens +
          output ≤ u64Max)
        (fun checks ↦ messageUsage (addU64 checks) s output)
        (Response.ClaudeToOpenai.usageOf s output)) ∧
    (∀ s, ExactWhere (s.claudeInputTokens + s.claudeOutputTokens ≤ u64Max)
      (fun checks ↦ stopTotal (addU64 checks) s) (s.claudeInputTokens + s.claudeOutputTokens)) ∧
    (∀ chunk s, ExactWhere ((Claude.chunkUsage chunk).all fun usage ↦
        countAt usage ["prompt_tokens"] + countAt usage ["completion_tokens"] ≤ u64Max)
      (fun checks ↦ Claude.captureUsageWith (addU64 checks) chunk s)
      (Claude.captureUsage chunk s)) ∧
    (∀ body, ∃ usage,
      ExactWhere (∀ object ∈ usageObject body, ∀ sum ∈ bodySums object, sum ≤ u64Max)
        (fun checks ↦ usageFromBody (addU64 checks) body) usage ∧
      ∀ u ∈ usage, ∀ object ∈ usageObject body, u.totalTokens =
        if countAt object ["total_tokens"] = 0 then u.promptTokens + u.completionTokens
        else countAt object ["total_tokens"]) ∧
    ∀ nowMs expiresIn, ExactWhere (nowMs + expiresIn * 1000 ≤ u64Max)
      (fun checks ↦ expiresAtMillis (addU64 checks) (mulU64 checks) nowMs expiresIn)
      (nowMs + expiresIn * 1000) := by
  refine ⟨fun raw kind ↦ ?_, exactWhere_messageUsage, exactWhere_stopTotal,
    Claude.exactWhere_captureUsage, exactWhere_usageFromBody, exactWhere_expiresAtMillis⟩
  obtain ⟨u, hu, htotal⟩ := Usage.exists_ofObject raw kind
  by_cases hobject : raw.asObject.isNone = true
  · exact ⟨none, Usage.exactWhere_toOpenaiUsage (by rw [Usage.toOpenaiUsage, if_pos hobject]),
      by simp⟩
  · refine ⟨some u, Usage.exactWhere_toOpenaiUsage ?_, ?_⟩
    · rw [Usage.toOpenaiUsage, if_neg hobject, hu]
      rfl
    · rintro u' ⟨⟩
      exact htotal

/-- A provider's total is reported as it states it, whatever its parts are. -/
theorem stated_total_reported :
    ¬ ∀ raw kind u, Usage.toOpenaiUsage (addU64 true) raw kind = some (some u) →
      u.totalTokens = u.promptTokens + u.completionTokens := by
  intro hall
  have hsum := hall (Json.object [("prompt_tokens", Json.nat 1), ("completion_tokens", Json.nat 1),
    ("total_tokens", Json.nat 5)]) .openAi ⟨1, 1, 5, 0, 0, 0⟩ (by decide)
  cases hsum

end NullRouter.Runtime
