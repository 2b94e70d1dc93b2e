import NullRouter.Base.Checked
import NullRouter.Translate.Body
import NullRouter.Translate.Claude
import NullRouter.Translate.Response.ClaudeToOpenai

/-!
# The arithmetic of usage

`to_openai_usage`, `crates/translate/src/concerns.rs:78`, and the other additions of token counts
that the response translators make, over the addition they are given: that of `u64`, which may
overflow, or that of numbers. Where the sums fit, the two are the same.
-/

namespace NullRouter.Translate

open NullRouter.Base

/-- `UsageKind`, `concerns.rs:66`. -/
inductive UsageKind where
  | claude
  | gemini
  | kiro
  | ollama
  | commandCode
  | openAi
  deriving DecidableEq

namespace Usage

/-- The cached tokens that Kiro reports, under the first of three names with any. -/
def kiroCached (raw : Json) : Nat :=
  ([countAt raw ["cache_read_input_tokens"], countAt raw ["cachedTokens"],
    countAt raw ["cached_tokens"]].find? (0 < ·)).getD 0

/-- The candidates of a Gemini reply: where they are not counted, what is left of the total. -/
def geminiCandidates (raw : Json) : Nat :=
  let total := countAt raw ["totalTokenCount"]
  let counted := countAt raw ["candidatesTokenCount"]
  if counted = 0 ∧ 0 < total then
    total - countAt raw ["promptTokenCount"] - countAt raw ["thoughtsTokenCount"]
  else counted

/-- The cached tokens of OpenAI's usage: those of the details, else the prompt's hits. -/
def openaiCached (raw : Json) : Nat :=
  ((((raw.get "prompt_tokens_details").bind (·.get "cached_tokens")).bind Json.asU64).or
    ((raw.get "prompt_cache_hit_tokens").bind Json.asU64)).getD 0

/-- The total that a provider states, where `to_openai_usage` takes it over. -/
def statedTotal (raw : Json) : UsageKind → Option Nat
  | .gemini => some (countAt raw ["totalTokenCount"])
  | .commandCode => (raw.get "totalTokens").bind Json.asU64
  | .openAi => (raw.get "total_tokens").bind Json.asU64
  | .claude | .kiro | .ollama => none

section Add

variable (add : Nat → Nat → Option Nat)

/-- The usage of a Claude message's four counts. -/
def ofCounts (input output cacheRead cacheCreate : Nat) : Option Usage :=
  (add input cacheRead).bind fun read ↦ (add read cacheCreate).bind fun prompt ↦
    (add prompt output).map fun total ↦
      { promptTokens := prompt, completionTokens := output, totalTokens := total,
        cachedTokens := cacheRead, cacheCreationTokens := cacheCreate }

/-- `to_openai_usage`, `concerns.rs:78`, of an object. -/
def ofObject (raw : Json) : UsageKind → Option Usage
  | .claude => ofCounts add (countAt raw ["input_tokens"]) (countAt raw ["output_tokens"])
      (countAt raw ["cache_read_input_tokens"]) (countAt raw ["cache_creation_input_tokens"])
  | .gemini =>
    let thoughts := countAt raw ["thoughtsTokenCount"]
    (add (geminiCandidates raw) thoughts).map fun completion ↦
      { promptTokens := countAt raw ["promptTokenCount"], completionTokens := completion,
        totalTokens := countAt raw ["totalTokenCount"],
        cachedTokens := countAt raw ["cachedContentTokenCount"], reasoningTokens := thoughts }
  | .kiro =>
    let input := countAt raw ["inputTokens"]
    let output := countAt raw ["outputTokens"]
    (add input output).map fun total ↦
      { promptTokens := input, completionTokens := output, totalTokens := total,
        cachedTokens := kiroCached raw,
        cacheCreationTokens := countAt raw ["cache_creation_input_tokens"] }
  | .ollama =>
    let input := countAt raw ["prompt_eval_count"]
    let output := countAt raw ["eval_count"]
    (add input output).map fun total ↦
      { promptTokens := input, completionTokens := output, totalTokens := total }
  | .commandCode =>
    let input := countAt raw ["inputTokens"]
    let output := countAt raw ["outputTokens"]
    -- The sum is made before it is known whether a total is stated.
    (add input output).map fun sum ↦
      { promptTokens := input, completionTokens := output,
        totalTokens := (statedTotal raw .commandCode).getD sum }
  | .openAi =>
    let prompt := countAt raw ["prompt_tokens"]
    let completion := countAt raw ["completion_tokens"]
    (add prompt completion).map fun sum ↦
      { promptTokens := prompt, completionTokens := completion,
        totalTokens := (statedTotal raw .openAi).getD sum, cachedTokens := openaiCached raw,
        reasoningTokens := countAt raw ["completion_tokens_details", "reasoning_tokens"] }

/-- `to_openai_usage`, `concerns.rs:78`: nothing of what is no object. -/
def toOpenaiUsage (raw : Json) (kind : UsageKind) : Option (Option Usage) :=
  if raw.asObject.isNone then some none else (ofObject add raw kind).map some

end Add

/-- The counts that `to_openai_usage` adds up. -/
def added (raw : Json) : UsageKind → List Nat
  | .claude => [countAt raw ["input_tokens"], countAt raw ["cache_read_input_tokens"],
      countAt raw ["cache_creation_input_tokens"], countAt raw ["output_tokens"]]
  | .gemini => [geminiCandidates raw, countAt raw ["thoughtsTokenCount"]]
  | .kiro | .commandCode => [countAt raw ["inputTokens"], countAt raw ["outputTokens"]]
  | .ollama => [countAt raw ["prompt_eval_count"], countAt raw ["eval_count"]]
  | .openAi => [countAt raw ["prompt_tokens"], countAt raw ["completion_tokens"]]

/-- The sum of numbers. -/
def plus (a b : Nat) : Option Nat := some (a + b)

/-- The usage of an object, with the sums of numbers. -/
theorem exists_ofObject (raw : Json) (kind : UsageKind) :
    ∃ usage, ofObject plus raw kind = some usage ∧
      usage.totalTokens = (statedTotal raw kind).getD
        (usage.promptTokens + usage.completionTokens) := by
  cases kind <;> exact ⟨_, rfl, rfl⟩

section Exact

variable {input output cacheRead cacheCreate : Nat}

/-- What the usage of four counts is made of. -/
theorem ofCounts_eq_some {add : Nat → Nat → Option Nat} {usage : Usage}
    (h : ofCounts add input output cacheRead cacheCreate = some usage) :
    usage.completionTokens = output ∧ usage.cachedTokens = cacheRead ∧
      usage.cacheCreationTokens = cacheCreate := by
  obtain ⟨read, -, h⟩ := Option.bind_eq_some_iff.mp h
  obtain ⟨prompt, -, h⟩ := Option.bind_eq_some_iff.mp h
  obtain ⟨total, -, rfl⟩ := Option.map_eq_some_iff.mp h
  exact ⟨rfl, rfl, rfl⟩

/-- Without overflow checks, the prompt is what remains of the sum. -/
theorem ofCounts_unchecked (P : Nat → Prop) :
    (∃ usage, ofCounts (addU64 false) input output cacheRead cacheCreate = some usage ∧
      P usage.promptTokens) ↔ P ((input + cacheRead + cacheCreate) % 2 ^ 64) := by
  simp only [ofCounts, addU64_false, Option.bind_some, Option.map_some, Option.some.injEq]
  rw [← Nat.mod_add_mod (input + cacheRead)]
  constructor
  · rintro ⟨usage, rfl, h⟩
    exact h
  · exact fun h ↦ ⟨_, rfl, h⟩

/-- Claude's four counts add up exactly where their sum fits. -/
theorem exactWhere_ofCounts {usage : Usage}
    (h : ofCounts plus input output cacheRead cacheCreate = some usage) :
    ExactWhere (input + cacheRead + cacheCreate + output ≤ u64Max)
      (fun checks ↦ ofCounts (addU64 checks) input output cacheRead cacheCreate) usage := by
  obtain rfl := Option.some.inj h
  have hread := ExactWhere.add input cacheRead
  have hprompt := ExactWhere.add (input + cacheRead) cacheCreate
  have htotal := ExactWhere.add (input + cacheRead + cacheCreate) output
  refine (hread.bind (hprompt.bind (htotal.map _))).congr ⟨fun h ↦ h.2.2, fun h ↦ ?_⟩
  exact ⟨by omega, by omega, h⟩

/-- With overflow checks, there is a usage where the sum fits, and its prompt is the sum. -/
theorem ofCounts_checked (P : Nat → Prop) :
    (∃ usage, ofCounts (addU64 true) input output cacheRead cacheCreate = some usage ∧
      P usage.promptTokens) ↔
      input + cacheRead + cacheCreate + output ≤ u64Max ∧ P (input + cacheRead + cacheCreate) := by
  obtain ⟨hchecked, hexact⟩ := exactWhere_ofCounts
    (show ofCounts plus input output cacheRead cacheCreate = some _ from rfl)
  constructor
  · rintro ⟨usage, husage, h⟩
    have hfits := hchecked.mp (Option.isSome_iff_exists.mpr ⟨usage, husage⟩)
    obtain rfl := Option.some.inj ((hexact hfits true).symm.trans husage)
    exact ⟨hfits, h⟩
  · rintro ⟨hfits, h⟩
    exact ⟨_, hexact hfits true, h⟩

/-- The counts of an object add up exactly where their sum fits. -/
theorem exactWhere_ofObject {raw : Json} {kind : UsageKind} {usage : Usage}
    (h : ofObject plus raw kind = some usage) :
    ExactWhere ((added raw kind).sum ≤ u64Max) (fun checks ↦ ofObject (addU64 checks) raw kind)
      usage := by
  have htwo (m n : Nat) : m + n ≤ u64Max ↔ [m, n].sum ≤ u64Max := by simp
  cases kind with
  | claude =>
    refine (exactWhere_ofCounts h).congr ?_
    simp only [added, List.sum_cons, List.sum_nil]
    omega
  | gemini | kiro | ollama | commandCode | openAi =>
    obtain rfl := Option.some.inj h
    exact ((ExactWhere.add _ _).map _).congr (htwo _ _)

/-- So they do of any value. -/
theorem exactWhere_toOpenaiUsage {raw : Json} {kind : UsageKind} {usage : Option Usage}
    (h : toOpenaiUsage plus raw kind = some usage) :
    ExactWhere (raw.asObject.isSome = true → (added raw kind).sum ≤ u64Max)
      (fun checks ↦ toOpenaiUsage (addU64 checks) raw kind) usage := by
  unfold toOpenaiUsage at h ⊢
  by_cases hobject : raw.asObject.isNone = true
  · rw [if_pos hobject] at h
    cases h
    simp only [hobject, if_true]
    refine (ExactWhere.pure none).congr ⟨fun _ hsome ↦ ?_, fun _ ↦ trivial⟩
    rw [Option.isNone_iff_eq_none.mp hobject] at hsome
    cases hsome
  · rw [if_neg hobject] at h
    obtain ⟨exact, hexact, rfl⟩ := Option.map_eq_some_iff.mp h
    simp only [hobject, if_false, Bool.false_eq_true]
    refine ((exactWhere_ofObject hexact).map some).congr ⟨fun h _ ↦ h, fun h ↦ h ?_⟩
    rwa [Option.isSome_iff_ne_none, ne_eq, ← Option.isNone_iff_eq_none]

end Exact

end Usage

/-! ## Streams -/

section Streams

open Response.ClaudeToOpenai

/-- The usage of a Claude message as far as it is streamed, `claude_to_openai.rs:76,237`. -/
def messageUsage (add : Nat → Nat → Option Nat) (s : StreamState) (output : Nat) : Option Usage :=
  Usage.ofCounts add s.claudeInputTokens output s.claudeCacheReadTokens s.claudeCacheCreationTokens

/-- It is the usage of the model where the sum of its counts fits. -/
theorem exactWhere_messageUsage (s : StreamState) (output : Nat) :
    ExactWhere (s.claudeInputTokens + s.claudeCacheReadTokens + s.claudeCacheCreationTokens +
        output ≤ u64Max)
      (fun checks ↦ messageUsage (addU64 checks) s output) (usageOf s output) :=
  Usage.exactWhere_ofCounts rfl

/-- The total that a message stops with, `claude_to_openai.rs:306`. -/
def stopTotal (add : Nat → Nat → Option Nat) (s : StreamState) : Option Nat :=
  add s.claudeInputTokens s.claudeOutputTokens

theorem exactWhere_stopTotal (s : StreamState) :
    ExactWhere (s.claudeInputTokens + s.claudeOutputTokens ≤ u64Max)
      (fun checks ↦ stopTotal (addU64 checks) s) (s.claudeInputTokens + s.claudeOutputTokens) :=
  ExactWhere.add _ _

end Streams

namespace Claude

/-- The usage of a chunk. -/
def chunkUsage (chunk : Json) : Option Json := (chunk.get "usage").filter (·.asObject.isSome)

/-- `capture_usage`, `openai_to_claude.rs:93`, whose subtractions saturate. -/
def captureUsageWith (add : Nat → Nat → Option Nat) (chunk : Json) (s : StreamState) :
    Option StreamState :=
  match chunkUsage chunk with
  | none => some s
  | some usage =>
    (add (countAt usage ["prompt_tokens"]) (countAt usage ["completion_tokens"])).map fun total ↦
      let s := captureUsage chunk s
      { s with usage := s.usage.map ({ · with totalTokens := total }) }

/-- It is the model's where the sum of the two counts fits. -/
theorem exactWhere_captureUsage (chunk : Json) (s : StreamState) :
    ExactWhere ((chunkUsage chunk).all fun usage ↦
        countAt usage ["prompt_tokens"] + countAt usage ["completion_tokens"] ≤ u64Max)
      (fun checks ↦ captureUsageWith (addU64 checks) chunk s) (captureUsage chunk s) := by
  unfold captureUsageWith
  cases husage : chunkUsage chunk with
  | none =>
    have hsame : captureUsage chunk s = s := by
      rw [captureUsage, ← chunkUsage, husage]
    rw [hsame]
    exact (ExactWhere.pure s).congr (by simp)
  | some usage =>
    have hsum := ExactWhere.add (countAt usage ["prompt_tokens"])
      (countAt usage ["completion_tokens"])
    have hmap := hsum.map fun total ↦ ({ captureUsage chunk s with
      usage := (captureUsage chunk s).usage.map ({ · with totalTokens := total }) } : StreamState)
    have hsame : ({ captureUsage chunk s with
        usage := (captureUsage chunk s).usage.map ({ · with
          totalTokens := countAt usage ["prompt_tokens"] + countAt usage ["completion_tokens"] }) } :
          StreamState) = captureUsage chunk s := by
      rw [captureUsage, ← chunkUsage, husage]
      rfl
    rw [hsame] at hmap
    exact hmap.congr (by simp)

end Claude
end NullRouter.Translate

/-!
## Usage from Claude and back

A Claude message's usage as OpenAI's, `to_openai_usage` (`crates/translate/src/concerns.rs:78`), and
back: on a stream by `capture_usage` (`response/openai_to_claude.rs:93`), which takes the cached
tokens out of the prompt again, and in a whole body by `openai_body_to_claude` (`body.rs:227`), which
does not.
-/

namespace NullRouter.Translate

open NullRouter.Base

/-- The usage of a Claude message: four counts. -/
structure ClaudeUsage where
  input : UInt64
  output : UInt64
  cacheRead : UInt64
  cacheCreation : UInt64
  deriving DecidableEq

namespace ClaudeUsage

/-- The usage as Claude sends it. -/
def toJson (u : ClaudeUsage) : Json :=
  Json.object [("input_tokens", Json.nat u.input.toNat), ("output_tokens", Json.nat u.output.toNat),
    ("cache_read_input_tokens", Json.nat u.cacheRead.toNat),
    ("cache_creation_input_tokens", Json.nat u.cacheCreation.toNat)]

/-- Four counts that a usage object of Claude's has. -/
def CountedIn (u : ClaudeUsage) (usage : Json) : Prop :=
  countAt usage ["input_tokens"] = u.input.toNat ∧
    countAt usage ["output_tokens"] = u.output.toNat ∧
    countAt usage ["cache_read_input_tokens"] = u.cacheRead.toNat ∧
    countAt usage ["cache_creation_input_tokens"] = u.cacheCreation.toNat

/-- The usage as OpenAI's. -/
def toOpenai (overflowChecks : Bool) (u : ClaudeUsage) : Option (Option Usage) :=
  Usage.toOpenaiUsage (addU64 overflowChecks) u.toJson .claude

/-- The usage as a stream brings it back, in a chunk with other fields. -/
def streamedBack (overflowChecks : Bool) (u : ClaudeUsage) (fields : List (String × Json))
    (s : StreamState) : Option Json :=
  (u.toOpenai overflowChecks).bind fun usage ↦ usage.bind fun usage ↦
    (Claude.captureUsageWith (addU64 overflowChecks)
      ((Json.obj fields).setField "usage" usage.toValue) s).map Claude.claudeUsageValue

/-- The usage as a whole body brings it back. -/
def wholeBack (overflowChecks : Bool) (u : ClaudeUsage) : Option Json :=
  (u.toOpenai overflowChecks).bind fun usage ↦ usage.map fun usage ↦
    Body.claudeUsage (some usage.toValue)

/-- What comes back has the same four counts. -/
def SameBack (u : ClaudeUsage) (back : Option Json) : Prop :=
  ∃ usage, back = some usage ∧ u.CountedIn usage

end ClaudeUsage

/-! ## What is read of OpenAI's usage -/

private theorem countAt_one (v : Json) (key : String) :
    countAt v [key] = ((v.get key).bind Json.asU64).getD 0 := rfl

private theorem countAt_two (v : Json) (key inner : String) :
    countAt v [key, inner] = (((v.get key).bind (·.get inner)).bind Json.asU64).getD 0 := rfl

namespace Usage

variable (u : Usage)

/-- Outside the details. -/
theorem get_toValue {key : String} (hprompt : key ≠ "prompt_tokens_details")
    (hcompletion : key ≠ "completion_tokens_details") :
    u.toValue.get key = [("total_tokens", Json.nat u.totalTokens),
      ("completion_tokens", Json.nat u.completionTokens),
      ("prompt_tokens", Json.nat u.promptTokens)].lookup key := by
  rw [toValue, Json.get_object_append, Json.get_object_append, Json.get_object]
  · rfl
  · intro f hf
    split at hf
    · rw [List.mem_singleton.mp hf]
      exact Ne.symm hprompt
    · cases hf
  · intro f hf
    split at hf
    · rw [List.mem_singleton.mp hf]
      exact Ne.symm hcompletion
    · cases hf

/-- The counts outside the details are read back. -/
theorem countAt_toValue : countAt u.toValue ["prompt_tokens"] = u.promptTokens ∧
    countAt u.toValue ["completion_tokens"] = u.completionTokens ∧
    countAt u.toValue ["prompt_cache_hit_tokens"] = 0 := by
  rw [countAt_one, countAt_one, countAt_one, get_toValue u (by decide) (by decide),
    get_toValue u (by decide) (by decide), get_toValue u (by decide) (by decide)]
  exact ⟨rfl, rfl, rfl⟩

/-- The details of the prompt hold the cached tokens of which there are any. -/
theorem get_promptDetails : (u.toValue.get "prompt_tokens_details") =
    if u.cachedTokens > 0 ∨ u.cacheCreationTokens > 0 then
      some (Json.object ((if u.cachedTokens > 0 then
          [("cached_tokens", Json.nat u.cachedTokens)] else []) ++
        if u.cacheCreationTokens > 0 then
          [("cache_creation_tokens", Json.nat u.cacheCreationTokens)] else [])) else none := by
  rw [toValue, Json.get_object_append, Json.get_object]
  · by_cases hdetails : u.cachedTokens > 0 ∨ u.cacheCreationTokens > 0
    · rw [if_pos hdetails, if_pos hdetails]
      rfl
    · rw [if_neg hdetails, if_neg hdetails]
      rfl
  · intro f hf
    split at hf
    · obtain rfl := List.mem_singleton.mp hf
      exact (by decide : "completion_tokens_details" ≠ "prompt_tokens_details")
    · cases hf

/-- They are read back. -/
theorem countAt_details :
    countAt u.toValue ["prompt_tokens_details", "cached_tokens"] = u.cachedTokens ∧
      countAt u.toValue ["prompt_tokens_details", "cache_creation_tokens"] =
        u.cacheCreationTokens := by
  rw [countAt_two, countAt_two, get_promptDetails]
  by_cases hcached : u.cachedTokens > 0 <;> by_cases hcreation : u.cacheCreationTokens > 0
  · simp [hcached, hcreation, Json.get_object, List.lookup_cons, Json.nat, Json.asU64]
  · simp [hcached, hcreation, Json.get_object, List.lookup_cons, Json.nat, Json.asU64]
    omega
  · simp [hcached, hcreation, Json.get_object, List.lookup_cons, Json.nat, Json.asU64]
    omega
  · simp only [hcached, hcreation, or_self, if_false, Option.bind_none, Option.getD_none]
    omega

/-- A stream counts the prompt without its cached tokens. -/
theorem captureUsage_toValue (fields : List (String × Json)) (s : StreamState) :
    let s' := Claude.captureUsage ((Json.obj fields).setField "usage" u.toValue) s
    s'.claudeInputTokens = u.promptTokens - u.cachedTokens - u.cacheCreationTokens ∧
      s'.claudeOutputTokens = u.completionTokens ∧ s'.claudeCacheReadTokens = u.cachedTokens ∧
      s'.claudeCacheCreationTokens = u.cacheCreationTokens := by
  obtain ⟨hprompt, hcompletion, hhits⟩ := u.countAt_toValue
  obtain ⟨hcached, hcreation⟩ := u.countAt_details
  have husage : (((Json.obj fields).setField "usage" u.toValue).get "usage").filter
      (·.asObject.isSome) = some u.toValue := by
    rw [Json.get_setField_self rfl]
    rfl
  have hread : (if u.cachedTokens = 0 then 0 else u.cachedTokens) = u.cachedTokens := by
    split <;> omega
  simp only [Claude.captureUsage, husage, hprompt, hcompletion, hhits, hcached, hcreation, hread,
    and_self]

end Usage

/-- Claude's usage of a stream has the counts of the state. -/
theorem countAt_claudeUsageValue (s : StreamState) :
    countAt (Claude.claudeUsageValue s) ["input_tokens"] = s.claudeInputTokens ∧
      countAt (Claude.claudeUsageValue s) ["output_tokens"] = s.claudeOutputTokens ∧
      countAt (Claude.claudeUsageValue s) ["cache_read_input_tokens"] = s.claudeCacheReadTokens ∧
      countAt (Claude.claudeUsageValue s) ["cache_creation_input_tokens"] =
        s.claudeCacheCreationTokens := by
  rw [countAt_one, countAt_one, countAt_one, countAt_one, Claude.claudeUsageValue]
  simp only [Json.get_object]
  by_cases hread : s.claudeCacheReadTokens > 0 <;>
    by_cases hcreation : s.claudeCacheCreationTokens > 0 <;>
    simp [hread, hcreation, List.lookup_cons, Json.nat, Json.asU64] <;> omega

private theorem cached_toValue (u : Usage) :
    ((u.toValue.pointer ["prompt_tokens_details", "cached_tokens"]).or
      (u.toValue.get "prompt_cache_hit_tokens")).or (u.toValue.get "cache_read_input_tokens") =
      if u.cachedTokens > 0 then some (Json.nat u.cachedTokens) else none := by
  have hpointer : u.toValue.pointer ["prompt_tokens_details", "cached_tokens"] =
      (u.toValue.get "prompt_tokens_details").bind (·.token? "cached_tokens") := rfl
  have htoken (fields : List (String × Json)) (key : String) :
      (Json.object fields).token? key = (Json.object fields).get key := rfl
  rw [hpointer, u.get_promptDetails, u.get_toValue (by decide) (by decide),
    u.get_toValue (by decide) (by decide)]
  by_cases hcached : u.cachedTokens > 0 <;> by_cases hcreation : u.cacheCreationTokens > 0 <;>
    simp [hcached, hcreation, htoken, Json.get_object, List.lookup_cons]

/-- Claude's usage of a whole body has the prompt as it is, and of the cached tokens those read. -/
theorem countAt_claudeUsage (u : Usage) :
    let usage := Body.claudeUsage (some u.toValue)
    countAt usage ["input_tokens"] = u.promptTokens ∧
      countAt usage ["output_tokens"] = u.completionTokens ∧
      countAt usage ["cache_read_input_tokens"] = u.cachedTokens ∧
      countAt usage ["cache_creation_input_tokens"] = 0 := by
  have hprompt : Body.usageField (some u.toValue) "prompt_tokens" "input_tokens" =
      u.promptTokens := by
    rw [Body.usageField, Option.bind_some, u.get_toValue (by decide) (by decide)]
    rfl
  have hcompletion : Body.usageField (some u.toValue) "completion_tokens" "output_tokens" =
      u.completionTokens := by
    rw [Body.usageField, Option.bind_some, u.get_toValue (by decide) (by decide)]
    rfl
  simp only [countAt_one, Body.claudeUsage, Option.bind_some, cached_toValue, hprompt, hcompletion,
    Json.get_object]
  by_cases hcached : u.cachedTokens > 0 <;>
    simp [hcached, List.lookup_cons, Json.nat, Json.asU64, Option.filter]
  omega

/-! ## There and back -/

namespace ClaudeUsage

variable (u : ClaudeUsage)

/-- The counts of the usage are read. -/
theorem toOpenai_eq (overflowChecks : Bool) : u.toOpenai overflowChecks =
    (Usage.ofCounts (addU64 overflowChecks) u.input.toNat u.output.toNat u.cacheRead.toNat
      u.cacheCreation.toNat).map some := by
  rw [toOpenai, Usage.toOpenaiUsage, if_neg (by simp [toJson, Json.object, Json.asObject]),
    Usage.ofObject, countAt_one, countAt_one, countAt_one, countAt_one, toJson]
  simp only [Json.get_object]
  rfl

/-- A stream brings the counts back where the prompt less its cached tokens is the input. -/
theorem sameBack_streamedBack_iff (overflowChecks : Bool) (fields : List (String × Json))
    (s : StreamState) : u.SameBack (u.streamedBack overflowChecks fields s) ↔
      ∃ usage, Usage.ofCounts (addU64 overflowChecks) u.input.toNat u.output.toNat
          u.cacheRead.toNat u.cacheCreation.toNat = some usage ∧
        (addU64 overflowChecks usage.promptTokens u.output.toNat).isSome = true ∧
        usage.promptTokens - u.cacheRead.toNat - u.cacheCreation.toNat = u.input.toNat := by
  rw [SameBack, streamedBack, toOpenai_eq]
  cases husage : Usage.ofCounts (addU64 overflowChecks) u.input.toNat u.output.toNat
    u.cacheRead.toNat u.cacheCreation.toNat with
  | none => simp
  | some usage =>
    obtain ⟨hcompletion, hread, hcreation⟩ := Usage.ofCounts_eq_some husage
    obtain ⟨hinput, hout, hread', hcreation'⟩ := usage.captureUsage_toValue fields s
    have hchunk : Claude.chunkUsage ((Json.obj fields).setField "usage" usage.toValue) =
        some usage.toValue := by
      rw [Claude.chunkUsage, Json.get_setField_self rfl]
      rfl
    simp only [Option.map_some, Option.bind_some, Claude.captureUsageWith, hchunk,
      usage.countAt_toValue.1, usage.countAt_toValue.2.1, hcompletion, Option.some.injEq]
    cases htotal : addU64 overflowChecks usage.promptTokens u.output.toNat with
    | none => simp [htotal]
    | some total =>
      simp [htotal, CountedIn, countAt_claudeUsageValue, hinput, hout, hread', hcreation',
        hcompletion, hread, hcreation]

/-- A whole body brings the counts back where the prompt is the input and no tokens were put into
the cache. -/
theorem sameBack_wholeBack_iff (overflowChecks : Bool) :
    u.SameBack (u.wholeBack overflowChecks) ↔
      ∃ usage, Usage.ofCounts (addU64 overflowChecks) u.input.toNat u.output.toNat
          u.cacheRead.toNat u.cacheCreation.toNat = some usage ∧
        usage.promptTokens = u.input.toNat ∧ u.cacheCreation.toNat = 0 := by
  rw [SameBack, wholeBack, toOpenai_eq]
  cases husage : Usage.ofCounts (addU64 overflowChecks) u.input.toNat u.output.toNat
    u.cacheRead.toNat u.cacheCreation.toNat with
  | none => simp
  | some usage =>
    obtain ⟨hcompletion, hread, -⟩ := Usage.ofCounts_eq_some husage
    obtain ⟨hinput, hout, hread', hcreation'⟩ := countAt_claudeUsage usage
    simp [CountedIn, hinput, hout, hread', hcreation', hcompletion, hread, eq_comm]

/-- A stream brings Claude's usage back unless a sum overflows that matters. -/
theorem sameBack_streamed_iff (overflowChecks : Bool) (fields : List (String × Json))
    (s : StreamState) : u.SameBack (u.streamedBack overflowChecks fields s) ↔
      if overflowChecks then
        u.input.toNat + u.cacheRead.toNat + u.cacheCreation.toNat + u.output.toNat ≤ u64Max
      else u.input.toNat + u.cacheRead.toNat + u.cacheCreation.toNat ≤ u64Max ∨ u.input = 0 := by
  have hmax : u64Max = 2 ^ 64 - 1 := rfl
  have hinput := u.input.toNat_lt
  have hread := u.cacheRead.toNat_lt
  have hcreation := u.cacheCreation.toNat_lt
  have hzero : u.input = 0 ↔ u.input.toNat = 0 := UInt64.toNat_inj.symm
  rw [sameBack_streamedBack_iff]
  cases overflowChecks with
  | true =>
    rw [Usage.ofCounts_checked fun prompt ↦ (addU64 true prompt u.output.toNat).isSome = true ∧
      prompt - u.cacheRead.toNat - u.cacheCreation.toNat = u.input.toNat,
      (ExactWhere.add _ _).checked, if_pos rfl]
    omega
  | false =>
    rw [Usage.ofCounts_unchecked fun prompt ↦ (addU64 false prompt u.output.toNat).isSome = true ∧
      prompt - u.cacheRead.toNat - u.cacheCreation.toNat = u.input.toNat, addU64_false,
      if_neg Bool.false_ne_true, hzero]
    simp only [Option.isSome_some, true_and]
    omega

/-- Claude's usage comes back on both ways exactly where no tokens are cached, and, with overflow
checks, where the counts add up. -/
theorem usage_conserved_iff (overflowChecks : Bool) :
    ((∀ fields s, u.SameBack (u.streamedBack overflowChecks fields s)) ∧
      u.SameBack (u.wholeBack overflowChecks)) ↔
      u.cacheRead = 0 ∧ u.cacheCreation = 0 ∧
        (overflowChecks = true → u.input.toNat + u.output.toNat ≤ u64Max) := by
  have hmax : u64Max = 2 ^ 64 - 1 := rfl
  have hinput := u.input.toNat_lt
  have hread := u.cacheRead.toNat_lt
  have hzero (n : UInt64) : n = 0 ↔ n.toNat = 0 := UInt64.toNat_inj.symm
  have hstate : Nonempty StreamState := ⟨{ clock := fun _ ↦ 0 }⟩
  simp only [sameBack_streamed_iff, sameBack_wholeBack_iff, hzero, forall_const]
  cases overflowChecks with
  | true =>
    rw [Usage.ofCounts_checked fun prompt ↦ prompt = u.input.toNat ∧ u.cacheCreation.toNat = 0,
      if_pos rfl]
    simp only [true_imp_iff]
    omega
  | false =>
    rw [Usage.ofCounts_unchecked fun prompt ↦ prompt = u.input.toNat ∧ u.cacheCreation.toNat = 0,
      if_neg Bool.false_ne_true]
    simp only [Bool.false_eq_true, false_imp_iff, and_true]
    omega

/-- Of a usage with cached tokens, the stream brings the counts back and the whole body does
not. -/
theorem cached_tokens_not_conserved :
    (⟨10, 5, 3, 2⟩ : ClaudeUsage).SameBack
      ((⟨10, 5, 3, 2⟩ : ClaudeUsage).streamedBack true [] { clock := fun _ ↦ 0 }) ∧
    ¬ (⟨10, 5, 3, 2⟩ : ClaudeUsage).SameBack ((⟨10, 5, 3, 2⟩ : ClaudeUsage).wholeBack true) := by
  rw [sameBack_streamed_iff, sameBack_wholeBack_iff]
  refine ⟨by decide, ?_⟩
  rintro ⟨usage, -, -, hcreation⟩
  exact absurd hcreation (by decide)

end ClaudeUsage
end NullRouter.Translate
