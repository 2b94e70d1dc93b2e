import NullRouter.Base.Json
import NullRouter.Base.Text

/-!
# Formats, usage and the parts of a chunk

What the translators share: `crates/providers/src/format.rs`, and of
`crates/translate/src/concerns.rs` the usage arithmetic, the finish reasons, the reasoning text
of a delta and the shape of an OpenAI chunk.
-/

namespace NullRouter.Translate

open NullRouter.Base

/-- `Format`, `format.rs:15`. -/
inductive Format where
  | openAi
  | openAiResponses
  | claude
  | gemini
  | geminiCli
  | vertex
  | codex
  | antigravity
  | kiro
  | cursor
  | ollama
  | commandCode
  | grokWeb
  | perplexityWeb
  deriving DecidableEq

namespace Format

/-- `formats_equivalent`, `lib.rs:65`. -/
def equivalent (source target : Format) : Bool :=
  source == target &&
    (source == .openAi || source == .claude || source == .gemini || source == .openAiResponses)

end Format

/-- `Usage`, `concerns.rs:12`. -/
structure Usage where
  promptTokens : Nat := 0
  completionTokens : Nat := 0
  totalTokens : Nat := 0
  cachedTokens : Nat := 0
  cacheCreationTokens : Nat := 0
  reasoningTokens : Nat := 0
  deriving DecidableEq

/-- A field of fields, as a count that is 0 where it is no integer. -/
def countAt (v : Json) (path : List String) : Nat :=
  ((path.foldl (fun v key ↦ v.bind (·.get key)) (some v)).bind Json.asU64).getD 0

namespace Usage

/-- `Usage::to_value`, `concerns.rs:26`. -/
def toValue (u : Usage) : Json :=
  let cached := if u.cachedTokens > 0 then [("cached_tokens", Json.nat u.cachedTokens)] else []
  let creation := if u.cacheCreationTokens > 0 then
    [("cache_creation_tokens", Json.nat u.cacheCreationTokens)] else []
  let details := if u.cachedTokens > 0 ∨ u.cacheCreationTokens > 0 then
    [("prompt_tokens_details", Json.object (cached ++ creation))] else []
  let reasoning := if u.reasoningTokens > 0 then
    [("completion_tokens_details",
      Json.object [("reasoning_tokens", Json.nat u.reasoningTokens)])] else []
  Json.object ([("prompt_tokens", Json.nat u.promptTokens),
    ("completion_tokens", Json.nat u.completionTokens),
    ("total_tokens", Json.nat u.totalTokens)] ++ details ++ reasoning)

/-- `usage_from_openai`, `crates/execute/src/stream.rs:599`. -/
def ofOpenai (usage : Json) : Usage where
  promptTokens := countAt usage ["prompt_tokens"]
  completionTokens := countAt usage ["completion_tokens"]
  totalTokens := countAt usage ["total_tokens"]
  cachedTokens := countAt usage ["prompt_tokens_details", "cached_tokens"]
  cacheCreationTokens := countAt usage ["prompt_tokens_details", "cache_creation_tokens"]
  reasoningTokens := countAt usage ["completion_tokens_details", "reasoning_tokens"]

/-- `to_openai_usage` of a Claude message, `concerns.rs:83`: the prompt holds the tokens of the
cache too. -/
def ofClaude (raw : Json) : Option Usage :=
  raw.asObject.map fun _ ↦
    let output := countAt raw ["output_tokens"]
    let cacheRead := countAt raw ["cache_read_input_tokens"]
    let cacheCreate := countAt raw ["cache_creation_input_tokens"]
    let prompt := countAt raw ["input_tokens"] + cacheRead + cacheCreate
    { promptTokens := prompt
      completionTokens := output
      totalTokens := prompt + output
      cachedTokens := cacheRead
      cacheCreationTokens := cacheCreate }

/-- `to_openai_usage` of a Gemini reply, `concerns.rs:99`: where the candidates are not counted,
they are what is left of the total. -/
def ofGemini (raw : Json) : Option Usage :=
  raw.asObject.map fun _ ↦
    let prompt := countAt raw ["promptTokenCount"]
    let thoughts := countAt raw ["thoughtsTokenCount"]
    let total := countAt raw ["totalTokenCount"]
    let counted := countAt raw ["candidatesTokenCount"]
    let candidates := if counted = 0 ∧ 0 < total then total - prompt - thoughts else counted
    { promptTokens := prompt
      completionTokens := candidates + thoughts
      totalTokens := total
      cachedTokens := countAt raw ["cachedContentTokenCount"]
      reasoningTokens := thoughts }

/-- `to_openai_usage` of an Ollama reply, `concerns.rs:138`. -/
def ofOllama (raw : Json) : Option Usage :=
  raw.asObject.map fun _ ↦
    let input := countAt raw ["prompt_eval_count"]
    let output := countAt raw ["eval_count"]
    { promptTokens := input
      completionTokens := output
      totalTokens := input + output }

/-- `to_openai_usage` of a CommandCode event, `concerns.rs:148`. -/
def ofCommandCode (raw : Json) : Option Usage :=
  raw.asObject.map fun _ ↦
    let input := countAt raw ["inputTokens"]
    let output := countAt raw ["outputTokens"]
    { promptTokens := input
      completionTokens := output
      totalTokens := ((raw.get "totalTokens").bind Json.asU64).getD (input + output) }

end Usage

/-- `to_openai_finish` of a CommandCode reason, `concerns.rs:203`. -/
def finishOfCommandCode (reason : String) : String :=
  if reason = "length" then "length"
  else if reason = "tool-calls" ∨ reason = "tool_use" then "tool_calls"
  else if reason = "content-filter" then "content_filter"
  else if reason = "stop" ∨ reason = "error" ∨ reason = "" then "stop"
  else reason

/-- `to_openai_finish` of a Claude reason, `concerns.rs:196`. -/
def finishOfClaude (reason : String) : String :=
  if reason = "max_tokens" then "length"
  else if reason = "tool_use" then "tool_calls"
  else "stop"

/-- `to_openai_finish` of a Gemini reason, `concerns.rs:212`. -/
def finishOfGemini (reason : String) : String :=
  let upper := String.ofList (toUppercase reason.toList)
  if upper = "MAX_TOKENS" then "length"
  else if upper = "SAFETY" ∨ upper = "RECITATION" ∨ upper = "BLOCKLIST" ∨
    upper = "PROHIBITED_CONTENT" then "content_filter"
  else "stop"

/-- `to_openai_finish` of an Ollama reason, `concerns.rs:220`. -/
def finishOfOllama (reason : String) : String :=
  if reason = "tool_calls" ∨ reason = "tool_use" then "tool_calls"
  else if reason = "length" ∨ reason = "max_tokens" then "length"
  else "stop"

/-- `from_openai_finish` for a Claude client, `concerns.rs:233`. -/
def finishToClaude (reason : String) : String :=
  if reason = "length" then "max_tokens"
  else if reason = "tool_calls" then "tool_use"
  else "end_turn"

/-- The text of one entry of `reasoning_details`. -/
def reasoningDetail (detail : Json) : String :=
  detail.asStr.getD ((((detail.get "text").or (detail.get "content")).bind Json.asStr).getD "")

/-- `extract_reasoning_text`, `concerns.rs:258`. -/
def extractReasoningText (delta : Option Json) : String :=
  match delta.filter (·.asObject.isSome) with
  | none => ""
  | some delta =>
    match (delta.strField "reasoning_content").filter (!·.isEmpty) with
    | some text => text
    | none =>
      match (delta.strField "reasoning").filter (!·.isEmpty) with
      | some text => text
      | none => ((delta.get "reasoning_details").bind Json.asArray).elim ""
          fun details ↦ String.join (details.map reasoningDetail)

/-- `reasoning_delta`, `concerns.rs:247`. -/
def reasoningDelta (text : String) (withRole : Bool) : Json :=
  if withRole then Json.object [("role", .str "assistant"), ("reasoning_content", .str text)]
  else Json.object [("reasoning_content", .str text)]

/-- `ChunkMeta`, `concerns.rs:295`. -/
structure ChunkMeta where
  id : String
  created : Nat
  model : String

/-- `build_chunk`, `concerns.rs:308`. -/
def buildChunk (m : ChunkMeta) (delta : Json) (finishReason : Option String) : Json :=
  Json.object [("id", .str m.id), ("object", .str "chat.completion.chunk"),
    ("created", Json.nat m.created), ("model", .str m.model),
    ("choices", .arr [Json.object [("index", Json.nat 0), ("delta", delta),
      ("finish_reason", finishReason.elim .null .str)]])]

end NullRouter.Translate
