import NullRouter.Translate.Response.GeminiToOpenai

/-!
# Whole replies from one format to another

`translate_body`, `crates/translate/src/body.rs`, and `body_to_openai`,
`crates/translate/src/response/ollama_to_openai.rs:156`: a reply that is not streamed goes from
the provider's format to OpenAI's and from there to Claude's, if the client speaks that.
-/

namespace NullRouter.Translate.Body

open NullRouter.Base

/-- `strip_json_fence`, `body.rs:403`. -/
def stripJsonFence (text : String) : String :=
  let trimmed := trim text
  match ((stripPrefix? "```json" trimmed).or (stripPrefix? "```JSON" trimmed)).or
    (stripPrefix? "```" trimmed) with
  | none => text
  | some inner =>
    match "```".toList.isPrefixOf? (trimEnd inner.toList).reverse with
    | none => text
    | some body => String.ofList (trimEnd (body.reverse.dropWhile (· = '\n')))

/-- Taking a fence off leaves a part of the text. -/
theorem stripJsonFence_sublist (text : String) :
    (stripJsonFence text).toList.Sublist text.toList := by
  have htrim : (trim text).toList.Sublist text.toList := by
    rw [trim, String.toList_ofList]
    exact trimChars_sublist _
  have hstart {start inner : String} (h : stripPrefix? start (trim text) = some inner) :
      inner.toList.Sublist text.toList := by
    obtain ⟨rest, hrest, rfl⟩ := Option.map_eq_some_iff.mp h
    rw [String.toList_ofList]
    exact (sublist_of_isPrefixOf? hrest).trans htrim
  simp only [stripJsonFence]
  split
  · exact List.Sublist.refl _
  · next inner hinner =>
    have hsub : inner.toList.Sublist text.toList := by
      rcases Option.or_eq_some_iff.mp hinner with h | ⟨-, h⟩
      · rcases Option.or_eq_some_iff.mp h with h | ⟨-, h⟩
        · exact hstart h
        · exact hstart h
      · exact hstart h
    split
    · exact List.Sublist.refl _
    · next body hbody =>
      have hkept := (sublist_of_isPrefixOf? hbody).reverse
      rw [List.reverse_reverse] at hkept
      rw [String.toList_ofList]
      exact (trimEnd_sublist _).trans
        ((List.dropWhile_sublist _).trans (hkept.trans ((trimEnd_sublist _).trans hsub)))

/-- `assistant_message`, `body.rs:352`. -/
def assistantMessage (text reasoning : String) (toolCalls : List Json) : Json :=
  Json.object ([("role", .str "assistant")] ++
    (if text.isEmpty then [] else [("content", Json.str text)]) ++
    (if reasoning.isEmpty then [] else [("reasoning_content", Json.str reasoning)]) ++
    (if toolCalls = [] then [] else [("tool_calls", Json.arr toolCalls)]) ++
    (if text.isEmpty && toolCalls.isEmpty then [("content", Json.str "")] else []))

/-- `completion`, `body.rs:376`. -/
def completion (id model : String) (created : Nat) (message : Json) (finishReason : String)
    (usage : Option Usage) : Json :=
  Json.object ([("id", .str id), ("object", .str "chat.completion"), ("created", Json.nat created),
    ("model", .str model),
    ("choices", .arr [Json.object [("index", Json.nat 0), ("message", message),
      ("finish_reason", .str finishReason)]])] ++
    (usage.map fun usage ↦ ("usage", usage.toValue)).toList)

/-- The id of a reply, made from the clock where it has none, and the time. -/
def identity (id : Option String) (s : StreamState) : String × Nat :=
  match id with
  | some id => ("chatcmpl-" ++ id, s.nowSeconds.1)
  | none => ("chatcmpl-" ++ toString s.nowMillis.1, s.nowMillis.2.nowSeconds.1)

/-- The blocks of a Claude message. -/
def claudeBlocks (body : Json) : List Json := (arrayField body "content").getD []

/-- The text of a Claude message: fences are taken off each block. -/
def claudeText (body : Json) : String :=
  String.join (((claudeBlocks body).filter (hasType "text")).map fun block ↦
    stripJsonFence (textOrEmpty block "text"))

/-- The thinking of a Claude message. -/
def claudeThinking (body : Json) : String :=
  String.join (((claudeBlocks body).filter (hasType "thinking")).map (textOrEmpty · "thinking"))

/-- The tool call of a Claude block. -/
def claudeToolCall (write : Json → String) (block : Json) : Json :=
  Json.object [("id", fieldOrNull block "id"), ("type", .str "function"),
    ("function", Json.object [("name", .str (textOrEmpty block "name")),
      ("arguments", .str (write ((block.get "input").getD (Json.object []))))])]

/-- The finish reason of a Claude message. -/
def claudeFinish (body : Json) : String :=
  match body.strField "stop_reason" with
  | none => "stop"
  | some reason =>
    if reason = "end_turn" then "stop"
    else if reason = "tool_use" then "tool_calls"
    else reason

/-- Whether a reply to a Claude request is not a Claude message. -/
def isForeign (body : Json) : Bool :=
  (body.get "choices").isSome ||
    (body.get "content").any fun content ↦ !content.isNull && content.asArray.isNone

/-- `claude_body_to_openai`, `body.rs:51`. -/
def claudeBodyToOpenai (write : Json → String) (body : Json) (s : StreamState) : Json :=
  if isForeign body then body
  else
    let identified := identity (body.strField "id") s
    completion identified.1 ((body.strField "model").getD "claude") identified.2
      (assistantMessage (claudeText body) (claudeThinking body)
        (((claudeBlocks body).filter (hasType "tool_use")).map (claudeToolCall write)))
      (claudeFinish body) ((body.get "usage").bind Usage.ofClaude)

section Gemini

open Response.GeminiToOpenai

/-- What one part adds to the text of a Gemini reply: its text, unless it is thinking, and its
inline data as an image. -/
def geminiPartText (part : Json) : String :=
  (if isThought part then "" else (part.strField "text").getD "") ++
  ((inlineOf part).bind fun inline ↦ (inline.strField "data").map fun data ↦
    "\n![image](data:" ++ inlineMime inline ++ ";base64," ++ data ++ ")\n").getD ""

/-- What one part adds to the thinking of a Gemini reply. -/
def geminiPartReasoning (part : Json) : String :=
  if isThought part then (part.strField "text").getD "" else ""

/-- The tool calls of the parts of a Gemini reply, numbered from a position, with one reading of
the clock for each. -/
def geminiToolCalls (write : Json → String) : List Json → Nat → StreamState →
    List Json × StreamState
  | [], _, s => ([], s)
  | call :: calls, position, s =>
    let name := textOrEmpty call "name"
    let rest := geminiToolCalls write calls (position + 1) s.nowMillis.2
    (Json.object [
      ("id", .str ("call_" ++ name ++ "_" ++ toString s.nowMillis.1 ++ "_" ++ toString position)),
      ("type", .str "function"),
      ("function", Json.object [("name", .str name),
        ("arguments", .str (write ((call.get "args").getD (Json.object []))))])] :: rest.1, rest.2)

/-- The finish reason of a Gemini reply. -/
def geminiFinish (candidate : Json) (hasCalls : Bool) : String :=
  let finish := String.ofList (toLowercase ((candidate.strField "finishReason").getD "stop").toList)
  if finish = "stop" ∧ hasCalls then "tool_calls" else finish

/-- `gemini_body_to_openai`, `body.rs:131`. -/
def geminiBodyToOpenai (write : Json → String) (body : Json) (s : StreamState) : Json :=
  match firstCandidate (responseOf body) with
  | none => body
  | some candidate =>
    let response := responseOf body
    let parts := candidateParts candidate
    let calls := geminiToolCalls write (parts.filterMap (·.get "functionCall")) 0 s
    let identified := identity (response.strField "responseId") calls.2
    completion identified.1 ((response.strField "modelVersion").getD "gemini") identified.2
      (assistantMessage (String.join (parts.map geminiPartText))
        (String.join (parts.map geminiPartReasoning)) calls.1)
      (geminiFinish candidate (calls.1 ≠ [])) ((usageMeta body).bind Usage.ofGemini)

end Gemini

/-- `openai_tool_call`, `ollama_to_openai.rs:124`: the calls of an Ollama reply, numbered from a
position, with a reading of the clock for each that has no id. -/
def ollamaToolCalls (write : Json → String) : List Json → Nat → StreamState →
    List Json × StreamState
  | [], _, s => ([], s)
  | call :: calls, position, s =>
    let function := call.get "function"
    let index := ((function.bind (·.get "index")).bind Json.asU64).getD position
    let arguments := match function.bind (·.get "arguments") with
      | some (.str text) => text
      | some other => write other
      | none => "\x7b\x7d"
    let identified := match call.strField "id" with
      | some id => (id, s)
      | none => ("call_" ++ toString position ++ "_" ++ toString s.nowMillis.1, s.nowMillis.2)
    let rest := ollamaToolCalls write calls (position + 1) identified.2
    (Json.object [("index", Json.nat index), ("id", .str identified.1), ("type", .str "function"),
      ("function", Json.object [("name", .str ((function.bind (·.strField "name")).getD "")),
        ("arguments", .str arguments)])] :: rest.1, rest.2)

/-- `body_to_openai`, `ollama_to_openai.rs:156`. -/
def ollamaBodyToOpenai (write : Json → String) (body : Json) (s : StreamState) : Json :=
  let message := body.get "message"
  let text := fun key ↦ (message.bind (·.strField key)).getD ""
  let calls := ollamaToolCalls write ((message.bind (arrayField · "tool_calls")).getD []) 0 s
  let finish := if calls.1 = [] then finishOfOllama (textOrEmpty body "done_reason")
    else "tool_calls"
  Json.object [("id", .str ("chatcmpl-" ++ toString calls.2.nowMillis.1)),
    ("object", .str "chat.completion"), ("created", Json.nat calls.2.nowMillis.2.nowSeconds.1),
    ("model", .str ((body.strField "model").getD "ollama")),
    ("choices", .arr [Json.object [("index", Json.nat 0),
      ("message", assistantMessage (text "content") (text "thinking") calls.1),
      ("finish_reason", .str finish)]]),
    ("usage", ((Usage.ofOllama body).map Usage.toValue).getD .null)]

/-- `usage_field`, `body.rs:328`. -/
def usageField (usage : Option Json) (openai claude : String) : Nat :=
  ((usage.bind fun usage ↦ (usage.get openai).or (usage.get claude)).bind Json.asU64).getD 0

/-- `tool_input`, `body.rs:340`. -/
def toolInput (read : String → Option Json) (raw : Option Json) : Json :=
  match raw with
  | some (.str text) => ((read text).filter (·.asObject.isSome)).getD (Json.object [])
  | some (.obj fields) => .obj fields
  | _ => Json.object []

/-- The thinking and the text of an OpenAI message as blocks. -/
def openaiTextBlocks (message : Option Json) : List Json :=
  let reasoning := message.bind fun message ↦ (message.get "reasoning_content").or
    ((message.get "provider_specific_fields").bind (·.get "reasoning_content"))
  (((reasoning.bind Json.asStr).filter (!·.isEmpty)).map fun text ↦
    Json.object [("type", .str "thinking"), ("thinking", .str text)]).toList ++
  (((message.bind (·.strField "content")).filter (!·.isEmpty)).map fun text ↦
    Json.object [("type", .str "text"), ("text", .str text)]).toList

/-- The tool calls of an OpenAI message as blocks, numbered from a position. -/
def openaiToolBlocks (read : String → Option Json) : List Json → Nat → StreamState →
    List Json × StreamState
  | [], _, s => ([], s)
  | call :: calls, position, s =>
    let function := call.get "function"
    let field := fun key ↦ (function.bind (·.get key)).or (call.get key)
    let identified := match call.strField "id" with
      | some id => (id, s)
      | none => ("toolu_" ++ toString s.nowMillis.1 ++ "_" ++ toString position, s.nowMillis.2)
    let rest := openaiToolBlocks read calls (position + 1) identified.2
    (Json.object [("type", .str "tool_use"), ("id", .str identified.1),
      ("name", .str (((field "name").bind Json.asStr).getD "")),
      ("input", toolInput read (field "arguments"))] :: rest.1, rest.2)

/-- The usage of an OpenAI reply as Claude's. -/
def claudeUsage (usage : Option Json) : Json :=
  let cached := (usage.bind fun usage ↦
    ((usage.pointer ["prompt_tokens_details", "cached_tokens"]).or
      (usage.get "prompt_cache_hit_tokens")).or (usage.get "cache_read_input_tokens")).bind
        Json.asU64
  Json.object ([("input_tokens", Json.nat (usageField usage "prompt_tokens" "input_tokens")),
    ("output_tokens", Json.nat (usageField usage "completion_tokens" "output_tokens"))] ++
    ((cached.filter (0 < ·)).map fun count ↦
      ("cache_read_input_tokens", Json.nat count)).toList)

/-- `openai_body_to_claude`, `body.rs:227`. -/
def openaiBodyToClaude (read : String → Option Json) (body : Json) (s : StreamState) : Json :=
  match (arrayField body "choices").bind List.head? with
  | none => body
  | some choice =>
    let message := choice.get "message"
    let texts := openaiTextBlocks message
    let tools := openaiToolBlocks read ((message.bind (arrayField · "tool_calls")).getD [])
      texts.length s
    let content := if texts ++ tools.1 = [] then
        [Json.object [("type", .str "text"), ("text", .str "")]]
      else texts ++ tools.1
    let id := match body.strField "id" with
      | some id => (stripPrefix? "chatcmpl-" id).getD id
      | none => "msg_" ++ toString tools.2.nowMillis.1
    Json.object [("id", .str id), ("type", .str "message"), ("role", .str "assistant"),
      ("model", .str ((body.strField "model").getD "unknown")), ("content", .arr content),
      ("stop_reason", .str (finishToClaude ((choice.strField "finish_reason").getD "stop"))),
      ("stop_sequence", .null), ("usage", claudeUsage (body.get "usage"))]

/-- The first step of `translate_body`: the provider's reply as OpenAI's. -/
def bodyToOpenai (write : Json → String) (target : Format) (body : Json) (s : StreamState) :
    Json :=
  match target with
  | .claude => claudeBodyToOpenai write body s
  | .gemini | .geminiCli | .vertex | .antigravity => geminiBodyToOpenai write body s
  | .ollama => ollamaBodyToOpenai write body s
  | .openAi | .openAiResponses | .codex | .kiro | .cursor | .commandCode | .grokWeb
  | .perplexityWeb => body

/-- `translate_body`, `body.rs:27`. -/
def translateBody (serde : SerdeJson) (target source : Format) (body : Json) (s : StreamState) :
    Json :=
  if target = source then body
  else
    let pivot := bodyToOpenai serde.toText target body s
    if source = .claude then openaiBodyToClaude serde.fromStr pivot s else pivot

end NullRouter.Translate.Body
