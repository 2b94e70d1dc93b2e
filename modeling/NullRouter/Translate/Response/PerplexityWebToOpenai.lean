import NullRouter.Base.Markers
import NullRouter.Base.Offsets
import NullRouter.Translate.State

/-!
# Perplexity's web events to OpenAI chunks

`crates/translate/src/response/perplexity_web_to_openai.rs`. Every event carries the answer as it
stands, of which the part beyond what was sent goes out, without the markup of Perplexity's own.
Writing JSON text is a parameter.
-/

namespace NullRouter.Translate.Response.PerplexityWebToOpenai

open NullRouter.Base

/-! ## Cleaning -/

/-- The rule of `strip_between`, `perplexity_web_to_openai.rs:146`, for declarations. -/
def xmlRule : Rule Char := Rule.between "<?xml".toList "?>".toList

/-- `strip_xml_declarations`, `perplexity_web_to_openai.rs:58`. -/
def stripXmlDeclarations (text : List Char) : List Char := xmlRule.scan none 0 text

/-- Where a tag that a text begins with ends: a pair at the end of its closing tag, a tag alone at
the end of it. -/
def grokEnd (text : List Char) : Nat :=
  match findText "</grok:".toList text with
  | some close => ((endOf ['>'] (text.drop close)).map (close + ·)).getD text.length
  | none => ((endOf "/>".toList text).or (endOf ['>'] text)).getD text.length

/-- What the loop of `strip_grok_tags`, `perplexity_web_to_openai.rs:63`, does at a place. -/
def grokRule : Rule Char := fun _ text ↦
  if "<grok:".toList.isPrefixOf text then some ([], grokEnd text) else none

/-- `strip_grok_tags`, `perplexity_web_to_openai.rs:63`. -/
def stripGrokTags (text : List Char) : List Char := grokRule.scan none 0 text

/-- The name in a tag, `perplexity_web_to_openai.rs:102–109`. -/
def tagName (tag : List Char) : List Char :=
  let inner := ((tag.dropWhile (· = '<')).reverse.dropWhile (· = '>')).reverse.dropWhile (· = '/')
  (trimChars inner).takeWhile (!isWhitespace ·)

/-- Whether a tag is `response`, whatever its case. -/
def isResponseTag (tag : List Char) : Bool := (tagName tag).map Char.toLower = "response".toList

/-- `strip_response_tags`, `perplexity_web_to_openai.rs:89`. -/
def stripResponseTags (text : List Char) : List Char :=
  (Rule.bracket '<' '>' isResponseTag).scan none 0 text

/-- Whether a bracket holds digits alone. -/
def isCitation (bracket : List Char) : Bool :=
  let inner := (bracket.drop 1).dropLast
  !inner.isEmpty && inner.all Char.isDigit

/-- `strip_citations`, `perplexity_web_to_openai.rs:122`. -/
def stripCitations (text : List Char) : List Char :=
  (Rule.bracket '[' ']' isCitation).scan none 0 text

/-- `collapse_whitespace`, `perplexity_web_to_openai.rs:162`, after so many blanks and so many line
ends in a row. -/
def collapseWhitespace : (spaces newlines : Nat) → List Char → List Char
  | _, _, [] => []
  | spaces, newlines, c :: text =>
    if c = ' ' then
      (if spaces = 0 then [' '] else []) ++ collapseWhitespace (spaces + 1) 0 text
    else if c = '\n' then
      (if newlines < 2 then ['\n'] else []) ++ collapseWhitespace 0 (newlines + 1) text
    else c :: collapseWhitespace 0 0 text

/-- `clean`, `perplexity_web_to_openai.rs:44`. -/
def clean (text : List Char) (collapse : Bool) : List Char :=
  let cleaned := stripCitations (stripResponseTags (stripGrokTags (stripXmlDeclarations text)))
  if collapse then trimChars (collapseWhitespace 0 0 cleaned) else cleaned

/-! ## Events -/

/-- `StreamState` with the fields that are Perplexity's own, `state.rs:168–179`. -/
structure PerplexityState extends StreamState where
  pplxCreated : Option Nat := none
  pplxSeen : Nat := 0
  pplxAnswer : String := ""
  pplxSeenReasoning : List String := []
  pplxBackendUuid : Option String := none

/-- `chunk_meta`, `perplexity_web_to_openai.rs:27`. -/
def chunkMeta (s : PerplexityState) : ChunkMeta × PerplexityState :=
  let identity := s.toStreamState.chunkMeta "chatcmpl-pplx-" s.pplxCreated
  (identity.1, { s with toStreamState := identity.2 })

/-- A step that puts out one chunk. -/
def emit (delta : Json) (finishReason : Option String) (s : PerplexityState) :
    List Json × PerplexityState :=
  ([buildChunk (chunkMeta s).1 delta finishReason], (chunkMeta s).2)

/-- The first event fixes the id and the time of the response. -/
def identify (s : PerplexityState) : PerplexityState :=
  match s.messageId with
  | some _ => s
  | none =>
    let fixed := s.toStreamState.fixIdentity "chatcmpl-pplx-"
    { s with toStreamState := fixed.2, pplxCreated := some fixed.1 }

/-- Whether an event is an error. -/
def isError (raw : Json) : Bool :=
  (raw.get "error_code").isSome || (raw.get "error_message").isSome

/-- What an error says. -/
def errorText (write : Json → String) (raw : Json) : String :=
  ((raw.strField "error_message").or
    ((raw.get "error_code").map fun code ↦ "Perplexity error: " ++ write code)).getD
      "Perplexity error"

/-- Items one after the other, with the chunks of each. -/
def each {α : Type} (step : α → PerplexityState → List Json × PerplexityState) :
    List α → PerplexityState → List Json × PerplexityState
  | [], s => ([], s)
  | item :: items, s =>
    let first := step item s
    let rest := each step items first.2
    (first.1 ++ rest.1, rest.2)

/-- `advance`, `perplexity_web_to_openai.rs:338`. -/
def advance (full : String) (s : PerplexityState) : List Json × PerplexityState :=
  if full.utf8ByteSize ≤ s.pplxSeen then ([], s)
  else
    match getFrom s.pplxSeen full with
    | none => ([], s)
    | some delta =>
      let s := { s with pplxSeen := full.utf8ByteSize, pplxAnswer := full }
      let visible := clean delta.toList false
      if visible.isEmpty then ([], s)
      else emit (Json.object [("content", .str (String.ofList visible))]) none s

/-- `reasoning`, `perplexity_web_to_openai.rs:362`. -/
def reasoning (text : String) (s : PerplexityState) : List Json × PerplexityState :=
  if text.isEmpty || s.pplxSeenReasoning.contains text then ([], s)
  else
    emit (Json.object [("reasoning_content", .str (text ++ "\n"))]) none
      { s with pplxSeenReasoning := s.pplxSeenReasoning ++ [text] }

/-- The items under a path, if there is a list. -/
def itemsAt (v : Json) (path : List String) : List Json :=
  ((v.pointer path).bind Json.asArray).getD []

/-- What a step of a search says, `perplexity_web_to_openai.rs:270`. -/
def stepTexts (step : Json) : List String :=
  match step.strField "step_type" with
  | some "SEARCH_WEB" =>
    (itemsAt step ["search_web_content", "queries"]).filterMap fun query ↦
      (query.strField "query").map ("Searching: " ++ ·)
  | some "READ_RESULTS" =>
    ((itemsAt step ["read_results_content", "urls"]).take 3).filterMap fun url ↦
      url.asStr.map ("Reading: " ++ ·)
  | _ => []

/-- `search_steps`, `perplexity_web_to_openai.rs:262`. -/
def searchSteps (block : Json) (s : PerplexityState) : List Json × PerplexityState :=
  each reasoning ((itemsAt block ["plan_block", "steps"]).flatMap stepTexts) s

/-- `plan_goals`, `perplexity_web_to_openai.rs:305`. -/
def planGoals (block : Json) (s : PerplexityState) : List Json × PerplexityState :=
  each reasoning ((itemsAt block ["plan_block", "goals"]).filterMap (·.strField "description")) s

/-- The answer that a markdown block carries, `perplexity_web_to_openai.rs:317–329`. -/
def blockAnswer (block : Json) : Option String :=
  ((block.get "markdown_block").bind fun markdown ↦ (markdown.get "chunks").bind Json.asArray).bind
    fun chunks ↦ if chunks.isEmpty then none else some (String.join (chunks.filterMap Json.asStr))

/-- `answer`, `perplexity_web_to_openai.rs:317`. -/
def answer (block : Json) (s : PerplexityState) : List Json × PerplexityState :=
  match blockAnswer block with
  | none => ([], s)
  | some joined => advance joined s

/-- A block by its usage, `perplexity_web_to_openai.rs:235–247`. -/
def relayBlock (block : Json) (s : PerplexityState) : List Json × PerplexityState :=
  let usage := (block.strField "intended_usage").getD ""
  if usage = "pro_search_steps" then searchSteps block s
  else if usage = "plan" then planGoals block s
  else if containsText usage.toList "markdown".toList then answer block s
  else ([], s)

/-- The blocks of an event. -/
def eventBlocks (raw : Json) : List Json := ((raw.get "blocks").bind Json.asArray).getD []

/-- The thread of a follow-up. -/
def rememberThread (raw : Json) (s : PerplexityState) : PerplexityState :=
  { s with
    pplxBackendUuid := ((raw.strField "backend_uuid").filter (!·.isEmpty)).or s.pplxBackendUuid }

/-- `translate`, `perplexity_web_to_openai.rs:193`. -/
def translate (write : Json → String) (raw : Json) (s : PerplexityState) :
    List Json × PerplexityState :=
  if raw.asObject.isNone then ([], s)
  else
    let s := identify s
    if isError raw then
      emit (Json.object [("content", .str ("[Error: " ++ errorText write raw ++ "]"))])
        (some "stop") { s with finishReason := some "stop" }
    else
      let s := rememberThread raw s
      if (eventBlocks raw).isEmpty then
        match raw.strField "text" with
        | none => ([], s)
        | some text => advance (trim text) s
      else each relayBlock (eventBlocks raw) s

/-- `finish`, `perplexity_web_to_openai.rs:375`: what the chunk that ends the stream names. -/
def finish (s : PerplexityState) : ChunkMeta × PerplexityState :=
  chunkMeta { s with finishReason := some "stop" }

end NullRouter.Translate.Response.PerplexityWebToOpenai
