import NullRouter.Translate.Request.ClaudeToOpenai
import NullRouter.Translate.Request.GeminiToOpenai
import NullRouter.Translate.Request.OpenaiToClaude
import NullRouter.Translate.Request.OpenaiToGemini
import NullRouter.Translate.Request.OpenaiToOllama
import NullRouter.Translate.Request.ResponsesToOpenai
import NullRouter.Translate.Schema
import NullRouter.Translate.Thinking

/-!
# Media that a model cannot read

`crates/translate/src/modality.rs`: blocks of media are taken out of the messages of a request,
with a text in their place, by the spelling of the format that the request is in.
-/

namespace NullRouter.Translate

open NullRouter.Base

/-- What a block of media asks of a model: `"vision"`, `"audio"` or `"pdf"`. -/
inductive Modality where
  | vision
  | audio
  | pdf
  deriving DecidableEq, Repr

namespace Modality

/-- `placeholder_current`, `modality.rs:11`. -/
def placeholderCurrent : Modality → String
  | .vision => "[image omitted: model has no vision support]"
  | .audio => "[audio omitted: model has no audio support]"
  | .pdf => "[file omitted: model has no document support]"

/-- `placeholder_prev`, `modality.rs:20`. -/
def placeholderPrev : Modality → String
  | .vision => "[Previous image omitted from context.]"
  | .audio => "[Previous audio omitted from context.]"
  | .pdf => "[Previous file omitted from context.]"

/-- `cap_for_mime`, `modality.rs:29`. -/
def capForMime (mime : String) : Option Modality :=
  if startsWith "image/" mime then some .vision
  else if startsWith "audio/" mime then some .audio
  else if mime = "application/pdf" then some .pdf
  else none

/-- `cap_for_openai_block`, `modality.rs:41`. -/
def capForOpenaiBlock (block : Json) : Option Modality :=
  if hasType "image_url" block || hasType "image" block then some .vision
  else if hasType "input_audio" block || hasType "audio_url" block then some .audio
  else if hasType "file" block then some .pdf
  else none

/-- `cap_for_claude_block`, `modality.rs:50`. -/
def capForClaudeBlock (block : Json) : Option Modality :=
  if hasType "image" block then some .vision
  else if hasType "document" block then some .pdf
  else none

/-- The media of a content part of a Responses request. -/
def capForResponsesPart (part : Json) : Option Modality :=
  if hasType "input_image" part then some .vision
  else if hasType "input_file" part then some .pdf
  else none

/-- The media of a part of a Gemini request, by the type of its data. -/
def capForGeminiPart (part : Json) : Option Modality :=
  (((part.pointer ["inlineData", "mimeType"]).or (part.pointer ["fileData", "mimeType"])).bind
    Json.asStr).bind capForMime

/-- `lacks`, `modality.rs:58`. -/
def lacks (caps : Capabilities) : Modality → Bool
  | .vision => !caps.vision
  | .audio => !caps.audioInput
  | .pdf => !caps.pdf

/-- Whether a block holds media that a model cannot read. -/
def unread (capOf : Json → Option Modality) (caps : Capabilities) (block : Json) : Bool :=
  (capOf block).any (lacks caps)

/-- `strip_content`, `modality.rs:68`: what cannot be read is left out, and a note for each such
block comes after the rest. -/
def stripContent (capOf : Json → Option Modality) (note : String → Json) (caps : Capabilities)
    (isLast : Bool) (content : List Json) : List Json :=
  content.filter (!unread capOf caps ·) ++
    ((content.filterMap capOf).filter (lacks caps)).map fun cap ↦
      note (if isLast then cap.placeholderCurrent else cap.placeholderPrev)

/-- The content of each message of a list is stripped. -/
def stripMessages (listKey contentKey : String) (capOf : Json → Option Modality)
    (note : String → Json) (caps : Capabilities) (body : Json) : Json :=
  match arrayField body listKey with
  | none => body
  | some messages => body.setField listKey (.arr (messages.mapIdx fun i message ↦
      match arrayField message contentKey with
      | none => message
      | some content => message.setField contentKey
          (.arr (stripContent capOf note caps (i = messages.length - 1) content))))

/-- A note as a content block. -/
def textNote (kind text : String) : Json := Json.object [("type", .str kind), ("text", .str text)]

/-- `strip_openai_messages`, `modality.rs:133`. -/
def stripOpenaiMessages : Capabilities → Json → Json :=
  stripMessages "messages" "content" capForOpenaiBlock (textNote "text")

/-- `strip_claude_messages`, `modality.rs:151`. -/
def stripClaudeMessages : Capabilities → Json → Json :=
  stripMessages "messages" "content" capForClaudeBlock (textNote "text")

/-- `strip_responses_input`, `modality.rs:169`. -/
def stripResponsesInput : Capabilities → Json → Json :=
  stripMessages "input" "content" capForResponsesPart (textNote "input_text")

/-- `strip_gemini_contents`, `modality.rs:208`. -/
def stripGeminiContents : Capabilities → Json → Json :=
  stripMessages "contents" "parts" capForGeminiPart fun text ↦ Json.object [("text", .str text)]

/-- `strip_unsupported_modalities`, `modality.rs:100`. -/
def stripUnsupportedModalities (source : Format) (caps : Capabilities) (body : Json) : Json :=
  if caps.vision && caps.audioInput && caps.pdf then body
  else match source with
    | .claude => stripClaudeMessages caps body
    | .openAiResponses => stripResponsesInput caps body
    | .gemini | .geminiCli | .vertex => stripGeminiContents caps body
    | .openAi | .ollama | .kiro | .commandCode | .codex | .antigravity | .cursor | .grokWeb
    | .perplexityWeb => stripOpenaiMessages caps body

end Modality
end NullRouter.Translate

/-!
## Parameters that a provider rejects

`crates/translate/src/param_rules.rs`: a table of rules, each for a provider and a kind of
model.
-/

namespace NullRouter.Translate.ParamRules

open NullRouter.Base

/-- `StripRule`, `param_rules.rs:15`. -/
structure StripRule where
  provider : Option String := none
  models : String → Bool := fun _ ↦ true
  drop : List String := []
  flattenContent : Bool := false
  clampToModelMax : Bool := false
  maxOutputCap : Option Nat := none

/-- Whether the lower case of a model's id holds one of some texts. -/
def named (texts : List String) (model : String) : Bool :=
  texts.any fun text ↦ containsText (toAsciiLowercase model).toList text.toList

/-- `is_claude`, `param_rules.rs:32`. -/
def isClaude : String → Bool := named ["claude"]

/-- `is_github_claude_except_46`, `param_rules.rs:38`. -/
def isGithubClaudeExcept46 (model : String) : Bool :=
  isClaude model && !(named ["opus", "sonnet"] model && named ["4.6", "4-6"] model)

/-- `is_gpt54`, `param_rules.rs:47`. -/
def isGpt54 : String → Bool := named ["gpt-5.4", "gpt-5-4"]

/-- `is_glm5`, `param_rules.rs:52`. -/
def isGlm5 : String → Bool := named ["glm-5", "glm5"]

/-- `is_kimi`, `param_rules.rs:57`. -/
def isKimi : String → Bool := named ["kimi"]

/-- `is_mimo_preview`, `param_rules.rs:62`. -/
def isMimoPreview : String → Bool := named ["preview"]

/-- `RULES`, `param_rules.rs:66`. -/
def rules : List StripRule :=
  [{ models := isClaude, drop := ["temperature"] },
    { provider := some "github", models := isGpt54, drop := ["temperature"] },
    { provider := some "github", models := isGithubClaudeExcept46,
      drop := ["thinking", "reasoning_effort"] },
    { provider := some "cloudflare-ai", flattenContent := true },
    { provider := some "xiaomi-mimo", models := isMimoPreview, flattenContent := true },
    { provider := some "volcengine-ark", models := isGlm5, clampToModelMax := true },
    { provider := some "volcengine-ark", models := isKimi, clampToModelMax := true,
      maxOutputCap := some 32768 }]

/-- `flatten_content_arrays`, `param_rules.rs:182`. -/
def flattenContentArrays (body : Json) : Json :=
  match arrayField body "messages" with
  | none => body
  | some messages => body.setField "messages" (.arr (messages.map fun message ↦
      match arrayField message "content" with
      | none => message
      | some parts => message.setField "content" (.str (String.join (partTexts parts)))))

/-- `clamp_number`, `param_rules.rs:213`. -/
def clampNumber (key : String) (ceiling : Nat) (body : Json) : Json :=
  if ((body.get key).bind Json.asU64).any (ceiling < ·) then
    body.setField key (Json.nat ceiling)
  else body

/-- The least of the ceilings that a rule names, if it names one. -/
def ceilingOf (rule : StripRule) (modelMaxOutput : Nat) : Option Nat :=
  match rule.clampToModelMax && 0 < modelMaxOutput, rule.maxOutputCap with
  | true, some cap => some (min modelMaxOutput cap)
  | true, none => some modelMaxOutput
  | false, cap => cap

/-- Whether a rule is for a provider and a model. -/
def StripRule.applies (rule : StripRule) (provider model : String) : Bool :=
  rule.provider.all (· = provider) && rule.models model

/-- What one rule does to a request. -/
def applyRule (modelMaxOutput : Nat) (body : Json) (rule : StripRule) : Json :=
  let body := rule.drop.foldl Json.eraseField body
  let body := if rule.flattenContent then flattenContentArrays body else body
  match ceilingOf rule modelMaxOutput with
  | none => body
  | some ceiling => clampNumber "max_output_tokens" ceiling
      (clampNumber "max_completion_tokens" ceiling (clampNumber "max_tokens" ceiling body))

/-- `strip_unsupported_params`, `param_rules.rs:132`. -/
def stripUnsupportedParams (provider model : String) (modelMaxOutput : Nat) (body : Json) : Json :=
  (rules.filter (·.applies provider model)).foldl (applyRule modelMaxOutput) body

end NullRouter.Translate.ParamRules

/-!
## Requests from one format to another

`translate_request`, `crates/translate/src/lib.rs:102`: from the client's format to OpenAI, from
there to the provider's, then the thinking, media and parameter passes. Requests between equal
formats only get the thinking pass.
-/

namespace NullRouter.Translate

open NullRouter.Base

export Request.OpenaiToGemini (GeminiWriter)

/-- `RequestRoute`, `lib.rs:76`. -/
structure RequestRoute where
  source : Format
  target : Format
  provider : String
  model : String

/-- `TranslatedRequest`, `lib.rs:38`. The map lists renamed and original names in the order that
they are put in. -/
structure TranslatedRequest where
  body : Json
  toolNameMap : List (String × String) := []

/-- A request with its model and stream flag set. -/
def withModelAndStream (model : String) (stream : Bool) (body : Json) : Json :=
  (body.setField "model" (.str model)).setField "stream" (.bool stream)

/-- The first step: from the client's format to OpenAI. -/
def sourceToOpenai (serde : SerdeJson) (source : Format) (model : String) (body : Json)
    (stream : Bool) : Json :=
  match source with
  | .claude => Request.ClaudeToOpenai.translate serde model body stream
  | .gemini | .geminiCli | .vertex => Request.GeminiToOpenai.translate serde model body stream
  | .openAiResponses => Request.ResponsesToOpenai.translate serde model body stream
  | .openAi | .codex | .antigravity | .kiro | .cursor | .ollama | .commandCode | .grokWeb
  | .perplexityWeb => body

/-- The second step: from OpenAI to the provider's format. -/
def openaiToTarget (writer : GeminiWriter) (target : Format) (model : String) (body : Json)
    (stream : Bool) (ceiling : Nat) : TranslatedRequest :=
  match target with
  | .claude => ⟨Request.OpenaiToClaude.translate writer.serde model body stream ceiling,
      Request.OpenaiToClaude.toolNameMap body⟩
  | .gemini | .geminiCli | .vertex =>
    { body := Request.OpenaiToGemini.translate writer model body }
  | .ollama => { body := Request.OpenaiToOllama.translate writer.serde model body stream }
  | .commandCode | .openAi | .openAiResponses =>
    { body := withModelAndStream model stream body }
  | .codex | .antigravity | .kiro | .cursor | .grokWeb | .perplexityWeb => { body }

/-- The passes over the translated request. -/
def finishRequest (catalogue : Catalogue) (route : RequestRoute) (intent : Option ThinkingIntent)
    (ceiling : Nat) (body : Json) : Json :=
  let body := Thinking.apply catalogue route.target route.provider route.model body intent
  let body := Modality.stripUnsupportedModalities route.target
    (catalogue.capabilities route.provider route.model) body
  ParamRules.stripUnsupportedParams route.provider (Thinking.stripThinkingSuffix route.model)
    ceiling body

/-- `translate_request`, `lib.rs:102`. -/
def translateRequest (catalogue : Catalogue) (writer : GeminiWriter) (route : RequestRoute)
    (body : Json) (stream : Bool) (ceiling : Nat) : TranslatedRequest :=
  let intent := Thinking.extractThinking body
  let upstreamModel := Thinking.stripThinkingSuffix route.model
  if route.source.equivalent route.target then
    { body := Thinking.apply catalogue route.target route.provider route.model
        (body.setField "model" (.str upstreamModel)) intent }
  else
    let translated := openaiToTarget writer route.target upstreamModel
      (sourceToOpenai writer.serde route.source upstreamModel body stream) stream ceiling
    { translated with body := finishRequest catalogue route intent ceiling translated.body }

end NullRouter.Translate
