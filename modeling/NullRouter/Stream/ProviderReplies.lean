import NullRouter.Translate.Claude
import NullRouter.Translate.Schema

/-!
# Replies of Claude and Gemini

What the two providers answer, as the JSON body of a reply that is not streamed and as the items
of its event stream. A stream cuts the texts of the body into pieces, and Claude also the JSON text
of a tool's input.
-/

namespace NullRouter.Stream

open NullRouter.Base NullRouter.Translate

/-- A field that may be missing. -/
def optionalField (key : String) (value : Option Json) : List (String × Json) :=
  (value.map fun value ↦ (key, value)).toList

/-- A use of a tool in a Claude message. Its input can be written and read back, and is streamed
as JSON text or, where it is empty, as nothing. -/
structure ClaudeToolUse (serde : SerdeJson) where
  id : String
  name : String
  input : List (String × Json)
  fragments : List String
  written : serde.fromStr (serde.toText (.obj input)) = some (.obj input)
  streamed : serde.fromStr (String.join fragments) = some (.obj input) ∨
    String.join fragments = "" ∧ input = []

/-- A block of a Claude message, with the pieces that its text is streamed in. -/
inductive ClaudeBlock (serde : SerdeJson) where
  | text (pieces : List String)
  | thinking (pieces : List String) (signature : String)
  | toolUse (call : ClaudeToolUse serde)

namespace ClaudeBlock

variable {serde : SerdeJson}

/-- A block of the body. -/
def body : ClaudeBlock serde → Json
  | text pieces => Json.object [("type", .str "text"), ("text", .str (String.join pieces))]
  | thinking pieces signature => Json.object [("type", .str "thinking"),
      ("thinking", .str (String.join pieces)), ("signature", .str signature)]
  | toolUse call => Json.object [("type", .str "tool_use"), ("id", .str call.id),
      ("name", .str call.name), ("input", .obj call.input)]

/-- The block as its stream begins it: nothing is in it yet. -/
def opening : ClaudeBlock serde → Json
  | text _ => Json.object [("type", .str "text"), ("text", .str "")]
  | thinking _ _ => Json.object [("type", .str "thinking"), ("thinking", .str ""),
      ("signature", .str "")]
  | toolUse call => Json.object [("type", .str "tool_use"), ("id", .str call.id),
      ("name", .str call.name), ("input", .obj [])]

/-- What fills it. -/
def deltas : ClaudeBlock serde → List Json
  | text pieces => pieces.map fun piece ↦
      Json.object [("type", .str "text_delta"), ("text", .str piece)]
  | thinking pieces signature => (pieces.map fun piece ↦
      Json.object [("type", .str "thinking_delta"), ("thinking", .str piece)]) ++
      [Json.object [("type", .str "signature_delta"), ("signature", .str signature)]]
  | toolUse call => call.fragments.map fun fragment ↦
      Json.object [("type", .str "input_json_delta"), ("partial_json", .str fragment)]

/-- The events of a block. -/
def events (block : ClaudeBlock serde) (index : Nat) : List Json :=
  Claude.blockStart index block.opening :: block.deltas.map (Claude.blockDelta index) ++
    [Claude.blockStop index]

end ClaudeBlock

/-- The tokens of a Claude message, and how many of those put out its stream counts when it
begins. Providers without a cache do not count its tokens. -/
structure ClaudeCounts where
  input : Nat
  output : Nat
  outputAtStart : Nat
  cacheRead : Option Nat
  cacheCreation : Option Nat

/-- The usage of a message, with a count of the tokens put out. -/
def ClaudeCounts.usage (counts : ClaudeCounts) (output : Nat) : Json :=
  Json.object ([("input_tokens", Json.nat counts.input), ("output_tokens", Json.nat output)] ++
    optionalField "cache_read_input_tokens" (counts.cacheRead.map Json.nat) ++
    optionalField "cache_creation_input_tokens" (counts.cacheCreation.map Json.nat))

/-- A Claude message. -/
structure ClaudeReply (serde : SerdeJson) where
  id : String
  model : String
  blocks : List (ClaudeBlock serde)
  stopReason : Option String
  counts : Option ClaudeCounts

namespace ClaudeReply

variable {serde : SerdeJson}

/-- The message with what it holds. -/
def message (reply : ClaudeReply serde) (content : List Json) (stopReason : Option String)
    (usage : Option Json) : Json :=
  Json.object ([("id", .str reply.id), ("type", .str "message"), ("role", .str "assistant"),
    ("model", .str reply.model), ("content", .arr content),
    ("stop_reason", stopReason.elim .null .str), ("stop_sequence", .null)] ++
    optionalField "usage" usage)

/-- What a message holds beside its usage. -/
theorem get_message {key : String} (hkey : key ≠ "usage") (reply : ClaudeReply serde)
    (content : List Json) (stopReason : Option String) (usage : Option Json) :
    (reply.message content stopReason usage).get key = [("stop_sequence", .null),
      ("stop_reason", stopReason.elim .null .str), ("content", .arr content),
      ("model", .str reply.model), ("role", .str "assistant"), ("type", .str "message"),
      ("id", .str reply.id)].lookup key := by
  rw [message, Json.get_object_append, Json.get_object]
  · rfl
  · cases usage <;> simp [optionalField, hkey.symm]

theorem get_message_usage (reply : ClaudeReply serde) (content : List Json)
    (stopReason : Option String) (usage : Option Json) :
    (reply.message content stopReason usage).get "usage" = usage := by
  rw [message, Json.get_object]
  cases usage <;> rfl

/-- The body. -/
def body (reply : ClaudeReply serde) : Json :=
  reply.message (reply.blocks.map ClaudeBlock.body) reply.stopReason
    (reply.counts.map fun counts ↦ counts.usage counts.output)

/-- The first event. -/
def messageStart (reply : ClaudeReply serde) : Json :=
  Json.object [("type", .str "message_start"), ("message", reply.message [] none
    (reply.counts.map fun counts ↦ counts.usage counts.outputAtStart))]

/-- The events of blocks that are numbered from an index. -/
def blockEvents : List (ClaudeBlock serde) → Nat → List Json
  | [], _ => []
  | block :: blocks, index => block.events index ++ blockEvents blocks (index + 1)

/-- The event that says why the message ends and what was put out. -/
def messageDelta (reply : ClaudeReply serde) : Json :=
  Json.object ([("type", .str "message_delta"),
    ("delta", Json.object [("stop_reason", reply.stopReason.elim .null .str),
      ("stop_sequence", .null)])] ++
    optionalField "usage" (reply.counts.map fun counts ↦
      Json.object [("output_tokens", Json.nat counts.output)]))

/-- The last event. -/
def messageStop : Json := Json.object [("type", .str "message_stop")]

/-- The event stream. -/
def events (reply : ClaudeReply serde) : List Json :=
  reply.messageStart :: blockEvents reply.blocks 0 ++ [reply.messageDelta, messageStop]

end ClaudeReply

/-- A function call of a Gemini reply; its arguments can be written and read back. -/
structure GeminiCall (serde : SerdeJson) where
  name : String
  args : List (String × Json)
  written : serde.fromStr (serde.toText (.obj args)) = some (.obj args)

namespace GeminiCall

variable {serde : SerdeJson} (call : GeminiCall serde)

/-- A call as JSON. -/
def body : Json := Json.object [("name", .str call.name), ("args", .obj call.args)]

theorem name_body : textOrEmpty call.body "name" = call.name := by
  rw [textOrEmpty, body, Json.strField_object]
  rfl

theorem args_body : (call.body.get "args").getD (Json.object []) = .obj call.args := by
  rw [body, Json.get_object]
  rfl

end GeminiCall

/-- One part of a Gemini reply. -/
inductive GeminiPart (serde : SerdeJson) where
  | text (text : String)
  | thought (text : String)
  | call (call : GeminiCall serde)

namespace GeminiPart

variable {serde : SerdeJson}

/-- A part as JSON. -/
def body : GeminiPart serde → Json
  | text words => Json.object [("text", .str words)]
  | thought words => Json.object [("text", .str words), ("thought", .bool true)]
  | call c => Json.object [("functionCall", c.body)]

/-- What a part adds to the text. -/
def shown : GeminiPart serde → String
  | text words => words
  | _ => ""

/-- What a part adds to the thinking. -/
def thinking : GeminiPart serde → String
  | thought words => words
  | _ => ""

/-- The call that a part is. -/
def call? : GeminiPart serde → Option (GeminiCall serde)
  | call c => some c
  | _ => none

end GeminiPart

/-- Parts that arrive together, with the usage so far. -/
structure GeminiFrame (serde : SerdeJson) where
  parts : List (GeminiPart serde)
  usage : Option (List (String × Json))

/-- A Gemini reply: its parts, and the frames that stream it, which say the same. The last frame
says why it ends and what it used; Antigravity wraps what it answers. -/
structure GeminiReply (serde : SerdeJson) where
  responseId : Option String
  modelVersion : String
  parts : List (GeminiPart serde)
  frames : List (GeminiFrame serde)
  lastParts : List (GeminiPart serde)
  finishReason : Option String
  usage : Option (List (String × Json))
  wrapped : Bool
  text_framed : String.join ((frames.flatMap (·.parts) ++ lastParts).map GeminiPart.shown) =
    String.join (parts.map GeminiPart.shown)
  thinking_framed : String.join ((frames.flatMap (·.parts) ++ lastParts).map GeminiPart.thinking) =
    String.join (parts.map GeminiPart.thinking)
  calls_framed : (frames.flatMap (·.parts) ++ lastParts).filterMap GeminiPart.call? =
    parts.filterMap GeminiPart.call?
  metered : usage = none → ∀ frame ∈ frames, frame.usage = none

namespace GeminiReply

variable {serde : SerdeJson}

/-- The candidate of a response. -/
def candidate (parts : List (GeminiPart serde)) (finishReason : Option String) : Json :=
  Json.object ([("content", Json.object [("parts", .arr (parts.map GeminiPart.body)),
      ("role", .str "model")]), ("index", Json.nat 0)] ++
    optionalField "finishReason" (finishReason.map .str))

/-- A response that is not wrapped. -/
def plainResponse (reply : GeminiReply serde) (parts : List (GeminiPart serde))
    (finishReason : Option String) (usage : Option (List (String × Json))) : Json :=
  Json.object ([("candidates", .arr [candidate parts finishReason]),
      ("modelVersion", .str reply.modelVersion)] ++
    optionalField "responseId" (reply.responseId.map .str) ++
    optionalField "usageMetadata" (usage.map .obj))

/-- A response that holds parts. -/
def response (reply : GeminiReply serde) (parts : List (GeminiPart serde))
    (finishReason : Option String) (usage : Option (List (String × Json))) : Json :=
  if reply.wrapped then Json.object [("response", reply.plainResponse parts finishReason usage)]
  else reply.plainResponse parts finishReason usage

/-- The body. -/
def body (reply : GeminiReply serde) : Json :=
  reply.response reply.parts reply.finishReason reply.usage

/-- The event stream. -/
def events (reply : GeminiReply serde) : List Json :=
  (reply.frames.map fun frame ↦ reply.response frame.parts none frame.usage) ++
    [reply.response reply.lastParts reply.finishReason reply.usage]

end GeminiReply

end NullRouter.Stream
