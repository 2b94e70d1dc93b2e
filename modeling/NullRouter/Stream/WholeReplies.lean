import NullRouter.Stream.ClaudeRelay
import NullRouter.Stream.GeminiRelay
import NullRouter.Translate.Body

/-!
# Whole replies and streamed ones

When a client is told the same by `translate_body` (`crates/translate/src/body.rs:27`) of the body
of a Claude or Gemini reply and by `collapse_stream_to_json` (`crates/execute/src/stream.rs:626`)
of the event stream of that reply.
-/

namespace NullRouter.Stream

open NullRouter.Base NullRouter.Translate NullRouter.Translate.Body

/-- Reading and printing JSON text, on scalar values. -/
def jsonText (serde : SerdeJson) : JsonText where
  read cs := serde.fromStr (String.ofList cs)
  print := serde.toText

/-- A tool call that a reply states: its id, where the provider gives ids, its name and the value
of its arguments. -/
structure SaidCall where
  id : Option String
  name : String
  arguments : Option Json
  deriving DecidableEq

/-- What a reply says and counts. -/
structure Said where
  text : String
  reasoning : String
  calls : List SaidCall
  finishReason : Option String
  usage : Option Usage
  deriving DecidableEq

namespace Said

/-- What a client reads of a completion. -/
def ofCompletion (serde : SerdeJson) (ids : Bool) (reply : Json) : Said :=
  let answer := Answer.ofReply reply
  { text := answer.text
    reasoning := answer.reasoning
    calls := answer.toolCalls.map fun call ↦
      ⟨if ids then some call.id else none, call.name, serde.fromStr call.arguments⟩
    finishReason := answer.finishReason
    usage := (reply.get "usage").map Usage.ofOpenai }

/-- What a client reads of a Claude message, which has no counts of its own for the rest. -/
def ofMessage (ids : Bool) (reply : Json) : Said :=
  let blocks := (arrayField reply "content").getD []
  { text := String.join ((blocks.filter (hasType "text")).map (textOrEmpty · "text"))
    reasoning :=
      String.join ((blocks.filter (hasType "thinking")).map (textOrEmpty · "thinking"))
    calls := (blocks.filter (hasType "tool_use")).map fun block ↦
      ⟨if ids then block.strField "id" else none, textOrEmpty block "name", block.get "input"⟩
    finishReason := reply.strField "stop_reason"
    usage := (reply.get "usage").map fun usage ↦
      { promptTokens := countAt usage ["input_tokens"]
        completionTokens := countAt usage ["output_tokens"]
        cachedTokens := countAt usage ["cache_read_input_tokens"] } }

/-- What a client of a format reads of its reply. -/
def read (serde : SerdeJson) (ids : Bool) (source : Format) (reply : Json) : Said :=
  if source = .claude then ofMessage ids reply else ofCompletion serde ids reply

end Said

/-- A completion for a client of a format, as `translate_body` carries it on. -/
def forClient (serde : SerdeJson) (source : Format) (completion : Json) (s : StreamState) : Json :=
  if source = .claude then openaiBodyToClaude serde.fromStr completion s else completion

/-- A reply of a provider that names its formats. -/
inductive ProviderReply (serde : SerdeJson) where
  | claude (reply : ClaudeReply serde)
  | gemini (reply : GeminiReply serde)

namespace ProviderReply

variable {serde : SerdeJson}

/-- The formats that the body path translates such a reply from. -/
def formats : ProviderReply serde → List Format
  | claude _ => [.claude]
  | gemini _ => [.gemini, .geminiCli, .vertex, .antigravity]

/-- The reply as a body. -/
def body : ProviderReply serde → Json
  | claude reply => reply.body
  | gemini reply => reply.body

/-- The reply as an event stream. -/
def events : ProviderReply serde → List Json
  | claude reply => reply.events
  | gemini reply => reply.events

/-- Whether the provider gives its tool calls ids. -/
def givesIds : ProviderReply serde → Bool
  | claude _ => true
  | gemini _ => false

/-- The translation of its events, `translate_response`, `lib.rs:234`. -/
def pivot : ProviderReply serde → Pivot StreamState
  | claude _ => ⟨Response.ClaudeToOpenai.translate serde.toText, none, id, fun _ ↦ none,
      fun _ ↦ none⟩
  | gemini _ => ⟨Response.GeminiToOpenai.translate serde.toText, none, id, fun _ ↦ none,
      fun _ ↦ none⟩

/-- The stream of the reply, collapsed. -/
def collapse (reply : ProviderReply serde) (model : String) (reads : List Read)
    (s : StreamState) : Json :=
  collapseStreamToJson (jsonText serde) model reads (.lines reply.pivot .sse s :
    Upstream StreamState Unit)

/-- A client of a format is told the same of the stream as of the body. -/
def Agrees (reply : ProviderReply serde) (target source : Format) (model : String)
    (reads : List Read) (s : StreamState) : Prop :=
  Said.read serde reply.givesIds source (forClient serde source (reply.collapse model reads s) s) =
    Said.read serde reply.givesIds source (translateBody serde target source reply.body s)

end ProviderReply

/-! ## Reading completions -/

/-- A reply whose one choice holds a message. -/
structure IsCompletion (reply message : Json) (finish : String) (usage : Option Usage) : Prop where
  choices : reply.get "choices" = some (.arr [Json.object [("index", Json.nat 0),
    ("message", message), ("finish_reason", .str finish)]])
  usage : reply.get "usage" = usage.map Usage.toValue

/-- A message with some words and calls. -/
structure IsMessage (message : Json) (text reasoning : String) (calls : List Json) : Prop where
  text : (message.strField "content").getD "" = text
  reasoning : (message.strField "reasoning_content").getD "" = reasoning
  fields : message.get "provider_specific_fields" = none
  calls : ((message.get "tool_calls").bind Json.asArray).getD [] = calls

section Reading

variable {reply message : Json} {text reasoning finish : String} {calls : List Json}
  {usage : Option Usage}

/-- What an OpenAI client reads. -/
theorem ofCompletion_eq (serde : SerdeJson) (ids : Bool)
    (hreply : IsCompletion reply message finish usage)
    (hmessage : IsMessage message text reasoning calls) :
    Said.ofCompletion serde ids reply =
      { text, reasoning
        calls := (calls.map ToolCall.read).map fun call ↦
          ⟨if ids then some call.id else none, call.name, serde.fromStr call.arguments⟩
        finishReason := some finish
        usage := (usage.map Usage.toValue).map Usage.ofOpenai } := by
  have hpointer : reply.pointer ["choices", "0", "message"] = some message :=
    (pointer_choice hreply.choices _).trans (Json.get_object ..)
  have hfinish : reply.pointer ["choices", "0", "finish_reason"] = some (.str finish) :=
    (pointer_choice hreply.choices _).trans (Json.get_object ..)
  simp only [Said.ofCompletion, Answer.ofReply, hpointer, hfinish, Option.bind_some, hmessage.text,
    hmessage.reasoning, hmessage.calls, hreply.usage]
  rfl

/-- What is gathered of a stream. -/
theorem isCompletion_envelope (c : Collapsed) (model : String) (s : StreamState) :
    IsCompletion (c.envelope model s) c.message c.resolvedFinish (s.usage.or c.scrapedUsage) := by
  constructor
  · rw [Collapsed.envelope, Json.get_object, List.reverse_append, List.lookup_append]
    cases s.usage.or c.scrapedUsage <;> rfl
  · rw [Collapsed.envelope, Json.get_object]
    cases s.usage.or c.scrapedUsage <;> rfl

theorem isMessage_message (c : Collapsed) :
    IsMessage c.message c.text c.reasoning c.toolCalls := by
  obtain ⟨htext, hreasoning, hcalls⟩ := message_fields c
  refine ⟨htext, hreasoning, ?_, hcalls⟩
  rw [Collapsed.message, Json.get_object]
  split <;> split <;> rfl

/-- What the body path makes of a body. -/
theorem isCompletion_completion (id model : String) (created : Nat) :
    IsCompletion (completion id model created message finish usage) message finish usage := by
  constructor
  · rw [completion, Json.get_object, List.reverse_append, List.lookup_append]
    cases usage <;> rfl
  · rw [completion, Json.get_object]
    cases usage <;> rfl

theorem isMessage_assistantMessage (text reasoning : String) (calls : List Json) :
    IsMessage (assistantMessage text reasoning calls) text reasoning calls := by
  -- which fields there are depends on what is empty
  rcases eq_or_ne text "" with rfl | htext <;> rcases eq_or_ne reasoning "" with rfl | hreasoning <;>
    rcases eq_or_ne calls [] with rfl | hcalls <;> constructor <;>
    simp [Json.strField, assistantMessage, Json.get_object, List.lookup_cons, Json.asStr,
      Json.asArray, *]

private theorem openaiToolBlocks_spec (read : String → Option Json)
    {words : List (String × String)} (h : List.Forall₂ HasFunction calls words) (position : Nat)
    (s : StreamState) :
    (∀ block ∈ (openaiToolBlocks read calls position s).1,
      block.strField "type" = some "tool_use") ∧
    (openaiToolBlocks read calls position s).1.map (fun block ↦
        (textOrEmpty block "name", block.get "input")) =
      words.map fun w ↦ (w.1, some (toolInput read (some (.str w.2)))) := by
  induction h generalizing position s with
  | nil => exact ⟨nofun, rfl⟩
  | @cons call w calls words hcall _ ih =>
    have hfield (key : String) : ((call.get "function").bind (·.get key)).or (call.get key) =
        ((Json.object [("name", .str w.1), ("arguments", .str w.2)]).get key).or
          (call.get key) := by
      rw [hcall, Option.bind_some]
    have hname : ((call.get "function").bind (·.get "name")).or (call.get "name") =
        some (.str w.1) := by
      rw [hfield, Json.get_object]
      rfl
    have harguments : ((call.get "function").bind (·.get "arguments")).or
        (call.get "arguments") = some (.str w.2) := by
      rw [hfield, Json.get_object]
      rfl
    rw [openaiToolBlocks]
    simp only [hname, harguments]
    refine ⟨List.forall_mem_cons.mpr ⟨?_, (ih _ _).1⟩, ?_⟩
    · rw [Json.strField_object]
      rfl
    · rw [List.map_cons, List.map_cons, (ih _ _).2, textOrEmpty, Json.strField_object,
        Json.get_object]
      rfl

private theorem openaiTextBlocks_spec (hmessage : IsMessage message text reasoning calls) :
    openaiTextBlocks (some message) =
      (if reasoning = "" then [] else
        [Json.object [("type", .str "thinking"), ("thinking", .str reasoning)]]) ++
      (if text = "" then [] else [Json.object [("type", .str "text"), ("text", .str text)]]) := by
  have hfilter (words : Option String) (block : String → Json) :
      ((words.filter (!·.isEmpty)).map block).toList =
        if words.getD "" = "" then [] else [block (words.getD "")] := by
    cases words with
    | none => rfl
    | some words => by_cases hempty : words = "" <;> simp [Option.filter_some, hempty]
  have hreasoning : ((message.get "reasoning_content").or
      ((message.get "provider_specific_fields").bind (·.get "reasoning_content"))).bind
        Json.asStr = message.strField "reasoning_content" := by
    rw [hmessage.fields, Option.bind_none, Option.or_none]
    rfl
  simp only [openaiTextBlocks, Option.bind_some, hreasoning]
  rw [hfilter, hfilter, hmessage.text, hmessage.reasoning]

private theorem filter_hasType_append {kind : String} (hkind : kind ≠ "tool_use")
    {texts tools : List Json} (htools : ∀ block ∈ tools, block.strField "type" = some "tool_use") :
    (texts ++ tools).filter (hasType kind) = texts.filter (hasType kind) := by
  rw [List.filter_append, List.append_right_eq_self, List.filter_eq_nil_iff]
  intro block hblock
  rw [hasType, htools block hblock]
  simpa using hkind.symm

private theorem read_blocks (reasoning text : String) {tools : List Json}
    (htools : ∀ block ∈ tools, block.strField "type" = some "tool_use") :
    let thinking := if reasoning = "" then [] else
      [Json.object [("type", .str "thinking"), ("thinking", .str reasoning)]]
    let texts := if text = "" then [] else
      [Json.object [("type", .str "text"), ("text", .str text)]]
    let blocks := thinking ++ texts ++ tools
    String.join ((blocks.filter (hasType "text")).map (textOrEmpty · "text")) = text ∧
      String.join ((blocks.filter (hasType "thinking")).map (textOrEmpty · "thinking")) =
        reasoning ∧
      blocks.filter (hasType "tool_use") = tools := by
  have hall : tools.filter (hasType "tool_use") = tools := by
    rw [List.filter_eq_self]
    intro block hblock
    rw [hasType, htools block hblock]
    rfl
  intro thinking texts blocks
  refine ⟨?_, ?_, ?_⟩
  · rw [filter_hasType_append (by decide) htools]
    by_cases hreasoning : reasoning = "" <;> by_cases htext : text = "" <;>
      simp [thinking, texts, hreasoning, htext, hasType, textOrEmpty, Json.strField_object,
        List.lookup_cons, Json.asStr, String.join_cons]
  · rw [filter_hasType_append (by decide) htools]
    by_cases hreasoning : reasoning = "" <;> by_cases htext : text = "" <;>
      simp [thinking, texts, hreasoning, htext, hasType, textOrEmpty, Json.strField_object,
        List.lookup_cons, Json.asStr, String.join_cons]
  · rw [List.filter_append, hall]
    by_cases hreasoning : reasoning = "" <;> by_cases htext : text = "" <;>
      simp [thinking, texts, hreasoning, htext, hasType, Json.strField_object,
        List.lookup_cons, Json.asStr]

private theorem ofMessage_object (id model : String) (content : List Json) (stopReason : String)
    (usage : Json) :
    Said.ofMessage false (Json.object [("id", .str id), ("type", .str "message"),
        ("role", .str "assistant"), ("model", .str model), ("content", .arr content),
        ("stop_reason", .str stopReason), ("stop_sequence", .null), ("usage", usage)]) =
      { text := String.join ((content.filter (hasType "text")).map (textOrEmpty · "text"))
        reasoning :=
          String.join ((content.filter (hasType "thinking")).map (textOrEmpty · "thinking"))
        calls := (content.filter (hasType "tool_use")).map fun block ↦
          ⟨none, textOrEmpty block "name", block.get "input"⟩
        finishReason := some stopReason
        usage := some
          { promptTokens := countAt usage ["input_tokens"]
            completionTokens := countAt usage ["output_tokens"]
            cachedTokens := countAt usage ["cache_read_input_tokens"] } } := by
  rw [Said.ofMessage, arrayField, Json.get_object, Json.get_object, Json.strField_object]
  rfl

/-- What a Claude client reads of a completion that was carried on to its format. -/
theorem ofMessage_openaiBodyToClaude (serde : SerdeJson) {words : List (String × String)}
    (hreply : IsCompletion reply message finish usage)
    (hmessage : IsMessage message text reasoning calls)
    (hcalls : List.Forall₂ HasFunction calls words) (s : StreamState) :
    Said.ofMessage false (openaiBodyToClaude serde.fromStr reply s) =
      { text, reasoning
        calls := words.map fun w ↦
          ⟨none, w.1, some (toolInput serde.fromStr (some (.str w.2)))⟩
        finishReason := some (finishToClaude finish)
        usage := some
          { promptTokens := countAt (claudeUsage (usage.map Usage.toValue)) ["input_tokens"]
            completionTokens := countAt (claudeUsage (usage.map Usage.toValue)) ["output_tokens"]
            cachedTokens := countAt (claudeUsage (usage.map Usage.toValue))
              ["cache_read_input_tokens"] } } := by
  have hchoice : (arrayField reply "choices").bind List.head? = some (Json.object
      [("index", Json.nat 0), ("message", message), ("finish_reason", .str finish)]) := by
    rw [arrayField, hreply.choices]
    rfl
  have hchosen : (Json.object [("index", Json.nat 0), ("message", message),
      ("finish_reason", .str finish)]).get "message" = some message := by
    rw [Json.get_object]
    rfl
  have hfinish : (Json.object [("index", Json.nat 0), ("message", message),
      ("finish_reason", .str finish)]).strField "finish_reason" = some finish := by
    rw [Json.strField_object]
    rfl
  have hstated : (arrayField message "tool_calls").getD [] = calls := hmessage.calls
  obtain ⟨htools, hread⟩ := openaiToolBlocks_spec serde.fromStr hcalls
    (openaiTextBlocks (some message)).length s
  have htexts := openaiTextBlocks_spec hmessage
  -- a message of no blocks gets an empty one
  have hcontent : ∀ content : List Json, content = (if openaiTextBlocks (some message) ++
        (openaiToolBlocks serde.fromStr calls (openaiTextBlocks (some message)).length s).1 = []
      then [Json.object [("type", .str "text"), ("text", .str "")]]
      else openaiTextBlocks (some message) ++
        (openaiToolBlocks serde.fromStr calls (openaiTextBlocks (some message)).length s).1) →
      String.join ((content.filter (hasType "text")).map (textOrEmpty · "text")) = text ∧
      String.join ((content.filter (hasType "thinking")).map (textOrEmpty · "thinking")) =
        reasoning ∧
      (content.filter (hasType "tool_use")).map (fun block ↦
        (textOrEmpty block "name", block.get "input")) =
        words.map fun w ↦ (w.1, some (toolInput serde.fromStr (some (.str w.2)))) := by
    rintro content rfl
    obtain ⟨hwords, hthoughts, hall⟩ := read_blocks reasoning text htools
    rw [← htexts] at hwords hthoughts hall
    split
    · next hnone =>
      rw [hnone] at hwords hthoughts
      rw [(List.append_eq_nil_iff.mp hnone).2] at hread
      refine ⟨?_, hthoughts, hread⟩
      rw [← hwords]
      simp [hasType, textOrEmpty, Json.strField_object, List.lookup_cons, Json.asStr,
        String.join_cons]
    · exact ⟨hwords, hthoughts, by rw [hall, hread]⟩
  unfold openaiBodyToClaude
  simp only [hchoice, hchosen, hfinish, Option.bind_some, hstated, hreply.usage, Option.getD_some]
  obtain ⟨hwords, hthoughts, hcalled⟩ := hcontent _ rfl
  have hsaid := congrArg (List.map fun w : String × Option Json ↦
    (⟨none, w.1, w.2⟩ : SaidCall)) hcalled
  rw [List.map_map, List.map_map] at hsaid
  rw [ofMessage_object, hwords, hthoughts]
  exact congrArg (fun said ↦ (⟨text, reasoning, said, _, _⟩ : Said)) hsaid

end Reading

/-! ## Bodies -/

namespace ClaudeBlock

variable {serde : SerdeJson}

/-- What a block adds to the text of a whole message, as the body path reads text. -/
def textBy (read : String → String) : ClaudeBlock serde → String
  | text pieces => read (String.join pieces)
  | _ => ""

/-- The type of a block. -/
def kind : ClaudeBlock serde → String
  | text _ => "text"
  | thinking _ _ => "thinking"
  | toolUse _ => "tool_use"

private theorem hasType_body (name : String) (block : ClaudeBlock serde) :
    hasType name block.body = (block.kind == name) := by
  have htype : block.body.strField "type" = some block.kind := by
    cases block <;> exact (Json.strField_object ..).trans rfl
  rw [hasType, htype]
  rfl

private theorem join_bodies (name : String) (read : Json → String)
    (blocks : List (ClaudeBlock serde)) :
    String.join (((blocks.map body).filter (hasType name)).map read) =
      String.join (blocks.map fun block ↦ if block.kind = name then read block.body else "") := by
  induction blocks with
  | nil => rfl
  | cons block blocks ih =>
    rw [List.map_cons, List.filter_cons, hasType_body, List.map_cons, String.join_cons]
    by_cases h : block.kind = name
    · rw [if_pos (by simpa using h), if_pos h, List.map_cons, String.join_cons, ih]
    · rw [if_neg (by simpa using h), if_neg h, String.empty_append, ih]

theorem join_texts (blocks : List (ClaudeBlock serde)) (read : String → String) :
    String.join (((blocks.map body).filter (hasType "text")).map fun block ↦
      read (textOrEmpty block "text")) = String.join (blocks.map (textBy read)) := by
  rw [join_bodies]
  refine congrArg String.join (List.map_congr_left fun block _ ↦ ?_)
  cases block with
  | text pieces =>
    rw [kind, if_pos rfl, body, textOrEmpty, Json.strField_object]
    rfl
  | _ => exact if_neg (by simp [kind])

theorem join_thoughts (blocks : List (ClaudeBlock serde)) :
    String.join (((blocks.map body).filter (hasType "thinking")).map (textOrEmpty · "thinking")) =
      String.join (blocks.map thoughts) := by
  rw [join_bodies]
  refine congrArg String.join (List.map_congr_left fun block _ ↦ ?_)
  cases block with
  | thinking pieces signature =>
    rw [kind, if_pos rfl, body, textOrEmpty, Json.strField_object]
    rfl
  | _ => exact if_neg (by simp [kind])

theorem filter_toolUses (blocks : List (ClaudeBlock serde)) :
    (blocks.map body).filter (hasType "tool_use") =
      (blocks.filterMap call?).map fun call ↦ (toolUse call).body := by
  induction blocks with
  | nil => rfl
  | cons block blocks ih =>
    rw [List.map_cons, List.filter_cons, hasType_body, ih]
    cases block <;> rfl

end ClaudeBlock

/-- The function call that a tool block becomes. -/
theorem read_claudeToolCall {serde : SerdeJson} (write : Json → String)
    (call : ClaudeToolUse serde) :
    ToolCall.read (claudeToolCall write (ClaudeBlock.toolUse call).body) =
      ⟨call.id, call.name, write (.obj call.input)⟩ := by
  have hget (key : String) : (ClaudeBlock.toolUse call).body.get key = _ := Json.get_object ..
  have hname : textOrEmpty (ClaudeBlock.toolUse call).body "name" = call.name := by
    rw [textOrEmpty, Json.strField, hget]
    rfl
  have hid : fieldOrNull (ClaudeBlock.toolUse call).body "id" = .str call.id := by
    rw [fieldOrNull, hget]
    rfl
  have hinput : ((ClaudeBlock.toolUse call).body.get "input").getD (Json.object []) =
      .obj call.input := by
    rw [hget]
    rfl
  have hfunction : (claudeToolCall write (ClaudeBlock.toolUse call).body).get "function" =
      some (Json.object [("name", .str call.name),
        ("arguments", .str (write (.obj call.input)))]) := by
    rw [claudeToolCall, hname, hinput, Json.get_object]
    rfl
  rw [ToolCall.read, functionText_of_object (by decide) hfunction,
    functionText_of_object (by decide) hfunction, claudeToolCall, hid, Json.strField_object,
    Json.strField_object, Json.strField_object]
  rfl

namespace ClaudeReply

variable {serde : SerdeJson} (reply : ClaudeReply serde)

/-- The finish reason that the body path gives a message. -/
def wholeFinish : String :=
  match reply.stopReason with
  | none => "stop"
  | some reason =>
    if reason = "end_turn" then "stop" else if reason = "tool_use" then "tool_calls" else reason

/-- A message as the body path makes it a completion. -/
theorem claudeBodyToOpenai_body (write : Json → String) (s : StreamState) :
    ∃ id model created, claudeBodyToOpenai write reply.body s = completion id model created
      (assistantMessage (String.join (reply.blocks.map (ClaudeBlock.textBy stripJsonFence)))
        (String.join (reply.blocks.map ClaudeBlock.thoughts))
        ((reply.blocks.filterMap ClaudeBlock.call?).map fun call ↦
          claudeToolCall write (ClaudeBlock.toolUse call).body))
      reply.wholeFinish (reply.counts.map fun counts ↦ counts.toUsage counts.output) := by
  have hcontent : reply.body.get "content" = some (.arr (reply.blocks.map ClaudeBlock.body)) := by
    rw [body, get_message (by decide)]
    rfl
  have hchoices : reply.body.get "choices" = none := by
    rw [body, get_message (by decide)]
    rfl
  have hforeign : isForeign reply.body = false := by
    rw [isForeign, hchoices, hcontent]
    rfl
  have hblocks : claudeBlocks reply.body = reply.blocks.map ClaudeBlock.body := by
    rw [claudeBlocks, arrayField, hcontent]
    rfl
  have hfinish : claudeFinish reply.body = reply.wholeFinish := by
    have hreason : reply.body.strField "stop_reason" = reply.stopReason := by
      rw [Json.strField, body, get_message (by decide)]
      cases reply.stopReason <;> rfl
    unfold claudeFinish wholeFinish
    cases hstop : reply.stopReason <;> simp only [hreason, hstop]
  have husage : (reply.body.get "usage").bind Usage.ofClaude =
      reply.counts.map fun counts ↦ counts.toUsage counts.output := by
    rw [body, get_message_usage]
    cases reply.counts with
    | none => rfl
    | some counts =>
      obtain ⟨hinput, houtput, hread, hcreation⟩ := countAt_usage counts counts.output
      have hobject : (counts.usage counts.output).asObject.isSome = true := rfl
      obtain ⟨fields, hfields⟩ := Option.isSome_iff_exists.mp hobject
      simp only [Option.map_some, Option.bind_some, Usage.ofClaude, hfields, hinput, houtput, hread,
        hcreation]
      rfl
  rw [claudeBodyToOpenai, hforeign, if_neg Bool.false_ne_true, claudeText, claudeThinking, hblocks,
    ClaudeBlock.join_texts, ClaudeBlock.join_thoughts, ClaudeBlock.filter_toolUses, List.map_map,
    hfinish, husage]
  exact ⟨_, _, _, rfl⟩

end ClaudeReply

namespace GeminiReply

open NullRouter.Translate.Response.GeminiToOpenai

variable {serde : SerdeJson} (reply : GeminiReply serde)

/-- The calls of a reply. -/
def calls : List (GeminiCall serde) := reply.parts.filterMap GeminiPart.call?

private theorem part_fields (part : GeminiPart serde) :
    geminiPartText part.body = part.shown ∧ geminiPartReasoning part.body = part.thinking ∧
      part.body.get "functionCall" = part.call?.map GeminiCall.body := by
  have hget (fields : List (String × Json)) (key : String) : (Json.object fields).get key = _ :=
    Json.get_object ..
  cases part with
  | text words =>
    have hthought : isThought (GeminiPart.text words : GeminiPart serde).body = false := by
      rw [isThought, GeminiPart.body, hget]
      rfl
    refine ⟨?_, ?_, ?_⟩
    · rw [geminiPartText, hthought, inlineOf, GeminiPart.body, hget, hget, Json.strField_object]
      exact String.append_empty
    · rw [geminiPartReasoning, hthought]
      rfl
    · rw [GeminiPart.body, hget]
      rfl
  | thought words =>
    have hthought : isThought (GeminiPart.thought words : GeminiPart serde).body = true := by
      rw [isThought, GeminiPart.body, hget]
      rfl
    refine ⟨?_, ?_, ?_⟩
    · rw [geminiPartText, hthought, inlineOf, GeminiPart.body, hget, hget]
      rfl
    · rw [geminiPartReasoning, hthought, GeminiPart.body, Json.strField_object]
      rfl
    · rw [GeminiPart.body, hget]
      rfl
  | call c =>
    have hthought : isThought (GeminiPart.call c).body = false := by
      rw [isThought, GeminiPart.body, hget]
      rfl
    refine ⟨?_, ?_, ?_⟩
    · rw [geminiPartText, hthought, inlineOf, GeminiPart.body, hget, hget, Json.strField_object]
      rfl
    · rw [geminiPartReasoning, hthought]
      rfl
    · rw [GeminiPart.body, hget]
      rfl

private theorem geminiToolCalls_spec (write : Json → String) (calls : List (GeminiCall serde))
    (position : Nat) (s : StreamState) :
    List.Forall₂ HasFunction (geminiToolCalls write (calls.map GeminiCall.body) position s).1
      (calls.map fun call ↦ (call.name, write (.obj call.args))) := by
  induction calls generalizing position s with
  | nil => exact .nil
  | cons call calls ih =>
    rw [List.map_cons, List.map_cons, geminiToolCalls]
    simp only [call.name_body, call.args_body]
    refine .cons ?_ (ih _ _)
    rw [HasFunction, Json.get_object]
    rfl

/-- The finish reason that the body path gives a reply. -/
def wholeFinish : String :=
  let finish := String.ofList (toLowercase (reply.finishReason.getD "stop").toList)
  if finish = "stop" ∧ reply.calls ≠ [] then "tool_calls" else finish

/-- A reply as the body path makes it a completion. -/
theorem geminiBodyToOpenai_body (write : Json → String) (s : StreamState) :
    ∃ id model created calls, geminiBodyToOpenai write reply.body s = completion id model created
        (assistantMessage (String.join (reply.parts.map GeminiPart.shown))
          (String.join (reply.parts.map GeminiPart.thinking)) calls)
        reply.wholeFinish (toUsage reply.usage) ∧
      List.Forall₂ HasFunction calls
        (reply.calls.map fun call ↦ (call.name, write (.obj call.args))) := by
  obtain ⟨hresponse, husage⟩ := reply.response_fields reply.parts reply.finishReason reply.usage
  obtain ⟨hcandidate, hparts, -⟩ :=
    reply.candidate_fields reply.parts reply.finishReason reply.usage
  have hfinish : (candidate reply.parts reply.finishReason).strField "finishReason" =
      reply.finishReason := by
    rw [candidate, Json.strField_object]
    cases reply.finishReason <;> rfl
  have hcalls : (reply.parts.map GeminiPart.body).filterMap (·.get "functionCall") =
      reply.calls.map GeminiCall.body := by
    rw [List.filterMap_map, calls, List.map_filterMap]
    refine List.filterMap_congr fun part _ ↦ ?_
    exact (part_fields part).2.2
  have htext : (reply.parts.map GeminiPart.body).map geminiPartText =
      reply.parts.map GeminiPart.shown := by
    rw [List.map_map]
    exact List.map_congr_left fun part _ ↦ (part_fields part).1
  have hthinking : (reply.parts.map GeminiPart.body).map geminiPartReasoning =
      reply.parts.map GeminiPart.thinking := by
    rw [List.map_map]
    exact List.map_congr_left fun part _ ↦ (part_fields part).2.1
  have hspec := geminiToolCalls_spec write reply.calls 0 s
  have hnone : (geminiToolCalls write (reply.calls.map GeminiCall.body) 0 s).1 ≠ [] ↔
      reply.calls ≠ [] := by
    rw [ne_eq, ne_eq, ← List.length_eq_zero_iff, ← List.length_eq_zero_iff, hspec.length_eq,
      List.length_map]
  rw [geminiBodyToOpenai, body, hresponse, hcandidate]
  simp only [hparts, hcalls, htext, hthinking, husage]
  have hreason : geminiFinish (candidate reply.parts reply.finishReason)
      (decide ((geminiToolCalls write (reply.calls.map GeminiCall.body) 0 s).1 ≠ [])) =
        reply.wholeFinish := by
    rw [geminiFinish, hfinish, wholeFinish]
    simp only [decide_eq_true_eq, hnone]
  have hcounted : (reply.usage.map Json.obj).bind Usage.ofGemini = toUsage reply.usage := by
    cases reply.usage <;> rfl
  rw [hreason, hcounted]
  exact ⟨_, _, _, _, rfl, hspec⟩

end GeminiReply

end NullRouter.Stream
