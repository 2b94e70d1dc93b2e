import NullRouter.Base.Lists
import NullRouter.Stream.WholeReplies

/-!
# Where a streamed reply says what the whole one does

When `collapse_stream_to_json` (`crates/execute/src/stream.rs:626`) of a reply's stream and
`translate_body` (`crates/translate/src/body.rs:27`) of its body tell a client the same. The two
paths read the same counts and the same thinking; texts, calls and finish reasons can differ.
-/

namespace NullRouter.Stream

open NullRouter.Base NullRouter.Translate NullRouter.Translate.Body

/-- What is gathered of a stream that carries a reply. -/
theorem ProviderReply.collapse_eq {serde : SerdeJson} {reply : ProviderReply serde}
    {reads : List Read} (hreads : payloads (jsonText serde) .sse
      (Utf8.decodeReads (received reads)) = reply.events) (model : String) (s : StreamState) :
    let relayed := through reply.pivot.translate reply.events s
    reply.collapse model reads s = (({} : Collapsed).take relayed.1).envelope model relayed.2 := by
  intro relayed
  rw [ProviderReply.collapse, collapseStreamToJson]
  simp only [collapseLines_eq, Pivot.relayed, hreads]
  cases reply <;> rfl

section Completions

variable {reply reply' message message' : Json} {text text' reasoning finish finish' : String}
  {calls calls' : List Json} {usage : Option Usage}

/-- Two completions that think and count alike say the same where the rest is the same. -/
theorem ofCompletion_eq_iff (serde : SerdeJson) (ids : Bool)
    (hreply : IsCompletion reply message finish usage)
    (hmessage : IsMessage message text reasoning calls)
    (hreply' : IsCompletion reply' message' finish' usage)
    (hmessage' : IsMessage message' text' reasoning calls') :
    Said.ofCompletion serde ids reply = Said.ofCompletion serde ids reply' ↔
      text = text' ∧
      (calls.map ToolCall.read).map (fun call ↦ (⟨if ids then some call.id else none, call.name,
          serde.fromStr call.arguments⟩ : SaidCall)) =
        (calls'.map ToolCall.read).map (fun call ↦
          ⟨if ids then some call.id else none, call.name, serde.fromStr call.arguments⟩) ∧
      finish = finish' := by
  rw [ofCompletion_eq serde ids hreply hmessage, ofCompletion_eq serde ids hreply' hmessage',
    Said.mk.injEq, Option.some_inj]
  simp only [true_and, and_true]

end Completions

/-! ## Claude -/

namespace ClaudeBlock

variable {serde : SerdeJson} (names : List (String × String))

/-- When a block is the same in a stream and in a body: no fence is taken off its text, it is no
thinking, and the input of its tool is streamed as a JSON object, the tool under its own name. -/
def Kept : ClaudeBlock serde → Prop
  | text pieces => stripJsonFence (String.join pieces) = String.join pieces
  | thinking _ _ => False
  | toolUse call => serde.fromStr (String.join call.fragments) = some (.obj call.input) ∧
      originalName names call.name = call.name

/-- The texts of the blocks are the same together where each of them is. -/
theorem join_streamedText_eq_iff (blocks : List (ClaudeBlock serde)) :
    String.join (blocks.map streamedText) = String.join (blocks.map (textBy stripJsonFence)) ↔
      ∀ block ∈ blocks, block.textBy stripJsonFence = block.streamedText := by
  have hsublist : ∀ block ∈ blocks, (block.textBy stripJsonFence).toList.Sublist
      block.streamedText.toList := by
    intro block _
    cases block with
    | text pieces =>
      rw [textBy, streamedText]
      exact stripJsonFence_sublist _
    | thinking pieces signature =>
      rw [textBy, String.toList_empty]
      · exact List.nil_sublist _
      · intro pieces' h
        cases h
    | toolUse call =>
      rw [textBy, String.toList_empty]
      · exact List.nil_sublist _
      · intro pieces' h
        cases h
  rw [← String.toList_inj, String.toList_join, String.toList_join, List.flatMap_map,
    List.flatMap_map, eq_comm, flatMap_eq_iff_of_sublist hsublist]
  simp only [String.toList_inj]

/-- What the streamed fragments of a tool's input are read as, under the tool's streamed name. -/
def streamedCall (call : ClaudeToolUse serde) : SaidCall :=
  ⟨some call.id, originalName names call.name, serde.fromStr (String.join call.fragments)⟩

/-- A tool block of the body, as it is read. -/
def wholeCall (call : ClaudeToolUse serde) : SaidCall :=
  ⟨some call.id, call.name, some (.obj call.input)⟩

theorem streamedCall_eq_iff (call : ClaudeToolUse serde) :
    streamedCall names call = wholeCall call ↔ (toolUse call).Kept names := by
  rw [streamedCall, wholeCall, SaidCall.mk.injEq, Kept]
  constructor
  · rintro ⟨-, hname, hinput⟩
    exact ⟨hinput, hname⟩
  · rintro ⟨hinput, hname⟩
    exact ⟨rfl, hname, hinput⟩

/-- A block is kept where its text and its call are. -/
theorem kept_iff (block : ClaudeBlock serde) :
    block.Kept names ↔ block.textBy stripJsonFence = block.streamedText ∧
      ∀ call ∈ block.call?, streamedCall names call = wholeCall call := by
  cases block with
  | text pieces =>
    rw [Kept, textBy, streamedText]
    constructor
    · intro h
      refine ⟨h, ?_⟩
      intro call hcall
      cases hcall
    · exact And.left
  | thinking pieces signature =>
    have hne : (thinking pieces signature : ClaudeBlock serde).textBy stripJsonFence ≠
        (thinking pieces signature : ClaudeBlock serde).streamedText :=
      show "" ≠ "<think></think>" by decide
    exact ⟨False.elim, fun h ↦ absurd h.1 hne⟩
  | toolUse call =>
    constructor
    · intro h
      refine ⟨rfl, ?_⟩
      rintro _ ⟨⟩
      exact (streamedCall_eq_iff names call).mpr h
    · intro h
      exact (streamedCall_eq_iff names call).mp (h.2 call rfl)

end ClaudeBlock

namespace ClaudeReply

variable {serde : SerdeJson} (reply : ClaudeReply serde)

private theorem map_calls_eq_iff (names : List (String × String))
    (calls : List (ClaudeToolUse serde)) :
    (calls.map fun call ↦ (⟨call.id, originalName names call.name,
          String.join call.fragments⟩ : ToolCall)).map (fun call ↦
            (⟨if true then some call.id else none, call.name,
              serde.fromStr call.arguments⟩ : SaidCall)) =
        ((calls.map fun call ↦ claudeToolCall serde.toText
          (ClaudeBlock.toolUse call).body).map ToolCall.read).map (fun call ↦
            ⟨if true then some call.id else none, call.name, serde.fromStr call.arguments⟩) ↔
      ∀ call ∈ calls, ClaudeBlock.streamedCall names call = ClaudeBlock.wholeCall call := by
  rw [List.map_map, List.map_map, List.map_map, List.map_inj_left]
  refine forall₂_congr fun call _ ↦ ?_
  rw [Function.comp_apply, Function.comp_apply, Function.comp_apply, read_claudeToolCall,
    ClaudeBlock.streamedCall, ClaudeBlock.wholeCall, ← call.written]
  rfl

/-- When the end of a message is the same: its reason is one that both paths know, and a message
without a reason uses no tool. -/
def EndKept : Prop :=
  match reply.stopReason with
  | some reason => reason ∈ ["end_turn", "tool_use", "stop"]
  | none => reply.blocks.filterMap ClaudeBlock.call? = []

/-- When a message says the same in its stream as in its body. -/
def Kept (names : List (String × String)) : Prop :=
  (∀ block ∈ reply.blocks, block.Kept names) ∧ reply.EndKept

private theorem finishOfClaude_eq_iff (reason : String) :
    finishOfClaude reason = (if reason = "end_turn" then "stop"
      else if reason = "tool_use" then "tool_calls" else reason) ↔
      reason ∈ ["end_turn", "tool_use", "stop"] := by
  have hmem : reason ∈ ["end_turn", "tool_use", "stop"] ↔
      reason = "end_turn" ∨ reason = "tool_use" ∨ reason = "stop" := by simp
  rw [hmem, finishOfClaude]
  by_cases hturn : reason = "end_turn"
  · subst hturn
    decide
  · by_cases htool : reason = "tool_use"
    · subst htool
      decide
    · by_cases hlength : reason = "max_tokens"
      · subst hlength
        decide
      · rw [if_neg hlength, if_neg htool, if_neg hturn, if_neg htool]
        simp only [hturn, htool, false_or]
        exact eq_comm

private theorem sum_callCount_eq_zero_iff (blocks : List (ClaudeBlock serde)) :
    (blocks.map ClaudeBlock.callCount).sum = 0 ↔ blocks.filterMap ClaudeBlock.call? = [] := by
  induction blocks with
  | nil => exact ⟨fun _ ↦ rfl, fun _ ↦ rfl⟩
  | cons block blocks ih =>
    rw [List.map_cons, List.sum_cons, List.filterMap_cons]
    cases block with
    | toolUse call => simp [ClaudeBlock.callCount, ClaudeBlock.call?]
    | _ => simpa [ClaudeBlock.callCount, ClaudeBlock.call?] using ih

theorem streamedFinish_eq_iff : reply.streamedFinish = reply.wholeFinish ↔ reply.EndKept := by
  rw [streamedFinish, wholeFinish, EndKept]
  cases reply.stopReason with
  | some reason => exact finishOfClaude_eq_iff reason
  | none =>
    rw [← sum_callCount_eq_zero_iff]
    change (if _ then "stop" else "tool_calls") = "stop" ↔ _
    split
    · next hcalls => exact ⟨fun _ ↦ hcalls, fun _ ↦ rfl⟩
    · next hcalls => exact ⟨fun h ↦ absurd h (by decide), fun h ↦ absurd h hcalls⟩

section Relayed

variable {reads : List Read} (hreads : payloads (jsonText serde) .sse
  (Utf8.decodeReads (received reads)) = reply.events) (model : String) (clock : Nat → Nat)
  (names : List (String × String))

include hreads

/-- What the stream of a message is collapsed to. -/
theorem collapse_spec : ∃ message calls,
    IsCompletion ((ProviderReply.claude reply).collapse model reads { clock, toolNameMap := names })
        message reply.streamedFinish (reply.counts.map fun counts ↦ counts.toUsage counts.output) ∧
      IsMessage message (String.join (reply.blocks.map ClaudeBlock.streamedText))
        (String.join (reply.blocks.map ClaudeBlock.thoughts)) calls ∧
      calls.map ToolCall.read = (reply.blocks.filterMap ClaudeBlock.call?).map fun call ↦
        ⟨call.id, originalName names call.name, String.join call.fragments⟩ := by
  obtain ⟨htext, hreasoning, hcalls, hfinish, husage⟩ :=
    collapsed_claude serde.toText reply clock names
  rw [ProviderReply.collapse_eq hreads, ← htext, ← hreasoning, ← husage]
  refine ⟨_, _, ?_, isMessage_message _, hcalls⟩
  have hresolved : (({} : Collapsed).take (through (ProviderReply.claude reply).pivot.translate
      (ProviderReply.claude reply).events { clock, toolNameMap := names }).1).resolvedFinish =
        reply.streamedFinish := by
    exact congrArg (fun finish : Option String ↦ finish.getD _) hfinish
  rw [← hresolved]
  exact isCompletion_envelope _ model _

/-- A client that does not speak Claude's format is told the same of a message where it is kept. -/
theorem agrees_iff {source : Format} (hsource : Format.claude ≠ source) :
    (ProviderReply.claude reply).Agrees .claude source model reads
      { clock, toolNameMap := names } ↔ reply.Kept names := by
  obtain ⟨id, name, created, hbody⟩ :=
    reply.claudeBodyToOpenai_body serde.toText { clock, toolNameMap := names }
  obtain ⟨message, calls, hreply, hmessage, hcalls⟩ := reply.collapse_spec hreads model clock names
  have hwhole : translateBody serde .claude source (ProviderReply.claude reply).body
      { clock, toolNameMap := names } =
        claudeBodyToOpenai serde.toText reply.body { clock, toolNameMap := names } := by
    rw [translateBody, if_neg hsource, if_neg hsource.symm]
    rfl
  rw [ProviderReply.Agrees, hwhole, hbody, forClient, if_neg hsource.symm, Said.read,
    if_neg hsource.symm, Said.read, if_neg hsource.symm]
  refine (ofCompletion_eq_iff serde true hreply hmessage
    (isCompletion_completion _ _ _) (isMessage_assistantMessage _ _ _)).trans ?_
  rw [hcalls, map_calls_eq_iff, ClaudeBlock.join_streamedText_eq_iff, streamedFinish_eq_iff,
    Kept, ← and_assoc]
  refine and_congr_left fun _ ↦ ?_
  simp only [ClaudeBlock.kept_iff, List.mem_filterMap]
  constructor
  · rintro ⟨htexts, hsaid⟩ block hblock
    exact ⟨htexts block hblock, fun call hcall ↦ hsaid call ⟨block, hblock, hcall⟩⟩
  · intro h
    refine ⟨fun block hblock ↦ (h block hblock).1, ?_⟩
    rintro call ⟨block, hblock, hcall⟩
    exact (h block hblock).2 call hcall

end Relayed

end ClaudeReply

/-! ## Gemini -/

private theorem map_read_of_hasFunction {calls : List Json} {words : List (String × String)}
    (h : List.Forall₂ HasFunction calls words) {γ : Type} (f : String → String → γ) :
    (calls.map ToolCall.read).map (fun call ↦ f call.name call.arguments) =
      words.map fun w ↦ f w.1 w.2 := by
  induction h with
  | nil => rfl
  | @cons call w calls words hcall _ ih =>
    have hname : functionText call "name" = w.1 := by
      rw [functionText_of_object (by decide) hcall, Json.strField_object]
      rfl
    have harguments : functionText call "arguments" = w.2 := by
      rw [functionText_of_object (by decide) hcall, Json.strField_object]
      rfl
    rw [List.map_cons, List.map_cons, List.map_cons, ih, ToolCall.read, hname, harguments]

namespace GeminiReply

variable {serde : SerdeJson} (reply : GeminiReply serde)

/-- The reason why a reply ends, in lower and in upper case. -/
def lowerReason (reason : String) : String := String.ofList (toLowercase reason.toList)

def upperReason (reason : String) : String := String.ofList (toUppercase reason.toList)

/-- When the end of a reply is the same for a client of a format. The body path only puts the
reason in lower case, so that an OpenAI client is told the same where that is all there is to do;
Claude's format takes any unknown reason for the end of a turn. -/
def EndKept (source : Format) : Prop :=
  match reply.finishReason with
  | none => True
  | some reason =>
    lowerReason reason = "stop" ∨ lowerReason reason = "tool_calls" ∧ reply.calls ≠ [] ∨
      source = .claude ∧ lowerReason reason ∉ ["stop", "tool_calls", "length"] ∧
        (upperReason reason ∈ ["SAFETY", "RECITATION", "BLOCKLIST", "PROHIBITED_CONTENT"] ∨
          upperReason reason ≠ "MAX_TOKENS" ∧ reply.calls = [])

/-- When a reply says the same in its stream as in its body: its tools are streamed under the
names that it gives them. -/
def Kept (names : List (String × String)) (source : Format) : Prop :=
  (∀ call ∈ reply.calls, originalName names call.name = call.name) ∧ reply.EndKept source

/-- The finish reason of the stream, assumed where it names none. -/
def gatheredFinish : String :=
  reply.streamedFinish.getD (if reply.calls = [] then "stop" else "tool_calls")

private theorem upperReason_eq {reason word : String} (h : lowerReason reason = word)
    (hword : (word.toList.all fun c ↦ decide (c.toNat < 128 ∧ c ≠ 'k')) = true) :
    upperReason reason = String.ofList (word.toList.map Char.toUpper) := by
  have hlower : toLowercase reason.toList = word.toList := by
    rw [← h, lowerReason, String.toList_ofList]
  rw [upperReason, toUppercase_of_toLowercase hlower fun c hc ↦
    of_decide_eq_true (List.all_eq_true.mp hword c hc)]

/-- What the stream makes of a reason: the words that an OpenAI client knows are no reasons of
Gemini's. -/
private theorem finishOfGemini_spec (reason : String) :
    (finishOfGemini reason = "length" ∧ upperReason reason = "MAX_TOKENS" ∨
      finishOfGemini reason = "content_filter" ∧ upperReason reason ≠ "MAX_TOKENS" ∧
        upperReason reason ∈ ["SAFETY", "RECITATION", "BLOCKLIST", "PROHIBITED_CONTENT"] ∨
      finishOfGemini reason = "stop" ∧ upperReason reason ≠ "MAX_TOKENS" ∧
        upperReason reason ∉ ["SAFETY", "RECITATION", "BLOCKLIST", "PROHIBITED_CONTENT"]) ∧
    (lowerReason reason ∈ ["stop", "tool_calls", "length", "content_filter"] →
      finishOfGemini reason = "stop") := by
  have hfinish : finishOfGemini reason = if upperReason reason = "MAX_TOKENS" then "length"
      else if upperReason reason = "SAFETY" ∨ upperReason reason = "RECITATION" ∨
        upperReason reason = "BLOCKLIST" ∨ upperReason reason = "PROHIBITED_CONTENT"
      then "content_filter" else "stop" := rfl
  have hmem : upperReason reason ∈ ["SAFETY", "RECITATION", "BLOCKLIST", "PROHIBITED_CONTENT"] ↔
      upperReason reason = "SAFETY" ∨ upperReason reason = "RECITATION" ∨
        upperReason reason = "BLOCKLIST" ∨ upperReason reason = "PROHIBITED_CONTENT" := by simp
  constructor
  · rw [hfinish, hmem]
    by_cases hmax : upperReason reason = "MAX_TOKENS"
    · exact .inl ⟨if_pos hmax, hmax⟩
    · rw [if_neg hmax]
      right
      split
      · next hblocked => exact .inl ⟨rfl, hmax, hblocked⟩
      · next hblocked => exact .inr ⟨rfl, hmax, hblocked⟩
  · intro hlower
    have hupper : upperReason reason ∈ ["STOP", "TOOL_CALLS", "LENGTH", "CONTENT_FILTER"] := by
      rcases List.mem_cons.mp hlower with h | hlower
      · rw [upperReason_eq h (by decide)]
        decide
      rcases List.mem_cons.mp hlower with h | hlower
      · rw [upperReason_eq h (by decide)]
        decide
      rcases List.mem_cons.mp hlower with h | hlower
      · rw [upperReason_eq h (by decide)]
        decide
      · rw [upperReason_eq (List.mem_singleton.mp hlower) (by decide)]
        decide
    rw [hfinish]
    generalize upperReason reason = upper at hupper
    simp only [List.mem_cons, List.not_mem_nil, or_false] at hupper
    rcases hupper with rfl | rfl | rfl | rfl <;> decide

private theorem gatheredFinish_of_reason {reason : String} (h : reply.finishReason = some reason) :
    reply.gatheredFinish =
      if finishOfGemini reason = "stop" ∧ reply.calls ≠ [] then "tool_calls"
      else finishOfGemini reason := by
  rw [gatheredFinish, streamedFinish, h]
  by_cases hempty : reason = ""
  · subst hempty
    have hstop : finishOfGemini "" = "stop" := by decide
    have hnone : (some "").filter (fun reason : String ↦ !reason.isEmpty) = none := by decide
    rw [hstop, hnone, Option.map_none, Option.getD_none]
    by_cases hcalls : reply.calls = [] <;> simp [hcalls]
  · rw [Option.filter_some_pos (by simpa using hempty)]
    rfl

private theorem finish_of_none (h : reply.finishReason = none) :
    reply.gatheredFinish = reply.wholeFinish := by
  have hstop : String.ofList (toLowercase "stop".toList) = "stop" := by decide
  rw [gatheredFinish, streamedFinish, wholeFinish, h, Option.getD_none, hstop]
  by_cases hcalls : reply.calls = [] <;> simp [hcalls]

/-- A client that does not speak Claude's format reads the finish reason itself. -/
theorem gatheredFinish_eq_iff {source : Format} (hsource : source ≠ .claude) :
    reply.gatheredFinish = reply.wholeFinish ↔ reply.EndKept source := by
  rw [EndKept]
  cases hreason : reply.finishReason with
  | none => exact iff_true_intro (reply.finish_of_none hreason)
  | some reason =>
    have hwhole : reply.wholeFinish = if lowerReason reason = "stop" ∧ reply.calls ≠ []
        then "tool_calls" else lowerReason reason := by
      rw [wholeFinish, hreason]
      rfl
    obtain ⟨hfinish, hplain⟩ := finishOfGemini_spec reason
    rw [reply.gatheredFinish_of_reason hreason, hwhole]
    simp only [hsource, false_and, or_false]
    generalize finishOfGemini reason = finish at *
    generalize lowerReason reason = lower at *
    simp only [List.mem_cons, List.not_mem_nil, or_false] at hplain
    rcases hfinish with ⟨rfl, -⟩ | ⟨rfl, -⟩ | ⟨rfl, -⟩
    · have hother := mt hplain (by decide)
      push Not at hother
      simp [hother, Ne.symm hother.2.2.1]
    · have hother := mt hplain (by decide)
      push Not at hother
      simp [hother, Ne.symm hother.2.2.2]
    · by_cases hcalls : reply.calls = []
      · simp [hcalls, eq_comm]
      · by_cases hstop : lower = "stop"
        · simp [hcalls, hstop]
        · simp [hcalls, hstop, eq_comm]

/-- A Claude client reads what the finish reason becomes in its format. -/
theorem finishToClaude_eq_iff :
    finishToClaude reply.gatheredFinish = finishToClaude reply.wholeFinish ↔
      reply.EndKept .claude := by
  rw [EndKept]
  cases hreason : reply.finishReason with
  | none => exact iff_true_intro (congrArg finishToClaude (reply.finish_of_none hreason))
  | some reason =>
    have hwhole : reply.wholeFinish = if lowerReason reason = "stop" ∧ reply.calls ≠ []
        then "tool_calls" else lowerReason reason := by
      rw [wholeFinish, hreason]
      rfl
    obtain ⟨hfinish, hplain⟩ := finishOfGemini_spec reason
    rw [reply.gatheredFinish_of_reason hreason, hwhole]
    simp only [true_and]
    generalize finishOfGemini reason = finish at *
    generalize lowerReason reason = lower at *
    generalize upperReason reason = upper at *
    have hclaude {finish : String} : finishToClaude finish = if finish = "length" then "max_tokens"
      else if finish = "tool_calls" then "tool_use" else "end_turn" := rfl
    rcases hfinish with ⟨rfl, hupper⟩ | ⟨rfl, hupper, hblocked⟩ | ⟨rfl, hupper, hblocked⟩
    · have hother := mt hplain (by decide)
      simp only [List.mem_cons, List.not_mem_nil, or_false] at hother
      push Not at hother
      rw [hupper]
      simp [hother, hclaude]
    · have hother := mt hplain (by decide)
      simp only [List.mem_cons, List.not_mem_nil, or_false] at hother
      push Not at hother
      simp [hother, hclaude, hblocked]
    · by_cases hstop : lower = "stop"
      · by_cases hcalls : reply.calls = [] <;> simp [hcalls, hstop]
      · by_cases hlength : lower = "length"
        · by_cases hcalls : reply.calls = [] <;> simp [hcalls, hlength, hclaude]
        · by_cases htool : lower = "tool_calls"
          · by_cases hcalls : reply.calls = [] <;> simp [hcalls, htool, hclaude]
          · by_cases hcalls : reply.calls = [] <;>
              simp [hcalls, hstop, hlength, htool, hclaude, hblocked, hupper]

section Relayed

variable {reads : List Read} (hreads : payloads (jsonText serde) .sse
  (Utf8.decodeReads (received reads)) = reply.events) (model : String) (clock : Nat → Nat)
  (names : List (String × String))

include hreads

/-- What the stream of a reply is collapsed to. -/
theorem collapse_spec : ∃ message calls,
    IsCompletion ((ProviderReply.gemini reply).collapse model reads { clock, toolNameMap := names })
        message reply.gatheredFinish (toUsage reply.usage) ∧
      IsMessage message (String.join (reply.parts.map GeminiPart.shown))
        (String.join (reply.parts.map GeminiPart.thinking)) calls ∧
      List.Forall₂ HasFunction calls (reply.calls.map fun call ↦
        (originalName names call.name, serde.toText (.obj call.args))) := by
  obtain ⟨htext, hreasoning, hcalls, hfinish, husage⟩ :=
    collapsed_gemini serde.toText reply clock names
  rw [ProviderReply.collapse_eq hreads, ← htext, ← hreasoning, ← husage]
  refine ⟨_, _, ?_, isMessage_message _, hcalls⟩
  have hnone : (({} : Collapsed).take (through (ProviderReply.gemini reply).pivot.translate
      (ProviderReply.gemini reply).events { clock, toolNameMap := names }).1).toolCalls.isEmpty =
        true ↔ reply.calls = [] := by
    rw [List.isEmpty_iff, ← List.length_eq_zero_iff, ← List.length_eq_zero_iff]
    exact iff_of_eq (congrArg (· = 0) (hcalls.length_eq.trans (List.length_map _)))
  have hresolved : (({} : Collapsed).take (through (ProviderReply.gemini reply).pivot.translate
      (ProviderReply.gemini reply).events { clock, toolNameMap := names }).1).resolvedFinish =
        reply.gatheredFinish := by
    rw [Collapsed.resolvedFinish, gatheredFinish]
    simp only [hnone]
    exact congrArg (fun finish : Option String ↦ finish.getD _) hfinish
  rw [← hresolved]
  exact isCompletion_envelope _ model _

/-- A client is told the same of a reply where it is kept. -/
theorem agrees_iff {target source : Format}
    (htarget : target ∈ (ProviderReply.gemini reply).formats) (hne : target ≠ source) :
    (ProviderReply.gemini reply).Agrees target source model reads
      { clock, toolNameMap := names } ↔ reply.Kept names source := by
  obtain ⟨id, name, created, stated, hbody, hstated⟩ :=
    reply.geminiBodyToOpenai_body serde.toText { clock, toolNameMap := names }
  obtain ⟨message, calls, hreply, hmessage, hcalls⟩ := reply.collapse_spec hreads model clock names
  have hpivot : bodyToOpenai serde.toText target (ProviderReply.gemini reply).body
      { clock, toolNameMap := names } =
        geminiBodyToOpenai serde.toText reply.body { clock, toolNameMap := names } := by
    rcases htarget with _ | ⟨_, _ | ⟨_, _ | ⟨_, _ | ⟨_, h⟩⟩⟩⟩
    case tail.tail.tail.tail => cases h
    all_goals rfl
  rw [hbody] at hpivot
  have hcompletion := @isCompletion_completion
    (assistantMessage (String.join (reply.parts.map GeminiPart.shown))
      (String.join (reply.parts.map GeminiPart.thinking)) stated) reply.wholeFinish
      (toUsage reply.usage) id name created
  have hassistant := isMessage_assistantMessage (String.join (reply.parts.map GeminiPart.shown))
    (String.join (reply.parts.map GeminiPart.thinking)) stated
  have hnames {γ : Type} (f : String → String → γ)
      (hf : ∀ (a b : String) (w : String), f a w = f b w ↔ a = b) :
      (reply.calls.map fun call ↦ f (originalName names call.name) (serde.toText (.obj call.args))) =
        (reply.calls.map fun call ↦ f call.name (serde.toText (.obj call.args))) ↔
      ∀ call ∈ reply.calls, originalName names call.name = call.name := by
    rw [List.map_inj_left]
    exact forall₂_congr fun call _ ↦ hf _ _ _
  rw [ProviderReply.Agrees, translateBody, if_neg hne, hpivot, Kept]
  by_cases hsource : source = .claude
  · subst hsource
    rw [forClient, if_pos rfl, if_pos rfl, Said.read, if_pos rfl, Said.read, if_pos rfl,
      ProviderReply.givesIds, ofMessage_openaiBodyToClaude serde hreply hmessage hcalls,
      ofMessage_openaiBodyToClaude serde hcompletion hassistant hstated, Said.mk.injEq,
      Option.some_inj, reply.finishToClaude_eq_iff, List.map_map, List.map_map]
    simp only [true_and, and_true]
    refine and_congr_left fun _ ↦ ?_
    exact hnames (fun name arguments ↦ (⟨none, name,
      some (toolInput serde.fromStr (some (.str arguments)))⟩ : SaidCall)) (by simp)
  · rw [forClient, if_neg hsource, if_neg hsource, Said.read, if_neg hsource, Said.read,
      if_neg hsource, ofCompletion_eq_iff serde _ hreply hmessage hcompletion hassistant,
      reply.gatheredFinish_eq_iff hsource]
    simp only [true_and]
    refine and_congr_left fun _ ↦ ?_
    have hread := hnames (fun name arguments ↦
      (⟨none, name, serde.fromStr arguments⟩ : SaidCall)) (by simp)
    have hmap {words : List (String × String)} {calls : List Json}
        (h : List.Forall₂ HasFunction calls words) := map_read_of_hasFunction h
      (fun name arguments ↦ (⟨none, name, serde.fromStr arguments⟩ : SaidCall))
    rw [ProviderReply.givesIds]
    simp only [Bool.false_eq_true, ↓reduceIte, hmap hcalls, hmap hstated, List.map_map]
    exact hread

end Relayed

end GeminiReply

/-! ## Both -/

/-- When a reply says the same in its stream as in its body, to a client of a format. -/
def ProviderReply.Kept {serde : SerdeJson} (names : List (String × String)) (source : Format) :
    ProviderReply serde → Prop
  | claude reply => reply.Kept names
  | gemini reply => reply.Kept names source

/-- A client of another format than the provider's is told the same of the stream of a reply as of
its body exactly where the reply is kept. -/
theorem stream_agrees_with_body_iff {serde : SerdeJson} (reply : ProviderReply serde)
    {target source : Format} (htarget : target ∈ reply.formats) (hne : target ≠ source)
    {reads : List Read} (hreads : payloads (jsonText serde) .sse
      (Utf8.decodeReads (received reads)) = reply.events) (model : String) (clock : Nat → Nat)
    (names : List (String × String)) :
    reply.Agrees target source model reads { clock, toolNameMap := names } ↔
      reply.Kept names source := by
  cases reply with
  | claude reply =>
    obtain rfl := List.mem_singleton.mp htarget
    exact reply.agrees_iff hreads model clock names hne
  | gemini reply => exact reply.agrees_iff hreads model clock names htarget hne

/-- A short answer of Gemini's that ends for a reason. -/
def shortAnswer (reason : String) (serde : SerdeJson) : GeminiReply serde where
  responseId := none
  modelVersion := "gemini"
  parts := [.text "Hi"]
  frames := []
  lastParts := [.text "Hi"]
  finishReason := some reason
  usage := none
  wrapped := false
  text_framed := rfl
  thinking_framed := rfl
  calls_framed := rfl
  metered _ := nofun

/-- The text of that answer. -/
def shortText (reason : String) : String :=
  "\x7b\"candidates\":[\x7b\"content\":\x7b\"parts\":[\x7b\"text\":\"Hi\"\x7d]," ++
    "\"role\":\"model\"\x7d,\"index\":0,\"finishReason\":\"" ++ reason ++ "\"\x7d]," ++
    "\"modelVersion\":\"gemini\"\x7d"

/-- `serde_json` on that text. -/
def shortSerde (reason : String) : SerdeJson where
  fromStr text := if text = shortText reason then
      some ((shortAnswer reason ⟨fun _ ↦ none, fun _ ↦ "", fun _ ↦ ""⟩).body)
    else none
  toText _ := shortText reason
  toTextPretty _ := shortText reason

/-- The reads that bring that text. -/
def shortReads (reason : String) : List Read :=
  [some (asciiBytes ("data: " ++ shortText reason ++ "\n"))]

/-- An answer that just stops is the same for an OpenAI client. -/
theorem stream_agrees_with_body_stop :
    (ProviderReply.gemini (shortAnswer "STOP" (shortSerde "STOP"))).Agrees .gemini .openAi "m"
      (shortReads "STOP") { clock := fun _ ↦ 5 } :=
  (stream_agrees_with_body_iff (.gemini (shortAnswer "STOP" (shortSerde "STOP"))) (by decide)
    (by decide) (by decide +kernel) "m" (fun _ ↦ 5) []).mpr ⟨nofun, .inl (by decide)⟩

/-- One that was cut short is not. -/
theorem stream_disagrees_with_body_max_tokens :
    ¬ ∀ (serde : SerdeJson) (reply : ProviderReply serde) (target source : Format)
      (reads : List Read) (model : String) (clock : Nat → Nat) (names : List (String × String)),
      target ∈ reply.formats → target ≠ source →
      payloads (jsonText serde) .sse (Utf8.decodeReads (received reads)) = reply.events →
      reply.Agrees target source model reads { clock, toolNameMap := names } := by
  intro hall
  have hagrees := hall (shortSerde "MAX_TOKENS")
    (.gemini (shortAnswer "MAX_TOKENS" (shortSerde "MAX_TOKENS"))) .gemini .openAi
    (shortReads "MAX_TOKENS") "m" (fun _ ↦ 5) [] (by decide) (by decide) (by decide +kernel)
  exact absurd (congrArg Said.finishReason hagrees) (by decide +kernel)

end NullRouter.Stream
