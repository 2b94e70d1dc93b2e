import Mathlib.Data.List.Forall2
import NullRouter.Stream.ProviderReplies
import NullRouter.Stream.Relay
import NullRouter.Translate.Response.GeminiToOpenai

/-!
# The stream of a Gemini reply as OpenAI chunks

What `crates/translate/src/response/gemini_to_openai.rs` makes of the frames of a reply: part by
part, frame by frame, and then of the whole stream.
-/

namespace NullRouter.Stream

open NullRouter.Base NullRouter.Translate NullRouter.Translate.Response.GeminiToOpenai

/-- A call as a client is shown it: its index, its name and its arguments. -/
abbrev ShownCall := Nat × String × String

/-- The function of a tool call with a name and the text of its arguments. -/
def HasFunction (call : Json) (words : String × String) : Prop :=
  call.get "function" =
    some (Json.object [("name", .str words.1), ("arguments", .str words.2)])

/-- A tool-call delta that is a whole call. -/
def IsCall (delta : Json) (call : ShownCall) : Prop :=
  stated delta = some call.1 ∧ HasFunction delta call.2

/-- Chunks that say something together and do not end the stream. -/
structure Says (chunks : List Json) (text reasoning : String) (calls : List ShownCall) : Prop where
  text : String.join (chunks.map (chunkText "content")) = text
  reasoning : String.join (chunks.map (chunkText "reasoning_content")) = reasoning
  calls : List.Forall₂ IsCall (chunks.flatMap chunkCalls) calls
  unfinished : chunks.filterMap chunkFinish = []
  unmetered : ∀ chunk ∈ chunks, chunk.get "usage" = none

namespace Says

variable {chunks chunks' : List Json} {text reasoning text' reasoning' : String}
  {calls calls' : List ShownCall}

theorem nil : Says [] "" "" [] := ⟨rfl, rfl, .nil, rfl, nofun⟩

theorem append (h : Says chunks text reasoning calls) (h' : Says chunks' text' reasoning' calls') :
    Says (chunks ++ chunks') (text ++ text') (reasoning ++ reasoning') (calls ++ calls') where
  text := by rw [List.map_append, String.join_append, h.text, h'.text]
  reasoning := by rw [List.map_append, String.join_append, h.reasoning, h'.reasoning]
  calls := by
    rw [List.flatMap_append]
    exact List.rel_append h.calls h'.calls
  unfinished := by rw [List.filterMap_append, h.unfinished, h'.unfinished, List.append_nil]
  unmetered := List.forall_mem_append.mpr ⟨h.unmetered, h'.unmetered⟩

/-- What a built chunk says is in its delta. -/
theorem of_delta {identity : ChunkMeta} {delta : Json}
    (hcalls : List.Forall₂ IsCall (((delta.get "tool_calls").bind Json.asArray).getD []) calls) :
    Says [buildChunk identity delta none] ((delta.strField "content").getD "")
      ((delta.strField "reasoning_content").getD "") calls := by
  have hshown := Shown.ofChunk_buildChunk identity delta none
  have hdelta : chunkDelta (buildChunk identity delta none) = some delta :=
    congrArg Shown.delta hshown
  have hfinish := chunkFinish_buildChunk identity delta none
  have husage : (buildChunk identity delta none).get "usage" = none :=
    congrArg Shown.usage hshown
  refine ⟨?_, ?_, ?_, ?_, List.forall_mem_singleton.mpr husage⟩
  · rw [List.map_singleton, String.join_cons, String.join_nil, String.append_empty, chunkText,
      hdelta, Option.bind_some]
  · rw [List.map_singleton, String.join_cons, String.join_nil, String.append_empty, chunkText,
      hdelta, Option.bind_some]
  · rw [List.flatMap_singleton, chunkCalls, hdelta, Option.bind_some]
    exact hcalls
  · rw [List.filterMap_cons_none hfinish, List.filterMap_nil]

end Says

/-- Where a stream that has named itself stands after some calls. -/
structure Reached (calls : Nat) (names : List (String × String)) (usage : Option Usage)
    (s : StreamState) : Prop where
  index : s.functionIndex = calls
  count : s.geminiToolCallCount = calls
  names : s.toolNameMap = names
  usage : s.usage = usage
  named : s.messageId.isSome = true

section Step

variable {write : Json → String} {names : List (String × String)} {usage : Option Usage}
  {calls : Nat} {s : StreamState}

private theorem Reached.emit (h : Reached calls names usage s) (delta : Json) :
    Reached calls names usage (emit delta s).2 := ⟨h.index, h.count, h.names, h.usage, h.named⟩

/-- What a step says and where it leaves the stream. -/
private structure Goes (step : StreamState → List Json × StreamState) (text reasoning : String)
    (shown : List ShownCall) (names : List (String × String)) (usage usage' : Option Usage)
    (calls : Nat) : Prop where
  said : ∀ s, Reached calls names usage s → Says (step s).1 text reasoning shown
  reached : ∀ s, Reached calls names usage s →
    Reached (calls + shown.length) names usage' (step s).2

private theorem Goes.andThen {first second : StreamState → List Json × StreamState}
    {text reasoning text' reasoning' : String} {shown shown' : List ShownCall}
    {usage' usage'' : Option Usage}
    (h : Goes first text reasoning shown names usage usage' calls)
    (h' : Goes second text' reasoning' shown' names usage' usage'' (calls + shown.length)) :
    Goes (andThen first second) (text ++ text') (reasoning ++ reasoning') (shown ++ shown') names
      usage usage'' calls where
  said s hs := (h.said s hs).append (h'.said _ (h.reached s hs))
  reached s hs := by
    rw [List.length_append, ← Nat.add_assoc]
    exact h'.reached _ (h.reached s hs)

private theorem goes_nil : Goes (fun s ↦ ([], s)) "" "" [] names usage usage calls :=
  ⟨fun _ _ ↦ .nil, fun _ hs ↦ hs⟩

private theorem goes_emit {delta : Json} (h : delta.get "tool_calls" = none) :
    Goes (emit delta) ((delta.strField "content").getD "")
      ((delta.strField "reasoning_content").getD "") [] names usage usage calls where
  said s _ := Says.of_delta (by
    rw [h]
    exact .nil)
  reached s hs := hs.emit delta

private theorem goes_text (text : String) (isThought : Bool) :
    Goes (fun s ↦ ((some text).filter (!·.isEmpty)).elim ([], s) fun text ↦
        emit (textDelta text isThought) s)
      (if isThought then "" else text) (if isThought then text else "") [] names usage usage
        calls := by
  by_cases hempty : text.isEmpty = true
  · have hnone : (some text).filter (!·.isEmpty) = none := by
      rw [Option.filter_some, if_neg (by simp [hempty])]
    rw [hnone, String.isEmpty_iff.mp hempty, ite_self]
    exact goes_nil
  · have hsome : (some text).filter (!·.isEmpty) = some text := by
      rw [Option.filter_some, if_pos (by simp [hempty])]
    rw [hsome]
    cases isThought with
    | true =>
      have h := @goes_emit names usage calls (textDelta text true) rfl
      exact h
    | false =>
      have h := @goes_emit names usage calls (textDelta text false) rfl
      exact h

variable {serde : SerdeJson}

/-- A call as a stream shows it under an index. -/
def GeminiCall.shown (write : Json → String) (names : List (String × String)) (index : Nat)
    (call : GeminiCall serde) : ShownCall :=
  (index, originalName names call.name, write (.obj call.args))

private theorem goes_call (call : GeminiCall serde) :
    Goes (emitFunctionCall write call.body) "" "" [call.shown write names calls] names usage usage
      calls := by
  refine ⟨fun s hs ↦ ?_, fun s hs ↦ ?_⟩
  · have hrenamed : s.originalToolName call.name = originalName names call.name := by
      rw [StreamState.originalToolName, originalName, hs.names]
    simp only [emitFunctionCall, call.name_body, call.args_body, hrenamed, hs.index]
    refine Says.of_delta ?_
    rw [Json.get_object]
    refine .cons ⟨?_, ?_⟩ .nil
    · rw [stated, Json.get_object]
      rfl
    · rw [HasFunction, Json.get_object]
      rfl
  · refine ⟨?_, ?_, hs.names, hs.usage, hs.named⟩
    · exact congrArg (· + 1) hs.index
    · exact congrArg (· + 1) hs.count

private theorem goes_translatePart {body : Json} {words : Option String} {thought : Bool}
    {call : Option (GeminiCall serde)} (hwords : body.strField "text" = words)
    (hthought : isThought body = thought)
    (hcall : body.get "functionCall" = call.map GeminiCall.body)
    (hinline : inlineOf body = none) :
    Goes (translatePart write body) (if thought then "" else words.getD "")
      (if thought then words.getD "" else "")
      (call.toList.map (GeminiCall.shown write names calls)) names usage usage calls := by
  have hfirst : Goes (fun s ↦ (words.filter (!·.isEmpty)).elim ([], s) fun text ↦
      emit (textDelta text thought) s) (if thought then "" else words.getD "")
      (if thought then words.getD "" else "") [] names usage usage calls := by
    cases words with
    | some words => exact goes_text words thought
    | none =>
      rw [Option.getD_none, ite_self]
      exact goes_nil
  have hsecond : Goes (fun s ↦ (call.map GeminiCall.body).elim ([], s) fun call ↦
      emitFunctionCall write call s) "" "" (call.toList.map (GeminiCall.shown write names calls))
      names usage usage calls := by
    cases call with
    | some call => exact goes_call call
    | none => exact goes_nil
  have hall := hfirst.andThen (hsecond.andThen goes_nil)
  rw [String.append_empty, String.append_empty, String.append_empty, List.append_nil,
    List.nil_append] at hall
  simp only [translatePart, hwords, hthought, hcall, hinline, Option.elim_none, ite_self]
  exact hall

private theorem goes_part (part : GeminiPart serde) :
    Goes (translatePart write part.body) part.shown part.thinking
      (part.call?.toList.map (GeminiCall.shown write names calls)) names usage usage calls := by
  have hget (fields : List (String × Json)) (key : String) : (Json.object fields).get key = _ :=
    Json.get_object ..
  cases part with
  | text words =>
    refine @goes_translatePart _ _ _ _ _ _ (some words) false none ?_ ?_ ?_ ?_
    · rw [GeminiPart.body, Json.strField_object]
      rfl
    · rw [isThought, GeminiPart.body, hget]
      rfl
    · rw [GeminiPart.body, hget]
      rfl
    · rw [inlineOf, GeminiPart.body, hget, hget]
      rfl
  | thought words =>
    refine @goes_translatePart _ _ _ _ _ _ (some words) true none ?_ ?_ ?_ ?_
    · rw [GeminiPart.body, Json.strField_object]
      rfl
    · rw [isThought, GeminiPart.body, hget]
      rfl
    · rw [GeminiPart.body, hget]
      rfl
    · rw [inlineOf, GeminiPart.body, hget, hget]
      rfl
  | call c =>
    refine @goes_translatePart _ _ _ _ _ _ none false (some c) ?_ ?_ ?_ ?_
    · rw [GeminiPart.body, Json.strField_object]
      rfl
    · rw [isThought, GeminiPart.body, hget]
      rfl
    · rw [GeminiPart.body, hget]
      rfl
    · rw [inlineOf, GeminiPart.body, hget, hget]
      rfl

/-- Calls as a stream shows them, numbered from an index. -/
def shownCalls (write : Json → String) (names : List (String × String)) :
    List (GeminiCall serde) → Nat → List ShownCall
  | [], _ => []
  | call :: calls, index => call.shown write names index :: shownCalls write names calls (index + 1)

theorem length_shownCalls (calls : List (GeminiCall serde)) (index : Nat) :
    (shownCalls write names calls index).length = calls.length := by
  induction calls generalizing index with
  | nil => rfl
  | cons call calls ih => rw [shownCalls, List.length_cons, ih, List.length_cons]

theorem shownCalls_append (calls calls' : List (GeminiCall serde)) (index : Nat) :
    shownCalls write names (calls ++ calls') index =
      shownCalls write names calls index ++
        shownCalls write names calls' (index + calls.length) := by
  induction calls generalizing index with
  | nil => rfl
  | cons call calls ih =>
    rw [List.cons_append, shownCalls, ih, shownCalls, List.cons_append, List.length_cons,
      Nat.add_assoc, Nat.add_comm 1]

private theorem goes_parts (parts : List (GeminiPart serde)) :
    Goes (translateParts write (parts.map GeminiPart.body))
      (String.join (parts.map GeminiPart.shown)) (String.join (parts.map GeminiPart.thinking))
      (shownCalls write names (parts.filterMap GeminiPart.call?) calls) names usage usage
      calls := by
  induction parts generalizing calls with
  | nil => exact goes_nil
  | cons part parts ih =>
    have hall := (@goes_part write names usage calls serde part).andThen ih
    rw [List.map_cons, List.map_cons, List.map_cons, String.join_cons, String.join_cons]
    cases hcall : part.call? with
    | none =>
      rw [hcall] at hall
      rw [List.filterMap_cons_none hcall]
      exact hall
    | some call =>
      rw [hcall] at hall
      rw [List.filterMap_cons_some hcall]
      exact hall

end Step

namespace GeminiReply

variable {serde : SerdeJson} (reply : GeminiReply serde)

/-- The finish reason that the stream of a reply ends with, if any. -/
def streamedFinish : Option String :=
  (reply.finishReason.filter (!·.isEmpty)).map fun reason ↦
    if finishOfGemini reason = "stop" ∧ reply.parts.filterMap GeminiPart.call? ≠ [] then "tool_calls"
    else finishOfGemini reason

/-- The usage of a reply as OpenAI counts it. -/
def toUsage (usage : Option (List (String × Json))) : Option Usage :=
  usage.bind fun fields ↦ Usage.ofGemini (.obj fields)

section Response

variable (parts : List (GeminiPart serde)) (finishReason : Option String)
  (usage : Option (List (String × Json)))

/-- What the translation reads of a response. -/
theorem response_fields :
    responseOf (reply.response parts finishReason usage) =
        reply.plainResponse parts finishReason usage ∧
      usageMeta (reply.response parts finishReason usage) = usage.map .obj := by
  have hget (key : String) : (reply.plainResponse parts finishReason usage).get key = _ :=
    Json.get_object ..
  have husage : (reply.plainResponse parts finishReason usage).get "usageMetadata" =
      usage.map .obj := by
    rw [hget]
    cases usage <;> cases reply.responseId <;> rfl
  have hplain : (reply.plainResponse parts finishReason usage).get "response" = none := by
    rw [hget]
    cases usage <;> cases reply.responseId <;> rfl
  cases hwrapped : reply.wrapped with
  | true =>
    have hresponse : reply.response parts finishReason usage =
        Json.object [("response", reply.plainResponse parts finishReason usage)] := by
      rw [response, hwrapped, if_pos rfl]
    have hinner : responseOf (reply.response parts finishReason usage) =
        reply.plainResponse parts finishReason usage := by
      rw [hresponse, responseOf, Json.get_object]
      rfl
    refine ⟨hinner, ?_⟩
    rw [usageMeta, hinner, husage, hresponse, Json.get_object]
    exact Option.or_none
  | false =>
    have hresponse : reply.response parts finishReason usage =
        reply.plainResponse parts finishReason usage := by
      rw [response, hwrapped, if_neg Bool.false_ne_true]
    have hinner : responseOf (reply.response parts finishReason usage) =
        reply.plainResponse parts finishReason usage := by
      rw [hresponse, responseOf, hplain, Option.getD_none]
    refine ⟨hinner, ?_⟩
    rw [usageMeta, hinner, hresponse, husage, Option.or_self]

/-- What it reads of the candidate. -/
theorem candidate_fields :
    firstCandidate (reply.plainResponse parts finishReason usage) =
        some (candidate parts finishReason) ∧
      candidateParts (candidate parts finishReason) = parts.map GeminiPart.body ∧
      candidateFinish (candidate parts finishReason) = finishReason.filter (!·.isEmpty) := by
  have hcandidate (key : String) : (candidate parts finishReason).get key = _ :=
    Json.get_object ..
  refine ⟨?_, ?_, ?_⟩
  · rw [firstCandidate, arrayField, plainResponse, Json.get_object]
    cases usage <;> cases reply.responseId <;> rfl
  · have hcontent : (candidate parts finishReason).get "content" =
        some (Json.object [("parts", .arr (parts.map GeminiPart.body)),
          ("role", .str "model")]) := by
      rw [hcandidate]
      cases finishReason <;> rfl
    rw [candidateParts, hcontent, Option.bind_some, arrayField, Json.get_object]
    rfl
  · rw [candidateFinish, Json.strField, hcandidate]
    cases finishReason <;> rfl

end Response

/-- A stream before a frame: it has named itself, or is yet to begin. -/
structure Open (calls : Nat) (names : List (String × String)) (usage : Option Usage)
    (s : StreamState) : Prop where
  reached : s.messageId.isSome = true → Reached calls names usage s
  fresh : s.messageId = none → calls = 0 ∧ s.toolNameMap = names ∧ s.usage = usage

section Frames

variable {write : Json → String} {names : List (String × String)} {usage : Option Usage}
  {calls : Nat} {s : StreamState}

private theorem identify_spec (response : Json) (h : Open calls names usage s) :
    Says (identify response s).1 "" "" [] ∧ Reached calls names usage (identify response s).2 := by
  unfold identify
  cases hnamed : s.messageId with
  | some id => exact ⟨.nil, h.reached (by rw [hnamed]; rfl)⟩
  | none =>
    obtain ⟨hcalls, hnames, husage⟩ := h.fresh hnamed
    have hrole : ∀ t : StreamState,
        Says (emit (Json.object [("role", .str "assistant")]) t).1 "" "" [] :=
      fun t ↦ Says.of_delta .nil
    refine ⟨hrole _, ?_⟩
    cases response.strField "responseId" with
    | some id => exact ⟨hcalls.symm, hcalls.symm, hnames, husage, rfl⟩
    | none => exact ⟨hcalls.symm, hcalls.symm, hnames, husage, rfl⟩

private theorem frame_spec (parts : List (GeminiPart serde)) (finishReason : Option String)
    (counted : Option (List (String × Json))) (h : Open calls names usage s) :
    ∃ said s', translate write (reply.response parts finishReason counted) s =
        (said ++ (finishCandidate (candidate parts finishReason) s').1,
          (finishCandidate (candidate parts finishReason) s').2) ∧
      Says said (String.join (parts.map GeminiPart.shown))
        (String.join (parts.map GeminiPart.thinking))
        (shownCalls write names (parts.filterMap GeminiPart.call?) calls) ∧
      Reached (calls + (parts.filterMap GeminiPart.call?).length) names
        ((toUsage counted).or usage) s' := by
  obtain ⟨hinner, hmeta⟩ := reply.response_fields parts finishReason counted
  obtain ⟨hcandidate, hparts, -⟩ := reply.candidate_fields parts finishReason counted
  obtain ⟨hrole, hreached⟩ := identify_spec (reply.plainResponse parts finishReason counted) h
  have hgoes := @goes_parts write names usage calls serde parts
  have hsaid := hgoes.said _ hreached
  have hafter := hgoes.reached _ hreached
  rw [length_shownCalls] at hafter
  refine ⟨_, (takeUsage (reply.response parts finishReason counted) (translateParts write
    (parts.map GeminiPart.body)
      (identify (reply.plainResponse parts finishReason counted) s).2).2).2, ?_,
    hrole.append hsaid, ?_⟩
  · simp only [Response.GeminiToOpenai.translate, hinner, hcandidate, hparts, andThen, takeUsage,
      List.nil_append,
      List.append_assoc]
  · refine ⟨hafter.index, hafter.count, hafter.names, ?_, hafter.named⟩
    simp only [takeUsage, hmeta, hafter.usage, toUsage]
    cases counted <;> rfl

private theorem frames_spec (frames : List (GeminiFrame serde)) (h : Open calls names usage s) :
    let relayed := through (translate write)
      (frames.map fun frame ↦ reply.response frame.parts none frame.usage) s
    let parts := frames.flatMap (·.parts)
    Says relayed.1 (String.join (parts.map GeminiPart.shown))
        (String.join (parts.map GeminiPart.thinking))
        (shownCalls write names (parts.filterMap GeminiPart.call?) calls) ∧
      ∃ usage', Open (calls + (parts.filterMap GeminiPart.call?).length) names usage' relayed.2 ∧
        ((∀ frame ∈ frames, frame.usage = none) → usage' = usage) := by
  induction frames generalizing calls usage s with
  | nil => exact ⟨.nil, usage, h, fun _ ↦ rfl⟩
  | cons frame frames ih =>
    obtain ⟨said, s', htranslate, hsaid, hreached⟩ :=
      @frame_spec _ reply write _ _ _ _ frame.parts none frame.usage h
    have hfinish : finishCandidate (candidate frame.parts none) s' = ([], s') := by
      rw [finishCandidate, (reply.candidate_fields frame.parts none frame.usage).2.2]
      rfl
    rw [hfinish, List.append_nil] at htranslate
    have hopen : Open _ names _ s' := ⟨fun _ ↦ hreached, fun hnone ↦ by
      have hnamed := hreached.named
      rw [hnone] at hnamed
      cases hnamed⟩
    obtain ⟨hrest, usage', hlast, hkept⟩ := ih hopen
    intro relayed parts
    have hrelayed : relayed = (said ++ (through (translate write)
        (frames.map fun frame ↦ reply.response frame.parts none frame.usage) s').1,
        (through (translate write)
          (frames.map fun frame ↦ reply.response frame.parts none frame.usage) s').2) := by
      simp only [relayed, List.map_cons, through, htranslate]
    have hparts : parts = frame.parts ++ frames.flatMap (·.parts) := List.flatMap_cons
    rw [hrelayed, hparts]
    simp only [List.map_append, String.join_append, List.filterMap_append, List.length_append,
      shownCalls_append, ← Nat.add_assoc]
    refine ⟨hsaid.append hrest, usage', hlast, ?_⟩
    intro hnone
    rw [List.forall_mem_cons] at hnone
    rw [hkept hnone.2, hnone.1]
    rfl

private theorem finishCandidate_spec (h : Reached (reply.parts.filterMap GeminiPart.call?).length
    names usage s) :
    ((finishCandidate (candidate reply.lastParts reply.finishReason) s).1.map Shown.ofChunk =
      reply.streamedFinish.toList.map (Shown.last · (usage.map Usage.toValue))) ∧
    (finishCandidate (candidate reply.lastParts reply.finishReason) s).2.usage = usage := by
  rw [finishCandidate, (reply.candidate_fields _ _ none).2.2, streamedFinish]
  cases reply.finishReason.filter (!·.isEmpty) with
  | none => exact ⟨rfl, h.usage⟩
  | some reason =>
    have hcalls : (0 < s.geminiToolCallCount) = (reply.parts.filterMap GeminiPart.call? ≠ []) := by
      rw [h.count, List.length_pos_iff]
    refine ⟨?_, h.usage⟩
    simp only [hcalls, h.usage, chunk, List.map_singleton, Option.map_some, Option.toList_some]
    cases usage with
    | none =>
      rw [Option.elim_none, Shown.ofChunk_buildChunk]
      rfl
    | some usage =>
      rw [Option.elim_some, Shown.ofChunk_setField_usage]
      rfl

private theorem events_spec (clock : Nat → Nat) :
    let relayed := through (translate write) reply.events { clock, toolNameMap := names }
    ∃ said ending, relayed.1 = said ++ ending ∧
      Says said (String.join (reply.parts.map GeminiPart.shown))
        (String.join (reply.parts.map GeminiPart.thinking))
        (shownCalls write names (reply.parts.filterMap GeminiPart.call?) 0) ∧
      ending.map Shown.ofChunk =
        reply.streamedFinish.toList.map (Shown.last · ((toUsage reply.usage).map Usage.toValue)) ∧
      relayed.2.usage = toUsage reply.usage := by
  have hfresh : Open 0 names none { clock, toolNameMap := names } :=
    ⟨nofun, fun _ ↦ ⟨rfl, rfl, rfl⟩⟩
  obtain ⟨hframes, usage', hopen, hkept⟩ := @frames_spec _ reply write _ _ _ _ reply.frames hfresh
  rw [Nat.zero_add] at hopen
  obtain ⟨said, s', htranslate, hsaid, hreached⟩ := @frame_spec _ reply write _ _ _ _
    reply.lastParts reply.finishReason reply.usage hopen
  have husage : (toUsage reply.usage).or usage' = toUsage reply.usage := by
    cases hmetered : reply.usage with
    | some fields => rfl
    | none => exact hkept (reply.metered hmetered)
  rw [husage, ← List.length_append, ← List.filterMap_append, reply.calls_framed] at hreached
  obtain ⟨hending, hlast⟩ := reply.finishCandidate_spec hreached
  refine ⟨(through (translate write) (reply.frames.map fun frame ↦
      reply.response frame.parts none frame.usage) { clock, toolNameMap := names }).1 ++ said,
    (finishCandidate (candidate reply.lastParts reply.finishReason) s').1, ?_, ?_, hending, ?_⟩
  · rw [events, through_append, through, htranslate, through, List.append_nil, List.append_assoc]
  · have hall := hframes.append hsaid
    rw [← String.join_append, ← String.join_append, ← List.map_append,
      ← List.map_append, reply.text_framed, reply.thinking_framed] at hall
    have hshown := @shownCalls_append write names _ ((reply.frames.flatMap (·.parts)).filterMap
      GeminiPart.call?) (reply.lastParts.filterMap GeminiPart.call?) 0
    rw [← List.filterMap_append, reply.calls_framed, Nat.zero_add] at hshown
    rw [hshown]
    exact hall
  · rw [events, through_append, through, htranslate]
    exact hlast

end Frames

end GeminiReply

section Calls

variable {write : Json → String} {names : List (String × String)} {serde : SerdeJson}

/-- Whole calls state their indexes. -/
theorem indexes_isCall {deltas : List Json} {calls : List ShownCall}
    (h : List.Forall₂ IsCall deltas calls) :
    (∀ delta ∈ deltas, (stated delta).isSome) ∧ deltas.map indexOf = calls.map Prod.fst := by
  induction h with
  | nil => exact ⟨nofun, rfl⟩
  | @cons delta call deltas calls hcall _ ih =>
    have hindex : indexOf delta = call.1 := by
      rw [indexOf, ← stated, hcall.1, Option.getD_some]
    refine ⟨List.forall_mem_cons.mpr ⟨?_, ih.1⟩, ?_⟩
    · rw [hcall.1]
      rfl
    · rw [List.map_cons, List.map_cons, hindex, ih.2]

/-- Whole calls under indexes of their own stay as they are when they are merged. -/
theorem merge_isCall {deltas : List Json} {calls : List ShownCall}
    (h : List.Forall₂ IsCall deltas calls) (hindexes : (calls.map Prod.fst).Nodup) :
    mergeToolCalls [] deltas = deltas :=
  mergeToolCalls_eq_self (indexes_isCall h).1 (by rwa [(indexes_isCall h).2])

theorem indexes_shownCalls (calls : List (GeminiCall serde)) (index : Nat) :
    (shownCalls write names calls index).map Prod.fst = List.range' index calls.length := by
  induction calls generalizing index with
  | nil => rfl
  | cons call calls ih =>
    rw [shownCalls, List.map_cons, ih, List.length_cons, List.range'_succ]
    rfl

theorem words_shownCalls (calls : List (GeminiCall serde)) (index : Nat) :
    (shownCalls write names calls index).map Prod.snd =
      calls.map fun call ↦ (originalName names call.name, write (.obj call.args)) := by
  induction calls generalizing index with
  | nil => rfl
  | cons call calls ih =>
    rw [shownCalls, List.map_cons, ih, List.map_cons]
    rfl

end Calls

/-- What is gathered of the stream of a Gemini reply. -/
theorem collapsed_gemini {serde : SerdeJson} (write : Json → String) (reply : GeminiReply serde)
    (clock : Nat → Nat) (names : List (String × String)) :
    let relayed := through (translate write) reply.events { clock, toolNameMap := names }
    let collapsed := ({} : Collapsed).take relayed.1
    collapsed.text = String.join (reply.parts.map GeminiPart.shown) ∧
      collapsed.reasoning = String.join (reply.parts.map GeminiPart.thinking) ∧
      List.Forall₂ HasFunction collapsed.toolCalls ((reply.parts.filterMap GeminiPart.call?).map
        fun call ↦ (originalName names call.name, write (.obj call.args))) ∧
      collapsed.finishReason = reply.streamedFinish ∧
      relayed.2.usage.or collapsed.scrapedUsage = GeminiReply.toUsage reply.usage := by
  intro relayed collapsed
  obtain ⟨said, ending, hrelayed, hsaid, hending, husage⟩ :=
    @GeminiReply.events_spec _ reply write names clock
  obtain ⟨htext, hreasoning, hcalls, hfinish⟩ := take_fields relayed.1 {}
  have hread {β : Type} (f : Shown → β) : ending.map (fun chunk ↦ f (Shown.ofChunk chunk)) =
      reply.streamedFinish.toList.map fun finish ↦ f (Shown.last finish
        ((GeminiReply.toUsage reply.usage).map Usage.toValue)) := by
    have hmap := congrArg (List.map f) hending
    rwa [List.map_map, List.map_map] at hmap
  have hempty (key : String) : String.join (ending.map (chunkText key)) = "" := by
    refine (congrArg String.join (hread (Shown.text key))).trans ?_
    cases reply.streamedFinish <;> rfl
  have hnone : ending.flatMap chunkCalls = [] := by
    rw [List.flatMap_def]
    refine (congrArg List.flatten (hread Shown.calls)).trans ?_
    cases reply.streamedFinish <;> rfl
  have htaken (key : String) (taken : String)
      (h : taken = (relayed.1.map (chunkText key)).foldl (· ++ ·) "") :
      taken = String.join (said.map (chunkText key)) := by
    refine h.trans ?_
    change String.join _ = _
    rw [hrelayed, List.map_append, String.join_append, hempty, String.append_empty]
  refine ⟨?_, ?_, ?_, ?_, ?_⟩
  · exact (htaken _ _ htext).trans hsaid.text
  · exact (htaken _ _ hreasoning).trans hsaid.reasoning
  · have hmerged := merge_isCall hsaid.calls (by
      rw [indexes_shownCalls]
      exact List.nodup_range')
    rw [hcalls, hrelayed, List.flatMap_append, hnone, List.append_nil, hmerged,
      ← words_shownCalls _ 0, List.forall₂_map_right_iff]
    exact hsaid.calls.imp fun delta call hcall ↦ hcall.2
  · have hends : ending.filterMap chunkFinish = reply.streamedFinish.toList := by
      have hshown : ending.filterMap chunkFinish =
          (ending.map Shown.ofChunk).filterMap Shown.finish := by
        rw [List.filterMap_map]
        rfl
      rw [hshown, hending]
      cases reply.streamedFinish <;> rfl
    rw [hfinish, hrelayed, List.filterMap_append, hsaid.unfinished, List.nil_append, hends,
      Option.or_none]
    cases reply.streamedFinish <;> rfl
  · cases hcounted : GeminiReply.toUsage reply.usage with
    | some usage =>
      rw [hcounted] at husage
      rw [husage, Option.some_or]
    | none =>
      rw [hcounted] at husage hending
      rw [husage, Option.none_or]
      refine scrapedUsage_take ?_ {}
      rw [hrelayed]
      refine List.forall_mem_append.mpr ⟨hsaid.unmetered, fun chunk hchunk ↦ ?_⟩
      have hmem := List.mem_map_of_mem (f := Shown.ofChunk) hchunk
      rw [hending] at hmem
      obtain ⟨finish, -, hlast⟩ := List.mem_map.mp hmem
      exact (congrArg Shown.usage hlast).symm

end NullRouter.Stream
