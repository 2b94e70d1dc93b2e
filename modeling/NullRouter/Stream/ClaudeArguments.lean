import Mathlib.Data.List.TakeWhile
import NullRouter.Stream.ClaudeCalls
import NullRouter.Translate.Claude

/-!
# The arguments of tool calls that reach a Claude client

What `crates/translate/src/response/openai_to_claude.rs:192–300` makes of the fragments of tool
calls: a block for every call that has an id or a name, and at the finish the arguments that have
come for it.
-/

namespace NullRouter.Stream

open NullRouter.Base NullRouter.Translate

/-- The fragments of tool calls in a chunk. -/
def fragmentsOf (chunk : Json) : List Json :=
  (firstChoice chunk).elim [] fun choice ↦ deltaToolCalls (choice.get "delta")

/-- Whether a chunk finishes the message. -/
def finishes (chunk : Json) : Bool := ((firstChoice chunk).bind choiceFinish).isSome

/-- The indexes of calls with an id or a name, in the order they get them. -/
def namedIndexes (fragments : List Json) : List Nat :=
  ((fragments.filter Claude.isNamed).map indexOf).eraseDups

/-- The fragments of the call of an index. -/
def fragmentsAt (index : Nat) (fragments : List Json) : List Json :=
  fragments.filter (indexOf · = index)

/-- The name of the call of an index: the first that is not empty. -/
def nameAt (fragments : List Json) (index : Nat) : String :=
  (((fragmentsAt index fragments).map Claude.callName).find? (!·.isEmpty)).getD ""

/-- The arguments in some fragments. -/
def argumentsIn (fragments : List Json) : String :=
  String.join (fragments.map fun call ↦ (Claude.callArguments call).getD "")

/-- The arguments that come for the call of an index from its first id or name on. -/
def argumentsSince (fragments : List Json) (index : Nat) : String :=
  argumentsIn ((fragmentsAt index fragments).dropWhile (!Claude.isNamed ·))

/-- The arguments as a client is to have them: none at all, or put right. -/
def sanitised (read : String → Option Json) (write : Json → String) (name arguments : String) :
    String :=
  if arguments = "" then "" else Claude.sanitizeToolArgs read write name arguments

/-- The blocks of tool calls that some events start. -/
def toolBlocks (events : List Json) : List Nat := (events.filter startsCall).filterMap Response.ClaudeToOpenai.eventIndex

/-- The input that some events give a block. -/
def inputAt (events : List Json) (block : Nat) : String :=
  String.join (events.map (partialJson block))

/-- The events of a stream. -/
def claudeEvents (read : String → Option Json) (write : Json → String) (chunks : List Json)
    (s : StreamState) : List Json :=
  (through (Claude.translate read write) chunks s).1

/-- Every call that has an id or a name has one block. -/
structure OneBlockEach (fragments events : List Json) : Prop where
  apart : (toolBlocks events).Nodup
  each : (toolBlocks events).length = (namedIndexes fragments).length

/-- Every call that has an id or a name has a block of its own, whose input reads as all its
arguments do, put right. -/
structure InputsRead (read : String → Option Json) (write : Json → String)
    (fragments events : List Json) : Prop where
  apart : (toolBlocks events).Nodup
  inputs : List.Forall₂ (fun index block ↦ read (inputAt events block) =
    read (sanitised read write (nameAt fragments index)
      (argumentsIn (fragmentsAt index fragments))))
      (namedIndexes fragments) (toolBlocks events)

/-- Nothing of a message has gone to a client. -/
structure Unsent (s : StreamState) : Prop where
  calls : s.claudeToolCalls = []
  buffers : ∀ index : Nat, s.toolArgBuffers[index]? = none

/-- Every call that has an id or a name has a block of its own, in the order they get them, with the
input that its arguments are. -/
structure InputsWhole (read : String → Option Json) (write : Json → String)
    (fragments events : List Json) : Prop where
  apart : (toolBlocks events).Nodup
  inputs : List.Forall₂ (fun index block ↦ inputAt events block =
    sanitised read write (nameAt fragments index) (argumentsSince fragments index))
      (namedIndexes fragments) (toolBlocks events)

section Fragments

variable (fragments : List Json) (call : Json) (index : Nat)

theorem mem_namedIndexes : index ∈ namedIndexes fragments ↔
    ∃ fragment ∈ fragments, Claude.isNamed fragment = true ∧ indexOf fragment = index := by
  simp only [namedIndexes, List.mem_eraseDups, List.mem_map, List.mem_filter, and_assoc]

/-- An index that gets its first id or name comes last. -/
theorem namedIndexes_concat : namedIndexes (fragments ++ [call]) =
    if Claude.isNamed call = true ∧ indexOf call ∉ namedIndexes fragments then
      namedIndexes fragments ++ [indexOf call]
    else namedIndexes fragments := by
  have hmem : (((fragments.filter Claude.isNamed).map indexOf).contains (indexOf call)) =
      decide (indexOf call ∈ namedIndexes fragments) := by
    rw [namedIndexes, Bool.eq_iff_iff, decide_eq_true_iff, List.mem_eraseDups,
      List.contains_iff_mem]
  rw [namedIndexes, List.filter_append, List.map_append, List.eraseDups_append, List.filter_cons]
  cases hnamed : Claude.isNamed call with
  | false =>
    rw [if_neg Bool.false_ne_true, if_neg (fun h ↦ Bool.false_ne_true h.1)]
    exact List.append_nil _
  | true =>
    rw [if_pos rfl, List.filter_nil, List.map_singleton, List.cons_removeAll, hmem]
    by_cases hold : indexOf call ∈ namedIndexes fragments
    · rw [decide_eq_true hold, if_neg (Bool.noConfusion : ¬ true = false), if_neg (fun h ↦ h.2 hold)]
      exact List.append_nil _
    · rw [decide_eq_false hold, if_pos rfl, if_pos ⟨rfl, hold⟩]
      rfl

theorem argumentsIn_singleton : argumentsIn [call] = (Claude.callArguments call).getD "" := by
  rw [argumentsIn, List.map_singleton, String.join_cons, String.join_nil, String.append_empty]

theorem fragmentsAt_concat : fragmentsAt index (fragments ++ [call]) =
    fragmentsAt index fragments ++ if indexOf call = index then [call] else [] := by
  rw [fragmentsAt, List.filter_append, List.filter_singleton]
  by_cases h : indexOf call = index
  · rw [if_pos h, decide_eq_true h]
    rfl
  · rw [if_neg h, decide_eq_false h]
    rfl

/-- A name counts where there is none yet. -/
theorem nameAt_concat : nameAt (fragments ++ [call]) index =
    if indexOf call = index ∧ (nameAt fragments index).isEmpty = true then Claude.callName call
    else nameAt fragments index := by
  rw [nameAt, fragmentsAt_concat, List.map_append, List.find?_append]
  cases hfound : ((fragmentsAt index fragments).map Claude.callName).find? (!·.isEmpty) with
  | some name =>
    have hname : name.isEmpty = false := by simpa using List.find?_some hfound
    have hold : nameAt fragments index = name := by rw [nameAt, hfound, Option.getD_some]
    rw [Option.some_or, Option.getD_some, hold, hname, if_neg fun h ↦ Bool.false_ne_true h.2]
  | none =>
    have hold : nameAt fragments index = "" := by rw [nameAt, hfound, Option.getD_none]
    rw [hold]
    by_cases h : indexOf call = index
    · rw [if_pos h, if_pos ⟨h, rfl⟩, List.map_singleton, Option.none_or]
      by_cases hname : Claude.callName call = ""
      · rw [hname]
        rfl
      · rw [List.find?_cons_of_pos (by simp [hname])]
        rfl
    · rw [if_neg h, if_neg fun hsame ↦ h hsame.1]
      rfl

/-- Arguments count once the call has an id or a name. -/
theorem argumentsSince_concat : argumentsSince (fragments ++ [call]) index =
    argumentsSince fragments index ++
      if indexOf call = index ∧ index ∈ namedIndexes (fragments ++ [call]) then
        (Claude.callArguments call).getD ""
      else "" := by
  have hnone : ((fragmentsAt index fragments).dropWhile (!Claude.isNamed ·)).isEmpty = true ↔
      index ∉ namedIndexes fragments := by
    rw [List.isEmpty_iff, List.dropWhile_eq_nil_iff, mem_namedIndexes]
    simp only [fragmentsAt, List.mem_filter, decide_eq_true_eq, Bool.not_eq_eq_eq_not,
      Bool.not_true, not_exists, not_and, Bool.eq_false_iff, ne_eq]
    exact ⟨fun h fragment hmem hnamed hindex ↦ h fragment ⟨hmem, hindex⟩ hnamed,
      fun h fragment hmem hnamed ↦ h fragment hmem.1 hnamed hmem.2⟩
  have hnew : index ∈ namedIndexes (fragments ++ [call]) ↔
      index ∈ namedIndexes fragments ∨ (Claude.isNamed call = true ∧ indexOf call = index) := by
    simp only [mem_namedIndexes, List.mem_append, List.mem_singleton, or_and_right, exists_or,
      exists_eq_left]
  rw [argumentsSince, argumentsSince, fragmentsAt_concat, List.dropWhile_append]
  by_cases hindex : indexOf call = index
  · rw [if_pos hindex]
    by_cases hold : index ∈ namedIndexes fragments
    · rw [if_neg (hnone.not.mpr (not_not.mpr hold)), if_pos ⟨hindex, hnew.mpr (.inl hold)⟩,
        argumentsIn, List.map_append, String.join_append, List.map_singleton, String.join_cons,
        String.join_nil, String.append_empty]
      rfl
    · have hempty := List.isEmpty_iff.mp (hnone.mpr hold)
      rw [if_pos (hnone.mpr hold), hempty]
      cases hnamed : Claude.isNamed call with
      | true =>
        rw [if_pos ⟨hindex, hnew.mpr (.inr ⟨hnamed, hindex⟩)⟩,
          List.dropWhile_cons_of_neg (by simp [hnamed])]
        rw [argumentsIn_singleton]
        exact String.empty_append.symm
      | false =>
        rw [if_neg fun h ↦ (hnew.mp h.2).elim hold fun h ↦ Bool.false_ne_true (hnamed.symm.trans h.1),
          List.dropWhile_cons_of_pos (by simp [hnamed])]
        rfl
  · have hno : ¬ (indexOf call = index ∧ index ∈ namedIndexes (fragments ++ [call])) :=
      fun h ↦ hindex h.1
    rw [if_neg hindex, if_neg hno, List.append_nil, List.dropWhile_nil, String.append_empty]
    split
    · next hempty => rw [List.isEmpty_iff.mp hempty]
    · rfl

end Fragments

/-- An event that starts no tool call's block and gives none input. -/
def NoCall (event : Json) : Prop := startsCall event = false ∧ ∀ block, partialJson block event = ""

section Events

variable {events more : List Json} (index : Nat)

theorem toolBlocks_append (events more : List Json) :
    toolBlocks (events ++ more) = toolBlocks events ++ toolBlocks more := by
  rw [toolBlocks, List.filter_append, List.filterMap_append]
  rfl

theorem inputAt_append (events more : List Json) (block : Nat) :
    inputAt (events ++ more) block = inputAt events block ++ inputAt more block := by
  rw [inputAt, List.map_append, String.join_append]
  rfl

theorem toolBlocks_of_noCall (h : ∀ event ∈ more, NoCall event) : toolBlocks more = [] := by
  rw [toolBlocks, List.filter_eq_nil_iff.mpr fun event hevent ↦ by simp [(h event hevent).1]]
  rfl

theorem inputAt_of_noCall (h : ∀ event ∈ more, NoCall event) (block : Nat) :
    inputAt more block = "" := by
  induction more with
  | nil => rfl
  | cons event more ih =>
    obtain ⟨hevent, hmore⟩ := List.forall_mem_cons.mp h
    rw [inputAt, List.map_cons, String.join_cons, hevent.2 block]
    exact (String.empty_append).trans (ih hmore)

private theorem noCall_of_kind {event : Json} {kind : String}
    (h : event.strField "type" = some kind) (hstart : kind ≠ "content_block_start")
    (hdelta : kind ≠ "content_block_delta") : NoCall event := by
  have hkind := isEvent_of_kind h
  exact ⟨startsBlock_eq_false ((hkind _).trans (decide_eq_false hstart)),
    partialJson_eq_empty ((hkind _).trans (decide_eq_false hdelta))⟩

private theorem noCall_blockStop : NoCall (Claude.blockStop index) :=
  noCall_of_kind (Json.strField_object _ _) (by decide) (by decide)

private theorem startsCall_blockStart (block : Json) :
    startsCall (Claude.blockStart index block) =
      decide (block.strField "type" = some "tool_use") := by
  have htype : (Claude.blockStart index block).strField "type" = some "content_block_start" :=
    Json.strField_object _ _
  have hblock : (Claude.blockStart index block).get "content_block" = some block :=
    Json.get_object _ _
  rw [startsCall, startsBlock, isEvent_of_kind htype, decide_eq_true rfl, Bool.true_and, hblock]
  rfl

private theorem partialJson_blockStart (block : Json) (place : Nat) :
    partialJson place (Claude.blockStart index block) = "" :=
  partialJson_eq_empty ((isEvent_of_kind (Json.strField_object _ _) _).trans (by decide)) place

private theorem noCall_blockStart {block : Json} (h : block.strField "type" ≠ some "tool_use") :
    NoCall (Claude.blockStart index block) :=
  ⟨(startsCall_blockStart index block).trans (decide_eq_false h), partialJson_blockStart index block⟩

private theorem startsCall_blockDelta (delta : Json) :
    startsCall (Claude.blockDelta index delta) = false :=
  startsBlock_eq_false ((isEvent_of_kind (Json.strField_object _ _) _).trans (by decide))

private theorem partialJson_blockDelta (delta : Json) (place : Nat) :
    partialJson place (Claude.blockDelta index delta) =
      if index = place ∧ delta.strField "type" = some "input_json_delta" then
        (delta.strField "partial_json").getD ""
      else "" := by
  have htype : (Claude.blockDelta index delta).strField "type" = some "content_block_delta" :=
    Json.strField_object _ _
  have hdelta : (Claude.blockDelta index delta).get "delta" = some delta := Json.get_object _ _
  have hindex : Response.ClaudeToOpenai.eventIndex (Claude.blockDelta index delta) = some index := by
    rw [Response.ClaudeToOpenai.eventIndex, Claude.blockDelta, Json.get_object]
    rfl
  rw [partialJson, hdelta]
  simp only [isEvent_of_kind htype, decide_true, true_and, hindex, Option.some.injEq]

private theorem noCall_blockDelta {delta : Json}
    (h : delta.strField "type" ≠ some "input_json_delta") : NoCall (Claude.blockDelta index delta) :=
  ⟨startsCall_blockDelta index delta, fun place ↦
    (partialJson_blockDelta index delta place).trans (if_neg fun hjson ↦ h hjson.2)⟩

end Events

/-- No block has been given input. -/
def Silent (events : List Json) : Prop := ∀ block, inputAt events block = ""

theorem Silent.append {events more : List Json} (h : Silent events) (hmore : Silent more) :
    Silent (events ++ more) := fun block ↦ by
  rw [inputAt_append, h block, hmore block]
  rfl

/-- What a step leaves of calls as it is. -/
structure KeepsCalls (e e' : ClaudeOut) : Prop where
  out : ∃ more, e'.out = e.out ++ more ∧ ∀ event ∈ more, NoCall event
  calls : e'.state.claudeToolCalls = e.state.claudeToolCalls
  buffers : e'.state.toolArgBuffers = e.state.toolArgBuffers
  next : e.state.nextBlockIndex ≤ e'.state.nextBlockIndex
  sent : e'.state.messageStartSent = e.state.messageStartSent

namespace KeepsCalls

variable {e e' e'' : ClaudeOut}

theorem refl (e : ClaudeOut) : KeepsCalls e e :=
  ⟨⟨[], (List.append_nil _).symm, nofun⟩, rfl, rfl, Nat.le_refl _, rfl⟩

theorem trans (h : KeepsCalls e e') (h' : KeepsCalls e' e'') : KeepsCalls e e'' where
  out := by
    obtain ⟨more, hout, hmore⟩ := h.out
    obtain ⟨more', hout', hmore'⟩ := h'.out
    refine ⟨more ++ more', by rw [hout', hout, List.append_assoc], ?_⟩
    exact List.forall_mem_append.mpr ⟨hmore, hmore'⟩
  calls := h'.calls.trans h.calls
  buffers := h'.buffers.trans h.buffers
  next := h.next.trans h'.next
  sent := h'.sent.trans h.sent

private theorem one {event : Json} (h : NoCall event) (hout : e'.out = e.out ++ [event])
    (hcalls : e'.state.claudeToolCalls = e.state.claudeToolCalls)
    (hbuffers : e'.state.toolArgBuffers = e.state.toolArgBuffers)
    (hnext : e.state.nextBlockIndex ≤ e'.state.nextBlockIndex)
    (hsent : e'.state.messageStartSent = e.state.messageStartSent) : KeepsCalls e e' :=
  ⟨⟨[event], hout, List.forall_mem_singleton.mpr h⟩, hcalls, hbuffers, hnext, hsent⟩

theorem stopThinkingBlock (e : ClaudeOut) : KeepsCalls e (Claude.stopThinkingBlock e) := by
  rw [Claude.stopThinkingBlock]
  split
  · exact refl e
  · exact one (noCall_blockStop _) rfl rfl rfl (Nat.le_refl _) rfl

theorem stopTextBlock (e : ClaudeOut) : KeepsCalls e (Claude.stopTextBlock e) := by
  rw [Claude.stopTextBlock]
  split
  · exact refl e
  · exact one (noCall_blockStop _) rfl rfl rfl (Nat.le_refl _) rfl

theorem startThinkingBlock (e : ClaudeOut) : KeepsCalls e (Claude.startThinkingBlock e) := by
  rw [Claude.startThinkingBlock]
  split
  · exact refl e
  · refine one (noCall_blockStart _ ?_) rfl rfl rfl (Nat.le_succ _) rfl
    rw [Json.strField_object]
    decide

theorem startTextBlock (e : ClaudeOut) : KeepsCalls e (Claude.startTextBlock e) := by
  rw [Claude.startTextBlock]
  split
  · exact refl e
  · refine one (noCall_blockStart _ ?_) rfl rfl rfl (Nat.le_succ _) rfl
    rw [Json.strField_object]
    decide

private theorem delta (e : ClaudeOut) (index : Nat) {delta : Json}
    (h : delta.strField "type" ≠ some "input_json_delta") :
    KeepsCalls e { e with out := e.out ++ [Claude.blockDelta index delta] } :=
  one (noCall_blockDelta index h) rfl rfl rfl (Nat.le_refl _) rfl

theorem emitThinking (reasoning : String) (e : ClaudeOut) :
    KeepsCalls e (Claude.emitThinking reasoning e) := by
  have htype : (Json.object [("type", .str "thinking_delta"),
      ("thinking", .str reasoning)]).strField "type" = some "thinking_delta" :=
    Json.strField_object _ _
  refine ((stopTextBlock e).trans (startThinkingBlock _)).trans (delta _ _ ?_)
  rw [htype]
  decide

theorem emitText (text : String) (e : ClaudeOut) : KeepsCalls e (Claude.emitText text e) := by
  have htype : (Json.object [("type", .str "text_delta"), ("text", .str text)]).strField "type" =
      some "text_delta" := Json.strField_object _ _
  refine ((stopThinkingBlock e).trans (startTextBlock _)).trans (delta _ _ ?_)
  rw [htype]
  decide

end KeepsCalls

/-- The calls of some fragments have their names and their blocks. -/
structure Named (fragments events : List Json) (s : StreamState) : Prop where
  names : ∀ call ∈ s.claudeToolCalls, call.2.name = nameAt fragments call.1
  opened : ∀ index, Claude.hasCall s.claudeToolCalls index = true ↔ index ∈ namedIndexes fragments
  blocks : List.Forall₂ (fun index block ↦
    ∃ call ∈ s.claudeToolCalls, call.1 = index ∧ call.2.blockIndex = block)
      (namedIndexes fragments) (toolBlocks events)
  placed : (toolBlocks events).Perm (s.claudeToolCalls.map (·.2.blockIndex))
  apart : (toolBlocks events).Nodup
  below : ∀ block ∈ toolBlocks events, block < s.nextBlockIndex
  begun : s.messageStartSent = false → s.claudeToolCalls = []

namespace Named

variable {fragments earlier : List Json} {e e' : ClaudeOut} {call : Json}

theorem keeps (h : Named fragments (earlier ++ e.out) e.state) (hkeeps : KeepsCalls e e') :
    Named fragments (earlier ++ e'.out) e'.state := by
  obtain ⟨⟨more, hout, hmore⟩, hcalls, -, hnext, hsent⟩ := hkeeps
  have hblocks : toolBlocks (earlier ++ e'.out) = toolBlocks (earlier ++ e.out) := by
    rw [hout, ← List.append_assoc, toolBlocks_append, toolBlocks_of_noCall hmore, List.append_nil]
  refine ⟨hcalls ▸ h.names, hcalls ▸ h.opened, ?_, ?_, ?_, ?_, ?_⟩
  · rw [hblocks, hcalls]
    exact h.blocks
  · rw [hblocks, hcalls]
    exact h.placed
  · rw [hblocks]
    exact h.apart
  · rw [hblocks]
    exact fun block hblock ↦ Nat.lt_of_lt_of_le (h.below block hblock) hnext
  · rw [hsent, hcalls]
    exact h.begun

private theorem openToolBlock (h : Named fragments (earlier ++ e.out) e.state)
    (hsent : e.state.messageStartSent = true) (hnamed : Claude.isNamed call = true)
    (hnew : indexOf call ∉ namedIndexes fragments) (id : String) :
    Named (fragments ++ [call]) (earlier ++ (Claude.openToolBlock call id e).out)
      (Claude.openToolBlock call id e).state := by
  have hkeeps := (KeepsCalls.stopThinkingBlock e).trans (KeepsCalls.stopTextBlock _)
  have hbefore := h.keeps hkeeps
  generalize hstopped : Claude.stopTextBlock (Claude.stopThinkingBlock e) = t at hbefore hkeeps
  have hindexes : namedIndexes (fragments ++ [call]) = namedIndexes fragments ++ [indexOf call] := by
    rw [namedIndexes_concat, if_pos ⟨hnamed, hnew⟩]
  have hnone : nameAt fragments (indexOf call) = "" := by
    cases hfound : ((fragmentsAt (indexOf call) fragments).map Claude.callName).find?
        (!·.isEmpty) with
    | none => rw [nameAt, hfound, Option.getD_none]
    | some name =>
      obtain ⟨fragment, hfragment, rfl⟩ := List.mem_map.mp (List.mem_of_find?_eq_some hfound)
      obtain ⟨hmem, hindex⟩ := List.mem_filter.mp hfragment
      have hfilled : (Claude.callName fragment).isEmpty = false := by
        simpa using List.find?_some hfound
      refine absurd ((mem_namedIndexes _ _).mpr ⟨fragment, hmem, ?_, of_decide_eq_true hindex⟩) hnew
      rw [Claude.isNamed, hfilled, Bool.not_false, Bool.or_true]
  have hperm := List.perm_orderedInsert (fun a b : Nat × ClaudeToolCall ↦ a.1 ≤ b.1)
    (indexOf call, ⟨id, Claude.callName call, t.state.nextBlockIndex⟩) t.state.claudeToolCalls
  have hstart : startsCall (Claude.blockStart t.state.nextBlockIndex (Json.object
      [("type", .str "tool_use"), ("id", .str id), ("name", .str
        ((stripPrefix? Claude.toolPrefix (Claude.callName call)).getD (Claude.callName call))),
        ("input", Json.object [])])) = true :=
    (startsCall_blockStart _ _).trans (decide_eq_true (Json.strField_object _ _))
  have hevents : toolBlocks (earlier ++ (Claude.openToolBlock call id e).out) =
      toolBlocks (earlier ++ t.out) ++ [t.state.nextBlockIndex] := by
    simp only [Claude.openToolBlock, hstopped]
    rw [← List.append_assoc, toolBlocks_append]
    congr 1
    rw [toolBlocks, List.filter_cons_of_pos hstart, List.filter_nil]
    have hindex (block : Json) : Response.ClaudeToOpenai.eventIndex
        (Claude.blockStart t.state.nextBlockIndex block) = some t.state.nextBlockIndex := by
      rw [Response.ClaudeToOpenai.eventIndex, Claude.blockStart, Json.get_object]
      rfl
    rw [List.filterMap_cons_some (hindex _), List.filterMap_nil]
  have hcalls : (Claude.openToolBlock call id e).state.claudeToolCalls =
      t.state.claudeToolCalls.orderedInsert (·.1 ≤ ·.1)
        (indexOf call, ⟨id, Claude.callName call, t.state.nextBlockIndex⟩) := by
    simp only [Claude.openToolBlock, hstopped]
  have hmem (entry : Nat × ClaudeToolCall) :
      entry ∈ (Claude.openToolBlock call id e).state.claudeToolCalls ↔
        entry = (indexOf call, ⟨id, Claude.callName call, t.state.nextBlockIndex⟩) ∨
          entry ∈ t.state.claudeToolCalls := by
    rw [hcalls, hperm.mem_iff, List.mem_cons]
  have hnext : (Claude.openToolBlock call id e).state.nextBlockIndex =
      t.state.nextBlockIndex + 1 := by
    simp only [Claude.openToolBlock, hstopped]
  refine ⟨?_, fun index ↦ ?_, ?_, ?_, ?_, ?_, fun hunsent ↦ ?_⟩
  · intro entry hentry
    rcases (hmem entry).mp hentry with rfl | hold
    · rw [nameAt_concat, if_pos ⟨rfl, by rw [hnone]; rfl⟩]
    · have hother : entry.1 ≠ indexOf call := by
        intro hsame
        refine hnew (hsame ▸ (hbefore.opened entry.1).mp ?_)
        exact List.any_eq_true.mpr ⟨entry, hold, beq_self_eq_true _⟩
      rw [nameAt_concat, if_neg fun hsame ↦ hother hsame.1.symm]
      exact hbefore.names entry hold
  · rw [hindexes, List.mem_append, List.mem_singleton, ← hbefore.opened index, Claude.hasCall,
      Claude.hasCall, List.any_eq_true, List.any_eq_true]
    simp only [hmem, beq_iff_eq, or_and_right, exists_or, exists_eq_left]
    exact or_comm.trans (or_congr_right eq_comm)
  · rw [hindexes, hevents]
    refine List.rel_append (hbefore.blocks.imp ?_) (.cons ⟨_, (hmem _).mpr (.inl rfl), rfl, rfl⟩ .nil)
    rintro index block ⟨entry, hentry, hindex, hblock⟩
    exact ⟨entry, (hmem entry).mpr (.inr hentry), hindex, hblock⟩
  · rw [hevents, hcalls]
    refine List.Perm.trans ?_ (hperm.map (·.2.blockIndex)).symm
    rw [List.map_cons]
    exact (List.perm_append_singleton _ _).trans (hbefore.placed.cons _)
  · rw [hevents, List.nodup_append]
    refine ⟨hbefore.apart, List.nodup_singleton _, ?_⟩
    rintro a ha b hb rfl
    exact Nat.lt_irrefl _ (List.mem_singleton.mp hb ▸ hbefore.below a ha)
  · rw [hevents, hnext]
    intro block hblock
    rcases List.mem_append.mp hblock with hblock | hblock
    · exact Nat.lt_succ_of_lt (hbefore.below block hblock)
    · rw [List.mem_singleton.mp hblock]
      exact Nat.lt_succ_self _
  · have hkept : (Claude.openToolBlock call id e).state.messageStartSent =
        e.state.messageStartSent := by
      rw [← hkeeps.sent]
      simp only [Claude.openToolBlock, hstopped]
    rw [hkept, hsent] at hunsent
    cases hunsent

private theorem nameToolBlock (h : Named fragments (earlier ++ e.out) e.state)
    (hold : ¬ (Claude.isNamed call = true ∧ indexOf call ∉ namedIndexes fragments)) :
    Named (fragments ++ [call]) (earlier ++ (Claude.nameToolBlock call e).out)
      (Claude.nameToolBlock call e).state := by
  have hindexes : namedIndexes (fragments ++ [call]) = namedIndexes fragments := by
    rw [namedIndexes_concat, if_neg hold]
  rw [Claude.nameToolBlock]
  split
  · next hempty =>
    refine ⟨fun entry hentry ↦ ?_, hindexes ▸ h.opened, hindexes ▸ h.blocks, h.placed, h.apart,
      h.below, h.begun⟩
    rw [h.names entry hentry, nameAt_concat]
    split
    · next hsame => rw [String.isEmpty_iff.mp hempty, String.isEmpty_iff.mp hsame.2]
    · rfl
  · refine ⟨?_, fun index ↦ ?_, ?_, ?_, h.apart, h.below, ?_⟩
    · simp only [List.forall_mem_map]
      intro entry hentry
      have hname := h.names entry hentry
      rw [hname]
      split
      · next hsame =>
        rw [nameAt_concat, if_pos ⟨hsame.1.symm, hsame.1 ▸ hsame.2⟩]
      · next hsame =>
        rw [nameAt_concat, if_neg fun hother ↦ hsame ⟨hother.1.symm, hother.2⟩]
        exact hname
    · rw [hindexes, ← h.opened index, Claude.hasCall, Claude.hasCall, List.any_map]
      refine Bool.eq_iff_iff.mp (congrArg (List.any _ ·) (funext fun entry ↦ ?_))
      simp only [Function.comp_apply]
      split <;> rfl
    · rw [hindexes]
      refine h.blocks.imp ?_
      rintro index block ⟨entry, hentry, rfl, rfl⟩
      refine ⟨_, List.mem_map_of_mem hentry, ?_, ?_⟩
      · split <;> rfl
      · split <;> rfl
    · rw [List.map_map]
      refine h.placed.trans (List.Perm.of_eq (List.map_congr_left fun entry _ ↦ ?_))
      simp only [Function.comp_apply]
      split <;> rfl
    · intro hunsent
      simp only [h.begun hunsent, List.map_nil]

private theorem bufferArguments (h : Named fragments (earlier ++ e.out) e.state) (call : Json) :
    Named fragments (earlier ++ (Claude.bufferArguments call e).out)
      (Claude.bufferArguments call e).state := by
  rw [Claude.bufferArguments]
  split
  · exact h
  · split
    · exact ⟨h.names, h.opened, h.blocks, h.placed, h.apart, h.below, h.begun⟩
    · exact h

end Named

private theorem keepsCalls_effectiveId (call : Json) (e : ClaudeOut) :
    KeepsCalls e { e with state := (Claude.effectiveId call e.state).2 } := by
  rw [Claude.effectiveId]
  split
  · exact ⟨⟨[], (List.append_nil _).symm, nofun⟩, rfl, rfl, Nat.le_refl _, rfl⟩
  · exact KeepsCalls.refl e

/-- The buffers hold the arguments of the calls that have blocks. -/
def Buffered (fragments : List Json) (s : StreamState) : Prop :=
  ∀ index, s.toolArgBuffers[index]?.getD "" = argumentsSince fragments index

/-- A stream that has begun a message, and what its fragments have come to. -/
structure Gathered (fragments events : List Json) (s : StreamState) : Prop where
  named : Named fragments events s
  buffered : Buffered fragments s
  sent : s.messageStartSent = true

section Fold

variable {fragments earlier : List Json} {e e' : ClaudeOut}

private theorem Gathered.keeps (h : Gathered fragments (earlier ++ e.out) e.state)
    (hkeeps : KeepsCalls e e') : Gathered fragments (earlier ++ e'.out) e'.state where
  named := h.named.keeps hkeeps
  buffered index := by rw [hkeeps.buffers, h.buffered index]
  sent := hkeeps.sent.trans h.sent

private theorem Gathered.call (h : Gathered fragments (earlier ++ e.out) e.state) (call : Json) :
    Gathered (fragments ++ [call]) (earlier ++ (Claude.handleToolCall e call).out)
      (Claude.handleToolCall e call).state := by
  have hclock := h.keeps (keepsCalls_effectiveId call e)
  rw [Claude.handleToolCall]
  generalize { e with state := (Claude.effectiveId call e.state).2 } = t at hclock
  have hcond : (Claude.isNamed call && !Claude.hasCall t.state.claudeToolCalls (indexOf call)) =
      true ↔ Claude.isNamed call = true ∧ indexOf call ∉ namedIndexes fragments := by
    rw [Bool.and_eq_true, Bool.not_eq_true', ← hclock.named.opened, Bool.not_eq_true]
  obtain ⟨u, hu, hnamed, hbuffers, hsent⟩ : ∃ u, (if (Claude.isNamed call &&
      !Claude.hasCall t.state.claudeToolCalls (indexOf call)) = true then
        Claude.openToolBlock call (Claude.effectiveId call e.state).1 t
      else Claude.nameToolBlock call t) = u ∧
      Named (fragments ++ [call]) (earlier ++ u.out) u.state ∧
      u.state.toolArgBuffers = t.state.toolArgBuffers ∧ u.state.messageStartSent = true := by
    refine ⟨_, rfl, ?_⟩
    split
    · next hopen =>
      obtain ⟨hname, hnew⟩ := hcond.mp hopen
      have hkeeps := (KeepsCalls.stopThinkingBlock t).trans (KeepsCalls.stopTextBlock _)
      exact ⟨hclock.named.openToolBlock hclock.sent hname hnew _, hkeeps.buffers,
        hkeeps.sent.trans hclock.sent⟩
    · next hopen =>
      refine ⟨hclock.named.nameToolBlock (hcond.not.mp hopen), ?_, ?_⟩
      · rw [Claude.nameToolBlock]
        split <;> rfl
      · rw [Claude.nameToolBlock]
        split
        · exact hclock.sent
        · exact hclock.sent
  rw [hu]
  refine ⟨hnamed.bufferArguments call, fun index ↦ ?_, ?_⟩
  · rw [argumentsSince_concat, ← hclock.buffered index, ← hbuffers, Claude.bufferArguments]
    have hopen := hnamed.opened (indexOf call)
    cases harguments : Claude.callArguments call with
    | none =>
      rw [Option.getD_none, ite_self, String.append_empty]
    | some arguments =>
      simp only [Option.getD_some]
      by_cases hhas : Claude.hasCall u.state.claudeToolCalls (indexOf call) = true
      · rw [if_pos hhas]
        simp only [getD_pushText]
        by_cases hindex : index = indexOf call
        · subst hindex
          rw [if_pos rfl, if_pos ⟨rfl, hopen.mp hhas⟩]
        · rw [if_neg hindex, if_neg fun h ↦ hindex h.1.symm, String.append_empty]
      · rw [if_neg hhas, if_neg, String.append_empty]
        rintro ⟨rfl, hmem⟩
        exact hhas (hopen.mpr hmem)
  · rw [Claude.bufferArguments]
    split
    · exact hsent
    · split
      · exact hsent
      · exact hsent

private theorem Gathered.calls (h : Gathered fragments (earlier ++ e.out) e.state)
    (calls : List Json) : Gathered (fragments ++ calls)
      (earlier ++ (calls.foldl Claude.handleToolCall e).out)
      (calls.foldl Claude.handleToolCall e).state := by
  induction calls generalizing fragments e with
  | nil => rwa [List.append_nil]
  | cons call calls ih =>
    have hnext := ih (h.call call)
    rwa [List.append_assoc] at hnext

private theorem Silent.keeps (h : Silent (earlier ++ e.out)) (hkeeps : KeepsCalls e e') :
    Silent (earlier ++ e'.out) := by
  obtain ⟨more, hout, hmore⟩ := hkeeps.out
  rw [hout, ← List.append_assoc]
  exact h.append fun block ↦ inputAt_of_noCall hmore block

private theorem Silent.call (h : Silent (earlier ++ e.out)) (call : Json) :
    Silent (earlier ++ (Claude.handleToolCall e call).out) := by
  have hclock := h.keeps (keepsCalls_effectiveId call e)
  have hout (u : ClaudeOut) : (Claude.bufferArguments call u).out = u.out := by
    rw [Claude.bufferArguments]
    split
    · rfl
    · split <;> rfl
  rw [Claude.handleToolCall, hout]
  split
  · have hkeeps := (KeepsCalls.stopThinkingBlock ⟨(Claude.effectiveId call e.state).2, e.out⟩).trans
      (KeepsCalls.stopTextBlock _)
    rw [Claude.openToolBlock, ← List.append_assoc]
    refine (hclock.keeps hkeeps).append fun block ↦ ?_
    rw [inputAt, List.map_singleton, partialJson_blockStart, String.join_cons, String.join_nil]
    rfl
  · rw [Claude.nameToolBlock]
    split
    · exact hclock
    · exact hclock

private theorem Silent.calls (h : Silent (earlier ++ e.out)) (calls : List Json) :
    Silent (earlier ++ (calls.foldl Claude.handleToolCall e).out) := by
  induction calls generalizing e with
  | nil => exact h
  | cons call calls ih => exact ih (h.call call)

private theorem keepsCalls_texts (choice : Json) (e : ClaudeOut) :
    ∃ t, KeepsCalls e t ∧ Claude.content choice e =
      (deltaToolCalls (choice.get "delta")).foldl Claude.handleToolCall t := by
  refine ⟨_, ?_, rfl⟩
  have hreasoning : KeepsCalls e (if (extractReasoningText (choice.get "delta")).isEmpty then e
      else Claude.emitThinking (extractReasoningText (choice.get "delta")) e) := by
    split
    · exact .refl e
    · exact .emitThinking _ e
  split
  · exact hreasoning
  · exact hreasoning.trans (.emitText _ _)

private theorem gathered_start {s : StreamState} (hnamed : Named fragments earlier s)
    (hbuffered : Buffered fragments s) (chunk : Json) :
    Gathered fragments
        (earlier ++ (Claude.emitMessageStart chunk ⟨Claude.captureUsage chunk s, []⟩).out)
        (Claude.emitMessageStart chunk ⟨Claude.captureUsage chunk s, []⟩).state ∧
      (Silent earlier → Silent
        (earlier ++ (Claude.emitMessageStart chunk ⟨Claude.captureUsage chunk s, []⟩).out)) := by
  obtain ⟨t, ht, hcalls, hbuffers, hnext, hsent⟩ : ∃ t, Claude.captureUsage chunk s = t ∧
      t.claudeToolCalls = s.claudeToolCalls ∧ t.toolArgBuffers = s.toolArgBuffers ∧
      t.nextBlockIndex = s.nextBlockIndex ∧ t.messageStartSent = s.messageStartSent := by
    refine ⟨_, rfl, ?_⟩
    rw [Claude.captureUsage]
    split <;> exact ⟨rfl, rfl, rfl, rfl⟩
  have hidentified : (Claude.messageId chunk t).2.claudeToolCalls = t.claudeToolCalls ∧
      (Claude.messageId chunk t).2.toolArgBuffers = t.toolArgBuffers := by
    rw [Claude.messageId]
    simp only
    split
    · split <;> exact ⟨rfl, rfl⟩
    · exact ⟨rfl, rfl⟩
  rw [ht, Claude.emitMessageStart]
  split
  · next hbegun =>
    rw [List.append_nil]
    refine ⟨⟨⟨hcalls ▸ hnamed.names, hcalls ▸ hnamed.opened, hcalls ▸ hnamed.blocks,
      hcalls ▸ hnamed.placed, hnamed.apart, hnext ▸ hnamed.below, ?_⟩, ?_, hbegun⟩, id⟩
    · rw [hsent, hcalls]
      exact hnamed.begun
    · intro index
      rw [hbuffers]
      exact hbuffered index
  · next hbegun =>
    have hnone : s.claudeToolCalls = [] := hnamed.begun (by simpa [hsent] using hbegun)
    have hblocks : toolBlocks earlier = [] := by
      have hplaced := hnamed.placed
      rw [hnone, List.map_nil] at hplaced
      exact hplaced.eq_nil
    have hstart (message : Json) : NoCall (Json.object [("type", .str "message_start"),
        ("message", message)]) :=
      noCall_of_kind (Json.strField_object _ _) (by decide) (by decide)
    have hsilent : ∀ {event : Json}, NoCall event → toolBlocks (earlier ++ ([] ++ [event])) = [] := by
      intro event hevent
      rw [List.nil_append, toolBlocks_append, hblocks,
        toolBlocks_of_noCall (List.forall_mem_singleton.mpr hevent)]
      rfl
    refine ⟨⟨⟨?_, ?_, ?_, ?_, ?_, ?_, nofun⟩, ?_, rfl⟩, fun h ↦ ?_⟩
    · rw [hidentified.1, hcalls]
      exact hnamed.names
    · rw [hidentified.1, hcalls]
      exact hnamed.opened
    · rw [hsilent (hstart _), hidentified.1, hcalls, ← hblocks]
      exact hnamed.blocks
    · rw [hsilent (hstart _), hidentified.1, hcalls, hnone]
      exact .nil
    · rw [hsilent (hstart _)]
      exact .nil
    · rw [hsilent (hstart _)]
      exact nofun
    · intro index
      rw [hidentified.2, hbuffers]
      exact hbuffered index
    · exact h.append fun block ↦ inputAt_of_noCall (List.forall_mem_singleton.mpr (hstart _)) block

end Fold

section Finish

variable {read : String → Option Json} {write : Json → String} {fragments earlier : List Json}
  {e : ClaudeOut} {s : StreamState}

private theorem finishToolBlock_spec (s : StreamState) (call : Nat × ClaudeToolCall) :
    toolBlocks (Claude.finishToolBlock read write s call) = [] ∧
      ∀ block, inputAt (Claude.finishToolBlock read write s call) block =
        if call.2.blockIndex = block then
          sanitised read write call.2.name (s.toolArgBuffers[call.1]?.getD "")
        else "" := by
  have hstop := noCall_blockStop call.2.blockIndex
  rw [Claude.finishToolBlock]
  by_cases hempty : (s.toolArgBuffers[call.1]?.getD "") = ""
  · have hnone : ∀ event ∈ [Claude.blockStop call.2.blockIndex], NoCall event :=
      List.forall_mem_singleton.mpr hstop
    simp only [String.isEmpty_iff, if_pos hempty, List.nil_append]
    refine ⟨toolBlocks_of_noCall hnone, fun block ↦ ?_⟩
    rw [inputAt_of_noCall hnone, sanitised, if_pos hempty, ite_self]
  · simp only [String.isEmpty_iff, if_neg hempty]
    constructor
    · rw [toolBlocks_append, toolBlocks_of_noCall (List.forall_mem_singleton.mpr hstop), toolBlocks,
        List.filter_cons_of_neg (by simp [startsCall_blockDelta])]
      rfl
    · intro block
      rw [inputAt_append, inputAt_of_noCall (List.forall_mem_singleton.mpr hstop), inputAt,
        List.map_singleton, partialJson_blockDelta, String.join_cons, String.join_nil,
        String.append_empty, String.append_empty, sanitised, if_neg hempty, Json.strField_object,
        Json.strField_object]
      by_cases hblock : call.2.blockIndex = block
      · rw [if_pos hblock, if_pos ⟨hblock, rfl⟩]
        rfl
      · rw [if_neg hblock, if_neg fun h ↦ hblock h.1]

private theorem inputAt_finish {calls : List (Nat × ClaudeToolCall)} (s : StreamState)
    (hapart : (calls.map (·.2.blockIndex)).Nodup) {call : Nat × ClaudeToolCall}
    (hcall : call ∈ calls) :
    inputAt (calls.flatMap (Claude.finishToolBlock read write s)) call.2.blockIndex =
      sanitised read write call.2.name (s.toolArgBuffers[call.1]?.getD "") := by
  have hnone {others : List (Nat × ClaudeToolCall)}
      (hothers : call.2.blockIndex ∉ others.map (·.2.blockIndex)) :
      inputAt (others.flatMap (Claude.finishToolBlock read write s)) call.2.blockIndex = "" := by
    induction others with
    | nil => rfl
    | cons other others ih =>
      rw [List.map_cons, List.mem_cons, not_or] at hothers
      rw [List.flatMap_cons, inputAt_append, (finishToolBlock_spec s other).2,
        if_neg (Ne.symm hothers.1), ih hothers.2]
      rfl
  induction calls with
  | nil => cases hcall
  | cons first calls ih =>
    rw [List.map_cons, List.nodup_cons] at hapart
    rw [List.flatMap_cons, inputAt_append, (finishToolBlock_spec s first).2]
    rcases List.mem_cons.mp hcall with rfl | hlater
    · rw [if_pos rfl, hnone hapart.1, String.append_empty]
    · have hother : first.2.blockIndex ≠ call.2.blockIndex := fun hsame ↦
        hapart.1 (hsame ▸ List.mem_map_of_mem (f := (·.2.blockIndex)) hlater)
      rw [if_neg hother, ih hapart.2 hlater]
      exact String.empty_append

private theorem finish_spec (h : Gathered fragments (earlier ++ e.out) e.state) (finish : String) :
    Named fragments (earlier ++ (Claude.handleFinish read write finish e).out)
        (Claude.handleFinish read write finish e).state ∧
      Buffered fragments (Claude.handleFinish read write finish e).state ∧
      (Silent (earlier ++ e.out) → InputsWhole read write fragments
        (earlier ++ (Claude.handleFinish read write finish e).out)) := by
  have hkeeps := (KeepsCalls.stopThinkingBlock e).trans (KeepsCalls.stopTextBlock _)
  have hstopped := h.keeps hkeeps
  rw [Claude.handleFinish]
  generalize ht : Claude.stopTextBlock (Claude.stopThinkingBlock e) = t at hkeeps hstopped
  obtain ⟨hnamed, hbuffered, hsent⟩ := hstopped
  have hlast (reason usage : Json) : ∀ event ∈ [Json.object [("type", .str "message_delta"),
      ("delta", reason), ("usage", usage)], Json.object [("type", .str "message_stop")]],
      NoCall event := by
    refine List.forall_mem_cons.mpr ⟨?_, List.forall_mem_singleton.mpr ?_⟩
    · exact noCall_of_kind (Json.strField_object _ _) (by decide) (by decide)
    · exact noCall_of_kind (Json.strField_object _ _) (by decide) (by decide)
  have hnone (calls : List (Nat × ClaudeToolCall)) :
      toolBlocks (calls.flatMap (Claude.finishToolBlock read write t.state)) = [] := by
    induction calls with
    | nil => rfl
    | cons call calls ih =>
      rw [List.flatMap_cons, toolBlocks_append, (finishToolBlock_spec _ _).1, ih]
      rfl
  have hblocks (reason usage : Json) : toolBlocks (earlier ++ (t.out ++
      t.state.claudeToolCalls.flatMap (Claude.finishToolBlock read write t.state) ++
        [Json.object [("type", .str "message_delta"), ("delta", reason), ("usage", usage)],
          Json.object [("type", .str "message_stop")]])) = toolBlocks (earlier ++ t.out) := by
    rw [← List.append_assoc, ← List.append_assoc, toolBlocks_append, toolBlocks_append,
      hnone, toolBlocks_of_noCall (hlast _ _), List.append_nil, List.append_nil]
  refine ⟨⟨hnamed.names, hnamed.opened, ?_, ?_, ?_, ?_, hnamed.begun⟩, hbuffered, fun hsilent ↦ ⟨?_, ?_⟩⟩
  · rw [hblocks]
    exact hnamed.blocks
  · rw [hblocks]
    exact hnamed.placed
  · rw [hblocks]
    exact hnamed.apart
  · rw [hblocks]
    exact hnamed.below
  · rw [hblocks]
    exact hnamed.apart
  · rw [hblocks]
    refine hnamed.blocks.imp ?_
    rintro index block ⟨call, hcall, rfl, rfl⟩
    rw [← List.append_assoc, ← List.append_assoc, inputAt_append, inputAt_append,
      hsilent.keeps hkeeps, inputAt_of_noCall (hlast _ _), String.empty_append,
      String.append_empty, inputAt_finish _ (hnamed.placed.nodup_iff.mp hnamed.apart) hcall,
      hnamed.names call hcall, hbuffered]

private theorem translate_spec_calls (hnamed : Named fragments earlier s)
    (hbuffered : Buffered fragments s) (chunk : Json) :
    Named (fragments ++ fragmentsOf chunk) (earlier ++ (Claude.translate read write chunk s).1)
        (Claude.translate read write chunk s).2 ∧
      Buffered (fragments ++ fragmentsOf chunk) (Claude.translate read write chunk s).2 ∧
      (finishes chunk = false → Silent earlier →
        Silent (earlier ++ (Claude.translate read write chunk s).1)) ∧
      (finishes chunk = true → Silent earlier →
        InputsWhole read write (fragments ++ fragmentsOf chunk)
          (earlier ++ (Claude.translate read write chunk s).1)) := by
  rw [Claude.translate, fragmentsOf, finishes]
  cases firstChoice chunk with
  | none =>
    simp only [Option.elim_none, List.append_nil]
    exact ⟨hnamed, hbuffered, fun _ ↦ id, nofun⟩
  | some choice =>
    obtain ⟨hstart, hsilent⟩ := gathered_start hnamed hbuffered chunk
    obtain ⟨t, hkeeps, hcontent⟩ := keepsCalls_texts choice
      (Claude.emitMessageStart chunk ⟨Claude.captureUsage chunk s, []⟩)
    have hcalls := (hstart.keeps hkeeps).calls (deltaToolCalls (choice.get "delta"))
    have hquiet (h : Silent earlier) := ((hsilent h).keeps hkeeps).calls
      (deltaToolCalls (choice.get "delta"))
    simp only [Option.elim_some, Option.bind_some, hcontent]
    cases choiceFinish choice with
    | none => exact ⟨hcalls.named, hcalls.buffered, fun _ ↦ hquiet, nofun⟩
    | some finish =>
      obtain ⟨hafter, hheld, hinputs⟩ := @finish_spec read write _ _ _ hcalls finish
      exact ⟨hafter, hheld, nofun, fun _ h ↦ hinputs (hquiet h)⟩

private theorem claudeEvents_spec (hnamed : Named fragments earlier s)
    (hbuffered : Buffered fragments s) (chunks : List Json) :
    Named (fragments ++ chunks.flatMap fragmentsOf) (earlier ++ claudeEvents read write chunks s)
        (through (Claude.translate read write) chunks s).2 ∧
      Buffered (fragments ++ chunks.flatMap fragmentsOf)
        (through (Claude.translate read write) chunks s).2 ∧
      ((∀ chunk ∈ chunks, finishes chunk = false) → Silent earlier →
        Silent (earlier ++ claudeEvents read write chunks s)) := by
  induction chunks generalizing fragments earlier s with
  | nil =>
    rw [List.flatMap_nil, List.append_nil, claudeEvents, through, List.append_nil]
    exact ⟨hnamed, hbuffered, fun _ ↦ id⟩
  | cons chunk chunks ih =>
    obtain ⟨hnext, hheld, hsilent, -⟩ :=
      @translate_spec_calls read write _ _ _ hnamed hbuffered chunk
    obtain ⟨hlast, hkept, hquiet⟩ := ih hnext hheld
    rw [List.append_assoc, List.append_assoc] at hlast
    rw [List.append_assoc] at hkept
    refine ⟨hlast, hkept, fun hnone h ↦ ?_⟩
    obtain ⟨hfirst, hrest⟩ := List.forall_mem_cons.mp hnone
    have hall := hquiet hrest (hsilent hfirst h)
    rwa [List.append_assoc] at hall

private theorem Unsent.named (h : Unsent s) : Named [] [] s where
  names := h.calls ▸ nofun
  opened index := by
    rw [h.calls]
    exact ⟨nofun, nofun⟩
  blocks := .nil
  placed := h.calls ▸ .nil
  apart := .nil
  below := nofun
  begun _ := h.calls

private theorem Unsent.buffered (h : Unsent s) : Buffered [] s := fun index ↦ by
  rw [h.buffers]
  rfl

/-- In every stream a call that has an id or a name gets one block; and when the first finish has
come, its input is the arguments that have come since its first id or name, put right. -/
theorem inputsWhole (h : Unsent s) :
    (∀ chunks, OneBlockEach (chunks.flatMap fragmentsOf) (claudeEvents read write chunks s)) ∧
      ∀ front last, (∀ chunk ∈ front, finishes chunk = false) → finishes last = true →
        InputsWhole read write ((front ++ [last]).flatMap fragmentsOf)
          (claudeEvents read write (front ++ [last]) s) := by
  constructor
  · intro chunks
    obtain ⟨hnamed, -, -⟩ := @claudeEvents_spec read write _ _ _ h.named h.buffered chunks
    exact ⟨hnamed.apart, hnamed.blocks.length_eq.symm⟩
  · intro front last hfront hlast
    obtain ⟨hnamed, hbuffered, hsilent⟩ := @claudeEvents_spec read write _ _ _ h.named h.buffered front
    have hinputs := (@translate_spec_calls read write _ _ _ hnamed hbuffered
      last).2.2.2 hlast (hsilent hfront fun _ ↦ rfl)
    have hevents : claudeEvents read write (front ++ [last]) s = claudeEvents read write front s ++
        (Claude.translate read write last
          (through (Claude.translate read write) front s).2).1 := by
      rw [claudeEvents, through_append]
      exact congrArg (_ ++ ·) (List.append_nil _)
    rw [hevents, List.flatMap_append, List.flatMap_singleton]
    exact hinputs

/-- A chunk with a fragment of the call of index 0, or with a finish, or with both. -/
def callChunk (fragment : List (String × Json)) (finish : Json) : Json :=
  Json.object [("choices", .arr [Json.object [("delta", Json.object
    [("tool_calls", .arr [Json.object fragment])]), ("finish_reason", finish)]])]

/-- The first part of some arguments, without an id or a name. -/
def earlyFragment : List (String × Json) :=
  [("function", Json.object [("arguments", .str "[1")])]

/-- An id, a name and arguments. -/
def namedFragment (arguments : String) : List (String × Json) :=
  [("id", .str "a"), ("function", Json.object [("name", .str "read"),
    ("arguments", .str arguments)])]

/-- Reads one text. -/
def readOne (text : String) : Option Json :=
  if text = "[1]" then some (.arr [Json.nat 1]) else none

/-- A call that is named, goes on and is finished. -/
theorem inputsWhole_two_fragments : InputsWhole readOne (fun _ ↦ "[1]")
    ([callChunk (namedFragment "[1") .null, callChunk [("function", Json.object
      [("arguments", .str "]")])] (.str "tool_calls")].flatMap fragmentsOf)
    (claudeEvents readOne (fun _ ↦ "[1]") [callChunk (namedFragment "[1") .null,
      callChunk [("function", Json.object [("arguments", .str "]")])] (.str "tool_calls")]
      { clock := fun _ ↦ 5 }) :=
  (inputsWhole ⟨rfl, fun _ ↦ Std.ExtTreeMap.getElem?_empty⟩).2 [callChunk (namedFragment "[1") .null]
    _ (by decide +kernel) (by decide +kernel)

/-- Arguments that come before the id and the name are lost, those of a call that is not finished are
held back, and a second finish gives them once more. -/
theorem inputs_lost_and_doubled :
    ¬ InputsRead readOne (fun _ ↦ "[1]")
        ([callChunk earlyFragment .null, callChunk (namedFragment "]")
          (.str "tool_calls")].flatMap fragmentsOf)
        (claudeEvents readOne (fun _ ↦ "[1]") [callChunk earlyFragment .null,
          callChunk (namedFragment "]") (.str "tool_calls")] { clock := fun _ ↦ 5 }) ∧
      ¬ InputsRead readOne (fun _ ↦ "[1]")
        ([callChunk (namedFragment "[1]") .null].flatMap fragmentsOf)
        (claudeEvents readOne (fun _ ↦ "[1]") [callChunk (namedFragment "[1]") .null]
          { clock := fun _ ↦ 5 }) ∧
      ¬ InputsRead readOne (fun _ ↦ "[1]")
        ([callChunk (namedFragment "[1]") (.str "tool_calls"),
          callChunk [] (.str "tool_calls")].flatMap fragmentsOf)
        (claudeEvents readOne (fun _ ↦ "[1]") [callChunk (namedFragment "[1]") (.str "tool_calls"),
          callChunk [] (.str "tool_calls")] { clock := fun _ ↦ 5 }) := by
  refine ⟨fun h ↦ ?_, fun h ↦ ?_, fun h ↦ ?_⟩
  · exact absurd h.inputs (by decide +kernel)
  · exact absurd h.inputs (by decide +kernel)
  · exact absurd h.inputs (by decide +kernel)

end Finish

end NullRouter.Stream
