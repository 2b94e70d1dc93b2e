import NullRouter.Base.Lifecycle
import NullRouter.Stream.Relay
import NullRouter.Translate.Response.ClaudeToOpenai

/-!
# Tool calls and the end of a stream of Claude's

What `crates/translate/src/response/claude_to_openai.rs` makes of Claude's events, in whatever order
they come: the chunks that end the stream, the indexes of the tool calls and their arguments.
-/

namespace NullRouter.Stream

open NullRouter.Base NullRouter.Translate NullRouter.Translate.Response.ClaudeToOpenai

/-- Whether an event is of a type. -/
def isEvent (kind : String) (event : Json) : Bool := event.strField "type" = some kind

/-- Whether an event starts a block of a type. -/
def startsBlock (kind : String) (event : Json) : Bool :=
  isEvent "content_block_start" event &&
    (event.get "content_block").bind (·.strField "type") = some kind

/-- Whether an event starts a tool call. -/
def startsCall (event : Json) : Bool := startsBlock "tool_use" event

/-- Whether an event says why the message stopped. -/
def saysWhy (event : Json) : Bool :=
  isEvent "message_delta" event && ((event.get "delta").bind (·.strField "stop_reason")).isSome

/-- Whether an event can end the stream. -/
def canEnd (event : Json) : Bool := saysWhy event || isEvent "message_stop" event

/-- The arguments that a tool call starts with. -/
def startArguments (write : Json → String) (event : Json) : String :=
  ((event.get "content_block").map (initialArguments write)).getD ""

/-- What an event adds to the arguments of the block at an index. -/
def partialJson (block : Nat) (event : Json) : String :=
  match event.get "delta" with
  | some delta =>
    if isEvent "content_block_delta" event = true ∧ eventIndex event = some block ∧
        delta.strField "type" = some "input_json_delta" then
      (delta.strField "partial_json").getD ""
    else ""
  | none => ""

/-- The block of a built-in tool after an event. -/
def serverAfter (server : Option Nat) (event : Json) : Option Nat :=
  if startsBlock "server_tool_use" event then eventIndex event
  else if isEvent "content_block_stop" event = true ∧ (eventIndex event).isSome = true ∧
    eventIndex event = server then none
  else server

/-- What events add to the arguments of the call that the block at an index is, up to the next call
of that index and but for a built-in tool's block of it. -/
def placedJson (block : Nat) : Option Nat → List Json → String
  | _, [] => ""
  | server, event :: events =>
    if startsCall event = true ∧ eventIndex event = some block then ""
    else (if server = some block then "" else partialJson block event) ++
      placedJson block (serverAfter server event) events

/-- The chunks of a stream. -/
def claudeChunks (write : Json → String) (events : List Json) (s : StreamState) : List Json :=
  (through (translate write) events s).1

/-- The tool-call deltas of a stream. -/
def claudeDeltas (write : Json → String) (events : List Json) (s : StreamState) : List Json :=
  (claudeChunks write events s).flatMap chunkCalls

/-- The deltas that open a call: they have a type. -/
def openings (deltas : List Json) : List Json := deltas.filter fun delta ↦ (delta.get "type").isSome

/-- Nothing of a stream has come. -/
structure Unbegun (s : StreamState) : Prop where
  next : s.toolCallIndex = 0
  calls : ∀ block : Nat, s.openaiToolCalls[block]? = none
  server : s.serverToolBlockIndex = none
  ended : s.finishReasonSent = false

/-- A reason why the message stopped comes once the stream may have ended. -/
def WhyAgain (events : List Json) : Prop :=
  Somewhere (fun earlier event ↦ saysWhy event = true ∧ earlier.any canEnd = true) events

/-- A message starts once there has been a tool call. -/
def StartsAgain (events : List Json) : Prop :=
  Somewhere (fun earlier event ↦
    isEvent "message_start" event = true ∧ earlier.any startsCall = true) events

/-- The indexes of the calls of a stream: 0, 1, 2 and so on in the order they start, from 0 again in
every message. -/
def callNumbers (events : List Json) : List Nat :=
  (events.splitOnP (isEvent "message_start")).flatMap fun message ↦
    List.range (message.countP startsCall)

/-- What a stream of Claude's becomes: it is ended if it can be, and once if no reason comes again;
its calls are numbered in order; and where no message starts again, the arguments under the index of
a call are those it starts with and what is placed in its block. -/
structure ClaudeRelayed (write : Json → String) (events : List Json) (s : StreamState) :
    Prop where
  ended_iff : 0 < terminals (claudeChunks write events s) ↔ events.any canEnd = true
  ended_once : ¬ WhyAgain events → terminals (claudeChunks write events s) ≤ 1
  numbered : (openings (claudeDeltas write events s)).map stated = (callNumbers events).map some
  arguments : ¬ StartsAgain events → ∀ before event after, events = before ++ event :: after →
    startsCall event = true →
      argumentsAt (claudeDeltas write events s) (before.countP startsCall) =
        startArguments write event ++ ((eventIndex event).map fun block ↦
          placedJson block (before.foldl serverAfter none) after).getD ""

/-- A stream is ended once by what can end it, its calls are numbered 0, 1, 2 and so on throughout, and
the arguments under the index of a call are the parts that events give for its block. -/
structure ClaudeInOrder (write : Json → String) (events : List Json) (s : StreamState) :
    Prop where
  ended_once : terminals (claudeChunks write events s) ≤ 1
  ended : events.any canEnd = true → terminals (claudeChunks write events s) = 1
  numbered : (openings (claudeDeltas write events s)).map stated =
    (List.range (events.countP startsCall)).map some
  arguments : ∀ before event after block, events = before ++ event :: after →
    startsCall event = true → eventIndex event = some block →
      argumentsAt (claudeDeltas write events s) (before.countP startsCall) =
        String.join (events.map (partialJson block))

/-- The call whose index a block has. -/
def owner (s : StreamState) (block : Nat) : Option Nat := s.openaiToolCalls[block]?.map (·.index)

/-- What is told of a call: whether it is opened, its index and more of its arguments. -/
structure CallNews where
  opening : Bool
  index : Nat
  arguments : String
  deriving DecidableEq

/-- A tool-call delta that tells something. -/
structure TellsOf (delta : Json) (told : CallNews) : Prop where
  opening : (delta.get "type").isSome = told.opening
  index : stated delta = some told.index
  arguments : functionText delta "arguments" = told.arguments

/-- What an event tells of calls. -/
def toldBy (write : Json → String) (event : Json) (s : StreamState) : List CallNews :=
  if startsCall event then [⟨true, s.toolCallIndex, startArguments write event⟩]
  else match eventIndex event with
    | none => []
    | some block =>
      if s.serverToolBlockIndex = some block ∨ partialJson block event = "" then []
      else ((owner s block).map fun index ↦ ⟨false, index, partialJson block event⟩).toList

/-- What a step does to calls, and whether it ends the stream. -/
structure CallsStep (write : Json → String) (event : Json) (s : StreamState)
    (result : List Json × StreamState) : Prop where
  tells : List.Forall₂ TellsOf (result.1.flatMap chunkCalls) (toldBy write event s)
  next : result.2.toolCallIndex =
    if startsCall event then s.toolCallIndex + 1
    else if isEvent "message_start" event then 0 else s.toolCallIndex
  owner : ∀ block, owner result.2 block =
    if startsCall event = true ∧ eventIndex event = some block then some s.toolCallIndex
    else owner s block
  server : result.2.serverToolBlockIndex = serverAfter s.serverToolBlockIndex event
  sent : result.2.finishReasonSent = (s.finishReasonSent || canEnd event)
  ended : terminals result.1 =
    (saysWhy event || isEvent "message_stop" event && !s.finishReasonSent).toNat

section Step

variable {write : Json → String} {event : Json} {s s' : StreamState}

/-- A state with the calls and the end of another. -/
private structure SameCalls (s s' : StreamState) : Prop where
  next : s'.toolCallIndex = s.toolCallIndex
  calls : s'.openaiToolCalls = s.openaiToolCalls
  sent : s'.finishReasonSent = s.finishReasonSent

theorem partialJson_eq_empty (h : isEvent "content_block_delta" event = false)
    (block : Nat) : partialJson block event = "" := by
  rw [partialJson]
  split
  · exact if_neg fun hdelta ↦ Bool.false_ne_true (h.symm.trans hdelta.1)
  · rfl

private theorem toldBy_eq_nil (h : isEvent "content_block_delta" event = false)
    (hcall : startsCall event = false) : toldBy write event s = [] := by
  rw [toldBy, hcall, if_neg Bool.false_ne_true]
  split
  · rfl
  · exact if_pos (.inr (partialJson_eq_empty h _))

theorem startsBlock_eq_false {kind : String}
    (h : isEvent "content_block_start" event = false) : startsBlock kind event = false := by
  rw [startsBlock, h, Bool.false_and]

private theorem serverAfter_eq_self {server : Option Nat}
    (hstart : startsBlock "server_tool_use" event = false)
    (hstop : isEvent "content_block_stop" event = false) : serverAfter server event = server := by
  rw [serverAfter, hstart, hstop, if_neg Bool.false_ne_true, if_neg (by simp)]

theorem isEvent_of_kind {kind : String} (h : event.strField "type" = some kind)
    (other : String) : isEvent other event = decide (kind = other) := by
  simp only [isEvent, h, Option.some.injEq]

private theorem callsOf_emit (delta : Json) (s : StreamState) :
    (emit delta s).1.flatMap chunkCalls =
      ((delta.get "tool_calls").bind Json.asArray).getD [] := by
  rw [emit, List.flatMap_singleton, chunk, chunkCalls_buildChunk]

private theorem terminals_emit (delta : Json) (s : StreamState) :
    terminals (emit delta s).1 = 0 := terminals_buildChunk _ _ none

private theorem callsStep_quiet {chunks : List Json} (hcall : startsCall event = false)
    (hstart : isEvent "message_start" event = false) (hdelta : toldBy write event s = [])
    (hserver : s'.serverToolBlockIndex = serverAfter s.serverToolBlockIndex event)
    (hwhy : canEnd event = false) (hcalls : chunks.flatMap chunkCalls = [])
    (hended : terminals chunks = 0) (hsame : SameCalls s s') :
    CallsStep write event s (chunks, s') where
  tells := by
    rw [hcalls, hdelta]
    exact .nil
  next := by
    rw [hcall, hstart, if_neg Bool.false_ne_true, if_neg Bool.false_ne_true]
    exact hsame.next
  owner block := by
    rw [owner, hsame.calls, if_neg fun h ↦ Bool.false_ne_true (hcall.symm.trans h.1), owner]
  server := hserver
  sent := by rw [hwhy, Bool.or_false, hsame.sent]
  ended := by
    rw [canEnd, Bool.or_eq_false_iff] at hwhy
    rw [hended, hwhy.1, hwhy.2]
    rfl

private theorem canEnd_eq_false (hdelta : isEvent "message_delta" event = false)
    (hstop : isEvent "message_stop" event = false) : canEnd event = false := by
  rw [canEnd, saysWhy, hdelta, hstop]
  rfl

private theorem callsStep_messageStart (h : event.strField "type" = some "message_start") :
    CallsStep write event s (handleMessageStart event s) := by
  have hkind := isEvent_of_kind h
  have hcall : startsCall event = false := startsBlock_eq_false (hkind _)
  have hwhy : canEnd event = false := canEnd_eq_false (hkind _) (hkind _)
  obtain ⟨delta, s', hresult, hdelta, hnext, hcalls, hserver, hsent⟩ :
      ∃ delta s', handleMessageStart event s = emit delta s' ∧ delta.get "tool_calls" = none ∧
        s'.toolCallIndex = 0 ∧ s'.openaiToolCalls = s.openaiToolCalls ∧
        s'.serverToolBlockIndex = s.serverToolBlockIndex ∧
        s'.finishReasonSent = s.finishReasonSent := by
    refine ⟨_, _, rfl, Json.get_object .., ?_⟩
    cases (event.get "message").bind (·.strField "id") <;>
      cases ((event.get "message").bind (·.get "usage")).filter (·.asObject.isSome) <;>
      exact ⟨rfl, rfl, rfl, rfl⟩
  rw [hresult]
  refine ⟨?_, ?_, fun block ↦ ?_, ?_, ?_, ?_⟩
  · rw [callsOf_emit, hdelta, toldBy_eq_nil (hkind _) hcall]
    exact .nil
  · rw [hcall, hkind, if_neg Bool.false_ne_true, if_pos (decide_eq_true rfl)]
    exact hnext
  · rw [if_neg fun hstart ↦ Bool.false_ne_true (hcall.symm.trans hstart.1), owner, owner]
    exact congrArg (fun calls : Std.ExtTreeMap Nat OpenAiToolCall ↦
      calls[block]?.map OpenAiToolCall.index) hcalls
  · rw [serverAfter_eq_self (startsBlock_eq_false (hkind _)) (hkind _)]
    exact hserver
  · rw [hwhy, Bool.or_false]
    exact hsent
  · rw [terminals_emit, saysWhy, hkind, hkind]
    rfl

private theorem callsStep_otherBlock {chunks : List Json}
    (h : event.strField "type" = some "content_block_start") (hcall : startsCall event = false)
    (hserver : s'.serverToolBlockIndex = serverAfter s.serverToolBlockIndex event)
    (hcalls : chunks.flatMap chunkCalls = []) (hended : terminals chunks = 0)
    (hsame : SameCalls s s') : CallsStep write event s (chunks, s') := by
  have hkind := isEvent_of_kind h
  exact callsStep_quiet hcall (hkind _) (toldBy_eq_nil (hkind _) hcall) hserver
    (canEnd_eq_false (hkind _) (hkind _)) hcalls hended hsame

private theorem callsStep_openTool {block : Json}
    (h : event.strField "type" = some "content_block_start")
    (hblock : event.get "content_block" = some block)
    (htype : block.strField "type" = some "tool_use") :
    CallsStep write event s (openTool write (eventIndex event) block s) := by
  have hkind := isEvent_of_kind h
  have hstarts (kind : String) : startsBlock kind event = decide ("tool_use" = kind) := by
    simp only [startsBlock, hkind, decide_true, Bool.true_and, hblock, Option.bind_some, htype,
      Option.some.injEq]
  have hcall : startsCall event = true := hstarts _
  have harguments : startArguments write event = initialArguments write block := by
    rw [startArguments, hblock]
    rfl
  refine ⟨?_, ?_, fun place ↦ ?_, ?_, ?_, ?_⟩
  · rw [openTool, callsOf_emit, Json.get_object, toldBy, hcall, if_pos rfl, harguments]
    refine .cons ⟨?_, ?_, ?_⟩ .nil
    · rw [Json.get_object]
      rfl
    · rw [stated, Json.get_object]
      rfl
    · rw [functionText_of_object (by decide) (by rw [Json.get_object]; rfl), Json.strField_object]
      rfl
  · rw [hcall, if_pos rfl]
    rfl
  · cases hindex : eventIndex event with
    | none =>
      rw [if_neg (by simp)]
      rfl
    | some index =>
      change Option.map OpenAiToolCall.index (s.openaiToolCalls.insert index _)[place]? = _
      rw [Std.ExtTreeMap.getElem?_insert]
      by_cases hplace : index = place
      · rw [if_pos (by simp [hplace]), if_pos ⟨hcall, congrArg some hplace⟩]
        rfl
      · rw [if_neg (by simpa using hplace), if_neg fun hsame ↦ hplace (Option.some.inj hsame.2)]
        rfl
  · rw [serverAfter_eq_self (hstarts _) (hkind _)]
    rfl
  · rw [canEnd_eq_false (hkind _) (hkind _), Bool.or_false]
    rfl
  · rw [openTool, terminals_emit, saysWhy, hkind, hkind]
    rfl

private theorem callsStep_blockStart (h : event.strField "type" = some "content_block_start") :
    CallsStep write event s (handleBlockStart write event s) := by
  have hkind := isEvent_of_kind h
  rw [handleBlockStart]
  cases hblock : event.get "content_block" with
  | none =>
    have hstarts (kind : String) : startsBlock kind event = false := by
      simp [startsBlock, hblock]
    exact callsStep_otherBlock h (hstarts _) (serverAfter_eq_self (hstarts _) (hkind _)).symm rfl
      rfl ⟨rfl, rfl, rfl⟩
  | some block =>
    have hstarts (kind : String) :
        startsBlock kind event = decide (block.strField "type" = some kind) := by
      simp only [startsBlock, hkind, decide_true, Bool.true_and, hblock, Option.bind_some]
    simp only
    split
    · next htype =>
      have hserver : serverAfter s.serverToolBlockIndex event = eventIndex event :=
        if_pos ((hstarts _).trans (decide_eq_true htype))
      refine callsStep_otherBlock h ?_ hserver.symm rfl rfl ⟨rfl, rfl, rfl⟩
      rw [startsCall, hstarts, htype]
      rfl
    · next htype =>
      refine callsStep_otherBlock h ?_ (serverAfter_eq_self ?_ (hkind _)).symm rfl rfl
        ⟨rfl, rfl, rfl⟩
      · rw [startsCall, hstarts, htype]
        rfl
      · rw [hstarts, htype]
        rfl
    · next htype =>
      refine callsStep_otherBlock h ?_ (serverAfter_eq_self ?_ (hkind _)).symm ?_
        (terminals_emit _ _) ⟨rfl, rfl, rfl⟩
      · rw [startsCall, hstarts, htype]
        rfl
      · rw [hstarts, htype]
        rfl
      · rw [List.flatMap_singleton, chunk, chunkCalls_buildChunk, Json.get_object]
        rfl
    · next htype => exact callsStep_openTool h hblock htype
    · next hserver _ _ hcall =>
      refine callsStep_otherBlock h ?_ (serverAfter_eq_self ?_ (hkind _)).symm rfl rfl
        ⟨rfl, rfl, rfl⟩
      · rw [startsCall, hstarts, decide_eq_false hcall]
      · rw [hstarts, decide_eq_false hserver]

private theorem callsStep_otherDelta {chunks : List Json}
    (h : event.strField "type" = some "content_block_delta") (htold : toldBy write event s = [])
    (hserver : s'.serverToolBlockIndex = s.serverToolBlockIndex)
    (hcalls : chunks.flatMap chunkCalls = []) (hended : terminals chunks = 0)
    (hsame : SameCalls s s') : CallsStep write event s (chunks, s') := by
  have hkind := isEvent_of_kind h
  refine callsStep_quiet (startsBlock_eq_false (hkind _)) (hkind _) htold ?_
    (canEnd_eq_false (hkind _) (hkind _)) hcalls hended hsame
  rw [hserver, serverAfter_eq_self (startsBlock_eq_false (hkind _)) (hkind _)]

private theorem isServerTool_iff {block : Nat} (h : eventIndex event = some block) :
    isServerTool event s = true ↔ s.serverToolBlockIndex = some block := by
  rw [isServerTool, h, Option.isSome_some, Bool.true_and, beq_iff_eq, eq_comm]

private theorem callsStep_argumentDelta {fragment : String}
    (h : event.strField "type" = some "content_block_delta")
    (hfragment : ∀ block, eventIndex event = some block → partialJson block event = fragment)
    (hserver : isServerTool event s = false) (hfilled : fragment ≠ "") :
    CallsStep write event s (argumentDelta (eventIndex event) fragment s) := by
  have hkind := isEvent_of_kind h
  have hcall : startsCall event = false := startsBlock_eq_false (hkind _)
  cases hindex : eventIndex event with
  | none =>
    refine callsStep_otherDelta h ?_ rfl rfl rfl ⟨rfl, rfl, rfl⟩
    rw [toldBy, hcall, if_neg Bool.false_ne_true, hindex]
  | some block =>
    have hother : s.serverToolBlockIndex ≠ some block := fun hsame ↦
      Bool.false_ne_true (hserver.symm.trans ((isServerTool_iff hindex).mpr hsame))
    have htold : toldBy write event s =
        ((owner s block).map fun index ↦ ⟨false, index, fragment⟩).toList := by
      rw [toldBy, hcall, if_neg Bool.false_ne_true, hindex]
      simp only [hfragment block hindex]
      rw [if_neg (not_or.mpr ⟨hother, hfilled⟩)]
    cases hopen : s.openaiToolCalls[block]? with
    | none =>
      have hresult : argumentDelta (some block) fragment s = ([], s) := by
        rw [argumentDelta, Option.bind_some, hopen]
        rfl
      rw [hresult]
      refine callsStep_otherDelta h ?_ rfl rfl rfl ⟨rfl, rfl, rfl⟩
      rw [htold, owner, hopen]
      rfl
    | some call =>
      rw [argumentDelta, Option.bind_some, hopen]
      simp only [Option.map_some]
      refine ⟨?_, ?_, fun place ↦ ?_, ?_, ?_, ?_⟩
      · rw [callsOf_emit, Json.get_object, htold, owner, hopen]
        refine .cons ⟨?_, ?_, ?_⟩ .nil
        · rw [Json.get_object]
          rfl
        · rw [stated, Json.get_object]
          rfl
        · rw [functionText_of_object (by decide) (by rw [Json.get_object]; rfl),
            Json.strField_object]
          rfl
      · rw [hcall, hkind]
        rfl
      · rw [if_neg fun hstart ↦ Bool.false_ne_true (hcall.symm.trans hstart.1), owner, owner]
        change Option.map OpenAiToolCall.index (s.openaiToolCalls.insert block _)[place]? = _
        rw [Std.ExtTreeMap.getElem?_insert]
        by_cases hplace : block = place
        · subst hplace
          rw [if_pos (by simp), hopen]
          rfl
        · rw [if_neg (by simpa using hplace)]
      · rw [serverAfter_eq_self (startsBlock_eq_false (hkind _)) (hkind _)]
        rfl
      · rw [canEnd_eq_false (hkind _) (hkind _), Bool.or_false]
        rfl
      · rw [terminals_emit, saysWhy, hkind, hkind]
        rfl

private theorem callsStep_blockDelta (h : event.strField "type" = some "content_block_delta") :
    CallsStep write event s (handleBlockDelta event s) := by
  have hkind := isEvent_of_kind h
  have hcall : startsCall event = false := startsBlock_eq_false (hkind _)
  have htold (hnone : ∀ block, eventIndex event = some block →
      s.serverToolBlockIndex = some block ∨ partialJson block event = "") :
      toldBy write event s = [] := by
    rw [toldBy, hcall, if_neg Bool.false_ne_true]
    split
    · rfl
    · next block hindex => exact if_pos (hnone block hindex)
  rw [handleBlockDelta]
  cases hserver : isServerTool event s with
  | true =>
    rw [if_pos rfl]
    refine callsStep_otherDelta h (htold fun block hindex ↦ .inl ?_) rfl rfl rfl ⟨rfl, rfl, rfl⟩
    exact (isServerTool_iff hindex).mp hserver
  | false =>
    rw [if_neg Bool.false_ne_true]
    cases hdelta : event.get "delta" with
    | none =>
      refine callsStep_otherDelta h (htold fun block _ ↦ .inr ?_) rfl rfl rfl ⟨rfl, rfl, rfl⟩
      rw [partialJson, hdelta]
    | some delta =>
      have hother (htype : delta.strField "type" ≠ some "input_json_delta") :
          toldBy write event s = [] := by
        refine htold fun block _ ↦ .inr ?_
        rw [partialJson, hdelta]
        exact if_neg fun hjson ↦ htype hjson.2.2
      have hshow (found : Option String) (key : String) (hkey : key ≠ "tool_calls")
          (htype : delta.strField "type" ≠ some "input_json_delta") :
          CallsStep write event s (found.elim ([], s) fun text ↦
            emit (Json.object [(key, .str text)]) s) := by
        cases found with
        | none => exact callsStep_otherDelta h (hother htype) rfl rfl rfl ⟨rfl, rfl, rfl⟩
        | some text =>
          refine callsStep_otherDelta h (hother htype) rfl ?_
            (terminals_emit (Json.object [(key, .str text)]) s) ⟨rfl, rfl, rfl⟩
          rw [List.flatMap_singleton, chunk, chunkCalls_buildChunk, Json.get_object,
            List.reverse_singleton, List.lookup_cons, beq_false_of_ne hkey.symm]
          rfl
      simp only
      split
      · next htype =>
        exact hshow _ _ (by decide) (by rw [htype]; decide)
      · next htype =>
        exact hshow _ _ (by decide) (by rw [htype]; decide)
      · next htype =>
        have hjson (block : Nat) (hindex : eventIndex event = some block) :
            partialJson block event = (delta.strField "partial_json").getD "" := by
          rw [partialJson, hdelta]
          exact if_pos ⟨(hkind _).trans (decide_eq_true rfl), hindex, htype⟩
        by_cases hempty : (delta.strField "partial_json").getD "" = ""
        · have hnone : (delta.strField "partial_json").filter (!·.isEmpty) = none := by
            cases hfield : delta.strField "partial_json" with
            | none => rfl
            | some text =>
              rw [hfield, Option.getD_some] at hempty
              rw [hempty]
              rfl
          rw [hnone]
          exact callsStep_otherDelta h (htold fun block hindex ↦ .inr ((hjson _ hindex).trans
            hempty)) rfl rfl rfl ⟨rfl, rfl, rfl⟩
        · obtain ⟨text, hfield⟩ : ∃ text, delta.strField "partial_json" = some text := by
            cases hfield : delta.strField "partial_json" with
            | none => exact absurd (by rw [hfield]; rfl) hempty
            | some text => exact ⟨text, rfl⟩
          rw [hfield, Option.getD_some] at hempty hjson
          rw [hfield, Option.filter_some, if_pos (by simp [hempty])]
          exact callsStep_argumentDelta h hjson hserver hempty
      · next hjson => exact callsStep_otherDelta h (hother hjson) rfl rfl rfl ⟨rfl, rfl, rfl⟩

private theorem callsStep_blockStop (h : event.strField "type" = some "content_block_stop") :
    CallsStep write event s (handleBlockStop event s) := by
  have hkind := isEvent_of_kind h
  have hcall : startsCall event = false := startsBlock_eq_false (hkind _)
  have hafter : serverAfter s.serverToolBlockIndex event =
      if isServerTool event s then none else s.serverToolBlockIndex := by
    rw [serverAfter, startsBlock_eq_false (hkind _), if_neg Bool.false_ne_true]
    simp only [hkind, decide_true, true_and, isServerTool, Bool.and_eq_true, beq_iff_eq]
  have hquiet {chunks : List Json} {s' : StreamState}
      (hserver : s'.serverToolBlockIndex = serverAfter s.serverToolBlockIndex event)
      (hcalls : chunks.flatMap chunkCalls = []) (hended : terminals chunks = 0)
      (hsame : SameCalls s s') : CallsStep write event s (chunks, s') :=
    callsStep_quiet hcall (hkind _) (toldBy_eq_nil (hkind _) hcall) hserver
      (canEnd_eq_false (hkind _) (hkind _)) hcalls hended hsame
  rw [handleBlockStop]
  split
  · next hserver =>
    rw [if_pos hserver] at hafter
    exact hquiet hafter.symm rfl rfl ⟨rfl, rfl, rfl⟩
  · next hserver =>
    rw [if_neg hserver] at hafter
    simp only
    split
    · refine hquiet hafter.symm ?_ (terminals_emit _ _) ⟨rfl, rfl, rfl⟩
      rw [callsOf_emit, Json.get_object]
      rfl
    · exact hquiet hafter.symm rfl rfl ⟨rfl, rfl, rfl⟩

private theorem finishChunk_spec (finish : String) (usage : Option Json) (s : StreamState) :
    (finishChunk finish usage s).1.flatMap chunkCalls = [] ∧
      terminals (finishChunk finish usage s).1 = 1 := by
  have hshown : (finishChunk finish usage s).1.map Shown.ofChunk = [.last finish usage] := by
    rw [finishChunk, List.map_singleton, chunk]
    cases usage with
    | none => exact congrArg (fun shown ↦ [shown]) (Shown.ofChunk_buildChunk ..)
    | some usage => exact congrArg (fun shown ↦ [shown]) (Shown.ofChunk_setField_usage ..)
  have hchunk := List.singleton_inj.mp hshown
  constructor
  · rw [finishChunk, List.flatMap_singleton]
    exact congrArg Shown.calls hchunk
  · rw [finishChunk, terminals, List.countP_singleton]
    exact if_pos (congrArg (fun shown : Shown ↦ shown.finish.isSome) hchunk)

private theorem callsStep_reason {t : StreamState}
    (h : event.strField "type" = some "message_delta") (hsame : SameCalls s t)
    (hblock : t.serverToolBlockIndex = s.serverToolBlockIndex) (usage : Option Json) :
    CallsStep write event s
      (match (event.get "delta").bind (·.strField "stop_reason") with
      | none => ([], t)
      | some reason => finishChunk (finishOfClaude reason) usage
          { t with finishReason := some (finishOfClaude reason) }) := by
  have hkind := isEvent_of_kind h
  have hcall : startsCall event = false := startsBlock_eq_false (hkind _)
  have hserver : serverAfter s.serverToolBlockIndex event = s.serverToolBlockIndex :=
    serverAfter_eq_self (startsBlock_eq_false (hkind _)) (hkind _)
  have hwhy : saysWhy event = ((event.get "delta").bind (·.strField "stop_reason")).isSome := by
    rw [saysWhy, hkind, decide_eq_true rfl, Bool.true_and]
  split
  · next hnone =>
    refine callsStep_quiet hcall (hkind _) (toldBy_eq_nil (hkind _) hcall) (hblock.trans
      hserver.symm) ?_ rfl rfl hsame
    rw [canEnd, hwhy, hnone, hkind]
    rfl
  · next reason hreason =>
    obtain ⟨hcalls, hended⟩ := finishChunk_spec (finishOfClaude reason) usage
      { t with finishReason := some (finishOfClaude reason) }
    refine ⟨?_, ?_, fun block ↦ ?_, ?_, ?_, ?_⟩
    · rw [hcalls, toldBy_eq_nil (hkind _) hcall]
      exact .nil
    · rw [hcall, hkind]
      exact hsame.next
    · rw [if_neg fun hstart ↦ Bool.false_ne_true (hcall.symm.trans hstart.1), owner, owner,
        ← hsame.calls]
      rfl
    · rw [hserver]
      exact hblock
    · rw [canEnd, hwhy, hreason, Option.isSome_some, Bool.true_or, Bool.or_true]
      rfl
    · rw [hended, hwhy, hreason]
      rfl

private theorem callsStep_messageDelta (h : event.strField "type" = some "message_delta") :
    CallsStep write event s (handleMessageDelta event s) := by
  cases husage : (event.get "usage").filter (·.asObject.isSome) with
  | none =>
    simp only [handleMessageDelta, husage]
    exact callsStep_reason h ⟨rfl, rfl, rfl⟩ rfl _
  | some usage =>
    simp only [handleMessageDelta, husage]
    exact @callsStep_reason _ _ s (deltaUsage usage s) h ⟨rfl, rfl, rfl⟩ rfl _

private theorem callsStep_messageStop (h : event.strField "type" = some "message_stop") :
    CallsStep write event s (handleMessageStop s) := by
  have hkind := isEvent_of_kind h
  have hcall : startsCall event = false := startsBlock_eq_false (hkind _)
  have hserver : serverAfter s.serverToolBlockIndex event = s.serverToolBlockIndex :=
    serverAfter_eq_self (startsBlock_eq_false (hkind _)) (hkind _)
  have hstop : isEvent "message_stop" event = true := (hkind _).trans (decide_eq_true rfl)
  have hwhy : saysWhy event = false := by
    rw [saysWhy, hkind]
    rfl
  have hshow {chunks : List Json} {s' : StreamState} (hcalls : chunks.flatMap chunkCalls = [])
      (hended : terminals chunks = (!s.finishReasonSent).toNat)
      (hnext : s'.toolCallIndex = s.toolCallIndex) (hopen : s'.openaiToolCalls = s.openaiToolCalls)
      (hblock : s'.serverToolBlockIndex = s.serverToolBlockIndex)
      (hsent : s'.finishReasonSent = true) : CallsStep write event s (chunks, s') := by
    refine ⟨?_, ?_, fun block ↦ ?_, hblock.trans hserver.symm, ?_, ?_⟩
    · rw [hcalls, toldBy_eq_nil (hkind _) hcall]
      exact .nil
    · rw [hcall, hkind]
      exact hnext
    · rw [if_neg fun hstart ↦ Bool.false_ne_true (hcall.symm.trans hstart.1), owner, owner, hopen]
    · rw [canEnd, hwhy, hstop, Bool.false_or, Bool.or_true]
      exact hsent
    · rw [hwhy, hstop, Bool.false_or, Bool.true_and]
      exact hended
  rw [handleMessageStop]
  split
  · next hsent => exact hshow rfl (by rw [hsent]; rfl) rfl rfl rfl hsent
  · next hsent =>
    have hfirst : s.finishReasonSent = false := by simpa using hsent
    obtain ⟨hcalls, hended⟩ := finishChunk_spec (s.finishReason.getD
      (if s.openaiToolCalls.isEmpty then "stop" else "tool_calls")) (s.usage.map fun _ ↦
        Json.object [("prompt_tokens", Json.nat s.claudeInputTokens),
          ("completion_tokens", Json.nat s.claudeOutputTokens),
          ("total_tokens", Json.nat (s.claudeInputTokens + s.claudeOutputTokens))]) s
    refine hshow hcalls ?_ rfl rfl rfl rfl
    rw [hfirst]
    exact hended

/-- What an event does to calls, and whether it ends the stream. -/
theorem callsStep_translate (write : Json → String) (event : Json) (s : StreamState) :
    CallsStep write event s (translate write event s) := by
  rw [Response.ClaudeToOpenai.translate]
  split
  · next h => exact callsStep_messageStart h
  · next h => exact callsStep_blockStart h
  · next h => exact callsStep_blockDelta h
  · next h => exact callsStep_blockStop h
  · next h => exact callsStep_messageDelta h
  · next h => exact callsStep_messageStop h
  · next hstart hblock hdelta hstop hgoes hover =>
    have hother {kind : String} (h : event.strField "type" ≠ some kind) :
        isEvent kind event = false := decide_eq_false h
    have hcall : startsCall event = false := startsBlock_eq_false (hother hblock)
    exact callsStep_quiet hcall (hother hstart) (toldBy_eq_nil (hother hdelta) hcall)
      (serverAfter_eq_self (startsBlock_eq_false (hother hblock)) (hother hstop)).symm
      (canEnd_eq_false (hother hgoes) (hother hover)) rfl rfl ⟨rfl, rfl, rfl⟩

end Step

/-- The arguments that are told under an index. -/
def toldAt (index : Nat) (news : List CallNews) : String :=
  String.join ((news.filter (·.index = index)).map CallNews.arguments)

section Run

variable {write : Json → String} {event : Json} {s : StreamState} {index : Nat}

private theorem argumentsAt_tells {deltas : List Json} {news : List CallNews}
    (h : List.Forall₂ TellsOf deltas news) (index : Nat) :
    argumentsAt deltas index = toldAt index news := by
  induction h with
  | nil => rfl
  | @cons delta told deltas news htold _ ih =>
    have hsame : (stated delta = some index) ↔ told.index = index := by
      rw [htold.index, Option.some.injEq]
    rw [argumentsAt, toldAt, List.filter_cons, List.filter_cons]
    by_cases hindex : told.index = index
    · rw [if_pos (decide_eq_true (hsame.mpr hindex)), if_pos (decide_eq_true hindex),
        List.map_cons, List.map_cons, String.join_cons, String.join_cons, htold.arguments]
      exact congrArg _ ih
    · rw [if_neg (by simpa using fun hstated ↦ hindex (hsame.mp hstated)),
        if_neg (by simpa using hindex)]
      exact ih

private theorem toldAt_singleton (index : Nat) (told : CallNews) :
    toldAt index [told] = if told.index = index then told.arguments else "" := by
  rw [toldAt, List.filter_singleton]
  by_cases h : told.index = index
  · rw [if_pos h, decide_eq_true h]
    simp [String.join_cons]
  · rw [if_neg h, decide_eq_false h]
    rfl

private theorem toldAt_startsCall (h : startsCall event = true) (index : Nat) :
    toldAt index (toldBy write event s) =
      if s.toolCallIndex = index then startArguments write event else "" := by
  rw [toldBy, if_pos h, toldAt_singleton]

private theorem toldAt_unowned (h : startsCall event = false)
    (hnone : ∀ block, owner s block ≠ some index) : toldAt index (toldBy write event s) = "" := by
  rw [toldBy, h, if_neg Bool.false_ne_true]
  split
  · rfl
  · next block hblock =>
    split
    · rfl
    · cases howner : owner s block with
      | none => rfl
      | some other =>
        rw [Option.map_some, Option.toList_some, toldAt_singleton]
        exact if_neg fun hother ↦ hnone block (howner.trans (congrArg some hother))

private theorem toldAt_owned {block : Nat} (h : startsCall event = false)
    (howner : owner s block = some index)
    (hother : ∀ other, other ≠ block → owner s other ≠ some index) :
    toldAt index (toldBy write event s) =
      if s.serverToolBlockIndex = some block then "" else partialJson block event := by
  have helse (hindex : eventIndex event ≠ some block) : partialJson block event = "" := by
    rw [partialJson]
    split
    · exact if_neg fun hdelta ↦ hindex hdelta.2.1
    · rfl
  rw [toldBy, h, if_neg Bool.false_ne_true]
  split
  · next hindex =>
    rw [helse (by rw [hindex]; exact nofun), ite_self]
    rfl
  · next other hindex =>
    by_cases hblock : other = block
    · subst hblock
      by_cases hserver : s.serverToolBlockIndex = some other
      · rw [if_pos (.inl hserver), if_pos hserver]
        rfl
      · rw [if_neg hserver]
        by_cases hempty : partialJson other event = ""
        · rw [if_pos (.inr hempty), hempty]
          rfl
        · rw [if_neg (not_or.mpr ⟨hserver, hempty⟩), howner, Option.map_some, Option.toList_some,
            toldAt_singleton, if_pos rfl]
    · rw [helse (by rw [hindex]; exact fun heq ↦ hblock (Option.some.inj heq)), ite_self]
      split
      · rfl
      · cases hfound : owner s other with
        | none => rfl
        | some found =>
          rw [Option.map_some, Option.toList_some, toldAt_singleton]
          exact if_neg fun hsame ↦ hother other hblock (hfound.trans (congrArg some hsame))

theorem argumentsAt_append (calls calls' : List Json) (index : Nat) :
    argumentsAt (calls ++ calls') index = argumentsAt calls index ++ argumentsAt calls' index := by
  rw [argumentsAt, List.filter_append, List.map_append, String.join_append]
  rfl

private theorem argumentsAt_cons (event : Json) (events : List Json) (s : StreamState)
    (index : Nat) : argumentsAt (claudeDeltas write (event :: events) s) index =
      toldAt index (toldBy write event s) ++
        argumentsAt (claudeDeltas write events (translate write event s).2) index := by
  rw [claudeDeltas, claudeChunks, through, List.flatMap_append, argumentsAt_append,
    argumentsAt_tells (callsStep_translate write event s).tells]
  rfl

private theorem argumentsAt_unowned {events : List Json} (hnext : index < s.toolCallIndex)
    (hnone : ∀ block, owner s block ≠ some index)
    (hstarts : ∀ event ∈ events, isEvent "message_start" event = false) :
    argumentsAt (claudeDeltas write events s) index = "" := by
  induction events generalizing s with
  | nil => rfl
  | cons event events ih =>
    obtain ⟨hstart, hrest⟩ := List.forall_mem_cons.mp hstarts
    have hstep := callsStep_translate write event s
    have hafter := hstep.next
    rw [hstart, if_neg Bool.false_ne_true] at hafter
    rw [argumentsAt_cons, ih (by rw [hafter]; split <;> omega) ?_ hrest, String.append_empty]
    · cases hcall : startsCall event with
      | true => rw [toldAt_startsCall hcall, if_neg (Nat.ne_of_gt hnext)]
      | false => exact toldAt_unowned hcall hnone
    · intro block
      rw [hstep.owner]
      split
      · exact fun heq ↦ Nat.ne_of_gt hnext (Option.some.inj heq)
      · exact hnone block

private theorem argumentsAt_owned {events : List Json} {block : Nat}
    (hnext : index < s.toolCallIndex) (howner : owner s block = some index)
    (hother : ∀ other, other ≠ block → owner s other ≠ some index)
    (hstarts : ∀ event ∈ events, isEvent "message_start" event = false) :
    argumentsAt (claudeDeltas write events s) index =
      placedJson block s.serverToolBlockIndex events := by
  induction events generalizing s with
  | nil => rfl
  | cons event events ih =>
    obtain ⟨hstart, hrest⟩ := List.forall_mem_cons.mp hstarts
    have hstep := callsStep_translate write event s
    have hafter := hstep.next
    rw [hstart, if_neg Bool.false_ne_true] at hafter
    have hlater : index < (translate write event s).2.toolCallIndex := by
      rw [hafter]
      split <;> omega
    have hkeeps (other : Nat) (hkept : ¬ (startsCall event = true ∧ eventIndex event = some other)) :
        owner (translate write event s).2 other = owner s other := by
      rw [hstep.owner, if_neg hkept]
    have hnew (other : Nat) (hplace : startsCall event = true ∧ eventIndex event = some other) :
        owner (translate write event s).2 other ≠ some index := by
      rw [hstep.owner, if_pos hplace]
      exact fun heq ↦ Nat.ne_of_gt hnext (Option.some.inj heq)
    rw [argumentsAt_cons, placedJson]
    by_cases hplace : startsCall event = true ∧ eventIndex event = some block
    · -- another call takes the block: the index is nobody's from now on
      rw [if_pos hplace, toldAt_startsCall hplace.1, if_neg (Nat.ne_of_gt hnext),
        String.empty_append]
      refine argumentsAt_unowned hlater (fun other ↦ ?_) hrest
      by_cases hsame : other = block
      · exact hnew other (hsame ▸ hplace)
      · rw [hkeeps other fun h ↦ hsame (Option.some.inj (h.2.symm.trans hplace.2))]
        exact hother other hsame
    · rw [if_neg hplace, ih hlater ((hkeeps block hplace).trans howner) ?_ hrest, hstep.server]
      · congr 1
        cases hcall : startsCall event with
        | true =>
          have hempty : partialJson block event = "" := by
            refine partialJson_eq_empty ?_ block
            rw [startsCall, startsBlock, Bool.and_eq_true, isEvent] at hcall
            exact (isEvent_of_kind (of_decide_eq_true hcall.1) _).trans (by decide)
          rw [toldAt_startsCall hcall, if_neg (Nat.ne_of_gt hnext), hempty, ite_self]
        | false => exact toldAt_owned hcall howner hother
      · intro other hsame
        by_cases hnewly : startsCall event = true ∧ eventIndex event = some other
        · exact hnew other hnewly
        · rw [hkeeps other hnewly]
          exact hother other hsame

private theorem claudeChunks_concat (events : List Json) (event : Json) (s : StreamState) :
    claudeChunks write (events ++ [event]) s = claudeChunks write events s ++
        (translate write event (through (translate write) events s).2).1 ∧
      (through (translate write) (events ++ [event]) s).2 =
        (translate write event (through (translate write) events s).2).2 := by
  rw [claudeChunks, through_append]
  exact ⟨congrArg (_ ++ ·) (List.append_nil _), rfl⟩

/-- Where a stream stands that has had its events. -/
private structure Stands (write : Json → String) (events : List Json) (s : StreamState) : Prop where
  next : (through (translate write) events s).2.toolCallIndex = events.countP startsCall
  below : ∀ block index, owner (through (translate write) events s).2 block = some index →
    index < events.countP startsCall
  server : (through (translate write) events s).2.serverToolBlockIndex =
    events.foldl serverAfter none
  untold : ∀ index, events.countP startsCall ≤ index →
    argumentsAt (claudeDeltas write events s) index = ""

private theorem stands (h : Unbegun s) {events : List Json} (hstarts : ¬ StartsAgain events) :
    Stands write events s := by
  induction events using List.reverseRecOn with
  | nil =>
    refine ⟨h.next, fun block index howner ↦ ?_, h.server, fun _ _ ↦ rfl⟩
    rw [through, owner, h.calls] at howner
    cases howner
  | append_singleton events event ih =>
    rw [StartsAgain, somewhere_concat, not_or] at hstarts
    obtain ⟨hnext, hbelow, hserver, huntold⟩ := ih hstarts.1
    have hstep := callsStep_translate write event (through (translate write) events s).2
    obtain ⟨hchunks, hstate⟩ := @claudeChunks_concat write events event s
    have hcount : (events ++ [event]).countP startsCall =
        events.countP startsCall + (startsCall event).toNat := by
      rw [List.countP_append, List.countP_singleton]
      cases startsCall event <;> rfl
    have hafter : (translate write event (through (translate write) events s).2).2.toolCallIndex =
        (events ++ [event]).countP startsCall := by
      rw [hstep.next, hcount, hnext]
      cases hcall : startsCall event with
      | true => rfl
      | false =>
        rw [if_neg Bool.false_ne_true]
        split
        · next hstart =>
          have hnone : events.any startsCall = false := by
            simpa using fun hany ↦ hstarts.2 ⟨hstart, hany⟩
          have hzero : events.countP startsCall = 0 := by
            rw [List.countP_eq_zero]
            intro e he
            exact fun hcall ↦ Bool.false_ne_true (hnone.symm.trans (List.any_eq_true.mpr
              ⟨e, he, hcall⟩))
          rw [hzero]
          rfl
        · rfl
    refine ⟨?_, ?_, ?_, ?_⟩
    · rw [hstate, hafter]
    · intro block index howner
      rw [hstate, hstep.owner] at howner
      rw [hcount]
      split at howner
      · next hplace =>
        rw [hplace.1, Bool.toNat_true, ← hnext]
        have := Option.some.inj howner
        omega
      · exact Nat.lt_of_lt_of_le (hbelow block index howner) (Nat.le_add_right ..)
    · rw [hstate, hstep.server, hserver, List.foldl_append]
      rfl
    · intro index hindex
      rw [hcount] at hindex
      rw [claudeDeltas, hchunks, List.flatMap_append, argumentsAt_append,
        argumentsAt_tells hstep.tells]
      refine String.append_eq_empty_iff.mpr ⟨huntold index (by omega), ?_⟩
      cases hcall : startsCall event with
      | true =>
        rw [hcall, Bool.toNat_true, ← hnext] at hindex
        rw [toldAt_startsCall hcall, if_neg (by omega)]
      | false =>
        refine toldAt_unowned hcall fun block howner ↦ ?_
        have := hbelow block index howner
        omega

private theorem argumentsAt_start (h : Unbegun s) {before after : List Json}
    (hstarts : ¬ StartsAgain (before ++ event :: after)) (hcall : startsCall event = true) :
    argumentsAt (claudeDeltas write (before ++ event :: after) s) (before.countP startsCall) =
      startArguments write event ++ ((eventIndex event).map fun block ↦
        placedJson block (before.foldl serverAfter none) after).getD "" := by
  have hbefore : ¬ StartsAgain before := by
    rintro ⟨earlier, e, later, rfl, hagain⟩
    exact hstarts ⟨earlier, e, later ++ event :: after, by simp, hagain⟩
  have hafter : ∀ e ∈ after, isEvent "message_start" e = false := by
    intro e he
    obtain ⟨earlier, later, rfl⟩ := List.append_of_mem he
    refine Bool.eq_false_iff.mpr fun hstart ↦ hstarts ⟨before ++ event :: earlier, e, later,
      by simp, hstart, ?_⟩
    simp [hcall]
  obtain ⟨hnext, hbelow, hserver, huntold⟩ := @stands write s h before hbefore
  have hstep := callsStep_translate write event (through (translate write) before s).2
  have hlater : before.countP startsCall <
      (translate write event (through (translate write) before s).2).2.toolCallIndex := by
    rw [hstep.next, if_pos hcall, hnext]
    exact Nat.lt_succ_self _
  have hsplit : claudeDeltas write (before ++ event :: after) s =
      claudeDeltas write before s ++
        claudeDeltas write (event :: after) (through (translate write) before s).2 := by
    rw [claudeDeltas, claudeChunks, through_append, List.flatMap_append]
    rfl
  rw [hsplit, argumentsAt_append, huntold _ (Nat.le_refl _), String.empty_append, argumentsAt_cons,
    toldAt_startsCall hcall, if_pos hnext]
  congr 1
  have hold (block : Nat) (hblock : eventIndex event ≠ some block) :
      owner (translate write event (through (translate write) before s).2).2 block ≠
        some (before.countP startsCall) := by
    rw [hstep.owner, if_neg fun hplace ↦ hblock hplace.2]
    intro howner
    exact Nat.lt_irrefl _ (hbelow block _ howner)
  cases hindex : eventIndex event with
  | none =>
    exact argumentsAt_unowned hlater (fun block ↦ hold block (by rw [hindex]; exact nofun)) hafter
  | some block =>
    have howner : owner (translate write event (through (translate write) before s).2).2 block =
        some (before.countP startsCall) := by
      rw [hstep.owner, if_pos ⟨hcall, hindex⟩, hnext]
    rw [argumentsAt_owned hlater howner (fun other hother ↦ hold other fun heq ↦
      hother (Option.some.inj (heq.symm.trans hindex))) hafter, hstep.server, hserver]
    have hkept : serverAfter (before.foldl serverAfter none) event =
        before.foldl serverAfter none := by
      rw [startsCall, startsBlock, Bool.and_eq_true, isEvent] at hcall
      have hkind := isEvent_of_kind (of_decide_eq_true hcall.1)
      refine serverAfter_eq_self ?_ (hkind _)
      rw [startsBlock, of_decide_eq_true hcall.2]
      simp
    rw [hkept]
    rfl

private theorem ended_spec (h : Unbegun s) (events : List Json) :
    (through (translate write) events s).2.finishReasonSent = events.any canEnd ∧
      (0 < terminals (claudeChunks write events s) ↔ events.any canEnd = true) ∧
      (¬ WhyAgain events → terminals (claudeChunks write events s) ≤ 1) := by
  induction events using List.reverseRecOn with
  | nil => exact ⟨h.ended, ⟨nofun, nofun⟩, fun _ ↦ Nat.zero_le _⟩
  | append_singleton events event ih =>
    obtain ⟨hsent, hiff, honce⟩ := ih
    have hstep := callsStep_translate write event (through (translate write) events s).2
    obtain ⟨hchunks, hstate⟩ := @claudeChunks_concat write events event s
    have hended := hstep.ended
    have hany : (events ++ [event]).any canEnd = (events.any canEnd || canEnd event) := by
      rw [List.any_append, List.any_cons, List.any_nil, Bool.or_false]
    rw [hsent] at hended
    rw [hchunks, terminals_append, hended, hany, WhyAgain, somewhere_concat, not_or]
    refine ⟨by rw [hstate, hstep.sent, hsent], ?_, ?_⟩
    · cases hbefore : events.any canEnd with
      | true =>
        have := hiff.mpr hbefore
        simp only [Bool.true_or, iff_true]
        omega
      | false =>
        have hzero : terminals (claudeChunks write events s) = 0 := by
          refine Nat.eq_zero_of_not_pos fun hpos ↦ ?_
          exact Bool.false_ne_true (hbefore.symm.trans (hiff.mp hpos))
        rw [hzero, canEnd, Bool.not_false, Bool.and_true, Bool.false_or, Nat.zero_add]
        cases saysWhy event <;> cases isEvent "message_stop" event <;> decide
    · rintro ⟨hearlier, hlast⟩
      have hone := honce hearlier
      cases hbefore : events.any canEnd with
      | true =>
        have hwhy : saysWhy event = false := by
          simpa using fun hwhy ↦ hlast ⟨hwhy, hbefore⟩
        rw [hwhy, Bool.not_true, Bool.and_false]
        exact hone
      | false =>
        have hzero : terminals (claudeChunks write events s) = 0 := by
          refine Nat.eq_zero_of_not_pos fun hpos ↦ ?_
          exact Bool.false_ne_true (hbefore.symm.trans (hiff.mp hpos))
        rw [hzero, Nat.zero_add]
        exact Bool.toNat_le _

/-- The calls of a stream, numbered from an index. -/
private def numbersFrom : Nat → List Json → List Nat
  | _, [] => []
  | next, event :: events =>
    if startsCall event then next :: numbersFrom (next + 1) events
    else numbersFrom (if isEvent "message_start" event then 0 else next) events

private theorem numbersFrom_eq (next : Nat) (events : List Json) :
    ∃ message messages, events.splitOnP (isEvent "message_start") = message :: messages ∧
      numbersFrom next events = List.range' next (message.countP startsCall) ++
        messages.flatMap fun message ↦ List.range (message.countP startsCall) := by
  induction events generalizing next with
  | nil => exact ⟨[], [], rfl, rfl⟩
  | cons event events ih =>
    rw [List.splitOnP_cons_eq_if_modifyHead]
    by_cases hstart : isEvent "message_start" event = true
    · have hcall : startsCall event = false := by
        refine startsBlock_eq_false ?_
        exact (isEvent_of_kind (of_decide_eq_true hstart) _).trans (by decide)
      obtain ⟨message, messages, hsplit, hnumbers⟩ := ih 0
      refine ⟨[], message :: messages, by rw [if_pos hstart, hsplit], ?_⟩
      rw [numbersFrom, hcall, if_neg Bool.false_ne_true, if_pos hstart, hnumbers,
        List.flatMap_cons, List.range_eq_range']
      rfl
    · rw [if_neg hstart]
      cases hcall : startsCall event with
      | true =>
        obtain ⟨message, messages, hsplit, hnumbers⟩ := ih (next + 1)
        refine ⟨event :: message, messages, by rw [hsplit]; rfl, ?_⟩
        rw [numbersFrom, hcall, if_pos rfl, hnumbers, List.countP_cons_of_pos hcall,
          List.range'_succ]
        rfl
      | false =>
        obtain ⟨message, messages, hsplit, hnumbers⟩ := ih next
        refine ⟨event :: message, messages, by rw [hsplit]; rfl, ?_⟩
        rw [numbersFrom, hcall, if_neg Bool.false_ne_true, if_neg hstart, hnumbers,
          List.countP_cons_of_neg (by simpa using hcall)]

private theorem openings_tells {deltas : List Json} {news : List CallNews}
    (h : List.Forall₂ TellsOf deltas news) :
    (openings deltas).map stated = ((news.filter (·.opening)).map CallNews.index).map some := by
  induction h with
  | nil => rfl
  | @cons delta told deltas news htold _ ih =>
    rw [openings, List.filter_cons, List.filter_cons, htold.opening]
    cases told.opening with
    | true =>
      rw [if_pos rfl, if_pos rfl, List.map_cons, List.map_cons, List.map_cons, htold.index]
      exact congrArg _ ih
    | false => exact ih

private theorem numbered_spec (events : List Json) (s : StreamState) :
    (openings (claudeDeltas write events s)).map stated =
      (numbersFrom s.toolCallIndex events).map some := by
  induction events generalizing s with
  | nil => rfl
  | cons event events ih =>
    have hstep := callsStep_translate write event s
    have hopened : ((toldBy write event s).filter (·.opening)).map CallNews.index =
        if startsCall event then [s.toolCallIndex] else [] := by
      rw [toldBy]
      split
      · rfl
      · split
        · rfl
        · split
          · rfl
          · cases owner s _ <;> rfl
    have hsplit : openings (claudeDeltas write (event :: events) s) =
        openings ((translate write event s).1.flatMap chunkCalls) ++
          openings (claudeDeltas write events (translate write event s).2) := by
      rw [claudeDeltas, claudeChunks, through, List.flatMap_append, openings, List.filter_append]
      rfl
    rw [hsplit, List.map_append, openings_tells hstep.tells, hopened, ih, hstep.next, numbersFrom]
    cases startsCall event with
    | true => rfl
    | false => rfl

/-- Claude's events in any order become a stream that is ended if an event can end it, and once if
no reason comes again; whose calls are numbered 0, 1, 2 and so on in the order they start, from 0
again in every message; and in which, where no message starts after a call, the arguments under the
index of every call are those it starts with and what is placed in its block. -/
theorem claudeRelayed (h : Unbegun s) (events : List Json) : ClaudeRelayed write events s where
  ended_iff := (ended_spec h events).2.1
  ended_once := (ended_spec h events).2.2
  numbered := by
    obtain ⟨message, messages, hsplit, hnumbers⟩ := numbersFrom_eq 0 events
    rw [numbered_spec, h.next, hnumbers, callNumbers, hsplit, List.flatMap_cons,
      List.range_eq_range']
  arguments hstarts before event after := by
    rintro rfl hcall
    exact argumentsAt_start h hstarts hcall

/-- The reason why a message stopped. -/
def whyEvent : Json :=
  Json.object [("type", .str "message_delta"),
    ("delta", Json.object [("stop_reason", .str "end_turn")])]

/-- The start of a tool call, with some input. -/
def callStart (block : Nat) (input : Json) : Json :=
  Json.object [("type", .str "content_block_start"), ("index", Json.nat block),
    ("content_block", Json.object [("type", .str "tool_use"), ("id", .str "a"),
      ("name", .str "read"), ("input", input)])]

/-- The start of a message. -/
def messageStart : Json := Json.object [("type", .str "message_start")]

private theorem unbegun (clock : Nat → Nat) : Unbegun { clock } :=
  ⟨rfl, fun _ ↦ Std.ExtTreeMap.getElem?_empty, rfl, rfl⟩

/-- A stream with two calls in one message and a third in another. -/
theorem claudeRelayed_three_calls : ClaudeRelayed (fun _ ↦ "")
    [messageStart, callStart 0 .null, callStart 2 .null, whyEvent, messageStart, callStart 0 .null]
    { clock := fun _ ↦ 5 } :=
  claudeRelayed ⟨rfl, fun _ ↦ Std.ExtTreeMap.getElem?_empty, rfl, rfl⟩ _

/-- A reason that comes twice ends the stream twice; a message that starts numbers its calls from 0
again; and a call that starts with input has arguments that no delta gave. -/
theorem claude_out_of_order :
    ¬ ClaudeInOrder (fun _ ↦ "") [whyEvent, whyEvent] { clock := fun _ ↦ 5 } ∧
      ¬ ClaudeInOrder (fun _ ↦ "") [callStart 0 .null, messageStart, callStart 1 .null]
        { clock := fun _ ↦ 5 } ∧
      ¬ ClaudeInOrder (fun _ ↦ "[1]") [callStart 0 (.arr [Json.nat 1])]
        { clock := fun _ ↦ 5 } := by
  refine ⟨fun h ↦ ?_, fun h ↦ ?_, fun h ↦ ?_⟩
  · have htwice : terminals (claudeChunks (fun _ ↦ "") [whyEvent, whyEvent]
        { clock := fun _ ↦ 5 }) = 2 := by
      decide +kernel
    have := h.ended_once
    omega
  · have hnumbered := (@numbered_spec (fun _ ↦ "") _ _).symm.trans h.numbered
    exact absurd hnumbered (by decide +kernel)
  · have hstarts : ¬ StartsAgain ([] ++ callStart 0 (.arr [Json.nat 1]) :: []) :=
      somewhere_concat.not.mpr (not_or.mpr ⟨not_somewhere_nil, fun hagain ↦
        absurd hagain.2 Bool.false_ne_true⟩)
    have harguments := (@argumentsAt_start (fun _ ↦ "[1]") _ _ (unbegun fun _ ↦ 5) _ _ hstarts
      (by decide +kernel)).symm.trans (h.arguments [] _ [] 0 rfl (by decide +kernel) rfl)
    exact absurd harguments (by decide +kernel)

end Run

end NullRouter.Stream
