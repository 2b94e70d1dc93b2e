import Mathlib.Data.List.Sort
import NullRouter.Translate.Concerns
import Std.Data.ExtTreeMap

/-!
# Streaming state

`StreamState`, `crates/translate/src/state.rs:67`: the fields that the translations to the
Claude and Responses formats and from CommandCode, Claude and Gemini share and own. The clock gives
one value for
each reading; ordered sets and maps that are walked are ordered lists.
-/

namespace NullRouter.Translate

open NullRouter.Base

/-- `OpenAiToolCall`, `state.rs:44`. -/
structure OpenAiToolCall where
  index : Nat
  id : String
  name : String
  arguments : String
  deriving DecidableEq

/-- `ClaudeToolCall`, `state.rs:54`. -/
structure ClaudeToolCall where
  id : String
  name : String
  blockIndex : Nat
  deriving DecidableEq

/-- `StreamState`, `state.rs:62`. -/
structure StreamState where
  clock : Nat → Nat
  readings : Nat := 0
  messageId : Option String := none
  model : Option String := none
  finishReason : Option String := none
  finishReasonSent : Bool := false
  usage : Option Usage := none
  toolNameMap : List (String × String) := []
  -- Claude -> OpenAI
  toolCallIndex : Nat := 0
  inThinkingBlock : Bool := false
  currentBlockIndex : Option Nat := none
  serverToolBlockIndex : Option Nat := none
  openaiToolCalls : Std.ExtTreeMap Nat OpenAiToolCall := ∅
  -- Gemini -> OpenAI
  functionIndex : Nat := 0
  geminiToolCallCount : Nat := 0
  -- OpenAI -> Claude
  claudeInputTokens : Nat := 0
  claudeOutputTokens : Nat := 0
  claudeCacheReadTokens : Nat := 0
  claudeCacheCreationTokens : Nat := 0
  textBlockStarted : Bool := false
  thinkingBlockStarted : Bool := false
  messageStartSent : Bool := false
  nextBlockIndex : Nat := 0
  textBlockIndex : Nat := 0
  textBlockClosed : Bool := false
  thinkingBlockIndex : Nat := 0
  claudeToolCalls : List (Nat × ClaudeToolCall) := []
  toolArgBuffers : Std.ExtTreeMap Nat String := ∅
  -- OpenAI -> Responses API
  responsesSeq : Nat := 0
  responseId : Option String := none
  responsesCreated : Option Nat := none
  responsesStarted : Bool := false
  responsesCompleted : Bool := false
  messageItemsAdded : List Nat := []
  messageItemsDone : List Nat := []
  messageText : Std.ExtTreeMap Nat String := ∅
  reasoningItemAdded : Bool := false
  reasoningItemDone : Bool := false
  reasoningBuffer : String := ""
  functionItemsAdded : List Nat := []
  functionItemsDone : List Nat := []
  functionArguments : Std.ExtTreeMap Nat String := ∅
  functionNames : Std.ExtTreeMap Nat String := ∅
  functionCallIds : Std.ExtTreeMap Nat String := ∅
  customToolNames : List String := []
  -- CommandCode -> OpenAI
  commandCodeCreated : Option Nat := none
  commandCodeChunks : Nat := 0
  commandCodeTools : Nat := 0
  commandCodeToolIndex : Std.ExtTreeMap String Nat := ∅

/-- `BTreeSet::insert` on an ordered list of members. -/
def insertMember (members : List Nat) (i : Nat) : List Nat :=
  if i ∈ members then members else members.orderedInsert (· ≤ ·) i

/-- `String::push_str` on the text of a key, empty where there is none. -/
def pushText (texts : Std.ExtTreeMap Nat String) (key : Nat) (text : String) :
    Std.ExtTreeMap Nat String :=
  texts.insert key (texts[key]?.getD "" ++ text)

@[simp] theorem mem_insertMember {members : List Nat} {i j : Nat} :
    j ∈ insertMember members i ↔ j = i ∨ j ∈ members := by
  unfold insertMember
  split
  · next h =>
    refine ⟨.inr, ?_⟩
    rintro (rfl | hj)
    · exact h
    · exact hj
  · simp

/-- A new member leaves the members distinct. -/
theorem nodup_insertMember {members : List Nat} (h : members.Nodup) (i : Nat) :
    (insertMember members i).Nodup := by
  unfold insertMember
  split
  · exact h
  · next hi => exact (List.perm_orderedInsert _ i members).nodup_iff.mpr (List.nodup_cons.mpr ⟨hi, h⟩)

/-- Text goes to its key only. -/
theorem getD_pushText (texts : Std.ExtTreeMap Nat String) (key other : Nat)
    (text : String) : (pushText texts key text)[other]?.getD "" =
      if other = key then texts[other]?.getD "" ++ text else texts[other]?.getD "" := by
  rw [pushText, Std.ExtTreeMap.getElem?_insert]
  by_cases h : other = key
  · subst h
    simp
  · simp [h, Ne.symm h]

namespace StreamState

/-- `Clock::now_millis`. -/
def nowMillis (s : StreamState) : Nat × StreamState :=
  (s.clock s.readings, { s with readings := s.readings + 1 })

/-- `Clock::now_seconds`. -/
def nowSeconds (s : StreamState) : Nat × StreamState :=
  (s.clock s.readings / 1000, { s with readings := s.readings + 1 })

/-- `StreamState::original_tool_name`: the name that was put in last under a name. -/
def originalToolName (s : StreamState) (name : String) : String :=
  (s.toolNameMap.reverse.lookup name).getD name

end StreamState

/-- The first of a chunk's choices. -/
def firstChoice (chunk : Json) : Option Json :=
  ((chunk.get "choices").bind Json.asArray).bind List.head?

/-- The text a delta holds under a key, where it is not empty. -/
def deltaText (delta : Option Json) (key : String) : Option String :=
  (delta.bind (·.strField key)).filter (!·.isEmpty)

/-- The tool calls of a delta. -/
def deltaToolCalls (delta : Option Json) : List Json :=
  ((delta.bind (·.get "tool_calls")).bind Json.asArray).getD []

/-- The finish reason of a choice, where it is not empty. -/
def choiceFinish (choice : Json) : Option String :=
  (choice.strField "finish_reason").filter (!·.isEmpty)

/-- The index a choice or a call names, 0 where it names none. -/
def indexOf (v : Json) : Nat := ((v.get "index").bind Json.asU64).getD 0

/-!
## The identity of a response

Id, time and model of the chunks, which the translators of Ollama, Grok and Perplexity
(`crates/translate/src/response/`) fix alike: each under a prefix and in a field of its own.
-/

namespace StreamState

/-- `chunk_meta` of the three: the clock is read for what is not fixed. -/
def chunkMeta (idPrefix : String) (created : Option Nat) (s : StreamState) :
    ChunkMeta × StreamState :=
  let identified := match s.messageId with
    | some id => (id, s)
    | none => (idPrefix ++ toString s.nowMillis.1, s.nowMillis.2)
  let dated := match created with
    | some created => (created, identified.2)
    | none => identified.2.nowSeconds
  (⟨identified.1, dated.1, dated.2.model.getD ""⟩, dated.2)

/-- A new id, and the time of the response. -/
def fixIdentity (idPrefix : String) (s : StreamState) : Nat × StreamState :=
  (s.nowMillis.2.nowSeconds.1,
    { s.nowMillis.2.nowSeconds.2 with messageId := some (idPrefix ++ toString s.nowMillis.1) })

end StreamState
end NullRouter.Translate
