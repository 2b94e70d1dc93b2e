import Mathlib.Data.List.Forall2
import NullRouter.Base.Text
import NullRouter.Translate.Request.ResponsesToOpenai

/-!
# The turns of a Responses conversation

Which messages the items of a Responses request become, which turn holds each call and which one
gets each reasoning item, `crates/translate/src/request/responses_to_openai.rs:33–47,124–344`.
-/

namespace NullRouter.Translate.Request.ResponsesToOpenai

open NullRouter.Base

/-- What an item adds to the conversation, and what a chat message holds of it. -/
inductive TurnEvent where
  | message (role content : Json)
  | call (call : Json)
  | output (id content : Json)
  deriving DecidableEq

/-- The tool call of an item that has a name. -/
def callOf (serde : SerdeJson) (isCustom : Bool) (entry : Json) : Option Json :=
  (trimmedName entry).map fun name ↦
    Json.object [("id", clampCallId (entry.get "call_id")), ("type", .str "function"),
      ("function", Json.object [("name", .str name), ("arguments", .str (if isCustom then
        serde.toText (Json.object [("input",
          .str (((entry.get "input").map (stringify serde)).getD ""))])
        else ((entry.get "arguments").map (stringify serde)).getD "\x7b\x7d"))])]

/-- What an item adds to the conversation. -/
def itemEvent (serde : SerdeJson) (entry : Json) : Option TurnEvent :=
  if itemKind entry = "message" then
    some (.message ((entry.get "role").getD (.str "user")) (convertContent (entry.get "content")))
  else if itemKind entry = "function_call" then (callOf serde false entry).map .call
  else if itemKind entry = "custom_tool_call" then (callOf serde true entry).map .call
  else if itemKind entry = "function_call_output" ∨ itemKind entry = "custom_tool_call_output" then
    some (.output (clampCallId (entry.get "call_id"))
      (.str (((entry.get "output").map (stringify serde)).getD "")))
  else none

/-- What a chat message holds: the output of a call in a tool message, calls in an assistant turn,
or a message. -/
def messageEvents (message : Json) : List TurnEvent :=
  if message.strField "role" = some "tool" ∧ (message.get "tool_call_id").isSome then
    [.output (fieldOrNull message "tool_call_id") (fieldOrNull message "content")]
  else if message.strField "role" = some "assistant" ∧
      (arrayField message "tool_calls").isSome then
    ((arrayField message "tool_calls").getD []).map .call
  else [.message (fieldOrNull message "role") (fieldOrNull message "content")]

/-- The encrypted content of a reasoning item. -/
def encryptedText (entry : Json) : Option String :=
  (entry.strField "encrypted_content").filter (!·.isEmpty)

/-- The reasoning that a message carries: its text and its encrypted content. -/
def reasoningOf (message : Json) : Option String × Option String :=
  (message.strField "reasoning_content", message.strField "encrypted_content")

/-- The texts of reasoning items. -/
def reasoningTexts (items : List Json) : List String :=
  (items.map reasoningText).filter (!·.isEmpty)

/-- What a message carries of the reasoning items that it is given: their texts, and the last
encrypted content. -/
def rendered (items : List Json) : Option String × Option String :=
  (if reasoningTexts items = [] then none else some ("\n".intercalate (reasoningTexts items)),
    (items.filterMap encryptedText).getLast?)

/-- The reasoning items that each message of a conversation is given: an assistant message and a
new turn of calls those that are pending, any other message none. `isOpen` says whether a turn of
calls goes on. -/
def attached (serde : SerdeJson) (isOpen : Bool) (pending : List Json) :
    List Json → List (List Json)
  | [] => []
  | entry :: rest =>
    match itemEvent serde entry with
    | some (.message ..) =>
      (if entry.strField "role" = some "assistant" then pending else []) ::
        attached serde false [] rest
    | some (.call _) =>
      if isOpen then attached serde true pending rest else pending :: attached serde true [] rest
    | some (.output ..) => [] :: attached serde false pending rest
    | none =>
      attached serde isOpen (if itemKind entry = "reasoning" then pending ++ [entry] else pending)
        rest

/-- Whether an assistant turn is opened before a message of another role and the end. -/
def reachesTurn (serde : SerdeJson) (isOpen : Bool) : List Json → Bool
  | [] => false
  | entry :: rest =>
    match itemEvent serde entry with
    | some (.message ..) => entry.strField "role" == some "assistant"
    | some (.call _) => if isOpen then reachesTurn serde true rest else true
    | some (.output ..) => reachesTurn serde false rest
    | none => reachesTurn serde isOpen rest

/-- The reasoning items behind which an assistant turn is opened in time. -/
def keptReasoning (serde : SerdeJson) (isOpen : Bool) : List Json → List Json
  | [] => []
  | entry :: rest =>
    match itemEvent serde entry with
    | some (.message ..) => keptReasoning serde false rest
    | some (.call _) => keptReasoning serde true rest
    | some (.output ..) => keptReasoning serde false rest
    | none =>
      (if itemKind entry = "reasoning" ∧ reachesTurn serde isOpen rest then [entry] else []) ++
        keptReasoning serde isOpen rest

/-- Each reasoning item behind which a turn is opened in time is given to one message. -/
theorem flatten_attached (serde : SerdeJson) (isOpen : Bool) (pending items : List Json) :
    (attached serde isOpen pending items).flatten =
      (if reachesTurn serde isOpen items then pending else []) ++
        keptReasoning serde isOpen items := by
  induction items generalizing isOpen pending with
  | nil => simp [attached, reachesTurn, keptReasoning]
  | cons entry rest ih =>
    rw [attached, reachesTurn, keptReasoning]
    cases itemEvent serde entry with
    | some event =>
      cases event with
      | message role content => simp [ih]
      | call call => cases isOpen <;> simp [ih]
      | output id content => simp [ih]
    | none =>
      simp only [ih]
      by_cases hkind : itemKind entry = "reasoning"
      · cases reachesTurn serde isOpen rest <;> simp [hkind]
      · simp [hkind]

section Reasoning

/-- What is pending is what some reasoning items say. -/
private structure Holds (g : Regroup) (items : List Json) : Prop where
  text : g.pendingText = "\n".intercalate (reasoningTexts items)
  encrypted : g.pendingEncrypted = (items.filterMap encryptedText).getLast?.getD ""

private theorem holds_nil {g : Regroup} (htext : g.pendingText = "")
    (hencrypted : g.pendingEncrypted = "") : Holds g [] :=
  ⟨htext, hencrypted⟩

private theorem isEmpty_intercalate_iff {texts : List String}
    (h : ∀ text ∈ texts, text.isEmpty = false) :
    ("\n".intercalate texts).isEmpty = true ↔ texts = [] := by
  cases texts with
  | nil => simp
  | cons text texts =>
    have htext := h text List.mem_cons_self
    rw [String.isEmpty_iff]
    refine iff_of_false (fun hnil ↦ ?_) (List.cons_ne_nil _ _)
    cases texts with
    | nil =>
      rw [String.intercalate_singleton] at hnil
      rw [hnil] at htext
      cases htext
    | cons other texts =>
      rw [String.intercalate_cons_cons] at hnil
      simp at hnil

private theorem isEmpty_of_mem_reasoningTexts {items : List Json} {text : String}
    (h : text ∈ reasoningTexts items) : text.isEmpty = false := by
  simpa using (List.mem_filter.mp h).2

private theorem isEmpty_of_encryptedText {entry : Json} {text : String}
    (h : encryptedText entry = some text) : text.isEmpty = false := by
  simpa using (Option.filter_eq_some_iff.mp h).2

private theorem strField_setField_self {message : Json} (h : message.asObject.isSome = true)
    (key text : String) : (message.setField key (.str text)).strField key = some text := by
  rw [Json.strField, Json.get_setField_self h]
  rfl

private theorem strField_setField_of_ne {message value : Json} {key other : String}
    (h : other ≠ key) : (message.setField key value).strField other = message.strField other := by
  rw [Json.strField, Json.get_setField_of_ne h, Json.strField]

private theorem reasoningOf_attach {g : Regroup} {items : List Json} {message : Json}
    (h : Holds g items) (hobject : message.asObject.isSome = true)
    (hnone : reasoningOf message = (none, none)) :
    reasoningOf (g.attach message) = rendered items := by
  have htext := isEmpty_intercalate_iff fun _ ↦ @isEmpty_of_mem_reasoningTexts items _
  rw [← h.text] at htext
  rw [reasoningOf, Prod.mk.injEq] at hnone
  obtain ⟨hnoText, hnoEncrypted⟩ := hnone
  -- What the message is once the text is set, and then the encrypted content.
  obtain ⟨message', hmessage', hobject', htext', hencrypted'⟩ : ∃ message',
      (if g.pendingText.isEmpty then message
        else message.setField "reasoning_content" (.str g.pendingText)) = message' ∧
      message'.asObject.isSome = true ∧
      message'.strField "reasoning_content" = (rendered items).1 ∧
      message'.strField "encrypted_content" = none := by
    refine ⟨_, rfl, ?_⟩
    by_cases hnil : reasoningTexts items = []
    · rw [if_pos (htext.mpr hnil), rendered, if_pos hnil]
      exact ⟨hobject, hnoText, hnoEncrypted⟩
    · rw [if_neg fun hempty ↦ hnil (htext.mp hempty), rendered, if_neg hnil, ← h.text,
        strField_setField_self hobject, strField_setField_of_ne (by decide)]
      exact ⟨by rwa [Json.isSome_asObject_setField], rfl, hnoEncrypted⟩
  rw [Regroup.attach, hmessage']
  show reasoningOf (if g.pendingEncrypted.isEmpty then message'
    else message'.setField "encrypted_content" (.str g.pendingEncrypted)) = _
  rw [h.encrypted]
  cases hlast : (items.filterMap encryptedText).getLast? with
  | none =>
    have hnil : (none.getD "" : String).isEmpty = true := rfl
    rw [if_pos hnil, reasoningOf, htext', hencrypted', rendered, hlast]
  | some text =>
    obtain ⟨entry, -, hentry⟩ := List.mem_filterMap.mp (List.mem_of_getLast? hlast)
    rw [Option.getD_some, isEmpty_of_encryptedText hentry, if_neg Bool.false_ne_true, reasoningOf,
      strField_setField_of_ne (by decide), strField_setField_self hobject', htext', rendered, hlast]

private theorem get_attach (g : Regroup) (message : Json) {key : String}
    (htext : key ≠ "reasoning_content") (hencrypted : key ≠ "encrypted_content") :
    (g.attach message).get key = message.get key := by
  unfold Regroup.attach
  dsimp only
  split
  · split
    · rfl
    · rw [Json.get_setField_of_ne htext]
  · rw [Json.get_setField_of_ne hencrypted]
    split
    · rfl
    · rw [Json.get_setField_of_ne htext]

private theorem isSome_asObject_attach (g : Regroup) (message : Json) :
    (g.attach message).asObject.isSome = message.asObject.isSome := by
  unfold Regroup.attach
  dsimp only
  split
  · split
    · rfl
    · rw [Json.isSome_asObject_setField]
  · rw [Json.isSome_asObject_setField]
    split
    · rfl
    · rw [Json.isSome_asObject_setField]

private theorem holds_takeReasoning {g : Regroup} {items : List Json} (h : Holds g items)
    (entry : Json) : Holds (takeReasoning g entry) (items ++ [entry]) := by
  have hempty := isEmpty_intercalate_iff fun _ ↦ @isEmpty_of_mem_reasoningTexts items _
  rw [← h.text] at hempty
  have hencrypted : (takeReasoning g entry).pendingEncrypted =
      (encryptedText entry).getD g.pendingEncrypted := by
    unfold takeReasoning encryptedText
    cases (entry.strField "encrypted_content").filter (!·.isEmpty) with
    | some text => rfl
    | none =>
      dsimp only
      split
      · rfl
      · split <;> rfl
  have htext : (takeReasoning g entry).pendingText =
      if (reasoningText entry).isEmpty then g.pendingText
      else if g.pendingText.isEmpty then reasoningText entry
      else g.pendingText ++ "\n" ++ reasoningText entry := by
    unfold takeReasoning
    cases (entry.strField "encrypted_content").filter (!·.isEmpty)
    all_goals
      by_cases hentry : (reasoningText entry).isEmpty = true
      · simp [hentry]
      · by_cases hpending : g.pendingText.isEmpty = true <;> simp [hentry, hpending]
  constructor
  · have hsplit : reasoningTexts (items ++ [entry]) = reasoningTexts items ++
        if (reasoningText entry).isEmpty then [] else [reasoningText entry] := by
      rw [reasoningTexts, List.map_append, List.filter_append, reasoningTexts, List.map_singleton]
      cases hentry : (reasoningText entry).isEmpty <;> simp [hentry]
    rw [htext, hsplit]
    split
    · rw [List.append_nil, h.text]
    · split
      · next hpending => rw [hempty.mp hpending, List.nil_append, String.intercalate_singleton]
      · next hpending =>
        rw [String.intercalate_append_of_ne_nil (fun hnil ↦ hpending (hempty.mpr hnil))
          (List.cons_ne_nil _ _), String.intercalate_singleton, h.text]
  · rw [hencrypted, List.filterMap_append, List.getLast?_append, h.encrypted]
    cases hentry : encryptedText entry with
    | none => simp [hentry]
    | some text => simp [hentry]

end Reasoning

/-- A message carries the reasoning items that it is given, and it is an assistant's if there are
any. -/
def Carries (message : Json) (items : List Json) : Prop :=
  reasoningOf message = rendered items ∧
    (items ≠ [] → message.strField "role" = some "assistant")

section Turns

variable {serde : SerdeJson}

/-- An assistant turn of calls. -/
private structure CallTurn (turn : Json) : Prop where
  object : turn.asObject.isSome = true
  role : turn.strField "role" = some "assistant"
  noId : turn.get "tool_call_id" = none
  calls : (arrayField turn "tool_calls").isSome = true

private theorem messageEvents_callTurn {turn : Json} (h : CallTurn turn) :
    messageEvents turn = ((arrayField turn "tool_calls").getD []).map .call := by
  rw [messageEvents, if_neg fun htool ↦ ?_, if_pos ⟨h.role, h.calls⟩]
  rw [h.noId] at htool
  cases htool.2

/-- The turn that the first call opens. -/
private def freshTurn : Json :=
  Json.object [("role", .str "assistant"), ("content", .null), ("tool_calls", .arr [])]

/-- A turn with one more call. -/
private def withCall (turn call : Json) : Json :=
  turn.setField "tool_calls" (.arr ((arrayField turn "tool_calls").getD [] ++ [call]))

private theorem callTurn_fresh (g : Regroup) : CallTurn (g.attach freshTurn) ∧
    messageEvents (g.attach freshTurn) = [] := by
  have hget : ∀ key, key ≠ "reasoning_content" → key ≠ "encrypted_content" →
      (g.attach freshTurn).get key = freshTurn.get key :=
    fun _ htext hencrypted ↦ get_attach g freshTurn htext hencrypted
  have hid : (g.attach freshTurn).get "tool_call_id" = none := hget _ (by decide) (by decide)
  have hcalls : arrayField (g.attach freshTurn) "tool_calls" = some [] := by
    rw [arrayField, hget _ (by decide) (by decide)]
    decide
  have hturn : CallTurn (g.attach freshTurn) := by
    refine ⟨?_, ?_, hid, by rw [hcalls]; rfl⟩
    · rw [isSome_asObject_attach]
      decide
    · rw [Json.strField, hget _ (by decide) (by decide)]
      decide
  refine ⟨hturn, ?_⟩
  rw [messageEvents_callTurn hturn, hcalls]
  rfl

private theorem carries_fresh {g : Regroup} {items : List Json} (h : Holds g items) :
    Carries (g.attach freshTurn) items :=
  ⟨reasoningOf_attach h (by decide) (by decide), fun _ ↦ (callTurn_fresh g).1.role⟩

private theorem callTurn_withCall {turn : Json} (h : CallTurn turn) (call : Json) :
    CallTurn (withCall turn call) ∧
      messageEvents (withCall turn call) = messageEvents turn ++ [.call call] := by
  obtain ⟨calls, hcalls⟩ := Option.isSome_iff_exists.mp h.calls
  have harray : arrayField (withCall turn call) "tool_calls" = some (calls ++ [call]) := by
    rw [withCall, arrayField_setField h.object, hcalls, Option.getD_some]
  have hid : (withCall turn call).get "tool_call_id" = none := by
    rw [withCall, Json.get_setField_of_ne (by decide), h.noId]
  have hturn : CallTurn (withCall turn call) := by
    refine ⟨?_, ?_, hid, by rw [harray]; rfl⟩
    · rw [withCall, Json.isSome_asObject_setField, h.object]
    · rw [withCall, strField_setField_of_ne (by decide), h.role]
  refine ⟨hturn, ?_⟩
  rw [messageEvents_callTurn hturn, messageEvents_callTurn h, harray, hcalls]
  simp

private theorem carries_withCall {turn : Json} {items : List Json} (h : Carries turn items)
    (call : Json) : Carries (withCall turn call) items := by
  obtain ⟨hreasoning, hrole⟩ := h
  rw [Carries, reasoningOf, withCall, strField_setField_of_ne (by decide),
    strField_setField_of_ne (by decide), strField_setField_of_ne (by decide)]
  exact ⟨hreasoning, hrole⟩

private theorem reads_plain (role content : Json) :
    let message := Json.object [("role", role), ("content", content)]
    message.get "role" = some role ∧ message.get "content" = some content ∧
      message.get "tool_call_id" = none ∧ arrayField message "tool_calls" = none ∧
      reasoningOf message = (none, none) ∧ message.asObject.isSome = true := by
  refine ⟨?_, ?_, ?_, ?_, ?_, rfl⟩ <;>
    simp [reasoningOf, arrayField, Json.strField, Json.get_object, List.lookup_cons]

private theorem messageEvents_plain {message role content : Json}
    (hid : message.get "tool_call_id" = none) (hcalls : arrayField message "tool_calls" = none)
    (hrole : message.get "role" = some role) (hcontent : message.get "content" = some content) :
    messageEvents message = [.message role content] := by
  rw [messageEvents, hid, hcalls]
  simp [fieldOrNull, hrole, hcontent]

private theorem take_message {g : Regroup} {entry : Json} (h : itemKind entry = "message") :
    ∃ message, (g.take serde entry).messages =
        g.messages ++ g.currentAssistant.toList ++ [message] ∧
      (g.take serde entry).currentAssistant = none ∧ Holds (g.take serde entry) [] ∧
      messageEvents message = [.message ((entry.get "role").getD (.str "user"))
        (convertContent (entry.get "content"))] ∧
      ∀ items, Holds g items → Carries message
        (if entry.strField "role" = some "assistant" then items else []) := by
  obtain ⟨hrole, hcontent, hid, hcalls, hreasoning, hobject⟩ :=
    reads_plain ((entry.get "role").getD (.str "user")) (convertContent (entry.get "content"))
  rw [Regroup.take, if_pos h, takeMessage]
  split
  · next hassistant =>
    have hget : ∀ key, key ≠ "reasoning_content" → key ≠ "encrypted_content" →
        (g.close.attach (Json.object [("role", (entry.get "role").getD (.str "user")),
          ("content", convertContent (entry.get "content"))])).get key = _ :=
      fun _ htext hencrypted ↦ get_attach g.close _ htext hencrypted
    refine ⟨_, rfl, rfl, holds_nil rfl rfl, ?_, fun items hitems ↦ ⟨?_, fun _ ↦ ?_⟩⟩
    · rw [arrayField] at hcalls
      apply messageEvents_plain
      · rw [hget _ (by decide) (by decide), hid]
      · rw [arrayField, hget _ (by decide) (by decide), hcalls]
      · rw [hget _ (by decide) (by decide), hrole]
      · rw [hget _ (by decide) (by decide), hcontent]
    · exact reasoningOf_attach ⟨hitems.text, hitems.encrypted⟩ hobject hreasoning
    · obtain ⟨value, hvalue, hstr⟩ := Option.bind_eq_some_iff.mp hassistant
      rw [Json.strField, hget _ (by decide) (by decide), hrole, hvalue]
      exact hstr
  · next hassistant =>
    exact ⟨_, rfl, rfl, holds_nil rfl rfl, messageEvents_plain hid hcalls hrole hcontent,
      fun items _ ↦ ⟨hreasoning, fun hne ↦ absurd rfl hne⟩⟩

private theorem take_output {g : Regroup} {entry : Json}
    (h : itemKind entry = "function_call_output" ∨ itemKind entry = "custom_tool_call_output") :
    ∃ message, (g.take serde entry).messages =
        g.messages ++ g.currentAssistant.toList ++ [message] ∧
      (g.take serde entry).currentAssistant = none ∧
      (∀ items, Holds g items → Holds (g.take serde entry) items) ∧
      messageEvents message = [.output (clampCallId (entry.get "call_id"))
        (.str (((entry.get "output").map (stringify serde)).getD ""))] ∧
      Carries message [] := by
  have hmessage : itemKind entry ≠ "message" := by rcases h with h | h <;> rw [h] <;> decide
  have hcall : itemKind entry ≠ "function_call" := by rcases h with h | h <;> rw [h] <;> decide
  have hcustom : itemKind entry ≠ "custom_tool_call" := by
    rcases h with h | h <;> rw [h] <;> decide
  rw [Regroup.take, if_neg hmessage, if_neg hcall, if_neg hcustom, if_pos h]
  refine ⟨_, rfl, rfl, fun items hitems ↦ ⟨hitems.text, hitems.encrypted⟩, ?_, ?_, ?_⟩
  · simp [messageEvents, fieldOrNull, Json.strField, Json.asStr, Json.get_object,
      List.lookup_cons]
  · simp [reasoningOf, rendered, reasoningTexts, Json.strField, Json.get_object, List.lookup_cons]
  · exact fun hne ↦ absurd rfl hne

private theorem take_call {g : Regroup} {entry call : Json} {isCustom : Bool}
    (h : itemKind entry = if isCustom then "custom_tool_call" else "function_call")
    (hcall : callOf serde isCustom entry = some call) :
    (g.take serde entry).messages = g.messages ∧
      (g.take serde entry).currentAssistant =
        some (withCall (g.currentAssistant.getD (g.attach freshTurn)) call) ∧
      (g.currentAssistant = none → Holds (g.take serde entry) []) ∧
      ∀ items, g.currentAssistant.isSome = true → Holds g items →
        Holds (g.take serde entry) items := by
  have htake : g.take serde entry = takeCall serde isCustom g entry := by
    cases isCustom <;> simp [Regroup.take, h]
  obtain ⟨name, hname, rfl⟩ := Option.map_eq_some_iff.mp hcall
  rw [htake]
  unfold takeCall
  rw [hname]
  dsimp only
  refine ⟨?_, rfl, fun hnone ↦ ?_, fun items hsome hitems ↦ ?_⟩
  · split <;> rfl
  · rw [hnone]
    exact holds_nil rfl rfl
  · obtain ⟨turn, hturn⟩ := Option.isSome_iff_exists.mp hsome
    rw [hturn]
    exact ⟨hitems.text, hitems.encrypted⟩

private theorem takeReasoning_frame (g : Regroup) (entry : Json) :
    (takeReasoning g entry).messages = g.messages ∧
      (takeReasoning g entry).currentAssistant = g.currentAssistant := by
  unfold takeReasoning
  cases (entry.strField "encrypted_content").filter (!·.isEmpty)
  all_goals
    by_cases hentry : (reasoningText entry).isEmpty = true
    · simp [hentry]
    · by_cases hpending : g.pendingText.isEmpty = true <;> simp [hentry, hpending]

/-- Any other item leaves the messages and the turn, and only reasoning adds to what is
pending. -/
private theorem take_other {g : Regroup} {entry : Json} (h : itemEvent serde entry = none) :
    (g.take serde entry).messages = g.messages ∧
      (g.take serde entry).currentAssistant = g.currentAssistant ∧
      ∀ items, Holds g items → Holds (g.take serde entry)
        (if itemKind entry = "reasoning" then items ++ [entry] else items) := by
  have hcalls : ∀ isCustom : Bool, itemKind entry = (if isCustom then "custom_tool_call"
      else "function_call") → trimmedName entry = none := by
    intro isCustom hkind
    have hnone : callOf serde isCustom entry = none := by
      cases isCustom <;> simpa [itemEvent, hkind] using h
    simpa [callOf] using hnone
  have hmessage : itemKind entry ≠ "message" := by
    intro hkind
    simp [itemEvent, hkind] at h
  have houtput : ¬(itemKind entry = "function_call_output" ∨
      itemKind entry = "custom_tool_call_output") := by
    intro hkind
    rcases hkind with hkind | hkind <;> simp [itemEvent, hkind] at h
  rw [Regroup.take, if_neg hmessage]
  split
  · next hkind =>
    rw [takeCall, hcalls false hkind, hkind]
    exact ⟨rfl, rfl, fun _ hitems ↦ hitems⟩
  · split
    · next hkind =>
      rw [takeCall, hcalls true hkind, hkind]
      exact ⟨rfl, rfl, fun _ hitems ↦ hitems⟩
    · split
      · next hkind =>
        rw [hkind]
        exact ⟨rfl, rfl, fun _ hitems ↦ ⟨hitems.text, hitems.encrypted⟩⟩
      · split
        · next hkind =>
          obtain ⟨hmessages, hcurrent⟩ := takeReasoning_frame g entry
          exact ⟨hmessages, hcurrent, fun _ hitems ↦ holds_takeReasoning hitems entry⟩
        · next hkind => exact ⟨rfl, rfl, fun _ hitems ↦ hitems⟩

private theorem itemEvent_cases {entry : Json} {event : TurnEvent}
    (h : itemEvent serde entry = some event) :
    (itemKind entry = "message" ∧ event = .message ((entry.get "role").getD (.str "user"))
      (convertContent (entry.get "content"))) ∨
    (∃ isCustom call, itemKind entry = (if isCustom then "custom_tool_call" else "function_call") ∧
      callOf serde isCustom entry = some call ∧ event = .call call) ∨
    ((itemKind entry = "function_call_output" ∨ itemKind entry = "custom_tool_call_output") ∧
      event = .output (clampCallId (entry.get "call_id"))
        (.str (((entry.get "output").map (stringify serde)).getD ""))) := by
  unfold itemEvent at h
  split at h
  · next hkind => exact .inl ⟨hkind, (Option.some.inj h).symm⟩
  · split at h
    · next hkind =>
      obtain ⟨call, hcall, rfl⟩ := Option.map_eq_some_iff.mp h
      exact .inr (.inl ⟨false, call, hkind, hcall, rfl⟩)
    · split at h
      · next hkind =>
        obtain ⟨call, hcall, rfl⟩ := Option.map_eq_some_iff.mp h
        exact .inr (.inl ⟨true, call, hkind, hcall, rfl⟩)
      · split at h
        · next hkind => exact .inr (.inr ⟨hkind, (Option.some.inj h).symm⟩)
        · cases h

/-- The walk over the items: what is added to the messages holds the events of the items behind
those of the turn that is open, and its messages carry the reasoning items they are given. -/
private theorem walk (items : List Json) : ∀ (g : Regroup) (pending : List Json)
    (given : List (List Json)), Holds g pending →
    (∀ turn, g.currentAssistant = some turn → CallTurn turn) →
    List.Forall₂ Carries g.currentAssistant.toList given →
    ∃ out, (items.foldl (Regroup.take serde) g).close.messages = g.messages ++ out ∧
      out.flatMap messageEvents = g.currentAssistant.toList.flatMap messageEvents ++
        items.filterMap (itemEvent serde) ∧
      List.Forall₂ Carries out
        (given ++ attached serde g.currentAssistant.isSome pending items) := by
  induction items with
  | nil =>
    intro g pending given _ _ hgiven
    exact ⟨g.currentAssistant.toList, rfl, by simp, by simpa [attached] using hgiven⟩
  | cons entry rest ih =>
    intro g pending given hpending hturn hgiven
    rw [List.foldl_cons, attached]
    cases hevent : itemEvent serde entry with
    | none =>
      obtain ⟨hmessages, hcurrent, hholds⟩ := take_other (g := g) hevent
      obtain ⟨out, hout, hevents, hcarries⟩ := ih (g.take serde entry) _ given
        (hholds pending hpending) (by rwa [hcurrent]) (by rwa [hcurrent])
      rw [hcurrent] at hevents hcarries
      exact ⟨out, by rw [hout, hmessages], by rw [hevents, List.filterMap_cons_none hevent],
        hcarries⟩
    | some event =>
      rw [List.filterMap_cons_some hevent]
      rcases itemEvent_cases hevent with ⟨hkind, rfl⟩ | ⟨isCustom, call, hkind, hcall, rfl⟩ |
        ⟨hkind, rfl⟩
      · obtain ⟨message, hmessages, hcurrent, hholds, hmessage, hcarry⟩ :=
          @take_message serde g entry hkind
        obtain ⟨out, hout, hevents, hcarries⟩ := ih (g.take serde entry) [] [] hholds
          (by rw [hcurrent]; exact nofun) (by rw [hcurrent]; exact .nil)
        rw [hcurrent] at hevents hcarries
        refine ⟨g.currentAssistant.toList ++ message :: out, ?_, ?_, ?_⟩
        · rw [hout, hmessages]
          simp
        · rw [List.flatMap_append, List.flatMap_cons, hmessage, hevents]
          simp
        · exact List.rel_append hgiven (.cons (hcarry pending hpending) hcarries)
      · obtain ⟨hmessages, hcurrent, hfresh, hopen⟩ :=
          @take_call serde g entry call isCustom hkind hcall
        cases hassistant : g.currentAssistant with
        | none =>
          rw [hassistant] at hcurrent hgiven
          cases hgiven
          obtain ⟨hcallTurn, hnone⟩ := callTurn_fresh g
          obtain ⟨hwith, hevent'⟩ := callTurn_withCall hcallTurn call
          obtain ⟨out, hout, hevents, hcarries⟩ := ih (g.take serde entry) [] [pending]
            (hfresh hassistant) (fun _ h ↦ by rw [hcurrent] at h; cases h; exact hwith)
            (by rw [hcurrent]; exact .cons (carries_withCall (carries_fresh hpending) call) .nil)
          rw [hcurrent, Option.getD_none, Option.toList_some, List.flatMap_singleton, hevent',
            hnone] at hevents
          rw [hcurrent] at hcarries
          exact ⟨out, by rw [hout, hmessages], hevents, hcarries⟩
        | some turn =>
          rw [hassistant] at hcurrent hgiven hopen
          obtain ⟨hwith, hevent'⟩ := callTurn_withCall (hturn turn hassistant) call
          have hgiven' : List.Forall₂ Carries [withCall turn call] given := by
            rcases hgiven with _ | ⟨hcarry, hnil⟩
            cases hnil
            exact .cons (carries_withCall hcarry call) .nil
          obtain ⟨out, hout, hevents, hcarries⟩ := ih (g.take serde entry) pending given
            (hopen pending rfl hpending) (fun _ h ↦ by rw [hcurrent] at h; cases h; exact hwith)
            (by rw [hcurrent]; exact hgiven')
          rw [hcurrent, Option.getD_some, Option.toList_some, List.flatMap_singleton, hevent',
            List.append_assoc] at hevents
          rw [hcurrent] at hcarries
          refine ⟨out, by rw [hout, hmessages], ?_, hcarries⟩
          rw [hevents, Option.toList_some, List.flatMap_singleton]
          rfl
      · obtain ⟨message, hmessages, hcurrent, hholds, hmessage, hcarry⟩ :=
          @take_output serde g entry hkind
        obtain ⟨out, hout, hevents, hcarries⟩ := ih (g.take serde entry) pending []
          (hholds pending hpending) (by rw [hcurrent]; exact nofun) (by rw [hcurrent]; exact .nil)
        rw [hcurrent] at hevents hcarries
        refine ⟨g.currentAssistant.toList ++ message :: out, ?_, ?_, ?_⟩
        · rw [hout, hmessages]
          simp
        · rw [List.flatMap_append, List.flatMap_cons, hmessage, hevents]
          simp
        · exact List.rel_append hgiven (.cons hcarry hcarries)

end Turns

/-- Two ids are clamped to one only if they are one, or one is too long and they start alike. -/
theorem clampCallId_eq {a b : String}
    (h : clampCallId (some (.str a)) = clampCallId (some (.str b))) :
    a = b ∨ ((maxCallIdLen < a.utf8ByteSize ∨ maxCallIdLen < b.utf8ByteSize) ∧
      a.toList.take maxCallIdLen = b.toList.take maxCallIdLen) := by
  have hclamp : ∀ id : String, clampCallId (some (.str id)) =
      if id.utf8ByteSize > maxCallIdLen then .str (String.ofList (id.toList.take maxCallIdLen))
      else .str id := fun _ ↦ rfl
  rw [hclamp, hclamp] at h
  split at h
  · next ha =>
    right
    refine ⟨.inl ha, ?_⟩
    split at h
    · simpa using congrArg String.toList (Json.str.inj h)
    · have hb := congrArg String.toList (Json.str.inj h)
      rw [String.toList_ofList] at hb
      rw [← hb, List.take_take, min_self]
  · split at h
    · next hb =>
      right
      refine ⟨.inr hb, ?_⟩
      have ha := congrArg String.toList (Json.str.inj h)
      rw [String.toList_ofList] at ha
      rw [ha, List.take_take, min_self]
    · exact .inl (Json.str.inj h)

/-- A call and an output that name one `call_id` get one id. -/
theorem id_of_output {serde : SerdeJson} {call output c id content : Json}
    (hcall : itemEvent serde call = some (.call c))
    (houtput : itemEvent serde output = some (.output id content))
    (hsame : call.get "call_id" = output.get "call_id") : c.get "id" = some id := by
  rcases itemEvent_cases hcall with ⟨-, h⟩ | ⟨isCustom, c', -, hc, h⟩ | ⟨-, h⟩ <;> cases h
  rcases itemEvent_cases houtput with ⟨-, h⟩ | ⟨_, _, -, -, h⟩ | ⟨-, h⟩ <;> cases h
  obtain ⟨name, -, rfl⟩ := Option.map_eq_some_iff.mp hc
  rw [← hsame, Json.get_object]
  rfl

/-- The messages of a translated request are those that its items are regrouped into. -/
theorem arrayField_messages_translate {serde : SerdeJson} {body : Json} {items : List Json}
    (h : (body.get "input").bind normalizeInput = some items) (model : String) (stream : Bool) :
    arrayField (translate serde model body stream) "messages" =
      some (regroup serde body items).messages := by
  have hobject : body.asObject.isSome = true := by
    cases body with
    | obj fields => rfl
    | _ => cases h
  have hkeep : ∀ (value : Json) (names : List String), "messages" ∉ names →
      (names.foldl Json.eraseField value).get "messages" = value.get "messages" := by
    intro value names hnames
    rw [Json.get_foldl_eraseField, if_neg hnames]
  unfold translate
  rw [h]
  dsimp only
  rw [arrayField, hkeep _ _ (by decide)]
  have hmessages : ((((body.setField "model" (.str model)).setField "messages"
      (.arr (regroup serde body items).messages)).setField "stream" (.bool stream)).get
        "messages") = some (.arr (regroup serde body items).messages) := by
    rw [Json.get_setField_of_ne (by decide)]
    exact Json.get_setField_self (by rwa [Json.isSome_asObject_setField])
  generalize (((body.setField "model" (.str model)).setField "messages"
    (.arr (regroup serde body items).messages)).setField "stream" (.bool stream)) = result
    at hmessages ⊢
  have htools : ((if convertedTools body (regroup serde body items).additionalTools = []
      then result.eraseField "tools" else result.setField "tools" (.arr
        (convertedTools body (regroup serde body items).additionalTools))).get "messages") =
      some (.arr (regroup serde body items).messages) := by
    split
    · rw [Json.get_eraseField_of_ne (by decide), hmessages]
    · rw [Json.get_setField_of_ne (by decide), hmessages]
  generalize (if convertedTools body (regroup serde body items).additionalTools = []
    then result.eraseField "tools" else result.setField "tools" (.arr
      (convertedTools body (regroup serde body items).additionalTools))) = result' at htools ⊢
  have hlimit (maxOutput : Json) :
      (if ((result'.eraseField "max_output_tokens").get "max_tokens").isSome then
        result'.eraseField "max_output_tokens"
      else (result'.eraseField "max_output_tokens").setField "max_tokens" maxOutput).get
        "messages" = some (.arr (regroup serde body items).messages) := by
    split
    · rw [Json.get_eraseField_of_ne (by decide), htools]
    · rw [Json.get_setField_of_ne (by decide), Json.get_eraseField_of_ne (by decide), htools]
  cases (body.get "reasoning").bind (·.strField "effort") <;>
    cases body.get "max_output_tokens" <;>
    dsimp only [Option.isSome_some] <;>
    simp only [Json.get_setField_of_ne (show "messages" ≠ "reasoning_effort" by decide), htools,
      hlimit, Option.bind_some, Json.asArray]

/-- The messages of a translated request hold what its items add, in the order of the items, each
call in an assistant turn and each output in a tool message with the id that its call got; the
reasoning that is kept is given to assistant turns, each item of it to one; and two ids become one
only where one of them is too long. -/
theorem regroup_turns (serde : SerdeJson) (body : Json) (items : List Json) :
    (∃ turns, (regroup serde body items).messages = instructionMessages body ++ turns ∧
      turns.flatMap messageEvents = items.filterMap (itemEvent serde) ∧
      List.Forall₂ Carries turns (attached serde false [] items) ∧
      (attached serde false [] items).flatten = keptReasoning serde false items) ∧
    (∀ call output c id content, itemEvent serde call = some (.call c) →
      itemEvent serde output = some (.output id content) →
      call.get "call_id" = output.get "call_id" → c.get "id" = some id) ∧
    (∀ a b : String, clampCallId (some (.str a)) = clampCallId (some (.str b)) →
      a = b ∨ ((maxCallIdLen < a.utf8ByteSize ∨ maxCallIdLen < b.utf8ByteSize) ∧
        a.toList.take maxCallIdLen = b.toList.take maxCallIdLen)) ∧
    ∀ model stream, (body.get "input").bind normalizeInput = some items →
      arrayField (translate serde model body stream) "messages" =
        some (regroup serde body items).messages := by
  refine ⟨?_, fun _ _ _ _ _ ↦ id_of_output, fun _ _ ↦ clampCallId_eq,
    fun model stream h ↦ arrayField_messages_translate h model stream⟩
  obtain ⟨turns, hmessages, hevents, hcarries⟩ := @walk serde items
    { messages := instructionMessages body } [] [] (holds_nil rfl rfl) nofun .nil
  exact ⟨turns, hmessages, hevents, hcarries, by simp [flatten_attached]⟩

/-- A reasoning item of a text. -/
def reasoningItem (text : String) : Json :=
  Json.object [("type", .str "reasoning"),
    ("summary", .arr [Json.object [("text", .str text)]])]

/-- Reasoning before a message of the user is given to no message, and two ids that are too long
and start alike become one. -/
theorem reasoning_dropped :
    ∃ serde : SerdeJson,
      (∀ message ∈ (regroup serde (Json.object [])
        [reasoningItem "why", textItem "go on"]).messages, reasoningOf message = (none, none)) ∧
      ∃ a b : String, a ≠ b ∧
        clampCallId (some (.str a)) = clampCallId (some (.str b)) := by
  refine ⟨⟨fun _ ↦ none, fun _ ↦ "", fun _ ↦ ""⟩, by decide,
    String.ofList (List.replicate 64 'a' ++ ['b']), String.ofList (List.replicate 64 'a' ++ ['c']),
    ?_, ?_⟩ <;> decide +kernel

end NullRouter.Translate.Request.ResponsesToOpenai
