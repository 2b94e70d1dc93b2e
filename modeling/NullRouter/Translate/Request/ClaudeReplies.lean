import NullRouter.Translate.Request.ClaudeContent

/-!
# How the tool calls of a Claude request are answered

The runs of tool messages that `fix_missing_tool_responses` leaves behind the calls of an
assistant message, `crates/translate/src/request/claude_to_openai.rs:302–364`.
-/

namespace NullRouter.Translate.Request.ClaudeToOpenai

open NullRouter.Base

/-- A tool message, whatever the type of its id. -/
def isToolMessage (message : Json) : Bool := message.strField "role" == some "tool"

/-- The contiguous run of tool messages at the start of a list. -/
def toolRun (messages : List Json) : List Json := messages.takeWhile isToolMessage

/-- How many messages of a run answer a call. -/
def answers (id : String) (run : List Json) : Nat :=
  run.countP (·.strField "tool_call_id" == some id)

@[simp] theorem isToolReply_placeholder (id : String) : isToolReply (placeholder id) = true := by
  simp [isToolReply, placeholder, Json.strField, Json.get_object, List.lookup_cons, Json.asStr]

/-- A tool message with an id is a tool message. -/
theorem isToolMessage_of_isToolReply {message : Json} (h : isToolReply message = true) :
    isToolMessage message = true := by
  rw [isToolReply, Bool.and_eq_true] at h
  exact h.1

/-- An assistant message with calls is no tool message. -/
theorem isToolMessage_of_callIds {message : Json} {ids : List String}
    (h : callIds message = some ids) : isToolMessage message = false := by
  rw [callIds, Option.ite_none_right_eq_some] at h
  rw [isToolMessage, h.1]
  decide

private theorem placeholders_of_isToolMessage {message : Json} {rest : List Json}
    (h : isToolMessage message = true) : placeholders message rest = [] := by
  have hnone : callIds message = none := by
    cases hids : callIds message with
    | none => rfl
    | some ids =>
      rw [isToolMessage_of_callIds hids] at h
      cases h
  rw [placeholders, hnone]
  rfl

private theorem isToolMessage_of_mem_placeholders {message reply : Json} {rest : List Json}
    (h : reply ∈ placeholders message rest) : isToolMessage reply = true := by
  obtain ⟨id, -, rfl⟩ := List.mem_map.mp h
  exact isToolMessage_of_isToolReply (isToolReply_placeholder id)

/-- Pending placeholders go in after the replies that a list starts with. -/
theorem fixFrom_eq (pending messages : List Json) :
    fixFrom pending messages = messages.takeWhile isToolReply ++ pending ++
      fixFrom [] (messages.dropWhile isToolReply) := by
  induction messages with
  | nil => simp [fixFrom]
  | cons message rest ih =>
    by_cases hreply : isToolReply message = true
    · rw [fixFrom, if_pos hreply, ih, List.takeWhile_cons_of_pos hreply,
        List.dropWhile_cons_of_pos hreply]
      rfl
    · rw [List.takeWhile_cons_of_neg hreply, List.dropWhile_cons_of_neg hreply, fixFrom,
        if_neg hreply, fixFrom, if_neg hreply]
      rfl

private theorem toolRun_fixFrom_nil (messages : List Json) :
    toolRun (fixFrom [] messages) = toolRun messages := by
  induction messages with
  | nil => rfl
  | cons message rest ih =>
    unfold toolRun at ih ⊢
    by_cases htool : isToolMessage message = true
    · have hfix : fixFrom [] (message :: rest) = message :: fixFrom [] rest := by
        rw [fixFrom, placeholders_of_isToolMessage htool, List.nil_append, ite_self]
      rw [hfix, List.takeWhile_cons_of_pos htool, List.takeWhile_cons_of_pos htool, ih]
    · have hreply : ¬isToolReply message = true := fun h ↦ htool (isToolMessage_of_isToolReply h)
      rw [fixFrom, if_neg hreply, List.nil_append, List.takeWhile_cons_of_neg htool,
        List.takeWhile_cons_of_neg htool]

private theorem toolRun_append {start rest : List Json}
    (h : ∀ message ∈ start, isToolMessage message = true) :
    toolRun (start ++ rest) = start ++ toolRun rest := by
  rw [toolRun, List.takeWhile_append_of_pos h]
  rfl

/-- The run behind a message after the repair: the leading replies, the placeholders, and the
rest of the run as it was. -/
theorem toolRun_fixFrom {pending messages : List Json}
    (hpending : ∀ reply ∈ pending, isToolMessage reply = true) :
    toolRun (fixFrom pending messages) = messages.takeWhile isToolReply ++ pending ++
      toolRun (messages.dropWhile isToolReply) := by
  rw [fixFrom_eq, List.append_assoc, toolRun_append, toolRun_append hpending,
    toolRun_fixFrom_nil, List.append_assoc]
  intro message hmem
  exact isToolMessage_of_isToolReply (List.all_eq_true.mp List.all_takeWhile message hmem)

private theorem toolRun_eq (messages : List Json) :
    toolRun messages = messages.takeWhile isToolReply ++
      toolRun (messages.dropWhile isToolReply) := by
  conv_lhs => rw [← List.takeWhile_append_dropWhile (p := isToolReply) (l := messages)]
  rw [toolRun_append]
  intro message hmem
  exact isToolMessage_of_isToolReply (List.all_eq_true.mp List.all_takeWhile message hmem)

/-- A message with calls that the repaired list holds stands in the list before, with the
messages around it repaired in their turn. -/
theorem fixFrom_split {pending messages before' after' : List Json} {message : Json}
    {ids : List String} (hpending : ∀ reply ∈ pending, ∃ id, reply = placeholder id)
    (hids : callIds message = some ids)
    (h : fixFrom pending messages = before' ++ message :: after') :
    ∃ before after, messages = before ++ message :: after ∧
      Padded (∃ id, · = placeholder id) before before' ∧
      after' = fixFrom (placeholders message after) after := by
  have htool := isToolMessage_of_callIds hids
  have hnot : ∀ reply, (∃ id, reply = placeholder id) → reply ≠ message := by
    rintro reply ⟨id, rfl⟩ rfl
    rw [isToolMessage_of_isToolReply (isToolReply_placeholder id)] at htool
    cases htool
  induction messages generalizing pending before' with
  | nil =>
    rw [fixFrom] at h
    have hmem : message ∈ pending := h ▸ List.mem_append_right _ List.mem_cons_self
    exact absurd rfl (hnot message (hpending message hmem))
  | cons first rest ih =>
    rw [fixFrom] at h
    split at h
    · next hreply =>
      cases before' with
      | nil =>
        rw [List.nil_append, List.cons.injEq] at h
        rw [← h.1, isToolMessage_of_isToolReply hreply] at htool
        cases htool
      | cons kept before' =>
        rw [List.cons_append, List.cons.injEq] at h
        obtain ⟨rfl, h⟩ := h
        obtain ⟨before, after, rfl, hbefore, hafter⟩ := ih hpending h
        exact ⟨first :: before, after, rfl, .keep first hbefore, hafter⟩
    · have hnext : ∀ reply ∈ placeholders first rest, ∃ id, reply = placeholder id := by
        intro reply hreply
        obtain ⟨id, -, rfl⟩ := List.mem_map.mp hreply
        exact ⟨id, rfl⟩
      -- The message is not a pending placeholder, so all of these are in front of it.
      obtain ⟨kept, rfl, hrest⟩ : ∃ kept, before' = pending ++ kept ∧
          first :: fixFrom (placeholders first rest) rest = kept ++ message :: after' := by
        rcases List.append_eq_append_iff.mp h with ⟨kept, hbefore, hrest⟩ | ⟨kept, hkept, hrest⟩
        · exact ⟨kept, hbefore, hrest⟩
        · cases kept with
          | nil => exact ⟨[], by simpa using hkept.symm, by simpa using hrest.symm⟩
          | cons reply kept =>
            rw [List.cons_append, List.cons.injEq] at hrest
            have hmem : reply ∈ pending := by simp [hkept]
            exact absurd hrest.1.symm (hnot reply (hpending reply hmem))
      cases kept with
      | nil =>
        rw [List.nil_append, List.cons.injEq] at hrest
        obtain ⟨rfl, hafter⟩ := hrest
        exact ⟨[], rest, rfl, Padded.nil.append_left (by simpa using hpending), hafter.symm⟩
      | cons kept₀ kept =>
        rw [List.cons_append, List.cons.injEq] at hrest
        obtain ⟨rfl, hrest⟩ := hrest
        obtain ⟨before, after, rfl, hbefore, hafter⟩ := ih hnext hrest
        exact ⟨first :: before, after, rfl, (hbefore.keep_append [first]).append_left hpending,
          hafter⟩

/-- The answers in two stretches of a run add up. -/
theorem answers_append (id : String) (run rest : List Json) :
    answers id (run ++ rest) = answers id run + answers id rest :=
  List.countP_append

/-- The placeholders for a call: one for each call with its id, unless the leading replies
answer it. -/
theorem answers_placeholders (message : Json) (rest : List Json) (id : String) :
    answers id (placeholders message rest) =
      if answers id (rest.takeWhile isToolReply) = 0 then ((callIds message).getD []).count id
      else 0 := by
  have hid : ∀ x : String, ((placeholder x).strField "tool_call_id" == some id) = (x == id) := by
    intro x
    simp [placeholder, Json.strField, Json.get_object, List.lookup_cons, Json.asStr]
  have hresponded : answers id (rest.takeWhile isToolReply) = 0 ↔
      id ∉ (rest.takeWhile isToolReply).filterMap (·.strField "tool_call_id") := by
    rw [answers, List.countP_eq_zero, List.mem_filterMap]
    simp only [beq_iff_eq, not_exists, not_and]
  rw [placeholders, answers, List.countP_map, List.countP_filter]
  simp only [Function.comp_apply, hid]
  split
  · next hnone =>
    rw [hresponded] at hnone
    apply List.countP_congr
    intro x _
    by_cases hx : x = id
    · subst hx
      simpa using hnone
    · simp [hx]
  · next hsome =>
    rw [hresponded, not_not] at hsome
    rw [List.countP_eq_zero]
    intro x _
    by_cases hx : x = id
    · subst hx
      simpa using hsome
    · simp [hx]

/-- How many messages of a run answer a call after the repair: those before it, and where the
leading replies have none, one placeholder for each call of the message with that id. -/
theorem answers_toolRun (message : Json) (after : List Json) (id : String) :
    answers id (toolRun (fixFrom (placeholders message after) after)) =
      answers id (toolRun after) +
        if answers id (after.takeWhile isToolReply) = 0 then ((callIds message).getD []).count id
        else 0 := by
  rw [toolRun_fixFrom fun _ ↦ isToolMessage_of_mem_placeholders, toolRun_eq after]
  simp only [answers_append, answers_placeholders]
  omega

private theorem takeWhile_isToolReply {messages : List Json}
    (h : ∀ reply ∈ toolRun messages, isToolReply reply = true) :
    messages.takeWhile isToolReply = toolRun messages := by
  induction messages with
  | nil => rfl
  | cons message rest ih =>
    rw [toolRun] at h ⊢
    by_cases htool : isToolMessage message = true
    · rw [List.takeWhile_cons_of_pos htool] at h ⊢
      rw [List.takeWhile_cons_of_pos (h message List.mem_cons_self),
        ih fun reply hreply ↦ h reply (List.mem_cons_of_mem _ hreply)]
      rfl
    · rw [List.takeWhile_cons_of_neg htool, List.takeWhile_cons_of_neg]
      exact fun hreply ↦ htool (isToolMessage_of_isToolReply hreply)

/-- The run behind an assistant message answers its calls, beside the run `given` before the
repair: no real result is lost, every call has an answer, and calls of distinct ids have one
each, or the results that were given for them if there were several. -/
structure Answered (ids : List String) (given run : List Json) : Prop where
  kept : Padded (∃ id, · = placeholder id) given run
  answered : ∀ id ∈ ids, 1 ≤ answers id run
  once : ids.Nodup → (∀ reply ∈ given, isToolReply reply = true) →
    ∀ id ∈ ids, answers id run = max 1 (answers id given)

/-- The repair answers the calls of a message. -/
theorem answered_fixFrom {message : Json} {ids : List String} (hids : callIds message = some ids)
    (after : List Json) :
    Answered ids (toolRun after) (toolRun (fixFrom (placeholders message after) after)) where
  kept := by
    rw [toolRun_fixFrom fun _ ↦ isToolMessage_of_mem_placeholders, toolRun_eq after,
      List.append_assoc]
    refine Padded.keep_append _ (Padded.append_left ?_ (Padded.refl _ _))
    intro reply hreply
    obtain ⟨id, -, rfl⟩ := List.mem_map.mp hreply
    exact ⟨id, rfl⟩
  answered := by
    intro id hid
    have hpos : 0 < ids.count id := List.count_pos_iff.mpr hid
    have hle : answers id (after.takeWhile isToolReply) ≤ answers id (toolRun after) := by
      rw [toolRun_eq after, answers_append]
      omega
    rw [answers_toolRun, hids, Option.getD_some]
    split <;> omega
  once := by
    intro hnodup hreplies id hid
    have hone : ids.count id = 1 := List.count_eq_one_of_mem hnodup hid
    rw [answers_toolRun, hids, Option.getD_some, takeWhile_isToolReply hreplies, hone]
    split <;> omega

/-- In the translation of every Claude request, each call with an id is answered in the run of
tool messages behind its message, no result is lost, and calls of distinct ids are answered
once unless the request itself gave several results for one. -/
theorem calls_answered (serde : SerdeJson) (model : String) (body : Json) (stream : Bool) :
    ∃ messages, (translate serde model body stream).get "messages" = some (.arr messages) ∧
      Padded (∃ id, · = placeholder id) (systemMessage body ++ carried serde body) messages ∧
      ∀ before' message after' ids, messages = before' ++ message :: after' →
        callIds message = some ids →
        ∃ before after, systemMessage body ++ carried serde body = before ++ message :: after ∧
          Padded (∃ id, · = placeholder id) before before' ∧
          Padded (∃ id, · = placeholder id) after after' ∧
          Answered ids (toolRun after) (toolRun after') := by
  refine ⟨_, get_messages .., padded_fixFrom (by simp) _, ?_⟩
  intro before' message after' ids hsplit hids
  obtain ⟨before, after, hbody, hbefore, rfl⟩ := fixFrom_split (by simp) hids hsplit
  refine ⟨before, after, hbody, hbefore, padded_fixFrom ?_ _, answered_fixFrom hids after⟩
  intro reply hreply
  obtain ⟨id, -, rfl⟩ := List.mem_map.mp hreply
  exact ⟨id, rfl⟩

/-- A request with one call and two results for it. -/
def twoResults : Json :=
  Json.object [("messages", .arr [
    Json.object [("role", .str "assistant"), ("content", .arr [Json.object [
      ("type", .str "tool_use"), ("id", .str "a"), ("name", .str "f")]])],
    Json.object [("role", .str "user"), ("content", .arr [
      Json.object [("type", .str "tool_result"), ("tool_use_id", .str "a"), ("content", .str "1")],
      Json.object [("type", .str "tool_result"), ("tool_use_id", .str "a"),
        ("content", .str "2")]])]])]

/-- Both results are kept, so that call is answered twice. -/
theorem twoResults_answered_twice :
    ∃ (serde : SerdeJson) (message : Json) (after : List Json),
      (translate serde "m" twoResults true).get "messages" = some (.arr (message :: after)) ∧
      callIds message = some ["a"] ∧ answers "a" (toolRun after) = 2 := by
  let serde : SerdeJson := ⟨fun _ ↦ none, fun _ ↦ "", fun _ ↦ ""⟩
  let messages := fixMissingToolResponses (systemMessage twoResults ++ carried serde twoResults)
  have hsplit : messages = messages.headD .null :: messages.tail := by decide
  refine ⟨serde, messages.headD .null, messages.tail, ?_, by decide, by decide⟩
  rw [← hsplit]
  exact get_messages ..

end NullRouter.Translate.Request.ClaudeToOpenai
