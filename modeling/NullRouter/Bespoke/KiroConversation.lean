import NullRouter.Base.Lists
import NullRouter.Bespoke.KiroRequest

/-!
# Kiro's conversations

When the history and the current turn that `convert_messages` makes of an OpenAI message list are
well formed: users and assistants alternate, every message is there once and in order with all it
says, and the results of a turn's calls are in the turn after it. "Turns must alternate", "a tool
result belongs to a user turn", `crates/execute/src/bespoke/kiro/request.rs:8–13`.
-/

namespace NullRouter.Bespoke.Kiro

open NullRouter.Base NullRouter.Translate

/-! ## What a message says -/

/-- The parts of a message whose content is a list. -/
def contentParts (message : Json) : List Json := (arrayField message "content").getD []

/-- The text of a message's content. -/
def said (message : Json) : String :=
  match message.get "content" with
  | some (.str text) => text
  | some (.arr parts) => "\n".intercalate (parts.filterMap partText)
  | _ => ""

/-- The text that a message adds to a turn: an assistant's is trimmed, a system message's wrapped,
and a tool's is in its result. -/
def textOf (message : Json) : String :=
  if role message = "assistant" then trim (said message)
  else if role message = "tool" then ""
  else if role message = "system" then
    if said message = "" then "" else "<instructions>\n" ++ said message ++ "\n</instructions>"
  else said message

/-- The images of a message. -/
def imagesOf (message : Json) : List Json := (contentParts message).filterMap partImage

/-- The tool results of a message: a tool's message is one itself. -/
def resultsOf (message : Json) : List Json :=
  (if role message = "tool" then
    [resultEntry (textOrEmpty message "tool_call_id")
      ((message.get "is_error").bind Json.asBool = some true ∨
        message.strField "status" = some "error") (said message)]
  else []) ++ (contentParts message).filterMap partResult

/-- Every image of a message can be carried, or is named in the text. -/
def ImagesReadable (message : Json) : Prop :=
  ∀ part ∈ contentParts message, hasType "image_url" part = true ∨ hasType "image" part = true →
    (partImage part).isSome = true ∨ (partText part).isSome = true

/-- The ids of the tool uses of a turn. -/
def useIds (toolUses : List Json) : List String := toolUses.filterMap (·.strField "toolUseId")

/-- The ids of the calls of a message. -/
def callIds (message : Json) : List String :=
  if role message ≠ "assistant" then []
  else
    match arrayField message "tool_calls" with
    | some calls =>
      (calls.filter fun call ↦ ((call.get "function").bind (·.strField "name")).isSome).map
        (textOrEmpty · "id")
    | none => ((contentParts message).filter (hasType "tool_use")).map (textOrEmpty · "id")

/-! ## Well-formed conversations -/

/-- Users and assistants take turns. -/
def Alternates (turns : List Turn) : Prop := turns.IsChain fun a b ↦ a.isUser ≠ b.isUser

/-- Texts as paragraphs, less the empty ones. -/
def paragraphs (texts : List String) : String := "\n\n".intercalate (texts.filter (· ≠ ""))

/-- A turn carries a block of messages: all that they say in their order, each image and result
once; an assistant's turn carries one message. -/
structure Carries (block : List Json) (turn : Turn) : Prop where
  kind : if turn.isUser = true then ∀ message ∈ block, role message ≠ "assistant"
    else ∃ message, block = [message] ∧ role message = "assistant"
  content : turn.content = paragraphs (block.map textOf)
  images : turn.images = block.flatMap imagesOf
  readable : ∀ message ∈ block, ImagesReadable message
  results : turn.toolResults = block.flatMap resultsOf
  uses : useIds turn.toolUses = block.flatMap callIds

/-- The turns carry blocks that make up the messages; a turn that carries none is made up where no
message is a user's. -/
def Complete (messages : List Json) (turns : List Turn) : Prop :=
  ∃ blocks, blocks.flatten = messages ∧ List.Forall₂ Carries blocks turns ∧
    ([] ∈ blocks → ∀ message ∈ messages, role message = "assistant")

/-- The results of the calls of a turn are in the turn that follows it, and in no other. -/
def AnsweredNext (turns : List Turn) : Prop :=
  ∀ before turn after, turns = before ++ turn :: after → ∀ id ∈ useIds turn.toolUses,
    id ∉ useIds ((before ++ after.drop 1).flatMap Turn.toolResults)

/-- The turns that are sent: the history and the current one. -/
def Conversation.turns (conversation : Conversation) : List Turn :=
  conversation.history ++ [conversation.current]

/-- The conversation made of messages is well formed and complete. -/
def WellFormed (serde : Translate.SerdeJson) (messages : List Json) : Prop :=
  Alternates (convertMessages serde messages).turns ∧
    Complete messages (convertMessages serde messages).turns ∧
    AnsweredNext (convertMessages serde messages).turns

/-! ## Messages that are sent whole -/

/-- A message's turn has a place for all that it says: its images are readable; an assistant's and
a tool's message holds no image and no tool result among its parts; an assistant's text is all in
parts of type `text`, and a tool's text is not in parts. -/
structure Kept (message : Json) : Prop where
  readable : ImagesReadable message
  images : role message = "assistant" ∨ role message = "tool" → imagesOf message = []
  results : role message = "assistant" ∨ role message = "tool" →
    (contentParts message).filterMap partResult = []
  assistant : role message = "assistant" → ∀ parts, message.get "content" = some (.arr parts) →
    trim ("\n".intercalate (parts.filterMap partText)) = trim ("\n".intercalate (partTexts parts))
  tool : role message = "tool" → ∀ parts, message.get "content" = some (.arr parts) →
    "\n".intercalate (parts.filterMap partText) = ""

/-- Messages whose conversation is well formed: no two of assistants stand side by side; the last
is a user's, after an assistant's or alone, unless none is; each is kept; and the results of a
call stand after it, before the next message of an assistant. -/
structure InTurn (messages : List Json) : Prop where
  apart : messages.IsChain fun a b ↦ role a = "assistant" → role b ≠ "assistant"
  last : (∀ message ∈ messages, role message = "assistant") ∨ ∃ front message,
    messages = front ++ [message] ∧ role message ≠ "assistant" ∧
    ∀ previous ∈ front.getLast?, role previous = "assistant"
  kept : ∀ message ∈ messages, Kept message
  answered : ∀ before message after, messages = before ++ message :: after →
    ∀ id ∈ callIds message,
      id ∉ useIds ((before ++ after.dropWhile (role · ≠ "assistant")).flatMap resultsOf)

/-! ## One message -/

private theorem userParts_eq (message : Json) : userParts message =
    (said message, imagesOf message, (contentParts message).filterMap partResult) := by
  unfold userParts said imagesOf contentParts arrayField
  cases message.get "content" with
  | none => rfl
  | some content => cases content <;> rfl

private theorem resultEntry_inj {id : String} {errored : Bool} {text text' : String}
    (h : resultEntry id errored text = resultEntry id errored text') : text = text' := by
  have hcontent := congrArg (fun entry : Json ↦ ((entry.get "content").bind (·.at? 0)).bind
    (·.strField "text")) h
  simpa [resultEntry, Json.get_object, List.lookup_cons, Json.at?, Json.strField,
    Json.asStr] using hcontent

private theorem said_eq_text_iff (message : Json) : said message = textOrEmpty message "content" ↔
    ∀ parts, message.get "content" = some (.arr parts) →
      "\n".intercalate (parts.filterMap partText) = "" := by
  unfold said textOrEmpty Json.strField
  cases message.get "content" with
  | none => simp
  | some content => cases content <;> simp [Json.asStr]

private theorem assistantText_eq_iff (message : Json) :
    trim (said message) = (assistantParts message).1 ↔
      ∀ parts, message.get "content" = some (.arr parts) →
        trim ("\n".intercalate (parts.filterMap partText)) =
          trim ("\n".intercalate (partTexts parts)) := by
  have hempty : trim "" = "" := by decide +kernel
  unfold said assistantParts
  cases message.get "content" with
  | none => simp [hempty]
  | some content => cases content <;> simp [hempty]

section Turns

variable (serde : Translate.SerdeJson) {message : Json}

private theorem turnOf_assistant (h : role message = "assistant") :
    (turnOf serde message).content = (assistantParts message).1 ∧
      (turnOf serde message).images = [] ∧ (turnOf serde message).toolResults = [] := by
  rw [turnOf, if_pos h]
  exact ⟨rfl, rfl, rfl⟩

private theorem turnOf_tool (h : role message = "tool") :
    turnOf serde message = .user "" [] [toolResultFromMessage message] := by
  rw [turnOf, if_neg (by rw [h]; decide), if_pos h]

private theorem turnOf_user (h : role message ≠ "assistant") (ht : role message ≠ "tool") :
    turnOf serde message = .user (textOf message) (imagesOf message) (resultsOf message) := by
  rw [turnOf, if_neg h, if_neg ht, userParts_eq, textOf, if_neg h, if_neg ht, resultsOf,
    if_neg ht, List.nil_append]
  split
  · by_cases hsaid : said message = ""
    · simp [hsaid]
    · simp [hsaid]
  · rfl

/-- What a message says is in its turn exactly when the message is kept. -/
theorem kept_iff : Kept message ↔ ImagesReadable message ∧
    (turnOf serde message).content = textOf message ∧
    (turnOf serde message).images = imagesOf message ∧
    (turnOf serde message).toolResults = resultsOf message := by
  by_cases ha : role message = "assistant"
  · have ht : role message ≠ "tool" := by
      rw [ha]
      decide
    obtain ⟨hcontent, himages, hresults⟩ := turnOf_assistant serde ha
    have htext : textOf message = trim (said message) := by rw [textOf, if_pos ha]
    have hown : resultsOf message = (contentParts message).filterMap partResult := by
      rw [resultsOf, if_neg ht, List.nil_append]
    rw [hcontent, himages, hresults, htext, hown]
    constructor
    · intro h
      exact ⟨h.readable, ((assistantText_eq_iff message).mpr (h.assistant ha)).symm,
        (h.images (Or.inl ha)).symm, (h.results (Or.inl ha)).symm⟩
    · rintro ⟨hreadable, htrim, hi, hr⟩
      exact ⟨hreadable, fun _ ↦ hi.symm, fun _ ↦ hr.symm,
        fun _ ↦ (assistantText_eq_iff message).mp htrim.symm, fun h ↦ absurd h ht⟩
  · by_cases ht : role message = "tool"
    · have htext : textOf message = "" := by rw [textOf, if_neg ha, if_pos ht]
      rw [turnOf_tool serde ht, htext]
      simp only [Turn.content, Turn.images, Turn.toolResults, true_and, resultsOf, if_pos ht,
        toolResultFromMessage, List.singleton_append, List.cons.injEq]
      constructor
      · intro h
        refine ⟨h.readable, (h.images (Or.inr ht)).symm, ?_, (h.results (Or.inr ht)).symm⟩
        rw [(said_eq_text_iff message).mpr (h.tool ht)]
      · rintro ⟨hreadable, hi, hentry, hr⟩
        exact ⟨hreadable, fun _ ↦ hi.symm, fun _ ↦ hr.symm, fun h ↦ absurd h ha,
          fun _ ↦ (said_eq_text_iff message).mp (resultEntry_inj hentry).symm⟩
    · rw [turnOf_user serde ha ht]
      constructor
      · intro h
        exact ⟨h.readable, rfl, rfl, rfl⟩
      · intro h
        refine ⟨h.1, fun hr ↦ ?_, fun hr ↦ ?_, fun hr ↦ absurd hr ha, fun hr ↦ absurd hr ht⟩
        · exact absurd hr (by simp [ha, ht])
        · exact absurd hr (by simp [ha, ht])

private theorem useIds_turnOf : useIds (turnOf serde message).toolUses = callIds message := by
  rw [turnOf, callIds]
  by_cases hrole : role message = "assistant"
  · rw [if_pos hrole, if_neg (by simpa using hrole)]
    cases hcalls : arrayField message "tool_calls" with
    | some calls =>
      have hcall (call : Json) : (toolUseFromCall serde call).bind (·.strField "toolUseId") =
          if ((call.get "function").bind (·.strField "name")).isSome = true then
            some (textOrEmpty call "id") else none := by
        rw [toolUseFromCall]
        cases call.get "function" with
        | none => rfl
        | some function =>
          cases hname : function.strField "name" with
          | none => simp [hname]
          | some name =>
            simp only [Option.bind_some, hname, Option.map_some, Option.isSome_some, if_true]
            simp [Json.strField, Json.get_object, List.lookup_cons, Json.asStr]
      simp only [Turn.toolUses, Option.map_some, Option.getD_some, useIds,
        List.filterMap_filterMap, hcall]
      rw [← List.filterMap_eq_map, List.filterMap_filter]
      rfl
    | none =>
      simp only [Turn.toolUses, Option.map_none, Option.getD_none, assistantParts]
      unfold contentParts arrayField
      cases message.get "content" with
      | none => rfl
      | some content =>
        cases content with
        | arr parts =>
          simp [useIds, Json.asArray, List.filterMap_map, Function.comp_def, Json.strField,
            Json.get_object, List.lookup_cons, Json.asStr]
        | _ => rfl
  · rw [if_neg hrole, if_pos hrole]
    split
    · rfl
    · split <;> rfl

end Turns

/-! ## Blocks of messages -/

private theorem paragraphs_eq_empty {texts : List String} :
    paragraphs texts = "" ↔ texts.filter (· ≠ "") = [] := by
  rw [paragraphs]
  constructor
  · intro h
    cases hfilter : texts.filter (· ≠ "") with
    | nil => rfl
    | cons text rest =>
      have hne : text ≠ "" := by
        have hmem : text ∈ texts.filter (· ≠ "") := by
          rw [hfilter]
          exact List.mem_cons_self
        simpa using (List.mem_filter.mp hmem).2
      rw [hfilter] at h
      by_cases hrest : rest = []
      · subst hrest
        rw [String.intercalate_singleton] at h
        exact absurd h hne
      · rw [String.intercalate_cons_of_ne_nil hrest] at h
        simp only [String.append_eq_empty_iff] at h
        exact absurd h.1.1 hne
  · intro h
    rw [h, String.intercalate_nil]

private theorem paragraphs_concat (texts : List String) (text : String) :
    paragraphs (texts ++ [text]) = joinContent (paragraphs texts) text := by
  by_cases htext : text = ""
  · simp [paragraphs, joinContent, htext]
  · have hfilter : (texts ++ [text]).filter (· ≠ "") = texts.filter (· ≠ "") ++ [text] := by
      simp [htext]
    rw [joinContent, if_neg htext]
    split
    · next hempty =>
      rw [paragraphs, hfilter, paragraphs_eq_empty.mp hempty, List.nil_append,
        String.intercalate_singleton]
    · next hne =>
      rw [paragraphs, hfilter, String.intercalate_append_of_ne_nil
        (fun h ↦ hne (paragraphs_eq_empty.mpr h)) (by simp), String.intercalate_singleton]
      rfl

private theorem paragraphs_singleton (text : String) : paragraphs [text] = text := by
  by_cases htext : text = "" <;> simp [paragraphs, htext]

/-- The turn of a message that is kept carries it. -/
theorem Carries.one (serde : Translate.SerdeJson) {message : Json} (h : Kept message) :
    Carries [message] (turnOf serde message) := by
  obtain ⟨hreadable, hcontent, himages, hresults⟩ := (kept_iff serde).mp h
  refine ⟨?_, ?_, ?_, ?_, ?_, ?_⟩
  · split
    · next huser =>
      simpa using (isUser_turnOf serde message).mp huser
    · next huser =>
      rw [isUser_turnOf, not_not] at huser
      exact ⟨message, rfl, huser⟩
  · rw [List.map_singleton, paragraphs_singleton, hcontent]
  · rw [List.flatMap_singleton, himages]
  · simpa using hreadable
  · rw [List.flatMap_singleton, hresults]
  · rw [List.flatMap_singleton, useIds_turnOf]

/-- Two user turns merged carry the blocks of both. -/
theorem Carries.merge {block : List Json} {message : Json} {a b merged : Turn}
    (ha : Carries block a) (hb : Carries [message] b) (h : mergeTurns a b = some merged) :
    Carries (block ++ [message]) merged := by
  cases a with
  | assistant => cases h
  | user content images results =>
    cases b with
    | assistant => cases h
    | user content' images' results' =>
      cases h
      refine ⟨?_, ?_, ?_, ?_, ?_, ?_⟩
      · intro m hm
        rcases List.mem_append.mp hm with hm | hm
        · exact ha.kind m hm
        · exact hb.kind m hm
      · have hcontent := hb.content
        rw [List.map_singleton, paragraphs_singleton] at hcontent
        rw [List.map_append, List.map_singleton, paragraphs_concat, ← ha.content, ← hcontent]
        rfl
      · rw [List.flatMap_append, ← ha.images, ← hb.images]
        rfl
      · intro m hm
        rcases List.mem_append.mp hm with hm | hm
        · exact ha.readable m hm
        · exact hb.readable m hm
      · rw [List.flatMap_append, ← ha.results, ← hb.results]
        rfl
      · rw [List.flatMap_append, ← ha.uses, ← hb.uses]
        rfl

private theorem exists_history_blocks (serde : Translate.SerdeJson) {messages : List Json}
    (h : ∀ message ∈ messages, Kept message) :
    ∃ blocks, blocks.flatten = messages ∧ [] ∉ blocks ∧
      List.Forall₂ Carries blocks (mergeConsecutiveUsers (messages.map (turnOf serde))) :=
  exists_blocks (fun m hm ↦ .one serde (h m hm))
    (fun _ m hm _ _ hblock hmerged ↦ hblock.merge (.one serde (h m hm)) hmerged)

private theorem carries_nil : Carries [] (.user "" [] []) :=
  ⟨nofun, rfl, rfl, nofun, rfl, rfl⟩

/-! ## Turns and roles -/

private theorem mergeTurns_kind (a b merged : Turn) (h : mergeTurns a b = some merged) :
    merged.isUser = a.isUser ∧ merged.isUser = b.isUser := by
  cases a <;> cases b <;> cases h
  exact ⟨rfl, rfl⟩

private theorem mergeTurns_isSome (a b : Turn) :
    (mergeTurns a b).isSome = true ↔ a.isUser = true ∧ b.isUser = true := by
  cases a <;> cases b <;> simp [mergeTurns, Turn.isUser]

/-- The turns of a history alternate exactly when no two messages of assistants stand side by
side. -/
theorem alternates_history_iff (serde : Translate.SerdeJson) (messages : List Json) :
    Alternates (mergeConsecutiveUsers (messages.map (turnOf serde))) ↔
      messages.IsChain fun a b ↦ role a = "assistant" → role b ≠ "assistant" := by
  have hchain := @isChain_coalesce _ mergeTurns _ Turn.isUser mergeTurns_kind
    (fun a b ↦ a = true ∧ b = true) (fun a b ↦ a ≠ b) mergeTurns_isSome
    (messages.map (turnOf serde))
  rw [Alternates, mergeConsecutiveUsers, hchain, List.isChain_map]
  have hiff (a b : Json) : ((turnOf serde a).isUser = true ∧ (turnOf serde b).isUser = true) ∨
      (turnOf serde a).isUser ≠ (turnOf serde b).isUser ↔
        (role a = "assistant" → role b ≠ "assistant") := by
    have ha := isUser_turnOf serde a
    have hb := isUser_turnOf serde b
    cases hua : (turnOf serde a).isUser <;> cases hub : (turnOf serde b).isUser <;>
      simp_all
  simp only [hiff]

private theorem getLast?_history (serde : Translate.SerdeJson) (messages : List Json) :
    (mergeConsecutiveUsers (messages.map (turnOf serde))).getLast?.map Turn.isUser =
      messages.getLast?.map fun message ↦ (turnOf serde message).isUser := by
  rw [mergeConsecutiveUsers, getLast?_coalesce mergeTurns_kind, List.getLast?_map, Option.map_map]
  rfl

/-! ## Calls and their results -/

section Answered

variable {blocks : List (List Json)} {turns : List Turn}

private theorem Carries.role_of_user {block : List Json} {turn : Turn} (h : Carries block turn)
    (hturn : turn.isUser = true) : ∀ message ∈ block, role message ≠ "assistant" := by
  have hkind := h.kind
  rwa [if_pos hturn] at hkind

private theorem Carries.role_of_assistant {block : List Json} {turn : Turn}
    (h : Carries block turn) (hturn : turn.isUser = false) :
    ∃ message, block = [message] ∧ role message = "assistant" := by
  have hkind := h.kind
  rwa [if_neg (by simp [hturn])] at hkind

private theorem flatMap_results (h : List.Forall₂ Carries blocks turns) :
    turns.flatMap Turn.toolResults = blocks.flatten.flatMap resultsOf := by
  induction h with
  | nil => rfl
  | cons hturn _ ih =>
    rw [List.flatMap_cons, List.flatten_cons, List.flatMap_append, ih, hturn.results]

private theorem exists_turn_of_message (h : List.Forall₂ Carries blocks turns)
    {before after : List Json} {message : Json}
    (hflat : blocks.flatten = before ++ message :: after) (hrole : role message = "assistant") :
    ∃ earlier turn later front back, turns = front ++ turn :: back ∧
      List.Forall₂ Carries earlier front ∧ Carries [message] turn ∧
      List.Forall₂ Carries later back ∧ earlier.flatten = before ∧ later.flatten = after := by
  induction h generalizing before with
  | nil =>
    exfalso
    simp at hflat
  | @cons block turn blocks turns hturn hrest ih =>
    rw [List.flatten_cons, List.append_eq_append_iff] at hflat
    rcases hflat with ⟨rest, rfl, hrestEq⟩ | ⟨rest, hblock, hrestEq⟩
    · obtain ⟨earlier, turn', later, front, back, rfl, he, ht, hl, rfl, rfl⟩ := ih hrestEq
      exact ⟨block :: earlier, turn', later, turn :: front, back, rfl, .cons hturn he, ht, hl,
        rfl, rfl⟩
    · cases rest with
      | nil =>
        obtain ⟨earlier, turn', later, front, back, rfl, he, ht, hl, hbefore, rfl⟩ :=
          ih (show blocks.flatten = [] ++ message :: after from hrestEq.symm)
        refine ⟨block :: earlier, turn', later, turn :: front, back, rfl, .cons hturn he, ht, hl,
          ?_, rfl⟩
        rw [List.flatten_cons, hbefore, hblock, List.append_nil, List.append_nil]
      | cons next rest =>
        obtain ⟨rfl, rfl⟩ := List.cons_eq_cons.mp hrestEq
        cases hkind : turn.isUser with
        | true =>
          have hmem : message ∈ block := by
            rw [hblock]
            simp
          exact absurd hrole (hturn.role_of_user hkind message hmem)
        | false =>
          obtain ⟨own, rfl, -⟩ := hturn.role_of_assistant hkind
          obtain ⟨rfl, hown⟩ : before = [] ∧ own :: [] = message :: rest := by
            cases before with
            | nil => exact ⟨rfl, hblock⟩
            | cons b before => simp at hblock
          obtain ⟨rfl, rfl⟩ := List.cons_eq_cons.mp hown
          exact ⟨[], turn, blocks, [], turns, rfl, .nil, hturn, hrest, rfl, rfl⟩

/-- The messages from the next assistant's on are those of the turns but the first, where the
turns follow one of an assistant. -/
private theorem dropWhile_flatten {turn : Turn} (h : List.Forall₂ Carries blocks turns)
    (hturn : turn.isUser = false) (hchain : Alternates (turn :: turns)) :
    blocks.flatten.dropWhile (role · ≠ "assistant") = (blocks.drop 1).flatten := by
  cases h with
  | nil => rfl
  | @cons block user blocks turns huser hrest =>
    rw [Alternates, List.isChain_cons_cons, hturn] at hchain
    have hkind : user.isUser = true := by
      cases hu : user.isUser with
      | true => rfl
      | false => exact absurd hu.symm hchain.1
    have hblock : ∀ message ∈ block, decide (role message ≠ "assistant") = true := by
      intro message hmessage
      simpa using huser.role_of_user hkind message hmessage
    rw [List.flatten_cons, List.dropWhile_append_of_pos hblock, List.drop_succ_cons, List.drop_zero]
    cases hrest with
    | nil => rfl
    | @cons block' assistant blocks' turns' hassistant _ =>
      have hnext := (List.isChain_cons_cons.mp hchain.2).1
      rw [hkind] at hnext
      obtain ⟨message, rfl, hrole⟩ := hassistant.role_of_assistant (by simpa using hnext.symm)
      simp [hrole]

private theorem callIds_eq_nil {message : Json} (h : role message ≠ "assistant") :
    callIds message = [] := by
  rw [callIds, if_pos h]

/-- Where turns that alternate carry the blocks, the results are in the next turns exactly when
they stand before the next message of an assistant. -/
theorem answeredNext_iff (h : List.Forall₂ Carries blocks turns) (hchain : Alternates turns) :
    AnsweredNext turns ↔ ∀ before message after, blocks.flatten = before ++ message :: after →
      ∀ id ∈ callIds message,
        id ∉ useIds ((before ++ after.dropWhile (role · ≠ "assistant")).flatMap resultsOf) := by
  -- Around one turn the results elsewhere are those of the messages elsewhere.
  have haround {earlier later : List (List Json)} {front back : List Turn} {turn : Turn}
      (hturns : turns = front ++ turn :: back) (hturn : turn.isUser = false)
      (he : List.Forall₂ Carries earlier front) (hl : List.Forall₂ Carries later back) :
      (front ++ back.drop 1).flatMap Turn.toolResults = (earlier.flatten ++
        later.flatten.dropWhile (role · ≠ "assistant")).flatMap resultsOf := by
    rw [Alternates, hturns] at hchain
    rw [dropWhile_flatten hl hturn hchain.right_of_append, List.flatMap_append,
      List.flatMap_append, flatMap_results he, flatMap_results (List.forall₂_drop 1 hl)]
  constructor
  · intro hanswered before message after hflat id hid
    have hrole : role message = "assistant" := by
      by_contra hne
      rw [callIds_eq_nil hne] at hid
      cases hid
    obtain ⟨earlier, turn, later, front, back, hturns, he, ht, hl, rfl, rfl⟩ :=
      exists_turn_of_message h hflat hrole
    have hturn : turn.isUser = false := by
      cases hu : turn.isUser with
      | false => rfl
      | true => exact absurd hrole (ht.role_of_user hu message List.mem_cons_self)
    rw [← haround hturns hturn he hl]
    apply hanswered front turn back hturns
    rwa [ht.uses, List.flatMap_singleton]
  · intro hanswered front turn back hturns id hid
    rw [hturns] at h
    obtain ⟨earlier, rest, rfl, he, hrest⟩ := forall₂_append_right h
    cases hrest with
    | @cons block _ later _ ht hl =>
      have hturn : turn.isUser = false := by
        cases turn with
        | user => cases hid
        | assistant => rfl
      obtain ⟨message, rfl, -⟩ := ht.role_of_assistant hturn
      rw [ht.uses, List.flatMap_singleton] at hid
      rw [haround hturns hturn he hl]
      exact hanswered earlier.flatten message later.flatten (by simp) id hid

end Answered

/-! ## Whether a conversation is well formed -/

section WellFormed

variable {serde : Translate.SerdeJson} {messages : List Json}

private theorem turns_of_last (serde : Translate.SerdeJson)
    (h : (∀ message ∈ messages, role message = "assistant") ∨ ∃ front message,
      messages = front ++ [message] ∧ role message ≠ "assistant" ∧
      ∀ previous ∈ front.getLast?, role previous = "assistant") :
    ((∀ message ∈ messages, role message = "assistant") ∧ (convertMessages serde messages).turns =
      mergeConsecutiveUsers (messages.map (turnOf serde)) ++ [.user "" [] []]) ∨
    ∃ front message, messages = front ++ [message] ∧ role message ≠ "assistant" ∧
      (∀ previous ∈ front.getLast?, role previous = "assistant") ∧
      (convertMessages serde messages).turns =
        mergeConsecutiveUsers (front.map (turnOf serde)) ++ [turnOf serde message] := by
  rcases convertMessages_cases serde messages with
    ⟨hall, hconv⟩ | ⟨front, message, back, hmessages, hrole, hback, hconv⟩
  · left
    exact ⟨hall, by rw [hconv, Conversation.turns]⟩
  · right
    rcases h with hall | ⟨front', message', hlast, hrole', hprevious⟩
    · exact absurd (hall message (by simp [hmessages])) hrole
    · have hnil : back = [] := by
        rcases List.eq_nil_or_concat' back with rfl | ⟨back, final, rfl⟩
        · rfl
        · rw [hlast, ← List.cons_append, ← List.append_assoc] at hmessages
          obtain ⟨-, hfinal⟩ := List.append_inj' hmessages rfl
          obtain rfl := List.singleton_inj.mp hfinal
          exact absurd (hback message' (by simp)) hrole'
      subst hnil
      rw [hlast] at hmessages
      obtain ⟨rfl, hsame⟩ := List.append_inj' hmessages rfl
      obtain rfl := List.singleton_inj.mp hsame
      refine ⟨front', message', hlast, hrole, hprevious, ?_⟩
      rw [hconv, Conversation.turns, List.append_nil]

private theorem flatMap_turns {γ : Type} {measure : Turn → List γ}
    (hmerge : ∀ a b merged, mergeTurns a b = some merged → measure merged = measure a ++ measure b)
    (hempty : measure (.user "" [] []) = [])
    (h : (∀ message ∈ messages, role message = "assistant") ∨ ∃ front message,
      messages = front ++ [message] ∧ role message ≠ "assistant" ∧
      ∀ previous ∈ front.getLast?, role previous = "assistant") :
    (convertMessages serde messages).turns.flatMap measure =
      messages.flatMap fun message ↦ measure (turnOf serde message) := by
  rcases turns_of_last serde h with ⟨-, hturns⟩ | ⟨front, message, rfl, -, -, hturns⟩
  · rw [hturns, List.flatMap_append, List.flatMap_singleton, hempty, List.append_nil,
      mergeConsecutiveUsers, flatMap_coalesce hmerge, List.flatMap_map]
  · rw [hturns, List.flatMap_append, List.flatMap_append, List.flatMap_singleton,
      List.flatMap_singleton, mergeConsecutiveUsers, flatMap_coalesce hmerge, List.flatMap_map]

/-- Messages in turn make a conversation that is well formed and complete. -/
theorem wellFormed_of_inTurn (h : InTurn messages) : WellFormed serde messages := by
  have hturns : ∃ blocks, blocks.flatten = messages ∧
      List.Forall₂ Carries blocks (convertMessages serde messages).turns ∧
      ([] ∈ blocks → ∀ message ∈ messages, role message = "assistant") ∧
      Alternates (convertMessages serde messages).turns := by
    rcases turns_of_last serde h.last with
      ⟨hall, hturns⟩ | ⟨front, message, rfl, hrole, hprevious, hturns⟩
    · obtain ⟨blocks, hflat, -, hblocks⟩ := exists_history_blocks serde h.kept
      refine ⟨blocks ++ [[]], by simp [hflat], ?_, fun _ ↦ hall, ?_⟩
      · rw [hturns]
        exact List.rel_append hblocks (.cons carries_nil .nil)
      · rw [hturns, Alternates, List.isChain_append]
        refine ⟨(alternates_history_iff serde messages).mpr h.apart, .singleton _, ?_⟩
        intro last hlast turn hturn
        obtain rfl := Option.some.inj hturn
        have hkind := getLast?_history serde messages
        rw [hlast, Option.map_some] at hkind
        obtain ⟨message, hmessage, hrole⟩ := Option.map_eq_some_iff.mp hkind.symm
        have hassistant := hall message (List.mem_of_getLast? hmessage)
        rw [← hrole]
        intro huser
        exact (isUser_turnOf serde message).mp huser hassistant
    · obtain ⟨blocks, hflat, hne, hblocks⟩ :=
        exists_history_blocks serde fun m hm ↦ h.kept m (List.mem_append_left _ hm)
      refine ⟨blocks ++ [[message]], by simp [hflat], ?_, ?_, ?_⟩
      · rw [hturns]
        exact List.rel_append hblocks (.cons (.one serde (h.kept message (by simp))) .nil)
      · intro hmem
        simp [hne] at hmem
      · rw [hturns, Alternates, List.isChain_append]
        refine ⟨(alternates_history_iff serde front).mpr h.apart.left_of_append, .singleton _, ?_⟩
        intro last hlast turn hturn
        obtain rfl := Option.some.inj hturn
        have hkind := getLast?_history serde front
        rw [hlast, Option.map_some] at hkind
        obtain ⟨previous, hmessage, hsame⟩ := Option.map_eq_some_iff.mp hkind.symm
        rw [← hsame, (isUser_turnOf serde message).mpr hrole]
        intro huser
        exact (isUser_turnOf serde previous).mp huser (hprevious previous hmessage)
  obtain ⟨blocks, hflat, hblocks, hempty, hchain⟩ := hturns
  refine ⟨hchain, ⟨blocks, hflat, hblocks, hempty⟩, ?_⟩
  rw [answeredNext_iff hblocks hchain, hflat]
  exact h.answered

/-- A well-formed conversation takes the last message as the current one, unless none is a
user's. -/
private theorem last_of_wellFormed (h : WellFormed serde messages) :
    (∀ message ∈ messages, role message = "assistant") ∨ ∃ front message,
      messages = front ++ [message] ∧ role message ≠ "assistant" ∧
      ∀ previous ∈ front.getLast?, role previous = "assistant" := by
  obtain ⟨hchain, ⟨blocks, hflat, hblocks, hempty⟩, -⟩ := h
  rcases convertMessages_cases serde messages with
    ⟨hall, -⟩ | ⟨front, message, back, rfl, hrole, hback, hconv⟩
  · exact Or.inl hall
  · right
    have huser := (isUser_turnOf serde message).mpr hrole
    rw [hconv, Conversation.turns] at hblocks hchain
    have hnil : back = [] := by
      obtain ⟨earlier, rest, rfl, -, hrest⟩ := forall₂_append_right hblocks
      cases hrest with
      | @cons block _ _ _ hcurrent hnone =>
        cases hnone
        rcases List.eq_nil_or_concat' block with rfl | ⟨init, final, rfl⟩
        · exact absurd (hempty (by simp) message (by simp)) hrole
        · rcases List.eq_nil_or_concat' back with rfl | ⟨back, last, rfl⟩
          · rfl
          · rw [List.flatten_append, List.flatten_cons, List.flatten_nil, List.append_nil,
              ← List.append_assoc, ← List.cons_append, ← List.append_assoc] at hflat
            obtain ⟨-, hlast⟩ := List.append_inj' hflat rfl
            obtain rfl := List.singleton_inj.mp hlast
            exact absurd (hback final (by simp)) (hcurrent.role_of_user huser final (by simp))
    subst hnil
    refine ⟨front, message, rfl, hrole, ?_⟩
    intro previous hprevious
    rw [List.append_nil, Alternates, List.isChain_append] at hchain
    have hkind := getLast?_history serde front
    rw [hprevious, Option.map_some] at hkind
    obtain ⟨last, hlast, hsame⟩ := Option.map_eq_some_iff.mp hkind
    have hne := hchain.2.2 last hlast _ rfl
    rw [hsame, huser] at hne
    by_contra hassistant
    exact hne ((isUser_turnOf serde previous).mpr hassistant)

private theorem image_length_le (message : Json) :
    (turnOf serde message).images.length ≤ (imagesOf message).length := by
  by_cases ha : role message = "assistant"
  · rw [(turnOf_assistant serde ha).2.1]
    exact Nat.zero_le _
  · by_cases ht : role message = "tool"
    · rw [turnOf_tool serde ht]
      exact Nat.zero_le _
    · rw [turnOf_user serde ha ht]
      exact le_refl _

private theorem result_length_le (message : Json) :
    (turnOf serde message).toolResults.length ≤ (resultsOf message).length := by
  by_cases ha : role message = "assistant"
  · rw [(turnOf_assistant serde ha).2.2]
    exact Nat.zero_le _
  · by_cases ht : role message = "tool"
    · rw [turnOf_tool serde ht, resultsOf, if_pos ht, List.length_append]
      exact Nat.le_add_right 1 _
    · rw [turnOf_user serde ha ht]
      exact le_refl _

/-- The texts of the assistants' turns. -/
private def assistantText (turn : Turn) : List String :=
  if turn.isUser = true then [] else [turn.content]

private theorem flatMap_assistantText {blocks : List (List Json)} {turns : List Turn}
    (h : List.Forall₂ Carries blocks turns) : turns.flatMap assistantText =
      blocks.flatten.flatMap fun message ↦
        if role message = "assistant" then [textOf message] else [] := by
  induction h with
  | nil => rfl
  | @cons block turn blocks turns hturn _ ih =>
    rw [List.flatMap_cons, List.flatten_cons, List.flatMap_append, ih]
    congr 1
    cases hkind : turn.isUser with
    | true =>
      rw [assistantText, if_pos hkind, eq_comm, List.flatMap_eq_nil_iff]
      intro message hmessage
      rw [if_neg (hturn.role_of_user hkind message hmessage)]
    | false =>
      obtain ⟨message, rfl, hrole⟩ := hturn.role_of_assistant hkind
      rw [assistantText, if_neg (by simp [hkind]), List.flatMap_singleton, if_pos hrole,
        hturn.content, List.map_singleton, paragraphs_singleton]

private theorem flatMap_images {blocks : List (List Json)} {turns : List Turn}
    (h : List.Forall₂ Carries blocks turns) :
    turns.flatMap Turn.images = blocks.flatten.flatMap imagesOf := by
  induction h with
  | nil => rfl
  | cons hturn _ ih =>
    rw [List.flatMap_cons, List.flatten_cons, List.flatMap_append, ih, hturn.images]

private theorem readable_of_blocks {blocks : List (List Json)} {turns : List Turn}
    (h : List.Forall₂ Carries blocks turns) : ∀ message ∈ blocks.flatten,
      ImagesReadable message := by
  induction h with
  | nil => simp
  | cons hturn _ ih =>
    intro message hmessage
    rw [List.flatten_cons, List.mem_append] at hmessage
    rcases hmessage with hmessage | hmessage
    · exact hturn.readable message hmessage
    · exact ih message hmessage

private theorem kept_of_wellFormed (h : WellFormed serde messages) :
    ∀ message ∈ messages, Kept message := by
  have hlast := last_of_wellFormed h
  obtain ⟨-, ⟨blocks, hflat, hblocks, -⟩, -⟩ := h
  have himages := flatMap_images hblocks
  have hresults := flatMap_results hblocks
  have htexts := flatMap_assistantText hblocks
  rw [hflat, flatMap_turns (fun a b merged hm ↦ by cases a <;> cases b <;> cases hm; rfl) rfl hlast]
    at himages hresults htexts
  have himage := eq_of_flatMap_eq (fun m _ ↦ image_length_le m) himages
  have hresult := eq_of_flatMap_eq (fun m _ ↦ result_length_le m) hresults
  have htext := eq_of_flatMap_eq (fun m _ ↦ by
    have hkind := isUser_turnOf serde m
    by_cases hrole : role m = "assistant"
    · simp [assistantText, hkind, hrole]
    · simp [assistantText, hkind, hrole]) htexts
  intro message hmessage
  refine (kept_iff serde).mpr ⟨?_, ?_, himage message hmessage, hresult message hmessage⟩
  · apply readable_of_blocks hblocks
    rwa [hflat]
  · by_cases ha : role message = "assistant"
    · have hown := htext message hmessage
      have hkind : ¬ (turnOf serde message).isUser = true := by
        rw [isUser_turnOf, not_not]
        exact ha
      rw [assistantText, if_neg hkind, if_pos ha] at hown
      exact List.singleton_inj.mp hown
    · by_cases ht : role message = "tool"
      · rw [turnOf_tool serde ht, textOf, if_neg ha, if_pos ht]
        rfl
      · rw [turnOf_user serde ha ht]
        rfl

/-- The conversation made of messages is well formed and complete exactly when the messages are in
turn: nothing merges the current message with the ones before it, splits assistants that stand
side by side, or puts a trailing assistant's message behind the current one. -/
theorem wellFormed_iff (serde : Translate.SerdeJson) (messages : List Json) :
    WellFormed serde messages ↔ InTurn messages := by
  constructor
  · intro h
    have hlast := last_of_wellFormed h
    have hkept := kept_of_wellFormed h
    obtain ⟨hchain, ⟨blocks, hflat, hblocks, -⟩, hanswered⟩ := h
    rw [answeredNext_iff hblocks hchain, hflat] at hanswered
    refine ⟨?_, hlast, hkept, hanswered⟩
    rcases turns_of_last serde hlast with ⟨-, hturns⟩ | ⟨front, message, rfl, hrole, -, hturns⟩
    · rw [hturns] at hchain
      exact (alternates_history_iff serde messages).mp hchain.left_of_append
    · rw [hturns] at hchain
      refine List.IsChain.append ((alternates_history_iff serde front).mp hchain.left_of_append)
        (.singleton _) ?_
      intro a _ b hb _
      obtain rfl := Option.some.inj hb
      exact hrole
  · exact wellFormed_of_inTurn

/-- A tool's message. -/
def toolMessage (id text : String) : Json :=
  .obj [("content", .str text), ("role", .str "tool"), ("tool_call_id", .str id)]

/-- An OpenAI call of a tool. -/
def toolCall (id name : String) : Json :=
  .obj [("function", .obj [("name", .str name)]), ("id", .str id)]

/-- Two calls at once, and the messages with their results: the first result is a turn of the
history, and the second the current one after it. -/
theorem parallel_results_split :
    ¬ WellFormed ⟨fun _ ↦ none, fun _ ↦ "", fun _ ↦ ""⟩
      [.obj [("content", .str "read both"), ("role", .str "user")],
        .obj [("role", .str "assistant"),
          ("tool_calls", .arr [toolCall "a" "read", toolCall "b" "read"])],
        toolMessage "a" "one", toolMessage "b" "two"] := by
  rintro ⟨halternates, -, -⟩
  have hkinds := (List.isChain_map (R := fun a b : Bool ↦ a ≠ b) Turn.isUser).mpr halternates
  have hturns : (convertMessages ⟨fun _ ↦ none, fun _ ↦ "", fun _ ↦ ""⟩
      [.obj [("content", .str "read both"), ("role", .str "user")],
        .obj [("role", .str "assistant"),
          ("tool_calls", .arr [toolCall "a" "read", toolCall "b" "read"])],
        toolMessage "a" "one", toolMessage "b" "two"]).turns.map Turn.isUser =
      [true, false, true, true] := by decide +kernel
  rw [hturns] at hkinds
  exact absurd hkinds (by simp)

end WellFormed
end NullRouter.Bespoke.Kiro
