import NullRouter.Stream.Relay
import NullRouter.Translate.Response.GrokWebToOpenai

/-!
# The answer in a stream of Grok's

What a client is shown of an answer that `crates/translate/src/response/grok_web_to_openai.rs` reads
twice, in tokens and as a whole message.
-/

namespace NullRouter.Stream

open NullRouter.Base NullRouter.Translate NullRouter.Translate.Response.GrokWebToOpenai

/-- Grok's events on their way to OpenAI chunks. -/
def grokWeb (write : Json → String) : Pivot GrokState where
  translate := translate write
  finish := some Response.GrokWebToOpenai.finish
  shared := GrokState.toStreamState
  upstreamThread _ := none
  upstreamAnswer _ := none

/-- The chunks of a stream of Grok's that ended. -/
def grokStream (write : Json → String) (events : List Json) (s : GrokState) : List Json :=
  let relayed := through (translate write) events s
  relayed.1 ++ (grokWeb write).closing relayed.2

/-- The response of an event, which is no error. -/
def Responds (event response : Json) : Prop :=
  event.get "error" = none ∧ event.pointer ["result", "response"] = some response

/-- An event with a token of the answer. -/
def IsToken (event : Json) (token : String) : Prop :=
  ∃ response, Responds event response ∧ response.get "modelResponse" = none ∧
    response.strField "token" = some token

/-- The event with the whole message. -/
def IsWholeMessage (event : Json) (message : String) : Prop :=
  ∃ response modelResponse, Responds event response ∧
    response.get "modelResponse" = some modelResponse ∧
    modelResponse.strField "message" = some message

/-- A stream of a mode that does not think, when a part of the answer is out. -/
structure Told (told : String) (s : GrokState) : Prop where
  plain : s.grokThinking = false
  emitted : s.grokEmitted = told

section Step

variable {write : Json → String} {told : String} {s : GrokState} {event response : Json}

private theorem told_identify (h : Told told s) : Told told (identify s) := by
  rw [identify]
  split
  · exact h
  · exact ⟨h.plain, h.emitted⟩

private theorem told_chunkMeta (h : Told told s) : Told told (chunkMeta s).2 :=
  ⟨h.plain, h.emitted⟩

private theorem shownContent_emit (text : String) (s : GrokState) :
    shownContent (emit (Json.object [("content", .str text)]) none s).1 = text := by
  rw [emit, shownContent_buildChunk, Json.strField, Json.get_object]
  rfl

private theorem translate_responds (h : Responds event response) (s : GrokState) :
    translate write event s = respond response (identify s) := by
  have hobject : event.asObject.isNone = false := by
    cases event with
    | obj fields => rfl
    | _ => exact absurd h.2 nofun
  simp only [Response.GrokWebToOpenai.translate, hobject, Bool.false_eq_true, if_false, h.1, h.2]

private theorem token_spec {token : String} (hevent : IsToken event token) (h : Told told s) :
    shownContent (translate write event s).1 = token ∧
      Told (told ++ token) (translate write event s).2 := by
  obtain ⟨response, hresponds, hnone, htoken⟩ := hevent
  have hs := told_identify h
  rw [translate_responds hresponds, respond, hnone]
  simp only [Response.GrokWebToOpenai.token, htoken]
  by_cases hempty : token = ""
  · subst hempty
    rw [String.append_empty]
    exact ⟨rfl, hs.plain, hs.emitted⟩
  · have hkept : (some token).filter (!·.isEmpty) = some token := by
      simp only [Option.filter_some, String.isEmpty_iff, Bool.not_eq_eq_eq_not, Bool.not_true,
        Bool.eq_false_iff, ne_eq, hempty, not_false_eq_true, if_true]
    rw [hkept]
    simp only [hs.plain, Bool.false_and, Bool.false_eq_true, if_false]
    exact ⟨shownContent_emit token _, told_chunkMeta ⟨rfl, congrArg (· ++ token) hs.emitted⟩⟩

private theorem wholeMessage_spec {rest : String} (hevent : IsWholeMessage event (told ++ rest))
    (h : Told told s) : shownContent (translate write event s).1 = rest := by
  obtain ⟨response, modelResponse, hresponds, hwhole, hmessage⟩ := hevent
  have hs := told_identify h
  rw [translate_responds hresponds, respond, hwhole]
  simp only [wholeMessage, hmessage, Option.getD_some, hs.plain, Bool.false_eq_true, if_false,
    hs.emitted, getFrom_append]
  split
  · next hempty =>
    have hrest := (String.append_eq_empty_iff.mp (String.isEmpty_iff.mp hempty)).2
    rw [hrest]
    rfl
  · split
    · next hempty =>
      rw [String.isEmpty_iff.mp hempty]
      rfl
    · exact shownContent_emit rest _

private theorem tokens_spec {tokens : List (Json × String)}
    (htokens : ∀ token ∈ tokens, IsToken token.1 token.2) (h : Told told s) :
    let relayed := through (translate write) (tokens.map Prod.fst) s
    shownContent relayed.1 = String.join (tokens.map Prod.snd) ∧
      Told (told ++ String.join (tokens.map Prod.snd)) relayed.2 := by
  induction tokens generalizing told s with
  | nil => exact ⟨rfl, h.plain, h.emitted.trans String.append_empty.symm⟩
  | cons token tokens ih =>
    obtain ⟨htoken, hrest⟩ := List.forall_mem_cons.mp htokens
    obtain ⟨hshown, htold⟩ := @token_spec write _ _ _ _ htoken h
    obtain ⟨hlater, hlast⟩ := ih hrest htold
    rw [String.append_assoc] at hlast
    simp only [List.map_cons, through, String.join_cons, shownContent_append]
    exact ⟨by rw [hshown, hlater], hlast⟩

end Step

private theorem shownContent_closing (write : Json → String) (s : GrokState) :
    shownContent ((grokWeb write).closing s) = "" := by
  have hdelta := (closingChunk_fields (Response.GrokWebToOpenai.finish s).1.1
    (Response.GrokWebToOpenai.finish s).1.2).1
  rw [Pivot.closing, Pivot.toOpenAi, grokWeb]
  simp only [Option.elim_some, shownContent, List.map_singleton, String.join_cons, String.join_nil,
    String.append_empty, chunkText, hdelta, Option.bind_some]
  rfl

/-- In a mode that does not think, tokens and a whole message that goes on from them are shown as
the message, once. -/
theorem grokStream_content (write : Json → String) {s : GrokState}
    (hthinking : s.grokThinking = false) (hemitted : s.grokEmitted = "")
    {tokens : List (Json × String)} (htokens : ∀ token ∈ tokens, IsToken token.1 token.2) {last : Json} {message : String}
    (hlast : IsWholeMessage last message)
    (hstart : (String.join (tokens.map Prod.snd)).toList <+: message.toList) :
    shownContent (grokStream write (tokens.map Prod.fst ++ [last]) s) = message := by
  obtain ⟨rest, hsplit⟩ := hstart
  have hmessage : message = String.join (tokens.map Prod.snd) ++ String.ofList rest := by
    rw [← String.toList_inj, String.toList_append, String.toList_ofList, hsplit]
  obtain ⟨hshown, htold⟩ := @tokens_spec write "" s _ htokens ⟨hthinking, hemitted⟩
  rw [String.empty_append] at htold
  rw [hmessage] at hlast
  rw [grokStream, shownContent_append, shownContent_closing, String.append_empty, through_append,
    shownContent_append, hshown, through, through, List.append_nil,
    wholeMessage_spec hlast htold, ← hmessage]

/-- An event with a response. -/
def responseEvent (response : Json) : Json :=
  Json.object [("result", Json.object [("response", response)])]

private theorem isToken_responseEvent (token : String) :
    IsToken (responseEvent (Json.object [("token", .str token)])) token := by
  refine ⟨Json.object [("token", .str token)], ⟨?_, ?_⟩, ?_, ?_⟩
  · exact Json.get_object ..
  · rfl
  · exact Json.get_object ..
  · rfl

/-- Two tokens, and a message that goes on from them beyond ASCII. -/
theorem grokStream_content_beyond_ascii :
    let tokens := ["ca", "fé"].map fun token ↦
      (responseEvent (Json.object [("token", .str token)]), token)
    let last := responseEvent (Json.object
      [("modelResponse", Json.object [("message", .str "café ☕")])])
    shownContent (grokStream (fun _ ↦ "") (tokens.map Prod.fst ++ [last]) { clock := fun _ ↦ 5 }) =
      "café ☕" := by
  apply grokStream_content _ rfl rfl
  · intro token hmem
    obtain ⟨text, -, rfl⟩ := List.mem_map.mp hmem
    exact isToken_responseEvent text
  · exact ⟨_, _, ⟨rfl, rfl⟩, rfl, rfl⟩
  · decide +kernel

end NullRouter.Stream
