import Mathlib.Data.List.Flatten
import NullRouter.Translate.Passes

/-!
# Instructions on their way to Claude and Gemini

The texts of the system and developer messages of an OpenAI request, and where they stand in the
Claude request (`crates/translate/src/request/openai_to_claude.rs:52`) and in the Gemini request
(`openai_to_gemini.rs:85`) that it becomes. Texts are compared by what they hold apart from white
space, as the translators join them with lines or with nothing.
-/

namespace NullRouter.Translate.Instructions

open NullRouter.Base

/-- A text without its white space. -/
def words (text : String) : List Char := text.toList.filter (!isWhitespace ·)

/-- Whether a message is a system or a developer message. -/
def isInstruction (message : Json) : Bool :=
  message.strField "role" = some "system" || message.strField "role" = some "developer"

/-- The words of a content: of a string, or of the text blocks of an array. -/
def contentWords : Option Json → List Char
  | some (.str text) => words text
  | some (.arr parts) => (partTexts parts).flatMap words
  | _ => []

/-- The words of a message. -/
def messageWords (message : Json) : List Char := contentWords (message.get "content")

/-- The messages of an OpenAI request. -/
def messagesOf (body : Json) : List Json := (arrayField body "messages").getD []

/-- The words of the instructions of a request, in order. -/
def instructionWords (body : Json) : List Char :=
  ((messagesOf body).filter isInstruction).flatMap messageWords

/-- The words of a block or a part. -/
def partWords (part : Json) : List Char := words (textOrEmpty part "text")

/-- The words of the blocks of a Claude request's system prompt, after the product's own. -/
def claudeWords (request : Json) : List Char :=
  ((arrayField request "system").getD []).tail.flatMap partWords

/-- The words of a Gemini turn. -/
def turnWords (turn : Json) : List Char := ((arrayField turn "parts").getD []).flatMap partWords

/-- The words of a Gemini request where instructions stand: in the system instruction or, if
the request has a single message, in the conversation. -/
def geminiWords (messages : List Json) (request : Json) : List Char :=
  if messages.length = 1 then ((arrayField request "contents").getD []).flatMap turnWords
  else (request.get "systemInstruction").elim [] turnWords

/-- The instruction for a response format, as it is written to Claude. -/
def formatWords (serde : SerdeJson) (body : Json) : List Char :=
  ((body.get "response_format").bind (Request.OpenaiToClaude.jsonModeInstruction serde)).elim []
    words

/-- Instructions survive: the Claude request and the Gemini request of a request hold the words of
all of its instructions, in order. -/
def Survive (catalogue : Catalogue) (writer : GeminiWriter) (toClaude toGemini : RequestRoute)
    (stream : Bool) (ceiling : Nat) (body : Json) : Prop :=
  let claude := (translateRequest catalogue writer toClaude body stream ceiling).body
  let gemini := (translateRequest catalogue writer toGemini body stream ceiling).body
  claudeWords claude = instructionWords body ++ formatWords writer.serde body ∧
    instructionWords body <+: geminiWords (messagesOf body) gemini

/-- Of the instructions at most one is not blank, the last system message. -/
def OneInstruction (body : Json) : Prop :=
  (∀ message ∈ messagesOf body, message.strField "role" = some "developer" →
    messageWords message = []) ∧
  ∀ message ∈ ((messagesOf body).filter (·.strField "role" = some "system")).dropLast,
    messageWords message = []

section Words

private theorem words_append (a b : String) : words (a ++ b) = words a ++ words b := by
  rw [words, String.toList_append, List.filter_append]
  rfl

private theorem words_intercalate {separator : String} (h : words separator = [])
    (texts : List String) : words (separator.intercalate texts) = texts.flatMap words := by
  induction texts with
  | nil => rfl
  | cons text texts ih =>
    by_cases hnil : texts = []
    · subst hnil
      simp
    · rw [String.intercalate_cons_of_ne_nil hnil, words_append, words_append, h, ih,
        List.append_nil, List.flatMap_cons]

private theorem words_of_isEmpty {text : String} (h : text.isEmpty = true) : words text = [] := by
  rw [String.isEmpty_iff.mp h]
  rfl

private theorem flatMap_words_filter (texts : List String) :
    (texts.filter (!·.isEmpty)).flatMap words = texts.flatMap words := by
  induction texts with
  | nil => rfl
  | cons text texts ih =>
    by_cases h : text.isEmpty = true
    · rw [List.filter_cons_of_neg (by simpa using h), ih, List.flatMap_cons, words_of_isEmpty h,
        List.nil_append]
    · rw [List.filter_cons_of_pos (by simpa using h), List.flatMap_cons, List.flatMap_cons, ih]

private theorem words_extractTextContent {separator : String} (h : words separator = [])
    (content : Option Json) :
    words (extractTextContent content separator) = contentWords content := by
  rcases content with _ | value
  · rfl
  · cases value with
    | arr parts => rw [extractTextContent, contentWords, words_intercalate h, flatMap_words_filter]
    | _ => rfl

end Words

section Claude

open Request.OpenaiToClaude

private theorem claudeWords_buildSystem {request : Json} {parts : List String}
    (h : request.get "system" = some (buildSystem parts)) :
    claudeWords request = parts.flatMap words := by
  have hjoined := @words_intercalate "\n" rfl parts
  rw [claudeWords, arrayField, h, buildSystem]
  split
  · next hempty =>
    have hnil : parts.flatMap words = [] := by
      rcases hempty with rfl | hempty
      · rfl
      · rw [← hjoined, words_of_isEmpty hempty]
    rw [hnil]
    rfl
  · rw [← hjoined]
    simp [partWords, textOrEmpty, Json.strField, Json.get_object, List.lookup_cons, Json.asArray,
      Json.asStr]

/-- The words of the system messages. -/
private def systemWords (messages : List Json) : List Char :=
  (messages.filter (·.strField "role" = some "system")).flatMap messageWords

private theorem flatMap_filter (p : Json → Bool) (f : Json → List Char) (l : List Json) :
    (l.filter p).flatMap f = l.flatMap fun a ↦ if p a then f a else [] := by
  induction l with
  | nil => rfl
  | cons a l ih =>
    rw [List.filter_cons, List.flatMap_cons, ← ih]
    split <;> rfl

private theorem systemWords_sublist (messages : List Json) :
    (systemWords messages).Sublist ((messages.filter isInstruction).flatMap messageWords) := by
  have hsub : messages.filter (·.strField "role" = some "system") =
      (messages.filter isInstruction).filter (·.strField "role" = some "system") := by
    rw [List.filter_filter]
    refine List.filter_congr fun message _ ↦ ?_
    unfold isInstruction
    cases decide (message.strField "role" = some "system") <;> rfl
  rw [systemWords, hsub]
  exact List.filter_sublist.flatMap _

/-- The system messages hold the words of all instructions exactly when the developer messages
are blank. -/
private theorem systemWords_eq_iff (messages : List Json) :
    systemWords messages = (messages.filter isInstruction).flatMap messageWords ↔
      ∀ message ∈ messages, message.strField "role" = some "developer" →
        messageWords message = [] := by
  rw [systemWords, flatMap_filter, flatMap_filter, flatMap_eq_iff_of_sublist]
  · refine forall₂_congr fun message _ ↦ ?_
    unfold isInstruction
    by_cases hsystem : message.strField "role" = some "system"
    · simp [hsystem]
    · by_cases hdeveloper : message.strField "role" = some "developer"
      · simp only [hdeveloper, decide_true, Bool.or_true, ↓reduceIte, forall_const]
        exact eq_comm
      · simp [hsystem, hdeveloper]
  · intro message _
    unfold isInstruction
    cases decide (message.strField "role" = some "system")
    · exact List.nil_sublist _
    · exact List.Sublist.refl _

private theorem claudeWords_translateRequest (catalogue : Catalogue) (writer : GeminiWriter)
    {route : RequestRoute} (hsource : route.source = .openAi) (htarget : route.target = .claude)
    (stream : Bool) (ceiling : Nat) (body : Json) :
    claudeWords (translateRequest catalogue writer route body stream ceiling).body =
      systemWords (messagesOf body) ++ formatWords writer.serde body := by
  have hsystem : (translateRequest catalogue writer route body stream ceiling).body.get "system" =
      some (buildSystem (allSystemParts writer.serde body)) := by
    rw [body_translateRequest_claude catalogue writer hsource htarget,
      get_finishRequest (by decide) (by decide) (by decide)]
    simp only [Request.OpenaiToClaude.translate]
    rw [Json.get_object_append (by cases body.get "tool_choice" <;> simp),
      Json.get_object_append ?_, Json.get_object]
    · simp
    · by_cases h : ((arrayField body "tools").map convertTools).getD [] = [] <;> simp [h]
  rw [claudeWords_buildSystem hsystem, allSystemParts, List.flatMap_append]
  congr 1
  · rw [systemParts, List.flatMap_map]
    exact List.flatMap_congr fun message _ ↦ words_extractTextContent rfl _
  · rw [formatWords]
    cases (body.get "response_format").bind (jsonModeInstruction writer.serde) with
    | none => rfl
    | some text => exact List.flatMap_singleton ..

end Claude

section Gemini

open Request.OpenaiToGemini

/-- A part without text, or one that the media pass keeps. -/
private def Kept (part : Json) : Prop :=
  partWords part = [] ∨ Modality.capForGeminiPart part = none

private theorem kept_textPart (text : Json) : Kept (textPart text) := .inr rfl

private theorem partWords_inlinePart (mimeType data : String) :
    partWords (inlinePart mimeType data) = [] := rfl

private theorem partWords_textPart (item : Json) :
    partWords (textPart (fieldOrNull item "text")) = partWords item := by
  unfold partWords
  congr 1
  change ((some (fieldOrNull item "text")).bind Json.asStr).getD "" = _
  unfold fieldOrNull textOrEmpty Json.strField
  cases item.get "text" <;> rfl

private theorem contentPart_cases (item : Json) :
    (hasType "text" item = true ∧ contentPart item = some (textPart (fieldOrNull item "text"))) ∨
      (hasType "text" item = false ∧ ∀ part, contentPart item = some part →
        partWords part = []) := by
  unfold contentPart
  by_cases htext : hasType "text" item = true
  · exact .inl ⟨htext, if_pos htext⟩
  refine .inr ⟨by simpa using htext, ?_⟩
  rw [if_neg htext]
  intro part hpart
  split at hpart
  · obtain ⟨url, -, hurl⟩ := Option.bind_eq_some_iff.mp hpart
    split at hurl
    · obtain ⟨data, -, rfl⟩ := Option.map_eq_some_iff.mp hurl
      exact partWords_inlinePart ..
    · split at hurl
      · cases hurl
        rfl
      · cases hurl
  · split at hpart
    · obtain ⟨data, -, rfl⟩ := Option.map_eq_some_iff.mp hpart
      exact partWords_inlinePart ..
    · cases hpart

private theorem contentToParts_kept {content : Option Json} {part : Json}
    (h : part ∈ contentToParts content) : Kept part := by
  unfold contentToParts at h
  split at h
  · rw [List.mem_singleton.mp h]
    exact kept_textPart _
  · obtain ⟨item, -, hitem⟩ := List.mem_filterMap.mp h
    rcases contentPart_cases item with ⟨-, htext⟩ | ⟨-, hother⟩
    · rw [htext] at hitem
      cases hitem
      exact kept_textPart _
    · exact .inl (hother part hitem)
  · cases h

private theorem contentToParts_words (content : Option Json) :
    (contentToParts content).flatMap partWords = contentWords content := by
  rcases content with _ | value
  · rfl
  cases value with
  | str text => exact List.append_nil _
  | arr items =>
    simp only [contentToParts, contentWords, partTexts]
    induction items with
    | nil => rfl
    | cons item items ih =>
      rcases contentPart_cases item with ⟨htype, htext⟩ | ⟨htype, hother⟩
      · rw [List.filterMap_cons_some htext, List.flatMap_cons, ih, partWords_textPart,
          List.filter_cons_of_pos htype, List.filterMap_cons, partWords, textOrEmpty]
        cases item.strField "text" <;> rfl
      · rw [List.filter_cons_of_neg (by simp [htype]), ← ih]
        cases hpart : contentPart item with
        | none => rw [List.filterMap_cons_none hpart]
        | some part =>
          rw [List.filterMap_cons_some hpart, List.flatMap_cons, hother part hpart,
            List.nil_append]
  | _ => rfl

private theorem turnWords_strip {caps : Capabilities} {isLast : Bool} {note : String → Json}
    {content : Option Json} :
    contentWords content <+: (Modality.stripContent Modality.capForGeminiPart note caps isLast
      (contentToParts content)).flatMap partWords := by
  have hkept : ∀ parts : List Json, (∀ part ∈ parts, Kept part) →
      (parts.filter (!Modality.unread Modality.capForGeminiPart caps ·)).flatMap partWords =
        parts.flatMap partWords := by
    intro parts hparts
    induction parts with
    | nil => rfl
    | cons part parts ih =>
      have ih := ih fun p hp ↦ hparts p (List.mem_cons_of_mem _ hp)
      by_cases hunread : Modality.unread Modality.capForGeminiPart caps part = true
      · rw [List.filter_cons_of_neg (by simpa using hunread), ih, List.flatMap_cons]
        rcases hparts part (List.mem_cons_self ..) with hwords | hmedia
        · rw [hwords, List.nil_append]
        · rw [Modality.unread, hmedia] at hunread
          cases hunread
      · rw [List.filter_cons_of_pos (by simpa using hunread), List.flatMap_cons, ih,
          List.flatMap_cons]
  rw [Modality.stripContent, List.flatMap_append, hkept _ fun _ ↦ contentToParts_kept,
    contentToParts_words]
  exact List.prefix_append ..

private theorem contents_prefix_strip {caps : Capabilities} {content : Option Json} {body : Json}
    (h : arrayField body "contents" = some [turn "user" (contentToParts content)]) :
    contentWords content <+: ((arrayField (Modality.stripUnsupportedModalities .gemini caps body)
      "contents").getD []).flatMap turnWords := by
  have hparts : arrayField (turn "user" (contentToParts content)) "parts" =
      some (contentToParts content) := by
    simp [arrayField, turn, Json.get_object, Json.asArray]
  unfold Modality.stripUnsupportedModalities
  split
  · have hwords : ((arrayField body "contents").getD []).flatMap turnWords =
        contentWords content := by
      rw [h, Option.getD_some, List.flatMap_singleton, turnWords, hparts, Option.getD_some,
        contentToParts_words]
    exact hwords ▸ List.prefix_refl _
  · have hobject : body.asObject.isSome = true := by
      cases body with
      | obj fields => rfl
      | _ => cases h
    simp only [Modality.stripGeminiContents, Modality.stripMessages, h]
    rw [arrayField, Json.get_setField_self hobject, Option.bind_some, Json.asArray,
      Option.getD_some]
    simp only [List.mapIdx_cons, List.mapIdx_nil, hparts]
    rw [List.flatMap_singleton, turnWords, arrayField, Json.get_setField_self rfl,
      Option.bind_some, Json.asArray, Option.getD_some]
    exact turnWords_strip

private theorem contents_nil_strip {caps : Capabilities} {body : Json}
    (h : arrayField body "contents" = some []) :
    arrayField (Modality.stripUnsupportedModalities .gemini caps body) "contents" = some [] := by
  unfold Modality.stripUnsupportedModalities
  split
  · exact h
  · have hobject : body.asObject.isSome = true := by
      cases body with
      | obj fields => rfl
      | _ => cases h
    simp only [Modality.stripGeminiContents, Modality.stripMessages, h]
    rw [arrayField, Json.get_setField_self hobject]
    rfl

private theorem get_translate_contents (writer : GeminiWriter) (model : String) (body : Json) :
    arrayField (translate writer model body) "contents" = some (normalizeContents
      ((messagesOf body).flatMap (turnsOf writer.serde (messagesOf body)))) := by
  unfold Request.OpenaiToGemini.translate
  dsimp only
  rw [arrayField, Json.get_object_append ?_, Json.get_object]
  · simp [List.lookup_cons, Json.asArray, sourceMessages, messagesOf]
  · split <;> simp

private theorem get_translate_systemInstruction (writer : GeminiWriter) (model : String)
    (body : Json) : (translate writer model body).get "systemInstruction" =
      systemInstruction (messagesOf body) := by
  unfold Request.OpenaiToGemini.translate
  dsimp only
  rw [Json.get_object_append ?_, Json.get_object_append (by simp), Json.get_object]
  · change List.lookup _ (_ ++ ((systemInstruction (messagesOf body)).map _).toList).reverse = _
    cases systemInstruction (messagesOf body) <;> simp [List.lookup_cons]
  · split <;> simp

private theorem normalizeContents_turn {parts : List Json} (h : parts ≠ []) :
    normalizeContents [turn "user" parts] = [turn "user" parts] := by
  have hrole : ((turn "user" parts).strField "role").isNone = false := by
    simp [turn, Json.strField, Json.get_object, List.lookup_cons, Json.asStr]
  have hparts : (arrayField (turn "user" parts) "parts").getD [] = parts := by
    simp [arrayField, turn, Json.get_object, Json.asArray]
  simp [normalizeContents, addContent, hrole, hparts, h]

section Request

variable (catalogue : Catalogue) (writer : GeminiWriter) {route : RequestRoute}
  (hsource : route.source = .openAi)
  (htarget : route.target = .gemini ∨ route.target = .geminiCli ∨ route.target = .vertex)

include hsource htarget

private theorem contents_translateRequest (stream : Bool) (ceiling : Nat) (body : Json) :
    ∃ caps translated, arrayField translated "contents" = some (normalizeContents
        ((messagesOf body).flatMap (turnsOf writer.serde (messagesOf body)))) ∧
      arrayField (translateRequest catalogue writer route body stream ceiling).body "contents" =
        arrayField (Modality.stripUnsupportedModalities .gemini caps translated) "contents" := by
  have hgemini : ∀ caps b, Modality.stripUnsupportedModalities route.target caps b =
      Modality.stripUnsupportedModalities .gemini caps b := by
    intro caps b
    rcases htarget with h | h | h <;> rw [h] <;> rfl
  rw [body_translateRequest_gemini catalogue writer hsource htarget]
  refine ⟨catalogue.capabilities route.provider route.model,
    Thinking.apply catalogue route.target route.provider route.model
      (translate writer (Thinking.stripThinkingSuffix route.model) body)
      (Thinking.extractThinking body), ?_, ?_⟩
  · rw [arrayField, apply_same _ _ _ _ _ _ (by decide), ← arrayField, get_translate_contents]
  · rw [finishRequest, arrayField, stripUnsupportedParams_same _ _ _ _ (by decide), hgemini]
    rfl

private theorem geminiWords_single (stream : Bool) (ceiling : Nat) {body message : Json}
    (h : messagesOf body = [message]) :
    instructionWords body <+: geminiWords (messagesOf body)
        (translateRequest catalogue writer route body stream ceiling).body ↔
      (message.strField "role" = some "developer" → messageWords message = []) := by
  obtain ⟨caps, translated, htranslated, hbody⟩ :=
    contents_translateRequest catalogue writer hsource htarget stream ceiling body
  rw [geminiWords, h, if_pos (List.length_singleton ..), hbody, instructionWords, h]
  rw [h, List.flatMap_singleton] at htranslated
  have hrole : textOrEmpty message "role" = (message.strField "role").getD "" := rfl
  by_cases hsystem : message.strField "role" = some "system"
  · have hwords : ([message].filter isInstruction).flatMap messageWords =
        contentWords (message.get "content") := by
      simp [isInstruction, hsystem, messageWords]
    have hturns : turnsOf writer.serde [message] message =
        if contentToParts (message.get "content") = [] then []
        else [turn "user" (contentToParts (message.get "content"))] := by
      simp [turnsOf, Request.OpenaiToGemini.isInstruction, hrole, hsystem]
    refine iff_of_true ?_ (by simp [hsystem])
    rw [hwords]
    by_cases hnil : contentToParts (message.get "content") = []
    · rw [← contentToParts_words, hnil]
      exact List.nil_prefix
    · rw [hturns, if_neg hnil, normalizeContents_turn hnil] at htranslated
      exact contents_prefix_strip htranslated
  · by_cases hdeveloper : message.strField "role" = some "developer"
    · have hwords : ([message].filter isInstruction).flatMap messageWords = messageWords message := by
        simp [isInstruction, hdeveloper]
      have hturns : turnsOf writer.serde [message] message = [] := by
        simp [turnsOf, hrole, hdeveloper]
      rw [hturns] at htranslated
      rw [hwords, contents_nil_strip htranslated]
      simp [hdeveloper]
    · have hwords : ([message].filter isInstruction).flatMap messageWords = [] := by
        simp [isInstruction, hsystem, hdeveloper]
      rw [hwords]
      exact iff_of_true List.nil_prefix (absurd · hdeveloper)

private theorem geminiWords_several (stream : Bool) (ceiling : Nat) {body : Json}
    (h : (messagesOf body).length ≠ 1) :
    geminiWords (messagesOf body)
        (translateRequest catalogue writer route body stream ceiling).body =
      (((messagesOf body).filter (·.strField "role" = some "system")).getLast?).elim []
        messageWords := by
  have hfilter : (messagesOf body).filter (Request.OpenaiToGemini.isInstruction (messagesOf body)) =
      (messagesOf body).filter (·.strField "role" = some "system") := by
    refine List.filter_congr fun message hmessage ↦ ?_
    have hlength : 1 < (messagesOf body).length := by
      have := List.length_pos_of_mem hmessage
      omega
    rw [Request.OpenaiToGemini.isInstruction, decide_eq_true hlength, Bool.and_true, textOrEmpty]
    cases message.strField "role" with
    | none => rfl
    | some role =>
      rw [Option.getD_some, beq_eq_decide]
      simp
  rw [geminiWords, if_neg h, body_translateRequest_gemini catalogue writer hsource htarget,
    get_finishRequest (by decide) (by decide) (by decide), get_translate_systemInstruction,
    systemInstruction, hfilter]
  cases ((messagesOf body).filter (·.strField "role" = some "system")).getLast? with
  | none => rfl
  | some message =>
    rw [Option.map_some, Option.elim_some, Option.elim_some, messageWords,
      ← @words_extractTextContent "" rfl]
    simp [turnWords, turn, textPart, partWords, arrayField, textOrEmpty, Json.get_object,
      Json.asArray, Json.strField, Json.asStr]

end Request

end Gemini

section Both

private theorem last_eq_flatMap_iff (f : Json → List Char) (l : List Json) :
    (l.getLast?).elim [] f = l.flatMap f ↔ ∀ a ∈ l.dropLast, f a = [] := by
  rcases l.eq_nil_or_concat with rfl | ⟨init, last, rfl⟩
  · simp
  · simp [List.flatMap_append]

/-- The last system message holds the words of all instructions exactly when the others are
blank. -/
private theorem prefix_last_iff (body : Json) :
    instructionWords body <+:
      (((messagesOf body).filter (·.strField "role" = some "system")).getLast?).elim
        [] messageWords ↔ OneInstruction body := by
  have hlast : ((((messagesOf body).filter (·.strField "role" = some "system")).getLast?).elim []
      messageWords).Sublist (systemWords (messagesOf body)) := by
    rw [systemWords]
    rcases ((messagesOf body).filter (·.strField "role" = some "system")).eq_nil_or_concat with
      hnil | ⟨init, last, hconcat⟩
    · rw [hnil]
      exact List.Sublist.refl _
    · rw [hconcat]
      simp [List.flatMap_append]
  have hsystem := systemWords_sublist (messagesOf body)
  rw [OneInstruction, ← systemWords_eq_iff, ← last_eq_flatMap_iff, ← systemWords]
  constructor
  · intro h
    have heq := hsystem.antisymm (h.sublist.trans hlast)
    exact ⟨heq, hlast.antisymm (heq ▸ h.sublist)⟩
  · rintro ⟨heq, hlast⟩
    rw [hlast, heq]
    exact List.prefix_refl _

/-- Instructions survive exactly when only the last system message says something. -/
theorem survive_iff (catalogue : Catalogue) (writer : GeminiWriter)
    {toClaude toGemini : RequestRoute} (hclaude : toClaude.source = .openAi)
    (hgemini : toGemini.source = .openAi) (htoClaude : toClaude.target = .claude)
    (htoGemini : toGemini.target = .gemini ∨ toGemini.target = .geminiCli ∨
      toGemini.target = .vertex)
    (stream : Bool) (ceiling : Nat) (body : Json) :
    Survive catalogue writer toClaude toGemini stream ceiling body ↔ OneInstruction body := by
  have hsystem : claudeWords (translateRequest catalogue writer toClaude body stream ceiling).body =
      instructionWords body ++ formatWords writer.serde body ↔ ∀ message ∈ messagesOf body,
        message.strField "role" = some "developer" → messageWords message = [] := by
    rw [claudeWords_translateRequest catalogue writer hclaude htoClaude, List.append_left_inj,
      instructionWords, systemWords_eq_iff]
  rw [Survive, hsystem]
  by_cases hone : (messagesOf body).length = 1
  · obtain ⟨message, hmessage⟩ := List.length_eq_one_iff.mp hone
    rw [geminiWords_single catalogue writer hgemini htoGemini stream ceiling hmessage,
      OneInstruction, hmessage]
    have hdrop : ([message].filter (·.strField "role" = some "system")).dropLast = [] := by
      cases h : decide (message.strField "role" = some "system") <;> simp_all
    rw [hdrop]
    simp
  · rw [geminiWords_several catalogue writer hgemini htoGemini stream ceiling hone,
      prefix_last_iff]
    exact and_iff_right_of_imp And.left

end Both

/-- A request of two messages. -/
def twoMessages (first firstText second secondText : String) : Json :=
  .obj [("messages", .arr [.obj [("content", .str firstText), ("role", .str first)],
    .obj [("content", .str secondText), ("role", .str second)]])]

/-- Routes to models that the tables do not list. -/
def unlistedTo (target : Format) : RequestRoute := ⟨.openAi, target, "unlisted", "unlisted"⟩

/-- A system message survives. -/
theorem system_message_survives : Survive .unlisted .placeholder (unlistedTo .claude)
    (unlistedTo .gemini) false 64000 (twoMessages "system" "Be brief." "user" "Hello") := by
  refine (survive_iff .unlisted .placeholder rfl rfl rfl (.inl rfl) false 64000 _).mpr ⟨?_, ?_⟩
  · intro message hmessage hrole
    have hmessage : message = .obj [("content", .str "Be brief."), ("role", .str "system")] ∨
        message = .obj [("content", .str "Hello"), ("role", .str "user")] := by
      simpa [messagesOf, twoMessages, arrayField, Json.get, Json.asArray] using hmessage
    rcases hmessage with rfl | rfl <;> exact absurd hrole (by decide)
  · intro message hmessage
    cases hmessage

/-- A developer message is lost. -/
theorem developer_message_is_lost : ¬ Survive .unlisted .placeholder (unlistedTo .claude)
    (unlistedTo .gemini) false 64000 (twoMessages "developer" "Be brief." "user" "Hello") := by
  rintro ⟨hclaude, -⟩
  rw [claudeWords_translateRequest .unlisted .placeholder rfl rfl] at hclaude
  exact absurd hclaude (by decide)

end NullRouter.Translate.Instructions
