import NullRouter.Translate.Passes
import NullRouter.Translate.Request.GeminiToOpenai

/-!
# Media that a model is sent and cannot read

Where the media of a request stand in each format's own spelling, and what is left of them after
the media pass of `translate_request` (`crates/translate/src/lib.rs:182`,
`crates/translate/src/modality.rs`).
-/

namespace NullRouter.Translate.UnreadMedia

open NullRouter.Base Modality

/-- The media of a block of a chat message. -/
def chatMedia (block : Json) : List Modality := (capForOpenaiBlock block).toList

/-- The media of a block of a Claude message, with those in the result of a tool. -/
def claudeMedia (block : Json) : List Modality :=
  (capForClaudeBlock block).toList ++
    if hasType "tool_result" block then
      ((arrayField block "content").getD []).filterMap capForClaudeBlock
    else []

/-- The type of the data of a Gemini part, in camel case or in snake case. -/
def geminiMime (part : Json) : Option String :=
  ((part.get "inlineData").or (part.get "fileData")).bind fun data ↦
    (data.strField "mimeType").or (data.strField "mime_type")

/-- The media of a Gemini part. -/
def geminiMedia (part : Json) : List Modality := ((geminiMime part).bind capForMime).toList

/-- The media of a content part of a Responses item. -/
def responsesMedia (part : Json) : List Modality :=
  (capForResponsesPart part).toList ++ if hasType "input_audio" part then [.audio] else []

/-- The ways to spell the media of a request. -/
inductive Spelling where
  | chat
  | claude
  | gemini
  | responses
  | ollama
  deriving DecidableEq

/-- The spelling of a format; a format that no translator writes gets OpenAI's chat request. -/
def spelling : Format → Spelling
  | .claude => .claude
  | .gemini | .geminiCli | .vertex => .gemini
  | .openAiResponses => .responses
  | .ollama => .ollama
  | .openAi | .codex | .antigravity | .kiro | .cursor | .commandCode | .grokWeb
  | .perplexityWeb => .chat

/-- The key that a conversation stands under. -/
def listKey : Spelling → String
  | .gemini => "contents"
  | .responses => "input"
  | .chat | .claude | .ollama => "messages"

/-- The media of an entry of a conversation. -/
def entryMedia (spelling : Spelling) (entry : Json) : List Modality :=
  let blocks := fun key ↦ (arrayField entry key).getD []
  match spelling with
  | .chat => (blocks "content").flatMap chatMedia
  | .claude => (blocks "content").flatMap claudeMedia
  | .gemini => (blocks "parts").flatMap geminiMedia
  | .responses => (blocks "content").flatMap responsesMedia
  | .ollama => (blocks "images").map fun _ ↦ .vision

/-- The media of a request in a spelling. -/
def mediaOf (spelling : Spelling) (body : Json) : List Modality :=
  ((arrayField body (listKey spelling)).getD []).flatMap (entryMedia spelling)

/-- A model reads all of some media. -/
def Readable (caps : Capabilities) (media : List Modality) : Prop :=
  ∀ medium ∈ media, lacks caps medium = false

/-- The media in the results of tools that a chat message carries. -/
def resultMedia (message : Json) : List Modality :=
  let nested := fun v ↦ ((arrayField v "content").getD []).filterMap capForClaudeBlock
  if message.strField "role" = some "tool" then nested message
  else if message.strField "role" = some "user" then
    (((arrayField message "content").getD []).filter (hasType "tool_result")).flatMap nested
  else []

/-- The media of a chat message's parts that Gemini is sent inline. -/
def inlineMedia (messages : List Json) (message : Json) : List Modality :=
  if message.strField "role" = some "user" ∨
      (message.strField "role" = some "system" ∧ messages.length = 1) then
    (Request.OpenaiToGemini.contentToParts (message.get "content")).flatMap fun part ↦
      (((part.get "inlineData").bind (·.strField "mime_type")).bind capForMime).toList
  else []

/-- The images of a chat message that Ollama is sent. -/
def ollamaImages (message : Json) : List Modality :=
  if message.strField "role" = some "tool" ∨
      (message.strField "role" = some "assistant" ∧ (arrayField message "tool_calls").isSome) then []
  else (Request.OpenaiToOllama.extractImages (message.get "content")).map fun _ ↦ .vision

/-- The audio of the `input` that a chat request may hold. -/
def strayAudio (body : Json) : List Modality :=
  ((arrayField body "input").getD []).flatMap fun item ↦
    (((arrayField item "content").getD []).filter (hasType "input_audio")).map fun _ ↦ .audio

/-- The media of a request in OpenAI's format that its translation keeps out of the sight of the
media pass: those in the results of tools (Claude), those sent inline (Gemini), images beside the
content (Ollama), audio (Responses). -/
def unseen (route : RequestRoute) (body : Json) : List Modality :=
  let messages := (arrayField body "messages").getD []
  match spelling route.target with
  | .chat => []
  | .claude => if (rulesOf route).any (·.flattenContent) then [] else messages.flatMap resultMedia
  | .gemini => messages.flatMap (inlineMedia messages)
  | .responses => strayAudio body
  | .ollama => messages.flatMap ollamaImages

/-- The media of a request that no pass takes out: all of them between equal formats. -/
def left (serde : SerdeJson) (route : RequestRoute) (body : Json) (stream : Bool) :
    List Modality :=
  if route.source.equivalent route.target then mediaOf (spelling route.target) body
  else unseen route
    (sourceToOpenai serde route.source (Thinking.stripThinkingSuffix route.model) body stream)

section Readable

variable {caps : Capabilities} {media more : List Modality}

private theorem readable_append :
    Readable caps (media ++ more) ↔ Readable caps media ∧ Readable caps more := by
  unfold Readable
  simp only [List.mem_append, or_imp, forall_and]

private theorem readable_flatMap {α : Type} {f : α → List Modality} {l : List α} :
    Readable caps (l.flatMap f) ↔ ∀ a ∈ l, Readable caps (f a) := by
  unfold Readable
  simp only [List.mem_flatMap, forall_exists_index, and_imp]
  exact ⟨fun h a ha m ↦ h m a ha, fun h m a ha ↦ h a ha m⟩

private theorem readable_nil : Readable caps [] := fun _ h ↦ absurd h List.not_mem_nil

private theorem readable_of_all (h : (caps.vision && caps.audioInput && caps.pdf) = true)
    (media : List Modality) : Readable caps media := by
  simp only [Bool.and_eq_true] at h
  intro medium _
  cases medium <;> simp [lacks, h]

end Readable

section Pass

variable {listKey contentKey : String} {capOf : Json → Option Modality} {note : String → Json}
  {caps : Capabilities} {body : Json}

private theorem isSome_asObject_of_arrayField {v : Json} {key : String} {items : List Json}
    (h : arrayField v key = some items) : v.asObject.isSome = true := by
  cases v with
  | obj fields => rfl
  | _ => cases h

private theorem readable_stripContent {media : Json → List Modality} {isLast : Bool}
    (hnote : ∀ text, media (note text) = []) (content : List Json) :
    Readable caps ((stripContent capOf note caps isLast content).flatMap media) ↔
      ∀ block ∈ content, unread capOf caps block = false → Readable caps (media block) := by
  rw [stripContent, List.flatMap_append, readable_append, readable_flatMap]
  have hnotes : ∀ l : List Modality, (l.map fun cap ↦
      note (if isLast then cap.placeholderCurrent else cap.placeholderPrev)).flatMap media = [] := by
    intro l
    rw [List.flatMap_eq_nil_iff]
    intro block hblock
    obtain ⟨cap, -, rfl⟩ := List.mem_map.mp hblock
    exact hnote _
  rw [hnotes]
  constructor
  · rintro ⟨h, -⟩ block hblock hread
    exact h block (List.mem_filter.mpr ⟨hblock, by rw [hread]; rfl⟩)
  · intro h
    refine ⟨fun block hblock ↦ ?_, readable_nil⟩
    obtain ⟨hmem, hread⟩ := List.mem_filter.mp hblock
    exact h block hmem (by simpa using hread)

/-- An entry of a list after the media pass. -/
private def strippedEntry (contentKey : String) (capOf : Json → Option Modality)
    (note : String → Json) (caps : Capabilities) (isLast : Bool) (entry : Json) : Json :=
  match arrayField entry contentKey with
  | none => entry
  | some content =>
    entry.setField contentKey (.arr (stripContent capOf note caps isLast content))

private theorem readable_stripMessages {media : Json → List Modality}
    (hnote : ∀ text, media (note text) = []) :
    Readable caps (((arrayField (stripMessages listKey contentKey capOf note caps body)
        listKey).getD []).flatMap fun entry ↦
          ((arrayField entry contentKey).getD []).flatMap media) ↔
      ∀ entry ∈ (arrayField body listKey).getD [], ∀ block ∈ (arrayField entry contentKey).getD [],
        unread capOf caps block = false → Readable caps (media block) := by
  unfold stripMessages
  cases hlist : arrayField body listKey with
  | none =>
    simp only [hlist, Option.getD_none]
    simp [readable_nil]
  | some entries =>
    simp only [Option.getD_some]
    rw [arrayField_setField (isSome_asObject_of_arrayField hlist), Option.getD_some,
      readable_flatMap]
    have hentry : ∀ (isLast : Bool) (entry : Json), Readable caps
        (((arrayField (strippedEntry contentKey capOf note caps isLast entry)
          contentKey).getD []).flatMap media) ↔ ∀ block ∈ (arrayField entry contentKey).getD [],
            unread capOf caps block = false → Readable caps (media block) := by
      intro isLast entry
      rw [strippedEntry]
      cases hcontent : arrayField entry contentKey with
      | none =>
        simp only [hcontent, Option.getD_none]
        simp [readable_nil]
      | some content =>
        simp only [Option.getD_some]
        rw [arrayField_setField (isSome_asObject_of_arrayField hcontent), Option.getD_some]
        exact readable_stripContent hnote content
    constructor
    · intro h entry hmem
      obtain ⟨i, hi, rfl⟩ := List.mem_iff_getElem.mp hmem
      exact (hentry _ _).mp (h _ (List.mem_mapIdx.mpr ⟨i, hi, rfl⟩))
    · intro h entry hmem
      obtain ⟨i, hi, rfl⟩ := List.mem_mapIdx.mp hmem
      exact (hentry _ _).mpr (h _ (List.getElem_mem hi))

end Pass

section Params

open ParamRules

variable {body : Json} {rule : StripRule}

/-- A message with its text parts joined. -/
private def flattened (message : Json) : Json :=
  match arrayField message "content" with
  | none => message
  | some parts => message.setField "content" (.str (String.join (partTexts parts)))

private theorem arrayField_applyRule (h : "messages" ∉ rule.drop) (ceiling : Nat) :
    arrayField (applyRule ceiling body rule) "messages" =
      (arrayField body "messages").map fun messages ↦
        if rule.flattenContent then messages.map flattened else messages := by
  have hclamp : ∀ (key : String) (limit : Nat) (v : Json), key ≠ "messages" →
      (clampNumber key limit v).get "messages" = v.get "messages" := by
    intro key limit v hkey
    unfold clampNumber
    split
    · exact Json.get_setField_of_ne hkey.symm
    · rfl
  have herased : (rule.drop.foldl Json.eraseField body).get "messages" = body.get "messages" := by
    rw [Json.get_foldl_eraseField, if_neg h]
  have hflat : arrayField (if rule.flattenContent then
      flattenContentArrays (rule.drop.foldl Json.eraseField body)
      else rule.drop.foldl Json.eraseField body) "messages" =
      (arrayField body "messages").map fun messages ↦
        if rule.flattenContent then messages.map flattened else messages := by
    cases rule.flattenContent with
    | false =>
      simp only [Bool.false_eq_true, ↓reduceIte]
      rw [arrayField, herased]
      exact Option.map_id'.symm
    | true =>
      simp only [↓reduceIte]
      have hmessages : arrayField (rule.drop.foldl Json.eraseField body) "messages" =
          arrayField body "messages" := by
        rw [arrayField, herased, ← arrayField]
      unfold flattenContentArrays
      cases hlist : arrayField body "messages" with
      | none => simp only [hmessages, hlist, Option.map_none]
      | some messages =>
        simp only [hmessages, hlist, Option.map_some]
        exact arrayField_setField (isSome_asObject_of_arrayField (hmessages.trans hlist)) _
  unfold applyRule
  dsimp only
  cases ceilingOf rule ceiling with
  | none => exact hflat
  | some limit =>
    rw [arrayField, hclamp _ _ _ (by decide), hclamp _ _ _ (by decide), hclamp _ _ _ (by decide),
      ← arrayField, hflat]

private theorem arrayField_flattened (message : Json) :
    arrayField (flattened message) "content" = none := by
  unfold flattened
  cases h : arrayField message "content" with
  | none => exact h
  | some parts =>
    simp only []
    rw [arrayField, Json.get_setField_self (isSome_asObject_of_arrayField h)]
    rfl

private theorem flattened_flattened (message : Json) :
    flattened (flattened message) = flattened message := by
  have h := arrayField_flattened message
  generalize flattened message = v at h ⊢
  rw [flattened, h]

private theorem arrayField_foldl_applyRule (ceiling : Nat) (rules : List StripRule)
    (h : ∀ rule ∈ rules, "messages" ∉ rule.drop) (body : Json) :
    arrayField (rules.foldl (applyRule ceiling) body) "messages" =
      (arrayField body "messages").map fun messages ↦
        if rules.any (·.flattenContent) then messages.map flattened else messages := by
  induction rules generalizing body with
  | nil => exact Option.map_id'.symm
  | cons rule rules ih =>
    rw [List.foldl_cons, ih (fun r hr ↦ h r (List.mem_cons_of_mem _ hr)),
      arrayField_applyRule (h rule (List.mem_cons_self ..)), Option.map_map]
    congr 1
    funext messages
    rw [Function.comp_apply, List.any_cons]
    cases rule.flattenContent <;> cases rules.any (·.flattenContent) <;>
      simp [Function.comp_def, flattened_flattened]

/-- The parameter rules keep the media of a request, unless one joins the parts of its
messages. -/
private theorem mediaOf_stripUnsupportedParams (spelling : Spelling) (provider model : String)
    (ceiling : Nat) (body : Json) :
    mediaOf spelling (stripUnsupportedParams provider model ceiling body) =
      if (spelling = .chat ∨ spelling = .claude) ∧
        (rules.filter (·.applies provider model)).any (·.flattenContent) then []
      else mediaOf spelling body := by
  have hdrop : ∀ rule ∈ rules.filter (·.applies provider model), "messages" ∉ rule.drop := by
    intro rule hrule
    have hrule := (List.mem_filter.mp hrule).1
    simp only [rules, List.mem_cons, List.not_mem_nil, or_false] at hrule
    rcases hrule with rfl | rfl | rfl | rfl | rfl | rfl | rfl <;> decide
  have hmessages := arrayField_foldl_applyRule ceiling _ hdrop body
  have hother : ∀ key, key ∉ paramKeys →
      arrayField (stripUnsupportedParams provider model ceiling body) key = arrayField body key :=
    fun key hkey ↦ congrArg (·.bind Json.asArray) (stripUnsupportedParams_same _ _ _ key hkey)
  have hcontent : ∀ media : Json → List Modality, (((arrayField (stripUnsupportedParams provider
      model ceiling body) "messages").getD []).flatMap fun message ↦
        ((arrayField message "content").getD []).flatMap media) =
      if (rules.filter (·.applies provider model)).any (·.flattenContent) then []
      else ((arrayField body "messages").getD []).flatMap fun message ↦
        ((arrayField message "content").getD []).flatMap media := by
    intro media
    rw [stripUnsupportedParams, hmessages]
    cases arrayField body "messages" with
    | none => simp
    | some messages =>
      cases (rules.filter (·.applies provider model)).any (·.flattenContent) <;>
        simp [arrayField_flattened]
  cases spelling with
  | chat =>
    simp only [true_or, true_and]
    exact hcontent chatMedia
  | claude =>
    simp only [or_true, true_and]
    exact hcontent claudeMedia
  | gemini => simp [mediaOf, listKey, hother "contents" (by decide)]
  | responses => simp [mediaOf, listKey, hother "input" (by decide)]
  | ollama =>
    rw [if_neg (by simp), mediaOf, mediaOf, listKey, stripUnsupportedParams, hmessages]
    cases arrayField body "messages" with
    | none => rfl
    | some messages =>
      have hentry : ∀ message, entryMedia .ollama (flattened message) =
          entryMedia .ollama message := by
        intro message
        unfold flattened
        split
        · rfl
        · simp only [entryMedia]
          rw [arrayField, Json.get_setField_of_ne (by decide), ← arrayField]
      cases (rules.filter (·.applies provider model)).any (·.flattenContent) <;>
        simp [List.flatMap_map, hentry]

end Params

section Passes

variable {caps : Capabilities}

/-- The media that the pass leaves of a request in a spelling. -/
private def Passed (caps : Capabilities) (spelling : Spelling) (body : Json) : Prop :=
  ∀ entry ∈ (arrayField body (listKey spelling)).getD [],
    match spelling with
    | .chat => True
    | .claude => ∀ block ∈ (arrayField entry "content").getD [], hasType "tool_result" block = true →
        Readable caps (((arrayField block "content").getD []).filterMap capForClaudeBlock)
    | .gemini => ∀ part ∈ (arrayField entry "parts").getD [],
        unread capForGeminiPart caps part = false → Readable caps (geminiMedia part)
    | .responses => ∀ part ∈ (arrayField entry "content").getD [],
        hasType "input_audio" part = true → Readable caps [.audio]
    | .ollama => Readable caps (entryMedia .ollama entry)

private theorem passed_congr {spelling : Spelling} {a b : Json}
    (h : arrayField a (listKey spelling) = arrayField b (listKey spelling)) :
    Passed caps spelling a ↔ Passed caps spelling b := by
  rw [Passed, h, Passed]

private theorem readable_seen {capOf : Json → Option Modality} {block : Json}
    (h : unread capOf caps block = false) : Readable caps (capOf block).toList := by
  intro medium hmedium
  rw [unread] at h
  cases hcap : capOf block with
  | none =>
    rw [hcap] at hmedium
    cases hmedium
  | some cap =>
    rw [hcap] at h hmedium
    rw [List.mem_singleton.mp hmedium]
    simpa using h

private theorem hasType_textNote (kind text : String) :
    (textNote kind text).strField "type" = some kind := by
  simp [textNote, Json.strField, Json.get_object, List.lookup_cons, Json.asStr]

private theorem stripUnsupportedModalities_eq (target : Format) (caps : Capabilities)
    (body : Json) : stripUnsupportedModalities target caps body =
      if caps.vision && caps.audioInput && caps.pdf then body
      else match spelling target with
        | .claude => stripClaudeMessages caps body
        | .responses => stripResponsesInput caps body
        | .gemini => stripGeminiContents caps body
        | .chat | .ollama => stripOpenaiMessages caps body := by
  unfold stripUnsupportedModalities
  cases target <;> rfl

private theorem readable_stripUnsupportedModalities (target : Format) (body : Json) :
    Readable caps (mediaOf (spelling target) (stripUnsupportedModalities target caps body)) ↔
      Passed caps (spelling target) body := by
  rw [stripUnsupportedModalities_eq]
  generalize spelling target = spelling
  by_cases hall : (caps.vision && caps.audioInput && caps.pdf) = true
  · refine iff_of_true (readable_of_all hall _) ?_
    intro entry _
    have hread := fun media ↦ readable_of_all hall media
    cases spelling <;> simp [hread]
  rw [if_neg hall]
  cases spelling with
  | chat =>
    refine (readable_stripMessages fun text ↦ ?_).trans (iff_of_true ?_ fun _ _ ↦ trivial)
    · simp [chatMedia, capForOpenaiBlock, hasType, hasType_textNote]
    · exact fun _ _ _ _ hread ↦ readable_seen hread
  | claude =>
    refine (readable_stripMessages fun text ↦ ?_).trans ?_
    · simp [claudeMedia, capForClaudeBlock, hasType, hasType_textNote]
    · refine forall₄_congr fun entry _ block _ ↦ ?_
      rw [claudeMedia, readable_append]
      by_cases hresult : hasType "tool_result" block = true
      · have hcap : capForClaudeBlock block = none := by
          unfold hasType at hresult
          simp [capForClaudeBlock, hasType, beq_iff_eq.mp hresult]
        simp [hresult, unread, hcap, readable_nil]
      · rw [if_neg hresult]
        exact iff_of_true (fun hread ↦ ⟨readable_seen hread, readable_nil⟩)
          fun h ↦ absurd h hresult
  | gemini =>
    refine (readable_stripMessages fun text ↦ ?_).trans Iff.rfl
    simp [geminiMedia, geminiMime, Json.get_object, List.lookup_cons]
  | responses =>
    refine (readable_stripMessages fun text ↦ ?_).trans ?_
    · simp [responsesMedia, capForResponsesPart, hasType, hasType_textNote]
    · refine forall₄_congr fun entry _ part _ ↦ ?_
      rw [responsesMedia, readable_append]
      by_cases haudio : hasType "input_audio" part = true
      · have hcap : capForResponsesPart part = none := by
          unfold hasType at haudio
          simp [capForResponsesPart, hasType, beq_iff_eq.mp haudio]
        simp [haudio, unread, hcap, readable_nil]
      · rw [if_neg haudio]
        exact iff_of_true (fun hread ↦ ⟨readable_seen hread, readable_nil⟩)
          fun h ↦ absurd h haudio
  | ollama =>
    rw [mediaOf, listKey, readable_flatMap, Passed, listKey]
    unfold stripOpenaiMessages stripMessages
    cases hlist : arrayField body "messages" with
    | none => simp only [hlist, Option.getD_none]
    | some messages =>
      simp only [Option.getD_some]
      rw [arrayField_setField (isSome_asObject_of_arrayField hlist), Option.getD_some]
      have hentry : ∀ (isLast : Bool) (message : Json), entryMedia .ollama
          (match arrayField message "content" with
            | none => message
            | some content => message.setField "content" (.arr
                (stripContent capForOpenaiBlock (textNote "text") caps isLast content))) =
          entryMedia .ollama message := by
        intro isLast message
        cases arrayField message "content" with
        | none => rfl
        | some content =>
          simp only [entryMedia]
          rw [arrayField, Json.get_setField_of_ne (by decide), ← arrayField]
      constructor
      · intro h message hmem
        obtain ⟨i, hi, rfl⟩ := List.mem_iff_getElem.mp hmem
        exact (congrArg (Readable caps) (hentry _ _)).mp
          (h _ (List.mem_mapIdx.mpr ⟨i, hi, rfl⟩))
      · intro h message hmem
        obtain ⟨i, hi, rfl⟩ := List.mem_mapIdx.mp hmem
        exact (congrArg (Readable caps) (hentry _ _)).mpr (h _ (List.getElem_mem hi))

end Passes

section Drafts

variable {caps : Capabilities}

section Ollama

open Request.OpenaiToOllama

private theorem entryMedia_normalizeMessage (serde : SerdeJson)
    (names : Std.ExtTreeMap String String) (message : Json) :
    ((normalizeMessage serde names message).toList.flatMap (entryMedia .ollama)) =
      ollamaImages message := by
  unfold normalizeMessage ollamaImages
  have htool := @textOrEmpty_eq_iff message "role" "tool" (by decide)
  have hassistant :=
    @textOrEmpty_eq_iff message "role" "assistant" (by decide)
  simp only [← htool, ← hassistant]
  generalize textOrEmpty message "role" = role
  by_cases hrole : role = "tool"
  · rw [if_pos hrole, if_pos (Or.inl hrole : role = "tool" ∨ _)]
    split
    · rfl
    · simp [entryMedia, arrayField, Json.get_object, List.lookup_cons]
  · rw [if_neg hrole]
    by_cases hcalls : role = "assistant" ∧ (arrayField message "tool_calls").isSome = true
    · obtain ⟨calls, hsome⟩ := Option.isSome_iff_exists.mp hcalls.2
      rw [if_pos (Or.inr hcalls : role = "tool" ∨ _), if_pos hcalls.1, hsome]
      simp [entryMedia, arrayField, Json.get_object, List.lookup_cons]
    · have hnone : (if role = "assistant" then arrayField message "tool_calls" else none) = none := by
        split
        · next h => simpa [h] using hcalls
        · rfl
      rw [if_neg (not_or.mpr ⟨hrole, hcalls⟩), hnone]
      generalize extractImages (message.get "content") = images
      simp only []
      split
      · next hempty =>
        rw [hempty.2.1]
        rfl
      · by_cases himages : images = []
        · simp [himages, entryMedia, arrayField, Json.get_object, List.lookup_cons]
        · simp [himages, entryMedia, arrayField, Json.get_object, Json.asArray,
            Function.comp_def]

private theorem arrayField_translate_ollama (serde : SerdeJson) (model : String) (body : Json)
    (stream : Bool) : arrayField (translate serde model body stream) "messages" =
      (arrayField body "messages").map fun messages ↦
        messages.filterMap (normalizeMessage serde (callNames messages)) := by
  have hget : (translate serde model body stream).get "messages" =
      some (normalizeMessages serde body) := by
    unfold Request.OpenaiToOllama.translate
    dsimp only
    rw [Json.get_object_append ?_, Json.get_object_append ?_, Json.get_object_append ?_,
      Json.get_object]
    · simp [List.lookup_cons]
    · split <;> simp
    · cases arrayField body "tools" <;> simp
    · cases (body.get "tool_choice").filter (!·.isNull) <;> simp
  rw [arrayField, hget, Option.bind_some, normalizeMessages]
  cases hlist : arrayField body "messages" with
  | some messages => rfl
  | none =>
    rw [arrayField] at hlist
    rw [fieldOrNull]
    cases hmessages : body.get "messages" with
    | none => rfl
    | some value =>
      rw [hmessages] at hlist
      exact hlist

private theorem passed_ollama (serde : SerdeJson) (model : String) (body : Json) (stream : Bool) :
    Passed caps .ollama (translate serde model body stream) ↔
      Readable caps (((arrayField body "messages").getD []).flatMap ollamaImages) := by
  rw [Passed, listKey, arrayField_translate_ollama, readable_flatMap]
  cases arrayField body "messages" with
  | none => simp
  | some messages =>
    simp only [Option.map_some, Option.getD_some, List.mem_filterMap]
    constructor
    · intro h message hmem
      rw [← entryMedia_normalizeMessage serde (callNames messages) message, readable_flatMap]
      intro entry hentry
      exact h entry ⟨message, hmem, Option.mem_toList.mp hentry⟩
    · rintro h entry ⟨message, hmem, hentry⟩
      have := h message hmem
      rw [← entryMedia_normalizeMessage serde (callNames messages) message, readable_flatMap] at this
      exact this entry (Option.mem_toList.mpr hentry)

end Ollama

section Gemini

open Request.OpenaiToGemini

/-- What the media pass leaves of a part. -/
private def PassedPart (caps : Capabilities) (part : Json) : Prop :=
  unread capForGeminiPart caps part = false → Readable caps (geminiMedia part)

private theorem passedPart_of_none {part : Json} (hinline : part.get "inlineData" = none)
    (hfile : part.get "fileData" = none) : PassedPart caps part := by
  intro _
  rw [geminiMedia, geminiMime, hinline, hfile]
  exact readable_nil

private theorem token?_object (fields : List (String × Json)) (key : String) :
    (Json.object fields).token? key = (Json.object fields).get key := rfl

private theorem passedPart_inlinePart (mimeType data : String) :
    PassedPart caps (inlinePart mimeType data) ↔ Readable caps (capForMime mimeType).toList := by
  have hunread : unread capForGeminiPart caps (inlinePart mimeType data) = false := by
    simp [unread, capForGeminiPart, inlinePart, Json.pointer, token?_object, Json.get_object,
      List.lookup_cons]
  have hmedia : geminiMedia (inlinePart mimeType data) = (capForMime mimeType).toList := by
    simp [geminiMedia, geminiMime, inlinePart, Json.strField, Json.get_object, List.lookup_cons,
      Json.asStr]
  rw [PassedPart, hunread, hmedia]
  exact ⟨fun h ↦ h rfl, fun h _ ↦ h⟩

private theorem passedPart_file (url : String) : PassedPart caps (Json.object [("fileData",
    Json.object [("fileUri", .str url), ("mimeType", .str "image/*")])]) := by
  intro hunread
  have hsame : geminiMedia (Json.object [("fileData", Json.object [("fileUri", .str url),
      ("mimeType", .str "image/*")])]) = (capForGeminiPart (Json.object [("fileData", Json.object
        [("fileUri", .str url), ("mimeType", .str "image/*")])])).toList := by
    simp [geminiMedia, geminiMime, capForGeminiPart, Json.pointer, token?_object, Json.strField,
      Json.get_object, List.lookup_cons, Json.asStr]
  rw [hsame]
  exact readable_seen hunread

/-- The media of a content part that Gemini is sent inline. -/
private def inlineOf (part : Json) : List Modality :=
  (((part.get "inlineData").bind (·.strField "mime_type")).bind capForMime).toList

private theorem passedPart_contentPart {item part : Json} (h : contentPart item = some part) :
    PassedPart caps part ↔ Readable caps (inlineOf part) := by
  have hinline : ∀ mimeType data, PassedPart caps (inlinePart mimeType data) ↔
      Readable caps (inlineOf (inlinePart mimeType data)) := by
    intro mimeType data
    rw [passedPart_inlinePart]
    simp [inlineOf, inlinePart, Json.strField, Json.get_object, List.lookup_cons, Json.asStr]
  unfold contentPart at h
  split at h
  · cases h
    exact iff_of_true (passedPart_of_none rfl rfl) readable_nil
  · split at h
    · obtain ⟨url, -, hurl⟩ := Option.bind_eq_some_iff.mp h
      split at hurl
      · obtain ⟨data, -, rfl⟩ := Option.map_eq_some_iff.mp hurl
        exact hinline _ _
      · split at hurl
        · cases hurl
          exact iff_of_true (passedPart_file _) readable_nil
        · cases hurl
    · split at h
      · obtain ⟨data, -, rfl⟩ := Option.map_eq_some_iff.mp h
        exact hinline _ _
      · cases h

private theorem passedParts_contentToParts (content : Option Json) :
    (∀ part ∈ contentToParts content, PassedPart caps part) ↔
      Readable caps ((contentToParts content).flatMap inlineOf) := by
  rw [readable_flatMap]
  refine forall₂_congr fun part hpart ↦ ?_
  unfold contentToParts at hpart
  split at hpart
  · rw [List.mem_singleton.mp hpart]
    exact iff_of_true (passedPart_of_none rfl rfl) readable_nil
  · obtain ⟨item, -, hitem⟩ := List.mem_filterMap.mp hpart
    exact passedPart_contentPart hitem
  · cases hpart

private theorem passedPart_assistantTurns {serde : SerdeJson}
    {names : Std.ExtTreeMap String String} {replies : Std.ExtTreeMap String Json}
    {message part : Json}
    (h : part ∈ (assistantTurns serde names replies message).flatMap partsOf) :
    PassedPart caps part := by
  unfold assistantTurns at h
  rw [List.flatMap_append, flatMap_partsOf_turn, flatMap_partsOf_turn] at h
  rcases List.mem_append.mp h with h | h
  · rcases List.mem_append.mp h with h | h
    · rcases List.mem_append.mp h with h | h
      · obtain ⟨text, -, rfl⟩ := Option.map_eq_some_iff.mp (Option.mem_toList.mp h)
        exact passedPart_of_none (by simp [Json.get_object, List.lookup_cons])
          (by simp [Json.get_object, List.lookup_cons])
      · split at h
        · cases h
        · rw [List.mem_singleton.mp h]
          exact passedPart_of_none rfl rfl
    · obtain ⟨call, -, rfl⟩ := List.mem_map.mp h
      exact passedPart_of_none rfl rfl
  · obtain ⟨id, -, hid⟩ := List.mem_filterMap.mp h
    obtain ⟨response, -, rfl⟩ := Option.map_eq_some_iff.mp hid
    exact passedPart_of_none rfl rfl

private theorem passedParts_turnsOf (serde : SerdeJson) (messages : List Json) (message : Json) :
    (∀ part ∈ (turnsOf serde messages message).flatMap partsOf, PassedPart caps part) ↔
      Readable caps (inlineMedia messages message) := by
  have huser := @textOrEmpty_eq_iff message "role" "user" (by decide)
  have hsystem := @textOrEmpty_eq_iff message "role" "system" (by decide)
  unfold turnsOf inlineMedia isInstruction
  simp only [← huser, ← hsystem]
  by_cases hlone : textOrEmpty message "role" = "user" ∨
      (textOrEmpty message "role" = "system" ∧ messages.length = 1)
  · have hinstruction : (textOrEmpty message "role" == "system" && decide (messages.length > 1)) =
        false := by
      rcases hlone with hrole | ⟨-, hlength⟩
      · rw [hrole]
        rfl
      · simp [hlength]
    rw [hinstruction, if_neg Bool.false_ne_true, if_pos hlone, if_pos hlone, flatMap_partsOf_turn]
    exact passedParts_contentToParts _
  · rw [if_neg hlone, if_neg hlone]
    refine iff_of_true (fun part hpart ↦ ?_) readable_nil
    split at hpart
    · cases hpart
    · split at hpart
      · exact passedPart_assistantTurns hpart
      · cases hpart

private theorem passed_gemini (writer : GeminiWriter) (model : String) (body : Json) :
    Passed caps .gemini (translate writer model body) ↔
      Readable caps (((arrayField body "messages").getD []).flatMap
        (inlineMedia ((arrayField body "messages").getD []))) := by
  have hcontents := contents_translate writer model body
  have hparts := partsOf_contents writer body
  have hflat : (∀ entry ∈ normalizeContents ((sourceMessages body).flatMap
      (turnsOf writer.serde (sourceMessages body))), ∀ part ∈ partsOf entry,
        PassedPart caps part) ↔ ∀ message ∈ sourceMessages body,
      ∀ part ∈ (turnsOf writer.serde (sourceMessages body) message).flatMap partsOf,
        PassedPart caps part := by
    rw [← List.forall_mem_flatMap, hparts, List.forall_mem_flatMap]
  rw [Passed, listKey, hcontents, Option.getD_some, readable_flatMap]
  exact hflat.trans (forall₂_congr fun message _ ↦ passedParts_turnsOf _ _ message)

end Gemini

section Claude

open Request.OpenaiToClaude

/-- The blocks of a message. -/
private def blocksOf (message : Json) : List Json := (arrayField message "content").getD []

/-- What the media pass leaves of a block. -/
private def PassedBlock (caps : Capabilities) (block : Json) : Prop :=
  hasType "tool_result" block = true →
    Readable caps (((arrayField block "content").getD []).filterMap capForClaudeBlock)

/-- What is read of a block. -/
private def blockView (block : Json) : Bool × List Json :=
  (hasType "tool_result" block, (arrayField block "content").getD [])

private theorem blockView_setField (block value : Json) :
    blockView (block.setField "cache_control" value) = blockView block := by
  unfold blockView hasType
  rw [Json.strField, Json.get_setField_of_ne (by decide), ← Json.strField, arrayField,
    Json.get_setField_of_ne (by decide), ← arrayField]

private theorem passed_applyCacheControl (messages : List Json) :
    (∀ message ∈ applyCacheControl messages, ∀ block ∈ blocksOf message, PassedBlock caps block) ↔
      ∀ message ∈ messages, ∀ block ∈ blocksOf message, PassedBlock caps block := by
  have hview : (applyCacheControl messages).map (fun message ↦ (blocksOf message).map blockView) =
      messages.map fun message ↦ (blocksOf message).map blockView := by
    refine map_updateLast fun message _ hmessage ↦ ?_
    obtain ⟨blocks, hblocks⟩ := Option.isSome_iff_exists.mp (Bool.and_eq_true_iff.mp hmessage).2
    rw [blocksOf, arrayField_setField (isSome_asObject_of_arrayField hblocks), Option.getD_some,
      blocksOf, hblocks, Option.getD_some]
    exact map_updateLast fun block _ _ ↦ blockView_setField block _
  have hread : ∀ messages : List Json,
      (∀ message ∈ messages, ∀ block ∈ blocksOf message, PassedBlock caps block) ↔
        ∀ views ∈ messages.map (fun message ↦ (blocksOf message).map blockView), ∀ view ∈ views,
          view.1 = true → Readable caps (view.2.filterMap capForClaudeBlock) := by
    intro messages
    simp only [List.forall_mem_map]
    rfl
  rw [hread, hview, ← hread]

section Merge

variable {serde : SerdeJson} {m : Merge} {block : Json}

/-- A message that is being built has a role. -/
private def Rolled (m : Merge) : Prop := m.currentRole = none → m.currentParts = []

/-- The blocks that were taken so far. -/
private def taken (m : Merge) : List Json := m.messages.flatMap blocksOf ++ m.currentParts

private theorem blocksOf_message (role : String) (parts : List Json) :
    blocksOf (Json.object [("role", .str role), ("content", .arr parts)]) = parts := by
  simp [blocksOf, arrayField, Json.get_object, Json.asArray]

private theorem flush_spec (h : Rolled m) :
    taken m.flush = taken m ∧ m.flush.currentParts = [] := by
  unfold Merge.flush
  cases hrole : m.currentRole with
  | none => exact ⟨by simp [taken, h hrole], rfl⟩
  | some role =>
    by_cases hparts : m.currentParts = []
    · simp [hparts]
    · simp [hparts, taken, blocksOf_message]

private theorem take_spec (h : Rolled m) (message : Json) :
    Rolled (m.take serde message) ∧
      (block ∈ taken (m.take serde message) ↔
        block ∈ taken m ∨ block ∈ contentBlocks serde message) := by
  obtain ⟨htaken, hparts⟩ := flush_spec h
  have hmessages : taken m.flush = m.flush.messages.flatMap blocksOf := by
    rw [taken, hparts, List.append_nil]
  unfold Merge.take
  dsimp only
  generalize contentBlocks serde message = blocks
  generalize (if textOrEmpty message "role" = "user" ∨ textOrEmpty message "role" = "tool" then
    "user" else "assistant") = newRole
  by_cases hresult : blocks.any (hasType "tool_result") = true
  · rw [if_pos hresult]
    have hsplit : block ∈ blocks ↔ block ∈ blocks.filter (hasType "tool_result") ∨
        block ∈ blocks.filter (!hasType "tool_result" ·) := by
      simp only [List.mem_filter]
      cases hasType "tool_result" block <;> simp
    by_cases hothers : blocks.filter (!hasType "tool_result" ·) = []
    · rw [if_pos hothers]
      refine ⟨fun _ ↦ hparts, ?_⟩
      rw [hsplit, hothers, ← htaken, hmessages, taken, hparts]
      simp [blocksOf_message]
    · rw [if_neg hothers]
      refine ⟨fun hnone ↦ absurd hnone (by simp), ?_⟩
      rw [hsplit, ← htaken, hmessages, taken, hparts]
      simp [blocksOf_message]
  · rw [if_neg hresult]
    have hbuilt : taken (if m.currentRole = some newRole then m
          else { m.flush with currentRole := some newRole }) = taken m ∧
        (if m.currentRole = some newRole then m
          else { m.flush with currentRole := some newRole }).currentRole = some newRole := by
      split
      · next hrole => exact ⟨rfl, hrole⟩
      · exact ⟨htaken, rfl⟩
    generalize (if m.currentRole = some newRole then m
      else { m.flush with currentRole := some newRole }) = built at hbuilt ⊢
    obtain ⟨hbuilt, hrole⟩ := hbuilt
    have hrolled : Rolled { built with currentParts := built.currentParts ++ blocks } :=
      fun hnone ↦ absurd (hrole.symm.trans hnone) (by simp)
    have hmem : block ∈ taken { built with currentParts := built.currentParts ++ blocks } ↔
        block ∈ taken m ∨ block ∈ blocks := by
      rw [← hbuilt, taken, taken, ← List.append_assoc, List.mem_append]
    split
    · obtain ⟨hsame, hnone⟩ := flush_spec hrolled
      exact ⟨fun _ ↦ hnone, by rw [hsame, hmem]⟩
    · exact ⟨hrolled, hmem⟩

private theorem mem_mergeMessages (source : List Json) :
    block ∈ (mergeMessages serde source).flatMap blocksOf ↔
      ∃ message ∈ source, message.strField "role" ≠ some "system" ∧
        block ∈ contentBlocks serde message := by
  have hrun : ∀ (messages : List Json) (m : Merge), Rolled m →
      Rolled (messages.foldl (Merge.take serde) m) ∧
        (block ∈ taken (messages.foldl (Merge.take serde) m) ↔
          block ∈ taken m ∨ ∃ message ∈ messages, block ∈ contentBlocks serde message) := by
    intro messages
    induction messages with
    | nil => exact fun m hm ↦ ⟨hm, by simp⟩
    | cons message messages ih =>
      intro m hm
      obtain ⟨hrolled, hmem⟩ := @take_spec serde m block hm message
      obtain ⟨hend, hall⟩ := ih _ hrolled
      refine ⟨hend, hall.trans ?_⟩
      rw [hmem]
      simp [or_assoc]
  obtain ⟨hrolled, hmem⟩ := hrun (source.filter fun message ↦
    message.strField "role" ≠ some "system") {} fun _ ↦ rfl
  obtain ⟨htaken, hparts⟩ := flush_spec hrolled
  rw [taken, hparts, List.append_nil] at htaken
  rw [mergeMessages, htaken, hmem]
  simp [taken, and_assoc]

end Merge

private theorem passedBlock_of_type {block : Json} {kind : String}
    (h : block.strField "type" = some kind) (hkind : kind ≠ "tool_result") :
    PassedBlock caps block := by
  intro hresult
  unfold hasType at hresult
  rw [h] at hresult
  exact absurd (by simpa using hresult) hkind

private theorem strField_type_object {fields : List (String × Json)} {kind : String}
    (h : fields.reverse.lookup "type" = some (.str kind)) :
    (Json.object fields).strField "type" = some kind := by
  rw [Json.strField, Json.get_object, h]
  rfl

private theorem passedBlock_textBlock (text : String) : PassedBlock caps (textBlock text) :=
  passedBlock_of_type (strField_type_object rfl) (by decide)

private theorem passedBlock_textPart {part block : Json} (h : textPart part = some block) :
    PassedBlock caps block := by
  obtain ⟨text, -, rfl⟩ := Option.map_eq_some_iff.mp h
  exact passedBlock_textBlock text

/-- The media in the result of a tool. -/
private def nested (v : Json) : List Modality :=
  ((arrayField v "content").getD []).filterMap capForClaudeBlock

private theorem passedBlock_userPart {part block : Json} (h : userPart part = some block) :
    PassedBlock caps block ↔ (hasType "tool_result" part = true → Readable caps (nested part)) := by
  unfold userPart at h
  by_cases hresult : hasType "tool_result" part = true
  · have htext : hasType "text" part = false := by
      unfold hasType at hresult ⊢
      rw [beq_iff_eq.mp hresult]
      rfl
    rw [htext, hresult] at h
    cases h
    have hnested : ∀ block : Json, block.get "type" = some (.str "tool_result") →
        block.get "content" = some (fieldOrNull part "content") →
        (PassedBlock caps block ↔ Readable caps (nested part)) := by
      intro block htype hcontent
      have hsame : ((arrayField block "content").getD []).filterMap capForClaudeBlock =
          nested part := by
        rw [nested, arrayField, hcontent, fieldOrNull, arrayField]
        cases part.get "content" <;> rfl
      rw [PassedBlock, hsame, hasType, Json.strField, htype]
      exact ⟨fun h ↦ h rfl, fun h _ ↦ h⟩
    simp only [hresult, true_imp_iff]
    split
    · refine hnested _ ?_ ?_
      · rw [Json.get_setField_of_ne (by decide), Json.get_object]
        rfl
      · rw [Json.get_setField_of_ne (by decide), Json.get_object]
        rfl
    · refine hnested _ ?_ ?_
      · rw [Json.get_object]
        rfl
      · rw [Json.get_object]
        rfl
  · refine iff_of_true ?_ fun h ↦ absurd h hresult
    rw [if_neg hresult] at h
    split at h
    · exact passedBlock_textPart h
    · split at h
      · obtain ⟨url, -, hurl⟩ := Option.bind_eq_some_iff.mp h
        split at hurl
        · cases hurl
          exact passedBlock_of_type (strField_type_object rfl) (by decide)
        · split at hurl
          · cases hurl
            exact passedBlock_of_type (strField_type_object rfl) (by decide)
          · cases hurl
      · split at h
        · obtain ⟨source, -, rfl⟩ := Option.map_eq_some_iff.mp h
          exact passedBlock_of_type (strField_type_object rfl) (by decide)
        · split at h
          · obtain ⟨⟨mimeType, data⟩, -, hdata⟩ := Option.bind_eq_some_iff.mp h
            dsimp only at hdata
            split at hdata
            · cases hdata
              exact passedBlock_of_type (strField_type_object rfl) (by decide)
            · cases hdata
          · cases h

private theorem passedBlock_assistantPart {part block : Json}
    (h : assistantPart part = some block) : PassedBlock caps block := by
  unfold assistantPart at h
  split at h
  · exact passedBlock_textPart h
  · split at h
    · cases h
      exact passedBlock_of_type (strField_type_object rfl) (by decide)
    · split at h
      · next hthinking =>
        cases h
        refine @passedBlock_of_type _ _ "thinking" ?_ (by decide)
        rw [Json.strField, Json.get_eraseField_of_ne (by decide), ← Json.strField]
        simpa [hasType] using hthinking
      · cases h

private theorem passedBlock_of_mem_texts {block : Json} {text : String}
    (h : block ∈ (if text.isEmpty then [] else [textBlock text])) : PassedBlock caps block := by
  split at h
  · cases h
  · rw [List.mem_singleton.mp h]
    exact passedBlock_textBlock text

private theorem passedBlocks_user (content : Option Json) :
    (∀ block ∈ (match content with
      | some (.str text) => if text.isEmpty then [] else [textBlock text]
      | some (.arr parts) => parts.filterMap userPart
      | _ => []), PassedBlock caps block) ↔
    ∀ part ∈ ((content.bind Json.asArray).getD []).filter (hasType "tool_result"),
      Readable caps (nested part) := by
  rcases content with _ | content
  · simp
  cases content with
  | str text => exact iff_of_true (fun _ ↦ passedBlock_of_mem_texts) (by simp [Json.asArray])
  | arr parts =>
    simp only [Option.bind_some, Json.asArray, Option.getD_some, List.mem_filter, and_imp]
    constructor
    · intro h part hpart hresult
      obtain ⟨block, hblock⟩ : ∃ block, userPart part = some block := by
        have htext : hasType "text" part = false := by
          unfold hasType at hresult ⊢
          rw [beq_iff_eq.mp hresult]
          rfl
        rw [userPart, htext, hresult]
        exact ⟨_, rfl⟩
      exact (passedBlock_userPart hblock).mp
        (h block (List.mem_filterMap.mpr ⟨part, hpart, hblock⟩)) hresult
    · intro h block hblock
      obtain ⟨part, hpart, hblock⟩ := List.mem_filterMap.mp hblock
      exact (passedBlock_userPart hblock).mpr (h part hpart)
  | _ => simp [Json.asArray]

private theorem passedBlock_assistant {serde : SerdeJson} {message block : Json}
    (h : block ∈ (match message.get "content" with
      | some (.arr parts) => parts.filterMap assistantPart
      | some (.str text) => if text.isEmpty then [] else [textBlock text]
      | some other => if other.isNull then []
        else if (extractTextContent (some other) "\n").isEmpty then []
        else [textBlock (extractTextContent (some other) "\n")]
      | none => []) ++ (functionCalls message).map (callBlock serde)) : PassedBlock caps block := by
  rcases List.mem_append.mp h with h | h
  · split at h
    · obtain ⟨part, -, hpart⟩ := List.mem_filterMap.mp h
      exact passedBlock_assistantPart hpart
    · exact passedBlock_of_mem_texts h
    · split at h
      · cases h
      · exact passedBlock_of_mem_texts h
    · cases h
  · obtain ⟨call, -, rfl⟩ := List.mem_map.mp h
    exact passedBlock_of_type (strField_type_object rfl) (by decide)

private theorem passedBlocks_contentBlocks (serde : SerdeJson) (message : Json) :
    (∀ block ∈ contentBlocks serde message, PassedBlock caps block) ↔
      Readable caps (resultMedia message) := by
  have htool := @textOrEmpty_eq_iff message "role" "tool" (by decide)
  have huser := @textOrEmpty_eq_iff message "role" "user" (by decide)
  unfold contentBlocks resultMedia
  simp only [← htool, ← huser]
  by_cases hrole : textOrEmpty message "role" = "tool"
  · rw [if_pos hrole, if_pos hrole, List.forall_mem_singleton, PassedBlock]
    have hcontent : (arrayField (Json.object [("type", .str "tool_result"),
        ("tool_use_id", fieldOrNull message "tool_call_id"),
        ("content", (message.get "content").getD .null)]) "content") =
          arrayField message "content" := by
      rw [arrayField, Json.get_object, arrayField]
      cases message.get "content" <;> rfl
    rw [hcontent]
    exact ⟨fun h ↦ h (by rw [hasType, strField_type_object rfl]; rfl), fun h _ ↦ h⟩
  · rw [if_neg hrole, if_neg hrole]
    by_cases huser : textOrEmpty message "role" = "user"
    · rw [if_pos huser, if_pos huser, readable_flatMap]
      exact passedBlocks_user (message.get "content")
    · rw [if_neg huser, if_neg huser]
      refine iff_of_true (fun block hblock ↦ ?_) readable_nil
      split at hblock
      · exact passedBlock_assistant hblock
      · cases hblock

private theorem passed_claude (serde : SerdeJson) (model : String) (body : Json) (stream : Bool)
    (ceiling : Nat) : Passed caps .claude (translate serde model body stream ceiling) ↔
      Readable caps (((arrayField body "messages").getD []).flatMap resultMedia) := by
  have hmessages : arrayField (translate serde model body stream ceiling) "messages" =
      some (applyCacheControl (mergeMessages serde (sourceMessages body))) := by
    simp only [Request.OpenaiToClaude.translate]
    rw [arrayField, Json.get_object_append (by cases body.get "tool_choice" <;> simp),
      Json.get_object_append ?_, Json.get_object]
    · simp [List.lookup_cons, Json.asArray]
    · by_cases h : ((arrayField body "tools").map convertTools).getD [] = [] <;> simp [h]
  have hpassed := (@passed_applyCacheControl caps (mergeMessages serde (sourceMessages body)))
  rw [Passed, listKey, hmessages, Option.getD_some, readable_flatMap]
  refine hpassed.trans ?_
  rw [← List.forall_mem_flatMap]
  constructor
  · intro h message hmem
    rw [← passedBlocks_contentBlocks serde]
    intro block hblock
    by_cases hsystem : message.strField "role" = some "system"
    · have hnil : contentBlocks serde message = [] := by
        simp [contentBlocks, textOrEmpty, hsystem]
      rw [hnil] at hblock
      cases hblock
    · exact h block ((mem_mergeMessages _).mpr ⟨message, hmem, hsystem, hblock⟩)
  · intro h block hblock
    obtain ⟨message, hmem, -, hblock⟩ := (mem_mergeMessages _).mp hblock
    exact (passedBlocks_contentBlocks serde message).mpr (h message hmem) block hblock

end Claude

/-- The draft of a request holds, out of the sight of the media pass, what its OpenAI request
held. -/
private theorem passed_openaiToTarget (writer : GeminiWriter) (target : Format) (model : String)
    (body : Json) (stream : Bool) (ceiling : Nat) :
    Passed caps (spelling target) (openaiToTarget writer target model body stream ceiling).body ↔
      match spelling target with
      | .chat => True
      | .claude => Readable caps (((arrayField body "messages").getD []).flatMap resultMedia)
      | .gemini => Readable caps (((arrayField body "messages").getD []).flatMap
          (inlineMedia ((arrayField body "messages").getD [])))
      | .responses => Readable caps (strayAudio body)
      | .ollama => Readable caps (((arrayField body "messages").getD []).flatMap ollamaImages) := by
  have hchat : ∀ body, Passed caps .chat body ↔ True :=
    fun body ↦ iff_of_true (fun _ _ ↦ trivial) trivial
  cases target with
  | claude => exact passed_claude writer.serde model body stream ceiling
  | gemini | geminiCli | vertex => exact passed_gemini writer model body
  | ollama => exact passed_ollama writer.serde model body stream
  | openAiResponses =>
    have hinput : arrayField (withModelAndStream model stream body) "input" =
        arrayField body "input" := by
      rw [withModelAndStream, arrayField, Json.get_setField_of_ne (by decide),
        Json.get_setField_of_ne (by decide), ← arrayField]
    simp only [spelling, openaiToTarget]
    rw [Passed, listKey, hinput, strayAudio, readable_flatMap]
    refine forall₂_congr fun item _ ↦ ?_
    constructor
    · intro h medium hmedium
      obtain ⟨part, hpart, rfl⟩ := List.mem_map.mp hmedium
      obtain ⟨hmem, haudio⟩ := List.mem_filter.mp hpart
      exact h part hmem haudio _ (List.mem_singleton_self _)
    · intro h part hmem haudio medium hmedium
      rw [List.mem_singleton.mp hmedium]
      exact h _ (List.mem_map.mpr ⟨part, List.mem_filter.mpr ⟨hmem, haudio⟩, rfl⟩)
  | _ => exact hchat _

end Drafts

/-- A model reads all of the media that it is sent exactly when it reads all that the passes
leave. -/
theorem readable_iff (catalogue : Catalogue) (writer : GeminiWriter) (route : RequestRoute)
    (body : Json) (stream : Bool) (ceiling : Nat) :
    Readable (catalogue.capabilities route.provider route.model)
        (mediaOf (spelling route.target)
          (translateRequest catalogue writer route body stream ceiling).body) ↔
      Readable (catalogue.capabilities route.provider route.model)
        (left writer.serde route body stream) := by
  have happly : ∀ (drafted : Json) (intent : Option ThinkingIntent) (key : String),
      key ∉ thinkingKeys → arrayField (Thinking.apply catalogue route.target route.provider
        route.model drafted intent) key = arrayField drafted key :=
    fun drafted intent key hkey ↦
      congrArg (·.bind Json.asArray) (apply_same catalogue _ _ _ _ key hkey)
  have hkey : listKey (spelling route.target) ∉ thinkingKeys := by
    cases spelling route.target <;> decide
  unfold left
  by_cases hsame : route.source.equivalent route.target = true
  · have hmodel : listKey (spelling route.target) ≠ "model" := by
      cases spelling route.target <;> decide
    unfold translateRequest
    simp only [hsame, ↓reduceIte]
    rw [mediaOf, happly _ _ _ hkey, arrayField, Json.get_setField_of_ne hmodel]
    rfl
  · rw [if_neg hsame, body_translateRequest catalogue writer (by simpa using hsame), finishRequest]
    have hrules : rulesOf route = ParamRules.rules.filter
        (·.applies route.provider (Thinking.stripThinkingSuffix route.model)) := by
      rw [rulesOf, if_neg hsame]
    rw [mediaOf_stripUnsupportedParams, ← hrules]
    by_cases hflat : (spelling route.target = .chat ∨ spelling route.target = .claude) ∧
        (rulesOf route).any (·.flattenContent) = true
    · rw [if_pos hflat]
      refine iff_of_true readable_nil ?_
      rcases hflat with ⟨hchat | hclaude, hany⟩
      · rw [unseen, hchat]
        exact readable_nil
      · rw [unseen, hclaude]
        simp only [hany, ↓reduceIte]
        exact readable_nil
    · rw [if_neg hflat, readable_stripUnsupportedModalities, passed_congr (happly _ _ _ hkey),
        passed_openaiToTarget, unseen]
      cases hspelling : spelling route.target with
      | chat => exact iff_of_true trivial readable_nil
      | claude =>
        have hany : (rulesOf route).any (·.flattenContent) = false := by
          simpa [hspelling] using hflat
        simp only [hany, Bool.false_eq_true, ↓reduceIte]
      | _ => exact Iff.rfl

/-- A request whose one message is an image. -/
def imageRequest : Json :=
  .obj [("messages", .arr [.obj [("content", .arr [.obj
    [("image_url", .obj [("url", .str "data:image/png;base64,iVBORw0KGgo=")]),
      ("type", .str "image_url")]]), ("role", .str "user")]])]

/-- An image reaches a Gemini model that has no vision. -/
theorem image_reaches_gemini : ¬ Readable (Catalogue.unlisted.capabilities "gemini" "unlisted")
    (mediaOf .gemini (translateRequest .unlisted .placeholder
      ⟨.openAi, .gemini, "gemini", "unlisted"⟩ imageRequest false 64000).body) := by
  intro h
  exact absurd (h .vision (by decide +kernel)) (by decide)

end NullRouter.Translate.UnreadMedia
