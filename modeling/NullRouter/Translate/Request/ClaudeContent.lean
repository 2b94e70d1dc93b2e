import NullRouter.Translate.Request.ClaudeToOpenai

/-!
# What a Claude request carries over

The blocks of a Claude request and what is left of them in the OpenAI messages of
`crates/translate/src/request/claude_to_openai.rs`. An image that is named by its URL is left
out, and so are the tool calls of a message that also holds tool results.
-/

namespace NullRouter.Translate.Request.ClaudeToOpenai

open NullRouter.Base

/-- The kinds of content that a conversation holds. -/
inductive ItemKind where
  | text
  | image
  | call
  | result
  deriving DecidableEq, Repr

/-- A piece of content: a text, an image by its URL or data URI, a tool call, a tool result. -/
inductive Item where
  | text (text : String)
  | image (url : String)
  | call (id name : Json) (arguments : String)
  | result (id : Json) (content : String)
  deriving DecidableEq, Repr

/-- The kind of a piece. -/
def Item.kind : Item → ItemKind
  | .text _ => .text
  | .image _ => .image
  | .call .. => .call
  | .result .. => .result

@[simp] theorem Item.kind_text (text : String) : (Item.text text).kind = .text := rfl
@[simp] theorem Item.kind_image (url : String) : (Item.image url).kind = .image := rfl
@[simp] theorem Item.kind_call (id name : Json) (arguments : String) :
    (Item.call id name arguments).kind = .call := rfl
@[simp] theorem Item.kind_result (id : Json) (content : String) :
    (Item.result id content).kind = .result := rfl

/-- The pieces of one kind, in their order. -/
def ofKind (kind : ItemKind) (items : List Item) : List Item := items.filter (·.kind = kind)

/-- Whether an image block names its image by URL. -/
def isUrl (block : Json) : Bool := ((block.get "source").bind (·.strField "type")) == some "url"

/-- The URL that an image block names. -/
def sourceUrl (block : Json) : String := ((block.get "source").bind (·.strField "url")).getD ""

/-- The piece of content that a Claude block is. -/
def blockItem (serde : SerdeJson) (block : Json) : Option Item :=
  if hasType "text" block then (block.strField "text").map .text
  else if hasType "image" block then
    if isBase64 block then some (.image (imageUri block))
    else if isUrl block then some (.image (sourceUrl block))
    else none
  else if hasType "tool_use" block then
    some (.call (fieldOrNull block "id") (fieldOrNull block "name")
      (serde.toText ((block.get "input").getD (Json.object []))))
  else if hasType "tool_result" block then
    some (.result (fieldOrNull block "tool_use_id") (toolResultContent serde (block.get "content")))
  else none

/-- The blocks of a message; a string is one text block. -/
def contentBlocks (message : Json) : List Json :=
  match message.get "content" with
  | some (.str text) => [Json.object [("type", .str "text"), ("text", .str text)]]
  | some (.arr blocks) => blocks
  | _ => []

/-- Whether a message is a system message in the middle of the conversation. -/
def isSystem (message : Json) : Bool := textOrEmpty message "role" == "system"

/-- The texts of the blocks of a system message as one instruction. -/
def instructions (texts : List String) : String :=
  "<instructions>\n" ++ "\n".intercalate (texts.filter (!·.isEmpty)) ++ "\n</instructions>"

/-- The pieces of a Claude message. The texts of a system message are one instruction, and an
empty array of blocks is an empty text. -/
def sourceItems (serde : SerdeJson) (message : Json) : List Item :=
  let items := (contentBlocks message).filterMap (blockItem serde)
  if isSystem message then
    let texts := partTexts (contentBlocks message)
    (if texts = [] then [] else [.text (instructions texts)]) ++ items.filter (·.kind ≠ .text)
  else if message.get "content" = some (.arr []) then [.text ""]
  else items

/-- The piece of content that a part of an OpenAI message is. -/
def partItem (part : Json) : Option Item :=
  if hasType "text" part then (part.strField "text").map .text
  else if hasType "image_url" part then
    some (.image (((part.get "image_url").bind (·.strField "url")).getD ""))
  else none

/-- The pieces of the content of an OpenAI message. -/
def contentItems (content : Option Json) : List Item :=
  match content with
  | some (.str text) => [.text text]
  | some (.arr parts) => parts.filterMap partItem
  | _ => []

/-- The piece of content that a tool call of an OpenAI message is. -/
def callItem (call : Json) : Item :=
  .call (fieldOrNull call "id") (((call.get "function").bind (·.get "name")).getD .null)
    (((call.get "function").bind (·.strField "arguments")).getD "")

/-- The pieces of an OpenAI message. -/
def messageItems (message : Json) : List Item :=
  if message.strField "role" = some "tool" then
    [.result (fieldOrNull message "tool_call_id") (textOrEmpty message "content")]
  else contentItems (message.get "content") ++
    ((arrayField message "tool_calls").getD []).map callItem

/-- A body of the Messages API: every text block has a text. -/
structure ClaudeRequest where
  body : Json
  texts : ∀ message ∈ sourceMessages body, ∀ block ∈ contentBlocks message,
    hasType "text" block = true → ∃ text, block.get "text" = some (.str text)

/-- The messages that the conversation becomes, before missing replies are filled in. -/
def carried (serde : SerdeJson) (body : Json) : List Json :=
  (sourceMessages body).flatMap (convertMessage serde)

/-- Nothing of the conversation is lost: the translated messages are the system prompt and the
messages of the conversation, with placeholders for missing replies in between, and the
conversation holds the pieces of each kind that it held, in their order. -/
def LosesNothing (serde : SerdeJson) (model : String) (stream : Bool) (body : Json) : Prop :=
  (∃ messages, (translate serde model body stream).get "messages" = some (.arr messages) ∧
    Padded (∃ id, · = placeholder id) (systemMessage body ++ carried serde body) messages) ∧
  ∀ kind, ofKind kind ((carried serde body).flatMap messageItems) =
    ofKind kind ((sourceMessages body).flatMap (sourceItems serde))

/-- Whether a block is a result of a tool. -/
def isResult (block : Json) : Bool := hasType "tool_result" block

/-- A block that is dropped from the blocks of a message: an image by its URL, or a call next to
a result. -/
def dropped (blocks : List Json) (block : Json) : Bool :=
  (hasType "image" block && isUrl block) || (hasType "tool_use" block && blocks.any isResult)

/-- When a message is carried over whole. A system message holds text only, and some of it is
not blank; elsewhere no block is dropped. -/
def Whole (message : Json) : Prop :=
  if isSystem message then
    (∀ block ∈ contentBlocks message, hasType "tool_use" block = false ∧
      isResult block = false ∧ (hasType "image" block && (isBase64 block || isUrl block)) = false) ∧
    (partTexts (contentBlocks message) ≠ [] →
      (trim ("\n".intercalate ((partTexts (contentBlocks message)).filter (!·.isEmpty)))).isEmpty
        = false)
  else ∀ block ∈ contentBlocks message, dropped (contentBlocks message) block = false

section Messages

variable {serde : SerdeJson}

private theorem messageItems_plain (role : String) (content : Json) (hrole : role ≠ "tool") :
    messageItems (Json.object [("role", .str role), ("content", content)]) =
      contentItems (some content) := by
  simp [messageItems, arrayField, Json.strField, Json.get_object, List.lookup_cons, Json.asStr,
    hrole]

private theorem messageItems_calls (content : List (String × Json)) (calls : List Json)
    (h : content = [] ∨ ∃ v, content = [("content", v)]) :
    messageItems (Json.object ([("role", .str "assistant")] ++ content ++
      [("tool_calls", .arr calls)])) =
      contentItems (content.head?.map (·.2)) ++ calls.map callItem := by
  rcases h with rfl | ⟨v, rfl⟩ <;>
    simp [messageItems, arrayField, Json.strField, Json.get_object, List.lookup_cons, Json.asStr,
      Json.asArray]

private theorem contentItems_collapse {parts : List Json}
    (h : ∀ part ∈ parts, hasType "text" part = true → ∃ t, part.get "text" = some (.str t)) :
    contentItems (some (collapseTextParts parts)) = parts.filterMap partItem := by
  unfold collapseTextParts
  split
  · next part =>
    split
    · next htext =>
      obtain ⟨t, ht⟩ := h part (by simp) htext
      simp [contentItems, partItem, htext, ht, Json.strField, Json.asStr]
    · rfl
  · rfl

private theorem text_of_partOf {block part : Json}
    (hb : hasType "text" block = true → ∃ t, block.get "text" = some (.str t))
    (h : partOf block = some part) (htext : hasType "text" part = true) :
    ∃ t, part.get "text" = some (.str t) := by
  unfold partOf at h
  split at h
  · next hblock =>
    obtain ⟨t, ht⟩ := hb hblock
    rw [ht] at h
    cases h
    exact ⟨t, by simp [Json.get_object]⟩
  · split at h
    · split at h
      · cases h
        simp [hasType, Json.strField, Json.get_object, List.lookup_cons, Json.asStr] at htext
      · cases h
    · cases h

private theorem hasType_false {a b : String} {v : Json} (h : hasType a v = true) (hne : a ≠ b) :
    hasType b v = false := by
  simp only [hasType, beq_iff_eq] at h
  simp [hasType, h, hne]

/-- The type of the blocks of a kind. -/
private def blockType : ItemKind → String
  | .text => "text"
  | .image => "image"
  | .call => "tool_use"
  | .result => "tool_result"

private theorem hasType_of_blockItem {block : Json} {item : Item}
    (h : blockItem serde block = some item) : hasType (blockType item.kind) block = true := by
  unfold blockItem at h
  split at h
  · next ht =>
    obtain ⟨t, -, rfl⟩ := Option.map_eq_some_iff.mp h
    exact ht
  · split at h
    · next ht =>
      split at h
      · cases h
        exact ht
      · split at h
        · cases h
          exact ht
        · cases h
    · split at h
      · next ht =>
        cases h
        exact ht
      · split at h
        · next ht =>
          cases h
          exact ht
        · cases h

private theorem filter_blockItem {block : Json} {k : ItemKind}
    (h : ¬hasType (blockType k) block = true) :
    ((blockItem serde block).filter fun item ↦ item.kind = k) = none := by
  cases hitem : blockItem serde block with
  | none => rfl
  | some item =>
    rw [Option.filter_some, if_neg]
    intro hkind
    rw [← of_decide_eq_true hkind] at h
    exact h (hasType_of_blockItem hitem)

private theorem partItem_text (text : String) :
    partItem (Json.object [("type", .str "text"), ("text", .str text)]) = some (.text text) := by
  simp [partItem, hasType, Json.strField, Json.get_object, List.lookup_cons, Json.asStr]

private theorem partItem_image (url : String) :
    partItem (Json.object [("type", .str "image_url"),
      ("image_url", Json.object [("url", .str url)])]) = some (.image url) := by
  simp [partItem, hasType, Json.strField, Json.get_object, List.lookup_cons, Json.asStr]

private theorem partItem_partOf {block : Json}
    (hb : hasType "text" block = true → ∃ t, block.get "text" = some (.str t)) :
    (partOf block).bind partItem =
      if hasType "image" block && isUrl block then none
      else (blockItem serde block).filter fun item ↦ item.kind = .text ∨ item.kind = .image := by
  by_cases h₁ : hasType "text" block = true
  · obtain ⟨t, ht⟩ := hb h₁
    have h₂ := hasType_false h₁ (b := "image") (by decide)
    simp [partOf, blockItem, h₁, h₂, ht, partItem_text, Json.strField, Json.asStr,
      Option.filter_some]
  · by_cases h₂ : hasType "image" block = true
    · by_cases h₃ : isBase64 block = true
      · have h₄ : isUrl block = false := by
          simp only [isBase64, beq_iff_eq] at h₃
          simp [isUrl, h₃]
        simp [partOf, blockItem, h₁, h₂, h₃, h₄, partItem_image, Option.filter_some]
      · by_cases h₄ : isUrl block = true <;> simp [partOf, blockItem, h₁, h₂, h₃, h₄]
    · simp only [partOf, blockItem, h₁, h₂]
      by_cases h₃ : hasType "tool_use" block = true
      · simp [h₃, Option.filter_some]
      · by_cases h₄ : hasType "tool_result" block = true <;> simp [h₃, h₄, Option.filter_some]

private theorem callItem_callOf (block : Json) :
    (callOf serde block).map callItem =
      (blockItem serde block).filter fun item ↦ item.kind = .call := by
  by_cases h₃ : hasType "tool_use" block = true
  · have h₁ := hasType_false h₃ (b := "text") (by decide)
    have h₂ := hasType_false h₃ (b := "image") (by decide)
    simp [callOf, blockItem, h₁, h₂, h₃, callItem, fieldOrNull, Json.strField, Json.get_object,
      List.lookup_cons, Json.asStr, Option.filter_some]
  · rw [filter_blockItem (k := .call) h₃, callOf, if_neg h₃, Option.map_none]

private theorem messageItems_resultOf (block : Json) :
    (resultOf serde block).toList.flatMap messageItems =
      ((blockItem serde block).filter fun item ↦ item.kind = .result).toList := by
  by_cases h₄ : hasType "tool_result" block = true
  · have h₁ := hasType_false h₄ (b := "text") (by decide)
    have h₂ := hasType_false h₄ (b := "image") (by decide)
    have h₃ := hasType_false h₄ (b := "tool_use") (by decide)
    simp [resultOf, blockItem, h₁, h₂, h₃, h₄, messageItems, fieldOrNull, textOrEmpty,
      Json.strField, Json.get_object, List.lookup_cons, Json.asStr, Option.filter_some]
  · rw [filter_blockItem (k := .result) h₄, resultOf, if_neg h₄]
    rfl

/-- The blocks that a message keeps, as pieces. -/
private def kept (serde : SerdeJson) (blocks : List Json) : List Item :=
  (blocks.filter fun block ↦ !dropped blocks block).filterMap (blockItem serde)

private theorem ofKind_filterMap (k : ItemKind) (f : Json → Option Item) (blocks : List Json) :
    ofKind k (blocks.filterMap f) =
      blocks.filterMap fun block ↦ (f block).filter fun item ↦ item.kind = k := by
  rw [ofKind, List.filter_filterMap]

private theorem ofKind_kept (k : ItemKind) (blocks : List Json) :
    ofKind k (kept serde blocks) = blocks.filterMap fun block ↦
      if dropped blocks block then none
      else (blockItem serde block).filter fun item ↦ item.kind = k := by
  rw [kept, ofKind_filterMap, List.filterMap_filter]
  congr 1
  funext block
  cases dropped blocks block <;> rfl

private theorem ofKind_parts {k : ItemKind} (hk : k = .text ∨ k = .image) {blocks : List Json}
    (hb : ∀ block ∈ blocks, hasType "text" block = true → ∃ t, block.get "text" = some (.str t)) :
    ofKind k ((blocks.filterMap partOf).filterMap partItem) = ofKind k (kept serde blocks) := by
  rw [List.filterMap_filterMap, ofKind_filterMap, ofKind_kept]
  refine List.filterMap_congr fun block hmem ↦ ?_
  rw [partItem_partOf (hb block hmem)]
  cases hitem : blockItem serde block with
  | none => simp
  | some item =>
    have htype := hasType_of_blockItem hitem
    by_cases hkind : item.kind = k
    · have hcall : hasType "tool_use" block = false := by
        rw [hkind] at htype
        rcases hk with rfl | rfl <;> exact hasType_false htype (by decide)
      cases himage : hasType "image" block && isUrl block with
      | true => simp [dropped, himage]
      | false => rcases hk with rfl | rfl <;> simp [dropped, himage, hcall, Option.filter_some, hkind]
    · have hnone : (some item).filter (fun item ↦ item.kind = k) = none := by
        rw [Option.filter_some, if_neg (by simpa using hkind)]
      rw [hnone, ite_self]
      split
      · rfl
      · rw [Option.filter_some]
        split
        · exact hnone
        · rfl

private theorem ofKind_calls (blocks : List Json) :
    (if blocks.any isResult then [] else (blocks.filterMap (callOf serde)).map callItem) =
      ofKind .call (kept serde blocks) := by
  rw [ofKind_kept]
  split
  · next hany =>
    refine (List.filterMap_eq_nil_iff.mpr fun block hmem ↦ ?_).symm
    by_cases hcall : hasType "tool_use" block = true
    · simp [dropped, hcall, hany]
    · rw [filter_blockItem (k := .call) hcall, ite_self]
  · next hany =>
    rw [List.map_filterMap]
    refine List.filterMap_congr fun block hmem ↦ ?_
    rw [callItem_callOf]
    by_cases hcall : hasType "tool_use" block = true
    · have himage := hasType_false hcall (b := "image") (by decide)
      simp [dropped, himage, hany]
    · rw [filter_blockItem (k := .call) hcall, ite_self]

private theorem ofKind_results (blocks : List Json) :
    (blocks.filterMap (resultOf serde)).flatMap messageItems =
      ofKind .result (kept serde blocks) := by
  have hnot : ∀ block ∈ blocks, (if dropped blocks block then none
      else (blockItem serde block).filter fun item ↦ item.kind = .result) =
      (blockItem serde block).filter fun item ↦ item.kind = .result := by
    intro block _
    by_cases hres : hasType "tool_result" block = true
    · have himage := hasType_false hres (b := "image") (by decide)
      have hcall := hasType_false hres (b := "tool_use") (by decide)
      simp [dropped, himage, hcall]
    · rw [filter_blockItem (k := .result) hres, ite_self]
  rw [ofKind_kept, List.filterMap_congr hnot]
  rw [List.filterMap_eq_flatMap_toList, List.filterMap_eq_flatMap_toList, List.flatMap_assoc]
  exact congrArg (List.flatMap · blocks) (funext messageItems_resultOf)

private theorem ofKind_append (k : ItemKind) (l₁ l₂ : List Item) :
    ofKind k (l₁ ++ l₂) = ofKind k l₁ ++ ofKind k l₂ := List.filter_append ..

private theorem ofKind_self (k : ItemKind) (items : List Item) :
    ofKind k (ofKind k items) = ofKind k items := by
  simp [ofKind]

private theorem ofKind_of_ne {j k : ItemKind} (h : j ≠ k) (items : List Item) :
    ofKind k (ofKind j items) = [] := by
  rw [ofKind, ofKind, List.filter_filter, List.filter_eq_nil_iff]
  intro item _ hkind
  simp only [Bool.and_eq_true, decide_eq_true_eq] at hkind
  exact h (hkind.2.symm.trans hkind.1)

private theorem ofKind_partItem {k : ItemKind} (h₁ : k ≠ .text) (h₂ : k ≠ .image)
    (parts : List Json) : ofKind k (parts.filterMap partItem) = [] := by
  rw [ofKind_filterMap, List.filterMap_eq_nil_iff]
  intro part _
  unfold partItem
  split
  · cases part.strField "text" <;> simp [Option.filter_some, Ne.symm h₁]
  · split <;> simp [Option.filter_some, Ne.symm h₂]

private theorem filterMap_resultOf_eq_nil {blocks : List Json} :
    blocks.filterMap (resultOf serde) = [] ↔ blocks.any isResult = false := by
  simp [resultOf, isResult]

private theorem ofKind_convertContentBlocks {role : String} (hrole : role ≠ "tool")
    {blocks : List Json} (hne : blocks ≠ [])
    (hb : ∀ block ∈ blocks, hasType "text" block = true → ∃ t, block.get "text" = some (.str t))
    (k : ItemKind) :
    ofKind k ((convertContentBlocks serde role blocks).flatMap messageItems) =
      ofKind k (kept serde blocks) := by
  have hparts : ∀ part ∈ blocks.filterMap partOf, hasType "text" part = true →
      ∃ t, part.get "text" = some (.str t) := by
    intro part hpart
    obtain ⟨block, hmem, hpart⟩ := List.mem_filterMap.mp hpart
    exact text_of_partOf (hb block hmem) hpart
  have hitems : (convertContentBlocks serde role blocks).flatMap messageItems =
      (blocks.filterMap (resultOf serde)).flatMap messageItems ++
        ((blocks.filterMap partOf).filterMap partItem ++
          if blocks.any isResult then [] else (blocks.filterMap (callOf serde)).map callItem) := by
    unfold convertContentBlocks
    by_cases hres : blocks.filterMap (resultOf serde) = []
    · rw [if_neg (by simpa using hres), hres, filterMap_resultOf_eq_nil.mp hres]
      by_cases hcalls : blocks.filterMap (callOf serde) = []
      · rw [if_neg (by simpa using hcalls), hcalls]
        by_cases hp : blocks.filterMap partOf = []
        · simp [hp, hne]
        · rw [if_pos hp, List.flatMap_singleton, messageItems_plain _ _ hrole,
            contentItems_collapse hparts]
          simp
      · rw [if_pos hcalls, List.flatMap_singleton]
        by_cases hp : blocks.filterMap partOf = []
        · rw [if_pos hp, messageItems_calls _ _ (.inl rfl), hp]
          rfl
        · rw [if_neg hp, messageItems_calls _ _ (.inr ⟨_, rfl⟩)]
          simp only [List.head?_cons, Option.map_some, contentItems_collapse hparts]
          simp
    · have hany : blocks.any isResult = true := by
        rw [← Bool.not_eq_false, ← @filterMap_resultOf_eq_nil serde]
        exact hres
      rw [if_pos hres, hany, if_pos rfl, List.append_nil]
      by_cases hp : blocks.filterMap partOf = []
      · simp [hp]
      · rw [if_neg hp, List.flatMap_append, List.flatMap_singleton,
          messageItems_plain _ _ (by decide), contentItems_collapse hparts]
  rw [hitems, ofKind_results, ofKind_calls]
  simp only [ofKind_append]
  cases k with
  | text => simp [@ofKind_parts serde _ (.inl rfl) _ hb, ofKind_of_ne]
  | image => simp [@ofKind_parts serde _ (.inr rfl) _ hb, ofKind_of_ne]
  | call => simp [ofKind_partItem, ofKind_of_ne, ofKind_self]
  | result => simp [ofKind_partItem, ofKind_of_ne, ofKind_self]

private theorem ofKind_convertMessage {message : Json} (hsys : isSystem message = false)
    (hb : ∀ block ∈ contentBlocks message, hasType "text" block = true →
      ∃ t, block.get "text" = some (.str t)) (k : ItemKind) :
    ofKind k ((convertMessage serde message).flatMap messageItems) =
      ofKind k (if message.get "content" = some (.arr []) then [.text ""]
        else kept serde (contentBlocks message)) := by
  have hrole : ¬textOrEmpty message "role" = "system" := by simpa [isSystem] using hsys
  have hmapped : (if textOrEmpty message "role" = "user" ∨ textOrEmpty message "role" = "tool"
      then "user" else "assistant") ≠ "tool" := by
    split <;> decide
  rw [convertMessage, if_neg hrole]
  generalize (if textOrEmpty message "role" = "user" ∨ textOrEmpty message "role" = "tool"
      then "user" else "assistant") = role at hmapped ⊢
  unfold contentBlocks at hb ⊢
  cases hcontent : message.get "content" with
  | none => rfl
  | some content =>
    cases content with
    | str text =>
      have htext : hasType "text" (Json.object [("type", .str "text"), ("text", .str text)]) =
          true := by
        simp [hasType, Json.strField, Json.get_object, List.lookup_cons, Json.asStr]
      have himage := hasType_false htext (b := "image") (by decide)
      have hcall := hasType_false htext (b := "tool_use") (by decide)
      rw [if_neg (by simp), List.flatMap_singleton, messageItems_plain _ _ hmapped]
      simp [kept, dropped, himage, hcall, blockItem, htext, contentItems, Json.strField,
        Json.get_object, Json.asStr]
    | arr blocks =>
      rw [hcontent] at hb
      by_cases hne : blocks = []
      · subst hne
        rw [if_pos rfl]
        simp [convertContentBlocks, messageItems_plain _ _ hmapped, contentItems]
      · rw [if_neg (by simpa using hne)]
        exact ofKind_convertContentBlocks hmapped hne hb k
    | null => rfl
    | bool b => rfl
    | num n => rfl
    | obj fields => rfl

/-- The text of a system message is the instruction that its texts make, unless they are
blank. -/
private theorem systemReminderText_eq (message : Json) :
    systemReminderText (message.get "content") =
      if (trim ("\n".intercalate
        ((partTexts (contentBlocks message)).filter (!·.isEmpty)))).isEmpty then ""
      else instructions (partTexts (contentBlocks message)) := by
  unfold contentBlocks systemReminderText
  cases hcontent : message.get "content" with
  | none => rfl
  | some content =>
    cases content with
    | str text =>
      have hparts : partTexts [Json.object [("type", .str "text"), ("text", .str text)]] =
          [text] := by
        simp [partTexts, hasType, Json.strField, Json.get_object, List.lookup_cons, Json.asStr]
      have hjoin : "\n".intercalate ([text].filter (!·.isEmpty)) = text := by
        by_cases h : text.isEmpty = true
        · rw [String.isEmpty_iff.mp h]
          rfl
        · simp [h]
      simp only [hparts, instructions, hjoin]
    | arr blocks => rfl
    | null => rfl
    | bool b => rfl
    | num n => rfl
    | obj fields => rfl

private theorem convertMessage_system {message : Json} (hsys : isSystem message = true) :
    (convertMessage serde message).flatMap messageItems =
      if (trim ("\n".intercalate
        ((partTexts (contentBlocks message)).filter (!·.isEmpty)))).isEmpty then []
      else [.text (instructions (partTexts (contentBlocks message)))] := by
  have hrole : textOrEmpty message "role" = "system" := by simpa [isSystem] using hsys
  rw [convertMessage, if_pos hrole, systemReminderText_eq]
  split
  · rfl
  · have hne : (instructions (partTexts (contentBlocks message))).isEmpty = false := by
      rw [← Bool.not_eq_true, String.isEmpty_iff]
      intro h
      simp [instructions] at h
    simp only [hne, Bool.false_eq_true, ↓reduceIte]
    rw [List.flatMap_singleton, messageItems_plain _ _ (by decide)]
    rfl

/-- The pieces that a message holds after the translation are some of those that it held
before. -/
private theorem items_sublist {message : Json}
    (hb : ∀ block ∈ contentBlocks message, hasType "text" block = true →
      ∃ t, block.get "text" = some (.str t)) (k : ItemKind) :
    (ofKind k ((convertMessage serde message).flatMap messageItems)).Sublist
      (ofKind k (sourceItems serde message)) := by
  by_cases hsys : isSystem message = true
  · rw [convertMessage_system hsys]
    refine List.Sublist.filter _ ?_
    rw [sourceItems, if_pos hsys]
    split
    · exact List.nil_sublist _
    · next hblank =>
      have hne : partTexts (contentBlocks message) ≠ [] := by
        intro h
        rw [h] at hblank
        exact hblank (by decide)
      simp only [hne, ↓reduceIte]
      exact List.sublist_append_left _ _
  · rw [Bool.not_eq_true] at hsys
    rw [ofKind_convertMessage hsys hb, sourceItems, hsys]
    refine List.Sublist.filter _ ?_
    simp only [Bool.false_eq_true, ↓reduceIte]
    split
    · exact List.Sublist.refl _
    · exact List.Sublist.filterMap _ List.filter_sublist

private theorem blockItem_of_dropped {blocks : List Json} {block : Json}
    (h : dropped blocks block = true) : ∃ item, blockItem serde block = some item := by
  simp only [dropped, Bool.or_eq_true, Bool.and_eq_true] at h
  rcases h with ⟨himage, hurl⟩ | ⟨hcall, -⟩
  · have htext := hasType_false himage (b := "text") (by decide)
    by_cases h₃ : isBase64 block = true
    · exact ⟨_, by simp only [blockItem, htext, himage, h₃]; rfl⟩
    · exact ⟨.image (sourceUrl block), by simp [blockItem, htext, himage, h₃, hurl]⟩
  · have htext := hasType_false hcall (b := "text") (by decide)
    have himage := hasType_false hcall (b := "image") (by decide)
    exact ⟨_, by simp only [blockItem, htext, himage, hcall]; rfl⟩

private theorem ofKind_kept_iff (blocks : List Json) :
    (∀ k, ofKind k (kept serde blocks) = ofKind k (blocks.filterMap (blockItem serde))) ↔
      ∀ block ∈ blocks, dropped blocks block = false := by
  constructor
  · intro h block hmem
    by_contra hdrop
    rw [Bool.not_eq_false] at hdrop
    obtain ⟨item, hitem⟩ := @blockItem_of_dropped serde _ _ hdrop
    have hk := h item.kind
    rw [ofKind_kept, ofKind_filterMap, List.filterMap_eq_flatMap_toList,
      List.filterMap_eq_flatMap_toList, flatMap_eq_iff_of_sublist] at hk
    · have := hk block hmem
      simp [hdrop, hitem, Option.filter_some] at this
    · intro b _
      split
      · exact List.nil_sublist _
      · exact List.Sublist.refl _
  · intro h k
    rw [kept, List.filter_eq_self.mpr fun block hmem ↦ by rw [h block hmem]; rfl]

private theorem ofKind_append_iff (l rest : List Item) :
    (∀ k, ofKind k l = ofKind k (l ++ rest)) ↔ rest = [] := by
  constructor
  · intro h
    cases rest with
    | nil => rfl
    | cons item rest =>
      have hk := h item.kind
      rw [ofKind_append, List.self_eq_append_right, ofKind, List.filter_cons_of_pos (by simp)] at hk
      cases hk
  · rintro rfl k
    rw [List.append_nil]

private theorem only_text_iff (block : Json) :
    (∀ item, blockItem serde block = some item → item.kind = .text) ↔
      hasType "tool_use" block = false ∧ isResult block = false ∧
        (hasType "image" block && (isBase64 block || isUrl block)) = false := by
  unfold isResult
  constructor
  · intro h
    refine ⟨?_, ?_, ?_⟩ <;> by_contra htype <;> rw [Bool.not_eq_false] at htype
    · have h₁ := hasType_false htype (b := "text") (by decide)
      have h₂ := hasType_false htype (b := "image") (by decide)
      have := h _ (by simp only [blockItem, h₁, h₂, htype]; rfl)
      cases this
    · have h₁ := hasType_false htype (b := "text") (by decide)
      have h₂ := hasType_false htype (b := "image") (by decide)
      have h₃ := hasType_false htype (b := "tool_use") (by decide)
      have := h _ (by simp only [blockItem, h₁, h₂, h₃, htype]; rfl)
      cases this
    · rw [Bool.and_eq_true, Bool.or_eq_true] at htype
      obtain ⟨himage, hsource⟩ := htype
      have h₁ := hasType_false himage (b := "text") (by decide)
      by_cases h₄ : isBase64 block = true
      · have := h (.image (imageUri block)) (by simp [blockItem, h₁, himage, h₄])
        cases this
      · have h₅ := hsource.resolve_left h₄
        have := h (.image (sourceUrl block)) (by simp [blockItem, h₁, himage, h₄, h₅])
        cases this
  · rintro ⟨hcall, hres, himage⟩ item hitem
    have htype := hasType_of_blockItem hitem
    cases hkind : item.kind with
    | text => rfl
    | image =>
      rw [hkind] at htype
      have h₁ := hasType_false htype (b := "text") (by decide)
      change hasType "image" block = true at htype
      rw [htype, Bool.true_and, Bool.or_eq_false_iff] at himage
      simp [blockItem, h₁, htype, himage] at hitem
    | call =>
      rw [hkind] at htype
      exact absurd htype (by simp [blockType, hcall])
    | result =>
      rw [hkind] at htype
      exact absurd htype (by simp [blockType, hres])

private theorem items_eq_iff {message : Json}
    (hb : ∀ block ∈ contentBlocks message, hasType "text" block = true →
      ∃ t, block.get "text" = some (.str t)) :
    (∀ k, ofKind k ((convertMessage serde message).flatMap messageItems) =
      ofKind k (sourceItems serde message)) ↔ Whole message := by
  by_cases hsys : isSystem message = true
  · rw [convertMessage_system hsys]
    have hothers : ((contentBlocks message).filterMap (blockItem serde)).filter (·.kind ≠ .text) =
        [] ↔ ∀ block ∈ contentBlocks message, hasType "tool_use" block = false ∧
          isResult block = false ∧
          (hasType "image" block && (isBase64 block || isUrl block)) = false := by
      simp only [← @only_text_iff serde, List.filter_eq_nil_iff, List.mem_filterMap]
      constructor
      · intro h block hmem item hitem
        simpa using h item ⟨block, hmem, hitem⟩
      · rintro h item ⟨block, hmem, hitem⟩
        simpa using h block hmem item hitem
    rw [Whole, if_pos hsys, ← hothers]
    simp only [sourceItems, hsys, ↓reduceIte]
    by_cases htexts : partTexts (contentBlocks message) = []
    · have hblank : (trim ("\n".intercalate (([] : List String).filter (!·.isEmpty)))).isEmpty =
          true := by decide
      simp only [htexts, hblank, ↓reduceIte, ne_eq, not_true_eq_false, false_implies, and_true]
      exact ofKind_append_iff [] _
    · simp only [htexts, ↓reduceIte, ne_eq, not_false_eq_true, true_implies]
      split
      · next hblank =>
        rw [hblank]
        refine iff_of_false (fun h ↦ ?_) (by simp)
        have hk := h .text
        rw [ofKind_append] at hk
        simp [ofKind] at hk
      · next hblank =>
        rw [Bool.not_eq_true] at hblank
        rw [hblank, ofKind_append_iff]
        simp
  · rw [Bool.not_eq_true] at hsys
    simp only [ofKind_convertMessage hsys hb, sourceItems, Whole, hsys, Bool.false_eq_true,
      ↓reduceIte]
    split
    · next hempty => simp [contentBlocks, hempty]
    · exact ofKind_kept_iff _

/-- Filling in missing replies puts placeholders between the messages. -/
theorem padded_fixFrom {pending : List Json} (hp : ∀ m ∈ pending, ∃ id, m = placeholder id)
    (messages : List Json) :
    Padded (∃ id, · = placeholder id) messages (fixFrom pending messages) := by
  induction messages generalizing pending with
  | nil =>
    rw [fixFrom, ← List.append_nil pending]
    exact Padded.nil.append_left hp
  | cons message rest ih =>
    rw [fixFrom]
    split
    · exact .keep message (ih hp)
    · refine Padded.append_left hp (.keep message (ih fun m hm ↦ ?_))
      obtain ⟨id, -, rfl⟩ := List.mem_map.mp hm
      exact ⟨id, rfl⟩

/-- The messages of a translated request. -/
theorem get_messages (serde : SerdeJson) (model : String) (body : Json) (stream : Bool) :
    (translate serde model body stream).get "messages" = some (.arr (fixMissingToolResponses
      (systemMessage body ++ carried serde body))) := by
  unfold translate
  simp only [List.append_assoc]
  rw [Json.get_object_append]
  · simp [Json.get_object, List.lookup_cons, carried]
  · simp only [List.mem_append, Option.mem_toList, Option.map_eq_some_iff]
    rintro f (hf | ⟨_, _, rfl⟩ | ⟨_, _, rfl⟩ | ⟨_, _, rfl⟩ | ⟨_, _, rfl⟩ | ⟨_, _, rfl⟩)
    · split at hf
      · cases List.mem_singleton.mp hf
        simp
      · cases hf
    all_goals simp

/-- A request loses nothing exactly when each message of its conversation is carried over
whole. -/
theorem losesNothing_iff (serde : SerdeJson) (model : String) (stream : Bool)
    (request : ClaudeRequest) : LosesNothing serde model stream request.body ↔
      ∀ message ∈ sourceMessages request.body, Whole message := by
  have hpadded : ∃ messages, (translate serde model request.body stream).get "messages" =
      some (.arr messages) ∧ Padded (∃ id, · = placeholder id)
        (systemMessage request.body ++ carried serde request.body) messages :=
    ⟨_, get_messages .., padded_fixFrom (by simp) _⟩
  rw [LosesNothing, and_iff_right hpadded]
  have hkind : ∀ k, ofKind k ((carried serde request.body).flatMap messageItems) =
      ofKind k ((sourceMessages request.body).flatMap (sourceItems serde)) ↔
      ∀ message ∈ sourceMessages request.body,
        ofKind k ((convertMessage serde message).flatMap messageItems) =
          ofKind k (sourceItems serde message) := by
    intro k
    rw [carried, List.flatMap_assoc, ofKind, ofKind, List.filter_flatMap, List.filter_flatMap]
    exact flatMap_eq_iff_of_sublist fun message hmem ↦
      items_sublist (request.texts message hmem) k
  simp only [hkind]
  constructor
  · intro h message hmem
    exact (items_eq_iff (request.texts message hmem)).mp fun k ↦ h k message hmem
  · intro h k message hmem
    exact (items_eq_iff (request.texts message hmem)).mpr (h message hmem) k

end Messages

/-- A request with a text and an image by its URL. -/
def urlImageRequest : ClaudeRequest where
  body := Json.object [("messages", .arr [Json.object [("role", .str "user"), ("content", .arr [
    Json.object [("type", .str "text"), ("text", .str "What is this?")],
    Json.object [("type", .str "image"), ("source", Json.object [("type", .str "url"),
      ("url", .str "https://example.com/cat.png")])]])]])]
  texts := by
    intro message hmessage block hblock htext
    obtain rfl := List.mem_singleton.mp hmessage
    rcases hblock with _ | ⟨_, _ | ⟨_, h⟩⟩
    · exact ⟨"What is this?", by decide⟩
    · exact absurd htext (by decide)
    · cases h

/-- The image of that request is lost. -/
theorem url_image_is_lost :
    ¬ ∀ (serde : SerdeJson) (model : String) (stream : Bool) (request : ClaudeRequest),
      LosesNothing serde model stream request.body := by
  intro hall
  have hkept := (hall ⟨fun _ ↦ none, fun _ ↦ "", fun _ ↦ ""⟩ "m" false urlImageRequest).2 .image
  exact absurd hkept (by decide)

end NullRouter.Translate.Request.ClaudeToOpenai
