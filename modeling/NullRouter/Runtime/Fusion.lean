import Mathlib.Data.List.Infix
import NullRouter.Translate.Concerns
import NullRouter.Translate.Schema

/-!
# Bodies of a fusion combo

What each model of the panel is asked and what the judge is asked:
`services/runtime-actix/src/fusion.rs:24–270` and `:340–424`. A panel model sees the conversation
with its tool turns told as prose; the judge sees the conversation as it is, with a directive at
its end.
-/

namespace NullRouter.Runtime.Fusion

open NullRouter.Base NullRouter.Translate

/-- `PanelAnswer`, `fusion.rs:31`. -/
structure PanelAnswer where
  model : String
  text : String
  deriving DecidableEq

/-- `TOOL_CALL_PREFIX`, `fusion.rs:24`. -/
def toolCallPrefix : String := "[Called tools: "

/-- `TOOL_RESULT_PREFIX`, `fusion.rs:27`. -/
def toolResultPrefix : String := "[Tool result: "

/-- `is_tool_block`, `fusion.rs:164`. -/
def isToolBlock (block : Json) : Bool := hasType "tool_use" block || hasType "tool_result" block

/-- `tool_call_name`, `fusion.rs:216`. -/
def toolCallName (call : Json) : String :=
  ((((call.get "function").bind (·.get "name")).or (call.get "name")).bind Json.asStr).getD "tool"

/-- `content_as_text`, `fusion.rs:226`: content without text that is read is printed. -/
def contentAsText (serde : SerdeJson) : Option Json → String
  | some (.str text) => text
  | some value =>
    let extracted := extractTextContent (some value) "\n"
    if extracted = "" ∧ value.isNull = false then serde.toText value else extracted
  | none => ""

/-- `join_with_newline`, `fusion.rs:243`. -/
def joinWithNewline (base addition : String) : String :=
  if base = "" then addition else base ++ "\n" ++ addition

/-- A turn's calls in prose. -/
def calledTools (names : List String) : String :=
  toolCallPrefix ++ ", ".intercalate names ++ "]"

/-- A tool's results in prose. -/
def toolResult (text : String) : String := toolResultPrefix ++ text ++ "]"

/-- `flatten_blocks`, `fusion.rs:172`. -/
def flattenBlocks (serde : SerdeJson) (message : Json) (blocks : List Json) : Json :=
  let textParts := (partTexts blocks).filter (!·.isEmpty)
  let toolNames := (blocks.filter (hasType "tool_use")).map fun block ↦
    (block.strField "name").getD "tool"
  let toolResults := (blocks.filter (hasType "tool_result")).map fun block ↦
    contentAsText serde (block.get "content")
  let content := "\n".intercalate textParts
  let content :=
    if toolNames.isEmpty then content else joinWithNewline content (calledTools toolNames)
  let content :=
    if toolResults.isEmpty then content
    else joinWithNewline content (toolResult ("\n".intercalate toolResults))
  message.setField "content" (.str content)

/-- `flatten_message`, `fusion.rs:117`. -/
def flattenMessage (serde : SerdeJson) (message : Json) : Json :=
  match message with
  | .obj _ =>
    let role := textOrEmpty message "role"
    if role = "tool" ∨ role = "function" then
      .object [("role", .str "assistant"),
        ("content", .str (toolResult (contentAsText serde (message.get "content"))))]
    else
      match (arrayField message "tool_calls").filter fun _ ↦ role = "assistant" with
      | some calls =>
        (message.eraseField "tool_calls").setField "content"
          (.str (joinWithNewline (contentAsText serde (message.get "content"))
            (calledTools (calls.map toolCallName))))
      | none =>
        match (arrayField message "content").filter (·.any isToolBlock) with
        | some blocks => flattenBlocks serde message blocks
        | none => message
  | message => message

/-- `flatten_tool_history`, `fusion.rs:113`. -/
def flattenToolHistory (serde : SerdeJson) (messages : List Json) : List Json :=
  messages.map (flattenMessage serde)

/-- One key of the loop of `panel_body`: its array is flattened. -/
def flattenKey (serde : SerdeJson) (panel : Json) (key : String) : Json :=
  match arrayField panel key with
  | some messages => panel.setField key (.arr (flattenToolHistory serde messages))
  | none => panel

/-- `panel_body`, `fusion.rs:255`. -/
def panelBody (serde : SerdeJson) (body : Json) : Json :=
  match body with
  | .obj _ =>
    let panel := ["tools", "tool_choice", "stream_options"].foldl Json.eraseField body
    ["messages", "input"].foldl (flattenKey serde) (panel.setField "stream" (.bool false))
  | body => body

/-- The answers as the judge reads them, by their number. -/
def panelResponses (answers : List PanelAnswer) : String :=
  "\n\n".intercalate (answers.mapIdx fun index answer ↦
    "[Source " ++ toString (index + 1) ++ "]\n" ++ answer.text)

/-- `judge_prompt`, `fusion.rs:351`. -/
def judgePrompt (answers : List PanelAnswer) : String :=
  "\n".intercalate [
    "You are the JUDGE in a model-fusion panel. " ++ toString answers.length ++
      " expert models independently answered the user's most recent request. Their responses " ++
      "are below, anonymized by source.",
    "",
    "Do NOT mention that multiple models were used, and do NOT refer to the sources. Produce " ++
      "ONE authoritative final answer addressed directly to the user.",
    "",
    "First, internally analyze the panel along these dimensions: consensus (points most sources " ++
      "agree on — treat as higher-confidence), contradictions (where they disagree — resolve " ++
      "with your own judgment), partial coverage, unique insights only one source surfaced, and " ++
      "blind spots every source missed. Then write the best possible final answer grounded in " ++
      "that analysis — more complete and correct than any single response, with no filler.",
    "",
    "=== PANEL RESPONSES ===",
    panelResponses answers,
    "=== END PANEL RESPONSES ===",
    "",
    "Now write the final answer to the user's original request."]

/-- A turn of the user, as OpenAI, Claude and the Responses API have it. -/
def userTurn (text : String) : Json := .object [("role", .str "user"), ("content", .str text)]

/-- A turn of the user, as Gemini has it. -/
def userContents (text : String) : Json :=
  .object [("role", .str "user"), ("parts", .arr [.object [("text", .str text)]])]

/-- `append_user_turn`, `fusion.rs:394`. -/
def appendUserTurn (body : Json) (text : String) : Json :=
  match body with
  | .obj _ =>
    match arrayField body "messages", arrayField body "input", arrayField body "contents" with
    | some messages, _, _ => body.setField "messages" (.arr (messages ++ [userTurn text]))
    | none, some input, _ => body.setField "input" (.arr (input ++ [userTurn text]))
    | none, none, some contents =>
      body.setField "contents" (.arr (contents ++ [userContents text]))
    | none, none, none => body.setField "messages" (.arr [userTurn text])
  | _ => .object [("messages", .arr [userTurn text])]

/-- `judge_body`, `fusion.rs:386`. -/
def judgeBody (body : Json) (answers : List PanelAnswer) : Json :=
  appendUserTurn body (judgePrompt answers)

end NullRouter.Runtime.Fusion

/-!
## What the panel and the judge see

The panel's messages have no structured tool turn, and what the tools were called and answered
stands in them as text; the judge sees every turn of the conversation, and then its directive,
`services/runtime-actix/src/fusion.rs:107–270` and `:386–424`.
-/

namespace NullRouter.Runtime.Fusion

open NullRouter.Base NullRouter.Translate

/-- Whether a message is a structured tool turn of OpenAI or of Claude: a tool's result, an
assistant turn with calls, or content with blocks of tools. -/
def IsToolTurn (message : Json) : Prop :=
  message.strField "role" = some "tool" ∨ message.strField "role" = some "function" ∨
  (message.strField "role" = some "assistant" ∧ (arrayField message "tool_calls").isSome) ∨
  ∃ blocks, arrayField message "content" = some blocks ∧ ∃ block ∈ blocks, isToolBlock block = true

/-- The texts of a tool's result: the text itself, or the text blocks in it. -/
def resultTexts : Option Json → List String
  | some (.str text) => [text]
  | some (.arr parts) => partTexts parts
  | _ => []

/-- What is said by the tools in a message of OpenAI or of Claude: the text of a result, and the
name of a tool that is called. -/
inductive ToolText (message : Json) : String → Prop
  | result {text : String}
    (hrole : message.strField "role" = some "tool" ∨ message.strField "role" = some "function")
    (htext : text ∈ resultTexts (message.get "content")) : ToolText message text
  | call {calls : List Json} {call : Json} {name : String}
    (hrole : message.strField "role" = some "assistant")
    (hcalls : arrayField message "tool_calls" = some calls) (hcall : call ∈ calls)
    (hname : (call.get "function").bind (·.strField "name") = some name) : ToolText message name
  | useBlock {blocks : List Json} {block : Json} {name : String}
    (hrole : message.strField "role" = some "assistant")
    (hcalls : message.get "tool_calls" = none)
    (hblocks : arrayField message "content" = some blocks) (hblock : block ∈ blocks)
    (htype : hasType "tool_use" block = true) (hname : block.strField "name" = some name) :
    ToolText message name
  | resultBlock {blocks : List Json} {block : Json} {text : String}
    (hrole : message.strField "role" = some "user")
    (hblocks : arrayField message "content" = some blocks) (hblock : block ∈ blocks)
    (htype : hasType "tool_result" block = true) (htext : text ∈ resultTexts (block.get "content")) :
    ToolText message text

/-- A text stands in another. -/
def Within (part whole : String) : Prop := part.toList <:+: whole.toList

instance (part whole : String) : Decidable (Within part whole) :=
  inferInstanceAs (Decidable (part.toList <:+: whole.toList))

/-- A text stands in the plain content of a message. -/
def Says (message : Json) (text : String) : Prop :=
  ∃ content, message.get "content" = some (.str content) ∧ Within text content

section

variable {part whole : String}

theorem Within.refl (text : String) : Within text text := List.infix_rfl

theorem Within.trans {text : String} (h : Within text part) (h' : Within part whole) :
    Within text whole := List.IsInfix.trans h h'

/-- What stands in a text stands in what is appended to it. -/
theorem Within.append_right (h : Within part whole) (tail : String) :
    Within part (whole ++ tail) := by
  rw [Within, String.toList_append]
  exact List.IsInfix.trans h (List.prefix_append _ _).isInfix

/-- What stands in a text stands in what it is appended to. -/
theorem Within.append_left (h : Within part whole) (head : String) :
    Within part (head ++ whole) := by
  rw [Within, String.toList_append]
  exact List.IsInfix.trans h (List.suffix_append _ _).isInfix

/-- A text that is joined with others stands in the whole. -/
theorem within_intercalate (separator : String) {parts : List String} (h : part ∈ parts) :
    Within part (separator.intercalate parts) := by
  induction parts with
  | nil => cases h
  | cons head parts ih =>
    by_cases hlast : parts = []
    · subst hlast
      rw [String.intercalate_singleton, List.mem_singleton.mp h]
      exact .refl head
    · rw [String.intercalate_cons_of_ne_nil hlast]
      rcases List.mem_cons.mp h with rfl | htail
      · exact ((Within.refl _).append_right _).append_right _
      · exact (ih htail).append_left _

/-- Both lines stand in what they are joined to. -/
theorem within_joinWithNewline (base addition : String) :
    Within base (joinWithNewline base addition) ∧ Within addition (joinWithNewline base addition) := by
  unfold joinWithNewline
  split
  · next hempty =>
    subst hempty
    exact ⟨List.nil_infix, .refl addition⟩
  · exact ⟨((Within.refl _).append_right _).append_right _, (Within.refl _).append_left _⟩

/-- A name stands in the prose of the calls. -/
theorem within_calledTools {names : List String} (h : part ∈ names) :
    Within part (calledTools names) :=
  ((within_intercalate ", " h).append_left _).append_right _

/-- A result stands in its prose. -/
theorem within_toolResult (text : String) : Within text (toolResult text) :=
  ((Within.refl text).append_left _).append_right _

/-- The texts of a result stand in the text of its content. -/
theorem within_contentAsText (serde : SerdeJson) {content : Option Json}
    (h : part ∈ resultTexts content) : Within part (contentAsText serde content) := by
  match content with
  | some (.str text) =>
    rw [List.mem_singleton.mp h]
    exact .refl text
  | some (.arr parts) =>
    by_cases hempty : part = ""
    · subst hempty
      exact List.nil_infix
    · have hkept : part ∈ (partTexts parts).filter (!·.isEmpty) :=
        List.mem_filter.mpr ⟨h, by simpa using hempty⟩
      have hwithin : Within part (extractTextContent (some (.arr parts)) "\n") :=
        within_intercalate "\n" hkept
      show Within part (if _ ∧ _ then _ else _)
      rw [if_neg]
      · exact hwithin
      · rintro ⟨hnothing, -⟩
        rw [hnothing] at hwithin
        apply hempty
        exact String.toList_eq_nil_iff.mp (List.eq_nil_of_infix_nil hwithin)
  | some .null | some (.bool _) | some (.num _) | some (.obj _) | none => cases h

end

section

variable {serde : SerdeJson} {message : Json}

private theorem textOrEmpty_role_iff {role : String} (hrole : role ≠ "") :
    textOrEmpty message "role" = role ↔ message.strField "role" = some role := by
  unfold textOrEmpty
  cases message.strField "role" with
  | none => simp [Ne.symm hrole]
  | some name => simp

/-- A message is a tool's result, an assistant turn with calls, one with blocks of tools, or no
tool turn. -/
theorem flattenMessage_cases (serde : SerdeJson) (message : Json) :
    ((message.strField "role" = some "tool" ∨ message.strField "role" = some "function") ∧
      flattenMessage serde message =
        .object [("role", .str "assistant"),
          ("content", .str (toolResult (contentAsText serde (message.get "content"))))]) ∨
    (message.strField "role" = some "assistant" ∧
      ∃ calls, arrayField message "tool_calls" = some calls ∧
        flattenMessage serde message =
          (message.eraseField "tool_calls").setField "content"
            (.str (joinWithNewline (contentAsText serde (message.get "content"))
              (calledTools (calls.map toolCallName))))) ∨
    (message.strField "role" ≠ some "tool" ∧ message.strField "role" ≠ some "function" ∧
      (message.strField "role" = some "assistant" → arrayField message "tool_calls" = none) ∧
      ∃ blocks, arrayField message "content" = some blocks ∧
        flattenMessage serde message = flattenBlocks serde message blocks) ∨
    ¬ IsToolTurn message ∧ flattenMessage serde message = message := by
  match message with
  | .null | .bool _ | .num _ | .str _ | .arr _ =>
    refine .inr (.inr (.inr ⟨?_, rfl⟩))
    rintro (h | h | ⟨h, -⟩ | ⟨_, h, -⟩) <;> cases h
  | .obj fields =>
    simp only [flattenMessage, textOrEmpty_role_iff (show "tool" ≠ "" by decide),
      textOrEmpty_role_iff (show "function" ≠ "" by decide),
      textOrEmpty_role_iff (show "assistant" ≠ "" by decide)]
    by_cases hresult : (Json.obj fields).strField "role" = some "tool" ∨
        (Json.obj fields).strField "role" = some "function"
    · exact .inl ⟨hresult, if_pos hresult⟩
    · rw [if_neg hresult]
      obtain ⟨htool, hfunction⟩ := not_or.mp hresult
      by_cases hcalls : (Json.obj fields).strField "role" = some "assistant" ∧
          (arrayField (.obj fields) "tool_calls").isSome
      · obtain ⟨hrole, hsome⟩ := hcalls
        obtain ⟨calls, hcalls⟩ := Option.isSome_iff_exists.mp hsome
        refine .inr (.inl ⟨hrole, calls, hcalls, ?_⟩)
        rw [hcalls, Option.filter_some, if_pos (by simpa using hrole)]
      · have hnone : (arrayField (.obj fields) "tool_calls").filter
            (fun _ ↦ (Json.obj fields).strField "role" = some "assistant") = none := by
          rw [Option.filter_eq_none_iff]
          intro calls hsome
          simpa using fun hrole ↦ hcalls ⟨hrole, Option.isSome_of_mem hsome⟩
        rw [hnone]
        refine .inr (.inr ?_)
        by_cases hblocks : ∃ blocks, arrayField (.obj fields) "content" = some blocks ∧
            ∃ block ∈ blocks, isToolBlock block = true
        · obtain ⟨blocks, hcontent, hany⟩ := hblocks
          refine .inl ⟨htool, hfunction, ?_, blocks, hcontent, ?_⟩
          · intro hrole
            simpa using fun hsome ↦ hcalls ⟨hrole, hsome⟩
          · rw [hcontent, Option.filter_some, if_pos (List.any_eq_true.mpr hany)]
        · refine .inr ⟨?_, ?_⟩
          · rintro (h | h | h | h)
            · exact htool h
            · exact hfunction h
            · exact hcalls h
            · exact hblocks h
          · have hplain : (arrayField (.obj fields) "content").filter (·.any isToolBlock) =
                none := by
              rw [Option.filter_eq_none_iff]
              intro blocks hsome hany
              exact hblocks ⟨blocks, hsome, List.any_eq_true.mp hany⟩
            rw [hplain]

/-- A message whose content is set as text, and that is no result and has no calls of an
assistant, is no tool turn. -/
private theorem not_isToolTurn_of_text {content : String}
    (htool : message.strField "role" ≠ some "tool")
    (hfunction : message.strField "role" ≠ some "function")
    (hcalls : message.strField "role" = some "assistant" → arrayField message "tool_calls" = none)
    (hcontent : message.get "content" = some (.str content)) : ¬ IsToolTurn message := by
  rintro (h | h | ⟨hrole, h⟩ | ⟨blocks, h, -⟩)
  · exact htool h
  · exact hfunction h
  · rw [hcalls hrole] at h
    cases h
  · rw [arrayField, hcontent] at h
    cases h

private theorem isObject_of_get {key : String} {value : Json} (h : message.get key = some value) :
    message.asObject.isSome = true := by
  cases message with
  | obj fields => rfl
  | _ => cases h

private theorem isObject_of_arrayField {key : String} {items : List Json}
    (h : arrayField message key = some items) : message.asObject.isSome = true := by
  obtain ⟨value, hvalue, -⟩ := Option.bind_eq_some_iff.mp h
  exact isObject_of_get hvalue

/-- No flattened message is a structured tool turn. -/
theorem not_isToolTurn_flattenMessage (serde : SerdeJson) (message : Json) :
    ¬ IsToolTurn (flattenMessage serde message) := by
  rcases flattenMessage_cases serde message with ⟨-, h⟩ | ⟨hrole, calls, hcalls, h⟩ |
    ⟨htool, hfunction, hcalls, blocks, hblocks, h⟩ | ⟨hplain, h⟩
  · rw [h]
    apply not_isToolTurn_of_text
    · rw [Json.strField_object]
      show some "assistant" ≠ some "tool"
      decide
    · rw [Json.strField_object]
      show some "assistant" ≠ some "function"
      decide
    · intro _
      rw [arrayField, Json.get_object]
      rfl
    · rw [Json.get_object]
      rfl
  · have hobject := isObject_of_arrayField hcalls
    rw [h]
    have hrole' : ∀ content : Json, ((message.eraseField "tool_calls").setField "content"
        content).strField "role" = some "assistant" := by
      intro content
      rw [Json.strField, Json.get_setField_of_ne (by decide), Json.get_eraseField_of_ne (by decide)]
      exact hrole
    apply not_isToolTurn_of_text
    · rw [hrole']
      decide
    · rw [hrole']
      decide
    · intro _
      rw [arrayField, Json.get_setField_of_ne (by decide), Json.get_eraseField_self]
      rfl
    · rw [Json.get_setField_self (by simpa using hobject)]
  · have hobject := isObject_of_arrayField hblocks
    rw [h, flattenBlocks]
    apply not_isToolTurn_of_text
    · rw [Json.strField, Json.get_setField_of_ne (by decide)]
      exact htool
    · rw [Json.strField, Json.get_setField_of_ne (by decide)]
      exact hfunction
    · rw [Json.strField, arrayField, Json.get_setField_of_ne (by decide),
        Json.get_setField_of_ne (by decide)]
      exact hcalls
    · rw [Json.get_setField_self hobject]
  · rw [h]
    exact hplain

private theorem says_flattenBlocks {blocks : List Json} {text : String}
    (hobject : message.asObject.isSome = true)
    (htext : (∃ block ∈ blocks, hasType "tool_use" block = true ∧
        (block.strField "name").getD "tool" = text) ∨
      ∃ block ∈ blocks, hasType "tool_result" block = true ∧
        Within text (contentAsText serde (block.get "content"))) :
    Says (flattenBlocks serde message blocks) text := by
  refine ⟨_, Json.get_setField_self hobject, ?_⟩
  rcases htext with ⟨block, hblock, htype, hname⟩ | ⟨block, hblock, htype, hwithin⟩
  · have hmem : text ∈ (blocks.filter (hasType "tool_use")).map fun block ↦
        (block.strField "name").getD "tool" :=
      List.mem_map.mpr ⟨block, List.mem_filter.mpr ⟨hblock, htype⟩, hname⟩
    have hcalled := within_calledTools hmem
    have hsome : ((blocks.filter (hasType "tool_use")).map fun block ↦
        (block.strField "name").getD "tool").isEmpty = false := by
      rw [List.isEmpty_eq_false_iff]
      exact List.ne_nil_of_mem hmem
    simp only [hsome, Bool.false_eq_true, if_false]
    have hline := hcalled.trans (within_joinWithNewline ("\n".intercalate
      ((partTexts blocks).filter (!·.isEmpty))) _).2
    split
    · exact hline
    · exact hline.trans (within_joinWithNewline _ _).1
  · have hmem : contentAsText serde (block.get "content") ∈
        (blocks.filter (hasType "tool_result")).map fun block ↦
          contentAsText serde (block.get "content") :=
      List.mem_map.mpr ⟨block, List.mem_filter.mpr ⟨hblock, htype⟩, rfl⟩
    have hsome : ((blocks.filter (hasType "tool_result")).map fun block ↦
        contentAsText serde (block.get "content")).isEmpty = false := by
      rw [List.isEmpty_eq_false_iff]
      exact List.ne_nil_of_mem hmem
    simp only [hsome, Bool.false_eq_true, if_false]
    exact ((hwithin.trans (within_intercalate "\n" hmem)).trans (within_toolResult _)).trans
      (within_joinWithNewline _ _).2

/-- What the tools say in a message stands in the flattened message as text. -/
theorem says_flattenMessage (serde : SerdeJson) {text : String} (h : ToolText message text) :
    Says (flattenMessage serde message) text := by
  cases h with
  | result hrole htext =>
    rcases flattenMessage_cases serde message with ⟨-, h⟩ | ⟨hrole', -⟩ |
      ⟨htool, hfunction, -⟩ | ⟨hplain, -⟩
    · rw [h]
      refine ⟨_, Json.get_object _ _, ?_⟩
      exact (within_contentAsText serde htext).trans (within_toolResult _)
    · rcases hrole with hrole | hrole <;> (rw [hrole] at hrole'; simp at hrole')
    · rcases hrole with hrole | hrole
      · exact absurd hrole htool
      · exact absurd hrole hfunction
    · rcases hrole with hrole | hrole
      · exact absurd (.inl hrole) hplain
      · exact absurd (.inr (.inl hrole)) hplain
  | @call calls call name hrole hcalls hcall hname =>
    rcases flattenMessage_cases serde message with ⟨hrole', -⟩ | ⟨-, calls', hcalls', h⟩ |
      ⟨-, -, hnone, -⟩ | ⟨hplain, -⟩
    · rw [hrole] at hrole'
      simp at hrole'
    · obtain rfl : calls = calls' := Option.some.inj (hcalls.symm.trans hcalls')
      have hobject := isObject_of_arrayField hcalls
      have hcallName : toolCallName call = text := by
        obtain ⟨function, hfunction, hfield⟩ := Option.bind_eq_some_iff.mp hname
        obtain ⟨value, hvalue, hstr⟩ := Option.bind_eq_some_iff.mp hfield
        simp only [toolCallName, hfunction, Option.bind_some, hvalue, Option.some_or, hstr,
          Option.getD_some]
      rw [h]
      refine ⟨_, Json.get_setField_self (by simpa using hobject), ?_⟩
      have hmem : text ∈ calls.map toolCallName := List.mem_map.mpr ⟨call, hcall, hcallName⟩
      exact (within_calledTools hmem).trans (within_joinWithNewline _ _).2
    · rw [hnone hrole] at hcalls
      cases hcalls
    · exact absurd (.inr (.inr (.inl ⟨hrole, Option.isSome_of_mem hcalls⟩))) hplain
  | @useBlock blocks block name hrole hcalls hblocks hblock htype hname =>
    rcases flattenMessage_cases serde message with ⟨hrole', -⟩ | ⟨-, calls, hcalls', -⟩ |
      ⟨-, -, -, blocks', hblocks', h⟩ | ⟨hplain, -⟩
    · rw [hrole] at hrole'
      simp at hrole'
    · rw [arrayField, hcalls] at hcalls'
      cases hcalls'
    · obtain rfl : blocks = blocks' := Option.some.inj (hblocks.symm.trans hblocks')
      rw [h]
      apply says_flattenBlocks (isObject_of_arrayField hblocks)
      refine .inl ⟨block, hblock, htype, ?_⟩
      rw [hname, Option.getD_some]
    · refine absurd (.inr (.inr (.inr ⟨blocks, hblocks, block, hblock, ?_⟩))) hplain
      rw [isToolBlock, htype, Bool.true_or]
  | @resultBlock blocks block text hrole hblocks hblock htype htext =>
    rcases flattenMessage_cases serde message with ⟨hrole', -⟩ | ⟨hrole', -⟩ |
      ⟨-, -, -, blocks', hblocks', h⟩ | ⟨hplain, -⟩
    · rw [hrole] at hrole'
      simp at hrole'
    · rw [hrole] at hrole'
      simp at hrole'
    · obtain rfl : blocks = blocks' := Option.some.inj (hblocks.symm.trans hblocks')
      rw [h]
      apply says_flattenBlocks (isObject_of_arrayField hblocks)
      exact .inr ⟨block, hblock, htype, within_contentAsText serde htext⟩
    · refine absurd (.inr (.inr (.inr ⟨blocks, hblocks, block, hblock, ?_⟩))) hplain
      rw [isToolBlock, htype, Bool.or_true]

end

section

variable {serde : SerdeJson} {body : Json}

/-- The value of a key of turns, its turns flattened where it is a list of them. -/
def flattenValue (serde : SerdeJson) (value : Json) : Json :=
  match value.asArray with
  | some messages => .arr (flattenToolHistory serde messages)
  | none => value

private theorem get_flattenKey (serde : SerdeJson) (panel : Json) (key other : String) :
    (flattenKey serde panel key).get other =
      if other = key then
        (panel.get key).map (flattenValue serde)
      else panel.get other := by
  unfold flattenKey
  cases harray : arrayField panel key with
  | none =>
    dsimp only
    split
    · next heq =>
      subst heq
      cases hvalue : panel.get other with
      | none => rfl
      | some value =>
        have hnone : value.asArray = none := by
          rw [arrayField, hvalue] at harray
          exact harray
        simp only [Option.map_some, flattenValue, hnone]
    · rfl
  | some messages =>
    dsimp only
    split
    · next heq =>
      subst heq
      obtain ⟨value, hvalue, hsome⟩ := Option.bind_eq_some_iff.mp harray
      rw [Json.get_setField_self (isObject_of_get hvalue), hvalue, Option.map_some, flattenValue,
        hsome]
    · next hne => exact Json.get_setField_of_ne hne

/-- The fields of the panel's body: no definitions of tools, no streaming, flattened turns, and
what else there is in the body. -/
theorem get_panelBody (serde : SerdeJson) (hobject : body.asObject.isSome = true) (key : String) :
    (panelBody serde body).get key =
      if key ∈ ["tools", "tool_choice", "stream_options"] then none
      else if key = "stream" then some (.bool false)
      else if key ∈ ["messages", "input"] then
        (body.get key).map (flattenValue serde)
      else body.get key := by
  have hbody : panelBody serde body =
      flattenKey serde (flattenKey serde ((["tools", "tool_choice", "stream_options"].foldl
        Json.eraseField body).setField "stream" (.bool false)) "messages") "input" := by
    cases body with
    | obj fields => rfl
    | _ => cases hobject
  have hset : ∀ other, (((["tools", "tool_choice", "stream_options"].foldl Json.eraseField
      body).setField "stream" (.bool false)).get other) =
        if other = "stream" then some (.bool false)
        else if other ∈ ["tools", "tool_choice", "stream_options"] then none
        else body.get other := by
    intro other
    split
    · next heq =>
      rw [heq, Json.get_setField_self (by simpa using hobject)]
    · next hne => rw [Json.get_setField_of_ne hne, Json.get_foldl_eraseField]
  rw [hbody, get_flattenKey]
  by_cases hinput : key = "input"
  · subst hinput
    rw [if_pos rfl, get_flattenKey, if_neg (by decide), hset]
    simp
  · rw [if_neg hinput, get_flattenKey]
    by_cases hmessages : key = "messages"
    · subst hmessages
      rw [if_pos rfl, hset]
      simp
    · rw [if_neg hmessages, hset]
      by_cases hstream : key = "stream"
      · subst hstream
        simp
      · simp [hstream, hmessages, hinput]

/-- The field that a client format reads its turns of. -/
def turnsKey : Format → String
  | .openAiResponses => "input"
  | .gemini => "contents"
  | _ => "messages"

/-- A turn of the user in a client format. -/
def directiveTurn (format : Format) (text : String) : Json :=
  if turnsKey format = "contents" then userContents text else userTurn text

/-- A body with these turns in the field of its format, and with turns of no other format. -/
structure HasTurns (format : Format) (body : Json) (turns : List Json) : Prop where
  turns_eq : arrayField body (turnsKey format) = some turns
  others : ∀ key ∈ ["messages", "input", "contents"], key ≠ turnsKey format →
    arrayField body key = none

/-- The judge's body has one turn more, in the field of its format, and every other field as it
was. -/
theorem judgeBody_eq {format : Format} {turns : List Json} (h : HasTurns format body turns)
    (answers : List PanelAnswer) :
    judgeBody body answers = body.setField (turnsKey format)
      (.arr (turns ++ [directiveTurn format (judgePrompt answers)])) := by
  obtain ⟨fields, rfl⟩ : ∃ fields, body = .obj fields := by
    have hobject := isObject_of_arrayField h.turns_eq
    cases body with
    | obj fields => exact ⟨fields, rfl⟩
    | _ => cases hobject
  have hturns := h.turns_eq
  have hothers := h.others
  have hkey : turnsKey format = "messages" ∨ turnsKey format = "input" ∨
      turnsKey format = "contents" := by
    cases format <;> decide
  rcases hkey with hkey | hkey | hkey
  · simp only [hkey] at hturns
    simp [judgeBody, appendUserTurn, directiveTurn, hkey, hturns]
  · simp only [hkey] at hturns hothers
    have hmessages := hothers "messages" (by decide) (by decide)
    simp [judgeBody, appendUserTurn, directiveTurn, hkey, hturns, hmessages]
  · simp only [hkey] at hturns hothers
    have hmessages := hothers "messages" (by decide) (by decide)
    have hinput := hothers "input" (by decide) (by decide)
    simp [judgeBody, appendUserTurn, directiveTurn, hkey, hturns, hmessages, hinput]

/-- The panel is asked without definitions of tools; in a list of messages it sees none of them as
a structured tool turn, and reads as text what the tools said in each. The judge sees every turn,
and then its directive as a turn of the user, where its format reads turns; no other field
changes. -/
theorem panel_and_judge (serde : SerdeJson) (body : Json) (answers : List PanelAnswer) :
    (∀ key ∈ ["tools", "tool_choice", "stream_options"], (panelBody serde body).get key = none) ∧
    (∀ key ∈ ["messages", "input"], ∀ turns, arrayField body key = some turns →
      arrayField (panelBody serde body) key = some (turns.map (flattenMessage serde)) ∧
      ∀ message ∈ turns, ¬ IsToolTurn (flattenMessage serde message) ∧
        ∀ text, ToolText message text → Says (flattenMessage serde message) text) ∧
    ∀ format turns, HasTurns format body turns →
      (judgeBody body answers).get (turnsKey format) =
        some (.arr (turns ++ [directiveTurn format (judgePrompt answers)])) ∧
      ∀ key, key ≠ turnsKey format → (judgeBody body answers).get key = body.get key := by
  refine ⟨?_, ?_, ?_⟩
  · intro key hkey
    by_cases hobject : body.asObject.isSome = true
    · rw [get_panelBody serde hobject, if_pos hkey]
    · cases body with
      | obj fields => exact absurd rfl hobject
      | _ => rfl
  · intro key hkey turns hturns
    refine ⟨?_, fun message _ ↦ ⟨not_isToolTurn_flattenMessage serde message,
      fun text htext ↦ says_flattenMessage serde htext⟩⟩
    obtain ⟨value, hvalue, harray⟩ := Option.bind_eq_some_iff.mp hturns
    have hkept : key ∉ ["tools", "tool_choice", "stream_options"] ∧ key ≠ "stream" := by
      rcases List.mem_pair.mp hkey with rfl | rfl <;> decide
    rw [arrayField, get_panelBody serde (isObject_of_get hvalue), if_neg hkept.1, if_neg hkept.2,
      if_pos hkey, hvalue, Option.map_some, flattenValue, harray]
    rfl
  · intro format turns hturns
    rw [judgeBody_eq hturns]
    constructor
    · exact Json.get_setField_self (isObject_of_arrayField hturns.turns_eq)
    · intro key hkey
      exact Json.get_setField_of_ne hkey

end

/-- An assistant's turn that calls a tool. -/
def weatherTurn : Json :=
  .object [("role", .str "assistant"), ("content", .null),
    ("tool_calls", .arr [.object [("id", .str "call_1"), ("type", .str "function"),
      ("function", .object [("name", .str "get_weather"),
        ("arguments", .str "\x7b\"city\":\"Paris\"\x7d")])]])]

/-- What a tool is called with is not told to the panel. -/
theorem arguments_untold :
    ¬ ∀ (serde : SerdeJson) (body : Json) (turns : List Json) (message call : Json)
      (calls : List Json) (text : String),
      arrayField body "messages" = some turns → message ∈ turns →
      message.strField "role" = some "assistant" →
      arrayField message "tool_calls" = some calls → call ∈ calls →
      (call.get "function").bind (·.strField "arguments") = some text →
      ∃ turns', arrayField (panelBody serde body) "messages" = some turns' ∧
        ∃ told ∈ turns', Says told text := by
  intro hall
  obtain ⟨turns', hturns, told, htold, content, hcontent, hwithin⟩ :=
    hall ⟨fun _ ↦ none, fun _ ↦ "", fun _ ↦ ""⟩ (.object [("messages", .arr [weatherTurn])])
      [weatherTurn] weatherTurn _ _ "\x7b\"city\":\"Paris\"\x7d" rfl (List.mem_singleton.mpr rfl)
      rfl rfl (List.mem_singleton.mpr rfl) rfl
  obtain rfl := Option.some.inj hturns
  rw [List.mem_singleton.mp htold] at hcontent
  obtain rfl := Json.str.inj (Option.some.inj hcontent)
  revert hwithin
  decide +kernel

end NullRouter.Runtime.Fusion
