import NullRouter.Bespoke.CursorResponse

/-!
# Cursor's run requests

The request that a conversation becomes for the agent service,
`crates/execute/src/bespoke/cursor/agent.rs:153–229` with `text_from_content` of `request.rs:67`, and
what the service reads of it. The conversation is cut at its last user turn: what is before becomes
the history, and what is after is left out.
-/

namespace NullRouter.Bespoke.Cursor

open NullRouter.Base NullRouter.Translate

/-! ## Writing -/

/-- `text_from_content`, `request.rs:67`. -/
def textFromContent : Option Json → String
  | some (.str text) => text
  | some (.arr parts) =>
    "\n".intercalate ((parts.filter (·.strField "type" = some "text")).filterMap (·.strField "text"))
  | _ => ""

/-- The text of a message. -/
def messageText (message : Json) : String := textFromContent (message.get "content")

/-- A message of a role. -/
def hasRole (role : String) (message : Json) : Bool := message.strField "role" = some role

/-- `Iterator::rposition`: the place of the last item of a list that has a property. -/
def rposition {α : Type} (p : α → Bool) (items : List α) : Option Nat :=
  (items.reverse.findIdx? p).map (items.length - 1 - ·)

/-- `history_entry`, `agent.rs:212`. -/
def historyEntry (message : Json) : Option (List UInt8) :=
  let content := messageText message
  if content = "" then none
  else
    let text := putBytes 1 (Bytes.ofText content)
    let inner := putBytes 1 (putBytes 1 text)
    let field := if (message.strField "role").getD "user" = "assistant" then 2 else 1
    some (putBytes field inner)

/-- The messages that are no system texts, `agent.rs:161`. -/
def chatOf (messages : List Json) : List Json := messages.filter (!hasRole "system" ·)

/-- The place of the last user turn, `agent.rs:165`. -/
def currentIndex (chat : List Json) : Option Nat := rposition (hasRole "user") chat

/-- The current message, `agent.rs:168`: the last user turn, or without one the last message. -/
def currentMessage (chat : List Json) : Option Json :=
  ((currentIndex chat).bind (chat[·]?)).or chat.getLast?

/-- The entries of the history, `agent.rs:172`. -/
def historyEntries (chat : List Json) : List (List UInt8) :=
  (chat.take ((currentIndex chat).getD (chat.length - 1))).filterMap historyEntry

/-- `run_request`, `agent.rs:153`. -/
def runRequest (messages : List Json) (model messageId : String) : List UInt8 :=
  let system := "\n\n".intercalate
    (((messages.filter (hasRole "system")).map messageText).filter (· ≠ ""))
  let chat := chatOf messages
  let history := historyEntries chat
  let userText := (((currentMessage chat).map messageText).filter (· ≠ "")).getD "Continue."
  let userMessage := putStr 1 userText ++ putStr 2 messageId
  let userAction := putBytes 1 userMessage ++
    if history = [] then [] else putBytes 7 (history.flatMap (putBytes 1))
  let conversationAction := putBytes 1 userAction
  let requestedModel := putStr 1 model ++ putBool 7 true
  putBytes 1 [] ++ (putBytes 2 conversationAction ++
    ((if system = "" then [] else putStr 8 system) ++ putBytes 9 requestedModel))

/-! ## Reading -/

/-- `all`, `protobuf.rs:167`. -/
def Message.all (message : Message) (field : Nat) : List FieldValue :=
  (message.fields.filter (·.1 == field)).map (·.2)

/-- The text of an entry of the history, of either role. -/
def historyText (entry : FieldValue) : Option String := do
  let message := Message.decode (← entry.bytes?)
  let inner ← (message.nested 2).or (message.nested 1)
  (← (← inner.nested 1).nested 1).text 1

/-- The texts of a run request: those of the history in order, and the current one. -/
structure RunTexts where
  history : List String
  current : Option String
  deriving DecidableEq

/-- What is read of a run request. -/
def RunTexts.read (request : List UInt8) : RunTexts :=
  let userAction := ((Message.decode request).nested 2).bind (·.nested 1)
  { history := ((userAction.bind (·.nested 7)).elim [] (·.all 1)).filterMap historyText
    current := (userAction.bind (·.nested 1)).bind (·.text 1) }

/-- The texts of some messages that say something. -/
def turnTexts (chat : List Json) : List String := (chat.map messageText).filter (· ≠ "")

/-- The messages after the last user turn. -/
def laterTurns (chat : List Json) : List Json :=
  (currentIndex chat).elim [] fun index ↦ chat.drop (index + 1)

/-- Every text is carried once, in the history in its order or as the current one. Where no text is
the current one, `Continue.` stands for it. -/
def RunTexts.Carries (read : RunTexts) (texts : List String) : Prop :=
  (∃ before text after, texts = before ++ text :: after ∧ read.current = some text ∧
    read.history = before ++ after) ∨
  read.current = some "Continue." ∧ read.history = texts

/-! ## What is read back -/

section Fields

variable {field other : Nat} {value : List UInt8} (hpos : field ≠ 0) (hfield : field < 2 ^ 32)
  (hvalue : value.length < 2 ^ 64)

include hpos hfield hvalue

private theorem get_putBytes (rest : List UInt8) :
    (Message.decode (putBytes field value ++ rest)).get field = some (.bytes value) := by
  rw [Message.get, Message.decode_putBytes hpos hfield hvalue, List.find?_cons]
  simp

private theorem get_putBytes_of_ne (h : other ≠ field) (rest : List UInt8) :
    (Message.decode (putBytes field value ++ rest)).get other =
      (Message.decode rest).get other := by
  have hne : (field == other) = false := beq_false_of_ne h.symm
  rw [Message.get, Message.decode_putBytes hpos hfield hvalue, List.find?_cons]
  simp [hne, Message.get]

private theorem nested_putBytes (rest : List UInt8) :
    (Message.decode (putBytes field value ++ rest)).nested field = some (Message.decode value) := by
  rw [Message.nested, get_putBytes hpos hfield hvalue]
  rfl

end Fields

private theorem text_putStr {field : Nat} {text : String} (hpos : field ≠ 0)
    (hfield : field < 2 ^ 32) (hvalue : (Bytes.ofText text).length < 2 ^ 64) (rest : List UInt8) :
    (Message.decode (putStr field text ++ rest)).text field = some text := by
  rw [Message.text, putStr, get_putBytes hpos hfield hvalue]
  exact congrArg some (Bytes.toText_ofText text)

private theorem length_le_putBytes (field : Nat) (value : List UInt8) :
    value.length ≤ (putBytes field value).length := by
  rw [putBytes, List.length_append]
  exact Nat.le_add_left _ _

private theorem historyText_of_entry {message : Json} {entry : List UInt8}
    (h : historyEntry message = some entry) (hlength : entry.length < 2 ^ 64) :
    messageText message ≠ "" ∧ historyText (.bytes entry) = some (messageText message) := by
  rw [historyEntry] at h
  dsimp only at h
  split at h
  · cases h
  · next hsaid =>
    refine ⟨hsaid, ?_⟩
    generalize hcontent : Bytes.ofText (messageText message) = content at h
    generalize hrole : (if (message.strField "role").getD "user" = "assistant" then 2 else 1) =
      field at h
    have hfield : field = 1 ∨ field = 2 := by
      rw [← hrole]
      split
      · exact .inr rfl
      · exact .inl rfl
    obtain rfl := Option.some.inj h
    have hinner := length_le_putBytes field (putBytes 1 (putBytes 1 (putBytes 1 content)))
    have htext := length_le_putBytes 1 (putBytes 1 (putBytes 1 content))
    have hbytes := length_le_putBytes 1 (putBytes 1 content)
    have hlast := length_le_putBytes 1 content
    have hread (value : List UInt8) (hvalue : value.length < 2 ^ 64) :
        (Message.decode (putBytes 1 value)).nested 1 = some (Message.decode value) := by
      rw [← List.append_nil (putBytes 1 value)]
      exact nested_putBytes (by decide) (by decide) hvalue []
    have hpicked : ((Message.decode (putBytes field (putBytes 1 (putBytes 1 (putBytes 1
        content))))).nested 2).or ((Message.decode (putBytes field (putBytes 1 (putBytes 1
          (putBytes 1 content))))).nested 1) =
        some (Message.decode (putBytes 1 (putBytes 1 (putBytes 1 content)))) := by
      rw [← List.append_nil (putBytes field _)]
      rcases hfield with rfl | rfl
      · have hnone : (Message.decode (putBytes 1 (putBytes 1 (putBytes 1 (putBytes 1 content))) ++
            [])).nested 2 = none := by
          rw [Message.nested, get_putBytes_of_ne (by decide) (by decide) (by omega) (by decide)]
          rfl
        rw [hnone, Option.none_or]
        exact nested_putBytes (by decide) (by decide) (by omega) []
      · rw [nested_putBytes (by decide) (by decide) (by omega)]
        rfl
    have hsaid : (Message.decode (putBytes 1 content)).text 1 = some (messageText message) := by
      rw [← hcontent, ← List.append_nil (putBytes 1 _)]
      refine text_putStr (by decide) (by decide) ?_ []
      rw [hcontent]
      omega
    simp only [historyText, FieldValue.bytes?, Option.bind_eq_bind, Option.bind_some, hpicked,
      hread (putBytes 1 (putBytes 1 content)) (by omega), hread (putBytes 1 content) (by omega),
      hsaid]

private theorem all_flatMap (entries : List (List UInt8))
    (h : (entries.flatMap (putBytes 1)).length < 2 ^ 64) :
    (Message.decode (entries.flatMap (putBytes 1))).all 1 = entries.map .bytes := by
  induction entries with
  | nil => rfl
  | cons entry entries ih =>
    rw [List.flatMap_cons, List.length_append] at h
    have hentry := length_le_putBytes 1 entry
    have hrest := ih (by omega)
    rw [Message.all] at hrest ⊢
    rw [List.flatMap_cons, Message.decode_putBytes (by decide) (by decide) (by omega),
      List.filter_cons_of_pos (by rfl), List.map_cons, hrest, List.map_cons]

private theorem texts_of_entries {chat : List Json}
    (h : ∀ entry ∈ chat.filterMap historyEntry, entry.length < 2 ^ 64) :
    ((chat.filterMap historyEntry).map FieldValue.bytes).filterMap historyText =
      turnTexts chat := by
  induction chat with
  | nil => rfl
  | cons message chat ih =>
    rw [turnTexts, List.map_cons]
    cases hentry : historyEntry message with
    | none =>
      have hsilent : messageText message = "" := by
        rw [historyEntry] at hentry
        dsimp only at hentry
        split at hentry
        · assumption
        · cases hentry
      rw [List.filterMap_cons_none hentry] at h ⊢
      rw [List.filter_cons_of_neg (by simpa using hsilent)]
      exact ih h
    | some entry =>
      rw [List.filterMap_cons_some hentry] at h ⊢
      rw [List.forall_mem_cons] at h
      obtain ⟨hsaid, htext⟩ := historyText_of_entry hentry h.1
      rw [List.map_cons, List.filterMap_cons_some htext,
        List.filter_cons_of_pos (by simpa using hsaid)]
      exact congrArg _ (ih h.2)

private theorem length_le_flatMap {entries : List (List UInt8)} {entry : List UInt8}
    (h : entry ∈ entries) : entry.length ≤ (entries.flatMap (putBytes 1)).length := by
  obtain ⟨before, after, rfl⟩ := List.append_of_mem h
  have hentry := length_le_putBytes 1 entry
  rw [List.flatMap_append, List.flatMap_cons, List.length_append, List.length_append]
  omega

/-- What is read of a run request: the texts before the current message, and its own. -/
theorem read_runRequest {messages : List Json} {model messageId : String}
    (h : (runRequest messages model messageId).length < 2 ^ 64) :
    RunTexts.read (runRequest messages model messageId) =
      { history := turnTexts ((chatOf messages).take
          ((currentIndex (chatOf messages)).getD ((chatOf messages).length - 1)))
        current := some ((((currentMessage (chatOf messages)).map messageText).filter
          (· ≠ "")).getD "Continue.") } := by
  rw [runRequest] at h ⊢
  generalize hentries : historyEntries (chatOf messages) = entries at h ⊢
  generalize (((currentMessage (chatOf messages)).map messageText).filter (· ≠ "")).getD
    "Continue." = userText at h ⊢
  generalize hmessage : putStr 1 userText ++ putStr 2 messageId = userMessage at h ⊢
  generalize hhistory : (if entries = [] then []
    else putBytes 7 (entries.flatMap (putBytes 1))) = history at h ⊢
  generalize haction : putBytes 1 userMessage ++ history = userAction at h ⊢
  generalize (putStr 1 model ++ putBool 7 true) = requested at h ⊢
  generalize (if "\n\n".intercalate (((messages.filter (hasRole "system")).map
    messageText).filter (· ≠ "")) = "" then [] else putStr 8 ("\n\n".intercalate
      (((messages.filter (hasRole "system")).map messageText).filter (· ≠ "")))) = system at h ⊢
  simp only [List.length_append] at h
  have hconversation := length_le_putBytes 2 (putBytes 1 userAction)
  have huserAction := length_le_putBytes 1 userAction
  have huserMessage := length_le_putBytes 1 userMessage
  have hactionLength : userAction.length = (putBytes 1 userMessage).length + history.length := by
    rw [← haction, List.length_append]
  have haction₂ : (Message.decode (putBytes 1 [] ++ (putBytes 2 (putBytes 1 userAction) ++
      (system ++ putBytes 9 requested)))).nested 2 =
        some (Message.decode (putBytes 1 userAction)) := by
    rw [Message.nested, get_putBytes_of_ne (by decide) (by decide) (by decide) (by decide),
      get_putBytes (by decide) (by decide) (by omega)]
    rfl
  have haction₁ : (Message.decode (putBytes 1 userAction)).nested 1 =
      some (Message.decode userAction) := by
    rw [← List.append_nil (putBytes 1 userAction)]
    exact nested_putBytes (by decide) (by decide) (by omega) []
  have hmessage₁ : (Message.decode userAction).nested 1 = some (Message.decode userMessage) := by
    rw [← haction]
    exact nested_putBytes (by decide) (by decide) (by omega) history
  have htext : (Message.decode userMessage).text 1 = some userText := by
    have hshort := length_le_putBytes 1 (Bytes.ofText userText)
    have hlength := congrArg List.length hmessage
    rw [List.length_append, putStr] at hlength
    rw [← hmessage]
    exact text_putStr (by decide) (by decide) (by omega) _
  have hentriesRead : ((Message.decode userAction).nested 7).elim [] (·.all 1) =
      entries.map FieldValue.bytes := by
    rw [← haction, Message.nested, get_putBytes_of_ne (by decide) (by decide) (by omega)
      (by decide), ← hhistory]
    split at hhistory
    · next hnil =>
      rw [if_pos hnil, hnil]
      rfl
    · next hsome =>
      have hlength := congrArg List.length hhistory
      have hshort := length_le_putBytes 7 (entries.flatMap (putBytes 1))
      rw [if_neg hsome, ← List.append_nil (putBytes 7 _),
        get_putBytes (by decide) (by decide) (by omega)]
      exact all_flatMap entries (by omega)
  have hbounded : ∀ entry ∈ entries, entry.length < 2 ^ 64 := by
    intro entry hentry
    have hshort := length_le_flatMap hentry
    have hhistoryLength := length_le_putBytes 7 (entries.flatMap (putBytes 1))
    rw [if_neg (List.ne_nil_of_mem hentry)] at hhistory
    have hlength := congrArg List.length hhistory
    omega
  rw [RunTexts.read, haction₂, Option.bind_some, haction₁, Option.bind_some, Option.bind_some,
    hmessage₁, Option.bind_some, htext, hentriesRead, ← hentries]
  rw [← hentries] at hbounded
  rw [historyEntries] at hbounded ⊢
  rw [texts_of_entries hbounded]

/-! ## Where the conversation is cut -/

private theorem rposition_append {α : Type} {p : α → Bool} {before after : List α} {a : α}
    (ha : p a = true) (hafter : ∀ b ∈ after, p b = false) :
    rposition p (before ++ a :: after) = some before.length := by
  have hreverse : (before ++ a :: after).reverse = after.reverse ++ a :: before.reverse := by
    rw [List.reverse_append, List.reverse_cons, List.append_assoc, List.singleton_append]
  have hfound : (after.reverse ++ a :: before.reverse).findIdx? p = some after.length := by
    rw [List.findIdx?_append, List.findIdx?_eq_none_iff.mpr, Option.none_or, List.findIdx?_cons,
      if_pos ha, Option.map_some, Nat.zero_add, List.length_reverse]
    exact fun b hb ↦ hafter b (List.mem_reverse.mp hb)
  rw [rposition, hreverse, hfound, Option.map_some, List.length_append, List.length_cons]
  congr 1
  omega

private theorem rposition_eq_none {α : Type} {p : α → Bool} {items : List α}
    (h : ∀ a ∈ items, p a = false) : rposition p items = none := by
  rw [rposition, List.findIdx?_eq_none_iff.mpr, Option.map_none]
  exact fun a ha ↦ h a (List.mem_reverse.mp ha)

/-- A conversation is empty, or cut at its current message: what is before it is the history, and
what is after it follows the last user turn. -/
private theorem cut_cases (chat : List Json) : chat = [] ∨ ∃ before current after,
    chat = before ++ current :: after ∧ currentMessage chat = some current ∧
      (currentIndex chat).getD (chat.length - 1) = before.length ∧ laterTurns chat = after := by
  by_cases huser : ∃ message ∈ chat, hasRole "user" message = true
  · obtain ⟨message, hmessage, hrole⟩ := huser
    obtain ⟨current, after, before, hafter, hcurrent, hreverse, -⟩ :=
      List.exists_of_eraseP (List.mem_reverse.mpr hmessage) hrole
    have hchat : chat = before.reverse ++ current :: after.reverse := by
      rw [← List.reverse_reverse chat, hreverse, List.reverse_append, List.reverse_cons,
        List.append_assoc, List.singleton_append]
    have hindex : currentIndex chat = some before.reverse.length := by
      rw [currentIndex, hchat]
      refine rposition_append hcurrent fun b hb ↦ ?_
      exact Bool.eq_false_of_not_eq_true (hafter b (List.mem_reverse.mp hb))
    refine .inr ⟨before.reverse, current, after.reverse, hchat, ?_, ?_, ?_⟩
    · rw [currentMessage, hindex, Option.bind_some, hchat,
        List.getElem?_append_right (Nat.le_refl _), Nat.sub_self, List.getElem?_cons_zero]
      rfl
    · rw [hindex, Option.getD_some]
    · rw [laterTurns, hindex, Option.elim_some, hchat, List.drop_append, List.drop_of_length_le
        (Nat.le_succ _), List.nil_append, Nat.add_sub_cancel_left, List.drop_one, List.tail_cons]
  · have hnone : currentIndex chat = none := by
      refine rposition_eq_none fun message hmessage ↦ ?_
      exact Bool.eq_false_of_not_eq_true fun hrole ↦ huser ⟨message, hmessage, hrole⟩
    rcases List.eq_nil_or_concat chat with hnil | ⟨before, current, hchat⟩
    · exact .inl hnil
    · rw [List.concat_eq_append] at hchat
      refine .inr ⟨before, current, [], hchat, ?_, ?_, ?_⟩
      · rw [currentMessage, hnone, Option.bind_none, Option.none_or, hchat, List.getLast?_concat]
      · rw [hnone, Option.getD_none, hchat, List.length_append, List.length_singleton,
          Nat.add_sub_cancel]
      · rw [laterTurns, hnone, Option.elim_none]

/-! ## What is carried -/

private theorem eq_of_append_singleton {text last : String} {texts : List String}
    (h : texts ++ [last] = text :: texts) : last = text := by
  induction texts with
  | nil => exact (List.cons.inj h).1
  | cons first texts ih =>
    rw [List.cons_append] at h
    obtain ⟨hfirst, hrest⟩ := List.cons.inj h
    exact ih (hfirst ▸ hrest)

private theorem carries_iff_of_says {history after : List String} {text : String} :
    RunTexts.Carries ⟨history, some text⟩ (history ++ text :: after) ↔ after = [] := by
  constructor
  · rintro (⟨before, said, rest, htexts, -, rfl⟩ | ⟨-, htexts⟩)
    · have hlength := congrArg List.length htexts
      simp only [List.length_append, List.length_cons] at hlength
      exact List.length_eq_zero_iff.mp (by omega)
    · exact absurd (List.append_right_eq_self.mp htexts.symm) (List.cons_ne_nil _ _)
  · rintro rfl
    exact .inl ⟨history, text, [], rfl, rfl, (List.append_nil history).symm⟩

/-- A request with the stand-in text carries all texts where none comes after it, or only the
stand-in text itself. -/
private theorem carries_iff_of_silent {history after : List String} :
    RunTexts.Carries ⟨history, some "Continue."⟩ (history ++ after) ↔
      after = [] ∨ after = ["Continue."] := by
  constructor
  · rintro (⟨before, said, rest, htexts, hsaid, rfl⟩ | ⟨-, htexts⟩)
    · obtain rfl := Option.some.inj hsaid
      right
      rw [List.append_assoc] at htexts
      have hends := List.append_cancel_left htexts
      have hlength := congrArg List.length hends
      rw [List.length_append, List.length_cons] at hlength
      obtain ⟨last, rfl⟩ := List.length_eq_one_iff.mp (show after.length = 1 by omega)
      rw [eq_of_append_singleton hends]
    · exact .inl (List.append_right_eq_self.mp htexts.symm)
  · rintro (rfl | rfl)
    · exact .inr ⟨rfl, (List.append_nil history).symm⟩
    · exact .inl ⟨history, "Continue.", [], rfl, rfl, (List.append_nil history).symm⟩

/-- A conversation in a tool loop: the request, the call and its result. -/
private def toolLoop : List Json :=
  [.obj [("role", .str "user"), ("content", .str "Sum it")],
    .obj [("role", .str "assistant"), ("content", .str "Adding")],
    .obj [("role", .str "tool"), ("content", .str "42")]]

/-- A conversation that ends with the turn of the user. -/
private def userLast : List Json :=
  [.obj [("role", .str "assistant"), ("content", .str "Hello")],
    .obj [("role", .str "user"), ("content", .str "Sum it")]]

end NullRouter.Bespoke.Cursor
