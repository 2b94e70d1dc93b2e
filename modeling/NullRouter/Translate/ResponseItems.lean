import NullRouter.Base.Lifecycle
import NullRouter.Translate.Responses

/-!
# Items of a Responses stream

What an event does to the output item it names, read from the event, and what each function of
`openai_to_responses.rs` does to the items, read from its flags.
-/

namespace NullRouter.Translate

open NullRouter.Base

/-- An output item. -/
inductive Item where
  | reasoning
  | message (index : Nat)
  | call (index : Nat)
  deriving DecidableEq

/-- The id an item goes by. -/
def Item.id (responseId : String) : Item → String
  | .reasoning => reasoningItemId responseId
  | .message index => messageItemId responseId index
  | .call index => callItemId responseId index

private theorem head_ne {a b s t : String} (h : a.toList.head? ≠ b.toList.head?)
    (ha : a.toList ≠ []) (hb : b.toList ≠ []) : a ++ s ≠ b ++ t := by
  intro heq
  have hlist : a.toList ++ s.toList = b.toList ++ t.toList := by
    simpa using congrArg String.toList heq
  apply h
  have hhead := congrArg List.head? hlist
  rwa [List.head?_append_of_ne_nil _ ha, List.head?_append_of_ne_nil _ hb] at hhead

/-- Items go by ids of their own. -/
theorem Item.id_injective (responseId : String) : Function.Injective (Item.id responseId) := by
  have apart : ∀ {a b s t : String}, a.toList.head? ≠ b.toList.head? → a.toList ≠ [] →
      b.toList ≠ [] → a ++ s = b ++ t → False := fun h ha hb ↦ head_ne h ha hb
  intro a b h
  cases a <;> cases b <;>
    simp only [Item.id, reasoningItemId, messageItemId, callItemId, String.append_assoc] at h
  case reasoning.reasoning => rfl
  case message.message i j =>
    rw [← String.append_assoc, ← String.append_assoc, ← String.append_assoc,
      ← String.append_assoc] at h
    rw [append_toString_injective _ h]
  case call.call i j =>
    rw [← String.append_assoc, ← String.append_assoc, ← String.append_assoc,
      ← String.append_assoc] at h
    rw [append_toString_injective _ h]
  all_goals exact (apart (by decide) (by decide) (by decide) h).elim

/-- The events that carry a part of an item. -/
def deltaEvents : List String :=
  ["response.output_text.delta", "response.reasoning_summary_text.delta",
    "response.function_call_arguments.delta"]

/-- The id of the item an event carries. -/
def carriedId (data : Json) : String := ((data.get "item").bind (·.strField "id")).getD ""

/-- What an event does to the item it names. -/
def markOf (event : ResponseEvent) : Option (String × Act) :=
  if event.event = "response.output_item.added" then some (carriedId event.data, .opens)
  else if event.event = "response.output_item.done" then some (carriedId event.data, .closes)
  else if event.event ∈ deltaEvents then some ((event.data.strField "item_id").getD "", .uses)
  else none

/-- What events do to items, in order. -/
def marks (events : List ResponseEvent) : List (String × Act) := events.filterMap markOf

/-- Events counted from 1, as the last number given says. -/
def Numbered (events : List ResponseEvent) (last : Nat) : Prop :=
  last = events.length ∧ events.map (·.data.get "sequence_number") =
    (List.range events.length).map fun i ↦ some (Json.nat (i + 1))

@[simp] theorem marks_append (events more : List ResponseEvent) :
    marks (events ++ more) = marks events ++ marks more := List.filterMap_append ..

theorem numbered_nil : Numbered [] 0 := ⟨rfl, rfl⟩

theorem get_stamp {eventType key : String} {seq : Nat} {fields : List (String × Json)}
    (htype : key ≠ "type") (hseq : key ≠ "sequence_number") :
    (Emitter.stamp eventType seq (Json.object fields)).get key = (Json.object fields).get key := by
  simp only [Emitter.stamp, Json.object, Json.get]
  rw [Json.lookup_insertField_of_ne hseq, Json.lookup_insertField_of_ne htype]

private theorem markOf_stamp (eventType : String) (seq : Nat) (fields : List (String × Json)) :
    markOf ⟨eventType, Emitter.stamp eventType seq (Json.object fields)⟩ =
      markOf ⟨eventType, Json.object fields⟩ := by
  simp only [markOf, carriedId, Json.strField]
  rw [get_stamp (by decide) (by decide), get_stamp (by decide) (by decide)]

/-- The next event carries the next number. -/
theorem Numbered.concat {events : List ResponseEvent} {last : Nat} (h : Numbered events last)
    {event : ResponseEvent}
    (hevent : event.data.get "sequence_number" = some (Json.nat (last + 1))) :
    Numbered (events ++ [event]) (last + 1) := by
  obtain ⟨rfl, hmap⟩ := h
  refine ⟨by simp, ?_⟩
  rw [List.map_append, hmap, List.length_append, List.length_singleton, List.range_succ,
    List.map_append, List.map_singleton, List.map_singleton, hevent]

private theorem numbered_emit {earlier : List ResponseEvent} {e : Emitter} {eventType : String}
    {fields : List (String × Json)} (h : Numbered (earlier ++ e.events) e.state.responsesSeq) :
    Numbered (earlier ++ (e.emit eventType (Json.object fields)).events)
      (e.emit eventType (Json.object fields)).state.responsesSeq := by
  rw [Emitter.emit, ← List.append_assoc]
  exact h.concat (Json.lookup_insertField_self ..)

/-- The part of the state that says which response it is and how far it got. -/
def StreamState.header (s : StreamState) : Option String × Bool × Bool :=
  (s.responseId, s.responsesStarted, s.responsesCompleted)

/-- One emitter comes from another by events that do `acts` to the items. -/
structure Emits (responseId : String) (e e' : Emitter) (acts : List (Item × Act)) : Prop where
  grows : e.events <+: e'.events
  marked : marks e'.events = marks e.events ++ acts.map (Prod.map (Item.id responseId) id)
  numbered : ∀ earlier, Numbered (earlier ++ e.events) e.state.responsesSeq →
    Numbered (earlier ++ e'.events) e'.state.responsesSeq
  uncompleted : (∀ ev ∈ e.events, ev.event ≠ "response.completed") →
    ∀ ev ∈ e'.events, ev.event ≠ "response.completed"
  header : e'.state.header = e.state.header

namespace Emits

variable {responseId : String} {e e' e'' : Emitter} {acts more : List (Item × Act)}

theorem refl (responseId : String) (e : Emitter) : Emits responseId e e [] :=
  ⟨List.prefix_refl _, by simp, fun _ h ↦ h, fun h ↦ h, rfl⟩

theorem trans (h : Emits responseId e e' acts) (h' : Emits responseId e' e'' more) :
    Emits responseId e e'' (acts ++ more) where
  grows := h.grows.trans h'.grows
  marked := by rw [h'.marked, h.marked, List.map_append, List.append_assoc]
  numbered := fun earlier hn ↦ h'.numbered earlier (h.numbered earlier hn)
  uncompleted := fun hu ↦ h'.uncompleted (h.uncompleted hu)
  header := h'.header.trans h.header

/-- Flags may change between events. -/
theorem of_state (hevents : e'.events = e.events)
    (hseq : e'.state.responsesSeq = e.state.responsesSeq)
    (hid : e'.state.responseId = e.state.responseId)
    (hstarted : e'.state.responsesStarted = e.state.responsesStarted)
    (hcompleted : e'.state.responsesCompleted = e.state.responsesCompleted) :
    Emits responseId e e' [] where
  grows := hevents ▸ List.prefix_refl _
  marked := by simp [hevents]
  numbered := by
    intro earlier h
    rwa [hevents, hseq]
  uncompleted := by rw [hevents]; exact fun h ↦ h
  header := by rw [StreamState.header, StreamState.header, hid, hstarted, hcompleted]

/-- One event. -/
theorem emit {eventType : String} {fields : List (String × Json)}
    (hquiet : eventType ≠ "response.completed")
    (hmark : (markOf ⟨eventType, Json.object fields⟩).toList =
      acts.map (Prod.map (Item.id responseId) id)) :
    Emits responseId e (e.emit eventType (Json.object fields)) acts where
  grows := ⟨_, rfl⟩
  marked := by
    rw [← hmark, ← markOf_stamp eventType (e.state.responsesSeq + 1), Emitter.emit, marks_append]
    rfl
  numbered := fun _ ↦ numbered_emit
  uncompleted := by
    intro h ev hev
    rcases List.mem_append.mp hev with hev | hev
    · exact h ev hev
    · rw [List.mem_singleton.mp hev]
      exact hquiet
  header := rfl

/-- An event that neither adds, carries nor closes an item. -/
theorem plain {eventType : String} {fields : List (String × Json)}
    (h : Emits responseId e e' acts) (hplain : eventType ∉ "response.completed" ::
      "response.output_item.added" :: "response.output_item.done" :: deltaEvents) :
    Emits responseId e (e'.emit eventType (Json.object fields)) acts := by
  simp only [List.mem_cons, not_or] at hplain
  have hnone : (markOf ⟨eventType, Json.object fields⟩).toList =
      ([] : List (Item × Act)).map (Prod.map (Item.id responseId) id) := by
    rw [markOf, if_neg hplain.2.1, if_neg hplain.2.2.1,
      if_neg (by simpa [deltaEvents] using hplain.2.2.2)]
    rfl
  simpa using h.trans (emit hplain.1 hnone)

/-- An event that adds or closes the item whose id stands first in what it carries. -/
theorem item {eventType : String} {index : Nat} (item : Item) {act : Act}
    {fields : List (String × Json)} (h : Emits responseId e e' [])
    (hact : eventType = "response.output_item.added" ∧ act = .opens ∨
      eventType = "response.output_item.done" ∧ act = .closes)
    (hid : fields.reverse.lookup "id" = none) :
    Emits responseId e (e'.emit eventType (Json.object [("output_index", Json.nat index),
      ("item", Json.object (("id", .str (item.id responseId)) :: fields))]))
      [(item, act)] := by
  have hcarried : carriedId (Json.object [("output_index", Json.nat index),
      ("item", Json.object (("id", .str (item.id responseId)) :: fields))]) =
      item.id responseId := by
    simp [carriedId, Json.get_object, Json.strField, List.lookup_append, hid, Json.asStr]
  rcases hact with ⟨rfl, rfl⟩ | ⟨rfl, rfl⟩
  · exact h.trans (emit (by decide) (by simp [markOf, hcarried]))
  · exact h.trans (emit (by decide) (by simp [markOf, hcarried]))

/-- An event that carries a part of an item. -/
theorem delta {eventType : String} {item : Item} {fields : List (String × Json)}
    (h : Emits responseId e e' acts) (hdelta : eventType ∈ deltaEvents)
    (hid : fields.reverse.lookup "item_id" = none) :
    Emits responseId e (e'.emit eventType
      (Json.object (("item_id", .str (item.id responseId)) :: fields)))
      (acts ++ [(item, .uses)]) := by
  have hnamed : (Json.object (("item_id", .str (item.id responseId)) :: fields)).strField
      "item_id" = some (item.id responseId) := by
    simp [Json.get_object, Json.strField, List.lookup_append, hid, Json.asStr]
  have hevent : eventType ≠ "response.completed" ∧ eventType ≠ "response.output_item.added" ∧
      eventType ≠ "response.output_item.done" := by
    simp only [deltaEvents, List.mem_cons, List.not_mem_nil, or_false] at hdelta
    rcases hdelta with rfl | rfl | rfl <;> decide
  refine h.trans (emit hevent.1 ?_)
  rw [markOf, if_neg hevent.2.1, if_neg hevent.2.2, if_pos hdelta]
  simp [hnamed]

end Emits

/-- The flags of the items. -/
structure Flags where
  reasoningAdded : Bool
  reasoningDone : Bool
  messagesAdded : List Nat
  messagesDone : List Nat
  callsAdded : List Nat
  callsDone : List Nat

/-- The flags a state holds. -/
def StreamState.flags (s : StreamState) : Flags :=
  ⟨s.reasoningItemAdded, s.reasoningItemDone, s.messageItemsAdded, s.messageItemsDone,
    s.functionItemsAdded, s.functionItemsDone⟩

namespace Flags

/-- The phase of an item by its two flags. -/
def phaseFrom (added done : Bool) : Phase :=
  if done then .closed else if added then .live else .fresh

/-- The phase of an item, as the flags have it. -/
def phase (f : Flags) : Item → Phase
  | .reasoning => phaseFrom f.reasoningAdded f.reasoningDone
  | .message i => phaseFrom (i ∈ f.messagesAdded) (i ∈ f.messagesDone)
  | .call i => phaseFrom (i ∈ f.callsAdded) (i ∈ f.callsDone)

/-- Nothing is done that has not been added. -/
structure Sane (f : Flags) : Prop where
  reasoning : f.reasoningDone = true → f.reasoningAdded = true
  message : ∀ i ∈ f.messagesDone, i ∈ f.messagesAdded
  call : ∀ i ∈ f.callsDone, i ∈ f.callsAdded

variable {f : Flags}

theorem phase_ne_broken (item : Item) : f.phase item ≠ .broken := by
  have hfrom : ∀ added done, phaseFrom added done ≠ .broken := by decide
  cases item <;> exact hfrom _ _

theorem reasoning_fresh (hs : f.Sane) : f.phase .reasoning = .fresh ↔ f.reasoningAdded = false := by
  have := hs.reasoning
  cases hadded : f.reasoningAdded <;> cases hdone : f.reasoningDone <;>
    simp_all [phase, phaseFrom]

theorem message_fresh (hs : f.Sane) (i : Nat) :
    f.phase (.message i) = .fresh ↔ i ∉ f.messagesAdded := by
  have := hs.message i
  by_cases hadded : i ∈ f.messagesAdded <;> by_cases hdone : i ∈ f.messagesDone <;>
    simp_all [phase, phaseFrom]

theorem call_fresh (hs : f.Sane) (i : Nat) : f.phase (.call i) = .fresh ↔ i ∉ f.callsAdded := by
  have := hs.call i
  by_cases hadded : i ∈ f.callsAdded <;> by_cases hdone : i ∈ f.callsDone <;>
    simp_all [phase, phaseFrom]

theorem reasoning_live :
    f.phase .reasoning = .live ↔ f.reasoningAdded = true ∧ f.reasoningDone = false := by
  cases hadded : f.reasoningAdded <;> cases hdone : f.reasoningDone <;>
    simp_all [phase, phaseFrom]

theorem message_live (i : Nat) :
    f.phase (.message i) = .live ↔ i ∈ f.messagesAdded ∧ i ∉ f.messagesDone := by
  by_cases hadded : i ∈ f.messagesAdded <;> by_cases hdone : i ∈ f.messagesDone <;>
    simp_all [phase, phaseFrom]

theorem call_live (i : Nat) :
    f.phase (.call i) = .live ↔ i ∈ f.callsAdded ∧ i ∉ f.callsDone := by
  by_cases hadded : i ∈ f.callsAdded <;> by_cases hdone : i ∈ f.callsDone <;>
    simp_all [phase, phaseFrom]

private theorem phase_of {f' : Flags} {item : Item} {p : Phase} (hitem : f'.phase item = p)
    (hothers : ∀ other, other ≠ item → f'.phase other = f.phase other) :
    f'.phase = Function.update f.phase item p := by
  rw [Function.eq_update_iff]
  exact ⟨hitem, hothers⟩

theorem phase_addReasoning (h : f.reasoningDone = false) :
    ({ f with reasoningAdded := true } : Flags).phase =
      Function.update f.phase .reasoning .live := by
  refine phase_of (by simp [phase, phaseFrom, h]) ?_
  rintro (_ | i | i) hother <;> simp_all [phase]

theorem phase_doneReasoning : ({ f with reasoningDone := true } : Flags).phase =
    Function.update f.phase .reasoning .closed := by
  refine phase_of (by simp [phase, phaseFrom]) ?_
  rintro (_ | i | i) hother <;> simp_all [phase]

theorem phase_addMessage {index : Nat} (h : index ∉ f.messagesDone) :
    ({ f with messagesAdded := insertMember f.messagesAdded index } : Flags).phase =
      Function.update f.phase (.message index) .live := by
  refine phase_of (by simp [phase, phaseFrom, h]) ?_
  rintro (_ | i | i) hother <;> simp_all [phase]

theorem phase_doneMessage (index : Nat) :
    ({ f with messagesDone := insertMember f.messagesDone index } : Flags).phase =
      Function.update f.phase (.message index) .closed := by
  refine phase_of (by simp [phase, phaseFrom]) ?_
  rintro (_ | i | i) hother <;> simp_all [phase]

theorem phase_addCall {index : Nat} (h : index ∉ f.callsDone) :
    ({ f with callsAdded := insertMember f.callsAdded index } : Flags).phase =
      Function.update f.phase (.call index) .live := by
  refine phase_of (by simp [phase, phaseFrom, h]) ?_
  rintro (_ | i | i) hother <;> simp_all [phase]

theorem phase_doneCall (index : Nat) :
    ({ f with callsDone := insertMember f.callsDone index } : Flags).phase =
      Function.update f.phase (.call index) .closed := by
  refine phase_of (by simp [phase, phaseFrom]) ?_
  rintro (_ | i | i) hother <;> simp_all [phase]

end Flags

/-- Opening a tool call that is fresh, which closes the first message. -/
def openingCall (phase : Item → Phase) (index : Nat) : List (Item × Act) :=
  if phase (.call index) = .fresh then closing phase (.message 0) ++ [(.call index, .opens)]
  else []

/-- One emitter comes from another by events that do `acts` to the items, and its flags say
so. -/
structure Does (responseId : String) (e e' : Emitter) (acts : List (Item × Act)) : Prop
    extends Emits responseId e e' acts where
  phase : e'.state.flags.phase = kept e.state.flags.phase acts
  sane : e'.state.flags.Sane

namespace Does

variable {responseId : String} {e e' e'' : Emitter} {acts more : List (Item × Act)}

/-- Flags change to what the events say. -/
theorem of_flags {f : Flags} (h : Emits responseId e e' acts) (hf : e'.state.flags = f)
    (hphase : f.phase = kept e.state.flags.phase acts) (hsane : f.Sane) :
    Does responseId e e' acts := by
  subst hf
  exact ⟨h, hphase, hsane⟩

theorem refl (hs : e.state.flags.Sane) : Does responseId e e [] := ⟨Emits.refl _ _, rfl, hs⟩

theorem trans (h : Does responseId e e' acts) (h' : Does responseId e' e'' more) :
    Does responseId e e'' (acts ++ more) :=
  ⟨h.toEmits.trans h'.toEmits, by rw [h'.phase, h.phase, kept_append], h'.sane⟩

/-- Texts and names may change after the events. -/
theorem of_state (h : Does responseId e e' acts) (hstate : Emits responseId e' e'' [])
    (hflags : e''.state.flags = e'.state.flags) : Does responseId e e'' acts := by
  refine ⟨?_, hflags ▸ h.phase, hflags ▸ h.sane⟩
  simpa using h.toEmits.trans hstate

/-- A last event that changes no flag. -/
theorem uses {t : String} {i : Item} {f : List (String × Json)}
    (h : Does responseId e e' acts) (hdelta : t ∈ deltaEvents)
    (hid : f.reverse.lookup "item_id" = none) :
    Does responseId e (e'.emit t (Json.object (("item_id", .str (i.id responseId)) :: f)))
      (acts ++ [(i, .uses)]) := by
  refine ⟨h.toEmits.delta hdelta hid, ?_, h.sane⟩
  have hkeep : ∀ p : Phase, p.keep .uses = p := by
    intro p
    cases p <;> rfl
  rw [kept_append, kept_single, hkeep, Function.update_eq_self, ← h.phase]
  rfl

end Does

namespace Emitter

variable {e : Emitter}

theorem startReasoning_does (responseId : String) (index : Nat) (hs : e.state.flags.Sane) :
    Does responseId e (startReasoning responseId index e)
      (opening e.state.flags.phase .reasoning) := by
  rw [opening]
  unfold startReasoning
  split
  · next hadded =>
    rw [if_neg fun h ↦ Bool.false_ne_true (((Flags.reasoning_fresh hs).mp h).symm.trans hadded)]
    exact .refl hs
  · next hadded =>
    have hfresh := (Flags.reasoning_fresh hs).mpr (Bool.eq_false_iff.mpr hadded)
    have hdone : e.state.flags.reasoningDone = false :=
      Bool.eq_false_iff.mpr fun h ↦ hadded (hs.reasoning h)
    rw [if_pos hfresh]
    refine .of_flags (f := { e.state.flags with reasoningAdded := true }) ?_ rfl ?_
      ⟨fun _ ↦ rfl, hs.message, hs.call⟩
    · refine Emits.plain ?_ (by decide)
      exact Emits.item .reasoning (.of_state rfl rfl rfl rfl rfl) (.inl ⟨rfl, rfl⟩) rfl
    · rw [kept_single, hfresh]
      exact Flags.phase_addReasoning hdone

theorem emitReasoning_does (responseId : String) (index : Nat) (text : String)
    (hs : e.state.flags.Sane) : Does responseId e (emitReasoning responseId index text e)
      (opening e.state.flags.phase .reasoning ++ [(.reasoning, .uses)]) := by
  have h := (startReasoning_does responseId index hs).uses
    (t := "response.reasoning_summary_text.delta") (i := .reasoning)
    (f := [("output_index", Json.nat index), ("summary_index", Json.nat 0),
      ("delta", .str text)]) (by decide) rfl
  exact h.of_state (.of_state rfl rfl rfl rfl rfl) rfl

theorem closeReasoning_does (responseId : String) (index : Nat) (hs : e.state.flags.Sane) :
    Does responseId e (closeReasoning responseId index e)
      (closing e.state.flags.phase .reasoning) := by
  rw [closing]
  unfold closeReasoning
  split
  · next hclosed =>
    rw [if_neg]
    · exact .refl hs
    · rw [Flags.reasoning_live]
      rintro ⟨hadded, hdone⟩
      rw [show e.state.reasoningItemAdded = true from hadded,
        show e.state.reasoningItemDone = false from hdone] at hclosed
      cases hclosed
  · next hopen =>
    have hflags : e.state.reasoningItemAdded = true ∧ e.state.reasoningItemDone = false := by
      simpa using hopen
    have hlive := (Flags.reasoning_live (f := e.state.flags)).mpr hflags
    rw [if_pos hlive]
    refine .of_flags (f := { e.state.flags with reasoningDone := true }) ?_ rfl ?_
      ⟨fun _ ↦ hflags.1, hs.message, hs.call⟩
    · refine Emits.item .reasoning ?_ (.inr ⟨rfl, rfl⟩) rfl
      refine Emits.plain ?_ (by decide)
      refine Emits.plain ?_ (by decide)
      exact .of_state rfl rfl rfl rfl rfl
    · rw [kept_single, hlive]
      exact Flags.phase_doneReasoning (f := e.state.flags)

theorem addMessage_does (responseId : String) (index : Nat) (hs : e.state.flags.Sane) :
    Does responseId e (addMessage responseId index e)
      (opening e.state.flags.phase (.message index)) := by
  rw [opening]
  unfold addMessage
  split
  · next hadded =>
    rw [if_neg fun h ↦ (Flags.message_fresh hs index).mp h hadded]
    exact .refl hs
  · next hadded =>
    have hfresh := (Flags.message_fresh hs index).mpr hadded
    have hdone : index ∉ e.state.flags.messagesDone := fun h ↦ hadded (hs.message index h)
    rw [if_pos hfresh]
    refine .of_flags (f := { e.state.flags with
      messagesAdded := insertMember e.state.flags.messagesAdded index }) ?_ rfl ?_
      ⟨hs.reasoning, fun i hi ↦ mem_insertMember.mpr (.inr (hs.message i hi)), hs.call⟩
    · refine Emits.plain ?_ (by decide)
      exact Emits.item (.message index) (.of_state rfl rfl rfl rfl rfl) (.inl ⟨rfl, rfl⟩) rfl
    · rw [kept_single, hfresh]
      exact Flags.phase_addMessage hdone

theorem emitText_does (responseId : String) (index : Nat) (content : String)
    (hs : e.state.flags.Sane) : Does responseId e (emitText responseId index content e)
      (opening e.state.flags.phase (.message index) ++ [(.message index, .uses)]) := by
  have h := (addMessage_does responseId index hs).uses (t := "response.output_text.delta")
    (i := .message index) (f := [("output_index", Json.nat index), ("content_index", Json.nat 0),
      ("delta", .str content), ("logprobs", .arr [])]) (by decide) rfl
  exact h.of_state (.of_state rfl rfl rfl rfl rfl) rfl

theorem closeMessage_does (responseId : String) (index : Nat) (hs : e.state.flags.Sane) :
    Does responseId e (closeMessage responseId index e)
      (closing e.state.flags.phase (.message index)) := by
  rw [closing]
  unfold closeMessage
  split
  · next hclosed =>
    rw [if_neg]
    · exact .refl hs
    · rw [Flags.message_live]
      rintro ⟨hadded, hdone⟩
      exact hclosed.elim (· hadded) hdone
  · next hopen =>
    obtain ⟨hadded, hdone⟩ := not_or.mp hopen
    have hlive := (Flags.message_live (f := e.state.flags) index).mpr ⟨not_not.mp hadded, hdone⟩
    rw [if_pos hlive]
    refine .of_flags (f := { e.state.flags with
      messagesDone := insertMember e.state.flags.messagesDone index }) ?_ rfl ?_
      ⟨hs.reasoning, ?_, hs.call⟩
    · refine Emits.item (.message index) ?_ (.inr ⟨rfl, rfl⟩) rfl
      refine Emits.plain ?_ (by decide)
      refine Emits.plain ?_ (by decide)
      exact .of_state rfl rfl rfl rfl rfl
    · rw [kept_single, hlive]
      exact Flags.phase_doneMessage (f := e.state.flags) index
    · intro i hi
      rcases mem_insertMember.mp hi with rfl | hi
      · exact not_not.mp hadded
      · exact hs.message i hi

theorem addCall_does (responseId : String) (call : Json) (hs : e.state.flags.Sane) :
    Does responseId e (addCall responseId call e) (openingCall e.state.flags.phase (indexOf call)) := by
  rw [openingCall]
  unfold addCall
  dsimp only
  split
  · next hadded =>
    have hfresh := (Flags.call_fresh hs (indexOf call)).mpr hadded
    have hdone : indexOf call ∉ e.state.flags.callsDone := fun h ↦ hadded (hs.call _ h)
    rw [if_pos hfresh]
    set callId := (call.strField "id").getD ("call_" ++ toString (indexOf call))
    have hphase : (noteCall call callId e).state.flags.phase =
        Function.update e.state.flags.phase (.call (indexOf call)) .live :=
      Flags.phase_addCall hdone
    have hclose : Does responseId (noteCall call callId e)
        (closeMessage responseId 0 (noteCall call callId e))
        (closing e.state.flags.phase (.message 0)) := by
      have h := closeMessage_does responseId 0 (e := noteCall call callId e)
        ⟨hs.reasoning, hs.message, fun i hi ↦ mem_insertMember.mpr (.inr (hs.call i hi))⟩
      rwa [closing, hphase, Function.update_of_ne (by simp), ← closing] at h
    refine ⟨?_, ?_, hclose.sane⟩
    · have hflag : Emits responseId e (noteCall call callId e) [] :=
        .of_state rfl rfl rfl rfl rfl
      refine (hflag.trans hclose.toEmits).trans ?_
      exact Emits.item (.call (indexOf call)) (.refl _ _) (.inl ⟨rfl, rfl⟩) rfl
    · -- the flag of the call was set before the message closed
      refine hclose.phase.trans ?_
      rw [hphase, kept_append, kept_single, closing]
      split
      · rw [kept_single, kept_single, Function.update_of_ne (by simp),
          Function.update_of_ne (by simp), hfresh, Function.update_comm (by simp)]
        rfl
      · rw [kept_nil, kept_nil, hfresh]
        rfl
  · next hadded =>
    rw [if_neg fun h ↦ hadded ((Flags.call_fresh hs _).mp h), nameCall]
    split
    · exact .refl hs
    · exact (Does.refl hs).of_state (.of_state rfl rfl rfl rfl rfl) rfl

theorem emitToolCall_does (responseId : String) (call : Json) (hs : e.state.flags.Sane) :
    Does responseId e (emitToolCall responseId e call)
      (openingCall e.state.flags.phase (indexOf call) ++
        if (callArguments call).isSome then [(.call (indexOf call), .uses)] else []) := by
  have hadd := addCall_does responseId call hs
  rw [emitToolCall]
  cases hargs : callArguments call with
  | none => simpa using hadd
  | some arguments =>
    rw [Option.isSome_some, if_pos rfl]
    refine Does.uses (t := "response.function_call_arguments.delta") (i := .call (indexOf call))
      ?_ (by decide) rfl
    exact hadd.of_state (.of_state rfl rfl rfl rfl rfl) rfl

theorem closeToolCall_does (read : String → Option Json) (responseId : String) (index : Nat)
    (hs : e.state.flags.Sane) (hadded : index ∈ e.state.flags.callsAdded) :
    Does responseId e (closeToolCall read responseId index e)
      (closing e.state.flags.phase (.call index)) := by
  rw [closing]
  unfold closeToolCall
  split
  · next hdone =>
    rw [if_neg fun h ↦ ((Flags.call_live index).mp h).2 hdone]
    exact .refl hs
  · next hdone =>
    have hlive := (Flags.call_live (f := e.state.flags) index).mpr ⟨hadded, hdone⟩
    rw [if_pos hlive]
    refine .of_flags (f := { e.state.flags with
      callsDone := insertMember e.state.flags.callsDone index }) ?_ rfl ?_
      ⟨hs.reasoning, hs.message, ?_⟩
    · refine Emits.item (.call index) ?_ (.inr ⟨rfl, rfl⟩) ?_
      · refine Emits.plain ?_ (by decide)
        exact .of_state rfl rfl rfl rfl rfl
      · split <;> rfl
    · rw [kept_single, hlive]
      exact Flags.phase_doneCall (f := e.state.flags) index
    · intro i hi
      rcases mem_insertMember.mp hi with rfl | hi
      · exact hadded
      · exact hs.call i hi

end Emitter

end NullRouter.Translate
