import NullRouter.Translate.ResponsesRun

/-!
# Places of the items of a Responses stream

Which `output_index` the events of `openai_to_responses.rs` carry: a message's is the index of its
choice, a tool call's the index of the call, the reasoning's that of the choice being served.
-/

namespace NullRouter.Translate

open NullRouter.Base

/-- The item that an event names and the place it gives it. -/
def placeOf (event : ResponseEvent) : Option (String × Nat) :=
  ((event.data.strField "item_id").or ((event.data.get "item").bind (·.strField "id"))).bind
    fun id ↦ ((event.data.get "output_index").bind Json.asU64).map (id, ·)

/-- The output list that an event carries. -/
def outputList (event : ResponseEvent) : Option (List Json) :=
  (event.data.get "response").bind fun response ↦ (response.get "output").bind Json.asArray

/-- The places that an item of a stream may have, of which `choices` are the choices. -/
def ItemPlace (choices : Nat → Prop) : Item → Nat → Prop
  | .reasoning, place => place = 0 ∨ choices place
  | .message index, place | .call index, place => place = index

/-- An event places its item by its kind, and lists no items when the response is complete. -/
structure Fits (responseId : String) (choices : Nat → Prop) (event : ResponseEvent) : Prop where
  place : ∀ id place, placeOf event = some (id, place) →
    ∃ item : Item, id = item.id responseId ∧ ItemPlace choices item place
  unlisted : event.event = "response.completed" → outputList event = none

/-- One emitter comes from another by events of which a condition holds. -/
def AddsOnly (Q : ResponseEvent → Prop) (e e' : Emitter) : Prop :=
  ∀ event ∈ e'.events, event ∈ e.events ∨ Q event

section Adds

variable {Q : ResponseEvent → Prop} {e e' e'' : Emitter} {responseId : String}
  {choices : Nat → Prop} {eventType : String} {fields part : List (String × Json)} {item : Item}
  {place : Nat}

theorem AddsOnly.refl (h : e'.events = e.events) : AddsOnly Q e e' := by
  intro event hmem
  exact .inl (h ▸ hmem)

theorem AddsOnly.trans (h : AddsOnly Q e e') (h' : AddsOnly Q e' e'') : AddsOnly Q e e'' := by
  intro event hmem
  rcases h' event hmem with hold | hnew
  · exact h event hold
  · exact .inr hnew

theorem AddsOnly.foldl {f : Emitter → Nat → Emitter} (h : ∀ e i, AddsOnly Q e (f e i))
    (l : List Nat) (e : Emitter) : AddsOnly Q e (l.foldl f e) := by
  induction l generalizing e with
  | nil => exact .refl rfl
  | cons i l ih => exact (h e i).trans (ih _)

private theorem placeOf_stamp (seq : Nat) :
    placeOf ⟨eventType, Emitter.stamp eventType seq (Json.object fields)⟩ =
      placeOf ⟨eventType, Json.object fields⟩ := by
  simp only [placeOf, Json.strField]
  rw [get_stamp (by decide) (by decide), get_stamp (by decide) (by decide),
    get_stamp (by decide) (by decide)]

/-- One more event. -/
theorem AddsOnly.emit (h : AddsOnly Q e e')
    (hevent : ∀ seq, Q ⟨eventType, Emitter.stamp eventType seq (Json.object fields)⟩) :
    AddsOnly Q e (e'.emit eventType (Json.object fields)) := by
  intro event hmem
  rcases List.mem_append.mp hmem with hmem | hmem
  · exact h event hmem
  · rw [List.mem_singleton.mp hmem]
    exact .inr (hevent _)

/-- An event about a part of an item. -/
theorem Fits.of_part (hplace : ItemPlace choices item place) (htype : eventType ≠ "response.completed")
    (hid : fields.reverse.lookup "item_id" = some (.str (item.id responseId)))
    (hindex : fields.reverse.lookup "output_index" = some (Json.nat place)) (seq : Nat) :
    Fits responseId choices ⟨eventType, Emitter.stamp eventType seq (Json.object fields)⟩ := by
  refine ⟨?_, fun h ↦ absurd h htype⟩
  intro id place' h
  rw [placeOf_stamp, placeOf, Json.strField_object, Json.get_object _ "output_index", hid,
    hindex] at h
  cases h
  exact ⟨item, rfl, hplace⟩

/-- An event about a whole item. -/
theorem Fits.of_item (hplace : ItemPlace choices item place)
    (htype : eventType ≠ "response.completed")
    (hid : part.reverse.lookup "id" = some (.str (item.id responseId))) (seq : Nat) :
    Fits responseId choices ⟨eventType, Emitter.stamp eventType seq (Json.object
      [("output_index", Json.nat place), ("item", Json.object part)])⟩ := by
  refine ⟨?_, fun h ↦ absurd h htype⟩
  intro id place' h
  have hitem : (Json.object [("output_index", Json.nat place), ("item", Json.object part)]).get
      "item" = some (Json.object part) := Json.get_object ..
  rw [placeOf_stamp, placeOf, Json.strField_object, Json.get_object _ "output_index", hitem,
    Option.bind_some, Json.strField_object, hid] at h
  cases h
  exact ⟨item, rfl, hplace⟩

end Adds

namespace Emitter

variable {responseId : String} {choices : Nat → Prop} {e : Emitter}

theorem emitReasoning_fits (e : Emitter) {choice : Nat} (hchoice : choices choice) (text : String) :
    AddsOnly (Fits responseId choices) e (emitReasoning responseId choice text e) := by
  have hplace : ItemPlace choices .reasoning choice := .inr hchoice
  have hstart : AddsOnly (Fits responseId choices) e (startReasoning responseId choice e) := by
    rw [startReasoning]
    split
    · exact .refl rfl
    · exact ((AddsOnly.refl rfl).emit (Fits.of_item hplace (by decide) rfl)).emit
        (Fits.of_part hplace (by decide) rfl rfl)
  exact hstart.emit (Fits.of_part hplace (by decide) rfl rfl)

theorem closeReasoning_fits (e : Emitter) {choice : Nat} (hchoice : choice = 0 ∨ choices choice) :
    AddsOnly (Fits responseId choices) e (closeReasoning responseId choice e) := by
  have hplace : ItemPlace choices .reasoning choice := hchoice
  rw [closeReasoning]
  split
  · exact .refl rfl
  · refine AddsOnly.emit ?_ (Fits.of_item hplace (by decide) rfl)
    refine AddsOnly.emit ?_ (Fits.of_part hplace (by decide) rfl rfl)
    refine AddsOnly.emit ?_ (Fits.of_part hplace (by decide) rfl rfl)
    exact .refl rfl

theorem emitText_fits (index : Nat) (text : String) (e : Emitter) :
    AddsOnly (Fits responseId choices) e (emitText responseId index text e) := by
  have hplace : ItemPlace choices (.message index) index := rfl
  have hadd : AddsOnly (Fits responseId choices) e (addMessage responseId index e) := by
    rw [addMessage]
    split
    · exact .refl rfl
    · exact ((AddsOnly.refl rfl).emit (Fits.of_item hplace (by decide) rfl)).emit
        (Fits.of_part hplace (by decide) rfl rfl)
  exact hadd.emit (Fits.of_part hplace (by decide) rfl rfl)

theorem closeMessage_fits (index : Nat) (e : Emitter) :
    AddsOnly (Fits responseId choices) e (closeMessage responseId index e) := by
  have hplace : ItemPlace choices (.message index) index := rfl
  rw [closeMessage]
  split
  · exact .refl rfl
  · refine AddsOnly.emit ?_ (Fits.of_item hplace (by decide) rfl)
    refine AddsOnly.emit ?_ (Fits.of_part hplace (by decide) rfl rfl)
    refine AddsOnly.emit ?_ (Fits.of_part hplace (by decide) rfl rfl)
    exact .refl rfl

theorem emitToolCall_fits (call : Json) (e : Emitter) :
    AddsOnly (Fits responseId choices) e (emitToolCall responseId e call) := by
  have hplace : ItemPlace choices (.call (indexOf call)) (indexOf call) := rfl
  have hadd : AddsOnly (Fits responseId choices) e (addCall responseId call e) := by
    rw [addCall]
    split
    · refine AddsOnly.emit ?_ (Fits.of_item hplace (by decide) rfl)
      exact (AddsOnly.refl rfl).trans (closeMessage_fits 0 _)
    · rw [nameCall]
      split <;> exact .refl rfl
  rw [emitToolCall]
  cases callArguments call with
  | none => exact hadd
  | some arguments =>
    exact AddsOnly.emit (hadd.trans (.refl rfl)) (Fits.of_part hplace (by decide) rfl rfl)

theorem closeToolCall_fits (read : String → Option Json) (index : Nat) (e : Emitter) :
    AddsOnly (Fits responseId choices) e (closeToolCall read responseId index e) := by
  have hplace : ItemPlace choices (.call index) index := rfl
  rw [closeToolCall]
  split
  · exact .refl rfl
  · refine AddsOnly.emit ?_ (Fits.of_item hplace (by decide) ?_)
    · exact AddsOnly.emit (.refl rfl) (Fits.of_part hplace (by decide) rfl rfl)
    · split <;> rfl

private theorem fits_response {eventType : String} {response : List (String × Json)}
    (hunlisted : eventType = "response.completed" → response.reverse.lookup "output" = none)
    (seq : Nat) : Fits responseId choices ⟨eventType, Emitter.stamp eventType seq
      (Json.object [("response", Json.object response)])⟩ := by
  refine ⟨?_, ?_⟩
  · intro id place h
    rw [placeOf_stamp, placeOf, Json.strField_object, Json.get_object _ "item"] at h
    cases h
  · intro htype
    have hresponse : (Json.object [("response", Json.object response)]).get "response" =
        some (Json.object response) := Json.get_object ..
    rw [outputList, get_stamp (by decide) (by decide), hresponse, Option.bind_some,
      Json.get_object, hunlisted htype]
    rfl

theorem begin_fits (created : Nat) (e : Emitter) :
    AddsOnly (Fits responseId choices) e (begin responseId created e) := by
  rw [begin]
  split
  · exact .refl rfl
  · refine AddsOnly.emit ?_ (fits_response (by simp))
    exact AddsOnly.emit (.refl rfl) (fits_response (by simp))

theorem complete_fits (created : Nat) (e : Emitter) :
    AddsOnly (Fits responseId choices) e (complete responseId created e) :=
  AddsOnly.emit (.refl rfl) (fits_response fun _ ↦ rfl)

theorem closeItems_fits (read : String → Option Json) (e : Emitter) :
    AddsOnly (Fits responseId choices) e (closeItems read responseId e) := by
  have hmessages := AddsOnly.foldl (Q := Fits responseId choices)
    (f := fun e i ↦ closeMessage responseId i e) (fun e i ↦ closeMessage_fits i e)
    e.state.messageItemsAdded e
  have hreasoning := hmessages.trans (closeReasoning_fits _ (.inl rfl))
  exact hreasoning.trans (AddsOnly.foldl (f := fun e i ↦ closeToolCall read responseId i e)
    (fun e i ↦ closeToolCall_fits read i e) _ _)

end Emitter

/-- A choice that reasoning or text was supplied of. -/
def SuppliedChoice (supplies : List Supply) (choice : Nat) : Prop :=
  ∃ text, .reasoning choice text ∈ supplies ∨ .text choice text ∈ supplies

/-- Events that place their items by what was supplied. -/
structure PlacedBy (responseId : String) (supplies : List Supply) (events : List ResponseEvent)
    (s : StreamState) : Prop where
  named : s.responseId = some responseId
  started : s.responsesStarted = true
  sane : s.flags.Sane
  fits : ∀ event ∈ events, Fits responseId (SuppliedChoice supplies) event

theorem Fits.mono {responseId : String} {choices choices' : Nat → Prop} {event : ResponseEvent}
    (h : Fits responseId choices event) (hchoices : ∀ choice, choices choice → choices' choice) :
    Fits responseId choices' event := by
  refine ⟨?_, h.unlisted⟩
  intro id place hplace
  obtain ⟨item, hid, hitem⟩ := h.place id place hplace
  refine ⟨item, hid, ?_⟩
  cases item with
  | reasoning => exact hitem.imp_right (hchoices place)
  | message index => exact hitem
  | call index => exact hitem

section Carry

variable {responseId : String} {supplies : List Supply} {supply : Supply}
  {earlier events : List ResponseEvent} {e e' : Emitter} {s : StreamState}

private theorem SuppliedChoice.concat {choice : Nat} (h : SuppliedChoice supplies choice) :
    SuppliedChoice (supplies ++ [supply]) choice := by
  obtain ⟨text, hmem⟩ := h
  exact ⟨text, hmem.imp (List.mem_append_left _) (List.mem_append_left _)⟩

private theorem PlacedBy.serve {acts : List (Item × Act)}
    (h : PlacedBy responseId supplies (earlier ++ e.events) e.state)
    (hadds : AddsOnly (Fits responseId (SuppliedChoice (supplies ++ [supply]))) e e')
    (hdoes : Does responseId e e' acts) :
    PlacedBy responseId (supplies ++ [supply]) (earlier ++ e'.events) e'.state := by
  refine ⟨hdoes.named.trans h.named, hdoes.started.trans h.started, hdoes.sane, ?_⟩
  intro event hmem
  rcases List.mem_append.mp hmem with hmem | hmem
  · exact (h.fits event (List.mem_append_left _ hmem)).mono fun _ ↦ SuppliedChoice.concat
  · rcases hadds event hmem with hold | hnew
    · exact (h.fits event (List.mem_append_right _ hold)).mono fun _ ↦ SuppliedChoice.concat
    · exact hnew

private theorem PlacedBy.flush (read : String → Option Json)
    (h : PlacedBy responseId supplies events s) :
    PlacedBy responseId (supplies ++ [.finish]) (events ++ (Responses.flush read s).1)
      (Responses.flush read s).2 := by
  by_cases hcompleted : s.responsesCompleted = true
  · rw [flush_of_completed hcompleted, List.append_nil]
    exact ⟨h.named, h.started, h.sane,
      fun event hmem ↦ (h.fits event hmem).mono fun _ ↦ SuppliedChoice.concat⟩
  · obtain ⟨created, hflush⟩ := flush_of_uncompleted read (Bool.eq_false_iff.mpr hcompleted)
      h.started h.named
    obtain ⟨hshuts, -⟩ := closeItems_shuts (e := ⟨s, []⟩) read responseId h.sane
    obtain ⟨acts, hdoes, -⟩ := hshuts.does
    have hadds := (@Emitter.closeItems_fits responseId (SuppliedChoice (supplies ++ [.finish])) read
      ⟨s, []⟩).trans (Emitter.complete_fits created _)
    rw [hflush]
    refine ⟨hdoes.named.trans h.named, hdoes.started.trans h.started, hshuts.sane, ?_⟩
    intro event hmem
    rcases List.mem_append.mp hmem with hmem | hmem
    · exact (h.fits event hmem).mono fun _ ↦ SuppliedChoice.concat
    · exact (hadds event hmem).resolve_left List.not_mem_nil

/-- Every chunk places its items by what it supplies. -/
theorem carries_placedBy (read : String → Option Json) (responseId : String) :
    Carries read responseId (PlacedBy responseId) where
  named h := ⟨h.named, h.started⟩
  dated := by
    intro supplies events s h
    rw [Responses.fixCreated]
    cases s.responsesCreated with
    | some created => exact h
    | none => exact ⟨h.named, h.started, h.sane, h.fits⟩
  reasoning := by
    intro supplies earlier e choice text _ h
    exact h.serve (Emitter.emitReasoning_fits e ⟨text, .inl (by simp)⟩ text)
      (Emitter.emitReasoning_does responseId choice text h.sane)
  text := by
    intro supplies earlier e choice text _ h
    have hclose := Emitter.closeReasoning_does responseId choice h.sane
    refine h.serve ?_ (hclose.trans (Emitter.emitText_does responseId choice text hclose.sane))
    exact (Emitter.closeReasoning_fits e (.inr ⟨text, .inr (by simp)⟩)).trans
      (Emitter.emitText_fits choice text _)
  call := by
    intro supplies earlier e call h
    exact h.serve (Emitter.emitToolCall_fits call e)
      (Emitter.emitToolCall_does responseId call h.sane)
  flush h := h.flush read

end Carry

/-- An item is placed at an index. -/
def IsPlaced (events : List ResponseEvent) (id : String) (place : Nat) : Prop :=
  ∃ event ∈ events, placeOf event = some (id, place)

/-- A choice that a chunk of a stream names. -/
def NamedChoice (chunks : List Json) (choice : Nat) : Prop :=
  ∃ chunk ∈ chunks, (firstChoice chunk).map indexOf = some choice

/-- What holds of the places of the items of a stream. Messages are placed by their choice and tool
calls by their index, which makes one place for each and places of their own among the messages and
among the calls; the reasoning is placed by a choice, or at 0. No list of the items comes in the
end. -/
structure PlacedByKind (chunks : List Json) (responseId : String) (events : List ResponseEvent) :
    Prop where
  items : ∀ id place, IsPlaced events id place →
    ∃ item : Item, id = item.id responseId ∧ ItemPlace (NamedChoice chunks) item place
  one : ∀ (item : Item) (place place' : Nat),
    item ≠ .reasoning ∨ (∀ choice, NamedChoice chunks choice → choice = 0) →
    IsPlaced events (item.id responseId) place → IsPlaced events (item.id responseId) place' →
      place = place'
  apart : ∀ index index' place,
    (IsPlaced events (messageItemId responseId index) place →
      IsPlaced events (messageItemId responseId index') place → index = index') ∧
    (IsPlaced events (callItemId responseId index) place →
      IsPlaced events (callItemId responseId index') place → index = index')
  unlisted : ∀ event ∈ events, event.event = "response.completed" → outputList event = none

private theorem choice_of_mem_ofChoice {named : Json} {supply : Supply}
    (h : supply ∈ Supply.ofChoice named) {choice : Nat} {text : String}
    (hsupply : supply = .reasoning choice text ∨ supply = .text choice text) :
    indexOf named = choice := by
  rw [Supply.ofChoice, Supply.ofContent, List.mem_append, List.mem_append, List.mem_append] at h
  rcases h with ((h | h) | h) | h
  · split at h
    · cases h
    · rw [List.mem_singleton.mp h] at hsupply
      rcases hsupply with heq | heq <;> cases heq
      rfl
  · obtain ⟨words, -, rfl⟩ := Option.map_eq_some_iff.mp (Option.mem_toList.mp h)
    rcases hsupply with heq | heq <;> cases heq
    rfl
  · obtain ⟨call, -, rfl⟩ := List.mem_map.mp h
    rcases hsupply with heq | heq <;> cases heq
  · split at h
    · rw [List.mem_singleton.mp h] at hsupply
      rcases hsupply with heq | heq <;> cases heq
    · cases h

private theorem namedChoice_of_supplied {chunks : List Json} {choice : Nat}
    (h : SuppliedChoice (chunks.flatMap Supply.ofChunk ++ [.finish]) choice) :
    NamedChoice chunks choice := by
  obtain ⟨text, hmem⟩ := h
  have hnamed : ∀ supply ∈ chunks.flatMap Supply.ofChunk,
      supply = .reasoning choice text ∨ supply = .text choice text → NamedChoice chunks choice := by
    intro supply hsupplied hsupply
    obtain ⟨chunk, hin, hsupplied⟩ := List.mem_flatMap.mp hsupplied
    refine ⟨chunk, hin, ?_⟩
    rw [Supply.ofChunk] at hsupplied
    cases hfirst : firstChoice chunk with
    | none =>
      rw [hfirst] at hsupplied
      cases hsupplied
    | some named =>
      rw [hfirst] at hsupplied
      exact congrArg some (choice_of_mem_ofChoice hsupplied hsupply)
  rcases hmem with hmem | hmem
  · exact hnamed _ (by simpa using hmem) (.inl rfl)
  · exact hnamed _ (by simpa using hmem) (.inr rfl)

private theorem placedByKind_of_fits {chunks : List Json} {responseId : String}
    {events : List ResponseEvent}
    (h : ∀ event ∈ events, Fits responseId (NamedChoice chunks) event) :
    PlacedByKind chunks responseId events := by
  have hitems : ∀ id place, IsPlaced events id place →
      ∃ item : Item, id = item.id responseId ∧ ItemPlace (NamedChoice chunks) item place := by
    rintro id place ⟨event, hmem, hplace⟩
    exact (h event hmem).place id place hplace
  have hplace : ∀ (item : Item) place, IsPlaced events (item.id responseId) place →
      ItemPlace (NamedChoice chunks) item place := by
    intro item place hplaced
    obtain ⟨item', hid, hitem⟩ := hitems _ place hplaced
    rwa [← Item.id_injective responseId hid] at hitem
  refine ⟨hitems, ?_, ?_, fun event hmem ↦ (h event hmem).unlisted⟩
  · intro item place place' hone hplaced hplaced'
    have hfirst := hplace item place hplaced
    have hsecond := hplace item place' hplaced'
    cases item with
    | reasoning =>
      have hzero := hone.resolve_left (not_not.mpr rfl)
      have hboth : place = 0 ∧ place' = 0 :=
        ⟨hfirst.elim id (hzero place), hsecond.elim id (hzero place')⟩
      rw [hboth.1, hboth.2]
    | message index => exact hfirst.trans hsecond.symm
    | call index => exact hfirst.trans hsecond.symm
  · intro index index' place
    exact ⟨fun hplaced hplaced' ↦ (hplace (.message index) place hplaced).symm.trans
        (hplace (.message index') place hplaced'),
      fun hplaced hplaced' ↦ (hplace (.call index) place hplaced).symm.trans
        (hplace (.call index') place hplaced')⟩

/-- Every stream places its items by kind. -/
theorem stream_placedByKind (read : String → Option Json) (clock : Nat → Nat)
    (customToolNames : List String) (chunks : List Json) : ∃ responseId,
      PlacedByKind chunks responseId
        (Responses.stream read chunks { clock, customToolNames }) := by
  by_cases hchoice : ∃ chunk ∈ chunks, (firstChoice chunk).isSome
  · obtain ⟨responseId, s, hplaced⟩ := @Carries.run clock customToolNames read PlacedBy
      (carries_placedBy read) (by
        intro responseId readings created responsesCreated
        refine ⟨rfl, rfl, ⟨nofun, nofun, nofun⟩, ?_⟩
        intro event hmem
        exact (Emitter.begin_fits created _ event hmem).resolve_left List.not_mem_nil)
      chunks hchoice
    exact ⟨responseId, placedByKind_of_fits fun event hmem ↦
      (hplaced.fits event hmem).mono fun _ ↦ namedChoice_of_supplied⟩
  · have hsilent : ∀ chunk ∈ chunks, firstChoice chunk = none := by
      intro chunk hmem
      rw [← Option.not_isSome_iff_eq_none]
      exact fun h ↦ hchoice ⟨chunk, hmem, h⟩
    rw [stream_of_silent hsilent]
    exact ⟨"", placedByKind_of_fits nofun⟩

/-- Items of a stream that all have places of their own, one each, and are listed in their order in
the end. -/
structure PlacedInOrder (events : List ResponseEvent) : Prop where
  one : ∀ id place place', IsPlaced events id place → IsPlaced events id place' → place = place'
  apart : ∀ id id' place, IsPlaced events id place → IsPlaced events id' place → id = id'
  listed : ∀ event ∈ events, event.event = "response.completed" →
    ∃ items places, outputList event = some items ∧ List.Pairwise (· < ·) places ∧
      List.Forall₂ (fun item place ↦ ∃ id, item.strField "id" = some id ∧ IsPlaced events id place)
        items places

/-- A tool call after text has the place of the message. -/
theorem call_shares_message_place :
    ¬ PlacedInOrder (Responses.stream (fun _ ↦ none)
      [buildChunk ⟨"c1", 0, "m"⟩ (Json.object [("content", .str "I will look.")]) none,
        buildChunk ⟨"c1", 0, "m"⟩ (Json.object [("tool_calls", .arr [Json.object
          [("index", Json.nat 0), ("id", .str "t1"), ("function", Json.object
            [("name", .str "look"), ("arguments", .str "\x7b\x7d")])]])]) none]
      { clock := fun _ ↦ 0 }) := by
  intro h
  have hsame := h.apart "msg_resp_c1_0" "fc_resp_c1_0" 0 (by
    refine ⟨_, List.mem_of_getElem? (i := 2) rfl, ?_⟩
    decide +kernel) (by
    refine ⟨_, List.mem_of_getElem? (i := 8) rfl, ?_⟩
    decide +kernel)
  exact absurd hsame (by decide +kernel)

end NullRouter.Translate
