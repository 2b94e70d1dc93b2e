import NullRouter.Translate.ResponseItems

/-!
# Lifecycle of a Responses stream

What the header of `openai_to_responses.rs` promises of the events of a stream, and the streams
that keep it: exactly those whose chunks ask in an order that the flags of the items allow.
-/

namespace NullRouter.Translate

open NullRouter.Base

/-- What a chunk asks of the stream. -/
inductive Ask where
  | reasoning
  | text (index : Nat)
  | call (index : Nat) (arguments : Bool)
  | finish
  deriving DecidableEq

namespace Ask

/-- What the content of a choice asks, in the order in which it is served. -/
def ofContent (choice : Json) : List Ask :=
  let delta := choice.get "delta"
  (if (extractReasoningText delta).isEmpty then [] else [.reasoning]) ++
    (if (deltaText delta "content").isSome then [.text (indexOf choice)] else []) ++
    (deltaToolCalls delta).map
      fun call ↦ .call (indexOf call) (Emitter.callArguments call).isSome

/-- What a choice asks: its finish comes last. -/
def ofChoice (choice : Json) : List Ask :=
  ofContent choice ++ if (choiceFinish choice).isSome then [.finish] else []

/-- What a chunk asks: nothing without a choice. -/
def ofChunk (chunk : Json) : List Ask := (firstChoice chunk).elim [] ofChoice

end Ask

section Order

variable {asks : List Ask} {ask : Ask}

/-- A tool call of an index has been asked for. -/
def Called (asks : List Ask) (index : Nat) : Prop := ∃ arguments, .call index arguments ∈ asks

/-- Text has followed reasoning. -/
def ReasoningClosed (asks : List Ask) : Prop :=
  Somewhere (fun earlier ask ↦ (∃ index, ask = .text index) ∧ .reasoning ∈ earlier) asks

/-- A tool call of a new index has followed text of the first choice. -/
def TextClosed (asks : List Ask) : Prop :=
  Somewhere (fun earlier ask ↦ (∃ index arguments, ask = .call index arguments ∧
    ¬ Called earlier index) ∧ .text 0 ∈ earlier) asks

/-- What may be asked after what has been asked. -/
def Allowed (asks : List Ask) : Ask → Prop
  | .reasoning => .finish ∉ asks ∧ ¬ ReasoningClosed asks
  | .text index => .finish ∉ asks ∧ ¬ (index = 0 ∧ TextClosed asks)
  | .call index arguments => .finish ∈ asks → Called asks index ∧ arguments = false
  | .finish => True

/-- Whatever is asked may be asked then. -/
def Orderly (asks : List Ask) : Prop := ¬ Somewhere (fun earlier ask ↦ ¬ Allowed earlier ask) asks

@[simp] theorem orderly_nil : Orderly [] := not_somewhere_nil

theorem orderly_concat : Orderly (asks ++ [ask]) ↔ Orderly asks ∧ Allowed asks ask := by
  rw [Orderly, somewhere_concat, not_or, not_not, Orderly]

@[simp] theorem called_concat {index : Nat} : Called (asks ++ [ask]) index ↔
    Called asks index ∨ ∃ arguments, ask = .call index arguments := by
  simp only [Called, List.mem_append, List.mem_singleton, exists_or, eq_comm]

@[simp] theorem reasoningClosed_concat : ReasoningClosed (asks ++ [ask]) ↔
    ReasoningClosed asks ∨ (∃ index, ask = .text index) ∧ .reasoning ∈ asks := somewhere_concat

@[simp] theorem textClosed_concat : TextClosed (asks ++ [ask]) ↔ TextClosed asks ∨
    (∃ index arguments, ask = .call index arguments ∧ ¬ Called asks index) ∧ .text 0 ∈ asks :=
  somewhere_concat

end Order

/-- What an ask before the finish does to items in given phases. -/
def asked (phase : Item → Phase) : Ask → List (Item × Act)
  | .reasoning => opening phase .reasoning ++ [(.reasoning, .uses)]
  | .text index => closing phase .reasoning ++
      (opening phase (.message index) ++ [(.message index, .uses)])
  | .call index arguments => openingCall phase index ++
      if arguments then [(.call index, .uses)] else []
  | .finish => []

/-- The phases of the items after what has been asked, none of it a finish. -/
structure Heard (asks : List Ask) (phase : Item → Phase) : Prop where
  unbroken : ∀ item, phase item ≠ .broken
  reasoning_fresh : phase .reasoning = .fresh ↔ .reasoning ∉ asks
  reasoning_closed : phase .reasoning = .closed ↔ ReasoningClosed asks
  message_fresh : ∀ i, phase (.message i) = .fresh ↔ .text i ∉ asks
  message_closed : ∀ i, phase (.message i) = .closed ↔ i = 0 ∧ TextClosed asks
  call_fresh : ∀ i, phase (.call i) = .fresh ↔ ¬ Called asks i
  call_open : ∀ i, phase (.call i) ≠ .closed

section Phases

variable {asks : List Ask} {ask : Ask} {phase : Item → Phase}

theorem kept_asked_reasoning : kept phase (asked phase .reasoning) =
    Function.update phase .reasoning ((phase .reasoning).keep .opens) := by
  rw [asked, kept_append, kept_uses, kept_opening]

theorem kept_asked_text (i : Nat) : kept phase (asked phase (.text i)) =
    Function.update (Function.update phase .reasoning ((phase .reasoning).keep .closes))
      (.message i) ((phase (.message i)).keep .opens) := by
  have hother : kept phase (closing phase .reasoning) (.message i) = phase (.message i) := by
    rw [kept_closing, Function.update_of_ne (by simp)]
  rw [asked, kept_append, kept_append, kept_uses, opening_congr hother.symm, kept_opening, hother,
    kept_closing]

theorem kept_asked_call (i : Nat) (arguments : Bool) :
    kept phase (asked phase (.call i arguments)) =
      if phase (.call i) = .fresh then
        Function.update (Function.update phase (.message 0) ((phase (.message 0)).keep .closes))
          (.call i) .live
      else phase := by
  have huses : ∀ p : Item → Phase,
      kept p (if arguments then [(.call i, .uses)] else []) = p := by
    intro p
    cases arguments
    · rfl
    · exact kept_uses
  rw [asked, kept_append, huses, openingCall]
  split
  · next h => rw [kept_append, kept_closing, kept_single, Function.update_of_ne (by simp), h]; rfl
  · rfl

/-- An ask that is allowed leaves no item broken. -/
theorem Heard.follows (h : Heard asks phase) (hallowed : Allowed asks ask) :
    Follows phase (kept phase (asked phase ask)) (asked phase ask) := by
  cases ask with
  | reasoning =>
    rw [asked, kept_append, kept_uses]
    refine follows_opening.trans (follows_uses ?_)
    rw [kept_opening, Function.update_self]
    exact Phase.keep_opens (mt h.reasoning_closed.mp hallowed.2) (h.unbroken _)
  | text i =>
    have hother : phase (.message i) = kept phase (closing phase .reasoning) (.message i) := by
      rw [kept_closing, Function.update_of_ne (by simp)]
    rw [asked, kept_append, kept_append, kept_uses, opening_congr hother]
    refine follows_closing.trans (follows_opening.trans (follows_uses ?_))
    rw [kept_opening, Function.update_self, ← hother]
    exact Phase.keep_opens (mt (h.message_closed i).mp hallowed.2) (h.unbroken _)
  | call i arguments =>
    have huses : ∀ p : Item → Phase, p (.call i) = .live →
        Follows p p (if arguments then [(.call i, .uses)] else []) := by
      intro p hlive
      cases arguments
      · exact .refl p
      · exact follows_uses hlive
    rw [kept_asked_call, asked, openingCall]
    split
    · next hfresh =>
      refine Follows.trans ?_ (huses _ (Function.update_self ..))
      refine follows_closing.trans (.single ?_ ?_)
      · rw [kept_closing, Function.update_of_ne (by simp), hfresh, Function.update_self]
        rfl
      · intro other hne
        rw [Function.update_of_ne hne, kept_closing]
    · next hfresh =>
      refine huses phase ?_
      have hopen := h.call_open i
      have hunbroken := h.unbroken (.call i)
      cases hphase : phase (.call i) <;> simp_all
  | finish => exact .refl phase

/-- An ask that is not allowed leaves an item broken. -/
theorem Heard.breaks (h : Heard asks phase) (hunfinished : .finish ∉ asks)
    (hallowed : ¬ Allowed asks ask) :
    ∃ item, (actsOf item (asked phase ask)).foldl Phase.next (phase item) = .broken := by
  cases ask with
  | reasoning =>
    have hclosed : phase .reasoning = .closed := by
      rw [h.reasoning_closed]
      by_contra hopen
      exact hallowed ⟨hunfinished, hopen⟩
    exact ⟨.reasoning, by simp [asked, opening, hclosed, actsOf, Phase.next]⟩
  | text i =>
    have hclosed : phase (.message i) = .closed := by
      rw [h.message_closed]
      by_contra hopen
      exact hallowed ⟨hunfinished, hopen⟩
    refine ⟨.message i, ?_⟩
    rw [asked, opening, if_neg (by rw [hclosed]; decide), hclosed, closing]
    split <;> simp [actsOf, Phase.next]
  | call i arguments => exact absurd (fun hfinish ↦ absurd hfinish hunfinished) hallowed
  | finish => exact absurd trivial hallowed

/-- The phases after one more ask. -/
theorem Heard.step (h : Heard asks phase) (hallowed : Allowed asks ask) (hask : ask ≠ .finish) :
    Heard (asks ++ [ask]) (kept phase (asked phase ask)) := by
  have hunbroken : ∀ item, kept phase (asked phase ask) item ≠ .broken :=
    fun item ↦ Phase.foldl_keep_ne_broken (h.unbroken item)
  cases ask with
  | reasoning =>
    have hlive := Phase.keep_opens (mt h.reasoning_closed.mp hallowed.2) (h.unbroken _)
    rw [kept_asked_reasoning, hlive] at hunbroken ⊢
    constructor <;> simp [hunbroken, h.message_fresh, h.message_closed, h.call_fresh, h.call_open,
      hallowed.2]
  | text i =>
    have hlive := Phase.keep_opens (mt (h.message_closed i).mp hallowed.2) (h.unbroken _)
    rw [kept_asked_text, hlive] at hunbroken ⊢
    have hclosed : ReasoningClosed asks → .reasoning ∈ asks := by
      intro hclosed
      by_contra hmem
      have := h.reasoning_closed.mpr hclosed
      rw [h.reasoning_fresh.mpr hmem] at this
      cases this
    constructor
    · exact hunbroken
    · simp [h.reasoning_fresh]
    · simp [Phase.keep_closes_eq_closed (h.unbroken _), h.reasoning_fresh]
      exact hclosed
    · intro j
      by_cases hj : j = i
      · simp [hj]
      · simp [hj, h.message_fresh]
    · intro j
      by_cases hj : j = i
      · simpa [hj] using hallowed.2
      · simp [hj, h.message_closed]
    · simp [h.call_fresh]
    · simp [h.call_open]
  | call i arguments =>
    rw [kept_asked_call] at hunbroken ⊢
    split
    · next hfresh =>
      rw [if_pos hfresh] at hunbroken
      have hcalled := (h.call_fresh i).mp hfresh
      have hclosed : TextClosed asks → .text 0 ∈ asks := by
        intro hclosed
        by_contra hmem
        have := (h.message_closed 0).mpr ⟨rfl, hclosed⟩
        rw [(h.message_fresh 0).mpr hmem] at this
        cases this
      constructor
      · exact hunbroken
      · simp [h.reasoning_fresh]
      · simp [h.reasoning_closed]
      · intro j
        by_cases hj : j = 0
        · simp [hj, h.message_fresh]
        · simp [hj, h.message_fresh]
      · intro j
        by_cases hj : j = 0
        · simp [hj, Phase.keep_closes_eq_closed (h.unbroken _), h.message_fresh, hcalled]
          exact hclosed
        · simp [hj, h.message_closed]
      · intro j
        by_cases hj : j = i
        · simp [hj]
        · simp [hj, h.call_fresh, Ne.symm hj]
      · intro j
        by_cases hj : j = i
        · simp [hj]
        · simp [hj, h.call_open]
    · next hfresh =>
      have hcalled : Called asks i := not_not.mp (mt (h.call_fresh i).mpr hfresh)
      constructor
      case call_fresh =>
        intro j
        rw [h.call_fresh, called_concat, not_or, iff_self_and]
        rintro hj ⟨arguments', heq⟩
        cases heq
        exact hj hcalled
      all_goals simp [h.unbroken, h.reasoning_fresh, h.reasoning_closed, h.message_fresh,
        h.message_closed, h.call_open, hcalled]
  | finish => exact absurd rfl hask

end Phases
/-- What a client of the Responses format counts on. -/
structure Lifecycle (events : List ResponseEvent) : Prop where
  numbered : events.map (·.data.get "sequence_number") =
    (List.range events.length).map fun i ↦ some (Json.nat (i + 1))
  created : events.head?.map (·.event) = some "response.created"
  completed : ∃ init last, events = init ++ [last] ∧ last.event = "response.completed" ∧
    ∀ event ∈ init, event.event ≠ "response.completed"
  items : WellBracketed (marks events)

/-- Events that no further event makes a lifecycle. -/
def Ruined (events : List ResponseEvent) : Prop :=
  (∃ key, phaseAt key (marks events) = .broken) ∨
    ∃ event ∈ events.dropLast, event.event = "response.completed"

section Ruin

variable {events more : List ResponseEvent}

theorem Ruined.append (h : Ruined events) (more : List ResponseEvent) :
    Ruined (events ++ more) := by
  rcases h with ⟨key, hkey⟩ | ⟨event, hmem, hevent⟩
  · refine .inl ⟨key, ?_⟩
    rw [marks_append, phaseAt_append_of_broken hkey]
  · refine .inr ⟨event, ?_, hevent⟩
    rw [List.dropLast_append]
    split
    · exact hmem
    · exact List.mem_append_left _ (List.dropLast_subset _ hmem)

theorem Ruined.not_lifecycle (h : Ruined events) : ¬ Lifecycle events := by
  intro hlife
  rcases h with ⟨key, hkey⟩ | ⟨event, hmem, hevent⟩
  · have := wellBracketed_iff.mp hlife.items key
    rw [hkey] at this
    cases this
  · obtain ⟨init, last, rfl, -, hinit⟩ := hlife.completed
    rw [List.dropLast_concat] at hmem
    exact hinit event hmem hevent

/-- Nothing may follow a lifecycle. -/
theorem Lifecycle.ruined (h : Lifecycle events) (hmore : more ≠ []) : Ruined (events ++ more) := by
  obtain ⟨init, last, rfl, hlast, -⟩ := h.completed
  refine .inr ⟨last, ?_, hlast⟩
  rw [List.dropLast_append_of_ne_nil hmore]
  simp

end Ruin
/-- A stream that has begun and not finished. -/
structure Begun (responseId : String) (asks : List Ask) (events : List ResponseEvent)
    (s : StreamState) : Prop where
  uncompleted : s.responsesCompleted = false
  unfinished : .finish ∉ asks
  heard : Heard asks s.flags.phase
  numbered : Numbered events s.responsesSeq
  created : events.head?.map (·.event) = some "response.created"
  quiet : ∀ event ∈ events, event.event ≠ "response.completed"
  items : ∃ acts, marks events = acts.map (Prod.map (Item.id responseId) id) ∧
    ∀ item, phaseAt item acts = s.flags.phase item

/-- A stream that has finished. -/
structure Finished (asks : List Ask) (events : List ResponseEvent) (s : StreamState) : Prop where
  completed : s.responsesCompleted = true
  finished : .finish ∈ asks
  called : ∀ i, s.flags.phase (.call i) = .fresh ↔ ¬ Called asks i
  lifecycle : Lifecycle events

/-- How far a stream got by what has been asked: it keeps to the lifecycle as long as the asks
are orderly, and is ruined once they are not. -/
structure Tracks (responseId : String) (asks : List Ask) (events : List ResponseEvent)
    (s : StreamState) : Prop where
  sane : s.flags.Sane
  named : s.responseId = some responseId
  started : s.responsesStarted = true
  kept : Orderly asks ∧ (Begun responseId asks events s ∨ Finished asks events s) ∨
    ¬ Orderly asks ∧ Ruined events

section Tracking

variable {responseId : String} {asks : List Ask} {ask : Ask} {e e' : Emitter}
  {earlier : List ResponseEvent} {acts : List (Item × Act)}

theorem Does.named (h : Does responseId e e' acts) :
    e'.state.responseId = e.state.responseId := congrArg (·.1) h.header

theorem Does.started (h : Does responseId e e' acts) :
    e'.state.responsesStarted = e.state.responsesStarted := congrArg (·.2.1) h.header

theorem Does.completed (h : Does responseId e e' acts) :
    e'.state.responsesCompleted = e.state.responsesCompleted := congrArg (·.2.2) h.header

/-- Acts of the items carry over to the events. -/
theorem phaseAt_marks {events : List ResponseEvent}
    (h : marks events = acts.map (Prod.map (Item.id responseId) id)) (item : Item) :
    phaseAt (item.id responseId) (marks events) = phaseAt item acts := by
  rw [h, phaseAt, actsOf_map (Item.id_injective responseId), phaseAt]

theorem Begun.events_ne_nil {events : List ResponseEvent} {s : StreamState}
    (h : Begun responseId asks events s) : events ≠ [] := by
  rintro rfl
  have := h.created
  cases this

/-- An ask that is served before the finish. -/
theorem Begun.serve (h : Begun responseId asks (earlier ++ e.events) e.state)
    (hdoes : Does responseId e e' (asked e.state.flags.phase ask)) (hask : ask ≠ .finish)
    (hallowed : Allowed asks ask) :
    Begun responseId (asks ++ [ask]) (earlier ++ e'.events) e'.state where
  uncompleted := hdoes.completed.trans h.uncompleted
  unfinished := by simpa using ⟨h.unfinished, hask.symm⟩
  heard := hdoes.phase ▸ h.heard.step hallowed hask
  numbered := hdoes.numbered earlier h.numbered
  created := by
    obtain ⟨more, hmore⟩ := hdoes.grows
    rw [← hmore, ← List.append_assoc, List.head?_append_of_ne_nil _ h.events_ne_nil]
    exact h.created
  quiet := by
    intro event hmem
    rcases List.mem_append.mp hmem with hmem | hmem
    · exact h.quiet event (List.mem_append_left _ hmem)
    · exact hdoes.uncompleted (fun ev hev ↦ h.quiet ev (List.mem_append_right _ hev)) event hmem
  items := by
    obtain ⟨acts, hmarks, hphase⟩ := h.items
    refine ⟨acts ++ asked e.state.flags.phase ask, ?_, ?_⟩
    · rw [marks_append, hdoes.marked, ← List.append_assoc, ← marks_append, hmarks, List.map_append]
    · intro item
      rw [hdoes.phase]
      exact (h.heard.follows hallowed).phaseAt_append hphase item

/-- An ask that is not allowed ruins the events. -/
theorem Begun.ruined (h : Begun responseId asks (earlier ++ e.events) e.state)
    (hdoes : Does responseId e e' (asked e.state.flags.phase ask))
    (hallowed : ¬ Allowed asks ask) : Ruined (earlier ++ e'.events) := by
  obtain ⟨acts, hmarks, hphase⟩ := h.items
  obtain ⟨item, hbroken⟩ := h.heard.breaks h.unfinished hallowed
  have hmarked : marks (earlier ++ e'.events) = (acts ++ asked e.state.flags.phase ask).map
      (Prod.map (Item.id responseId) id) := by
    rw [marks_append, hdoes.marked, ← List.append_assoc, ← marks_append, hmarks, List.map_append]
  refine .inl ⟨item.id responseId, ?_⟩
  rw [phaseAt_marks hmarked, phaseAt_append, hphase, hbroken]

/-- After the finish nothing is allowed but what does nothing. -/
theorem allowed_iff_asked_eq_nil {phase : Item → Phase} (hfinish : .finish ∈ asks)
    (hcalled : ∀ i, phase (.call i) = .fresh ↔ ¬ Called asks i) :
    Allowed asks ask ↔ asked phase ask = [] := by
  cases ask with
  | reasoning => simp [Allowed, asked, hfinish]
  | text i => simp [Allowed, asked, hfinish]
  | call i arguments =>
    have hopening : openingCall phase i = [] ↔ Called asks i := by
      rw [openingCall, ite_eq_right_iff, ← not_not (a := Called asks i), ← hcalled]
      simp
    simp [Allowed, asked, hfinish, hopening]
  | finish => simp [Allowed, asked]

/-- An ask other than the finish, served by what it does to the items. -/
theorem Tracks.serve (h : Tracks responseId asks (earlier ++ e.events) e.state)
    (hdoes : Does responseId e e' (asked e.state.flags.phase ask)) (hask : ask ≠ .finish)
    (hidle : asked e.state.flags.phase ask = [] → e'.events = e.events) :
    Tracks responseId (asks ++ [ask]) (earlier ++ e'.events) e'.state where
  sane := hdoes.sane
  named := hdoes.named.trans h.named
  started := hdoes.started.trans h.started
  kept := by
    obtain ⟨more, hmore⟩ := hdoes.grows
    rw [orderly_concat]
    rcases h.kept with ⟨horderly, hbegun | hfinished⟩ | ⟨hdisorderly, hruined⟩
    · by_cases hallowed : Allowed asks ask
      · exact .inl ⟨⟨horderly, hallowed⟩, .inl (hbegun.serve hdoes hask hallowed)⟩
      · exact .inr ⟨fun h ↦ hallowed h.2, hbegun.ruined hdoes hallowed⟩
    · have hiff := @allowed_iff_asked_eq_nil _ ask _ hfinished.finished hfinished.called
      by_cases hallowed : Allowed asks ask
      · have hnil := hiff.mp hallowed
        refine .inl ⟨⟨horderly, hallowed⟩, .inr ⟨hdoes.completed.trans hfinished.completed,
          List.mem_append_left _ hfinished.finished, ?_, ?_⟩⟩
        · intro i
          rw [hdoes.phase, hnil, kept_nil, hfinished.called, called_concat, not_or, iff_self_and]
          rintro hi ⟨arguments, rfl⟩
          exact hi (hallowed hfinished.finished).1
        · rw [hidle hnil]
          exact hfinished.lifecycle
      · refine .inr ⟨fun h ↦ hallowed h.2, ?_⟩
        rw [← hmore, ← List.append_assoc]
        refine hfinished.lifecycle.ruined ?_
        rintro rfl
        have hmarked := hdoes.marked
        rw [← hmore, List.append_nil, List.self_eq_append_right, List.map_eq_nil_iff] at hmarked
        exact hallowed (hiff.mpr hmarked)
    · refine .inr ⟨fun h ↦ hdisorderly h.1, ?_⟩
      rw [← hmore, ← List.append_assoc]
      exact hruined.append more

theorem Tracks.reasoning (h : Tracks responseId asks (earlier ++ e.events) e.state) (index : Nat)
    (text : String) : Tracks responseId (asks ++ [.reasoning])
      (earlier ++ (Emitter.emitReasoning responseId index text e).events)
      (Emitter.emitReasoning responseId index text e).state :=
  h.serve (Emitter.emitReasoning_does responseId index text h.sane) (by simp) (by simp [asked])

theorem Tracks.text (h : Tracks responseId asks (earlier ++ e.events) e.state) (index : Nat)
    (text : String) : Tracks responseId (asks ++ [.text index])
      (earlier ++ (Emitter.emitText responseId index text
        (Emitter.closeReasoning responseId index e)).events)
      (Emitter.emitText responseId index text
        (Emitter.closeReasoning responseId index e)).state := by
  have hclose := Emitter.closeReasoning_does responseId index h.sane
  have hemit := Emitter.emitText_does responseId index text hclose.sane
  have hphase : (Emitter.closeReasoning responseId index e).state.flags.phase (.message index) =
      e.state.flags.phase (.message index) := by
    rw [hclose.phase, kept_closing, Function.update_of_ne (by simp)]
  rw [opening_congr hphase] at hemit
  exact h.serve (hclose.trans hemit) (by simp) (by simp [asked])

theorem Tracks.call (h : Tracks responseId asks (earlier ++ e.events) e.state) (call : Json) :
    Tracks responseId
      (asks ++ [.call (indexOf call) (Emitter.callArguments call).isSome])
      (earlier ++ (Emitter.emitToolCall responseId e call).events)
      (Emitter.emitToolCall responseId e call).state := by
  refine h.serve (Emitter.emitToolCall_does responseId call h.sane) (by simp) ?_
  intro hnil
  rw [asked, List.append_eq_nil_iff] at hnil
  have hadded : indexOf call ∈ e.state.functionItemsAdded := by
    by_contra hnew
    rw [openingCall, if_pos ((Flags.call_fresh h.sane _).mpr hnew)] at hnil
    simp at hnil
  have hnone : Emitter.callArguments call = none := by
    cases hargs : Emitter.callArguments call with
    | none => rfl
    | some arguments => simp [hargs] at hnil
  rw [Emitter.emitToolCall, hnone]
  simp only [Emitter.addCall, not_true, if_false, hadded, Emitter.nameCall]
  split <;> rfl

/-- The tool calls of a delta, in turn. -/
theorem Tracks.calls (h : Tracks responseId asks (earlier ++ e.events) e.state)
    (calls : List Json) :
    Tracks responseId (asks ++ calls.map
        fun call ↦ .call (indexOf call) (Emitter.callArguments call).isSome)
      (earlier ++ (calls.foldl (Emitter.emitToolCall responseId) e).events)
      (calls.foldl (Emitter.emitToolCall responseId) e).state := by
  induction calls generalizing e asks with
  | nil => simpa using h
  | cons call calls ih =>
    rw [List.map_cons, List.append_cons, List.foldl_cons]
    exact ih (h.call call)

/-- The content of a choice. -/
theorem Tracks.content (h : Tracks responseId asks (earlier ++ e.events) e.state)
    (choice : Json) :
    Tracks responseId (asks ++ Ask.ofContent choice)
      (earlier ++ (Responses.content responseId choice e).events)
      (Responses.content responseId choice e).state := by
  rw [Responses.content, Ask.ofContent, ← List.append_assoc, ← List.append_assoc]
  refine Tracks.calls ?_ _
  have hreasoning : Tracks responseId
      (asks ++ if (extractReasoningText (choice.get "delta")).isEmpty then [] else [.reasoning])
      (earlier ++ (if (extractReasoningText (choice.get "delta")).isEmpty then e
        else Emitter.emitReasoning responseId (indexOf choice)
          (extractReasoningText (choice.get "delta")) e).events)
      (if (extractReasoningText (choice.get "delta")).isEmpty then e
        else Emitter.emitReasoning responseId (indexOf choice)
          (extractReasoningText (choice.get "delta")) e).state := by
    split
    · simpa using h
    · exact h.reasoning ..
  cases htext : deltaText (choice.get "delta") "content" with
  | none => simpa using hreasoning
  | some text => exact hreasoning.text ..

/-- One emitter comes from another by closing items. -/
structure Shuts (responseId : String) (e e' : Emitter) : Prop where
  does : ∃ acts, Does responseId e e' acts ∧
    Follows e.state.flags.phase e'.state.flags.phase acts
  fresh : ∀ item, e'.state.flags.phase item = .fresh ↔ e.state.flags.phase item = .fresh
  live : ∀ item, e'.state.flags.phase item = .live → e.state.flags.phase item = .live

namespace Shuts

variable {e'' : Emitter}

theorem sane (h : Shuts responseId e e') : e'.state.flags.Sane :=
  have ⟨_, hdoes, _⟩ := h.does
  hdoes.sane

theorem refl (hs : e.state.flags.Sane) : Shuts responseId e e :=
  ⟨⟨[], .refl hs, .refl _⟩, fun _ ↦ .rfl, fun _ h ↦ h⟩

theorem trans (h : Shuts responseId e e') (h' : Shuts responseId e' e'') :
    Shuts responseId e e'' := by
  obtain ⟨acts, hdoes, hfollows⟩ := h.does
  obtain ⟨more, hdoes', hfollows'⟩ := h'.does
  exact ⟨⟨acts ++ more, hdoes.trans hdoes', hfollows.trans hfollows'⟩,
    fun item ↦ (h'.fresh item).trans (h.fresh item), fun item hl ↦ h.live item (h'.live item hl)⟩

/-- Closing one item leaves it not live. -/
theorem of_closing {item : Item} (h : Does responseId e e' (closing e.state.flags.phase item)) :
    Shuts responseId e e' ∧ e'.state.flags.phase item ≠ .live := by
  have hphase := h.phase
  rw [kept_closing] at hphase
  have hkeep : ∀ p : Phase, p.keep .closes ≠ .live := by
    intro p
    cases p <;> exact nofun
  refine ⟨⟨⟨_, h, h.phase ▸ follows_closing⟩, ?_, ?_⟩, ?_⟩
  · intro other
    by_cases hother : other = item
    · rw [hphase, hother, Function.update_self, Phase.keep_closes_eq_fresh]
    · rw [hphase, Function.update_of_ne hother]
  · intro other hlive
    by_cases hother : other = item
    · rw [hphase, hother, Function.update_self] at hlive
      exact absurd hlive (hkeep _)
    · rwa [hphase, Function.update_of_ne hother] at hlive
  · rw [hphase, Function.update_self]
    exact hkeep _

/-- Closing items in turn leaves them not live. -/
theorem foldl {f : Emitter → Nat → Emitter} {g : Nat → Item} {l : List Nat}
    (hclose : ∀ e : Emitter, e.state.flags.Sane → ∀ i, e.state.flags.phase (g i) ≠ .fresh →
      Does responseId e (f e i) (closing e.state.flags.phase (g i)))
    (hs : e.state.flags.Sane) (hl : ∀ i ∈ l, e.state.flags.phase (g i) ≠ .fresh) :
    Shuts responseId e (l.foldl f e) ∧
      ∀ i ∈ l, (l.foldl f e).state.flags.phase (g i) ≠ .live := by
  induction l generalizing e with
  | nil => exact ⟨.refl hs, nofun⟩
  | cons i l ih =>
    rw [List.forall_mem_cons] at hl
    obtain ⟨hfirst, hdone⟩ := of_closing (hclose e hs i hl.1)
    obtain ⟨hrest, hdones⟩ := ih hfirst.sane fun j hj ↦ mt (hfirst.fresh (g j)).mp (hl.2 j hj)
    rw [List.foldl_cons, List.forall_mem_cons]
    exact ⟨hfirst.trans hrest, mt (hrest.live (g i)) hdone, hdones⟩

end Shuts

/-- The flush leaves no item live. -/
theorem closeItems_shuts (read : String → Option Json) (responseId : String)
    (hs : e.state.flags.Sane) : Shuts responseId e (Emitter.closeItems read responseId e) ∧
      ∀ item, (Emitter.closeItems read responseId e).state.flags.phase item ≠ .live := by
  rw [Emitter.closeItems]
  obtain ⟨hmessages, hmessage⟩ := Shuts.foldl (g := Item.message) (l := e.state.messageItemsAdded)
    (fun e hs i _ ↦ Emitter.closeMessage_does responseId i hs) hs
    fun i hi ↦ mt (Flags.message_fresh hs i).mp (not_not.mpr hi)
  set e₁ := e.state.messageItemsAdded.foldl (fun e i ↦ Emitter.closeMessage responseId i e) e
  obtain ⟨hreasoning, hreason⟩ := Shuts.of_closing
    (Emitter.closeReasoning_does responseId 0 hmessages.sane)
  set e₂ := Emitter.closeReasoning responseId 0 e₁
  obtain ⟨hcalls, hcall⟩ := Shuts.foldl (g := Item.call) (l := e₂.state.functionItemsAdded)
    (fun e hs i hi ↦ Emitter.closeToolCall_does read responseId i hs
      (not_not.mp (mt (Flags.call_fresh hs i).mpr hi))) hreasoning.sane
    fun i hi ↦ mt (Flags.call_fresh hreasoning.sane i).mp (not_not.mpr hi)
  set e₃ := e₂.state.functionItemsAdded.foldl
    (fun e i ↦ Emitter.closeToolCall read responseId i e) e₂
  refine ⟨(hmessages.trans hreasoning).trans hcalls, ?_⟩
  rintro (_ | i | i) hlive
  · exact hreason (hcalls.live _ hlive)
  · have hlive₁ := hreasoning.live _ (hcalls.live _ hlive)
    exact hmessage i ((Flags.message_live i).mp (hmessages.live _ hlive₁)).1 hlive₁
  · exact hcall i ((Flags.call_live i).mp (hcalls.live _ hlive)).1 hlive

theorem flush_of_completed {read : String → Option Json} {s : StreamState}
    (h : s.responsesCompleted = true) : Responses.flush read s = ([], s) := by
  rw [Responses.flush, if_pos h]

/-- A stream that has begun ends in what completes it. -/
theorem flush_of_uncompleted (read : String → Option Json) {s : StreamState}
    (hcompleted : s.responsesCompleted = false) (hstarted : s.responsesStarted = true)
    (hnamed : s.responseId = some responseId) : ∃ created, Responses.flush read s =
      let e := Emitter.complete responseId created (Emitter.closeItems read responseId ⟨s, []⟩)
      (e.events, e.state) := by
  refine ⟨s.responsesCreated.getD s.nowSeconds.1, ?_⟩
  rw [Responses.flush, if_neg (by simp [hcompleted]), if_neg (by simp [hstarted]), hnamed]
  rfl

/-- The last event of a flush. -/
theorem complete_events (responseId : String) (created : Nat) (e : Emitter) :
    ∃ event, (Emitter.complete responseId created e).events = e.events ++ [event] ∧
      event.event = "response.completed" ∧ marks [event] = [] ∧
      event.data.get "sequence_number" = some (Json.nat (e.state.responsesSeq + 1)) :=
  ⟨_, rfl, rfl, rfl, Json.lookup_insertField_self ..⟩

/-- Completing a stream whose items are closed gives a lifecycle. -/
theorem Begun.complete (h : Begun responseId asks (earlier ++ e.events) e.state)
    (hshuts : Shuts responseId e e') (hdone : ∀ item, e'.state.flags.phase item ≠ .live)
    (created : Nat) :
    Lifecycle (earlier ++ (Emitter.complete responseId created e').events) := by
  obtain ⟨more, hdoes, hfollows⟩ := hshuts.does
  obtain ⟨acts, hmarks, hphase⟩ := h.items
  obtain ⟨event, hevents, hname, hmark, hseq⟩ := complete_events responseId created e'
  rw [hevents, ← List.append_assoc]
  refine ⟨((hdoes.numbered earlier h.numbered).concat hseq).2, ?_, ?_, ?_⟩
  · obtain ⟨rest, hrest⟩ := hdoes.grows
    rw [← hrest, ← List.append_assoc, List.append_assoc,
      List.head?_append_of_ne_nil _ h.events_ne_nil]
    exact h.created
  · refine ⟨earlier ++ e'.events, event, rfl, hname, ?_⟩
    intro event hmem
    rcases List.mem_append.mp hmem with hmem | hmem
    · exact h.quiet event (List.mem_append_left _ hmem)
    · exact hdoes.uncompleted (fun ev hev ↦ h.quiet ev (List.mem_append_right _ hev)) event hmem
  · have hmarked : marks ((earlier ++ e'.events) ++ [event]) =
        (acts ++ more).map (Prod.map (Item.id responseId) id) := by
      rw [marks_append, marks_append, hdoes.marked, ← List.append_assoc, ← marks_append, hmarks,
        List.map_append, hmark, List.append_nil]
    rw [hmarked, wellBracketed_map (Item.id_injective responseId), wellBracketed_iff]
    intro item
    rw [hfollows.phaseAt_append hphase]
    have hlive := hdone item
    have hunbroken := Flags.phase_ne_broken (f := e'.state.flags) item
    cases hphase : e'.state.flags.phase item <;> first | rfl | contradiction

/-- A flush finishes the stream, unless it had. -/
theorem Tracks.flush (read : String → Option Json) {events : List ResponseEvent} {s : StreamState}
    (h : Tracks responseId asks events s) :
    Tracks responseId (asks ++ [.finish]) (events ++ (Responses.flush read s).1)
      (Responses.flush read s).2 := by
  have horder : Orderly (asks ++ [.finish]) ↔ Orderly asks := by
    simp [orderly_concat, Allowed]
  cases hcompleted : s.responsesCompleted with
  | true =>
    rw [flush_of_completed hcompleted, List.append_nil]
    refine ⟨h.sane, h.named, h.started, ?_⟩
    rw [horder]
    rcases h.kept with ⟨horderly, hbegun | hfinished⟩ | hruined
    · rw [hbegun.uncompleted] at hcompleted
      cases hcompleted
    · refine .inl ⟨horderly, .inr ⟨hcompleted, by simp, ?_, hfinished.lifecycle⟩⟩
      simpa using hfinished.called
    · exact .inr hruined
  | false =>
    obtain ⟨created, hflush⟩ := flush_of_uncompleted read hcompleted h.started h.named
    obtain ⟨hshuts, hdone⟩ := closeItems_shuts (e := ⟨s, []⟩) read responseId h.sane
    obtain ⟨acts, hdoes, -⟩ := hshuts.does
    rw [hflush]
    refine ⟨hshuts.sane, hdoes.named.trans h.named, hdoes.started.trans h.started, ?_⟩
    rw [horder]
    rcases h.kept with ⟨horderly, hbegun | hfinished⟩ | ⟨hdisorderly, hruined⟩
    · refine .inl ⟨horderly, .inr ⟨rfl, by simp, ?_, ?_⟩⟩
      · intro i
        refine (hshuts.fresh (.call i)).trans ?_
        rw [hbegun.heard.call_fresh]
        simp
      · exact Begun.complete (e := ⟨s, []⟩) (by simpa using hbegun) hshuts hdone created
    · rw [hfinished.completed] at hcompleted
      cases hcompleted
    · exact .inr ⟨hdisorderly, hruined.append _⟩

/-- Once finished, the events are a lifecycle exactly where the asks were orderly. -/
theorem Tracks.lifecycle_iff {events : List ResponseEvent} {s : StreamState}
    (h : Tracks responseId asks events s) (hfinish : .finish ∈ asks) :
    Lifecycle events ↔ Orderly asks := by
  rcases h.kept with ⟨horderly, hbegun | hfinished⟩ | ⟨hdisorderly, hruined⟩
  · exact absurd hfinish hbegun.unfinished
  · exact iff_of_true hfinished.lifecycle horderly
  · exact iff_of_false hruined.not_lifecycle hdisorderly

end Tracking

section Run

variable {responseId : String} {asks : List Ask} {events : List ResponseEvent} {s s' : StreamState}

/-- Nothing but the bookkeeping of the items and of the response matters. -/
theorem Tracks.congr (h : Tracks responseId asks events s) (hflags : s'.flags = s.flags)
    (hheader : s'.header = s.header) (hseq : s'.responsesSeq = s.responsesSeq) :
    Tracks responseId asks events s' := by
  have hnamed : s'.responseId = s.responseId := congrArg (·.1) hheader
  have hstarted : s'.responsesStarted = s.responsesStarted := congrArg (·.2.1) hheader
  have hcompleted : s'.responsesCompleted = s.responsesCompleted := congrArg (·.2.2) hheader
  refine ⟨hflags ▸ h.sane, hnamed.trans h.named, hstarted.trans h.started, ?_⟩
  rcases h.kept with ⟨horderly, hbegun | hfinished⟩ | hruined
  · refine .inl ⟨horderly, .inl ⟨hcompleted.trans hbegun.uncompleted, hbegun.unfinished,
      hflags ▸ hbegun.heard, hseq ▸ hbegun.numbered, hbegun.created, hbegun.quiet, ?_⟩⟩
    rw [hflags]
    exact hbegun.items
  · refine .inl ⟨horderly, .inr ⟨hcompleted.trans hfinished.completed, hfinished.finished, ?_,
      hfinished.lifecycle⟩⟩
    rw [hflags]
    exact hfinished.called
  · exact .inr hruined

/-- A choice is served by its content and, where it finishes, by a flush. -/
theorem Tracks.choice (read : String → Option Json) {e : Emitter}
    (h : Tracks responseId asks (events ++ e.events) e.state) (choice : Json) :
    let e := Responses.content responseId choice e
    let served := if (choiceFinish choice).isSome then
      (e.events ++ (Responses.flush read e.state).1, (Responses.flush read e.state).2)
      else (e.events, e.state)
    Tracks responseId (asks ++ Ask.ofChoice choice) (events ++ served.1) served.2 := by
  have hcontent := h.content choice
  dsimp only
  rw [Ask.ofChoice, ← List.append_assoc]
  split
  · rw [← List.append_assoc]
    exact hcontent.flush read
  · simpa using hcontent

theorem Tracks.translate (read : String → Option Json) (h : Tracks responseId asks events s)
    (chunk : Json) : Tracks responseId (asks ++ Ask.ofChunk chunk)
      (events ++ (Responses.translate read (some chunk) s).1)
      (Responses.translate read (some chunk) s).2 := by
  rw [Responses.translate, Ask.ofChunk]
  cases hchoice : firstChoice chunk with
  | none => simpa using h
  | some choice =>
    have hid : Responses.fixId chunk s = (responseId, s) := by
      have htake : Responses.takeId chunk s = s := by
        rw [Responses.takeId]
        cases chunk.strField "id" with
        | none => rfl
        | some id => exact if_pos h.started
      simp only [Responses.fixId, htake, h.named]
    have hbegin : ∀ created e, e.state.responsesStarted = true →
        Emitter.begin responseId created e = e := by
      intro created e hstarted
      rw [Emitter.begin, if_pos hstarted]
    have hdated : Tracks responseId asks (events ++ []) (Responses.fixCreated s).2 := by
      rw [List.append_nil, Responses.fixCreated]
      cases s.responsesCreated with
      | some created => exact h
      | none => exact h.congr rfl rfl rfl
    simp only [hid]
    rw [hbegin _ _ hdated.started]
    exact Tracks.choice read (e := ⟨(Responses.fixCreated s).2, []⟩) hdated choice

/-- From wherever a stream got, it ends in a lifecycle exactly where all is orderly. -/
theorem Tracks.stream (read : String → Option Json) (h : Tracks responseId asks events s)
    (chunks : List Json) : Lifecycle (events ++ Responses.stream read chunks s) ↔
      Orderly (asks ++ chunks.flatMap Ask.ofChunk) := by
  induction chunks generalizing asks events s with
  | nil =>
    rw [Responses.stream, List.flatMap_nil, List.append_nil]
    refine ((h.flush read).lifecycle_iff (by simp)).trans ?_
    simp [orderly_concat, Allowed]
  | cons chunk chunks ih =>
    rw [Responses.stream, List.flatMap_cons, ← List.append_assoc, ← List.append_assoc]
    exact ih (h.translate read chunk)

/-- A state in which no response has begun. -/
structure Unbegun (s : StreamState) : Prop where
  flags : s.flags = ⟨false, false, [], [], [], []⟩
  started : s.responsesStarted = false
  completed : s.responsesCompleted = false
  seq : s.responsesSeq = 0

/-- Before anything is asked every item is fresh. -/
theorem heard_nil : Heard [] (⟨false, false, [], [], [], []⟩ : Flags).phase := by
  constructor <;> simp [Flags.phase, Flags.phaseFrom, ReasoningClosed, TextClosed, Called]
  rintro (_ | i | i) <;> simp

/-- The first choice begins the response. -/
theorem Unbegun.begin (h : Unbegun s) (hnamed : s.responseId = some responseId) (created : Nat) :
    Tracks responseId [] (Emitter.begin responseId created ⟨s, []⟩).events
      (Emitter.begin responseId created ⟨s, []⟩).state := by
  have hemits : Emits responseId ⟨{ s with responsesStarted := true }, []⟩
      (Emitter.begin responseId created ⟨s, []⟩) [] := by
    rw [Emitter.begin, if_neg (by simp [h.started])]
    refine Emits.plain ?_ (by decide)
    refine Emits.plain ?_ (by decide)
    exact .refl _ _
  have hflags : (Emitter.begin responseId created ⟨s, []⟩).state.flags = s.flags := by
    rw [Emitter.begin, if_neg (by simp [h.started])]
    rfl
  have hcreated : ((Emitter.begin responseId created ⟨s, []⟩).events.head?).map (·.event) =
      some "response.created" := by
    rw [Emitter.begin, if_neg (by simp [h.started])]
    rfl
  have hheader := hemits.header
  simp only [StreamState.header, hnamed, h.completed, Prod.mk.injEq] at hheader
  have hnumbered := hemits.numbered [] (by rw [h.seq]; exact numbered_nil)
  refine ⟨?_, hheader.1, hheader.2.1, .inl ⟨orderly_nil, .inl ⟨hheader.2.2, by simp, ?_,
    hnumbered, hcreated, hemits.uncompleted (fun _ h ↦ absurd h List.not_mem_nil), [],
    hemits.marked, ?_⟩⟩⟩
  · rw [hflags, h.flags]
    constructor
    · intro hdone
      cases hdone
    · intro i hdone
      cases hdone
    · intro i hdone
      cases hdone
  · rw [hflags, h.flags]
    exact heard_nil
  · intro item
    rw [hflags, h.flags]
    cases item <;> rfl

/-- The id that is fixed is the one the state then has. -/
theorem Unbegun.fixId (h : Unbegun s) (chunk : Json) : Unbegun (Responses.fixId chunk s).2 ∧
    (Responses.fixId chunk s).2.responseId = some (Responses.fixId chunk s).1 := by
  have htake : Unbegun (Responses.takeId chunk s) := by
    rw [Responses.takeId]
    split
    · rw [if_neg (by simp [h.started])]
      exact ⟨h.flags, h.started, h.completed, h.seq⟩
    · exact h
  rw [Responses.fixId]
  generalize Responses.takeId chunk s = s' at htake
  cases hnamed : s'.responseId with
  | some name => exact ⟨htake, hnamed⟩
  | none => exact ⟨⟨htake.flags, htake.started, htake.completed, htake.seq⟩, rfl⟩

/-- The first choice of a stream begins it and is served. -/
theorem Unbegun.translate (read : String → Option Json) (h : Unbegun s) {chunk : Json}
    (hchoice : (firstChoice chunk).isSome) : ∃ responseId, Tracks responseId (Ask.ofChunk chunk)
      (Responses.translate read (some chunk) s).1 (Responses.translate read (some chunk) s).2 := by
  obtain ⟨choice, hchoice⟩ := Option.isSome_iff_exists.mp hchoice
  obtain ⟨hidentified, hnamed⟩ := h.fixId chunk
  refine ⟨(Responses.fixId chunk s).1, ?_⟩
  rw [Responses.translate, Ask.ofChunk, hchoice]
  set identified := Responses.fixId chunk s
  have hdated : Unbegun (Responses.fixCreated identified.2).2 ∧
      (Responses.fixCreated identified.2).2.responseId = some identified.1 := by
    rw [Responses.fixCreated]
    cases identified.2.responsesCreated with
    | some created => exact ⟨hidentified, hnamed⟩
    | none => exact ⟨⟨hidentified.flags, hidentified.started, hidentified.completed,
        hidentified.seq⟩, hnamed⟩
  exact @Tracks.choice _ [] [] read _ (hdated.1.begin hdated.2 _) choice

/-- The events of a stream are a lifecycle exactly where some chunk has a choice and all is asked
in order. -/
theorem stream_lifecycle_iff (read : String → Option Json) (clock : Nat → Nat)
    (customToolNames : List String) (chunks : List Json) :
    Lifecycle (Responses.stream read chunks { clock, customToolNames }) ↔
      (∃ chunk ∈ chunks, (firstChoice chunk).isSome) ∧
        Orderly (chunks.flatMap Ask.ofChunk) := by
  have hunbegun : Unbegun ({ clock, customToolNames } : StreamState) := ⟨rfl, rfl, rfl, rfl⟩
  generalize ({ clock, customToolNames } : StreamState) = s at hunbegun
  induction chunks with
  | nil =>
    have hnil : Responses.stream read [] s = [] := by
      rw [Responses.stream, Responses.translate, Responses.flush, if_neg (by simp [hunbegun.completed]),
        if_pos (by simp [hunbegun.started])]
    rw [hnil]
    refine iff_of_false ?_ (by simp)
    intro hlife
    cases hlife.created
  | cons chunk chunks ih =>
    rw [Responses.stream, List.flatMap_cons]
    by_cases hchoice : (firstChoice chunk).isSome
    · obtain ⟨responseId, htracks⟩ := hunbegun.translate read hchoice
      rw [htracks.stream read chunks]
      simp [hchoice]
    · have hnone := Option.not_isSome_iff_eq_none.mp hchoice
      have hidle : Responses.translate read (some chunk) s = ([], s) := by
        simp only [Responses.translate, hnone]
      rw [hidle, List.nil_append, Ask.ofChunk, hnone]
      refine ih.trans ?_
      simp [hnone]

/-- Reasoning that resumes after an answer has begun is a delta of an item that is done, and text
after the finish opens an item that nothing closes. -/
theorem late_deltas_are_no_lifecycle :
    ¬ Lifecycle (Responses.stream (fun _ ↦ none)
      [buildChunk ⟨"c1", 0, "m"⟩ (reasoningDelta "think" true) none,
        buildChunk ⟨"c1", 0, "m"⟩ (Json.object [("content", .str "answer")]) none,
        buildChunk ⟨"c1", 0, "m"⟩ (reasoningDelta "again" false) none,
        buildChunk ⟨"c1", 0, "m"⟩ (Json.object []) (some "stop")]
      { clock := fun _ ↦ 0 }) ∧
    ¬ Lifecycle (Responses.stream (fun _ ↦ none)
      [buildChunk ⟨"c1", 0, "m"⟩ (Json.object []) (some "stop"),
        buildChunk ⟨"c1", 0, "m"⟩ (Json.object [("content", .str "late")]) none]
      { clock := fun _ ↦ 0 }) := by
  constructor
  · intro h
    exact absurd (wellBracketed_iff.mp h.items "rs_resp_c1") (by decide)
  · intro h
    exact absurd (wellBracketed_iff.mp h.items "msg_resp_c1_0") (by decide)

end Run
end NullRouter.Translate
