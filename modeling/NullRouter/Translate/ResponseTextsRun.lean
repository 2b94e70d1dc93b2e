import NullRouter.Translate.ResponseTexts

/-!
# Texts over a Responses stream

The streams of `openai_to_responses.rs` whose closing events state the texts that the deltas of the
whole stream add up to: those in which no chunk brings more of an item that an earlier one closed.
-/

namespace NullRouter.Translate

open NullRouter.Base

/-! ## What is asked late -/

/-- Reasoning is closed: by text that followed it, or by the first finish. -/
def ReasoningDone (asks : List Ask) : Prop :=
  Somewhere (fun earlier ask ↦ ((∃ index, ask = .text index) ∨ ask = .finish ∧ .finish ∉ earlier) ∧
    .reasoning ∈ earlier) asks

/-- The message of a choice is closed: that of the first by a new tool call that followed it, any
by the first finish. -/
def MessageDone (asks : List Ask) (index : Nat) : Prop :=
  Somewhere (fun earlier ask ↦ (index = 0 ∧ (∃ call arguments, ask = .call call arguments ∧
    ¬ Called earlier call) ∨ ask = .finish ∧ .finish ∉ earlier) ∧ .text index ∈ earlier) asks

/-- A tool call is closed: by the first finish that followed it. -/
def CallDone (asks : List Ask) (index : Nat) : Prop :=
  Somewhere (fun earlier ask ↦ (ask = .finish ∧ .finish ∉ earlier) ∧ Called earlier index) asks

/-- A chunk brings more of an item that is closed. -/
def AsksLate (asks : List Ask) : Ask → Prop
  | .reasoning => ReasoningDone asks
  | .text index => MessageDone asks index
  | .call index arguments => arguments = true ∧ CallDone asks index
  | .finish => False

section Asks

variable {asks : List Ask} {ask : Ask}

@[simp] theorem reasoningDone_concat : ReasoningDone (asks ++ [ask]) ↔ ReasoningDone asks ∨
    ((∃ index, ask = .text index) ∨ ask = .finish ∧ .finish ∉ asks) ∧ .reasoning ∈ asks :=
  somewhere_concat

@[simp] theorem messageDone_concat {index : Nat} : MessageDone (asks ++ [ask]) index ↔
    MessageDone asks index ∨ (index = 0 ∧ (∃ call arguments, ask = .call call arguments ∧
      ¬ Called asks call) ∨ ask = .finish ∧ .finish ∉ asks) ∧ .text index ∈ asks :=
  somewhere_concat

@[simp] theorem callDone_concat {index : Nat} : CallDone (asks ++ [ask]) index ↔
    CallDone asks index ∨ (ask = .finish ∧ .finish ∉ asks) ∧ Called asks index :=
  somewhere_concat

end Asks

/-- The phases of the items after what has been asked, finishes included. -/
structure Settled (asks : List Ask) (phase : Item → Phase) : Prop where
  unbroken : ∀ item, phase item ≠ .broken
  reasoning_fresh : phase .reasoning = .fresh ↔ .reasoning ∉ asks
  reasoning_closed : phase .reasoning = .closed ↔ ReasoningDone asks
  message_fresh : ∀ i, phase (.message i) = .fresh ↔ .text i ∉ asks
  message_closed : ∀ i, phase (.message i) = .closed ↔ MessageDone asks i
  call_fresh : ∀ i, phase (.call i) = .fresh ↔ ¬ Called asks i
  call_closed : ∀ i, phase (.call i) = .closed ↔ CallDone asks i

namespace Settled

variable {asks : List Ask} {phase phase' : Item → Phase}

theorem keep_opens_eq {p : Phase} : (p.keep .opens = .closed ↔ p = .closed) ∧
    p.keep .opens ≠ .fresh := by
  cases p <;> simp [Phase.keep]

private theorem not_fresh_of_closed {item : Item} (h : phase item = .closed) :
    phase item ≠ .fresh := by
  rw [h]
  exact nofun

theorem nil : Settled [] (⟨false, false, [], [], [], []⟩ : Flags).phase := by
  constructor <;> simp [Flags.phase, Flags.phaseFrom, ReasoningDone, MessageDone, CallDone, Called]
  rintro (_ | i | i) <;> simp

/-- Reasoning that is asked for. -/
theorem reasoning (h : Settled asks phase) :
    Settled (asks ++ [.reasoning]) (kept phase (asked phase .reasoning)) := by
  have hunbroken : ∀ item, kept phase (asked phase .reasoning) item ≠ .broken :=
    fun item ↦ Phase.foldl_keep_ne_broken (h.unbroken item)
  rw [kept_asked_reasoning] at hunbroken ⊢
  constructor <;> simp [hunbroken, keep_opens_eq, h.reasoning_closed, h.message_fresh,
    h.message_closed, h.call_fresh, h.call_closed]

/-- Text that is asked for closes reasoning. -/
theorem text (h : Settled asks phase) (i : Nat) :
    Settled (asks ++ [.text i]) (kept phase (asked phase (.text i))) := by
  have hunbroken : ∀ item, kept phase (asked phase (.text i)) item ≠ .broken :=
    fun item ↦ Phase.foldl_keep_ne_broken (h.unbroken item)
  rw [kept_asked_text] at hunbroken ⊢
  constructor
  · exact hunbroken
  · simp [h.reasoning_fresh]
  · rw [Function.update_of_ne (by simp), Function.update_self,
      Phase.keep_closes_eq_closed (h.unbroken _), ne_eq, h.reasoning_fresh, not_not]
    have hmem : ReasoningDone asks → .reasoning ∈ asks := fun hdone ↦
      not_not.mp (mt h.reasoning_fresh.mpr (not_fresh_of_closed (h.reasoning_closed.mpr hdone)))
    simpa using hmem
  · intro j
    by_cases hj : j = i
    · simp [hj, keep_opens_eq]
    · simp [hj, h.message_fresh]
  · intro j
    by_cases hj : j = i
    · simp [hj, keep_opens_eq, h.message_closed]
    · simp [hj, h.message_closed]
  · simp [h.call_fresh]
  · simp [h.call_closed]

/-- A tool call that is asked for closes the first message where it is new. -/
theorem call (h : Settled asks phase) (i : Nat) (arguments : Bool) :
    Settled (asks ++ [.call i arguments]) (kept phase (asked phase (.call i arguments))) := by
  have hunbroken : ∀ item, kept phase (asked phase (.call i arguments)) item ≠ .broken :=
    fun item ↦ Phase.foldl_keep_ne_broken (h.unbroken item)
  rw [kept_asked_call] at hunbroken ⊢
  split
  · next hfresh =>
    rw [if_pos hfresh] at hunbroken
    have hcalled := (h.call_fresh i).mp hfresh
    have hmem : MessageDone asks 0 → .text 0 ∈ asks := fun hdone ↦
      not_not.mp (mt (h.message_fresh 0).mpr (not_fresh_of_closed ((h.message_closed 0).mpr hdone)))
    have hopen : ¬ CallDone asks i := by
      rw [← h.call_closed, hfresh]
      exact nofun
    constructor
    · exact hunbroken
    · simp [h.reasoning_fresh]
    · simp [h.reasoning_closed]
    · intro j
      by_cases hj : j = 0
      · simp [hj, h.message_fresh]
      · simp [hj, h.message_fresh]
    · intro j
      by_cases hj : j = 0
      · subst hj
        rw [Function.update_of_ne (by simp), Function.update_self,
          Phase.keep_closes_eq_closed (h.unbroken _), ne_eq, h.message_fresh, not_not]
        simpa [hcalled] using hmem
      · simp [hj, h.message_closed]
    · intro j
      by_cases hj : j = i
      · simp [hj]
      · simp [hj, h.call_fresh, Ne.symm hj]
    · intro j
      by_cases hj : j = i
      · simp [hj, hopen]
      · simp [hj, h.call_closed]
  · next hfresh =>
    have hcalled : Called asks i := not_not.mp (mt (h.call_fresh i).mpr hfresh)
    constructor
    case call_fresh =>
      intro j
      rw [h.call_fresh, called_concat, not_or, iff_self_and]
      rintro hj ⟨arguments', heq⟩
      cases heq
      exact hj hcalled
    all_goals simp [h.unbroken, h.reasoning_fresh, h.reasoning_closed, h.message_fresh,
      h.message_closed, h.call_closed, hcalled]

/-- The first finish closes what is open. -/
theorem finish (h : Settled asks phase) (hfinish : .finish ∉ asks)
    (hunbroken : ∀ item, phase' item ≠ .broken) (hlive : ∀ item, phase' item ≠ .live)
    (hfresh : ∀ item, phase' item = .fresh ↔ phase item = .fresh) :
    Settled (asks ++ [.finish]) phase' := by
  have hclosed : ∀ item, phase' item = .closed ↔ phase item ≠ .fresh := by
    intro item
    rw [ne_eq, ← hfresh]
    have hl := hlive item
    have hb := hunbroken item
    cases hphase : phase' item <;> simp_all
  have hopened : ∀ {item}, phase item = .closed → phase item ≠ .fresh := not_fresh_of_closed
  have hreasoning : ReasoningDone asks → .reasoning ∈ asks := fun hdone ↦
    not_not.mp (mt h.reasoning_fresh.mpr (hopened (h.reasoning_closed.mpr hdone)))
  have hmessage : ∀ i, MessageDone asks i → .text i ∈ asks := fun i hdone ↦
    not_not.mp (mt (h.message_fresh i).mpr (hopened ((h.message_closed i).mpr hdone)))
  have hcall : ∀ i, CallDone asks i → Called asks i := fun i hdone ↦
    not_not.mp (mt (h.call_fresh i).mpr (hopened ((h.call_closed i).mpr hdone)))
  constructor
  · exact hunbroken
  · simp [hfresh, h.reasoning_fresh]
  · rw [hclosed, ne_eq, h.reasoning_fresh, not_not]
    simpa [hfinish] using hreasoning
  · simp [hfresh, h.message_fresh]
  · intro i
    rw [hclosed, ne_eq, h.message_fresh, not_not]
    simpa [hfinish] using hmessage i
  · simp [hfresh, h.call_fresh]
  · intro i
    rw [hclosed, ne_eq, h.call_fresh, not_not]
    simpa [hfinish] using hcall i

/-- A later finish closes nothing. -/
theorem finish_again (h : Settled asks phase) (hfinish : .finish ∈ asks) :
    Settled (asks ++ [.finish]) phase := by
  constructor <;> simp [h.unbroken, h.reasoning_fresh, h.reasoning_closed, h.message_fresh,
    h.message_closed, h.call_fresh, h.call_closed, hfinish]

end Settled

/-! ## The texts of the items -/

/-- What is said of an item is right when it is said, adds up to its text, and states it once the
item is closed. -/
structure Spoken (read : String → Option Json) (s : StreamState) (item : Item) (log : List Said) :
    Prop where
  right : RightThen (customToolInput read) log
  told : told log = s.buffer item
  closed : log.any Said.isWhole = true ↔ s.flags.phase item = .closed

/-- What the events say of the items, and whether a part of one came late. -/
structure Voiced (read : String → Option Json) (responseId : String) (events : List ResponseEvent)
    (s : StreamState) (late : Prop) : Prop where
  words : ∃ words, saids events = Emitter.underIds responseId words ∧
    (∀ item, Spoken read s item (sayings item words)) ∧
    ((∃ item, Late (sayings item words)) ↔ late)

namespace Voiced

variable {read : String → Option Json} {responseId : String} {earlier events : List ResponseEvent}
  {e e' : Emitter} {s s' : StreamState} {late : Prop}

/-- Only the texts and the phases of the items matter. -/
theorem congr (h : Voiced read responseId (earlier ++ e.events) e.state late)
    (hsaid : saids e'.events = saids e.events)
    (hbuffer : ∀ item, e'.state.buffer item = e.state.buffer item)
    (hphase : ∀ item, e'.state.flags.phase item = .closed ↔ e.state.flags.phase item = .closed) :
    Voiced read responseId (earlier ++ e'.events) e'.state late := by
  obtain ⟨words, hwords, hspoken, hlate⟩ := h.words
  rw [saids_append] at hwords
  refine ⟨words, by rw [saids_append, hsaid, hwords], ?_, hlate⟩
  intro item
  have hitem := hspoken item
  exact ⟨hitem.right, hitem.told.trans (hbuffer item).symm, hitem.closed.trans (hphase item).symm⟩

private theorem extend (h : Voiced read responseId (earlier ++ e.events) e.state late) {item : Item}
    {more : List Said} {here : Prop}
    (hsaid : saids e'.events = saids e.events ++ Emitter.underIds responseId (more.map (item, ·)))
    (hitem : ∀ log, Spoken read e.state item log → Spoken read e'.state item (log ++ more) ∧
      (Late (log ++ more) ↔ Late log ∨ here))
    (hothers : ∀ other, other ≠ item → e'.state.buffer other = e.state.buffer other ∧
      (e'.state.flags.phase other = .closed ↔ e.state.flags.phase other = .closed)) :
    Voiced read responseId (earlier ++ e'.events) e'.state (late ∨ here) := by
  obtain ⟨words, hwords, hspoken, hlate⟩ := h.words
  rw [saids_append] at hwords
  obtain ⟨-, hlog⟩ := hitem _ (hspoken item)
  refine ⟨words ++ more.map (item, ·), ?_, ?_, ?_⟩
  · rw [saids_append, hsaid, ← List.append_assoc, hwords, Emitter.underIds_append]
  · intro other
    rw [sayings_append_pairs]
    by_cases hother : other = item
    · subst hother
      rw [if_pos rfl]
      exact (hitem _ (hspoken other)).1
    · obtain ⟨hbuffer, hphase⟩ := hothers other hother
      rw [if_neg hother]
      exact ⟨(hspoken other).right, (hspoken other).told.trans hbuffer.symm,
        (hspoken other).closed.trans hphase.symm⟩
  · rw [← hlate]
    constructor
    · rintro ⟨other, hother⟩
      rw [sayings_append_pairs] at hother
      split at hother
      · next heq =>
        subst heq
        exact (hlog.mp hother).imp_left fun hold ↦ ⟨other, hold⟩
      · exact .inl ⟨other, hother⟩
    · rintro (⟨other, hother⟩ | hhere)
      · refine ⟨other, ?_⟩
        rw [sayings_append_pairs]
        split
        · next heq =>
          subst heq
          exact hlog.mpr (.inl hother)
        · exact hother
      · refine ⟨item, ?_⟩
        rw [sayings_append_pairs, if_pos rfl]
        exact hlog.mpr (.inr hhere)

/-- One more part of an item, which is late where the item is closed. -/
theorem part (h : Voiced read responseId (earlier ++ e.events) e.state late) {item : Item}
    {text : String} (htext : text ≠ "")
    (hsaid : saids e'.events =
      saids e.events ++ Emitter.underIds responseId [(item, .part text)])
    (hbuffer : ∀ other, e'.state.buffer other =
      if other = item then e.state.buffer other ++ text else e.state.buffer other)
    (hphase : ∀ other, e'.state.flags.phase other = .closed ↔
      e.state.flags.phase other = .closed) :
    Voiced read responseId (earlier ++ e'.events) e'.state
      (late ∨ e.state.flags.phase item = .closed) := by
  have hmore : saids e'.events =
      saids e.events ++ Emitter.underIds responseId ([Said.part text].map (item, ·)) := hsaid
  apply h.extend hmore
  · intro log hspoke
    refine ⟨⟨rightThen_concat.mpr ⟨hspoke.right, htext⟩, ?_, ?_⟩, ?_⟩
    · rw [told_append, hspoke.told, hbuffer, if_pos rfl, told_cons, told_nil, String.append_empty]
      rfl
    · rw [List.any_append, hphase, ← hspoke.closed]
      simp [Said.isWhole]
    · rw [late_concat, hspoke.closed]
      simp
  · intro other hother
    exact ⟨by rw [hbuffer, if_neg hother], hphase other⟩

/-- What closes an item states its text. -/
theorem close (h : Voiced read responseId (earlier ++ e.events) e.state late) {item : Item}
    {ends : List Said} (hends : Closes (customToolInput read) (e.state.buffer item) ends)
    (hsaid : saids e'.events = saids e.events ++ Emitter.underIds responseId (ends.map (item, ·)))
    (hbuffer : ∀ other, e'.state.buffer other = e.state.buffer other)
    (hphase : ∀ other, e'.state.flags.phase other = .closed ↔
      other = item ∨ e.state.flags.phase other = .closed) :
    Voiced read responseId (earlier ++ e'.events) e'.state late := by
  have hextended : Voiced read responseId (earlier ++ e'.events) e'.state (late ∨ False) := by
    apply h.extend hsaid
    · intro log hspoke
      obtain ⟨hright, htold, hwhole, hlate⟩ := hspoke.right.closes (hspoke.told ▸ hends)
      refine ⟨⟨hright, htold.trans (hspoke.told.trans (hbuffer item).symm), ?_⟩,
        by simpa using hlate⟩
      rw [hphase]
      simpa using hwhole
    · intro other hother
      exact ⟨hbuffer other, (hphase other).trans (or_iff_right hother)⟩
  simpa using hextended

/-- Closing an item that may be open. -/
theorem closing (h : Voiced read responseId (earlier ++ e.events) e.state late) {item : Item}
    (hsaid : saids e'.events =
      saids e.events ++ Emitter.underIds responseId (Emitter.closingWords e.state item))
    (hbuffer : ∀ other, e'.state.buffer other = e.state.buffer other)
    (hphase : ∀ other, e'.state.flags.phase other = .closed ↔
      kept e.state.flags.phase (Base.closing e.state.flags.phase item) other = .closed) :
    Voiced read responseId (earlier ++ e'.events) e'.state late := by
  rw [kept_closing] at hphase
  rw [Emitter.closingWords] at hsaid
  by_cases hlive : e.state.flags.phase item = .live
  · rw [if_pos hlive] at hsaid
    set text := e.state.buffer item
    have hends : Closes (customToolInput read) text [.whole text, .whole text, .whole text] :=
      ⟨[.whole text, .whole text], rfl, by simp [text]⟩
    apply h.close hends hsaid hbuffer
    intro other
    rw [hphase]
    by_cases hother : other = item
    · subst hother
      simp [hlive, Phase.keep]
    · simp [hother]
  · rw [if_neg hlive, Emitter.underIds_nil, List.append_nil] at hsaid
    refine h.congr hsaid hbuffer ?_
    intro other
    rw [hphase]
    by_cases hother : other = item
    · subst hother
      rw [Function.update_self]
      revert hlive
      cases e.state.flags.phase other <;> simp [Phase.keep]
    · rw [Function.update_of_ne hother]

end Voiced

section Buffers

variable {responseId : String} {e : Emitter}

private theorem buffer_closeReasoning (index : Nat) (other : Item) :
    (Emitter.closeReasoning responseId index e).state.buffer other = e.state.buffer other := by
  rw [Emitter.closeReasoning]
  split <;> rfl

private theorem buffer_closeMessage (index : Nat) (other : Item) :
    (Emitter.closeMessage responseId index e).state.buffer other = e.state.buffer other := by
  rw [Emitter.closeMessage]
  split <;> rfl

private theorem buffer_closeToolCall (read : String → Option Json) (index : Nat) (other : Item) :
    (Emitter.closeToolCall read responseId index e).state.buffer other = e.state.buffer other := by
  rw [Emitter.closeToolCall]
  split <;> rfl

private theorem buffer_addCall (call : Json) (other : Item) :
    (Emitter.addCall responseId call e).state.buffer other = e.state.buffer other := by
  rw [Emitter.addCall]
  split
  · exact buffer_closeMessage 0 other
  · rw [Emitter.nameCall]
    split <;> rfl

private theorem buffer_emitReasoning (index : Nat) (text : String) (other : Item) :
    (Emitter.emitReasoning responseId index text e).state.buffer other =
      if other = .reasoning then e.state.buffer other ++ text else e.state.buffer other := by
  have hstart : ∀ item, (Emitter.startReasoning responseId index e).state.buffer item =
      e.state.buffer item := by
    intro item
    rw [Emitter.startReasoning]
    split <;> rfl
  cases other with
  | reasoning => exact congrArg (· ++ text) (hstart .reasoning)
  | message i => exact hstart (.message i)
  | call i => exact hstart (.call i)

private theorem buffer_emitText (index : Nat) (text : String) (other : Item) :
    (Emitter.emitText responseId index text e).state.buffer other =
      if other = .message index then e.state.buffer other ++ text else e.state.buffer other := by
  have hadd : ∀ item, (Emitter.addMessage responseId index e).state.buffer item =
      e.state.buffer item := by
    intro item
    rw [Emitter.addMessage]
    split <;> rfl
  cases other with
  | reasoning => exact hadd .reasoning
  | message i =>
    have hold : _ = _ := hadd (.message i)
    simp only [StreamState.buffer] at hold
    simp only [Emitter.emitText, Emitter.emit, StreamState.buffer, getD_pushText, hold,
      Item.message.injEq]
  | call i => exact hadd (.call i)

private theorem buffer_emitToolCall (call : Json) {text : String}
    (htext : Emitter.callArguments call = some text) (other : Item) :
    (Emitter.emitToolCall responseId e call).state.buffer other =
      if other = .call (indexOf call) then
        (Emitter.addCall responseId call e).state.buffer other ++ text
      else (Emitter.addCall responseId call e).state.buffer other := by
  rw [Emitter.emitToolCall, htext]
  cases other with
  | reasoning => rfl
  | message i => rfl
  | call i =>
    simp only [Emitter.emit, StreamState.buffer, getD_pushText, Item.call.injEq]

end Buffers

/-! ## The stream -/

/-- What a supply brings of an item. -/
def Supply.bringsTo (item : Item) : Supply → String
  | .reasoning _ words => if item = .reasoning then words else ""
  | .text choice words => if item = .message choice then words else ""
  | .call index arguments => if item = .call index then arguments.getD "" else ""
  | .finish => ""

/-- All that is supplied of an item. -/
def suppliedOf (item : Item) (supplies : List Supply) : String :=
  String.join (supplies.map (Supply.bringsTo item))

theorem suppliedOf_concat (item : Item) (supplies : List Supply) (supply : Supply) :
    suppliedOf item (supplies ++ [supply]) = suppliedOf item supplies ++ supply.bringsTo item := by
  rw [suppliedOf, List.map_append, String.join_append, List.map_singleton, String.join_cons,
    String.join_nil, String.append_empty]
  rfl

/-- How far the texts of a stream got by what was supplied. -/
structure Written (read : String → Option Json) (responseId : String) (supplies : List Supply)
    (events : List ResponseEvent) (s : StreamState) : Prop where
  named : s.responseId = some responseId
  started : s.responsesStarted = true
  sane : s.flags.Sane
  completed : s.responsesCompleted = true ↔ .finish ∈ supplies.map Supply.ask
  settled : Settled (supplies.map Supply.ask) s.flags.phase
  voiced : Voiced read responseId events s (Somewhere AsksLate (supplies.map Supply.ask))
  supplied : ∀ item, s.buffer item = suppliedOf item supplies

namespace Written

variable {read : String → Option Json} {responseId : String} {supplies : List Supply}
  {earlier events : List ResponseEvent} {e : Emitter} {s : StreamState}

/-- Reasoning that is supplied. -/
theorem reasoning (h : Written read responseId supplies (earlier ++ e.events) e.state)
    (choice : Nat) {text : String} (htext : text ≠ "") :
    let e' := Emitter.emitReasoning responseId choice text e
    Written read responseId (supplies ++ [.reasoning choice text]) (earlier ++ e'.events)
      e'.state := by
  intro e'
  have hdoes : Does responseId e e' (asked e.state.flags.phase .reasoning) :=
    Emitter.emitReasoning_does responseId choice text h.sane
  have hmap := Supply.map_ask_concat supplies (.reasoning choice text)
  refine ⟨hdoes.named.trans h.named, hdoes.started.trans h.started, hdoes.sane, ?_, ?_, ?_, ?_⟩
  · rw [hdoes.completed, h.completed, hmap]
    simp [Supply.ask]
  · rw [hdoes.phase, hmap]
    exact h.settled.reasoning
  · rw [hmap, Supply.ask, somewhere_concat, AsksLate, ← h.settled.reasoning_closed]
    refine h.voiced.part htext (Emitter.emitReasoning_says ..) (buffer_emitReasoning choice text) ?_
    intro other
    rw [hdoes.phase, kept_asked_reasoning]
    by_cases hother : other = .reasoning
    · subst hother
      rw [Function.update_self]
      exact Settled.keep_opens_eq.1
    · rw [Function.update_of_ne hother]
  · intro item
    rw [suppliedOf_concat, ← h.supplied]
    refine (buffer_emitReasoning choice text item).trans ?_
    rw [Supply.bringsTo]
    split
    · rfl
    · rw [String.append_empty]

/-- Text that is supplied closes reasoning. -/
theorem text (h : Written read responseId supplies (earlier ++ e.events) e.state)
    (choice : Nat) {text : String} (htext : text ≠ "") :
    let e' := Emitter.emitText responseId choice text (Emitter.closeReasoning responseId choice e)
    Written read responseId (supplies ++ [.text choice text]) (earlier ++ e'.events) e'.state := by
  intro e'
  set e₁ := Emitter.closeReasoning responseId choice e
  have hclose : Does responseId e e₁ (closing e.state.flags.phase .reasoning) :=
    Emitter.closeReasoning_does responseId choice h.sane
  have hemit := Emitter.emitText_does responseId choice text hclose.sane
  have hmessage : e₁.state.flags.phase (.message choice) =
      e.state.flags.phase (.message choice) := by
    rw [hclose.phase, kept_closing, Function.update_of_ne (by simp)]
  have hvoiced : Voiced read responseId (earlier ++ e₁.events) e₁.state
      (Somewhere AsksLate (supplies.map Supply.ask)) :=
    h.voiced.closing (Emitter.closeReasoning_says ..) (buffer_closeReasoning choice)
      fun other ↦ by rw [hclose.phase]
  have hpart := hvoiced.part htext (Emitter.emitText_says ..) (buffer_emitText choice text) (by
    intro other
    rw [hemit.phase, kept_append, kept_uses, kept_opening]
    by_cases hother : other = .message choice
    · subst hother
      rw [Function.update_self]
      exact Settled.keep_opens_eq.1
    · rw [Function.update_of_ne hother])
  rw [opening_congr hmessage] at hemit
  have hdoes : Does responseId e e' (asked e.state.flags.phase (.text choice)) :=
    hclose.trans hemit
  have hmap := Supply.map_ask_concat supplies (.text choice text)
  refine ⟨hdoes.named.trans h.named, hdoes.started.trans h.started, hdoes.sane, ?_, ?_, ?_, ?_⟩
  · rw [hdoes.completed, h.completed, hmap]
    simp [Supply.ask]
  · rw [hdoes.phase, hmap]
    exact h.settled.text choice
  · rw [hmap, Supply.ask, somewhere_concat, AsksLate, ← h.settled.message_closed, ← hmessage]
    exact hpart
  · intro item
    rw [suppliedOf_concat, ← h.supplied]
    refine (buffer_emitText choice text item).trans ?_
    rw [buffer_closeReasoning, Supply.bringsTo]
    split
    · rfl
    · rw [String.append_empty]

/-- A tool call that is supplied closes the first message where it is new. -/
theorem call (h : Written read responseId supplies (earlier ++ e.events) e.state) (call : Json) :
    let e' := Emitter.emitToolCall responseId e call
    Written read responseId (supplies ++ [.call (indexOf call) (Emitter.callArguments call)])
      (earlier ++ e'.events) e'.state := by
  intro e'
  set e₁ := Emitter.addCall responseId call e
  have hadd : Does responseId e e₁ (openingCall e.state.flags.phase (indexOf call)) :=
    Emitter.addCall_does responseId call h.sane
  have hdoes : Does responseId e e' (asked e.state.flags.phase
      (.call (indexOf call) (Emitter.callArguments call).isSome)) :=
    Emitter.emitToolCall_does responseId call h.sane
  have hadded := Emitter.addCall_says responseId call h.sane
  have hphase : ∀ other, e₁.state.flags.phase other = .closed ↔
      (if e.state.flags.phase (.call (indexOf call)) = .fresh then
        kept e.state.flags.phase (closing e.state.flags.phase (.message 0))
      else e.state.flags.phase) other = .closed := by
    intro other
    rw [hadd.phase, openingCall]
    split
    · next hfresh =>
      rw [kept_append, kept_single, kept_closing]
      by_cases hother : other = .call (indexOf call)
      · subst hother
        simp [hfresh, Phase.keep]
      · rw [Function.update_of_ne hother]
    · rfl
  have hvoiced : Voiced read responseId (earlier ++ e₁.events) e₁.state
      (Somewhere AsksLate (supplies.map Supply.ask)) := by
    split at hadded
    · next hfresh =>
      simp only [if_pos hfresh] at hphase
      exact h.voiced.closing hadded (buffer_addCall call) hphase
    · next hfresh =>
      simp only [if_neg hfresh] at hphase
      rw [Emitter.underIds_nil, List.append_nil] at hadded
      exact h.voiced.congr hadded (buffer_addCall call) hphase
  have hcall : e₁.state.flags.phase (.call (indexOf call)) = .closed ↔
      e.state.flags.phase (.call (indexOf call)) = .closed := by
    rw [hphase]
    split
    · rw [kept_closing, Function.update_of_ne (by simp)]
    · rfl
  have hmap := Supply.map_ask_concat supplies
    (.call (indexOf call) (Emitter.callArguments call))
  refine ⟨hdoes.named.trans h.named, hdoes.started.trans h.started, hdoes.sane, ?_, ?_, ?_, ?_⟩
  · rw [hdoes.completed, h.completed, hmap]
    simp [Supply.ask]
  · rw [hdoes.phase, hmap]
    exact h.settled.call _ _
  · rw [hmap, Supply.ask, somewhere_concat, AsksLate, ← h.settled.call_closed, ← hcall]
    cases htext : Emitter.callArguments call with
    | none =>
      have hsame : e' = e₁ := by
        simp only [e', Emitter.emitToolCall, htext]
        rfl
      rw [hsame, or_iff_left_of_imp (by simp)]
      exact hvoiced
    | some text =>
      have hne : text ≠ "" := by
        have hkept := (Option.filter_eq_some_iff.mp htext).2
        rintro rfl
        cases hkept
      rw [Option.isSome_some, and_iff_right rfl]
      refine hvoiced.part hne (Emitter.emitToolCall_says responseId call htext)
        (buffer_emitToolCall call htext) ?_
      have hflags : e'.state.flags = e₁.state.flags := by
        simp only [e', Emitter.emitToolCall, htext]
        rfl
      intro other
      rw [hflags]
  · intro item
    rw [suppliedOf_concat, ← h.supplied, Supply.bringsTo]
    cases htext : Emitter.callArguments call with
    | none =>
      have hsame : e' = e₁ := by
        simp only [e', Emitter.emitToolCall, htext]
        rfl
      rw [hsame, Option.getD_none, ite_self, String.append_empty]
      exact buffer_addCall call item
    | some text =>
      refine (buffer_emitToolCall call htext item).trans ?_
      rw [buffer_addCall, Option.getD_some]
      split
      · rfl
      · rw [String.append_empty]

private theorem closeItems_voiced {late : Prop} (hs : e.state.flags.Sane)
    (h : Voiced read responseId (earlier ++ e.events) e.state late) :
    let e' := Emitter.closeItems read responseId e
    Voiced read responseId (earlier ++ e'.events) e'.state late ∧
      ∀ item, e'.state.buffer item = e.state.buffer item := by
  have hmessages : ∀ (l : List Nat) (e : Emitter), e.state.flags.Sane →
      Voiced read responseId (earlier ++ e.events) e.state late →
      let e' := l.foldl (fun e i ↦ Emitter.closeMessage responseId i e) e
      e'.state.flags.Sane ∧ Voiced read responseId (earlier ++ e'.events) e'.state late ∧
        ∀ item, e'.state.buffer item = e.state.buffer item := by
    intro l
    induction l with
    | nil => exact fun e hs h ↦ ⟨hs, h, fun _ ↦ rfl⟩
    | cons i l ih =>
      intro e hs h
      have hdoes := Emitter.closeMessage_does responseId i hs
      obtain ⟨hsane, hvoiced, hbuffer⟩ := ih _ hdoes.sane
        (h.closing (Emitter.closeMessage_says ..) (buffer_closeMessage i)
          fun other ↦ by rw [hdoes.phase])
      exact ⟨hsane, hvoiced, fun item ↦ (hbuffer item).trans (buffer_closeMessage i item)⟩
  have hcalls : ∀ (l : List Nat) (e : Emitter),
      Voiced read responseId (earlier ++ e.events) e.state late →
      let e' := l.foldl (fun e i ↦ Emitter.closeToolCall read responseId i e) e
      Voiced read responseId (earlier ++ e'.events) e'.state late ∧
        ∀ item, e'.state.buffer item = e.state.buffer item := by
    intro l
    induction l with
    | nil => exact fun e h ↦ ⟨h, fun _ ↦ rfl⟩
    | cons i l ih =>
      intro e h
      have hclosed : Voiced read responseId
          (earlier ++ (Emitter.closeToolCall read responseId i e).events)
          (Emitter.closeToolCall read responseId i e).state late := by
        by_cases hdone : i ∈ e.state.functionItemsDone
        · rw [Emitter.closeToolCall, if_pos hdone]
          exact h
        · obtain ⟨ends, hends, hsaid⟩ := Emitter.closeToolCall_says read responseId hdone
          refine h.close hends hsaid (buffer_closeToolCall read i) ?_
          intro other
          have hphase : (Emitter.closeToolCall read responseId i e).state.flags.phase =
              Function.update e.state.flags.phase (.call i) .closed := by
            rw [Emitter.closeToolCall, if_neg hdone]
            exact Flags.phase_doneCall (f := e.state.flags) i
          rw [hphase]
          by_cases hother : other = .call i
          · subst hother
            simp
          · simp [hother]
      obtain ⟨hvoiced, hbuffer⟩ := ih _ hclosed
      exact ⟨hvoiced, fun item ↦ (hbuffer item).trans (buffer_closeToolCall read i item)⟩
  obtain ⟨hsane, hvoiced, hbuffer⟩ := hmessages e.state.messageItemsAdded e hs h
  have hdoes := Emitter.closeReasoning_does responseId 0 hsane
  have hreasoning := hvoiced.closing (Emitter.closeReasoning_says ..) (buffer_closeReasoning 0)
    fun other ↦ by rw [hdoes.phase]
  obtain ⟨hlast, hkept⟩ := hcalls (Emitter.closeReasoning responseId 0 (e.state.messageItemsAdded.foldl
    (fun e i ↦ Emitter.closeMessage responseId i e) e)).state.functionItemsAdded _ hreasoning
  exact ⟨hlast, fun item ↦ (hkept item).trans ((buffer_closeReasoning 0 item).trans (hbuffer item))⟩

/-- The first flush closes what is open, a later one nothing. -/
theorem flush {events : List ResponseEvent} (h : Written read responseId supplies events s) :
    Written read responseId (supplies ++ [Supply.finish]) (events ++ (Responses.flush read s).1)
      (Responses.flush read s).2 := by
  have hmap := Supply.map_ask_concat supplies Supply.finish
  have hlate : Somewhere AsksLate ((supplies ++ [Supply.finish]).map Supply.ask) ↔
      Somewhere AsksLate (supplies.map Supply.ask) := by
    rw [hmap, somewhere_concat, or_iff_left]
    exact fun h ↦ h
  have hsupplied : ∀ item, suppliedOf item (supplies ++ [Supply.finish]) =
      suppliedOf item supplies := by
    intro item
    rw [suppliedOf_concat]
    exact String.append_empty
  by_cases hcompleted : s.responsesCompleted = true
  · rw [flush_of_completed hcompleted, List.append_nil]
    have hfinish := h.completed.mp hcompleted
    refine ⟨h.named, h.started, h.sane, ?_, ?_, ?_, ?_⟩
    · rw [hmap]
      simp [hcompleted, Supply.ask]
    · rw [hmap]
      exact h.settled.finish_again hfinish
    · rw [hlate]
      exact h.voiced
    · intro item
      rw [hsupplied, h.supplied]
  · have hopen := Bool.eq_false_iff.mpr hcompleted
    obtain ⟨created, hflush⟩ := flush_of_uncompleted read hopen h.started h.named
    obtain ⟨hshuts, hdone⟩ := closeItems_shuts (e := ⟨s, []⟩) read responseId h.sane
    obtain ⟨acts, hdoes, -⟩ := hshuts.does
    obtain ⟨hvoiced, hbuffer⟩ := @closeItems_voiced read responseId events ⟨s, []⟩ _ h.sane
      (by simpa using h.voiced)
    have hfinish : Ask.finish ∉ supplies.map Supply.ask := mt h.completed.mpr hcompleted
    rw [hflush]
    refine ⟨hdoes.named.trans h.named, hdoes.started.trans h.started, hshuts.sane, ?_, ?_, ?_, ?_⟩
    · rw [hmap]
      simp [Emitter.complete, Emitter.emit, Supply.ask]
    · rw [hmap]
      exact h.settled.finish hfinish Flags.phase_ne_broken hdone hshuts.fresh
    · rw [hlate]
      refine hvoiced.congr ?_ (fun _ ↦ rfl) (fun _ ↦ .rfl)
      rw [Emitter.complete, saids_emit, saidOf_opening (by decide)]
      simp
    · intro item
      rw [hsupplied, ← h.supplied]
      exact hbuffer item

end Written

/-- The texts of a stream are carried on by every chunk. -/
theorem carries_written (read : String → Option Json) (responseId : String) :
    Carries read responseId (Written read responseId) where
  named h := ⟨h.named, h.started⟩
  dated := by
    intro supplies events s h
    rw [Responses.fixCreated]
    cases s.responsesCreated with
    | some created => exact h
    | none =>
      refine ⟨h.named, h.started, h.sane, h.completed, h.settled, ?_, h.supplied⟩
      have hvoiced := h.voiced
      rw [← List.append_nil events] at hvoiced ⊢
      exact @Voiced.congr _ _ _ ⟨s, []⟩ ⟨_, []⟩ _ hvoiced rfl (fun _ ↦ rfl) (fun _ ↦ .rfl)
  reasoning choice _ htext h := h.reasoning choice htext
  text choice _ htext h := h.text choice htext
  call call h := h.call call
  flush h := h.flush

private theorem written_begin (read : String → Option Json) {clock : Nat → Nat}
    {customToolNames : List String} (responseId : String) (readings created : Nat)
    (responsesCreated : Option Nat) :
    let e := Emitter.begin responseId created
      ⟨Responses.ready clock customToolNames responseId readings responsesCreated, []⟩
    Written read responseId [] e.events e.state := by
  refine ⟨rfl, rfl, ⟨nofun, nofun, nofun⟩, ⟨nofun, nofun⟩, Settled.nil, ⟨[], ?_, ?_, ?_⟩, ?_⟩
  · rw [Emitter.begin, if_neg (by exact Bool.false_ne_true), saids_emit, saids_emit,
      saidOf_opening (by decide), saidOf_opening (by decide)]
    rfl
  · intro item
    refine ⟨rightThen_nil, ?_, ?_⟩
    · cases item <;> rfl
    · have hflags : (Responses.ready clock customToolNames responseId readings
          responsesCreated).flags = ⟨false, false, [], [], [], []⟩ := rfl
      change false = true ↔ (Responses.ready clock customToolNames responseId readings
        responsesCreated).flags.phase item = .closed
      rw [hflags]
      cases item <;> simp [Flags.phase, Flags.phaseFrom]
  · simp [not_late_nil]
  · intro item
    cases item <;> rfl

/-- What closes an item states what all its deltas add up to, and they add up to all that the
chunks brought of it. -/
structure TextsAgree (read : String → Option Json) (chunks : List Json)
    (events : List ResponseEvent) : Prop where
  stated : ∀ id, RightNow (customToolInput read) (sayings id (saids events))
  complete : ∃ responseId, ∀ item : Item, told (sayings (item.id responseId) (saids events)) =
    suppliedOf item (chunks.flatMap Supply.ofChunk)

/-- The texts of a stream agree exactly where no chunk brings more of an item that is closed: of
reasoning after text that followed it, of the first message after a new tool call that followed it,
of anything after the finish that followed it. -/
theorem stream_texts_iff (read : String → Option Json) (clock : Nat → Nat)
    (customToolNames : List String) (chunks : List Json) :
    TextsAgree read chunks (Responses.stream read chunks { clock, customToolNames }) ↔
      ¬ Somewhere AsksLate (chunks.flatMap Ask.ofChunk) := by
  have hask : ∀ chunks : List Json, (chunks.flatMap Supply.ofChunk).map Supply.ask =
      chunks.flatMap Ask.ofChunk := by
    intro chunks
    rw [List.map_flatMap]
    exact List.flatMap_congr fun chunk _ ↦ Supply.map_ask_ofChunk chunk
  by_cases hchoice : ∃ chunk ∈ chunks, (firstChoice chunk).isSome
  · obtain ⟨responseId, s, hwritten⟩ := Carries.run (carries_written read)
      (fun responseId readings created responsesCreated ↦
        @written_begin read clock customToolNames responseId readings created responsesCreated)
      hchoice
    obtain ⟨words, hwords, hspoken, hlate⟩ := hwritten.voiced.words
    rw [Supply.map_ask_concat, hask, somewhere_concat, or_iff_left (by exact fun h ↦ h)] at hlate
    have hsaid : ∀ item : Item, sayings (item.id responseId)
        (saids (Responses.stream read chunks { clock, customToolNames })) = sayings item words := by
      intro item
      rw [hwords]
      exact sayings_map (Item.id_injective responseId) item words
    rw [← hlate, not_exists]
    constructor
    · rintro ⟨hstated, -⟩ item
      rw [← rightNow_iff (hspoken item).right, ← hsaid]
      exact hstated _
    · intro hnot
      refine ⟨?_, responseId, ?_⟩
      · intro id
        by_cases hid : ∃ item : Item, item.id responseId = id
        · obtain ⟨item, rfl⟩ := hid
          rw [hsaid, rightNow_iff (hspoken item).right]
          exact hnot item
        · rw [hwords, Emitter.underIds,
            sayings_map_of_forall_ne (not_exists.mp hid)]
          exact rightNow_nil
      · intro item
        rw [hsaid, (hspoken item).told, hwritten.supplied, suppliedOf_concat]
        exact String.append_empty
  · have hsilent : ∀ chunk ∈ chunks, firstChoice chunk = none := by
      intro chunk hmem
      rw [← Option.not_isSome_iff_eq_none]
      exact fun h ↦ hchoice ⟨chunk, hmem, h⟩
    have hnone : chunks.flatMap Supply.ofChunk = [] := by
      rw [List.flatMap_eq_nil_iff]
      intro chunk hmem
      rw [Supply.ofChunk, hsilent chunk hmem]
      rfl
    rw [stream_of_silent hsilent, ← hask, hnone]
    refine iff_of_true ⟨fun _ ↦ rightNow_nil, "", ?_⟩ not_somewhere_nil
    intro item
    rw [hnone]
    rfl

/-- Reasoning that resumes after the answer has begun was stated without its end. -/
theorem resumed_reasoning_is_not_stated :
    ¬ TextsAgree (fun _ ↦ none)
      [buildChunk ⟨"c1", 0, "m"⟩ (reasoningDelta "think" true) none,
        buildChunk ⟨"c1", 0, "m"⟩ (Json.object [("content", .str "answer")]) none,
        buildChunk ⟨"c1", 0, "m"⟩ (reasoningDelta " again" false) none]
      (Responses.stream (fun _ ↦ none)
        [buildChunk ⟨"c1", 0, "m"⟩ (reasoningDelta "think" true) none,
          buildChunk ⟨"c1", 0, "m"⟩ (Json.object [("content", .str "answer")]) none,
          buildChunk ⟨"c1", 0, "m"⟩ (reasoningDelta " again" false) none] { clock := fun _ ↦ 0 }) := by
  intro h
  have hstated := (h.stated "rs_resp_c1").1 "think" (by decide +kernel)
  exact absurd hstated (by decide +kernel)

end NullRouter.Translate
