import NullRouter.Translate.ResponsesLifecycle

/-!
# Runs of a Responses stream

What the chunks of a stream supply, with the texts they bring, and the rule by which what each
supply preserves holds of the whole stream, its flush included.
-/

namespace NullRouter.Translate

open NullRouter.Base

/-- What a chunk supplies: reasoning or text of a choice, a tool call of an index with or without
arguments, the finish. -/
inductive Supply where
  | reasoning (choice : Nat) (text : String)
  | text (choice : Nat) (text : String)
  | call (index : Nat) (arguments : Option String)
  | finish
  deriving DecidableEq

namespace Supply

/-- What the content of a choice supplies, in the order in which it is served. -/
def ofContent (choice : Json) : List Supply :=
  let delta := choice.get "delta"
  let reasoning := extractReasoningText delta
  (if reasoning.isEmpty then [] else [.reasoning (indexOf choice) reasoning]) ++
    ((deltaText delta "content").map (.text (indexOf choice))).toList ++
    (deltaToolCalls delta).map fun call ↦ .call (indexOf call) (Emitter.callArguments call)

/-- What a choice supplies: its finish comes last. -/
def ofChoice (choice : Json) : List Supply :=
  ofContent choice ++ if (choiceFinish choice).isSome then [.finish] else []

/-- What a chunk supplies: nothing without a choice. -/
def ofChunk (chunk : Json) : List Supply := (firstChoice chunk).elim [] ofChoice

/-- What is asked of the stream by it. -/
def ask : Supply → Ask
  | reasoning _ _ => .reasoning
  | text choice _ => .text choice
  | call index arguments => .call index arguments.isSome
  | finish => .finish

theorem map_ask_concat (supplies : List Supply) (supply : Supply) :
    (supplies ++ [supply]).map ask = supplies.map ask ++ [supply.ask] := List.map_append

/-- What is supplied asks what the chunk asks. -/
theorem map_ask_ofChunk (chunk : Json) : (ofChunk chunk).map ask = Ask.ofChunk chunk := by
  rw [ofChunk, Ask.ofChunk]
  cases firstChoice chunk with
  | none => rfl
  | some choice =>
    simp only [Option.elim_some, ofChoice, Ask.ofChoice, ofContent, Ask.ofContent, List.map_append,
      List.map_map]
    congr 1
    · congr 1
      congr 1
      · split <;> rfl
      · cases deltaText (choice.get "delta") "content" <;> rfl
    · split <;> rfl

end Supply

/-- A property of what was supplied, the events and the state that serving keeps. -/
structure Carries (read : String → Option Json) (responseId : String)
    (P : List Supply → List ResponseEvent → StreamState → Prop) : Prop where
  named : ∀ {supplies events s}, P supplies events s →
    s.responseId = some responseId ∧ s.responsesStarted = true
  dated : ∀ {supplies events s}, P supplies events s → P supplies events (Responses.fixCreated s).2
  reasoning : ∀ {supplies earlier e} (choice : Nat) {text : String}, text ≠ "" →
    P supplies (earlier ++ e.events) e.state →
    let e' := Emitter.emitReasoning responseId choice text e
    P (supplies ++ [.reasoning choice text]) (earlier ++ e'.events) e'.state
  text : ∀ {supplies earlier e} (choice : Nat) {text : String}, text ≠ "" →
    P supplies (earlier ++ e.events) e.state →
    let e' := Emitter.emitText responseId choice text (Emitter.closeReasoning responseId choice e)
    P (supplies ++ [.text choice text]) (earlier ++ e'.events) e'.state
  call : ∀ {supplies earlier e} (call : Json), P supplies (earlier ++ e.events) e.state →
    let e' := Emitter.emitToolCall responseId e call
    P (supplies ++ [.call (indexOf call) (Emitter.callArguments call)]) (earlier ++ e'.events)
      e'.state
  flush : ∀ {supplies events s}, P supplies events s →
    P (supplies ++ [.finish]) (events ++ (Responses.flush read s).1) (Responses.flush read s).2

namespace Carries

variable {read : String → Option Json} {responseId : String}
  {P : List Supply → List ResponseEvent → StreamState → Prop} {supplies : List Supply}
  {earlier events : List ResponseEvent} {e : Emitter} {s : StreamState}

private theorem calls (h : Carries read responseId P) (hP : P supplies (earlier ++ e.events) e.state)
    (calls : List Json) :
    let e' := calls.foldl (Emitter.emitToolCall responseId) e
    P (supplies ++ calls.map fun call ↦ .call (indexOf call) (Emitter.callArguments call))
      (earlier ++ e'.events) e'.state := by
  induction calls generalizing e supplies with
  | nil => simpa using hP
  | cons call calls ih =>
    rw [List.map_cons, List.append_cons, List.foldl_cons]
    exact ih (h.call call hP)

private theorem content (h : Carries read responseId P)
    (hP : P supplies (earlier ++ e.events) e.state) (choice : Json) :
    P (supplies ++ Supply.ofContent choice)
      (earlier ++ (Responses.content responseId choice e).events)
      (Responses.content responseId choice e).state := by
  rw [Responses.content, Supply.ofContent, ← List.append_assoc, ← List.append_assoc]
  refine h.calls ?_ _
  set reasoning := extractReasoningText (choice.get "delta")
  set e₁ := if reasoning.isEmpty then e
    else Emitter.emitReasoning responseId (indexOf choice) reasoning e
  have hreasoning : P (supplies ++ if reasoning.isEmpty then []
      else [.reasoning (indexOf choice) reasoning]) (earlier ++ e₁.events) e₁.state := by
    by_cases hempty : reasoning.isEmpty = true
    · simpa only [e₁, hempty, if_true, List.append_nil] using hP
    · simp only [e₁, hempty, Bool.false_eq_true, if_false]
      exact h.reasoning _ (fun heq ↦ hempty (String.isEmpty_iff.mpr heq)) hP
  cases htext : deltaText (choice.get "delta") "content" with
  | none => simpa using hreasoning
  | some text =>
    have hne : text ≠ "" := by
      have hkept := (Option.filter_eq_some_iff.mp htext).2
      rintro rfl
      cases hkept
    exact h.text _ hne hreasoning

private theorem choice (h : Carries read responseId P)
    (hP : P supplies (earlier ++ e.events) e.state) (choice : Json) :
    let e := Responses.content responseId choice e
    let served := if (choiceFinish choice).isSome then
      (e.events ++ (Responses.flush read e.state).1, (Responses.flush read e.state).2)
      else (e.events, e.state)
    P (supplies ++ Supply.ofChoice choice) (earlier ++ served.1) served.2 := by
  have hcontent := h.content hP choice
  dsimp only
  rw [Supply.ofChoice, ← List.append_assoc]
  split
  · rw [← List.append_assoc]
    exact h.flush hcontent
  · simpa using hcontent

/-- A chunk of a stream that has begun. -/
theorem translate (h : Carries read responseId P) (hP : P supplies events s) (chunk : Json) :
    P (supplies ++ Supply.ofChunk chunk) (events ++ (Responses.translate read (some chunk) s).1)
      (Responses.translate read (some chunk) s).2 := by
  rw [Responses.translate, Supply.ofChunk]
  cases hchoice : firstChoice chunk with
  | none => simpa using hP
  | some choice =>
    obtain ⟨hnamed, hstarted⟩ := h.named hP
    have hid : Responses.fixId chunk s = (responseId, s) := by
      have htake : Responses.takeId chunk s = s := by
        rw [Responses.takeId]
        cases chunk.strField "id" with
        | none => rfl
        | some id => exact if_pos hstarted
      simp only [Responses.fixId, htake, hnamed]
    have hdated := h.dated hP
    have hbegin : ∀ created, Emitter.begin responseId created ⟨(Responses.fixCreated s).2, []⟩ =
        ⟨(Responses.fixCreated s).2, []⟩ := by
      intro created
      rw [Emitter.begin, if_pos (h.named hdated).2]
    simp only [hid, hbegin]
    exact @Carries.choice _ _ _ supplies events ⟨(Responses.fixCreated s).2, []⟩ h
      (by simpa using hdated) choice

/-- The rest of a stream that has begun, and the flush that ends it. -/
theorem stream (h : Carries read responseId P) (hP : P supplies events s) (chunks : List Json) :
    ∃ s', P (supplies ++ chunks.flatMap Supply.ofChunk ++ [.finish])
      (events ++ Responses.stream read chunks s) s' := by
  induction chunks generalizing supplies events s with
  | nil =>
    rw [List.flatMap_nil, List.append_nil]
    exact ⟨_, h.flush hP⟩
  | cons chunk chunks ih =>
    rw [Responses.stream, List.flatMap_cons, ← List.append_assoc, ← List.append_assoc]
    exact ih (h.translate hP chunk)

end Carries

section Start

variable (clock : Nat → Nat) (customToolNames : List String)

/-- A state in which a response is about to begin. -/
def Responses.ready (responseId : String) (readings : Nat) (created : Option Nat) : StreamState :=
  { clock, customToolNames, readings
    responseId := some responseId
    responsesCreated := created }

variable {clock customToolNames} {read : String → Option Json}
  {P : String → List Supply → List ResponseEvent → StreamState → Prop}

/-- Chunks without a choice have no events. -/
theorem stream_of_silent {chunks : List Json} (h : ∀ chunk ∈ chunks, firstChoice chunk = none) :
    Responses.stream read chunks { clock, customToolNames } = [] := by
  induction chunks with
  | nil => rfl
  | cons chunk chunks ih =>
    rw [List.forall_mem_cons] at h
    rw [Responses.stream, Responses.translate, h.1]
    exact ih h.2

private theorem fix_ready (chunk : Json) : ∃ responseId readings created,
    let identified := Responses.fixId chunk { clock, customToolNames }
    identified.1 = responseId ∧ (Responses.fixCreated identified.2).2 =
      Responses.ready clock customToolNames responseId readings created := by
  rw [Responses.fixId, Responses.takeId]
  cases chunk.strField "id" with
  | none => exact ⟨_, _, _, rfl, rfl⟩
  | some id => exact ⟨_, _, _, rfl, rfl⟩

/-- What holds when a response begins and is carried on holds of every stream with a choice. -/
theorem Carries.run (h : ∀ responseId, Carries read responseId (P responseId))
    (hbegin : ∀ responseId readings created responsesCreated,
      let e := Emitter.begin responseId created
        ⟨Responses.ready clock customToolNames responseId readings responsesCreated, []⟩
      P responseId [] e.events e.state)
    {chunks : List Json} (hchoice : ∃ chunk ∈ chunks, (firstChoice chunk).isSome) :
    ∃ responseId s', P responseId (chunks.flatMap Supply.ofChunk ++ [.finish])
      (Responses.stream read chunks { clock, customToolNames }) s' := by
  induction chunks with
  | nil =>
    obtain ⟨chunk, hmem, -⟩ := hchoice
    cases hmem
  | cons chunk chunks ih =>
    rw [Responses.stream, List.flatMap_cons]
    cases hfirst : firstChoice chunk with
    | none =>
      rw [Responses.translate, hfirst, Supply.ofChunk, hfirst]
      apply ih
      obtain ⟨other, hmem, hother⟩ := hchoice
      rcases List.mem_cons.mp hmem with rfl | hmem
      · rw [hfirst] at hother
        cases hother
      · exact ⟨other, hmem, hother⟩
    | some choice =>
      obtain ⟨responseId, readings, created, hid, hready⟩ :=
        @fix_ready clock customToolNames chunk
      set now := (Responses.fixCreated (Responses.fixId chunk { clock, customToolNames }).2).1
      have hserved := @Carries.choice _ _ _ [] [] (Emitter.begin responseId now
          ⟨Responses.ready clock customToolNames responseId readings created, []⟩) (h responseId)
        (hbegin responseId readings now created) choice
      simp only [Responses.translate, hfirst, Supply.ofChunk, hid, hready]
      obtain ⟨s', hs'⟩ := (h responseId).stream hserved chunks
      exact ⟨responseId, s', hs'⟩

end Start

end NullRouter.Translate
