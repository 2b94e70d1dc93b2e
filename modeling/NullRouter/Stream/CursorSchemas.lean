import NullRouter.Stream.BinaryFrames

/-!
# Cursor's two schemas

Under which schema a frame of Cursor's is read, `crates/execute/src/stream.rs:372–411`. No frame
names its service: the reader of the chat service goes first, and the reader of the agent service
takes the frames in which it finds nothing. So a frame is read under its own schema exactly when
the reader of the other finds nothing in it, and for a frame of the chat service also where its own
finds something.
-/

namespace NullRouter.Stream

open NullRouter.Base NullRouter.Bespoke
open NullRouter.Bespoke.Cursor (Message Decoded decodeFrame decodePayload decodeToolCall)

/-- What a frame yields: what the reader of the chat service finds, or an event of the agent
service. -/
inductive Yield where
  | chat (decoded : Decoded)
  | agent (event : Cursor.Event)
  deriving DecidableEq

/-- What the decoder takes of a frame, `stream.rs:390–395`. -/
def yielded (payload : List UInt8) : List Yield :=
  if decodeFrame payload = {} then (decodePayload payload).map .agent
  else [.chat (decodeFrame payload)]

/-- What the reader of the chat service takes of a frame. -/
def chatYield (payload : List UInt8) : List Yield :=
  if decodeFrame payload = {} then [] else [.chat (decodeFrame payload)]

/-- What the reader of the agent service takes of a frame. -/
def agentYield (payload : List UInt8) : List Yield := (decodePayload payload).map .agent

/-- What the decoder does with what a frame yields. -/
def turnOf : List Yield → Cursor.Stream → Turn Cursor.Stream Json (Option String)
  | [], s => ⟨[], s, none⟩
  | .chat decoded :: rest, s =>
    let pushed := s.push decoded
    let turn := turnOf rest pushed.2
    { turn with outputs := pushed.1 ++ turn.outputs }
  | .agent (.text text) :: rest, s =>
    let pushed := s.push { text := some text }
    let turn := turnOf rest pushed.2
    { turn with outputs := pushed.1 ++ turn.outputs }
  | .agent .done :: _, s => ⟨s.finish.1, s.finish.2, some none⟩
  | .agent .requestContext :: rest, s => turnOf rest s
  | .agent .unsupportedExec :: _, s =>
    ⟨[], s, some (some "Cursor AgentService requested an unsupported IDE tool")⟩

/-! ## What a message says -/

/-- A field holds a text that is not empty. -/
def holdsText (message : Message) (field : Nat) : Prop :=
  ∃ text ∈ message.text field, text ≠ ""

/-- Field 1 holds what the chat service's reader takes for a tool call: an id in 3, and a name in 9
or in the first of the MCP parameters. -/
def hasCall (message : Message) : Prop :=
  ∃ call ∈ message.nested 1, holdsText call 3 ∧
    (holdsText call 9 ∨ ∃ tool ∈ (call.nested 27).bind (·.nested 1), holdsText tool 1)

/-- Field 2 holds what it takes for an answer: a text in 1, or a thinking in 25. -/
def hasAnswer (message : Message) : Prop :=
  ∃ body ∈ message.nested 2, holdsText body 1 ∨ ∃ thinking ∈ body.nested 25, holdsText thinking 1

/-- Field 1 holds what the agent service's reader takes for an update: a text delta in 1, or the
mark of an ended turn in 14. -/
def hasUpdate (message : Message) : Prop :=
  ∃ update ∈ message.nested 1,
    (∃ delta ∈ update.nested 1, holdsText delta 1) ∨ (update.get 14).isSome

/-- Field 2 is there, which it takes for a request to run a tool. -/
def hasExec (message : Message) : Prop := (message.nested 2).isSome

section

variable {payload : List UInt8}

private theorem filter_text_isSome (message : Message) (field : Nat) :
    ((message.text field).filter (· ≠ "")).isSome ↔ holdsText message field := by
  rw [holdsText]
  cases message.text field with
  | none => simp
  | some text => simp [Option.filter]

private theorem getD_ne_iff (message : Message) (field : Nat) :
    (message.text field).getD "" ≠ "" ↔ holdsText message field := by
  rw [holdsText]
  cases message.text field <;> simp

/-- What is taken for a call has an id and a name. -/
theorem decodeToolCall_isSome (call : Message) : (decodeToolCall call).isSome ↔
    holdsText call 3 ∧ (holdsText call 9 ∨ ∃ tool ∈ (call.nested 27).bind (·.nested 1), holdsText tool 1) := by
  rw [← getD_ne_iff call 3, ← getD_ne_iff call 9, decodeToolCall]
  have hname : (if (call.text 9).getD "" = "" then
      ((call.nested 27).bind (·.nested 1)).elim ((call.text 9).getD "")
        (fun tool ↦ (tool.text 1).getD "") else (call.text 9).getD "") ≠ "" ↔
      (call.text 9).getD "" ≠ "" ∨
        ∃ tool ∈ (call.nested 27).bind (·.nested 1), holdsText tool 1 := by
    split
    · next hempty =>
      cases (call.nested 27).bind (·.nested 1) with
      | none => simp [hempty]
      | some tool => simp [hempty, ← getD_ne_iff]
    · next hname => simp [hname]
  rw [← hname]
  exact Option.isSome_ite

/-- The chat service's reader finds something exactly in a call or an answer. -/
theorem decodeFrame_ne_iff : decodeFrame payload ≠ {} ↔
    hasCall (Message.decode payload) ∨ hasAnswer (Message.decode payload) := by
  rw [decodeFrame]
  have hcall : (((Message.decode payload).nested 1).bind decodeToolCall).isSome ↔
      hasCall (Message.decode payload) := by
    rw [hasCall]
    cases (Message.decode payload).nested 1 with
    | none => simp
    | some call => simpa using decodeToolCall_isSome call
  rw [← hcall]
  split
  · next call hsome =>
    rw [hsome]
    simp
  · next hnone =>
    rw [hnone, hasAnswer]
    split
    · next body hbody =>
      rw [hbody]
      simp only [Option.isSome_none, Bool.false_eq_true, false_or, Option.mem_some_iff,
        exists_eq_left']
      rw [← filter_text_isSome body 1]
      have hthinking : (∃ thinking ∈ body.nested 25, holdsText thinking 1) ↔
          ((((body.nested 25).bind (·.text 1)).filter (· ≠ "")).isSome) := by
        cases body.nested 25 with
        | none => simp
        | some thinking => simpa using (filter_text_isSome thinking 1).symm
      rw [hthinking, ne_eq, Decoded.mk.injEq, Option.isSome_iff_ne_none, Option.isSome_iff_ne_none]
      tauto
    · next hbody =>
      rw [hbody]
      simp

/-- The agent service's reader finds something exactly in an update or a request. -/
theorem decodePayload_ne_iff : decodePayload payload ≠ [] ↔
    hasUpdate (Message.decode payload) ∨ hasExec (Message.decode payload) := by
  rw [decodePayload, hasUpdate, hasExec]
  dsimp only
  have hexec : ((Message.decode payload).nested 2).elim [] (fun exec ↦
      if (exec.get 10).isSome then [Cursor.Event.requestContext] else [.unsupportedExec]) ≠ [] ↔
      ((Message.decode payload).nested 2).isSome := by
    cases (Message.decode payload).nested 2 with
    | none => simp
    | some exec =>
      simp only [Option.elim_some, Option.isSome_some, iff_true]
      split <;> simp
  rw [← hexec, ne_eq, List.append_eq_nil_iff, not_and_or]
  refine or_congr ?_ Iff.rfl
  cases (Message.decode payload).nested 1 with
  | none => simp
  | some update =>
    simp only [Option.elim_some, Option.mem_some_iff, exists_eq_left', List.append_eq_nil_iff]
    have hdelta : (∃ delta ∈ update.nested 1, holdsText delta 1) ↔
        (((update.nested 1).bind (·.text 1)).filter (· ≠ "")).isSome := by
      cases update.nested 1 with
      | none => simp
      | some delta => simpa using (filter_text_isSome delta 1).symm
    rw [hdelta, not_and_or]
    refine or_congr ?_ ?_
    · cases ((update.nested 1).bind (·.text 1)).filter (· ≠ "") <;> simp
    · split
      · next hended => simp [hended]
      · next hended => simp [hended]

end

/-! ## Frames -/

/-- A frame with a message: not the trailer, and read to its last byte. -/
def isMessage (frame : Cursor.Frame) : Prop :=
  frame.isTrailer = false ∧ (Cursor.fieldReader.drain frame.payload).rest = []

instance (frame : Cursor.Frame) : Decidable (isMessage frame) :=
  inferInstanceAs (Decidable (_ ∧ _))

section

variable (serde : Kiro.SerdeJson)

/-- A message never begins like the text of an object: that would be a field of a wire type that
there is not. -/
theorem errorFrame_of_message {payload : List UInt8}
    (h : (Cursor.fieldReader.drain payload).rest = []) : Cursor.errorFrame serde payload = none := by
  rw [Cursor.errorFrame]
  split
  · rfl
  · next hbrace =>
    rw [not_not] at hbrace
    obtain ⟨rest, rfl⟩ : ∃ rest, payload = 0x7B :: rest := by
      cases payload with
      | nil => cases hbrace
      | cons byte rest => exact ⟨rest, by rw [Option.some.inj hbrace]⟩
    have hread : Cursor.readField (0x7B :: rest) = none := by
      simp [Cursor.readField, Cursor.readTag, Cursor.readVarint, Cursor.readVarintFrom,
        Cursor.readValue]
    rw [Cursor.fieldReader, FrameReader.drain_ofSettled, hread] at h
    cases h

private theorem turnOf_agent (events : List Cursor.Event) (s : Cursor.Stream) :
    turnOf (events.map .agent) s = cursorEvents events s := by
  induction events generalizing s with
  | nil => rfl
  | cons event events ih =>
    cases event with
    | text text =>
      rw [List.map_cons, turnOf, cursorEvents]
      simp only [ih]
    | requestContext => exact ih s
    | done | unsupportedExec => rfl

/-- What the decoder does with a message is done with what it yields. -/
theorem handle_of_message {frame : Cursor.Frame} (h : isMessage frame) (s : Cursor.Stream) :
    (cursorMachine serde).handle frame s = turnOf (yielded frame.payload) s := by
  rw [cursorMachine]
  simp only [h.1, Bool.false_eq_true, if_false, errorFrame_of_message serde h.2]
  rw [yielded]
  split
  · exact (turnOf_agent _ s).symm
  · rw [turnOf, turnOf, List.append_nil]

/-- A message yields what the chat service's reader takes of it exactly where that reader finds
something or the other nothing. -/
theorem yielded_eq_chatYield_iff (payload : List UInt8) : yielded payload = chatYield payload ↔
    hasCall (Message.decode payload) ∨ hasAnswer (Message.decode payload) ∨
      ¬ hasUpdate (Message.decode payload) ∧ ¬ hasExec (Message.decode payload) := by
  rw [← or_assoc, ← decodeFrame_ne_iff, ← not_or, ← decodePayload_ne_iff, not_not, yielded,
    chatYield]
  split
  · next hempty => simp [hempty]
  · next hfound => simp [hfound]

/-- It yields what the agent service's reader takes of it exactly where the other finds nothing. -/
theorem yielded_eq_agentYield_iff (payload : List UInt8) : yielded payload = agentYield payload ↔
    ¬ hasCall (Message.decode payload) ∧ ¬ hasAnswer (Message.decode payload) := by
  rw [← not_or, ← decodeFrame_ne_iff, not_not, yielded, agentYield]
  split
  · next hempty => exact iff_of_true rfl hempty
  · next hfound =>
    refine iff_of_false ?_ hfound
    intro hsame
    cases hevents : decodePayload payload with
    | nil =>
      rw [hevents] at hsame
      cases hsame
    | cons event events =>
      rw [hevents] at hsame
      cases hsame

/-- The decoder goes by what a message yields, and a message is read under the schema of its
service exactly as told: one of the chat service where it has a call or an answer, or neither an
update nor a request; one of the agent service where it has neither a call nor an answer. -/
theorem read_under_schema_iff {frame : Cursor.Frame} (h : isMessage frame) :
    (∀ s, (cursorMachine serde).handle frame s = turnOf (yielded frame.payload) s) ∧
    (yielded frame.payload = chatYield frame.payload ↔
      hasCall (Message.decode frame.payload) ∨ hasAnswer (Message.decode frame.payload) ∨
        ¬ hasUpdate (Message.decode frame.payload) ∧ ¬ hasExec (Message.decode frame.payload)) ∧
    (yielded frame.payload = agentYield frame.payload ↔
      ¬ hasCall (Message.decode frame.payload) ∧ ¬ hasAnswer (Message.decode frame.payload)) :=
  ⟨handle_of_message serde h, yielded_eq_chatYield_iff _, yielded_eq_agentYield_iff _⟩

end

/-- A text delta of the chat service is read under its schema. -/
theorem read_under_schema_text :
    yielded [0x12, 0x04, 0x0A, 0x02, 0x68, 0x69] = [.chat { text := some "hi" }] ∧
      yielded [0x12, 0x04, 0x0A, 0x02, 0x68, 0x69] =
        chatYield [0x12, 0x04, 0x0A, 0x02, 0x68, 0x69] := by
  have hyielded : yielded [0x12, 0x04, 0x0A, 0x02, 0x68, 0x69] =
      [.chat { text := some "hi" }] := by decide +kernel
  refine ⟨hyielded, ?_⟩
  have hmessage : isMessage ⟨0, [0x12, 0x04, 0x0A, 0x02, 0x68, 0x69]⟩ := by decide +kernel
  refine (read_under_schema_iff ⟨fun _ ↦ .error "", fun _ ↦ ""⟩ hmessage).2.1.mpr ?_
  rw [← or_assoc]
  exact .inl (decodeFrame_ne_iff.mp (by decide +kernel))

/-- A body of the chat service with an empty text is read as a request of the agent service, which
is fatal, and a request of the agent service with a text in its first field as an answer of the chat
service. -/
theorem read_under_other_schema :
    (isMessage ⟨0, [0x12, 0x02, 0x0A, 0x00]⟩ ∧
      yielded [0x12, 0x02, 0x0A, 0x00] = [.agent .unsupportedExec] ∧
      chatYield [0x12, 0x02, 0x0A, 0x00] = []) ∧
    isMessage ⟨0, [0x12, 0x05, 0x0A, 0x01, 0x78, 0x52, 0x00]⟩ ∧
      yielded [0x12, 0x05, 0x0A, 0x01, 0x78, 0x52, 0x00] = [.chat { text := some "x" }] ∧
      agentYield [0x12, 0x05, 0x0A, 0x01, 0x78, 0x52, 0x00] = [.agent .requestContext] := by
  decide +kernel

end NullRouter.Stream
