import NullRouter.Bespoke.CursorResponse
import NullRouter.Bespoke.KiroResponse
import NullRouter.Stream.BinaryRelay

/-!
# Binary streams and their reads

`BinaryDecoder::consume`, `crates/execute/src/stream.rs:364`, for the two binary providers. Kiro's
stream is relayed alike however its bytes are cut into reads, and ends in one terminal chunk; so is
Cursor's, unless it ends its turn by itself, or asks for a tool after a chunk.
-/

namespace NullRouter.Stream

open NullRouter.Base NullRouter.Translate NullRouter.Bespoke

/-- A step of the decoder: to be fatal is to end with a message. -/
def stepOf {δ : Type} (ran : Ran δ Json (Option String)) : BinaryStep :=
  ⟨ran.outputs, ran.ended.join, ran.ended.isSome⟩

/-! ## Decoders that are machines over frames -/

section Framed

variable {β ε δ : Type}

/-- A decoder whose steps are those of a machine over the frames of the pending bytes. -/
structure Framed (decoder : BinaryDecoder δ) (reader : FrameReader UInt8 β ε)
    (machine : FrameMachine β ε δ Json (Option String)) : Prop where
  step (pending : List Nat) (d : δ) : (decoder.consume pending d).1 =
    stepOf (machine.runBuffer reader (pending.map UInt8.ofNat) d)
  state (pending : List Nat) (d : δ) : (decoder.consume pending d).2.2 =
    (machine.runBuffer reader (pending.map UInt8.ofNat) d).state
  rest {pending : List Nat} {d : δ} :
    (machine.runBuffer reader (pending.map UInt8.ofNat) d).ended = none →
      (decoder.consume pending d).2.1.map UInt8.ofNat =
        (reader.drain (pending.map UInt8.ofNat)).rest

variable {decoder : BinaryDecoder δ} {reader : FrameReader UInt8 β ε}
  {machine : FrameMachine β ε δ Json (Option String)}

private theorem relayedLoop_eq (h : Framed decoder reader machine) (reads : List (List Nat))
    (pending : List Nat) (d : δ) :
    relayedLoop decoder reads pending d =
      machine.runPieces reader Option.isSome (reads.map (·.map UInt8.ofNat))
        (pending.map UInt8.ofNat) d := by
  induction reads generalizing pending d with
  | nil => rfl
  | cons bytes reads ih =>
    rw [relayedLoop, List.map_cons, FrameMachine.runPieces, ← List.map_append]
    simp only [h.step, h.state, stepOf]
    cases hended : (machine.runBuffer reader ((pending ++ bytes).map UInt8.ofNat) d).ended with
    | none =>
      simp only [Option.join_none, Option.isSome_none, Bool.false_eq_true, if_false]
      rw [ih, h.rest hended]
    | some ended =>
      cases ended with
      | none => rfl
      | some message => rfl

/-- The chunks of a loop over reads, by what the machine does with all the bytes. -/
theorem relayedLoop_spec (h : Framed decoder reader machine) (reads : List (List Nat)) (d : δ) :
    let whole := machine.runBuffer reader (reads.flatten.map UInt8.ofNat) d
    let looped := relayedLoop decoder reads [] d
    looped.2 = whole.state ∧ (whole.ended.join = none → looped.1 = whole.outputs) ∧
      (whole.ended.join.isSome = true → looped.1 <+: whole.before) := by
  have hflatten : (reads.map (·.map UInt8.ofNat)).flatten = reads.flatten.map UInt8.ofNat :=
    List.map_flatten.symm
  obtain ⟨hstate, hall, hany⟩ := machine.runPieces_spec Option.isSome
    (reads.map (·.map UInt8.ofNat)) d reader.front_nil
  rw [hflatten, List.nil_append] at hstate hall hany
  rw [relayedLoop_eq h, List.map_nil]
  refine ⟨hstate, fun hjoin ↦ hall ?_, fun hjoin ↦ hany ?_⟩
  · cases hended : (machine.runBuffer reader (reads.flatten.map UInt8.ofNat) d).ended with
    | none => rfl
    | some ended =>
      rw [hended] at hjoin
      obtain rfl : ended = none := hjoin
      rfl
  · cases hended : (machine.runBuffer reader (reads.flatten.map UInt8.ofNat) d).ended with
    | none => rw [hended] at hjoin; cases hjoin
    | some ended => rwa [hended] at hjoin

private theorem relayed_singleton (h : Framed decoder reader machine) (bytes : List Nat) (d : δ) :
    let ran := machine.runBuffer reader (bytes.map UInt8.ofNat) d
    relayed decoder [bytes] d =
      (if ran.ended.join.isSome then [] else ran.outputs) ++ (decoder.finish ran.state).1 := by
  intro ran
  obtain ⟨hstate, hall, hany⟩ := relayedLoop_spec h [bytes] d
  have hstep := h.step bytes d
  rw [List.flatten_singleton] at hstate hall
  rw [relayed, hstate]
  split
  · next hfatal =>
    have hstop : (decoder.consume ([] ++ bytes) d).1.fatal.isSome = true := by
      rw [List.nil_append, hstep]
      exact hfatal
    rw [relayedLoop, if_pos hstop]
  · next hfatal => rw [hall (by simpa using hfatal)]

/-- What a client is sent for some bytes does not depend on how they are cut into reads: it has the
chunks of every frame before one that is fatal, and at most one terminal chunk, exactly one where no
frame is fatal. -/
structure CutAlike (decoder : BinaryDecoder δ) (reader : FrameReader UInt8 β ε)
    (machine : FrameMachine β ε δ Json (Option String)) (model : String) (bytes : List Nat) :
    Prop where
  same (text : JsonText) (source : Format) (sink : Sink) (state : StreamState)
    (reads reads' : List (List Nat)) : reads.flatten = bytes → reads'.flatten = bytes →
      (pipeBinaryStream decoder text source sink model (reads.map some) state).sent =
        (pipeBinaryStream decoder text source sink model (reads'.map some) state).sent
  keeps (id : String) (created : Nat) (reads : List (List Nat)) : reads.flatten = bytes →
    let ran := machine.runBuffer reader (bytes.map UInt8.ofNat) (decoder.new id created model)
    ran.ended.join.isSome = true →
      ran.before <+: relayed decoder reads (decoder.new id created model)
  at_most_one (id : String) (created : Nat) (reads : List (List Nat)) : reads.flatten = bytes →
    terminals (relayed decoder reads (decoder.new id created model)) ≤ 1
  exactly_one (id : String) (created : Nat) (reads : List (List Nat)) : reads.flatten = bytes →
    (machine.runBuffer reader (bytes.map UInt8.ofNat)
      (decoder.new id created model)).ended.join = none →
    terminals (relayed decoder reads (decoder.new id created model)) = 1

/-- A stream is cut alike if no chunk comes before a fatal frame, and the decoder's last chunks
complete those before them to one terminal chunk. -/
private theorem cutAlike_of_framed (h : Framed decoder reader machine) {model : String}
    {bytes : List Nat}
    (hbefore : ∀ id created,
      let ran := machine.runBuffer reader (bytes.map UInt8.ofNat) (decoder.new id created model)
      ran.ended.join.isSome = true → ran.before = [])
    (hone : ∀ id created,
      let ran := machine.runBuffer reader (bytes.map UInt8.ofNat) (decoder.new id created model)
      terminals ((if ran.ended.join.isSome then [] else ran.outputs) ++
        (decoder.finish ran.state).1) = 1) :
    CutAlike decoder reader machine model bytes := by
  have hrelayed (id : String) (created : Nat) (reads : List (List Nat))
      (hreads : reads.flatten = bytes) :
      let ran := machine.runBuffer reader (bytes.map UInt8.ofNat) (decoder.new id created model)
      relayed decoder reads (decoder.new id created model) =
        (if ran.ended.join.isSome then [] else ran.outputs) ++ (decoder.finish ran.state).1 := by
    obtain ⟨hstate, hall, hany⟩ := relayedLoop_spec h reads (decoder.new id created model)
    rw [hreads] at hstate hall hany
    intro ran
    rw [relayed, hstate]
    split
    · next hfatal =>
      have hnil := hany hfatal
      rw [hbefore id created hfatal, List.prefix_nil] at hnil
      rw [hnil]
    · next hfatal =>
      rw [hall (by simpa using hfatal)]
  refine ⟨?_, ?_, ?_, ?_⟩
  · intro text source sink state reads reads' hreads hreads'
    rw [sent_pipeBinaryStream_eq_reply, sent_pipeBinaryStream_eq_reply, BinaryDecoder.start,
      hrelayed _ _ reads hreads, hrelayed _ _ reads' hreads']
  · intro id created reads hreads ran hfatal
    rw [hbefore id created hfatal]
    exact List.nil_prefix
  · intro id created reads hreads
    rw [hrelayed id created reads hreads, hone]
  · intro id created reads hreads _
    rw [hrelayed id created reads hreads, hone]

end Framed

/-! ## Kiro -/

section Kiro

open Kiro

variable (serde : Kiro.SerdeJson)

/-- What Kiro's decoder does with a frame, and with what is no frame, `stream.rs:448`. -/
def kiroMachine : FrameMachine Kiro.Frame FrameError Kiro.Stream Json (Option String) where
  handle frame s :=
    let decoded := decode serde frame
    match decoded.exception with
    | some exception => ⟨[], s, some (if s.opened then none else some exception)⟩
    | none =>
      if decoded = {} then ⟨[], s, none⟩ else ⟨(s.push decoded).1, (s.push decoded).2, none⟩
  fail error s := if s.opened then none else some error.toString

/-- `BinaryDecoder::Kiro`, `stream.rs:435`. -/
def kiroDecoder : BinaryDecoder Kiro.Stream where
  new := Kiro.Stream.new
  consume pending s :=
    let buffer := pending.map UInt8.ofNat
    let ran := (kiroMachine serde).runWithin (eventReader serde) buffer.length buffer s
    (stepOf ran.1, pending.drop (buffer.length - ran.2.length), ran.1.state)
  finish := Kiro.Stream.finish

theorem kiro_framed : Framed (kiroDecoder serde) (eventReader serde) (kiroMachine serde) where
  step pending s := by rw [kiroDecoder]; simp only [(FrameMachine.runWithin_eq (Nat.le_refl _) s).1]
  state pending s := by rw [kiroDecoder]; simp only [(FrameMachine.runWithin_eq (Nat.le_refl _) s).1]
  rest {pending s} hended := by
    rw [kiroDecoder]
    simp only [(FrameMachine.runWithin_eq (Nat.le_refl _) s).2 hended, List.map_drop]
    exact FrameReader.drop_consumed _

/-- Chunks open the reply, and one that is terminal ends it. -/
structure KiroGrows (s : Kiro.Stream) (chunks : List Json) (s' : Kiro.Stream) : Prop where
  opened : s.opened = true ∨ chunks ≠ [] → s'.opened = true
  finished : terminals chunks + s.finished.toNat = s'.finished.toNat
  opened_of_finished : (s.finished = true → s.opened = true) →
    s'.finished = true → s'.opened = true

namespace KiroGrows

variable {s s' s'' : Kiro.Stream} {chunks later : List Json}

theorem refl (s : Kiro.Stream) : KiroGrows s [] s :=
  ⟨fun h ↦ h.resolve_right (· rfl), Nat.zero_add _, id⟩

theorem trans (h : KiroGrows s chunks s') (h' : KiroGrows s' later s'') :
    KiroGrows s (chunks ++ later) s'' where
  opened hopened := by
    refine h'.opened ?_
    by_cases hlater : later = []
    · rw [hlater, List.append_nil] at hopened
      exact .inl (h.opened hopened)
    · exact .inr hlater
  finished := by
    rw [← h'.finished, ← h.finished, terminals_append]
    omega
  opened_of_finished hs := h'.opened_of_finished (h.opened_of_finished hs)

theorem delta (s : Kiro.Stream) (delta : Json) :
    KiroGrows s [(s.delta delta).1] (s.delta delta).2 where
  opened _ := rfl
  finished := by
    rw [Kiro.Stream.delta, terminals_buildChunk]
    exact Nat.zero_add _
  opened_of_finished _ _ := rfl

theorem finish (s : Kiro.Stream) : KiroGrows s s.finish.1 s.finish.2 := by
  rw [Kiro.Stream.finish]
  by_cases hfinished : s.finished = true
  · simp only [hfinished, if_true]
    exact .refl s
  · have hopen (identity : ChunkMeta) (delta : Json) :
        terminals [buildChunk identity delta none] = 0 :=
      terminals_buildChunk _ _ _
    have hterminal (identity : ChunkMeta) (reason : String) :
        terminals [buildChunk identity (.obj []) (some reason)] = 1 := terminals_buildChunk _ _ _
    by_cases hopened : s.opened = true
    · simp only [hfinished, Bool.false_eq_true, if_false, hopened, if_true, List.nil_append]
      refine ⟨fun _ ↦ rfl, ?_, fun _ _ ↦ rfl⟩
      rw [hterminal, Bool.eq_false_iff.mpr hfinished]
      rfl
    · simp only [hfinished, hopened, Bool.false_eq_true, if_false, Kiro.Stream.delta]
      refine ⟨fun _ ↦ rfl, ?_, fun _ _ ↦ rfl⟩
      rw [terminals_append, hopen, hterminal, Bool.eq_false_iff.mpr hfinished]
      rfl

theorem finished_finish (s : Kiro.Stream) : s.finish.2.finished = true := by
  rw [Kiro.Stream.finish]
  split
  · next hfinished => exact hfinished
  · simp only
    split <;> rfl

theorem pushTool (s : Kiro.Stream) (fragment : ToolFragment) :
    KiroGrows s [(s.pushTool fragment).1] (s.pushTool fragment).2 := by
  obtain ⟨hopened, hfinished, hboth⟩ := delta { s with
    usedTool := true
    toolIds := if (s.toolIds.findIdx? (· == fragment.id)).isSome then s.toolIds
      else s.toolIds ++ [fragment.id] }
    (Json.object [("tool_calls", .arr [Json.object [("index", Json.nat
        ((s.toolIds.findIdx? (· == fragment.id)).getD
          ((if (s.toolIds.findIdx? (· == fragment.id)).isSome then s.toolIds
            else s.toolIds ++ [fragment.id]).length - 1))),
      ("id", .str fragment.id), ("type", .str "function"),
      ("function", Json.object [("name", .str fragment.name),
        ("arguments", .str fragment.input)])]])])
  exact ⟨hopened, hfinished, hboth⟩

private theorem ofOption {α : Type} (value : Option α) {pushed : α → List Json × Kiro.Stream}
    (h : ∀ a, KiroGrows s (pushed a).1 (pushed a).2) :
    KiroGrows s (value.elim ([], s) pushed).1 (value.elim ([], s) pushed).2 := by
  cases value with
  | none => exact .refl s
  | some a => exact h a

theorem push (s : Kiro.Stream) (decoded : Kiro.Decoded) :
    KiroGrows s (s.push decoded).1 (s.push decoded).2 := by
  have hstop (s : Kiro.Stream) : KiroGrows s (if decoded.stopped then s.finish else ([], s)).1
      (if decoded.stopped then s.finish else ([], s)).2 := by
    split
    · exact finish s
    · exact .refl s
  exact (((ofOption decoded.text fun _ ↦ delta s _).trans
    (ofOption decoded.reasoning fun _ ↦ delta _ _)).trans
    (ofOption decoded.tool fun _ ↦ pushTool _ _)).trans (hstop _)

end KiroGrows

private theorem kiro_goes_on {frame : Kiro.Frame} {s : Kiro.Stream}
    (h : ((kiroMachine serde).handle frame s).ended = none) :
    KiroGrows s ((kiroMachine serde).handle frame s).outputs
      ((kiroMachine serde).handle frame s).state := by
  rw [kiroMachine] at h ⊢
  simp only at h ⊢
  split at h
  · cases h
  · split
    · exact .refl s
    · exact .push s _

private theorem kiro_ends {frame : Kiro.Frame} {s : Kiro.Stream}
    (h : ((kiroMachine serde).handle frame s).ended.isSome = true) :
    ((kiroMachine serde).handle frame s).outputs = [] ∧
      ((kiroMachine serde).handle frame s).state = s ∧
      (((kiroMachine serde).handle frame s).ended.join.isSome = true → s.opened = false) := by
  rw [kiroMachine] at h ⊢
  simp only at h ⊢
  split at h
  · refine ⟨rfl, rfl, fun hjoin ↦ ?_⟩
    by_contra hopened
    rw [Bool.not_eq_false] at hopened
    simp [hopened] at hjoin
  · split at h <;> cases h

private theorem kiro_fails {error : FrameError} {s : Kiro.Stream}
    (h : ((kiroMachine serde).fail error s).isSome = true) : s.opened = false := by
  by_contra hopened
  rw [Bool.not_eq_false] at hopened
  simp only [kiroMachine, hopened, if_true, Option.isSome_none] at h
  cases h

/-- What Kiro's decoder has done with the frames of a buffer: its chunks are those of frames it went
on from, and to end with a message it has not opened the reply. -/
private theorem kiro_run (buffer : List UInt8) (s : Kiro.Stream) :
    let ran := (kiroMachine serde).runBuffer (eventReader serde) buffer s
    ran.last = [] ∧ KiroGrows s ran.before ran.state ∧
      (ran.ended.join.isSome = true → ran.state.opened = false) := by
  have hrelates {frames : List Kiro.Frame}
      (h : ((kiroMachine serde).run frames s).ended = none) :
      KiroGrows s ((kiroMachine serde).run frames s).before
        ((kiroMachine serde).run frames s).state :=
    FrameMachine.run_relates .refl .trans (fun _ _ h ↦ kiro_goes_on serde h) h
  intro ran
  by_cases hended :
      ((kiroMachine serde).run ((eventReader serde).drain buffer).items s).ended.isSome = true
  · have hran : ran = (kiroMachine serde).run ((eventReader serde).drain buffer).items s :=
      if_pos hended
    obtain ⟨first, frame, rest, -, hfirst, hframe, hrun⟩ := FrameMachine.run_of_ended hended
    obtain ⟨houtputs, hstate, hopened⟩ := kiro_ends serde hframe
    rw [hran, hrun]
    simp only [houtputs, hstate]
    exact ⟨trivial, hrelates hfirst, hopened⟩
  · have hnone : ((kiroMachine serde).run ((eventReader serde).drain buffer).items s).ended =
        none := by simpa using hended
    have hran : ran = { (kiroMachine serde).run ((eventReader serde).drain buffer).items s with
        ended := ((eventReader serde).drain buffer).error.map ((kiroMachine serde).fail ·
          ((kiroMachine serde).run ((eventReader serde).drain buffer).items s).state) } :=
      if_neg hended
    rw [hran]
    refine ⟨FrameMachine.run_last hnone, hrelates hnone, fun hjoin ↦ ?_⟩
    cases herror : ((eventReader serde).drain buffer).error with
    | none =>
      simp only [herror] at hjoin
      cases hjoin
    | some error =>
      simp only [herror] at hjoin
      exact kiro_fails serde hjoin

/-- Kiro's stream is relayed alike however it is cut. -/
theorem kiro_cutAlike (model : String) (bytes : List Nat) :
    CutAlike (kiroDecoder serde) (eventReader serde) (kiroMachine serde) model bytes := by
  have hbefore (id : String) (created : Nat) :
      let ran := (kiroMachine serde).runBuffer (eventReader serde) (bytes.map UInt8.ofNat)
        (Kiro.Stream.new id created model)
      ran.ended.join.isSome = true → ran.before = [] := by
    intro ran hfatal
    obtain ⟨-, hgrows, hopened⟩ := kiro_run serde (bytes.map UInt8.ofNat)
      (Kiro.Stream.new id created model)
    by_contra hsome
    have hopen := hgrows.opened (.inr hsome)
    rw [hopened hfatal] at hopen
    cases hopen
  refine cutAlike_of_framed (kiro_framed serde) hbefore ?_
  intro id created ran
  obtain ⟨hlast, hgrows, -⟩ := kiro_run serde (bytes.map UInt8.ofNat)
    (Kiro.Stream.new id created model)
  have hlist : (if ran.ended.join.isSome then [] else ran.outputs) = ran.before := by
    split
    · next hfatal => exact (hbefore id created hfatal).symm
    · exact (congrArg (ran.before ++ ·) hlast).trans (List.append_nil _)
  have htotal := (hgrows.trans (.finish ran.state)).finished
  rw [hlist]
  rw [KiroGrows.finished_finish] at htotal
  exact htotal

end Kiro

/-! ## Cursor -/

section Cursor

open Cursor

/-- The events of a frame of the agent service, in turn, `stream.rs:395`. -/
def cursorEvents : List Event → Cursor.Stream → Turn Cursor.Stream Json (Option String)
  | [], s => ⟨[], s, none⟩
  | .text text :: events, s =>
    let pushed := s.push { text := some text }
    let rest := cursorEvents events pushed.2
    { rest with outputs := pushed.1 ++ rest.outputs }
  | .done :: _, s => ⟨s.finish.1, s.finish.2, some none⟩
  | .requestContext :: events, s => cursorEvents events s
  | .unsupportedExec :: _, s =>
    ⟨[], s, some (some "Cursor AgentService requested an unsupported IDE tool")⟩

variable (serde : Kiro.SerdeJson)

/-- What Cursor's decoder does with a frame, `stream.rs:372`. -/
def cursorMachine : FrameMachine Cursor.Frame Empty Cursor.Stream Json (Option String) where
  handle frame s :=
    if frame.isTrailer then ⟨[], s, none⟩
    else
      match Cursor.errorFrame serde frame.payload with
      | some error => ⟨[], s, some (if s.hasContent then none else some (errorDetail error))⟩
      | none =>
        let decoded := decodeFrame frame.payload
        if decoded = {} then cursorEvents (decodePayload frame.payload) s
        else ⟨(s.push decoded).1, (s.push decoded).2, none⟩
  fail error _ := error.elim

variable (flate : Flate2)

/-- `BinaryDecoder::Cursor`, `stream.rs:367`. -/
def cursorDecoder : BinaryDecoder Cursor.Stream where
  new := Cursor.Stream.new
  consume pending s :=
    let read := frames flate (pending.map UInt8.ofNat)
    let ran := (cursorMachine serde).run read.1 s
    (stepOf ran, pending.drop read.2, ran.state)
  finish := Cursor.Stream.finish

private theorem cursor_runBuffer (buffer : List UInt8) (s : Cursor.Stream) :
    (cursorMachine serde).runBuffer (connectReader flate) buffer s =
      (cursorMachine serde).run (frames flate buffer).1 s := by
  have herror : ((connectReader flate).drain buffer).error = none := by
    cases h : ((connectReader flate).drain buffer).error with
    | none => rfl
    | some error => exact error.elim
  rw [FrameMachine.runBuffer, FrameMachine.failed, herror]
  split
  · rfl
  · next hended =>
    have hnone : ((cursorMachine serde).run ((connectReader flate).drain buffer).items s).ended =
        none := by simpa using hended
    rw [Option.map_none, ← hnone]
    rfl

theorem cursor_framed :
    Framed (cursorDecoder serde flate) (connectReader flate) (cursorMachine serde) where
  step pending s := by rw [cursor_runBuffer]; rfl
  state pending s := by rw [cursor_runBuffer]; rfl
  rest {pending s} _ := by
    rw [cursorDecoder]
    simp only [List.map_drop]
    exact FrameReader.drop_consumed _

/-- How a frame ends a stream of Cursor's. -/
inductive Ending where
  | error
  | turnEnded
  | unsupportedExec
  deriving DecidableEq

/-- How an event ends a stream. -/
def Ending.ofEvent : Event → Option Ending
  | .done => some .turnEnded
  | .unsupportedExec => some .unsupportedExec
  | .text _ | .requestContext => none

/-- How a frame ends a stream, if it does. -/
def ending (frame : Cursor.Frame) : Option Ending :=
  if frame.isTrailer then none
  else if (Cursor.errorFrame serde frame.payload).isSome then some .error
  else if decodeFrame frame.payload = {} then
    (decodePayload frame.payload).findSome? Ending.ofEvent
  else none

/-- The text of an event. -/
def textOf : Event → Option Cursor.Decoded
  | .text text => some { text := some text }
  | .done | .requestContext | .unsupportedExec => none

/-- What a frame that does not end a stream carries. -/
def contents (frame : Cursor.Frame) : List Cursor.Decoded :=
  if frame.isTrailer then []
  else if decodeFrame frame.payload = {} then (decodePayload frame.payload).filterMap textOf
  else [decodeFrame frame.payload]

/-- Nothing of what has been carried is shown: no text, no call, and no thinking, or, of a composer,
none after the marker that ends it. -/
def silent (composer : Bool) : List Char → List Cursor.Decoded → Bool
  | _, [] => true
  | thinking, carried :: rest =>
    carried.text.isNone && carried.toolCall.isNone &&
      if composer then
        let thinking := thinking ++ (carried.thinking.getD "").toList
        (visibleAfterThink thinking).isEmpty && silent composer thinking rest
      else carried.thinking.isNone && silent composer thinking rest

/-- The frames before the first that ends a stream. -/
def beforeEnding (read : List Cursor.Frame) : List Cursor.Frame :=
  read.takeWhile (ending serde · = none)

/-- How the first frame that ends a stream does, if one does. -/
def firstEnding (read : List Cursor.Frame) : Option Ending :=
  (read.drop (beforeEnding serde read).length).head?.bind (ending serde)

/-- The first frame that ends Cursor's stream, if one does, is not the mark of an ended turn, and if
it asks for a tool, nothing of the frames before it is shown. -/
def cursorUnbroken (model : String) (bytes : List Nat) : Bool :=
  let read := (frames flate (bytes.map UInt8.ofNat)).1
  match firstEnding serde read with
  | some .turnEnded => false
  | some .unsupportedExec =>
    silent (isComposer model) [] ((beforeEnding serde read).flatMap contents)
  | some .error | none => true

/-- Chunks that are not terminal open the reply. -/
structure CursorGrows (s : Cursor.Stream) (chunks : List Json) (s' : Cursor.Stream) : Prop where
  opened : s.opened = true ∨ chunks ≠ [] → s'.opened = true
  terminals : terminals chunks = 0

namespace CursorGrows

variable {s s' s'' : Cursor.Stream} {chunks later : List Json}

theorem refl (s : Cursor.Stream) : CursorGrows s [] s := ⟨fun h ↦ h.resolve_right (· rfl), rfl⟩

theorem trans (h : CursorGrows s chunks s') (h' : CursorGrows s' later s'') :
    CursorGrows s (chunks ++ later) s'' where
  opened hopened := by
    refine h'.opened ?_
    by_cases hlater : later = []
    · rw [hlater, List.append_nil] at hopened
      exact .inl (h.opened hopened)
    · exact .inr hlater
  terminals := by rw [terminals_append, h.terminals, h'.terminals]

theorem textDelta (s : Cursor.Stream) (field text : String) :
    CursorGrows s [(s.textDelta field text).1] (s.textDelta field text).2 :=
  ⟨fun _ ↦ rfl, terminals_buildChunk _ _ none⟩

theorem pushCall (s : Cursor.Stream) (call : Cursor.ToolCall) :
    CursorGrows s (s.pushCall call).1 (s.pushCall call).2 := by
  refine ⟨fun _ ↦ rfl, ?_⟩
  rw [Cursor.Stream.pushCall]
  simp only [terminals_append]
  have hopen (delta : Json) : Stream.terminals [s.chunk delta none] = 0 := terminals_buildChunk _ _ none
  rw [hopen]
  split
  · rfl
  · exact hopen _

theorem pushThinking (s : Cursor.Stream) (thinking : String) :
    CursorGrows s (s.pushThinking thinking).1 (s.pushThinking thinking).2 := by
  rw [Cursor.Stream.pushThinking]
  split
  · simp only
    split
    · split
      · exact ⟨fun h ↦ h.resolve_right (· rfl), rfl⟩
      · exact ⟨fun _ ↦ rfl, terminals_buildChunk _ _ none⟩
    · exact ⟨fun h ↦ h.resolve_right (· rfl), rfl⟩
  · exact textDelta s _ _

private theorem ofOption {α : Type} (value : Option α) {pushed : α → List Json × Cursor.Stream}
    (h : ∀ a, CursorGrows s (pushed a).1 (pushed a).2) :
    CursorGrows s (value.elim ([], s) pushed).1 (value.elim ([], s) pushed).2 := by
  cases value with
  | none => exact .refl s
  | some a => exact h a

theorem push (s : Cursor.Stream) (decoded : Cursor.Decoded) :
    CursorGrows s (s.push decoded).1 (s.push decoded).2 :=
  ((ofOption decoded.toolCall fun _ ↦ pushCall s _).trans
    (ofOption decoded.text fun _ ↦ textDelta _ _ _)).trans
    (ofOption decoded.thinking fun _ ↦ pushThinking _ _)

end CursorGrows

/-- The last chunks are one that is terminal, and, unless the reply has been opened, one that opens
it. -/
private theorem terminals_finish (s : Cursor.Stream) : terminals s.finish.1 = 1 := by
  rw [Cursor.Stream.finish, terminals_append, Cursor.Stream.chunk, terminals_buildChunk]
  split
  · rfl
  · rw [Cursor.Stream.opening, Cursor.Stream.chunk, terminals_buildChunk]
    rfl

/-- Frames that carry something, in turn. -/
def pushAll : List Cursor.Decoded → Cursor.Stream → List Json × Cursor.Stream
  | [], s => ([], s)
  | carried :: rest, s =>
    ((s.push carried).1 ++ (pushAll rest (s.push carried).2).1, (pushAll rest (s.push carried).2).2)

/-- Frames after others are pushed onto what the others left. -/
theorem pushAll_append (first second : List Cursor.Decoded) (s : Cursor.Stream) :
    pushAll (first ++ second) s =
      ((pushAll first s).1 ++ (pushAll second (pushAll first s).2).1,
        (pushAll second (pushAll first s).2).2) := by
  induction first generalizing s with
  | nil => rfl
  | cons carried first ih =>
    rw [List.cons_append, pushAll, ih, pushAll]
    simp only [List.append_assoc]

/-- Frames that are pushed in turn open the reply and do not end it. -/
theorem cursorGrows_pushAll (carried : List Cursor.Decoded) (s : Cursor.Stream) :
    CursorGrows s (pushAll carried s).1 (pushAll carried s).2 := by
  induction carried generalizing s with
  | nil => exact .refl s
  | cons first rest ih => exact (CursorGrows.push s first).trans (ih _)

/-! ### Frames -/

private theorem cursorEvents_of_none {events : List Event}
    (h : events.findSome? Ending.ofEvent = none) (s : Cursor.Stream) :
    cursorEvents events s = ⟨(pushAll (events.filterMap textOf) s).1,
      (pushAll (events.filterMap textOf) s).2, none⟩ := by
  induction events generalizing s with
  | nil => rfl
  | cons event events ih =>
    cases event with
    | text text =>
      rw [cursorEvents, ih h]
      rfl
    | requestContext => exact ih h s
    | done | unsupportedExec => cases h

private theorem cursorEvents_of_some {events : List Event} {how : Ending}
    (h : events.findSome? Ending.ofEvent = some how) (s : Cursor.Stream) :
    ∃ chunks s', CursorGrows s chunks s' ∧
      (how = .turnEnded ∧ cursorEvents events s = ⟨chunks ++ s'.finish.1, s'.finish.2, some none⟩ ∨
        how = .unsupportedExec ∧ ∃ message,
          cursorEvents events s = ⟨chunks, s', some (some message)⟩) := by
  induction events generalizing s with
  | nil => cases h
  | cons event events ih =>
    cases event with
    | text text =>
      obtain ⟨chunks, s', hgrows, hhow⟩ := ih h (s.push { text := some text }).2
      refine ⟨_, s', (CursorGrows.push s { text := some text }).trans hgrows, ?_⟩
      rcases hhow with ⟨hhow, hevents⟩ | ⟨hhow, message, hevents⟩
      · refine .inl ⟨hhow, ?_⟩
        rw [cursorEvents, hevents]
        simp only [List.append_assoc]
      · refine .inr ⟨hhow, message, ?_⟩
        rw [cursorEvents, hevents]
    | requestContext => exact ih h s
    | done => exact ⟨[], s, .refl s, .inl ⟨(Option.some.inj h).symm, rfl⟩⟩
    | unsupportedExec => exact ⟨[], s, .refl s, .inr ⟨(Option.some.inj h).symm, _, rfl⟩⟩

private theorem handle_of_none {frame : Cursor.Frame} (h : ending serde frame = none)
    (s : Cursor.Stream) : (cursorMachine serde).handle frame s =
      ⟨(pushAll (contents frame) s).1, (pushAll (contents frame) s).2, none⟩ := by
  rw [ending] at h
  rw [contents, cursorMachine]
  simp only
  split
  · rfl
  · next htrailer =>
    rw [if_neg htrailer] at h
    split
    · next error herror =>
      rw [herror] at h
      cases h
    · next herror =>
      rw [herror] at h
      by_cases hempty : decodeFrame frame.payload = {}
      · rw [if_pos hempty, if_pos hempty]
        rw [if_neg (by simp), if_pos hempty] at h
        exact cursorEvents_of_none h s
      · rw [if_neg hempty, if_neg hempty, pushAll, pushAll, List.append_nil]

private theorem handle_of_some {frame : Cursor.Frame} {how : Ending}
    (h : ending serde frame = some how) (s : Cursor.Stream) :
    ∃ chunks s', CursorGrows s chunks s' ∧
      match how with
      | .error => chunks = [] ∧ ∃ message, (cursorMachine serde).handle frame s =
          ⟨[], s', some (if s'.hasContent then none else some message)⟩
      | .turnEnded => (cursorMachine serde).handle frame s =
          ⟨chunks ++ s'.finish.1, s'.finish.2, some none⟩
      | .unsupportedExec => ∃ message, (cursorMachine serde).handle frame s =
          ⟨chunks, s', some (some message)⟩ := by
  rw [ending] at h
  rw [cursorMachine]
  simp only
  by_cases htrailer : frame.isTrailer = true
  · rw [if_pos htrailer] at h
    cases h
  · rw [if_neg htrailer] at h
    simp only [htrailer, Bool.false_eq_true, if_false]
    cases herror : Cursor.errorFrame serde frame.payload with
    | some error =>
      rw [herror] at h
      obtain rfl : Ending.error = how := Option.some.inj h
      exact ⟨[], s, .refl s, rfl, errorDetail error, rfl⟩
    | none =>
      rw [herror, if_neg (by simp)] at h
      by_cases hempty : decodeFrame frame.payload = {}
      · rw [if_pos hempty] at h
        simp only [hempty, if_true]
        obtain ⟨chunks, s', hgrows, hhow⟩ := cursorEvents_of_some h s
        refine ⟨chunks, s', hgrows, ?_⟩
        rcases hhow with ⟨rfl, hevents⟩ | ⟨rfl, message, hevents⟩
        · exact hevents
        · exact ⟨message, hevents⟩
      · rw [if_neg hempty] at h
        cases h

private theorem run_of_none {read : List Cursor.Frame}
    (h : ∀ frame ∈ read, ending serde frame = none)
    (s : Cursor.Stream) : (cursorMachine serde).run read s =
      ⟨(pushAll (read.flatMap contents) s).1, [], (pushAll (read.flatMap contents) s).2, none⟩ := by
  induction read generalizing s with
  | nil => rfl
  | cons frame read ih =>
    rw [List.forall_mem_cons] at h
    rw [FrameMachine.run, handle_of_none serde h.1, List.flatMap_cons, pushAll_append]
    simp only [Option.isSome_none, Bool.false_eq_true, if_false, ih h.2]
    rfl

/-- What Cursor's decoder has done with some frames: it goes on from those before the first that
ends the stream, and then does what that one makes it do. -/
private theorem cursor_run (read : List Cursor.Frame) (s : Cursor.Stream) :
    let went := pushAll ((beforeEnding serde read).flatMap contents) s
    ∃ chunks s', CursorGrows went.2 chunks s' ∧
      match firstEnding serde read with
      | none => (cursorMachine serde).run read s = ⟨went.1, [], went.2, none⟩
      | some .error => chunks = [] ∧ ∃ message, (cursorMachine serde).run read s =
          ⟨went.1, [], s', some (if s'.hasContent then none else some message)⟩
      | some .turnEnded => (cursorMachine serde).run read s =
          ⟨went.1, chunks ++ s'.finish.1, s'.finish.2, some none⟩
      | some .unsupportedExec => ∃ message, (cursorMachine serde).run read s =
          ⟨went.1, chunks, s', some (some message)⟩ := by
  intro went
  have hsplit : beforeEnding serde read ++ read.dropWhile (ending serde · = none) = read :=
    List.takeWhile_append_dropWhile
  have hdrop : read.drop (beforeEnding serde read).length =
      read.dropWhile (ending serde · = none) := by
    have hleft := @List.drop_left _ (beforeEnding serde read)
      (read.dropWhile (ending serde · = none))
    rwa [hsplit] at hleft
  have hbefore : (cursorMachine serde).run (beforeEnding serde read) s =
      ⟨went.1, [], went.2, none⟩ :=
    run_of_none serde (fun frame hframe ↦
      of_decide_eq_true (List.all_eq_true.mp List.all_takeWhile frame hframe)) s
  rw [firstEnding, hdrop]
  cases hrest : read.dropWhile (ending serde · = none) with
  | nil =>
    rw [hrest, List.append_nil] at hsplit
    refine ⟨[], went.2, .refl _, ?_⟩
    rw [List.head?_nil, Option.bind_none, ← hsplit]
    exact hbefore
  | cons frame rest =>
    have hframe : ending serde frame ≠ none := by
      have hnot := @List.head_dropWhile_not _ (fun frame ↦ decide (ending serde frame = none)) read
        (by rw [hrest]; exact List.cons_ne_nil _ _)
      simp only [hrest, List.head_cons, decide_eq_false_iff_not] at hnot
      exact hnot
    obtain ⟨how, hhow⟩ := Option.ne_none_iff_exists'.mp hframe
    have hrun {outputs : List Json} {s' : Cursor.Stream} {ended : Option String}
        (hhandle : (cursorMachine serde).handle frame went.2 = ⟨outputs, s', some ended⟩) :
        (cursorMachine serde).run read s = ⟨went.1, outputs, s', some ended⟩ := by
      rw [← hsplit, hrest, FrameMachine.run_append, hbefore]
      simp only [Option.isSome_none, Bool.false_eq_true, if_false, FrameMachine.run, hhandle,
        Option.isSome_some, if_true]
      rw [Ran.prepend]
      simp only [List.append_nil]
    obtain ⟨chunks, s', hgrows, hhandle⟩ := handle_of_some serde hhow went.2
    refine ⟨chunks, s', hgrows, ?_⟩
    rw [List.head?_cons, Option.bind_some, hhow]
    cases how with
    | error =>
      obtain ⟨hnil, message, hhandle⟩ := hhandle
      exact ⟨hnil, message, hrun hhandle⟩
    | turnEnded => exact hrun hhandle
    | unsupportedExec =>
      obtain ⟨message, hhandle⟩ := hhandle
      exact ⟨message, hrun hhandle⟩

private theorem byteLength_nil : byteLength [] = 0 := rfl

private theorem byteLength_pos {text : List Char} (h : text ≠ []) : 0 < byteLength text := by
  cases text with
  | nil => exact absurd rfl h
  | cons c text =>
    rw [byteLength, List.map_cons, List.sum_cons]
    exact Nat.add_pos_left (Char.utf8Size_pos c) _

private theorem pushAll_eq_nil_iff {carried : List Cursor.Decoded} {s : Cursor.Stream}
    (hopened : s.opened = false) (hemitted : s.emittedVisible = 0)
    (hvisible : visibleAfterThink s.thinking = []) :
    (pushAll carried s).1 = [] ↔ silent s.composer s.thinking carried = true := by
  induction carried generalizing s with
  | nil => exact ⟨fun _ ↦ rfl, fun _ ↦ rfl⟩
  | cons first rest ih =>
    obtain ⟨text, thinking, toolCall⟩ := first
    rw [pushAll, List.append_eq_nil_iff, silent]
    cases toolCall with
    | some call =>
      simp [Cursor.Stream.push, Cursor.Stream.pushCall]
    | none =>
      cases text with
      | some text => simp [Cursor.Stream.push]
      | none =>
        cases thinking with
        | none => simp [Cursor.Stream.push, ih hopened hemitted hvisible, hvisible]
        | some thinking =>
          simp only [Cursor.Stream.push, Option.elim_none, Option.elim_some, List.nil_append,
            Option.isNone_none, Bool.true_and, Option.getD_some, Option.isNone_some,
            Bool.false_and]
          by_cases hcomposer : s.composer = true
          · by_cases hshown : visibleAfterThink (s.thinking ++ thinking.toList) = []
            · have hpushed : s.pushThinking thinking =
                  ([], { s with thinking := s.thinking ++ thinking.toList }) := by
                rw [Cursor.Stream.pushThinking, if_pos hcomposer]
                simp only [hshown, hemitted, byteLength_nil, Nat.lt_irrefl, if_false]
              have hrest := @ih { s with thinking := s.thinking ++ thinking.toList } hopened
                hemitted hshown
              rw [hpushed, if_pos hcomposer, hshown, hrest, hcomposer]
              simp only [true_and, List.isEmpty_nil, Bool.true_and]
            · have hpushed : (s.pushThinking thinking).1 ≠ [] := by
                have hlength := byteLength_pos hshown
                rw [Cursor.Stream.pushThinking, if_pos hcomposer]
                simp only [hemitted, hlength, if_true, dropBytes, Option.getD_some, hshown,
                  if_false]
                exact List.cons_ne_nil _ _
              rw [if_pos hcomposer, List.isEmpty_eq_false_iff.mpr hshown]
              simp only [hpushed, false_and, Bool.false_and, Bool.false_eq_true]
          · have hpushed : (s.pushThinking thinking).1 ≠ [] := by
              rw [Cursor.Stream.pushThinking, if_neg hcomposer]
              exact List.cons_ne_nil _ _
            rw [if_neg hcomposer]
            simp only [hpushed, false_and, Bool.false_eq_true]

private theorem cursor_run_of_unbroken {model : String} {bytes : List Nat}
    (h : cursorUnbroken serde flate model bytes = true) (id : String) (created : Nat) :
    let ran := (cursorMachine serde).run (frames flate (bytes.map UInt8.ofNat)).1
      (Cursor.Stream.new id created model)
    (ran.ended.join.isSome = true → ran.before = []) ∧
      terminals ((if ran.ended.join.isSome then [] else ran.outputs) ++ ran.state.finish.1) = 1 := by
  rw [cursorUnbroken] at h
  simp only at h ⊢
  have hgrows := cursorGrows_pushAll ((beforeEnding serde
    (frames flate (bytes.map UInt8.ofNat)).1).flatMap contents) (Cursor.Stream.new id created model)
  have hsilent := @pushAll_eq_nil_iff ((beforeEnding serde
    (frames flate (bytes.map UInt8.ofNat)).1).flatMap contents) (Cursor.Stream.new id created model)
    rfl rfl rfl
  obtain ⟨chunks, s', hlast, hrun⟩ := cursor_run serde (frames flate (bytes.map UInt8.ofNat)).1
    (Cursor.Stream.new id created model)
  generalize pushAll ((beforeEnding serde (frames flate (bytes.map UInt8.ofNat)).1).flatMap
    contents) (Cursor.Stream.new id created model) = went at hgrows hsilent hlast hrun
  have hcounted (later : List Json) : terminals (went.1 ++ later) = terminals later := by
    rw [terminals_append, hgrows.terminals, Nat.zero_add]
  cases hfirst : firstEnding serde (frames flate (bytes.map UInt8.ofNat)).1 with
  | none =>
    simp only [hfirst] at hrun
    simp only [hrun, Ran.outputs, Option.join_none, Option.isSome_none, Bool.false_eq_true,
      if_false, List.append_nil, hcounted, terminals_finish]
    exact ⟨fun hfalse ↦ hfalse.elim, trivial⟩
  | some how =>
    simp only [hfirst] at hrun h
    cases how with
    | error =>
      obtain ⟨rfl, message, hrun⟩ := hrun
      cases hcontent : s'.hasContent with
      | true =>
        simp only [hrun, hcontent, if_true, Ran.outputs, Option.join_some, Option.isSome_none,
          Bool.false_eq_true, if_false, List.append_nil, hcounted, terminals_finish]
        exact ⟨fun hfalse ↦ hfalse.elim, trivial⟩
      | false =>
        have hnil : went.1 = [] := by
          by_contra hsome
          have hopened := hlast.opened (.inl (hgrows.opened (.inr hsome)))
          rw [Cursor.Stream.hasContent, hopened, Bool.true_or] at hcontent
          cases hcontent
        simp only [hrun, hcontent, Bool.false_eq_true, if_false, Option.join_some,
          Option.isSome_some, if_true, List.nil_append, terminals_finish, hnil]
        exact ⟨fun _ ↦ trivial, trivial⟩
    | turnEnded => cases h
    | unsupportedExec =>
      obtain ⟨message, hrun⟩ := hrun
      simp only [hrun, Option.join_some, Option.isSome_some, if_true, List.nil_append,
        terminals_finish, hsilent.mpr h]
      exact ⟨fun _ ↦ trivial, trivial⟩

/-- A stream is unbroken if it has at most one terminal chunk when it is read at once, and what
comes before a fatal frame then. -/
private theorem cursorUnbroken_of_relayed {model : String} {bytes : List Nat} (id : String)
    (created : Nat)
    (honce :
      let ran := (cursorMachine serde).run (frames flate (bytes.map UInt8.ofNat)).1
        (Cursor.Stream.new id created model)
      terminals ((if ran.ended.join.isSome then [] else ran.outputs) ++ ran.state.finish.1) ≤ 1)
    (hkeeps :
      let ran := (cursorMachine serde).run (frames flate (bytes.map UInt8.ofNat)).1
        (Cursor.Stream.new id created model)
      ran.ended.join.isSome = true →
        ran.before <+: (if ran.ended.join.isSome then [] else ran.outputs) ++ ran.state.finish.1) :
    cursorUnbroken serde flate model bytes = true := by
  have hsilent := @pushAll_eq_nil_iff ((beforeEnding serde
    (frames flate (bytes.map UInt8.ofNat)).1).flatMap contents) (Cursor.Stream.new id created model)
    rfl rfl rfl
  have hgrows := cursorGrows_pushAll ((beforeEnding serde
    (frames flate (bytes.map UInt8.ofNat)).1).flatMap contents) (Cursor.Stream.new id created model)
  obtain ⟨chunks, s', hlast, hrun⟩ := cursor_run serde (frames flate (bytes.map UInt8.ofNat)).1
    (Cursor.Stream.new id created model)
  generalize pushAll ((beforeEnding serde (frames flate (bytes.map UInt8.ofNat)).1).flatMap
    contents) (Cursor.Stream.new id created model) = went at hgrows hsilent hlast hrun
  rw [cursorUnbroken]
  cases hfirst : firstEnding serde (frames flate (bytes.map UInt8.ofNat)).1 with
  | none => rfl
  | some how =>
    simp only [hfirst] at hrun
    cases how with
    | error => rfl
    | turnEnded =>
      simp only [hrun, Option.join_some, Option.isSome_none, Bool.false_eq_true, if_false,
        Ran.outputs, terminals_append, hgrows.terminals, hlast.terminals, terminals_finish] at honce
      omega
    | unsupportedExec =>
      obtain ⟨message, hrun⟩ := hrun
      simp only [hrun, Option.join_some, Option.isSome_some, if_true, List.nil_append,
        forall_const] at hkeeps
      refine hsilent.mp ?_
      by_contra hsome
      have hcontent : s'.hasContent = true := by
        rw [Cursor.Stream.hasContent, hlast.opened (.inl (hgrows.opened (.inr hsome))),
          Bool.true_or]
      -- a reply that has been opened ends in its terminal chunk alone, and no chunk before is that
      rw [Cursor.Stream.finish, hcontent, if_pos rfl, List.nil_append] at hkeeps
      obtain ⟨later, hlater⟩ := hkeeps
      have hcount := congrArg terminals hlater
      obtain ⟨chunk, rest, hchunk⟩ := List.exists_cons_of_ne_nil hsome
      rw [hchunk, List.cons_append, List.cons.injEq, List.append_eq_nil_iff] at hlater
      rw [terminals_append, hgrows.terminals, hlater.2.2, Cursor.Stream.chunk,
        terminals_buildChunk] at hcount
      cases hcount

/-- Cursor's stream is relayed alike however it is cut exactly where it is unbroken. -/
theorem cursor_cutAlike_iff (model : String) (bytes : List Nat) :
    CutAlike (cursorDecoder serde flate) (connectReader flate) (cursorMachine serde) model bytes ↔
      cursorUnbroken serde flate model bytes = true := by
  constructor
  · intro h
    have honce := h.at_most_one "" 0 [bytes] List.flatten_singleton
    have hkeeps := h.keeps "" 0 [bytes] List.flatten_singleton
    rw [relayed_singleton (cursor_framed serde flate), cursor_runBuffer] at honce hkeeps
    exact cursorUnbroken_of_relayed serde flate "" 0 honce hkeeps
  · intro h
    refine cutAlike_of_framed (cursor_framed serde flate) (fun id created ↦ ?_)
      (fun id created ↦ ?_)
    · rw [cursor_runBuffer]
      exact (cursor_run_of_unbroken serde flate h id created).1
    · rw [cursor_runBuffer]
      exact (cursor_run_of_unbroken serde flate h id created).2

/-- A binary stream is relayed alike however it is cut: Kiro's always, Cursor's exactly where it is
unbroken. -/
theorem binary_streams_cutAlike_iff (model : String) (bytes : List Nat) :
    CutAlike (kiroDecoder serde) (Kiro.eventReader serde) (kiroMachine serde) model bytes ∧
      (CutAlike (cursorDecoder serde flate) (connectReader flate) (cursorMachine serde) model bytes ↔
        cursorUnbroken serde flate model bytes = true) :=
  ⟨kiro_cutAlike serde model bytes, cursor_cutAlike_iff serde flate model bytes⟩

end Cursor

/-- A frame of the agent service with the text `hi`. -/
def hiFrame : List Nat := [0, 0, 0, 0, 8, 0x0A, 6, 0x0A, 4, 0x0A, 2, 104, 105]

/-- A frame of the agent service that asks for a tool. -/
def toolFrame : List Nat := [0, 0, 0, 0, 2, 0x12, 0]

/-- A text is relayed alike however it is cut. -/
theorem text_is_cutAlike :
    CutAlike (cursorDecoder Kiro.emptyObject Cursor.plainFlate)
      (Cursor.connectReader Cursor.plainFlate) (cursorMachine Kiro.emptyObject) "gpt-5" hiFrame :=
  (binary_streams_cutAlike_iff Kiro.emptyObject Cursor.plainFlate "gpt-5" hiFrame).2.mpr
    (by decide +kernel)

/-- A text that comes in one read with a frame that asks for a tool is lost. -/
theorem text_before_tool_is_lost :
    ¬ ∀ (serde : Kiro.SerdeJson) (flate : Cursor.Flate2) (model : String) (bytes : List Nat),
      CutAlike (cursorDecoder serde flate) (Cursor.connectReader flate) (cursorMachine serde) model
        bytes := by
  intro h
  have hunbroken := (binary_streams_cutAlike_iff Kiro.emptyObject Cursor.plainFlate "gpt-5"
    (hiFrame ++ toolFrame)).2.mp (h _ _ _ _)
  have hbroken : cursorUnbroken Kiro.emptyObject Cursor.plainFlate "gpt-5"
      (hiFrame ++ toolFrame) = false := by decide +kernel
  rw [hbroken] at hunbroken
  cases hunbroken

end NullRouter.Stream
