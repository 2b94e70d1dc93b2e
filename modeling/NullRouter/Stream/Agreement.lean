import NullRouter.Stream.Collapse

/-!
# Streamed and collapsed replies

When the reply of `collapse_stream_to_json` (`crates/execute/src/stream.rs:626`) says what an
OpenAI client puts together from the frames of `pipe_stream` (`stream.rs:115`) or
`pipe_binary_stream` (`stream.rs:237`) for the same reads of the same upstream.
-/

namespace NullRouter.Stream

open NullRouter.Base NullRouter.Translate

/-- A value that is printed on one line, without spaces around it, and reads back. -/
structure JsonText.Prints (text : JsonText) (v : Json) : Prop where
  read : text.read (text.print v).toList = some v
  printed : ∀ c ∈ (text.print v).toList, 0x20 ≤ c.toNat
  trimmed : trimChars (text.print v).toList = (text.print v).toList
  not_done : (text.print v).toList ≠ "[DONE]".toList

/-! ## Reading frames -/

variable {text : JsonText}

theorem splitLines_line {line : List Char} (h : '\n' ∉ line) (rest : List Char) :
    splitLines (line ++ '\n' :: rest) = (line :: (splitLines rest).1, (splitLines rest).2) := by
  induction line with
  | nil => simp [splitLines]
  | cons c line ih =>
    rw [List.mem_cons, not_or] at h
    rw [List.cons_append, splitLines, ih h.2, if_neg (Ne.symm h.1)]

theorem stripReturn_of_not_mem {line : List Char} (h : '\r' ∉ line) : stripReturn line = line := by
  rw [stripReturn, if_neg fun hlast ↦ h (List.mem_of_getLast? hlast)]

/-- A frame makes one line, and one that is empty. -/
theorem push_dataFrame {v : Json} (h : text.Prints v) :
    LineBuffer.new.push (dataFrame text.print v).toList =
      (.new, ["data: ".toList ++ (text.print v).toList, []]) := by
  have hcontrol (c : Char) (hc : c.toNat < 0x20) :
      c ∉ "data: ".toList ++ (text.print v).toList := by
    intro hmem
    rcases List.mem_append.mp hmem with hmem | hmem
    · have hall : "data: ".toList.all (fun c ↦ 0x20 ≤ c.toNat) := by decide
      have hge := of_decide_eq_true (List.all_eq_true.mp hall c hmem)
      omega
    · exact absurd (h.printed c hmem) (by omega)
  have hframe : (dataFrame text.print v).toList =
      ("data: ".toList ++ (text.print v).toList) ++ '\n' :: ([] ++ '\n' :: []) := by
    simp [dataFrame, String.toList_append]
  rw [hframe, LineBuffer.push, LineBuffer.new, List.nil_append,
    splitLines_line (hcontrol _ (by decide)), splitLines_line (by simp)]
  simp only [splitLines, List.map_cons, List.map_nil]
  rw [stripReturn_of_not_mem (hcontrol _ (by decide))]
  rfl

/-- The line of a frame carries the frame's value. -/
theorem payload?_dataFrame {v : Json} (h : text.Prints v) :
    payload? text .sse ("data: ".toList ++ (text.print v).toList) = some v := by
  have htrim : trimChars (' ' :: (text.print v).toList) = (text.print v).toList := by
    rw [trimChars, List.dropWhile_cons_of_pos (by decide), ← trimChars, h.trimmed]
  have hstrip : stripChars? "data:" ("data: ".toList ++ (text.print v).toList) =
      some (' ' :: (text.print v).toList) := by
    simp [stripChars?, List.isPrefixOf?]
  rw [payload?, parseLine, if_neg (by simp), hstrip, Option.bind_some, htrim, if_neg h.not_done,
    h.read]
  rfl

theorem payload?_doneFrame : payload? text .sse "data: [DONE]".toList = none := by
  have hstrip : stripChars? "data:" "data: [DONE]".toList = some " [DONE]".toList := by decide
  rw [payload?, parseLine, if_neg (by decide), hstrip, Option.bind_some, if_pos (by decide)]

/-- The lines of a frame. -/
def frameLines (text : JsonText) (chunk : Json) : List (List Char) :=
  ["data: ".toList ++ (text.print chunk).toList, []]

theorem pushAll_frames {chunks : List Json} (h : ∀ chunk ∈ chunks, text.Prints chunk) :
    LineBuffer.new.pushAll ((chunks.map (dataFrame text.print) ++ [doneFrame]).map String.toList) =
      (.new, chunks.flatMap (frameLines text) ++ ["data: [DONE]".toList, []]) := by
  induction chunks with
  | nil =>
    simp only [List.map_nil, List.nil_append, List.flatMap_nil]
    decide
  | cons chunk chunks ih =>
    rw [List.map_cons, List.cons_append, List.map_cons, LineBuffer.pushAll,
      push_dataFrame (h chunk (by simp)), ih fun c hc ↦ h c (by simp [hc])]
    rfl

theorem filterMap_frameLines {chunks : List Json} (h : ∀ chunk ∈ chunks, text.Prints chunk) :
    (chunks.flatMap (frameLines text)).filterMap (payload? text .sse) = chunks := by
  induction chunks with
  | nil => rfl
  | cons chunk chunks ih =>
    rw [List.flatMap_cons, List.filterMap_append, ih fun c hc ↦ h c (by simp [hc]), frameLines,
      List.filterMap_cons, payload?_dataFrame (h chunk (by simp))]
    rfl

/-- What a client reads of a streamed reply, all its frames taken together. -/
def readFrames (text : JsonText) (frames : List String) : List Json :=
  payloads text .sse (frames.flatMap String.toList)

/-- It reads the values that were framed. -/
theorem readFrames_dataFrame {chunks : List Json} (h : ∀ chunk ∈ chunks, text.Prints chunk) :
    readFrames text (chunks.map (dataFrame text.print) ++ [doneFrame]) = chunks := by
  have hflush : LineBuffer.new.flush.2 = none := by decide
  rw [readFrames, payloads, List.flatMap_def, ← LineBuffer.pushAll_new, pushAll_frames h, hflush,
    List.filterMap_append, List.filterMap_append, filterMap_frameLines h, List.filterMap_cons,
    payload?_doneFrame]
  exact (List.append_nil _).trans (List.append_nil chunks)

/-! ## Streaming to a client that takes every frame -/

/-- The sink that takes every frame. -/
def openSink : Sink := fun _ _ ↦ true

section Streams

variable {σ : Type}

/-- From one state of a pipe to another some chunks were sent. -/
structure Sends (text : JsonText) (s s' : PipeState σ) (chunks : List Json) (t : σ) : Prop where
  sent : s'.sent = s.sent ++ chunks.map (dataFrame text.print)
  translation : s'.translation = t
  clientGone : s'.clientGone = s.clientGone

theorem Sends.trans {s s' s'' : PipeState σ} {chunks chunks' : List Json} {t t' : σ}
    (h : Sends text s s' chunks t) (h' : Sends text s' s'' chunks' t') :
    Sends text s s'' (chunks ++ chunks') t' where
  sent := by rw [h'.sent, h.sent, List.map_append, List.append_assoc]
  translation := h'.translation
  clientGone := h'.clientGone.trans h.clientGone

theorem sends_deliver (collect : Bool) (chunks : List Json) (s : PipeState σ) :
    Sends text s (deliver text .openAi openSink collect chunks s) chunks s.translation := by
  induction chunks generalizing s with
  | nil => exact ⟨by simp [deliver], rfl, rfl⟩
  | cons chunk chunks ih =>
    have hfirst (summary : StreamSummary) : Sends text s
        ⟨s.translation, summary, s.sent ++ [dataFrame text.print chunk], s.clientGone⟩ [chunk]
        s.translation := ⟨rfl, rfl, rfl⟩
    cases collect with
    | true => exact (hfirst (collectText chunk s.summary)).trans (ih _)
    | false => exact (hfirst s.summary).trans (ih _)

/-- The items of a stream are sent as their translations. -/
theorem sends_emitPayload (translator : Translator σ) (items : List Json) {s : PipeState σ}
    (h : s.clientGone = false) :
    Sends text s (items.foldl (emitPayload text .openAi openSink translator) s)
      (through translator.translate items s.translation).1
      (through translator.translate items s.translation).2 := by
  induction items generalizing s with
  | nil => exact ⟨by simp [through], rfl, rfl⟩
  | cons item items ih =>
    have hfirst : Sends text s (emitPayload text .openAi openSink translator s item)
        (translator.translate item s.translation).1 (translator.translate item s.translation).2 := by
      rw [emitPayload, if_neg (by simp [h])]
      obtain ⟨hsent, htranslation, hgone⟩ := @sends_deliver text σ true
        (translator.translate item s.translation).1
        { s with translation := (translator.translate item s.translation).2 }
      exact ⟨hsent, htranslation, hgone⟩
    have hrest := ih (hfirst.clientGone.trans h)
    rw [hfirst.translation] at hrest
    exact hfirst.trans hrest

/-- At the end comes the chunk that closes the stream, and the terminator. -/
theorem sent_finish (pivot : Pivot σ) {s : PipeState σ} (h : s.clientGone = false) :
    (finish text .openAi openSink pivot.toOpenAi s).sent =
      s.sent ++ (pivot.toOpenAi.finalizeUpstream s.translation).1.map (dataFrame text.print) ++
        [doneFrame] := by
  obtain ⟨t, summary, sent, gone⟩ := s
  cases h
  obtain ⟨hsent, -, hgone⟩ := @sends_deliver text σ true (pivot.toOpenAi.finalizeUpstream t).1
    ⟨(pivot.toOpenAi.finalizeUpstream t).2, summary, sent, false⟩
  simp only [finish, Bool.false_eq_true, if_false]
  generalize deliver text .openAi openSink true (pivot.toOpenAi.finalizeUpstream t).1
    ⟨(pivot.toOpenAi.finalizeUpstream t).2, summary, sent, false⟩ = s' at hsent hgone ⊢
  simp [hgone, hsent, Pivot.toOpenAi, deliver, openSink]

/-- The OpenAI chunks of a body that streams lines. -/
def Pivot.relayed (pivot : Pivot σ) (text : JsonText) (encoding : Encoding) (reads : List Read)
    (state : σ) : List Json × σ :=
  through pivot.translate (payloads text encoding (Utf8.decodeReads (received reads))) state

/-- The chunks that close a stream after such a body. -/
def Pivot.closing (pivot : Pivot σ) (state : σ) : List Json :=
  (pivot.toOpenAi.finalizeUpstream state).1

/-- The reply to a client that speaks OpenAI's format: what the items of the body translate to,
the chunk that closes it, and the terminator. -/
theorem sent_pipeStream (pivot : Pivot σ) (encoding : Encoding) (reads : List Read) (state : σ) :
    (pipeStream text .openAi openSink pivot.toOpenAi encoding reads state).sent =
      ((pivot.relayed text encoding reads state).1 ++
        pivot.closing (pivot.relayed text encoding reads state).2).map (dataFrame text.print) ++
        [doneFrame] := by
  obtain ⟨hsent, htranslation, hgone⟩ := @sends_emitPayload text σ pivot.toOpenAi
    (payloads text encoding (Utf8.decodeReads (received reads))) ⟨state, {}, [], false⟩ rfl
  rw [pipeStream_eq, sent_finish pivot hgone, hsent, htranslation, List.map_append]
  rfl

/-! ## Collapsing the same bodies -/

theorem Collapsed.take_append (c : Collapsed) (chunks chunks' : List Json) :
    c.take (chunks ++ chunks') = (c.take chunks).take chunks' := List.foldl_append

theorem collapseLoop_spec (pivot : Pivot σ) (encoding : Encoding) (reads : List Read)
    (buffer : LineBuffer) (c : Collapsed × σ) :
    collapseLoop text pivot encoding reads buffer c =
      ((buffer.pushAll ((received reads).map Utf8.lossy)).1,
        (buffer.pushAll ((received reads).map Utf8.lossy)).2.foldl
          (collapseLine text pivot encoding) c) := by
  induction reads generalizing buffer c with
  | nil => rfl
  | cons read reads ih =>
    cases read with
    | none => rfl
    | some bytes =>
      rw [collapseLoop, ih, received, List.map_cons, LineBuffer.pushAll, List.foldl_append]

theorem foldl_collapseLine (pivot : Pivot σ) (encoding : Encoding) (lines : List (List Char))
    (c : Collapsed × σ) : lines.foldl (collapseLine text pivot encoding) c =
      (c.1.take (through pivot.translate (lines.filterMap (payload? text encoding)) c.2).1,
        (through pivot.translate (lines.filterMap (payload? text encoding)) c.2).2) := by
  induction lines generalizing c with
  | nil => rfl
  | cons line lines ih =>
    rw [List.foldl_cons, ih, List.filterMap_cons, collapseLine]
    cases payload? text encoding line with
    | none => rfl
    | some payload => simp [through, Collapsed.take]

/-- Collapsing a body takes the chunks that streaming it relays. -/
theorem collapseLines_eq (pivot : Pivot σ) (encoding : Encoding) (reads : List Read) (state : σ) :
    collapseLines text pivot encoding reads state =
      (({} : Collapsed).take (pivot.relayed text encoding reads state).1,
        (pivot.relayed text encoding reads state).2) := by
  rw [collapseLines, collapseLoop_spec, ← List.foldl_append, foldl_collapseLine,
    LineBuffer.pushAll_new, ← List.flatMap_def]
  rfl

end Streams

section Binary

variable {δ : Type} (decoder : BinaryDecoder δ)

theorem sends_relay (chunks : List Json) (s : PipeState StreamState) :
    Sends text s (relay text .openAi openSink chunks s) chunks s.translation :=
  sends_deliver true chunks s

/-- What the steps of a body are after one more read, where none of them is fatal. -/
theorem binarySteps_cons {bytes : List Nat} {reads : List Read} {pending : List Nat} {d : δ}
    (hfatal : ∀ step ∈ (binarySteps decoder (some bytes :: reads) pending d).1, step.fatal = none) :
    let consumed := decoder.consume (pending ++ bytes) d
    let rest := if consumed.1.stopAfter then ([], consumed.2.2)
      else binarySteps decoder reads consumed.2.1 consumed.2.2
    consumed.1.fatal = none ∧ (∀ step ∈ rest.1, step.fatal = none) ∧
      binarySteps decoder (some bytes :: reads) pending d = (consumed.1 :: rest.1, rest.2) := by
  intro consumed rest
  rw [binarySteps] at hfatal ⊢
  have hfirst : consumed.1.fatal = none := by
    split at hfatal
    · exact hfatal _ List.mem_cons_self
    · exact hfatal _ List.mem_cons_self
  have hnot : ¬ (consumed.1.fatal.isSome = true) := by simp [hfirst]
  by_cases hstop : consumed.1.stopAfter = true
  · simp only [rest, if_pos hstop]
    exact ⟨hfirst, nofun, if_pos (.inr hstop)⟩
  · have hgo : ¬ (consumed.1.fatal.isSome = true ∨ consumed.1.stopAfter = true) := by
      simp [hnot, hstop]
    rw [if_neg hgo] at hfatal ⊢
    simp only [rest, if_neg hstop]
    exact ⟨hfirst, fun step hstep ↦ hfatal step (List.mem_cons_of_mem _ hstep), rfl⟩

/-- Where no step is fatal the pipe relays the chunks of the steps. -/
theorem binaryLoop_spec (reads : List Read) (pending : List Nat) (d : δ)
    (s : PipeState StreamState) (h : s.clientGone = false)
    (hfatal : ∀ step ∈ (binarySteps decoder reads pending d).1, step.fatal = none) :
    (binaryLoop decoder text .openAi openSink reads pending d s).1 =
        (binarySteps decoder reads pending d).2 ∧
      Sends text s (binaryLoop decoder text .openAi openSink reads pending d s).2
        ((binarySteps decoder reads pending d).1.flatMap BinaryStep.chunks) s.translation := by
  induction reads generalizing pending d s with
  | nil => exact ⟨rfl, by simp [binaryLoop, binarySteps], rfl, rfl⟩
  | cons read reads ih =>
    cases read with
    | none => exact ⟨rfl, by simp [binaryLoop, binarySteps], rfl, rfl⟩
    | some bytes =>
      obtain ⟨hfirst, hrest, hsteps⟩ := binarySteps_cons decoder hfatal
      rw [hsteps, binaryLoop, hfirst, List.flatMap_cons]
      have hsends := @sends_relay text (decoder.consume (pending ++ bytes) d).1.chunks s
      have hgone := hsends.clientGone.trans h
      by_cases hstop : (decoder.consume (pending ++ bytes) d).1.stopAfter = true
      · simp only [hstop, if_true, true_or, List.flatMap_nil, List.append_nil, true_and]
        exact hsends
      · simp only [hstop, hgone, Bool.false_eq_true, or_false, if_false] at hrest ⊢
        obtain ⟨hdecoder, hsent⟩ := ih _ _ _ hgone hrest
        refine ⟨hdecoder, hsends.trans ?_⟩
        rwa [hsends.translation] at hsent

/-- Collapsing takes them. -/
theorem collapseBinaryLoop_spec (reads : List Read) (pending : List Nat) (d : δ) (c : Collapsed)
    (hfatal : ∀ step ∈ (binarySteps decoder reads pending d).1, step.fatal = none) :
    collapseBinaryLoop decoder reads pending d c =
      ((binarySteps decoder reads pending d).2,
        c.take ((binarySteps decoder reads pending d).1.flatMap BinaryStep.chunks)) := by
  induction reads generalizing pending d c with
  | nil => rfl
  | cons read reads ih =>
    cases read with
    | none => rfl
    | some bytes =>
      obtain ⟨-, hrest, hsteps⟩ := binarySteps_cons decoder hfatal
      rw [hsteps, collapseBinaryLoop, List.flatMap_cons, Collapsed.take_append]
      by_cases hstop : (decoder.consume (pending ++ bytes) d).1.stopAfter = true
      · simp only [hstop, if_true]
        rfl
      · simp only [hstop, Bool.false_eq_true, if_false] at hrest ⊢
        exact ih _ _ _ hrest

/-- The OpenAI chunks of a binary body. -/
def BinaryDecoder.relayed (model : String) (reads : List Read) (state : StreamState) : List Json :=
  let steps := binarySteps decoder reads [] (decoder.start model state).1
  steps.1.flatMap BinaryStep.chunks ++ (decoder.finish steps.2).1

/-- The reply to a client that speaks OpenAI's format, where no step is fatal. -/
theorem sent_pipeBinaryStream (model : String) (reads : List Read) (state : StreamState)
    (hfatal : ∀ step ∈ (binarySteps decoder reads [] (decoder.start model state).1).1,
      step.fatal = none) :
    (pipeBinaryStream decoder text .openAi openSink model reads state).sent =
      (decoder.relayed model reads state).map (dataFrame text.print) ++ [doneFrame] := by
  obtain ⟨hdecoder, hlooped⟩ := @binaryLoop_spec text δ decoder reads []
    (decoder.start model state).1 ⟨(decoder.start model state).2, {}, [], false⟩ rfl hfatal
  have hlast := hlooped.trans (sends_relay (decoder.finish
    (binarySteps decoder reads [] (decoder.start model state).1).2).1 _)
  have hgone := hlast.clientGone
  have hsent := hlast.sent
  simp only [pipeBinaryStream, hdecoder, hlooped.clientGone, Bool.false_eq_true, if_false] at hsent ⊢
  simp [finalizeResponse, deliver, openSink, hgone, hsent, BinaryDecoder.relayed]

/-- Collapsing such a body takes the chunks that streaming it relays. -/
theorem collapseBinaryBody_eq (model : String) (reads : List Read) (state : StreamState)
    (hfatal : ∀ step ∈ (binarySteps decoder reads [] (decoder.start model state).1).1,
      step.fatal = none) :
    collapseBinaryBody decoder model reads state =
      (({} : Collapsed).take (decoder.relayed model reads state),
        (decoder.start model state).2) := by
  rw [collapseBinaryBody, collapseBinaryLoop_spec decoder _ _ _ _ hfatal, BinaryDecoder.relayed,
    Collapsed.take_append]

end Binary

/-! ## Answers -/

/-- What a reply says. -/
structure Answer where
  text : String
  reasoning : String
  toolCalls : List ToolCall
  finishReason : Option String
  deriving DecidableEq

/-- What a client puts together from the chunks of a streamed reply. -/
def Answer.ofChunks (chunks : List Json) : Answer where
  text := String.join (chunks.map (chunkText "content"))
  reasoning := String.join (chunks.map (chunkText "reasoning_content"))
  toolCalls := clientCalls (chunks.flatMap chunkCalls)
  finishReason := (chunks.filterMap chunkFinish).getLast?

/-- What is gathered of a stream, as an answer. -/
def Collapsed.answer (c : Collapsed) : Answer :=
  ⟨c.text, c.reasoning, c.toolCalls.map ToolCall.read, some c.resolvedFinish⟩

/-- What a client reads of a reply that is one JSON value. -/
def Answer.ofReply (reply : Json) : Answer :=
  let message := reply.pointer ["choices", "0", "message"]
  { text := (message.bind (·.strField "content")).getD ""
    reasoning := (message.bind (·.strField "reasoning_content")).getD ""
    toolCalls := (((message.bind (·.get "tool_calls")).bind Json.asArray).getD []).map ToolCall.read
    finishReason := (reply.pointer ["choices", "0", "finish_reason"]).bind Json.asStr }

/-- What is gathered of the chunks of a stream. -/
theorem take_fields (chunks : List Json) (c : Collapsed) :
    (c.take chunks).text = (chunks.map (chunkText "content")).foldl (· ++ ·) c.text ∧
      (c.take chunks).reasoning =
        (chunks.map (chunkText "reasoning_content")).foldl (· ++ ·) c.reasoning ∧
      (c.take chunks).toolCalls = mergeToolCalls c.toolCalls (chunks.flatMap chunkCalls) ∧
      (c.take chunks).finishReason = (chunks.filterMap chunkFinish).getLast?.or c.finishReason := by
  induction chunks generalizing c with
  | nil => exact ⟨rfl, rfl, rfl, rfl⟩
  | cons chunk chunks ih =>
    obtain ⟨htext, hreasoning, hcalls, hfinish⟩ := ih (c.takeChunk chunk)
    refine ⟨htext, hreasoning, hcalls.trans ?_, hfinish.trans ?_⟩
    · rw [List.flatMap_cons, mergeToolCalls, mergeToolCalls, List.foldl_append]
      rfl
    · rw [List.filterMap_cons, Collapsed.takeChunk]
      cases chunkFinish chunk with
      | none => rfl
      | some reason =>
        rw [List.getLast?_cons, Option.some_or]
        cases (chunks.filterMap chunkFinish).getLast? <;> rfl

/-- The fields of the first choice of a reply or a chunk. -/
theorem pointer_choice {v : Json} {choice : List (String × Json)}
    (h : v.get "choices" = some (.arr [Json.object choice])) (key : String) :
    v.pointer ["choices", "0", key] = (Json.object choice).get key := by
  have hindex : Json.indexToken "0" = some 0 := by decide
  cases v with
  | obj fields =>
    change ((fields.lookup "choices").bind (·.token? "0")).bind (·.token? key) = _
    rw [Json.get] at h
    rw [h, Option.bind_some, Json.token?, hindex]
    rfl
  | _ => cases h

/-- The message says what was gathered. -/
theorem message_fields (c : Collapsed) :
    (c.message.strField "content").getD "" = c.text ∧
      (c.message.strField "reasoning_content").getD "" = c.reasoning ∧
      ((c.message.get "tool_calls").bind Json.asArray).getD [] = c.toolCalls := by
  unfold Json.strField Collapsed.message
  simp only [Json.get_object]
  refine ⟨?_, ?_, ?_⟩
  · split <;> split <;> rfl
  · split
    · next h => split <;> exact (String.isEmpty_iff.mp h).symm
    · split <;> rfl
  · split <;> split
    · next h => exact (List.isEmpty_iff.mp h).symm
    · rfl
    · next h => exact (List.isEmpty_iff.mp h).symm
    · rfl

/-- The reply says what was gathered, and is no error. -/
theorem ofReply_envelope (c : Collapsed) (model : String) (s : StreamState) :
    Answer.ofReply (c.envelope model s) = c.answer ∧ (c.envelope model s).get "error" = none := by
  have hfield {key : String} (hkey : key ≠ "usage") : (c.envelope model s).get key =
      [("choices", Json.arr [Json.object [("index", Json.nat 0), ("message", c.message),
        ("finish_reason", .str c.resolvedFinish)]]), ("model", .str model),
        ("created", Json.nat s.nowSeconds.1), ("object", .str "chat.completion"),
        ("id", .str ("chatcmpl-" ++ s.messageId.getD ""))].lookup key := by
    rw [Collapsed.envelope, Json.get_object, List.reverse_append, List.lookup_append]
    cases s.usage.or c.scrapedUsage with
    | none => rfl
    | some usage => simp [List.lookup_cons, beq_false_of_ne hkey]
  obtain ⟨htext, hreasoning, hcalls⟩ := message_fields c
  refine ⟨?_, hfield (by decide)⟩
  have hmessage : (c.envelope model s).pointer ["choices", "0", "message"] = some c.message :=
    (pointer_choice (hfield (by decide)) _).trans (Json.get_object ..)
  have hfinish : (c.envelope model s).pointer ["choices", "0", "finish_reason"] =
      some (.str c.resolvedFinish) :=
    (pointer_choice (hfield (by decide)) _).trans (Json.get_object ..)
  simp only [Answer.ofReply, hmessage, hfinish, Option.bind_some, htext, hreasoning, hcalls]
  rfl

/-! ## Agreement -/

/-- An item by which an upstream reports an error. -/
def reportsError (item : Json) : Bool :=
  (item.get "error").any (!·.isNull) || item.strField "type" == some "error"

namespace Upstream

variable {σ δ : Type} (text : JsonText) (model : String) (reads : List Read)

/-- The frames that a client gets which speaks OpenAI's format. -/
def frames : Upstream σ δ → List String
  | .lines pivot encoding state =>
    (pipeStream text .openAi openSink pivot.toOpenAi encoding reads state).sent
  | .binary decoder state => (pipeBinaryStream decoder text .openAi openSink model reads state).sent

/-- The OpenAI chunks of the stream. -/
def relayed : Upstream σ δ → List Json
  | .lines pivot encoding state => (pivot.relayed text encoding reads state).1
  | .binary decoder state => decoder.relayed model reads state

/-- The chunks that the pipe closes it with. -/
def closing : Upstream σ δ → List Json
  | .lines pivot encoding state => pivot.closing (pivot.relayed text encoding reads state).2
  | .binary _ _ => []

/-- Whether the pipe closes it, since the format never says that it finished. -/
def closes : Upstream σ δ → Bool
  | .lines pivot _ _ => pivot.finish.isSome
  | .binary _ _ => false

/-- The stream ends in a fatal error: its last item reports one, or a step of the decoder is
fatal. -/
def failed : Upstream σ δ → Bool
  | .lines _ encoding _ =>
    (payloads text encoding (Utf8.decodeReads (received reads))).getLast?.any reportsError
  | .binary decoder state =>
    (binarySteps decoder reads [] (decoder.start model state).1).1.any (·.fatal.isSome)

/-- The collapsed reply says what the streamed one does, and is an error where the stream ends in
a fatal one. -/
def Agrees (upstream : Upstream σ δ) : Prop :=
  let reply := collapseStreamToJson text model reads upstream
  Answer.ofReply reply = Answer.ofChunks (readFrames text (upstream.frames text model reads)) ∧
    (upstream.failed text model reads = true → (reply.get "error").isSome)

end Upstream

/-- The stream names its finish reason, "stop" where the pipe closes it with that; or it has no
tool call and the pipe closes it. -/
def Finished (closes : Bool) (chunks : List Json) : Prop :=
  match (chunks.filterMap chunkFinish).getLast? with
  | some reason => closes = true → reason = "stop"
  | none => closes = true ∧ chunks.flatMap chunkCalls = []

/-- The deltas of every index merge without loss. -/
def AllMergeable (deltas : List Json) : Prop :=
  ∀ index, Mergeable (deltas.filter (indexOf · = index))

theorem closingChunk_fields (identity : ChunkMeta) (fingerprint : Option String) :
    chunkDelta (closingChunk identity fingerprint) = some (Json.object []) ∧
      chunkFinish (closingChunk identity fingerprint) = some "stop" := by
  have hchoices : (closingChunk identity fingerprint).get "choices" =
      some (.arr [Json.object [("index", Json.nat 0), ("delta", Json.object []),
        ("finish_reason", .str "stop")]]) := by
    cases fingerprint with
    | none => exact Json.get_object ..
    | some fingerprint =>
      exact (Json.lookup_insertField_of_ne (by decide)).trans (Json.get_object ..)
  refine ⟨(pointer_choice hchoices _).trans (Json.get_object ..), ?_⟩
  rw [chunkFinish, pointer_choice hchoices, Json.get_object]
  rfl

theorem mergeToolCalls_eq_nil {deltas : List Json} :
    mergeToolCalls [] deltas = [] ↔ deltas = [] := by
  constructor
  · intro h
    cases deltas with
    | nil => rfl
    | cons delta deltas =>
      have hle := length_clientCalls_le (delta :: deltas)
      rw [h, clientCalls_cons] at hle
      cases hle
  · rintro rfl
    rfl

/-- A closing chunk adds its finish reason to what a client has. -/
theorem ofChunks_closing (chunks : List Json) (identity : ChunkMeta)
    (fingerprint : Option String) :
    Answer.ofChunks (chunks ++ [closingChunk identity fingerprint]) =
      { Answer.ofChunks chunks with finishReason := some "stop" } := by
  obtain ⟨hdelta, hfinish⟩ := closingChunk_fields identity fingerprint
  have htext (key : String) : chunkText key (closingChunk identity fingerprint) = "" := by
    rw [chunkText, hdelta]
    rfl
  have hcalls : chunkCalls (closingChunk identity fingerprint) = [] := by
    rw [chunkCalls, hdelta]
    rfl
  simp [Answer.ofChunks, String.join, htext, hcalls, hfinish]

/-- What is gathered of a stream is what a client puts together exactly where the tool-call deltas
merge without loss and the stream is finished. -/
theorem answer_take_iff {closing chunks : List Json} {closes : Bool}
    (hclosing : closes = false ∧ closing = [] ∨ closes = true ∧
      ∃ identity fingerprint, closing = [closingChunk identity fingerprint]) :
    (({} : Collapsed).take chunks).answer = Answer.ofChunks (chunks ++ closing) ↔
      AllMergeable (chunks.flatMap chunkCalls) ∧ Finished closes chunks := by
  obtain ⟨htext, hreasoning, hcalls, hfinish⟩ := take_fields chunks {}
  have hanswer : Answer.ofChunks (chunks ++ closing) = { Answer.ofChunks chunks with
      finishReason := if closes then some "stop" else (chunks.filterMap chunkFinish).getLast? } := by
    obtain ⟨rfl, rfl⟩ | ⟨rfl, identity, fingerprint, rfl⟩ := hclosing
    · rw [List.append_nil]
      rfl
    · exact ofChunks_closing ..
  have hempty : (({} : Collapsed).take chunks).toolCalls.isEmpty = true ↔
      chunks.flatMap chunkCalls = [] := by
    rw [hcalls, List.isEmpty_iff]
    exact mergeToolCalls_eq_nil
  have hresolved : some (({} : Collapsed).take chunks).resolvedFinish =
      (if closes then some "stop" else (chunks.filterMap chunkFinish).getLast?) ↔
        Finished closes chunks := by
    rw [Collapsed.resolvedFinish, hfinish, Finished]
    cases (chunks.filterMap chunkFinish).getLast? with
    | some reason => cases closes <;> simp
    | none => cases closes <;> simp [hempty]
  rw [hanswer, Collapsed.answer, Answer.mk.injEq, hresolved, hcalls, AllMergeable,
    ← mergeToolCalls_read_iff]
  exact ⟨fun h ↦ h.2.2, fun h ↦ ⟨htext, hreasoning, h⟩⟩

namespace Upstream

variable {σ δ : Type} {text : JsonText} {model : String} {reads : List Read}

theorem closing_cases (upstream : Upstream σ δ) :
    upstream.closes = false ∧ upstream.closing text reads = [] ∨ upstream.closes = true ∧
      ∃ identity fingerprint,
        upstream.closing text reads = [closingChunk identity fingerprint] := by
  cases upstream with
  | binary decoder state => exact .inl ⟨rfl, rfl⟩
  | lines pivot encoding state =>
    simp only [closes, closing, Pivot.closing, Pivot.toOpenAi]
    cases pivot.finish with
    | none => exact .inl ⟨rfl, rfl⟩
    | some finish => exact .inr ⟨rfl, _, _, rfl⟩

/-- A collapsed stream never is an error. -/
theorem get_error_collapse (upstream : Upstream σ δ) :
    (collapseStreamToJson text model reads upstream).get "error" = none := by
  cases upstream <;> exact (ofReply_envelope _ _ _).2

/-- Where the stream does not fail both replies are made of its chunks. -/
theorem replies_of_not_failed {upstream : Upstream σ δ}
    (h : upstream.failed text model reads = false) :
    upstream.frames text model reads =
        (upstream.relayed text model reads ++ upstream.closing text reads).map
          (dataFrame text.print) ++ [doneFrame] ∧
      ∃ s, collapseStreamToJson text model reads upstream =
        (({} : Collapsed).take (upstream.relayed text model reads)).envelope model s := by
  cases upstream with
  | lines pivot encoding state =>
    refine ⟨sent_pipeStream .., pivot.shared (pivot.relayed text encoding reads state).2, ?_⟩
    rw [collapseStreamToJson, collapseLines_eq]
    rfl
  | binary decoder state =>
    have hfatal : ∀ step ∈ (binarySteps decoder reads [] (decoder.start model state).1).1,
        step.fatal = none := by
      simpa [failed] using h
    refine ⟨?_, (decoder.start model state).2, ?_⟩
    · rw [frames, sent_pipeBinaryStream decoder _ _ _ hfatal, closing, List.append_nil, relayed]
    · rw [collapseStreamToJson, collapseBinaryBody_eq decoder _ _ _ hfatal]
      rfl

/-- A collapsed reply agrees with the streamed one exactly where the stream does not end in a
fatal error, its tool-call deltas merge without loss and it is finished. -/
theorem collapse_agrees_iff (upstream : Upstream σ δ)
    (hprints : ∀ chunk ∈ upstream.relayed text model reads ++ upstream.closing text reads,
      text.Prints chunk) :
    upstream.Agrees text model reads ↔
      upstream.failed text model reads = false ∧
        AllMergeable ((upstream.relayed text model reads).flatMap chunkCalls) ∧
        Finished upstream.closes (upstream.relayed text model reads) := by
  cases hfailed : upstream.failed text model reads with
  | true =>
    refine iff_of_false (fun h ↦ ?_) (fun h ↦ nomatch h.1)
    have herror := h.2 hfailed
    rw [get_error_collapse] at herror
    cases herror
  | false =>
    obtain ⟨hframes, s, hreply⟩ := replies_of_not_failed hfailed
    rw [Agrees, hframes, hreply, readFrames_dataFrame hprints, (ofReply_envelope _ _ _).1, hfailed,
      ← answer_take_iff (@closing_cases σ δ text reads upstream)]
    simp

end Upstream

/-- Reading and printing a few values. -/
def JsonText.table (entries : List (Json × String)) : JsonText where
  read cs := (entries.find? fun entry ↦ entry.2.toList = cs).map Prod.fst
  print v := (entries.lookup v).getD "null"

/-- A table whose values and texts are distinct prints each value on one line, if the texts are
such lines. -/
theorem JsonText.prints_table {entries : List (Json × String)} {entry : Json × String}
    (hvalues : (entries.map Prod.fst).Nodup) (htexts : (entries.map Prod.snd).Nodup)
    (hentry : entry ∈ entries) (hprinted : entry.2.toList.all fun c ↦ 0x20 ≤ c.toNat)
    (htrimmed : trimChars entry.2.toList = entry.2.toList)
    (hdone : entry.2.toList ≠ "[DONE]".toList) : (JsonText.table entries).Prints entry.1 := by
  have hprint : (JsonText.table entries).print entry.1 = entry.2 := by
    change (entries.lookup entry.1).getD "null" = entry.2
    induction entries with
    | nil => cases hentry
    | cons first rest ih =>
      rw [List.map_cons, List.nodup_cons] at hvalues htexts
      rcases List.mem_cons.mp hentry with rfl | hrest
      · rw [List.lookup_cons_self, Option.getD_some]
      · have hne : entry.1 ≠ first.1 := fun h ↦
          hvalues.1 (h ▸ List.mem_map_of_mem hrest)
        rw [List.lookup_cons, beq_false_of_ne hne]
        exact ih hvalues.2 htexts.2 hrest
  have hread : (JsonText.table entries).read entry.2.toList = some entry.1 := by
    change (entries.find? fun other ↦ other.2.toList = entry.2.toList).map Prod.fst = some entry.1
    clear hprint
    induction entries with
    | nil => cases hentry
    | cons first rest ih =>
      rw [List.map_cons, List.nodup_cons] at hvalues htexts
      rcases List.mem_cons.mp hentry with rfl | hrest
      · rw [List.find?_cons_of_pos (by simp), Option.map_some]
      · have hne : first.2.toList ≠ entry.2.toList := fun h ↦
          htexts.1 (String.toList_inj.mp h ▸ List.mem_map_of_mem hrest)
        rw [List.find?_cons_of_neg (by simpa using hne)]
        exact ih hvalues.2 htexts.2 hrest
  refine ⟨by rw [hprint, hread], fun c hc ↦ ?_, by rwa [hprint], by rwa [hprint]⟩
  rw [hprint] at hc
  exact of_decide_eq_true (List.all_eq_true.mp hprinted c hc)

/-- A translation from OpenAI's own format. -/
def Pivot.openAi : Pivot StreamState where
  translate chunk s := ([chunk], s)
  finish := none
  shared := id
  upstreamThread _ := none
  upstreamAnswer _ := none

/-- The bytes of a text in ASCII. -/
def asciiBytes (s : String) : List Nat := s.toList.map Char.toNat

/-- A chunk that says all there is to say, and its text. -/
def wholeChunk : Json × String :=
  (Json.object [("choices", .arr [Json.object [("delta", Json.object [("content", .str "hi")]),
      ("finish_reason", .str "stop")]])],
    "\x7b\"choices\":[\x7b\"delta\":\x7b\"content\":\"hi\"\x7d,\"finish_reason\":\"stop\"\x7d]\x7d")

/-- A body of one such chunk. -/
def wholeBody : Upstream StreamState Unit := .lines .openAi .sse { clock := fun _ ↦ 5 }

/-- The rule for it. -/
theorem collapse_agrees_iff_whole : wholeBody.Agrees (.table [wholeChunk]) "m"
    [some (asciiBytes ("data: " ++ wholeChunk.2 ++ "\n"))] := by
  have hchunks : wholeBody.relayed (.table [wholeChunk]) "m"
      [some (asciiBytes ("data: " ++ wholeChunk.2 ++ "\n"))] = [wholeChunk.1] := by decide
  refine (Upstream.collapse_agrees_iff wholeBody ?_).mpr ⟨by decide, ?_, ?_⟩
  · rw [hchunks]
    exact List.forall_mem_cons.mpr ⟨JsonText.prints_table (by decide) (by decide)
      List.mem_cons_self (by decide) (by decide) (by decide), nofun⟩
  · rw [hchunks]
    exact fun _ ↦ trivial
  · rw [hchunks]
    exact nofun

/-- A frame of Cursor's protocol that reports an error. -/
def errorFrame : List Nat :=
  let payload := asciiBytes "\x7b\"error\":\x7b\"message\":\"quota\"\x7d\x7d"
  [0, 0, 0, 0, payload.length] ++ payload

/-- Cursor's decoder, on that frame. -/
def errorDecoder : BinaryDecoder ChunkMeta where
  new id created model := ⟨id, created, model⟩
  consume pending d :=
    if pending = errorFrame then (⟨[], some "quota", true⟩, [], d)
    else (⟨[], none, false⟩, pending, d)
  finish d :=
    ([buildChunk d (Json.object [("role", .str "assistant"), ("content", .str "")]) none,
      buildChunk d (Json.object []) (some "stop")], d)

/-- The chunks it finishes with, and their texts. -/
def emptyAnswer : List (Json × String) :=
  [(buildChunk ⟨"chatcmpl-5", 0, "m"⟩
      (Json.object [("role", .str "assistant"), ("content", .str "")]) none,
    "\x7b\"choices\":[\x7b\"delta\":\x7b\"content\":\"\",\"role\":\"assistant\"\x7d," ++
      "\"finish_reason\":null,\"index\":0\x7d],\"created\":0,\"id\":\"chatcmpl-5\"," ++
      "\"model\":\"m\",\"object\":\"chat.completion.chunk\"\x7d"),
    (buildChunk ⟨"chatcmpl-5", 0, "m"⟩ (Json.object []) (some "stop"),
      "\x7b\"choices\":[\x7b\"delta\":\x7b\x7d,\"finish_reason\":\"stop\",\"index\":0\x7d]," ++
        "\"created\":0,\"id\":\"chatcmpl-5\",\"model\":\"m\"," ++
        "\"object\":\"chat.completion.chunk\"\x7d")]

/-- An error before any content becomes a reply that is empty and no error. -/
theorem fatal_error_is_collapsed_to_a_reply :
    ¬ ∀ (σ δ : Type) (text : JsonText) (model : String) (reads : List Read)
      (upstream : Upstream σ δ),
      (∀ chunk ∈ upstream.relayed text model reads ++ upstream.closing text reads,
        text.Prints chunk) → upstream.Agrees text model reads := by
  intro hall
  have htexts : ∀ entry ∈ emptyAnswer, (entry.2.toList.all fun c ↦ 0x20 ≤ c.toNat) ∧
      trimChars entry.2.toList = entry.2.toList ∧ entry.2.toList ≠ "[DONE]".toList := by
    decide +kernel
  have hprints : ∀ chunk ∈ emptyAnswer.map Prod.fst, (JsonText.table emptyAnswer).Prints chunk := by
    refine List.forall_mem_map.mpr fun entry hentry ↦ ?_
    obtain ⟨hprinted, htrimmed, hdone⟩ := htexts entry hentry
    exact JsonText.prints_table (by decide) (by decide) hentry hprinted htrimmed hdone
  have hchunks : (Upstream.binary errorDecoder { clock := fun _ ↦ 5 } :
      Upstream Unit ChunkMeta).relayed (.table emptyAnswer) "m" [some errorFrame] =
      emptyAnswer.map Prod.fst := by decide
  have hagrees := hall Unit ChunkMeta (.table emptyAnswer) "m" [some errorFrame]
    (.binary errorDecoder { clock := fun _ ↦ 5 }) (by
      rw [hchunks]
      exact List.forall_mem_append.mpr ⟨hprints, nofun⟩)
  have herror := hagrees.2 (by decide)
  rw [Upstream.get_error_collapse] at herror
  cases herror

end NullRouter.Stream
