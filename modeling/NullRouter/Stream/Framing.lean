import NullRouter.Base.Lists
import NullRouter.Stream.Agreement
import NullRouter.Stream.Pipe

/-!
# Frames read back

`event_frame` and `data_frame` (`crates/translate/src/sse.rs:117–144`) against `LineBuffer` and
`parse_line` (`sse.rs:32–111`): what is read off frames that were written one after another. The
name of an event is written as it stands, so a break in it makes further lines.
-/

namespace NullRouter.Stream

open NullRouter.Base NullRouter.Translate

variable {text : JsonText}

/-- The name `frame_for` gives a chunk's frame, the `type` of the chunk, `stream.rs:36–52`. -/
def eventName (source : Format) (chunk : Json) : Option String :=
  match ClientFraming.forFormat source with
  | .data => if source = .claude then chunk.strField "type" else none
  | .responsesEvents => chunk.strField "type"

/-- The frame of a value, under the name of an event or without one. -/
def written (text : JsonText) (frame : Option String × Json) : String :=
  frame.1.elim (dataFrame text.print frame.2) (eventFrame text.print · frame.2)

/-- The pipe writes each chunk under its `type`, for the clients that want names. -/
theorem frameFor_eq_written (chunk : Json) (source : Format) :
    frameFor text chunk source = written text (eventName source chunk, chunk) := by
  rw [frameFor, written, eventName]
  cases ClientFraming.forFormat source with
  | responsesEvents => rfl
  | data =>
    by_cases hclaude : source = .claude
    · simp only [if_pos hclaude]
    · simp only [if_neg hclaude, Option.elim_none]

/-- The items of a text that arrives in pieces: those of its complete lines, then that of what
remains. -/
def itemsRead (text : JsonText) (pieces : List (List Char)) : List Translate.Frame :=
  let pushed := LineBuffer.new.pushAll pieces
  (pushed.2 ++ pushed.1.flush.2.toList).filterMap (parseLine text.read · .sse)

/-- The lines that the name of an event makes after the line it stands on. -/
def strayLines (name : String) : List (List Char) :=
  ((splitLines (name.toList ++ ['\n'])).1.tail).map stripReturn

/-- What is read of the lines that the name of a frame makes. -/
def strayItems (text : JsonText) (frame : Option String × Json) : List Translate.Frame :=
  (frame.1.elim [] strayLines).filterMap (parseLine text.read · .sse)

/-! ## Lines of a frame -/

/-- A text that ends with a line end is some lines and no remainder. -/
theorem splitLines_ended (cs : List Char) :
    ∃ line lines, splitLines (cs ++ ['\n']) = (line :: lines, []) := by
  induction cs with
  | nil => exact ⟨[], [], rfl⟩
  | cons c cs ih =>
    obtain ⟨line, lines, hsplit⟩ := ih
    rw [List.cons_append, splitLines, hsplit]
    by_cases hbreak : c = '\n'
    · exact ⟨[], line :: lines, if_pos hbreak⟩
    · exact ⟨c :: line, lines, if_neg hbreak⟩

/-- What stands before a text without a break joins its first line. -/
theorem splitLines_start {start rest line : List Char} {lines : List (List Char)}
    {remaining : List Char} (hstart : '\n' ∉ start)
    (h : splitLines rest = (line :: lines, remaining)) :
    splitLines (start ++ rest) = ((start ++ line) :: lines, remaining) := by
  induction start with
  | nil => exact h
  | cons c start ih =>
    rw [List.mem_cons, not_or] at hstart
    rw [List.cons_append, splitLines, ih hstart.2, if_neg (Ne.symm hstart.1)]
    rfl

/-- A line that starts with anything but the first letter of its prefix carries nothing. -/
theorem parseLine_of_ne {read : List Char → Option Json} {c : Char} (hc : c ≠ 'd')
    (cs : List Char) : parseLine read (stripReturn (c :: cs)) .sse = none := by
  have hparse (cs : List Char) : parseLine read (c :: cs) .sse = none := by
    have hstrip : stripChars? "data:" (c :: cs) = none := by
      have hne : ('d' == c) = false := beq_false_of_ne hc.symm
      simp [stripChars?, List.isPrefixOf?, hne]
    rw [parseLine, if_neg (by simp), hstrip, Option.bind_none]
  rw [stripReturn]
  cases cs with
  | nil =>
    split
    · rfl
    · exact hparse []
  | cons d cs =>
    split
    · exact hparse _
    · exact hparse _

/-- The line of a value carries the value. -/
theorem parseLine_data {v : Json} (h : text.Prints v) :
    parseLine text.read ("data: ".toList ++ (text.print v).toList) .sse = some (.data v) := by
  have hread := payload?_dataFrame h
  rw [payload?] at hread
  split at hread
  · next payload hparse => rw [hparse, Option.some.inj hread]
  · cases hread
  · cases hread

/-- A buffer that is empty is so again after a frame, and the items of the frame are those of its
name's stray lines and its value. -/
theorem push_written {frame : Option String × Json} (h : text.Prints frame.2) :
    (LineBuffer.new.push (written text frame).toList).1 = .new ∧
      (LineBuffer.new.push (written text frame).toList).2.filterMap
        (parseLine text.read · .sse) = strayItems text frame ++ [.data frame.2] := by
  have hdata := push_dataFrame h
  have hitems : ["data: ".toList ++ (text.print frame.2).toList, []].filterMap
      (parseLine text.read · .sse) = [Translate.Frame.data frame.2] := by
    rw [List.filterMap_cons, parseLine_data h]
    rfl
  obtain ⟨name?, v⟩ := frame
  cases name? with
  | none =>
    change (LineBuffer.new.push (dataFrame text.print v).toList).1 = _ ∧
      (LineBuffer.new.push (dataFrame text.print v).toList).2.filterMap _ = _
    rw [hdata]
    exact ⟨rfl, hitems⟩
  | some name =>
    obtain ⟨line, lines, hname⟩ := splitLines_ended name.toList
    have hfirst : LineBuffer.new.push ("event: ".toList ++ (name.toList ++ ['\n'])) =
        (.new, stripReturn ("event: ".toList ++ line) :: strayLines name) := by
      rw [LineBuffer.push, LineBuffer.new, List.nil_append,
        splitLines_start (by decide) hname, strayLines, hname]
      rfl
    have hframe : (written text (some name, v)).toList =
        ("event: ".toList ++ (name.toList ++ ['\n'])) ++ (dataFrame text.print v).toList := by
      simp [written, eventFrame, dataFrame, String.toList_append]
    have hevent : parseLine text.read (stripReturn ("event: ".toList ++ line)) .sse = none :=
      parseLine_of_ne (by decide) _
    rw [hframe, LineBuffer.push_append, hfirst, hdata]
    refine ⟨rfl, ?_⟩
    rw [List.filterMap_append, hitems, List.filterMap_cons, hevent]
    rfl

/-- What is read of frames written one after another, in whatever pieces they arrive. -/
theorem itemsRead_written {frames : List (Option String × Json)} {pieces : List (List Char)}
    (hprints : ∀ frame ∈ frames, text.Prints frame.2)
    (hpieces : pieces.flatten = frames.flatMap fun frame ↦ (written text frame).toList) :
    itemsRead text pieces =
      frames.flatMap fun frame ↦ strayItems text frame ++ [.data frame.2] := by
  have hpush (frames : List (Option String × Json))
      (hprints : ∀ frame ∈ frames, text.Prints frame.2) :
      let pushed := LineBuffer.new.push (frames.flatMap fun frame ↦ (written text frame).toList)
      pushed.1 = .new ∧ pushed.2.filterMap (parseLine text.read · .sse) =
        frames.flatMap fun frame ↦ strayItems text frame ++ [.data frame.2] := by
    induction frames with
    | nil => exact ⟨rfl, rfl⟩
    | cons frame frames ih =>
      obtain ⟨hbuffer, hitems⟩ := push_written (hprints frame List.mem_cons_self)
      obtain ⟨hend, hrest⟩ := ih fun f hf ↦ hprints f (List.mem_cons_of_mem _ hf)
      simp only [List.flatMap_cons]
      rw [LineBuffer.push_append, hbuffer]
      exact ⟨hend, by rw [List.filterMap_append, hitems, hrest]⟩
  obtain ⟨hend, hitems⟩ := hpush frames hprints
  have hflush : LineBuffer.new.flush.2 = none := by decide
  rw [itemsRead, LineBuffer.pushAll_new, hpieces, hend, hflush, List.filterMap_append, hitems]
  exact List.append_nil _

/-- Frames give back exactly their values, in whatever pieces they arrive, when and only when no
line that a name makes after its own is read as an item. -/
theorem frames_read_back_iff_names {frames : List (Option String × Json)}
    {pieces : List (List Char)} (hprints : ∀ frame ∈ frames, text.Prints frame.2)
    (hpieces : pieces.flatten = frames.flatMap fun frame ↦ (written text frame).toList) :
    itemsRead text pieces = frames.map (.data ·.2) ↔
      ∀ frame ∈ frames, ∀ name, frame.1 = some name →
        ∀ line ∈ strayLines name, parseLine text.read line .sse = none := by
  have hpart (frame : Option String × Json) :
      [Translate.Frame.data frame.2].Sublist (strayItems text frame ++ [.data frame.2]) :=
    List.sublist_append_right _ _
  rw [itemsRead_written hprints hpieces, List.map_eq_flatMap, eq_comm,
    flatMap_eq_iff_of_sublist fun frame _ ↦ hpart frame]
  refine forall₂_congr fun frame _ ↦ ?_
  rw [List.self_eq_append_left, strayItems]
  cases frame.1 with
  | none => simp
  | some name => simp [List.filterMap_eq_nil_iff]

/-- A chunk whose type breaks the line of its event's name, and the value read of its break. -/
def brokenName : List (Json × String) :=
  [(.object [("type", .str "ping\ndata: 1")], "\x7b\"type\":\"ping\\ndata: 1\"\x7d"),
    (.num (.posInt 1), "1")]

theorem prints_brokenName :
    ∀ v ∈ brokenName.map Prod.fst, (JsonText.table brokenName).Prints v := by
  have htexts : ∀ entry ∈ brokenName, (entry.2.toList.all fun c ↦ 0x20 ≤ c.toNat) ∧
      trimChars entry.2.toList = entry.2.toList ∧ entry.2.toList ≠ "[DONE]".toList := by
    decide
  refine List.forall_mem_map.mpr fun entry hentry ↦ ?_
  obtain ⟨hprinted, htrimmed, hdone⟩ := htexts entry hentry
  exact JsonText.prints_table (by decide) (by decide) hentry hprinted htrimmed hdone

/-- The rule for a named frame in two pieces. -/
theorem frames_read_back_iff_names_ping :
    let v : Json := .num (.posInt 1)
    let frame := (written (.table brokenName) (some "ping", v)).toList
    itemsRead (.table brokenName) [frame.take 9, frame.drop 9] = [.data v] := by
  intro v frame
  exact (@frames_read_back_iff_names (.table brokenName) [(some "ping", v)]
    [frame.take 9, frame.drop 9] (by simpa [v] using prints_brokenName v (by decide))
    (by simp [frame])).mpr (by decide)

/-- The rest of a broken name is read as a value of its own. -/
theorem broken_name_is_read :
    ¬ ∀ (text : JsonText) (frames : List (Option String × Json)) (pieces : List (List Char)),
      (∀ frame ∈ frames, text.Prints frame.2) →
      pieces.flatten = frames.flatMap (fun frame ↦ (written text frame).toList) →
        itemsRead text pieces = frames.map (.data ·.2) := by
  intro hall
  let v : Json := .object [("type", .str "ping\ndata: 1")]
  have hread := hall (.table brokenName) [(eventName .claude v, v)]
    [(frameFor (.table brokenName) v .claude).toList]
    (by simpa [v] using prints_brokenName v (by decide))
    (by rw [frameFor_eq_written]; simp)
  exact absurd hread (by decide)

/-!
## Reads and frames

When the frames of `pipe_stream` (`crates/execute/src/stream.rs:115`) depend on how the network
cuts the upstream body into reads. Lines may be cut anywhere; but each read is decoded on its
own, so a character that two reads share is lost.
-/

/-- For every translation, state and sink, two ways of reading a body leave the pipe in the same
place: the frames delivered, the state of the translation and the summary. -/
def ReadAlike (text : JsonText) (source : Format) (encoding : Encoding)
    (reads reads' : List Read) : Prop :=
  ∀ (σ : Type) (translator : Translator σ) (sink : Sink) (state : σ),
    pipeStream text source sink translator encoding reads state =
      pipeStream text source sink translator encoding reads' state

/-- The translation that records what it is given. -/
def recorder : Translator (List Json) where
  translate := fun payload seen ↦ ([], seen ++ [payload])
  finalizeUpstream := fun seen ↦ ([], seen)
  finalizeResponse := fun seen ↦ ([], seen)
  usage := fun _ ↦ none
  finishReason := fun _ ↦ none
  upstreamThread := fun _ ↦ none
  upstreamAnswer := fun _ ↦ none

variable {source : Format} {encoding : Encoding}

/-- The recorder ends with the items of the body. -/
theorem translation_pipeStream_recorder (reads : List Read) :
    (pipeStream text source (fun _ _ ↦ true) recorder encoding reads []).translation =
      payloads text encoding (Utf8.decodeReads (received reads)) := by
  have hfold (items : List Json) (s : PipeState (List Json)) (h : s.clientGone = false) :
      items.foldl (emitPayload text source (fun _ _ ↦ true) recorder) s =
        { s with translation := s.translation ++ items } := by
    induction items generalizing s with
    | nil => simp
    | cons item items ih =>
      have hemit : emitPayload text source (fun _ _ ↦ true) recorder s item =
          { s with translation := s.translation ++ [item] } := by
        rw [emitPayload, if_neg (by simp [h])]
        rfl
      rw [List.foldl_cons, hemit, ih]
      · simp
      · exact h
  rw [pipeStream_eq, hfold _ _ rfl]
  rfl

/-- Two ways of reading a body are alike exactly where the reads carry the same items. -/
theorem readAlike_iff (reads reads' : List Read) :
    ReadAlike text source encoding reads reads' ↔
      payloads text encoding (Utf8.decodeReads (received reads)) =
        payloads text encoding (Utf8.decodeReads (received reads')) := by
  constructor
  · intro h
    have hrun := congrArg PipeState.translation (h _ recorder (fun _ _ ↦ true) [])
    rwa [translation_pipeStream_recorder, translation_pipeStream_recorder] at hrun
  · intro h σ translator sink state
    rw [pipeStream_eq, pipeStream_eq, h]

/-- JSON text, as far as the tests need it: strings without escapes. -/
def quoted : JsonText where
  read := fun cs ↦ some (.str (String.ofList (cs.tail.dropLast)))
  print := fun v ↦ String.ofList (Char.ofNat 34 :: (v.asStr.getD "").toList ++ [Char.ofNat 34])

/-- `data: "→"` and a line end, as bytes. -/
def arrowLine : List Nat :=
  [0x64, 0x61, 0x74, 0x61, 0x3A, 0x22, 0xE2, 0x86, 0x92, 0x22, 0x0A]

/-- The translation between equal formats. -/
def passThrough : Translator Unit where
  translate := fun payload state ↦ ([payload], state)
  finalizeUpstream := fun state ↦ ([], state)
  finalizeResponse := fun state ↦ ([], state)
  usage := fun _ ↦ none
  finishReason := fun _ ↦ none
  upstreamThread := fun _ ↦ none
  upstreamAnswer := fun _ ↦ none

end NullRouter.Stream
