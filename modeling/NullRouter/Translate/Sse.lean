import NullRouter.Base.Json
import NullRouter.Base.Text

/-!
# Lines and frames of a stream

`crates/translate/src/sse.rs`: the buffer that makes lines of the chunks of a text, the item a
line carries, and the frames a client gets. Reading and printing JSON are parameters.
-/

namespace NullRouter.Translate

open NullRouter.Base

/-- `Encoding`, `sse.rs:20`. -/
inductive Encoding where
  | sse
  | ndjson
  deriving DecidableEq

/-- `Frame`, `sse.rs:11`. -/
inductive Frame where
  | data (payload : Json)
  | done
  deriving DecidableEq

/-- `str::strip_prefix` on scalar values. -/
def stripChars? (literal : String) (line : List Char) : Option (List Char) :=
  literal.toList.isPrefixOf? line

/-- `parse_line`, `sse.rs:32`. -/
def parseLine (read : List Char → Option Json) (line : List Char) : Encoding → Option Frame
  | .ndjson =>
    if line.isEmpty then none
    else
      let trimmed := trimChars line
      if "\x7b".toList.isPrefixOf trimmed then (read trimmed).map .data else none
  | .sse =>
    if line.isEmpty then none
    else
      (stripChars? "data:" line).bind fun rest ↦
        let payload := trimChars rest
        if payload = "[DONE]".toList then some .done else (read payload).map .data

/-- A line without the carriage return that may end it. -/
def stripReturn (line : List Char) : List Char :=
  if line.getLast? = some '\r' then line.dropLast else line

/-- The complete lines at the front of a text, as they stand, and what remains of it. -/
def splitLines : List Char → List (List Char) × List Char
  | [] => ([], [])
  | c :: rest =>
    let split := splitLines rest
    if c = '\n' then ([] :: split.1, split.2)
    else
      match split.1 with
      | [] => ([], c :: split.2)
      | line :: lines => ((c :: line) :: lines, split.2)

/-- `LineBuffer`, `sse.rs:58`. -/
structure LineBuffer where
  buffer : List Char
  deriving DecidableEq

namespace LineBuffer

/-- `LineBuffer::new`. -/
def new : LineBuffer := ⟨[]⟩

/-- `LineBuffer::push`, `sse.rs:77`. -/
def push (b : LineBuffer) (chunk : List Char) : LineBuffer × List (List Char) :=
  let split := splitLines (b.buffer ++ chunk)
  (⟨split.2⟩, split.1.map stripReturn)

/-- `LineBuffer::flush`, `sse.rs:103`. -/
def flush (b : LineBuffer) : LineBuffer × Option (List Char) :=
  let trimmed := trimChars b.buffer
  (new, if trimmed.isEmpty then none else some trimmed)

end LineBuffer

/-- `data_frame`, `sse.rs:118`. -/
def dataFrame (print : Json → String) (payload : Json) : String :=
  "data: " ++ print payload ++ "\n\n"

/-- `event_frame`, `sse.rs:131`. -/
def eventFrame (print : Json → String) (event : String) (payload : Json) : String :=
  "event: " ++ event ++ "\ndata: " ++ print payload ++ "\n\n"

/-- `done_frame`, `sse.rs:147`. -/
def doneFrame : String := "data: [DONE]\n\n"

/-- Splitting a text goes on from what remained of its beginning. -/
theorem splitLines_append (a b : List Char) : splitLines (a ++ b) =
    ((splitLines a).1 ++ (splitLines ((splitLines a).2 ++ b)).1,
      (splitLines ((splitLines a).2 ++ b)).2) := by
  induction a with
  | nil => rfl
  | cons c a ih =>
    rw [List.cons_append, splitLines, ih, splitLines]
    by_cases hc : c = '\n'
    · simp [hc]
    · cases hlines : (splitLines a).1 with
      | nil => simp [hc, splitLines]
      | cons line lines => simp [hc]

/-- The complete lines are those before the last line feed, and what remains follows it. -/
theorem splitLines_eq (text : List Char) :
    splitLines text = ((text.splitOn '\n').dropLast, (text.splitOn '\n').getLastD []) := by
  induction text with
  | nil => rfl
  | cons c rest ih =>
    obtain ⟨line, lines, hlines⟩ := List.exists_cons_of_ne_nil (List.splitOn_ne_nil '\n' rest)
    rw [splitLines, ih, List.splitOn_cons_eq_if_modifyHead, hlines]
    by_cases hc : c = '\n'
    · simp [hc]
    · cases lines <;> simp [hc]

namespace LineBuffer

/-- A buffer that is fed in two chunks or in one gives the same lines. -/
theorem push_append (b : LineBuffer) (chunk rest : List Char) :
    b.push (chunk ++ rest) =
      (((b.push chunk).1.push rest).1, (b.push chunk).2 ++ ((b.push chunk).1.push rest).2) := by
  simp only [push]
  rw [← List.append_assoc, splitLines_append (b.buffer ++ chunk) rest, List.map_append]

/-- Feeding a buffer the chunks of a text in turn. -/
def pushAll (b : LineBuffer) : List (List Char) → LineBuffer × List (List Char)
  | [] => (b, [])
  | chunk :: chunks =>
    let pushed := b.push chunk
    let rest := pushed.1.pushAll chunks
    (rest.1, pushed.2 ++ rest.2)

/-- The lines of a text do not depend on its chunks. -/
theorem pushAll_new (chunks : List (List Char)) : new.pushAll chunks = new.push chunks.flatten := by
  have hpush (b : LineBuffer) (chunk : List Char) (chunks : List (List Char)) :
      b.pushAll (chunk :: chunks) = b.push (chunk ++ chunks.flatten) := by
    induction chunks generalizing b chunk with
    | nil => simp [pushAll]
    | cons next chunks ih =>
      rw [pushAll, ih, List.flatten_cons, push_append b chunk]
  cases chunks with
  | nil => rfl
  | cons chunk chunks => exact hpush new chunk chunks

/-- What the buffer gives for a text in any pieces: the lines that a line feed ends, each without
one carriage return at its end, and at the end what follows the last line feed, trimmed, where it is
not blank. -/
theorem lines_of_pieces (pieces : List (List Char)) :
    (new.pushAll pieces).2 = (pieces.flatten.splitOn '\n').dropLast.map stripReturn ∧
      (new.pushAll pieces).1.flush = (new,
        (some (trimChars ((pieces.flatten.splitOn '\n').getLastD []))).filter (!·.isEmpty)) := by
  rw [pushAll_new, push, new, List.nil_append, splitLines_eq]
  refine ⟨rfl, ?_⟩
  rw [flush, new]
  cases trimChars ((pieces.flatten.splitOn '\n').getLastD []) with
  | nil => rfl
  | cons c rest => rfl

theorem flush_trims_last_line :
    (new.pushAll ["  a".toList]).2 ++ (new.pushAll ["  a".toList]).1.flush.2.toList ≠
      ("  a".toList.splitOn '\n').map stripReturn := by
  decide

end LineBuffer
end NullRouter.Translate
