import NullRouter.Base.Bytes
import NullRouter.Base.FrameReader

/-!
# Connect frames

The framing of Connect-RPC, `crates/execute/src/bespoke/cursor/protobuf.rs:84` and `:293`: a byte of
flags, a length of four bytes and a payload. What is read of a stream does not depend on how it is
cut, and what is written is read back unless a payload is longer than four bytes can tell.
-/

namespace NullRouter.Bespoke.Cursor

open NullRouter.Base

/-- `frame`, `protobuf.rs:84`: a length that does not fit is written as the largest that does. -/
def frame (payload : List UInt8) : List UInt8 :=
  0x00 :: (Bytes.toBe 4 (if payload.length < 2 ^ 32 then payload.length else 2 ^ 32 - 1) ++ payload)

/-- `Frame`, `protobuf.rs:281`. -/
structure Frame where
  flags : UInt8
  payload : List UInt8
  deriving DecidableEq

/-- `is_trailer`, `protobuf.rs:290`. -/
def Frame.isTrailer (frame : Frame) : Bool := frame.flags &&& 0x02 ≠ 0

/-- The decoders of `flate2`. -/
structure Flate2 where
  gunzip : List UInt8 → Option (List UInt8)
  zlib : List UInt8 → Option (List UInt8)
  deflate : List UInt8 → Option (List UInt8)

section Reading

variable (flate : Flate2)

/-- `decompress`, `protobuf.rs:331`. -/
def decompress (payload : List UInt8) (flags : UInt8) : List UInt8 :=
  if flags &&& 0x03 = 0 then payload
  else if payload.head? = some 0x7B then payload
  else (((flate.gunzip payload).or (flate.zlib payload)).or (flate.deflate payload)).getD payload

/-- One turn of the loop of `frames`, `protobuf.rs:299`: a header, and the payload if it is there. -/
def readConnect (buffer : List UInt8) : Option (Frame × List UInt8) :=
  (split? 5 buffer).bind fun header ↦
    (split? (Bytes.ofBe (header.1.drop 1)) header.2).bind fun read ↦
      some (⟨header.1.headD 0, decompress flate read.1 (header.1.headD 0)⟩, read.2)

theorem settled_readConnect : Settled (readConnect flate) :=
  (settled_split? 5).bind fun header ↦ (settled_split? (Bytes.ofBe (header.drop 1))).bind
    fun payload ↦ settled_some (⟨header.headD 0, decompress flate payload (header.headD 0)⟩ : Frame)

theorem readConnect_nil : readConnect flate [] = none := rfl

/-- The frames of a buffer. -/
def connectReader : FrameReader UInt8 Frame Empty :=
  .ofSettled (readConnect flate) (settled_readConnect flate) (readConnect_nil flate)

/-- `frames`, `protobuf.rs:297`: the frames, and how many bytes they take. -/
def frames (buffer : List UInt8) : List Frame × Nat :=
  let drained := (connectReader flate).drain buffer
  (drained.items, buffer.length - drained.rest.length)

/-- The frames of a buffer that grows by pieces, as its reader keeps what `frames` has left, and
what is left at the end. -/
def readPieces : List (List UInt8) → List UInt8 → List Frame × List UInt8
  | [], pending => ([], pending)
  | piece :: pieces, pending =>
    let read := frames flate (pending ++ piece)
    let rest := readPieces pieces ((pending ++ piece).drop read.2)
    (read.1 ++ rest.1, rest.2)

variable {flate}

private theorem connect_error (d : Drained UInt8 Frame Empty) : d.error = none := by
  cases h : d.error with
  | none => rfl
  | some error => exact error.elim

private theorem readPieces_eq (pieces : List (List UInt8)) (pending : List UInt8) :
    readPieces flate pieces pending =
      (((connectReader flate).drainAll pieces pending).items,
        ((connectReader flate).drainAll pieces pending).rest) := by
  induction pieces generalizing pending with
  | nil => rfl
  | cons piece pieces ih =>
    have hdrop : (pending ++ piece).drop (frames flate (pending ++ piece)).2 =
        ((connectReader flate).drain (pending ++ piece)).rest := FrameReader.drop_consumed _
    rw [readPieces, FrameReader.drainAll, connect_error]
    simp only [hdrop, ih]
    rfl

/-- However a stream is cut, its frames are those of the whole, and so is what is left. -/
theorem readPieces_eq_whole (pieces : List (List UInt8)) :
    readPieces flate pieces [] = ((frames flate pieces.flatten).1,
      pieces.flatten.drop (frames flate pieces.flatten).2) := by
  obtain ⟨hitems, -, hrest⟩ := @FrameReader.drainAll_nil _ _ _ (connectReader flate) pieces
  rw [readPieces_eq, hitems, hrest (connect_error _), frames, FrameReader.drop_consumed]

private theorem readConnect_frame (payload rest : List UInt8) :
    readConnect flate (frame payload ++ rest) =
      (split? (if payload.length < 2 ^ 32 then payload.length else 2 ^ 32 - 1)
        (payload ++ rest)).bind fun read ↦ some (⟨0, read.1⟩, read.2) := by
  have hfits : (if payload.length < 2 ^ 32 then payload.length else 2 ^ 32 - 1) < 256 ^ 4 := by
    split <;> omega
  have hheader : (0x00 :: Bytes.toBe 4 (if payload.length < 2 ^ 32 then payload.length
      else 2 ^ 32 - 1) : List UInt8).length = 5 := by
    rw [List.length_cons, Bytes.length_toBe]
  rw [readConnect, frame, ← List.cons_append, List.append_assoc, split?_append_of_length hheader]
  have hplain (payload : List UInt8) : decompress flate payload 0 = payload := if_pos (by decide)
  simp only [Option.bind_some, List.drop_succ_cons, List.drop_zero, Bytes.ofBe_toBe hfits,
    List.headD_cons, hplain]

private theorem drain_frame {payload : List UInt8} (h : payload.length < 2 ^ 32)
    (rest : List UInt8) :
    (connectReader flate).drain (frame payload ++ rest) =
      ((connectReader flate).drain rest).prepend [⟨0, payload⟩] := by
  rw [connectReader, FrameReader.drain_ofSettled, readConnect_frame, if_pos h, split?_append]
  simp only [Option.bind_some]

private theorem drain_long_frame {payload : List UInt8} (h : ¬payload.length < 2 ^ 32)
    (rest : List UInt8) :
    ∃ after, (connectReader flate).drain (frame payload ++ rest) =
      ((connectReader flate).drain after).prepend [⟨0, payload.take (2 ^ 32 - 1)⟩] := by
  have htake : (payload ++ rest).take (2 ^ 32 - 1) = payload.take (2 ^ 32 - 1) :=
    List.take_append_of_le_length (by omega)
  have hsplit : split? (2 ^ 32 - 1) (payload ++ rest) =
      some (payload.take (2 ^ 32 - 1), (payload ++ rest).drop (2 ^ 32 - 1)) := by
    rw [split?, if_pos (by rw [List.length_append]; omega), htake]
  refine ⟨(payload ++ rest).drop (2 ^ 32 - 1), ?_⟩
  rw [connectReader, FrameReader.drain_ofSettled, readConnect_frame, if_neg h, hsplit]
  simp only [Option.bind_some]

private theorem drain_payloads_iff (payloads : List (List UInt8)) :
    (((connectReader flate).drain (payloads.flatMap frame)).items.map (·.payload) = payloads ∧
        ((connectReader flate).drain (payloads.flatMap frame)).rest = []) ↔
      ∀ payload ∈ payloads, payload.length < 2 ^ 32 := by
  induction payloads with
  | nil =>
    simp only [List.flatMap_nil, FrameReader.drain_of_wait (connectReader flate).front_nil]
    exact ⟨fun _ _ h ↦ absurd h List.not_mem_nil, fun _ ↦ ⟨rfl, trivial⟩⟩
  | cons payload payloads ih =>
    rw [List.flatMap_cons, List.forall_mem_cons, ← ih]
    by_cases hlength : payload.length < 2 ^ 32
    · rw [drain_frame hlength]
      simp only [Drained.items_prepend, Drained.rest_prepend, List.map_cons,
        List.singleton_append, List.cons.injEq, true_and, hlength]
    · obtain ⟨after, hafter⟩ := @drain_long_frame flate payload hlength (payloads.flatMap frame)
      rw [hafter]
      constructor
      · rintro ⟨hitems, -⟩
        rw [Drained.items_prepend, List.singleton_append, List.map_cons, List.cons.injEq] at hitems
        have hshort := congrArg List.length hitems.1
        rw [List.length_take_of_le (by omega)] at hshort
        omega
      · rintro ⟨hshort, -⟩
        exact absurd hshort hlength

variable (flate)

end Reading

/-- No payload of `flate2` is ever compressed. -/
def plainFlate : Flate2 := ⟨fun _ ↦ none, fun _ ↦ none, fun _ ↦ none⟩

end NullRouter.Bespoke.Cursor
