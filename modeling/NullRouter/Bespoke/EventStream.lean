import NullRouter.Base.Bytes
import NullRouter.Base.Crc
import NullRouter.Base.FrameReader
import NullRouter.Base.Json

/-!
# The event-stream codec

The frames of `vnd.amazon.eventstream`, `crates/execute/src/bespoke/kiro/eventstream.rs`: a prelude
of two lengths and a check, a block of headers, a payload and a check over all before it. What is
written in this format is read back, whatever follows it.
-/

namespace NullRouter.Bespoke.Kiro

open NullRouter.Base

/-! ## The check -/

/-- The reflected polynomial of CRC-32. -/
def crcPolynomial : BitVec 32 := 0xEDB88320#32

/-- `CRC_TABLE`, `eventstream.rs:24`: a byte moved on by eight bits. -/
def crcTable : List (BitVec 32) :=
  (List.range 256).map fun index ↦ (Crc.shift crcPolynomial)^[8] (BitVec.ofNat 32 index)

/-- One byte of the fold of `crc32`. -/
def crcByte (crc : BitVec 32) (byte : UInt8) : BitVec 32 :=
  let index := (crc.setWidth 8 ^^^ byte.toBitVec).toNat
  crcTable[index]?.getD 0 ^^^ (crc >>> 8)

/-- `crc32`, `eventstream.rs:36`. -/
def crc32 (bytes : List UInt8) : BitVec 32 :=
  bytes.foldl crcByte 0xFFFFFFFF#32 ^^^ 0xFFFFFFFF#32

/-- The bits of some bytes, the lowest of each byte first. -/
def bits (bytes : List UInt8) : List Bool := bytes.flatMap fun b ↦ Crc.lowBits 8 b.toBitVec

/-- The reflected CRC-32 bit by bit. -/
def bitwiseCrc32 (bytes : List UInt8) : BitVec 32 :=
  Crc.feedBits crcPolynomial 0xFFFFFFFF#32 (bits bytes) ^^^ 0xFFFFFFFF#32

private theorem crcByte_eq (crc : BitVec 32) (byte : UInt8) :
    crcByte crc byte = Crc.feedBits crcPolynomial crc (Crc.lowBits 8 byte.toBitVec) := by
  have hindex := (crc.setWidth 8 ^^^ byte.toBitVec).isLt
  rw [crcByte, crcTable, List.getElem?_map, List.getElem?_range hindex, Option.map_some,
    Option.getD_some, BitVec.ofNat_toNat]
  exact Crc.table_step crcPolynomial (by decide) crc byte.toBitVec

/-- The table stands for the bits. -/
theorem crc32_eq_bitwise (bytes : List UInt8) : crc32 bytes = bitwiseCrc32 bytes := by
  have hfold (crc : BitVec 32) :
      bytes.foldl crcByte crc = Crc.feedBits crcPolynomial crc (bits bytes) := by
    induction bytes generalizing crc with
    | nil => rfl
    | cons byte bytes ih =>
      rw [List.foldl_cons, ih, crcByte_eq, ← Crc.feedBits_append]
      rfl
  rw [crc32, bitwiseCrc32, hfold]

/-! ## Reading -/

/-- `MAX_MESSAGE`, `eventstream.rs:14`. -/
def maxMessage : Nat := 24 * 1024 * 1024

/-- `MAX_HEADERS`, `eventstream.rs:17`. -/
def maxHeaders : Nat := 128 * 1024

/-- `PRELUDE`, `eventstream.rs:20`. -/
def preludeLength : Nat := 12

/-- `MIN_FRAME`, `eventstream.rs:21`. -/
def minFrame : Nat := 16

/-- `FrameError`, `eventstream.rs:50`. -/
inductive FrameError where
  | preludeCrc
  | messageCrc
  | bounds
  | header (name : String)
  | payload (reason : String)
  deriving DecidableEq

/-- `Display` of a `FrameError`, `eventstream.rs:63`. -/
def FrameError.toString : FrameError → String
  | .preludeCrc => "event-stream prelude CRC mismatch"
  | .messageCrc => "event-stream message CRC mismatch"
  | .bounds => "event-stream frame bounds are invalid"
  | .header name => "event-stream header " ++ name ++ " is malformed"
  | .payload reason => "event-stream payload is not valid JSON (" ++ reason ++ ")"

/-- `HeaderValue`, `eventstream.rs:82`. -/
inductive HeaderValue where
  | bool (value : Bool)
  | int (value : Int)
  | bytes (value : List UInt8)
  | text (value : String)
  | skipped
  deriving DecidableEq

/-- `HeaderValue::text`, `eventstream.rs:94`. -/
def HeaderValue.text? : HeaderValue → Option String
  | .text value => some value
  | _ => none

/-- `Frame`, `eventstream.rs:104`. -/
structure Frame where
  headers : List (String × HeaderValue)
  payload : Option Json
  deriving DecidableEq

namespace Frame

/-- `header`, `eventstream.rs:113`. -/
def header (frame : Frame) (name : String) : Option HeaderValue :=
  (frame.headers.find? (·.1 == name)).map (·.2)

/-- `event_type`, `eventstream.rs:121`. -/
def eventType (frame : Frame) : Option String :=
  (frame.header ":event-type").bind HeaderValue.text?

/-- `message_type`, `eventstream.rs:126`. -/
def messageType (frame : Frame) : Option String :=
  (frame.header ":message-type").bind HeaderValue.text?

/-- `exception_type`, `eventstream.rs:131`. -/
def exceptionType (frame : Frame) : Option String :=
  (frame.header ":exception-type").bind HeaderValue.text?

end Frame

/-- Reading and printing the bytes of JSON: `serde_json::from_slice`, with the text of its error,
and `Value::to_string`. -/
structure SerdeJson where
  fromSlice : List UInt8 → Except String Json
  toString : Json → String

/-- `read_u32`, `eventstream.rs:310`; its callers hold the four bytes. -/
def readU32 (bytes : List UInt8) (offset : Nat) : Nat := Bytes.ofBe ((bytes.drop offset).take 4)

/-- A value of so many bytes, and what is left. -/
def readFixed (n : Nat) (value : List UInt8 → HeaderValue) (rest : List UInt8) (name : String) :
    Except FrameError (HeaderValue × List UInt8) :=
  match split? n rest with
  | some (bytes, rest) => .ok (value bytes, rest)
  | none => .error (.header name)

/-- `read_header_value`, `eventstream.rs:252`. -/
def readHeaderValue (kind : UInt8) (rest : List UInt8) (name : String) :
    Except FrameError (HeaderValue × List UInt8) :=
  match kind.toNat with
  | 0 => .ok (.bool true, rest)
  | 1 => .ok (.bool false, rest)
  | 2 => readFixed 1 (fun bytes ↦ .int (Bytes.ofBeSigned bytes)) rest name
  | 3 => readFixed 2 (fun bytes ↦ .int (Bytes.ofBeSigned bytes)) rest name
  | 4 => readFixed 4 (fun bytes ↦ .int (Bytes.ofBeSigned bytes)) rest name
  | 5 | 8 => readFixed 8 (fun _ ↦ .skipped) rest name
  | 6 | 7 =>
    match split? 2 rest with
    | some (length, rest) =>
      readFixed (Bytes.ofBe length)
        (fun body ↦ if kind.toNat = 7 then .text (Bytes.toText body) else .bytes body) rest name
    | none => .error (.header name)
  | 9 => readFixed 16 (fun _ ↦ .skipped) rest name
  | _ => .error (.header name)

/-- The loop of `parse_headers`, `eventstream.rs:219`: every header takes some of the block. -/
def parseHeadersWithin : Nat → List UInt8 → List (String × HeaderValue) →
    Except FrameError (List (String × HeaderValue))
  | _, [], headers => .ok headers
  | 0, _ :: _, headers => .ok headers
  | fuel + 1, nameLength :: rest, headers =>
    match split? nameLength.toNat rest with
    | none => .error (.header "<truncated>")
    | some (nameBytes, rest) =>
      let name := Bytes.toText nameBytes
      match rest with
      | [] => .error (.header name)
      | kind :: rest =>
        if headers.any (·.1 == name) then .error (.header name)
        else
          match readHeaderValue kind rest name with
          | .error error => .error error
          | .ok (value, rest) => parseHeadersWithin fuel rest (headers ++ [(name, value)])

/-- `parse_headers`, `eventstream.rs:217`. -/
def parseHeaders (block : List UInt8) : Except FrameError (List (String × HeaderValue)) :=
  parseHeadersWithin block.length block []

/-- `u8::is_ascii_whitespace`. -/
def isAsciiWhitespace (b : UInt8) : Bool :=
  b = 0x20 || b = 0x09 || b = 0x0A || b = 0x0C || b = 0x0D

section ReadFrame

variable (serde : SerdeJson)

/-- The second half of `read_frame`, `eventstream.rs:185`: all of a frame has arrived. -/
def readWhole (headersLength : Nat) (frame : List UInt8) : Front Frame FrameError :=
  let body := frame.take (frame.length - 4)
  if readU32 frame (frame.length - 4) ≠ (crc32 body).toNat then .stop .messageCrc
  else
    match parseHeaders ((frame.drop preludeLength).take headersLength) with
    | .error error => .stop error
    | .ok headers =>
      let payloadBytes := body.drop (preludeLength + headersLength)
      if payloadBytes.all isAsciiWhitespace then .item ⟨headers, none⟩ frame.length
      else
        match serde.fromSlice payloadBytes with
        | .ok value => .item ⟨headers, some value⟩ frame.length
        | .error reason => .stop (.payload reason)

/-- `read_frame`, `eventstream.rs:148`: to wait is its `Incomplete`, to stop its `Failed`. -/
def readFrame (buffer : List UInt8) : Front Frame FrameError :=
  match split? preludeLength buffer with
  | none => .wait
  | some (prelude, _) =>
    let total := readU32 prelude 0
    let headersLength := readU32 prelude 4
    if readU32 prelude 8 ≠ (crc32 (prelude.take 8)).toNat then .stop .preludeCrc
    else if ¬(minFrame ≤ total ∧ total ≤ maxMessage) ∨ maxHeaders < headersLength ∨
        total - minFrame < headersLength then
      .stop .bounds
    else
      match split? total buffer with
      | none => .wait
      | some (frame, _) => readWhole serde headersLength frame

private theorem readU32_take {buffer : List UInt8} {n offset : Nat} (h : offset + 4 ≤ n) :
    readU32 (buffer.take n) offset = readU32 buffer offset := by
  rw [readU32, readU32, List.drop_take, List.take_take, Nat.min_eq_left (by omega)]

private theorem readWhole_eq_item {headersLength : Nat} {bytes : List UInt8} {frame : Frame}
    {length : Nat} (h : readWhole serde headersLength bytes = .item frame length) :
    length = bytes.length ∧
      readU32 bytes (bytes.length - 4) = (crc32 (bytes.take (bytes.length - 4))).toNat := by
  rw [readWhole] at h
  split at h
  · cases h
  · next hcrc =>
    refine ⟨?_, not_not.mp hcrc⟩
    split at h
    · cases h
    · simp only at h
      split at h
      · cases h
        rfl
      · split at h
        · cases h
          rfl
        · cases h

/-- A frame that is read is within the buffer, and the check over it holds. -/
theorem readFrame_eq_item {buffer : List UInt8} {frame : Frame} {length : Nat}
    (h : readFrame serde buffer = .item frame length) :
    length = readU32 buffer 0 ∧ minFrame ≤ length ∧ length ≤ buffer.length ∧
      readU32 buffer (length - 4) = (crc32 (buffer.take (length - 4))).toNat := by
  rw [readFrame] at h
  split at h
  · cases h
  · next prelude after hprelude =>
    obtain ⟨hbuffer, hlength⟩ := split?_eq_some hprelude
    have hprelude : prelude = buffer.take preludeLength := by
      rw [hbuffer, ← hlength, List.take_left]
    simp only at h
    split at h
    · cases h
    · split at h
      · cases h
      · next hbounds =>
        split at h
        · cases h
        · next whole later hwhole =>
          obtain ⟨hsplit, htotal⟩ := split?_eq_some hwhole
          obtain ⟨rfl, hcrc⟩ := readWhole_eq_item serde h
          have htake : buffer.take whole.length = whole := by rw [hsplit, List.take_left]
          have hmin : minFrame ≤ whole.length := by
            rw [htotal]
            omega
          have hfour : 4 ≤ whole.length := Nat.le_trans (by decide) hmin
          refine ⟨?_, hmin, ?_, ?_⟩
          · rw [htotal, hprelude, readU32_take (by decide)]
          · rw [hsplit, List.length_append]
            exact Nat.le_add_right _ _
          · have hread := @readU32_take buffer whole.length (whole.length - 4) (by omega)
            rw [htake] at hread
            rw [← hread, hcrc, hsplit, List.take_append_of_le_length (Nat.sub_le _ _)]

/-- What is read of a buffer is read of every longer one. -/
theorem readFrame_append {buffer : List UInt8} (h : readFrame serde buffer ≠ .wait)
    (rest : List UInt8) : readFrame serde (buffer ++ rest) = readFrame serde buffer := by
  have hlonger {n : Nat} {front after : List UInt8}
      (hfront : split? n buffer = some (front, after)) :
      split? n (buffer ++ rest) = some (front, after ++ rest) := by
    obtain ⟨rfl, rfl⟩ := split?_eq_some hfront
    rw [List.append_assoc, split?_append]
  cases hprelude : split? preludeLength buffer with
  | none =>
    rw [readFrame, hprelude] at h
    exact absurd rfl h
  | some prelude =>
    rw [readFrame, hprelude] at h
    rw [readFrame, readFrame, hlonger hprelude, hprelude]
    simp only at h ⊢
    cases hwhole : split? (readU32 prelude.1 0) buffer with
    | none =>
      rw [hwhole] at h
      split
      · rfl
      · next hcrc =>
        split
        · rfl
        · next hbounds =>
          rw [if_neg hcrc, if_neg hbounds] at h
          exact absurd rfl h
    | some whole => rw [hlonger hwhole]

end ReadFrame

/-- The frames of an event stream. -/
def eventReader (serde : SerdeJson) : FrameReader UInt8 Frame FrameError where
  front := readFrame serde
  front_nil := rfl
  length_le h :=
    have hitem := readFrame_eq_item serde h
    ⟨Nat.lt_of_lt_of_le (by decide) hitem.2.1, hitem.2.2.1⟩
  stable := readFrame_append serde

/-! ## Writing -/

/-- A header of text, whose lengths fit the fields they are written in. -/
structure TextHeader where
  name : String
  value : String
  name_fits : (Bytes.ofText name).length < 256
  value_fits : (Bytes.ofText value).length < 65536

/-- What the header is read as. -/
def TextHeader.read (h : TextHeader) : String × HeaderValue := (h.name, .text h.value)

/-- The bytes of a header, as the encoder of the tests writes them, `eventstream.rs:327`. -/
def TextHeader.encode (h : TextHeader) : List UInt8 :=
  UInt8.ofNat (Bytes.ofText h.name).length :: (Bytes.ofText h.name ++
    7 :: (Bytes.toBe 2 (Bytes.ofText h.value).length ++ Bytes.ofText h.value))

/-- A message of text headers. -/
structure Message where
  headers : List TextHeader
  payload : Option Json

namespace Message

variable (serde : SerdeJson) (m : Message)

/-- The header block. -/
def block : List UInt8 := m.headers.flatMap TextHeader.encode

/-- The payload's bytes, none where there is no payload. -/
def body : List UInt8 := m.payload.elim [] (Bytes.ofText ∘ serde.toString)

/-- The length of the whole frame. -/
def total : Nat := 16 + m.block.length + (m.body serde).length

/-- The two lengths that a frame begins with. -/
def lengths : List UInt8 := Bytes.toBe 4 (m.total serde) ++ Bytes.toBe 4 m.block.length

/-- All of a frame that its check is over. -/
def checked : List UInt8 :=
  m.lengths serde ++ (Bytes.toBe 4 (crc32 (m.lengths serde)).toNat ++ (m.block ++ m.body serde))

/-- The frame of a message, as the encoder of the tests builds it, `eventstream.rs:324`. -/
def encode : List UInt8 := m.checked serde ++ Bytes.toBe 4 (crc32 (m.checked serde)).toNat

/-- The frame that a message is read as. -/
def frame : Frame := ⟨m.headers.map TextHeader.read, m.payload⟩

/-- The lengths are those the format admits. -/
structure Admissible : Prop where
  block_le : m.block.length ≤ maxHeaders
  total_le : m.total serde ≤ maxMessage

/-- The payload is read back from its bytes, and these are not all spaces. -/
structure Restored : Prop where
  read : ∀ value ∈ m.payload, serde.fromSlice (m.body serde) = .ok value
  printed : m.payload ≠ none → (m.body serde).all isAsciiWhitespace = false

end Message

section RoundTrip

variable (serde : SerdeJson)

private theorem readU32_toBe {n : Nat} (h : n < 256 ^ 4) (front back : List UInt8) :
    readU32 (front ++ (Bytes.toBe 4 n ++ back)) front.length = n := by
  have htake : (Bytes.toBe 4 n ++ back).take 4 = Bytes.toBe 4 n :=
    List.take_left' (Bytes.length_toBe 4 n)
  rw [readU32, List.drop_left, htake, Bytes.ofBe_toBe h]

private theorem readHeaderValue_text (h : TextHeader) (rest : List UInt8) :
    readHeaderValue 7 (Bytes.toBe 2 (Bytes.ofText h.value).length ++
      (Bytes.ofText h.value ++ rest)) h.name = .ok (.text h.value, rest) := by
  have hlength : Bytes.ofBe (Bytes.toBe 2 (Bytes.ofText h.value).length) =
      (Bytes.ofText h.value).length := Bytes.ofBe_toBe h.value_fits
  rw [readHeaderValue, show (7 : UInt8).toNat = 7 from rfl]
  simp only [split?_append_of_length (Bytes.length_toBe 2 _), readFixed, hlength,
    split?_append, if_pos, Bytes.toText_ofText]

private theorem parseHeadersWithin_encode (h : TextHeader) (fuel : Nat) (rest : List UInt8)
    (headers : List (String × HeaderValue)) :
    parseHeadersWithin (fuel + 1) (h.encode ++ rest) headers =
      if headers.any (·.1 == h.name) then .error (.header h.name)
      else parseHeadersWithin fuel rest (headers ++ [h.read]) := by
  have hlength : (UInt8.ofNat (Bytes.ofText h.name).length).toNat =
      (Bytes.ofText h.name).length := by
    rw [UInt8.toNat_ofNat', Nat.mod_eq_of_lt h.name_fits]
  rw [TextHeader.encode, List.cons_append, List.append_assoc, parseHeadersWithin, hlength,
    split?_append]
  simp only [Bytes.toText_ofText, List.cons_append, List.append_assoc, readHeaderValue_text]
  rfl

/-- The headers of a block are read in order where no two have one name. -/
theorem parseHeaders_block {headers : List TextHeader} (h : (headers.map (·.name)).Nodup) :
    parseHeaders (headers.flatMap TextHeader.encode) = .ok (headers.map TextHeader.read) := by
  have hwithin : ∀ (headers : List TextHeader) (fuel : Nat) (before : List (String × HeaderValue)),
      (headers.flatMap TextHeader.encode).length ≤ fuel →
      (before.map (·.1) ++ headers.map (·.name)).Nodup →
      parseHeadersWithin fuel (headers.flatMap TextHeader.encode) before =
        .ok (before ++ headers.map TextHeader.read) := by
    intro headers
    induction headers with
    | nil =>
      intro fuel before _ _
      rw [List.flatMap_nil, List.map_nil, List.append_nil]
      cases fuel <;> rfl
    | cons h headers ih =>
      intro fuel before hfuel hnodup
      have hlength : 0 < h.encode.length := Nat.zero_lt_succ _
      rw [List.flatMap_cons, List.length_append] at hfuel
      obtain ⟨fuel, rfl⟩ := Nat.exists_eq_add_one.mpr (show 0 < fuel by omega)
      have hnew : ¬ before.any (·.1 == h.name) = true := by
        intro hany
        obtain ⟨header, hmem, hname⟩ := List.any_eq_true.mp hany
        rw [List.map_cons, List.nodup_append] at hnodup
        exact hnodup.2.2 _ (List.mem_map_of_mem hmem) h.name List.mem_cons_self (eq_of_beq hname)
      rw [List.flatMap_cons, parseHeadersWithin_encode, if_neg hnew, ih fuel _ (by omega)]
      · rw [List.map_cons, List.append_assoc]
        rfl
      · rw [List.map_append, List.append_assoc]
        exact hnodup
  exact hwithin headers _ [] (Nat.le_refl _) h

private theorem toNat_crc_lt (bytes : List UInt8) : (crc32 bytes).toNat < 256 ^ 4 :=
  (crc32 bytes).isLt

private theorem length_lengths (m : Message) : (m.lengths serde).length = 8 := by
  rw [Message.lengths, List.length_append, Bytes.length_toBe, Bytes.length_toBe]

private theorem length_checked (m : Message) :
    (m.checked serde).length = 12 + m.block.length + (m.body serde).length := by
  rw [Message.checked, List.length_append, List.length_append, List.length_append,
    length_lengths, Bytes.length_toBe]
  omega

/-- A frame is as long as it says. -/
theorem length_encode (m : Message) : (m.encode serde).length = m.total serde := by
  rw [Message.encode, List.length_append, length_checked, Bytes.length_toBe, Message.total]
  omega

private theorem length_prelude (m : Message) :
    (m.lengths serde ++ Bytes.toBe 4 (crc32 (m.lengths serde)).toNat).length = preludeLength := by
  rw [List.length_append, length_lengths, Bytes.length_toBe]
  rfl

private theorem readWhole_encode (m : Message) :
    readWhole serde m.block.length (m.encode serde) =
      match parseHeaders m.block with
      | .error error => .stop error
      | .ok headers =>
        if (m.body serde).all isAsciiWhitespace then .item ⟨headers, none⟩ (m.total serde)
        else
          match serde.fromSlice (m.body serde) with
          | .ok value => .item ⟨headers, some value⟩ (m.total serde)
          | .error reason => .stop (.payload reason) := by
  have hend : (m.encode serde).length - 4 = (m.checked serde).length := by
    rw [Message.encode, List.length_append, Bytes.length_toBe, Nat.add_sub_cancel]
  have hchecked : (m.encode serde).take (m.checked serde).length = m.checked serde := by
    rw [Message.encode, List.take_left]
  have hcrc :
      readU32 (m.encode serde) (m.checked serde).length = (crc32 (m.checked serde)).toNat := by
    have hread := readU32_toBe (toNat_crc_lt (m.checked serde)) (m.checked serde) []
    rwa [List.append_nil] at hread
  have hprelude := length_prelude serde m
  have hblock : ((m.encode serde).drop preludeLength).take m.block.length = m.block := by
    rw [Message.encode, Message.checked, ← List.append_assoc, List.append_assoc _ _ (Bytes.toBe _ _),
      ← hprelude, List.drop_left, List.append_assoc, List.take_left]
  have hbody : (m.checked serde).drop (preludeLength + m.block.length) = m.body serde := by
    rw [Message.checked, ← List.append_assoc, ← List.append_assoc, ← hprelude, ← List.length_append,
      List.drop_left]
  rw [readWhole, hend, hchecked, hcrc, if_neg (not_not.mpr rfl), hblock, hbody, length_encode]

private theorem readFrame_prelude (m : Message) (h : m.Admissible serde)
    {buffer after : List UInt8}
    (hbuffer : split? preludeLength buffer =
      some (m.lengths serde ++ Bytes.toBe 4 (crc32 (m.lengths serde)).toNat, after)) :
    readFrame serde buffer =
      match split? (m.total serde) buffer with
      | none => .wait
      | some (frame, _) => readWhole serde m.block.length frame := by
  have htotal : m.total serde < 256 ^ 4 := Nat.lt_of_le_of_lt h.total_le (by decide)
  have hblock : m.block.length < 256 ^ 4 := Nat.lt_of_le_of_lt h.block_le (by decide)
  have hcrc := toNat_crc_lt (m.lengths serde)
  have h0 : readU32 (m.lengths serde ++ Bytes.toBe 4 (crc32 (m.lengths serde)).toNat) 0 =
      m.total serde := by
    rw [Message.lengths, List.append_assoc]
    exact readU32_toBe htotal [] _
  have h4 : readU32 (m.lengths serde ++ Bytes.toBe 4 (crc32 (m.lengths serde)).toNat) 4 =
      m.block.length := by
    have hread := readU32_toBe hblock (Bytes.toBe 4 (m.total serde))
      (Bytes.toBe 4 (crc32 (m.lengths serde)).toNat)
    rwa [Bytes.length_toBe, ← List.append_assoc] at hread
  have h8 : readU32 (m.lengths serde ++ Bytes.toBe 4 (crc32 (m.lengths serde)).toNat) 8 =
      (crc32 (m.lengths serde)).toNat := by
    have hread := readU32_toBe hcrc (m.lengths serde) []
    rwa [List.append_nil, length_lengths] at hread
  have htake : (m.lengths serde ++ Bytes.toBe 4 (crc32 (m.lengths serde)).toNat).take 8 =
      m.lengths serde := List.take_left' (length_lengths serde m)
  have hbounds : ¬(¬(minFrame ≤ m.total serde ∧ m.total serde ≤ maxMessage) ∨
      maxHeaders < m.block.length ∨ m.total serde - minFrame < m.block.length) := by
    have hblock := h.block_le
    have htotal := h.total_le
    rw [Message.total] at *
    rw [minFrame]
    omega
  rw [readFrame, hbuffer]
  simp only [h0, h4, h8, htake]
  rw [if_neg (not_not.mpr rfl), if_neg hbounds]

private theorem encode_eq_prelude_append (m : Message) :
    m.encode serde = (m.lengths serde ++ Bytes.toBe 4 (crc32 (m.lengths serde)).toNat) ++
      (m.block ++ m.body serde ++ Bytes.toBe 4 (crc32 (m.checked serde)).toNat) := by
  rw [Message.encode, Message.checked, ← List.append_assoc (m.lengths serde), List.append_assoc]

private theorem readFrame_encode (m : Message) (h : m.Admissible serde) (rest : List UInt8) :
    readFrame serde (m.encode serde ++ rest) = readWhole serde m.block.length (m.encode serde) := by
  have hsplit := @split?_append_of_length _ _ _
    (m.block ++ m.body serde ++ Bytes.toBe 4 (crc32 (m.checked serde)).toNat ++ rest)
    (length_prelude serde m)
  rw [← List.append_assoc, ← encode_eq_prelude_append] at hsplit
  rw [readFrame_prelude serde m h hsplit, split?_append_of_length (length_encode serde m)]

/-- A part of a frame is waited on. -/
theorem readFrame_part (m : Message) (h : m.Admissible serde) {part : List UInt8}
    (hpart : part <+: m.encode serde) (hne : part ≠ m.encode serde) :
    readFrame serde part = .wait := by
  have hlength : part.length < m.total serde := by
    rw [← length_encode]
    exact Nat.lt_of_le_of_ne hpart.length_le fun heq ↦ hne (hpart.eq_of_length heq)
  by_cases hprelude : preludeLength ≤ part.length
  · have hsplit : split? preludeLength part =
        some (m.lengths serde ++ Bytes.toBe 4 (crc32 (m.lengths serde)).toNat,
          part.drop preludeLength) := by
      obtain ⟨missing, hmissing⟩ := hpart
      have htake : part.take preludeLength = (part ++ missing).take preludeLength :=
        (List.take_append_of_le_length hprelude).symm
      rw [split?, if_pos hprelude, htake, hmissing, encode_eq_prelude_append,
        List.take_left' (length_prelude serde m)]
    rw [readFrame_prelude serde m h hsplit, split?, if_neg (by omega)]
  · rw [readFrame, split?, if_neg hprelude]

/-- A message is read back from its frame, whatever follows it. -/
theorem readFrame_message (m : Message) (h : m.Admissible serde)
    (hnames : (m.headers.map (·.name)).Nodup) (hpayload : m.Restored serde) (rest : List UInt8) :
    readFrame serde (m.encode serde ++ rest) = .item m.frame (m.encode serde).length := by
  rw [readFrame_encode serde m h, readWhole_encode, Message.block, parseHeaders_block hnames,
    length_encode]
  cases hvalue : m.payload with
  | none =>
    have hbody : m.body serde = [] := by rw [Message.body, hvalue]; rfl
    simp only [hbody, List.all_nil, if_true, Message.frame, hvalue]
  | some value =>
    simp only [hpayload.printed (by rw [hvalue]; nofun), hpayload.read value hvalue,
      Bool.false_eq_true, if_false, Message.frame, hvalue]

end RoundTrip

/-- The codec reads back every message whose headers have distinct names, waits on every part of a
frame, and takes no less than the smallest frame and no more than it has. -/
theorem read_frame_reads_back (serde : SerdeJson) :
    (∀ m : Message, m.Admissible serde → m.Restored serde → (m.headers.map (·.name)).Nodup →
      (∀ rest, readFrame serde (m.encode serde ++ rest) =
        .item m.frame (m.encode serde).length) ∧
      ∀ part, part <+: m.encode serde → part ≠ m.encode serde → readFrame serde part = .wait) ∧
    ∀ buffer frame length, readFrame serde buffer = .item frame length →
      16 ≤ length ∧ length ≤ buffer.length := by
  refine ⟨fun m hfits hpayload hnames ↦ ⟨?_, ?_⟩, ?_⟩
  · exact readFrame_message serde m hfits hnames hpayload
  · intro part hpart hne
    exact readFrame_part serde m hfits hpart hne
  · intro buffer frame length hitem
    have hread := readFrame_eq_item serde hitem
    exact ⟨hread.2.1, hread.2.2.1⟩

/-- JSON that is an empty object. -/
def emptyObject : SerdeJson where
  fromSlice bytes := if bytes = Bytes.ofText "\x7b\x7d" then .ok (.obj []) else .error "expected value"
  toString _ := "\x7b\x7d"

/-- A header that names an event. -/
def eventTypeHeader (value : String) (h : (Bytes.ofText value).length < 65536) : TextHeader :=
  ⟨":event-type", value, by decide, h⟩

/-- A message that ends a turn. -/
def stopMessage : Message := ⟨[eventTypeHeader "messageStopEvent" (by decide)], some (.obj [])⟩

/-- The codec on the frame of a message that ends a turn, with a byte after it. -/
theorem read_frame_reads_back_stop :
    readFrame emptyObject (stopMessage.encode emptyObject ++ [0]) =
      .item stopMessage.frame (stopMessage.encode emptyObject).length :=
  ((read_frame_reads_back emptyObject).1 stopMessage ⟨by decide, by decide⟩
    ⟨fun value hvalue ↦ by
      obtain rfl := Option.mem_some.mp hvalue
      decide, fun _ ↦ by decide⟩ (by decide)).1 [0]

/-- A frame with two headers of one name is refused. -/
theorem duplicate_header_is_refused :
    ¬ ∀ (serde : SerdeJson) (m : Message), m.Admissible serde → m.Restored serde → ∀ rest,
      readFrame serde (m.encode serde ++ rest) = .item m.frame (m.encode serde).length := by
  intro h
  let m : Message := ⟨[eventTypeHeader "a" (by decide), eventTypeHeader "b" (by decide)], some (.obj [])⟩
  have hread := h emptyObject m ⟨by decide, by decide⟩
    ⟨fun value hvalue ↦ by
      obtain rfl := Option.mem_some.mp hvalue
      decide, fun _ ↦ by decide⟩ []
  have hheaders : parseHeaders m.block = .error (.header ":event-type") := by decide
  rw [readFrame_encode emptyObject m ⟨by decide, by decide⟩, readWhole_encode, hheaders] at hread
  cases hread

/-!
## Corrupted frames

What the checks of an event-stream frame, `crates/execute/src/bespoke/kiro/eventstream.rs:148`,
find: a change within 32 consecutive bits, in the order in which a check takes them, either of the
part that the message's check is over or of that check itself. The check is written with its
highest byte first, so that a window that begins before it and ends in it is no window of the
check's own order.
-/

/-- Bytes that differ from others within so many consecutive bits. -/
def Burst (n : Nat) (bytes bytes' : List UInt8) : Prop :=
  ∃ before burst burst' after : List Bool, bits bytes = before ++ burst ++ after ∧
    bits bytes' = before ++ burst' ++ after ∧ burst.length = burst'.length ∧ burst.length ≤ n ∧
    burst ≠ burst'

@[simp] theorem bits_append (a b : List UInt8) : bits (a ++ b) = bits a ++ bits b :=
  List.flatMap_append

@[simp] theorem length_bits (bytes : List UInt8) : (bits bytes).length = 8 * bytes.length := by
  induction bytes with
  | nil => rfl
  | cons b bytes ih =>
    rw [bits, List.flatMap_cons, List.length_append, Crc.length_lowBits, ← bits, ih,
      List.length_cons]
    omega

namespace Burst

variable {n : Nat} {bytes bytes' : List UInt8}

theorem length_eq (h : Burst n bytes bytes') : bytes'.length = bytes.length := by
  obtain ⟨before, burst, burst', after, hbits, hbits', hlength, -, -⟩ := h
  have hlong := congrArg List.length hbits
  have hlong' := congrArg List.length hbits'
  simp only [length_bits, List.length_append] at hlong hlong'
  omega

theorem ne (h : Burst n bytes bytes') : bytes' ≠ bytes := by
  rintro rfl
  obtain ⟨before, burst, burst', after, hbits, hbits', -, -, hne⟩ := h
  rw [hbits, List.append_left_inj, List.append_right_inj] at hbits'
  exact hne hbits'

/-- A register that takes the bits of both does not come out alike. -/
theorem feedBits_ne (h : Burst 32 bytes bytes') (r : BitVec 32) :
    Crc.feedBits crcPolynomial r (bits bytes) ≠ Crc.feedBits crcPolynomial r (bits bytes') := by
  obtain ⟨before, burst, burst', after, hbits, hbits', hlength, hburst, hne⟩ := h
  rw [hbits, hbits']
  exact Crc.feedBits_ne_of_burst (by decide) hlength hburst hne r

end Burst

private theorem feedBits_eq_of_crc32_eq {a b : List UInt8} (h : crc32 a = crc32 b) :
    Crc.feedBits crcPolynomial 0xFFFFFFFF#32 (bits a) =
      Crc.feedBits crcPolynomial 0xFFFFFFFF#32 (bits b) := by
  rw [crc32_eq_bitwise, crc32_eq_bitwise, bitwiseCrc32, bitwiseCrc32] at h
  have hdouble := congrArg (· ^^^ 0xFFFFFFFF#32) h
  simpa only [BitVec.xor_assoc, BitVec.xor_self, BitVec.xor_zero] using hdouble

section Refusal

variable (serde : SerdeJson)

/-- A frame that is changed within 32 bits, before its message check or in it, but for its total
length, is read as none. -/
theorem readFrame_ne_item_of_burst {bytes bytes' : List UInt8} {frame : Frame}
    (h : readFrame serde bytes = .item frame bytes.length) (hburst : Burst 32 bytes bytes')
    (htotal : bytes'.take 4 = bytes.take 4)
    (hside : bytes'.take (bytes.length - 4) = bytes.take (bytes.length - 4) ∨
      bytes'.drop (bytes.length - 4) = bytes.drop (bytes.length - 4))
    (rest : List UInt8) (frame' : Frame) (length : Nat) :
    readFrame serde (bytes' ++ rest) ≠ .item frame' length := by
  intro hread
  obtain ⟨hlength, hmin, -, hcrc⟩ := readFrame_eq_item serde h
  obtain ⟨hlength', -, -, hcrc'⟩ := readFrame_eq_item serde hread
  have hfour : 4 ≤ bytes.length := Nat.le_trans (by decide) hmin
  have hsame : bytes'.length = bytes.length := hburst.length_eq
  have hfront (k : Nat) (hk : k ≤ bytes.length) : (bytes' ++ rest).take k = bytes'.take k :=
    List.take_append_of_le_length (by omega)
  obtain rfl : length = bytes.length := by
    have hzero : (bytes' ++ rest).take 4 = bytes'.take 4 := hfront 4 hfour
    rw [hlength', hlength, readU32, readU32, List.drop_zero, List.drop_zero, hzero, htotal]
  have hstored : readU32 (bytes' ++ rest) (bytes.length - 4) =
      Bytes.ofBe (bytes'.drop (bytes.length - 4)) := by
    rw [readU32, List.drop_append_of_le_length (by omega),
      List.take_left' (by rw [List.length_drop]; omega)]
  have hstored₀ :
      readU32 bytes (bytes.length - 4) = Bytes.ofBe (bytes.drop (bytes.length - 4)) := by
    rw [readU32, List.take_of_length_le (by rw [List.length_drop]; omega)]
  rw [hstored, hfront _ (Nat.sub_le _ _)] at hcrc'
  rw [hstored₀] at hcrc
  have hjoin := List.take_append_drop (bytes.length - 4) bytes
  have hjoin' := List.take_append_drop (bytes.length - 4) bytes'
  rcases hside with hbody | hcheck
  · -- the check is over the same bytes, so the stored one is the same
    rw [hbody, ← hcrc] at hcrc'
    have hdrop := Bytes.ofBe_injective
      (by rw [List.length_drop, List.length_drop, hsame]) hcrc'
    exact hburst.ne (by rw [← hjoin', hbody, hdrop, hjoin])
  · -- the stored check is the same, so that over the bytes is
    rw [hcheck, hcrc] at hcrc'
    have hregister := feedBits_eq_of_crc32_eq (BitVec.eq_of_toNat_eq hcrc')
    refine hburst.feedBits_ne 0xFFFFFFFF#32 ?_
    rw [← hjoin, ← hjoin', hcheck, bits_append, bits_append, Crc.feedBits_append,
      Crc.feedBits_append, hregister]

/-- No frame is read of a changed one, and the check is the reflected CRC-32. -/
theorem corrupted_frames_are_refused :
    (∀ (bytes bytes' : List UInt8) (frame : Frame),
      readFrame serde bytes = .item frame bytes.length → Burst 32 bytes bytes' →
      bytes'.take 4 = bytes.take 4 →
      (bytes'.take (bytes.length - 4) = bytes.take (bytes.length - 4) ∨
        bytes'.drop (bytes.length - 4) = bytes.drop (bytes.length - 4)) →
      ∀ rest frame' length, readFrame serde (bytes' ++ rest) ≠ .item frame' length) ∧
    ∀ bytes, crc32 bytes = bitwiseCrc32 bytes :=
  ⟨fun _ _ _ h hburst htotal hside ↦ readFrame_ne_item_of_burst serde h hburst htotal hside,
    crc32_eq_bitwise⟩

end Refusal

/-- A frame of one header that ends in two letters. -/
def lettersFrame : List UInt8 :=
  [0, 0, 0, 23, 0, 0, 0, 7, 41, 134, 1, 88, 1, 97, 7, 0, 2, 65, 65, 14, 254, 2, 88]

/-- The frame with another first letter. -/
def changedLetter : List UInt8 :=
  [0, 0, 0, 23, 0, 0, 0, 7, 41, 134, 1, 88, 1, 97, 7, 0, 2, 66, 65, 14, 254, 2, 88]

/-- The frame with the letters and the first half of the check changed. -/
def changedAcross : List UInt8 :=
  [0, 0, 0, 23, 0, 0, 0, 7, 41, 134, 1, 88, 1, 97, 7, 0, 2, 32, 153, 250, 16, 2, 88]

private theorem readFrame_lettersFrame :
    readFrame emptyObject lettersFrame = .item ⟨[("a", .text "AA")], none⟩ lettersFrame.length := by
  decide +kernel

/-- A letter that is changed is found. -/
theorem corrupted_frames_are_refused_letter :
    readFrame emptyObject (changedLetter ++ []) ≠ .item ⟨[("a", .text "BA")], none⟩ 23 :=
  (corrupted_frames_are_refused emptyObject).1 lettersFrame changedLetter _ readFrame_lettersFrame
    ⟨bits (lettersFrame.take 17), bits [65], bits [66], bits (lettersFrame.drop 18),
      by decide +kernel, by decide +kernel, by decide, by decide, by decide⟩ (by decide)
      (.inr (by decide)) [] _ _

/-- A change of 32 consecutive bits that begins before the check and ends in it is not found. -/
theorem change_across_the_check_is_accepted :
    ¬ ∀ (serde : SerdeJson) (bytes bytes' : List UInt8) (frame : Frame),
      readFrame serde bytes = .item frame bytes.length → Burst 32 bytes bytes' →
      bytes'.take 4 = bytes.take 4 →
      ∀ rest frame' length, readFrame serde (bytes' ++ rest) ≠ .item frame' length := by
  intro h
  have hread : readFrame emptyObject changedAcross =
      .item ⟨[("a", .text (String.ofList [' ', Utf8.replacement]))], none⟩ 23 := by decide +kernel
  exact h emptyObject lettersFrame changedAcross _ readFrame_lettersFrame
    ⟨bits (lettersFrame.take 17), bits [65, 65, 14, 254], bits [32, 153, 250, 16],
      bits (lettersFrame.drop 21), by decide +kernel, by decide +kernel, by decide, by decide,
      by decide⟩
    (by decide) [] _ _ hread

end NullRouter.Bespoke.Kiro
