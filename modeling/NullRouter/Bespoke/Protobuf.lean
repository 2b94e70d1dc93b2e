import Mathlib.Tactic.Ring
import NullRouter.Base.Bytes
import NullRouter.Base.FrameReader

/-!
# The protobuf codec

Writing and reading protobuf messages, `crates/execute/src/bespoke/cursor/protobuf.rs`. What is
written is read back field by field, at every depth, and what is read of a part of a message is
read of the whole first.
-/

namespace NullRouter.Bespoke.Cursor

open NullRouter.Base

/-! ## Writing -/

/-- `put_varint`, `protobuf.rs:34`. -/
def putVarint (value : Nat) : List UInt8 :=
  if 0x80 ≤ value then UInt8.ofNat (value % 0x80 + 0x80) :: putVarint (value / 0x80)
  else [UInt8.ofNat value]

/-- `put_tag`, `protobuf.rs:68`. -/
def putTag (field wireType : Nat) : List UInt8 := putVarint (field <<< 3 ||| wireType)

/-- `put_bytes`, `protobuf.rs:47`. -/
def putBytes (field : Nat) (value : List UInt8) : List UInt8 :=
  putTag field 2 ++ putVarint value.length ++ value

/-- `put_str`, `protobuf.rs:54`. -/
def putStr (field : Nat) (value : String) : List UInt8 := putBytes field (Bytes.ofText value)

/-- `put_uint`, `protobuf.rs:59`. -/
def putUint (field value : Nat) : List UInt8 := putTag field 0 ++ putVarint value

/-- `put_bool`, `protobuf.rs:64`. -/
def putBool (field : Nat) (value : Bool) : List UInt8 := putUint field value.toNat

/-! ## Reading -/

/-- The loop of `read_varint`, `protobuf.rs:260`. -/
def readVarintFrom (shift value : Nat) : List UInt8 → Option (Nat × List UInt8)
  | [] => none
  | byte :: rest =>
    if 64 ≤ shift then none
    else
      let value := value ||| (byte.toNat % 0x80) <<< shift % 2 ^ 64
      if byte.toNat < 0x80 then some (value, rest) else readVarintFrom (shift + 7) value rest

/-- `read_varint`, `protobuf.rs:260`. -/
def readVarint (data : List UInt8) : Option (Nat × List UInt8) := readVarintFrom 0 0 data

/-- `FieldValue`, `protobuf.rs:98`. -/
inductive FieldValue where
  | uint (value : Nat)
  | bytes (value : List UInt8)
  deriving DecidableEq

namespace FieldValue

/-- `bytes`, `protobuf.rs:107`. -/
def bytes? : FieldValue → Option (List UInt8)
  | .bytes value => some value
  | .uint _ => none

/-- `text`, `protobuf.rs:119`. -/
def text? (value : FieldValue) : Option String := value.bytes?.map Bytes.toText

end FieldValue

/-- `read_tag`, `protobuf.rs:211`: a field number of 32 bits that is not 0, and a wire type. -/
def readTag (data : List UInt8) : Option ((Nat × Nat) × List UInt8) :=
  (readVarint data).bind fun read ↦
    if read.1 >>> 3 < 2 ^ 32 ∧ read.1 >>> 3 ≠ 0 then some ((read.1 >>> 3, read.1 % 8), read.2)
    else none

/-- `read_value`, `protobuf.rs:219`. -/
def readValue (wireType : Nat) (data : List UInt8) : Option (FieldValue × List UInt8) :=
  match wireType with
  | 0 => (readVarint data).bind fun read ↦ some (.uint read.1, read.2)
  | 2 => (readVarint data).bind fun length ↦
      (split? length.1 length.2).bind fun read ↦ some (.bytes read.1, read.2)
  | 1 => (split? 8 data).bind fun read ↦ some (.uint (Bytes.ofLe read.1), read.2)
  | 5 => (split? 4 data).bind fun read ↦ some (.uint (Bytes.ofLe read.1), read.2)
  | _ => none

/-- The two reads of the loop of `decode`, `protobuf.rs:145`. -/
def readField (data : List UInt8) : Option ((Nat × FieldValue) × List UInt8) :=
  (readTag data).bind fun tag ↦
    (readValue tag.1.2 tag.2).bind fun read ↦ some ((tag.1.1, read.1), read.2)

section Settled

private theorem settled_readVarintFrom (shift value : Nat) :
    Settled (readVarintFrom shift value) := by
  intro xs v rest h
  induction xs generalizing shift value with
  | nil => cases h
  | cons byte xs ih =>
    rw [readVarintFrom] at h
    split at h
    · cases h
    · next hshift =>
      simp only at h
      split at h
      · next hlast =>
        obtain ⟨rfl, rfl⟩ := Prod.mk.inj (Option.some.inj h)
        refine ⟨[byte], rfl, fun more ↦ ?_⟩
        rw [List.singleton_append, readVarintFrom, if_neg hshift]
        exact if_pos hlast
      · next hlast =>
        obtain ⟨front, rfl, hfront⟩ := ih _ _ h
        refine ⟨byte :: front, rfl, fun more ↦ ?_⟩
        rw [List.cons_append, readVarintFrom, if_neg hshift]
        exact (if_neg hlast).trans (hfront more)

private theorem settled_readValue (wireType : Nat) : Settled (readValue wireType) := by
  have hvarint := settled_readVarintFrom 0 0
  have hfixed (n : Nat) : Settled fun data ↦ (split? n data).bind fun read ↦
      some (FieldValue.uint (Bytes.ofLe read.1), read.2) :=
    (settled_split? n).bind fun bytes ↦ settled_some (FieldValue.uint (Bytes.ofLe bytes))
  unfold readValue
  split
  · exact hvarint.bind fun value ↦ settled_some (FieldValue.uint value)
  · exact hvarint.bind fun length ↦
      (settled_split? length).bind fun value ↦ settled_some (FieldValue.bytes value)
  · exact hfixed 8
  · exact hfixed 4
  · exact settled_none

private theorem settled_readTag : Settled readTag := by
  refine @Settled.bind _ _ _ _ (settled_readVarintFrom 0 0) (fun tag rest ↦
    if tag >>> 3 < 2 ^ 32 ∧ tag >>> 3 ≠ 0 then some ((tag >>> 3, tag % 8), rest) else none)
    fun tag ↦ ?_
  by_cases hfield : tag >>> 3 < 2 ^ 32 ∧ tag >>> 3 ≠ 0
  · simp only [if_pos hfield]
    exact settled_some _
  · simp only [if_neg hfield]
    exact settled_none

/-- A field is told by its bytes. -/
theorem settled_readField : Settled readField :=
  settled_readTag.bind fun tag ↦
    (settled_readValue tag.2).bind fun value ↦ settled_some (tag.1, value)

end Settled

private theorem readField_nil : readField [] = none := rfl

/-- The fields of a message. -/
def fieldReader : FrameReader UInt8 (Nat × FieldValue) Empty :=
  .ofSettled readField settled_readField readField_nil

/-- `Message`, `protobuf.rs:130`. -/
structure Message where
  fields : List (Nat × FieldValue)
  deriving DecidableEq

namespace Message

/-- `Message::decode`, `protobuf.rs:139`: field after field, up to the first that is not read. -/
def decode (data : List UInt8) : Message := ⟨(fieldReader.drain data).items⟩

/-- `get`, `protobuf.rs:155`. -/
def get (message : Message) (field : Nat) : Option FieldValue :=
  (message.fields.find? (·.1 == field)).map (·.2)

/-- `text`, `protobuf.rs:174`. -/
def text (message : Message) (field : Nat) : Option String := (message.get field).bind (·.text?)

/-- `nested`, `protobuf.rs:179`. -/
def nested (message : Message) (field : Nat) : Option Message :=
  ((message.get field).bind (·.bytes?)).map decode

/-- The loop of `decode`. -/
theorem decode_eq (data : List UInt8) :
    (decode data).fields = match readField data with
      | none => []
      | some (field, rest) => field :: (decode rest).fields := by
  rw [decode, fieldReader, FrameReader.drain_ofSettled]
  cases readField data <;> rfl

/-- The fields of a part of a message are the first of the whole. -/
theorem decode_prefix {part data : List UInt8} (h : part <+: data) :
    (decode part).fields <+: (decode data).fields :=
  FrameReader.items_prefix h

end Message

/-! ## Round trips -/

private theorem readVarintFrom_putVarint {value shift acc : Nat} (hshift : shift < 64)
    (hvalue : value < 2 ^ (64 - shift)) (hacc : acc < 2 ^ shift) (rest : List UInt8) :
    readVarintFrom shift acc (putVarint value ++ rest) = some (acc + value * 2 ^ shift, rest) := by
  induction value using Nat.strongRecOn generalizing shift acc with
  | ind value ih =>
    have hpow : 2 ^ (64 - shift) * 2 ^ shift = 2 ^ 64 := by
      rw [← Nat.pow_add, Nat.sub_add_cancel (Nat.le_of_lt hshift)]
    have hfits : value * 2 ^ shift < 2 ^ 64 := by
      rw [← hpow]
      exact Nat.mul_lt_mul_of_pos_right hvalue (Nat.two_pow_pos shift)
    have hor {digit : Nat} (hdigit : digit ≤ value) :
        acc ||| digit <<< shift % 2 ^ 64 = acc + digit * 2 ^ shift := by
      have hless := Nat.lt_of_le_of_lt (Nat.mul_le_mul_right (2 ^ shift) hdigit) hfits
      rw [Nat.shiftLeft_eq, Nat.mod_eq_of_lt hless, Nat.or_comm, Nat.mul_comm,
        ← Nat.two_pow_add_eq_or_of_lt hacc, Nat.add_comm]
    rw [putVarint]
    split
    · next hmore =>
      have hbyte : (UInt8.ofNat (value % 0x80 + 0x80)).toNat = value % 0x80 + 0x80 := by
        rw [UInt8.toNat_ofNat', Nat.mod_eq_of_lt (by omega)]
      have hseven : 2 ^ (shift + 7) = 0x80 * 2 ^ shift := by rw [Nat.pow_add, Nat.mul_comm]
      have hroom : 7 < 64 - shift := by
        by_contra hsmall
        have := Nat.pow_le_pow_right (by decide : 0 < 2) (show 64 - shift ≤ 7 by omega)
        omega
      have hnext : value / 0x80 < 2 ^ (64 - (shift + 7)) := by
        have hsplit : 2 ^ (64 - shift) = 2 ^ (64 - (shift + 7)) * 0x80 := by
          rw [show 64 - shift = 64 - (shift + 7) + 7 by omega, Nat.pow_add]
        omega
      have hdigit : value % 0x80 * 2 ^ shift ≤ 0x7F * 2 ^ shift :=
        Nat.mul_le_mul_right _ (by omega)
      rw [List.cons_append, readVarintFrom, if_neg (by omega)]
      simp only [hbyte, Nat.add_mod_right, Nat.mod_mod]
      rw [if_neg (by omega), hor (Nat.mod_le _ _), ih _ (by omega) (by omega) hnext (by omega)]
      congr 2
      have hdiv := Nat.div_add_mod value 0x80
      calc acc + value % 0x80 * 2 ^ shift + value / 0x80 * 2 ^ (shift + 7)
          = acc + (0x80 * (value / 0x80) + value % 0x80) * 2 ^ shift := by rw [hseven]; ring
        _ = acc + value * 2 ^ shift := by rw [hdiv]
    · next hlast =>
      have hbyte : (UInt8.ofNat value).toNat = value := by
        rw [UInt8.toNat_ofNat', Nat.mod_eq_of_lt (by omega)]
      rw [List.cons_append, List.nil_append, readVarintFrom, if_neg (by omega)]
      simp only [hbyte]
      rw [if_pos (by omega), Nat.mod_eq_of_lt (show value < 0x80 by omega), hor (Nat.le_refl _)]

/-- A varint of 64 bits is read back. -/
theorem readVarint_putVarint {value : Nat} (h : value < 2 ^ 64) (rest : List UInt8) :
    readVarint (putVarint value ++ rest) = some (value, rest) := by
  rw [readVarint, readVarintFrom_putVarint (by decide) h (by decide), Nat.pow_zero, Nat.mul_one,
    Nat.zero_add]

section Fields

variable {field : Nat} (hpos : field ≠ 0) (hfield : field < 2 ^ 32)

include hpos hfield

private theorem readTag_putTag {wireType : Nat} (hwire : wireType < 8) (rest : List UInt8) :
    readTag (putTag field wireType ++ rest) = some ((field, wireType), rest) := by
  have htag : field <<< 3 ||| wireType = field * 8 + wireType := by
    rw [← Nat.shiftLeft_add_eq_or_of_lt hwire, Nat.shiftLeft_eq]
  have hnumber : (field * 8 + wireType) >>> 3 = field := by
    rw [Nat.shiftRight_eq_div_pow]
    omega
  have hwireType : (field * 8 + wireType) % 8 = wireType := by omega
  rw [readTag, putTag, htag, readVarint_putVarint (by omega), Option.bind_some]
  simp only [hnumber, hwireType]
  rw [if_pos ⟨hfield, hpos⟩]

private theorem readField_putUint {value : Nat} (hvalue : value < 2 ^ 64) (rest : List UInt8) :
    readField (putUint field value ++ rest) = some ((field, .uint value), rest) := by
  rw [readField, putUint, List.append_assoc, readTag_putTag hpos hfield (by decide),
    Option.bind_some, readValue]
  simp only [readVarint_putVarint hvalue, Option.bind_some]

private theorem readField_putBytes {value : List UInt8} (hvalue : value.length < 2 ^ 64)
    (rest : List UInt8) :
    readField (putBytes field value ++ rest) = some ((field, .bytes value), rest) := by
  rw [readField, putBytes, List.append_assoc, List.append_assoc,
    readTag_putTag hpos hfield (by decide), Option.bind_some, readValue]
  simp only [readVarint_putVarint hvalue, Option.bind_some, split?_append]

/-- A field of bytes is read before what follows it. -/
theorem Message.decode_putBytes {value : List UInt8} (hvalue : value.length < 2 ^ 64)
    (rest : List UInt8) : (Message.decode (putBytes field value ++ rest)).fields =
      (field, .bytes value) :: (Message.decode rest).fields := by
  rw [Message.decode_eq, readField_putBytes hpos hfield hvalue]

end Fields

/-- A field number: 32 bits, and not 0. -/
abbrev FieldNumber := { number : UInt32 // number ≠ 0 }

/-- What a field is given: a number of 64 bits, a truth value, bytes, a text or the fields of a
nested message. -/
inductive Value where
  | uint (value : UInt64)
  | bool (value : Bool)
  | bytes (value : List UInt8)
  | str (value : String)
  | message (fields : List (FieldNumber × Value))

mutual

/-- Writes a field. -/
def Value.put (field : Nat) : Value → List UInt8
  | .uint value => putUint field value.toNat
  | .bool value => putBool field value
  | .bytes value => putBytes field value
  | .str value => putStr field value
  | .message fields => putBytes field (putFields fields)

/-- Writes fields in turn. -/
def putFields : List (FieldNumber × Value) → List UInt8
  | [] => []
  | field :: fields => putField field ++ putFields fields

/-- Writes a field of a number. -/
def putField : FieldNumber × Value → List UInt8
  | (number, value) => value.put number.val.toNat

end

mutual

/-- A field that is read holds what it was given; of a nested message, its bytes do. -/
inductive Holds : FieldValue → Value → Prop where
  | uint (value : UInt64) : Holds (.uint value.toNat) (.uint value)
  | bool (value : Bool) : Holds (.uint value.toNat) (.bool value)
  | bytes (value : List UInt8) : Holds (.bytes value) (.bytes value)
  | str (value : String) : Holds (.bytes (Bytes.ofText value)) (.str value)
  | message {data : List UInt8} {fields : List (FieldNumber × Value)} :
    HoldsAll (Message.decode data).fields fields → Holds (.bytes data) (.message fields)

/-- Fields that are read are those that were written, in order. -/
inductive HoldsAll : List (Nat × FieldValue) → List (FieldNumber × Value) → Prop where
  | nil : HoldsAll [] []
  | cons {number : FieldNumber} {value : Value} {read : FieldValue}
    {reads : List (Nat × FieldValue)} {fields : List (FieldNumber × Value)} :
    Holds read value → HoldsAll reads fields →
    HoldsAll ((number.val.toNat, read) :: reads) ((number, value) :: fields)

end

private theorem readField_put {number : FieldNumber} {written : List UInt8}
    (hbytes : (putBytes number.val.toNat written).length < 2 ^ 64) (rest : List UInt8) :
    readField (putBytes number.val.toNat written ++ rest) =
      some ((number.val.toNat, .bytes written), rest) := by
  refine readField_putBytes (fun h ↦ number.property (UInt32.toNat_inj.mp h)) number.val.toNat_lt
    (Nat.lt_of_le_of_lt ?_ hbytes) rest
  rw [putBytes, List.length_append]
  exact Nat.le_add_left _ _

private theorem readField_putUint_number {number : FieldNumber} {value : Nat} (h : value < 2 ^ 64)
    (rest : List UInt8) :
    readField (putUint number.val.toNat value ++ rest) =
      some ((number.val.toNat, .uint value), rest) :=
  readField_putUint (fun h ↦ number.property (UInt32.toNat_inj.mp h)) number.val.toNat_lt h rest

mutual

private theorem holds_put (number : FieldNumber) : (value : Value) →
    (value.put number.val.toNat).length < 2 ^ 64 → ∃ read, Holds read value ∧ ∀ rest,
      readField (value.put number.val.toNat ++ rest) = some ((number.val.toNat, read), rest)
  | .uint value, _ => ⟨_, .uint value, readField_putUint_number value.toNat_lt⟩
  | .bool value, _ => ⟨_, .bool value, readField_putUint_number (by cases value <;> decide)⟩
  | .bytes value, h => ⟨_, .bytes value, readField_put h⟩
  | .str value, h => ⟨_, .str value, readField_put h⟩
  | .message fields, h => by
    have hinner : (putFields fields).length < 2 ^ 64 := by
      rw [Value.put, putBytes, List.length_append] at h
      omega
    exact ⟨_, .message (holdsAll_putFields fields hinner), readField_put h⟩

/-- The fields of a message are read in order. -/
theorem holdsAll_putFields : (fields : List (FieldNumber × Value)) →
    (putFields fields).length < 2 ^ 64 → HoldsAll (Message.decode (putFields fields)).fields fields
  | [], _ => .nil
  | field :: fields, h => by
    rw [putFields, List.length_append] at h
    obtain ⟨read, hholds, hread⟩ := holds_putField field (by omega)
    rw [putFields, Message.decode_eq, hread]
    exact .cons hholds (holdsAll_putFields fields (by omega))

private theorem holds_putField : (field : FieldNumber × Value) →
    (putField field).length < 2 ^ 64 → ∃ read, Holds read field.2 ∧ ∀ rest,
      readField (putField field ++ rest) = some ((field.1.val.toNat, read), rest)
  | (number, value), h => holds_put number value h

end

/-- Messages are read back, and a part of one is read as the first fields of the whole. -/
theorem decode_reads_back :
    (∀ fields : List (FieldNumber × Value), (putFields fields).length < 2 ^ 64 →
      HoldsAll (Message.decode (putFields fields)).fields fields) ∧
    ∀ part data : List UInt8, part <+: data →
      (Message.decode part).fields <+: (Message.decode data).fields :=
  ⟨holdsAll_putFields, fun _ _ ↦ Message.decode_prefix⟩

/-- A nested message, and a text after it. -/
def nestedFields : List (FieldNumber × Value) :=
  [(⟨2, by decide⟩, .message [(⟨1, by decide⟩, .uint 300)]), (⟨1, by decide⟩, .str "hello")]

/-- A nested message is read back, and the text after it. -/
theorem decode_reads_back_nested :
    HoldsAll (Message.decode (putFields nestedFields)).fields nestedFields :=
  decode_reads_back.1 nestedFields (by
    have htext : (Bytes.ofText "hello").length = 5 := by decide
    simp [nestedFields, putFields, putField, Value.put, putStr, putBytes, putUint, putTag,
      putVarint, htext])

end NullRouter.Bespoke.Cursor
