import Mathlib.Data.List.Induction
import NullRouter.Base.Utf8

/-!
# Bytes

Numbers of several bytes, in either order, and the bytes of a text.
-/

namespace NullRouter.Base.Bytes

/-! ## Numbers -/

/-- The number some bytes spell, the highest first: `from_be_bytes`. -/
def ofBe (bytes : List UInt8) : Nat := bytes.foldl (fun n b ↦ n * 256 + b.toNat) 0

/-- The lowest bytes of a number, the highest first: `to_be_bytes`. -/
def toBe : Nat → Nat → List UInt8
  | 0, _ => []
  | k + 1, n => toBe k (n / 256) ++ [UInt8.ofNat n]

/-- The number some bytes spell, the lowest first: `from_le_bytes`. -/
def ofLe (bytes : List UInt8) : Nat := ofBe bytes.reverse

/-- The signed number some bytes spell, the highest first. -/
def ofBeSigned (bytes : List UInt8) : Int := Int.bmod (ofBe bytes) (256 ^ bytes.length)

@[simp] theorem length_toBe (k n : Nat) : (toBe k n).length = k := by
  induction k generalizing n with
  | zero => rfl
  | succ k ih => rw [toBe, List.length_append, ih, List.length_singleton]

@[simp] theorem ofBe_append_singleton (bytes : List UInt8) (b : UInt8) :
    ofBe (bytes ++ [b]) = ofBe bytes * 256 + b.toNat := by
  rw [ofBe, List.foldl_append]
  rfl

/-- A number that fits is spelt by its bytes. -/
theorem ofBe_toBe {k n : Nat} (h : n < 256 ^ k) : ofBe (toBe k n) = n := by
  induction k generalizing n with
  | zero =>
    rw [Nat.pow_zero] at h
    exact (Nat.lt_one_iff.mp h).symm
  | succ k ih =>
    rw [Nat.pow_succ] at h
    rw [toBe, ofBe_append_singleton, ih (by omega), UInt8.toNat_ofNat']
    omega

/-- Bytes are told by their number and how many they are. -/
theorem ofBe_injective {a b : List UInt8} (hlength : a.length = b.length) (h : ofBe a = ofBe b) :
    a = b := by
  induction a using List.reverseRecOn generalizing b with
  | nil => exact (List.length_eq_zero_iff.mp hlength.symm).symm
  | append_singleton a x ih =>
    cases b using List.reverseRecOn with
    | nil => simp at hlength
    | append_singleton b y =>
      rw [ofBe_append_singleton, ofBe_append_singleton] at h
      rw [List.length_append, List.length_append, List.length_singleton, List.length_singleton,
        Nat.add_right_cancel_iff] at hlength
      have hx := x.toNat_lt
      have hy := y.toNat_lt
      rw [ih hlength (by omega), UInt8.toNat_inj.mp (show x.toNat = y.toNat by omega)]

/-! ## Text -/

/-- `as_bytes` of a text. -/
def ofText (text : String) : List UInt8 := text.toList.flatMap String.utf8EncodeChar

/-- `String::from_utf8_lossy`. -/
def toText (bytes : List UInt8) : String := String.ofList (Utf8.lossy (bytes.map UInt8.toNat))

private theorem decode_inside_zero {value : Nat} {due : Utf8.Due} {b : Nat}
    (h : due.low ≤ b ∧ b ≤ due.high) (rest : List Nat) :
    (Utf8.State.inside 0 value due).decode (b :: rest) =
      Char.ofNat (value * 64 + (b - 0x80)) :: Utf8.lossy rest := by
  rw [Utf8.State.decode, Utf8.State.step, if_pos h]
  rfl

private theorem decode_inside_succ {left value : Nat} {due : Utf8.Due} {b : Nat}
    (h : due.low ≤ b ∧ b ≤ due.high) (rest : List Nat) :
    (Utf8.State.inside (left + 1) value due).decode (b :: rest) =
      (Utf8.State.inside left (value * 64 + (b - 0x80)) .any).decode rest := by
  rw [Utf8.State.decode, Utf8.State.step, if_pos h]
  rfl

private theorem lossy_of_lead {b left value : Nat} {due : Utf8.Due}
    (h : Utf8.lead b = (.inside left value due, [])) (rest : List Nat) :
    Utf8.lossy (b :: rest) = (Utf8.State.inside left value due).decode rest := by
  rw [Utf8.lossy, Utf8.State.decode, Utf8.State.step, h]
  rfl

private theorem lossy_utf8EncodeChar (c : Char) (rest : List Nat) :
    Utf8.lossy ((String.utf8EncodeChar c).map UInt8.toNat ++ rest) = c :: Utf8.lossy rest := by
  have hvalid : c.toNat < 0xD800 ∨ 0xDFFF < c.toNat ∧ c.toNat < 0x110000 := c.valid
  have hchar : Char.ofNat c.toNat = c := Char.ofNat_toNat c
  generalize hv : c.toNat = v at hvalid hchar
  have hval : c.val.toNat = v := hv
  have hbyte {n : Nat} (hn : n < 256) : (UInt8.ofNat n).toNat = n := by
    rw [UInt8.toNat_ofNat', Nat.mod_eq_of_lt hn]
  -- a byte after the first holds six bits, and is due where no character is over by it
  have hdue (n : Nat) :
      Utf8.Due.any.low ≤ n % 64 + 0x80 ∧ n % 64 + 0x80 ≤ Utf8.Due.any.high :=
    ⟨Nat.le_add_left _ _, show n % 64 + 0x80 ≤ 0xBF by omega⟩
  rw [String.utf8EncodeChar, hval]
  by_cases h1 : v ≤ 0x7F
  · rw [if_pos h1, List.map_cons, List.map_nil, List.cons_append, List.nil_append,
      hbyte (by omega), Utf8.lossy, Utf8.State.decode, Utf8.State.step, Utf8.lead,
      if_pos (by omega), hchar]
    rfl
  rw [if_neg h1]
  by_cases h2 : v ≤ 0x7FF
  · have hlead : Utf8.lead (v / 64 % 0x20 + 0xC0) = (.inside 0 (v / 64) .any, []) := by
      rw [Utf8.lead, if_neg (by omega), if_pos (by omega),
        show v / 64 % 0x20 + 0xC0 - 0xC0 = v / 64 by omega]
    rw [if_pos h2]
    simp only [List.map_cons, List.map_nil, List.cons_append, List.nil_append]
    rw [hbyte (by omega), hbyte (by omega), lossy_of_lead hlead, decode_inside_zero (hdue v),
      show v / 64 * 64 + (v % 64 + 0x80 - 0x80) = v by omega, hchar]
  rw [if_neg h2]
  by_cases h3 : v ≤ 0xFFFF
  · have hlead : ∃ due : Utf8.Due,
        Utf8.lead (v / 4096 % 0x10 + 0xE0) = (.inside 1 (v / 4096) due, []) ∧
          due.low ≤ v / 64 % 64 + 0x80 ∧ v / 64 % 64 + 0x80 ≤ due.high := by
      by_cases hlow : v / 4096 = 0
      · refine ⟨⟨0xA0, 0xBF, by decide⟩, ?_, ?_, ?_⟩
        · rw [hlow]
          decide
        · show 0xA0 ≤ _
          omega
        · show _ ≤ 0xBF
          omega
      · by_cases hmiddle : v / 4096 = 0xD
        · refine ⟨⟨0x80, 0x9F, by decide⟩, ?_, Nat.le_add_left _ _, ?_⟩
          · rw [hmiddle]
            decide
          · show _ ≤ 0x9F
            omega
        · refine ⟨.any, ?_, hdue _⟩
          rw [Utf8.lead, if_neg (by omega), if_neg (by omega), if_neg (by omega),
            if_neg (by omega), if_pos (by omega),
            show v / 4096 % 0x10 + 0xE0 - 0xE0 = v / 4096 by omega]
    obtain ⟨due, hlead, hnext⟩ := hlead
    rw [if_pos h3]
    simp only [List.map_cons, List.map_nil, List.cons_append, List.nil_append]
    rw [hbyte (by omega), hbyte (by omega), hbyte (by omega), lossy_of_lead hlead,
      decode_inside_succ hnext, decode_inside_zero (hdue v),
      show (v / 4096 * 64 + (v / 64 % 64 + 0x80 - 0x80)) * 64 + (v % 64 + 0x80 - 0x80) = v by omega,
      hchar]
  have hlead : ∃ due : Utf8.Due,
      Utf8.lead (v / 262144 % 0x08 + 0xF0) = (.inside 2 (v / 262144) due, []) ∧
        due.low ≤ v / 4096 % 64 + 0x80 ∧ v / 4096 % 64 + 0x80 ≤ due.high := by
    by_cases hlow : v / 262144 = 0
    · refine ⟨⟨0x90, 0xBF, by decide⟩, ?_, ?_, ?_⟩
      · rw [hlow]
        decide
      · show 0x90 ≤ _
        omega
      · show _ ≤ 0xBF
        omega
    · by_cases hhigh : v / 262144 = 4
      · refine ⟨⟨0x80, 0x8F, by decide⟩, ?_, Nat.le_add_left _ _, ?_⟩
        · rw [hhigh]
          decide
        · show _ ≤ 0x8F
          omega
      · refine ⟨.any, ?_, hdue _⟩
        rw [Utf8.lead, if_neg (by omega), if_neg (by omega), if_neg (by omega), if_neg (by omega),
          if_neg (by omega), if_neg (by omega), if_pos (by omega),
          show v / 262144 % 0x08 + 0xF0 - 0xF0 = v / 262144 by omega]
  obtain ⟨due, hlead, hnext⟩ := hlead
  rw [if_neg h3]
  simp only [List.map_cons, List.map_nil, List.cons_append, List.nil_append]
  rw [hbyte (by omega), hbyte (by omega), hbyte (by omega), hbyte (by omega), lossy_of_lead hlead,
    decode_inside_succ hnext, decode_inside_succ (hdue _), decode_inside_zero (hdue v),
    show ((v / 262144 * 64 + (v / 4096 % 64 + 0x80 - 0x80)) * 64 + (v / 64 % 64 + 0x80 - 0x80)) * 64
      + (v % 64 + 0x80 - 0x80) = v by omega, hchar]

theorem ofText_append (text rest : String) :
    ofText (text ++ rest) = ofText text ++ ofText rest := by
  rw [ofText, String.toList_append, List.flatMap_append]
  rfl

/-- The bytes of a text are read as it, whatever follows. -/
theorem toText_ofText_append (text : String) (rest : List UInt8) :
    toText (ofText text ++ rest) = text ++ toText rest := by
  have hchars (chars : List Char) :
      Utf8.lossy ((chars.flatMap String.utf8EncodeChar ++ rest).map UInt8.toNat) =
        chars ++ Utf8.lossy (rest.map UInt8.toNat) := by
    induction chars with
    | nil => rfl
    | cons c chars ih =>
      rw [List.flatMap_cons, List.append_assoc, List.map_append, lossy_utf8EncodeChar, ih]
      rfl
  rw [toText, ofText, hchars, String.ofList_append, String.ofList_toList, toText]

/-- The bytes of a text are read as it. -/
@[simp] theorem toText_ofText (text : String) : toText (ofText text) = text := by
  have htext := toText_ofText_append text []
  rwa [List.append_nil, show toText [] = "" from rfl, String.append_empty] at htext

end NullRouter.Base.Bytes
