import Mathlib.Data.List.GetD
import Mathlib.Data.List.Nodup

/-!
# Base64 without padding

Bytes as text of 64 symbols, without padding, over any alphabet. The decoder takes exactly what the
encoder writes: a last symbol with bits left over is not one.
-/

namespace NullRouter.Base.Base64

/-- Sixty-four symbols. -/
structure Alphabet where
  symbols : List Char
  length_eq : symbols.length = 64 := by decide
  nodup : symbols.Nodup := by decide

namespace Alphabet

variable (a : Alphabet)

/-- The symbol of a value. -/
def symbol (value : Nat) : Char := a.symbols.getD value 'A'

/-- The value of a symbol. -/
def value? (symbol : Char) : Option Nat := a.symbols.findIdx? (· = symbol)

variable {a}

/-- A symbol has the value that it is the symbol of. -/
theorem value?_eq_some {symbol : Char} {value : Nat} :
    a.value? symbol = some value ↔ value < 64 ∧ a.symbol value = symbol := by
  rw [value?, List.findIdx?_eq_some_iff_getElem, ← a.length_eq]
  constructor
  · rintro ⟨hless, hsymbol, -⟩
    rw [Alphabet.symbol, List.getD_eq_getElem _ _ hless]
    exact ⟨hless, of_decide_eq_true hsymbol⟩
  · rintro ⟨hless, hsymbol⟩
    rw [Alphabet.symbol, List.getD_eq_getElem _ _ hless] at hsymbol
    refine ⟨hless, decide_eq_true hsymbol, ?_⟩
    intro other hother hsame
    have hindex := a.nodup.getElem_inj_iff.mp ((of_decide_eq_true hsame).trans hsymbol.symm)
    omega

theorem value?_symbol {value : Nat} (h : value < 64) : a.value? (a.symbol value) = some value :=
  value?_eq_some.mpr ⟨h, rfl⟩

theorem symbol_mem {value : Nat} (h : value < 64) : a.symbol value ∈ a.symbols := by
  have hless : value < a.symbols.length := by rwa [a.length_eq]
  rw [Alphabet.symbol, List.getD_eq_getElem _ _ hless]
  exact List.getElem_mem hless

variable (a)

/-- The text of some bytes. -/
def encode : List UInt8 → List Char
  | b₀ :: b₁ :: b₂ :: rest =>
    a.symbol (b₀.toNat / 4) :: a.symbol (b₀.toNat % 4 * 16 + b₁.toNat / 16) ::
      a.symbol (b₁.toNat % 16 * 4 + b₂.toNat / 64) :: a.symbol (b₂.toNat % 64) :: encode rest
  | [b₀, b₁] =>
    [a.symbol (b₀.toNat / 4), a.symbol (b₀.toNat % 4 * 16 + b₁.toNat / 16),
      a.symbol (b₁.toNat % 16 * 4)]
  | [b₀] => [a.symbol (b₀.toNat / 4), a.symbol (b₀.toNat % 4 * 16)]
  | [] => []

/-- The bytes of a text, if it is one. -/
def decode : List Char → Option (List UInt8)
  | c₀ :: c₁ :: c₂ :: c₃ :: rest =>
    (a.value? c₀).bind fun v₀ ↦ (a.value? c₁).bind fun v₁ ↦ (a.value? c₂).bind fun v₂ ↦
      (a.value? c₃).bind fun v₃ ↦ (decode rest).map fun bytes ↦
        .ofNat (v₀ * 4 + v₁ / 16) :: .ofNat (v₁ % 16 * 16 + v₂ / 4) :: .ofNat (v₂ % 4 * 64 + v₃) ::
          bytes
  | [c₀, c₁, c₂] =>
    (a.value? c₀).bind fun v₀ ↦ (a.value? c₁).bind fun v₁ ↦ (a.value? c₂).bind fun v₂ ↦
      if v₂ % 4 = 0 then some [.ofNat (v₀ * 4 + v₁ / 16), .ofNat (v₁ % 16 * 16 + v₂ / 4)] else none
  | [c₀, c₁] =>
    (a.value? c₀).bind fun v₀ ↦ (a.value? c₁).bind fun v₁ ↦
      if v₁ % 16 = 0 then some [.ofNat (v₀ * 4 + v₁ / 16)] else none
  | [_] => none
  | [] => some []

/-- What the encoder writes is read. -/
theorem decode_encode (bytes : List UInt8) : a.decode (a.encode bytes) = some bytes := by
  induction bytes using encode.induct with
  | case1 b₀ b₁ b₂ rest ih =>
    have h₀ := b₀.toNat_lt
    have h₁ := b₁.toNat_lt
    have h₂ := b₂.toNat_lt
    rw [encode, decode, value?_symbol (by omega), value?_symbol (by omega),
      value?_symbol (by omega), value?_symbol (by omega), ih]
    simp only [Option.bind_some, Option.map_some, Option.some.injEq, List.cons.injEq, and_true]
    refine ⟨?_, ?_, ?_⟩
    · rw [show b₀.toNat / 4 * 4 + (b₀.toNat % 4 * 16 + b₁.toNat / 16) / 16 = b₀.toNat by omega,
        UInt8.ofNat_toNat]
    · rw [show (b₀.toNat % 4 * 16 + b₁.toNat / 16) % 16 * 16 +
        (b₁.toNat % 16 * 4 + b₂.toNat / 64) / 4 = b₁.toNat by omega, UInt8.ofNat_toNat]
    · rw [show (b₁.toNat % 16 * 4 + b₂.toNat / 64) % 4 * 64 + b₂.toNat % 64 = b₂.toNat by omega,
        UInt8.ofNat_toNat]
  | case2 b₀ b₁ =>
    have h₀ := b₀.toNat_lt
    have h₁ := b₁.toNat_lt
    rw [encode, decode, value?_symbol (by omega), value?_symbol (by omega),
      value?_symbol (by omega)]
    simp only [Option.bind_some]
    rw [if_pos (by omega),
      show b₀.toNat / 4 * 4 + (b₀.toNat % 4 * 16 + b₁.toNat / 16) / 16 = b₀.toNat by omega,
      show (b₀.toNat % 4 * 16 + b₁.toNat / 16) % 16 * 16 + b₁.toNat % 16 * 4 / 4 = b₁.toNat by
        omega, UInt8.ofNat_toNat, UInt8.ofNat_toNat]
  | case3 b₀ =>
    have h₀ := b₀.toNat_lt
    rw [encode, decode, value?_symbol (by omega), value?_symbol (by omega)]
    simp only [Option.bind_some]
    rw [if_pos (by omega), show b₀.toNat / 4 * 4 + b₀.toNat % 4 * 16 / 16 = b₀.toNat by omega,
      UInt8.ofNat_toNat]
  | case4 => rfl

variable {a}

private theorem toNat_ofNat_lt {n : Nat} (h : n < 256) : (UInt8.ofNat n).toNat = n := by
  rw [UInt8.toNat_ofNat', Nat.mod_eq_of_lt h]

/-- What is read the encoder writes. -/
theorem encode_of_decode {text : List Char} {bytes : List UInt8} (h : a.decode text = some bytes) :
    a.encode bytes = text := by
  induction text using decode.induct generalizing bytes with
  | case1 c₀ c₁ c₂ c₃ rest ih =>
    rw [decode] at h
    simp only [Option.bind_eq_some_iff, Option.map_eq_some_iff, value?_eq_some] at h
    obtain ⟨v₀, ⟨h₀, rfl⟩, v₁, ⟨h₁, rfl⟩, v₂, ⟨h₂, rfl⟩, v₃, ⟨h₃, rfl⟩, tail, htail, rfl⟩ := h
    rw [encode, toNat_ofNat_lt (by omega), toNat_ofNat_lt (by omega), toNat_ofNat_lt (by omega),
      ih htail, show (v₀ * 4 + v₁ / 16) / 4 = v₀ by omega,
      show (v₀ * 4 + v₁ / 16) % 4 * 16 + (v₁ % 16 * 16 + v₂ / 4) / 16 = v₁ by omega,
      show (v₁ % 16 * 16 + v₂ / 4) % 16 * 4 + (v₂ % 4 * 64 + v₃) / 64 = v₂ by omega,
      show (v₂ % 4 * 64 + v₃) % 64 = v₃ by omega]
  | case2 c₀ c₁ c₂ =>
    rw [decode] at h
    simp only [Option.bind_eq_some_iff, value?_eq_some, Option.ite_none_right_eq_some,
      Option.some.injEq] at h
    obtain ⟨v₀, ⟨h₀, rfl⟩, v₁, ⟨h₁, rfl⟩, v₂, ⟨h₂, rfl⟩, hrest, rfl⟩ := h
    rw [encode, toNat_ofNat_lt (by omega), toNat_ofNat_lt (by omega),
      show (v₀ * 4 + v₁ / 16) / 4 = v₀ by omega,
      show (v₀ * 4 + v₁ / 16) % 4 * 16 + (v₁ % 16 * 16 + v₂ / 4) / 16 = v₁ by omega,
      show (v₁ % 16 * 16 + v₂ / 4) % 16 * 4 = v₂ by omega]
  | case3 c₀ c₁ =>
    rw [decode] at h
    simp only [Option.bind_eq_some_iff, value?_eq_some, Option.ite_none_right_eq_some,
      Option.some.injEq] at h
    obtain ⟨v₀, ⟨h₀, rfl⟩, v₁, ⟨h₁, rfl⟩, hrest, rfl⟩ := h
    rw [encode, toNat_ofNat_lt (by omega), show (v₀ * 4 + v₁ / 16) / 4 = v₀ by omega,
      show (v₀ * 4 + v₁ / 16) % 4 * 16 = v₁ by omega]
  | case4 => cases h
  | case5 =>
    cases h
    rfl

/-- The decoder reads exactly what the encoder writes. -/
theorem decode_eq_some_iff {text : List Char} {bytes : List UInt8} :
    a.decode text = some bytes ↔ text = a.encode bytes :=
  ⟨fun h ↦ (encode_of_decode h).symm, fun h ↦ h ▸ a.decode_encode bytes⟩

variable (a)

/-- A text has four symbols for every three bytes, rounded up. -/
theorem length_encode (bytes : List UInt8) :
    (a.encode bytes).length = (4 * bytes.length + 2) / 3 := by
  induction bytes using encode.induct with
  | case1 b₀ b₁ b₂ rest ih =>
    simp only [encode, List.length_cons, ih]
    omega
  | case2 | case3 | case4 => simp [encode]

/-- A text has the symbols of its alphabet alone. -/
theorem mem_symbols_of_mem_encode {bytes : List UInt8} {c : Char} (h : c ∈ a.encode bytes) :
    c ∈ a.symbols := by
  induction bytes using encode.induct with
  | case1 b₀ b₁ b₂ rest ih =>
    have h₀ := b₀.toNat_lt
    have h₁ := b₁.toNat_lt
    have h₂ := b₂.toNat_lt
    rw [encode] at h
    simp only [List.mem_cons] at h
    rcases h with rfl | rfl | rfl | rfl | h
    · exact symbol_mem (by omega)
    · exact symbol_mem (by omega)
    · exact symbol_mem (by omega)
    · exact symbol_mem (by omega)
    · exact ih h
  | case2 b₀ b₁ =>
    have h₀ := b₀.toNat_lt
    have h₁ := b₁.toNat_lt
    rw [encode] at h
    simp only [List.mem_cons, List.not_mem_nil, or_false] at h
    rcases h with rfl | rfl | rfl
    · exact symbol_mem (by omega)
    · exact symbol_mem (by omega)
    · exact symbol_mem (by omega)
  | case3 b₀ =>
    have h₀ := b₀.toNat_lt
    rw [encode] at h
    simp only [List.mem_cons, List.not_mem_nil, or_false] at h
    rcases h with rfl | rfl
    · exact symbol_mem (by omega)
    · exact symbol_mem (by omega)
  | case4 => cases h

end Alphabet

/-- `base64::alphabet::URL_SAFE`. -/
def urlSafe : Alphabet where
  symbols := "ABCDEFGHIJKLMNOPQRSTUVWXYZabcdefghijklmnopqrstuvwxyz0123456789-_".toList
  length_eq := by decide +kernel
  nodup := by decide +kernel

end NullRouter.Base.Base64
