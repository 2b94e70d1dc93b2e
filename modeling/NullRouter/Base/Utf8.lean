import Mathlib.Algebra.Order.Ring.Int
import Mathlib.Data.List.Basic

/-!
# Lossy decoding of UTF-8

Decoding of arbitrary bytes, a replacement character standing for every maximal part of a
character that cannot be completed, as the Rust standard library documents it. Decoding a text
piece by piece gives the text's own decoding exactly where no piece ends inside a character
that the next byte goes on with.
-/

namespace NullRouter.Base.Utf8

/-- U+FFFD. -/
def replacement : Char := Char.ofNat 0xFFFD

/-- The range in which the next byte of a character is due: continuation bytes, or some of
them where others would make an overlong, a surrogate or a too large code point. -/
structure Due where
  low : Nat
  high : Nat
  continuation : 0x80 ≤ low ∧ high ≤ 0xBF
  deriving DecidableEq

/-- Any continuation byte. -/
def Due.any : Due := ⟨0x80, 0xBF, by decide⟩

/-- Where a decoder stands: between characters, or inside one whose bits so far are `value`,
with `left` bytes to come after the one that is due. -/
inductive State where
  | start
  | inside (left value : Nat) (due : Due)
  deriving DecidableEq

/-- A byte where a character may begin. -/
def lead (b : Nat) : State × List Char :=
  if b < 0x80 then (.start, [Char.ofNat b])
  else if 0xC2 ≤ b ∧ b ≤ 0xDF then (.inside 0 (b - 0xC0) .any, [])
  else if b = 0xE0 then (.inside 1 0 ⟨0xA0, 0xBF, by decide⟩, [])
  else if b = 0xED then (.inside 1 0xD ⟨0x80, 0x9F, by decide⟩, [])
  else if 0xE1 ≤ b ∧ b ≤ 0xEF then (.inside 1 (b - 0xE0) .any, [])
  else if b = 0xF0 then (.inside 2 0 ⟨0x90, 0xBF, by decide⟩, [])
  else if 0xF1 ≤ b ∧ b ≤ 0xF3 then (.inside 2 (b - 0xF0) .any, [])
  else if b = 0xF4 then (.inside 2 4 ⟨0x80, 0x8F, by decide⟩, [])
  else (.start, [replacement])

/-- One more byte of a character that it goes on with. -/
def extend (left value b : Nat) : State × List Char :=
  match left with
  | 0 => (.start, [Char.ofNat (value * 64 + (b - 0x80))])
  | left + 1 => (.inside left (value * 64 + (b - 0x80)) .any, [])

namespace State

/-- Whether a byte goes on with the character that a decoder stands in. -/
def accepts : State → Nat → Bool
  | .start, _ => false
  | .inside _ _ due, b => due.low ≤ b && b ≤ due.high

/-- One byte. A character that is not gone on with is replaced, and the byte begins anew. -/
def step : State → Nat → State × List Char
  | .start, b => lead b
  | .inside left value due, b =>
    if due.low ≤ b ∧ b ≤ due.high then extend left value b
    else ((lead b).1, replacement :: (lead b).2)

/-- A character that the bytes end in is replaced. -/
def flush : State → List Char
  | .start => []
  | .inside .. => [replacement]

/-- Where a decoder stands after some bytes. -/
def after (s : State) (bytes : List Nat) : State := bytes.foldl (fun s b ↦ (s.step b).1) s

/-- The text of some bytes, from where a decoder stands. -/
def decode : State → List Nat → List Char
  | s, [] => s.flush
  | s, b :: bytes => (s.step b).2 ++ (s.step b).1.decode bytes

end State

/-- `String::from_utf8_lossy`. -/
def lossy (bytes : List Nat) : List Char := State.start.decode bytes

/-- The text of a body whose reads are decoded one by one. -/
def decodeReads (reads : List (List Nat)) : List Char := reads.flatMap lossy

/-- No read ends inside a character that the bytes after it go on with. -/
def Aligned : List (List Nat) → Prop
  | [] => True
  | read :: reads =>
    (∀ b ∈ reads.flatten.head?, (State.start.after read).accepts b = false) ∧ Aligned reads

/-- Alignment is decidable. -/
def decAligned : (reads : List (List Nat)) → Decidable (Aligned reads)
  | [] => isTrue trivial
  | read :: reads =>
    have := decAligned reads
    inferInstanceAs (Decidable ((∀ b ∈ reads.flatten.head?,
      (State.start.after read).accepts b = false) ∧ Aligned reads))

instance (reads : List (List Nat)) : Decidable (Aligned reads) := decAligned reads

namespace State

/-- A byte that does not go on with a character begins anew after its replacement. -/
theorem decode_of_not_accepts {s : State} {bytes : List Nat}
    (h : ∀ b ∈ bytes.head?, s.accepts b = false) : s.decode bytes = s.flush ++ lossy bytes := by
  cases s with
  | start => rfl
  | inside left value due =>
    cases bytes with
    | nil => rfl
    | cons b bytes =>
      have hb : ¬ (due.low ≤ b ∧ b ≤ due.high) := by simpa [accepts] using h b rfl
      simp [lossy, decode, step, if_neg hb, flush]

/-- Decoding goes on after some bytes from where it stands. -/
theorem decode_append (s : State) (a bytes : List Nat) :
    ∃ text, s.decode a = text ++ (s.after a).flush ∧
      s.decode (a ++ bytes) = text ++ (s.after a).decode bytes := by
  induction a generalizing s with
  | nil => exact ⟨[], rfl, rfl⟩
  | cons b a ih =>
    obtain ⟨text, ha, hab⟩ := ih (s.step b).1
    refine ⟨(s.step b).2 ++ text, ?_, ?_⟩
    · rw [decode, ha, List.append_assoc]
      rfl
    · rw [List.cons_append, decode, hab, List.append_assoc]
      rfl

/-- A byte that goes on with a character is replaced where none is begun. -/
theorem lossy_cons_of_accepts {s : State} {b : Nat} (h : s.accepts b = true)
    (bytes : List Nat) : lossy (b :: bytes) = replacement :: lossy bytes := by
  have hlead : lead b = (.start, [replacement]) := by
    cases s with
    | start => cases h
    | inside left value due =>
      have hb : due.low ≤ b ∧ b ≤ due.high := by simpa [accepts] using h
      have hd := due.continuation
      unfold lead
      repeat rw [if_neg (by omega)]
  rw [lossy, decode, step, hlead]
  rfl

/-- From inside a character, decoding makes at most one character more than from outside. -/
theorem length_decode_le (s : State) (bytes : List Nat) :
    (s.decode bytes).length ≤ (lossy bytes).length + 1 := by
  induction bytes generalizing s with
  | nil => cases s <;> simp [decode, lossy, flush]
  | cons b bytes ih =>
    by_cases h : s.accepts b = true
    · rw [lossy_cons_of_accepts h, List.length_cons]
      cases s with
      | start => cases h
      | inside left value due =>
        have hb : due.low ≤ b ∧ b ≤ due.high := by simpa [accepts] using h
        rw [decode, step, if_pos hb]
        cases left with
        | zero => simp [extend, lossy]
        | succ left =>
          have := ih (extend (left + 1) value b).1
          simpa [extend] using Nat.le_succ_of_le this
    · rw [Bool.not_eq_true] at h
      rw [decode_of_not_accepts (by simpa using h), List.length_append]
      cases s <;> simp [flush, Nat.add_comm]

/-- Cut where the next byte goes on with a character, a text gets longer. -/
theorem length_decode_lt {s : State} {b : Nat} (h : s.accepts b = true) (bytes : List Nat) :
    (s.decode (b :: bytes)).length < (s.flush ++ lossy (b :: bytes)).length := by
  rw [lossy_cons_of_accepts h]
  cases s with
  | start => cases h
  | inside left value due =>
    have hb : due.low ≤ b ∧ b ≤ due.high := by simpa [accepts] using h
    have hle : (decode (.inside left value due) (b :: bytes)).length ≤ (lossy bytes).length + 1 := by
      rw [decode, step, if_pos hb]
      cases left with
      | zero => simp [extend, lossy]
      | succ left => simpa [extend] using length_decode_le _ bytes
    simp only [flush, List.length_append, List.length_cons, List.length_nil]
    omega

/-- The least code point that the character a decoder stands in can come to. -/
def least : State → Nat
  | .start => 0
  | .inside left value due => (value * 64 + (due.low - 0x80)) * 64 ^ left

private theorem decode_eq_cons {s : State} (h : 0x80 ≤ s.least) (bytes : List Nat) :
    ∃ c text, s.decode bytes = c :: text ∧ (c.toNat = 0 ∨ 0x80 ≤ c.toNat) := by
  cases s with
  | start => simp [least] at h
  | inside left value due =>
    induction bytes generalizing left value due with
    | nil => exact ⟨_, _, rfl, .inr (by decide)⟩
    | cons b bytes ih =>
      rw [decode, step]
      by_cases hb : due.low ≤ b ∧ b ≤ due.high
      · rw [if_pos hb]
        rw [least] at h
        cases left with
        | zero =>
          refine ⟨_, _, rfl, ?_⟩
          by_cases hvalid : (value * 64 + (b - 0x80)).isValidChar
          · right
            rw [Char.ofNat, dif_pos hvalid]
            show 0x80 ≤ value * 64 + (b - 0x80)
            omega
          · left
            rw [Char.ofNat, dif_neg hvalid]
            rfl
        | succ left =>
          apply ih
          rw [least, Due.any, Nat.sub_self, Nat.add_zero, Nat.mul_assoc, ← Nat.pow_succ']
          exact Nat.le_trans h (Nat.mul_le_mul_right _ (by omega))
      · rw [if_neg hb]
        exact ⟨_, _, rfl, .inr (by decide)⟩

private theorem least_lead {b : Nat} (h : 0x80 ≤ b) :
    (lead b).2 = [replacement] ∨ (lead b).2 = [] ∧ 0x80 ≤ (lead b).1.least := by
  unfold lead
  split
  · omega
  repeat
    split
    · right
      refine ⟨rfl, ?_⟩
      simp only [least, Due.any]
      omega
  exact .inl rfl

end State

/-- A text of ASCII is read of its own bytes only. -/
theorem eq_of_lossy_ascii {bytes : List Nat}
    (h : ∀ c ∈ lossy bytes, 0 < c.toNat ∧ c.toNat < 0x80) :
    bytes = (lossy bytes).map Char.toNat := by
  induction bytes with
  | nil => rfl
  | cons b bytes ih =>
    rw [lossy, State.decode, State.step] at h ⊢
    by_cases hb : b < 0x80
    · have hlead : lead b = (.start, [Char.ofNat b]) := if_pos hb
      rw [hlead] at h ⊢
      have hchar : (Char.ofNat b).toNat = b := by
        rw [Char.ofNat, dif_pos (.inl (by omega))]
        rfl
      rw [List.singleton_append, List.map_cons, hchar]
      exact congrArg (b :: ·) (ih fun c hc ↦ h c (List.mem_cons_of_mem _ hc))
    · rcases State.least_lead (Nat.le_of_not_lt hb) with hlead | ⟨hlead, hleast⟩
      · rw [hlead] at h
        exact absurd (h replacement List.mem_cons_self).2 (by decide)
      · obtain ⟨c, text, htext, hc⟩ := State.decode_eq_cons hleast bytes
        rw [hlead, htext, List.nil_append] at h
        have hascii := h c List.mem_cons_self
        omega

/-- A cut where the next byte does not go on with a character changes nothing. -/
theorem lossy_append {a bytes : List Nat}
    (h : ∀ b ∈ bytes.head?, (State.start.after a).accepts b = false) :
    lossy (a ++ bytes) = lossy a ++ lossy bytes := by
  obtain ⟨text, ha, hab⟩ := State.start.decode_append a bytes
  change State.start.decode (a ++ bytes) = State.start.decode a ++ lossy bytes
  rw [hab, State.decode_of_not_accepts h, ha, List.append_assoc]

/-- A cut never makes a text shorter, and makes it longer where the next byte goes on with a
character. -/
theorem length_lossy_append (a bytes : List Nat) :
    (lossy (a ++ bytes)).length ≤ (lossy a ++ lossy bytes).length ∧
      ∀ b ∈ bytes.head?, (State.start.after a).accepts b = true →
        (lossy (a ++ bytes)).length < (lossy a ++ lossy bytes).length := by
  obtain ⟨text, ha, hab⟩ := State.start.decode_append a bytes
  have hlt : ∀ b ∈ bytes.head?, (State.start.after a).accepts b = true →
      (lossy (a ++ bytes)).length < (lossy a ++ lossy bytes).length := by
    intro b hb haccepts
    cases bytes with
    | nil => cases hb
    | cons c bytes =>
      cases hb
      have hcut := State.length_decode_lt haccepts bytes
      change (State.start.decode (a ++ b :: bytes)).length <
        (State.start.decode a ++ lossy (b :: bytes)).length
      rw [hab, ha]
      simp only [List.length_append] at hcut ⊢
      omega
  refine ⟨?_, hlt⟩
  by_cases h : ∀ b ∈ bytes.head?, (State.start.after a).accepts b = false
  · exact Nat.le_of_eq (congrArg List.length (lossy_append h))
  · push Not at h
    obtain ⟨b, hb, haccepts⟩ := h
    exact Nat.le_of_lt (hlt b hb (by simpa using haccepts))

/-- Reads that are decoded one by one make at least the characters of the whole. -/
theorem length_lossy_flatten_le (reads : List (List Nat)) :
    (lossy reads.flatten).length ≤ (decodeReads reads).length := by
  induction reads with
  | nil => exact Nat.le_refl _
  | cons read reads ih =>
    have := (length_lossy_append read reads.flatten).1
    simp only [List.flatten_cons, decodeReads, List.flatMap_cons, List.length_append] at this ih ⊢
    omega

/-- Reads that are decoded one by one give the text of the whole exactly where they are
aligned. -/
theorem decodeReads_eq_iff (reads : List (List Nat)) :
    decodeReads reads = lossy reads.flatten ↔ Aligned reads := by
  induction reads with
  | nil => exact iff_of_true rfl trivial
  | cons read reads ih =>
    rw [Aligned, ← ih, List.flatten_cons, decodeReads, List.flatMap_cons]
    constructor
    · intro h
      have hlen := congrArg List.length h
      have hrest := length_lossy_flatten_le reads
      have hcut := length_lossy_append read reads.flatten
      have hclean : ∀ b ∈ reads.flatten.head?, (State.start.after read).accepts b = false := by
        intro b hb
        by_contra hne
        have := hcut.2 b hb (by simpa using hne)
        simp only [List.length_append, decodeReads] at this hlen hrest
        omega
      rw [lossy_append hclean] at h
      exact ⟨hclean, List.append_cancel_left h⟩
    · rintro ⟨hclean, hrest⟩
      rw [lossy_append hclean, ← hrest]
      rfl

/-- An arrow in three bytes, whole and cut after the second. -/
example : lossy [0xE2, 0x86, 0x92] = [Char.ofNat 0x2192] ∧
    decodeReads [[0xE2, 0x86], [0x92]] = [replacement, replacement] := by decide

end NullRouter.Base.Utf8
