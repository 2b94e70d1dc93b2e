import Mathlib.Logic.Function.Iterate

/-!
# Cyclic redundancy checks

A reflected check over a polynomial of any width: the register takes the bits of a message one at
a time, the lowest of a byte first. Two messages that differ only within a window that is no wider
than the register have different checks.
-/

namespace NullRouter.Base.Crc

variable {w : Nat} (poly : BitVec w)

/-- The register moves on by one bit. -/
def shift (v : BitVec w) : BitVec w := (v >>> 1) ^^^ (if v.getLsbD 0 then poly else 0#w)

/-- The register takes a bit. -/
def feed (r : BitVec w) (b : Bool) : BitVec w := shift poly (r ^^^ if b then 1#w else 0#w)

/-- The register takes bits in turn. -/
def feedBits (r : BitVec w) (bits : List Bool) : BitVec w := bits.foldl (feed poly) r

/-- The lowest bits of a word. -/
def lowBits {k : Nat} : Nat → BitVec k → List Bool
  | 0, _ => []
  | n + 1, v => v.getLsbD 0 :: lowBits n (v >>> 1)

@[simp] theorem length_lowBits {k : Nat} (n : Nat) (v : BitVec k) : (lowBits n v).length = n := by
  induction n generalizing v with
  | zero => rfl
  | succ n ih => rw [lowBits, List.length_cons, ih]

theorem getElem?_lowBits {k n i : Nat} (v : BitVec k) (h : i < n) :
    (lowBits n v)[i]? = some (v.getLsbD i) := by
  induction n generalizing v i with
  | zero => omega
  | succ n ih =>
    cases i with
    | zero => rfl
    | succ i =>
      rw [lowBits, List.getElem?_cons_succ, ih _ (by omega), BitVec.getLsbD_ushiftRight,
        Nat.add_comm]

theorem feedBits_append (r : BitVec w) (bits more : List Bool) :
    feedBits poly r (bits ++ more) = feedBits poly (feedBits poly r bits) more :=
  List.foldl_append

@[simp] theorem shift_zero : shift poly 0#w = 0#w := by
  rw [shift, BitVec.getLsbD_zero, if_neg Bool.false_ne_true, BitVec.zero_ushiftRight,
    BitVec.xor_zero]

theorem shift_xor (u v : BitVec w) : shift poly (u ^^^ v) = shift poly u ^^^ shift poly v := by
  rw [shift, shift, shift, BitVec.ushiftRight_xor_distrib, BitVec.getLsbD_xor]
  cases u.getLsbD 0 <;> cases v.getLsbD 0
  · simp
  · simp [BitVec.xor_assoc]
  · simp only [Bool.xor_false, if_true, Bool.false_eq_true, if_false, BitVec.xor_zero]
    rw [BitVec.xor_assoc, BitVec.xor_assoc, BitVec.xor_comm (v >>> 1)]
  · simp only [Bool.xor_self, Bool.false_eq_true, if_false, if_true, BitVec.xor_zero]
    rw [BitVec.xor_assoc, BitVec.xor_comm poly, BitVec.xor_assoc, BitVec.xor_self,
      BitVec.xor_zero]

/-- The low bit of a word goes in, the others move down. -/
theorem shift_xor_word (r v : BitVec w) :
    shift poly (r ^^^ v) = feed poly r (v.getLsbD 0) ^^^ (v >>> 1) := by
  have hone : (1#w) >>> 1 = 0#w := by
    refine BitVec.eq_of_getLsbD_eq fun i hi ↦ ?_
    rw [BitVec.getLsbD_ushiftRight, BitVec.getLsbD_zero, BitVec.getLsbD_one]
    simp
  have hword : shift poly v = feed poly 0#w (v.getLsbD 0) ^^^ (v >>> 1) := by
    rcases Nat.eq_zero_or_pos w with rfl | hw
    · exact BitVec.eq_of_getLsbD_eq fun i hi ↦ absurd hi (Nat.not_lt_zero i)
    · rw [feed, BitVec.zero_xor]
      cases hbit : v.getLsbD 0
      · rw [if_neg Bool.false_ne_true, shift_zero, BitVec.zero_xor, shift, hbit,
          if_neg Bool.false_ne_true, BitVec.xor_zero]
      · have hlow : (1#w).getLsbD 0 = true := by simp [hw]
        rw [if_pos rfl, shift, shift, hbit, hlow, if_pos rfl, hone, BitVec.zero_xor,
          BitVec.xor_comm]
  rw [shift_xor, hword, feed, feed, shift_xor poly r, BitVec.zero_xor, BitVec.xor_assoc]

/-- Moving on by as many bits as a word's lowest feeds these in and moves the others down. -/
theorem iterate_shift_xor (n : Nat) (r v : BitVec w) :
    (shift poly)^[n] (r ^^^ v) = feedBits poly r (lowBits n v) ^^^ (v >>> n) := by
  induction n generalizing r v with
  | zero => rw [Function.iterate_zero_apply, BitVec.ushiftRight_zero, lowBits, feedBits,
      List.foldl_nil]
  | succ n ih =>
    rw [Function.iterate_succ_apply, shift_xor_word, ih, ← BitVec.shiftRight_add, Nat.add_comm 1 n]
    rfl

section Table

private theorem lowBits_of_getLsbD {j k n : Nat} {u : BitVec j} {v : BitVec k}
    (h : ∀ i < n, u.getLsbD i = v.getLsbD i) : lowBits n u = lowBits n v := by
  refine List.ext_getElem? fun i ↦ ?_
  by_cases hi : i < n
  · rw [getElem?_lowBits u hi, getElem?_lowBits v hi, h i hi]
  · rw [List.getElem?_eq_none (by simpa using hi), List.getElem?_eq_none (by simpa using hi)]

private theorem feedBits_zeros (n : Nat) (r : BitVec w) :
    feedBits poly r (lowBits n (0#w)) = (shift poly)^[n] r := by
  have hmoved := iterate_shift_xor poly n r 0#w
  rw [BitVec.xor_zero, BitVec.zero_ushiftRight, BitVec.xor_zero] at hmoved
  exact hmoved.symm

/-- Moving on by some bits: those that leave the register count through what a table holds of them,
the others move down. -/
theorem iterate_shift_split (n : Nat) (r : BitVec w) :
    (shift poly)^[n] r = (shift poly)^[n] ((r.setWidth n).setWidth w) ^^^ (r >>> n) := by
  have hlow {i : Nat} : ((r.setWidth n).setWidth w).getLsbD i =
      (decide (i < w) && (decide (i < n) && r.getLsbD i)) := by
    rw [BitVec.getLsbD_setWidth, BitVec.getLsbD_setWidth]
  have hzero : lowBits n (r ^^^ (r.setWidth n).setWidth w) = lowBits n 0#w := by
    refine lowBits_of_getLsbD fun i hi ↦ ?_
    rw [BitVec.getLsbD_xor, hlow, BitVec.getLsbD_zero]
    by_cases hiw : i < w
    · simp [hi, hiw]
    · simp [hiw, BitVec.getLsbD_of_ge r i (by omega)]
  have hhigh : (r ^^^ (r.setWidth n).setWidth w) >>> n = r >>> n := by
    refine BitVec.eq_of_getLsbD_eq fun i hi ↦ ?_
    have hi' : ¬ n + i < n := by omega
    rw [BitVec.getLsbD_ushiftRight, BitVec.getLsbD_ushiftRight, BitVec.getLsbD_xor, hlow,
      decide_eq_false hi', Bool.false_and, Bool.and_false, Bool.xor_false]
  have hsplit : r = (r.setWidth n).setWidth w ^^^ (r ^^^ (r.setWidth n).setWidth w) := by
    rw [BitVec.xor_comm r, ← BitVec.xor_assoc, BitVec.xor_self, BitVec.zero_xor]
  calc (shift poly)^[n] r
      = (shift poly)^[n] ((r.setWidth n).setWidth w ^^^ (r ^^^ (r.setWidth n).setWidth w)) := by
        rw [← hsplit]
    _ = feedBits poly ((r.setWidth n).setWidth w) (lowBits n 0#w) ^^^ (r >>> n) := by
        rw [iterate_shift_xor, hzero, hhigh]
    _ = (shift poly)^[n] ((r.setWidth n).setWidth w) ^^^ (r >>> n) := by rw [feedBits_zeros]

/-- A register takes the bits of a short word by what a table holds of them and its own lowest. -/
theorem table_step {n : Nat} (h : n ≤ w) (r : BitVec w) (b : BitVec n) :
    (shift poly)^[n] ((r.setWidth n ^^^ b).setWidth w) ^^^ (r >>> n) =
      feedBits poly r (lowBits n b) := by
  have hword : ((r ^^^ b.setWidth w).setWidth n) = r.setWidth n ^^^ b := by
    refine BitVec.eq_of_getLsbD_eq fun i hi ↦ ?_
    rw [BitVec.getLsbD_setWidth, BitVec.getLsbD_xor, BitVec.getLsbD_xor, BitVec.getLsbD_setWidth,
      BitVec.getLsbD_setWidth]
    simp [hi, Nat.lt_of_lt_of_le hi h]
  have hgone : (b.setWidth w) >>> n = 0#w := by
    refine BitVec.eq_of_getLsbD_eq fun i hi ↦ ?_
    rw [BitVec.getLsbD_ushiftRight, BitVec.getLsbD_setWidth, BitVec.getLsbD_of_ge b _ (by omega),
      Bool.and_false, BitVec.getLsbD_zero]
  have hbits : lowBits n (b.setWidth w) = lowBits n b := by
    refine lowBits_of_getLsbD fun i hi ↦ ?_
    rw [BitVec.getLsbD_setWidth, decide_eq_true (Nat.lt_of_lt_of_le hi h), Bool.true_and]
  have hsplit := iterate_shift_split poly n (r ^^^ b.setWidth w)
  rw [hword, BitVec.ushiftRight_xor_distrib, hgone, BitVec.xor_zero] at hsplit
  rw [← hsplit, iterate_shift_xor, hgone, BitVec.xor_zero, hbits]

end Table

private theorem eq_of_xor_eq_false {a b : Bool} (h : (a ^^ b) = false) : a = b := by
  cases a <;> cases b <;> first | rfl | cases h

section Detection

variable {poly} (hpoly : poly.msb = true)

include hpoly

private theorem msb_shift (v : BitVec w) : (shift poly v).msb = v.getLsbD 0 := by
  have hw : 0 < w := by
    rcases Nat.eq_zero_or_pos w with rfl | hw
    · rw [BitVec.msb_eq_getLsbD_last, BitVec.getLsbD_of_ge _ _ (by omega)] at hpoly
      cases hpoly
    · exact hw
  have hmoved : (v >>> 1).msb = false := by
    rw [BitVec.msb_eq_getLsbD_last, BitVec.getLsbD_ushiftRight, BitVec.getLsbD_of_ge _ _ (by omega)]
  rw [shift, BitVec.msb_xor, hmoved, Bool.false_xor]
  cases v.getLsbD 0
  · rw [if_neg Bool.false_ne_true, BitVec.msb_zero]
  · rw [if_pos rfl, hpoly]

/-- Registers that take the same number of bits, no more than they hold, and end alike began with
bits that differ where those they took do. -/
theorem getLsbD_xor_of_feedBits_eq {bits bits' : List Bool} (hlength : bits.length = bits'.length)
    (hbits : bits.length ≤ w) {r r' : BitVec w}
    (h : feedBits poly r bits = feedBits poly r' bits') {i : Nat} (hi : i < w) :
    (r ^^^ r').getLsbD i = ((bits[i]?).getD false ^^ (bits'[i]?).getD false) := by
  induction bits generalizing bits' r r' i with
  | nil =>
    obtain rfl := List.length_eq_zero_iff.mp hlength.symm
    obtain rfl : r = r' := h
    simp
  | cons b bits ih =>
    cases bits' with
    | nil => cases hlength
    | cons b' bits' =>
      rw [List.length_cons, List.length_cons, Nat.add_right_cancel_iff] at hlength
      rw [List.length_cons] at hbits
      have hrest {i : Nat} (hi : i < w) := ih hlength (by omega) h hi
      -- the two registers differ by what the bits and the first registers differ by, moved on
      have hdiff : feed poly r b ^^^ feed poly r' b' =
          shift poly ((r ^^^ r') ^^^ if (b ^^ b') then 1#w else 0#w) := by
        rw [feed, feed, ← shift_xor]
        congr 1
        cases b <;> cases b'
        · simp
        · simp [BitVec.xor_assoc]
        · simp only [if_true, Bool.false_eq_true, if_false, BitVec.xor_zero, Bool.xor_false]
          rw [BitVec.xor_assoc, BitVec.xor_assoc, BitVec.xor_comm r']
        · simp only [if_true, Bool.xor_self, Bool.false_eq_true, if_false, BitVec.xor_zero]
          rw [BitVec.xor_comm r', BitVec.xor_assoc, ← BitVec.xor_assoc 1#w, BitVec.xor_self,
            BitVec.zero_xor]
      rw [hdiff] at hrest
      have hlow : ((r ^^^ r') ^^^ if (b ^^ b') then 1#w else 0#w).getLsbD 0 = false := by
        rw [← msb_shift hpoly, BitVec.msb_eq_getLsbD_last, hrest (by omega)]
        rw [List.getElem?_eq_none (by omega), List.getElem?_eq_none (by omega)]
        rfl
      have hone : (if (b ^^ b') then 1#w else 0#w).getLsbD 0 = (b ^^ b') := by
        cases b ^^ b'
        · rw [if_neg Bool.false_ne_true, BitVec.getLsbD_zero]
        · simp [Nat.zero_lt_of_lt hi]
      cases i with
      | zero =>
        rw [BitVec.getLsbD_xor, hone] at hlow
        exact eq_of_xor_eq_false hlow
      | succ i =>
        have hmoved := hrest (Nat.lt_of_succ_lt hi)
        rw [shift, hlow, if_neg Bool.false_ne_true, BitVec.xor_zero,
          BitVec.getLsbD_ushiftRight, BitVec.getLsbD_xor] at hmoved
        have hzero : (if (b ^^ b') then 1#w else 0#w).getLsbD (1 + i) = false := by
          cases b ^^ b' <;> simp [BitVec.getLsbD_one]
        rw [hzero, Bool.xor_false, Nat.add_comm] at hmoved
        rw [hmoved, List.getElem?_cons_succ, List.getElem?_cons_succ]

/-- Registers that take the same bits and end alike began alike. -/
theorem eq_of_feedBits_eq {bits : List Bool} {r r' : BitVec w}
    (h : feedBits poly r bits = feedBits poly r' bits) : r = r' := by
  induction bits generalizing r r' with
  | nil => exact h
  | cons b bits ih =>
    have hfed : feedBits poly r [b] = feedBits poly r' [b] := ih h
    rcases Nat.eq_zero_or_pos w with rfl | hw
    · exact BitVec.eq_of_getLsbD_eq fun i hi ↦ absurd hi (Nat.not_lt_zero i)
    · refine BitVec.eq_of_getLsbD_eq fun i hi ↦ ?_
      have hbit := getLsbD_xor_of_feedBits_eq hpoly rfl (show [b].length ≤ w from hw) hfed hi
      rw [BitVec.getLsbD_xor, Bool.xor_self] at hbit
      exact eq_of_xor_eq_false hbit

/-- A change within a window that is no wider than the register changes the check. -/
theorem feedBits_ne_of_burst {before burst burst' after : List Bool}
    (hlength : burst.length = burst'.length) (hburst : burst.length ≤ w) (hne : burst ≠ burst')
    (r : BitVec w) :
    feedBits poly r (before ++ burst ++ after) ≠ feedBits poly r (before ++ burst' ++ after) := by
  intro h
  rw [feedBits_append, feedBits_append, feedBits_append, feedBits_append] at h
  have hwindow := eq_of_feedBits_eq hpoly h
  refine hne (List.ext_getElem hlength fun i hi hi' ↦ ?_)
  have hbit :=
    getLsbD_xor_of_feedBits_eq hpoly hlength hburst hwindow (Nat.lt_of_lt_of_le hi hburst)
  rw [BitVec.xor_self, BitVec.getLsbD_zero, List.getElem?_eq_getElem hi,
    List.getElem?_eq_getElem hi', Option.getD_some, Option.getD_some, eq_comm] at hbit
  exact eq_of_xor_eq_false hbit

end Detection
end NullRouter.Base.Crc
