import Mathlib.Algebra.Order.Ring.Int
import Mathlib.Data.List.Basic

/-!
# Texts by byte offsets

`str::get(n..)` and `str::get(..n)` of the standard library: the rest of a text after so many bytes
of UTF-8 and what is before it, which there is only where the offset is the length of a prefix.
-/

namespace NullRouter.Base

/-- The characters after so many bytes; none where the bytes end inside a character or go beyond
the text. -/
def charsFrom : Nat → List Char → Option (List Char)
  | 0, text => some text
  | _ + 1, [] => none
  | n + 1, c :: text => if c.utf8Size ≤ n + 1 then charsFrom (n + 1 - c.utf8Size) text else none

/-- The characters of so many bytes: `str::get(..n)` on scalar values. -/
def charsTo : Nat → List Char → Option (List Char)
  | 0, _ => some []
  | _ + 1, [] => none
  | n + 1, c :: text =>
    if c.utf8Size ≤ n + 1 then (charsTo (n + 1 - c.utf8Size) text).map (c :: ·) else none

/-- `str::get(n..)`. -/
def getFrom (n : Nat) (s : String) : Option String := (charsFrom n s.toList).map String.ofList

/-- `str::len`: the bytes of a text. -/
def byteSize (text : List Char) : Nat := (String.ofList text).utf8ByteSize

private theorem utf8ByteSize_ofList_cons (c : Char) (text : List Char) :
    (String.ofList (c :: text)).utf8ByteSize = c.utf8Size + (String.ofList text).utf8ByteSize := by
  rw [String.ofList_cons, String.utf8ByteSize_append, String.utf8ByteSize_singleton]

@[simp] theorem byteSize_nil : byteSize [] = 0 := rfl

theorem byteSize_cons (c : Char) (text : List Char) :
    byteSize (c :: text) = c.utf8Size + byteSize text := utf8ByteSize_ofList_cons c text

theorem byteSize_append (text rest : List Char) :
    byteSize (text ++ rest) = byteSize text + byteSize rest := by
  rw [byteSize, String.ofList_append, String.utf8ByteSize_append]
  rfl

theorem byteSize_eq_sum (text : List Char) : byteSize text = (text.map Char.utf8Size).sum := by
  induction text with
  | nil => rfl
  | cons c text ih => rw [byteSize_cons, ih, List.map_cons, List.sum_cons]

/-- A part of a text has no more bytes. -/
theorem byteSize_le_of_prefix {text rest : List Char} (h : text <+: rest) :
    byteSize text ≤ byteSize rest := by
  obtain ⟨tail, rfl⟩ := h
  rw [byteSize_append]
  exact Nat.le_add_right ..

/-- The rest after so many bytes is what follows a prefix of that length. -/
theorem charsFrom_eq_some_iff {n : Nat} {text rest : List Char} :
    charsFrom n text = some rest ↔
      ∃ head, text = head ++ rest ∧ (String.ofList head).utf8ByteSize = n := by
  induction text generalizing n with
  | nil =>
    cases n with
    | zero =>
      rw [charsFrom, Option.some_inj]
      constructor
      · rintro rfl
        exact ⟨[], rfl, rfl⟩
      · rintro ⟨head, hsplit, -⟩
        exact (List.append_eq_nil_iff.mp hsplit.symm).2.symm
    | succ n =>
      rw [charsFrom]
      refine ⟨nofun, ?_⟩
      rintro ⟨head, hsplit, hsize⟩
      rw [(List.append_eq_nil_iff.mp hsplit.symm).1] at hsize
      exact absurd hsize (Nat.succ_ne_zero n).symm
  | cons c text ih =>
    have hpos := Char.utf8Size_pos c
    cases n with
    | zero =>
      rw [charsFrom, Option.some_inj]
      constructor
      · rintro rfl
        exact ⟨[], rfl, rfl⟩
      · rintro ⟨head, hsplit, hsize⟩
        cases head with
        | nil => exact hsplit
        | cons d head =>
          have hd := Char.utf8Size_pos d
          rw [utf8ByteSize_ofList_cons] at hsize
          omega
    | succ n =>
      rw [charsFrom]
      split
      · next hle =>
        rw [ih]
        constructor
        · rintro ⟨head, rfl, hsize⟩
          refine ⟨c :: head, rfl, ?_⟩
          rw [utf8ByteSize_ofList_cons]
          omega
        · rintro ⟨head, hsplit, hsize⟩
          cases head with
          | nil => exact absurd hsize (Nat.succ_ne_zero n).symm
          | cons d head =>
            obtain ⟨rfl, rfl⟩ := List.cons_eq_cons.mp hsplit
            rw [utf8ByteSize_ofList_cons] at hsize
            exact ⟨head, rfl, by omega⟩
      · next hlt =>
        refine ⟨nofun, ?_⟩
        rintro ⟨head, hsplit, hsize⟩
        cases head with
        | nil => exact absurd hsize (Nat.succ_ne_zero n).symm
        | cons d head =>
          obtain ⟨rfl, rfl⟩ := List.cons_eq_cons.mp hsplit
          rw [utf8ByteSize_ofList_cons] at hsize
          omega

/-- After the bytes of a prefix comes the rest. -/
@[simp] theorem getFrom_append (head rest : String) :
    getFrom head.utf8ByteSize (head ++ rest) = some rest := by
  have hchars : charsFrom head.utf8ByteSize (head ++ rest).toList = some rest.toList :=
    charsFrom_eq_some_iff.mpr ⟨head.toList, String.toList_append, by rw [String.ofList_toList]⟩
  rw [getFrom, hchars, Option.map_some, String.ofList_toList]

/-- Of characters of ASCII, as many as bytes. -/
theorem charsTo_of_ascii {text : List Char} (h : ∀ c ∈ text, c.toNat < 128) {n : Nat}
    (hn : n ≤ text.length) : charsTo n text = some (text.take n) := by
  induction text generalizing n with
  | nil =>
    rw [List.length_nil, Nat.le_zero] at hn
    rw [hn, charsTo, List.take_zero]
  | cons c text ih =>
    cases n with
    | zero => rfl
    | succ n =>
      have hc : c.val.toNat < 128 := h c List.mem_cons_self
      have hsize : c.utf8Size = 1 := by
        rw [Char.utf8Size, if_pos]
        exact Nat.le_of_lt_succ hc
      have hrest : ∀ d ∈ text, d.toNat < 128 := fun d hd ↦ h d (List.mem_cons_of_mem c hd)
      rw [charsTo, hsize, if_pos (by omega), Nat.add_sub_cancel,
        ih hrest (Nat.le_of_succ_le_succ hn), Option.map_some, List.take_succ_cons]

end NullRouter.Base
