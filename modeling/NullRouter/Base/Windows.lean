import NullRouter.Base.Text

/-!
# Windows and pages of a list

The last items of a list, as a bounded log keeps them, the pages of a list, and sums that saturate.
-/

namespace NullRouter.Base

section Last

variable {α : Type}

/-- At most so many items from the end of a list. -/
def keepLast (n : Nat) (items : List α) : List α := items.drop (items.length - n)

theorem keepLast_of_length_le {n : Nat} {items : List α} (h : items.length ≤ n) :
    keepLast n items = items := by
  rw [keepLast, Nat.sub_eq_zero_of_le h, List.drop_zero]

theorem length_keepLast (n : Nat) (items : List α) :
    (keepLast n items).length = min items.length n := by
  rw [keepLast, List.length_drop]
  omega

theorem keepLast_suffix (n : Nat) (items : List α) : keepLast n items <:+ items :=
  List.drop_suffix _ items

/-- What comes before enough items is not kept. -/
theorem keepLast_append_of_le {n : Nat} {items : List α} (h : n ≤ items.length)
    (before : List α) : keepLast n (before ++ items) = keepLast n items := by
  have hdrop : (before ++ items).length - n = before.length + (items.length - n) := by
    rw [List.length_append]
    omega
  rw [keepLast, hdrop, ← List.drop_drop, List.drop_left, keepLast]

/-- What is kept of some items is enough to know what is kept after more. -/
theorem keepLast_append (n : Nat) (items more : List α) :
    keepLast n (keepLast n items ++ more) = keepLast n (items ++ more) := by
  by_cases hshort : items.length ≤ n
  · rw [keepLast_of_length_le hshort]
  · obtain ⟨before, hbefore⟩ := keepLast_suffix n items
    have hlength := length_keepLast n items
    conv_rhs => rw [← hbefore, List.append_assoc]
    refine (keepLast_append_of_le ?_ before).symm
    rw [List.length_append]
    omega

end Last

section Pages

variable {α : Type}

/-- `div_ceil`. -/
def divCeil (a b : Nat) : Nat := if a % b > 0 then a / b + 1 else a / b

theorem le_divCeil_mul {b : Nat} (h : 0 < b) (a : Nat) : a ≤ divCeil a b * b := by
  have hdiv := Nat.div_add_mod' a b
  have hmod := Nat.mod_lt a h
  rw [divCeil]
  split
  · rw [Nat.add_mul, Nat.one_mul]
    omega
  · omega

theorem divCeil_le {a b n : Nat} (h : 0 < b) (hle : a ≤ n * b) : divCeil a b ≤ n := by
  rw [divCeil]
  split
  · next hmod =>
    have hdiv := Nat.div_add_mod' a b
    exact (Nat.div_lt_iff_lt_mul h).mpr (lt_of_le_of_ne hle fun heq ↦ by
      rw [heq, Nat.mul_mod_left] at hmod
      exact absurd hmod (by decide))
  · exact Nat.div_le_of_le_mul (Nat.mul_comm n b ▸ hle)

/-- Pages of one length that follow one another are the front of the list. -/
theorem flatMap_pages (items : List α) (span pages : Nat) :
    ((List.range pages).flatMap fun page ↦ (items.drop (page * span)).take span) =
      items.take (pages * span) := by
  induction pages with
  | zero => rw [Nat.zero_mul, List.take_zero]; rfl
  | succ pages ih =>
    rw [List.range_succ, List.flatMap_append, ih, List.flatMap_singleton, Nat.succ_mul,
      List.take_add]

end Pages

section Saturating

end Saturating

end NullRouter.Base
