import NullRouter.Base.Text

/-!
# Arithmetic that may overflow

Additions and multiplications of `u64` in a build with overflow checks, where one that overflows is
a panic, and in a build without, where it leaves the remainder. A computation is exact where none
of its steps overflows; steps are put together, and so are the conditions.
-/

namespace NullRouter.Base

universe u v

variable {α : Type u} {β : Type v}

/-- A result of `u64` arithmetic: as it is where it fits, else a panic or the remainder. -/
def wrapU64 (overflowChecks : Bool) (n : Nat) : Option Nat :=
  if n ≤ u64Max then some n else if overflowChecks then none else some (n % 2 ^ 64)

/-- `a + b` of `u64`. -/
def addU64 (overflowChecks : Bool) (a b : Nat) : Option Nat := wrapU64 overflowChecks (a + b)

/-- `a * b` of `u64`. -/
def mulU64 (overflowChecks : Bool) (a b : Nat) : Option Nat := wrapU64 overflowChecks (a * b)

/-- `a - b` of `u64`. -/
def subU64 (overflowChecks : Bool) (a b : Nat) : Option Nat :=
  if b ≤ a then some (a - b) else if overflowChecks then none else some (a + 2 ^ 64 - b)

/-- A result of `i64` arithmetic: as it is where it fits, else a panic or the remainder. -/
def wrapI64 (overflowChecks : Bool) (n : Int) : Option Int :=
  if -2 ^ 63 ≤ n ∧ n < 2 ^ 63 then some n
  else if overflowChecks then none else some (n.bmod (2 ^ 64))

section Fitting

variable {a b : Nat} (overflowChecks : Bool)

theorem addU64_of_le (h : a + b ≤ 2 ^ 64 - 1) : addU64 overflowChecks a b = some (a + b) :=
  if_pos h

theorem mulU64_of_le (h : a * b ≤ 2 ^ 64 - 1) : mulU64 overflowChecks a b = some (a * b) :=
  if_pos h

theorem subU64_of_le (h : b ≤ a) : subU64 overflowChecks a b = some (a - b) := if_pos h

theorem wrapI64_of_le {n : Int} (h : -2 ^ 63 ≤ n ∧ n < 2 ^ 63) :
    wrapI64 overflowChecks n = some n := if_pos h

end Fitting

/-- Without overflow checks, a sum is what remains of it. -/
theorem addU64_false (a b : Nat) : addU64 false a b = some ((a + b) % 2 ^ 64) := by
  rw [addU64, wrapU64]
  split
  · next hfits =>
    have hmax : u64Max = 2 ^ 64 - 1 := rfl
    rw [Nat.mod_eq_of_lt (by omega)]
  · rfl

/-- With overflow checks, it is the sum or nothing. -/
theorem addU64_true (a b : Nat) :
    addU64 true a b = if a + b ≤ u64Max then some (a + b) else none := rfl

/-- A computation overflows nowhere exactly where its numbers fit, and what it gives then in
either build. -/
structure ExactWhere (fits : Prop) (run : Bool → Option α) (result : α) : Prop where
  checked : (run true).isSome = true ↔ fits
  exact : fits → ∀ overflowChecks, run overflowChecks = some result

namespace ExactWhere

variable {fits fits' : Prop} {run : Bool → Option α} {next : Bool → α → Option β} {a : α} {b : β}

theorem wrap (n : Nat) : ExactWhere (n ≤ u64Max) (wrapU64 · n) n := by
  constructor
  · rw [wrapU64]
    split <;> simp_all
  · intro h _
    rw [wrapU64, if_pos h]

theorem add (m n : Nat) : ExactWhere (m + n ≤ u64Max) (addU64 · m n) (m + n) := wrap (m + n)

theorem mul (m n : Nat) : ExactWhere (m * n ≤ u64Max) (mulU64 · m n) (m * n) := wrap (m * n)

/-- What is no arithmetic overflows nowhere. -/
theorem pure (a : α) : ExactWhere True (fun _ ↦ some a) a := ⟨by simp, fun _ _ ↦ rfl⟩

/-- One computation after the other. -/
theorem bind (h : ExactWhere fits run a) (h' : ExactWhere fits' (next · a) b) :
    ExactWhere (fits ∧ fits') (fun checks ↦ (run checks).bind (next checks)) b := by
  constructor
  · constructor
    · intro hsome
      obtain ⟨result, hresult⟩ := Option.isSome_iff_exists.mp hsome
      obtain ⟨value, hvalue, hnext⟩ := Option.bind_eq_some_iff.mp hresult
      have hfits : fits := h.checked.mp (Option.isSome_iff_exists.mpr ⟨value, hvalue⟩)
      obtain rfl : a = value := Option.some.inj ((h.exact hfits true).symm.trans hvalue)
      exact ⟨hfits, h'.checked.mp (Option.isSome_iff_exists.mpr ⟨result, hnext⟩)⟩
    · rintro ⟨hfits, hfits'⟩
      rw [h.exact hfits true, Option.bind_some]
      exact h'.checked.mpr hfits'
  · rintro ⟨hfits, hfits'⟩ checks
    rw [h.exact hfits checks, Option.bind_some]
    exact h'.exact hfits' checks

/-- What is made of the result. -/
theorem map (h : ExactWhere fits run a) (f : α → β) :
    ExactWhere fits (fun checks ↦ (run checks).map f) (f a) := by
  refine ⟨?_, fun hfits checks ↦ ?_⟩
  · rw [Option.isSome_map]
    exact h.checked
  · rw [h.exact hfits checks, Option.map_some]

/-- The same condition in other words. -/
theorem congr (h : ExactWhere fits run a) (hiff : fits ↔ fits') : ExactWhere fits' run a :=
  ⟨h.checked.trans hiff, fun hfits ↦ h.exact (hiff.mpr hfits)⟩

end ExactWhere
end NullRouter.Base
