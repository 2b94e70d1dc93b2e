/-!
# Computations that may be refused

`Except` as a chain of checks: when a chain, a lookup and a check come to a value. Nothing here
names an error of a particular system.
-/

namespace NullRouter.Base

universe u

variable {α β ε : Type u}

/-- What there is, or else an error. -/
def okOr (value : Option α) (error : ε) : Except ε α := value.elim (.error error) .ok

/-- An error where a condition holds. -/
def refuseIf (condition : Prop) [Decidable condition] (error : ε) : Except ε PUnit :=
  if condition then .error error else .ok ⟨⟩

/-- A chain comes to what its second part comes to from what its first part comes to. -/
@[simp] theorem bind_eq_ok {first : Except ε α} {next : α → Except ε β} {result : β} :
    (first >>= next) = .ok result ↔ ∃ value, first = .ok value ∧ next value = .ok result := by
  cases first with
  | error error =>
    constructor
    · intro h
      cases h
    · rintro ⟨value, h, -⟩
      cases h
  | ok value =>
    constructor
    · intro h
      exact ⟨value, rfl, h⟩
    · rintro ⟨other, hother, hresult⟩
      cases hother
      exact hresult

@[simp] theorem okOr_eq_ok {value : Option α} {error : ε} {result : α} :
    okOr value error = .ok result ↔ value = some result := by
  cases value with
  | none => exact iff_of_false (fun h ↦ by cases h) (fun h ↦ by cases h)
  | some value =>
    show Except.ok value = .ok result ↔ some value = some result
    rw [Except.ok.injEq, Option.some.injEq]

@[simp] theorem refuseIf_eq_ok {condition : Prop} [Decidable condition] {error : ε}
    {result : PUnit} : refuseIf condition error = .ok result ↔ ¬condition := by
  rw [refuseIf]
  by_cases h : condition
  · rw [if_pos h]
    exact iff_of_false (fun h' ↦ by cases h') (fun h' ↦ h' h)
  · rw [if_neg h]
    exact iff_of_true rfl h

end NullRouter.Base
