import Mathlib.Data.List.Basic
import Mathlib.Logic.Function.Basic

/-!
# Labelled runs and their invariants

Runs of an arbitrary labelled step relation, and folds of a deterministic action
function, with the induction rules that carry an invariant along them.
Nothing here names a state or an action of a particular system.
-/

namespace NullRouter.Base

universe u v

/-- Finite run of a labelled step relation, with the labels it took in order. -/
inductive Run {σ : Type u} {α : Type v} (step : σ → α → σ → Prop) : σ → List α → σ → Prop where
  | nil (s : σ) : Run step s [] s
  | cons {s t r : σ} {a : α} {as : List α} (head : step s a t) (tail : Run step t as r) :
      Run step s (a :: as) r

/-- The steps of a relation that also meet a condition on the label and the state before. -/
def Guarded {σ : Type u} {α : Type v} (ok : σ → α → Prop) (step : σ → α → σ → Prop) :
    σ → α → σ → Prop :=
  fun s a t ↦ ok s a ∧ step s a t

namespace Run

variable {σ : Type u} {α : Type v} {step : σ → α → σ → Prop}

/-- One step is a run. -/
theorem single {s t : σ} {a : α} (h : step s a t) : Run step s [a] t :=
  .cons h (.nil t)

/-- Runs compose, and their labels concatenate. -/
theorem append {s t r : σ} {as bs : List α} (h : Run step s as t) (k : Run step t bs r) :
    Run step s (as ++ bs) r := by
  induction h with
  | nil => exact k
  | cons head _ ih => exact .cons head (ih k)

/-- A run over two lists of labels passes through a state between them. -/
theorem of_append {s r : σ} {as bs : List α} (h : Run step s (as ++ bs) r) :
    ∃ t, Run step s as t ∧ Run step t bs r := by
  induction as generalizing s with
  | nil => exact ⟨s, .nil s, h⟩
  | cons a as ih =>
    cases h with
    | cons head tail =>
      obtain ⟨t, hfirst, hrest⟩ := ih tail
      exact ⟨t, .cons head hfirst, hrest⟩

/-- A run over labels with a given one among them passes through that step. -/
theorem split_append {s r : σ} {a : α} {as bs : List α} (h : Run step s (as ++ a :: bs) r) :
    ∃ t t', step t a t' ∧ Run step t' bs r := by
  induction as generalizing s with
  | nil =>
    cases h with
    | cons head tail => exact ⟨_, _, head, tail⟩
  | cons b as ih =>
    cases h with
    | cons head tail => exact ih tail

/-- What every step preserves, every run preserves. -/
theorem invariant (P : σ → Prop) (hstep : ∀ s a t, P s → step s a t → P t)
    {s t : σ} {as : List α} (h : Run step s as t) (hs : P s) : P t := by
  induction h with
  | nil => exact hs
  | cons head _ ih => exact ih (hstep _ _ _ hs head)

/-- Dropping the condition of a guarded run leaves a run. -/
theorem of_guarded {ok : σ → α → Prop} {s t : σ} {as : List α}
    (h : Run (Guarded ok step) s as t) : Run step s as t := by
  induction h with
  | nil => exact .nil _
  | cons head _ ih => exact .cons head.2 ih

end Run

/-!
## Ownership of a mutual-exclusion lock

A lock word names the thread that holds it. `Owned` says that it names exactly the
threads whose program point is inside the critical section, and is kept by the three
things a step can do with a lock: leave it, take it when free, drop it when held.
-/

variable {T P : Type}

/-- The lock word names the one thread whose program point satisfies `inside`. -/
def Owned (inside : P → Bool) (points : T → Option P) (lock : Option T) : Prop :=
  ∀ t, (points t).any inside = true ↔ lock = some t

namespace Owned

variable {inside : P → Bool} {points : T → Option P} {lock : Option T} {t : T} {p : Option P}

/-- With no thread inside, the lock is free. -/
theorem of_none : Owned inside (fun _ : T ↦ none) none := fun _ ↦ by simp

/-- A thread inside is the one the lock names. -/
theorem eq_some (h : Owned inside points lock) {q : P} (ht : points t = some q)
    (hq : inside q = true) : lock = some t :=
  (h t).mp (by rw [ht]; exact hq)

/-- A thread outside is not the one the lock names. -/
theorem ne_some (h : Owned inside points lock) {q : P} (ht : points t = some q)
    (hq : inside q = false) : lock ≠ some t := fun k ↦ by
  have := (h t).mpr k
  simp [ht, hq] at this

/-- The thread the lock names is inside. -/
theorem exists_point (h : Owned inside points lock) (k : lock = some t) :
    ∃ q, points t = some q ∧ inside q = true := by
  simpa [Option.any_eq_true] using (h t).mpr k

variable [DecidableEq T]

/-- A move that stays on its side of the critical section leaves the lock alone. -/
theorem keep (h : Owned inside points lock) (hp : p.any inside = (points t).any inside) :
    Owned inside (Function.update points t p) lock := by
  intro u
  by_cases e : u = t
  · subst e
    rw [Function.update_self, hp]
    exact h u
  · rw [Function.update_of_ne e]
    exact h u

/-- A thread outside may take a free lock. -/
theorem acquire (h : Owned inside points none) (hp : p.any inside = true) :
    Owned inside (Function.update points t p) (some t) := by
  intro u
  by_cases e : u = t
  · subst e
    simp [hp]
  · have hu : (points u).any inside ≠ true := fun k ↦ nomatch (h u).mp k
    rw [Function.update_of_ne e]
    exact ⟨fun k ↦ absurd k hu, fun k ↦ absurd (Option.some.inj k).symm e⟩

/-- The holder may drop the lock. -/
theorem release (h : Owned inside points lock) (ht : (points t).any inside = true)
    (hp : p.any inside = false) : Owned inside (Function.update points t p) none := by
  intro u
  by_cases e : u = t
  · subst e
    simp [hp]
  · have hu : (points u).any inside ≠ true := fun k ↦
      e (Option.some.inj (((h u).mp k).symm.trans ((h t).mp ht)))
    rw [Function.update_of_ne e]
    exact ⟨fun k ↦ absurd k hu, fun k ↦ nomatch k⟩

end Owned
end NullRouter.Base
