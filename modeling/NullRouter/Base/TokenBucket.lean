import Mathlib.Algebra.Order.Field.Basic
import Mathlib.Tactic.Linarith
import Mathlib.Tactic.Positivity

/-!
# Token buckets

Tokens that come in at a constant rate up to a cap, over any ordered field: what a bucket holds
after a while, and how that moves with the time.
-/

namespace NullRouter.Base.TokenBucket

variable {K : Type*} [Field K] [LinearOrder K]

/-- What a bucket holds once `elapsed` is over. A clock that went back adds nothing. -/
def refill (rate cap elapsed tokens : K) : K := min (max elapsed 0 * rate + tokens) cap

variable {rate cap elapsed tokens : K}

theorem refill_le_cap : refill rate cap elapsed tokens ≤ cap := min_le_right _ _

theorem refill_of_nonpos (h : elapsed ≤ 0) (hcap : tokens ≤ cap) :
    refill rate cap elapsed tokens = tokens := by
  rw [refill, max_eq_right h, zero_mul, zero_add, min_eq_left hcap]

theorem refill_of_nonneg (h : 0 ≤ elapsed) :
    refill rate cap elapsed tokens = min (elapsed * rate + tokens) cap := by
  rw [refill, max_eq_left h]

variable [IsStrictOrderedRing K]

theorem refill_nonneg (hrate : 0 ≤ rate) (hcap : 0 ≤ cap) (htokens : 0 ≤ tokens) :
    0 ≤ refill rate cap elapsed tokens := by
  have hgain : 0 ≤ max elapsed 0 * rate := mul_nonneg (le_max_right _ _) hrate
  exact le_min (by linarith) hcap

/-- What is asked for is there when the cap allows it and the wait has made up for what was
missing. -/
theorem le_refill {wanted : K} (hcap : wanted ≤ cap) (hrate : 0 < rate)
    (h : (wanted - tokens) / rate ≤ elapsed) : wanted ≤ refill rate cap elapsed tokens := by
  apply le_min _ hcap
  have hgain : wanted - tokens ≤ elapsed * rate := (div_le_iff₀ hrate).mp h
  have hmax : elapsed * rate ≤ max elapsed 0 * rate :=
    mul_le_mul_of_nonneg_right (le_max_left _ _) hrate.le
  linarith

/-- No more comes in over a time than the rate gives. -/
theorem refill_le_add {later : K} (hrate : 0 ≤ rate) (h : elapsed ≤ later) :
    refill rate cap later tokens ≤
      refill rate cap elapsed tokens + (later - elapsed) * rate := by
  have hgap : max later 0 ≤ max elapsed 0 + (later - elapsed) := by
    apply max_le
    · have := le_max_left elapsed 0
      linarith
    · have := le_max_right elapsed 0
      linarith
  have hgain := mul_le_mul_of_nonneg_right hgap hrate
  have hnonneg : 0 ≤ (later - elapsed) * rate := mul_nonneg (by linarith) hrate
  rw [refill, refill, ← min_add_add_right]
  apply min_le_min
  · linarith
  · linarith

end NullRouter.Base.TokenBucket
