import NullRouter.Gateway.Throttle

/-!
# The hint of a refused request

When a peer that waits as long as `services/gateway-pingora/src/throttle.rs:104` tells it is let
through afterwards.
-/

namespace NullRouter.Gateway

open NullRouter.Base

namespace ThrottleConfig

/-- Waiting as long as one was told is enough: a peer that was refused and comes back then, with
no check of its own in between, is let through. -/
def Honest (config : ThrottleConfig) : Prop :=
  ∀ (history : List Check) (refused : Check) (retryAfter : Nat),
    (config.check (config.after history) refused).1 = .throttle retryAfter →
    ∀ between : List Check, (∀ check ∈ between, check.peer ≠ refused.peer) →
    ∀ again : Check, again.peer = refused.peer → refused.now + retryAfter ≤ again.now →
      (config.check (config.after (history ++ refused :: between)) again).1 = .allow

variable {config : ThrottleConfig} {buckets : Buckets}

theorem verdict_eq_allow_iff (tokens : ℚ) : config.verdict tokens = .allow ↔ 1 ≤ tokens := by
  rw [verdict]
  split
  · next h => exact iff_of_true rfl h
  · next h => exact iff_of_false (fun hallow ↦ by cases hallow) h

theorem verdict_eq_throttle {tokens : ℚ} {hint : Nat} (h : config.verdict tokens = .throttle hint) :
    tokens < 1 ∧ hint = config.retryAfter tokens := by
  rw [verdict] at h
  split at h
  · cases h
  · next hshort =>
    cases h
    exact ⟨not_le.mp hshort, rfl⟩

/-- The hint covers the time in which the missing part of a token comes in. -/
theorem le_retryAfter (h : 1 / config.perSecond ≤ u64Max) {tokens : ℚ} (htokens : 0 ≤ tokens) :
    (1 - tokens) / config.perSecond ≤ config.retryAfter tokens := by
  have hrate := config.perSecond_pos
  have hwait : (1 - tokens) / config.perSecond ≤ 1 / config.perSecond :=
    div_le_div_of_nonneg_right (by linarith) hrate.le
  have hceil := Int.le_ceil ((1 - tokens) / config.perSecond)
  have hmax : ⌈(1 - tokens) / config.perSecond⌉ ≤
      ((max ⌈(1 - tokens) / config.perSecond⌉ 1).toNat : ℤ) :=
    (le_max_left _ _).trans (Int.self_le_toNat _)
  rw [retryAfter, Nat.cast_min]
  apply le_min
  · calc (1 - tokens) / config.perSecond ≤ ((⌈(1 - tokens) / config.perSecond⌉ : ℤ) : ℚ) := hceil
      _ ≤ (((max ⌈(1 - tokens) / config.perSecond⌉ 1).toNat : ℤ) : ℚ) := by exact_mod_cast hmax
      _ = _ := by push_cast; rfl
  · exact hwait.trans h

/-- Where a hint is told honestly it is kept: the bucket has filled up by then, unless it was
evicted, and then it is full. -/
theorem honest_of_le (hburst : 1 ≤ config.burst) (hword : 1 / config.perSecond ≤ u64Max) :
    config.Honest := by
  intro history refused hint hrefused between hbetween again hpeer hlater
  rw [check_verdict] at hrefused
  obtain ⟨hshort, rfl⟩ := verdict_eq_throttle hrefused
  have hnonneg := credit_nonneg config (config.solvent_after history) refused.peer refused.now
  have hself := config.lookup_check_self (config.after history) refused
  rw [check_verdict, verdict_eq_allow_iff, after_append, List.foldl_cons, hpeer, credit]
  rcases config.lookup_foldl_of_ne (config.check (config.after history) refused).2 hbetween with
    hkept | hkept
  · rw [hkept, hself, available_some]
    apply TokenBucket.le_refill hburst config.perSecond_pos
    have hleft : charged (config.credit (config.after history) refused.peer refused.now) =
        config.credit (config.after history) refused.peer refused.now :=
      if_neg (not_le.mpr hshort)
    rw [hleft]
    exact (le_retryAfter hword hnonneg).trans (by linarith)
  · rw [hkept, available_none]
    exact hburst

/-! ## Configurations that tell too little -/

private theorem credit_replicate (spend : Check) (hnow : spend.now = 0) (n : Nat)
    (hn : (n : ℚ) ≤ config.burst) :
    config.credit (config.after (List.replicate n spend)) spend.peer 0 = config.burst - n := by
  induction n with
  | zero =>
    rw [Nat.cast_zero, sub_zero]
    exact config.available_none 0
  | succ n ih =>
    rw [Nat.cast_succ] at hn
    have hbefore := ih (by linarith)
    rw [List.replicate_succ', after_append, List.foldl_cons, List.foldl_nil, ← hnow,
      credit_check_self, hnow, hbefore, charged, if_pos (by linarith), Nat.cast_succ]
    ring

private theorem exists_empty (h : 1 ≤ config.burst) (peer : IpAddr) :
    ∃ (history : List Check) (now : ℚ),
      (config.after history).lookup peer = some ⟨0, now⟩ := by
  have hrate := config.perSecond_pos
  obtain ⟨n, hn⟩ : ∃ n : Nat, ⌊config.burst⌋ = ((n + 1 : Nat) : ℤ) := by
    have hfloor : 1 ≤ ⌊config.burst⌋ := Int.le_floor.mpr (by exact_mod_cast h)
    exact ⟨⌊config.burst⌋.toNat - 1, by omega⟩
  have hle : ((n + 1 : Nat) : ℚ) ≤ config.burst := by
    have := Int.floor_le config.burst
    rw [hn] at this
    exact_mod_cast this
  have hlt : config.burst < ((n + 1 : Nat) : ℚ) + 1 := by
    have := Int.lt_floor_add_one config.burst
    rw [hn] at this
    exact_mod_cast this
  -- as many checks as there are whole tokens, then one at the time that makes up a whole one
  let spend : Check := ⟨peer, 0, 0⟩
  let left : ℚ := config.burst - (n + 1 : Nat)
  let last : Check := ⟨peer, (1 - left) / config.perSecond, 0⟩
  have hspent := config.lookup_check_self (config.after (List.replicate n spend)) spend
  have hcredit := config.credit_check_self (config.after (List.replicate n spend)) spend
  have hwhole := credit_replicate spend rfl (n + 1) hle
  rw [List.replicate_succ', after_append, List.foldl_cons, List.foldl_nil] at hwhole
  rw [← hcredit] at hspent
  refine ⟨List.replicate n spend ++ [spend, last], last.now, ?_⟩
  rw [after_append, List.foldl_cons, List.foldl_cons, List.foldl_nil]
  refine (config.lookup_check_self _ last).trans ?_
  have hone : config.credit (config.check (config.after (List.replicate n spend)) spend).2
      last.peer last.now = 1 := by
    have hlookup : (config.check (config.after (List.replicate n spend)) spend).2.lookup peer =
        some ⟨left, 0⟩ := hspent.trans (by rw [hwhole])
    have hleft : 0 ≤ 1 - left := by linarith
    have hsum : (1 - left) / config.perSecond * config.perSecond + left = 1 := by
      rw [div_mul_cancel₀ _ hrate.ne']
      ring
    rw [credit, hlookup, available_some, sub_zero,
      TokenBucket.refill_of_nonneg (div_nonneg hleft hrate.le), hsum, min_eq_left h]
  rw [hone, charged, if_pos le_rfl, sub_self]

private theorem not_honest_of_burst (h : config.burst < 1) : ¬ config.Honest := by
  intro hhonest
  have hshort (buckets : Buckets) (peer : IpAddr) (now : ℚ) :
      ¬ 1 ≤ config.credit buckets peer now := by
    have := config.available_le_burst (buckets.lookup peer) now
    rw [credit]
    linarith
  let first : Check := ⟨.v4 0, 0, 0⟩
  let hint := config.retryAfter (config.credit ∅ first.peer first.now)
  have hrefused : (config.check (config.after []) first).1 = .throttle hint := by
    rw [check_verdict, verdict]
    exact if_neg (hshort _ _ _)
  have hagain := hhonest [] first hint hrefused [] (by simp) ⟨.v4 0, hint, 0⟩ rfl (by simp [first])
  rw [check_verdict, verdict_eq_allow_iff] at hagain
  exact hshort _ _ _ hagain

private theorem not_honest_of_perSecond (hburst : 1 ≤ config.burst)
    (h : (u64Max : ℚ) < 1 / config.perSecond) : ¬ config.Honest := by
  intro hhonest
  have hrate := config.perSecond_pos
  obtain ⟨history, now, hempty⟩ := exists_empty hburst (.v4 0)
  let refused : Check := ⟨.v4 0, now, 0⟩
  have hcredit : config.credit (config.after history) refused.peer refused.now = 0 := by
    rw [credit, hempty, available_some]
    exact TokenBucket.refill_of_nonpos (by simp [refused]) config.burst_pos.le
  have hhint : config.retryAfter 0 = u64Max := by
    rw [retryAfter, sub_zero]
    apply min_eq_right
    have hceil : (u64Max : ℤ) ≤ ⌈1 / config.perSecond⌉ := by
      have := h.trans_le (Int.le_ceil (1 / config.perSecond))
      exact_mod_cast this.le
    omega
  have hrefused : (config.check (config.after history) refused).1 = .throttle u64Max := by
    rw [check_verdict, hcredit, verdict, if_neg (by norm_num), hhint]
  have hagain := hhonest history refused u64Max hrefused [] (by simp)
    ⟨.v4 0, now + u64Max, 0⟩ rfl le_rfl
  have hself := config.lookup_check_self (config.after history) refused
  rw [hcredit, charged, if_neg (by norm_num)] at hself
  rw [check_verdict, verdict_eq_allow_iff, after_append, List.foldl_cons, List.foldl_nil, credit,
    hself, available_some] at hagain
  have hgain : (u64Max : ℚ) * config.perSecond < 1 := (lt_div_iff₀ hrate).mp h
  have hfull := hagain.trans (min_le_left _ _)
  have hnow : max (now + (u64Max : ℚ) - now) 0 = u64Max := by
    rw [add_sub_cancel_left]
    exact max_eq_left (Nat.cast_nonneg _)
  rw [hnow, add_zero] at hfull
  linarith

/-- The hints are honest exactly where a bucket can hold a token and the time in which one comes
in fits a word. -/
theorem honest_iff (config : ThrottleConfig) :
    config.Honest ↔ 1 ≤ config.burst ∧ 1 / config.perSecond ≤ u64Max := by
  constructor
  · intro hhonest
    have hburst : 1 ≤ config.burst := not_lt.mp fun h ↦ not_honest_of_burst h hhonest
    exact ⟨hburst, not_lt.mp fun h ↦ not_honest_of_perSecond hburst h hhonest⟩
  · intro h
    exact honest_of_le h.1 h.2

/-- One request in two seconds, with no burst of its own: what is told there is not true. -/
theorem not_honest_half :
    ∃ config : ThrottleConfig,
      fromEnv (fun text ↦ if text = "0.5" then some (1 / 2) else none) (some "0.5") none =
        some config ∧ ¬ config.Honest := by
  refine ⟨⟨1 / 2, 1 / 2, by norm_num, by norm_num⟩, ?_, not_honest_of_burst (by norm_num)⟩
  have htrim : trim "0.5" = "0.5" := by decide +kernel
  have hpositive : positive (some (1 / 2 : ℚ)) = some ⟨1 / 2, by norm_num⟩ :=
    dif_pos (by norm_num)
  rw [fromEnv, Option.bind_some, htrim, if_pos rfl, hpositive]
  rfl

end ThrottleConfig
end NullRouter.Gateway
