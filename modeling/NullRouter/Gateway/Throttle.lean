import Mathlib
import NullRouter.Base.Text
import NullRouter.Base.TokenBucket
import NullRouter.Gateway.Policy

/-!
# Throttling of the control plane

`services/gateway-pingora/src/throttle.rs`: a bucket of tokens for each peer address, and a hint
for those who are refused. Times are seconds and exact, as are rates.
-/

namespace NullRouter.Gateway

open NullRouter.Base

/-- `MAX_TRACKED_ADDRESSES`, `throttle.rs:21`. -/
def maxTrackedAddresses : Nat := 8192

/-- `Bucket`, `throttle.rs:29`. -/
structure Bucket where
  tokens : ℚ
  lastSeen : ℚ

/-- `Verdict`, `throttle.rs:36`. -/
inductive Verdict where
  | allow
  | throttle (retryAfter : Nat)
  deriving DecidableEq

/-- `ThrottleConfig`, `throttle.rs:45`: both numbers are positive. -/
structure ThrottleConfig where
  perSecond : ℚ
  burst : ℚ
  perSecond_pos : 0 < perSecond
  burst_pos : 0 < burst

/-- What `filter` keeps of a number that was read. -/
def positive (value : Option ℚ) : Option { value : ℚ // 0 < value } :=
  value.bind fun value ↦ if h : 0 < value then some ⟨value, h⟩ else none

/-- `ThrottleConfig::from_env`, `throttle.rs:60`, of the two variables. `parse` reads a finite
number. -/
def ThrottleConfig.fromEnv (parse : String → Option ℚ) (limit burst : Option String) :
    Option ThrottleConfig :=
  (positive (limit.bind fun value ↦ parse (trim value))).map fun perSecond ↦
    let burst := (positive (burst.bind fun value ↦ parse (trim value))).getD perSecond
    ⟨perSecond, burst, perSecond.2, burst.2⟩

/-- The buckets of a `Throttle`. -/
abbrev Buckets := AList fun _ : IpAddr ↦ Bucket

/-- One call of `check`. `tie` tells which of the longest unseen entries the map meets first. -/
structure Check where
  peer : IpAddr
  now : ℚ
  tie : Nat

namespace Buckets

/-- The addresses that were not seen for the longest time. -/
def oldest (buckets : Buckets) : List IpAddr :=
  (buckets.entries.filter fun entry ↦
    buckets.entries.all fun other ↦ entry.2.lastSeen ≤ other.2.lastSeen).map Sigma.fst

/-- `evict_oldest`, `throttle.rs:144`. -/
def evictOldest (buckets : Buckets) (tie : Nat) : Buckets :=
  match buckets.oldest[tie % buckets.oldest.length]? with
  | some address => buckets.erase address
  | none => buckets

/-- Room for one more peer, `throttle.rs:112`. -/
def makeRoom (buckets : Buckets) (check : Check) : Buckets :=
  if maxTrackedAddresses ≤ buckets.entries.length ∧ check.peer ∉ buckets then
    buckets.evictOldest check.tie
  else buckets

end Buckets

namespace ThrottleConfig

variable (config : ThrottleConfig)

/-- The tokens of a peer's bucket at a time, `throttle.rs:116`. -/
def available (bucket : Option Bucket) (now : ℚ) : ℚ :=
  let bucket := bucket.getD ⟨config.burst, now⟩
  TokenBucket.refill config.perSecond config.burst (now - bucket.lastSeen) bucket.tokens

/-- The tokens after a charge, `throttle.rs:129`. -/
def charged (tokens : ℚ) : ℚ := if 1 ≤ tokens then tokens - 1 else tokens

/-- How long to wait, `throttle.rs:136`. The cast to a word saturates. -/
def retryAfter (tokens : ℚ) : Nat :=
  min (max ⌈(1 - tokens) / config.perSecond⌉ 1).toNat u64Max

/-- What is answered with so many tokens. -/
def verdict (tokens : ℚ) : Verdict :=
  if 1 ≤ tokens then .allow else .throttle (config.retryAfter tokens)

/-- `Throttle::check`, `throttle.rs:104`. -/
def check (buckets : Buckets) (check : Check) : Verdict × Buckets :=
  let buckets := buckets.makeRoom check
  let tokens := config.available (buckets.lookup check.peer) check.now
  (config.verdict tokens, buckets.insert check.peer ⟨charged tokens, check.now⟩)

/-- The buckets after a history. -/
def after (history : List Check) : Buckets :=
  history.foldl (fun buckets check ↦ (config.check buckets check).2) ∅

/-- The buckets after one more check. -/
theorem after_append (history more : List Check) : config.after (history ++ more) =
    more.foldl (fun buckets check ↦ (config.check buckets check).2) (config.after history) :=
  List.foldl_append

end ThrottleConfig

/-! ## One check -/

namespace Buckets

variable (buckets : Buckets) (check : Check) (peer : IpAddr)

/-- An evicted entry is one of the table that no other was seen before. -/
theorem mem_oldest {address : IpAddr} (h : address ∈ buckets.oldest) :
    ∃ bucket, buckets.lookup address = some bucket ∧
      ∀ other seen, buckets.lookup other = some seen → bucket.lastSeen ≤ seen.lastSeen := by
  obtain ⟨entry, hentry, rfl⟩ := List.mem_map.mp h
  obtain ⟨hmem, hleast⟩ := List.mem_filter.mp hentry
  refine ⟨entry.2, AList.mem_lookup_iff.mpr hmem, fun other seen hseen ↦ ?_⟩
  exact of_decide_eq_true (List.all_eq_true.mp hleast _ (AList.mem_lookup_iff.mp hseen))

theorem evictOldest_cases (tie : Nat) : buckets.evictOldest tie = buckets ∨
    ∃ address ∈ buckets.oldest, buckets.evictOldest tie = buckets.erase address := by
  rw [evictOldest]
  split
  · next address haddress =>
    exact .inr ⟨address, List.mem_of_getElem? haddress, rfl⟩
  · exact .inl rfl

/-- An eviction leaves an entry alone or takes it out. -/
theorem lookup_evictOldest (tie : Nat) :
    (buckets.evictOldest tie).lookup peer = buckets.lookup peer ∨
      (buckets.evictOldest tie).lookup peer = none := by
  rcases buckets.evictOldest_cases tie with h | ⟨address, -, h⟩ <;> rw [h]
  · exact .inl rfl
  · by_cases hpeer : peer = address
    · rw [hpeer]
      exact .inr (AList.lookup_erase _ _)
    · exact .inl (AList.lookup_erase_ne hpeer)

theorem lookup_makeRoom : (buckets.makeRoom check).lookup peer = buckets.lookup peer ∨
    (buckets.makeRoom check).lookup peer = none := by
  rw [makeRoom]
  split
  · exact buckets.lookup_evictOldest peer check.tie
  · exact .inl rfl

/-- Room is never made at the cost of the one who asks. -/
theorem lookup_makeRoom_self :
    (buckets.makeRoom check).lookup check.peer = buckets.lookup check.peer := by
  rw [makeRoom]
  split
  · next hfull =>
    have hnone := AList.lookup_eq_none.mpr hfull.2
    rcases buckets.lookup_evictOldest check.peer check.tie with h | h
    · exact h
    · rw [h, hnone]
  · rfl

end Buckets

namespace ThrottleConfig

variable (config : ThrottleConfig) (buckets : Buckets) (check : Check)

/-- What a peer could spend at a time. -/
def credit (buckets : Buckets) (peer : IpAddr) (now : ℚ) : ℚ :=
  config.available (buckets.lookup peer) now

/-- The answer to a check depends on the bucket of its peer alone. -/
theorem check_verdict : (config.check buckets check).1 =
    config.verdict (config.credit buckets check.peer check.now) := by
  rw [ThrottleConfig.check, credit, ← buckets.lookup_makeRoom_self check]

/-- A check leaves its peer what was there less what it spent. -/
theorem lookup_check_self : (config.check buckets check).2.lookup check.peer =
    some ⟨charged (config.credit buckets check.peer check.now), check.now⟩ := by
  rw [ThrottleConfig.check, credit, ← buckets.lookup_makeRoom_self check]
  exact AList.lookup_insert _

/-- A check of another peer leaves a bucket alone or takes it out. -/
theorem lookup_check_of_ne {peer : IpAddr} (h : peer ≠ check.peer) :
    (config.check buckets check).2.lookup peer = buckets.lookup peer ∨
      (config.check buckets check).2.lookup peer = none := by
  have hinsert : (config.check buckets check).2.lookup peer =
      (buckets.makeRoom check).lookup peer := AList.lookup_insert_ne h
  rw [hinsert]
  exact buckets.lookup_makeRoom check peer

/-- Checks of others leave a bucket alone or take it out. -/
theorem lookup_foldl_of_ne {peer : IpAddr} {between : List Check}
    (h : ∀ check ∈ between, check.peer ≠ peer) :
    let later := between.foldl (fun buckets check ↦ (config.check buckets check).2) buckets
    later.lookup peer = buckets.lookup peer ∨ later.lookup peer = none := by
  induction between generalizing buckets with
  | nil => exact .inl rfl
  | cons check between ih =>
    have hne : peer ≠ check.peer := (h check List.mem_cons_self).symm
    rcases ih (config.check buckets check).2 fun other hother ↦
        h other (List.mem_cons_of_mem _ hother) with hlater | hlater
    · rcases config.lookup_check_of_ne buckets check hne with hstep | hstep
      · exact .inl (hlater.trans hstep)
      · exact .inr (hlater.trans hstep)
    · exact .inr hlater

/-! ## The tokens of a bucket -/

theorem available_none (now : ℚ) : config.available none now = config.burst := by
  rw [available]
  exact TokenBucket.refill_of_nonpos (by simp) le_rfl

theorem available_some (bucket : Bucket) (now : ℚ) : config.available (some bucket) now =
    TokenBucket.refill config.perSecond config.burst (now - bucket.lastSeen) bucket.tokens := rfl

theorem available_le_burst (bucket : Option Bucket) (now : ℚ) :
    config.available bucket now ≤ config.burst := TokenBucket.refill_le_cap

theorem charged_nonneg {tokens : ℚ} (h : 0 ≤ tokens) : 0 ≤ charged tokens := by
  rw [charged]
  split
  · linarith
  · exact h

theorem charged_le (tokens : ℚ) : charged tokens ≤ tokens := by
  rw [charged]
  split
  · linarith
  · exact le_rfl

/-- A peer can spend nothing below zero. -/
def Solvent (buckets : Buckets) : Prop :=
  ∀ peer bucket, buckets.lookup peer = some bucket → 0 ≤ bucket.tokens

variable {buckets}

theorem credit_nonneg (h : Solvent buckets) (peer : IpAddr) (now : ℚ) :
    0 ≤ config.credit buckets peer now := by
  rw [credit]
  cases hbucket : buckets.lookup peer with
  | none =>
    rw [available_none]
    exact config.burst_pos.le
  | some bucket =>
    apply TokenBucket.refill_nonneg config.perSecond_pos.le config.burst_pos.le
    exact h peer bucket hbucket

theorem solvent_check (h : Solvent buckets) (check : Check) :
    Solvent (config.check buckets check).2 := by
  intro peer bucket hbucket
  by_cases hpeer : peer = check.peer
  · rw [hpeer, lookup_check_self, Option.some.injEq] at hbucket
    rw [← hbucket]
    exact charged_nonneg (credit_nonneg config h _ _)
  · rcases config.lookup_check_of_ne buckets check hpeer with hstep | hstep
    · exact h peer bucket (hstep.symm.trans hbucket)
    · rw [hstep] at hbucket
      cases hbucket

theorem solvent_after (history : List Check) : Solvent (config.after history) := by
  induction history using List.reverseRecOn with
  | nil => intro peer bucket h; cases h
  | append_singleton history check ih =>
    rw [after_append]
    exact solvent_check config ih check

/-- What is left right after a check. -/
theorem credit_check_self (buckets : Buckets) (check : Check) : config.credit (config.check buckets check).2 check.peer check.now =
    charged (config.credit buckets check.peer check.now) := by
  rw [credit, lookup_check_self, available_some]
  apply TokenBucket.refill_of_nonpos (by simp)
  exact (charged_le _).trans (config.available_le_burst _ _)

end ThrottleConfig
end NullRouter.Gateway

/-!
## What a throttled peer gets at most

How often `services/gateway-pingora/src/throttle.rs:104` lets one peer through in a stretch of
time, and how many peers it keeps track of. A peer whose entry was evicted starts again with a
full bucket.
-/

namespace NullRouter.Gateway

open NullRouter.Base

namespace Buckets

variable (buckets : Buckets)

/-- A table that is not empty has an oldest entry. -/
theorem oldest_ne_nil (h : buckets.entries ≠ []) : buckets.oldest ≠ [] := by
  obtain ⟨entry, hentry⟩ := Option.ne_none_iff_exists'.mp
    (mt (@List.argmin_eq_none _ ℚ _ _ (·.2.lastSeen)).mp h)
  apply List.ne_nil_of_mem
  apply List.mem_map_of_mem
  apply List.mem_filter.mpr
  refine ⟨List.argmin_mem hentry, List.all_eq_true.mpr fun other hother ↦ ?_⟩
  exact decide_eq_true (@List.le_of_mem_argmin _ ℚ _ (·.2.lastSeen) _ _ _ hother hentry)

/-- What an eviction takes out of a table that is not empty. -/
theorem exists_evictOldest (tie : Nat) (h : buckets.entries ≠ []) :
    ∃ address ∈ buckets.oldest, buckets.evictOldest tie = buckets.erase address := by
  have hlength := List.length_pos_iff.mpr (buckets.oldest_ne_nil h)
  have hget := List.getElem?_eq_getElem (Nat.mod_lt tie hlength)
  refine ⟨_, List.mem_of_getElem? hget, ?_⟩
  rw [evictOldest, hget]

theorem length_keys : buckets.keys.length = buckets.entries.length := List.length_map ..

theorem length_erase {address : IpAddr} (h : address ∈ buckets) :
    (buckets.erase address).entries.length + 1 = buckets.entries.length := by
  rw [← length_keys, ← length_keys, AList.keys_erase]
  have hmem := AList.mem_keys.mp h
  have := List.length_erase_add_one hmem
  exact this

theorem length_insert (peer : IpAddr) (bucket : Bucket) :
    (buckets.insert peer bucket).entries.length =
      if peer ∈ buckets then buckets.entries.length else buckets.entries.length + 1 := by
  rw [← length_keys, ← length_keys, AList.keys_insert, List.length_cons]
  split
  · next h => exact List.length_erase_add_one (AList.mem_keys.mp h)
  · next h => rw [List.erase_of_not_mem (mt AList.mem_keys.mpr h)]

end Buckets

namespace ThrottleConfig

/-- How often a peer was let through. -/
def allowed (config : ThrottleConfig) (peer : IpAddr) (buckets : Buckets) : List Check → Nat
  | [] => 0
  | check :: rest =>
    (if check.peer = peer ∧ (config.check buckets check).1 = .allow then 1 else 0) +
      config.allowed peer (config.check buckets check).2 rest

/-- How often the entry of a peer was evicted. -/
def evictions (config : ThrottleConfig) (peer : IpAddr) (buckets : Buckets) : List Check → Nat
  | [] => 0
  | check :: rest =>
    (if peer ∈ buckets ∧ peer ∉ (config.check buckets check).2 then 1 else 0) +
      config.evictions peer (config.check buckets check).2 rest

variable (config : ThrottleConfig) {buckets : Buckets}

/-- Over a time a peer gains no more than the rate gives. -/
theorem credit_le_add (buckets : Buckets) (peer : IpAddr) {now later : ℚ} (h : now ≤ later) :
    config.credit buckets peer later ≤
      config.credit buckets peer now + (later - now) * config.perSecond := by
  have hrate := config.perSecond_pos.le
  rw [credit, credit]
  cases buckets.lookup peer with
  | none =>
    rw [available_none, available_none]
    have := mul_nonneg (sub_nonneg.mpr h) hrate
    linarith
  | some bucket =>
    rw [available_some, available_some]
    rw [← sub_sub_sub_cancel_right later now bucket.lastSeen]
    exact TokenBucket.refill_le_add hrate (sub_le_sub_right h bucket.lastSeen)

/-- What one check takes from what a peer could spend, and what an eviction of its entry gives. -/
theorem credit_check (h : Solvent buckets) (peer : IpAddr) (check : Check) :
    ((if check.peer = peer ∧ (config.check buckets check).1 = .allow then 1 else 0 : Nat) : ℚ) +
        config.credit (config.check buckets check).2 peer check.now ≤
      config.credit buckets peer check.now +
        ((if peer ∈ buckets ∧ peer ∉ (config.check buckets check).2 then 1 else 0 : Nat) : ℚ) *
          config.burst := by
  by_cases hpeer : check.peer = peer
  · subst hpeer
    have hmem : check.peer ∈ (config.check buckets check).2 :=
      AList.lookup_isSome.mp (by rw [lookup_check_self]; rfl)
    have hkept : ¬ (check.peer ∈ buckets ∧ check.peer ∉ (config.check buckets check).2) :=
      fun hout ↦ hout.2 hmem
    rw [credit_check_self, check_verdict, verdict, charged, if_neg hkept, Nat.cast_zero, zero_mul,
      add_zero]
    split
    · simp
    · simp
  · rw [if_neg (fun hallowed ↦ hpeer hallowed.1), Nat.cast_zero, zero_add]
    rcases config.lookup_check_of_ne buckets check (Ne.symm hpeer) with hkept | hgone
    · rw [credit, credit, hkept]
      have := config.burst_pos.le
      split
      · simp [this]
      · simp
    · by_cases hmem : peer ∈ buckets
      · rw [if_pos ⟨hmem, AList.lookup_eq_none.mp hgone⟩, Nat.cast_one, one_mul]
        have hfull := config.available_le_burst
          ((config.check buckets check).2.lookup peer) check.now
        have hnonneg := credit_nonneg config h peer check.now
        rw [credit]
        linarith
      · rw [if_neg (fun hout ↦ hmem hout.1), credit, credit, hgone, AList.lookup_eq_none.mpr hmem]
        simp

/-- What a peer gets in a run, against what it could spend before and what came in since. -/
theorem allowed_le_credit (h : Solvent buckets) (peer : IpAddr) {during : List Check}
    {now stop : ℚ} (hstop : now ≤ stop) (hordered : during.Pairwise (·.now ≤ ·.now))
    (hwithin : ∀ check ∈ during, now ≤ check.now ∧ check.now ≤ stop) :
    (config.allowed peer buckets during : ℚ) ≤
      config.credit buckets peer now + config.evictions peer buckets during * config.burst +
        (stop - now) * config.perSecond := by
  induction during generalizing buckets now with
  | nil =>
    have hgain := mul_nonneg (sub_nonneg.mpr hstop) config.perSecond_pos.le
    have hnonneg := credit_nonneg config h peer now
    rw [allowed, evictions, Nat.cast_zero, zero_mul]
    linarith
  | cons check rest ih =>
    obtain ⟨hfirst, hrest⟩ := List.pairwise_cons.mp hordered
    obtain ⟨hnow, hcheck⟩ := hwithin check List.mem_cons_self
    have hlater := ih (solvent_check config h check) hcheck hrest fun other hother ↦
      ⟨hfirst other hother, (hwithin other (List.mem_cons_of_mem _ hother)).2⟩
    have hstep := credit_check config h peer check
    have hwait := credit_le_add config buckets peer hnow
    rw [allowed, evictions, Nat.cast_add, Nat.cast_add, add_mul]
    linarith

/-! ## The table -/

/-- A check keeps the table within its capacity. -/
theorem length_check_le (h : buckets.entries.length ≤ maxTrackedAddresses) (check : Check) :
    (config.check buckets check).2.entries.length ≤ maxTrackedAddresses := by
  have hinsert : (config.check buckets check).2.entries.length = _ :=
    Buckets.length_insert (buckets.makeRoom check) check.peer _
  rw [hinsert, Buckets.makeRoom]
  by_cases hfull : maxTrackedAddresses ≤ buckets.entries.length ∧ check.peer ∉ buckets
  · have hpos : 0 < maxTrackedAddresses := by decide
    obtain ⟨address, hold, hevict⟩ := buckets.exists_evictOldest check.tie
      (List.length_pos_iff.mp (hpos.trans_le hfull.1))
    have hmem : address ∈ buckets := by
      obtain ⟨bucket, hbucket, -⟩ := buckets.mem_oldest hold
      exact AList.lookup_isSome.mp (by rw [hbucket]; rfl)
    have hlength := buckets.length_erase hmem
    rw [if_pos hfull, hevict]
    split <;> omega
  · rw [if_neg hfull]
    split
    · exact h
    · next hnew =>
      have hroom := not_le.mp fun hle ↦ hfull ⟨hle, hnew⟩
      omega

/-- No more peers are tracked than the table has room for. -/
theorem length_after_le (history : List Check) :
    (config.after history).entries.length ≤ maxTrackedAddresses := by
  induction history using List.reverseRecOn with
  | nil => exact Nat.zero_le _
  | append_singleton history check ih =>
    rw [after_append]
    exact config.length_check_le ih check

/-- An entry goes only where the table is full, for another peer, and none of those that stay
was seen before it. -/
theorem of_evicted {peer : IpAddr} {bucket : Bucket} {check : Check}
    (hbucket : buckets.lookup peer = some bucket)
    (hgone : (config.check buckets check).2.lookup peer = none) :
    maxTrackedAddresses ≤ buckets.entries.length ∧ check.peer ≠ peer ∧
      ∀ other seen, buckets.lookup other = some seen → bucket.lastSeen ≤ seen.lastSeen := by
  have hne : peer ≠ check.peer := by
    intro hpeer
    rw [hpeer, lookup_check_self] at hgone
    cases hgone
  have hroom : (buckets.makeRoom check).lookup peer = none :=
    (AList.lookup_insert_ne hne).symm.trans hgone
  rw [Buckets.makeRoom] at hroom
  split at hroom
  · next hfull =>
    refine ⟨hfull.1, hne.symm, ?_⟩
    rcases buckets.evictOldest_cases check.tie with hsame | ⟨address, hold, hevict⟩
    · rw [hsame, hbucket] at hroom
      cases hroom
    · have hpeer : peer = address := by
        by_contra hother
        rw [hevict, AList.lookup_erase_ne hother, hbucket] at hroom
        cases hroom
      obtain ⟨oldest, hlookup, hleast⟩ := buckets.mem_oldest hold
      rw [hpeer, hlookup, Option.some.injEq] at hbucket
      rw [← hbucket]
      exact hleast
  · rw [hbucket] at hroom
    cases hroom

/-! ## The bound -/

/-- In a stretch of time a peer is let through at most as often as a bucket and the rate allow, and
a bucket more for each time its entry is evicted; this happens only to an entry of a full table
that no other was seen before. The table never holds more than its capacity. -/
theorem allowed_le (peer : IpAddr) (before during : List Check) {start length : ℚ}
    (hlength : 0 ≤ length) (hordered : (before ++ during).Pairwise (·.now ≤ ·.now))
    (hwithin : ∀ check ∈ during, start ≤ check.now ∧ check.now ≤ start + length) :
    (config.allowed peer (config.after before) during : ℚ) ≤
        config.burst + config.perSecond * length +
          config.evictions peer (config.after before) during * config.burst ∧
      (∀ history, (config.after history).entries.length ≤ maxTrackedAddresses) ∧
      ∀ history check bucket, (config.after history).lookup peer = some bucket →
        (config.after (history ++ [check])).lookup peer = none →
        (config.after history).entries.length = maxTrackedAddresses ∧ check.peer ≠ peer ∧
          ∀ other seen, (config.after history).lookup other = some seen →
            bucket.lastSeen ≤ seen.lastSeen := by
  refine ⟨?_, config.length_after_le, fun history check bucket hbucket hgone ↦ ?_⟩
  · have hbound := config.allowed_le_credit (config.solvent_after before) peer
      (le_add_of_nonneg_right hlength) (List.pairwise_append.mp hordered).2.1 hwithin
    have hcredit : config.credit (config.after before) peer start ≤ config.burst :=
      config.available_le_burst _ _
    rw [add_sub_cancel_left] at hbound
    linarith
  · rw [after_append] at hgone
    obtain ⟨hfull, hpeer, hleast⟩ := config.of_evicted hbucket hgone
    exact ⟨le_antisymm (config.length_after_le history) hfull, hpeer, hleast⟩

/-- Two requests at once against a bucket that holds one token. -/
theorem allowed_le_at_once :
    let config : ThrottleConfig := ⟨1, 1, by norm_num, by norm_num⟩
    let peer : IpAddr := .v4 0
    (config.allowed peer (config.after []) [⟨peer, 0, 0⟩, ⟨peer, 0, 0⟩] : ℚ) ≤
      1 + 1 * 0 + config.evictions peer (config.after []) [⟨peer, 0, 0⟩, ⟨peer, 0, 0⟩] * 1 :=
  have hwithin : ∀ check ∈ [(⟨.v4 0, 0, 0⟩ : Check), ⟨.v4 0, 0, 0⟩],
      (0 : ℚ) ≤ check.now ∧ check.now ≤ 0 + 0 := by simp
  (allowed_le ⟨1, 1, by norm_num, by norm_num⟩ (.v4 0) [] [⟨.v4 0, 0, 0⟩, ⟨.v4 0, 0, 0⟩] le_rfl
    (by simp) hwithin).1

/-! ## A peer that is evicted in the middle of a burst -/

private def caller (i : Nat) : IpAddr := .v4 (BitVec.ofNat 32 i)

/-- One caller after the other, a hundred in a millisecond. -/
private def arrival (i : Nat) : Check := ⟨caller i, i / 100000, 0⟩

private def sparing : ThrottleConfig := ⟨1, 1, by norm_num, by norm_num⟩

private theorem caller_injective {i j : Nat} (hi : i < 2 ^ 32) (hj : j < 2 ^ 32)
    (h : caller i = caller j) : i = j := by
  rw [caller, caller, IpAddr.v4.injEq] at h
  have hnat := congrArg BitVec.toNat h
  rwa [BitVec.toNat_ofNat, BitVec.toNat_ofNat, Nat.mod_eq_of_lt hi, Nat.mod_eq_of_lt hj] at hnat

/-- The table after so many callers: each of them is there, and has spent its token. -/
private structure Flooded (n : Nat) (buckets : Buckets) : Prop where
  length : buckets.entries.length = n
  lookup (peer : IpAddr) (bucket : Bucket) : buckets.lookup peer = some bucket ↔
    ∃ i < n, peer = caller i ∧ bucket = ⟨0, i / 100000⟩

private theorem Flooded.notMem {n : Nat} (h : Flooded n buckets) (hn : n < 2 ^ 32) :
    caller n ∉ buckets := by
  intro hmem
  obtain ⟨bucket, hbucket⟩ := Option.isSome_iff_exists.mp (AList.lookup_isSome.mpr hmem)
  obtain ⟨i, hi, hcaller, -⟩ := (h.lookup _ _).mp hbucket
  have := caller_injective hn (hi.trans hn) hcaller
  omega

private theorem check_arrival {n : Nat} (h : Flooded n buckets) (hn : n < 2 ^ 32) :
    (sparing.check buckets (arrival n)).2 =
      (buckets.makeRoom (arrival n)).insert (caller n) ⟨0, n / 100000⟩ := by
  have hlookup : (buckets.makeRoom (arrival n)).lookup (caller n) = none :=
    (buckets.lookup_makeRoom_self (arrival n)).trans (AList.lookup_eq_none.mpr (h.notMem hn))
  have hspent : charged (sparing.available none (arrival n).now) = 0 := by
    rw [available_none, charged, sparing]
    norm_num
  rw [ThrottleConfig.check, ← hspent, ← hlookup]
  rfl

private theorem flooded_after (n : Nat) (hn : n ≤ maxTrackedAddresses) :
    Flooded n (sparing.after ((List.range n).map arrival)) := by
  have hcapacity : maxTrackedAddresses = 8192 := rfl
  induction n with
  | zero =>
    refine ⟨rfl, fun peer bucket ↦ iff_of_false (fun h ↦ by cases h) ?_⟩
    rintro ⟨i, hi, -⟩
    omega
  | succ n ih =>
    have hbefore := ih (by omega)
    have hnew := hbefore.notMem (by omega)
    rw [List.range_succ, List.map_append, after_append]
    show Flooded (n + 1) (sparing.check _ (arrival n)).2
    have hroom : (sparing.after ((List.range n).map arrival)).makeRoom (arrival n) =
        sparing.after ((List.range n).map arrival) :=
      if_neg fun hfull ↦ by have := hfull.1; rw [hbefore.length] at this; omega
    rw [check_arrival hbefore (by omega), hroom]
    refine ⟨?_, fun peer bucket ↦ ?_⟩
    · rw [Buckets.length_insert, if_neg hnew, hbefore.length]
    · by_cases hpeer : peer = caller n
      · subst hpeer
        rw [AList.lookup_insert, Option.some.injEq]
        constructor
        · rintro rfl
          exact ⟨n, by omega, rfl, rfl⟩
        · rintro ⟨i, hi, hcaller, rfl⟩
          rw [caller_injective (by omega) (by omega) hcaller]
      · rw [AList.lookup_insert_ne hpeer, hbefore.lookup]
        constructor
        · rintro ⟨i, hi, hcaller, hbucket⟩
          exact ⟨i, by omega, hcaller, hbucket⟩
        · rintro ⟨i, hi, rfl, hbucket⟩
          have hlast : i ≠ n := fun hi ↦ hpeer (by rw [hi])
          exact ⟨i, by omega, rfl, hbucket⟩

private theorem lookup_first :
    (sparing.after ((List.range (maxTrackedAddresses + 1)).map arrival)).lookup (caller 0) =
      none := by
  have hcapacity : maxTrackedAddresses = 8192 := rfl
  have hfull := flooded_after maxTrackedAddresses le_rfl
  have hnew := hfull.notMem (by omega)
  rw [List.range_succ, List.map_append, after_append]
  show (sparing.check _ (arrival maxTrackedAddresses)).2.lookup (caller 0) = none
  generalize sparing.after ((List.range maxTrackedAddresses).map arrival) = buckets at *
  have hne : caller 0 ≠ caller maxTrackedAddresses := fun h ↦ by
    have := caller_injective (by omega) (by omega) h
    omega
  have hroom : buckets.makeRoom (arrival maxTrackedAddresses) = buckets.evictOldest 0 :=
    if_pos ⟨hfull.length.ge, hnew⟩
  obtain ⟨address, hold, hevict⟩ := buckets.exists_evictOldest 0
    (List.length_pos_iff.mp (by rw [hfull.length]; omega))
  obtain ⟨bucket, hbucket, hleast⟩ := buckets.mem_oldest hold
  obtain ⟨i, hi, rfl, rfl⟩ := (hfull.lookup _ _).mp hbucket
  have hfirst := hleast (caller 0) ⟨0, ((0 : Nat) : ℚ) / 100000⟩
    ((hfull.lookup _ _).mpr ⟨0, by omega, rfl, rfl⟩)
  have hzero : i = 0 := by
    have : (i : ℚ) ≤ 0 := by
      simp only [Nat.cast_zero, zero_div] at hfirst
      linarith
    exact_mod_cast le_antisymm this (Nat.cast_nonneg i)
  rw [check_arrival hfull (by omega), AList.lookup_insert_ne hne, hroom, hevict, hzero]
  exact AList.lookup_erase _ _

theorem allowed_append (peer : IpAddr) (first second : List Check) :
    config.allowed peer buckets (first ++ second) = config.allowed peer buckets first +
      config.allowed peer
        (first.foldl (fun buckets check ↦ (config.check buckets check).2) buckets) second := by
  induction first generalizing buckets with
  | nil => rw [List.nil_append, allowed, zero_add, List.foldl_nil]
  | cons check first ih => rw [List.cons_append, allowed, allowed, ih, List.foldl_cons, add_assoc]

private theorem allowed_new {peer : IpAddr} (h : buckets.lookup peer = none) (now : ℚ)
    (rest : List Check) : 1 ≤ sparing.allowed peer buckets (⟨peer, now, 0⟩ :: rest) := by
  have hallow : (sparing.check buckets ⟨peer, now, 0⟩).1 = .allow := by
    rw [check_verdict, credit, h, available_none, verdict]
    exact if_pos le_rfl
  rw [allowed, if_pos ⟨rfl, hallow⟩]
  omega

private theorem arrivals_succ (n : Nat) : (List.range (n + 1)).map arrival =
    ⟨caller 0, ((0 : Nat) : ℚ) / 100000, 0⟩ :: ((List.range n).map Nat.succ).map arrival := by
  rw [List.range_succ_eq_map]
  rfl

private theorem arrivals_within : ∀ check ∈ (List.range (maxTrackedAddresses + 1)).map arrival,
    (0 : ℚ) ≤ check.now ∧ check.now ≤ 1 / 10 := by
  have hcapacity : maxTrackedAddresses = 8192 := rfl
  intro check hcheck
  obtain ⟨i, hi, rfl⟩ := List.mem_map.mp hcheck
  have hle : (i : ℚ) ≤ 8192 := by
    have := List.mem_range.mp hi
    exact_mod_cast (by omega : i ≤ 8192)
  constructor
  · exact div_nonneg (Nat.cast_nonneg i) (by norm_num)
  · show (i : ℚ) / 100000 ≤ 1 / 10
    linarith

private theorem arrivals_ordered (n : Nat) :
    ((List.range n).map arrival).Pairwise (·.now ≤ ·.now) := by
  apply List.pairwise_map.mpr
  apply List.pairwise_lt_range.imp
  intro i j hij
  show (i : ℚ) / 100000 ≤ j / 100000
  have : (i : ℚ) ≤ j := by exact_mod_cast hij.le
  linarith

/-- One token, one request a second, and two requests that are let through within a tenth of a
second: eight thousand other callers came between. -/
theorem not_allowed_le : ¬ ∀ (config : ThrottleConfig) (peer : IpAddr) (before during : List Check)
    (start length : ℚ), 0 ≤ length → (before ++ during).Pairwise (·.now ≤ ·.now) →
    (∀ check ∈ during, start ≤ check.now ∧ check.now ≤ start + length) →
    (config.allowed peer (config.after before) during : ℚ) ≤
      config.burst + config.perSecond * length := by
  intro hbound
  let flood : List Check := (List.range (maxTrackedAddresses + 1)).map arrival
  let again : Check := ⟨caller 0, 1 / 10, 0⟩
  have hordered : (flood ++ [again]).Pairwise (·.now ≤ ·.now) := by
    apply List.pairwise_append.mpr
    refine ⟨arrivals_ordered _, List.pairwise_singleton _ _, fun check hcheck last hlast ↦ ?_⟩
    rw [List.mem_singleton.mp hlast]
    exact (arrivals_within check hcheck).2
  have hwithin : ∀ check ∈ flood ++ [again], (0 : ℚ) ≤ check.now ∧ check.now ≤ 0 + 1 / 10 := by
    intro check hcheck
    rw [zero_add]
    rcases List.mem_append.mp hcheck with hmem | hmem
    · exact arrivals_within check hmem
    · rw [List.mem_singleton.mp hmem]
      norm_num [again]
  have hfirst : 1 ≤ sparing.allowed (caller 0) (sparing.after []) flood := by
    rw [show flood = _ from arrivals_succ maxTrackedAddresses]
    exact allowed_new rfl _ _
  have hlast := allowed_new lookup_first (1 / 10) []
  have htwo : 2 ≤ sparing.allowed (caller 0) (sparing.after []) (flood ++ [again]) := by
    rw [allowed_append]
    exact Nat.add_le_add hfirst hlast
  have hle := hbound sparing (caller 0) [] (flood ++ [again]) 0 (1 / 10) (by norm_num)
    (by rw [List.nil_append]; exact hordered) hwithin
  have hrate : sparing.burst + sparing.perSecond * (1 / 10) = 11 / 10 := by
    rw [sparing]
    norm_num
  have htwo' : (2 : ℚ) ≤ sparing.allowed (caller 0) (sparing.after []) (flood ++ [again]) := by
    exact_mod_cast htwo
  rw [hrate] at hle
  linarith

end ThrottleConfig
end NullRouter.Gateway
