import Mathlib.Data.List.AList
import Mathlib.Data.List.MinMax
import Mathlib.Data.Prod.Lex
import NullRouter.Base.Run
import NullRouter.Base.Text
import NullRouter.Gateway.Policy

/-!
# The lockout table

The failures that the auth service keeps of each peer, `services/auth-actix/src/lockout.rs`. What
an operation does to the entry of its peer depends on that entry alone. Times are seconds of the
Unix epoch, durations nanoseconds.
-/

namespace NullRouter.Auth

open NullRouter.Base

/-- `LockoutConfig`, `config.rs:25`. -/
structure LockoutConfig where
  threshold : Nat
  window : Nat
  lockDuration : Nat
  capacity : Nat
  threshold_le : threshold ≤ u32Max := by decide

/-- `LockoutConfig::default`, `config.rs:32`. -/
def LockoutConfig.default : LockoutConfig where
  threshold := 5
  window := 900000000000
  lockDuration := 900000000000
  capacity := 4096

/-- `Duration::as_secs`. -/
def asSecs (duration : Nat) : Nat := duration / 1000000000

/-- `LockoutEntry`, `lockout.rs:12`. -/
structure LockoutEntry where
  failures : Nat
  firstFailure : Nat
  lastSeen : Nat
  lockedUntil : Option Nat
  deriving DecidableEq

/-- `LockState`, `lockout.rs:20`. -/
inductive LockState where
  | allowed
  | locked (retryAfter : Nat)
  deriving DecidableEq

/-- `FailureState`, `lockout.rs:26`. -/
structure FailureState where
  remainingBeforeLock : Nat
  lockState : LockState
  deriving DecidableEq

/-! ## Entries -/

namespace LockoutEntry

/-- What `prune` keeps, `lockout.rs:91`. -/
def kept (config : LockoutConfig) (now : Nat) (entry : LockoutEntry) : Bool :=
  match entry.lockedUntil with
  | some lockedUntil => now < lockedUntil
  | none => now - entry.firstFailure < asSecs config.window

/-- An entry without a failure. -/
def fresh (now : Nat) : LockoutEntry := ⟨0, now, now, none⟩

/-- What `check` tells of an entry, `lockout.rs:41`. -/
def lockState (now : Nat) (entry : Option LockoutEntry) : LockState :=
  match (entry.bind (·.lockedUntil)).filter (now < ·) with
  | some lockedUntil => .locked (lockedUntil - now)
  | none => .allowed

/-- An entry whose window is over starts again, `lockout.rs:61`. -/
def windowed (config : LockoutConfig) (now : Nat) (entry : LockoutEntry) : LockoutEntry :=
  if asSecs config.window ≤ now - entry.firstFailure then fresh now else entry

/-- An entry with one more failure, `lockout.rs:69`. -/
def charged (config : LockoutConfig) (now : Nat) (entry : LockoutEntry) : LockoutEntry :=
  let failures := satAdd32 entry.failures 1
  { entry with
    failures
    lastSeen := now
    lockedUntil :=
      if config.threshold ≤ failures then some (satAdd64 now (asSecs config.lockDuration))
      else entry.lockedUntil }

/-- What `record_failure` tells of the entry it leaves, `lockout.rs:71`. -/
def failureState (config : LockoutConfig) (now : Nat) (entry : LockoutEntry) : FailureState :=
  if config.threshold ≤ entry.failures then
    ⟨0, .locked (satAdd64 now (asSecs config.lockDuration) - now)⟩
  else ⟨config.threshold - entry.failures, .allowed⟩

/-- The entry after a failure of its peer, from what was kept of it. -/
def failed (config : LockoutConfig) (now : Nat) (entry : Option LockoutEntry) : LockoutEntry :=
  ((entry.getD (fresh now)).windowed config now).charged config now

end LockoutEntry

/-! ## The table -/

/-- A peer's rank among addresses: those of version 4 come first. -/
def rank : Gateway.IpAddr → Nat
  | .v4 bits => bits.toNat
  | .v6 bits => 2 ^ 32 + bits.toNat

/-- The `BTreeMap` of entries. -/
abbrev Entries := AList fun _ : Gateway.IpAddr ↦ LockoutEntry

/-- `BTreeMap::retain`. -/
def Entries.retain (entries : Entries) (keep : LockoutEntry → Bool) : Entries :=
  ⟨entries.entries.filter (keep ·.2), entries.nodupKeys.sublist List.filter_sublist⟩

theorem Entries.lookup_retain (entries : Entries) (keep : LockoutEntry → Bool)
    (peer : Gateway.IpAddr) :
    (entries.retain keep).lookup peer = (entries.lookup peer).filter keep := by
  ext entry
  rw [← Option.mem_def, AList.mem_lookup_iff, Entries.retain, List.mem_filter,
    Option.filter_eq_some_iff, ← AList.mem_lookup_iff, Option.mem_def]

/-- `LockoutStore`, `lockout.rs:6`. -/
structure LockoutStore where
  config : LockoutConfig
  entries : Entries := ∅

namespace LockoutStore

/-- The entry of a peer. -/
def entry (store : LockoutStore) (peer : Gateway.IpAddr) : Option LockoutEntry :=
  store.entries.lookup peer

/-- `prune`, `lockout.rs:89`. -/
def prune (store : LockoutStore) (now : Nat) : LockoutStore :=
  { store with entries := store.entries.retain (·.kept store.config now) }

/-- `evict_oldest`, `lockout.rs:97`. -/
def evictOldest (store : LockoutStore) : LockoutStore :=
  match store.entries.entries.argmin fun entry ↦ toLex (entry.2.lastSeen, rank entry.1) with
  | some oldest => { store with entries := store.entries.erase oldest.1 }
  | none => store

/-- `check`, `lockout.rs:39`. -/
def check (store : LockoutStore) (peer : Gateway.IpAddr) (now : Nat) : LockState × LockoutStore :=
  let store := store.prune now
  (LockoutEntry.lockState now (store.entry peer), store)

/-- `record_failure`, `lockout.rs:50`. -/
def recordFailure (store : LockoutStore) (peer : Gateway.IpAddr) (now : Nat) :
    FailureState × LockoutStore :=
  let store := store.prune now
  let store :=
    if (store.entry peer).isNone ∧ store.config.capacity ≤ store.entries.entries.length then
      store.evictOldest
    else store
  let entry := LockoutEntry.failed store.config now (store.entry peer)
  (entry.failureState store.config now,
    { store with entries := store.entries.insert peer entry })

/-- `record_success`, `lockout.rs:85`. -/
def recordSuccess (store : LockoutStore) (peer : Gateway.IpAddr) : LockoutStore :=
  { store with entries := store.entries.erase peer }

variable (store : LockoutStore) (peer : Gateway.IpAddr) (now : Nat)

/-- Pruning looks at each entry alone. -/
theorem entry_prune :
    (store.prune now).entry peer = (store.entry peer).filter (·.kept store.config now) :=
  Entries.lookup_retain ..

theorem config_evictOldest : store.evictOldest.config = store.config := by
  rw [evictOldest]
  split <;> rfl

/-- What is not there is not there after an eviction. -/
theorem entry_evictOldest_of_none (h : store.entry peer = none) :
    store.evictOldest.entry peer = none := by
  rw [evictOldest]
  split
  · next oldest _ =>
    by_cases hpeer : peer = oldest.1
    · rw [hpeer]
      exact AList.lookup_erase _ _
    · exact (AList.lookup_erase_ne hpeer).trans h
  · exact h

/-- A check tells the lock of what is kept of its peer's entry, and keeps that. -/
theorem check_spec : (store.check peer now).1 =
      LockoutEntry.lockState now ((store.entry peer).filter (·.kept store.config now)) ∧
    (store.check peer now).2.entry peer =
      (store.entry peer).filter (·.kept store.config now) ∧
    (store.check peer now).2.config = store.config := by
  rw [← entry_prune]
  exact ⟨rfl, rfl, rfl⟩

/-- A failure is charged to what is kept of its peer's entry. -/
theorem recordFailure_spec : ∃ entry,
    entry = LockoutEntry.failed store.config now
        ((store.entry peer).filter (·.kept store.config now)) ∧
      (store.recordFailure peer now).1 = entry.failureState store.config now ∧
      (store.recordFailure peer now).2.entry peer = some entry ∧
      (store.recordFailure peer now).2.config = store.config := by
  have hpruned := entry_prune store peer now
  rw [recordFailure]
  dsimp only
  split
  · next hevict =>
    have hnone := Option.isNone_iff_eq_none.mp hevict.1
    rw [entry_evictOldest_of_none _ _ hnone, config_evictOldest]
    rw [hnone] at hpruned
    rw [← hpruned]
    exact ⟨_, rfl, rfl, AList.lookup_insert _, rfl⟩
  · rw [hpruned]
    exact ⟨_, rfl, rfl, AList.lookup_insert _, rfl⟩

/-- A success takes its peer's entry away. -/
theorem recordSuccess_spec : (store.recordSuccess peer).entry peer = none ∧
    (store.recordSuccess peer).config = store.config :=
  ⟨AList.lookup_erase _ _, rfl⟩

end LockoutStore
end NullRouter.Auth

/-!
## How long a lockout lasts

Runs of the calls on the lockout table, `services/auth-actix/src/lockout.rs`, by any peers at times
that do not go back. The table is bounded, so a failure of an unknown peer may take the place of
another one, which is then no longer locked; while a peer keeps its place, its lock holds to its
end.
-/

namespace NullRouter.Auth

open NullRouter.Base
open NullRouter.Gateway (IpAddr)

/-- A call of the table for a peer. -/
inductive LockoutCall where
  | check (peer : IpAddr)
  | recordFailure (peer : IpAddr)
  | recordSuccess (peer : IpAddr)

namespace LockoutStore

/-- The table after a call at a time. -/
def after (store : LockoutStore) (now : Nat) : LockoutCall → LockoutStore
  | .check peer => (store.check peer now).2
  | .recordFailure peer => (store.recordFailure peer now).2
  | .recordSuccess peer => store.recordSuccess peer

/-- A failure of another peer would take this peer's place: the other is not known, the table is
full, and none in it was seen before this one. -/
def Evicts (store : LockoutStore) (now : Nat) (other peer : IpAddr) : Prop :=
  (store.prune now).entry other = none ∧
    store.config.capacity ≤ (store.prune now).entries.entries.length ∧
    ∃ entry, (store.prune now).entry peer = some entry ∧
      ∀ third entry', (store.prune now).entry third = some entry' →
        entry.lastSeen < entry'.lastSeen ∨
          entry.lastSeen = entry'.lastSeen ∧ rank peer ≤ rank third

/-- The failure window of a peer's entry is not over. -/
def InWindow (store : LockoutStore) (now : Nat) (peer : IpAddr) : Prop :=
  ∀ entry ∈ store.entry peer, now - entry.firstFailure < asSecs store.config.window

end LockoutStore

/-- The table and the time of the last call. -/
structure Lockouts where
  store : LockoutStore
  now : Nat

namespace Lockouts

/-- A call at a time that is not before the last. -/
def Step (s : Lockouts) (call : LockoutCall × Nat) (s' : Lockouts) : Prop :=
  s.now ≤ call.2 ∧ s' = ⟨s.store.after call.2 call.1, call.2⟩

/-- A call leaves a peer its place: no success of the peer is recorded, no failure of it after its
window, and no failure of another peer that takes the place. -/
def Spares (peer : IpAddr) (s : Lockouts) : LockoutCall × Nat → Prop
  | (.check _, _) => True
  | (.recordFailure other, now) =>
    (other = peer → s.store.InWindow now peer) ∧ (other ≠ peer → ¬ s.store.Evicts now other peer)
  | (.recordSuccess other, _) => other ≠ peer

end Lockouts

/-! ## One call -/

namespace LockoutStore

variable (store : LockoutStore) {peer : IpAddr} (now : Nat)

/-- An entry that no other is as old as goes, any other stays. -/
theorem entry_evictOldest {entry : LockoutEntry} (h : store.entry peer = some entry)
    (hold : ¬ ∀ third entry', store.entry third = some entry' →
      entry.lastSeen < entry'.lastSeen ∨
        entry.lastSeen = entry'.lastSeen ∧ rank peer ≤ rank third) :
    store.evictOldest.entry peer = some entry := by
  rw [evictOldest]
  split
  · next oldest holdest =>
    by_cases hpeer : peer = oldest.1
    · refine (hold fun third entry' hthird ↦ ?_).elim
      have hmem := AList.mem_lookup_iff.mp (Option.mem_def.mpr hthird)
      have hself : oldest = ⟨peer, entry⟩ := by
        have hin := AList.mem_lookup_iff.mpr (List.argmin_mem holdest)
        have hsame : store.entries.lookup oldest.1 = some entry := by
          rw [← hpeer]
          exact h
        rw [hsame, Option.mem_def, Option.some.injEq] at hin
        rw [hin, hpeer]
      have hle := List.le_of_mem_argmin hmem holdest
      rw [hself, Prod.Lex.toLex_le_toLex] at hle
      exact hle
    · exact (AList.lookup_erase_ne hpeer).trans h
  · exact h

/-- A failure of another peer leaves what is kept of an entry, unless it takes its place. -/
theorem entry_recordFailure_ne {other : IpAddr} {entry : LockoutEntry} (hne : other ≠ peer)
    (h : (store.prune now).entry peer = some entry) (hspared : ¬ store.Evicts now other peer) :
    (store.recordFailure other now).2.entry peer = some entry := by
  rw [recordFailure]
  dsimp only
  refine (AList.lookup_insert_ne hne.symm).trans ?_
  split
  · next hevict =>
    refine (store.prune now).entry_evictOldest h fun hold ↦ hspared ?_
    exact ⟨Option.isNone_iff_eq_none.mp hevict.1, hevict.2, entry, h, hold⟩
  · exact h

private theorem length_insert (entries : Entries) (entry : LockoutEntry) :
    (entries.insert peer entry).entries.length = (entries.keys.erase peer).length + 1 := by
  have hkeys : (List.kerase peer entries.entries).keys = entries.keys.erase peer :=
    List.keys_kerase
  rw [AList.entries_insert, List.length_cons, ← hkeys, List.keys, List.length_map]

private theorem length_keys (entries : Entries) : entries.keys.length = entries.entries.length :=
  List.length_map ..

private theorem length_evictOldest (h : 0 < store.entries.entries.length) :
    store.evictOldest.entries.entries.length + 1 = store.entries.entries.length := by
  rw [evictOldest]
  split
  · next oldest holdest =>
    have hmem : oldest.1 ∈ store.entries :=
      List.mem_map_of_mem (List.argmin_mem holdest)
    have hkeys : (List.kerase oldest.1 store.entries.entries).keys =
        store.entries.keys.erase oldest.1 := List.keys_kerase
    have hpos : 0 < store.entries.keys.length := List.length_pos_of_mem hmem
    have herased := List.length_erase_of_mem hmem
    rw [← hkeys, length_keys, List.keys, List.length_map] at herased
    rw [length_keys] at hpos
    show (List.kerase oldest.1 store.entries.entries).length + 1 = _
    omega
  · next hnone =>
    rw [List.argmin_eq_none.mp hnone] at h
    cases h

/-- A failure leaves the table within its capacity. -/
theorem length_recordFailure (peer : IpAddr) (hcapacity : 0 < store.config.capacity)
    (h : (store.prune now).entries.entries.length ≤ store.config.capacity) :
    (store.recordFailure peer now).2.entries.entries.length ≤ store.config.capacity := by
  rw [recordFailure]
  dsimp only
  rw [length_insert]
  split
  · next hevict =>
    have hfull : store.config.capacity ≤ (store.prune now).entries.entries.length := hevict.2
    have hroom := (store.prune now).length_evictOldest (by omega)
    have herase := (List.erase_sublist (a := peer)
      (l := (store.prune now).evictOldest.entries.keys)).length_le
    rw [length_keys] at herase
    omega
  · next hevict =>
    by_cases hknown : peer ∈ (store.prune now).entries
    · have hpos : 0 < (store.prune now).entries.keys.length := List.length_pos_of_mem hknown
      rw [List.length_erase_of_mem hknown, length_keys] at *
      omega
    · have hnone : ((store.prune now).entry peer).isNone = true :=
        Option.isNone_iff_eq_none.mpr (AList.lookup_eq_none.mpr hknown)
      have hroom : ¬ store.config.capacity ≤ (store.prune now).entries.entries.length :=
        fun hfull ↦ hevict ⟨hnone, hfull⟩
      rw [List.erase_of_not_mem hknown, length_keys]
      omega

end LockoutStore

namespace LockoutEntry

variable {config : LockoutConfig} {now : Nat} {entry : LockoutEntry}

/-- A failure in the window of an entry that has reached the threshold locks again. -/
theorem lockedUntil_charged (h : config.threshold ≤ entry.failures) :
    (entry.charged config now).lockedUntil = some (satAdd64 now (asSecs config.lockDuration)) ∧
      config.threshold ≤ (entry.charged config now).failures := by
  have hpast : config.threshold ≤ satAdd32 entry.failures 1 := by
    have hmax := config.threshold_le
    rw [satAdd32]
    omega
  rw [charged]
  exact ⟨if_pos hpast, hpast⟩

/-- What is told of a lock is what the entry says. -/
theorem locked_of_failureState {duration : Nat}
    (h : ((entry.charged config now).failureState config now).lockState = .locked duration) :
    (entry.charged config now).lockedUntil = some (satAdd64 now (asSecs config.lockDuration)) ∧
      config.threshold ≤ (entry.charged config now).failures ∧
      duration = satAdd64 now (asSecs config.lockDuration) - now := by
  rw [failureState] at h
  split at h
  · next hpast =>
    cases h
    refine ⟨?_, hpast, rfl⟩
    rw [charged] at hpast ⊢
    exact if_pos hpast
  · cases h

end LockoutEntry

/-! ## Runs -/

namespace Lockouts

variable {config : LockoutConfig} {peer : IpAddr} {start : Nat}

/-- The peer is locked to the end of a lock that began at some time, as long as that has not
come. -/
structure Holds (config : LockoutConfig) (peer : IpAddr) (start : Nat) (s : Lockouts) : Prop where
  configured : s.store.config = config
  began : start ≤ s.now
  entry : s.now < satAdd64 start (asSecs config.lockDuration) →
    ∃ entry lockedUntil, s.store.entry peer = some entry ∧ entry.lockedUntil = some lockedUntil ∧
      satAdd64 start (asSecs config.lockDuration) ≤ lockedUntil ∧
      config.threshold ≤ entry.failures

/-- Before its end, a lock is kept when the table is pruned. -/
theorem Holds.pruned {s : Lockouts} (h : Holds config peer start s) {now : Nat} (hnow : s.now ≤ now)
    (hend : now < satAdd64 start (asSecs config.lockDuration)) :
    ∃ entry lockedUntil, s.store.entry peer = some entry ∧
      (s.store.prune now).entry peer = some entry ∧ entry.lockedUntil = some lockedUntil ∧
      satAdd64 start (asSecs config.lockDuration) ≤ lockedUntil ∧
      config.threshold ≤ entry.failures := by
  obtain ⟨entry, lockedUntil, hentry, hlocked, hlate, hpast⟩ := h.entry (by omega)
  refine ⟨entry, lockedUntil, hentry, ?_, hlocked, hlate, hpast⟩
  have hkept : entry.kept s.store.config now = true := by
    rw [LockoutEntry.kept, hlocked]
    exact decide_eq_true (Nat.lt_of_lt_of_le hend hlate)
  rw [LockoutStore.entry_prune, hentry, Option.filter_some, if_pos hkept]

/-- A call that leaves the peer its place leaves its lock. -/
theorem Holds.step {s s' : Lockouts} {call : LockoutCall × Nat} (h : Holds config peer start s)
    (hspared : Spares peer s call) (hstep : Step s call s') : Holds config peer start s' := by
  obtain ⟨hnow, rfl⟩ := hstep
  obtain ⟨call, now⟩ := call
  dsimp only at hnow
  have hbegan : start ≤ now := h.began.trans hnow
  cases call with
  | check other =>
    refine ⟨h.configured, hbegan, fun hend ↦ ?_⟩
    obtain ⟨entry, lockedUntil, -, hpruned, hlocked⟩ := h.pruned hnow hend
    exact ⟨entry, lockedUntil, hpruned, hlocked⟩
  | recordSuccess other =>
    refine ⟨h.configured, hbegan, fun hend ↦ ?_⟩
    obtain ⟨entry, lockedUntil, hentry, -, hlocked⟩ := h.pruned hnow hend
    exact ⟨entry, lockedUntil, (AList.lookup_erase_ne hspared.symm).trans hentry, hlocked⟩
  | recordFailure other =>
    obtain ⟨failed, hfailed, -, hafter, hconfig⟩ := s.store.recordFailure_spec other now
    refine ⟨hconfig.trans h.configured, hbegan, fun hend ↦ ?_⟩
    obtain ⟨entry, lockedUntil, hentry, hpruned, hlocked, hlate, hpast⟩ := h.pruned hnow hend
    by_cases hpeer : other = peer
    · subst hpeer
      have hwindow := hspared.1 rfl entry hentry
      rw [LockoutStore.entry_prune] at hpruned
      rw [hpruned, LockoutEntry.failed, Option.getD_some, LockoutEntry.windowed,
        if_neg (Nat.not_le_of_lt hwindow), h.configured] at hfailed
      obtain ⟨hagain, hpast'⟩ := @LockoutEntry.lockedUntil_charged _ now _ hpast
      refine ⟨failed, _, hafter, hfailed ▸ hagain, ?_, hfailed ▸ hpast'⟩
      rw [satAdd64, satAdd64]
      omega
    · exact ⟨entry, lockedUntil, s.store.entry_recordFailure_ne now hpeer hpruned (hspared.2 hpeer),
        hlocked, hlate, hpast⟩

/-- A failure that locks its peer is the beginning of a lock. -/
theorem holds_of_locked {store : LockoutStore} {duration : Nat}
    (h : (store.recordFailure peer start).1.lockState = .locked duration) :
    Holds store.config peer start ⟨(store.recordFailure peer start).2, start⟩ ∧
      duration = satAdd64 start (asSecs store.config.lockDuration) - start := by
  obtain ⟨entry, hfailed, htold, hafter, hconfig⟩ := store.recordFailure_spec peer start
  rw [htold, hfailed, LockoutEntry.failed] at h
  obtain ⟨hlocked, hpast, hduration⟩ := LockoutEntry.locked_of_failureState h
  refine ⟨⟨hconfig, Nat.le_refl _, fun _ ↦ ⟨entry, _, hafter, ?_, Nat.le_refl _, ?_⟩⟩, hduration⟩
  · rw [hfailed, LockoutEntry.failed]
    exact hlocked
  · rw [hfailed, LockoutEntry.failed]
    exact hpast

/-- What holds of a lock is what a check tells. -/
theorem Holds.check {s : Lockouts} (h : Holds config peer start s) {now : Nat} (hnow : s.now ≤ now)
    (hend : now < satAdd64 start (asSecs config.lockDuration)) : ∃ left,
      (s.store.check peer now).1 = .locked left ∧
        satAdd64 start (asSecs config.lockDuration) ≤ now + left := by
  obtain ⟨entry, lockedUntil, -, hpruned, hlocked, hlate, -⟩ := h.pruned hnow hend
  have hlater : now < lockedUntil := Nat.lt_of_lt_of_le hend hlate
  refine ⟨lockedUntil - now, ?_, by omega⟩
  rw [LockoutStore.check]
  dsimp only
  rw [hpruned, LockoutEntry.lockState, Option.bind_some, hlocked, Option.filter_some,
    if_pos (decide_eq_true hlater)]

/-- A call keeps the table within its capacity. -/
theorem length_step {s s' : Lockouts} {call : LockoutCall × Nat}
    (hcapacity : 0 < s.store.config.capacity)
    (h : s.store.entries.entries.length ≤ s.store.config.capacity) (hstep : Step s call s') :
    s'.store.config = s.store.config ∧
      s'.store.entries.entries.length ≤ s.store.config.capacity := by
  obtain ⟨-, rfl⟩ := hstep
  obtain ⟨call, now⟩ := call
  have hpruned : (s.store.prune now).entries.entries.length ≤ s.store.config.capacity :=
    (List.length_filter_le _ _).trans h
  cases call with
  | check peer => exact ⟨rfl, hpruned⟩
  | recordSuccess peer => exact ⟨rfl, (List.kerase_sublist _ _).length_le.trans h⟩
  | recordFailure peer => exact ⟨(s.store.recordFailure_spec peer now).choose_spec.2.2.2,
      s.store.length_recordFailure now peer hcapacity hpruned⟩

end Lockouts

/-- Locks last and the table is bounded, in every run of calls from the empty table: from a failure
that locks its peer on, as long as every call leaves the peer its place, every check before the end
of the lock tells of it. -/
theorem lockout_lasts {config : LockoutConfig} (hcapacity : 0 < config.capacity)
    {calls : List (LockoutCall × Nat)} {s : Lockouts}
    (hrun : Run Lockouts.Step ⟨⟨config, ∅⟩, 0⟩ calls s) :
    s.store.entries.entries.length ≤ config.capacity ∧
      ∀ peer start duration, s.now ≤ start →
        (s.store.recordFailure peer start).1.lockState = .locked duration →
        ∀ later s', Run (Guarded (Lockouts.Spares peer) Lockouts.Step)
          ⟨(s.store.recordFailure peer start).2, start⟩ later s' →
        ∀ now, s'.now ≤ now → now < start + duration →
          ∃ left, (s'.store.check peer now).1 = .locked left ∧ start + duration ≤ now + left := by
  have hbounded : s.store.config = config ∧
      s.store.entries.entries.length ≤ config.capacity := by
    refine hrun.invariant (fun s ↦ s.store.config = config ∧
      s.store.entries.entries.length ≤ config.capacity) ?_ ⟨rfl, Nat.zero_le _⟩
    rintro s call s' ⟨rfl, hlength⟩ hstep
    exact Lockouts.length_step hcapacity hlength hstep
  obtain ⟨rfl, hlength⟩ := hbounded
  refine ⟨hlength, fun peer start duration _ hlocked later s' hlater now hnow hend ↦ ?_⟩
  obtain ⟨hholds, hduration⟩ := Lockouts.holds_of_locked hlocked
  have hholds := hlater.invariant (Lockouts.Holds s.store.config peer start)
    (fun _ _ _ h hstep ↦ h.step hstep.1 hstep.2) hholds
  have hbegan : start ≤ s'.now := hholds.began
  obtain ⟨left, hcheck, hleft⟩ := hholds.check hnow (by omega)
  exact ⟨left, hcheck, by omega⟩

/-- A table of one place, whose peers are locked by one failure. -/
def onePlace : LockoutConfig where
  threshold := 1
  window := 900000000000
  lockDuration := 900000000000
  capacity := 1

/-- A peer that is locked at a hundred seconds is locked at nine hundred, another one having been
checked in between. -/
theorem lockout_lasts_onePlace : ∃ left,
    ((LockoutStore.check (LockoutStore.recordFailure ⟨onePlace, ∅⟩ (.v4 1) 100).2
      (.v4 2) 500).2.check (.v4 1) 900).1 = .locked left ∧ 100 + 900 ≤ 900 + left := by
  refine (@lockout_lasts onePlace (by decide) _ _ (.nil _)).2 (.v4 1) 100 900 (by decide)
    (by decide +kernel) [(.check (.v4 2), 500)] ⟨_, 500⟩ ?_ 900 (by decide) (by decide)
  exact .single ⟨trivial, by decide, rfl⟩

/-- A peer loses its place, and its lock, to a failure of another one. -/
theorem lock_is_evicted : ∃ s,
    Run Lockouts.Step ⟨⟨onePlace, ∅⟩, 0⟩
      [(.recordFailure (.v4 1), 100), (.recordFailure (.v4 2), 101)] s ∧
    (LockoutStore.recordFailure ⟨onePlace, ∅⟩ (.v4 1) 100).1.lockState = .locked 900 ∧
    (s.store.check (.v4 1) 102).1 = .allowed := by
  refine ⟨_, .cons ⟨by decide, rfl⟩ (.single ⟨by decide, rfl⟩), ?_, ?_⟩
  · decide +kernel
  · decide +kernel

end NullRouter.Auth
