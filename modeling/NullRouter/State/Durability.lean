import Mathlib.Logic.Function.Basic
import NullRouter.Base.Run

/-!
# Durability of the state store

The three writers of `services/state-actix/src/store.rs:1739–1816`, each cut at the
points where another thread can run. A store is file-backed here: its `path` is set, so
`persist` (`store.rs:1831`) either replaces the file by rename or leaves it alone.
Lock poisoning needs a panic inside a guard and is not modelled.
-/

namespace NullRouter.State

open NullRouter.Base

/-- Where one operation stands between two of its atomic actions. -/
inductive Phase (S : Type) where
  /-- `write_snapshot` before it takes the persist lock. -/
  | durableStart (mutate : S → S)
  /-- `write_snapshot` holding the persist lock only. -/
  | durableLocked (mutate : S → S)
  /-- Both locks held and the closure applied; `persist` runs next. -/
  | durableMutated
  /-- `persist` returned `Ok`; the dirty flag is not cleared yet. -/
  | durablePersisted
  /-- The flag is cleared; both guards are about to drop. -/
  | durableCleared
  /-- `persist` returned `Err` through `?`; both guards are about to drop. -/
  | durableFailed
  /-- `write_snapshot_deferred` before it takes the snapshot lock. -/
  | deferredStart (mutate : S → S)
  /-- The closure was applied and the guard dropped; the flag is not raised yet. -/
  | deferredMutated
  /-- `flush_if_dirty` before it swaps the flag. -/
  | flushStart
  /-- The flag was found set and is now clear; the persist lock is not held yet. -/
  | flushSwapped
  /-- `flush_if_dirty` holding the persist lock. -/
  | flushLocked
  /-- The snapshot was cloned under its read lock; `persist` runs next. -/
  | flushCloned (clone : S)
  /-- `persist` returned `Ok`; the persist guard is about to drop. -/
  | flushPersisted
  /-- `persist` returned `Err`; the flag is not put back yet. -/
  | flushFailed
  /-- The flag is back; the persist guard is about to drop. -/
  | flushRestored

namespace Phase

variable {S : Type}

/-- Phases in which the operation owns `StoreInner::persist`. -/
def holdsPersist : Phase S → Bool
  | durableLocked _ | durableMutated | durablePersisted | durableCleared | durableFailed
  | flushLocked | flushCloned _ | flushPersisted | flushFailed | flushRestored => true
  | durableStart _ | deferredStart _ | deferredMutated | flushStart | flushSwapped => false

/-- Phases in which the operation owns the write half of `StoreInner::snapshot`. -/
def holdsSnapshot : Phase S → Bool
  | durableMutated | durablePersisted | durableCleared | durableFailed => true
  | _ => false

/-- Phases that still owe the store a raised flag or a write of the current snapshot. -/
def owes : Phase S → Bool
  | deferredMutated | flushSwapped => true
  | _ => false

end Phase

/-- `StoreInner` (`store.rs:35`) together with the file behind `path` and the operations in
progress, one for each thread that has one. -/
structure Store (T S : Type) where
  snapshot : S
  dirty : Bool
  disk : S
  persistLock : Option T
  snapshotLock : Option T
  ops : T → Option (Phase S)

/-- What a thread does next: enter one of the three writers, or take its next atomic action.
A disk write is taken with its outcome. -/
inductive Action (T S : Type) where
  | writeSnapshot (t : T) (mutate : S → S)
  | writeSnapshotDeferred (t : T) (mutate : S → S)
  | flushIfDirty (t : T)
  | advance (t : T)
  | persistOk (t : T)
  | persistErr (t : T)

namespace Store

variable {T S : Type} [DecidableEq T]

/-- `StateStore::file` (`store.rs:654`): the snapshot is what the file holds. -/
def file (disk : S) : Store T S :=
  ⟨disk, false, disk, none, none, fun _ ↦ none⟩

/-- Move thread `t` to a phase, or out of the store. -/
def setOp (s : Store T S) (t : T) (p : Option (Phase S)) : Store T S :=
  { s with ops := Function.update s.ops t p }

/-- Drop both guards and leave. -/
def releaseBoth (s : Store T S) (t : T) : Store T S :=
  { s.setOp t none with persistLock := none, snapshotLock := none }

/-- Drop the persist guard and leave. -/
def releasePersist (s : Store T S) (t : T) : Store T S :=
  { s.setOp t none with persistLock := none }

/-- The next atomic action of a thread, disk writes apart. A lock that is held blocks it. -/
def advance (s : Store T S) (t : T) : Option (Store T S) :=
  match s.ops t with
  | none | some .durableMutated | some (.flushCloned _) => none
  | some (.durableStart mutate) =>
    if s.persistLock.isNone then
      some { s.setOp t (some (.durableLocked mutate)) with persistLock := some t }
    else none
  | some (.durableLocked mutate) =>
    if s.snapshotLock.isNone then
      some { s.setOp t (some .durableMutated) with
        snapshotLock := some t, snapshot := mutate s.snapshot }
    else none
  | some .durablePersisted => some { s.setOp t (some .durableCleared) with dirty := false }
  | some .durableCleared | some .durableFailed => some (s.releaseBoth t)
  | some (.deferredStart mutate) =>
    -- The guard lives for this one closure, so taking and dropping it is one action.
    if s.snapshotLock.isNone then
      some { s.setOp t (some .deferredMutated) with snapshot := mutate s.snapshot }
    else none
  | some .deferredMutated => some { s.setOp t none with dirty := true }
  | some .flushStart =>
    if s.dirty then some { s.setOp t (some .flushSwapped) with dirty := false }
    else some (s.setOp t none)
  | some .flushSwapped =>
    if s.persistLock.isNone then
      some { s.setOp t (some .flushLocked) with persistLock := some t }
    else none
  | some .flushLocked =>
    if s.snapshotLock.isNone then some (s.setOp t (some (.flushCloned s.snapshot))) else none
  | some .flushFailed => some { s.setOp t (some .flushRestored) with dirty := true }
  | some .flushPersisted | some .flushRestored => some (s.releasePersist t)

/-- `persist` returning `Ok`: the rename put the payload in place of the file. -/
def persistOk (s : Store T S) (t : T) : Option (Store T S) :=
  match s.ops t with
  | some .durableMutated => some { s.setOp t (some .durablePersisted) with disk := s.snapshot }
  | some (.flushCloned clone) => some { s.setOp t (some .flushPersisted) with disk := clone }
  | _ => none

/-- `persist` returning `Err`: whichever step failed, the file is the old one. -/
def persistErr (s : Store T S) (t : T) : Option (Store T S) :=
  match s.ops t with
  | some .durableMutated => some (s.setOp t (some .durableFailed))
  | some (.flushCloned _) => some (s.setOp t (some .flushFailed))
  | _ => none

/-- One atomic action; `none` where it is not enabled. -/
def step (s : Store T S) : Action T S → Option (Store T S)
  | .writeSnapshot t mutate =>
    if (s.ops t).isNone then some (s.setOp t (some (.durableStart mutate))) else none
  | .writeSnapshotDeferred t mutate =>
    if (s.ops t).isNone then some (s.setOp t (some (.deferredStart mutate))) else none
  | .flushIfDirty t =>
    if (s.ops t).isNone then some (s.setOp t (some .flushStart)) else none
  | .advance t => s.advance t
  | .persistOk t => s.persistOk t
  | .persistErr t => s.persistErr t

/-- `step` as a labelled relation. -/
def Step (s : Store T S) (a : Action T S) (s' : Store T S) : Prop := s.step a = some s'

/-- No operation is in progress. -/
def Quiescent (s : Store T S) : Prop := ∀ t, s.ops t = none

/-- The flag is set, or an operation in progress will set it or write the snapshot. -/
def Pending (s : Store T S) : Prop :=
  s.dirty = true ∨ ∃ t, (s.ops t).any Phase.owes = true

/-- The phase of the operation that owns the persist lock, if any does. -/
def holder (s : Store T S) : Option (Phase S) := s.persistLock.bind s.ops

/-- What the owner of the persist lock, at its phase, guarantees about the file. -/
def CoveredAt (holder : Option (Phase S)) (snapshot disk : S) (pending : Prop) : Prop :=
  match holder with
  | some .durableMutated | some .flushLocked | some .flushFailed => True
  | some .durablePersisted | some .durableCleared => snapshot = disk
  | some (.flushCloned clone) => clone = snapshot ∨ pending
  | _ => snapshot = disk ∨ pending

/-- The locks belong to the operations whose phase holds them, and the file is covered. -/
structure Inv (s : Store T S) : Prop where
  persist : Owned Phase.holdsPersist s.ops s.persistLock
  snapshot : Owned Phase.holdsSnapshot s.ops s.snapshotLock
  covered : CoveredAt s.holder s.snapshot s.disk s.Pending

/-- A durable write that fails on disk fails where its change is already on disk or is still
owed by the flag or by another operation. -/
def FailureCovered (s : Store T S) : Action T S → Prop
  | .persistErr t => s.ops t = some .durableMutated → s.snapshot = s.disk ∨ s.Pending
  | _ => True

private theorem pending_setOp {s : Store T S} {t : T} (p : Option (Phase S))
    (ht : (s.ops t).any Phase.owes = false) (h : s.Pending) : (s.setOp t p).Pending := by
  rcases h with h | ⟨u, hu⟩
  · exact .inl h
  · have hne : u ≠ t := fun e ↦ by rw [e, ht] at hu; cases hu
    exact .inr ⟨u, by simpa [setOp, hne] using hu⟩

private theorem CoveredAt.mono {holder : Option (Phase S)} {snapshot disk : S} {p q : Prop}
    (hpq : p → q) (h : CoveredAt holder snapshot disk p) : CoveredAt holder snapshot disk q := by
  unfold CoveredAt at h ⊢
  split <;> simp_all only
  · exact h.imp_right hpq
  · exact h.imp_right hpq

private theorem CoveredAt.of_pending {holder : Option (Phase S)} {snapshot disk : S} {p : Prop}
    (hp : p) (h : holder.any Phase.holdsSnapshot = false) :
    CoveredAt holder snapshot disk p := by
  unfold CoveredAt
  split <;> simp_all [Phase.holdsSnapshot]

private theorem holder_setOp {s : Store T S} {t : T} (p : Option (Phase S))
    (h : s.persistLock ≠ some t) : (s.setOp t p).holder = s.holder := by
  unfold holder setOp
  cases hl : s.persistLock with
  | none => rfl
  | some u =>
    have hne : u ≠ t := fun e ↦ h (by rw [hl, e])
    simp [hne]

omit [DecidableEq T] in
private theorem holder_holdsSnapshot {s : Store T S} (hs : Inv s)
    (h : s.snapshotLock = none) : s.holder.any Phase.holdsSnapshot = false := by
  unfold holder
  cases hl : s.persistLock with
  | none => rfl
  | some u =>
    have := (hs.snapshot u).not.mpr (by rw [h]; exact nofun)
    simpa using this

omit [DecidableEq T] in
/-- A freshly opened store satisfies the invariant. -/
theorem file_inv (disk : S) : Inv (file disk : Store T S) :=
  ⟨.of_none, .of_none, .inl rfl⟩

private theorem enter_inv {s : Store T S} {t : T} {p : Phase S} (hs : Inv s)
    (ht : s.ops t = none) (hp : p.holdsPersist = false) (hw : p.holdsSnapshot = false) :
    Inv (s.setOp t (some p)) := by
  have hl : s.persistLock ≠ some t := fun k ↦ by
    obtain ⟨q, hq, -⟩ := hs.persist.exists_point k
    rw [ht] at hq
    cases hq
  refine ⟨hs.persist.keep (by simp [ht, hp]), hs.snapshot.keep (by simp [ht, hw]), ?_⟩
  rw [holder_setOp _ hl]
  exact hs.covered.mono (pending_setOp _ (by simp [ht]))

omit [DecidableEq T] in
private theorem holder_of_lock {s : Store T S} {t : T} (h : s.persistLock = some t) :
    s.holder = s.ops t := by
  simp [holder, h]

private theorem advance_inv {s s' : Store T S} {t : T} (hs : Inv s)
    (h : s.advance t = some s') : Inv s' := by
  obtain ⟨hp, hw, hc⟩ := hs
  unfold advance at h
  split at h
  · cases h
  · cases h
  · cases h
  · next mutate ht =>
    split at h
    · next hfree =>
      cases h
      have hnone : s.persistLock = none := by simpa using hfree
      refine ⟨(hnone ▸ hp).acquire rfl, hw.keep (by simp [ht, Phase.holdsSnapshot]), ?_⟩
      have hbase : s.snapshot = s.disk ∨ s.Pending := by
        simpa [holder, hnone, CoveredAt] using hc
      simpa [holder, setOp, CoveredAt, Pending] using
        hbase.imp_right (pending_setOp (some (.durableLocked mutate)) (by simp [ht, Phase.owes]))
    · cases h
  · next mutate ht =>
    split at h
    · next hfree =>
      cases h
      have hnone : s.snapshotLock = none := by simpa using hfree
      have hlock := hp.eq_some ht rfl
      refine ⟨hp.keep (by simp [ht, Phase.holdsPersist]), (hnone ▸ hw).acquire rfl, ?_⟩
      simp [holder, setOp, hlock, CoveredAt]
    · cases h
  · next ht =>
    cases h
    have hlock := hp.eq_some ht rfl
    rw [holder_of_lock hlock, ht] at hc
    refine ⟨hp.keep (by simp [ht, Phase.holdsPersist]),
      hw.keep (by simp [ht, Phase.holdsSnapshot]), ?_⟩
    simpa [holder, setOp, hlock, CoveredAt] using hc
  · next ht =>
    cases h
    rw [holder_of_lock (hp.eq_some ht rfl), ht] at hc
    refine ⟨hp.release (by simp [ht, Phase.holdsPersist]) rfl,
      hw.release (by simp [ht, Phase.holdsSnapshot]) rfl, .inl hc⟩
  · next ht =>
    cases h
    rw [holder_of_lock (hp.eq_some ht rfl), ht] at hc
    refine ⟨hp.release (by simp [ht, Phase.holdsPersist]) rfl,
      hw.release (by simp [ht, Phase.holdsSnapshot]) rfl, ?_⟩
    exact hc.imp_right (pending_setOp none (by simp [ht, Phase.owes]))
  · next mutate ht =>
    split at h
    · next hfree =>
      cases h
      have hnone : s.snapshotLock = none := by simpa using hfree
      have hlock := hp.ne_some ht rfl
      refine ⟨hp.keep (by simp [ht, Phase.holdsPersist]),
        hw.keep (by simp [ht, Phase.holdsSnapshot]), ?_⟩
      apply CoveredAt.of_pending
      · exact .inr ⟨t, by simp [setOp, Phase.owes]⟩
      · change (s.setOp t _).holder.any Phase.holdsSnapshot = false
        rw [holder_setOp _ hlock]
        exact holder_holdsSnapshot ⟨hp, hw, hc⟩ hnone
    · cases h
  · next ht =>
    cases h
    refine ⟨hp.keep (by simp [ht, Phase.holdsPersist]),
      hw.keep (by simp [ht, Phase.holdsSnapshot]), ?_⟩
    change CoveredAt (s.setOp t none).holder s.snapshot s.disk _
    rw [holder_setOp _ (hp.ne_some ht rfl)]
    exact hc.mono fun _ ↦ .inl rfl
  · next ht =>
    split at h
    · cases h
      refine ⟨hp.keep (by simp [ht, Phase.holdsPersist]),
        hw.keep (by simp [ht, Phase.holdsSnapshot]), ?_⟩
      change CoveredAt (s.setOp t _).holder s.snapshot s.disk _
      rw [holder_setOp _ (hp.ne_some ht rfl)]
      exact hc.mono fun _ ↦ .inr ⟨t, by simp [setOp, Phase.owes]⟩
    · cases h
      refine ⟨hp.keep (by simp [ht, Phase.holdsPersist]),
        hw.keep (by simp [ht, Phase.holdsSnapshot]), ?_⟩
      rw [holder_setOp _ (hp.ne_some ht rfl)]
      exact hc.mono (pending_setOp none (by simp [ht, Phase.owes]))
  · next ht =>
    split at h
    · next hfree =>
      cases h
      have hnone : s.persistLock = none := by simpa using hfree
      refine ⟨(hnone ▸ hp).acquire rfl, hw.keep (by simp [ht, Phase.holdsSnapshot]), ?_⟩
      simp [holder, setOp, CoveredAt]
    · cases h
  · next ht =>
    split at h
    · cases h
      have hlock := hp.eq_some ht rfl
      refine ⟨hp.keep (by simp [ht, Phase.holdsPersist]),
        hw.keep (by simp [ht, Phase.holdsSnapshot]), ?_⟩
      simp [holder, setOp, hlock, CoveredAt]
    · cases h
  · next ht =>
    cases h
    have hlock := hp.eq_some ht rfl
    refine ⟨hp.keep (by simp [ht, Phase.holdsPersist]),
      hw.keep (by simp [ht, Phase.holdsSnapshot]), ?_⟩
    simp [holder, setOp, hlock, CoveredAt, Pending]
  · next ht =>
    cases h
    rw [holder_of_lock (hp.eq_some ht rfl), ht] at hc
    refine ⟨hp.release (by simp [ht, Phase.holdsPersist]) rfl,
      hw.keep (by simp [ht, Phase.holdsSnapshot]), ?_⟩
    exact hc.imp_right (pending_setOp none (by simp [ht, Phase.owes]))
  · next ht =>
    cases h
    rw [holder_of_lock (hp.eq_some ht rfl), ht] at hc
    refine ⟨hp.release (by simp [ht, Phase.holdsPersist]) rfl,
      hw.keep (by simp [ht, Phase.holdsSnapshot]), ?_⟩
    exact hc.imp_right (pending_setOp none (by simp [ht, Phase.owes]))

private theorem persistOk_inv {s s' : Store T S} {t : T} (hs : Inv s)
    (h : s.persistOk t = some s') : Inv s' := by
  obtain ⟨hp, hw, hc⟩ := hs
  unfold persistOk at h
  split at h
  · next ht =>
    cases h
    refine ⟨hp.keep (by simp [ht, Phase.holdsPersist]),
      hw.keep (by simp [ht, Phase.holdsSnapshot]), ?_⟩
    simp [holder, setOp, hp.eq_some ht rfl, CoveredAt]
  · next clone ht =>
    cases h
    have hlock := hp.eq_some ht rfl
    rw [holder_of_lock hlock, ht] at hc
    refine ⟨hp.keep (by simp [ht, Phase.holdsPersist]),
      hw.keep (by simp [ht, Phase.holdsSnapshot]), ?_⟩
    have hnew : s.snapshot = clone ∨ (s.setOp t (some .flushPersisted)).Pending :=
      hc.imp Eq.symm (pending_setOp _ (by simp [ht, Phase.owes]))
    simpa [holder, setOp, hlock, CoveredAt, Pending] using hnew
  · cases h

private theorem persistErr_inv {s s' : Store T S} {t : T} (hs : Inv s)
    (hok : s.FailureCovered (.persistErr t)) (h : s.persistErr t = some s') : Inv s' := by
  obtain ⟨hp, hw, hc⟩ := hs
  unfold persistErr at h
  split at h
  · next ht =>
    cases h
    refine ⟨hp.keep (by simp [ht, Phase.holdsPersist]),
      hw.keep (by simp [ht, Phase.holdsSnapshot]), ?_⟩
    have hnew : s.snapshot = s.disk ∨ (s.setOp t (some .durableFailed)).Pending :=
      (hok ht).imp_right (pending_setOp _ (by simp [ht, Phase.owes]))
    simpa [holder, setOp, hp.eq_some ht rfl, CoveredAt, Pending] using hnew
  · next clone ht =>
    cases h
    refine ⟨hp.keep (by simp [ht, Phase.holdsPersist]),
      hw.keep (by simp [ht, Phase.holdsSnapshot]), ?_⟩
    simp [holder, setOp, hp.eq_some ht rfl, CoveredAt]
  · cases h

/-- Every atomic action whose disk failure, if any, is covered preserves the invariant. -/
theorem step_inv {s s' : Store T S} {a : Action T S} (hs : Inv s) (hok : s.FailureCovered a)
    (h : s.Step a s') : Inv s' := by
  unfold Step step at h
  cases a with
  | writeSnapshot t mutate =>
    simp only [Option.isNone_iff_eq_none] at h
    split at h
    · next ht => cases h; exact enter_inv hs ht rfl rfl
    · cases h
  | writeSnapshotDeferred t mutate =>
    simp only [Option.isNone_iff_eq_none] at h
    split at h
    · next ht => cases h; exact enter_inv hs ht rfl rfl
    · cases h
  | flushIfDirty t =>
    simp only [Option.isNone_iff_eq_none] at h
    split at h
    · next ht => cases h; exact enter_inv hs ht rfl rfl
    · cases h
  | advance t => exact advance_inv hs h
  | persistOk t => exact persistOk_inv hs h
  | persistErr t => exact persistErr_inv hs hok h

omit [DecidableEq T] in
/-- Between operations, the invariant leaves nobody but the flag to owe the disk anything. -/
theorem Inv.quiescent {s : Store T S} (hs : Inv s) (hq : s.Quiescent) :
    s.snapshot = s.disk ∨ s.dirty = true := by
  have hlock : s.persistLock = none := by
    cases hl : s.persistLock with
    | none => rfl
    | some t =>
      obtain ⟨p, ht, -⟩ := hs.persist.exists_point hl
      rw [hq t] at ht
      cases ht
  have hc := hs.covered
  simp only [holder, hlock, Option.bind_none, CoveredAt] at hc
  refine hc.imp_right fun hpend ↦ ?_
  rcases hpend with h | ⟨t, ht⟩
  · exact h
  · rw [hq t] at ht
    cases ht

/-- Over every interleaving of durable writes, deferred writes and flushes, with any outcome
of each disk write, a store at rest with a clear flag has its snapshot on disk, provided no
durable write fails on disk with its change neither on disk nor owed. -/
theorem snapshot_on_disk_of_clean {disk : S} {s : Store T S} {as : List (Action T S)}
    (h : Run (Guarded FailureCovered Step) (file disk) as s) (hq : s.Quiescent)
    (hd : s.dirty = false) : s.disk = s.snapshot := by
  have hs : Inv s := h.invariant Inv (fun _ _ _ hi hstep ↦ step_inv hi hstep.1 hstep.2)
    (file_inv disk)
  rcases hs.quiescent hq with h | h
  · exact h.symm
  · rw [hd] at h
    cases h

/-- The run theorem at a deferred write, a durable write that fails while the flag is set,
and the flush that then succeeds. -/
theorem snapshot_on_disk_after_retry :
    ∃ (s : Store Bool Nat) (as : List (Action Bool Nat)),
      Run (Guarded FailureCovered Step) (file 0) as s ∧ s.Quiescent ∧ s.dirty = false ∧
        s.snapshot = 11 ∧ s.disk = s.snapshot := by
  have run : Run (Guarded FailureCovered Step) (file 0)
      [.writeSnapshotDeferred false (· + 1), .advance false, .advance false,
        .writeSnapshot true (· + 10), .advance true, .advance true, .persistErr true,
        .advance true, .flushIfDirty false, .advance false, .advance false, .advance false,
        .persistOk false, .advance false] _ :=
    .cons ⟨trivial, rfl⟩ <| .cons ⟨trivial, rfl⟩ <| .cons ⟨trivial, rfl⟩ <|
    .cons ⟨trivial, rfl⟩ <| .cons ⟨trivial, rfl⟩ <| .cons ⟨trivial, rfl⟩ <|
    .cons ⟨fun _ ↦ .inr (.inl rfl), rfl⟩ <| .cons ⟨trivial, rfl⟩ <|
    .cons ⟨trivial, rfl⟩ <| .cons ⟨trivial, rfl⟩ <| .cons ⟨trivial, rfl⟩ <|
    .cons ⟨trivial, rfl⟩ <| .cons ⟨trivial, rfl⟩ <| .cons ⟨trivial, rfl⟩ <| .nil _
  refine ⟨_, _, run, ?quiet, rfl, rfl, snapshot_on_disk_of_clean run ?quiet rfl⟩
  exact fun t ↦ by cases t <;> rfl

/-- A single durable write whose disk write fails: the change stays in memory, the file keeps
the old snapshot, and the flag says that nothing is owed. -/
theorem failed_save_leaves_flag_clear :
    ∃ (s : Store Unit Nat) (as : List (Action Unit Nat)),
      Run Step (file 0) as s ∧ s.Quiescent ∧ s.dirty = false ∧ s.disk ≠ s.snapshot := by
  have run : Run Step (file 0)
      [.writeSnapshot () (fun _ ↦ 1), .advance (), .advance (), .persistErr (), .advance ()] _ :=
    .cons rfl <| .cons rfl <| .cons rfl <| .cons rfl <| .single rfl
  exact ⟨_, _, run, fun _ ↦ rfl, rfl, by decide⟩

end Store
end NullRouter.State
