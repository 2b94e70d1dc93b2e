import Mathlib.Order.Bounds.Basic
import NullRouter.Base.Run
import NullRouter.State.Connection

/-!
# Cooldowns over runs of the account table

Runs of `mark_connection_unavailable`, `clear_connection_error` and `select_connection`
(`services/state-actix/src/store.rs:1268–1500`) in any order and at any clock readings, and
what they promise about the account that a selection returns.
-/

namespace NullRouter.State

open NullRouter.Base

/-- One of the three operations on the table of connections, with its clock readings. -/
inductive CooldownAction where
  | mark (update : MarkUnavailableRequest) (clock : Nat)
  | clear (connectionId : String) (model : Option String) (clock : Nat)
  | select (request : SelectConnectionRequest) (clock stamp : Nat)

namespace CooldownAction

/-- Operations that may end a mark's cooldown before its time: any clear of the connection,
and a later mark of it under the same key, whose cooldown takes the place of the first. -/
def Lifts (update : MarkUnavailableRequest) : CooldownAction → Prop
  | .mark later _ => later.connectionId = update.connectionId ∧ later.lockKey = update.lockKey
  | .clear connectionId _ _ => connectionId = update.connectionId
  | .select _ _ _ => False

end CooldownAction

namespace Connections

/-- The table after one operation; an unknown connection leaves it as it is. -/
def cooldownStep (s : Connections) : CooldownAction → Connections
  | .mark update clock => (s.markConnectionUnavailable update clock).getD s
  | .clear connectionId model clock => (s.clearConnectionError connectionId model clock).getD s
  | .select request clock stamp => (s.selectConnection request clock stamp).1

/-- `cooldownStep` as a labelled relation. -/
def CooldownStep (s : Connections) (a : CooldownAction) (s' : Connections) : Prop :=
  s' = s.cooldownStep a

/-- The connection an operation on `id` acts on, if there is one, holds `expiry` under `key`. -/
def HeldUntil (id key expiry : String) (s : Connections) : Prop :=
  ∀ locks, s.locksOf id = some locks → locks[key]? = some expiry

private theorem mark_heldUntil (s : Connections) (update : MarkUnavailableRequest)
    (clock : Nat) :
    HeldUntil update.connectionId update.lockKey
      (millisToIso (satAdd64 (nowMillis clock) update.cooldownMs))
      (s.cooldownStep (.mark update clock)) := by
  intro locks hl
  simp only [cooldownStep] at hl
  cases h : s.markConnectionUnavailable update clock with
  | none =>
    have hnone := updateFirst_eq_none.mp h
    simp [h, locksOf, hnone] at hl
  | some s' =>
    rw [h, Option.getD_some, locksOf_markConnectionUnavailable h, if_pos rfl] at hl
    obtain ⟨before, -, rfl⟩ := Option.map_eq_some_iff.mp hl
    simp

private theorem step_heldUntil {s s' : Connections} {a : CooldownAction}
    {update : MarkUnavailableRequest} {expiry : String}
    (hs : HeldUntil update.connectionId update.lockKey expiry s)
    (ha : ¬ a.Lifts update) (h : s.CooldownStep a s') :
    HeldUntil update.connectionId update.lockKey expiry s' := by
  subst h
  intro locks hl
  cases a with
  | mark later clock =>
    simp only [cooldownStep] at hl
    cases h : s.markConnectionUnavailable later clock with
    | none => exact hs locks (by simpa [h] using hl)
    | some s' =>
      rw [h, Option.getD_some, locksOf_markConnectionUnavailable h] at hl
      split at hl
      · next hid =>
        obtain ⟨before, hb, rfl⟩ := Option.map_eq_some_iff.mp hl
        have hkey : later.lockKey ≠ update.lockKey := fun e ↦ ha ⟨hid.symm, e⟩
        simpa [Std.ExtTreeMap.getElem?_insert, hkey] using hs before hb
      · exact hs locks hl
  | clear connectionId model clock =>
    simp only [cooldownStep] at hl
    cases h : s.clearConnectionError connectionId model clock with
    | none => exact hs locks (by simpa [h] using hl)
    | some s' =>
      rw [h, Option.getD_some,
        locksOf_clearConnectionError_of_ne h (fun e ↦ ha e.symm)] at hl
      exact hs locks hl
  | select request clock stamp =>
    simp only [cooldownStep] at hl
    rw [locksOf_selectConnection] at hl
    exact hs locks hl

private theorem run_heldUntil {s s' : Connections} {as : List CooldownAction}
    {update : MarkUnavailableRequest} {expiry : String}
    (hs : HeldUntil update.connectionId update.lockKey expiry s)
    (ha : ∀ a ∈ as, ¬ a.Lifts update) (h : Run CooldownStep s as s') :
    HeldUntil update.connectionId update.lockKey expiry s' := by
  induction h with
  | nil => exact hs
  | cons head _ ih =>
    exact ih (step_heldUntil hs (ha _ (by simp)) head) fun a hm ↦ ha a (by simp [hm])

end Connections

namespace ProviderConnection

/-- A lock entry that is in force at an instant. -/
def Live (nowMs : Nat) (entry : String) : Prop :=
  ∃ expiry, isoToMillis entry = some expiry ∧ nowMs < expiry

/-- A connection that is not locked has no live entry where its lock is looked up. -/
theorem not_live_of_not_isLocked {c : ProviderConnection} {model : Option String} {nowMs : Nat}
    (h : c.isLocked model nowMs = false) {entry : String} (he : c.lockEntry model = some entry) :
    ¬ Live nowMs entry := by
  rintro ⟨expiry, hparse, hlt⟩
  simp [isLocked, he, hparse, hlt] at h

end ProviderConnection

/-- An active account that has never been used, marked or tested. -/
def ProviderConnection.unused (id provider : String) : ProviderConnection where
  id := id
  provider := provider
  authType := "apikey"
  name := id
  priority := 1
  isActive := true
  createdAt := timestamp 0
  updatedAt := timestamp 0
  email := none
  globalPriority := none
  defaultModel := none
  testStatus := none
  lastError := none
  lastErrorAt := none
  providerSpecificData := none
  apiKey := none
  accessToken := none
  refreshToken := none
  expiresAt := none
  lastUsedAt := none
  consecutiveUseCount := 0
  backoffLevel := 0
  errorCode := none
  modelLocks := ∅

namespace Connections

open ProviderConnection

/-- In every run of marks, clears and selections, at any clock readings: a selected connection
has no live lock of its own for the model, and where it has no entry for the model it has no
live account-level lock; and it is not the connection of an earlier mark whose cooldown has
not passed, for the mark's model, or, after a mark for all models, for any model it has no
entry of its own for, unless since the mark the connection was cleared or marked again under
the same key. -/
theorem selection_respects_cooldowns {s₀ s s' : Connections} {as : List CooldownAction}
    (hrun : Run CooldownStep s₀ as s) {request : SelectConnectionRequest} {clock stamp : Nat}
    {c : ProviderConnection}
    (hsel : s.selectConnection request clock stamp = (s', .selected c)) :
    ((∀ model entry, request.model = some model → c.modelLocks[model]? = some entry →
        ¬ Live (nowMillis clock) entry) ∧
      ((∀ model, request.model = some model → c.modelLocks[model]? = none) →
        ∀ entry, c.modelLocks[modelLockAll]? = some entry → ¬ Live (nowMillis clock) entry)) ∧
    ∀ before update marked after, as = before ++ .mark update marked :: after →
      (∀ a ∈ after, ¬ a.Lifts update) →
      nowMillis clock < satAdd64 (nowMillis marked) update.cooldownMs →
      (request.model = update.model ∨ update.model = none ∧
        ∀ model, request.model = some model → c.modelLocks[model]? = none) →
      s'.find? (·.id == update.connectionId) ≠ some c := by
  obtain ⟨-, -, -, hfree⟩ := selectConnection_selected hsel
  have hown : ∀ model entry, request.model = some model → c.modelLocks[model]? = some entry →
      c.lockEntry request.model = some entry := fun model entry hm he ↦ by
    simp [lockEntry, hm, he]
  have hall : (∀ model, request.model = some model → c.modelLocks[model]? = none) →
      c.lockEntry request.model = c.modelLocks[modelLockAll]? := fun hno ↦ by
    cases hm : request.model with
    | none => simp [lockEntry]
    | some model => simp [lockEntry, hno model hm]
  refine ⟨⟨fun model entry hm he ↦ not_live_of_not_isLocked hfree (hown model entry hm he),
    fun hno entry he ↦ not_live_of_not_isLocked hfree ((hall hno).trans he)⟩, ?_⟩
  rintro before update marked after rfl hlift hsoon hmodel hfind
  obtain ⟨s₁, s₂, hmark, hafter⟩ := hrun.split_append
  subst hmark
  have hheld := run_heldUntil (mark_heldUntil s₁ update marked) hlift hafter
  have hlocks : s.locksOf update.connectionId = some c.modelLocks := by
    rw [← locksOf_selectConnection s request clock stamp, hsel, locksOf, hfind, Option.map_some]
  have hentry := hheld _ hlocks
  refine not_live_of_not_isLocked hfree ?_ ⟨_, isoToMillis_millisToIso (Nat.min_le_right _ _), hsoon⟩
  rcases hmodel with hm | ⟨hm, hno⟩
  · cases hu : update.model with
    | none =>
      rw [MarkUnavailableRequest.lockKey, hu, Option.getD_none] at hentry
      exact (hall fun model h ↦ by rw [hm, hu] at h; cases h).trans hentry
    | some model =>
      rw [MarkUnavailableRequest.lockKey, hu, Option.getD_some] at hentry
      exact hown model _ (hm.trans hu) hentry
  · rw [MarkUnavailableRequest.lockKey, hm, Option.getD_none] at hentry
    exact (hall hno).trans hentry

/-- Fill-first selection of any account of a provider. -/
def anyAccount (provider : String) (model : Option String) : SelectConnectionRequest :=
  ⟨provider, model, [], none, .fillFirst, 3⟩

/-- The rules at two accounts, the first cooling down for the requested model. -/
theorem selection_avoids_marked_account :
    ∃ (s : Connections) (c : ProviderConnection),
      (s.selectConnection (anyAccount "p" (some "m")) 5 5).2 = .selected c ∧ c.id = "b" ∧
        (s.selectConnection (anyAccount "p" (some "m")) 5 5).1.find? (·.id == "a") ≠ some c := by
  let update : MarkUnavailableRequest := ⟨"a", some "m", 429, "quota", 1000, none⟩
  let s := cooldownStep [unused "a" "p", unused "b" "p"] (.mark update 0)
  have hsel : s.selectConnection (anyAccount "p" (some "m")) 5 5 =
      (s, .selected (unused "b" "p")) := by decide
  refine ⟨s, unused "b" "p", by rw [hsel], rfl, ?_⟩
  rw [hsel]
  exact (selection_respects_cooldowns (.single rfl) hsel).2 [] update 0 [] rfl (by simp)
    (by decide) (.inl rfl)

/-- A lock of the model's own, once expired, hides a live lock of the whole account; and a
later, shorter mark of the same model ends a longer one early. -/
theorem marked_account_is_selected :
    (∃ (s : Connections) (c : ProviderConnection) (entry : String),
      Run CooldownStep [unused "a" "p"]
        [.mark ⟨"a", some "m", 502, "", 10, none⟩ 0, .mark ⟨"a", none, 429, "", 1000, none⟩ 0] s ∧
      (s.selectConnection (anyAccount "p" (some "m")) 20 20).2 = .selected c ∧
      c.modelLocks[modelLockAll]? = some entry ∧ Live 20 entry) ∧
    (∃ (s : Connections) (c : ProviderConnection),
      Run CooldownStep [unused "a" "p"]
        [.mark ⟨"a", some "m", 429, "", 1000, none⟩ 0,
          .mark ⟨"a", some "m", 502, "", 1, none⟩ 0] s ∧
      (s.selectConnection (anyAccount "p" (some "m")) 5 5).2 = .selected c ∧ c.id = "a") := by
  refine ⟨?shadowed, ?shortened⟩
  case shadowed =>
    let s := cooldownStep
      (cooldownStep [unused "a" "p"] (.mark ⟨"a", some "m", 502, "", 10, none⟩ 0))
      (.mark ⟨"a", none, 429, "", 1000, none⟩ 0)
    refine ⟨s, s.headD (unused "a" "p"), "unix-ms:1000", .cons rfl (.single rfl), ?_, ?_, 1000, ?_⟩
    all_goals decide
  case shortened =>
    let s := cooldownStep
      (cooldownStep [unused "a" "p"] (.mark ⟨"a", some "m", 429, "", 1000, none⟩ 0))
      (.mark ⟨"a", some "m", 502, "", 1, none⟩ 0)
    refine ⟨s, s.headD (unused "a" "p"), .cons rfl (.single rfl), ?_⟩
    decide

end Connections
end NullRouter.State

/-!
## When a rate-limited provider frees up

What the `retry_at_ms` of `select_connection` says
(`services/state-actix/src/store.rs:220–236,1304–1323`), beside the first instant at which the
same selection would succeed.
-/

namespace NullRouter.State

open NullRouter.Base

private theorem mem_values {m : Std.ExtTreeMap String String} {v : String} :
    v ∈ m.values ↔ ∃ k : String, m[k]? = some v := by
  have hvalues : m.values = m.toList.map Prod.snd := by
    show m.foldr (fun _ v l ↦ v :: l) [] = _
    rw [Std.ExtTreeMap.foldr_eq_foldr_toList]
    induction m.toList with
    | nil => rfl
    | cons e l ih => simp [ih]
  rw [hvalues]
  simp [Std.ExtTreeMap.mem_toList_iff_getElem?_eq_some]

/-- No stamp reads back as an instant beyond a `u64`. -/
theorem isoToMillis_le {value : String} {n : Nat} (h : isoToMillis value = some n) :
    n ≤ u64Max := by
  rw [isoToMillis, parseU64, Option.ite_none_right_eq_some] at h
  obtain ⟨⟨-, -, hle⟩, hn⟩ := h
  rw [← Option.some.inj hn]
  exact hle

namespace ProviderConnection

/-- The instant at which the lock consulted for a model expires. -/
def lockedUntil (c : ProviderConnection) (model : Option String) : Option Nat :=
  (c.lockEntry model).bind isoToMillis

/-- A lock of any model that is in force at `nowMs` and expires at `expiry`. -/
def HoldsLock (c : ProviderConnection) (nowMs expiry : Nat) : Prop :=
  ∃ key entry : String, c.modelLocks[key]? = some entry ∧ isoToMillis entry = some expiry ∧
    nowMs < expiry

/-- The connections that a selection looks at. -/
def Serves (c : ProviderConnection) (request : SelectConnectionRequest) : Prop :=
  c.provider = request.provider ∧ c.isActive = true

/-- A connection is locked for a model until its consulted lock expires. -/
theorem isLocked_iff {c : ProviderConnection} {model : Option String} {nowMs : Nat} :
    c.isLocked model nowMs = true ↔
      ∃ expiry, c.lockedUntil model = some expiry ∧ nowMs < expiry := by
  rw [isLocked, lockedUntil, Option.any_eq_true]
  simp only [decide_eq_true_eq]

/-- The consulted lock of a locked connection is one of the locks it holds. -/
theorem holdsLock_of_lockedUntil {c : ProviderConnection} {model : Option String}
    {nowMs expiry : Nat} (h : c.lockedUntil model = some expiry) (hnow : nowMs < expiry) :
    c.HoldsLock nowMs expiry := by
  obtain ⟨entry, hentry, hexpiry⟩ := Option.bind_eq_some_iff.mp h
  rw [lockEntry, Option.or_eq_some_iff] at hentry
  rcases hentry with hown | ⟨-, haccount⟩
  · obtain ⟨key, -, hkey⟩ := Option.bind_eq_some_iff.mp hown
    exact ⟨key, entry, hkey, hexpiry, hnow⟩
  · exact ⟨modelLockAll, entry, haccount, hexpiry, hnow⟩

private theorem mem_expiries {c : ProviderConnection} {nowMs expiry : Nat} :
    expiry ∈ (c.modelLocks.values.filterMap isoToMillis).filter (nowMs < ·) ↔
      c.HoldsLock nowMs expiry := by
  simp only [List.mem_filter, List.mem_filterMap, mem_values, decide_eq_true_eq, HoldsLock]
  constructor
  · rintro ⟨⟨entry, ⟨key, hkey⟩, hexpiry⟩, hnow⟩
    exact ⟨key, entry, hkey, hexpiry, hnow⟩
  · rintro ⟨key, entry, hkey, hexpiry, hnow⟩
    exact ⟨⟨entry, ⟨key, hkey⟩, hexpiry⟩, hnow⟩

/-- `earliest_lock_ms` is the least expiry of the locks held, if there are any. -/
theorem earliestLockMs_eq_some {c : ProviderConnection} {nowMs expiry : Nat} :
    c.earliestLockMs nowMs = some expiry ↔ IsLeast {v | c.HoldsLock nowMs v} expiry := by
  rw [earliestLockMs, List.min?_eq_some_iff]
  simp only [mem_expiries]
  rfl

/-- A connection that holds a lock has an earliest one. -/
theorem exists_earliestLockMs {c : ProviderConnection} {nowMs expiry : Nat}
    (h : c.HoldsLock nowMs expiry) :
    ∃ earliest ≤ expiry, c.earliestLockMs nowMs = some earliest := by
  cases he : c.earliestLockMs nowMs with
  | none =>
    rw [earliestLockMs, List.min?_eq_none_iff] at he
    have hmem := mem_expiries.mpr h
    rw [he] at hmem
    cases hmem
  | some earliest => exact ⟨earliest, (earliestLockMs_eq_some.mp he).2 h, rfl⟩

end ProviderConnection

namespace Connections

open ProviderConnection

/-- The instants at which a selection from the table, left as it is, succeeds. -/
def freeAt (s : Connections) (request : SelectConnectionRequest) : Set Nat :=
  {t | ∃ stamp c, (s.selectConnection request t stamp).2 = .selected c}

/-- A selection succeeds once the consulted lock of some eligible connection has expired. -/
theorem mem_freeAt {s : Connections} {request : SelectConnectionRequest} {t : Nat} :
    t ∈ s.freeAt request ↔ ∃ c ∈ s, c.Serves request ∧ c.id ∉ request.exclude ∧
      ∀ expiry, c.lockedUntil request.model = some expiry → expiry ≤ nowMillis t := by
  have hlocked : ∀ c : ProviderConnection, c.isLocked request.model (nowMillis t) = false ↔
      ∀ expiry, c.lockedUntil request.model = some expiry → expiry ≤ nowMillis t := by
    intro c
    rw [← Bool.not_eq_true, isLocked_iff]
    push Not
    rfl
  simp only [freeAt, Set.mem_ofPred_eq, exists_selected_iff, hlocked, Serves, and_assoc,
    exists_const]

/-- The locks that `retry_at_ms` counts: those of any model, of every serving connection that
is locked for the requested one. -/
def CountedLock (s : Connections) (request : SelectConnectionRequest) (nowMs expiry : Nat) :
    Prop :=
  ∃ c ∈ s, c.Serves request ∧ c.isLocked request.model nowMs = true ∧ c.HoldsLock nowMs expiry

/-- The instant reported is the least expiry of the locks counted. -/
theorem isLeast_retryAt {s : Connections} {request : SelectConnectionRequest}
    {nowMs retryAt : Nat} {lastError : Option String} {code : Option Nat}
    (h : s.unavailable request nowMs = .allRateLimited retryAt lastError code) :
    IsLeast {v | s.CountedLock request nowMs v} retryAt := by
  unfold unavailable at h
  simp only at h
  split at h
  · cases h
  · next retry hmin =>
    cases h
    rw [List.min?_eq_some_iff] at hmin
    obtain ⟨hmem, hle⟩ := hmin
    constructor
    · obtain ⟨c, hc, hearliest⟩ := List.mem_filterMap.mp hmem
      obtain ⟨hmatching, hlocked⟩ := List.mem_filter.mp hc
      obtain ⟨hc, hserves⟩ := mem_filterMap_matching.mp hmatching
      exact ⟨c, hc, hserves, hlocked, (earliestLockMs_eq_some.mp hearliest).1⟩
    · rintro v ⟨c, hc, hserves, hlocked, hholds⟩
      obtain ⟨earliest, hev, hearliest⟩ := exists_earliestLockMs hholds
      have hmatching := mem_filterMap_matching.mpr ⟨hc, hserves⟩
      have hcounted : c ∈ ((s.matching request).filterMap (s[·]?)).filter
          (·.isLocked request.model nowMs) := List.mem_filter.mpr ⟨hmatching, hlocked⟩
      exact le_trans (hle earliest (List.mem_filterMap.mpr ⟨c, hcounted, hearliest⟩)) hev

private theorem locked_of_allRateLimited {s : Connections} {request : SelectConnectionRequest}
    {clock stamp retryAt : Nat} {lastError : Option String} {code : Option Nat}
    (h : (s.selectConnection request clock stamp).2 = .allRateLimited retryAt lastError code)
    {c : ProviderConnection} (hc : c ∈ s) (hserves : c.Serves request)
    (hexclude : c.id ∉ request.exclude) : c.isLocked request.model (nowMillis clock) = true := by
  by_contra hfree
  obtain ⟨d, hd⟩ := (@exists_selected_iff s request clock stamp).mpr
    ⟨c, hc, hserves.1, hserves.2, hexclude, Bool.not_eq_true _ ▸ hfree⟩
  rw [hd] at h
  cases h

private theorem unavailable_of_allRateLimited {s : Connections}
    {request : SelectConnectionRequest} {clock stamp retryAt : Nat} {lastError : Option String}
    {code : Option Nat}
    (h : (s.selectConnection request clock stamp).2 = .allRateLimited retryAt lastError code) :
    s.unavailable request (nowMillis clock) = .allRateLimited retryAt lastError code := by
  unfold selectConnection at h
  simp only at h
  split at h
  · cases h
  · split at h
    · exact h
    · generalize s.choose request _ _ = picked at h
      cases hget : picked.1[picked.2]? with
      | none => rw [hget] at h; cases h
      | some c => rw [hget] at h; cases h

/-- The instant reported is the first at which the selection succeeds exactly if an eligible
connection's own consulted lock expires no later than every lock counted. -/
theorem retryAt_isLeast_iff {s : Connections} {request : SelectConnectionRequest}
    {clock stamp retryAt : Nat} {lastError : Option String} {code : Option Nat}
    (h : (s.selectConnection request clock stamp).2 = .allRateLimited retryAt lastError code) :
    IsLeast (s.freeAt request) retryAt ↔
      ∃ c ∈ s, c.Serves request ∧ c.id ∉ request.exclude ∧
        ∃ expiry, c.lockedUntil request.model = some expiry ∧
          ∀ v, s.CountedLock request (nowMillis clock) v → expiry ≤ v := by
  obtain ⟨hcounted, hleast⟩ := isLeast_retryAt (unavailable_of_allRateLimited h)
  have hlocked : ∀ c ∈ s, c.Serves request → c.id ∉ request.exclude →
      ∃ expiry, c.lockedUntil request.model = some expiry ∧ nowMillis clock < expiry :=
    fun c hc hserves hexclude ↦ isLocked_iff.mp (locked_of_allRateLimited h hc hserves hexclude)
  have hretry : nowMillis retryAt = retryAt := by
    obtain ⟨c, -, -, -, key, entry, -, hexpiry, -⟩ := hcounted
    have := isoToMillis_le hexpiry
    rw [nowMillis]
    omega
  constructor
  · rintro ⟨hfree, -⟩
    obtain ⟨c, hc, hserves, hexclude, hexpired⟩ := mem_freeAt.mp hfree
    obtain ⟨expiry, huntil, -⟩ := hlocked c hc hserves hexclude
    refine ⟨c, hc, hserves, hexclude, expiry, huntil, ?_⟩
    intro v hv
    have hle := hexpired expiry huntil
    rw [hretry] at hle
    exact le_trans hle (hleast hv)
  · rintro ⟨c, hc, hserves, hexclude, expiry, huntil, hfirst⟩
    have hall := locked_of_allRateLimited h hc hserves hexclude
    have hown : s.CountedLock request (nowMillis clock) expiry := by
      obtain ⟨expiry', huntil', hnow⟩ := isLocked_iff.mp hall
      rw [huntil] at huntil'
      cases huntil'
      exact ⟨c, hc, hserves, hall, holdsLock_of_lockedUntil huntil hnow⟩
    have heq : expiry = retryAt := le_antisymm (hfirst _ hcounted) (hleast hown)
    subst heq
    constructor
    · rw [mem_freeAt]
      refine ⟨c, hc, hserves, hexclude, ?_⟩
      intro expiry' huntil'
      rw [huntil] at huntil'
      cases huntil'
      exact hretry.ge
    · intro t ht
      obtain ⟨d, hd, hdserves, hdexclude, hexpired⟩ := mem_freeAt.mp ht
      obtain ⟨until', huntil', hnow⟩ := hlocked d hd hdserves hdexclude
      have hcount : s.CountedLock request (nowMillis clock) until' :=
        ⟨d, hd, hdserves, locked_of_allRateLimited h hd hdserves hdexclude,
          holdsLock_of_lockedUntil huntil' hnow⟩
      have := hfirst until' hcount
      have := hexpired until' huntil'
      rw [nowMillis] at this
      omega

/-- One account, cooling down for the model `m` until 10 and for no other. -/
theorem retryAt_of_one_lock :
    let s := cooldownStep [unused "a" "p"] (.mark ⟨"a", some "m", 429, "", 10, none⟩ 0)
    IsLeast (s.freeAt (anyAccount "p" (some "m"))) 10 := by
  intro s
  have hselect : (s.selectConnection (anyAccount "p" (some "m")) 5 5).2 =
      .allRateLimited 10 (some "") (some 429) := by decide
  have hmem : s = [s.headD (unused "a" "p")] := by decide
  refine (retryAt_isLeast_iff hselect).mpr
    ⟨s.headD (unused "a" "p"), ?_, ⟨by decide, by decide⟩, by decide, 10, by decide, ?_⟩
  · rw [hmem]
    exact List.mem_singleton.mpr rfl
  · intro v hv
    exact (isLeast_retryAt (unavailable_of_allRateLimited hselect)).2 hv

/-- One account, cooling down for `m` until 1000 and for `other` until 10. -/
def twoModels : Connections :=
  cooldownStep
    (cooldownStep [unused "a" "p"] (.mark ⟨"a", some "m", 429, "", 1000, none⟩ 0))
    (.mark ⟨"a", some "other", 429, "", 10, none⟩ 0)

/-- Two accounts, cooling down for `m` until 10 and until 1000. -/
def twoAccounts : Connections :=
  cooldownStep
    (cooldownStep [unused "a" "p", unused "b" "p"] (.mark ⟨"a", some "m", 429, "", 10, none⟩ 0))
    (.mark ⟨"b", some "m", 429, "", 1000, none⟩ 0)

/-- A selection for `m` after account `a` has been tried. -/
def afterAccountA : SelectConnectionRequest :=
  { anyAccount "p" (some "m") with exclude := ["a"] }

/-- The lock of another model, and the lock of an account already tried, are each reported as
the instant to retry, and at it the selection still fails. -/
theorem retryAt_of_other_locks :
    ((twoModels.selectConnection (anyAccount "p" (some "m")) 5 5).2 =
        .allRateLimited 10 (some "") (some 429) ∧
      ¬ IsLeast (twoModels.freeAt (anyAccount "p" (some "m"))) 10) ∧
    ((twoAccounts.selectConnection afterAccountA 5 5).2 =
        .allRateLimited 10 (some "") (some 429) ∧
      ¬ IsLeast (twoAccounts.freeAt afterAccountA) 10) := by
  refine ⟨⟨by decide, ?model⟩, by decide, ?tried⟩
  case model =>
    rintro ⟨⟨stamp, hfree⟩, -⟩
    rw [exists_selected_iff] at hfree
    revert hfree
    decide
  case tried =>
    rintro ⟨⟨stamp, hfree⟩, -⟩
    rw [exists_selected_iff] at hfree
    revert hfree
    decide

end Connections
end NullRouter.State
