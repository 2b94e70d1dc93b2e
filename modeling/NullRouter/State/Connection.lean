import Std.Data.ExtTreeMap
import NullRouter.Base.Json
import NullRouter.Base.Lists
import NullRouter.Base.Text

/-!
# Provider connections and account selection

`ProviderConnection` and the three operations that read and write its cooldowns,
`services/state-actix/src/store.rs:154–340,1268–1500`. Each operation is its closure over
the table of connections, with the clock readings it takes as arguments.
-/

namespace NullRouter.State

open NullRouter.Base

/-- `ProviderConnection`, `store.rs:154`. -/
structure ProviderConnection where
  id : String
  provider : String
  authType : String
  name : String
  priority : Nat
  isActive : Bool
  createdAt : String
  updatedAt : String
  email : Option String
  globalPriority : Option Nat
  defaultModel : Option String
  testStatus : Option String
  lastError : Option String
  lastErrorAt : Option String
  providerSpecificData : Option (Std.ExtTreeMap String Json)
  apiKey : Option String
  accessToken : Option String
  refreshToken : Option String
  expiresAt : Option String
  lastUsedAt : Option String
  consecutiveUseCount : Nat
  backoffLevel : Nat
  errorCode : Option Nat
  modelLocks : Std.ExtTreeMap String String
  deriving DecidableEq

/-- Account-level lock key, `MODEL_LOCK_ALL`. -/
def modelLockAll : String := "__all"

/-- `now_millis`, `store.rs:315`: the clock as a `u64`. -/
def nowMillis (clock : Nat) : Nat := min clock u64Max

/-- `timestamp`, `store.rs:2062`. -/
def timestamp (clock : Nat) : String := "unix-ms:" ++ toString clock

/-- `millis_to_iso`, `store.rs:325`. -/
def millisToIso (millis : Nat) : String := "unix-ms:" ++ toString millis

/-- `iso_to_millis`, `store.rs:333`. -/
def isoToMillis (value : String) : Option Nat :=
  parseU64 (trim ((stripPrefix? "unix-ms:" value).getD value))

/-- A stamp written by the store reads back as the instant it was written for. -/
theorem isoToMillis_millisToIso {n : Nat} (h : n ≤ u64Max) :
    isoToMillis (millisToIso n) = some n := by
  rw [isoToMillis, millisToIso, stripPrefix?_append, Option.getD_some, Nat.toString_eq_repr,
    trim_repr, parseU64_repr h]

namespace ProviderConnection

/-- The lock entry consulted for a model: its own, else the account-level one. -/
def lockEntry (c : ProviderConnection) (model : Option String) : Option String :=
  (model.bind (c.modelLocks[·]?)).or c.modelLocks[modelLockAll]?

/-- `ProviderConnection::is_locked`, `store.rs:220`. -/
def isLocked (c : ProviderConnection) (model : Option String) (nowMs : Nat) : Bool :=
  ((c.lockEntry model).bind isoToMillis).any (nowMs < ·)

/-- `ProviderConnection::earliest_lock_ms`, `store.rs:230`. -/
def earliestLockMs (c : ProviderConnection) (nowMs : Nat) : Option Nat :=
  ((c.modelLocks.values.filterMap isoToMillis).filter (nowMs < ·)).min?

end ProviderConnection

/-- `FallbackStrategy`, `store.rs:242`. -/
inductive FallbackStrategy where
  | fillFirst
  | roundRobin
  deriving DecidableEq

/-- `SelectConnectionRequest`, `store.rs:252`. -/
structure SelectConnectionRequest where
  provider : String
  model : Option String
  exclude : List String
  preferred : Option String
  strategy : FallbackStrategy
  stickyLimit : Nat

/-- `ConnectionSelection`, `store.rs:270`. -/
inductive ConnectionSelection where
  | selected (connection : ProviderConnection)
  | noCredentials
  | allRateLimited (retryAtMs : Nat) (lastError : Option String) (lastErrorCode : Option Nat)
  | exhausted
  deriving DecidableEq

/-- `MarkUnavailableRequest`, `store.rs:286`. -/
structure MarkUnavailableRequest where
  connectionId : String
  model : Option String
  status : Nat
  reason : String
  cooldownMs : Nat
  backoffLevel : Option Nat

namespace MarkUnavailableRequest

/-- The lock key a mark writes. -/
def lockKey (u : MarkUnavailableRequest) : String := u.model.getD modelLockAll

end MarkUnavailableRequest

/-- The table of connections of a snapshot. -/
abbrev Connections := List ProviderConnection

namespace Connections

/-- Positions of the active connections of the requested provider, `store.rs:1277`. -/
def matching (s : Connections) (request : SelectConnectionRequest) : List Nat :=
  (s.zipIdx.filter fun e ↦ e.1.provider == request.provider && e.1.isActive).map Prod.snd

/-- Of the matching positions, those neither excluded nor cooling down, `store.rs:1291`. -/
def available (s : Connections) (request : SelectConnectionRequest) (nowMs : Nat) : List Nat :=
  (s.matching request).filter fun i ↦
    s[i]?.any fun c ↦ !request.exclude.any (· == c.id) && !c.isLocked request.model nowMs

/-- The order of `pick_round_robin` among accounts: never used first, then least recently
used, then priority. -/
def useOrder (s : Connections) (i j : Nat) : Ordering :=
  let key := fun k ↦ (s[k]?).elim (true, "", u32Max) fun c ↦
    (c.lastUsedAt.isSome, c.lastUsedAt.getD "", c.priority)
  ((compare (key i).1 (key j).1).then (compare (key i).2.1 (key j).2.1)).then
    (compare (key i).2.2 (key j).2.2)

/-- The most recently used account, while it still has calls left, `store.rs:1374–1401`. -/
def stickyPick (s : Connections) (available : List Nat) (stickyLimit : Nat) : Option Nat :=
  (maxBy
    (fun i j ↦ compare ((s[i]?.bind (·.lastUsedAt)).getD "") ((s[j]?.bind (·.lastUsedAt)).getD ""))
    (available.filter fun i ↦ s[i]?.any (·.lastUsedAt.isSome))).filter
    fun i ↦ s[i]?.any (·.consecutiveUseCount < stickyLimit)

/-- `pick_round_robin`, `store.rs:1368`. -/
def pickRoundRobin (s : Connections) (available : List Nat) (stickyLimit : Nat)
    (now : String) : Connections × Nat :=
  let stay := s.stickyPick available stickyLimit
  let chosen := stay.getD ((minBy s.useOrder available).getD 0)
  (s.modify chosen fun c ↦ { c with
    consecutiveUseCount := if stay.isSome then satAdd32 c.consecutiveUseCount 1 else 1
    lastUsedAt := some now }, chosen)

/-- The pinned account, else the strategy's pick, `store.rs:1328`. -/
def choose (s : Connections) (request : SelectConnectionRequest) (available : List Nat)
    (now : String) : Connections × Nat :=
  match request.preferred.bind fun wanted ↦ available.find? fun i ↦ s[i]?.any (·.id == wanted) with
  | some pinned => (s, pinned)
  | none =>
    match request.strategy with
    | .roundRobin => s.pickRoundRobin available request.stickyLimit now
    | .fillFirst =>
      let priority := fun i ↦ s[i]?.elim u32Max (·.priority)
      (s, (minBy (fun i j ↦ compare (priority i) (priority j)) available).getD 0)

/-- Why no account is available, `store.rs:1304`. -/
def unavailable (s : Connections) (request : SelectConnectionRequest) (nowMs : Nat) :
    ConnectionSelection :=
  let locked := ((s.matching request).filterMap (s[·]?)).filter (·.isLocked request.model nowMs)
  match (locked.filterMap (·.earliestLockMs nowMs)).min? with
  | none => .exhausted
  | some retryAtMs =>
    .allRateLimited retryAtMs (locked.head?.bind (·.lastError)) (locked.head?.bind (·.errorCode))

/-- `select_connection`, `store.rs:1268`, at one reading of the clock for the cooldowns and
another for the use stamp. -/
def selectConnection (s : Connections) (request : SelectConnectionRequest)
    (clock stamp : Nat) : Connections × ConnectionSelection :=
  let available := s.available request (nowMillis clock)
  if s.matching request = [] then (s, .noCredentials)
  else if available = [] then (s, s.unavailable request (nowMillis clock))
  else
    let picked := s.choose request available (timestamp stamp)
    (picked.1, picked.1[picked.2]?.elim .noCredentials .selected)

/-- `mark_connection_unavailable`, `store.rs:1434`; `none` where the connection is unknown. -/
def markConnectionUnavailable (s : Connections) (update : MarkUnavailableRequest)
    (clock : Nat) : Option Connections :=
  updateFirst (·.id == update.connectionId) (fun c ↦ { c with
    modelLocks := c.modelLocks.insert update.lockKey
      (millisToIso (satAdd64 (nowMillis clock) update.cooldownMs))
    testStatus := some "unavailable"
    lastError := some (String.ofList (update.reason.toList.take 100))
    errorCode := some update.status
    lastErrorAt := some (millisToIso (nowMillis clock))
    backoffLevel := update.backoffLevel.getD c.backoffLevel }) s

/-- The locks that survive `clear_connection_error`: not the model's, not the account's, and
not expired. -/
def survivingLocks (locks : Std.ExtTreeMap String String) (model : Option String)
    (nowMs : Nat) : Std.ExtTreeMap String String :=
  locks.filter fun key expiry ↦
    if model = some key ∨ key = modelLockAll then false
    else (isoToMillis expiry).any (nowMs < ·)

/-- `clear_connection_error`, `store.rs:1468`; `none` where the connection is unknown. -/
def clearConnectionError (s : Connections) (connectionId : String) (model : Option String)
    (clock : Nat) : Option Connections :=
  updateFirst (·.id == connectionId) (fun c ↦
    let locks := survivingLocks c.modelLocks model (nowMillis clock)
    if locks.isEmpty then { c with
      modelLocks := locks, testStatus := some "active", lastError := none, lastErrorAt := none,
      errorCode := none, backoffLevel := 0 }
    else { c with modelLocks := locks }) s

/-- The locks of the connection that an operation on `id` acts on. -/
def locksOf (s : Connections) (id : String) : Option (Std.ExtTreeMap String String) :=
  (s.find? (·.id == id)).map (·.modelLocks)

private theorem locksOf_congr {s s' : Connections}
    (h : s'.map (fun c ↦ (c.id, c.modelLocks)) = s.map (fun c ↦ (c.id, c.modelLocks)))
    (id : String) : s'.locksOf id = s.locksOf id := by
  have hview : ∀ t : Connections, t.locksOf id =
      ((t.map fun c ↦ (c.id, c.modelLocks)).find? (·.1 == id)).map Prod.snd := by
    intro t
    rw [List.find?_map, Option.map_map]
    rfl
  rw [hview, hview, h]

private theorem mem_matching {s : Connections} {request : SelectConnectionRequest} {i : Nat}
    (h : i ∈ s.matching request) :
    ∃ c, s[i]? = some c ∧ c.provider = request.provider ∧ c.isActive = true := by
  obtain ⟨⟨c, j⟩, he, rfl⟩ := List.mem_map.mp h
  obtain ⟨hmem, hc⟩ := List.mem_filter.mp he
  exact ⟨c, List.mem_zipIdx_iff_getElem?.mp hmem, by simpa using hc⟩

/-- What an available position has been checked for. -/
theorem mem_available {s : Connections} {request : SelectConnectionRequest} {nowMs i : Nat}
    (h : i ∈ s.available request nowMs) :
    ∃ c, s[i]? = some c ∧ c.provider = request.provider ∧ c.isActive = true ∧
      c.id ∉ request.exclude ∧ c.isLocked request.model nowMs = false := by
  obtain ⟨hmem, hc⟩ := List.mem_filter.mp h
  obtain ⟨c, hi, hp, ha⟩ := mem_matching hmem
  simp only [hi, Option.any_some, Bool.and_eq_true, Bool.not_eq_true', List.any_eq_false] at hc
  exact ⟨c, hi, hp, ha, fun hx ↦ hc.1 _ hx (by simp), hc.2⟩

/-- A connection of the table that passes those checks has an available position. -/
theorem exists_mem_available {s : Connections} {request : SelectConnectionRequest} {nowMs : Nat}
    {c : ProviderConnection} (hc : c ∈ s) (hprovider : c.provider = request.provider)
    (hactive : c.isActive = true) (hexclude : c.id ∉ request.exclude)
    (hlocked : c.isLocked request.model nowMs = false) :
    ∃ i ∈ s.available request nowMs, s[i]? = some c := by
  obtain ⟨i, hi⟩ := List.getElem?_of_mem hc
  refine ⟨i, ?_, hi⟩
  refine List.mem_filter.mpr ⟨List.mem_map.mpr ⟨(c, i), List.mem_filter.mpr ⟨?_, ?_⟩, rfl⟩, ?_⟩
  · exact List.mem_zipIdx_iff_getElem?.mpr hi
  · simp [hprovider, hactive]
  · have hany : request.exclude.any (· == c.id) = false := by
      rw [List.any_eq_false]
      rintro x hx hxid
      exact hexclude (eq_of_beq hxid ▸ hx)
    simp only [hi, Option.any_some, hany, hlocked, Bool.not_false, Bool.and_self]

/-- The connections at the matching positions are those of the provider that are active. -/
theorem mem_filterMap_matching {s : Connections} {request : SelectConnectionRequest}
    {c : ProviderConnection} :
    c ∈ (s.matching request).filterMap (s[·]?) ↔
      c ∈ s ∧ c.provider = request.provider ∧ c.isActive = true := by
  rw [List.mem_filterMap]
  constructor
  · rintro ⟨i, hi, hget⟩
    obtain ⟨d, hd, hprovider, hactive⟩ := mem_matching hi
    rw [hd] at hget
    cases hget
    exact ⟨List.mem_of_getElem? hd, hprovider, hactive⟩
  · rintro ⟨hc, hprovider, hactive⟩
    obtain ⟨i, hi⟩ := List.getElem?_of_mem hc
    refine ⟨i, List.mem_map.mpr ⟨(c, i), List.mem_filter.mpr ⟨?_, ?_⟩, rfl⟩, hi⟩
    · exact List.mem_zipIdx_iff_getElem?.mpr hi
    · simp [hprovider, hactive]

private theorem getD_minBy_mem {available : List Nat} {cmp : Nat → Nat → Ordering}
    (h : available ≠ []) : (minBy cmp available).getD 0 ∈ available := by
  have hsome : (minBy cmp available).isSome = true := minBy_isSome h
  obtain ⟨i, hi⟩ := Option.isSome_iff_exists.mp hsome
  rw [hi]
  exact minBy_mem hi

private theorem stickyPick_mem {s : Connections} {available : List Nat} {stickyLimit i : Nat}
    (h : s.stickyPick available stickyLimit = some i) : i ∈ available := by
  obtain ⟨hmax, -⟩ := Option.filter_eq_some_iff.mp h
  exact List.mem_of_mem_filter (maxBy_mem hmax)

/-- What selection checks of a connection and no selection changes. -/
private def standing (c : ProviderConnection) :
    String × String × Bool × Std.ExtTreeMap String String :=
  (c.id, c.provider, c.isActive, c.modelLocks)

/-- The account chosen is an available one. -/
theorem choose_mem {s : Connections} {request : SelectConnectionRequest}
    {available : List Nat} {now : String} (h : available ≠ []) :
    (s.choose request available now).2 ∈ available := by
  unfold choose
  split
  · next pinned hpin =>
    obtain ⟨wanted, -, hfind⟩ := Option.bind_eq_some_iff.mp hpin
    exact List.mem_of_find?_eq_some hfind
  · split
    · unfold pickRoundRobin
      cases hs : s.stickyPick available request.stickyLimit with
      | some i => exact stickyPick_mem hs
      | none => exact getD_minBy_mem h
    · exact getD_minBy_mem h

section Map

variable {β : Type} {f : ProviderConnection → β}

private theorem map_choose
    (hf : ∀ c count used, f { c with consecutiveUseCount := count, lastUsedAt := used } = f c)
    (s : Connections) (request : SelectConnectionRequest) (available : List Nat) (now : String) :
    (s.choose request available now).1.map f = s.map f := by
  unfold choose
  split
  · rfl
  · split
    · exact map_modify (fun _ ↦ hf _ _ _) s _
    · rfl

/-- Selection changes the use count and the use stamp of an account only. -/
theorem map_selectConnection
    (hf : ∀ c count used, f { c with consecutiveUseCount := count, lastUsedAt := used } = f c)
    (s : Connections) (request : SelectConnectionRequest) (clock stamp : Nat) :
    (s.selectConnection request clock stamp).1.map f = s.map f := by
  unfold selectConnection
  simp only
  split
  · rfl
  · split
    · rfl
    · exact map_choose hf s request _ _

end Map

private theorem unavailable_ne_selected {s : Connections} {request : SelectConnectionRequest}
    {nowMs : Nat} {c : ProviderConnection} : s.unavailable request nowMs ≠ .selected c := by
  unfold unavailable
  simp only
  split <;> exact nofun

/-- A selected connection is active, of the requested provider, not excluded, and not locked
by the entry consulted for the requested model. -/
theorem selectConnection_selected {s s' : Connections} {request : SelectConnectionRequest}
    {clock stamp : Nat} {c : ProviderConnection}
    (h : s.selectConnection request clock stamp = (s', .selected c)) :
    c.provider = request.provider ∧ c.isActive = true ∧ c.id ∉ request.exclude ∧
      c.isLocked request.model (nowMillis clock) = false := by
  unfold selectConnection at h
  simp only at h
  split at h
  · cases h
  · split at h
    · exact absurd (Prod.mk.inj h).2 unavailable_ne_selected
    · next hne =>
      have hmem := @choose_mem s request _ (timestamp stamp) hne
      have hmap := map_choose (f := standing) (fun _ _ _ ↦ rfl) s request
        (s.available request (nowMillis clock)) (timestamp stamp)
      generalize s.choose request _ _ = picked at h hmem hmap
      obtain ⟨c₀, hc₀, hp, ha, hx, hl⟩ := mem_available hmem
      cases hget : picked.1[picked.2]? with
      | none => rw [hget] at h; cases h
      | some c' =>
        rw [hget] at h
        cases h
        -- The connection chosen is the available one up to its use stamp.
        have hst : standing c = standing c₀ := by
          have := congrArg (·[picked.2]?) hmap
          simpa [List.getElem?_map, hget, hc₀] using this
        simp only [standing, Prod.mk.injEq] at hst
        obtain ⟨e₁, e₂, e₃, e₄⟩ := hst
        rw [e₁, e₂, e₃]
        refine ⟨hp, ha, hx, ?_⟩
        simpa only [ProviderConnection.isLocked, ProviderConnection.lockEntry, e₄] using hl

/-- A selected connection is in the table. -/
theorem mem_of_selectConnection {s s' : Connections} {request : SelectConnectionRequest}
    {clock stamp : Nat} {c : ProviderConnection}
    (h : s.selectConnection request clock stamp = (s', .selected c)) : c ∈ s' := by
  unfold selectConnection at h
  simp only at h
  split at h
  · cases h
  · split at h
    · exact absurd (Prod.mk.inj h).2 unavailable_ne_selected
    · generalize s.choose request _ _ = picked at h
      cases hget : picked.1[picked.2]? with
      | none => rw [hget] at h; cases h
      | some c' =>
        rw [hget] at h
        cases h
        exact List.mem_of_getElem? hget

private theorem selected_stands {s s' : Connections} {request : SelectConnectionRequest}
    {clock stamp : Nat} {c : ProviderConnection}
    (h : s.selectConnection request clock stamp = (s', .selected c)) :
    ∃ d ∈ s, d.id = c.id ∧ d.provider = request.provider ∧ d.isActive = true ∧
      d.id ∉ request.exclude ∧ d.isLocked request.model (nowMillis clock) = false := by
  obtain ⟨hprovider, hactive, hexclude, hlocked⟩ := selectConnection_selected h
  have hmap := map_selectConnection (f := standing) (fun _ _ _ ↦ rfl) s request clock stamp
  rw [h] at hmap
  have hmem : standing c ∈ s.map standing := by
    rw [← hmap]
    exact List.mem_map_of_mem (mem_of_selectConnection h)
  obtain ⟨d, hd, hst⟩ := List.mem_map.mp hmem
  simp only [standing, Prod.mk.injEq] at hst
  obtain ⟨e₁, e₂, e₃, e₄⟩ := hst
  refine ⟨d, hd, e₁, e₂.trans hprovider, e₃.trans hactive, e₁ ▸ hexclude, ?_⟩
  rw [← hlocked, ProviderConnection.isLocked, ProviderConnection.isLocked,
    ProviderConnection.lockEntry, ProviderConnection.lockEntry, e₄]

/-- A selection succeeds exactly if some connection passes its checks. -/
theorem exists_selected_iff {s : Connections} {request : SelectConnectionRequest}
    {clock stamp : Nat} :
    (∃ c, (s.selectConnection request clock stamp).2 = .selected c) ↔
      ∃ c ∈ s, c.provider = request.provider ∧ c.isActive = true ∧ c.id ∉ request.exclude ∧
        c.isLocked request.model (nowMillis clock) = false := by
  constructor
  · rintro ⟨c, hc⟩
    have h : s.selectConnection request clock stamp =
        ((s.selectConnection request clock stamp).1, .selected c) := Prod.ext rfl hc
    obtain ⟨d, hd, -, hchecks⟩ := selected_stands h
    exact ⟨d, hd, hchecks⟩
  · rintro ⟨c, hc, hprovider, hactive, hexclude, hlocked⟩
    obtain ⟨i, hi, -⟩ := exists_mem_available hc hprovider hactive hexclude hlocked
    have hne : s.available request (nowMillis clock) ≠ [] := List.ne_nil_of_mem hi
    have hmatch : s.matching request ≠ [] :=
      List.ne_nil_of_mem (List.mem_of_mem_filter hi)
    obtain ⟨d, hd, -⟩ := mem_available (@choose_mem s request _ (timestamp stamp) hne)
    have hmap := map_choose (f := standing) (fun _ _ _ ↦ rfl) s request
      (s.available request (nowMillis clock)) (timestamp stamp)
    simp only [selectConnection, if_neg hmatch, if_neg hne]
    generalize s.choose request _ _ = picked at hd hmap ⊢
    -- The table keeps its length, so the position chosen holds a connection after the choice.
    cases hget : picked.1[picked.2]? with
    | some e => exact ⟨e, rfl⟩
    | none =>
      have := congrArg (·[picked.2]?) hmap
      simp [List.getElem?_map, hget, hd] at this

/-- A pinned connection is the one selected exactly if it is available. -/
theorem selectConnection_pinned {s s' : Connections} {request : SelectConnectionRequest}
    {clock stamp : Nat} {c : ProviderConnection} {id : String}
    (h : s.selectConnection request clock stamp = (s', .selected c))
    (hpin : request.preferred = some id) :
    c.id = id ↔ ∃ d ∈ s, d.id = id ∧ d.provider = request.provider ∧ d.isActive = true ∧
      d.id ∉ request.exclude ∧ d.isLocked request.model (nowMillis clock) = false := by
  constructor
  · rintro rfl
    exact selected_stands h
  · rintro ⟨d, hd, hid, hprovider, hactive, hexclude, hlocked⟩
    obtain ⟨i, havailable, hi⟩ := exists_mem_available hd hprovider hactive hexclude hlocked
    obtain ⟨j, hj⟩ : ∃ j, (s.available request (nowMillis clock)).find?
        (fun k ↦ s[k]?.any (·.id == id)) = some j := by
      rw [← Option.isSome_iff_exists, List.find?_isSome]
      exact ⟨i, havailable, by simp [hi, hid]⟩
    have hchoose : s.choose request (s.available request (nowMillis clock)) (timestamp stamp) =
        (s, j) := by
      rw [choose, hpin, Option.bind_some, hj]
    have hfound := List.find?_some hj
    unfold selectConnection at h
    simp only [hchoose] at h
    split at h
    · cases h
    · split at h
      · exact absurd (Prod.mk.inj h).2 unavailable_ne_selected
      · cases hget : s[j]? with
        | none => rw [hget] at h; cases h
        | some e =>
          rw [hget] at h hfound
          cases h
          simpa using hfound

/-- Selection leaves every connection's locks. -/
theorem locksOf_selectConnection (s : Connections) (request : SelectConnectionRequest)
    (clock stamp : Nat) (id : String) :
    (s.selectConnection request clock stamp).1.locksOf id = s.locksOf id := by
  apply locksOf_congr
  have h := congrArg (List.map fun v ↦ (v.1, v.2.2.2))
    (map_selectConnection (f := standing) (fun _ _ _ ↦ rfl) s request clock stamp)
  simpa [List.map_map, Function.comp_def, standing] using h

/-- A mark writes its key in the connection it names and leaves the others. -/
theorem locksOf_markConnectionUnavailable {s s' : Connections}
    {update : MarkUnavailableRequest} {clock : Nat}
    (h : s.markConnectionUnavailable update clock = some s') (id : String) :
    s'.locksOf id = if id = update.connectionId then
        (s.locksOf id).map (·.insert update.lockKey
          (millisToIso (satAdd64 (nowMillis clock) update.cooldownMs)))
      else s.locksOf id := by
  unfold locksOf
  split
  · next e =>
    subst e
    unfold markConnectionUnavailable at h
    rw [find?_updateFirst_self ?_ h, Option.map_map, Option.map_map]
    · rfl
    · exact fun _ hx ↦ hx
  · next e =>
    rw [find?_updateFirst_of_ne (fun c hc ↦ ?_) h]
    have hne : c.id ≠ id := fun k ↦ e (by rw [← k]; simpa using hc)
    simp [hne]

/-- A clear acts on the connection it names and leaves the others. -/
theorem locksOf_clearConnectionError_of_ne {s s' : Connections} {connectionId id : String}
    {model : Option String} {clock : Nat}
    (h : s.clearConnectionError connectionId model clock = some s') (hid : id ≠ connectionId) :
    s'.locksOf id = s.locksOf id := by
  unfold locksOf
  rw [find?_updateFirst_of_ne (fun c hc ↦ ?_) h]
  have hne : c.id ≠ id := fun k ↦ hid (by rw [← k]; simpa using hc)
  refine ⟨by simp [hne], ?_⟩
  dsimp only
  split <;> simp [hne]

end Connections
end NullRouter.State
