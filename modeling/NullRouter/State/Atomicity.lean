import NullRouter.State.Operations

/-!
# What a failed operation leaves behind

Every operation that goes through `write_snapshot` (`services/state-actix/src/store.rs:1739`),
performed as a whole: the checks made before the lock, the closure, and `persist`
(`store.rs:1831`) with the outcome the disk gives it.
-/

namespace NullRouter.State

open NullRouter.Base

/-- `StoreError`, `store.rs:16`, less the lock that a panic poisons. -/
inductive StoreError where
  | io
  | atRest
  | json
  | random
  deriving DecidableEq

/-- The errors an operation answers with. -/
inductive OperationError where
  | notFound
  | user (e : UserError)
  | inUse (boundConnectionCount : Nat)
  | store (e : StoreError)
  deriving DecidableEq

/-- `StateStore` between operations: whether it has a `path`, the snapshot, and the file. -/
structure StateStore where
  fileBacked : Bool
  snapshot : StateSnapshot
  disk : StateSnapshot
  dirty : Bool
  deriving DecidableEq

/-- An operation that goes through `write_snapshot`. What bcrypt, SHA-256 and the random
generator answer is part of the call. -/
inductive Operation where
  | createConnection (request : ProviderConnectionInput)
  | updateConnection (id : String) (input : ProviderConnectionUpdate)
  | deleteConnection (id : String)
  | updateConnectionCredentials (id : String) (update : CredentialUpdate)
  | createCombo (name : String) (kind : Option String) (models : List String)
  | updateCombo (id : String) (update : ComboUpdate)
  | deleteCombo (id : String)
  | createProxyPool (input : ProxyPoolInput)
  | updateProxyPool (id : String) (input : ProxyPoolUpdate)
  | deleteProxyPool (id : String)
  | updateSettings (update : SettingsUpdate)
  | applyImportedSettings (imported : Std.ExtTreeMap String Json)
  | saveTranslatorLog (file content : String)
  | setDisabledModels (providerAlias : String) (ids : List String)
  | clearDisabledModels (providerAlias : String)
  | addCustomModel (providerAlias id : String) (modelType name : Option String)
  | deleteCustomModel (providerAlias id : String)
  | setModelAlias (name model : String)
  | deleteModelAlias (name : String)
  | createKey (name : String) (digest : Option (List UInt8))
  | updateKey (id : String) (isActive : Option Bool)
  | deleteKey (id : String)
  | createUser (username password : String) (displayName email : Option String) (role : Role)
      (bcrypt : Option String)
  | updateUser (id : String) (update : UserUpdate) (bcrypt : Option String)
  | deleteUser (id : String)
  | createProviderNode (input : ProviderNodeInput)
  | updateProviderNode (id : String) (input : ProviderNodeInput)
  | deleteProviderNode (id : String)

namespace Operation

/-- The error an operation answers with before it takes a lock, if it does. -/
def precheck : Operation → Option OperationError
  | .createKey _ none => some (.store .random)
  | .createUser username password _ _ _ bcrypt =>
    match normaliseUsername username, hashPassword password bcrypt with
    | .error e, _ => some (.user e)
    | .ok _, .error e => some (.user e)
    | .ok _, .ok _ => none
  | .updateUser _ update bcrypt =>
    match update.password.map (hashPassword · bcrypt) with
    | some (.error e) => some (.user e)
    | _ => none
  | _ => none

/-- The edit would leave the record it finds, if it finds one, as it is. -/
def Unedited {α : Type} (p : α → Bool) (f : α → α) (l : List α) : Prop :=
  ∀ x, l.find? p = some x → f x = x

/-- An operation that finds nothing to change: it is refused, or what it would remove is not
there, or every value it would write is already the value. -/
def Idle (op : Operation) (now mint : Nat) (s : StateSnapshot) : Prop :=
  match op with
  | .createConnection request =>
    let incoming := request.toRecord (nextId "conn" mint s.providerConnections.length)
      (request.priority.getD
        (min ((s.providerConnections.filter (·.provider == request.provider)).length + 1) u32Max))
      (timestamp now)
    ∃ existing, s.providerConnections.find? (fun c ↦ c.provider == incoming.provider &&
      c.authType == "apikey" && c.name == incoming.name) = some existing ∧
      existing.merge incoming = existing
  | .updateConnection id input => Unedited (·.id == id) (·.edit now input) s.providerConnections
  | .deleteConnection id => ∀ c ∈ s.providerConnections, c.id ≠ id
  | .updateConnectionCredentials id update =>
    Unedited (·.id == id) (·.editCredentials now update) s.providerConnections
  | .createCombo _ _ _ | .createProxyPool _ | .createKey _ _ | .createProviderNode _ => False
  | .updateCombo id update => Unedited (·.id == id) (·.edit now update) s.combos
  | .deleteCombo id => ∀ c ∈ s.combos, c.id ≠ id
  | .updateProxyPool id input => Unedited (·.id == id) (·.edit now input) s.proxyPools
  | .deleteProxyPool id =>
    0 < boundConnectionCount s.providerConnections id ∨ ∀ p ∈ s.proxyPools, p.id ≠ id
  | .updateSettings update => s.settings.patch update = s.settings
  | .applyImportedSettings imported => s.settings.importFrom imported = s.settings
  | .saveTranslatorLog file content => s.translatorLogs[file]? = some (cappedLog content)
  | .setDisabledModels providerAlias ids => s.disabledModels[providerAlias]? =
      if normalisedIds ids = [] then none else some (normalisedIds ids)
  | .clearDisabledModels providerAlias => s.disabledModels[providerAlias]? = none
  | .addCustomModel providerAlias id modelType name =>
    ∃ m, s.customModels.find? (fun m ↦ m.providerAlias == providerAlias && m.id == id) = some m ∧
      m.modelType = modelType ∧ m.name = name
  | .deleteCustomModel providerAlias id =>
    ∀ m ∈ s.customModels, ¬ (m.providerAlias = providerAlias ∧ m.id = id)
  | .setModelAlias name model => s.modelAliases[name]? = some model
  | .deleteModelAlias name => s.modelAliases[name]? = none
  | .updateKey id isActive =>
    Unedited (·.id == id) (fun k : ApiKeyRecord ↦ { k with isActive := isActive.getD k.isActive })
      s.apiKeys
  | .deleteKey id => ∀ k ∈ s.apiKeys, k.id ≠ id
  | .createUser username _ _ _ _ _ =>
    ∃ name, normaliseUsername username = .ok name ∧ ∃ u ∈ s.users, u.username = name
  | .updateUser id update bcrypt =>
    s.losingAdmin id update = true ∨
      Unedited (·.id == id) (·.edit now update
        ((update.password.map (hashPassword · bcrypt)).bind Except.toOption)) s.users
  | .deleteUser id => ∀ u, s.users.find? (·.id == id) = some u →
      u.role = .admin ∧ u.isActive = true ∧ s.otherAdmin id = false
  | .updateProviderNode id input => Unedited (·.id == id) (·.edit now input) s.providerNodes
  | .deleteProviderNode id => ∀ n ∈ s.providerNodes, n.id ≠ id

/-- An edit that answers `None` where the record is unknown. -/
def orNotFound (s : StateSnapshot) :
    Option StateSnapshot → Except OperationError Unit × StateSnapshot
  | some s' => (.ok (), s')
  | none => (.error .notFound, s)

/-- A removal that answers `false` where there was nothing to remove. -/
def orAbsent (r : Bool × StateSnapshot) : Except OperationError Unit × StateSnapshot :=
  (if r.1 then .ok () else .error .notFound, r.2)

/-- A user operation that may be refused inside the closure. -/
def orRefused (s : StateSnapshot) :
    Except UserError StateSnapshot → Except OperationError Unit × StateSnapshot
  | .ok s' => (.ok (), s')
  | .error e => (.error (.user e), s)

/-- The closure an operation runs under `write_snapshot`, with its answer. -/
def closure (op : Operation) (now mint : Nat) (s : StateSnapshot) :
    Except OperationError Unit × StateSnapshot :=
  match op with
  | .createConnection request => (.ok (), (s.createConnection request now mint).2)
  | .updateConnection id input => orNotFound s (s.updateConnection id input now)
  | .deleteConnection id => orAbsent (s.deleteConnection id)
  | .updateConnectionCredentials id update =>
    orNotFound s (s.updateConnectionCredentials id update now)
  | .createCombo name kind models => (.ok (), (s.createCombo name kind models now).2)
  | .updateCombo id update => orNotFound s (s.updateCombo id update now)
  | .deleteCombo id => orAbsent (s.deleteCombo id)
  | .createProxyPool input => (.ok (), (s.createProxyPool input now mint).2)
  | .updateProxyPool id input => orNotFound s (s.updateProxyPool id input now)
  | .deleteProxyPool id =>
    match s.deleteProxyPool id with
    | (.deleted, s') => (.ok (), s')
    | (.notFound, s') => (.error .notFound, s')
    | (.inUse n, s') => (.error (.inUse n), s')
  | .updateSettings update => (.ok (), s.updateSettings update)
  | .applyImportedSettings imported => (.ok (), s.applyImportedSettings imported)
  | .saveTranslatorLog file content => (.ok (), s.saveTranslatorLog file content)
  | .setDisabledModels providerAlias ids => (.ok (), s.setDisabledModels providerAlias ids)
  | .clearDisabledModels providerAlias => orAbsent (s.clearDisabledModels providerAlias)
  | .addCustomModel providerAlias id modelType name =>
    (.ok (), (s.addCustomModel providerAlias id modelType name now).2)
  | .deleteCustomModel providerAlias id => orAbsent (s.deleteCustomModel providerAlias id)
  | .setModelAlias name model => (.ok (), s.setModelAlias name model)
  | .deleteModelAlias name => orAbsent (s.deleteModelAlias name)
  | .createKey name digest => (.ok (), (s.createKey name (digest.getD []) now mint).2)
  | .updateKey id isActive => orNotFound s (s.updateKey id isActive)
  | .deleteKey id => orAbsent (s.deleteKey id)
  | .createUser username password displayName email role bcrypt =>
    match normaliseUsername username, hashPassword password bcrypt with
    | .ok username, .ok hash =>
      orRefused s (s.createUser username hash displayName email role now mint)
    | _, _ => (.ok (), s)
  | .updateUser id update bcrypt =>
    orRefused s (s.updateUser id update ((update.password.map (hashPassword · bcrypt)).bind
      Except.toOption) now)
  | .deleteUser id => orRefused s (s.deleteUser id)
  | .createProviderNode input => (.ok (), (s.createProviderNode input now).2)
  | .updateProviderNode id input => orNotFound s (s.updateProviderNode id input now)
  | .deleteProviderNode id => orAbsent (s.deleteProviderNode id)

private theorem orNotFound_eq_iff {α : Type} {p : α → Bool} {f : α → α} {l : List α}
    {s : StateSnapshot} {set : List α → StateSnapshot} (hset : ∀ x, set x = s ↔ x = l) :
    (orNotFound s ((updateFirst p f l).map set)).2 = s ↔ Unedited p f l := by
  cases h : updateFirst p f l with
  | none =>
    have hnone := updateFirst_eq_none.mp h
    simp [orNotFound, Unedited, hnone]
  | some l' => simp [orNotFound, hset, updateFirst_eq_self_iff h, Unedited]

private theorem insert_eq_iff {τ : Type} {m : Std.ExtTreeMap String τ} {key : String} {value : τ} :
    m.insert key value = m ↔ m[key]? = some value := by
  refine ⟨fun h ↦ by rw [← h]; simp, fun h ↦ ?_⟩
  apply Std.ExtTreeMap.ext_getElem?
  intro other
  rw [Std.ExtTreeMap.getElem?_insert]
  split
  · next e => rw [← Std.LawfulEqCmp.eq_of_compare e, h]
  · rfl

private theorem erase_eq_iff {τ : Type} {m : Std.ExtTreeMap String τ} {key : String} :
    m.erase key = m ↔ m[key]? = none := by
  refine ⟨fun h ↦ by rw [← h]; simp, fun h ↦ ?_⟩
  apply Std.ExtTreeMap.ext_getElem?
  intro other
  rw [Std.ExtTreeMap.getElem?_erase]
  split
  · next e => rw [← Std.LawfulEqCmp.eq_of_compare e, h]
  · rfl

/-- The closure of an operation that passed its checks leaves the snapshot exactly when the
operation finds nothing to change. -/
private theorem closure_eq_iff {op : Operation} {now mint : Nat} {s : StateSnapshot}
    (h : op.precheck = none) : (op.closure now mint s).2 = s ↔ op.Idle now mint s := by
  cases op with
  | createConnection request =>
    simp only [closure, StateSnapshot.createConnection, Idle]
    split
    · next merged hm =>
      simp only [StateSnapshot.ext_iff, and_self, and_true, true_and, updateFirst_eq_self_iff hm]
      cases hf : s.providerConnections.find? _ with
      | none => rw [updateFirst_eq_none.mpr hf] at hm; cases hm
      | some existing => simp
    · next hm => simp [StateSnapshot.ext_iff, updateFirst_eq_none.mp hm]
  | updateConnection _ _ | updateConnectionCredentials _ _ | updateCombo _ _
  | updateProxyPool _ _ | updateKey _ _ | updateProviderNode _ _ =>
    exact orNotFound_eq_iff (by simp [StateSnapshot.ext_iff])
  | createCombo _ _ _ | createProxyPool _ | createKey _ _ | createProviderNode _ =>
    simp [closure, StateSnapshot.createCombo, StateSnapshot.createProxyPool,
      StateSnapshot.createKey, StateSnapshot.createProviderNode, StateSnapshot.ext_iff, Idle]
  | deleteConnection _ | deleteCombo _ | deleteKey _ =>
    simp [closure, orAbsent, StateSnapshot.deleteConnection, StateSnapshot.deleteCombo,
      StateSnapshot.deleteKey, StateSnapshot.ext_iff, Idle]
  | updateSettings _ | applyImportedSettings _ | saveTranslatorLog _ _ | setModelAlias _ _ =>
    simp [closure, StateSnapshot.updateSettings, StateSnapshot.applyImportedSettings,
      StateSnapshot.saveTranslatorLog, StateSnapshot.setModelAlias, StateSnapshot.ext_iff, Idle,
      insert_eq_iff]
  | clearDisabledModels _ | deleteModelAlias _ =>
    simp [closure, orAbsent, StateSnapshot.clearDisabledModels, StateSnapshot.deleteModelAlias,
      StateSnapshot.ext_iff, Idle, erase_eq_iff]
  | deleteProxyPool id =>
    simp only [closure, StateSnapshot.deleteProxyPool, Idle]
    by_cases hb : 0 < boundConnectionCount s.providerConnections id
    · simp [hb]
    · by_cases hl : (s.proxyPools.filter (·.id != id)).length = s.proxyPools.length
      · simp [hb, hl, StateSnapshot.ext_iff]
      · simp [hb, hl, StateSnapshot.ext_iff]
  | setDisabledModels providerAlias ids =>
    simp only [closure, StateSnapshot.setDisabledModels, Idle]
    split <;> simp [StateSnapshot.ext_iff, insert_eq_iff, erase_eq_iff]
  | addCustomModel providerAlias id modelType name =>
    simp only [closure, StateSnapshot.addCustomModel, Idle]
    split
    · next models hm =>
      simp only [StateSnapshot.ext_iff, and_self, and_true, true_and, updateFirst_eq_self_iff hm]
      cases hf : s.customModels.find? _ with
      | none => rw [updateFirst_eq_none.mpr hf] at hm; cases hm
      | some m =>
        cases m
        simp [eq_comm]
    · next hm => simp [StateSnapshot.ext_iff, updateFirst_eq_none.mp hm]
  | deleteCustomModel providerAlias id =>
    simp [closure, orAbsent, StateSnapshot.deleteCustomModel, StateSnapshot.ext_iff, Idle,
      List.filter_eq_self, imp_iff_not_or]
  | createUser username password displayName email role bcrypt =>
    simp only [closure, Idle]
    cases hn : normaliseUsername username with
    | error e => simp [precheck, hn] at h
    | ok name =>
      cases hp : hashPassword password bcrypt with
      | error e => simp [precheck, hn, hp] at h
      | ok hash =>
        have hany : s.users.any (·.username == name) = true ↔ ∃ u ∈ s.users, u.username = name := by
          simp
        simp only [StateSnapshot.createUser, Except.ok.injEq, exists_eq_left', ← hany]
        cases s.users.any (·.username == name) <;> simp [orRefused, StateSnapshot.ext_iff]
  | updateUser id update bcrypt =>
    simp only [closure, StateSnapshot.updateUser, Idle]
    generalize (update.password.map (hashPassword · bcrypt)).bind Except.toOption = hash
    by_cases hl : s.losingAdmin id update = true
    · simp [hl, orRefused]
    · cases hu : updateFirst (·.id == id) (·.edit now update hash) s.users with
      | none =>
        have hnone := updateFirst_eq_none.mp hu
        simp [hl, orRefused, Unedited, hnone]
      | some users =>
        simp [hl, orRefused, StateSnapshot.ext_iff, updateFirst_eq_self_iff hu, Unedited]
  | deleteUser id =>
    simp only [closure, StateSnapshot.deleteUser, Idle]
    cases hf : s.users.find? (·.id == id) with
    | none => simp [orRefused]
    | some u =>
      have hid : u.id = id := by simpa using List.find?_some hf
      have hmem := List.mem_of_find?_eq_some hf
      by_cases hr : u.role = .admin ∧ u.isActive = true ∧ s.otherAdmin id = false
      · simp [hr, orRefused]
      · have hkeep : s.users.filter (·.id != id) ≠ s.users := fun e ↦ by
          have := List.filter_eq_self.mp e u hmem
          simp [hid] at this
        simp only [Bool.not_eq_true', hr, if_false, orRefused, StateSnapshot.ext_iff, hkeep]
        simpa using hr
  | deleteProviderNode id =>
    simp only [closure, orAbsent, StateSnapshot.deleteProviderNode, Idle]
    by_cases hk : ∀ n ∈ s.providerNodes, n.id ≠ id
    · have hself : s.providerNodes.filter (·.id != id) = s.providerNodes := by
        simpa [List.filter_eq_self] using hk
      simpa [hself] using hk
    · have hkeep : s.providerNodes.filter (·.id != id) ≠ s.providerNodes := fun e ↦
        hk (by simpa [List.filter_eq_self] using e)
      simp [StateSnapshot.ext_iff, hkeep, hk]

private theorem orNotFound_error {s : StateSnapshot} {r : Option StateSnapshot}
    {e : OperationError} (h : (orNotFound s r).1 = .error e) : (orNotFound s r).2 = s := by
  cases r with
  | none => rfl
  | some s' => cases h

private theorem orRefused_error {s : StateSnapshot} {r : Except UserError StateSnapshot}
    {e : OperationError} (h : (orRefused s r).1 = .error e) : (orRefused s r).2 = s := by
  cases r with
  | error _ => rfl
  | ok s' => cases h

private theorem orAbsent_error {r : Bool × StateSnapshot} {e : OperationError}
    (h : (orAbsent r).1 = .error e) : r.1 = false := by
  unfold orAbsent at h
  split at h
  · cases h
  · next hr => simpa using hr

private theorem filter_of_length {α : Type} {p : α → Bool} {l : List α}
    (h : ((l.filter p).length != l.length) = false) : l.filter p = l :=
  List.filter_eq_self.mpr (List.length_filter_eq_length_iff.mp (by simpa using h))

private theorem deleteProxyPool_refused {s s' : StateSnapshot} {id : String}
    {r : DeleteProxyPoolResult} (h : s.deleteProxyPool id = (r, s')) (hr : r ≠ .deleted) :
    s' = s := by
  unfold StateSnapshot.deleteProxyPool at h
  simp only at h
  split at h
  · exact (Prod.mk.inj h).2.symm
  · split at h
    · next hl =>
      rw [filter_of_length (by simpa using hl)] at h
      exact (Prod.mk.inj h).2.symm
    · exact absurd (Prod.mk.inj h).1.symm hr

/-- A closure that answers with an error has changed nothing. -/
theorem closure_error {op : Operation} {now mint : Nat} {s : StateSnapshot}
    {e : OperationError} (h : (op.closure now mint s).1 = .error e) :
    (op.closure now mint s).2 = s := by
  cases op with
  | createConnection _ | createCombo _ _ _ | createProxyPool _ | updateSettings _
  | applyImportedSettings _ | saveTranslatorLog _ _ | setDisabledModels _ _
  | addCustomModel _ _ _ _ | setModelAlias _ _ | createKey _ _ | createProviderNode _ => cases h
  | updateConnection _ _ | updateConnectionCredentials _ _ | updateCombo _ _
  | updateProxyPool _ _ | updateKey _ _ | updateProviderNode _ _ => exact orNotFound_error h
  | updateUser _ _ _ | deleteUser _ => exact orRefused_error h
  | deleteConnection _ | deleteCombo _ | deleteKey _ | deleteCustomModel _ _ =>
    have hkeep := filter_of_length (orAbsent_error h)
    simp only [closure, orAbsent, StateSnapshot.deleteConnection, StateSnapshot.deleteCombo,
      StateSnapshot.deleteKey, StateSnapshot.deleteCustomModel, hkeep]
  | deleteProviderNode id =>
    have hflag := orAbsent_error h
    have hkeep := filter_of_length hflag
    simp only [closure, orAbsent, StateSnapshot.deleteProviderNode, hkeep, bne_self_eq_false,
      Bool.false_eq_true, if_false]
  | clearDisabledModels providerAlias =>
    have hflag : s.disabledModels[providerAlias]?.isSome = false := orAbsent_error h
    have hnone := Option.isSome_eq_false_iff.mp hflag
    rw [Option.isNone_iff_eq_none] at hnone
    simp only [closure, orAbsent, StateSnapshot.clearDisabledModels, erase_eq_iff.mpr hnone]
  | deleteModelAlias name =>
    have hflag : s.modelAliases[name]?.isSome = false := orAbsent_error h
    have hnone := Option.isSome_eq_false_iff.mp hflag
    rw [Option.isNone_iff_eq_none] at hnone
    simp only [closure, orAbsent, StateSnapshot.deleteModelAlias, erase_eq_iff.mpr hnone]
  | deleteProxyPool id =>
    simp only [closure] at h ⊢
    cases hd : s.deleteProxyPool id with
    | mk r s' =>
      cases r with
      | deleted => simp [hd] at h
      | notFound => exact deleteProxyPool_refused hd nofun
      | inUse n => exact deleteProxyPool_refused hd nofun
  | createUser username password displayName email role bcrypt =>
    simp only [closure] at h ⊢
    split at h
    · exact orRefused_error h
    · cases h

end Operation

namespace StateStore

/-- `persist`, `store.rs:1831`: a store without a path has nothing to write; otherwise the
file takes the snapshot, or `io` is the error that left it alone. -/
def persist (s : StateStore) (io : Option StoreError) : Except StoreError StateStore :=
  if s.fileBacked then
    match io with
    | none => .ok { s with disk := s.snapshot }
    | some e => .error e
  else .ok s

/-- `write_snapshot`, `store.rs:1739`: the closure runs on the live snapshot, and `?` leaves
with its change in place. -/
def writeSnapshot {T : Type} (s : StateStore) (mutate : StateSnapshot → T × StateSnapshot)
    (io : Option StoreError) : Except StoreError T × StateStore :=
  let (result, snapshot) := mutate s.snapshot
  let mutated := { s with snapshot := snapshot }
  match mutated.persist io with
  | .error e => (.error e, mutated)
  | .ok saved => (.ok result, { saved with dirty := false })

/-- One operation of the store with the clock readings it makes and what the disk answers. -/
def perform (s : StateStore) (op : Operation) (now mint : Nat) (io : Option StoreError) :
    Except OperationError Unit × StateStore :=
  match op.precheck with
  | some e => (.error e, s)
  | none =>
    match s.writeSnapshot (op.closure now mint) io with
    | (.error e, s') => (.error (.store e), s')
    | (.ok reply, s') => (reply, s')

/-- The disk write of an operation does not fail: there is no file, or it is written. -/
def Saves (s : StateStore) (io : Option StoreError) : Prop := s.fileBacked = false ∨ io = none

/-- For every operation in every state of the store: an error from it leaves the snapshot that
later reads see as it was exactly where the disk write does not fail, or the operation is
refused before the lock, or it finds nothing to change. -/
theorem failed_operation_is_atomic_iff (s : StateStore) (op : Operation) (now mint : Nat)
    (io : Option StoreError) :
    ((∃ e, (s.perform op now mint io).1 = .error e) →
        (s.perform op now mint io).2.snapshot = s.snapshot) ↔
      s.Saves io ∨ op.precheck ≠ none ∨ op.Idle now mint s.snapshot := by
  unfold perform
  cases hpre : op.precheck with
  | some e => simp
  | none =>
    simp only [writeSnapshot, persist, Saves]
    cases hfile : s.fileBacked with
    | false =>
      simp only [Bool.false_eq_true, if_false, true_or, iff_true]
      exact fun ⟨e, he⟩ ↦ Operation.closure_error he
    | true =>
      cases io with
      | none =>
        simp only [if_true, or_true, true_or, iff_true]
        exact fun ⟨e, he⟩ ↦ Operation.closure_error he
      | some e =>
        simp only [if_true, Except.error.injEq, exists_eq', true_imp_iff,
          Operation.closure_eq_iff hpre]
        simp

/-- Turning the key requirement on, on a store whose disk write fails: the answer is an error
and the requirement is on for every later read. -/
theorem failed_settings_write_is_visible :
    let s : StateStore := ⟨true, {}, {}, false⟩
    let r := s.perform (.updateSettings { requireApiKey := some true }) 0 0 (some .io)
    r.1 = .error (.store .io) ∧ r.2.snapshot.settings.requireApiKey = true ∧
      r.2.snapshot ≠ s.snapshot := by
  refine ⟨rfl, rfl, fun h ↦ ?_⟩
  exact absurd (congrArg (·.settings.requireApiKey) h) (by decide)

end StateStore
end NullRouter.State
