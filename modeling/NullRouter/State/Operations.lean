import Mathlib.Data.List.Nodup
import NullRouter.State.Snapshot

/-!
# Operations on the snapshot

The closures that `services/state-actix` runs under `write_snapshot`: connections, combos,
proxy pools, settings and models (`store.rs:704–1262,1505–1690`), keys (`api_keys/store.rs`),
users (`users/store.rs`) and provider nodes (`provider_nodes/store.rs`). A closure takes the
readings of the clock it makes, `now` for `timestamp` and `mint` for `next_id`, and yields its
answer with the snapshot it leaves. SHA-256 and bcrypt are taken by their results.
-/

namespace NullRouter.State

open NullRouter.Base

/-- `next_id`, `store.rs:2058`. -/
def nextId (pre : String) (mint index : Nat) : String :=
  pre ++ "_" ++ toString mint ++ "_" ++ toString (index + 1)

/-- The counting loops of `next_combo_id` and `next_provider_node_id`: the first number from
`index` on that is not taken, within `fuel` tries. -/
def firstFree (taken : Nat → Bool) (index : Nat) : Nat → Nat
  | 0 => index
  | fuel + 1 => if taken index then firstFree taken (index + 1) fuel else index

/-- `next_combo_id`, `store.rs:2066`. -/
def nextComboId (combos : List Combo) : String :=
  let candidate := fun i : Nat ↦ "combo_" ++ toString i
  candidate (firstFree (fun i ↦ combos.any (·.id == candidate i)) (combos.length + 1)
    (combos.length + 1))

/-- `provider_node_id_prefix`, `provider_nodes/store.rs:106`. -/
def providerNodeIdPrefix (nodeType : String) : String :=
  if nodeType = "openai-compatible" then "openai-compatible-"
  else if nodeType = "anthropic-compatible" then "anthropic-compatible-"
  else if nodeType = "custom-embedding" then "custom-embedding-"
  else "provider-node-"

/-- `next_provider_node_id`, `provider_nodes/store.rs:82`. -/
def nextProviderNodeId (nodes : List ProviderNode) (nodeType : String) : String :=
  let candidate := fun i : Nat ↦ providerNodeIdPrefix nodeType ++ toString i
  candidate (firstFree (fun i ↦ nodes.any (·.id == candidate i))
    ((nodes.filter (·.nodeType == nodeType)).length + 1) (nodes.length + 1))

namespace ProviderConnection

/-- `ProviderConnection::public`, `store.rs:2015`. -/
def toPublic (c : ProviderConnection) : ProviderConnection :=
  { c with apiKey := none, accessToken := none, refreshToken := none }

/-- `merge_connection`, `store.rs:2024`. -/
def merge (existing incoming : ProviderConnection) : ProviderConnection :=
  { existing with
    priority := incoming.priority
    isActive := incoming.isActive
    updatedAt := incoming.updatedAt
    globalPriority := incoming.globalPriority
    defaultModel := incoming.defaultModel
    testStatus := incoming.testStatus
    lastError := incoming.lastError
    lastErrorAt := incoming.lastErrorAt
    providerSpecificData := incoming.providerSpecificData
    apiKey := incoming.apiKey }

/-- The edit of `update_connection`, `store.rs:816`. -/
def edit (now : Nat) (input : ProviderConnectionUpdate) (c : ProviderConnection) :
    ProviderConnection :=
  { c with
    name := input.name.getD c.name
    priority := input.priority.getD c.priority
    globalPriority := input.globalPriority.or c.globalPriority
    defaultModel := input.defaultModel.or c.defaultModel
    isActive := input.isActive.getD c.isActive
    apiKey := input.apiKey.or c.apiKey
    testStatus := input.testStatus.or c.testStatus
    lastError := input.lastError.or c.lastError
    lastErrorAt := input.lastErrorAt.or c.lastErrorAt
    providerSpecificData := input.providerSpecificData.or c.providerSpecificData
    updatedAt := timestamp now }

/-- The edit of `update_connection_credentials`, `store.rs:1664`; settings are merged. -/
def editCredentials (now : Nat) (update : CredentialUpdate) (c : ProviderConnection) :
    ProviderConnection :=
  { c with
    accessToken := update.accessToken.or c.accessToken
    refreshToken := update.refreshToken.or c.refreshToken
    expiresAt := update.expiresAt.or c.expiresAt
    providerSpecificData := match update.providerSpecificData with
      | none => c.providerSpecificData
      | some incoming => some (incoming.toList.foldl (fun settings e ↦ settings.insert e.1 e.2)
          (c.providerSpecificData.getD ∅))
    updatedAt := timestamp now }

end ProviderConnection

namespace ProviderConnectionInput

/-- The record `create_connection` builds from a request, `store.rs:772`. -/
def toRecord (request : ProviderConnectionInput) (id : String) (priority : Nat)
    (now : String) : ProviderConnection where
  id := id
  provider := request.provider
  authType := request.authType.getD "apikey"
  name := request.name
  priority := priority
  isActive := request.isActive.getD true
  createdAt := now
  updatedAt := now
  email := request.email
  globalPriority := request.globalPriority
  defaultModel := request.defaultModel
  testStatus := request.testStatus.or (some "unknown")
  lastError := request.lastError
  lastErrorAt := request.lastErrorAt
  providerSpecificData := request.providerSpecificData
  apiKey := request.apiKey
  accessToken := request.accessToken
  refreshToken := request.refreshToken
  expiresAt := request.expiresAt
  lastUsedAt := none
  consecutiveUseCount := 0
  backoffLevel := 0
  errorCode := none
  modelLocks := ∅

end ProviderConnectionInput

/-- The edit of `update_combo`, `store.rs:918`. -/
def Combo.edit (now : Nat) (update : ComboUpdate) (c : Combo) : Combo :=
  { c with
    name := update.name.getD c.name
    kind := if update.kindSet then update.kind else c.kind
    models := update.models.getD c.models
    updatedAt := timestamp now }

/-- The edit of `update_proxy_pool`, `store.rs:1127`. -/
def ProxyPool.edit (now : Nat) (input : ProxyPoolUpdate) (p : ProxyPool) : ProxyPool :=
  { p with
    name := input.name.getD p.name
    proxyUrl := input.proxyUrl.getD p.proxyUrl
    noProxy := input.noProxy.getD p.noProxy
    isActive := input.isActive.getD p.isActive
    strictProxy := input.strictProxy.getD p.strictProxy
    proxyType := input.proxyType.getD p.proxyType
    testStatus := input.testStatus.getD p.testStatus
    lastTestedAt := input.lastTestedAt.or p.lastTestedAt
    lastError := input.lastError.getD p.lastError
    updatedAt := timestamp now }

/-- The edit of `update_provider_node`, `provider_nodes/store.rs:49`. -/
def ProviderNode.edit (now : Nat) (input : ProviderNodeInput) (n : ProviderNode) :
    ProviderNode :=
  { n with
    nodeType := input.nodeType
    name := input.name
    nodePrefix := input.nodePrefix
    apiType := input.apiType
    baseUrl := input.baseUrl
    updatedAt := timestamp now }

/-- The edit of `update_user`, `users/store.rs:151`, with the new hash if a password came. -/
def UserRecord.edit (now : Nat) (update : UserUpdate) (hash : Option String)
    (u : UserRecord) : UserRecord :=
  { u with
    displayName := ((update.displayName.map trim).filter (· ≠ "")).getD u.displayName
    email := (update.email.map trim).getD u.email
    role := update.role.getD u.role
    isActive := update.isActive.getD u.isActive
    passwordHash := hash.getD u.passwordHash
    updatedAt := timestamp now }

/-- The patch of `update_settings`, `store.rs:1192`. -/
def Settings.patch (s : Settings) (u : SettingsUpdate) : Settings :=
  { s with
    requireApiKey := u.requireApiKey.getD s.requireApiKey
    tunnelDashboardAccess := u.tunnelDashboardAccess.getD s.tunnelDashboardAccess
    tunnelUrl := u.tunnelUrl.getD s.tunnelUrl
    tailscaleUrl := u.tailscaleUrl.getD s.tailscaleUrl
    outboundProxyEnabled := u.outboundProxyEnabled.getD s.outboundProxyEnabled
    outboundProxyUrl := u.outboundProxyUrl.getD s.outboundProxyUrl
    outboundNoProxy := u.outboundNoProxy.getD s.outboundNoProxy
    oidcIssuerUrl := u.oidcIssuerUrl.getD s.oidcIssuerUrl
    oidcClientId := u.oidcClientId.getD s.oidcClientId
    oidcClientSecret := u.oidcClientSecret.getD s.oidcClientSecret
    oidcScopes := u.oidcScopes.getD s.oidcScopes
    oidcLoginLabel := u.oidcLoginLabel.getD s.oidcLoginLabel
    samlEntryPoint := u.samlEntryPoint.getD s.samlEntryPoint
    samlIssuer := u.samlIssuer.getD s.samlIssuer
    samlCert := u.samlCert.getD s.samlCert
    samlAttributeEmail := u.samlAttributeEmail.getD s.samlAttributeEmail
    samlAttributeName := u.samlAttributeName.getD s.samlAttributeName
    pxpipeEnabled := u.pxpipeEnabled.getD s.pxpipeEnabled
    pxpipeAutoInstall := u.pxpipeAutoInstall.getD s.pxpipeAutoInstall
    pxpipeMinChars := u.pxpipeMinChars.getD s.pxpipeMinChars
    pxpipeTimeoutMs := u.pxpipeTimeoutMs.getD s.pxpipeTimeoutMs
    comboStrategies := u.comboStrategies.getD s.comboStrategies }

/-- `apply_imported_settings`, `store.rs:1535`. -/
def Settings.importFrom (s : Settings) (imported : Std.ExtTreeMap String Json) : Settings :=
  let boolean := fun key : String ↦ imported[key]?.bind Json.asBool
  let text := fun key : String ↦ imported[key]?.bind Json.asStr
  let fits := fun n : Nat ↦ if n ≤ u32Max then some n else none
  let count := fun key : String ↦
    (imported[key]?.bind fun v ↦ v.asU64.or (v.asStr.bind parseU64)).bind fits
  { s with
    requireApiKey := (boolean "requireApiKey").getD s.requireApiKey
    tunnelDashboardAccess := (boolean "tunnelDashboardAccess").getD s.tunnelDashboardAccess
    tunnelUrl := (text "tunnelUrl").getD s.tunnelUrl
    tailscaleUrl := (text "tailscaleUrl").getD s.tailscaleUrl
    outboundProxyEnabled := (boolean "outboundProxyEnabled").getD s.outboundProxyEnabled
    outboundProxyUrl := (text "outboundProxyUrl").getD s.outboundProxyUrl
    outboundNoProxy := (text "outboundNoProxy").getD s.outboundNoProxy
    fallbackStrategy := (text "fallbackStrategy").getD s.fallbackStrategy
    comboStrategy := (text "comboStrategy").getD s.comboStrategy
    comboStickyRoundRobinLimit :=
      (count "comboStickyRoundRobinLimit").getD s.comboStickyRoundRobinLimit
    oidcIssuerUrl := (text "oidcIssuerUrl").getD s.oidcIssuerUrl
    oidcClientId := (text "oidcClientId").getD s.oidcClientId
    oidcClientSecret := (text "oidcClientSecret").getD s.oidcClientSecret
    oidcScopes := (text "oidcScopes").getD s.oidcScopes
    oidcLoginLabel := (text "oidcLoginLabel").getD s.oidcLoginLabel
    samlEntryPoint := (text "samlEntryPoint").getD s.samlEntryPoint
    samlIssuer := (text "samlIssuer").getD s.samlIssuer
    samlCert := (text "samlCert").getD s.samlCert
    samlAttributeEmail := (text "samlAttributeEmail").getD s.samlAttributeEmail
    samlAttributeName := (text "samlAttributeName").getD s.samlAttributeName
    -- The key is read twice, the second time without the text form.
    stickyRoundRobinLimit := ((imported["stickyRoundRobinLimit"]?.bind Json.asU64).bind fits).getD
      ((count "stickyRoundRobinLimit").getD s.stickyRoundRobinLimit) }

/-- `normalise_username`, `users/model.rs:143`. -/
def normaliseUsername (raw : String) : Except UserError String :=
  let trimmed := (trim raw).map Char.toLower
  if 2 ≤ trimmed.length ∧ trimmed.length ≤ 64 ∧
      trimmed.toList.all (fun c ↦ c.isAlphanum || c == '.' || c == '-' || c == '_') then
    .ok trimmed
  else .error .usernameInvalid

/-- `hash_password`, `users/model.rs:162`, with what `bcrypt::hash` answers. -/
def hashPassword (raw : String) (bcrypt : Option String) : Except UserError String :=
  if raw.length < 12 then .error .passwordTooShort
  else match bcrypt with
    | some hash => .ok hash
    | none => .error .hashFailed

/-- The pane as it is stored: at most a mebibyte of it, cut at a character. -/
def cappedLog (content : String) : String :=
  let limit := 1024 * 1024
  let rec takeBytes : Nat → List Char → List Char
    | _, [] => []
    | budget, c :: cs => if c.utf8Size ≤ budget then c :: takeBytes (budget - c.utf8Size) cs else []
  if content.utf8ByteSize > limit then
    String.ofList (takeBytes limit content.toList) ++
      "\n… truncated by nullrouter-state at 1 MiB"
  else content

/-- `bound_connection_count`, `store.rs:2041`. -/
def boundConnectionCount (connections : Connections) (proxyPoolId : String) : Nat :=
  (connections.filter fun c ↦
    ((c.providerSpecificData.bind (·["proxyPoolId"]?)).bind Json.asStr) == some proxyPoolId).length

/-- The set `set_disabled_models` stores: trimmed, without blanks, sorted and without repeats. -/
def normalisedIds (ids : List String) : List String :=
  (((ids.map trim).filter (· ≠ "")).mergeSort (· ≤ ·)).eraseReps

namespace StateSnapshot

/-- Whether another enabled admin than `id` exists, `users/store.rs:143`. -/
def otherAdmin (s : StateSnapshot) (id : String) : Bool :=
  s.users.any fun u ↦ u.id != id && u.role == .admin && u.isActive

/-- `create_connection`, `store.rs:755`: a record of the same provider and name whose
authentication is an API key is merged into, any other request appends. -/
def createConnection (s : StateSnapshot) (request : ProviderConnectionInput) (now mint : Nat) :
    ProviderConnection × StateSnapshot :=
  let providerCount := (s.providerConnections.filter (·.provider == request.provider)).length
  let priority := request.priority.getD (min (providerCount + 1) u32Max)
  let connection := request.toRecord (nextId "conn" mint s.providerConnections.length) priority
    (timestamp now)
  let same := fun existing : ProviderConnection ↦ existing.provider == connection.provider &&
    existing.authType == "apikey" && existing.name == connection.name
  match updateFirst same (·.merge connection) s.providerConnections with
  | some merged =>
    (((merged.find? same).getD connection).toPublic, { s with providerConnections := merged })
  | none =>
    (connection.toPublic, { s with providerConnections := s.providerConnections ++ [connection] })

/-- `update_connection`, `store.rs:811`. -/
def updateConnection (s : StateSnapshot) (id : String) (input : ProviderConnectionUpdate)
    (now : Nat) : Option StateSnapshot :=
  (updateFirst (·.id == id) (·.edit now input) s.providerConnections).map
    ({ s with providerConnections := · })

/-- `delete_connection`, `store.rs:856`. -/
def deleteConnection (s : StateSnapshot) (id : String) : Bool × StateSnapshot :=
  let kept := s.providerConnections.filter (·.id != id)
  (kept.length != s.providerConnections.length, { s with providerConnections := kept })

/-- `update_connection_credentials`, `store.rs:1659`. -/
def updateConnectionCredentials (s : StateSnapshot) (id : String) (update : CredentialUpdate)
    (now : Nat) : Option StateSnapshot :=
  (updateFirst (·.id == id) (·.editCredentials now update) s.providerConnections).map
    ({ s with providerConnections := · })

/-- `create_combo`, `store.rs:892`, and `create_combo_from_import`, `store.rs:1508`. -/
def createCombo (s : StateSnapshot) (name : String) (kind : Option String)
    (models : List String) (now : Nat) : Combo × StateSnapshot :=
  let combo := ⟨nextComboId s.combos, name, kind, models, timestamp now, timestamp now⟩
  (combo, { s with combos := s.combos ++ [combo] })

/-- `update_combo`, `store.rs:913`. -/
def updateCombo (s : StateSnapshot) (id : String) (update : ComboUpdate) (now : Nat) :
    Option StateSnapshot :=
  (updateFirst (·.id == id) (·.edit now update) s.combos).map ({ s with combos := · })

/-- `delete_combo`, `store.rs:934`. -/
def deleteCombo (s : StateSnapshot) (id : String) : Bool × StateSnapshot :=
  let kept := s.combos.filter (·.id != id)
  (kept.length != s.combos.length, { s with combos := kept })

/-- `create_proxy_pool`, `store.rs:1100`. -/
def createProxyPool (s : StateSnapshot) (input : ProxyPoolInput) (now mint : Nat) :
    ProxyPool × StateSnapshot :=
  let pool : ProxyPool :=
    { id := nextId "proxy_pool" mint s.proxyPools.length
      name := input.name
      proxyUrl := input.proxyUrl
      noProxy := input.noProxy.getD ""
      proxyType := input.proxyType.getD "http"
      isActive := input.isActive.getD true
      strictProxy := input.strictProxy.getD false
      testStatus := input.testStatus.getD "unknown"
      lastTestedAt := none
      lastError := none
      createdAt := timestamp now
      updatedAt := timestamp now }
  (pool, { s with proxyPools := s.proxyPools ++ [pool] })

/-- `update_proxy_pool`, `store.rs:1122`. -/
def updateProxyPool (s : StateSnapshot) (id : String) (input : ProxyPoolUpdate) (now : Nat) :
    Option StateSnapshot :=
  (updateFirst (·.id == id) (·.edit now input) s.proxyPools).map ({ s with proxyPools := · })

/-- `delete_proxy_pool`, `store.rs:1161`. -/
def deleteProxyPool (s : StateSnapshot) (id : String) : DeleteProxyPoolResult × StateSnapshot :=
  let bound := boundConnectionCount s.providerConnections id
  if bound > 0 then (.inUse bound, s)
  else
    let kept := s.proxyPools.filter (·.id != id)
    (if kept.length = s.proxyPools.length then .notFound else .deleted,
      { s with proxyPools := kept })

/-- `update_settings`, `store.rs:1191`. -/
def updateSettings (s : StateSnapshot) (update : SettingsUpdate) : StateSnapshot :=
  { s with settings := s.settings.patch update }

/-- `apply_imported_settings`, `store.rs:1535`. -/
def applyImportedSettings (s : StateSnapshot) (imported : Std.ExtTreeMap String Json) :
    StateSnapshot :=
  { s with settings := s.settings.importFrom imported }

/-- `save_translator_log`, `store.rs:699`. -/
def saveTranslatorLog (s : StateSnapshot) (file content : String) : StateSnapshot :=
  { s with translatorLogs := s.translatorLogs.insert file (cappedLog content) }

/-- `set_disabled_models`, `store.rs:969`. -/
def setDisabledModels (s : StateSnapshot) (providerAlias : String) (ids : List String) :
    StateSnapshot :=
  if normalisedIds ids = [] then
    { s with disabledModels := s.disabledModels.erase providerAlias }
  else { s with disabledModels := s.disabledModels.insert providerAlias (normalisedIds ids) }

/-- `clear_disabled_models`, `store.rs:994`. -/
def clearDisabledModels (s : StateSnapshot) (providerAlias : String) : Bool × StateSnapshot :=
  (s.disabledModels[providerAlias]?.isSome,
    { s with disabledModels := s.disabledModels.erase providerAlias })

/-- `add_custom_model`, `store.rs:1007`; `true` where a new entry was added. -/
def addCustomModel (s : StateSnapshot) (providerAlias id : String)
    (modelType name : Option String) (now : Nat) : Bool × StateSnapshot :=
  match updateFirst (fun m : CustomModel ↦ m.providerAlias == providerAlias && m.id == id)
      (fun m ↦ { m with modelType := modelType, name := name }) s.customModels with
  | some models => (false, { s with customModels := models })
  | none => (true, { s with
      customModels := s.customModels ++ [⟨providerAlias, id, modelType, name, timestamp now⟩] })

/-- `delete_custom_model`, `store.rs:1037`. -/
def deleteCustomModel (s : StateSnapshot) (providerAlias id : String) : Bool × StateSnapshot :=
  let kept := s.customModels.filter fun m ↦ !(m.providerAlias == providerAlias && m.id == id)
  (kept.length != s.customModels.length, { s with customModels := kept })

/-- `set_model_alias`, `store.rs:1056`. -/
def setModelAlias (s : StateSnapshot) (name model : String) : StateSnapshot :=
  { s with modelAliases := s.modelAliases.insert name model }

/-- `delete_model_alias`, `store.rs:1063`. -/
def deleteModelAlias (s : StateSnapshot) (name : String) : Bool × StateSnapshot :=
  (s.modelAliases[name]?.isSome, { s with modelAliases := s.modelAliases.erase name })

/-- `create_key`, `api_keys/store.rs:28`, with the digest of the secret just generated. -/
def createKey (s : StateSnapshot) (name : String) (digest : List UInt8) (now mint : Nat) :
    ApiKeyRecord × StateSnapshot :=
  let record := ⟨nextId "key" mint s.apiKeys.length, none, some digest, name,
    "nullrouter-state", true, timestamp now⟩
  (record, { s with apiKeys := s.apiKeys ++ [record] })

/-- `update_key`, `api_keys/store.rs:43`. -/
def updateKey (s : StateSnapshot) (id : String) (isActive : Option Bool) :
    Option StateSnapshot :=
  (updateFirst (·.id == id) (fun k : ApiKeyRecord ↦ { k with isActive := isActive.getD k.isActive })
    s.apiKeys).map ({ s with apiKeys := · })

/-- `delete_key`, `api_keys/store.rs:57`. -/
def deleteKey (s : StateSnapshot) (id : String) : Bool × StateSnapshot :=
  let kept := s.apiKeys.filter (·.id != id)
  (kept.length != s.apiKeys.length, { s with apiKeys := kept })

/-- The closure of `create_user`, `users/store.rs:82`, after the name and password passed. -/
def createUser (s : StateSnapshot) (username hash : String)
    (displayName email : Option String) (role : Role) (now mint : Nat) :
    Except UserError StateSnapshot :=
  if s.users.any (·.username == username) then .error .usernameTaken
  else
    let record : UserRecord :=
      { id := nextId "user" mint s.users.length
        username := username
        displayName := ((displayName.map trim).filter (· ≠ "")).getD username
        email := (email.map trim).getD ""
        role := role
        passwordHash := hash
        isActive := true
        createdAt := timestamp now
        updatedAt := timestamp now
        lastLoginAt := none }
    .ok { s with users := s.users ++ [record] }

/-- `losing_admin` of `update_user`, `users/store.rs:121`. -/
def losingAdmin (s : StateSnapshot) (id : String) (update : UserUpdate) : Bool :=
  match s.users.find? (·.id == id) with
  | none => false
  | some target =>
    if target.role ≠ .admin ∨ !target.isActive then false
    else
      let stillAdmin : Bool := match update.role, update.isActive with
        | some role, some active => role == .admin && active
        | some role, none => role == .admin
        | none, some active => active
        | none, none => true
      if stillAdmin then false else !s.otherAdmin id

/-- The closure of `update_user`, `users/store.rs:118`, after the new password passed. -/
def updateUser (s : StateSnapshot) (id : String) (update : UserUpdate) (hash : Option String)
    (now : Nat) : Except UserError StateSnapshot :=
  if s.losingAdmin id update then .error .wouldOrphanAdmin
  else match updateFirst (·.id == id) (·.edit now update hash) s.users with
    | none => .error .notFound
    | some users => .ok { s with users := users }

/-- `delete_user`, `users/store.rs:176`. -/
def deleteUser (s : StateSnapshot) (id : String) : Except UserError StateSnapshot :=
  match s.users.find? (·.id == id) with
  | none => .error .notFound
  | some target =>
    if target.role = .admin ∧ target.isActive ∧ !s.otherAdmin id then .error .wouldOrphanAdmin
    else .ok { s with users := s.users.filter (·.id != id) }

/-- `create_provider_node`, `provider_nodes/store.rs:23`. -/
def createProviderNode (s : StateSnapshot) (input : ProviderNodeInput) (now : Nat) :
    ProviderNode × StateSnapshot :=
  let node := ⟨nextProviderNodeId s.providerNodes input.nodeType, input.nodeType, input.name,
    input.nodePrefix, input.apiType, input.baseUrl, timestamp now, timestamp now⟩
  (node, { s with providerNodes := s.providerNodes ++ [node] })

/-- `update_provider_node`, `provider_nodes/store.rs:44`. -/
def updateProviderNode (s : StateSnapshot) (id : String) (input : ProviderNodeInput)
    (now : Nat) : Option StateSnapshot :=
  (updateFirst (·.id == id) (·.edit now input) s.providerNodes).map ({ s with providerNodes := · })

/-- `delete_provider_node`, `provider_nodes/store.rs:64`: its connections go with it. -/
def deleteProviderNode (s : StateSnapshot) (id : String) : Bool × StateSnapshot :=
  let kept := s.providerNodes.filter (·.id != id)
  let deleted := kept.length != s.providerNodes.length
  (deleted, { s with
    providerNodes := kept
    providerConnections := if deleted then s.providerConnections.filter (·.provider != id)
      else s.providerConnections })

end StateSnapshot
end NullRouter.State
