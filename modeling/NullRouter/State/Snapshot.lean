import NullRouter.State.Connection

/-!
# The state snapshot

The records of `StateSnapshot` (`services/state-actix/src/store.rs:89–132,148–600`,
`users/model.rs`, `api_keys/model.rs`, `provider_nodes/types.rs`, `usage.rs`) with their
field defaults. Serialisation attributes are not modelled.
-/

namespace NullRouter.State

open NullRouter.Base

/-- `CustomModel`, `store.rs:137`. -/
structure CustomModel where
  providerAlias : String
  id : String
  modelType : Option String
  name : Option String
  createdAt : String
  deriving DecidableEq

/-- `Combo`, `store.rs:344`. -/
structure Combo where
  id : String
  name : String
  kind : Option String
  models : List String
  createdAt : String
  updatedAt : String
  deriving DecidableEq

/-- `ProxyPool`, `store.rs:355`. -/
structure ProxyPool where
  id : String
  name : String
  proxyUrl : String
  noProxy : String
  proxyType : String
  isActive : Bool
  strictProxy : Bool
  testStatus : String
  lastTestedAt : Option String
  lastError : Option String
  createdAt : String
  updatedAt : String
  deriving DecidableEq

/-- `ComboStrategyOverride`, `store.rs:538`. -/
structure ComboStrategyOverride where
  fallbackStrategy : Option String := none
  minPanel : Option Nat := none
  stragglerGraceMs : Option Nat := none
  panelHardTimeoutMs : Option Nat := none
  deriving DecidableEq

/-- `Settings`, `store.rs:373`, with `Settings::default` (`store.rs:589`). -/
structure Settings where
  tunnelDashboardAccess : Bool := false
  tunnelUrl : String := ""
  tailscaleUrl : String := ""
  outboundProxyEnabled : Bool := false
  outboundProxyUrl : String := ""
  outboundNoProxy : String := ""
  oidcIssuerUrl : String := ""
  oidcClientId : String := ""
  oidcClientSecret : String := ""
  oidcScopes : String := ""
  oidcLoginLabel : String := ""
  samlEntryPoint : String := ""
  samlIssuer : String := ""
  samlCert : String := ""
  samlAttributeEmail : String := ""
  samlAttributeName : String := ""
  pxpipeEnabled : Bool := false
  pxpipeAutoInstall : Bool := true
  pxpipeMinChars : Nat := 25000
  pxpipeTimeoutMs : Nat := 15000
  fallbackStrategy : String := "fill-first"
  stickyRoundRobinLimit : Nat := 3
  comboStrategy : String := "fallback"
  comboStickyRoundRobinLimit : Nat := 1
  comboStrategies : Std.ExtTreeMap String ComboStrategyOverride := ∅
  requireApiKey : Bool := false
  deriving DecidableEq

/-- `ProviderNode`, `provider_nodes/types.rs:15`. -/
structure ProviderNode where
  id : String
  nodeType : String
  name : String
  nodePrefix : String
  apiType : Option String
  baseUrl : String
  createdAt : String
  updatedAt : String
  deriving DecidableEq

/-- `ApiKeyRecord`, `api_keys/model.rs:16`; a verification record is its SHA-256 digest. -/
structure ApiKeyRecord where
  id : String
  legacyKey : Option String
  verification : Option (List UInt8)
  name : String
  machineId : String
  isActive : Bool
  createdAt : String
  deriving DecidableEq

/-- `Role`, `users/model.rs:26`. -/
inductive Role where
  | viewer
  | operator
  | admin
  deriving DecidableEq

/-- `UserRecord`, `users/model.rs:63`. -/
structure UserRecord where
  id : String
  username : String
  displayName : String
  email : String
  role : Role
  passwordHash : String
  isActive : Bool
  createdAt : String
  updatedAt : String
  lastLoginAt : Option String
  deriving DecidableEq

/-- `UsageRecord`, `usage.rs:20`. -/
structure UsageRecord where
  id : String
  timestamp : Nat
  provider : String
  model : String
  connectionId : Option String
  apiKeyId : Option String
  endpoint : Option String
  status : String
  statusCode : Option Nat
  promptTokens : Nat
  completionTokens : Nat
  cachedTokens : Nat
  totalTokens : Nat
  latencyMs : Nat
  error : Option String
  deriving DecidableEq

/-- `UsageLog`, `usage.rs:82`. -/
structure UsageLog where
  records : List UsageRecord := []
  totalRequests : Nat := 0
  totalPromptTokens : Nat := 0
  totalCompletionTokens : Nat := 0
  totalCachedTokens : Nat := 0
  sequence : Nat := 0
  deriving DecidableEq

/-- `StateSnapshot`, `store.rs:91`. -/
@[ext]
structure StateSnapshot where
  apiKeys : List ApiKeyRecord := []
  providerConnections : Connections := []
  providerNodes : List ProviderNode := []
  combos : List Combo := []
  proxyPools : List ProxyPool := []
  settings : Settings := {}
  usage : UsageLog := {}
  translatorLogs : Std.ExtTreeMap String String := ∅
  disabledModels : Std.ExtTreeMap String (List String) := ∅
  customModels : List CustomModel := []
  modelAliases : Std.ExtTreeMap String String := ∅
  users : List UserRecord := []
  deriving DecidableEq

/-- `ProviderConnectionInput`, `store.rs:1898`. -/
structure ProviderConnectionInput where
  provider : String
  authType : Option String := none
  name : String
  apiKey : Option String := none
  priority : Option Nat := none
  globalPriority : Option Nat := none
  defaultModel : Option String := none
  isActive : Option Bool := none
  testStatus : Option String := none
  email : Option String := none
  lastError : Option String := none
  lastErrorAt : Option String := none
  providerSpecificData : Option (Std.ExtTreeMap String Json) := none
  accessToken : Option String := none
  refreshToken : Option String := none
  expiresAt : Option String := none

/-- `ProviderConnectionUpdate`, `store.rs:1919`. -/
structure ProviderConnectionUpdate where
  name : Option String := none
  apiKey : Option String := none
  priority : Option Nat := none
  globalPriority : Option Nat := none
  defaultModel : Option String := none
  isActive : Option Bool := none
  testStatus : Option String := none
  lastError : Option String := none
  lastErrorAt : Option String := none
  providerSpecificData : Option (Std.ExtTreeMap String Json) := none

/-- `CredentialUpdate`, `store.rs:298`. -/
structure CredentialUpdate where
  accessToken : Option String := none
  refreshToken : Option String := none
  expiresAt : Option String := none
  providerSpecificData : Option (Std.ExtTreeMap String Json) := none

/-- `ComboUpdate`, `store.rs:1933`; `kind` is set exactly when `kindSet` is. -/
structure ComboUpdate where
  name : Option String := none
  kind : Option String := none
  kindSet : Bool := false
  models : Option (List String) := none

/-- `ProxyPoolInput`, `store.rs:1941`. -/
structure ProxyPoolInput where
  name : String
  proxyUrl : String
  noProxy : Option String := none
  proxyType : Option String := none
  isActive : Option Bool := none
  strictProxy : Option Bool := none
  testStatus : Option String := none

/-- `ProxyPoolUpdate`, `store.rs:1952`. -/
structure ProxyPoolUpdate where
  name : Option String := none
  proxyUrl : Option String := none
  noProxy : Option String := none
  proxyType : Option String := none
  isActive : Option Bool := none
  strictProxy : Option Bool := none
  testStatus : Option String := none
  lastTestedAt : Option String := none
  lastError : Option (Option String) := none

/-- `SettingsUpdate`, `store.rs:1972`. -/
structure SettingsUpdate where
  requireApiKey : Option Bool := none
  tunnelDashboardAccess : Option Bool := none
  tunnelUrl : Option String := none
  tailscaleUrl : Option String := none
  outboundProxyEnabled : Option Bool := none
  outboundProxyUrl : Option String := none
  outboundNoProxy : Option String := none
  oidcIssuerUrl : Option String := none
  oidcClientId : Option String := none
  oidcClientSecret : Option String := none
  oidcScopes : Option String := none
  oidcLoginLabel : Option String := none
  samlEntryPoint : Option String := none
  samlIssuer : Option String := none
  samlCert : Option String := none
  samlAttributeEmail : Option String := none
  samlAttributeName : Option String := none
  pxpipeEnabled : Option Bool := none
  pxpipeAutoInstall : Option Bool := none
  pxpipeMinChars : Option Nat := none
  pxpipeTimeoutMs : Option Nat := none
  comboStrategies : Option (Std.ExtTreeMap String ComboStrategyOverride) := none

/-- `ProviderNodeInput`, `provider_nodes/types.rs:29`. -/
structure ProviderNodeInput where
  nodeType : String
  name : String
  nodePrefix : String
  apiType : Option String
  baseUrl : String

/-- `UserUpdate`, `users/store.rs:27`. -/
structure UserUpdate where
  displayName : Option String := none
  email : Option String := none
  role : Option Role := none
  isActive : Option Bool := none
  password : Option String := none

/-- `UserError`, `users/model.rs:101`. -/
inductive UserError where
  | usernameTaken
  | usernameInvalid
  | passwordTooShort
  | roleInvalid
  | notFound
  | wouldOrphanAdmin
  | hashFailed
  deriving DecidableEq

/-- `DeleteProxyPoolResult`, `store.rs:2008`. -/
inductive DeleteProxyPoolResult where
  | deleted
  | notFound
  | inUse (boundConnectionCount : Nat)
  deriving DecidableEq

end NullRouter.State
