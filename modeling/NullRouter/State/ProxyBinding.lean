import NullRouter.State.References

/-!
# Proxy bindings

A connection is bound to a proxy pool by id. The state service hands the credentials of the
connection it selects to the runtime (`services/state-actix/src/internal.rs:114–237`), which reads
the proxy to dispatch through from flat keys (`crates/execute/src/credentials.rs:19–90`).
-/

namespace NullRouter.State

open NullRouter.Base

/-! ## Credentials -/

/-- `CredentialsResponse`, `internal.rs:133`. -/
structure CredentialsResponse where
  connectionId : String
  connectionName : String
  apiKey : Option String
  accessToken : Option String
  refreshToken : Option String
  expiresAt : Option String
  providerSpecificData : Std.ExtTreeMap String Json

namespace CredentialsResponse

/-- `CredentialsResponse::from_connection`, `internal.rs:150`. The pool that the settings name is
looked at nowhere. -/
def fromConnection (connection : ProviderConnection) : CredentialsResponse where
  connectionId := connection.id
  connectionName := (connection.email.filter (!·.isEmpty)).getD
    (if connection.name.isEmpty then connection.id else connection.name)
  apiKey := connection.apiKey
  accessToken := connection.accessToken
  refreshToken := connection.refreshToken
  expiresAt := connection.expiresAt
  providerSpecificData :=
    (connection.providerSpecificData.getD ∅).insertIfNew "connectionProxyEnabled" (.bool false)

/-- A field that is left out where there is no value. -/
def optionalField (key : String) (value : Option String) : List (String × Json) :=
  (value.map fun text ↦ (key, .str text)).toList

/-- The credentials as they are answered. -/
def fields (r : CredentialsResponse) : List (String × Json) :=
  [("connectionId", .str r.connectionId), ("connectionName", .str r.connectionName)] ++
    optionalField "apiKey" r.apiKey ++ optionalField "accessToken" r.accessToken ++
    optionalField "refreshToken" r.refreshToken ++ optionalField "expiresAt" r.expiresAt ++
    [("providerSpecificData", .obj r.providerSpecificData.toList)]

end CredentialsResponse

/-- `Credentials`, `credentials.rs:19`, less the format that the runtime itself sets. -/
structure Credentials where
  connectionId : String
  connectionName : String
  apiKey : Option String
  accessToken : Option String
  refreshToken : Option String
  expiresAt : Option String
  providerSpecificData : Std.ExtTreeMap String Json

namespace Credentials

/-- A field of type `String`, by default empty. -/
def readText (fields : List (String × Json)) (key : String) : Option String :=
  (fields.lookup key).elim (some "") Json.asStr

/-- A field of type `Option<String>`, by default `None`. -/
def readOptional (fields : List (String × Json)) (key : String) : Option (Option String) :=
  match fields.lookup key with
  | none | some .null => some none
  | some value => value.asStr.map some

/-- A field of type `BTreeMap<String, Value>`, by default empty. -/
def readMap (fields : List (String × Json)) (key : String) :
    Option (Std.ExtTreeMap String Json) :=
  (fields.lookup key).elim (some ∅) fun value ↦ value.asObject.map (Std.ExtTreeMap.ofList ·)

/-- The credentials that an object is read as. -/
def read (fields : List (String × Json)) : Option Credentials := do
  return {
    connectionId := ← readText fields "connectionId"
    connectionName := ← readText fields "connectionName"
    apiKey := ← readOptional fields "apiKey"
    accessToken := ← readOptional fields "accessToken"
    refreshToken := ← readOptional fields "refreshToken"
    expiresAt := ← readOptional fields "expiresAt"
    providerSpecificData := ← readMap fields "providerSpecificData" }

/-- `Credentials::setting`, `credentials.rs:57`. -/
def setting (c : Credentials) (key : String) : Option String :=
  trimOptional (c.providerSpecificData[key]?.bind Json.asStr)

/-- `Credentials::flag`, `credentials.rs:66`. -/
def flag (c : Credentials) (key : String) : Bool :=
  (c.providerSpecificData[key]?.bind Json.asBool).getD false

/-- `Credentials::proxy_url`, `credentials.rs:79`. -/
def proxyUrl (c : Credentials) : Option String :=
  if c.flag "connectionProxyEnabled" then c.setting "connectionProxyUrl" else none

/-- `Credentials::no_proxy`, `credentials.rs:88`. -/
def noProxy (c : Credentials) : Option String := c.setting "connectionNoProxy"

end Credentials

/-! ## What is answered is what is read -/

/-- A map read back from its entries. -/
theorem ofList_toList {τ : Type} (m : Std.ExtTreeMap String τ) :
    Std.ExtTreeMap.ofList m.toList = m := by
  apply Std.ExtTreeMap.ext_getElem?
  intro key
  cases h : m[key]? with
  | some value =>
    exact Std.ExtTreeMap.getElem?_ofList_of_mem Std.ReflCmp.compare_self
      Std.ExtTreeMap.distinct_keys_toList
      (Std.ExtTreeMap.mem_toList_iff_getElem?_eq_some.mpr h)
  | none =>
    apply Std.ExtTreeMap.getElem?_ofList_of_contains_eq_false
    refine Bool.eq_false_iff.mpr fun hmem ↦ ?_
    obtain ⟨⟨k, value⟩, hentry, rfl⟩ := List.mem_map.mp (List.contains_iff_mem.mp hmem)
    rw [Std.ExtTreeMap.mem_toList_iff_getElem?_eq_some.mp hentry] at h
    cases h

/-- An optional field in front of others. -/
theorem lookup_optionalField {key other : String} {value : Option String}
    {rest : List (String × Json)} :
    (CredentialsResponse.optionalField key value ++ rest).lookup other =
      if other = key then (value.map Json.str).or (rest.lookup other) else rest.lookup other := by
  cases value with
  | none => simp [CredentialsResponse.optionalField]
  | some text =>
    by_cases hkey : other = key
    · simp [CredentialsResponse.optionalField, hkey]
    · have hne : (other == key) = false := by simpa using hkey
      simp [CredentialsResponse.optionalField, hkey, List.lookup_cons, hne]

/-- A field that is left out where there is no value reads as that value. -/
theorem readOptional_of_lookup {fields : List (String × Json)} {key : String}
    {value : Option String} (h : fields.lookup key = value.map Json.str) :
    Credentials.readOptional fields key = some value := by
  unfold Credentials.readOptional
  rw [h]
  cases value with
  | none => rfl
  | some text => rfl

/-- The runtime reads the credentials that the state service answers, under the same names. -/
theorem Credentials.read_fields (r : CredentialsResponse) :
    Credentials.read r.fields = some
      ⟨r.connectionId, r.connectionName, r.apiKey, r.accessToken, r.refreshToken, r.expiresAt,
        r.providerSpecificData⟩ := by
  have hid : r.fields.lookup "connectionId" = some (.str r.connectionId) := rfl
  have hname : r.fields.lookup "connectionName" = some (.str r.connectionName) := rfl
  have hmap : r.fields.lookup "providerSpecificData" =
      some (.obj r.providerSpecificData.toList) := by
    simp [CredentialsResponse.fields, List.append_assoc, List.lookup_cons, lookup_optionalField]
  have hapi : r.fields.lookup "apiKey" = r.apiKey.map Json.str := by
    simp [CredentialsResponse.fields, List.append_assoc, List.lookup_cons, lookup_optionalField]
  have haccess : r.fields.lookup "accessToken" = r.accessToken.map Json.str := by
    simp [CredentialsResponse.fields, List.append_assoc, List.lookup_cons, lookup_optionalField]
  have hrefresh : r.fields.lookup "refreshToken" = r.refreshToken.map Json.str := by
    simp [CredentialsResponse.fields, List.append_assoc, List.lookup_cons, lookup_optionalField]
  have hexpires : r.fields.lookup "expiresAt" = r.expiresAt.map Json.str := by
    simp [CredentialsResponse.fields, List.append_assoc, List.lookup_cons, lookup_optionalField]
  simp only [Credentials.read, Credentials.readText, hid, hname, Option.elim, Json.asStr,
    readOptional_of_lookup hapi, readOptional_of_lookup haccess, readOptional_of_lookup hrefresh,
    readOptional_of_lookup hexpires, Credentials.readMap, hmap, Json.asObject, Option.map_some,
    ofList_toList]
  rfl

/-! ## Selection -/

/-- `SelectRequest`, `internal.rs:120`. -/
structure SelectRequest where
  provider : String
  model : Option String := none
  exclude : List String := []
  preferredConnectionId : Option String := none

namespace StateSnapshot

/-- `select_credentials`, `internal.rs:187`: the selection, with the strategy of the settings. -/
def selectCredentials (s : StateSnapshot) (request : SelectRequest) (clock stamp : Nat) :
    StateSnapshot × ConnectionSelection :=
  let selection := s.providerConnections.selectConnection
    { provider := request.provider
      model := request.model
      exclude := request.exclude
      preferred := trimOptional request.preferredConnectionId
      strategy := if s.settings.fallbackStrategy = "round-robin" then .roundRobin else .fillFirst
      stickyLimit := s.settings.stickyRoundRobinLimit } clock stamp
  ({ s with providerConnections := selection.1 }, selection.2)

/-- The pool a connection is bound to, where it is there and active. -/
def activePool? (s : StateSnapshot) (c : ProviderConnection) : Option ProxyPool :=
  ((proxyPoolId? c.providerSpecificData).bind fun id ↦ s.proxyPools.find? (·.id == id)).filter
    (·.isActive)

end StateSnapshot

/-- The credentials of a selection as the runtime reads them. -/
def ConnectionSelection.delivered : ConnectionSelection → Option Credentials
  | .selected connection => Credentials.read (CredentialsResponse.fromConnection connection).fields
  | _ => none

namespace ProviderConnection

variable (c : ProviderConnection)

/-- The settings of a connection as they are stored. -/
def settings : Std.ExtTreeMap String Json := c.providerSpecificData.getD ∅

/-- The proxy that the own keys of a connection switch on. -/
def ownProxyUrl : Option String :=
  if (c.settings["connectionProxyEnabled"]?.bind Json.asBool).getD false then
    trimOptional (c.settings["connectionProxyUrl"]?.bind Json.asStr)
  else none

/-- The hosts that the own keys of a connection except. -/
def ownNoProxy : Option String := trimOptional (c.settings["connectionNoProxy"]?.bind Json.asStr)

end ProviderConnection

/-- The keys that a proxy is read from. -/
def proxyKeys : List String := ["connectionProxyEnabled", "connectionProxyUrl", "connectionNoProxy"]

/-- Credentials dispatch through a pool. -/
structure Credentials.Through (credentials : Credentials) (pool : ProxyPool) : Prop where
  url : credentials.proxyUrl = trimOptional (some pool.proxyUrl)
  noProxy : credentials.noProxy = trimOptional (some pool.noProxy)

/-- Credentials keep the proxy keys of a connection, and have no proxy but that of these. -/
structure Credentials.Keeps (credentials : Credentials) (c : ProviderConnection) : Prop where
  keys : ∀ key ∈ proxyKeys, ∀ value, c.settings[key]? = some value →
    credentials.providerSpecificData[key]? = some value
  url : credentials.proxyUrl = c.ownProxyUrl
  noProxy : credentials.noProxy = c.ownNoProxy

/-- The proxy pool of a connection takes effect: the credentials dispatch through it where it is
active, and keep to the keys of the connection where it is not or there is none. -/
def StateSnapshot.TakesEffect (s : StateSnapshot) (c : ProviderConnection)
    (credentials : Credentials) : Prop :=
  match s.activePool? c with
  | some pool => credentials.Through pool
  | none => credentials.Keeps c

/-- The own keys of a connection already say what the pool says that it is bound to, if there is
one and it is active. -/
def StateSnapshot.SaysSame (s : StateSnapshot) (c : ProviderConnection) : Prop :=
  ∀ pool, s.activePool? c = some pool →
    c.ownProxyUrl = trimOptional (some pool.proxyUrl) ∧
      c.ownNoProxy = trimOptional (some pool.noProxy)

/-- The default of `from_connection` is seen where the key was not there, and reads the same. -/
theorem settings_fromConnection (c : ProviderConnection) (key : String) :
    (CredentialsResponse.fromConnection c).providerSpecificData[key]? =
      c.settings[key]?.or
        (if key = "connectionProxyEnabled" then some (.bool false) else none) := by
  change (c.settings.insertIfNew "connectionProxyEnabled" (.bool false))[key]? = _
  rw [Std.ExtTreeMap.getElem?_insertIfNew]
  by_cases hkey : key = "connectionProxyEnabled"
  · subst hkey
    cases hold : c.settings["connectionProxyEnabled"]? with
    | none =>
      have habsent : "connectionProxyEnabled" ∉ c.settings := fun hmem ↦ by
        rw [Std.ExtTreeMap.mem_iff_isSome_getElem?, hold] at hmem
        cases hmem
      simp [habsent]
    | some value =>
      have hthere : "connectionProxyEnabled" ∈ c.settings :=
        Std.ExtTreeMap.mem_iff_isSome_getElem?.mpr (by rw [hold]; rfl)
      simp [hthere]
  · have hne : "connectionProxyEnabled" ≠ key := fun h ↦ hkey h.symm
    simp [hkey, hne]

/-- Credentials keep to the keys of their connection, whatever pool it is bound to. -/
theorem delivered_keeps (c : ProviderConnection) :
    ∃ credentials, (ConnectionSelection.selected c).delivered = some credentials ∧
      credentials.Keeps c := by
  have hread (key : String) (hkey : key ≠ "connectionProxyEnabled") :
      (CredentialsResponse.fromConnection c).providerSpecificData[key]? = c.settings[key]? := by
    rw [settings_fromConnection, if_neg hkey, Option.or_none]
  have hflag : ((CredentialsResponse.fromConnection
      c).providerSpecificData["connectionProxyEnabled"]?.bind Json.asBool).getD false =
        (c.settings["connectionProxyEnabled"]?.bind Json.asBool).getD false := by
    rw [settings_fromConnection, if_pos rfl]
    cases c.settings["connectionProxyEnabled"]? with
    | none => rfl
    | some value => rfl
  refine ⟨_, Credentials.read_fields _, ?_, ?_, ?_⟩
  · intro key _ value hvalue
    rw [settings_fromConnection, hvalue, Option.some_or]
  · unfold Credentials.proxyUrl Credentials.flag Credentials.setting ProviderConnection.ownProxyUrl
    rw [hflag, hread "connectionProxyUrl" (by decide)]
  · unfold Credentials.noProxy Credentials.setting ProviderConnection.ownNoProxy
    rw [hread "connectionNoProxy" (by decide)]

/-- For every state of the store and every connection that a request selects: the pool it is bound
to takes effect in the credentials that the runtime reads exactly where no pool of that id is
active, or the own keys of the connection already say what the pool says. -/
theorem takesEffect_iff (s : StateSnapshot) (request : SelectRequest) (clock stamp : Nat)
    {c : ProviderConnection} (h : (s.selectCredentials request clock stamp).2 = .selected c) :
    ∃ credentials, (s.selectCredentials request clock stamp).2.delivered = some credentials ∧
      (s.TakesEffect c credentials ↔ s.SaysSame c) := by
  obtain ⟨credentials, hdelivered, hkeeps⟩ := delivered_keeps c
  refine ⟨credentials, by rw [h, hdelivered], ?_⟩
  unfold StateSnapshot.TakesEffect StateSnapshot.SaysSame
  cases hpool : s.activePool? c with
  | none =>
    constructor
    · intro _ pool hsome
      cases hsome
    · intro _
      exact hkeeps
  | some pool =>
    constructor
    · intro hthrough other hsome
      cases hsome
      rw [← hkeeps.url, ← hkeeps.noProxy]
      exact ⟨hthrough.url, hthrough.noProxy⟩
    · intro hsame
      obtain ⟨hurl, hno⟩ := hsame pool rfl
      exact ⟨hkeeps.url.trans hurl, hkeeps.noProxy.trans hno⟩

/-- A store with one active pool and one connection of given settings. -/
def boundStore (settings : List (String × Json)) : StateSnapshot :=
  (StateSnapshot.createConnection (StateSnapshot.createProxyPool {}
      { name := "p", proxyUrl := "http://p" } 5 5).2
    { provider := "x", name := "x", apiKey := some "k"
      providerSpecificData := some (Std.ExtTreeMap.ofList settings) } 6 6).2

/-- Settings that repeat what the pool says that they name. -/
def repeatedSettings : List (String × Json) :=
  [("proxyPoolId", .str "proxy_pool_5_1"), ("connectionProxyEnabled", .bool true),
    ("connectionProxyUrl", .str "http://p")]

/-- The equivalence at a connection whose own keys repeat its pool. -/
theorem takesEffect_of_repeated :
    ∃ c credentials, ((boundStore repeatedSettings).selectCredentials
        { provider := "x" } 7 7).2.delivered = some credentials ∧
      (boundStore repeatedSettings).TakesEffect c credentials := by
  obtain ⟨credentials, hdelivered, hiff⟩ :=
    takesEffect_iff (boundStore repeatedSettings) { provider := "x" } 7 7 rfl
  refine ⟨_, credentials, hdelivered, hiff.mpr fun pool hpool ↦ ?_⟩
  cases hpool
  decide +kernel

/-- A connection bound to an active pool is dispatched without a proxy. -/
theorem bound_connection_has_no_proxy :
    ¬ ∀ (s : StateSnapshot) (request : SelectRequest) (clock stamp : Nat) (c : ProviderConnection),
      (s.selectCredentials request clock stamp).2 = .selected c →
        ∃ credentials, (s.selectCredentials request clock stamp).2.delivered = some credentials ∧
          s.TakesEffect c credentials := by
  intro h
  let s := boundStore [("proxyPoolId", .str "proxy_pool_5_1")]
  have hselected : ∃ c, (s.selectCredentials { provider := "x" } 7 7).2 = .selected c ∧
      (s.activePool? c).map (·.proxyUrl) = some "http://p" ∧ c.ownProxyUrl = none :=
    ⟨_, rfl, rfl, by decide +kernel⟩
  obtain ⟨c, hc, hpool, hown⟩ := hselected
  obtain ⟨pool, hactive, hpoolUrl⟩ := Option.map_eq_some_iff.mp hpool
  obtain ⟨credentials, hdelivered, heffect⟩ := h s { provider := "x" } 7 7 c hc
  obtain ⟨kept, hkept, hkeeps⟩ := delivered_keeps c
  rw [hc, hkept] at hdelivered
  obtain rfl : kept = credentials := Option.some.inj hdelivered
  simp only [StateSnapshot.TakesEffect, hactive] at heffect
  have hurl : kept.proxyUrl = some "http://p" := by
    rw [heffect.url, hpoolUrl]
    decide +kernel
  rw [hkeeps.url, hown] at hurl
  cases hurl

end NullRouter.State
