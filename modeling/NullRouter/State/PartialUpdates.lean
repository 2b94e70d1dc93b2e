import NullRouter.Base.Keyed
import NullRouter.State.Operations
import NullRouter.State.Routes

/-!
# What created and updated connections keep

`create_connection` (`services/state-actix/src/store.rs:755`) appends a record, or merges into one
that is there: what becomes of the secrets that were asked for, and of those that were there.
-/

namespace NullRouter.State

open NullRouter.Base

namespace ProviderConnectionInput

/-- The record that a request merges into, `store.rs:797`. -/
def takes (request : ProviderConnectionInput) (existing : ProviderConnection) : Bool :=
  existing.provider == request.provider && existing.authType == "apikey" &&
    existing.name == request.name

end ProviderConnectionInput

/-- What a creation leaves, as it was asked: at one place, that of a record merged into or the end,
a record of the provider and name with every secret of the request, and those of the record merged
into where the request has none; everywhere else what was there. -/
structure KeepsAsked (s : StateSnapshot) (request : ProviderConnectionInput)
    (s' : StateSnapshot) : Prop where
  place : ∃ created,
    s'.providerConnections[s.providerConnections.findIdx request.takes]? = some created ∧
    created.provider = request.provider ∧ created.name = request.name ∧
    let existing := s.providerConnections[s.providerConnections.findIdx request.takes]?
    created.apiKey = request.apiKey.or (existing.bind (·.apiKey)) ∧
    created.accessToken = request.accessToken.or (existing.bind (·.accessToken)) ∧
    created.refreshToken = request.refreshToken.or (existing.bind (·.refreshToken)) ∧
    created.expiresAt = request.expiresAt.or (existing.bind (·.expiresAt))
  others (i : Nat) (h : i ≠ s.providerConnections.findIdx request.takes) :
    s'.providerConnections[i]? = s.providerConnections[i]?
  rest : s' = { s with providerConnections := s'.providerConnections }

/-- Nothing of a record merged into is lost to a request: an API key is replaced by another, and the
tokens and the expiry asked for are those that are there. -/
def ProviderConnectionInput.Fits (request : ProviderConnectionInput)
    (existing : ProviderConnection) : Prop :=
  (request.apiKey = none → existing.apiKey = none) ∧
  (∀ token, request.accessToken = some token → existing.accessToken = some token) ∧
  (∀ token, request.refreshToken = some token → existing.refreshToken = some token) ∧
  (∀ expiry, request.expiresAt = some expiry → existing.expiresAt = some expiry)

section Creation

variable (s : StateSnapshot) (request : ProviderConnectionInput) (now mint : Nat)

/-- A creation appends a record, or merges it into the first that it takes. -/
theorem createConnection_cases : ∃ id priority,
    let record := request.toRecord id priority (timestamp now)
    let s' := (s.createConnection request now mint).2
    s' = { s with providerConnections := s'.providerConnections } ∧
      (s.providerConnections.find? request.takes = none ∧
          s'.providerConnections = s.providerConnections ++ [record] ∨
        updateFirst request.takes (·.merge record) s.providerConnections =
          some s'.providerConnections) := by
  refine ⟨nextId "conn" mint s.providerConnections.length, request.priority.getD (min
    ((s.providerConnections.filter (·.provider == request.provider)).length + 1) u32Max), ?_⟩
  rw [StateSnapshot.createConnection]
  dsimp only
  split
  · next merged hmerged => exact ⟨rfl, .inr hmerged⟩
  · next hnone => exact ⟨rfl, .inl ⟨updateFirst_eq_none.mp hnone, rfl⟩⟩

private theorem merge_keeps_iff (existing : ProviderConnection) (id : String) (priority : Nat)
    (stamp : String) :
    let created := existing.merge (request.toRecord id priority stamp)
    (created.apiKey = request.apiKey.or existing.apiKey ∧
      created.accessToken = request.accessToken.or existing.accessToken ∧
      created.refreshToken = request.refreshToken.or existing.refreshToken ∧
      created.expiresAt = request.expiresAt.or existing.expiresAt) ↔ request.Fits existing := by
  have hkey : request.apiKey = request.apiKey.or existing.apiKey ↔
      (request.apiKey = none → existing.apiKey = none) := by
    cases request.apiKey with
    | none => simp [eq_comm]
    | some key => simp
  have htoken (mine theirs : Option String) :
      theirs = mine.or theirs ↔ ∀ token, mine = some token → theirs = some token := by
    cases mine with
    | none => simp
    | some token => simp
  exact and_congr hkey (and_congr (htoken _ _) (and_congr (htoken _ _) (htoken _ _)))

/-- A creation keeps what was asked, and what was there, exactly where it merges into no record, or
into one that has no API key that the request lacks and the tokens and expiry that it asks for. -/
theorem createConnection_keepsAsked_iff :
    KeepsAsked s request (s.createConnection request now mint).2 ↔
      ∀ existing, s.providerConnections.find? request.takes = some existing →
        request.Fits existing := by
  obtain ⟨id, priority, hrest, ⟨hnone, happend⟩ | hmerge⟩ :=
    createConnection_cases s request now mint
  · have hplace : s.providerConnections.findIdx request.takes = s.providerConnections.length :=
      List.findIdx_eq_length.mpr fun c hc ↦ Bool.not_eq_true _ |>.mp (List.find?_eq_none.mp hnone c hc)
    constructor
    · intro _ existing h
      rw [hnone] at h
      cases h
    · intro _
      refine ⟨⟨request.toRecord id priority (timestamp now), ?_⟩, fun i hi ↦ ?_, hrest⟩
      · rw [happend, hplace]
        simp [ProviderConnectionInput.toRecord]
      · rw [hplace] at hi
        rw [happend]
        grind
  · have hget := getElem?_updateFirst hmerge
    obtain ⟨existing, hexisting⟩ : ∃ existing,
        s.providerConnections.find? request.takes = some existing := by
      apply Option.ne_none_iff_exists'.mp
      intro hnone
      rw [updateFirst_eq_none.mpr hnone] at hmerge
      cases hmerge
    have htaken := List.find?_some hexisting
    simp only [ProviderConnectionInput.takes, Bool.and_eq_true, beq_iff_eq] at htaken
    have hplace := List.find?_eq_getElem?_findIdx.symm.trans hexisting
    have hcreated := hget (s.providerConnections.findIdx request.takes)
    rw [if_pos rfl, hplace, Option.map_some] at hcreated
    have hkeeps := merge_keeps_iff request existing id priority (timestamp now)
    constructor
    · rintro ⟨⟨created, hat, -, -, hsecrets⟩, -, -⟩ other hother
      rw [hcreated, Option.some.injEq] at hat
      subst hat
      rw [hplace] at hsecrets
      rw [hexisting, Option.some.injEq] at hother
      rw [← hother]
      exact hkeeps.mp hsecrets
    · intro hfits
      refine ⟨⟨_, hcreated, htaken.1.1, htaken.2, ?_⟩, fun i hi ↦ ?_, hrest⟩
      · rw [hplace]
        exact hkeeps.mpr (hfits existing hexisting)
      · rw [hget, if_neg hi]

/-- A connection with an API key. -/
private def workKey : ProviderConnectionInput :=
  { provider := "claude", name := "Work", apiKey := some "sk-work" }

/-- A request of the same provider and name that carries tokens and no key. -/
private def workTokens : ProviderConnectionInput :=
  { provider := "claude", name := "Work", authType := some "oauth",
    accessToken := some "access", refreshToken := some "refresh" }

/-- A key that is there is gone after a request with tokens, and so are the tokens. -/
theorem createConnection_loses :
    let s := (StateSnapshot.createConnection {} workKey 1 1).2
    ¬ KeepsAsked s workTokens (s.createConnection workTokens 2 2).2 ∧
      ((s.createConnection workTokens 2 2).2.providerConnections.map fun c ↦
        (c.apiKey, c.accessToken, c.refreshToken)) = [(none, none, none)] := by
  intro s
  refine ⟨fun hkeeps ↦ ?_, by decide +kernel⟩
  obtain ⟨⟨created, hcreated, -, -, hkey, -⟩, -, -⟩ := hkeeps
  have hnone : ((s.createConnection workTokens 2 2).2.providerConnections[
      s.providerConnections.findIdx workTokens.takes]?).map (·.apiKey) = some none := by
    decide +kernel
  have hthere : s.providerConnections[s.providerConnections.findIdx workTokens.takes]?.bind
      (·.apiKey) = some "sk-work" := by decide +kernel
  rw [hcreated, Option.map_some, Option.some.injEq] at hnone
  rw [hnone, hthere] at hkey
  cases hkey

end Creation

/-!
## What an update of a connection keeps

`update_provider` (`services/state-actix/src/routes.rs:233`) assembles provider-specific settings
from several fields of a request, and `update_connection` (`store.rs:811`) puts them in the place of
those that are there: which settings that the request does not mention survive this. A refresh of
credentials (`store.rs:1659`) merges its settings.
-/

/-- A provider-specific setting of a connection. -/
def ProviderConnection.setting? (c : ProviderConnection) (key : String) : Option Json :=
  c.providerSpecificData.bind (·[key]?)

namespace ProviderUpdateRequest

variable (request : ProviderUpdateRequest)

/-- Whether a request mentions a provider-specific setting. -/
def Mentions (key : String) : Prop :=
  (∃ data, request.providerSpecificData = some data ∧ key ∈ data) ∨
  key = "proxyPoolId" ∧ request.proxyPoolId ≠ none ∨
  key = "connectionProxyEnabled" ∧ request.connectionProxyEnabled ≠ none ∨
  key = "connectionProxyUrl" ∧ request.connectionProxyUrl ≠ none ∨
  key = "connectionNoProxy" ∧ request.connectionNoProxy ≠ none

/-- What a request that switches the connection's proxy sets a setting to without mentioning it. -/
def implied (key : String) : Option Json :=
  if request.connectionProxyEnabled ≠ none ∧
      (key = "connectionProxyUrl" ∨ key = "connectionNoProxy") then some (.str "")
  else none

/-- A request carries no provider-specific setting, or mentions every one that is there, but for a
URL or a list that its switch empties and that is empty. -/
def Covers (c : ProviderConnection) : Prop :=
  (request.providerSpecificData = none ∧ requestedPool request.proxyPoolId = none ∧
      request.connectionProxyEnabled = none) ∨
    ∀ key, ¬ request.Mentions key → c.setting? key = request.implied key

end ProviderUpdateRequest

/-- A connection after an update, apart from the time of the update: what the request does not
mention is as it was. -/
structure UpdatesOnly (request : ProviderUpdateRequest) (before after : ProviderConnection) :
    Prop where
  name : request.name = none → after.name = before.name
  apiKey : request.apiKey = none → after.apiKey = before.apiKey
  priority : request.priority = none → after.priority = before.priority
  globalPriority : request.globalPriority = none → after.globalPriority = before.globalPriority
  defaultModel : request.defaultModel = none → after.defaultModel = before.defaultModel
  isActive : request.isActive = none → after.isActive = before.isActive
  testStatus : request.testStatus = none → after.testStatus = before.testStatus
  lastError : request.lastError = none → after.lastError = before.lastError
  lastErrorAt : request.lastErrorAt = none → after.lastErrorAt = before.lastErrorAt
  settings (key : String) : ¬ request.Mentions key → after.setting? key = before.setting? key
  others : after = { before with
    name := after.name
    apiKey := after.apiKey
    priority := after.priority
    globalPriority := after.globalPriority
    defaultModel := after.defaultModel
    isActive := after.isActive
    testStatus := after.testStatus
    lastError := after.lastError
    lastErrorAt := after.lastErrorAt
    providerSpecificData := after.providerSpecificData
    updatedAt := after.updatedAt }

/-- A change of one connection, the first of an id, and of nothing else. -/
structure ChangesOne (s : StateSnapshot) (id : String) (s' : StateSnapshot)
    (change : ProviderConnection → ProviderConnection → Prop) : Prop where
  place : ∃ before after, s.providerConnections.find? (·.id == id) = some before ∧
    s'.providerConnections[s.providerConnections.findIdx (·.id == id)]? = some after ∧
    change before after
  others (i : Nat) (h : i ≠ s.providerConnections.findIdx (·.id == id)) :
    s'.providerConnections[i]? = s.providerConnections[i]?
  rest : s' = { s with providerConnections := s'.providerConnections }

/-! ## The settings of a request -/

private theorem getElem?_insert_of_ne {map : Std.ExtTreeMap String Json} {key other : String}
    (value : Json) (h : key ≠ other) : (map.insert other value)[key]? = map[key]? := by
  rw [Std.ExtTreeMap.getElem?_insert, if_neg]
  intro hcompare
  exact h (Std.LawfulEqCmp.eq_of_compare hcompare).symm

private theorem getElem?_insert_self (map : Std.ExtTreeMap String Json) (key : String)
    (value : Json) : (map.insert key value)[key]? = some value := by
  rw [Std.ExtTreeMap.getElem?_insert, if_pos Std.ReflCmp.compare_self]

variable {request : ProviderUpdateRequest} {s : StateSnapshot}

/-- The settings once the connection's proxy is switched, `routes.rs:868`. -/
private def switched (request : ProviderUpdateRequest)
    (base : Option (Std.ExtTreeMap String Json)) :
    Except Reply (Option (Std.ExtTreeMap String Json)) :=
  match request.connectionProxyEnabled with
  | none => .ok base
  | some enabled =>
    let url := trim (request.connectionProxyUrl.getD "")
    if enabled ∧ url.isEmpty then .error proxyUrlRequired
    else
      let data := (base.getD ∅).insert "connectionProxyEnabled" (.bool enabled)
      let data := data.insert "connectionProxyUrl" (.str url)
      .ok (some (data.insert "connectionNoProxy"
        (.str (trim (request.connectionNoProxy.getD "")))))

/-- Settings that hold nothing but what a request mentions. -/
private def Mentioned (request : ProviderUpdateRequest)
    (base : Option (Std.ExtTreeMap String Json)) : Prop :=
  ∀ settings, base = some settings → ∀ key, ¬ request.Mentions key → settings[key]? = none

private theorem mentioned_providerSpecificData :
    Mentioned request request.providerSpecificData := by
  intro data hdata key hkey
  apply Std.ExtTreeMap.getElem?_eq_none
  exact fun hmem ↦ hkey (.inl ⟨data, hdata, hmem⟩)

private theorem mentioned_insert {id : String} (h : request.proxyPoolId ≠ none) :
    Mentioned request
      (some ((request.providerSpecificData.getD ∅).insert "proxyPoolId" (.str id))) := by
  intro settings hsettings key hkey
  have hne : key ≠ "proxyPoolId" := fun he ↦ hkey (.inr (.inl ⟨he, h⟩))
  rw [Option.some.injEq] at hsettings
  rw [← hsettings, getElem?_insert_of_ne _ hne]
  cases hdata : request.providerSpecificData with
  | none => rfl
  | some data => exact mentioned_providerSpecificData data hdata key hkey

private theorem switched_spec {base data : Option (Std.ExtTreeMap String Json)}
    (hbase : Mentioned request base) (h : switched request base = .ok data) :
    (data = none ↔ base = none ∧ request.connectionProxyEnabled = none) ∧
    ∀ settings, data = some settings → ∀ key, ¬ request.Mentions key →
      settings[key]? = request.implied key := by
  rw [switched] at h
  split at h
  · next hswitch =>
    cases h
    refine ⟨by simp [hswitch], fun settings hsettings key hkey ↦ ?_⟩
    rw [ProviderUpdateRequest.implied, if_neg fun hset ↦ hset.1 hswitch]
    exact hbase settings hsettings key hkey
  · next enabled hswitch =>
    dsimp only at h
    split at h
    · cases h
    cases h
    refine ⟨by simp [hswitch], fun settings hsettings key hkey ↦ ?_⟩
    rw [Option.some.injEq] at hsettings
    have henabled : key ≠ "connectionProxyEnabled" := fun he ↦
      hkey (.inr (.inr (.inl ⟨he, by rw [hswitch]; simp⟩)))
    have hempty : trim "" = "" := by decide +kernel
    rw [ProviderUpdateRequest.implied, ← hsettings]
    by_cases hlist : key = "connectionNoProxy"
    · have hnone : request.connectionNoProxy = none := by
        by_contra hsome
        exact hkey (.inr (.inr (.inr (.inr ⟨hlist, hsome⟩))))
      rw [hlist, getElem?_insert_self, hnone, Option.getD_none, hempty,
        if_pos ⟨by rw [hswitch]; simp, .inr rfl⟩]
    rw [getElem?_insert_of_ne _ hlist]
    by_cases hurl : key = "connectionProxyUrl"
    · have hnone : request.connectionProxyUrl = none := by
        by_contra hsome
        exact hkey (.inr (.inr (.inr (.inl ⟨hurl, hsome⟩))))
      rw [hurl, getElem?_insert_self, hnone, Option.getD_none, hempty,
        if_pos ⟨by rw [hswitch]; simp, .inl rfl⟩]
    rw [getElem?_insert_of_ne _ hurl, getElem?_insert_of_ne _ henabled,
      if_neg fun hset ↦ hset.2.elim hurl hlist]
    cases hdata : base with
    | none => rfl
    | some settings => exact hbase settings hdata key hkey

private theorem buildProviderSpecificData_spec {data : Option (Std.ExtTreeMap String Json)}
    (h : buildProviderSpecificData s request.providerSpecificData request.proxyPoolId
      request.connectionProxyEnabled request.connectionProxyUrl request.connectionNoProxy =
        .ok data) :
    (data = none ↔ request.providerSpecificData = none ∧
      requestedPool request.proxyPoolId = none ∧ request.connectionProxyEnabled = none) ∧
    ∀ settings, data = some settings → ∀ key, ¬ request.Mentions key →
      settings[key]? = request.implied key := by
  unfold buildProviderSpecificData at h
  dsimp only at h
  cases hpool : requestedPool request.proxyPoolId with
  | none =>
    rw [hpool] at h
    obtain ⟨hnone, hsettings⟩ := switched_spec mentioned_providerSpecificData h
    exact ⟨by rw [hnone]; simp, hsettings⟩
  | some id =>
    rw [hpool] at h
    have hasked : request.proxyPoolId ≠ none := by
      intro hnone
      rw [hnone] at hpool
      cases hpool
    split at h
    · cases h
    · obtain ⟨hnone, hsettings⟩ := switched_spec (mentioned_insert hasked) h
      exact ⟨by rw [hnone]; simp, hsettings⟩

/-! ## An update -/

private theorem updateProvider_spec {id : String} {input : ProviderConnectionUpdate}
    (h : Routes.updateProvider s id request = .ok (.updateConnection id input)) : ∃ data,
    buildProviderSpecificData s request.providerSpecificData request.proxyPoolId
      request.connectionProxyEnabled request.connectionProxyUrl request.connectionNoProxy =
        .ok data ∧
    input =
      { name := trimOptional request.name
        apiKey := trimOptional request.apiKey
        priority := request.priority
        globalPriority := request.globalPriority
        defaultModel := trimOptional request.defaultModel
        isActive := request.isActive
        testStatus := trimOptional request.testStatus
        lastError := trimOptional request.lastError
        lastErrorAt := trimOptional request.lastErrorAt
        providerSpecificData := data } := by
  rw [Routes.updateProvider] at h
  split at h
  · cases h
  · cases hdata : buildProviderSpecificData s request.providerSpecificData request.proxyPoolId
        request.connectionProxyEnabled request.connectionProxyUrl
        request.connectionNoProxy with
    | error reply =>
      rw [hdata] at h
      cases h
    | ok data =>
      rw [hdata] at h
      cases h
      exact ⟨data, rfl, rfl⟩

private theorem setting?_edit (now : Nat) (input : ProviderConnectionUpdate)
    (before : ProviderConnection) (key : String) : (before.edit now input).setting? key =
      match input.providerSpecificData with
      | none => before.setting? key
      | some settings => settings[key]? := by
  rw [ProviderConnection.setting?, ProviderConnection.edit]
  cases input.providerSpecificData with
  | none => rfl
  | some settings => rfl

private theorem updatesOnly_iff {id : String} {input : ProviderConnectionUpdate}
    (h : Routes.updateProvider s id request = .ok (.updateConnection id input)) (now : Nat)
    (before : ProviderConnection) :
    UpdatesOnly request before (before.edit now input) ↔ request.Covers before := by
  obtain ⟨data, hbuild, rfl⟩ := updateProvider_spec h
  obtain ⟨hnone, hsettings⟩ := buildProviderSpecificData_spec hbuild
  constructor
  · intro hupdates
    cases hdata : data with
    | none => exact .inl (hnone.mp hdata)
    | some settings =>
      refine .inr fun key hkey ↦ ?_
      have hkept := hupdates.settings key hkey
      rw [setting?_edit] at hkept
      dsimp only at hkept
      rw [hdata] at hkept
      rw [← hkept]
      exact hsettings settings hdata key hkey
  · intro hcovers
    have hkept : ∀ key, ¬ request.Mentions key → (before.edit now
        { name := trimOptional request.name
          apiKey := trimOptional request.apiKey
          priority := request.priority
          globalPriority := request.globalPriority
          defaultModel := trimOptional request.defaultModel
          isActive := request.isActive
          testStatus := trimOptional request.testStatus
          lastError := trimOptional request.lastError
          lastErrorAt := trimOptional request.lastErrorAt
          providerSpecificData := data }).setting? key = before.setting? key := by
      intro key hkey
      rw [setting?_edit]
      dsimp only
      cases hdata : data with
      | none => rfl
      | some settings =>
        rcases hcovers with hempty | hall
        · rw [hnone.mpr hempty] at hdata
          cases hdata
        · rw [hall key hkey]
          exact hsettings settings hdata key hkey
    constructor
    case settings => exact hkept
    case others => rfl
    all_goals
      intro habsent
      simp only [ProviderConnection.edit, habsent, trimOptional, Option.map_none, Option.filter_none,
        Option.getD_none, Option.none_or]

/-- An update changes what a request mentions, and nothing that it does not, exactly where the
request carries no provider-specific setting, or mentions every one that is there. -/
theorem updateProvider_changesOne_iff {id : String} {input : ProviderConnectionUpdate}
    {s' : StateSnapshot} {now : Nat}
    (hroute : Routes.updateProvider s id request = .ok (.updateConnection id input))
    (hupdate : s.updateConnection id input now = some s') :
    ChangesOne s id s' (UpdatesOnly request) ↔
      ∀ before, s.providerConnections.find? (·.id == id) = some before →
        request.Covers before := by
  obtain ⟨changed, hchanged, rfl⟩ := Option.map_eq_some_iff.mp hupdate
  have hget := getElem?_updateFirst hchanged
  obtain ⟨before, hbefore⟩ : ∃ before,
      s.providerConnections.find? (·.id == id) = some before := by
    apply Option.ne_none_iff_exists'.mp
    intro hnone
    rw [updateFirst_eq_none.mpr hnone] at hchanged
    cases hchanged
  have hafter := hget (s.providerConnections.findIdx (·.id == id))
  rw [if_pos rfl, ← List.find?_eq_getElem?_findIdx, hbefore, Option.map_some] at hafter
  have hiff := updatesOnly_iff hroute now before
  constructor
  · rintro ⟨⟨other, after, hother, hat, hupdates⟩, -, -⟩ found hfound
    rw [hbefore, Option.some.injEq] at hother hfound
    rw [hafter, Option.some.injEq] at hat
    rw [← hother, ← hat] at hupdates
    rw [← hfound]
    exact hiff.mp hupdates
  · intro hcovers
    refine ⟨⟨before, _, hbefore, hafter, hiff.mpr (hcovers before hbefore)⟩, fun i hi ↦ ?_, rfl⟩
    rw [hget, if_neg hi]

/-- A connection with a region. -/
private def regional : ProviderConnection :=
  let request : ProviderConnectionInput :=
    { provider := "vertex"
      name := "Work"
      providerSpecificData := some (.ofList [("region", Json.str "europe-west1")]) }
  request.toRecord "conn_1" 1 "unix-ms:1"

private def officePool : ProxyPool where
  id := "pool_1"
  name := "Office"
  proxyUrl := "http://127.0.0.1:8888"
  noProxy := ""
  proxyType := "http"
  isActive := true
  strictProxy := false
  testStatus := "unknown"
  lastTestedAt := none
  lastError := none
  createdAt := "unix-ms:1"
  updatedAt := "unix-ms:1"

/-- A store of that connection and one proxy pool. -/
private def regionalStore : StateSnapshot :=
  { providerConnections := [regional], proxyPools := [officePool] }

/-- A new priority leaves the region. -/
theorem updateProvider_priority :
    ChangesOne regionalStore "conn_1"
      { regionalStore with providerConnections := [regional.edit 2 { priority := some 2 }] }
      (UpdatesOnly { priority := some 2 }) :=
  have hroute : Routes.updateProvider regionalStore "conn_1" { priority := some 2 } =
      .ok (.updateConnection "conn_1" { priority := some 2 }) := rfl
  have hupdate : regionalStore.updateConnection "conn_1" { priority := some 2 } 2 = some
      { regionalStore with providerConnections := [regional.edit 2 { priority := some 2 }] } := by
    decide +kernel
  (updateProvider_changesOne_iff hroute hupdate).mpr fun _ _ ↦ .inl ⟨rfl, rfl, rfl⟩

/-- A request that only binds a connection to a proxy pool loses its region. -/
theorem updateProvider_pool_loses :
    let request : ProviderUpdateRequest := { proxyPoolId := some (.str "pool_1") }
    ∃ input s', Routes.updateProvider regionalStore "conn_1" request =
        .ok (.updateConnection "conn_1" input) ∧
      regionalStore.updateConnection "conn_1" input 2 = some s' ∧
      ¬ ChangesOne regionalStore "conn_1" s' (UpdatesOnly request) ∧
      s'.providerConnections.map (·.setting? "region") = [none] := by
  let input : ProviderConnectionUpdate :=
    { providerSpecificData := some ((∅ : Std.ExtTreeMap String Json).insert "proxyPoolId"
        (Json.str "pool_1")) }
  have hpool : requestedPool (some (.str "pool_1")) = some "pool_1" := by decide +kernel
  have hexists : regionalStore.proxyPoolExists "pool_1" = true := by decide +kernel
  have hthere : regional.setting? "region" = some (.str "europe-west1") := by decide +kernel
  have hlost : (regional.edit 2 input).setting? "region" = none := by decide +kernel
  refine ⟨input, { regionalStore with providerConnections := [regional.edit 2 input] }, ?_, ?_,
    ?_, ?_⟩
  · rw [Routes.updateProvider, if_neg (fun hswitch ↦ by cases hswitch.1),
      buildProviderSpecificData]
    dsimp only
    rw [hpool, if_neg (by simp [hexists])]
    rfl
  · decide +kernel
  · rintro ⟨⟨before, after, hbefore, hafter, hupdates⟩, -, -⟩
    have hfirst : regionalStore.providerConnections.find? (·.id == "conn_1") = some regional := by
      decide +kernel
    have hplace : regionalStore.providerConnections.findIdx (·.id == "conn_1") = 0 := by
      decide +kernel
    rw [hfirst, Option.some.injEq] at hbefore
    rw [hplace] at hafter
    obtain rfl : regional.edit 2 input = after := Option.some.inj hafter
    have hkept := hupdates.settings "region" (by
      rintro (⟨data, hdata, -⟩ | h | h | h | h)
      · cases hdata
      all_goals exact absurd h.1 (by decide))
    rw [← hbefore, hthere, hlost] at hkept
    cases hkept
  · rw [List.map_singleton, hlost]

end NullRouter.State
