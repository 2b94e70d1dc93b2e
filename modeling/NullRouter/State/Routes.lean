import NullRouter.State.Atomicity

/-!
# Routes of the state service

The handlers of connections, combos and proxy pools (`services/state-actix/src/routes.rs`), and how
a legacy installation is imported (`migrate.rs`): what each reads of the store before it writes,
the operations it then calls, and its refusals.
-/

namespace NullRouter.State

open NullRouter.Base

/-- What a route answers: a status, and the message of a refusal. -/
structure Reply where
  status : Nat
  error : Option String := none
  deriving DecidableEq

namespace Reply

/-- `bad_request`, `routes.rs:811`. -/
def badRequest (message : String) : Reply := ⟨400, some message⟩

/-- `internal_error`, `routes.rs:819`. -/
def internalError : Reply := ⟨500, some "State service error"⟩

/-- The refusal of `parse_json`, `routes.rs:804`. -/
def invalidBody : Reply := badRequest "Invalid JSON body"

end Reply

/-- `trim_optional`, `routes.rs:833`. -/
def trimOptional (value : Option String) : Option String := (value.map trim).filter (!·.isEmpty)

/-- `is_valid_combo_name`, `routes.rs:839`. -/
def isValidComboName (name : String) : Bool :=
  name.toList.all fun c ↦ c.isAlphanum || c == '-' || c == '_' || c == '.'

/-- `serde_json::from_value::<Vec<String>>`. -/
def stringArray? (value : Json) : Option (List String) := value.asArray.bind (·.mapM Json.asStr)

namespace StateSnapshot

/-- `proxy_pool_exists`, `store.rs:866`. -/
def proxyPoolExists (s : StateSnapshot) (id : String) : Bool := s.proxyPools.any (·.id == id)

/-- `combo_name_exists`, `store.rs:882`. -/
def comboNameExists (s : StateSnapshot) (name : String) (exceptId : Option String) : Bool :=
  s.combos.any fun c ↦ c.name == name && exceptId.all (c.id != ·)

end StateSnapshot

/-! ## Connections -/

/-- `ProviderRequest`, `routes.rs:119`. -/
structure ProviderRequest where
  provider : Option String := none
  apiKey : Option String := none
  name : Option String := none
  displayName : Option String := none
  priority : Option Nat := none
  globalPriority : Option Nat := none
  defaultModel : Option String := none
  testStatus : Option String := none
  providerSpecificData : Option (Std.ExtTreeMap String Json) := none
  proxyPoolId : Option Json := none
  connectionProxyEnabled : Option Bool := none
  connectionProxyUrl : Option String := none
  connectionNoProxy : Option String := none

/-- `ProviderUpdateRequest`, `routes.rs:137`. -/
structure ProviderUpdateRequest where
  name : Option String := none
  apiKey : Option String := none
  priority : Option Nat := none
  globalPriority : Option Nat := none
  defaultModel : Option String := none
  isActive : Option Bool := none
  testStatus : Option String := none
  lastError : Option String := none
  lastErrorAt : Option String := none
  providerSpecificData : Option (Std.ExtTreeMap String Json) := none
  proxyPoolId : Option Json := none
  connectionProxyEnabled : Option Bool := none
  connectionProxyUrl : Option String := none
  connectionNoProxy : Option String := none

/-- The pool a request asks for, if it asks for one. -/
def requestedPool (proxyPoolId : Option Json) : Option String :=
  ((proxyPoolId.bind Json.asStr).map trim).filter fun id ↦ id ≠ "" ∧ id ≠ "__none__"

/-- The message for a proxy that is switched on without a URL. -/
def proxyUrlRequired : Reply :=
  .badRequest "Connection proxy URL is required when connection proxy is enabled"

/-- `build_provider_specific_data`, `routes.rs:844`. -/
def buildProviderSpecificData (s : StateSnapshot)
    (providerSpecificData : Option (Std.ExtTreeMap String Json)) (proxyPoolId : Option Json)
    (connectionProxyEnabled : Option Bool) (connectionProxyUrl connectionNoProxy : Option String) :
    Except Reply (Option (Std.ExtTreeMap String Json)) :=
  let pool := requestedPool proxyPoolId
  if pool.any (!s.proxyPoolExists ·) then .error (.badRequest "Proxy pool not found")
  else
    let data := match pool with
      | some id => some ((providerSpecificData.getD ∅).insert "proxyPoolId" (.str id))
      | none => providerSpecificData
    match connectionProxyEnabled with
    | none => .ok data
    | some enabled =>
      let url := trim (connectionProxyUrl.getD "")
      if enabled ∧ url.isEmpty then .error proxyUrlRequired
      else
        let data := (data.getD ∅).insert "connectionProxyEnabled" (.bool enabled)
        let data := data.insert "connectionProxyUrl" (.str url)
        .ok (some (data.insert "connectionNoProxy" (.str (trim (connectionNoProxy.getD "")))))

/-- `create_provider`, `routes.rs:165`, up to the operation it calls. -/
def Routes.createProvider (s : StateSnapshot) (request : ProviderRequest) :
    Except Reply Operation :=
  match trimOptional request.provider with
  | none => .error (.badRequest "Invalid provider")
  | some provider =>
    let apiKey := trimOptional request.apiKey
    if provider ≠ "ollama-local" ∧ apiKey.isNone then .error (.badRequest "API Key is required")
    else
      let name := ((trimOptional request.name).or (trimOptional request.displayName)).getD provider
      (buildProviderSpecificData s request.providerSpecificData request.proxyPoolId
        request.connectionProxyEnabled request.connectionProxyUrl request.connectionNoProxy).map
        fun data ↦ .createConnection
          { provider, name, apiKey
            authType := some "apikey"
            priority := request.priority
            globalPriority := request.globalPriority
            defaultModel := trimOptional request.defaultModel
            isActive := some true
            testStatus := trimOptional request.testStatus
            providerSpecificData := data }

/-- `update_provider`, `routes.rs:233`, up to the operation it calls. -/
def Routes.updateProvider (s : StateSnapshot) (id : String) (request : ProviderUpdateRequest) :
    Except Reply Operation :=
  if request.connectionProxyEnabled = some true ∧
      request.connectionProxyUrl.all (fun url ↦ (trim url).isEmpty) then .error proxyUrlRequired
  else
    (buildProviderSpecificData s request.providerSpecificData request.proxyPoolId
      request.connectionProxyEnabled request.connectionProxyUrl request.connectionNoProxy).map
      fun data ↦ .updateConnection id
        { name := trimOptional request.name
          apiKey := trimOptional request.apiKey
          priority := request.priority
          globalPriority := request.globalPriority
          defaultModel := trimOptional request.defaultModel
          isActive := request.isActive
          testStatus := trimOptional request.testStatus
          lastError := trimOptional request.lastError
          lastErrorAt := trimOptional request.lastErrorAt
          providerSpecificData := data }

/-! ## Combos -/

/-- `ComboRequest`, `routes.rs:289`. -/
structure ComboRequest where
  name : Option String := none
  kind : Option String := none
  models : Option (List String) := none

/-- The refusal of a name that is not one of a combo. -/
def comboNameInvalid : Reply :=
  .badRequest "Name can only contain letters, numbers, -, _ and ."

/-- `create_combo`, `routes.rs:302`, up to the operation it calls. -/
def Routes.createCombo (s : StateSnapshot) (request : ComboRequest) : Except Reply Operation :=
  match trimOptional request.name with
  | none => .error (.badRequest "Name is required")
  | some name =>
    if !isValidComboName name then .error comboNameInvalid
    else if s.comboNameExists name none then .error (.badRequest "Combo name already exists")
    else .ok (.createCombo name request.kind (request.models.getD []))

/-- `update_combo`, `routes.rs:332`, up to the operation it calls. -/
def Routes.updateCombo (s : StateSnapshot) (id : String) (value : Json) : Except Reply Operation :=
  let update (name : Option String) : Operation := .updateCombo id
    { name := name.map trim
      kind := value.strField "kind"
      kindSet := (value.get "kind").isSome
      models := (value.get "models").bind stringArray? }
  match value.strField "name" with
  | none => .ok (update none)
  | some name =>
    if (trim name).isEmpty then .error (.badRequest "Name is required")
    else if !isValidComboName name then .error comboNameInvalid
    else if s.comboNameExists name (some id) then .error (.badRequest "Combo name already exists")
    else .ok (update (some name))

/-! ## Proxy pools -/

/-- `ProxyPoolRequest`, `routes.rs:403`. -/
structure ProxyPoolRequest where
  name : Option String := none
  proxyUrl : Option String := none
  noProxy : Option String := none
  isActive : Option Bool := none
  strictProxy : Option Bool := none
  proxyType : Option String := none
  testStatus : Option String := none
  lastTestedAt : Option String := none
  lastError : Option String := none

/-- `normalize_proxy_type`, `routes.rs:954`. -/
def normalizeProxyType (value : String) : String :=
  if value ∈ ["http", "vercel", "cloudflare", "deno"] then value else "http"

/-- `parse_proxy_pool_input`, `routes.rs:892`. -/
def parseProxyPoolInput (request : ProxyPoolRequest) : Except Reply ProxyPoolInput :=
  match trimOptional request.name, trimOptional request.proxyUrl with
  | none, _ => .error (.badRequest "Name is required")
  | some _, none => .error (.badRequest "Proxy URL is required")
  | some name, some proxyUrl => .ok
    { name, proxyUrl
      noProxy := request.noProxy.map trim
      proxyType := request.proxyType.map normalizeProxyType
      isActive := request.isActive
      strictProxy := request.strictProxy
      testStatus := request.testStatus }

/-- `proxy_pool_update_from_request`, `routes.rs:910`; an update knows no pool of type `deno`. -/
def proxyPoolUpdateFromRequest (request : ProxyPoolRequest) : Except Reply ProxyPoolUpdate :=
  if request.name.any fun name ↦ (trim name).isEmpty then .error (.badRequest "Name is required")
  else if request.proxyUrl.any fun url ↦ (trim url).isEmpty then
    .error (.badRequest "Proxy URL is required")
  else .ok
    { name := request.name.map trim
      proxyUrl := request.proxyUrl.map trim
      noProxy := request.noProxy.map trim
      proxyType := request.proxyType.map fun value ↦
        if value ∈ ["http", "vercel", "cloudflare"] then value else "http"
      isActive := request.isActive
      strictProxy := request.strictProxy
      testStatus := request.testStatus
      lastTestedAt := request.lastTestedAt
      lastError := request.lastError.map some }

/-! ## Legacy installations -/

/-- `Record`, `migrate.rs:116`: a legacy record as its columns. -/
abbrev Record := Std.ExtTreeMap String Json

namespace Record

variable (fromStr : String → Option Json) (record : Record) (key : String)

/-- `Record::text`, `migrate.rs:122`. -/
def text : Option String := trimOptional (record[key]?.bind Json.asStr)

/-- `Record::number`, `migrate.rs:131`. -/
def number : Option Nat := (record[key]?.bind Json.asU64).filter (· ≤ u32Max)

/-- `Record::flag`, `migrate.rs:139`. -/
def flag : Option Bool :=
  record[key]?.bind fun value ↦ value.asBool.or (value.asU64.map (· != 0))

/-- The fields of an object as a map. -/
def ofObject? (value : Json) : Option Record :=
  value.asObject.map fun fields ↦ fields.foldl (fun map field ↦ map.insert field.1 field.2) ∅

/-- `Record::object`, `migrate.rs:148`. -/
def object : Option Record :=
  match record[key]? with
  | some (.str text) => (fromStr text).bind ofObject?
  | some value => ofObject? value
  | none => none

/-- `Record::string_list`, `migrate.rs:157`. -/
def stringList : List String :=
  match record[key]? with
  | some (.arr items) => items.filterMap Json.asStr
  | some (.str text) => ((fromStr text).bind stringArray?).getD []
  | _ => []

end Record

/-- `Extracted`, `migrate.rs:193`, less the API keys, which are never imported. -/
structure Extracted where
  connections : List Record := []
  combos : List Record := []
  proxyPools : List Record := []
  settings : Option Record := none

namespace Extracted

variable (fromStr : String → Option Json)

/-- What `import` does with a connection, `migrate.rs:352`. -/
def connection? (existing : Connections) (record : Record) : Option Operation :=
  (record.text "provider").bind fun provider ↦
    let name := (((record.text "name").or (record.text "displayName")).or
      (record.text "email")).getD provider
    if existing.any fun c ↦ c.provider == provider && c.name == name then none
    else some (.createConnection
      { provider, name
        authType := record.text "authType"
        apiKey := record.text "apiKey"
        priority := record.number "priority"
        globalPriority := record.number "globalPriority"
        defaultModel := record.text "defaultModel"
        isActive := record.flag "isActive"
        testStatus := record.text "testStatus"
        email := record.text "email"
        providerSpecificData := record.object fromStr "providerSpecificData"
        accessToken := record.text "accessToken"
        refreshToken := record.text "refreshToken"
        expiresAt := record.text "expiresAt" })

/-- What `import` does with a proxy pool, `migrate.rs:408`. -/
def proxyPool? (existing : List ProxyPool) (record : Record) : Option Operation :=
  (record.text "name").bind fun name ↦
    if existing.any (·.name == name) then none
    else some (.createProxyPool
      { name
        proxyUrl := (record.text "proxyUrl").getD ""
        noProxy := record.text "noProxy"
        proxyType := record.text "type"
        isActive := record.flag "isActive"
        strictProxy := record.flag "strictProxy"
        testStatus := record.text "testStatus" })

/-- What `import` does with a combo, `migrate.rs:445`. -/
def combo? (existing : List Combo) (record : Record) : Option Operation :=
  (record.text "name").bind fun name ↦
    let models := record.stringList fromStr "models"
    if existing.any (·.name == name) then none
    else if models.isEmpty then none
    else some (.createCombo name (record.text "kind") models)

/-- The writes of `import`, `migrate.rs:310`, in their order, against what it read of the store. -/
def writes (legacy : Extracted) (connections : Connections) (pools : List ProxyPool)
    (combos : List Combo) : List Operation :=
  legacy.connections.filterMap (connection? fromStr connections) ++
    legacy.proxyPools.filterMap (proxyPool? pools) ++
    legacy.combos.filterMap (combo? fromStr combos) ++
    (legacy.settings.map Operation.applyImportedSettings).toList

end Extracted
end NullRouter.State
