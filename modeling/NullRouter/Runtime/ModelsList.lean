import NullRouter.Base.Grouping
import NullRouter.Runtime.Targets

/-!
# The list of models

`build_models_list` of `crates/providers/src/models_list.rs:127`, the part of the provider
registry that it reads, `crates/providers/src/registry.rs`, and the input that the runtime makes
of its routing context, `services/runtime-actix/src/pipeline.rs:845`. The entries of the registry
are a parameter; what the probed providers answer is one too.
-/

namespace NullRouter.Runtime

open NullRouter.Base

/-- `Model`, `registry.rs`, as far as the list reads it. -/
structure RegistryModel where
  id : String
  kind : Option String
  deriving DecidableEq

/-- `RegistryEntry`, `registry.rs:65`, as far as names and the list depend on it. -/
structure RegistryEntry where
  id : String
  providerAlias : Option String
  aliases : List String
  models : List RegistryModel
  serviceKinds : Option (List String)
  deriving DecidableEq

/-- The names of an entry, in the order in which `ALIAS_TO_ID` takes them. -/
def RegistryEntry.names (entry : RegistryEntry) : List String :=
  entry.id :: entry.providerAlias.toList ++ entry.aliases

/-- `RegistryEntry::models_key`. -/
def RegistryEntry.modelsKey (entry : RegistryEntry) : String :=
  entry.providerAlias.getD entry.id

/-- `RegistryModel::kind_or_default`, as `service_kind` maps it, `models_list.rs:68`. -/
def serviceKind (model : RegistryModel) : String :=
  let kind := model.kind.getD "llm"
  if kind ∈ ["image", "tts", "embedding", "stt", "imageToText"] then kind else "llm"

/-- `entries`, `registry.rs`: the provider registry, in its order. -/
abbrev Catalogue := List RegistryEntry

/-- `MEDIA_ONLY_ALIASES`, `registry.rs:36`. -/
def mediaOnlyAliases : List (String × String) :=
  [("el", "elevenlabs"), ("jina", "jina-ai"), ("jina-ai", "jina-ai"), ("polly", "aws-polly"),
    ("aws-polly", "aws-polly")]

/-- `normalize_model_id`, `registry.rs`, from the character before: a dash between two digits
becomes a dot. -/
def normalizeModelId : Option Char → List Char → List Char
  | _, [] => []
  | before, c :: rest =>
    (if c = '-' ∧ before.any Char.isDigit ∧ rest.head?.any Char.isDigit then '.' else c) ::
      normalizeModelId (some c) rest

namespace Catalogue

variable (catalogue : Catalogue)

/-- `entry`: of two entries with one id, the later is in the map. -/
def entry (providerId : String) : Option RegistryEntry :=
  catalogue.reverse.find? (·.id == providerId)

/-- `resolve_provider_id`: a later name of `ALIAS_TO_ID` replaces an earlier one, and the media
aliases replace none. -/
def resolveProviderId (aliasOrId : String) : String :=
  let names := catalogue.flatMap fun entry ↦ entry.names.map (·, entry.id)
  ((names.reverse.lookup aliasOrId).or (mediaOnlyAliases.lookup aliasOrId)).getD aliasOrId

/-- What the resolver of targets reads of the registry. -/
def registry : Registry where
  hasEntry id := (catalogue.entry id).isSome
  resolveProviderId := catalogue.resolveProviderId

/-- `models_for_key`. -/
def modelsForKey (aliasOrId : String) : List RegistryModel :=
  ((catalogue.reverse.find? (·.modelsKey == aliasOrId)).map (·.models)).getD []

/-- `find_model`: by its id, or for Kiro by the id with dots in its version. -/
def findModel (aliasOrId modelId : String) : Option RegistryModel :=
  let models := catalogue.modelsForKey aliasOrId
  let normalized := String.ofList (normalizeModelId none modelId.toList)
  match models.find? (·.id == modelId) with
  | some model => some model
  | none =>
    if aliasOrId ∉ ["kr", "kiro"] ∨ normalized = modelId then none
    else models.find? (·.id == normalized)

/-- `provider_matches_kinds`, `models_list.rs:110`: a provider without kinds is for chat. -/
def providerMatchesKinds (providerId : String) (kindFilter : List String) : Bool :=
  match ((catalogue.entry providerId).bind (·.serviceKinds)).filter (!·.isEmpty) with
  | none => kindFilter.contains "llm"
  | some kinds => kinds.any kindFilter.contains

/-- The name under which the registry lists the models of a provider: its own id where it has no
entry. -/
def staticAlias (providerId : String) : String :=
  ((catalogue.entry providerId).map (·.modelsKey)).getD providerId

end Catalogue

/-- `ModelRow`, `models_list.rs:19`. -/
structure ModelRow where
  id : String
  object : String
  kind : Option String
  ownedBy : String
  deriving DecidableEq

/-- `ModelRow::new`. -/
def ModelRow.new (id ownedBy : String) : ModelRow := ⟨id, "model", none, ownedBy⟩

/-- `ConnectionView`, `models_list.rs:40`. -/
structure ConnectionView where
  provider : String
  nodePrefix : Option String
  enabledModels : List String
  deriving DecidableEq

/-- `ComboView`, `models_list.rs:50`. -/
structure ComboView where
  name : String
  kind : Option String
  deriving DecidableEq

/-- `ModelsListInput`, `models_list.rs:57`. -/
structure ModelsListInput where
  connections : List ConnectionView
  combos : List ComboView
  /-- A model of a provider, by its alias. -/
  modelAliases : Std.ExtTreeMap String String
  /-- The disabled models, by the name their provider is listed under. -/
  disabledModels : Std.ExtTreeMap String (List String)

/-- `infer_kind_from_id`, `models_list.rs:81`. -/
def inferKindFromId (modelId : String) : String :=
  let lower := toLowercase modelId.toList
  let anyOf := fun (needles : List String) ↦ needles.any (containsText lower ·.toList)
  if anyOf ["embed"] then "embedding"
  else if anyOf ["tts", "speech", "audio", "voice"] then "tts"
  else if anyOf ["image", "imagen", "dall-e", "dalle", "flux", "sdxl", "sd-", "stable-diffusion"]
  then "image"
  else "llm"

/-- `strip_known_prefix`, `models_list.rs:262`. -/
def stripKnownPrefix (modelId outputAlias staticAlias providerId : String) : String :=
  ([outputAlias, staticAlias, providerId].findSome? fun name ↦
    (stripPrefix? name modelId).bind (stripPrefix? "/")).getD modelId

namespace ModelsListInput

variable (input : ModelsListInput)

/-- `is_disabled`, `models_list.rs:276`. -/
def isDisabled (key modelId : String) : Bool :=
  (input.disabledModels[key]?.getD []).contains modelId

/-- `alias_models_for`, `models_list.rs:239`: the models that an alias names of this provider. -/
def aliasModelsFor (outputAlias staticAlias providerId : String) : List String :=
  (((input.modelAliases.toList.map Prod.snd).filter fun full ↦ full.toList.contains '/').filter
      fun full ↦ [outputAlias, staticAlias, providerId].any fun name ↦
        (name ++ "/").toList.isPrefixOf full.toList).map
    (stripKnownPrefix · outputAlias staticAlias providerId) |>.filter (trim · ≠ "")

end ModelsListInput

/-- The alias that a connection's models are listed under: its prefix without the blanks around
it, or else the name in the registry. -/
def ConnectionView.outputAlias (catalogue : Catalogue) (connection : ConnectionView) : String :=
  ((connection.nodePrefix.map trim).filter (· ≠ "")).getD
    (catalogue.staticAlias connection.provider)

/-- The models of a connection, `models_list.rs:199–227`: the enabled ones, or else those of the
registry, and those that an alias names. -/
def ConnectionView.models (catalogue : Catalogue) (input : ModelsListInput)
    (connection : ConnectionView) : List String :=
  let outputAlias := connection.outputAlias catalogue
  let staticAlias := catalogue.staticAlias connection.provider
  let modelIds :=
    if connection.enabledModels.isEmpty then (catalogue.modelsForKey staticAlias).map (·.id)
    else connection.enabledModels.filter (trim · ≠ "")
  ((modelIds ++ input.aliasModelsFor outputAlias staticAlias connection.provider).map
    (stripKnownPrefix · outputAlias staticAlias connection.provider)).filter
      (trim · ≠ "") |>.eraseDups

section

variable (catalogue : Catalogue) (input : ModelsListInput) (kindFilter : List String)

/-- The rows of the combos, `models_list.rs:131–141`. -/
def comboRows : List ModelRow :=
  input.combos.filterMap fun combo ↦
    let kind := combo.kind.getD "llm"
    if !kindFilter.contains kind then none
    else
      let row := ModelRow.new combo.name "combo"
      some (if kind = "webSearch" ∨ kind = "webFetch" then { row with kind := some kind } else row)

/-- `push_static_catalog`, `models_list.rs:153`. -/
def staticCatalog : List ModelRow :=
  catalogue.flatMap fun entry ↦
    if entry.models.isEmpty || !catalogue.providerMatchesKinds entry.id kindFilter then []
    else
      let key := entry.modelsKey
      entry.models.filterMap fun model ↦
        if !kindFilter.contains (serviceKind model) || input.isDisabled key model.id then none
        else some (.new (key ++ "/" ++ model.id) key)

/-- `push_connected_catalog`, `models_list.rs:170`: of the connections of a provider, the first
decides. -/
def connectedCatalog : List ModelRow :=
  (firsts (·.provider) input.connections).flatMap fun connection ↦
    if !catalogue.providerMatchesKinds connection.provider kindFilter then []
    else
      let staticAlias := catalogue.staticAlias connection.provider
      let outputAlias := connection.outputAlias catalogue
      (connection.models catalogue input).filterMap fun modelId ↦
        let kind := ((catalogue.findModel staticAlias modelId).map serviceKind).getD
          (inferKindFromId modelId)
        -- A model that reads images stays in the list of the chat models.
        let allowAsLlm := kind = "imageToText" && kindFilter.contains "llm"
        if !kindFilter.contains kind && !allowAsLlm then none
        else if input.isDisabled outputAlias modelId || input.isDisabled staticAlias modelId then
          none
        else some (.new (outputAlias ++ "/" ++ modelId) outputAlias)

/-- `dedupe_by_id`, `models_list.rs:284`. -/
def dedupeById (rows : List ModelRow) : List ModelRow := firsts (·.id) (rows.filter (·.id ≠ ""))

/-- `build_models_list`, `models_list.rs:127`. -/
def buildModelsList : List ModelRow :=
  dedupeById (comboRows input kindFilter ++
    if input.connections.isEmpty then staticCatalog catalogue input kindFilter
    else connectedCatalog catalogue input kindFilter)

end

/-- `ConnectionSummary`, `state_client.rs:83`, with the models that its owner enabled. -/
structure ListedConnection extends ConnectionSummary where
  enabledModels : List String

/-- `Combo`, `state_client.rs:72`, with its kind. -/
structure ListedCombo extends RoutedCombo where
  kind : Option String

/-- `RoutingContext`, `state_client.rs:59`, as far as targets and the list depend on it. -/
structure ListedContext where
  combos : List ListedCombo
  connections : List ListedConnection
  comboStrategy : Option String
  comboStickyRoundRobinLimit : Option Nat
  comboStrategies : Std.ExtTreeMap String (Option String)

namespace ListedContext

variable (context : ListedContext) (probed : Std.ExtTreeMap String (List String))

/-- What the resolver of targets reads of the context. -/
def routing : RoutingContext where
  combos := context.combos.map (·.toRoutedCombo)
  connections := context.connections.map (·.toConnectionSummary)
  comboStrategy := context.comboStrategy
  comboStickyRoundRobinLimit := context.comboStickyRoundRobinLimit
  comboStrategies := context.comboStrategies

/-- The input of the list, `pipeline.rs:852–880`, with these aliases and disabled models: what its
provider answers fills the gap of a connection without enabled models. -/
def input (modelAliases : Std.ExtTreeMap String String)
    (disabledModels : Std.ExtTreeMap String (List String)) : ModelsListInput where
  connections := context.connections.map fun connection ↦
    ⟨connection.provider, connection.nodePrefix,
      if connection.enabledModels.isEmpty then probed[connection.provider]?.getD []
      else connection.enabledModels⟩
  combos := context.combos.map fun combo ↦ ⟨combo.name, combo.kind⟩
  modelAliases := modelAliases
  disabledModels := disabledModels

end ListedContext

/-- `models_list_with`, `pipeline.rs:845`: without the aliases and the disabled models of the
store. -/
def modelsListWith (catalogue : Catalogue) (context : ListedContext)
    (probed : Std.ExtTreeMap String (List String)) (kinds : List String) : List ModelRow :=
  buildModelsList catalogue (context.input probed ∅ ∅) kinds

end NullRouter.Runtime
