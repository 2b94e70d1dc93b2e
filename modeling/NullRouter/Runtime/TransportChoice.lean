import NullRouter.Runtime.ModelsList
import NullRouter.Translate.Thinking

/-!
# The transport of a request

`runtime_transport` of `crates/providers/src/format.rs:317–345`, with the lookups of
`crates/providers/src/registry.rs` over the entries that it reads. The models of an entry are kept
under its alias and named without a thinking suffix; the gate looks for them under the provider's id
and by the name as it is written.
-/

namespace NullRouter.Runtime

open NullRouter.Base NullRouter.Translate NullRouter.Translate.Thinking

/-- `Format::as_str`, `format.rs:34`. -/
def formatName : Format → String
  | .openAi => "openai"
  | .openAiResponses => "openai-responses"
  | .claude => "claude"
  | .gemini => "gemini"
  | .geminiCli => "gemini-cli"
  | .vertex => "vertex"
  | .codex => "codex"
  | .antigravity => "antigravity"
  | .kiro => "kiro"
  | .cursor => "cursor"
  | .ollama => "ollama"
  | .commandCode => "commandcode"
  | .grokWeb => "grok-web"
  | .perplexityWeb => "perplexity-web"

/-- `Transport`, `registry.rs`, as far as its format. -/
structure ServedTransport where
  format : Option String
  deriving DecidableEq

/-- `format_or_default`, `registry.rs:225`. -/
def ServedTransport.formatOrDefault (transport : ServedTransport) : String :=
  transport.format.getD "openai"

/-- `Model`, `registry.rs:380`, as far as its formats. -/
structure ServedModel where
  id : String
  supportedFormats : List String
  deriving DecidableEq

/-- A model that declares nothing serves every format. -/
def ServedModel.Serves (model : ServedModel) (format : String) : Prop :=
  model.supportedFormats = [] ∨ format ∈ model.supportedFormats

instance (model : ServedModel) (format : String) : Decidable (model.Serves format) :=
  inferInstanceAs (Decidable (_ ∨ _))

/-- `RegistryEntry`, `registry.rs:65`, as far as its names, models and transports. -/
structure ServedEntry where
  id : String
  providerAlias : Option String
  aliases : List String
  models : List ServedModel
  transports : Option (List ServedTransport)

/-- `RegistryEntry::models_key`, `registry.rs:109`. -/
def ServedEntry.modelsKey (entry : ServedEntry) : String := entry.providerAlias.getD entry.id

/-- The names of an entry. -/
def ServedEntry.named (entry : ServedEntry) : RegistryEntry :=
  ⟨entry.id, entry.providerAlias, entry.aliases, [], none⟩

/-- The provider registry. -/
abbrev ServedCatalogue := List ServedEntry

namespace ServedCatalogue

variable (catalogue : ServedCatalogue) (provider modelId : String) (format : Format)

/-- `entry`. -/
def entry : Option ServedEntry := catalogue.reverse.find? (·.id == provider)

/-- `resolve_provider_id`, `registry.rs:444`. -/
def resolveProviderId : String := Catalogue.resolveProviderId (catalogue.map (·.named)) provider

/-- `models_for_key`, `registry.rs:457`. -/
def modelsForKey (aliasOrId : String) : List ServedModel :=
  ((catalogue.reverse.find? (·.modelsKey == aliasOrId)).map (·.models)).getD []

/-- `find_model`, `registry.rs:488`. -/
def findModel (aliasOrId : String) : Option ServedModel :=
  let models := catalogue.modelsForKey aliasOrId
  let normalized := String.ofList (normalizeModelId none modelId.toList)
  match models.find? (·.id == modelId) with
  | some model => some model
  | none =>
    if aliasOrId ∉ ["kr", "kiro"] ∨ normalized = modelId then none
    else models.find? (·.id == normalized)

/-- `resolve_transport`, `format.rs:263`. -/
def resolveTransport : Option ServedTransport :=
  ((catalogue.entry provider).bind (·.transports)).bind
    (·.find? (·.formatOrDefault == formatName format))

/-- `model_serves_format`, `format.rs:331`. -/
def modelServesFormat : Bool :=
  match catalogue.findModel modelId provider with
  | none => true
  | some model => model.Serves (formatName format)

/-- `runtime_transport`, `format.rs:317`. -/
def runtimeTransport : Option ServedTransport :=
  (catalogue.resolveTransport provider format).filter fun _ ↦
    catalogue.modelServesFormat provider modelId format

/-- The model that a name is of, as `upstream_model_id` and its siblings find it,
`model.rs:169–188`: under the key of the provider's entry, without the thinking suffix. -/
def namedModel : Option ServedModel :=
  catalogue.findModel (splitThinkingSuffix modelId).1
    (((catalogue.entry provider).map (·.modelsKey)).getD provider)

/-- A request that names a provider and a model goes to no transport of a format that the model
excludes. -/
def HonoursFormats : Prop :=
  ∀ transport,
    catalogue.runtimeTransport (catalogue.resolveProviderId provider) modelId format =
        some transport →
      ∀ model, catalogue.namedModel (catalogue.resolveProviderId provider) modelId = some model →
        model.Serves transport.formatOrDefault

/-- Where a transport is resolved it is one of the format. -/
theorem formatOrDefault_of_resolveTransport {transport : ServedTransport}
    (h : catalogue.resolveTransport provider format = some transport) :
    transport.formatOrDefault = formatName format := by
  obtain ⟨transports, -, hfind⟩ := Option.bind_eq_some_iff.mp h
  simpa using List.find?_some hfind

/-- The gate closes where the model it finds excludes the format. -/
theorem modelServesFormat_eq_false_iff :
    catalogue.modelServesFormat provider modelId format = false ↔
      ∃ model, catalogue.findModel modelId provider = some model ∧
        ¬ model.Serves (formatName format) := by
  rw [modelServesFormat]
  cases catalogue.findModel modelId provider with
  | none => simp
  | some model => simp

/-- Where a provider's models are kept under its id, a name without a thinking suffix is
honoured. -/
theorem honoursFormats_of_plain {entry : ServedEntry}
    (hentry : catalogue.entry (catalogue.resolveProviderId provider) = some entry)
    (hkey : entry.modelsKey = catalogue.resolveProviderId provider)
    (hname : (splitThinkingSuffix modelId).1 = modelId) :
    catalogue.HonoursFormats provider modelId format := by
  intro transport htransport model hmodel
  rw [namedModel, hentry, hname, Option.map_some, Option.getD_some, hkey] at hmodel
  obtain ⟨hresolved, hgate⟩ := Option.filter_eq_some_iff.mp htransport
  rw [formatOrDefault_of_resolveTransport _ _ _ hresolved]
  by_contra hserves
  have hclosed := (catalogue.modelServesFormat_eq_false_iff _ modelId format).mpr
    ⟨model, hmodel, hserves⟩
  rw [hclosed] at hgate
  cases hgate

/-- The formats of a model are honoured exactly where the provider has no transport of the client's
format, or the model that is named serves it, or a model that does not is found under the provider's
id by the name as it is written. -/
theorem honoursFormats_iff : catalogue.HonoursFormats provider modelId format ↔
    catalogue.resolveTransport (catalogue.resolveProviderId provider) format = none ∨
    (∀ model, catalogue.namedModel (catalogue.resolveProviderId provider) modelId = some model →
      model.Serves (formatName format)) ∨
    ∃ model, catalogue.findModel modelId (catalogue.resolveProviderId provider) = some model ∧
      ¬ model.Serves (formatName format) := by
  rw [HonoursFormats]
  generalize catalogue.resolveProviderId provider = id
  rw [← modelServesFormat_eq_false_iff, runtimeTransport]
  cases htransport : catalogue.resolveTransport id format with
  | none => simp
  | some transport =>
    have hformat := catalogue.formatOrDefault_of_resolveTransport id format htransport
    rw [Option.filter_some]
    cases catalogue.modelServesFormat id modelId format with
    | false => simp
    | true => simp [hformat]

end ServedCatalogue

/-- A provider whose models share its host but not all of its formats. -/
def opencodeGo : ServedEntry where
  id := "opencode-go"
  providerAlias := some "opencode-go"
  aliases := ["ocg"]
  models := [⟨"glm-5.2", ["openai"]⟩,
    ⟨"deepseek-v4-pro", ["openai", "claude", "openai-responses"]⟩]
  transports := some [⟨some "openai"⟩, ⟨some "claude"⟩, ⟨some "openai-responses"⟩]

/-- With a thinking suffix the model is not found, and what it excludes is selected. -/
theorem suffix_evades_formats :
    ¬ ServedCatalogue.HonoursFormats [opencodeGo] "ocg" "glm-5.2(high)" .claude := by
  intro h
  have hserves := h ⟨some "claude"⟩ (by decide +kernel) ⟨"glm-5.2", ["openai"]⟩ (by decide +kernel)
  exact absurd hserves (by decide)

end NullRouter.Runtime
