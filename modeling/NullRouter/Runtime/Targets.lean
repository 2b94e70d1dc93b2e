import Mathlib.Data.List.Rotate
import NullRouter.Runtime.Pipeline

/-!
# The targets of a model string

`parse_model` and `infer_target` of `crates/providers/src/model.rs`, the order of a combo's
models, `services/runtime-actix/src/combo.rs`, and `resolve_targets` with its node prefixes,
`services/runtime-actix/src/pipeline.rs:1143–1311`. The provider registry is a parameter.
-/

namespace NullRouter.Runtime

open NullRouter.Base

/-- What is read of the provider registry: the ids that have an entry, and the id that an alias
stands for. -/
structure Registry where
  /-- `entry(id).is_some()`. -/
  hasEntry : String → Bool
  resolveProviderId : String → String

/-- `ParsedModel`, `model.rs:11`. -/
structure ParsedModel where
  provider : Option String
  model : String
  isAlias : Bool
  providerAlias : Option String
  deriving DecidableEq

/-- The text before the first slash and the text after it. -/
def splitSlash (s : String) : Option (String × String) :=
  match s.toList.dropWhile (· ≠ '/') with
  | [] => none
  | _ :: rest => some (String.ofList (s.toList.takeWhile (· ≠ '/')), String.ofList rest)

/-- `parse_model`, `model.rs:31`. -/
def parseModel (registry : Registry) (modelStr : String) : ParsedModel :=
  if modelStr = "" then ⟨none, "", false, none⟩
  else
    match splitSlash modelStr with
    | some (providerOrAlias, model) =>
      ⟨some (registry.resolveProviderId providerOrAlias), model, false, some providerOrAlias⟩
    | none => ⟨none, modelStr, true, none⟩

/-- `infer_provider_from_model_name`, `model.rs:96`. -/
def inferProviderFromModelName (modelName : String) : String :=
  if modelName = "" then "openai"
  else
    let lower := toLowercase modelName.toList
    let startsWith := fun (head : String) ↦ head.toList.isPrefixOf lower
    if startsWith "claude-" then "anthropic"
    else if startsWith "gemini-" then "gemini"
    else if startsWith "gpt-" then "openai"
    else if startsWith "o1" || startsWith "o3" || startsWith "o4" then "openai"
    else if startsWith "deepseek-" then "openrouter"
    else "openai"

/-- `infer_target`, `model.rs:143`. -/
def inferTarget (modelStr : String) : ModelTarget :=
  ⟨inferProviderFromModelName modelStr, modelStr⟩

/-- `Combo` of the routing context, `state_client.rs:72`. -/
structure RoutedCombo where
  name : String
  models : List String
  deriving DecidableEq

/-- `ConnectionSummary`, `state_client.rs:83`: an active connection, and the prefix that its
owner gave to its provider node. -/
structure ConnectionSummary where
  provider : String
  nodePrefix : Option String

/-- `RoutingContext`, `state_client.rs:59`, as far as targets depend on it. -/
structure RoutingContext where
  combos : List RoutedCombo
  connections : List ConnectionSummary
  comboStrategy : Option String
  comboStickyRoundRobinLimit : Option Nat
  /-- The strategy overrides, by the name of the combo. -/
  comboStrategies : Std.ExtTreeMap String (Option String)

/-- `DEFAULT_COMBO_STICKY_LIMIT`, `pipeline.rs:159`. -/
def defaultComboStickyLimit : Nat := 1

/-- `ComboStrategy::from_settings`, `combo.rs:49`. -/
def ComboStrategy.fromSettings : Option String → ComboStrategy
  | some "round-robin" => .roundRobin
  | some "fusion" => .fusion
  | some "weighted" => .weighted
  | some "p2c" | some "least-used" => .p2c
  | some "cost-optimized" | some "cost_optimized" | some "cheap" => .costOptimized
  | some "quota-share" | some "quota_share" => .quotaShare
  | some "auto" => .auto
  | some "capacity" => .capacity
  | _ => .fallback

namespace RoutingContext

/-- The strategy of a combo: its own override, else the global setting. -/
def strategyOf (context : RoutingContext) (combo : RoutedCombo) : ComboStrategy :=
  .fromSettings ((context.comboStrategies[combo.name]?.join).or context.comboStrategy)

/-- The requests that stay on one model of a combo before it rotates. -/
def stickyLimit (context : RoutingContext) : Nat :=
  context.comboStickyRoundRobinLimit.getD defaultComboStickyLimit

end RoutingContext

/-- `Rotation`, `combo.rs:82`. -/
structure Rotation where
  index : Nat
  consecutive : Nat
  models : List String

/-- `RotationState`, `combo.rs:107`: the cursor of each combo. -/
abbrev RotationState := Std.ExtTreeMap String Rotation

/-- `RotationState::take_index`, `combo.rs:123`, for a list that is not empty. -/
def takeIndex (cursors : RotationState) (combo : String) (models : List String)
    (stickyLimit : Nat) : RotationState × Nat :=
  let current := (cursors[combo]?.filter (·.models == models)).getD ⟨0, 0, []⟩
  let index := current.index % models.length
  let nextCount := satAdd32 current.consecutive 1
  let updated : Rotation :=
    if max stickyLimit 1 ≤ nextCount then ⟨(index + 1) % models.length, 0, models⟩
    else ⟨index, nextCount, models⟩
  (cursors.insert combo updated, index)

/-- `rotate_from`, `combo.rs:161`. -/
def rotateFrom (models : List String) (index : Nat) : List String :=
  models.drop index ++ models.take index

/-- `ordered_models`, `combo.rs:174`. -/
def orderedModels (models : List String) (combo : String) (strategy : ComboStrategy)
    (stickyLimit : Nat) (rotation : RotationState) : RotationState × List String :=
  if models.length ≤ 1 ∨ strategy ≠ .roundRobin then (rotation, models)
  else
    let taken := takeIndex rotation combo models stickyLimit
    (taken.1, rotateFrom models taken.2)

/-- `resolve_node_prefix`, `pipeline.rs:1292`: never for a name of the registry. -/
def resolveNodePrefix (registry : Registry) (context : RoutingContext) (name : String) :
    Option String :=
  if registry.hasEntry name then none
  else if registry.hasEntry (registry.resolveProviderId name) then none
  else (context.connections.find? (·.nodePrefix == some name)).map (·.provider)

/-- The target of a model of a combo, `pipeline.rs:1199–1208`. -/
def memberTarget (registry : Registry) (entry : String) : ModelTarget :=
  let resolved := parseModel registry entry
  match resolved.provider with
  | some provider => ⟨provider, resolved.model⟩
  | none => inferTarget resolved.model

/-- `resolve_targets`, `pipeline.rs:1143`. -/
def resolveTargets (registry : Registry) (context : RoutingContext) (rotation : RotationState)
    (requested : String) : RotationState × ResolvedTargets :=
  let parsed := parseModel registry requested
  if !parsed.isAlias then
    let target := parsed.provider.map fun provider ↦
      ModelTarget.mk
        ((parsed.providerAlias.bind (resolveNodePrefix registry context)).getD provider)
        parsed.model
    (rotation, ⟨target.toList, .fallback⟩)
  else
    match (context.combos.find? (·.name == parsed.model)).filter (!·.models.isEmpty) with
    | some combo =>
      let strategy := context.strategyOf combo
      let ordered := orderedModels combo.models combo.name strategy context.stickyLimit rotation
      (ordered.1, ⟨ordered.2.map (memberTarget registry), strategy⟩)
    | none => (rotation, ⟨[inferTarget parsed.model], .fallback⟩)

/-- `resolve_service_target`, `pipeline.rs:1113`: the first target, or a provider by its name. -/
def resolveServiceTarget (registry : Registry) (context : RoutingContext)
    (rotation : RotationState) (requested : String) : RotationState × Option ModelTarget :=
  let resolved := resolveTargets registry context rotation requested
  let canonical := registry.resolveProviderId requested
  if requested.toList.contains '/' then (resolved.1, resolved.2.targets.head?)
  else if registry.hasEntry canonical then (rotation, some ⟨canonical, ""⟩)
  else (resolved.1, resolved.2.targets.head?)

variable {registry : Registry} {context : RoutingContext}

/-- A string is one of three: empty, with a provider before a slash, or a name of its own. -/
theorem parseModel_cases (registry : Registry) (modelStr : String) :
    modelStr = "" ∧ parseModel registry modelStr = ⟨none, "", false, none⟩ ∨
    (∃ name model, modelStr ≠ "" ∧ splitSlash modelStr = some (name, model) ∧
      parseModel registry modelStr =
        ⟨some (registry.resolveProviderId name), model, false, some name⟩) ∨
    modelStr ≠ "" ∧ splitSlash modelStr = none ∧
      parseModel registry modelStr = ⟨none, modelStr, true, none⟩ := by
  unfold parseModel
  by_cases hempty : modelStr = ""
  · exact .inl ⟨hempty, if_pos hempty⟩
  · rw [if_neg hempty]
    cases hsplit : splitSlash modelStr with
    | none => exact .inr (.inr ⟨hempty, rfl, rfl⟩)
    | some parts => exact .inr (.inl ⟨parts.1, parts.2, hempty, rfl, rfl⟩)

/-- A combo's name resolves to the targets of its models, in their order. -/
theorem resolveTargets_combo {rotation : RotationState} {name : String} {combo : RoutedCombo}
    (hname : (parseModel registry name).isAlias = true)
    (hcombo : context.combos.find? (·.name == name) = some combo) (hmodels : combo.models ≠ []) :
    (resolveTargets registry context rotation name).2.targets =
      (orderedModels combo.models combo.name (context.strategyOf combo) context.stickyLimit
        rotation).2.map (memberTarget registry) := by
  have hparsed : (parseModel registry name).model = name := by
    rcases parseModel_cases registry name with ⟨-, h⟩ | ⟨_, _, -, -, h⟩ | ⟨-, -, h⟩
    · rw [h] at hname
      cases hname
    · rw [h] at hname
      cases hname
    · rw [h]
  have hfull : Option.filter (fun combo : RoutedCombo ↦ !combo.models.isEmpty) (some combo) =
      some combo := by
    rw [Option.filter_some, if_pos (by simpa using hmodels)]
  unfold resolveTargets
  simp only [hname, hparsed, hcombo, hfull, Bool.not_true, Bool.false_eq_true, if_false]

/-- A combo's order is a rearrangement of its models. -/
theorem mem_orderedModels {models : List String} {combo : String} {strategy : ComboStrategy}
    {stickyLimit : Nat} {rotation : RotationState} {entry : String} :
    entry ∈ (orderedModels models combo strategy stickyLimit rotation).2 ↔ entry ∈ models := by
  unfold orderedModels
  split
  · rfl
  · simp only [rotateFrom]
    rw [List.mem_append, or_comm, ← List.mem_append, List.take_append_drop]

/-- Whether a model string names the provider of its target itself: it is not empty, and what
stands before its slash is no prefix of a node of another provider. -/
def MeansItself (registry : Registry) (context : RoutingContext) (entry : String) : Prop :=
  entry ≠ "" ∧ ∀ name model, splitSlash entry = some (name, model) →
    ∀ provider, resolveNodePrefix registry context name = some provider →
      provider = registry.resolveProviderId name

/-- A string that names no combo resolves as a model of a combo does, exactly if it means
itself. -/
private theorem resolveTargets_eq_memberTarget_iff {rotation : RotationState} {entry : String}
    (hno : ∀ combo ∈ context.combos, combo.name ≠ entry) :
    (resolveTargets registry context rotation entry).2.targets = [memberTarget registry entry] ↔
      MeansItself registry context entry := by
  unfold resolveTargets memberTarget MeansItself
  rcases parseModel_cases registry entry with ⟨hempty, h⟩ | ⟨name, model, hne, hsplit, h⟩ |
    ⟨hne, hsplit, h⟩
  · subst hempty
    simp [h]
  · simp only [h, hsplit, Bool.not_false, if_true, Option.map_some, Option.bind_some,
      Option.toList_some, List.cons.injEq, and_true, ModelTarget.mk.injEq]
    constructor
    · intro htarget
      refine ⟨hne, fun name' model' hparts provider hprovider ↦ ?_⟩
      obtain ⟨rfl, rfl⟩ := Prod.mk.inj (Option.some.inj hparts)
      rw [hprovider] at htarget
      exact htarget
    · rintro ⟨-, hprefix⟩
      cases hnode : resolveNodePrefix registry context name with
      | none => rfl
      | some provider => exact hprefix name model rfl provider hnode
  · have hnone : context.combos.find? (·.name == entry) = none := by
      rw [List.find?_eq_none]
      intro combo hcombo
      simpa using hno combo hcombo
    simp [h, hsplit, hne, hnone]

/-- A model of a combo that names no combo resolves to the target that a request for it resolves
to, wherever it stands in the combo, exactly if it means itself. -/
theorem combo_member_agrees_iff {name entry : String} {combo : RoutedCombo}
    (hname : (parseModel registry name).isAlias = true)
    (hcombo : context.combos.find? (·.name == name) = some combo) (hentry : entry ∈ combo.models)
    (hno : ∀ other ∈ context.combos, other.name ≠ entry) (rotation rotation' : RotationState) :
    (∀ i : Nat, (orderedModels combo.models combo.name (context.strategyOf combo) context.stickyLimit
        rotation).2[i]? = some entry →
      ((resolveTargets registry context rotation name).2.targets[i]?).toList =
        (resolveTargets registry context rotation' entry).2.targets) ↔
      MeansItself registry context entry := by
  rw [resolveTargets_combo hname hcombo (List.ne_nil_of_mem hentry),
    ← @resolveTargets_eq_memberTarget_iff registry context rotation' _ hno]
  constructor
  · intro hagree
    obtain ⟨i, hi⟩ := List.mem_iff_getElem?.mp (mem_orderedModels.mpr hentry)
    have htarget := hagree i hi
    rw [List.getElem?_map, hi] at htarget
    exact htarget.symm
  · intro htarget i hi
    rw [List.getElem?_map, hi, htarget]
    rfl

/-- A combo's order is its models from one of them on; only its own cursor moves. -/
theorem orderedModels_spec (models : List String) (combo : String) (strategy : ComboStrategy)
    (stickyLimit : Nat) (rotation : RotationState) :
    (orderedModels models combo strategy stickyLimit rotation).2 ~r models ∧
      ∀ other ≠ combo, (orderedModels models combo strategy stickyLimit rotation).1[other]? =
        rotation[other]? := by
  unfold orderedModels
  split
  · exact ⟨.refl _, fun _ _ ↦ rfl⟩
  · next hmany =>
    simp only [takeIndex, rotateFrom]
    generalize ((rotation[combo]?.filter (·.models == models)).getD ⟨0, 0, []⟩).index = index
    refine ⟨?_, fun other hne ↦ ?_⟩
    · have hlt : index % models.length < models.length :=
        Nat.mod_lt _ (by have := not_or.mp hmany; omega)
      rw [← List.rotate_eq_drop_append_take hlt.le]
      exact .symm ⟨_, rfl⟩
    · rw [Std.ExtTreeMap.getElem?_insert, if_neg (by simpa using Ne.symm hne)]

/-- A registry of two providers, one of them with an alias. -/
def twoProviders : Registry where
  hasEntry id := id = "openai" ∨ id = "anthropic"
  resolveProviderId name := if name = "claude" then "anthropic" else name

/-- A provider node with the prefix `myllm`, and a combo of three models. -/
def nodeContext : RoutingContext where
  combos := [⟨"panel", ["claude/opus", "myllm/small", "gpt-4o"]⟩]
  connections := [⟨"openai-compatible-chat-1", some "myllm"⟩]
  comboStrategy := none
  comboStickyRoundRobinLimit := none
  comboStrategies := ∅

/-- The rule for a model of a provider of the registry. -/
theorem combo_member_agrees_alias :
    ((resolveTargets twoProviders nodeContext ∅ "panel").2.targets[0]?).toList =
      (resolveTargets twoProviders nodeContext ∅ "claude/opus").2.targets := by
  refine (@combo_member_agrees_iff twoProviders nodeContext "panel" "claude/opus"
    ⟨"panel", ["claude/opus", "myllm/small", "gpt-4o"]⟩ (by decide) (by decide) (by decide)
    (by decide) ∅ ∅).mpr ⟨by decide, ?_⟩ 0 (by decide)
  rintro name model hparts provider hprovider
  obtain rfl : name = "claude" := by
    have hsplit : splitSlash "claude/opus" = some ("claude", "opus") := by decide
    exact (Prod.mk.inj (Option.some.inj (hparts.symm.trans hsplit))).1
  have hnone : resolveNodePrefix twoProviders nodeContext "claude" = none := by decide
  rw [hnone] at hprovider
  cases hprovider

/-- As a model of a combo, a model of a provider node goes to a provider of the prefix's name. -/
theorem node_prefix_is_lost_in_combo :
    ¬ ∀ (registry : Registry) (context : RoutingContext) (name entry : String)
      (combo : RoutedCombo) (rotation rotation' : RotationState),
      (parseModel registry name).isAlias = true →
      context.combos.find? (·.name == name) = some combo → entry ∈ combo.models →
      (∀ other ∈ context.combos, other.name ≠ entry) →
      ∀ i : Nat, (orderedModels combo.models combo.name (context.strategyOf combo) context.stickyLimit
          rotation).2[i]? = some entry →
        ((resolveTargets registry context rotation name).2.targets[i]?).toList =
          (resolveTargets registry context rotation' entry).2.targets := by
  intro hall
  have hagree := hall twoProviders nodeContext "panel" "myllm/small"
    ⟨"panel", ["claude/opus", "myllm/small", "gpt-4o"]⟩ ∅ ∅ (by decide) (by decide) (by decide)
    (by decide) 1 (by decide)
  exact absurd hagree (by decide)

end NullRouter.Runtime
