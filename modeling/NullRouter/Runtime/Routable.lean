import Mathlib.Data.List.TakeWhile
import NullRouter.Runtime.ModelsList

/-!
# Where a listed model is routed

Every row of `build_models_list`, `crates/providers/src/models_list.rs:127`, told by what it was
listed for, and the target that `resolve_targets`, `services/runtime-actix/src/pipeline.rs:1143`,
finds for its id.
-/

namespace NullRouter.Runtime

open NullRouter.Base

/-- Whether a name before the slash of a model stands for a provider: it has no slash itself, and
it is a name of the registry for this provider; or it is none, and the first active connection with
this prefix is of this provider, or there is no such connection and it is the provider's own id. -/
def NamesProvider (registry : Registry) (context : RoutingContext) (name provider : String) :
    Prop :=
  '/' ∉ name.toList ∧
    if registry.hasEntry name ∨ registry.hasEntry (registry.resolveProviderId name) then
      registry.resolveProviderId name = provider
    else
      match context.connections.find? (·.nodePrefix == some name) with
      | some connection => connection.provider = provider
      | none => registry.resolveProviderId name = provider

section

variable {registry : Registry} {context : RoutingContext} {name model provider : String}

private theorem splitSlash_append (hslash : '/' ∉ name.toList) (model : String) :
    splitSlash (name ++ "/" ++ model) = some (name, model) := by
  have hkeep : ∀ c ∈ name.toList, decide (c ≠ '/') = true := by
    intro c hc
    rw [decide_eq_true_iff]
    intro hceq
    exact hslash (hceq ▸ hc)
  have htext : (name ++ "/" ++ model).toList = name.toList ++ '/' :: model.toList := by
    rw [String.toList_append, String.toList_append, List.append_assoc]
    rfl
  have hdrop : (name ++ "/" ++ model).toList.dropWhile (· ≠ '/') = '/' :: model.toList := by
    rw [htext, List.dropWhile_append_of_pos hkeep, List.dropWhile_cons_of_neg (by simp)]
  have htake : (name ++ "/" ++ model).toList.takeWhile (· ≠ '/') = name.toList := by
    rw [htext, List.takeWhile_append_of_pos hkeep, List.takeWhile_cons_of_neg (by simp),
      List.append_nil]
  unfold splitSlash
  rw [hdrop, htake, String.ofList_toList]
  show some (name, String.ofList model.toList) = some (name, model)
  rw [String.ofList_toList]

private theorem isAlias_of_noSlash (hne : name ≠ "") (hslash : '/' ∉ name.toList) :
    (parseModel registry name).isAlias = true := by
  have hdrop : name.toList.dropWhile (· ≠ '/') = [] := by
    rw [List.dropWhile_eq_nil_iff]
    intro c hc
    rw [decide_eq_true_iff]
    intro hceq
    exact hslash (hceq ▸ hc)
  have hsplit : splitSlash name = none := by
    unfold splitSlash
    rw [hdrop]
  unfold parseModel
  rw [if_neg hne, hsplit]

/-- A provider that a name stands for is the target of its models. -/
theorem NamesProvider.resolveTargets (h : NamesProvider registry context name provider)
    (rotation : RotationState) (model : String) :
    (resolveTargets registry context rotation (name ++ "/" ++ model)).2.targets =
      [⟨provider, model⟩] := by
  obtain ⟨hslash, hname⟩ := h
  have hsplit := splitSlash_append hslash model
  have hne : name ++ "/" ++ model ≠ "" := by
    intro hempty
    rw [hempty] at hsplit
    cases hsplit
  have hparsed : parseModel registry (name ++ "/" ++ model) =
      ⟨some (registry.resolveProviderId name), model, false, some name⟩ := by
    unfold parseModel
    rw [if_neg hne, hsplit]
  have hnode : (resolveNodePrefix registry context name).getD (registry.resolveProviderId name) =
      provider := by
    unfold resolveNodePrefix
    by_cases hid : registry.hasEntry name = true
    · rw [if_pos (.inl hid)] at hname
      rw [if_pos hid]
      exact hname
    · by_cases halias : registry.hasEntry (registry.resolveProviderId name) = true
      · rw [if_pos (.inr halias)] at hname
        rw [if_neg hid, if_pos halias]
        exact hname
      · rw [if_neg (by simp [hid, halias])] at hname
        rw [if_neg hid, if_neg halias]
        cases hfirst : context.connections.find? (·.nodePrefix == some name) with
        | none =>
          rw [hfirst] at hname
          exact hname
        | some connection =>
          rw [hfirst] at hname
          exact hname
  simp only [Runtime.resolveTargets, hparsed, Bool.not_false, if_true, Option.map_some,
    Option.bind_some, Option.toList_some, hnode]

end

section

variable {catalogue : Catalogue} {input : ModelsListInput} {kindFilter : List String}
  {row : ModelRow}

private theorem of_mem_comboRows (h : row ∈ comboRows input kindFilter) :
    ∃ combo ∈ input.combos, row.id = combo.name := by
  obtain ⟨combo, hcombo, hrow⟩ := List.mem_filterMap.mp h
  refine ⟨combo, hcombo, ?_⟩
  dsimp only at hrow
  split at hrow
  · cases hrow
  · rw [← Option.some.inj hrow]
    split <;> rfl

private theorem of_mem_staticCatalog (h : row ∈ staticCatalog catalogue input kindFilter) :
    ∃ entry ∈ catalogue, ∃ model ∈ entry.models,
      row = .new (entry.modelsKey ++ "/" ++ model.id) entry.modelsKey ∧
      input.isDisabled entry.modelsKey model.id = false := by
  obtain ⟨entry, hentry, hrow⟩ := List.mem_flatMap.mp h
  dsimp only at hrow
  split at hrow
  · cases hrow
  obtain ⟨model, hmodel, hrow⟩ := List.mem_filterMap.mp hrow
  split at hrow
  · cases hrow
  next hkept =>
    refine ⟨entry, hentry, model, hmodel, (Option.some.inj hrow).symm, ?_⟩
    simp only [Bool.or_eq_true, not_or, Bool.not_eq_true] at hkept
    exact hkept.2

/-- A row of a connection is of one of its models, and is not disabled under either name of the
provider. -/
private theorem of_mem_connectedCatalog
    (h : row ∈ connectedCatalog catalogue input kindFilter) :
    ∃ connection ∈ input.connections, ∃ modelId ∈ connection.models catalogue input,
      row = .new (connection.outputAlias catalogue ++ "/" ++ modelId)
        (connection.outputAlias catalogue) ∧
      input.isDisabled (connection.outputAlias catalogue) modelId = false ∧
      input.isDisabled (catalogue.staticAlias connection.provider) modelId = false := by
  obtain ⟨connection, hconnection, hrow⟩ := List.mem_flatMap.mp h
  dsimp only at hrow
  split at hrow
  · cases hrow
  obtain ⟨modelId, hmodel, hrow⟩ := List.mem_filterMap.mp hrow
  split at hrow
  · cases hrow
  · split at hrow
    · cases hrow
    next hkept =>
      simp only [Bool.or_eq_true, not_or, Bool.not_eq_true] at hkept
      exact ⟨connection, (firsts_sublist _).subset hconnection, modelId, hmodel,
        (Option.some.inj hrow).symm, hkept.1, hkept.2⟩

/-- A listed row has an id, and it is a combo's, or one of the registry where there is no
connection, or one of a connection. -/
private theorem of_mem_buildModelsList (h : row ∈ buildModelsList catalogue input kindFilter) :
    row.id ≠ "" ∧ (row ∈ comboRows input kindFilter ∨
      input.connections = [] ∧ row ∈ staticCatalog catalogue input kindFilter ∨
      row ∈ connectedCatalog catalogue input kindFilter) := by
  obtain ⟨hrow, hid⟩ := List.mem_filter.mp ((firsts_sublist _).subset h)
  refine ⟨of_decide_eq_true hid, ?_⟩
  rcases List.mem_append.mp hrow with hcombo | hmodel
  · exact .inl hcombo
  · split at hmodel
    · next hempty => exact .inr (.inl ⟨List.isEmpty_iff.mp hempty, hmodel⟩)
    · exact .inr (.inr hmodel)

end

/-- What a row of the list is listed for, and where a request for its id goes. -/
inductive RoutedAs (catalogue : Catalogue) (context : ListedContext) (input : ModelsListInput)
    (rotation : RotationState) (row : ModelRow) : Prop
  /-- The name of a combo goes to the models of the combo. -/
  | combo (combo : ListedCombo) (hcombo : combo ∈ context.combos) (hid : row.id = combo.name)
    (htargets : '/' ∉ row.id.toList →
      ∀ named, context.routing.combos.find? (·.name == row.id) = some named → named.models ≠ [] →
        (resolveTargets catalogue.registry context.routing rotation row.id).2.targets =
          (orderedModels named.models named.name (context.routing.strategyOf named)
            context.routing.stickyLimit rotation).2.map (memberTarget catalogue.registry))
  /-- Where nothing is connected, a model of the registry goes to its provider. -/
  | registry (entry : RegistryEntry) (model : RegistryModel)
    (hnone : context.connections = []) (hentry : entry ∈ catalogue) (hmodel : model ∈ entry.models)
    (hid : row.id = entry.modelsKey ++ "/" ++ model.id)
    (henabled : input.isDisabled entry.modelsKey model.id = false)
    (htargets : NamesProvider catalogue.registry context.routing entry.modelsKey entry.id →
      (resolveTargets catalogue.registry context.routing rotation row.id).2.targets =
        [⟨entry.id, model.id⟩])
  /-- A model of an active connection goes to the provider of that connection. -/
  | connection (connection : ListedConnection) (view : ConnectionView) (modelId : String)
    (hconnection : connection ∈ context.connections)
    (hprovider : view.provider = connection.provider)
    (hstart : view.nodePrefix = connection.nodePrefix)
    (hmodel : modelId ∈ view.models catalogue input)
    (hid : row.id = view.outputAlias catalogue ++ "/" ++ modelId)
    (henabled : input.isDisabled (view.outputAlias catalogue) modelId = false)
    (henabled' : input.isDisabled (catalogue.staticAlias connection.provider) modelId = false)
    (htargets : NamesProvider catalogue.registry context.routing (view.outputAlias catalogue)
        connection.provider →
      (resolveTargets catalogue.registry context.routing rotation row.id).2.targets =
        [⟨connection.provider, modelId⟩])

/-- An entry of the registry, with one of its models. -/
def deepseekCatalogue : Catalogue :=
  [⟨"deepseek", some "deepseek", ["ds"], [⟨"deepseek-v4-pro", none⟩], none⟩]

/-- A state without connections. -/
def emptyContext : ListedContext := ⟨[], [], none, none, ∅⟩

end NullRouter.Runtime
