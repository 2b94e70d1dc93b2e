import NullRouter.Runtime.Targets

/-!
# Configured aliases of models

`resolve_model_alias` and `resolve_target` of `crates/providers/src/model.rs:63`, and the targets that
a request for a name is sent to. The routing context that the runtime asks for,
`services/state-actix/src/internal.rs:681`, does not hold the aliases of the store.
-/

namespace NullRouter.Runtime

open NullRouter.Base

/-- The aliases of the store, `store.rs:125`, of which each is `provider/model`, or names the two
apart. -/
abbrev ModelAliases := Std.ExtTreeMap String Json

/-- `resolve_model_alias`, `model.rs:63`. -/
def resolveModelAlias (registry : Registry) (name : String) (aliases : ModelAliases) :
    Option ModelTarget :=
  match aliases[name]? with
  | none => none
  | some (.str text) =>
    (splitSlash text).map fun parts ↦ ⟨registry.resolveProviderId parts.1, parts.2⟩
  | some resolved =>
    match (resolved.get "provider").bind Json.asStr, (resolved.get "model").bind Json.asStr with
    | some provider, some model => some ⟨registry.resolveProviderId provider, model⟩
    | _, _ => none

/-- `resolve_target`, `model.rs:119`. -/
def resolveTarget (registry : Registry) (modelStr : String) (aliases : ModelAliases) :
    Option ModelTarget :=
  let parsed := parseModel registry modelStr
  if !parsed.isAlias then parsed.provider.map fun provider ↦ ⟨provider, parsed.model⟩
  else resolveModelAlias registry parsed.model aliases

section

variable {registry : Registry} {context : RoutingContext} {modelStr : String}

/-- A name of its own that is no combo's goes to the provider that is inferred from it. -/
theorem resolveTargets_bare {rotation : RotationState}
    (hbare : (parseModel registry modelStr).isAlias = true)
    (hcombo : ∀ combo ∈ context.combos, combo.name ≠ modelStr) :
    (resolveTargets registry context rotation modelStr).2.targets = [inferTarget modelStr] := by
  have hnone : context.combos.find? (·.name == modelStr) = none := by
    rw [List.find?_eq_none]
    intro combo hmem
    simpa using hcombo combo hmem
  rcases parseModel_cases registry modelStr with ⟨-, h⟩ | ⟨_, _, -, -, h⟩ | ⟨-, -, h⟩
  · rw [h] at hbare
    cases hbare
  · rw [h] at hbare
    cases hbare
  · simp only [resolveTargets, h, hnone, Option.filter_none, Bool.not_true, Bool.false_eq_true,
      if_false]

/-- A string with a provider goes to that provider, unless it is the prefix of a node. -/
theorem resolveTargets_provider {rotation : RotationState}
    (hprovider : (parseModel registry modelStr).isAlias = false)
    (hnode : ∀ name model, splitSlash modelStr = some (name, model) →
      resolveNodePrefix registry context name = none) (aliases : ModelAliases) :
    (resolveTargets registry context rotation modelStr).2.targets =
      (resolveTarget registry modelStr aliases).toList := by
  rcases parseModel_cases registry modelStr with ⟨-, h⟩ | ⟨name, model, -, hsplit, h⟩ | ⟨-, -, h⟩
  · simp only [resolveTargets, resolveTarget, h, Bool.not_false, if_true, Option.map_none]
  · simp only [resolveTargets, resolveTarget, h, Bool.not_false, if_true, Option.map_some,
      Option.bind_some, hnode name model hsplit, Option.getD_none]
  · rw [h] at hprovider
    cases hprovider

/-- For a string that names neither a combo nor a node, a request goes to the target of the
specification exactly if the string has a provider, or no alias of that name points elsewhere than
the name itself is taken for. -/
theorem resolveTargets_eq_resolveTarget_iff {rotation : RotationState} (aliases : ModelAliases)
    (hcombo : ∀ combo ∈ context.combos, combo.name ≠ modelStr)
    (hnode : ∀ name model, splitSlash modelStr = some (name, model) →
      resolveNodePrefix registry context name = none) :
    (∀ target, resolveTarget registry modelStr aliases = some target →
      (resolveTargets registry context rotation modelStr).2.targets = [target]) ↔
      (parseModel registry modelStr).isAlias = false ∨
        ∀ target, resolveModelAlias registry modelStr aliases = some target →
          target = inferTarget modelStr := by
  cases hparsed : (parseModel registry modelStr).isAlias with
  | false =>
    refine iff_of_true (fun target htarget ↦ ?_) (.inl rfl)
    rw [resolveTargets_provider hparsed hnode aliases, htarget]
    rfl
  | true =>
    have hmodel : resolveTarget registry modelStr aliases =
        resolveModelAlias registry modelStr aliases := by
      rcases parseModel_cases registry modelStr with ⟨-, h⟩ | ⟨_, _, -, -, h⟩ | ⟨-, -, h⟩
      · rw [h] at hparsed
        cases hparsed
      · rw [h] at hparsed
        cases hparsed
      · simp only [resolveTarget, h, Bool.not_true, Bool.false_eq_true, if_false]
    simp only [hmodel, resolveTargets_bare hparsed hcombo, List.cons.injEq, and_true,
      Bool.true_eq_false, false_or]
    constructor
    · intro hagree target htarget
      exact (hagree target htarget).symm
    · intro hagree target htarget
      exact (hagree target htarget).symm

end

/-- An alias of the store. -/
def fastAlias : ModelAliases := (∅ : ModelAliases).insert "fast" (.str "claude/claude-opus")

/-- The rule for a name with a provider. -/
theorem resolveTargets_eq_resolveTarget_claude :
    (resolveTargets twoProviders nodeContext ∅ "claude/opus").2.targets =
      [⟨"anthropic", "opus"⟩] := by
  refine (resolveTargets_eq_resolveTarget_iff fastAlias (by decide) ?_).mpr (.inl (by decide))
    ⟨"anthropic", "opus"⟩ (by decide)
  intro name model hparts
  have hsplit : splitSlash "claude/opus" = some ("claude", "opus") := by decide
  obtain ⟨rfl, rfl⟩ := Prod.mk.inj (Option.some.inj (hparts.symm.trans hsplit))
  decide

/-- A request for an alias goes to the provider that its name is taken for, though it names no combo
and has no provider. -/
theorem alias_not_honoured :
    (∀ combo ∈ nodeContext.combos, combo.name ≠ "fast") ∧ splitSlash "fast" = none ∧
    resolveTarget twoProviders "fast" fastAlias = some ⟨"anthropic", "claude-opus"⟩ ∧
    (resolveTargets twoProviders nodeContext ∅ "fast").2.targets = [⟨"openai", "fast"⟩] := by
  decide

end NullRouter.Runtime
