import NullRouter.Translate.Passes

/-!
# Thinking budgets and the limit on the output

A model of the Claude budget shape takes a budget within a range and a limit on the output above
it. The budget is set by the thinking pass (`apply_budget_thinking`,
`crates/translate/src/thinking.rs:578`), the limit by the translators, by that pass and by the
parameter rules.
-/

namespace NullRouter.Translate

open NullRouter.Base Thinking

namespace ThinkingRange

/-- A budget lies within a declared range. -/
def Contains (range : ThinkingRange) (budget : Nat) : Prop :=
  (∀ low ∈ range.min, low ≤ budget) ∧ ∀ high ∈ range.max, budget ≤ high

/-- A range that holds a budget: its least is an `i64` and no more than its most. -/
def Sound (range : ThinkingRange) : Prop :=
  ∀ low ∈ range.min, low < 2 ^ 63 ∧ ∀ high ∈ range.max, low ≤ high

end ThinkingRange

namespace ThinkingBudget

/-- An outgoing request that enables thinking does so within the model's range and below its own
limit on the output, which the model's ceiling allows. -/
def Valid (range : Option ThinkingRange) (ceiling : Nat) (request : Json) : Prop :=
  (request.get "thinking").any (hasType "enabled") = true →
    ∃ budget limit, (request.get "thinking").bind (·.get "budget_tokens") = some (Json.nat budget) ∧
      (request.get "max_tokens").bind Json.asU64 = some limit ∧
      (∀ r ∈ range, r.Contains budget) ∧ budget < limit ∧ limit ≤ ceiling

/-- The request as the translators leave it, before the passes. -/
def draft (writer : GeminiWriter) (route : RequestRoute) (body : Json) (stream : Bool)
    (ceiling : Nat) : Json :=
  if route.source.equivalent route.target then
    body.setField "model" (.str (stripThinkingSuffix route.model))
  else
    (openaiToTarget writer route.target (stripThinkingSuffix route.model)
      (sourceToOpenai writer.serde route.source (stripThinkingSuffix route.model) body stream)
      stream ceiling).body

/-- The limits that the parameter rules of a route set. -/
def ruleLimits (route : RequestRoute) (ceiling : Nat) : List Nat :=
  (rulesOf route).filterMap (ParamRules.ceilingOf · ceiling)

/-- The intent of a request: that of the model's suffix, of the client's request or of the request
that it became. -/
def intentOf (model : String) (body drafted : Json) : Option ThinkingIntent :=
  ((parseSuffix model).2.or (extractThinking body)).or (extractThinking drafted)

/-- The intent that makes the thinking pass enable thinking, if it does: the model reasons, the
request is an object, and it asks for thinking or cannot do without. -/
def asking (caps : Capabilities) (model : String) (body drafted : Json) : Option ThinkingIntent :=
  if caps.reasoning && drafted.asObject.isSome then
    (intentOf model body drafted).bind fun intent ↦
      if intent = .off then (if caps.thinkingCanDisable then none else some (.level "minimal"))
      else some intent
  else none

/-- The intent that makes a request enable thinking, if no rule takes the field out again. -/
def enabling (caps : Capabilities) (route : RequestRoute) (body drafted : Json) :
    Option ThinkingIntent :=
  if (rulesOf route).any (·.drop.contains "thinking") then none
  else asking caps route.model body drafted

/-- The budget that an intent names, within a range. -/
def namedBudget (intent : ThinkingIntent) (range : Option ThinkingRange) : Option Nat :=
  ((toBudget intent range).filter (0 < ·)).map Int.toNat

/-- The range takes what an intent asks for: the default, where it names no budget. -/
def InRange (intent : ThinkingIntent) (range : Option ThinkingRange) : Prop :=
  ∀ r ∈ range, if namedBudget intent range = none then r.Contains defaultBudget else r.Sound

/-- There is room above a budget: a limit is asked for or the budget is left to the provider, and
the limit, or what it is raised to, is no more than the ceiling unless a rule lowers it, to more
than the budget. -/
def HasRoom (intent : ThinkingIntent) (budget : Nat) (asked : Option Nat) (limits : List Nat)
    (ceiling : Nat) : Prop :=
  (asked = none → intent = .auto) ∧
  (((if asked.getD 0 ≤ budget then budget + 4096 else asked.getD 0) ≤ ceiling) ∨
    ∃ limit ∈ limits, limit ≤ ceiling) ∧
  ∀ limit ∈ limits, budget < limit

/-- What a request asks for fits the model. -/
def Fits (caps : Capabilities) (writer : GeminiWriter) (route : RequestRoute) (body : Json)
    (stream : Bool) (ceiling : Nat) : Prop :=
  let drafted := draft writer route body stream ceiling
  ∀ intent ∈ enabling caps route body drafted,
    InRange intent caps.thinkingRange ∧
    HasRoom intent ((namedBudget intent caps.thinkingRange).getD defaultBudget)
      ((drafted.get "max_tokens").bind Json.asU64) (ruleLimits route ceiling) ceiling

section Range

private theorem clampBudget_spec {r : ThinkingRange} {budget : Int} (hlow : 0 ≤ budget)
    (hhigh : budget < 2 ^ 63) : 0 ≤ clampBudget (some r) budget ∧
      (r.Contains (clampBudget (some r) budget).toNat ↔ r.Sound) := by
  obtain ⟨low, high⟩ := r
  unfold ThinkingRange.Contains ThinkingRange.Sound clampBudget toI64
  rcases low with _ | low <;> rcases high with _ | high
  all_goals simp only [Option.bind_none, Option.bind_some, Option.map_none, Option.getD_none,
    Option.mem_def, Option.some_inj, forall_eq', reduceCtorEq, false_imp_iff, implies_true,
    true_and, and_true, iff_true]
  · exact hlow
  · split
    · next hh =>
      simp only [Option.map_some, Option.getD_some]
      omega
    · next hh =>
      simp only [Option.map_none, Option.getD_none]
      omega
  · split
    · next hl =>
      simp only [Option.map_some, Option.getD_some]
      omega
    · next hl =>
      simp only [Option.map_none, Option.getD_none]
      omega
  · by_cases hl : low < 2 ^ 63 <;> by_cases hh : high < 2 ^ 63
    all_goals simp only [hl, hh, if_true, if_false, Option.map_some, Option.map_none,
      Option.getD_some, Option.getD_none, true_and, false_and, iff_false]
    all_goals omega

private theorem toBudget_eq {intent : ThinkingIntent} {range : Option ThinkingRange} {chosen : Int}
    (hauto : intent ≠ .auto) (h : toBudget intent range = some chosen) :
    ∃ tokens : Nat, tokens < 2 ^ 63 ∧ chosen = clampBudget range tokens := by
  have hclamped : ∀ tokens : Nat, (toI64 tokens).map (clampBudget range) = some chosen →
      ∃ tokens : Nat, tokens < 2 ^ 63 ∧ chosen = clampBudget range tokens := by
    intro tokens htokens
    unfold toI64 at htokens
    split at htokens
    · next hlt =>
      cases htokens
      exact ⟨tokens, hlt, rfl⟩
    · cases htokens
  cases intent with
  | off => cases h
  | auto => exact absurd rfl hauto
  | budget tokens => exact hclamped tokens h
  | level level =>
    obtain ⟨tokens, htokens, rfl⟩ := Option.map_eq_some_iff.mp h
    obtain ⟨count, -, hcount⟩ := Option.bind_eq_some_iff.mp htokens
    exact hclamped count (by rw [hcount, Option.map_some])

private theorem toBudget_nonneg {intent : ThinkingIntent} {range : Option ThinkingRange}
    {chosen : Int} (hauto : intent ≠ .auto) (h : toBudget intent range = some chosen) :
    0 ≤ chosen := by
  obtain ⟨tokens, hlt, rfl⟩ := toBudget_eq hauto h
  cases range with
  | none => exact Int.natCast_nonneg tokens
  | some r => exact (clampBudget_spec (by omega) (by omega)).1

private theorem contains_namedBudget_iff {intent : ThinkingIntent} {r : ThinkingRange}
    {budget : Nat} (h : namedBudget intent (some r) = some budget) :
    r.Contains budget ↔ r.Sound := by
  obtain ⟨chosen, hchosen, rfl⟩ := Option.map_eq_some_iff.mp h
  obtain ⟨hchosen, hpos⟩ := Option.filter_eq_some_iff.mp hchosen
  have hauto : intent ≠ .auto := by
    rintro rfl
    cases hchosen
    exact absurd hpos (by decide)
  obtain ⟨tokens, hlt, rfl⟩ := toBudget_eq hauto hchosen
  exact (clampBudget_spec (by omega) (by omega)).2

/-- The budget that a request gets lies within the range exactly when the range takes what the
intent asks for. -/
private theorem contains_iff_inRange (intent : ThinkingIntent) (range : Option ThinkingRange) :
    (∀ r ∈ range, r.Contains ((namedBudget intent range).getD defaultBudget)) ↔
      InRange intent range := by
  refine forall₂_congr fun r hr ↦ ?_
  cases hr
  cases h : namedBudget intent (some r) with
  | none => simp
  | some budget => simpa using contains_namedBudget_iff h

end Range

section Pass

variable {body : Json}

/-- The limit after the thinking pass: raised where it is not above the budget. -/
def raisedLimit (intent : ThinkingIntent) (budget : Nat) (asked : Option Nat) : Option Nat :=
  if intent = .auto then
    some (if asked.getD 0 ≤ budget then budget + 4096 else asked.getD 0)
  else asked.map fun limit ↦ if limit ≤ budget then budget + 4096 else limit

private theorem withBudget_spec (hobject : body.asObject.isSome = true) (budget : Nat)
    (raise : Bool) :
    let out := (if raise then body.setField "max_tokens" (Json.nat (budget + 4096)) else body).setField
      "thinking" (enabledWith budget)
    out.get "thinking" = some (enabledWith budget) ∧ (out.get "max_tokens").bind Json.asU64 =
      if raise then some (budget + 4096) else (body.get "max_tokens").bind Json.asU64 := by
  cases raise with
  | false => exact ⟨Json.get_setField_self hobject, by rw [Json.get_setField_of_ne (by decide)]; rfl⟩
  | true =>
    refine ⟨Json.get_setField_self (by rwa [if_pos rfl, Json.isSome_asObject_setField]), ?_⟩
    rw [Json.get_setField_of_ne (by decide), if_pos rfl, Json.get_setField_self hobject]
    rfl

/-- What the budget of an intent does to a request. -/
theorem applyBudgetThinking_enabled (hobject : body.asObject.isSome = true)
    (intent : ThinkingIntent) (range : Option ThinkingRange) :
    let budget := (namedBudget intent range).getD defaultBudget
    let out := applyBudgetThinking body intent range false
    out.get "thinking" = some (enabledWith budget) ∧
      (out.get "max_tokens").bind Json.asU64 =
        raisedLimit intent budget ((body.get "max_tokens").bind Json.asU64) := by
  have hraised : ∀ budget : Nat, intent ≠ .auto →
      (if ((body.get "max_tokens").bind Json.asU64).any (· ≤ budget) then some (budget + 4096)
        else (body.get "max_tokens").bind Json.asU64) =
      raisedLimit intent budget ((body.get "max_tokens").bind Json.asU64) := by
    intro budget hauto
    rw [raisedLimit, if_neg hauto]
    cases (body.get "max_tokens").bind Json.asU64 with
    | none => rfl
    | some limit => by_cases h : limit ≤ budget <;> simp [h]
  dsimp only
  by_cases hauto : intent = .auto
  · subst hauto
    have h := withBudget_spec hobject defaultBudget
      (((body.get "max_tokens").bind Json.asU64).getD 0 ≤ defaultBudget)
    refine ⟨h.1, h.2.trans ?_⟩
    change _ = some (if _ ≤ defaultBudget then defaultBudget + 4096 else _)
    cases (body.get "max_tokens").bind Json.asU64 with
    | none => rfl
    | some limit => by_cases hle : limit ≤ defaultBudget <;> simp [hle]
  · unfold applyBudgetThinking
    simp only [Bool.false_eq_true, ↓reduceIte]
    split
    · next hminus => exact absurd (toBudget_nonneg hauto hminus) (by decide)
    · next chosen _ hchosen =>
      rw [namedBudget, hchosen, ← hraised _ hauto]
      by_cases hpos : 0 < chosen
      · simp only [Option.filter_some, hpos, decide_true, ↓reduceIte, Option.map_some,
          Option.getD_some]
        exact withBudget_spec hobject chosen.toNat _
      · simp only [Option.filter_some, hpos, decide_false, Bool.false_eq_true, ↓reduceIte,
          Option.map_none, Option.getD_none]
        exact withBudget_spec hobject defaultBudget _
    · next hnone =>
      rw [namedBudget, hnone, ← hraised _ hauto]
      exact withBudget_spec hobject defaultBudget _

private theorem get_of_not_object {v : Json} (h : v.asObject.isSome = false) (key : String) :
    v.get key = none := by
  cases v with
  | obj fields => cases h
  | _ => rfl

private theorem isSome_asObject_applyBudgetThinking (v : Json) (intent : ThinkingIntent)
    (range : Option ThinkingRange) (disable : Bool) :
    (applyBudgetThinking v intent range disable).asObject.isSome = v.asObject.isSome := by
  have hwith : ∀ (budget : Nat) (raise : Bool),
      ((if raise then v.setField "max_tokens" (Json.nat (budget + 4096)) else v).setField
        "thinking" (enabledWith budget)).asObject.isSome = v.asObject.isSome := by
    intro budget raise
    cases raise <;> simp
  unfold applyBudgetThinking
  split
  · exact Json.isSome_asObject_setField ..
  · dsimp only
    split
    · exact hwith _ _
    · split <;> exact hwith _ _
    · exact hwith _ _

private theorem not_enabled_of_extractThinking {v : Json} (h : extractThinking v = none) :
    (v.get "thinking").any (hasType "enabled") = false := by
  have hclaude : claudeIntent v = none := by
    unfold extractThinking at h
    split at h
    · cases h
    · split at h
      · cases h
      · assumption
  unfold claudeIntent at hclaude
  cases hthinking : v.get "thinking" with
  | none => rfl
  | some thinking =>
    rw [hthinking] at hclaude
    cases thinking with
    | obj fields =>
      by_cases henabled : hasType "enabled" (.obj fields) = true
      · have hdisabled : hasType "disabled" (.obj fields) = false := by
          unfold hasType at henabled ⊢
          rw [beq_iff_eq.mp henabled]
          rfl
        simp [Json.asObject, henabled, hdisabled] at hclaude
      · simpa using henabled
    | _ => rfl

variable {catalogue : Catalogue} {target : Format} {provider model : String} {drafted : Json}
  (hshape : (catalogue.capabilities provider (stripThinkingSuffix model)).thinkingFormat.getD
    (nativeFormat target) = .claudeBudget)

include hshape

private theorem apply_eq :
    let caps := catalogue.capabilities provider (stripThinkingSuffix model)
    Thinking.apply catalogue target provider model drafted (extractThinking body) =
      if !caps.reasoning then stripAll drafted
      else match intentOf model body drafted with
        | none => drafted
        | some intent => applyBudgetThinking (stripAll drafted)
            (if intent = .off ∧ caps.thinkingCanDisable = false then .level "minimal" else intent)
            caps.thinkingRange (intent = .off && caps.thinkingCanDisable) := by
  have hclean : stripThinkingSuffix model = (parseSuffix model).1 := rfl
  rw [hclean] at hshape ⊢
  unfold Thinking.apply intentOf
  generalize parseSuffix model = parsed at hshape ⊢
  dsimp only
  rw [hshape]
  split
  · rfl
  · cases (parsed.2.or (extractThinking body)).or (extractThinking drafted) with
    | none => rfl
    | some intent =>
      dsimp only [applyFormat]
      cases (catalogue.capabilities provider parsed.1).thinkingCanDisable <;>
        by_cases hoff : intent = .off <;> simp [hoff]

private theorem apply_asking_none
    (h : asking (catalogue.capabilities provider (stripThinkingSuffix model)) model body drafted =
      none) :
    ((Thinking.apply catalogue target provider model drafted (extractThinking body)).get
      "thinking").any (hasType "enabled") = false := by
  rw [apply_eq hshape]
  generalize catalogue.capabilities provider (stripThinkingSuffix model) = caps at h ⊢
  unfold asking at h
  cases hreasoning : caps.reasoning with
  | false =>
    simp only [Bool.not_false, ↓reduceIte, @get_stripAll "thinking" (by decide)]
    rfl
  | true =>
    simp only [Bool.not_true, Bool.false_eq_true, ↓reduceIte]
    cases hobject : drafted.asObject.isSome with
    | false =>
      have hget : ∀ v : Json, v.asObject.isSome = drafted.asObject.isSome →
          (v.get "thinking").any (hasType "enabled") = false := by
        intro v hv
        rw [get_of_not_object (hv.trans hobject)]
        rfl
      split
      · exact hget _ rfl
      · exact hget _ ((isSome_asObject_applyBudgetThinking ..).trans (isSome_asObject_stripAll _))
    | true =>
      rw [hreasoning, hobject] at h
      simp only [Bool.and_self, ↓reduceIte] at h
      cases hintent : intentOf model body drafted with
      | none =>
        have hdrafted : extractThinking drafted = none := by
          rw [intentOf] at hintent
          exact (Option.or_eq_none_iff.mp hintent).2
        exact not_enabled_of_extractThinking hdrafted
      | some intent =>
        rw [hintent, Option.bind_some] at h
        by_cases hoff : intent = .off
        · cases hdisable : caps.thinkingCanDisable with
          | false => simp [hoff, hdisable] at h
          | true =>
            simp only [hoff, decide_true, Bool.and_self, applyBudgetThinking, ↓reduceIte]
            rw [Json.get_setField_self ((isSome_asObject_stripAll _).trans hobject)]
            rfl
        · simp [hoff] at h

private theorem apply_asking_some {intent : ThinkingIntent}
    (h : asking (catalogue.capabilities provider (stripThinkingSuffix model)) model body drafted =
      some intent) :
    let range := (catalogue.capabilities provider (stripThinkingSuffix model)).thinkingRange
    let budget := (namedBudget intent range).getD defaultBudget
    let out := Thinking.apply catalogue target provider model drafted (extractThinking body)
    out.get "thinking" = some (enabledWith budget) ∧
      (out.get "max_tokens").bind Json.asU64 =
        raisedLimit intent budget ((drafted.get "max_tokens").bind Json.asU64) := by
  have hsame : (drafted.get "max_tokens").bind Json.asU64 =
      ((stripAll drafted).get "max_tokens").bind Json.asU64 := by
    rw [stripAll_same _ (by decide)]
  rw [apply_eq hshape, hsame]
  generalize catalogue.capabilities provider (stripThinkingSuffix model) = caps at h ⊢
  unfold asking at h
  split at h
  · next hasks =>
    obtain ⟨hreasoning, hobject⟩ := Bool.and_eq_true_iff.mp hasks
    obtain ⟨stated, hstated, hintent⟩ := Option.bind_eq_some_iff.mp h
    have hobject := (isSome_asObject_stripAll drafted).trans hobject
    simp only [hreasoning, Bool.not_true, Bool.false_eq_true, ↓reduceIte, hstated]
    split at hintent
    · next hoff =>
      cases hdisable : caps.thinkingCanDisable with
      | true => simp [hdisable] at hintent
      | false =>
        rw [hdisable] at hintent
        cases hintent
        simp only [hoff, and_self, ↓reduceIte, Bool.and_false]
        exact applyBudgetThinking_enabled hobject _ _
    · next hoff =>
      cases hintent
      simp only [hoff, false_and, ↓reduceIte, decide_false, Bool.false_and]
      exact applyBudgetThinking_enabled hobject _ _
  · cases h

end Pass

section Rules

open ParamRules

variable {body : Json} {rule : StripRule}

private theorem clampNumber_limit (ceiling : Nat) :
    ((clampNumber "max_tokens" ceiling body).get "max_tokens").bind Json.asU64 =
      ((body.get "max_tokens").bind Json.asU64).map (min · ceiling) := by
  unfold clampNumber
  cases hlimit : (body.get "max_tokens").bind Json.asU64 with
  | none => simp [hlimit]
  | some limit =>
    by_cases hlt : ceiling < limit
    · have hobject : body.asObject.isSome = true := by
        cases body with
        | obj fields => rfl
        | _ => cases hlimit
      simp only [Option.any_some, hlt, decide_true, ↓reduceIte, Option.map_some]
      rw [Json.get_setField_self hobject, Nat.min_eq_right (by omega)]
      rfl
    · simp only [Option.any_some, hlt, decide_false, Bool.false_eq_true, ↓reduceIte, hlimit,
        Option.map_some]
      rw [Nat.min_eq_left (by omega)]

private theorem clampNumber_get_of_ne {key other : String} (h : other ≠ key) (ceiling : Nat) :
    (clampNumber key ceiling body).get other = body.get other := by
  unfold clampNumber
  split
  · exact Json.get_setField_of_ne h
  · rfl

private theorem flattened_get {other : String} (h : other ≠ "messages") :
    (if rule.flattenContent then flattenContentArrays body else body).get other =
      body.get other := by
  split
  · unfold flattenContentArrays
    split
    · rfl
    · exact Json.get_setField_of_ne h
  · rfl

private theorem applyRule_thinking (ceiling : Nat) :
    (applyRule ceiling body rule).get "thinking" =
      if rule.drop.contains "thinking" then none else body.get "thinking" := by
  have hdropped : (if rule.flattenContent then flattenContentArrays
      (rule.drop.foldl Json.eraseField body) else rule.drop.foldl Json.eraseField body).get
        "thinking" = if rule.drop.contains "thinking" then none else body.get "thinking" := by
    rw [flattened_get (by decide), Json.get_foldl_eraseField]
    simp
  unfold applyRule
  dsimp only
  cases ceilingOf rule ceiling with
  | none => exact hdropped
  | some limit =>
    rw [clampNumber_get_of_ne (by decide), clampNumber_get_of_ne (by decide),
      clampNumber_get_of_ne (by decide), hdropped]

private theorem applyRule_limit (h : "max_tokens" ∉ rule.drop) (ceiling : Nat) :
    ((applyRule ceiling body rule).get "max_tokens").bind Json.asU64 =
      ((body.get "max_tokens").bind Json.asU64).map
        (((ceilingOf rule ceiling).toList).foldl min) := by
  have hkept : (if rule.flattenContent then flattenContentArrays
      (rule.drop.foldl Json.eraseField body) else rule.drop.foldl Json.eraseField body).get
        "max_tokens" = body.get "max_tokens" := by
    rw [flattened_get (by decide), Json.get_foldl_eraseField, if_neg h]
  unfold applyRule
  dsimp only
  cases ceilingOf rule ceiling with
  | none =>
    rw [hkept]
    exact Option.map_id'.symm
  | some limit =>
    rw [clampNumber_get_of_ne (by decide), clampNumber_get_of_ne (by decide), clampNumber_limit,
      hkept]
    rfl

private theorem foldl_applyRule (rules : List StripRule) (h : ∀ rule ∈ rules, "max_tokens" ∉ rule.drop)
    (ceiling : Nat) (body : Json) :
    (rules.foldl (applyRule ceiling) body).get "thinking" =
        (if rules.any (·.drop.contains "thinking") then none else body.get "thinking") ∧
      ((rules.foldl (applyRule ceiling) body).get "max_tokens").bind Json.asU64 =
        ((body.get "max_tokens").bind Json.asU64).map
          ((rules.filterMap (ceilingOf · ceiling)).foldl min) := by
  induction rules generalizing body with
  | nil => exact ⟨rfl, Option.map_id'.symm⟩
  | cons rule rules ih =>
    obtain ⟨hthinking, hlimit⟩ := ih (fun r hr ↦ h r (List.mem_cons_of_mem _ hr))
      (applyRule ceiling body rule)
    rw [List.foldl_cons, hthinking, hlimit, applyRule_thinking,
      applyRule_limit (h rule (List.mem_cons_self ..)), List.any_cons, List.filterMap_cons]
    refine ⟨?_, ?_⟩
    · cases rule.drop.contains "thinking" <;> simp
    · rw [Option.map_map]
      congr 1
      funext n
      cases ceilingOf rule ceiling <;> rfl

end Rules

section Whole

variable (catalogue : Catalogue) (writer : GeminiWriter) (route : RequestRoute) (body : Json)
  (stream : Bool) (ceiling : Nat)

private theorem translateRequest_fields :
    let applied := Thinking.apply catalogue route.target route.provider route.model
      (draft writer route body stream ceiling) (extractThinking body)
    let out := (translateRequest catalogue writer route body stream ceiling).body
    out.get "thinking" = (if (rulesOf route).any (·.drop.contains "thinking") then none
        else applied.get "thinking") ∧
      (out.get "max_tokens").bind Json.asU64 =
        ((applied.get "max_tokens").bind Json.asU64).map ((ruleLimits route ceiling).foldl min) := by
  dsimp only
  unfold draft ruleLimits rulesOf
  by_cases hsame : route.source.equivalent route.target = true
  · unfold translateRequest
    simp only [hsame, ↓reduceIte, List.any_nil, Bool.false_eq_true, List.filterMap_nil]
    exact ⟨trivial, Option.map_id'.symm⟩
  · rw [body_translateRequest catalogue writer (by simpa using hsame), if_neg hsame, if_neg hsame,
      finishRequest]
    have hrules : ∀ rule ∈ ParamRules.rules.filter
        (·.applies route.provider (stripThinkingSuffix route.model)), "max_tokens" ∉ rule.drop := by
      intro rule hrule
      have hrule := (List.mem_filter.mp hrule).1
      simp only [ParamRules.rules, List.mem_cons, List.not_mem_nil, or_false] at hrule
      rcases hrule with rfl | rfl | rfl | rfl | rfl | rfl | rfl <;> decide
    obtain ⟨hthinking, hlimit⟩ := foldl_applyRule _ hrules ceiling
      (Modality.stripUnsupportedModalities route.target
        (catalogue.capabilities route.provider route.model)
        (Thinking.apply catalogue route.target route.provider route.model
          (openaiToTarget writer route.target (stripThinkingSuffix route.model)
            (sourceToOpenai writer.serde route.source (stripThinkingSuffix route.model) body
              stream) stream ceiling).body (extractThinking body)))
    rw [stripUnsupportedModalities_same _ _ _ (by decide)] at hthinking hlimit
    exact ⟨hthinking, hlimit⟩

private theorem raisedLimit_eq {intent : ThinkingIntent} {budget : Nat} {asked : Option Nat} :
    raisedLimit intent budget asked = if asked = none ∧ intent ≠ .auto then none
      else some (if asked.getD 0 ≤ budget then budget + 4096 else asked.getD 0) := by
  unfold raisedLimit
  by_cases hauto : intent = .auto
  · simp [hauto]
  · cases asked <;> simp [hauto]

private theorem exists_valid_iff (intent : ThinkingIntent) (range : Option ThinkingRange)
    (asked : Option Nat) (limits : List Nat) :
    (∃ limit, (raisedLimit intent ((namedBudget intent range).getD defaultBudget) asked).map
        (limits.foldl min) = some limit ∧
      (∀ r ∈ range, r.Contains ((namedBudget intent range).getD defaultBudget)) ∧
      (namedBudget intent range).getD defaultBudget < limit ∧ limit ≤ ceiling) ↔
      InRange intent range ∧
        HasRoom intent ((namedBudget intent range).getD defaultBudget) asked limits ceiling := by
  rw [contains_iff_inRange, raisedLimit_eq, HasRoom]
  generalize (namedBudget intent range).getD defaultBudget = budget
  by_cases hmissing : asked = none ∧ intent ≠ .auto
  · rw [if_pos hmissing]
    constructor
    · rintro ⟨limit, hlimit, -⟩
      cases hlimit
    · rintro ⟨-, hasked, -⟩
      exact absurd (hasked hmissing.1) hmissing.2
  · rw [if_neg hmissing]
    have hasked : asked = none → intent = .auto := by
      intro hnone
      by_contra hauto
      exact hmissing ⟨hnone, hauto⟩
    have habove : budget < if asked.getD 0 ≤ budget then budget + 4096 else asked.getD 0 := by
      split <;> omega
    generalize (if asked.getD 0 ≤ budget then budget + 4096 else asked.getD 0) = raised at habove ⊢
    constructor
    · rintro ⟨limit, hlimit, hrange, hbudget, hceiling⟩
      cases hlimit
      exact ⟨hrange, hasked, foldl_min_le_iff.mp hceiling, (lt_foldl_min_iff.mp hbudget).2⟩
    · rintro ⟨hrange, -, hceiling, hlimits⟩
      exact ⟨_, rfl, hrange, lt_foldl_min_iff.mpr ⟨habove, hlimits⟩, foldl_min_le_iff.mpr hceiling⟩

/-- A thinking budget is valid exactly when what the request asks for fits the model. -/
theorem valid_iff
    (hshape : (catalogue.capabilities route.provider
      (stripThinkingSuffix route.model)).thinkingFormat.getD (nativeFormat route.target) =
        .claudeBudget) :
    Valid (catalogue.capabilities route.provider (stripThinkingSuffix route.model)).thinkingRange
        ceiling (translateRequest catalogue writer route body stream ceiling).body ↔
      Fits (catalogue.capabilities route.provider (stripThinkingSuffix route.model)) writer route
        body stream ceiling := by
  obtain ⟨hthinking, hlimit⟩ :=
    translateRequest_fields catalogue writer route body stream ceiling
  unfold Valid Fits enabling
  dsimp only
  rw [hthinking, hlimit]
  by_cases hdropped : (rulesOf route).any (·.drop.contains "thinking") = true
  · rw [if_pos hdropped, if_pos hdropped]
    simp
  · rw [if_neg hdropped, if_neg hdropped]
    cases hasking : asking (catalogue.capabilities route.provider (stripThinkingSuffix route.model))
        route.model body (draft writer route body stream ceiling) with
    | none =>
      rw [apply_asking_none hshape hasking]
      simp
    | some intent =>
      obtain ⟨henabled, hraised⟩ := apply_asking_some hshape hasking
      rw [henabled, hraised]
      have hkind : hasType "enabled" (enabledWith ((namedBudget intent (catalogue.capabilities
          route.provider (stripThinkingSuffix route.model)).thinkingRange).getD defaultBudget)) =
            true := by
        simp [hasType, enabledWith, Json.strField, Json.get_object, List.lookup_cons, Json.asStr]
      have hbudget : ∀ budget : Nat, (enabledWith budget).get "budget_tokens" =
          some (Json.nat budget) := by
        simp [enabledWith, Json.get_object]
      rw [Option.any_some, hkind, Option.bind_some, hbudget]
      constructor
      · intro h
        obtain ⟨budget, limit, hnat, hvalid⟩ := h rfl
        rintro _ ⟨⟩
        cases hnat
        exact (exists_valid_iff ceiling _ _ _ _).mp ⟨limit, hvalid⟩
      · intro h _
        obtain ⟨limit, hvalid⟩ := (exists_valid_iff ceiling _ _ _ _).mpr (h intent rfl)
        exact ⟨_, limit, rfl, hvalid⟩

end Whole

/-- The tables for Claude Sonnet 4: it reasons with a budget and writes 64000 tokens at most. -/
def sonnet4 : Catalogue where
  capabilities := fun _ _ ↦
    { vision := true, reasoning := true, thinkingFormat := some .claudeBudget }
  thinkingLevels := fun _ _ ↦ none

/-- The route of an OpenAI request to Claude Sonnet 4. -/
def toSonnet4 : RequestRoute := ⟨.openAi, .claude, "anthropic", "claude-sonnet-4-20250514"⟩

/-- A request with an effort. -/
def withEffort (effort : String) : Json :=
  .obj [("messages", .arr [.obj [("content", .str "Hello"), ("role", .str "user")]]),
    ("reasoning_effort", .str effort)]

/-- A high effort fits below the default limit. -/
theorem high_effort_is_valid : Valid none 64000
    (translateRequest sonnet4 .placeholder toSonnet4 (withEffort "high") false 64000).body := by
  refine (valid_iff sonnet4 .placeholder toSonnet4 (withEffort "high") false 64000 rfl).mpr ?_
  have henabling : enabling (sonnet4.capabilities toSonnet4.provider
      (stripThinkingSuffix toSonnet4.model)) toSonnet4 (withEffort "high")
        (draft .placeholder toSonnet4 (withEffort "high") false 64000) = some (.level "high") := by
    decide +kernel
  have hasked : ((draft .placeholder toSonnet4 (withEffort "high") false 64000).get
      "max_tokens").bind Json.asU64 = some 64000 := by
    decide +kernel
  have hlimits : ruleLimits toSonnet4 64000 = [] := by decide +kernel
  intro intent hintent
  rw [henabling] at hintent
  cases hintent
  rw [hasked, hlimits]
  refine ⟨fun r hr ↦ (Option.not_mem_none r hr).elim, fun h ↦ absurd h (by decide), .inl ?_, ?_⟩
  · decide
  · simp

/-- The greatest effort raises the limit above the ceiling. -/
theorem max_effort_exceeds_ceiling : ¬ Valid none 64000
    (translateRequest sonnet4 .placeholder toSonnet4 (withEffort "max") false 64000).body := by
  have hout : ((translateRequest sonnet4 .placeholder toSonnet4 (withEffort "max") false
      64000).body.get "max_tokens").bind Json.asU64 = some 132096 := by
    decide +kernel
  intro h
  obtain ⟨budget, limit, -, hlimit, -, -, hceiling⟩ := h (by decide +kernel)
  rw [hout] at hlimit
  cases hlimit
  exact absurd hceiling (by decide)

end ThinkingBudget
end NullRouter.Translate
