import NullRouter.Base.Json
import NullRouter.Base.Text

/-!
# Upstream errors and cooldown decisions

The message of an upstream error and what it means for the account that met it,
`crates/execute/src/errors.rs`. Reading and printing JSON are parameters.
-/

namespace NullRouter.Runtime

open NullRouter.Base

/-- `BACKOFF_BASE_MS`. -/
def backoffBaseMs : Nat := 2000

/-- `BACKOFF_MAX_MS`. -/
def backoffMaxMs : Nat := 5 * 60 * 1000

/-- `BACKOFF_MAX_LEVEL`. -/
def backoffMaxLevel : Nat := 15

/-- `TRANSIENT_COOLDOWN_MS`. -/
def transientCooldownMs : Nat := 30 * 1000

/-- `COOLDOWN_LONG_MS`. -/
def cooldownLongMs : Nat := 2 * 60 * 1000

/-- `COOLDOWN_SHORT_MS`. -/
def cooldownShortMs : Nat := 5 * 1000

/-- `error_type_for`, `errors.rs:25`. -/
def errorTypeFor (status : Nat) : String × String :=
  match status with
  | 400 => ("invalid_request_error", "bad_request")
  | 401 => ("authentication_error", "invalid_api_key")
  | 402 => ("billing_error", "payment_required")
  | 403 => ("permission_error", "insufficient_quota")
  | 404 => ("invalid_request_error", "model_not_found")
  | 406 => ("invalid_request_error", "model_not_supported")
  | 429 => ("rate_limit_error", "rate_limit_exceeded")
  | 500 => ("server_error", "internal_server_error")
  | 502 => ("server_error", "bad_gateway")
  | 503 => ("server_error", "service_unavailable")
  | 504 => ("server_error", "gateway_timeout")
  | status =>
    if 500 ≤ status then ("server_error", "internal_server_error")
    else ("invalid_request_error", "")

/-- `default_error_message`, `errors.rs:47`. -/
def defaultErrorMessage (status : Nat) : Option String :=
  match status with
  | 400 => some "Bad request"
  | 401 => some "Invalid API key provided"
  | 402 => some "Payment required"
  | 403 => some "You exceeded your current quota"
  | 404 => some "Model not found"
  | 406 => some "Model not supported"
  | 429 => some "Rate limit exceeded"
  | 500 => some "Internal server error"
  | 502 => some "Bad gateway - upstream provider error"
  | 503 => some "Service temporarily unavailable"
  | 504 => some "Gateway timeout"
  | _ => none

/-- `build_error_body`, `errors.rs:65`. -/
def buildErrorBody (status : Nat) (message : String) : Json :=
  let resolved :=
    if message.isEmpty then (defaultErrorMessage status).getD "An error occurred" else message
  Json.object [("error", Json.object [
    ("message", .str resolved),
    ("type", .str (errorTypeFor status).1),
    ("code", .str (errorTypeFor status).2)])]

/-- `UpstreamError`, `errors.rs:83`. -/
structure UpstreamError where
  status : Nat
  message : String
  resetsAtMs : Option Nat
  deriving DecidableEq

/-- `parse_upstream_error`, `errors.rs:92`, over a reader and a printer of JSON. -/
def parseUpstreamError (read : String → Option Json) (print : Json → String) (status : Nat)
    (bodyText : String) : UpstreamError :=
  let found := (read bodyText).bind fun json ↦
    (((json.get "error").bind (·.strField "message")).or (json.strField "message")).or
      ((json.get "error").map fun error ↦ error.asStr.getD (print error))
  let message := (found.filter (!·.isEmpty)).getD bodyText
  let resolved :=
    if message.isEmpty then
      (defaultErrorMessage status).getD ("Upstream error: " ++ toString status)
    else message
  ⟨status, resolved, none⟩

/-- `format_provider_error`, `errors.rs:130`. -/
def formatProviderError (status : Nat) (message : String) : String :=
  "[" ++ toString status ++ "]: " ++ message

/-- `FallbackDecision`, `errors.rs:136`. -/
structure FallbackDecision where
  shouldFallback : Bool
  cooldownMs : Nat
  newBackoffLevel : Option Nat
  deriving DecidableEq

/-- `quota_cooldown`, `errors.rs:150`. -/
def quotaCooldown (backoffLevel : Nat) : Nat :=
  min (2 ^ (backoffLevel - 1) * backoffBaseMs) backoffMaxMs

/-- `TEXT_RULES`, `errors.rs:161`. -/
def textRules : List (String × Bool × Nat) :=
  [("no credentials", false, cooldownLongMs),
    ("request not allowed", false, cooldownShortMs),
    ("improperly formed request", false, cooldownLongMs),
    ("rate limit", true, 0),
    ("too many requests", true, 0),
    ("quota exceeded", true, 0),
    ("capacity", true, 0),
    ("overloaded", true, 0)]

/-- `STATUS_RULES`, `errors.rs:173`. -/
def statusRules : List (Nat × Bool × Nat) :=
  [(401, false, cooldownLongMs),
    (402, false, cooldownLongMs),
    (403, false, cooldownLongMs),
    (404, false, cooldownLongMs),
    (429, true, 0)]

/-- `decide`, `errors.rs:205`. -/
def decideCooldown (usesBackoff : Bool) (cooldownMs backoffLevel : Nat) : FallbackDecision :=
  if usesBackoff then
    let level := min (backoffLevel + 1) backoffMaxLevel
    ⟨true, quotaCooldown level, some level⟩
  else ⟨true, cooldownMs, none⟩

/-- `check_fallback_error`, `errors.rs:183`: text rules, then status rules. -/
def checkFallbackError (status : Nat) (errorText : String) (backoffLevel : Nat) :
    FallbackDecision :=
  let lowered := toLowercase errorText.toList
  match textRules.find? fun rule ↦ !lowered.isEmpty && containsText lowered rule.1.toList with
  | some (_, usesBackoff, cooldownMs) => decideCooldown usesBackoff cooldownMs backoffLevel
  | none =>
    match statusRules.find? fun rule ↦ rule.1 == status with
    | some (_, usesBackoff, cooldownMs) => decideCooldown usesBackoff cooldownMs backoffLevel
    | none => ⟨true, transientCooldownMs, none⟩

/-- `format_retry_after`, `errors.rs:221`. -/
def formatRetryAfter (remainingMs : Int) : String :=
  if remainingMs ≤ 0 then "reset after 0s"
  else
    let total := remainingMs.toNat / 1000 + if remainingMs.toNat % 1000 > 0 then 1 else 0
    let hours := total / 3600
    let minutes := total % 3600 / 60
    let seconds := total % 60
    let parts := (if hours > 0 then [toString hours ++ "h"] else []) ++
      if minutes > 0 then [toString minutes ++ "m"] else []
    let parts := parts ++ if seconds > 0 ∨ parts = [] then [toString seconds ++ "s"] else []
    "reset after " ++ String.intercalate " " parts

/-- A rule either backs off or has a cooldown of its own, at most the longest one. -/
def RuleTime (usesBackoff : Bool) (cooldownMs : Nat) : Prop :=
  usesBackoff = true ∨ 0 < cooldownMs ∧ cooldownMs ≤ backoffMaxMs

instance (usesBackoff : Bool) (cooldownMs : Nat) : Decidable (RuleTime usesBackoff cooldownMs) :=
  inferInstanceAs (Decidable (_ ∨ _))

/-- The quota cooldown lies between the base and the ceiling. -/
theorem quotaCooldown_bounds (level : Nat) :
    backoffBaseMs ≤ quotaCooldown level ∧ quotaCooldown level ≤ backoffMaxMs := by
  have hpow : 1 ≤ 2 ^ (level - 1) := Nat.one_le_two_pow
  refine ⟨?_, Nat.min_le_right _ _⟩
  rw [quotaCooldown, Nat.le_min]
  refine ⟨?_, by decide⟩
  calc backoffBaseMs = 1 * backoffBaseMs := (Nat.one_mul _).symm
    _ ≤ 2 ^ (level - 1) * backoffBaseMs := Nat.mul_le_mul_right _ hpow

private theorem decideCooldown_spec {usesBackoff : Bool} {cooldownMs : Nat}
    (h : RuleTime usesBackoff cooldownMs) (backoffLevel : Nat) :
    (decideCooldown usesBackoff cooldownMs backoffLevel).shouldFallback = true ∧
      0 < (decideCooldown usesBackoff cooldownMs backoffLevel).cooldownMs ∧
      (decideCooldown usesBackoff cooldownMs backoffLevel).cooldownMs ≤ backoffMaxMs := by
  unfold decideCooldown
  cases usesBackoff with
  | true =>
    have hq := quotaCooldown_bounds (min (backoffLevel + 1) backoffMaxLevel)
    exact ⟨rfl, Nat.lt_of_lt_of_le (by decide) hq.1, hq.2⟩
  | false => exact ⟨rfl, h.resolve_left (by simp)⟩

/-- Every error is one to fall back on, under a cooldown of at most five minutes: no status
and no text is ever returned at once. -/
theorem checkFallbackError_spec (status : Nat) (errorText : String) (backoffLevel : Nat) :
    (checkFallbackError status errorText backoffLevel).shouldFallback = true ∧
      0 < (checkFallbackError status errorText backoffLevel).cooldownMs ∧
      (checkFallbackError status errorText backoffLevel).cooldownMs ≤ backoffMaxMs := by
  have htext : ∀ rule ∈ textRules, RuleTime rule.2.1 rule.2.2 := by decide
  have hstatus : ∀ rule ∈ statusRules, RuleTime rule.2.1 rule.2.2 := by decide
  unfold checkFallbackError
  simp only
  split
  · next hfind => exact decideCooldown_spec (htext _ (List.mem_of_find?_eq_some hfind)) _
  · split
    · next hfind => exact decideCooldown_spec (hstatus _ (List.mem_of_find?_eq_some hfind)) _
    · decide

/-- A malformed-request text cools an account down for two minutes, whatever the status. -/
example : checkFallbackError 400 "Improperly formed request." 0 = ⟨true, 120000, none⟩ := by
  decide

end NullRouter.Runtime
