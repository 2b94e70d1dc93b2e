import NullRouter.Runtime.Executor
import NullRouter.State.Operations

/-!
# The chat pipeline

`execute_chat` and what it runs for a target, `services/runtime-actix/src/pipeline.rs`: account
selection, dispatch, cooldowns and the fallback to the next account and the next model. The
store of the state service is carried along; its calls get through. What the client and the
providers exchange is a parameter.
-/

namespace NullRouter.Runtime

open NullRouter.Base NullRouter.State

/-- `ModelTarget`, `crates/providers/src/model.rs`. -/
structure ModelTarget where
  provider : String
  model : String
  deriving DecidableEq

/-- `ComboStrategy`, `combo.rs:25`; all but `fusion` ask the models in turn. -/
inductive ComboStrategy where
  | fallback
  | roundRobin
  | fusion
  | weighted
  | p2c
  | costOptimized
  | quotaShare
  | auto
  | capacity
  deriving DecidableEq

/-- `ResolvedTargets`: what `resolve_targets` makes of the requested model. -/
structure ResolvedTargets where
  targets : List ModelTarget
  strategy : ComboStrategy

/-- `ChatContext`, as far as the pipeline's own steps read it. -/
structure ChatContext where
  body : Json
  stream : Bool
  sourceFormat : String

/-- What the client is answered. -/
inductive Response where
  | error (status : Nat) (message : String) (retryAfter : Option Nat)
  | reply (status : Nat) (body : String)
  deriving DecidableEq

namespace Response

/-- The status line of a response. -/
def status : Response → Nat
  | .error status _ _ => status
  | .reply status _ => status

end Response

/-- `TargetOutcome`, `pipeline.rs:1932`. -/
inductive TargetOutcome where
  | responded (response : Response)
  | failed (response : Response)

namespace TargetOutcome

/-- The response of an outcome of either kind. -/
def response : TargetOutcome → Response
  | .responded r => r
  | .failed r => r

end TargetOutcome

/-- `Attempt`, `pipeline.rs:1940`. -/
inductive Attempt where
  | responded (response : Response)
  | retryable (status : Nat) (message : String) (cooldownMs : Nat) (backoffLevel : Option Nat)

/-- How `refresh_if_due` finds the token of a connection. -/
inductive RefreshOutcome where
  | notDue
  | refreshed (update : CredentialUpdate)
  | permanent (error : String)
  | transient

/-- `Selection`, `state_client.rs:20`: what the state service answers to a request for credentials. -/
inductive Selection where
  | selected (credentials : ProviderConnection)
  | noCredentials (message : String)
  | allRateLimited (retryAtMs : Nat) (lastError : Option String) (lastErrorCode : Option Nat)
  | exhausted
  | unavailable (message : String)

/-- `PanelAnswer`, `fusion.rs:32`. -/
structure PanelAnswer where
  model : String
  text : String

/-- What the pipeline runs on: the registry and the upstream, the clock, the settings that
selection reads, and the translation of requests and replies. -/
structure Services where
  upstream : Upstream
  clock : Nat → Nat
  strategy : FallbackStrategy
  stickyLimit : Nat
  isExecutorSupported : String → Bool
  unsupportedExecutorMessage : String → String
  readJson : String → Option Json
  printJson : Json → String
  refresh : Nat → String → ProviderConnection → RefreshOutcome
  /-- The body dispatched for a request: translated, compressed and serialised. -/
  prepare : ChatContext → ModelTarget → ProviderConnection → Except String String
  /-- `stream_response` or `json_response`. -/
  reply : ChatContext → ModelTarget → ProviderConnection → Answer → Response
  /-- The body dispatched for a panel call. -/
  preparePanel : ChatContext → ModelTarget → ProviderConnection → Except String String
  /-- `extract_panel_text` on the body of a panel call. -/
  panelText : ModelTarget → Answer → Option String
  judgeBody : Json → List PanelAnswer → Json

/-- The store and what was done so far: clock readings, posts, and the cooldowns that
connections received. -/
structure World where
  store : Connections
  readings : Nat
  sent : List Post
  cooldowns : List MarkUnavailableRequest

/-- `MAX_ACCOUNT_ATTEMPTS`, `pipeline.rs:149`. -/
def maxAccountAttempts : Nat := 10

/-- `REAUTH_COOLDOWN_MS`, `pipeline.rs:155`. -/
def reauthCooldownMs : Nat := 60 * 60 * 1000

/-- `StatusCode::from_u16`. -/
def statusCode (status : Nat) : Option Nat :=
  if 100 ≤ status ∧ status < 1000 then some status else none

namespace Services

variable (services : Services)

/-- `select_credentials`, `state_client.rs:267` and `internal.rs:187`. -/
def selectCredentials (target : ModelTarget) (exclude : List String) (w : World) :
    World × ConnectionSelection :=
  let selection := w.store.selectConnection
    ⟨target.provider, some target.model, exclude, none, services.strategy, services.stickyLimit⟩
    (services.clock w.readings) (services.clock (w.readings + 1))
  ({ w with store := selection.1, readings := w.readings + 2 }, selection.2)

/-- `mark_unavailable`, `state_client.rs:339`. -/
def markUnavailable (update : MarkUnavailableRequest) (w : World) : World :=
  match w.store.markConnectionUnavailable update (services.clock w.readings) with
  | some store =>
    { w with store := store, readings := w.readings + 1, cooldowns := w.cooldowns ++ [update] }
  | none => { w with readings := w.readings + 1 }

/-- `clear_error`, `state_client.rs:360`. -/
def clearError (connectionId : String) (model : Option String) (w : World) : World :=
  { w with
    store := (w.store.clearConnectionError connectionId model (services.clock w.readings)).getD
      w.store
    readings := w.readings + 1 }

/-- `refresh_if_due`, `pipeline.rs:1693`: the credentials to use, and the store after it. -/
def refreshIfDue (provider : String) (credentials : ProviderConnection) (w : World) :
    World × ProviderConnection :=
  match services.refresh w.readings provider credentials with
  | .notDue | .transient => (w, credentials)
  | .refreshed update =>
    let now := services.clock w.readings
    ({ w with
        store := (updateFirst (·.id == credentials.id) (·.editCredentials now update)
          w.store).getD w.store
        readings := w.readings + 1 },
      { credentials with
        accessToken := update.accessToken
        refreshToken := update.refreshToken
        expiresAt := update.expiresAt })
  | .permanent error =>
    (services.markUnavailable
      ⟨credentials.id, none, 401, "OAuth refresh failed: " ++ error, reauthCooldownMs, none⟩ w,
      credentials)

/-- `attempt`, `pipeline.rs:1314`. -/
def attempt (context : ChatContext) (target : ModelTarget) (credentials : ProviderConnection)
    (w : World) : World × Attempt :=
  let refreshed := services.refreshIfDue target.provider credentials w
  let w := refreshed.1
  let credentials := refreshed.2
  let dispatched := services.upstream.execute target.provider credentials
    (services.prepare context target credentials) w.sent
  let w := { w with sent := dispatched.1 }
  match dispatched.2 with
  | .error error =>
    let decision := checkFallbackError error.clientStatus error.message 0
    (w, .retryable error.clientStatus error.message decision.cooldownMs decision.newBackoffLevel)
  | .ok answer =>
    if answer.isSuccess then
      (services.clearError credentials.id (some target.model) w,
        .responded (services.reply context target credentials answer))
    else
      let parsed :=
        parseUpstreamError services.readJson services.printJson answer.status answer.body
      let decision := checkFallbackError answer.status parsed.message 0
      if decision.shouldFallback then
        (w, .retryable answer.status parsed.message decision.cooldownMs decision.newBackoffLevel)
      else
        (w, .responded (.error ((statusCode answer.status).getD 502)
          (formatProviderError answer.status parsed.message) none))

/-- `rate_limited`, `pipeline.rs:1780`. -/
def rateLimited (target : ModelTarget) (retryAtMs : Nat) (lastError : Option String)
    (lastErrorCode : Option Nat) (w : World) : World × Response :=
  let remaining := retryAtMs - min (services.clock w.readings) u64Max
  let remaining := if remaining < 2 ^ 63 then remaining else 0
  let message := "[" ++ target.provider ++ "/" ++ target.model ++ "] " ++
    lastError.getD "Unavailable" ++ " (" ++ formatRetryAfter remaining ++ ")"
  ({ w with readings := w.readings + 1 },
    .error ((lastErrorCode.bind statusCode).getD 503) message (some (max (remaining / 1000) 1)))

/-- The loop of `execute_for_target` over the accounts, `pipeline.rs:742`. -/
def tryAccounts (context : ChatContext) (target : ModelTarget) :
    (attempts : Nat) → (excluded : List String) → (lastError : Option (Nat × String)) →
      World → World × TargetOutcome
  | 0, _, lastError, w => (w, exhausted lastError)
  | attempts + 1, excluded, lastError, w =>
    let selection := services.selectCredentials target excluded w
    let w := selection.1
    match selection.2 with
    | .noCredentials =>
      (w, .failed (.error 404 ("No active credentials for provider: " ++ target.provider) none))
    | .allRateLimited retryAtMs reported code =>
      let limited := services.rateLimited target retryAtMs
        ((lastError.map Prod.snd).or reported) ((lastError.map Prod.fst).or code) w
      (limited.1, .failed limited.2)
    | .exhausted => (w, exhausted lastError)
    | .selected credentials =>
      let attempted := services.attempt context target credentials w
      match attempted.2 with
      | .responded response => (attempted.1, .responded response)
      | .retryable status message cooldownMs backoffLevel =>
        let w := services.markUnavailable
          ⟨credentials.id, some target.model, status, message, cooldownMs, backoffLevel⟩
          attempted.1
        tryAccounts context target attempts (excluded ++ [credentials.id])
          (some (status, message)) w
where
  /-- The last real upstream error, once every account failed. -/
  exhausted (lastError : Option (Nat × String)) : TargetOutcome :=
    let last := lastError.getD (503, "All provider accounts are unavailable")
    .failed (.error ((statusCode last.1).getD 503) last.2 none)

/-- `execute_for_target`, `pipeline.rs:723`. -/
def executeForTarget (context : ChatContext) (target : ModelTarget) (w : World) :
    World × TargetOutcome :=
  if services.isExecutorSupported target.provider then
    services.tryAccounts context target maxAccountAttempts [] none w
  else (w, .failed (.error 501 (services.unsupportedExecutorMessage target.provider) none))

/-- The models of a combo in turn, `pipeline.rs:475–494`; the last one owns the answer. -/
def tryTargets (context : ChatContext) : List ModelTarget → World → World × Response
  | [], w => (w, .error 400 "Invalid model format" none)
  | [last], w =>
    let outcome := services.executeForTarget context last w
    (outcome.1, outcome.2.response)
  | target :: next :: rest, w =>
    let outcome := services.executeForTarget context target w
    match outcome.2 with
    | .responded response => (outcome.1, response)
    | .failed _ => tryTargets context (next :: rest) outcome.1

/-- `panel_text`, `pipeline.rs:635`. -/
def panelCall (context : ChatContext) (target : ModelTarget) (w : World) :
    World × Option String :=
  if services.isExecutorSupported target.provider then
    let selection := services.selectCredentials target [] w
    let w := selection.1
    match selection.2 with
    | .selected credentials =>
      let dispatched := services.upstream.execute target.provider credentials
        (services.preparePanel context target credentials) w.sent
      let w := { w with sent := dispatched.1 }
      match dispatched.2 with
      | .error _ => (w, none)
      | .ok answer => (w, if answer.isSuccess then services.panelText target answer else none)
    | _ => (w, none)
  else (w, none)

/-- `target_label`, `pipeline.rs:718`. -/
def targetLabel (target : ModelTarget) : String := target.provider ++ "/" ++ target.model

/-- `collect_panel`, `pipeline.rs:572`. The schedule lists the panel calls in the order in which
they ran, each with whether it was still awaited when it ended. -/
def collectPanel (context : ChatContext) (panel : List ModelTarget) :
    (schedule : List (Nat × Bool)) → World → World × List PanelAnswer
  | [], w => (w, [])
  | (i, awaited) :: schedule, w =>
    match panel[i]? with
    | none => collectPanel context panel schedule w
    | some target =>
      let call := services.panelCall context target w
      let rest := collectPanel context panel schedule call.1
      match call.2.filter fun text ↦ awaited && !(trim text).isEmpty with
      | some text => (rest.1, ⟨targetLabel target, text⟩ :: rest.2)
      | none => rest

/-- `execute_fusion`, `pipeline.rs:505`. -/
def executeFusion (context : ChatContext) (panel : List ModelTarget)
    (schedule : List (Nat × Bool)) (w : World) : World × Response :=
  match panel with
  | [] => (w, .error 400 "Fusion combo has no models" none)
  | first :: _ =>
    let collected := services.collectPanel context panel schedule w
    let run := fun context target ↦
      let outcome := services.executeForTarget context target collected.1
      (outcome.1, outcome.2.response)
    match collected.2 with
    | [] => (collected.1, .error 503 "All fusion panel models failed" none)
    | [answer] => run context ((panel.find? (targetLabel · == answer.model)).getD first)
    | answers => run { context with body := services.judgeBody context.body answers } first

/-- `execute_chat`, `pipeline.rs:465`, on the resolved targets. -/
def executeChat (context : ChatContext) (resolved : ResolvedTargets)
    (schedule : List (Nat × Bool)) (w : World) : World × Response :=
  if resolved.strategy = .fusion ∧ 1 < resolved.targets.length then
    services.executeFusion context resolved.targets schedule w
  else services.tryTargets context resolved.targets w

end Services
end NullRouter.Runtime
