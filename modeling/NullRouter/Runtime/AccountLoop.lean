import NullRouter.Runtime.Pipeline
import NullRouter.State.Cooldown

/-!
# The loop over a provider's accounts

`execute_for_target` and the failures of `attempt`, `services/runtime-actix/src/pipeline.rs:723–824`
and `1397–1442`, with any state service and any upstream behind them: a selection, a cooldown and
a dispatch may change the world and answer by it as they like. The model of the pipeline, whose
state service always answers, is an instance.
-/

namespace NullRouter.Runtime

open NullRouter.Base NullRouter.State

/-- What the loop runs on, over the world that its calls change. -/
structure AccountServices (σ : Type) where
  isExecutorSupported : String → Bool
  unsupportedExecutorMessage : String → String
  readJson : String → Option Json
  printJson : Json → String
  /-- A reading of the clock, in milliseconds as a `u64`. -/
  now : σ → σ × Nat
  selectCredentials : ModelTarget → List String → σ → σ × Selection
  markUnavailable : MarkUnavailableRequest → σ → σ
  clearError : String → Option String → σ → σ
  refreshIfDue : String → ProviderConnection → σ → σ × ProviderConnection
  /-- The translation of the request and its dispatch. -/
  execute : ModelTarget → ProviderConnection → σ → σ × Except ExecuteError Answer
  /-- `stream_response` or `json_response`. -/
  reply : ModelTarget → ProviderConnection → Answer → Response

/-- An attempt that was made: with which connection, and what the upstream did. -/
structure Tried where
  connectionId : String
  outcome : Except ExecuteError Answer

/-- The variables of the loop, `pipeline.rs:739–740`, the world, and the attempts made so far. -/
structure AccountState (σ : Type) where
  world : σ
  excluded : List String
  lastError : Option (Nat × String)
  tried : List Tried

/-- What a pass of the loop comes to: another pass, the end of the loop, or a response. -/
inductive AccountStep (σ : Type) where
  | again (state : AccountState σ)
  | stopped (state : AccountState σ)
  | returned (state : AccountState σ) (outcome : TargetOutcome)

/-- The response to a failure, as `fail` writes it for an upstream error, `pipeline.rs:818–823`. -/
def failedResponse (error : Nat × String) : Response :=
  .error ((statusCode error.1).getD 503) error.2 none

/-- The response of `rate_limited` for what remains of a cooldown, `pipeline.rs:1780`. -/
def limitedResponse (target : ModelTarget) (remaining : Nat) (lastError : Option String)
    (lastErrorCode : Option Nat) : Response :=
  .error ((lastErrorCode.bind statusCode).getD 503)
    ("[" ++ target.provider ++ "/" ++ target.model ++ "] " ++ lastError.getD "Unavailable" ++
      " (" ++ formatRetryAfter remaining ++ ")")
    (some (max (remaining / 1000) 1))

/-- What is left of a cooldown, nothing beyond an `i64`. -/
def remainingMs (retryAtMs now : Nat) : Nat :=
  if retryAtMs - now < 2 ^ 63 then retryAtMs - now else 0

/-- The error that a selection is answered with itself. -/
def Selection.ownError : Selection → Option Response
  | .noCredentials message => some (.error 404 message none)
  | .unavailable message => some (.error 503 message none)
  | _ => none

namespace AccountServices

variable {σ : Type} (services : AccountServices σ)

/-- The error of what the upstream did, `pipeline.rs:1410–1426`. -/
def errorOf : Except ExecuteError Answer → Option (Nat × String)
  | .error error => some (error.clientStatus, error.message)
  | .ok answer =>
    if answer.isSuccess then none
    else some (answer.status,
      (parseUpstreamError services.readJson services.printJson answer.status answer.body).message)

/-- `attempt`, `pipeline.rs:1314`, with what the upstream did. -/
def attempt (target : ModelTarget) (credentials : ProviderConnection) (w : σ) :
    σ × Except ExecuteError Answer × Attempt :=
  let refreshed := services.refreshIfDue target.provider credentials w
  let credentials := refreshed.2
  let dispatched := services.execute target credentials refreshed.1
  let w := dispatched.1
  match dispatched.2 with
  | .error error =>
    let decision := checkFallbackError error.clientStatus error.message 0
    (w, dispatched.2,
      .retryable error.clientStatus error.message decision.cooldownMs decision.newBackoffLevel)
  | .ok answer =>
    if answer.isSuccess then
      (services.clearError credentials.id (some target.model) w, dispatched.2,
        .responded (services.reply target credentials answer))
    else
      let parsed :=
        parseUpstreamError services.readJson services.printJson answer.status answer.body
      let decision := checkFallbackError answer.status parsed.message 0
      if decision.shouldFallback then
        (w, dispatched.2,
          .retryable answer.status parsed.message decision.cooldownMs decision.newBackoffLevel)
      else
        (w, dispatched.2, .responded (.error ((statusCode answer.status).getD 502)
          (formatProviderError answer.status parsed.message) none))

/-- A pass of the loop, `pipeline.rs:743–812`. -/
def step (target : ModelTarget) (state : AccountState σ) : AccountStep σ :=
  let selection := services.selectCredentials target state.excluded state.world
  let state := { state with world := selection.1 }
  match selection.2 with
  | .selected credentials =>
    let attempted := services.attempt target credentials state.world
    let tried := state.tried ++ [⟨credentials.id, attempted.2.1⟩]
    match attempted.2.2 with
    | .responded response =>
      .returned { state with world := attempted.1, tried := tried } (.responded response)
    | .retryable status message cooldownMs backoffLevel =>
      .again {
        world := services.markUnavailable
          ⟨credentials.id, some target.model, status, message, cooldownMs, backoffLevel⟩
          attempted.1
        excluded := state.excluded ++ [credentials.id]
        lastError := some (status, message)
        tried := tried }
  | .noCredentials message => .returned state (.failed (.error 404 message none))
  | .allRateLimited retryAtMs reported code =>
    let now := services.now state.world
    .returned { state with world := now.1 } (.failed (limitedResponse target
      (remainingMs retryAtMs now.2) ((state.lastError.map Prod.snd).or reported)
      ((state.lastError.map Prod.fst).or code)))
  | .exhausted => .stopped state
  | .unavailable message => .returned state (.failed (.error 503 message none))

/-- The last real upstream error, once every account failed, `pipeline.rs:815–823`. -/
def exhausted (state : AccountState σ) : TargetOutcome :=
  .failed (failedResponse (state.lastError.getD (503, "All provider accounts are unavailable")))

/-- The loop with so many attempts left. -/
def tryAccounts (target : ModelTarget) : Nat → AccountState σ → AccountState σ × TargetOutcome
  | 0, state => (state, exhausted state)
  | attempts + 1, state =>
    match services.step target state with
    | .again state => tryAccounts target attempts state
    | .stopped state => (state, exhausted state)
    | .returned state outcome => (state, outcome)

/-- `execute_for_target`, `pipeline.rs:723`. -/
def executeForTarget (target : ModelTarget) (w : σ) : AccountState σ × TargetOutcome :=
  if services.isExecutorSupported target.provider then
    services.tryAccounts target maxAccountAttempts ⟨w, [], none, []⟩
  else
    (⟨w, [], none, []⟩,
      .failed (.error 501 (services.unsupportedExecutorMessage target.provider) none))

/-- The state service selects no connection that it is told to leave out. -/
def HonoursExclusion : Prop :=
  ∀ target exclude w credentials,
    (services.selectCredentials target exclude w).2 = .selected credentials →
      credentials.id ∉ exclude

/-- Whether a response tells an upstream error: as it is, or with the time until an account is
free. -/
def Reports (target : ModelTarget) (error : Nat × String) (response : Response) : Prop :=
  response = failedResponse error ∨
    ∃ remaining, response = limitedResponse target remaining (some error.2) (some error.1)

/-- What fallback over accounts promises: a bounded number of attempts, each connection once,
and after an attempt no other error than that of the last one. -/
structure FallsBack (target : ModelTarget) (run : AccountState σ × TargetOutcome) : Prop where
  length_le : run.1.tried.length ≤ maxAccountAttempts
  nodup : (run.1.tried.map (·.connectionId)).Nodup
  reports : ∀ response, run.2 = .failed response → ∀ last ∈ run.1.tried.getLast?,
    ∃ error, services.errorOf last.outcome = some error ∧ Reports target error response

/-- The states that the loop comes to in so many passes. -/
inductive Reached (target : ModelTarget) (start : AccountState σ) :
    Nat → AccountState σ → Prop
  | start : Reached target start 0 start
  | again {n : Nat} {state next : AccountState σ} (h : Reached target start n state)
      (hstep : services.step target state = .again next) : Reached target start (n + 1) next

/-- No selection after an attempt is answered with an error of its own, unless that is word for
word the error of the attempt. -/
def Unmasked (target : ModelTarget) (start : AccountState σ) : Prop :=
  ∀ n state, n < maxAccountAttempts → services.Reached target start n state →
    ∀ error ∈ state.lastError, ∀ response ∈
      (services.selectCredentials target state.excluded state.world).2.ownError,
      response = failedResponse error

variable {services} {target : ModelTarget}

private theorem errorOf_attempt {credentials : ProviderConnection} {w : σ} {status : Nat}
    {message : String} {cooldownMs : Nat} {backoffLevel : Option Nat}
    (h : (services.attempt target credentials w).2.2 =
      .retryable status message cooldownMs backoffLevel) :
    services.errorOf (services.attempt target credentials w).2.1 = some (status, message) := by
  unfold attempt at h ⊢
  dsimp only at h ⊢
  generalize services.execute target
    (services.refreshIfDue target.provider credentials w).2
    (services.refreshIfDue target.provider credentials w).1 = dispatched at h ⊢
  obtain ⟨w', outcome⟩ := dispatched
  cases outcome with
  | error error =>
    cases h
    rfl
  | ok answer =>
    dsimp only at h ⊢
    by_cases hsuccess : answer.isSuccess = true
    · rw [if_pos hsuccess] at h
      cases h
    · rw [if_neg hsuccess] at h ⊢
      split at h
      next hfallback =>
        rw [if_pos hfallback]
        cases h
        exact if_neg hsuccess
      next => cases h

/-- What a pass does: it tries the connection selected, or ends without an attempt, with an error
of the selection's own, with the time until an account is free, or for want of one. -/
private theorem step_cases (target : ModelTarget) (state : AccountState σ) :
    let selection := (services.selectCredentials target state.excluded state.world).2
    (∃ credentials outcome, selection = .selected credentials ∧
      ((∃ next error, services.step target state = .again next ∧
          next.excluded = state.excluded ++ [credentials.id] ∧ next.lastError = some error ∧
          next.tried = state.tried ++ [⟨credentials.id, outcome⟩] ∧
          services.errorOf outcome = some error) ∨
        ∃ next response, services.step target state = .returned next (.responded response) ∧
          next.tried = state.tried ++ [⟨credentials.id, outcome⟩])) ∨
    (∃ next response, services.step target state = .returned next (.failed response) ∧
      next.tried = state.tried ∧ selection.ownError = some response) ∨
    selection.ownError = none ∧ ((∃ next remaining reported code,
        services.step target state = .returned next (.failed (limitedResponse target remaining
          ((state.lastError.map Prod.snd).or reported)
          ((state.lastError.map Prod.fst).or code))) ∧ next.tried = state.tried) ∨
      ∃ next, services.step target state = .stopped next ∧ next.tried = state.tried ∧
        next.lastError = state.lastError) := by
  unfold step
  dsimp only
  cases hselection : (services.selectCredentials target state.excluded state.world).2 with
  | selected credentials =>
    refine .inl ⟨credentials, (services.attempt target credentials
      (services.selectCredentials target state.excluded state.world).1).2.1, rfl, ?_⟩
    dsimp only
    split
    next response hattempt => exact .inr ⟨_, _, rfl, rfl⟩
    next status message cooldownMs backoffLevel hattempt =>
      exact .inl ⟨_, (status, message), rfl, rfl, rfl, rfl, errorOf_attempt hattempt⟩
  | noCredentials message => exact .inr (.inl ⟨_, _, rfl, rfl, rfl⟩)
  | allRateLimited retryAtMs reported code =>
    exact .inr (.inr ⟨rfl, .inl ⟨_, _, reported, code, rfl, rfl⟩⟩)
  | exhausted => exact .inr (.inr ⟨rfl, .inr ⟨_, rfl, rfl, rfl⟩⟩)
  | unavailable message => exact .inr (.inl ⟨_, _, rfl, rfl, rfl⟩)

/-- The invariant of the loop: the connections left out are those tried, each once, and the last
error is that of the last attempt. -/
private structure Tracks (services : AccountServices σ) (state : AccountState σ) : Prop where
  excluded_eq : state.excluded = state.tried.map (·.connectionId)
  nodup : (state.tried.map (·.connectionId)).Nodup
  last : ∀ last ∈ state.tried.getLast?,
    ∃ error, services.errorOf last.outcome = some error ∧ state.lastError = some error
  fresh : state.tried = [] → state.lastError = none

private theorem nodup_selected (hhonours : services.HonoursExclusion) {state : AccountState σ}
    (h : services.Tracks state) {credentials : ProviderConnection}
    {outcome : Except ExecuteError Answer}
    (hselected : (services.selectCredentials target state.excluded state.world).2 =
      .selected credentials) :
    ((state.tried ++ [(⟨credentials.id, outcome⟩ : Tried)]).map (·.connectionId)).Nodup := by
  have hnew := hhonours target _ _ _ hselected
  rw [h.excluded_eq] at hnew
  rw [List.map_append, List.nodup_append]
  refine ⟨h.nodup, List.nodup_singleton _, fun id hid other hother ↦ ?_⟩
  rw [List.mem_singleton.mp hother]
  rintro rfl
  exact hnew hid

private theorem tracks_of_reached (hhonours : services.HonoursExclusion) {w : σ} {n : Nat}
    {state : AccountState σ} (h : services.Reached target ⟨w, [], none, []⟩ n state) :
    services.Tracks state ∧ state.tried.length = n := by
  induction h with
  | start => exact ⟨⟨rfl, List.nodup_nil, by simp, fun _ ↦ rfl⟩, rfl⟩
  | @again n state next hreached hstep ih =>
    obtain ⟨htracks, hlength⟩ := ih
    rcases services.step_cases target state with ⟨credentials, outcome, hselected,
      ⟨next', error, hnext, hexcluded, hlast, htried, herror⟩ | ⟨_, _, hnext, _⟩⟩ |
      ⟨_, _, hnext, _⟩ | ⟨-, ⟨_, _, _, _, hnext, _⟩ | ⟨_, hnext, _⟩⟩
    · rw [hstep] at hnext
      cases hnext
      refine ⟨⟨?_, ?_, fun last hmem ↦ ?_, fun hempty ↦ ?_⟩, ?_⟩
      · rw [hexcluded, htried, htracks.excluded_eq, List.map_append]
        rfl
      · rw [htried]
        exact nodup_selected hhonours htracks hselected
      · rw [htried, List.getLast?_concat, Option.mem_some_iff] at hmem
        subst hmem
        exact ⟨error, herror, hlast⟩
      · rw [htried] at hempty
        simp at hempty
      · rw [htried, List.length_append, hlength, List.length_singleton]
    · rw [hstep] at hnext
      cases hnext
    · rw [hstep] at hnext
      cases hnext
    · rw [hstep] at hnext
      cases hnext
    · rw [hstep] at hnext
      cases hnext

private theorem tryAccounts_of_reached {start state : AccountState σ} {n : Nat}
    (h : services.Reached target start n state) :
    ∀ more, services.tryAccounts target (n + more) start =
      services.tryAccounts target more state := by
  induction h with
  | start =>
    intro more
    rw [Nat.zero_add]
  | @again n state next hreached hstep ih =>
    intro more
    rw [Nat.add_right_comm, Nat.add_assoc, ih, tryAccounts, hstep]

private theorem Tracks.ended {state next : AccountState σ} {outcome : TargetOutcome}
    (h : services.Tracks state) (hlength : state.tried.length ≤ maxAccountAttempts)
    (htried : next.tried = state.tried)
    (hreports : ∀ response, outcome = .failed response →
      ∀ error, state.lastError = some error → Reports target error response) :
    services.FallsBack target (next, outcome) where
  length_le := by
    rw [htried]
    exact hlength
  nodup := by
    rw [htried]
    exact h.nodup
  reports response hresponse last hlast := by
    rw [htried] at hlast
    obtain ⟨error, herror, hstate⟩ := h.last last hlast
    exact ⟨error, herror, hreports response hresponse error hstate⟩

private theorem reports_exhausted {state : AccountState σ} {response : Response}
    (hresponse : exhausted state = .failed response) {error : Nat × String}
    (herror : state.lastError = some error) : Reports target error response := by
  unfold exhausted at hresponse
  rw [herror, Option.getD_some] at hresponse
  exact .inl (TargetOutcome.failed.inj hresponse).symm

private theorem fallsBack_tryAccounts (hhonours : services.HonoursExclusion) {w : σ}
    (hunmasked : services.Unmasked target ⟨w, [], none, []⟩) (more : Nat) :
    ∀ {n : Nat} {state : AccountState σ}, n + more = maxAccountAttempts →
      services.Reached target ⟨w, [], none, []⟩ n state →
      services.FallsBack target (services.tryAccounts target more state) := by
  induction more with
  | zero =>
    intro n state hn hreached
    obtain ⟨htracks, hlength⟩ := tracks_of_reached hhonours hreached
    exact htracks.ended (by omega) rfl fun _ hresponse _ herror ↦
      reports_exhausted hresponse herror
  | succ more ih =>
    intro n state hn hreached
    obtain ⟨htracks, hlength⟩ := tracks_of_reached hhonours hreached
    have hle : state.tried.length ≤ maxAccountAttempts := by omega
    rw [tryAccounts]
    rcases services.step_cases target state with ⟨credentials, outcome, hselected,
      ⟨next, error, hnext, -⟩ | ⟨next, response, hnext, htried⟩⟩ |
      ⟨next, response, hnext, htried, hown⟩ |
      ⟨-, ⟨next, remaining, reported, code, hnext, htried⟩ | ⟨next, hnext, htried, hlast⟩⟩
    · rw [hnext]
      exact ih (by omega) (hreached.again hnext)
    · rw [hnext]
      refine ⟨?_, ?_, fun response' hresponse' ↦ by cases hresponse'⟩
      · show next.tried.length ≤ _
        rw [htried, List.length_append, List.length_singleton]
        omega
      · show (next.tried.map _).Nodup
        rw [htried]
        exact nodup_selected hhonours htracks hselected
    · rw [hnext]
      refine htracks.ended hle htried fun response' hresponse' error herror ↦ ?_
      cases hresponse'
      exact .inl (hunmasked n state (by omega) hreached error herror _ hown)
    · rw [hnext]
      refine htracks.ended hle htried fun response' hresponse' error herror ↦ ?_
      cases hresponse'
      rw [herror]
      exact .inr ⟨remaining, rfl⟩
    · rw [hnext]
      refine htracks.ended hle htried fun response' hresponse' error herror ↦ ?_
      rw [← hlast] at herror
      exact reports_exhausted hresponse' herror

private theorem ownError_ne_limited {selection : Selection} {remaining : Nat}
    {reported : Option String} {code : Option Nat} :
    selection.ownError ≠ some (limitedResponse target remaining reported code) := by
  cases selection <;> simp [Selection.ownError, limitedResponse]

/-- Whatever the state service does as long as it leaves out what it is told to, and whatever the
upstream does: fallback over accounts keeps its promise exactly if no selection masks an error. -/
theorem executeForTarget_fallsBack_iff (hhonours : services.HonoursExclusion)
    (target : ModelTarget) (w : σ) :
    services.FallsBack target (services.executeForTarget target w) ↔
      (services.isExecutorSupported target.provider = true →
        services.Unmasked target ⟨w, [], none, []⟩) := by
  unfold executeForTarget
  by_cases hsupported : services.isExecutorSupported target.provider = true
  · rw [if_pos hsupported]
    constructor
    · intro h _ n state hn hreached error herror response hown
      obtain ⟨htracks, -⟩ := tracks_of_reached hhonours hreached
      -- the pass from this state returns the selection's own error
      have hreturned : ∃ next, services.step target state = .returned next (.failed response) ∧
          next.tried = state.tried := by
        rcases services.step_cases target state with ⟨credentials, outcome, hselected, -⟩ |
          ⟨next, own, hnext, htried, hown'⟩ | ⟨hnone, -⟩
        · rw [hselected] at hown
          cases hown
        · rw [hown'] at hown
          cases hown
          exact ⟨next, hnext, htried⟩
        · rw [hnone] at hown
          cases hown
      obtain ⟨next, hnext, htried⟩ := hreturned
      obtain ⟨more, hmore⟩ := Nat.exists_eq_add_of_le (Nat.succ_le_of_lt hn)
      rw [hmore, Nat.succ_add_eq_add_succ, tryAccounts_of_reached hreached, tryAccounts,
        hnext] at h
      cases hlast : state.tried.getLast? with
      | none =>
        rw [htracks.fresh (List.getLast?_eq_none_iff.mp hlast)] at herror
        cases herror
      | some last =>
        obtain ⟨error', herror', hstate⟩ := htracks.last last hlast
        obtain ⟨error'', herror'', hreports⟩ := h.reports response rfl last
          (by rw [show next.tried = _ from htried, hlast]; rfl)
        rw [herror'] at herror''
        rw [herror] at hstate
        cases herror''
        cases hstate
        rcases hreports with hfailed | ⟨remaining, hlimited⟩
        · exact hfailed
        · exact absurd (hlimited ▸ hown) ownError_ne_limited
    · intro hunmasked
      exact fallsBack_tryAccounts hhonours (hunmasked hsupported) maxAccountAttempts
        (Nat.zero_add _) .start
  · rw [if_neg hsupported]
    constructor
    · intro _ h
      exact absurd h hsupported
    · intro _
      exact ⟨Nat.zero_le _, List.nodup_nil, fun _ _ _ hlast ↦ by cases hlast⟩

/-- A provider with one account, behind an upstream that cannot be reached; once the account is
left out, the state service gives the answer `after`. -/
def unreachable (after : Selection) : AccountServices Unit where
  isExecutorSupported _ := true
  unsupportedExecutorMessage _ := ""
  readJson _ := none
  printJson _ := ""
  now w := (w, 0)
  selectCredentials target exclude w :=
    (w, if exclude = [] then .selected (.unused "x" target.provider) else after)
  markUnavailable _ w := w
  clearError _ _ w := w
  refreshIfDue _ credentials w := (w, credentials)
  execute target _ w := (w, .error (.transport target.provider "connection refused"))
  reply _ _ answer := .reply answer.status answer.body

private theorem honoursExclusion_unreachable {after : Selection}
    (hafter : ∀ credentials, after ≠ .selected credentials) :
    (unreachable after).HonoursExclusion := by
  intro target exclude w credentials hselected
  by_cases hempty : exclude = []
  · rw [hempty]
    exact List.not_mem_nil
  · have hselected' : after = .selected credentials := by
      rw [← hselected]
      exact (if_neg hempty).symm
    exact absurd hselected' (hafter credentials)

/-- The rule where the account is cooling down after its attempt. -/
theorem executeForTarget_cooling :
    (unreachable (.allRateLimited 30000 none none)).FallsBack ⟨"openai", "gpt-4o"⟩
      ((unreachable (.allRateLimited 30000 none none)).executeForTarget ⟨"openai", "gpt-4o"⟩ ()) := by
  refine (executeForTarget_fallsBack_iff (honoursExclusion_unreachable (by simp)) _ ()).mpr
    fun _ n state _ _ error _ response hown ↦ ?_
  have hnone : ((unreachable (.allRateLimited 30000 none none)).selectCredentials
      ⟨"openai", "gpt-4o"⟩ state.excluded state.world).2.ownError = none := by
    show (if state.excluded = [] then _ else _ : Selection).ownError = none
    split <;> rfl
  rw [hnone] at hown
  cases hown

/-- Where the account is gone after its attempt, the failure of the attempt is not reported. -/
theorem no_credentials_masks_the_attempt :
    ¬ ∀ (σ : Type) (services : AccountServices σ) (target : ModelTarget) (w : σ),
      services.HonoursExclusion →
      services.FallsBack target (services.executeForTarget target w) := by
  intro h
  let services := unreachable (.noCredentials "No active credentials for provider: openai")
  let error : ExecuteError := .transport "openai" "connection refused"
  have hrun : services.executeForTarget ⟨"openai", "gpt-4o"⟩ () =
      (⟨(), ["x"], some (502, error.message), [⟨"x", .error error⟩]⟩,
        .failed (.error 404 "No active credentials for provider: openai" none)) := rfl
  have hfalls := h Unit services ⟨"openai", "gpt-4o"⟩ () (honoursExclusion_unreachable (by simp))
  rw [hrun] at hfalls
  obtain ⟨reported, hreported, hreports⟩ := hfalls.reports _ rfl ⟨"x", .error error⟩ rfl
  cases hreported
  rcases hreports with hfailed | ⟨remaining, hlimited⟩
  · exact absurd hfailed (by decide)
  · exact absurd hlimited (by simp [limitedResponse])

end AccountServices

namespace Services

variable (services : Services) (context : ChatContext)

end Services

end NullRouter.Runtime
