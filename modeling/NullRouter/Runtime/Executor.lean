import NullRouter.Runtime.Errors
import NullRouter.State.Connection

/-!
# Dispatch of a provider call

`Executor::execute`, `crates/execute/src/executor.rs:491`: the walk over a provider's fallback
URLs with the retry policy of each status. The registry's tables and the request that goes out
are parameters, and the upstream answers a post by what was posted before it.
-/

namespace NullRouter.Runtime

open NullRouter.Base NullRouter.State

/-- What is posted upstream. -/
structure Post where
  provider : String
  connectionId : String
  url : String
  payload : String
  deriving DecidableEq

/-- An HTTP answer of the upstream. -/
structure Answer where
  status : Nat
  body : String
  deriving DecidableEq

namespace Answer

/-- `ExecuteOutcome::is_success`. -/
def isSuccess (answer : Answer) : Bool := 200 ≤ answer.status && answer.status < 300

end Answer

/-- `ExecuteError`, `executor.rs:32`. -/
inductive ExecuteError where
  | noEndpoint (provider : String)
  | transport (provider message : String)
  | timeout (provider : String)
  | serialize (message : String)
  deriving DecidableEq

namespace ExecuteError

/-- `ExecuteError::client_status`, `executor.rs:45`. -/
def clientStatus : ExecuteError → Nat
  | .noEndpoint _ | .serialize _ => 500
  | .transport _ _ => 502
  | .timeout _ => 504

/-- The `Display` text of the error. -/
def message : ExecuteError → String
  | .noEndpoint provider => "provider " ++ provider ++ " has no configured endpoint"
  | .transport provider message => "request to " ++ provider ++ " failed: " ++ message
  | .timeout provider => "request to " ++ provider ++ " timed out"
  | .serialize message => "failed to serialize request body: " ++ message

end ExecuteError

/-- `DEFAULT_RETRY_CONFIG`, `executor.rs:27`: status, attempts; the delays are not modelled. -/
def defaultRetryConfig : List (Nat × UInt32) := [(429, 0), (502, 3), (503, 3), (504, 2)]

/-- The tables of the provider registry that dispatch reads, and the upstream. -/
structure Upstream where
  /-- `fallback_count`. -/
  fallbackCount : String → Nat
  /-- The retry entry of a provider's transport for a status: its attempts. -/
  retryEntry : String → Nat → Option UInt32
  /-- `build_url` with the RPC path or the suffix of the prepared request. -/
  buildUrl : String → ProviderConnection → Nat → Option String
  /-- `advances_on_status`. -/
  advancesOnStatus : String → Nat → Bool
  /-- What the upstream does with a post, given those before it. -/
  answer : List Post → Post → Except ExecuteError Answer

namespace Upstream

variable (up : Upstream)

/-- `resolve_retry_entry`, `executor.rs:642`, without the delay. -/
def resolveRetryEntry (provider : String) (status : Nat) : Option UInt32 :=
  (up.retryEntry provider status).or (defaultRetryConfig.lookup status)

/-- Whether `retry_delay` allows another post to the same URL. `left` is how far the `u32`
counter of retries is from its largest value. -/
def mayRetry (provider : String) (status left : Nat) : Bool :=
  (up.resolveRetryEntry provider status).any fun attempts ↦ u32Max - left < attempts.toNat

/-- The status a result is judged by: a network failure counts as a 502. -/
def resultStatus : Except ExecuteError Answer → Nat
  | .ok answer => answer.status
  | .error _ => 502

/-- Whether a result is one to take to the next URL: a network failure, a 429, or a status on
which the provider's endpoints are alternatives. -/
def advances (provider : String) : Except ExecuteError Answer → Bool
  | .ok answer => answer.status == 429 || up.advancesOnStatus provider answer.status
  | .error _ => true

/-- Posts to one URL until the result is not one to retry. At its largest value the counter
allows no retry. -/
def postUrl (post : Post) : Nat → List Post → List Post × Except ExecuteError Answer
  | 0, sent => (sent ++ [post], up.answer sent post)
  | left + 1, sent =>
    let result := up.answer sent post
    if up.mayRetry post.provider (resultStatus result) (left + 1) then
      postUrl post left (sent ++ [post])
    else (sent ++ [post], result)

/-- The loop of `execute` from a URL on, `remaining` URLs being left. -/
def walkUrls (provider : String) (credentials : ProviderConnection) (payload : String) :
    (remaining urlIndex : Nat) → List Post → List Post × Except ExecuteError Answer
  | 0, _, sent => (sent, .error (.noEndpoint provider))
  | remaining + 1, urlIndex, sent =>
    match up.buildUrl provider credentials urlIndex with
    | none => (sent, .error (.noEndpoint provider))
    | some url =>
      let posted := up.postUrl ⟨provider, credentials.id, url, payload⟩ u32Max sent
      if up.advances provider posted.2 && remaining != 0 then
        walkUrls provider credentials payload remaining (urlIndex + 1) posted.1
      else posted

/-- `Executor::execute`, `executor.rs:491`, on a request body that may fail to serialise. -/
def execute (provider : String) (credentials : ProviderConnection)
    (payload : Except String String) (sent : List Post) :
    List Post × Except ExecuteError Answer :=
  match payload with
  | .error message => (sent, .error (.serialize message))
  | .ok payload => up.walkUrls provider credentials payload (up.fallbackCount provider) 0 sent

variable {up}

/-- What holds of every answer of the upstream holds of what dispatch returns. -/
theorem answer_of_execute {P : Answer → Prop} {provider : String}
    {credentials : ProviderConnection} {payload : Except String String}
    {sent sent' : List Post} {answer : Answer}
    (hup : ∀ before post a, up.answer before post = .ok a → P a)
    (h : up.execute provider credentials payload sent = (sent', .ok answer)) : P answer := by
  have hpost (post : Post) (left : Nat) (sent : List Post) {a : Answer}
      (ha : (up.postUrl post left sent).2 = .ok a) : P a := by
    induction left generalizing sent with
    | zero => exact hup _ _ _ ha
    | succ left ih =>
      simp only [postUrl] at ha
      split at ha
      · exact ih _ ha
      · exact hup _ _ _ ha
  have hwalk (payload : String) (remaining urlIndex : Nat) (sent : List Post) {a : Answer}
      (ha : (up.walkUrls provider credentials payload remaining urlIndex sent).2 = .ok a) :
      P a := by
    induction remaining generalizing urlIndex sent with
    | zero => cases ha
    | succ remaining ih =>
      simp only [walkUrls] at ha
      split at ha
      · cases ha
      · split at ha
        · exact ih _ _ ha
        · exact hpost _ _ _ ha
  cases payload with
  | error message => cases h
  | ok payload =>
    refine hwalk payload (up.fallbackCount provider) 0 sent ?_
    have := congrArg Prod.snd h
    exact this

end Upstream
end NullRouter.Runtime
