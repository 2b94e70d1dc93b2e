import NullRouter.Base.Scan
import NullRouter.Runtime.Backoff
import NullRouter.Runtime.Targets

/-!
# Video jobs

The async video endpoints, `services/runtime-actix/src/video.rs`: the route and the bytes of a
request, the rotation of a creation over accounts, and the account that a poll is pinned to. The
provider registry, the reader and the writer of JSON and the upstream are parameters; between any
two calls of the state service others may have changed its table.
-/

namespace NullRouter.Runtime

open NullRouter.Base NullRouter.State

/-! ## Requests -/

/-- `DEFAULT_VIDEO_PROVIDER`, `video.rs:35`. -/
def defaultVideoProvider : String := "xai"

/-- `CREATE_ROTATION_STATUSES`, `video.rs:50`. -/
def createRotationStatuses : List Nat := [401, 403, 429]

/-- `MAX_CREATE_ATTEMPTS`, `video.rs:53`. -/
def maxCreateAttempts : Nat := 10

/-- `rotates_on`, `video.rs:199`. -/
def rotatesOn (status : Nat) : Bool := createRotationStatuses.contains status

/-- `VideoAction`, `video.rs:57`. -/
inductive VideoAction where
  | generations
  | edits
  | extensions
  deriving DecidableEq

namespace VideoAction

/-- `VideoAction::parse`, `video.rs:68`. -/
def parse (segment : String) : Option VideoAction :=
  if segment = "generations" then some .generations
  else if segment = "edits" then some .edits
  else if segment = "extensions" then some .extensions
  else none

/-- `VideoAction::as_str`, `video.rs:77`. -/
def asStr : VideoAction → String
  | .generations => "generations"
  | .edits => "edits"
  | .extensions => "extensions"

end VideoAction

/-- `VideoRequest`, `video.rs:205`. -/
structure VideoRequest where
  /-- The action of a creation. -/
  action : Option VideoAction
  /-- The job of a poll. -/
  jobId : Option String
  body : List UInt8
  contentType : Option String
  idempotencyKey : Option String
  preferredConnection : Option String

namespace VideoRequest

/-- The request of `video_create`, `handlers.rs:236`. -/
def create (action : VideoAction) (body : List UInt8)
    (contentType idempotencyKey preferredConnection : Option String) : VideoRequest :=
  ⟨some action, none, body, contentType, idempotencyKey, preferredConnection⟩

/-- The request of `video_status`, `handlers.rs:271`. -/
def poll (jobId : String) (preferredConnection : Option String) : VideoRequest :=
  ⟨none, some jobId, [], none, none, preferredConnection⟩

/-- Whether the request creates a job. -/
def isCreate (request : VideoRequest) : Bool := request.jobId.isNone

end VideoRequest

/-- `hex_digit`, `video.rs:121`. -/
def upperHexDigit (value : Nat) : Char := "0123456789ABCDEF".toList.getD value 'F'

/-- `encode_segment`, `video.rs:106`. -/
def encodeSegment (value : String) : String :=
  String.ofList ((value.toList.flatMap String.utf8EncodeChar).flatMap fun byte ↦
    let c := Char.ofNat byte.toNat
    if c.isAlphanum || c ∈ ['-', '.', '_', '~'] then [c]
    else ['%', upperHexDigit (byte.toNat / 16), upperHexDigit (byte.toNat % 16)])

/-- `upstream_url`, `video.rs:90`. -/
def upstreamUrl (base : String) (action : Option VideoAction) (jobId : Option String) : String :=
  let base := String.ofList (base.toList.reverse.dropWhile (· = '/')).reverse
  match jobId with
  | some id => base ++ "/" ++ encodeSegment id
  | none => base ++ "/" ++ action.elim "generations" VideoAction.asStr

/-- `VideoRoute`, `video.rs:130`. -/
inductive VideoRoute where
  | resolved (provider model : String)
  | rejected (message : String)
  deriving DecidableEq

/-- `resolve_route`, `video.rs:141`. -/
def resolveRoute (registry : Registry) (supportsVideo : String → Bool) (body : Option Json) :
    VideoRoute :=
  match ((body.bind (·.strField "model")).map trim).filter (!·.isEmpty) with
  | none => .resolved defaultVideoProvider ""
  | some requested =>
    let parsed := parseModel registry requested
    match parsed.provider with
    | none => .resolved defaultVideoProvider requested
    | some provider =>
      if supportsVideo provider then .resolved provider parsed.model
      else .rejected ("Provider '" ++ provider ++ "' does not support video generation")

/-- `rewritten_body`, `video.rs:181`; nothing where the request's own bytes are sent. -/
def rewrittenBody (printBody : Json → List UInt8) (parsed : Option Json) (model : String) :
    Option (List UInt8) :=
  if model = "" then none
  else
    (parsed.filter fun body ↦ (body.strField "model").any (· ≠ model)).map fun body ↦
      printBody (body.setField "model" (.str model))

/-! ## Texts that are shown -/

/-- What a secret is replaced by. -/
def redactedMark : List Char := "[redacted]".toList

/-- `str::replace` of a needle that is not empty. -/
def replaceRule (needle written : List Char) : Rule Char := fun _ text ↦
  if needle.isPrefixOf text then some (written, needle.length) else none

/-- What a token after `bearer` is made of, `video.rs:565`. -/
def isBearerChar (c : Char) : Bool := c.isAlphanum || c ∈ ['.', '_', '~', '+', '/', '=', '-']

/-- What `scrub_bearer`, `video.rs:552`, does at a place. -/
def bearerRule : Rule Char := fun _ text ↦
  if (text.take 6).map Char.toLower = "bearer".toList then
    let blanks := (text.drop 6).takeWhile isWhitespace
    let token := ((text.drop 6).dropWhile isWhitespace).takeWhile isBearerChar
    if 8 ≤ token.length then
      some ("Bearer ".toList ++ redactedMark, 6 + blanks.length + token.length)
    else some (text.take 6, 6)
  else none

/-- `scrub`, `video.rs:532`. -/
def scrub (text : String) (credentials : ProviderConnection) : String :=
  let secrets := ([credentials.accessToken, credentials.refreshToken, credentials.apiKey].filterMap
    id).filter fun secret ↦ 8 ≤ secret.utf8ByteSize
  let out := secrets.foldl
    (fun out secret ↦ (replaceRule secret.toList redactedMark).scan none 0 out)
    (text.toList.take 2000)
  String.ofList (bearerRule.scan none 0 out)

/-! ## What the endpoints talk to -/

/-- `RawRequest` of the executor: what is sent upstream. -/
structure RawRequest where
  provider : String
  url : String
  post : Bool
  body : List UInt8
  contentType : Option String
  extraHeaders : List (String × String)
  credentials : ProviderConnection

/-- An answer of the upstream, with the content type that it declares. -/
structure RawAnswer where
  status : Nat
  contentType : Option String
  body : String

/-- A request that was sent, and what came of it. -/
structure RawCall where
  request : RawRequest
  outcome : Except ExecuteError RawAnswer

namespace RawCall

/-- The upstream refused the call with a status on which a creation goes to another account. -/
def isRejected (call : RawCall) : Bool :=
  match call.outcome with
  | .ok answer => rotatesOn answer.status
  | .error _ => false

end RawCall

/-- What the video endpoints run on besides the runtime's own services. -/
structure VideoPorts where
  registry : Registry
  /-- `supports_service` for video. -/
  supportsVideo : String → Bool
  /-- The base URL of a provider's video endpoint. -/
  baseUrl : String → Option String
  readBody : List UInt8 → Option Json
  printBody : Json → List UInt8
  /-- What the upstream does with a request, given the calls before it. -/
  answer : List RawCall → RawRequest → Except ExecuteError RawAnswer
  /-- Why a call of the state service, given its number, does not get through. -/
  lost : Nat → Option String
  /-- What others have done to the table of connections by a call. -/
  others : Nat → Connections → Connections

/-- The runtime's world, how many calls of the state service were made, and what was sent to the
video endpoints of the providers. -/
structure VideoWorld where
  world : World
  calls : Nat
  sent : List RawCall

/-- What the client of a video endpoint is answered. -/
inductive VideoResponse where
  | error (response : Response)
  /-- `responses::relay`, with the connection that the answer names in its header. -/
  | relay (status : Nat) (contentType : String) (body : String) (connectionId : String)

/-- `VideoAttempt`, `video.rs:397`. -/
inductive VideoAttempt where
  | answered (response : VideoResponse)
  | rotate (status : Nat) (message : String)

/-- The connection that the state service is asked for, `internal.rs:201`. -/
def pinnedId (preferred : Option String) : Option String :=
  (preferred.map trim).filter (!·.isEmpty)

namespace VideoPorts

variable (ports : VideoPorts) (services : Services)

/-- The table of connections that the next call of the state service finds. -/
def storeAt (w : VideoWorld) : Connections := ports.others w.calls w.world.store

/-- What a selection for a target asks for. -/
def selectRequest (target : ModelTarget) (preferred : Option String) (excluded : List String) :
    SelectConnectionRequest :=
  ⟨target.provider, target.videoModel, excluded, pinnedId preferred, services.strategy,
    services.stickyLimit⟩

/-- A call of the state service: others have been there, and it may not get through. -/
def stateCall (run : World → World) (w : VideoWorld) : VideoWorld :=
  let found := { w.world with store := ports.storeAt w }
  { w with world := if (ports.lost w.calls).isNone then run found else found, calls := w.calls + 1 }

/-- `video_credentials`, `video.rs:404`, and `select_credentials_pinned`,
`state_client.rs:284`. -/
def videoCredentials (target : ModelTarget) (preferred : Option String) (excluded : List String)
    (w : VideoWorld) : VideoWorld × Selection :=
  match ports.lost w.calls with
  | some message => (ports.stateCall id w, .unavailable message)
  | none =>
    let request := selectRequest services target preferred excluded
    let readings := w.world.readings
    let selection := (ports.storeAt w).selectConnection request (services.clock readings)
      (services.clock (readings + 1))
    (ports.stateCall (fun found ↦ { found with store := selection.1, readings := readings + 2 }) w,
      match selection.2 with
      | .selected credentials => .selected credentials
      | .noCredentials =>
        .noCredentials ("No active credentials for provider: " ++ target.provider)
      | .allRateLimited retryAtMs lastError lastErrorCode =>
        .allRateLimited retryAtMs lastError lastErrorCode
      | .exhausted => .exhausted)

/-- `cool_down_video`, `pipeline.rs:362`. -/
def coolDownVideo (credentials : ProviderConnection) (target : ModelTarget) (status : Nat)
    (message : String) (w : VideoWorld) : VideoWorld :=
  if (checkFallbackError status message 0).shouldFallback then
    ports.stateCall (services.markUnavailable
      (failureUpdate credentials.id target.videoModel status message)) w
  else w

/-- `clear_video_error`, `pipeline.rs:386`. -/
def clearVideoError (credentials : ProviderConnection) (target : ModelTarget) (w : VideoWorld) :
    VideoWorld :=
  ports.stateCall (services.clearError credentials.id target.videoModel) w

/-- The request of `call_video`, `video.rs:428–446`. -/
def rawRequest (request : VideoRequest) (target : ModelTarget) (url : String)
    (payload : List UInt8) (credentials : ProviderConnection) : RawRequest where
  provider := target.provider
  url := url
  post := request.isCreate
  body := payload
  contentType := request.contentType.filter fun _ ↦ request.isCreate
  extraHeaders := ((request.idempotencyKey.filter fun _ ↦ request.isCreate).map
    ("Idempotency-Key", ·)).toList
  credentials := credentials

/-- `call_video`, `video.rs:417`. -/
def callVideo (request : VideoRequest) (target : ModelTarget) (url : String)
    (payload : List UInt8) (credentials : ProviderConnection) (w : VideoWorld) :
    VideoWorld × VideoAttempt :=
  let raw := rawRequest request target url payload credentials
  let outcome := ports.answer w.sent raw
  let w := { w with sent := w.sent ++ [⟨raw, outcome⟩] }
  match outcome with
  | .error error =>
    (w, .answered (.error
      (.error ((statusCode error.clientStatus).getD 502) error.message none)))
  | .ok answer =>
    let contentType := answer.contentType.getD "application/json"
    if ¬ (200 ≤ answer.status ∧ answer.status < 300) then
      let message := scrub answer.body credentials
      let w := ports.coolDownVideo services credentials target answer.status message w
      if request.isCreate && rotatesOn answer.status then (w, .rotate answer.status message)
      else
        (w, .answered (.relay ((statusCode answer.status).getD 502) contentType message
          credentials.id))
    else
      (ports.clearVideoError services credentials target w,
        .answered (.relay ((statusCode answer.status).getD 200) contentType answer.body
          credentials.id))

/-- The loop of `dispatch_video`, `video.rs:309`. -/
def rotateVideo (request : VideoRequest) (target : ModelTarget) (url : String)
    (payload : List UInt8) :
    (attempts : Nat) → (excluded : List String) → (last : Option (Nat × String)) → VideoWorld →
      VideoWorld × VideoResponse
  | 0, _, last, w => (w, exhausted last)
  | attempts + 1, excluded, last, w =>
    let selection := ports.videoCredentials services target request.preferredConnection excluded w
    let w := selection.1
    match selection.2 with
    | .noCredentials message => (w, .error (.error 400 message none))
    | .allRateLimited retryAtMs lastError lastErrorCode =>
      let limited := services.rateLimited target retryAtMs ((last.map Prod.snd).or lastError)
        ((last.map Prod.fst).or lastErrorCode) w.world
      ({ w with world := limited.1 }, .error limited.2)
    | .exhausted => (w, exhausted last)
    | .unavailable message => (w, .error (.error 503 message none))
    | .selected credentials =>
      let attempt := ports.callVideo services request target url payload credentials w
      match attempt.2 with
      | .answered response => (attempt.1, response)
      | .rotate status message =>
        rotateVideo request target url payload attempts (excluded ++ [credentials.id])
          (some (status, message)) attempt.1
where
  /-- The last refusal, once no account is left. -/
  exhausted (last : Option (Nat × String)) : VideoResponse :=
    let last := last.getD (503, "All provider accounts are unavailable")
    .error (.error ((statusCode last.1).getD 503) last.2 none)

/-- `dispatch_video`, `video.rs:292`. -/
def dispatchVideo (request : VideoRequest) (target : ModelTarget) (url : String)
    (payload : List UInt8) (w : VideoWorld) : VideoWorld × VideoResponse :=
  ports.rotateVideo services request target url payload
    (if request.jobId.isSome then 1 else maxCreateAttempts) [] none w

/-- `execute_video`, `video.rs:223`. -/
def executeVideo (request : VideoRequest) (w : VideoWorld) : VideoWorld × VideoResponse :=
  let isJson := request.contentType.any fun value ↦
    containsText value.toList "application/json".toList
  let parsed := if isJson then ports.readBody request.body else none
  if isJson && parsed.isNone then (w, .error (.error 400 "Invalid JSON body" none))
  else
    match resolveRoute ports.registry ports.supportsVideo parsed with
    | .rejected message => (w, .error (.error 400 message none))
    | .resolved provider model =>
      match ports.baseUrl provider with
      | none =>
        (w, .error (.error 501
          ("Provider '" ++ provider ++ "' does not support video generation") none))
      | some base =>
        ports.dispatchVideo services request ⟨provider, model⟩
          (upstreamUrl base request.action request.jobId)
          ((rewrittenBody ports.printBody parsed model).getD request.body) w

end VideoPorts
end NullRouter.Runtime

/-!
## Video jobs are created once

What one video request sends upstream, `services/runtime-actix/src/video.rs:292–526`, for every
upstream and whatever others do to the accounts meanwhile: a creation goes on to another account
only after a refusal, and a poll is sent once at most, with the account that it is pinned to
exactly if the state service has that account available.
-/

namespace NullRouter.Runtime

open NullRouter.Base NullRouter.State

/-- The calls of a creation: posts, all but the last of which were refused, one an account. Only
one of them may have created a job. -/
structure CreatesOnce (calls : List RawCall) : Prop where
  posts : ∀ call ∈ calls, call.request.post = true
  rejected : ∀ call ∈ calls.dropLast, call.isRejected = true
  accounts : (calls.map (·.request.credentials.id)).Nodup
  jobs : calls.countP (!·.isRejected) ≤ 1

private theorem countP_not_rejected {calls : List RawCall}
    (h : ∀ call ∈ calls.dropLast, call.isRejected = true) :
    calls.countP (!·.isRejected) ≤ 1 := by
  rcases List.eq_nil_or_concat calls with rfl | ⟨front, last, rfl⟩
  · exact Nat.zero_le 1
  · rw [List.concat_eq_append] at h ⊢
    rw [List.dropLast_concat] at h
    have hfront : front.countP (!·.isRejected) = 0 := by
      rw [List.countP_eq_zero]
      intro call hcall
      simp [h call hcall]
    rw [List.countP_append, hfront, List.countP_singleton]
    split <;> omega

private theorem mem_head?_of_length_le_one {α : Type} {l : List α} {a : α} (h : l.length ≤ 1)
    (ha : a ∈ l) : a ∈ l.head? := by
  cases l with
  | nil => cases ha
  | cons b l =>
    obtain rfl : l = [] := List.eq_nil_of_length_eq_zero (by simpa using h)
    obtain rfl := List.mem_singleton.mp ha
    rfl

namespace VideoPorts

variable {ports : VideoPorts} {services : Services} {request : VideoRequest}
  {target : ModelTarget} {url : String} {payload : List UInt8}

/-- Calls of the state service send nothing upstream. -/
@[simp] theorem sent_stateCall (run : World → World) (w : VideoWorld) :
    (ports.stateCall run w).sent = w.sent := rfl

@[simp] private theorem sent_coolDownVideo (credentials : ProviderConnection) (status : Nat)
    (message : String) (w : VideoWorld) :
    (ports.coolDownVideo services credentials target status message w).sent = w.sent := by
  unfold coolDownVideo
  split <;> rfl

@[simp] private theorem sent_videoCredentials (preferred : Option String)
    (excluded : List String) (w : VideoWorld) :
    (ports.videoCredentials services target preferred excluded w).1.sent = w.sent := by
  unfold videoCredentials
  cases ports.lost w.calls with
  | some message => rfl
  | none => rfl

private theorem videoCredentials_selected {preferred : Option String} {excluded : List String}
    {w : VideoWorld} {credentials : ProviderConnection}
    (h : (ports.videoCredentials services target preferred excluded w).2 =
      .selected credentials) :
    ∃ store, (ports.storeAt w).selectConnection
      (selectRequest services target preferred excluded) (services.clock w.world.readings)
      (services.clock (w.world.readings + 1)) = (store, .selected credentials) := by
  unfold videoCredentials at h
  cases hlost : ports.lost w.calls with
  | some message =>
    simp only [hlost] at h
    cases h
  | none =>
    simp only [hlost] at h
    generalize Connections.selectConnection _ _ _ _ = selection at h ⊢
    obtain ⟨store, found | _ | _ | _⟩ := selection
    · cases h
      exact ⟨store, rfl⟩
    all_goals cases h

/-- One call sends one request, and goes on to another account only for a creation that was
refused. -/
private theorem callVideo_spec (credentials : ProviderConnection) (w : VideoWorld) :
    ∃ call : RawCall, call.request = rawRequest request target url payload credentials ∧
      (ports.callVideo services request target url payload credentials w).1.sent =
        w.sent ++ [call] ∧
      ∀ status message,
        (ports.callVideo services request target url payload credentials w).2 =
          .rotate status message → call.isRejected = true := by
  unfold callVideo
  simp only
  generalize rawRequest request target url payload credentials = raw
  refine ⟨⟨raw, ports.answer w.sent raw⟩, rfl, ?_⟩
  cases ports.answer w.sent raw with
  | error error =>
    constructor
    · rfl
    · intro status message h
      cases h
  | ok answer =>
    simp only
    split
    · split
      · next hrotates =>
        rw [Bool.and_eq_true] at hrotates
        exact ⟨sent_coolDownVideo _ _ _ _, fun _ _ _ ↦ hrotates.2⟩
      · constructor
        · exact sent_coolDownVideo _ _ _ _
        · intro status message h
          cases h
    · constructor
      · rfl
      · intro status message h
        cases h

/-- What the loop sends, from accounts already tried on. -/
private structure Rotation (ports : VideoPorts) (services : Services) (request : VideoRequest)
    (target : ModelTarget) (excluded : List String) (w : VideoWorld) (calls : List RawCall) :
    Prop where
  posts : ∀ call ∈ calls, call.request.post = request.isCreate
  rejected : ∀ call ∈ calls.dropLast, call.isRejected = true
  accounts : (calls.map (·.request.credentials.id)).Nodup
  fresh : ∀ call ∈ calls, call.request.credentials.id ∉ excluded
  first : ∀ call ∈ calls.head?, ∃ store, (ports.storeAt w).selectConnection
    (selectRequest services target request.preferredConnection excluded)
    (services.clock w.world.readings) (services.clock (w.world.readings + 1)) =
      (store, .selected call.request.credentials)

namespace Rotation

variable {excluded : List String} {w : VideoWorld}

private theorem empty : Rotation ports services request target excluded w [] where
  posts := by simp
  rejected := by simp
  accounts := List.nodup_nil
  fresh := by simp
  first := by simp

/-- A call comes before those that are tried once its account is excluded, if it was refused or
none of them is sent. -/
private theorem cons {w₁ : VideoWorld} {call : RawCall} {calls : List RawCall}
    {credentials : ProviderConnection} {store : Connections}
    (hrequest : call.request = rawRequest request target url payload credentials)
    (hselected : (ports.storeAt w).selectConnection
      (selectRequest services target request.preferredConnection excluded)
      (services.clock w.world.readings) (services.clock (w.world.readings + 1)) =
        (store, .selected credentials))
    (hrejected : calls ≠ [] → call.isRejected = true)
    (h : Rotation ports services request target (excluded ++ [credentials.id]) w₁ calls) :
    Rotation ports services request target excluded w (call :: calls) where
  posts := by
    rw [List.forall_mem_cons, hrequest]
    exact ⟨rfl, h.posts⟩
  rejected := by
    cases calls with
    | nil => simp
    | cons next calls =>
      rw [List.dropLast_cons_cons, List.forall_mem_cons]
      exact ⟨hrejected (List.cons_ne_nil _ _), h.rejected⟩
  accounts := by
    rw [List.map_cons, List.nodup_cons, hrequest]
    refine ⟨fun hmem ↦ ?_, h.accounts⟩
    obtain ⟨c, hc, hid⟩ := List.mem_map.mp hmem
    apply h.fresh c hc
    rw [hid]
    exact List.mem_append_right _ (List.mem_singleton_self _)
  fresh := by
    rw [List.forall_mem_cons, hrequest]
    refine ⟨(Connections.selectConnection_selected hselected).2.2.1, fun c hc hmem ↦ ?_⟩
    exact h.fresh c hc (List.mem_append_left _ hmem)
  first := by
    intro c hc
    obtain rfl : call = c := by simpa using hc
    rw [hrequest]
    exact ⟨store, hselected⟩

end Rotation

private theorem rotateVideo_calls (attempts : Nat) (excluded : List String)
    (last : Option (Nat × String)) (w : VideoWorld) :
    ∃ calls, (ports.rotateVideo services request target url payload attempts excluded last
        w).1.sent = w.sent ++ calls ∧ calls.length ≤ attempts ∧
      Rotation ports services request target excluded w calls := by
  induction attempts generalizing excluded last w with
  | zero => exact ⟨[], (List.append_nil _).symm, Nat.le_refl 0, Rotation.empty⟩
  | succ attempts ih =>
    have hsent := @sent_videoCredentials ports services target request.preferredConnection
      excluded w
    have hselected := @videoCredentials_selected ports services target
      request.preferredConnection excluded w
    unfold rotateVideo
    simp only
    generalize ports.videoCredentials services target request.preferredConnection excluded w =
      selection at hsent hselected ⊢
    obtain ⟨w₁, selection⟩ := selection
    simp only at hsent hselected ⊢
    cases selection with
    | selected credentials =>
      obtain ⟨store, hstore⟩ := hselected rfl
      obtain ⟨call, hrequest, hcalled, hrotate⟩ := @callVideo_spec ports services request target
        url payload credentials w₁
      rw [hsent] at hcalled
      simp only
      generalize ports.callVideo services request target url payload credentials w₁ = attempt
        at hcalled hrotate ⊢
      obtain ⟨w₂, attempt⟩ := attempt
      simp only at hcalled hrotate ⊢
      cases attempt with
      | answered response =>
        refine ⟨[call], hcalled, Nat.le_add_left 1 attempts, ?_⟩
        exact Rotation.cons hrequest hstore (absurd rfl) (@Rotation.empty _ _ _ _ _ w₂)
      | rotate status message =>
        obtain ⟨calls, htail, hlength, hrest⟩ := ih (excluded ++ [credentials.id])
          (some (status, message)) w₂
        refine ⟨call :: calls, ?_, Nat.succ_le_succ hlength, ?_⟩
        · rw [htail, hcalled, List.append_assoc, List.singleton_append]
        · exact Rotation.cons hrequest hstore (fun _ ↦ hrotate status message rfl) hrest
    | noCredentials | allRateLimited | exhausted | unavailable =>
      exact ⟨[], by rw [List.append_nil]; exact hsent, Nat.zero_le _, Rotation.empty⟩

private theorem executeVideo_cases (request : VideoRequest) (w : VideoWorld) :
    (ports.executeVideo services request w).1 = w ∨ ∃ target url payload,
      ports.executeVideo services request w =
        ports.dispatchVideo services request target url payload w := by
  unfold executeVideo
  simp only
  generalize (request.contentType.any fun value ↦
    containsText value.toList "application/json".toList) = isJson
  generalize (if isJson = true then ports.readBody request.body else none) = parsed
  generalize resolveRoute ports.registry ports.supportsVideo parsed = route
  split
  · exact .inl rfl
  · cases route with
    | rejected message => exact .inl rfl
    | resolved provider model =>
      simp only
      cases ports.baseUrl provider with
      | none => exact .inl rfl
      | some base => exact .inr ⟨_, _, _, rfl⟩

private theorem executeVideo_poll (jobId : String) (preferred : Option String) (w : VideoWorld) :
    (ports.executeVideo services (.poll jobId preferred) w).1 = w ∨ ∃ url payload,
      ports.executeVideo services (.poll jobId preferred) w =
        ports.dispatchVideo services (.poll jobId preferred) ⟨defaultVideoProvider, ""⟩ url
          payload w := by
  unfold executeVideo
  simp only [VideoRequest.poll, Option.any_none, Bool.false_and, Bool.false_eq_true, if_false,
    resolveRoute, Option.bind_none, Option.map_none, Option.filter_none]
  cases ports.baseUrl defaultVideoProvider with
  | none => exact .inl rfl
  | some base => exact .inr ⟨_, _, rfl⟩

/-- A connection of the table that a poll's selection finds is active, of the provider of video
jobs, and not cooling down. -/
def Available (ports : VideoPorts) (services : Services) (w : VideoWorld) (id : String) : Prop :=
  ∃ c ∈ ports.storeAt w, c.id = id ∧ c.provider = defaultVideoProvider ∧ c.isActive = true ∧
    c.isLocked none (nowMillis (services.clock w.world.readings)) = false

/-- A creation sends posts, all but the last of which were refused, one an account; a poll sends
one request at most, and with the credentials of the connection it is pinned to exactly if that
one is available. -/
theorem video_jobs_created_once (ports : VideoPorts) (services : Services) (w : VideoWorld) :
    (∀ action body contentType key preferred, ∃ calls,
      (ports.executeVideo services
        (.create action body contentType key preferred) w).1.sent = w.sent ++ calls ∧
      CreatesOnce calls) ∧
    ∀ jobId preferred, ∃ calls,
      (ports.executeVideo services (.poll jobId preferred) w).1.sent = w.sent ++ calls ∧
      calls.length ≤ 1 ∧ ∀ call ∈ calls, call.request.post = false ∧
        ∀ id, pinnedId preferred = some id →
          (call.request.credentials.id = id ↔ ports.Available services w id) := by
  constructor
  · intro action body contentType key preferred
    rcases @executeVideo_cases ports services
        (.create action body contentType key preferred) w with h | ⟨target, url, payload, h⟩
    · exact ⟨[], by rw [h, List.append_nil], by simp, by simp, List.nodup_nil, Nat.zero_le 1⟩
    · obtain ⟨calls, hsent, -, hcalls⟩ := @rotateVideo_calls ports services
        (.create action body contentType key preferred) target url payload maxCreateAttempts [] none w
      refine ⟨calls, by rw [h]; exact hsent, hcalls.posts, hcalls.rejected, hcalls.accounts, ?_⟩
      exact countP_not_rejected hcalls.rejected
  · intro jobId preferred
    rcases @executeVideo_poll ports services jobId preferred w with h | ⟨url, payload, h⟩
    · exact ⟨[], by rw [h, List.append_nil], Nat.zero_le 1, by simp⟩
    · obtain ⟨calls, hsent, hlength, hcalls⟩ := @rotateVideo_calls ports services
        (.poll jobId preferred) ⟨defaultVideoProvider, ""⟩ url payload 1 [] none w
      refine ⟨calls, by rw [h]; exact hsent, hlength, fun call hcall ↦
        ⟨hcalls.posts call hcall, fun id hid ↦ ?_⟩⟩
      obtain ⟨store, hstore⟩ := hcalls.first call (mem_head?_of_length_le_one hlength hcall)
      rw [Connections.selectConnection_pinned hstore hid]
      simp [Available, selectRequest, ModelTarget.videoModel]

end VideoPorts

/-- One provider of video jobs, whose upstream answers that the job is done. -/
def oneVideoProvider : VideoPorts where
  registry := ⟨fun _ ↦ true, id⟩
  supportsVideo := fun _ ↦ true
  baseUrl := fun _ ↦ some "https://api.x.ai/v1/videos"
  readBody := fun _ ↦ none
  printBody := fun _ ↦ []
  answer := fun _ _ ↦ .ok ⟨200, none, "done"⟩
  lost := fun _ ↦ none
  others := fun _ store ↦ store

/-- An account that is cooling down, and one that is not. -/
def videoAccounts : VideoWorld where
  world := ⟨[
    { ProviderConnection.unused "a" defaultVideoProvider with
      modelLocks := (∅ : Std.ExtTreeMap String String).insert modelLockAll "unix-ms:1000" },
    ProviderConnection.unused "b" defaultVideoProvider], 0, [], []⟩
  calls := 0
  sent := []

/-- The rule for a poll that is pinned to the other account. -/
theorem video_jobs_created_once_available :
    ∀ call ∈ (oneVideoProvider.executeVideo limiting (.poll "vid_1" (some "b"))
      videoAccounts).1.sent, call.request.credentials.id = "b" := by
  obtain ⟨calls, hsent, -, hcalls⟩ :=
    (VideoPorts.video_jobs_created_once oneVideoProvider limiting videoAccounts).2 "vid_1" (some "b")
  have havailable : oneVideoProvider.Available limiting videoAccounts "b" :=
    ⟨ProviderConnection.unused "b" defaultVideoProvider, .tail _ (.head _), rfl, rfl, rfl, rfl⟩
  intro call hcall
  rw [hsent] at hcall
  exact ((hcalls call hcall).2 "b" rfl).mpr havailable

/-- A poll that is pinned to an account that is cooling down is sent with the credentials of
another. -/
theorem poll_sent_with_other_credentials :
    ¬ ∀ (ports : VideoPorts) (services : Services) (w : VideoWorld) (jobId id : String)
      (preferred : Option String), pinnedId preferred = some id →
      ∀ call ∈ (ports.executeVideo services (.poll jobId preferred) w).1.sent, call ∉ w.sent →
        call.request.credentials.id = id := by
  intro hall
  have hsent : (oneVideoProvider.executeVideo limiting (.poll "vid_1" (some "a"))
      videoAccounts).1.sent.map (·.request.credentials.id) = ["b"] := rfl
  have hmem : "b" ∈ (oneVideoProvider.executeVideo limiting (.poll "vid_1" (some "a"))
      videoAccounts).1.sent.map (·.request.credentials.id) := by
    rw [hsent]
    exact List.mem_singleton_self _
  obtain ⟨call, hcall, hid⟩ := List.mem_map.mp hmem
  have hown := hall oneVideoProvider limiting videoAccounts "vid_1" "a" (some "a") rfl call hcall
    List.not_mem_nil
  rw [hid] at hown
  exact absurd hown (by decide)

end NullRouter.Runtime
