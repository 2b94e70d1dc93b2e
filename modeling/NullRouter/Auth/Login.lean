import NullRouter.Auth.Lockout
import NullRouter.Base.Lists
import NullRouter.Base.Run

/-!
# Signing in with a password

`login_inner` of `services/auth-actix/src/routes.rs`, cut where it waits for the credential store:
the check of the lockout table, the answer about the password, and the record of it. The requests
come through the gateway, which is the TCP peer that the service sees and stamps each of them with
its client's address.
-/

namespace NullRouter.Auth

open NullRouter.Base
open NullRouter.Gateway (IpAddr)

/-! ## Requests -/

/-- `LoginRequest`, `contracts.rs:4`. -/
structure LoginRequest where
  password : Option String := none
  username : Option String := none
  deriving DecidableEq

/-- `ApiError`, `errors.rs:10`. -/
inductive ApiError where
  | invalidJson
  | bodyTooLarge
  | passwordRequired
  | peerIdentityUnavailable
  | loopbackRequired
  | internalStateUnavailable
  deriving DecidableEq

/-- A request: the peer of its connection, its headers by their names in lower case, and what
`parse_json` makes of its body, `routes.rs:442`. -/
structure HttpRequest where
  peerAddr : Option IpAddr
  headers : List (String × String)
  body : Except ApiError LoginRequest

/-- `peer_ip`, `routes.rs:435`. -/
def HttpRequest.peerIp (request : HttpRequest) : Except ApiError IpAddr :=
  match request.peerAddr with
  | some peer => .ok peer
  | none => .error .peerIdentityUnavailable

/-- A header that a client could use to pose as another, `policy.rs:284`. -/
def isSpoofable (name : String) : Bool :=
  name = "forwarded" || name = "x-real-ip" || "x-forwarded-".toList.isPrefixOf name.toList ||
    name = "x-9r-real-ip" || name = "x-9r-via-proxy"

/-- `stamp_trusted_identity_headers`, `policy.rs:280`, with the text of the client's address. -/
def stampTrustedIdentityHeaders (headers : List (String × String)) (peerIp : String) :
    List (String × String) :=
  headers.filter (!isSpoofable ·.1) ++ [("x-9r-real-ip", peerIp)]

/-- A client's request as the gateway sends it on, from its own address. -/
def forward (gateway : IpAddr) (text : IpAddr → String) (client : IpAddr)
    (headers : List (String × String)) (body : Except ApiError LoginRequest) : HttpRequest where
  peerAddr := some gateway
  headers := stampTrustedIdentityHeaders headers (text client)
  body

/-! ## The steps of a login -/

/-- `MAX_PASSWORD_BYTES`, `routes.rs:28`. -/
def maxPasswordBytes : Nat := 1024

/-- The credentials of a request, `routes.rs:204`: a password that is not blank or too long, and
the name of an account, or none for the shared password. -/
def LoginRequest.credentials (request : LoginRequest) : Option (String × String) :=
  ((request.password.map fun password ↦ String.ofList (trimChars password.toList)).filter
    fun password ↦ password ≠ "" ∧ password.utf8ByteSize ≤ maxPasswordBytes).map fun password ↦
      ((request.username.map fun name ↦ String.ofList (trimChars name.toList)).getD "", password)

/-- `NewSession`, `session.rs:68`. -/
structure NewSession where
  userId : Option String := none
  displayName : Option String := none
  role : Option String := none
  deriving DecidableEq

/-- `Verdict`, as `verify_user` answers it. -/
inductive Verdict where
  | authenticated (userId username displayName role : String)
  | noUsersConfigured
  | rejected
  deriving DecidableEq

/-- What a client is answered. -/
inductive Answer where
  | refused (error : ApiError)
  | locked (retryAfter : Nat)
  | denied (remainingBeforeLock : Nat)
  | signedIn (token : String)
  deriving DecidableEq

/-- Where a login stands that was let through: it waits for the credential store, or has its answer
and not yet recorded it. -/
inductive Stage where
  | verifying (password : String)
  | verified (session : Option NewSession)
  deriving DecidableEq

/-- `login_inner` up to the credential store, `routes.rs:184–218`: the check prunes the table. -/
def openLogin (store : LockoutStore) (request : HttpRequest) (now : Nat) :
    Except Answer (IpAddr × Stage) × LockoutStore :=
  match request.peerIp with
  | .error error => (.error (.refused error), store)
  | .ok peer =>
    let checked := store.check peer now
    match checked.1 with
    | .locked retryAfter => (.error (.locked retryAfter), checked.2)
    | .allowed =>
      match request.body with
      | .error error => (.error (.refused error), checked.2)
      | .ok body =>
        match body.credentials with
        | none => (.error (.refused .passwordRequired), checked.2)
        | some (_, password) => (.ok (peer, .verifying password), checked.2)

section

/- Whether a password is the shared one, and the token of a session that is created at a time. -/
variable (verify : String → Bool) (mint : Nat → NewSession → Option String)

/-- The answer of the credential store, `routes.rs:228–262`: none where it did not answer. -/
def settle (password : String) : Option Verdict → Except Answer (Option NewSession)
  | some (.authenticated userId username displayName role) =>
    let display := if trimChars displayName.toList = [] then username else displayName
    .ok (some ⟨some userId, some display, some role⟩)
  | some .noUsersConfigured => .ok (if verify password then some {} else none)
  | some .rejected => .ok none
  | none => .error (.refused .internalStateUnavailable)

/-- `failed_login_response`, `routes.rs:452`. -/
def failedLoginResponse (failure : FailureState) : Answer :=
  match failure.lockState with
  | .allowed => .denied failure.remainingBeforeLock
  | .locked retryAfter => .locked retryAfter

/-- `login_inner` after the credential store, `routes.rs:264–317`, at the time of its check. -/
def closeLogin (store : LockoutStore) (peer : IpAddr) (now : Nat) :
    Option NewSession → Answer × LockoutStore
  | some session =>
    ((mint now session).elim (.refused .internalStateUnavailable) .signedIn,
      store.recordSuccess peer)
  | none =>
    let failure := store.recordFailure peer now
    (failedLoginResponse failure.1, failure.2)

/-! ## Many logins -/

/-- A login that was let through: the client's, one of its requests, the peer it is counted for and
the time of its check. -/
structure Task where
  client : IpAddr
  request : Nat
  peer : IpAddr
  now : Nat
  stage : Stage
  deriving DecidableEq

/-- The service with the logins that wait and the answers so far. -/
structure World where
  store : LockoutStore
  pending : List Task := []
  answers : List (IpAddr × Nat × Answer) := []

/-- What happens next: a request comes in and is checked, the credential store answers one, or one
that has its answer records it. -/
inductive Action where
  | check (client : IpAddr) (request : Nat) (now : Nat) (headers : List (String × String))
    (body : Except ApiError LoginRequest)
  | answer (client : IpAddr) (request : Nat) (verdict : Option Verdict)
  | record (client : IpAddr) (request : Nat)

/-- The client whose request an action is about. -/
def Action.client : Action → IpAddr
  | .check client .. | .answer client .. | .record client .. => client

/-- A request of a client that waits for the credential store. -/
def waits (client : IpAddr) (request : Nat) (task : Task) : Bool :=
  task.client = client && task.request = request && task.stage matches .verifying _

/-- A request of a client that has its answer. -/
def settled (client : IpAddr) (request : Nat) (task : Task) : Bool :=
  task.client = client && task.request = request && task.stage matches .verified _

variable (gateway : IpAddr) (text : IpAddr → String)

/-- One step. -/
def World.act (w : World) : Action → World
  | .check client request now headers body =>
    let opened := openLogin w.store (forward gateway text client headers body) now
    match opened.1 with
    | .error answer =>
      { w with store := opened.2, answers := w.answers ++ [(client, request, answer)] }
    | .ok (peer, stage) =>
      { w with store := opened.2, pending := w.pending ++ [⟨client, request, peer, now, stage⟩] }
  | .answer client request verdict =>
    match w.pending.find? (waits client request) with
    | some ⟨_, _, peer, now, .verifying password⟩ =>
      let others := w.pending.eraseP (waits client request)
      match settle verify password verdict with
      | .error answer =>
        { w with pending := others, answers := w.answers ++ [(client, request, answer)] }
      | .ok session =>
        { w with pending := others ++ [⟨client, request, peer, now, .verified session⟩] }
    | _ => w
  | .record client request =>
    match w.pending.find? (settled client request) with
    | some ⟨_, _, peer, now, .verified session⟩ =>
      let closed := closeLogin mint w.store peer now session
      { store := closed.2
        pending := w.pending.eraseP (settled client request)
        answers := w.answers ++ [(client, request, closed.1)] }
    | _ => w

end

end NullRouter.Auth
