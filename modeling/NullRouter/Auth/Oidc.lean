import NullRouter.Auth.IdToken
import NullRouter.Base.PercentEncoding
import NullRouter.Base.Run

/-!
# Sign-in through an identity provider

`oidc_start` and `oidc_callback` of `services/auth-actix/src/sso_routes.rs`, with the calls to the
provider of `oidc.rs:494`. What the provider answers, what `serde_json` reads of it, and the random
values of a start are given; so are the parsing of a URL and the reading of the clock, which a
callback reads twice. The three flow cookies are plain, and only the browser counts their age.
-/

namespace NullRouter.Auth

open NullRouter.Base

/-! ## Configuration -/

/-- What OpenID Connect reads of `AuthSettings`, `settings_client.rs:28`. -/
structure AuthSettings where
  oidcIssuerUrl : String := ""
  oidcClientId : String := ""
  oidcClientSecret : String := ""
  oidcScopes : String := ""

/-- `normalize_scopes`, `oidc.rs:125`. -/
def normalizeScopes (value : String) : String :=
  if trim value = "" then "openid profile email" else trim value

/-- `OidcConfig`, `oidc.rs:89`. -/
structure OidcConfig where
  issuerUrl : String
  clientId : String
  clientSecret : String
  scopes : String
  issuerUrl_ne : issuerUrl ≠ ""
  clientId_ne : clientId ≠ ""
  clientSecret_ne : clientSecret ≠ ""

/-- `from_settings`, `oidc.rs:102`. -/
def OidcConfig.fromSettings (settings : AuthSettings) : Option OidcConfig :=
  let issuerUrl := trimTrailingSlashes settings.oidcIssuerUrl
  let clientId := trim settings.oidcClientId
  let clientSecret := trim settings.oidcClientSecret
  if h : issuerUrl ≠ "" ∧ clientId ≠ "" ∧ clientSecret ≠ "" then
    some ⟨issuerUrl, clientId, clientSecret, normalizeScopes settings.oidcScopes, h.1, h.2.1, h.2.2⟩
  else none

/-! ## The provider -/

/-- `Discovery`, `oidc.rs:145`. -/
structure Discovery where
  issuer : String
  authorizationEndpoint : String
  tokenEndpoint : String
  jwksUri : String

/-- `TokenResponse`, `oidc.rs:218`, of which the default says nothing. -/
structure TokenResponse where
  idToken : Option String := none
  error : Option String := none
  errorDescription : Option String := none

/-- What `serde_json` reads of the bytes that a provider sends. -/
structure OidcReader where
  discovery : List UInt8 → Option Discovery
  tokens : List UInt8 → Option TokenResponse
  keys : List UInt8 → Option (List Jwk)
  idToken : IdTokenReader

/-- An answer of the provider, whose body may break off. -/
structure HttpAnswer where
  status : Nat
  contentLength : Option Nat
  body : Except String (List UInt8)

/-- `is_success` of a status. -/
def HttpAnswer.isSuccess (answer : HttpAnswer) : Bool := 200 ≤ answer.status && answer.status < 300

/-- `MAX_METADATA_BYTES`, `oidc.rs:41`. -/
def maxMetadataBytes : Nat := 256 * 1024

/-- `bounded_body`, `oidc.rs:598`. -/
def HttpAnswer.boundedBody (answer : HttpAnswer) : Except OidcError (List UInt8) := do
  refuseIf (answer.contentLength.any (maxMetadataBytes < ·) = true)
    (.discovery "response is too large")
  let bytes ← answer.body.mapError fun error ↦ .discovery ("response could not be read: " ++ error)
  refuseIf (maxMetadataBytes < bytes.length) (.discovery "response is too large")
  return bytes

/-- `TokenExchange`, `oidc.rs:617`. -/
structure TokenExchange where
  tokenEndpoint : String
  clientId : String
  clientSecret : String
  code : String
  redirectUri : String
  codeVerifier : String

/-- The form of an exchange, in the order of its keys. -/
def TokenExchange.form (request : TokenExchange) : List (String × String) :=
  ("client_id", request.clientId) ::
    (if request.clientSecret = "" then [] else [("client_secret", request.clientSecret)]) ++
    [("code", request.code), ("code_verifier", request.codeVerifier),
      ("grant_type", "authorization_code"), ("redirect_uri", request.redirectUri)]

/-- `OidcHttp`, `oidc.rs:494`: how a provider answers, or why it cannot be reached. -/
structure OidcHttp where
  get : String → Except String HttpAnswer
  post : String → List (String × String) → Except String HttpAnswer

namespace OidcHttp

variable (http : OidcHttp) (reader : OidcReader)

/-- `discovery_url`, `oidc.rs:157`. -/
def discoveryUrl (issuerUrl : String) : String :=
  trimTrailingSlashes issuerUrl ++ "/.well-known/openid-configuration"

/-- `discovery`, `oidc.rs:509`. -/
def discovery (issuerUrl : String) : Except OidcError Discovery := do
  let url := discoveryUrl issuerUrl
  let answer ← (http.get url).mapError fun error ↦
    .discovery (url ++ " could not be reached: " ++ error)
  refuseIf (answer.isSuccess = false)
    (.discovery (url ++ " responded with " ++ toString answer.status))
  let bytes ← answer.boundedBody
  let discovery ← okOr (reader.discovery bytes)
    (.discovery (url ++ " did not return a JSON document"))
  refuseIf (discovery.tokenEndpoint = "")
    (.discovery (url ++ " does not advertise a token_endpoint"))
  return discovery

/-- `jwks`, `oidc.rs:532`. -/
def jwks (jwksUri : String) : Except OidcError (List Jwk) := do
  refuseIf (jwksUri = "") (.idToken ("the provider's discovery document has no jwks_uri, " ++
    "so no signature can be verified"))
  let answer ← (http.get jwksUri).mapError fun error ↦
    .idToken (jwksUri ++ " could not be reached: " ++ error)
  refuseIf (answer.isSuccess = false)
    (.idToken (jwksUri ++ " responded with " ++ toString answer.status))
  let bytes ← answer.boundedBody.mapError fun _ ↦
    .idToken (jwksUri ++ " returned an oversized body")
  okOr (reader.keys bytes) (.idToken (jwksUri ++ " did not return a JWKS"))

/-- `exchange_code`, `oidc.rs:557`. A body that is not read is one that says nothing. -/
def exchangeCode (request : TokenExchange) : Except OidcError TokenResponse := do
  let answer ← (http.post request.tokenEndpoint request.form).mapError fun error ↦
    .tokenExchange (request.tokenEndpoint ++ " could not be reached: " ++ error)
  let bytes ← answer.boundedBody.mapError fun _ ↦
    .tokenExchange "the token endpoint returned an oversized body"
  let parsed := (reader.tokens bytes).getD {}
  refuseIf (answer.isSuccess = false) (.tokenExchange
    ((parsed.errorDescription.or parsed.error).getD
      ("token endpoint responded with " ++ toString answer.status)))
  return parsed

end OidcHttp

/-! ## Requests and answers -/

/-- A cookie that an answer sets, for an age in seconds. -/
structure SetCookie where
  name : String
  value : String
  maxAge : Nat
  deriving DecidableEq

/-- An answer that sends a browser elsewhere. -/
structure Redirect where
  location : String
  cookies : List SetCookie
  deriving DecidableEq

/-- `COOKIE_NAME`, `session.rs:9`. -/
def sessionCookieName : String := "auth_token"

/-- The session that an answer signs in to. -/
def Redirect.session (redirect : Redirect) : Option String :=
  (redirect.cookies.find? (·.name = sessionCookieName)).map (·.value)

/-- `session_cookie`, `session.rs:188`. -/
def SessionCodec.sessionCookie (codec : SessionCodec) (token : List Char) : SetCookie :=
  ⟨sessionCookieName, String.ofList token, min codec.ttl (2 ^ 63 - 1)⟩

/-- `STATE_COOKIE`, `oidc.rs:30`. -/
def stateCookie : String := "oidc_state"

/-- `NONCE_COOKIE`, `oidc.rs:31`. -/
def nonceCookie : String := "oidc_nonce"

/-- `VERIFIER_COOKIE`, `oidc.rs:32`. -/
def verifierCookie : String := "oidc_code_verifier"

/-- `FLOW_COOKIE_TTL_SECONDS`, `sso_routes.rs:27`. -/
def flowCookieTtlSeconds : Nat := 10 * 60

/-- `flow_cookie`, `sso_routes.rs:71`. -/
def flowCookie (name value : String) : SetCookie := ⟨name, value, flowCookieTtlSeconds⟩

/-- `cleared_cookie`, `sso_routes.rs:82`. -/
def clearedCookie (name : String) : SetCookie := ⟨name, "", 0⟩

/-- The three flow cookies, cleared. -/
def clearedCookies : List SetCookie := [stateCookie, nonceCookie, verifierCookie].map clearedCookie

/-- `redirect_clearing_oidc`, `sso_routes.rs:94`. -/
def redirectClearingOidc (origin path : String) : Redirect := ⟨origin ++ path, clearedCookies⟩

/-- `login_error_path`, `sso_routes.rs:118`: of a character that is not unreserved, the low byte is
written. -/
def loginErrorPath (code : String) : String :=
  let digit := fun (n : Nat) ↦ "0123456789ABCDEF".toList.getD n '0'
  "/login?error=" ++ String.ofList (code.toList.flatMap fun c ↦
    if unreserved c then [c] else ['%', digit (c.toNat % 256 / 16), digit (c.toNat % 16)])

/-- `CallbackQuery`, `sso_routes.rs:215`. -/
structure CallbackQuery where
  code : Option String := none
  state : Option String := none
  error : Option String := none

/-- `FlowCookies`, `sso_routes.rs:311`. -/
structure FlowCookies where
  state : Option String
  nonce : Option String
  verifier : Option String

/-- `non_empty`, `sso_routes.rs:329`. -/
def nonEmpty (value : Option String) : Option String := value.filter (· ≠ "")

/-- `AuthService`, `lib.rs:42`, as a sign-in finds it: the settings, if the state service answers,
the client, if there is one, and what is given. -/
structure AuthService where
  settings : Option AuthSettings
  http : Option OidcHttp
  reader : OidcReader
  rsa : Rsa
  session : SessionCodec
  url : String → List (String × String) → Option String

namespace AuthService

variable (service : AuthService)

/-- `oidc_config`, `sso_routes.rs:137`. -/
def oidcConfig : Except OidcError OidcConfig := do
  let settings ← okOr service.settings .stateUnavailable
  okOr (OidcConfig.fromSettings settings) .notConfigured

/-- Where a provider sends the browser back to. -/
def redirectUri (origin : String) : String := origin ++ "/api/auth/oidc/callback"

/-- What a start sends to a provider. -/
structure Start where
  pkceVerifier : String
  pkceChallenge : String
  state : String
  nonce : String

/-- Where a start goes, `sso_routes.rs:163`. -/
def authorizeUrl (origin : String) (start : Start) : Except OidcError String := do
  let config ← service.oidcConfig
  let http ← okOr service.http .stateUnavailable
  let discovery ← http.discovery service.reader config.issuerUrl
  okOr (service.url discovery.authorizationEndpoint
    [("response_type", "code"), ("client_id", config.clientId),
      ("redirect_uri", redirectUri origin), ("scope", normalizeScopes config.scopes),
      ("state", start.state), ("nonce", start.nonce), ("code_challenge", start.pkceChallenge),
      ("code_challenge_method", "S256")])
    (.discovery "authorization_endpoint is not a URL")

/-- `oidc_start`, `sso_routes.rs:159`. -/
def oidcStart (origin : String) (start : Start) : Redirect :=
  match service.authorizeUrl origin start with
  | .ok url => ⟨url, [flowCookie stateCookie start.state, flowCookie nonceCookie start.nonce,
      flowCookie verifierCookie start.pkceVerifier]⟩
  | .error error => redirectClearingOidc origin (loginErrorPath error.code)

/-- The issuer that a token is to be of, `sso_routes.rs:359`. -/
def expectedIssuer (config : OidcConfig) (discovery : Discovery) : String :=
  if discovery.issuer = "" then config.issuerUrl else discovery.issuer

/-- `oidc_callback_inner`, `sso_routes.rs:322`. The clock reads `now` before a token is verified,
and `later` before a session is minted. -/
def oidcCallbackInner (origin : String) (query : CallbackQuery) (cookies : FlowCookies)
    (now later : Nat) : Except OidcError (List Char) := do
  let code ← okOr (nonEmpty query.code) .missingCode
  let state ← okOr (nonEmpty query.state) .missingCode
  let storedState ← okOr (nonEmpty cookies.state) .invalidState
  let storedNonce ← okOr (nonEmpty cookies.nonce) .invalidState
  let verifier ← okOr (nonEmpty cookies.verifier) .invalidState
  refuseIf (storedState ≠ state) .invalidState
  let config ← service.oidcConfig
  let http ← okOr service.http .stateUnavailable
  let discovery ← http.discovery service.reader config.issuerUrl
  let tokens ← http.exchangeCode service.reader ⟨discovery.tokenEndpoint, config.clientId,
    config.clientSecret, code, redirectUri origin, verifier⟩
  let idToken ← okOr (nonEmpty tokens.idToken) .missingIdToken
  let keys ← http.jwks service.reader discovery.jwksUri
  let _claims ← verifyIdToken service.rsa service.reader.idToken idToken.toList keys
    ⟨expectedIssuer config discovery, config.clientId, storedNonce, now⟩
  okOr (service.session.createTokenFor later {}) .stateUnavailable

/-- `oidc_callback`, `sso_routes.rs:234`, of a request whose query may not be read, and of its
cookies by their names. -/
def oidcCallback (origin : String) (query : Option CallbackQuery) (cookie : String → Option String)
    (now later : Nat) : Redirect :=
  let query := query.getD {}
  match nonEmpty query.error with
  | some error => redirectClearingOidc origin (loginErrorPath error)
  | none =>
    match service.oidcCallbackInner origin query
      ⟨cookie stateCookie, cookie nonceCookie, cookie verifierCookie⟩ now later with
    | .ok token =>
      ⟨origin ++ "/dashboard", clearedCookies ++ [service.session.sessionCookie token]⟩
    | .error error => redirectClearingOidc origin (loginErrorPath error.code)

end AuthService

/-! ## What a session is minted for -/

/-- What a callback comes with. -/
structure Flow where
  code : String
  state : String
  nonce : String
  verifier : String

/-- The provider has not declined, and the state of the query is the one of the cookie. -/
structure Flow.Of (flow : Flow) (query : CallbackQuery) (cookie : String → Option String) :
    Prop where
  accepted : nonEmpty query.error = none
  code : nonEmpty query.code = some flow.code
  state : nonEmpty query.state = some flow.state
  stored : nonEmpty (cookie stateCookie) = some flow.state
  nonce : nonEmpty (cookie nonceCookie) = some flow.nonce
  verifier : nonEmpty (cookie verifierCookie) = some flow.verifier

/-- What a provider answers a callback. -/
structure Exchange where
  config : OidcConfig
  discovery : Discovery
  idToken : String
  keys : List Jwk

/-- What a token of the provider is to meet. -/
def Exchange.expectations (exchange : Exchange) (flow : Flow) (now : Nat) : IdTokenExpectations :=
  ⟨AuthService.expectedIssuer exchange.config exchange.discovery, exchange.config.clientId,
    flow.nonce, now⟩

/-- The provider of the settings has answered with its document, with a token for the code and the
verifier, and with its keys. -/
def Exchange.Of (exchange : Exchange) (service : AuthService) (origin : String) (flow : Flow) :
    Prop :=
  service.settings.bind OidcConfig.fromSettings = some exchange.config ∧
  ∃ http, service.http = some http ∧
    http.discovery service.reader exchange.config.issuerUrl = .ok exchange.discovery ∧
    (∃ tokens, nonEmpty tokens.idToken = some exchange.idToken ∧
      http.exchangeCode service.reader ⟨exchange.discovery.tokenEndpoint, exchange.config.clientId,
        exchange.config.clientSecret, flow.code, AuthService.redirectUri origin, flow.verifier⟩ =
          .ok tokens) ∧
    http.jwks service.reader exchange.discovery.jwksUri = .ok exchange.keys

/-- A session is minted for what a callback has come with, and for a token of the provider that a
key of the provider has signed and whose claims meet what is expected. -/
def AuthService.SignsIn (service : AuthService) (origin : String) (flow : Flow) (now later : Nat)
    (session : String) : Prop :=
  ∃ exchange : Exchange, exchange.Of service origin flow ∧
    (∃ claims, (∃ headerText claimsText signatureText header signature key,
        Signed service.rsa service.reader.idToken exchange.idToken.toList exchange.keys claims
          headerText claimsText signatureText header signature key) ∧
      claims.Meet (exchange.expectations flow now)) ∧
    ∃ token, service.session.createTokenFor later {} = some token ∧ session = String.ofList token

section

variable {service : AuthService} {origin : String}

private theorem oidcConfig_eq_ok {config : OidcConfig} :
    service.oidcConfig = .ok config ↔
      service.settings.bind OidcConfig.fromSettings = some config := by
  simp only [AuthService.oidcConfig, bind_eq_ok, okOr_eq_ok, Option.bind_eq_some_iff]

private theorem session_clearing (origin path : String) :
    (redirectClearingOidc origin path).session = none := by
  rw [Redirect.session, redirectClearingOidc]
  have hnone : clearedCookies.find? (·.name = sessionCookieName) = none := by decide +kernel
  rw [hnone]
  rfl

private theorem session_minted (codec : SessionCodec) (location : String) (token : List Char) :
    (⟨location, clearedCookies ++ [codec.sessionCookie token]⟩ : Redirect).session =
      some (String.ofList token) := by
  have hnone : clearedCookies.find? (·.name = sessionCookieName) = none := by decide +kernel
  rw [Redirect.session, List.find?_append, hnone]
  rfl

private theorem oidcCallbackInner_eq_ok {query : CallbackQuery} {cookies : FlowCookies}
    {now later : Nat} {token : List Char} :
    service.oidcCallbackInner origin query cookies now later = .ok token ↔
      ∃ flow : Flow, nonEmpty query.code = some flow.code ∧
        nonEmpty query.state = some flow.state ∧ nonEmpty cookies.state = some flow.state ∧
        nonEmpty cookies.nonce = some flow.nonce ∧
        nonEmpty cookies.verifier = some flow.verifier ∧
        service.SignsIn origin flow now later (String.ofList token) := by
  simp only [AuthService.oidcCallbackInner, bind_eq_ok, okOr_eq_ok, refuseIf_eq_ok, not_not,
    oidcConfig_eq_ok, exists_const]
  constructor
  · rintro ⟨code, hcode, state, hstate, stored, hstored, nonce, hnonce, verifier, hverifier, rfl,
      config, hconfig, http, hhttp, discovery, hdiscovery, tokens, htokens, idToken, hidToken, keys,
      hkeys, claims, hclaims, htoken⟩
    exact ⟨⟨code, stored, nonce, verifier⟩, hcode, hstate, hstored, hnonce, hverifier,
      ⟨config, discovery, idToken, keys⟩,
      ⟨hconfig, http, hhttp, hdiscovery, ⟨tokens, hidToken, htokens⟩, hkeys⟩,
      ⟨claims, verifyIdToken_eq_ok.mp hclaims⟩, token, htoken, rfl⟩
  · rintro ⟨⟨code, state, nonce, verifier⟩, hcode, hstate, hstored, hnonce, hverifier,
      ⟨config, discovery, idToken, keys⟩,
      ⟨hconfig, http, hhttp, hdiscovery, ⟨tokens, hidToken, htokens⟩, hkeys⟩, ⟨claims, hclaims⟩,
      other, htoken, hsame⟩
    obtain rfl := String.ofList_injective hsame
    exact ⟨code, hcode, state, hstate, state, hstored, nonce, hnonce, verifier, hverifier, rfl,
      config, hconfig, http, hhttp, discovery, hdiscovery, tokens, htokens, idToken, hidToken, keys,
      hkeys, claims, verifyIdToken_eq_ok.mpr hclaims, htoken⟩

/-- A callback mints a session exactly for what it has come with and a token that is verified. -/
theorem session_oidcCallback {query : Option CallbackQuery} {cookie : String → Option String}
    {now later : Nat} {session : String} :
    (service.oidcCallback origin query cookie now later).session = some session ↔
      ∃ flow : Flow, flow.Of (query.getD {}) cookie ∧
        service.SignsIn origin flow now later session := by
  rw [AuthService.oidcCallback]
  constructor
  · intro h
    split at h
    · rw [session_clearing] at h
      cases h
    · next haccepted =>
      split at h
      · next token htoken =>
        rw [session_minted, Option.some.injEq] at h
        obtain ⟨flow, hcode, hstate, hstored, hnonce, hverifier, hsigns⟩ :=
          oidcCallbackInner_eq_ok.mp htoken
        exact ⟨flow, ⟨haccepted, hcode, hstate, hstored, hnonce, hverifier⟩, h ▸ hsigns⟩
      · rw [session_clearing] at h
        cases h
  · rintro ⟨flow, hflow, hsigns⟩
    obtain ⟨exchange, hexchange, hverified, token, htoken, rfl⟩ := hsigns
    have hinner : service.oidcCallbackInner origin (query.getD {})
        ⟨cookie stateCookie, cookie nonceCookie, cookie verifierCookie⟩ now later = .ok token :=
      oidcCallbackInner_eq_ok.mpr ⟨flow, hflow.code, hflow.state, hflow.stored, hflow.nonce,
        hflow.verifier, exchange, hexchange, hverified, token, htoken, rfl⟩
    simp only [hflow.accepted]
    rw [hinner]
    exact session_minted _ _ _

end

end NullRouter.Auth
