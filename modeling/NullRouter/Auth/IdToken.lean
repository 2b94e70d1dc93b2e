import NullRouter.Auth.Session
import NullRouter.Base.Result

/-!
# Verifying an `id_token`

`verify_id_token` of `services/auth-actix/src/oidc.rs:339`: the signature under a key of the
provider's key set first, then the claims. What `serde_json` reads of a header and of claims, and
RSA with SHA-256 as PKCS #1 v1.5 has it, are parameters.
-/

namespace NullRouter.Auth

open NullRouter.Base
open NullRouter.Base.Base64 (urlSafe)

/-- `OidcError`, `oidc.rs:49`. -/
inductive OidcError where
  | notConfigured
  | invalidState
  | missingCode
  | discovery (detail : String)
  | tokenExchange (detail : String)
  | missingIdToken
  | idToken (detail : String)
  | stateUnavailable
  deriving DecidableEq

/-- `code`, `oidc.rs:70`. -/
def OidcError.code : OidcError → String
  | notConfigured => "oidc_not_configured"
  | invalidState => "oidc_invalid_state"
  | missingCode => "oidc_missing_code"
  | discovery _ => "oidc_discovery_failed"
  | tokenExchange _ => "oidc_token_exchange_failed"
  | missingIdToken => "oidc_missing_id_token"
  | idToken _ => "oidc_id_token_invalid"
  | stateUnavailable => "oidc_state_unavailable"

/-- `trim_trailing_slashes`, `oidc.rs:121`. -/
def trimTrailingSlashes (value : String) : String :=
  String.ofList ((trimChars value.toList).reverse.dropWhile (· = '/')).reverse

/-! ## Claims and keys -/

/-- `Audience`, `oidc.rs:257`. -/
inductive Audience where
  | one (value : String)
  | many (values : List String)
  deriving DecidableEq

/-- `Audience::contains`, `oidc.rs:263`. -/
def Audience.contains (expected : String) : Audience → Bool
  | one value => value = expected
  | many values => values.any (· = expected)

/-- What is checked of `IdTokenClaims`, `oidc.rs:231`. -/
structure IdTokenClaims where
  iss : Option String := none
  aud : Option Audience := none
  nonce : Option String := none
  exp : Option Nat := none
  iat : Option Nat := none
  deriving DecidableEq

/-- `Jwk`, `oidc.rs:301`. -/
structure Jwk where
  kty : String
  kid : Option String
  alg : Option String
  n : Option String
  e : Option String

/-- `JwtHeader`, `oidc.rs:316`. -/
structure JwtHeader where
  alg : String
  kid : Option String

/-- `IdTokenExpectations`, `oidc.rs:325`. -/
structure IdTokenExpectations where
  issuer : String
  audience : String
  nonce : String
  nowSeconds : Nat

/-- What `serde_json` reads of the bytes of an `id_token`. -/
structure IdTokenReader where
  header : List UInt8 → Option JwtHeader
  claims : List UInt8 → Option IdTokenClaims

/-- RSA signatures: which modulus and exponent are a public key, and which signature of which bytes
holds under it. -/
structure Rsa where
  isKey : Nat → Nat → Bool
  verifies : Nat → Nat → List UInt8 → List UInt8 → Bool

/-- `rsa_public_key`, `oidc.rs:451`: a modulus and an exponent. -/
def Jwk.rsaPublicKey (rsa : Rsa) (key : Jwk) : Option (Nat × Nat) :=
  (key.n.bind fun n ↦ urlSafe.decode n.toList).bind fun modulus ↦
    (key.e.bind fun e ↦ urlSafe.decode e.toList).bind fun exponent ↦
      if rsa.isKey (Bytes.ofBe modulus) (Bytes.ofBe exponent) then
        some (Bytes.ofBe modulus, Bytes.ofBe exponent)
      else none

/-- Whether a key is a candidate for a header, `oidc.rs:374`. -/
def Jwk.isCandidate (key : Jwk) (header : JwtHeader) : Bool :=
  key.kty = "RSA" && key.alg.all (· = "RS256") &&
    match header.kid, key.kid with
    | some wanted, some available => wanted = available
    | _, _ => true

/-- Whether a signature of a text holds under a key. -/
def Jwk.verifies (rsa : Rsa) (key : Jwk) (text : List Char) (signature : List UInt8) : Bool :=
  (key.rsaPublicKey rsa).any fun publicKey ↦
    rsa.verifies publicKey.1 publicKey.2 (utf8 text) signature

/-! ## The checks -/

/-- `CLOCK_SKEW_SECONDS`, `oidc.rs:38`. -/
def clockSkewSeconds : Nat := 60

/-- `check_claims`, `oidc.rs:410`. -/
def checkClaims (claims : IdTokenClaims) (expectations : IdTokenExpectations) :
    Except OidcError PUnit := do
  refuseIf (claims.iss.map trimTrailingSlashes ≠ some (trimTrailingSlashes expectations.issuer))
    (.idToken "id_token issuer mismatch")
  refuseIf (claims.aud.any (·.contains expectations.audience) = false)
    (.idToken "id_token audience does not include this client")
  refuseIf (claims.nonce ≠ some expectations.nonce) (.idToken "id_token nonce mismatch")
  let exp ← okOr claims.exp (.idToken "id_token has no exp")
  refuseIf (satAdd64 exp clockSkewSeconds ≤ expectations.nowSeconds)
    (.idToken "id_token has expired")
  refuseIf (claims.iat.any (satAdd64 expectations.nowSeconds clockSkewSeconds < ·) = true)
    (.idToken "id_token was issued in the future")

/-- The three parts of a token. -/
def threeParts (token : List Char) : Option (List Char × List Char × List Char) :=
  match token.splitOn '.' with
  | [header, claims, signature] => some (header, claims, signature)
  | _ => none

/-- How an algorithm is named to a reader. -/
def algorithmText (alg : String) : String := if alg.isEmpty then "no algorithm" else alg

/-- `verify_id_token`, `oidc.rs:339`. -/
def verifyIdToken (rsa : Rsa) (reader : IdTokenReader) (token : List Char) (keys : List Jwk)
    (expectations : IdTokenExpectations) : Except OidcError IdTokenClaims := do
  let (headerText, claimsText, signatureText) ←
    okOr (threeParts token) (.idToken "id_token is not a three-part JWS")
  let header ← okOr ((urlSafe.decode headerText).bind reader.header)
    (.idToken "id_token header is not JSON")
  refuseIf (header.alg ≠ "RS256") (.idToken ("id_token is signed with " ++
    algorithmText header.alg ++ ", but only RS256 can be verified here"))
  let signature ← okOr (urlSafe.decode signatureText)
    (.idToken "id_token signature is not base64url")
  let candidates := keys.filter (·.isCandidate header)
  refuseIf (candidates = []) (.idToken "no usable RSA signing key in the provider's JWKS")
  refuseIf (candidates.any (·.verifies rsa (headerText ++ '.' :: claimsText) signature) = false)
    (.idToken "id_token signature does not match the provider's JWKS")
  let claims ← okOr ((urlSafe.decode claimsText).bind reader.claims)
    (.idToken "id_token claims are not JSON")
  checkClaims claims expectations
  return claims

/-! ## What is verified -/

/-- What the claims of a token are checked for. -/
structure IdTokenClaims.Meet (claims : IdTokenClaims) (expectations : IdTokenExpectations) :
    Prop where
  issuer : ∃ iss, claims.iss = some iss ∧
    trimTrailingSlashes iss = trimTrailingSlashes expectations.issuer
  audience : ∃ aud, claims.aud = some aud ∧ aud.contains expectations.audience = true
  nonce : claims.nonce = some expectations.nonce
  expires : ∃ exp, claims.exp = some exp ∧
    expectations.nowSeconds < satAdd64 exp clockSkewSeconds
  issued : ∀ iat, claims.iat = some iat →
    iat ≤ satAdd64 expectations.nowSeconds clockSkewSeconds

theorem checkClaims_eq_ok {claims : IdTokenClaims} {expectations : IdTokenExpectations} :
    checkClaims claims expectations = .ok ⟨⟩ ↔ claims.Meet expectations := by
  simp only [checkClaims, bind_eq_ok, okOr_eq_ok, refuseIf_eq_ok, not_not, Bool.not_eq_false,
    Option.map_eq_some_iff, Option.any_eq_true, not_le, exists_const]
  constructor
  · rintro ⟨hiss, haud, hnonce, exp, hexp, hlater, hiat⟩
    refine ⟨hiss, haud, hnonce, ⟨exp, hexp, hlater⟩, ?_⟩
    intro iat h
    by_contra hfuture
    exact hiat ⟨iat, h, decide_eq_true (Nat.lt_of_not_le hfuture)⟩
  · rintro ⟨hiss, haud, hnonce, ⟨exp, hexp, hlater⟩, hiat⟩
    refine ⟨hiss, haud, hnonce, exp, hexp, hlater, ?_⟩
    rintro ⟨iat, h, hfuture⟩
    exact absurd (hiat iat h) (Nat.not_le_of_lt (of_decide_eq_true hfuture))

/-- A token of three parts says its claims under RS256: the signature of the first two parts holds
under an RSA key of the set, for RS256 if for one algorithm, whose name is the header's if both have
one. -/
structure Signed (rsa : Rsa) (reader : IdTokenReader) (token : List Char) (keys : List Jwk)
    (claims : IdTokenClaims) (headerText claimsText signatureText : List Char)
    (header : JwtHeader) (signature : List UInt8) (key : Jwk) : Prop where
  parts : token.splitOn '.' = [headerText, claimsText, signatureText]
  header_read : (urlSafe.decode headerText).bind reader.header = some header
  claims_read : (urlSafe.decode claimsText).bind reader.claims = some claims
  signature_read : urlSafe.decode signatureText = some signature
  algorithm : header.alg = "RS256"
  published : key ∈ keys
  kind : key.kty = "RSA"
  use : ∀ alg, key.alg = some alg → alg = "RS256"
  selected : ∀ wanted available, header.kid = some wanted → key.kid = some available →
    wanted = available
  verifies : key.verifies rsa (headerText ++ '.' :: claimsText) signature = true

private theorem threeParts_eq_some {token headerText claimsText signatureText : List Char} :
    threeParts token = some (headerText, claimsText, signatureText) ↔
      token.splitOn '.' = [headerText, claimsText, signatureText] := by
  rw [threeParts]
  split
  · next h =>
    rw [h]
    simp only [Option.some.injEq, Prod.mk.injEq, List.cons.injEq, and_true]
  · next hother =>
    exact iff_of_false (fun h ↦ by cases h) (hother _ _ _)

private theorem isCandidate_iff {key : Jwk} {header : JwtHeader} :
    key.isCandidate header = true ↔ key.kty = "RSA" ∧
      (∀ alg, key.alg = some alg → alg = "RS256") ∧
      ∀ wanted available, header.kid = some wanted → key.kid = some available →
        wanted = available := by
  rw [Jwk.isCandidate, Bool.and_eq_true, Bool.and_eq_true, decide_eq_true_eq, and_assoc]
  refine and_congr_right' (and_congr ?_ ?_)
  · cases key.alg with
    | none => exact iff_of_true rfl fun _ h ↦ by cases h
    | some alg =>
      rw [Option.all_some, decide_eq_true_eq]
      simp only [Option.some.injEq, forall_eq']
  · cases header.kid with
    | none => exact iff_of_true rfl fun _ _ h ↦ by cases h
    | some wanted =>
      cases key.kid with
      | none => exact iff_of_true rfl fun _ _ _ h ↦ by cases h
      | some available =>
        show decide (wanted = available) = true ↔ _
        rw [decide_eq_true_eq]
        constructor
        · rintro rfl wanted' available' ⟨rfl⟩ ⟨rfl⟩
          rfl
        · intro h
          exact h _ _ rfl rfl

/-- A token is verified as claims exactly if it says them under RS256 and they meet what is
expected. -/
theorem verifyIdToken_eq_ok {rsa : Rsa} {reader : IdTokenReader} {token : List Char}
    {keys : List Jwk} {expectations : IdTokenExpectations} {claims : IdTokenClaims} :
    verifyIdToken rsa reader token keys expectations = .ok claims ↔
      (∃ headerText claimsText signatureText header signature key,
        Signed rsa reader token keys claims headerText claimsText signatureText header signature
          key) ∧ claims.Meet expectations := by
  simp only [verifyIdToken, bind_eq_ok, okOr_eq_ok, refuseIf_eq_ok, not_not, Bool.not_eq_false,
    List.any_eq_true, List.mem_filter, isCandidate_iff, Prod.exists, threeParts_eq_some,
    exists_const]
  constructor
  · rintro ⟨headerText, claimsText, signatureText, hparts, header, hheader, halg, signature,
      hsignature, -, ⟨key, ⟨hkey, hrsa, huse, hkid⟩, hverifies⟩, other, hclaims, ⟨⟩, hmeet, hsame⟩
    obtain rfl := Except.ok.inj hsame
    exact ⟨⟨headerText, claimsText, signatureText, header, signature, key, hparts, hheader, hclaims,
      hsignature, halg, hkey, hrsa, huse, hkid, hverifies⟩, checkClaims_eq_ok.mp hmeet⟩
  · rintro ⟨⟨headerText, claimsText, signatureText, header, signature, key, h⟩, hmeet⟩
    refine ⟨headerText, claimsText, signatureText, h.parts, header, h.header_read, h.algorithm,
      signature, h.signature_read, ?_,
      ⟨key, ⟨h.published, h.kind, h.use, h.selected⟩, h.verifies⟩, claims, h.claims_read,
      ⟨⟩, checkClaims_eq_ok.mpr hmeet, rfl⟩
    intro hnone
    have hmem : key ∈ keys.filter (·.isCandidate header) :=
      List.mem_filter.mpr ⟨h.published, isCandidate_iff.mpr ⟨h.kind, h.use, h.selected⟩⟩
    rw [hnone] at hmem
    cases hmem

end NullRouter.Auth
