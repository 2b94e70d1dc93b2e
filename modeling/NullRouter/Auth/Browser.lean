import NullRouter.Auth.Oidc

/-!
# Who is signed in through an identity provider

What a session is minted for, of every request, and of the requests of a browser that keeps the
cookies it is given no longer than it is told to (`services/auth-actix/src/sso_routes.rs:71`).
-/

namespace NullRouter.Auth

open NullRouter.Base

/-! ## The browser -/

/-- A start that has sent a browser to the provider. -/
structure Issued where
  start : AuthService.Start
  startedAt : Nat

/-- A browser: by its name, what a cookie says and when it ends; and the starts that it has been
through. -/
structure Browser where
  jar : String → Option (String × Nat) := fun _ ↦ none
  issued : List Issued := []

namespace Browser

/-- What a browser sends by the name of a cookie. -/
def sends (browser : Browser) (now : Nat) (name : String) : Option String :=
  (browser.jar name).bind fun kept ↦ if now < kept.2 then some kept.1 else none

/-- A cookie is kept for its age, in place of the one of its name. -/
def keep (now : Nat) (jar : String → Option (String × Nat)) (cookie : SetCookie) :
    String → Option (String × Nat) :=
  Function.update jar cookie.name
    (if cookie.maxAge = 0 then none else some (cookie.value, now + cookie.maxAge))

/-- What a browser does. Settings and providers may be others each time. -/
inductive Action where
  | start (service : AuthService) (origin : String) (start : AuthService.Start) (now : Nat)
  | callback (service : AuthService) (origin : String) (query : Option CallbackQuery)
      (now later : Nat)
  | lose (name : String)

/-- What a browser keeps afterwards. -/
def act (browser : Browser) : Action → Browser
  | .start service origin start now =>
    { jar := (service.oidcStart origin start).cookies.foldl (keep now) browser.jar
      issued := if (service.authorizeUrl origin start).isOk then ⟨start, now⟩ :: browser.issued
        else browser.issued }
  | .callback service origin query now later =>
    { browser with
      jar := (service.oidcCallback origin query (browser.sends now) now later).cookies.foldl
        (keep now) browser.jar }
  | .lose name => { browser with jar := Function.update browser.jar name none }

/-- A step of a browser. -/
def Step (browser : Browser) (action : Action) (browser' : Browser) : Prop :=
  browser' = browser.act action

/-- The flow cookies that are kept are those of a start, for as long as it gave them. -/
structure Of (browser : Browser) (issued : Issued) : Prop where
  state : ∀ kept, browser.jar stateCookie = some kept →
    kept = (issued.start.state, issued.startedAt + flowCookieTtlSeconds)
  nonce : ∀ kept, browser.jar nonceCookie = some kept →
    kept = (issued.start.nonce, issued.startedAt + flowCookieTtlSeconds)
  verifier : ∀ kept, browser.jar verifierCookie = some kept →
    kept = (issued.start.pkceVerifier, issued.startedAt + flowCookieTtlSeconds)

/-- The flow cookies that are kept are those of one start, if any is. -/
def OfOneStart (browser : Browser) : Prop :=
  (∀ name ∈ [stateCookie, nonceCookie, verifierCookie], browser.jar name = none) ∨
  ∃ issued ∈ browser.issued, browser.Of issued

private theorem names_ne : stateCookie ≠ nonceCookie ∧ stateCookie ≠ verifierCookie ∧
    nonceCookie ≠ verifierCookie ∧ ∀ name ∈ [stateCookie, nonceCookie, verifierCookie],
      name ≠ sessionCookieName := by decide +kernel

private theorem jar_cleared {jar : String → Option (String × Nat)} {now : Nat} {name : String}
    (h : name ∈ [stateCookie, nonceCookie, verifierCookie]) :
    clearedCookies.foldl (keep now) jar name = none := by
  simp only [clearedCookies, clearedCookie, List.map_cons, List.map_nil, List.foldl_cons,
    List.foldl_nil, keep, if_true, Function.update_apply]
  simp only [List.mem_cons, List.not_mem_nil, or_false] at h
  rcases h with rfl | rfl | rfl <;> simp

private theorem jar_callback (service : AuthService) (origin : String)
    (query : Option CallbackQuery) (cookie : String → Option String) (now later : Nat)
    {jar : String → Option (String × Nat)} {name : String}
    (h : name ∈ [stateCookie, nonceCookie, verifierCookie]) :
    (service.oidcCallback origin query cookie now later).cookies.foldl (keep now) jar name =
      none := by
  rw [AuthService.oidcCallback]
  split
  · exact jar_cleared h
  · split
    · next token _ =>
      have hname : name ≠ (service.session.sessionCookie token).name := names_ne.2.2.2 name h
      rw [List.foldl_append, List.foldl_cons, List.foldl_nil, keep, Function.update_of_ne hname]
      exact jar_cleared h
    · exact jar_cleared h

private theorem of_start (browser : Browser) (start : AuthService.Start) (now : Nat)
    (issued : List Issued) :
    Of ⟨[flowCookie stateCookie start.state, flowCookie nonceCookie start.nonce,
      flowCookie verifierCookie start.pkceVerifier].foldl (keep now) browser.jar, issued⟩
      ⟨start, now⟩ := by
  obtain ⟨hnonce, hverifier, hlast, -⟩ := names_ne
  have hage : flowCookieTtlSeconds ≠ 0 := by decide
  constructor
  all_goals
    intro kept h
    simp only [flowCookie, List.foldl_cons, List.foldl_nil, keep, Function.update_apply, if_true,
      if_neg hnonce, if_neg hverifier, if_neg hlast, if_neg hage, Option.some.injEq] at h
    exact h.symm

private theorem of_lost {jar : String → Option (String × Nat)} {name other : String}
    {kept : String × Nat} (h : Function.update jar name none other = some kept) :
    jar other = some kept := by
  by_cases hsame : other = name
  · rw [hsame, Function.update_self] at h
    cases h
  · rwa [Function.update_of_ne hsame] at h

/-- A start leaves its own cookies or none, a callback none, and what is lost leaves the others. -/
theorem OfOneStart.act {browser : Browser} (h : browser.OfOneStart) (action : Action) :
    (browser.act action).OfOneStart := by
  cases action with
  | start service origin start now =>
    rw [Browser.act, AuthService.oidcStart]
    cases service.authorizeUrl origin start with
    | error error => exact .inl fun name hname ↦ jar_cleared hname
    | ok url => exact .inr ⟨⟨start, now⟩, List.mem_cons_self, of_start browser start now _⟩
  | callback service origin query now later =>
    exact .inl fun name hname ↦ jar_callback service origin query _ now later hname
  | lose name =>
    rcases h with hnone | ⟨issued, hissued, hof⟩
    · refine .inl fun other hother ↦ ?_
      cases hjar : (browser.act (.lose name)).jar other with
      | none => rfl
      | some kept =>
        have hkept := of_lost hjar
        rw [hnone other hother] at hkept
        cases hkept
    · exact .inr ⟨issued, hissued, fun kept h ↦ hof.state kept (of_lost h),
        fun kept h ↦ hof.nonce kept (of_lost h), fun kept h ↦ hof.verifier kept (of_lost h)⟩

/-- In every run, the flow cookies that are kept are those of one start. -/
theorem ofOneStart_of_run {actions : List Action} {browser : Browser}
    (h : Run Step {} actions browser) : browser.OfOneStart := by
  apply h.invariant OfOneStart
  · rintro before action after hbefore rfl
    exact hbefore.act action
  · exact .inl fun _ _ ↦ rfl

private theorem of_nonEmpty {value : Option String} {text : String}
    (h : nonEmpty value = some text) : value = some text :=
  (Option.filter_eq_some_iff.mp h).1

private theorem of_sends {browser : Browser} {now : Nat} {name value : String}
    (h : browser.sends now name = some value) :
    ∃ ends, browser.jar name = some (value, ends) ∧ now < ends := by
  obtain ⟨kept, hkept, hsent⟩ := Option.bind_eq_some_iff.mp h
  obtain ⟨hless, hvalue⟩ := (Option.ite_none_right_eq_some).mp hsent
  obtain rfl := Option.some.inj hvalue
  exact ⟨kept.2, hkept, hless⟩

/-- What a callback of a browser comes with is of one start that is not over. -/
theorem OfOneStart.flow {browser : Browser} (h : browser.OfOneStart) {query : CallbackQuery}
    {now : Nat} {flow : Flow} (hflow : flow.Of query (browser.sends now)) :
    ∃ issued ∈ browser.issued, now < issued.startedAt + flowCookieTtlSeconds ∧
      flow.state = issued.start.state ∧ flow.nonce = issued.start.nonce ∧
      flow.verifier = issued.start.pkceVerifier := by
  obtain ⟨stateEnds, hstate, hless⟩ := of_sends (of_nonEmpty hflow.stored)
  obtain ⟨nonceEnds, hnonce, -⟩ := of_sends (of_nonEmpty hflow.nonce)
  obtain ⟨verifierEnds, hverifier, -⟩ := of_sends (of_nonEmpty hflow.verifier)
  rcases h with hnone | ⟨issued, hissued, hof⟩
  · rw [hnone stateCookie List.mem_cons_self] at hstate
    cases hstate
  · obtain ⟨hsame, hends⟩ := Prod.ext_iff.mp (hof.state _ hstate)
    refine ⟨issued, hissued, ?_, hsame, ?_, ?_⟩
    · exact Nat.lt_of_lt_of_eq hless hends
    · exact (Prod.ext_iff.mp (hof.nonce _ hnonce)).1
    · exact (Prod.ext_iff.mp (hof.verifier _ hverifier)).1

end Browser

/-- Whatever a request and a provider say, a session is minted exactly for a callback that comes
with the state of its cookie, and for a token that a key of the provider has signed and whose claims
meet what is expected; and for a browser that keeps its cookies as it is told, the state, the nonce
and the verifier are those of one start, of less than ten minutes before. -/
theorem session_of_callback :
    (∀ (service : AuthService) origin query cookie now later session,
      (service.oidcCallback origin query cookie now later).session = some session ↔
        ∃ flow : Flow, flow.Of (query.getD {}) cookie ∧
          service.SignsIn origin flow now later session) ∧
    ∀ actions browser, Run Browser.Step {} actions browser →
      ∀ (service : AuthService) origin query now later session,
        (service.oidcCallback origin query (browser.sends now) now later).session = some session →
          ∃ issued ∈ browser.issued, now < issued.startedAt + flowCookieTtlSeconds ∧
            ∃ code, service.SignsIn origin ⟨code, issued.start.state, issued.start.nonce,
              issued.start.pkceVerifier⟩ now later session := by
  constructor
  · intro service origin query cookie now later session
    exact session_oidcCallback
  · intro actions browser hrun service origin query now later session h
    obtain ⟨⟨code, state, nonce, verifier⟩, hflow, hsigns⟩ := session_oidcCallback.mp h
    obtain ⟨issued, hissued, hless, rfl, rfl, rfl⟩ := (Browser.ofOneStart_of_run hrun).flow hflow
    exact ⟨issued, hissued, hless, code, hsigns⟩

/-! ## A provider -/

section

/-- An answer with a text as its body. -/
private def pageOf (text : String) : HttpAnswer := ⟨200, none, .ok (Bytes.ofText text)⟩

private def discoveryText : String :=
  "\x7b\"authorization_endpoint\":\"https://i/a\",\"token_endpoint\":\"https://i/t\"," ++
    "\"jwks_uri\":\"https://i/k\"\x7d"

private def keysText : String :=
  "\x7b\"keys\":[\x7b\"kty\":\"RSA\",\"n\":\"DKE\",\"e\":\"EQ\"\x7d]\x7d"

private def headerText : String := "\x7b\"alg\":\"RS256\"\x7d"

private def claimsText : String :=
  "\x7b\"iss\":\"https://i\",\"aud\":\"r\",\"nonce\":\"n\",\"exp\":1000\x7d"

private def tokenText : String :=
  "eyJhbGciOiJSUzI1NiJ9.eyJpc3MiOiJodHRwczovL2kiLCJhdWQiOiJyIiwibm9uY2UiOiJuIiwiZXhwIjoxMDAwfQ.qlU"

private def tokensText : String :=
  "\x7b\"id_token\":\"eyJhbGciOiJSUzI1NiJ9." ++
    "eyJpc3MiOiJodHRwczovL2kiLCJhdWQiOiJyIiwibm9uY2UiOiJuIiwiZXhwIjoxMDAwfQ.qlU\"\x7d"

/-- What is read of a text, and of no other. -/
private def readOf {α : Type} (text : String) (value : α) (bytes : List UInt8) : Option α :=
  if bytes = Bytes.ofText text then some value else none

private def claimsOfText : IdTokenClaims :=
  { iss := some "https://i", aud := some (.one "r"), nonce := some "n", exp := some 1000 }

/-- A service with a provider that has one key, and that has signed one token, which expires at
1000. -/
private def providerService : AuthService where
  settings := some ⟨"https://i/", "r", "secret", ""⟩
  http := some
    { get := fun url ↦ .ok (pageOf (if url = "https://i/k" then keysText else discoveryText)),
      post := fun _ _ ↦ .ok (pageOf tokensText) }
  reader :=
    { discovery := readOf discoveryText
        ⟨"", "https://i/a", "https://i/t", "https://i/k"⟩,
      tokens := readOf tokensText { idToken := some tokenText },
      keys := readOf keysText [⟨"RSA", none, none, some "DKE", some "EQ"⟩],
      idToken := ⟨readOf headerText ⟨"RS256", none⟩, readOf claimsText claimsOfText⟩ }
  rsa :=
    { isKey := fun n e ↦ n = 3233 && e = 17,
      verifies := fun n e text signature ↦
        n = 3233 && e = 17 && text = utf8 (tokenText.toList.take 91) && signature = [0xAA, 0x55] }
  session := ⟨fun _ ↦ ⟨List.replicate 32 0, rfl⟩, 86400⟩
  url := fun endpoint _ ↦ some endpoint

/-- Cookies that the client has made up. -/
private def madeUp : String → Option String :=
  ([("oidc_state", "s"), ("oidc_nonce", "n"), ("oidc_code_verifier", "v")].lookup ·)

private def demoQuery : CallbackQuery := { code := some "c", state := some "s" }

private theorem minted_madeUp :
    (providerService.oidcCallback "https://r" (some demoQuery) madeUp 1030 1030).session.isSome =
      true := by
  decide +kernel

/-- Cookies that no start has set, and a token that has expired half a minute ago, sign in. -/
theorem expired_token_signs_in :
    (providerService.oidcCallback "https://r" (some { code := some "c", state := some "s" })
      ([("oidc_state", "s"), ("oidc_nonce", "n"), ("oidc_code_verifier", "v")].lookup ·)
      1030 1030).session.isSome = true ∧
    ∀ bytes claims, providerService.reader.idToken.claims bytes = some claims →
      claims.exp = some 1000 := by
  constructor
  · exact minted_madeUp
  · intro bytes claims h
    have hread : readOf claimsText claimsOfText bytes = some claims := h
    obtain ⟨-, hclaims⟩ := (Option.ite_none_right_eq_some).mp hread
    rw [← Option.some.inj hclaims]
    rfl

/-- A browser after a start. -/
private def startedBrowser : Browser :=
  ({} : Browser).act (.start providerService "https://r" ⟨"v", "c", "s", "n"⟩ 900)

private theorem sends_startedBrowser :
    [stateCookie, nonceCookie, verifierCookie].map (startedBrowser.sends 1030) =
      [stateCookie, nonceCookie, verifierCookie].map madeUp := by
  decide +kernel

/-- The browser that has been sent to the provider is signed in two minutes later. -/
theorem session_of_started_browser :
    ∃ session, (providerService.oidcCallback "https://r" (some demoQuery) (startedBrowser.sends 1030)
        1030 1030).session = some session ∧
      ∃ issued ∈ startedBrowser.issued, 1030 < issued.startedAt + flowCookieTtlSeconds ∧
        ∃ code, providerService.SignsIn "https://r" ⟨code, issued.start.state, issued.start.nonce,
          issued.start.pkceVerifier⟩ 1030 1030 session := by
  obtain ⟨session, hsession⟩ := Option.isSome_iff_exists.mp minted_madeUp
  have hcookies := sends_startedBrowser
  simp only [List.map_cons, List.map_nil, List.cons.injEq, and_true] at hcookies
  rw [AuthService.oidcCallback, ← hcookies.1, ← hcookies.2.1, ← hcookies.2.2,
    ← AuthService.oidcCallback] at hsession
  have hrun : Run Browser.Step {}
      [.start providerService "https://r" ⟨"v", "c", "s", "n"⟩ 900] startedBrowser :=
    .single rfl
  exact ⟨session, hsession, session_of_callback.2 _ _ hrun _ _ _ _ _ _ hsession⟩

end

end NullRouter.Auth
