import NullRouter.Gateway.Encoding

/-!
# Escaped paths and the access decision

Which escaped paths the gateway classifies and guards as the path they stand for
(`services/gateway-pingora/src/routing.rs:4`, `policy.rs:171`). Those, exactly, whose first
escaped character comes after all that a rule looks at.
-/

namespace NullRouter.Gateway

open NullRouter.Base

/-- The paths that `is_public_path` lists one by one, but for `/api/auth`. -/
def pageLiterals : List String :=
  ["/", "/login", "/landing", "/callback", "/favicon.svg", "/api/health"]

/-- The prefixes that `is_public_path` lists, but for `/api/auth/`. -/
def pageRoots : List String := ["/pkg/", "/providers/", "/assets/"]

/-- The literals of every other rule. -/
def guardedRoots : List String :=
  "/internal" :: "/api/users" :: hostOnlyPrefixes ++ hostOnlyWritePrefixes ++
    [.events, .auth, .runtime, .catalog, .state].flatMap Path.roots

namespace Path

variable {p q : Path}

/-- A page of the site. -/
def isPage (p : Path) : Bool := pageLiterals.any (p.eqLit ·) || pageRoots.any (p.startsWith ·)

/-- A public path is a page of the site or a path of the login. -/
theorem isPublicPath_eq : p.isPublicPath = (p.isPage || p.isAuthPath) := by
  have hauth : (p.eqLit "/api/auth" || p.startsWith "/api/auth/") = p.isAuthPath := rfl
  rw [isPublicPath, Bool.or_assoc, hauth, isPage, pageLiterals, pageRoots]
  generalize p.isAuthPath = auth
  simp only [List.any_cons, List.any_nil, Bool.or_false]
  ac_rfl

/-- No other rule is about a page of the site. -/
theorem not_guarded_of_page (h : p.isPage = true) : ¬ ∃ m ∈ guardedRoots, m.toList <+: p := by
  rw [isPage, Bool.or_eq_true, List.any_eq_true, List.any_eq_true] at h
  rcases h with ⟨l, hl, hp⟩ | ⟨l, hl, hp⟩
  · rw [eqLit_iff] at hp
    subst hp
    rintro ⟨m, hm, hp⟩
    have apart : ∀ l ∈ pageLiterals, ∀ m ∈ guardedRoots, m.toList.isPrefixOf l.toList = false := by
      decide
    rw [← List.isPrefixOf_iff_prefix, apart l hl m hm] at hp
    cases hp
  · exact @Apart.not_isPrefix _ pageRoots _ (by decide) ⟨l, hl, startsWith_iff.mp hp⟩

theorem begins_of_internal (h : p.isInternalPath = true) : "/internal".toList <+: p :=
  @isPrefix_of_under _ "/internal" h

/-- A host-only path begins with a root of the host-only lists. -/
theorem begins_of_hostOnly {method : Method}
    (h : (p.isHostOnlyPath || p.isHostOnlyWrite method) = true) :
    ∃ l ∈ hostOnlyPrefixes ++ hostOnlyWritePrefixes, l.toList <+: p := by
  have begins {roots : List String} (h : matchesPrefix roots p = true) :
      ∃ l ∈ roots, l.toList <+: p := by
    obtain ⟨l, hl, hp⟩ := List.any_eq_true.mp h
    exact ⟨l, hl, isPrefix_of_under hp⟩
  rw [Bool.or_eq_true] at h
  rcases h with h | h
  · obtain ⟨l, hl, hp⟩ := begins h
    exact ⟨l, List.mem_append_left _ hl, hp⟩
  · rw [isHostOnlyWrite, Bool.and_eq_true] at h
    obtain ⟨l, hl, hp⟩ := begins h.2
    exact ⟨l, List.mem_append_right _ hl, hp⟩

/-- An internal path is not host-only. -/
theorem not_hostOnly_of_internal {method : Method} (h : p.isInternalPath = true) :
    (p.isHostOnlyPath || p.isHostOnlyWrite method) = false := by
  rw [← Bool.not_eq_true]
  intro hhost
  have apart : Apart ["/internal"] (hostOnlyPrefixes ++ hostOnlyWritePrefixes) := by decide
  exact apart.not_isPrefix ⟨_, List.mem_singleton_self _, begins_of_internal h⟩
    (begins_of_hostOnly hhost)

end Path

/-- What the first escaped character leaves in force, `c` being the path up to it: every rule
that the path meets is met by what stands before, and no reserved item of a collection is
disguised as a stored one. -/
structure Unaffected (p c : Path) (method : Method) (peer : Option IpAddr) : Prop where
  api : p.startsWith "/api" = true → c.startsWith "/api" = true
  events : p.isEventsPath = true → c.strictlyUnder "/api/mcp" = true
  auth : p.isAuthPath = true → c.strictlyUnder "/api/auth" = true
  runtime : p.isRuntimePath = true →
    ["/v1", "/v1beta", "/api/v1", "/api/v1beta"].any (c.strictlyUnder ·) = true
  catalog : p.isCatalogPath = true →
    ["/api/catalog", "/api/state"].any (c.strictlyUnder ·) = true
  state : p.isStatePath = true →
    Path.stateCollections.any (fun l ↦ c.strictlyUnder l && p.isCollectionOrItem l) = true
  reserved : Path.stateCollections.any (fun l ↦ c.strictlyUnder l && p.isCollectionOrItem l) =
    true → p.isStatePath = true
  internal : p.isInternalPath = true → c.strictlyUnder "/internal" = true
  hostOnly : isLoopbackPeer peer = false → (p.isHostOnlyPath || p.isHostOnlyWrite method) = true →
    (hostOnlyRoots method).any (c.strictlyUnder ·) = true
  page : p.isPage = true → pageRoots.any (c.startsWith ·) = true
  users : p.under "/api/users" = true → c.strictlyUnder "/api/users" = true

namespace Unaffected

variable {p q c : Path} {method : Method} {peer : Option IpAddr}

/-- An unaffected path keeps its kind. -/
theorem isKind_eq (u : Unaffected p c method peer) (h : Cut p q c) (kind : RouteKind) :
    Path.isKind kind q = Path.isKind kind p := by
  rw [Bool.eq_iff_iff]
  cases kind with
  | events => exact ⟨h.isKind_of (by decide), fun hp ↦ h.events.trans (u.events hp)⟩
  | auth => exact ⟨h.isKind_of (by decide), fun hp ↦ h.auth.trans (u.auth hp)⟩
  | runtime => exact ⟨h.isKind_of (by decide), fun hp ↦ h.runtime.trans (u.runtime hp)⟩
  | catalog => exact ⟨h.isKind_of (by decide), fun hp ↦ h.catalog.trans (u.catalog hp)⟩
  | state => exact ⟨fun hq ↦ u.reserved (h.state.symm.trans hq), fun hp ↦ h.state.trans (u.state hp)⟩
  | api => rfl
  | dashboard => rfl

/-- An unaffected path keeps its classification. -/
theorem routeForPath_eq (u : Unaffected p c method peer) (h : Cut p q c) :
    q.routeForPath = p.routeForPath := by
  refine Path.routeForPath_congr (u.isKind_eq h) ?_
  rw [Bool.eq_iff_iff, h.startsWith (by decide)]
  exact ⟨h.of_startsWith, u.api⟩

/-- An unaffected path keeps its requirement. -/
theorem forRequest_eq (u : Unaffected p c method peer) (h : Cut p q c) (route : RouteKind)
    (managed : Bool) : AccessRequirement.forRequest q method route peer managed =
      AccessRequirement.forRequest p method route peer managed := by
  have hinternal : q.isInternalPath = p.isInternalPath := by
    rw [Bool.eq_iff_iff]
    exact ⟨h.internal_of, fun hp ↦ h.internal.trans (u.internal hp)⟩
  have hhost : ((q.isHostOnlyPath || q.isHostOnlyWrite method) && !isLoopbackPeer peer) =
      ((p.isHostOnlyPath || p.isHostOnlyWrite method) && !isLoopbackPeer peer) := by
    cases hpeer : isLoopbackPeer peer with
    | true => simp
    | false =>
      rw [Bool.not_false, Bool.and_true, Bool.and_true, Bool.eq_iff_iff]
      exact ⟨h.hostOnly_of, fun hp ↦ (h.hostOnly method).trans (u.hostOnly hpeer hp)⟩
  have hpublic : q.isPublicPath = p.isPublicPath := by
    rw [Bool.eq_iff_iff]
    refine ⟨h.publicPath_of, fun hp ↦ ?_⟩
    rw [h.publicPath, Bool.or_eq_true]
    rw [Path.isPublicPath_eq, Bool.or_eq_true] at hp
    exact hp.imp u.page u.auth
  have husers : q.under "/api/users" = p.under "/api/users" := by
    rw [Bool.eq_iff_iff]
    exact ⟨fun hq ↦ h.of_under (h.users.symm.trans hq), fun hp ↦ h.users.trans (u.users hp)⟩
  have hrole : q.leastRole method = p.leastRole method := by
    have e (t : Path) : (t.eqLit "/api/users" || t.startsWith "/api/users/") =
      t.under "/api/users" := rfl
    rw [Path.leastRole, Path.leastRole, e, e, husers]
  unfold AccessRequirement.forRequest
  rw [hinternal, hhost, hpublic, hrole]

end Unaffected

namespace AccessRequirement

variable {p : Path} {method : Method} {route : RouteKind} {peer : Option IpAddr} {managed : Bool}

/-- Only the two guards forbid a request. -/
theorem forRequest_eq_forbidden_iff : forRequest p method route peer managed = .forbidden ↔
    p.isInternalPath = true ∨
      ((p.isHostOnlyPath || p.isHostOnlyWrite method) && !isLoopbackPeer peer) = true := by
  unfold forRequest
  split
  · next h => simp [h]
  · next h =>
    split
    · next h' => simp [h']
    · next h' =>
      have hno : ¬ (p.isInternalPath = true ∨
          ((p.isHostOnlyPath || p.isHostOnlyWrite method) && !isLoopbackPeer peer) = true) :=
        not_or.mpr ⟨h, h'⟩
      refine iff_of_false (fun e ↦ ?_) hno
      split at e
      · cases e
      · cases route <;> cases managed <;> simp at e

/-- An admin is asked for only under `/api/users`. -/
theorem under_users_of_admin (h : forRequest p method route peer managed = .apiSession .admin) :
    p.under "/api/users" = true := by
  by_contra hno
  have hrole : p.leastRole method ≠ .admin := by
    have e : (p.eqLit "/api/users" || p.startsWith "/api/users/") = p.under "/api/users" := rfl
    unfold Path.leastRole
    rw [e, if_neg hno]
    split <;> simp
  unfold forRequest at h
  split at h
  · cases h
  · split at h
    · cases h
    · split at h
      · cases h
      · cases route <;> cases managed <;> simp_all

/-- On a route that is not open to all, only public paths are. -/
theorem isPublicPath_of_publicAccess (h : forRequest p method route peer managed = .publicAccess)
    (hroute : route = .dashboard ∨ route = .api) : p.isPublicPath = true := by
  unfold forRequest at h
  split at h
  · cases h
  · split at h
    · cases h
    · split at h
      · next hp => exact hp
      · rcases hroute with rfl | rfl <;> cases h

end AccessRequirement

section Agree

variable {p q c : Path} {method : Method} {peer : Option IpAddr} {managed : Bool}

/-- A path that begins with none of the guarded literals has no kind. -/
theorem isKind_eq_false_of_not_guarded (h : ¬ ∃ m ∈ guardedRoots, m.toList <+: p)
    (kind : RouteKind) : Path.isKind kind p = false := by
  rw [← Bool.not_eq_true]
  intro hk
  obtain ⟨l, hl, hp⟩ := Path.exists_root hk
  refine h ⟨l, List.mem_append_right _ (List.mem_flatMap.mpr ⟨kind, ?_, hl⟩), hp⟩
  cases kind <;> first | cases hk | simp

/-- A path without a kind is on the dashboard or the API route. -/
theorem route_of_no_kind (h : ∀ kind, Path.isKind kind p = false) :
    p.routeForPath = .dashboard ∨ p.routeForPath = .api := by
  by_contra hne
  push Not at hne
  have hk := Path.kind_of_routeForPath rfl ⟨hne.2, hne.1⟩
  rw [h] at hk
  cases hk

/-- A page is open on its own route. -/
theorem forRequest_of_page (h : p.isPage = true) :
    (p.routeForPath = .dashboard ∨ p.routeForPath = .api) ∧
      AccessRequirement.forRequest p method p.routeForPath peer managed = .publicAccess := by
  have hno := Path.not_guarded_of_page h
  have hinternal : p.isInternalPath = false := by
    rw [← Bool.not_eq_true]
    exact fun hi ↦ hno ⟨"/internal", by simp [guardedRoots], Path.begins_of_internal hi⟩
  have hhost : (p.isHostOnlyPath || p.isHostOnlyWrite method) = false := by
    rw [← Bool.not_eq_true]
    intro hh
    obtain ⟨l, hl, hp⟩ := Path.begins_of_hostOnly hh
    refine hno ⟨l, ?_, hp⟩
    rw [guardedRoots, List.cons_append, List.cons_append, List.cons_append, List.cons_append]
    exact List.mem_cons_of_mem _ (List.mem_cons_of_mem _ (List.mem_append_left _ hl))
  refine ⟨route_of_no_kind (isKind_eq_false_of_not_guarded hno), ?_⟩
  unfold AccessRequirement.forRequest
  rw [hinternal, hhost, Path.isPublicPath_eq, h]
  rfl

/-- Under `/api/users` an admin is asked for. -/
theorem forRequest_of_users (h : p.under "/api/users" = true) :
    AccessRequirement.forRequest p method p.routeForPath peer managed = .apiSession .admin := by
  have hbegins : ∃ l ∈ ["/api/users"], l.toList <+: p :=
    ⟨_, List.mem_singleton_self _, Path.isPrefix_of_under h⟩
  have hinternal : p.isInternalPath = false := by
    rw [← Bool.not_eq_true]
    intro hi
    have apart : Path.Apart ["/api/users"] ["/internal"] := by decide
    exact apart.not_isPrefix hbegins ⟨_, List.mem_singleton_self _, Path.begins_of_internal hi⟩
  have hhost : (p.isHostOnlyPath || p.isHostOnlyWrite method) = false := by
    rw [← Bool.not_eq_true]
    intro hh
    have apart : Path.Apart ["/api/users"] (hostOnlyPrefixes ++ hostOnlyWritePrefixes) := by decide
    exact apart.not_isPrefix hbegins (Path.begins_of_hostOnly hh)
  have hkind (kind : RouteKind) : Path.isKind kind p = false := by
    rw [← Bool.not_eq_true]
    intro hk
    have apart : ∀ k : RouteKind, Path.Apart ["/api/users"] (Path.roots k) := by
      intro k
      cases k <;> decide
    exact (apart kind).not_isPrefix hbegins (Path.exists_root hk)
  have hpublic : p.isPublicPath = false := by
    rw [Path.isPublicPath_eq, Bool.or_eq_false_iff]
    refine ⟨?_, hkind .auth⟩
    rw [← Bool.not_eq_true]
    intro hpage
    obtain ⟨l, hl, hp⟩ := hbegins
    refine Path.not_guarded_of_page hpage ⟨l, ?_, hp⟩
    rw [List.mem_singleton.mp hl]
    simp [guardedRoots]
  have hroute : p.routeForPath = .api := by
    refine (route_of_no_kind hkind).resolve_left fun e ↦ ?_
    have hapi := (Path.routeForPath_eq_dashboard_iff.mp e).1
    have : p.startsWith "/api" = true := by
      rw [Path.startsWith_iff]
      exact (List.isPrefixOf_iff_prefix.mp (by decide)).trans (Path.isPrefix_of_under h)
    rw [this] at hapi
    cases hapi
  have hrole : p.leastRole method = .admin := by
    have e : (p.eqLit "/api/users" || p.startsWith "/api/users/") = p.under "/api/users" := rfl
    rw [Path.leastRole, e, if_pos h]
  unfold AccessRequirement.forRequest
  rw [hinternal, hhost, hpublic, hroute, hrole]
  rfl

/-- Where the route and the requirement agree, nothing that a rule looks at was escaped. -/
theorem unaffected_of_agree (h : Cut p q c) (hroute : q.routeForPath = p.routeForPath)
    (hreq : AccessRequirement.forRequest q method q.routeForPath peer managed =
      AccessRequirement.forRequest p method p.routeForPath peer managed) :
    Unaffected p c method peer := by
  have hkind {kind : RouteKind} (hp : Path.isKind kind p = true) : Path.isKind kind q = true := by
    refine Path.kind_of_routeForPath (hroute.trans (Path.routeForPath_of_kind hp)) ?_
    cases kind <;> first | cases hp | simp
  have hkind' {kind : RouteKind} (hq : Path.isKind kind q = true) : Path.isKind kind p = true := by
    refine Path.kind_of_routeForPath (hroute.symm.trans (Path.routeForPath_of_kind hq)) ?_
    cases kind <;> first | cases hq | simp
  constructor
  case api =>
    intro hp
    -- `q` is no dashboard path, and the literal that gives it a kind ends before the cut
    have hq : ¬ q.routeForPath = .dashboard := by
      rw [hroute, Path.routeForPath_eq_dashboard_iff, hp]
      exact fun e ↦ absurd e.1 (by simp)
    rw [Path.routeForPath_eq_dashboard_iff, not_and_or, Bool.not_eq_false,
      h.startsWith (by decide)] at hq
    rcases hq with hq | hq
    · exact hq
    · push Not at hq
      obtain ⟨kind, hk⟩ := hq
      rw [ne_eq, Bool.not_eq_false] at hk
      obtain ⟨l, hl, hlq⟩ := Path.exists_root hk
      have hno : ∀ k : RouteKind, ∀ l ∈ Path.roots k,
          '%' ∉ l.toList ∧ l.toList.isPrefixOf "/api".toList = false := by
        intro k
        cases k <;> decide
      have hlc : c.startsWith l = true := by
        rw [← h.startsWith (hno kind l hl).1, Path.startsWith_iff]
        exact hlq
      rcases Path.comparable (Path.startsWith_iff.mp hp)
        (Path.startsWith_iff.mp (h.of_startsWith hlc)) with hpre | hpre
      · rw [Path.startsWith_iff] at hlc ⊢
        exact (List.isPrefixOf_iff_prefix.mp hpre).trans hlc
      · rw [(hno kind l hl).2] at hpre
        cases hpre
  case events => exact fun hp ↦ h.events.symm.trans (@hkind .events hp)
  case auth => exact fun hp ↦ h.auth.symm.trans (@hkind .auth hp)
  case runtime => exact fun hp ↦ h.runtime.symm.trans (@hkind .runtime hp)
  case catalog => exact fun hp ↦ h.catalog.symm.trans (@hkind .catalog hp)
  case state => exact fun hp ↦ h.state.symm.trans (@hkind .state hp)
  case reserved => exact fun hc ↦ @hkind' .state (h.state.trans hc)
  case internal =>
    intro hp
    rw [AccessRequirement.forRequest_eq_forbidden_iff.mpr (.inl hp),
      AccessRequirement.forRequest_eq_forbidden_iff] at hreq
    rcases hreq with hq | hq
    · exact h.internal.symm.trans hq
    · rw [Bool.and_eq_true] at hq
      have hhost := h.hostOnly_of hq.1
      rw [Path.not_hostOnly_of_internal hp] at hhost
      cases hhost
  case hostOnly =>
    intro hpeer hp
    have hforbidden : AccessRequirement.forRequest p method p.routeForPath peer managed =
        .forbidden :=
      AccessRequirement.forRequest_eq_forbidden_iff.mpr (.inr (by rw [hp, hpeer]; rfl))
    rw [hforbidden, AccessRequirement.forRequest_eq_forbidden_iff] at hreq
    rcases hreq with hq | hq
    · rw [Path.not_hostOnly_of_internal (h.internal_of hq)] at hp
      cases hp
    · rw [Bool.and_eq_true] at hq
      exact (h.hostOnly method).symm.trans hq.1
  case page =>
    intro hp
    obtain ⟨hpr, hpub⟩ := @forRequest_of_page _ method peer managed hp
    have hq := AccessRequirement.isPublicPath_of_publicAccess (hreq.trans hpub) (hroute ▸ hpr)
    rw [h.publicPath, Bool.or_eq_true] at hq
    refine hq.resolve_right fun hauth ↦ ?_
    have := isKind_eq_false_of_not_guarded (Path.not_guarded_of_page hp) .auth
    rw [Path.isKind, Path.isAuthPath, h.of_under hauth] at this
    cases this
  case users =>
    intro hp
    exact h.users.symm.trans
      (AccessRequirement.under_users_of_admin (hreq.trans (forRequest_of_users hp)))

end Agree

/-- The gateway classifies and guards an escaped path as the path it stands for exactly where
all that a rule looks at comes before the first escaped character. -/
theorem escaped_path_agrees_iff {p q : Path} (h : Escapes p q) (method : Method)
    (peer : Option IpAddr) (managed : Bool) :
    (q.routeForPath = p.routeForPath ∧
      AccessRequirement.forRequest q method q.routeForPath peer managed =
        AccessRequirement.forRequest p method p.routeForPath peer managed) ↔
      q = p ∨ Unaffected p (commonPrefix p q) method peer := by
  constructor
  · rintro ⟨hroute, hreq⟩
    by_cases hqp : q = p
    · exact .inl hqp
    · exact .inr (unaffected_of_agree (cut_of_escapes h hqp) hroute hreq)
  · intro hor
    by_cases hqp : q = p
    · rw [hqp]
      exact ⟨rfl, rfl⟩
    · have hu := hor.resolve_left hqp
      have hcut := cut_of_escapes h hqp
      refine ⟨hu.routeForPath_eq hcut, ?_⟩
      rw [hu.routeForPath_eq hcut]
      exact hu.forRequest_eq hcut _ managed

/-- `GET /v1/models/%67pt`, from anywhere. -/
theorem escaped_path_agrees_iff_model :
    Escapes "/v1/models/gpt".toList "/v1/models/%67pt".toList ∧
      ("/v1/models/%67pt".toList = "/v1/models/gpt".toList ∨
        Unaffected "/v1/models/gpt".toList
          (commonPrefix "/v1/models/gpt".toList "/v1/models/%67pt".toList) .get none) := by
  have hesc : Escapes "/v1/models/gpt".toList "/v1/models/%67pt".toList := by
    iterate 11 apply Escapes.keep
    apply Escapes.escape (a := 6) (b := 7) <;> first | decide | skip
    iterate 2 apply Escapes.keep
    exact .nil
  exact ⟨hesc, (escaped_path_agrees_iff hesc .get none true).mp (by decide)⟩

/-- A remote peer posts to `/api/tunnel/enable` with one letter escaped: the path itself is
refused, the escaped one only asks for an operator. -/
theorem escaped_host_only_path_is_not_refused :
    ¬ ∀ (p q : Path) (method : Method) (peer : Option IpAddr) (managed : Bool), Escapes p q →
      q.routeForPath = p.routeForPath ∧
        AccessRequirement.forRequest q method q.routeForPath peer managed =
          AccessRequirement.forRequest p method p.routeForPath peer managed := by
  intro hall
  have hesc : Escapes "/api/tunnel/enable".toList "/api/%74unnel/enable".toList := by
    iterate 5 apply Escapes.keep
    apply Escapes.escape (a := 7) (b := 4) <;> first | decide | skip
    iterate 12 apply Escapes.keep
    exact .nil
  have hpost := (hall _ _ .post (some (.v4 0x08080808)) true hesc).2
  revert hpost
  decide

/-! ## Roles -/

section Roles

variable {p : Path} {method read : Method} {peer : Option IpAddr} {managed : Bool}

/-- Whether a request is let through. -/
def Admits (p : Path) (method : Method) (peer : Option IpAddr) (managed : Bool)
    (state : AuthorizationState) : Prop :=
  (AccessRequirement.forRequest p method p.routeForPath peer managed).decision state = .allow

/-- A session of a higher role, asked for a lower one, is enough where the lower was. -/
theorem decision_session_mono {least least' role role' : PrincipalRole}
    (hleast : least'.rank ≤ least.rank) (hrole : role.rank ≤ role'.rank)
    (h : (AccessRequirement.apiSession least).decision (.authorized (some role)) = .allow) :
    (AccessRequirement.apiSession least').decision (.authorized (some role')) = .allow := by
  simp only [AccessRequirement.decision, PrincipalRole.satisfies, decide_eq_true_eq] at h ⊢
  split at h
  · exact if_pos (by omega)
  · cases h

/-- To read asks for no more than to change. -/
theorem admits_read {state : AuthorizationState} (hread : read.mutating = false)
    (h : Admits p method peer managed state) : Admits p read peer managed state := by
  have hrole : (p.leastRole read).rank ≤ (p.leastRole method).rank := by
    unfold Path.leastRole
    split
    · exact Nat.le_refl _
    · simp [hread, PrincipalRole.rank]
  unfold Admits AccessRequirement.forRequest at h ⊢
  rw [Path.isHostOnlyWrite, hread, Bool.false_and, Bool.or_false]
  split at h
  · cases h
  · next hinternal =>
    split at h
    · cases h
    · next hhost =>
      rw [if_neg hinternal, if_neg (by grind)]
      split at h
      · next hpublic =>
        rw [if_pos hpublic]
        rfl
      · next hpublic =>
        rw [if_neg hpublic]
        cases hroute : p.routeForPath <;> rw [hroute] at h <;> first | exact h | skip
        all_goals
          rcases state with (_ | role) | _ | _
          · rfl
          · exact decision_session_mono hrole (Nat.le_refl _) h
          · cases h
          · cases h

/-- Whom the gateway lets through. What a role may do, every higher role may; who may change
something may read it; who is not signed in may do only what everyone may; and the users are
managed by admins alone. -/
theorem admits_ladder (p : Path) (method : Method) (peer : Option IpAddr) (managed : Bool) :
    (∀ low high : PrincipalRole, low.rank ≤ high.rank →
        Admits p method peer managed (.authorized (some low)) →
        Admits p method peer managed (.authorized (some high))) ∧
      (∀ read state, Method.mutating read = false → Admits p method peer managed state →
        Admits p read peer managed state) ∧
      (Admits p method peer managed .denied → ∀ state, Admits p method peer managed state) ∧
      (p.under "/api/users" = true → ∀ state, Admits p method peer managed state →
        state = .authorized none ∨ state = .authorized (some .admin)) := by
  refine ⟨fun low high hle h ↦ ?_, fun read state hread h ↦ admits_read hread h, fun h state ↦ ?_,
    fun husers state h ↦ ?_⟩
  · unfold Admits at h ⊢
    cases hreq : AccessRequirement.forRequest p method p.routeForPath peer managed with
    | apiSession least =>
      rw [hreq] at h
      exact decision_session_mono (Nat.le_refl _) hle h
    | _ =>
      rw [hreq] at h
      exact h
  · unfold Admits at h ⊢
    cases hreq : AccessRequirement.forRequest p method p.routeForPath peer managed with
    | publicAccess => rfl
    | _ =>
      rw [hreq] at h
      cases h
  · rw [Admits, forRequest_of_users husers] at h
    rcases state with (_ | _ | _ | _) | _ | _
    case authorized.none => exact .inl rfl
    case authorized.some.admin => exact .inr rfl
    all_goals cases h

end Roles
end NullRouter.Gateway
