import Mathlib.Algebra.Order.Ring.Int
import Mathlib.Data.List.Basic

/-!
# Route classification of the gateway

`services/gateway-pingora/src/routing.rs`, on the path of the request line as it came: nothing
is decoded before it is classified. A path is its list of characters.
-/

namespace NullRouter.Gateway

/-- The path of a request line. -/
abbrev Path := List Char

/-- `RouteKind`. -/
inductive RouteKind where
  | runtime
  | dashboard
  | api
  | events
  | auth
  | catalog
  | state
  deriving DecidableEq

namespace Path

/-- `path == literal`. -/
def eqLit (p : Path) (literal : String) : Bool := p == literal.toList

/-- `path.starts_with(literal)`. -/
def startsWith (p : Path) (literal : String) : Bool := literal.toList.isPrefixOf p

/-- `path == root || path.starts_with("{root}/")`. -/
def under (p : Path) (root : String) : Bool := p.eqLit root || p.startsWith (root ++ "/")

/-- What follows a collection and one slash. -/
def itemOf (p : Path) (collection : String) : Option (List Char) :=
  (collection ++ "/").toList.isPrefixOf? p

/-- `is_auth_path`, `routing.rs:38`. -/
def isAuthPath (p : Path) : Bool := p.under "/api/auth"

/-- `is_events_path`, `routing.rs:42`. -/
def isEventsPath (p : Path) : Bool :=
  p.eqLit "/api/usage/stream" || p.eqLit "/api/translator/console-logs/stream" ||
    p.under "/api/mcp"

/-- `is_runtime_path`, `routing.rs:49`. -/
def isRuntimePath (p : Path) : Bool :=
  p.under "/v1" || p.under "/v1beta" || p.under "/api/v1" || p.under "/api/v1beta"

/-- `is_catalog_path`, `routing.rs:60`. -/
def isCatalogPath (p : Path) : Bool := p.under "/api/catalog" || p.under "/api/state"

/-- `is_collection_or_item`, `routing.rs:108`. -/
def isCollectionOrItem (p : Path) (collection : String) : Bool :=
  p.eqLit collection ||
    (p.itemOf collection).any fun tail ↦ !tail.isEmpty && !tail.contains '/'

/-- `is_collection_or_item_except`, `routing.rs:121`. -/
def isCollectionOrItemExcept (p : Path) (collection : String) (reserved : List String) : Bool :=
  p.eqLit collection ||
    (p.itemOf collection).any fun tail ↦
      !tail.isEmpty && !tail.contains '/' && !reserved.any (·.toList == tail)

/-- The items of `/api/providers` that are not stored records, `routing.rs:73`. -/
def reservedProviders : List String :=
  ["client", "suggested-models", "validate", "test-batch", "kilo"]

/-- The items of `/api/proxy-pools` that are not stored records, `routing.rs:85`. -/
def reservedProxyPools : List String := ["cloudflare-deploy", "deno-deploy", "vercel-deploy"]

/-- `is_model_settings_path`, `routing.rs:97`. -/
def isModelSettingsPath (p : Path) : Bool :=
  p.eqLit "/api/models/disabled" || p.eqLit "/api/models/custom" || p.eqLit "/api/models/alias"

/-- `is_state_path`, `routing.rs:67`. -/
def isStatePath (p : Path) : Bool :=
  p.isCollectionOrItem "/api/keys" || p.isCollectionOrItem "/api/provider-nodes" ||
    p.isCollectionOrItemExcept "/api/providers" reservedProviders ||
    p.isCollectionOrItem "/api/combos" ||
    p.isCollectionOrItemExcept "/api/proxy-pools" reservedProxyPools ||
    p.eqLit "/api/settings" || p.isModelSettingsPath

/-- `route_for_path`, `routing.rs:4`. -/
def routeForPath (p : Path) : RouteKind :=
  if p.startsWith "/v1/" || p.eqLit "/v1" || p.startsWith "/v1beta/" || p.eqLit "/v1beta" then
    .runtime
  else
    match "/api".toList.isPrefixOf? p with
    | none => .dashboard
    | some [] => .api
    | some _ =>
      if p.isEventsPath then .events
      else if p.isAuthPath then .auth
      else if p.isRuntimePath then .runtime
      else if p.isCatalogPath then .catalog
      else if p.isStatePath then .state
      else .api

end Path
end NullRouter.Gateway

/-!
## Access policy of the gateway

The access requirement of a request, `services/gateway-pingora/src/policy.rs`: the ordered
tests on the raw path, the method and the peer, and the decision they lead to.
-/

namespace NullRouter.Gateway

/-- `HOST_ONLY_PREFIXES`, `policy.rs:13`. -/
def hostOnlyPrefixes : List String :=
  ["/api/cli-tools/cowork-settings", "/api/cli-tools/antigravity-mitm", "/api/mcp",
    "/api/tunnel/tailscale-install", "/api/tunnel/tailscale-enable",
    "/api/tunnel/tailscale-disable", "/api/tunnel/tailscale-check", "/api/tunnel/enable",
    "/api/tunnel/disable", "/api/tunnel", "/api/oauth/cursor/auto-import",
    "/api/oauth/kiro/auto-import", "/api/auth/reset-password", "/api/headroom/start",
    "/api/headroom/stop", "/api/headroom/restart", "/api/headroom/proxy", "/api/pxpipe/install",
    "/api/pxpipe/start"]

/-- `HOST_ONLY_WRITE_PREFIXES`, `policy.rs:71`. -/
def hostOnlyWritePrefixes : List String := ["/api/cli-tools", "/api/headroom/extras"]

/-- `http::Method`. -/
inductive Method where
  | get
  | head
  | options
  | post
  | put
  | delete
  | patch
  | connect
  | trace
  | extension (name : String)
  deriving DecidableEq

/-- `IpAddr`. -/
inductive IpAddr where
  | v4 (bits : BitVec 32)
  | v6 (bits : BitVec 128)
  deriving DecidableEq

/-- `IpAddr::is_loopback`: 127.0.0.0/8 and ::1. -/
def IpAddr.isLoopback : IpAddr → Bool
  | .v4 bits => bits.toNat / 2 ^ 24 == 127
  | .v6 bits => bits == 1

/-- `PrincipalRole`, `policy.rs:86`. -/
inductive PrincipalRole where
  | viewer
  | operator
  | admin
  deriving DecidableEq

namespace PrincipalRole

/-- `PrincipalRole::rank`, `policy.rs:123`. -/
def rank : PrincipalRole → Nat
  | .viewer => 0
  | .operator => 1
  | .admin => 2

/-- `PrincipalRole::satisfies`, `policy.rs:132`. -/
def satisfies (role needed : PrincipalRole) : Bool := needed.rank ≤ role.rank

end PrincipalRole

/-- `AccessRequirement`, `policy.rs:138`. -/
inductive AccessRequirement where
  | publicAccess
  | dashboardSession
  | apiSession (least : PrincipalRole)
  | runtimeApiKey
  | forbidden
  deriving DecidableEq

/-- `AuthorizationState`, `policy.rs:150`. -/
inductive AuthorizationState where
  | authorized (role : Option PrincipalRole)
  | denied
  | unavailable
  deriving DecidableEq

/-- `AccessDecision`, `policy.rs:163`. -/
inductive AccessDecision where
  | allow
  | redirectToLogin
  | unauthorized
  | forbidden
  deriving DecidableEq

/-- Methods that change something; a preflight counts as a read. -/
def Method.mutating : Method → Bool
  | .get | .head | .options => false
  | _ => true

namespace Path

/-- `is_public_path`, `policy.rs:307`. -/
def isPublicPath (p : Path) : Bool :=
  p.eqLit "/" || p.eqLit "/login" || p.eqLit "/landing" || p.eqLit "/callback" ||
    p.eqLit "/favicon.svg" || p.startsWith "/pkg/" || p.startsWith "/providers/" ||
    p.startsWith "/assets/" || p.eqLit "/api/health" || p.eqLit "/api/auth" ||
    p.startsWith "/api/auth/"

/-- `is_internal_path`, `policy.rs:341`. -/
def isInternalPath (p : Path) : Bool := p.eqLit "/internal" || p.startsWith "/internal/"

/-- `matches_prefix`, `policy.rs:359`. -/
def matchesPrefix (prefixes : List String) (p : Path) : Bool := prefixes.any (p.under ·)

/-- `is_host_only_path`, `policy.rs:345`. -/
def isHostOnlyPath (p : Path) : Bool := matchesPrefix hostOnlyPrefixes p

/-- `is_host_only_write`, `policy.rs:354`. -/
def isHostOnlyWrite (p : Path) (method : Method) : Bool :=
  method.mutating && matchesPrefix hostOnlyWritePrefixes p

/-- `least_role`, `policy.rs:329`. -/
def leastRole (p : Path) (method : Method) : PrincipalRole :=
  if p.eqLit "/api/users" || p.startsWith "/api/users/" then .admin
  else if method.mutating then .operator
  else .viewer

end Path

/-- `is_loopback_peer`, `policy.rs:365`. -/
def isLoopbackPeer (peer : Option IpAddr) : Bool := peer.any IpAddr.isLoopback

namespace AccessRequirement

/-- `AccessRequirement::for_request`, `policy.rs:171`. -/
def forRequest (p : Path) (method : Method) (route : RouteKind) (peer : Option IpAddr)
    (managedApiKeysRequired : Bool) : AccessRequirement :=
  if p.isInternalPath then .forbidden
  else if (p.isHostOnlyPath || p.isHostOnlyWrite method) && !isLoopbackPeer peer then .forbidden
  else if p.isPublicPath then .publicAccess
  else match route with
    | .runtime => if managedApiKeysRequired then .runtimeApiKey else .publicAccess
    | .auth => .publicAccess
    | .dashboard => .dashboardSession
    | .api | .catalog | .events | .state => .apiSession (p.leastRole method)

/-- `AccessRequirement::decision`, `policy.rs:202`. -/
def decision : AccessRequirement → AuthorizationState → AccessDecision
  | .publicAccess, _ => .allow
  | .forbidden, _ => .forbidden
  | .dashboardSession, .authorized _ => .allow
  | .dashboardSession, _ => .redirectToLogin
  | .runtimeApiKey, .authorized _ => .allow
  | .runtimeApiKey, _ => .unauthorized
  | .apiSession _, .authorized none => .allow
  | .apiSession least, .authorized (some role) =>
    if role.satisfies least then .allow else .forbidden
  | .apiSession _, _ => .unauthorized

end AccessRequirement
end NullRouter.Gateway
