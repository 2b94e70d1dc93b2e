import NullRouter.Runtime.Executor

/-!
# Endpoints and retries of a provider

The URLs a request to a provider may go to, `build_url` and `fallback_count` of
`crates/execute/src/credentials.rs:96–253`, and the retries of each status,
`resolve_retry_entry`, `crates/execute/src/executor.rs:642`. The tables of the registry and the
order in which one provider's endpoints are tried are parameters.
-/

namespace NullRouter.Runtime

open NullRouter.Base

/-- `RetryEntry`, `crates/providers/src/registry.rs:297`. -/
inductive RetryEntry where
  | attempts (count : UInt32)
  | detailed (count : UInt32) (delayMs : Option Nat)
  deriving DecidableEq

namespace RetryEntry

/-- `RetryEntry::attempts`. -/
def attemptsOf : RetryEntry → UInt32
  | .attempts count | .detailed count _ => count

end RetryEntry

/-- `Transport`, `registry.rs:155`, as far as endpoints and retries depend on it. -/
structure Transport where
  baseUrl : Option String
  baseUrls : Option (List String)
  urlSuffix : Option String
  retry : Std.ExtTreeMap String RetryEntry
  regions : Option (Std.ExtTreeMap String String)
  defaultRegion : Option String

/-- `Transport::urls`: the list wins over the single URL, unless it is empty. -/
def Transport.urls (transport : Transport) : List String :=
  match transport.baseUrls with
  | some (url :: rest) => url :: rest
  | _ => transport.baseUrl.toList

/-- `Credentials`, as far as endpoints depend on them: the trimmed text settings of the
connection, and the format it is addressed in when that is not the provider's own. -/
structure EndpointCredentials where
  setting : String → Option String
  runtimeFormat : Option String

/-- The tables of the provider registry that endpoints are read from. -/
structure TransportTables where
  /-- `registry::transport`. -/
  transport : String → Option Transport
  /-- `resolve_transport`: the transport of a provider for a format. -/
  resolveTransport : String → String → Option Transport
  /-- `bespoke::ordered_urls`. -/
  orderedUrls : String → EndpointCredentials → List String → Option (List String)
  /-- `bespoke::advances_on_status`. -/
  advancesOnStatus : String → Nat → Bool

/-- `str::trim_end_matches('/')`. -/
def trimEndSlashes (url : String) : String :=
  String.ofList (url.toList.reverse.dropWhile (· = '/')).reverse

/-- `region_endpoint_suffix`, `credentials.rs:233`. -/
def regionEndpointSuffix (transport : Transport) (regions : Std.ExtTreeMap String String) :
    String :=
  let derived := (transport.defaultRegion.bind (regions[·]?)).bind fun base ↦
    stripPrefix? (trimEndSlashes base) (transport.baseUrl.getD "")
  match derived.filter (stripPrefix? "/" · |>.isSome) with
  | some suffix => suffix
  | none => transport.urlSuffix.getD ""

namespace TransportTables

variable (tables : TransportTables)

/-- `runtime_transport_url`, `credentials.rs:193`. -/
def runtimeTransportUrl (provider : String) (transport : Transport)
    (credentials : EndpointCredentials) : Option String :=
  match transport.baseUrl with
  | some base => some (base ++ transport.urlSuffix.getD "")
  | none => do
    let primary ← tables.transport provider
    let regions ← primary.regions
    let region ← (credentials.setting "region").or primary.defaultRegion
    let base := trimEndSlashes (← regions[region]?)
    let format ← credentials.runtimeFormat
    if format = "claude" then
      some ((stripSuffix? "/v1" base).getD base ++ "/anthropic/v1/messages")
    else some (base ++ regionEndpointSuffix primary regions)

/-- The URL of a provider whose endpoint does not come from its list of URLs: a compatible
family, a local Ollama, or a transport in the client's own format. -/
def fixedUrl (provider : String) (credentials : EndpointCredentials) : Option String :=
  let baseUrl := credentials.setting "baseUrl"
  if (stripPrefix? "openai-compatible-" provider).isSome then
    some (trimEndSlashes (baseUrl.getD "https://api.openai.com/v1") ++
      if containsText provider.toList "responses".toList then "/responses"
      else "/chat/completions")
  else if (stripPrefix? "anthropic-compatible-" provider).isSome then
    some (trimEndSlashes (baseUrl.getD "https://api.anthropic.com/v1") ++ "/messages")
  else if provider = "ollama-local" then
    some (trimEndSlashes (baseUrl.getD "http://localhost:11434") ++ "/api/chat")
  else
    (credentials.runtimeFormat.bind (tables.resolveTransport provider)).bind fun transport ↦
      tables.runtimeTransportUrl provider transport credentials

/-- `build_url`, `credentials.rs:96`. -/
def buildUrl (provider : String) (credentials : EndpointCredentials) (urlIndex : Nat) :
    Option String :=
  match tables.fixedUrl provider credentials with
  | some url => some url
  | none => do
    let transport ← tables.transport provider
    match tables.orderedUrls provider credentials transport.urls with
    | some ordered => ordered[urlIndex]?.or ordered.head?
    | none =>
      let base ← transport.urls[urlIndex]?.or transport.urls.head?
      let region := (credentials.setting "region").or transport.defaultRegion
      match transport.regions.bind fun regions ↦
          (region.bind (regions[·]?)).map fun url ↦
            trimEndSlashes url ++ regionEndpointSuffix transport regions with
      | some url => some url
      | none => some (base ++ transport.urlSuffix.getD "")

/-- `fallback_count`, `credentials.rs:248`. -/
def fallbackCount (provider : String) : Nat :=
  (((tables.transport provider).map (·.urls.length)).filter (0 < ·)).getD 1

/-- `resolve_retry_entry`, `executor.rs:642`, without the delay. -/
def resolveRetryEntry (provider : String) (status : Nat) : Option UInt32 :=
  match (tables.transport provider).bind (·.retry[toString status]?) with
  | some entry => some entry.attemptsOf
  | none => defaultRetryConfig.lookup status

/-- The attempts that are configured for a provider: by its own entries, and by the entries of
the default policy that they do not replace. -/
def configuredAttempts (provider : String) : List UInt32 :=
  let retry := ((tables.transport provider).map (·.retry)).getD ∅
  retry.toList.map (·.2.attemptsOf) ++
    (defaultRetryConfig.filter fun rule ↦ !retry.contains (toString rule.1)).map (·.2)

/-- The largest number of attempts configured for a provider. -/
def maxAttempts (provider : String) : Nat :=
  (tables.configuredAttempts provider).foldr (fun attempts most ↦ max attempts.toNat most) 0

variable {tables}

/-- There is always a URL to try. -/
theorem fallbackCount_pos (provider : String) : 0 < tables.fallbackCount provider := by
  unfold fallbackCount
  cases h : ((tables.transport provider).map (·.urls.length)).filter (0 < ·) with
  | none => exact Nat.one_pos
  | some count => simpa using (Option.filter_eq_some_iff.mp h).2

private theorem isSome_or_head? (urls : List String) (urlIndex : Nat) :
    (urls[urlIndex]?.or urls.head?).isSome = !urls.isEmpty := by
  cases urls with
  | nil => rfl
  | cons url rest => cases h : (url :: rest)[urlIndex]? <;> rfl

/-- Whether a provider has an endpoint does not depend on the index. -/
theorem isSome_buildUrl (provider : String) (credentials : EndpointCredentials) (i j : Nat) :
    (tables.buildUrl provider credentials i).isSome =
      (tables.buildUrl provider credentials j).isSome := by
  unfold buildUrl
  cases tables.fixedUrl provider credentials with
  | some url => rfl
  | none =>
    cases tables.transport provider with
    | none => rfl
    | some transport =>
      dsimp only [Option.bind_eq_bind, Option.bind_some]
      cases tables.orderedUrls provider credentials transport.urls with
      | some ordered => exact (isSome_or_head? ordered i).trans (isSome_or_head? ordered j).symm
      | none =>
        have hsame := (isSome_or_head? transport.urls i).trans (isSome_or_head? transport.urls j).symm
        revert hsame
        cases transport.urls[i]?.or transport.urls.head? <;>
          cases transport.urls[j]?.or transport.urls.head? <;> intro hsame
        · rfl
        · cases hsame
        · cases hsame
        · dsimp only [Option.bind_some]
          split <;> rfl

private theorem le_foldr_max {attempts : UInt32} {all : List UInt32} (h : attempts ∈ all) :
    attempts.toNat ≤ all.foldr (fun attempts most ↦ max attempts.toNat most) 0 := by
  induction all with
  | nil => cases h
  | cons first rest ih =>
    rw [List.foldr_cons]
    rcases List.mem_cons.mp h with rfl | hrest
    · exact Nat.le_max_left _ _
    · exact (ih hrest).trans (Nat.le_max_right _ _)

/-- No status has more attempts than the largest number that is configured. -/
theorem le_maxAttempts {provider : String} {status : Nat} {attempts : UInt32}
    (h : tables.resolveRetryEntry provider status = some attempts) :
    attempts.toNat ≤ tables.maxAttempts provider := by
  refine le_foldr_max ?_
  unfold resolveRetryEntry at h
  unfold configuredAttempts
  rw [List.mem_append]
  split at h
  next entry hentry =>
    left
    obtain ⟨transport, htransport, hretry⟩ := Option.bind_eq_some_iff.mp hentry
    rw [htransport]
    exact List.mem_map.mpr ⟨(toString status, entry),
      Std.ExtTreeMap.mem_toList_iff_getElem?_eq_some.mpr hretry, Option.some.inj h⟩
  next hnone =>
    right
    refine List.mem_map.mpr ⟨(status, attempts), List.mem_filter.mpr ⟨?_, ?_⟩, rfl⟩
    · obtain ⟨before, rest, hall, -⟩ := List.lookup_eq_some_iff.mp h
      rw [hall]
      exact List.mem_append_right _ List.mem_cons_self
    · cases htransport : tables.transport provider with
      | none => rfl
      | some transport =>
        rw [htransport, Option.bind_some] at hnone
        show (!transport.retry.contains (toString status)) = true
        rw [Std.ExtTreeMap.contains_eq_isSome_getElem?, hnone]
        rfl

end TransportTables

end NullRouter.Runtime
