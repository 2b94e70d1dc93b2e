import Mathlib.Data.List.Dedup
import NullRouter.Base.Text
import NullRouter.Gateway.Policy

/-!
# Identity headers

What the gateway tells the services of a caller's address, `stamp_trusted_identity_headers` of
`services/gateway-pingora/src/policy.rs:280`. A header map keeps its names in lower case, each with
as many values as came in.
-/

namespace NullRouter.Gateway

open NullRouter.Base

/-- `HeaderName`: a name in lower case. -/
structure HeaderName where
  text : List Char
  lower : text.map Char.toLower = text

namespace HeaderName

instance : DecidableEq HeaderName := fun first second ↦
  decidable_of_iff (first.text = second.text) (by cases first; cases second; simp)

/-- The name that a spelling stands for. -/
def ofText (text : List Char) : HeaderName where
  text := text.map Char.toLower
  lower := by
    rw [List.map_map]
    apply List.map_congr_left
    intro c _
    exact toLower_toLower c

/-- `TRUSTED_REAL_IP_HEADER`, `policy.rs:10`. -/
def trustedRealIp : HeaderName := ofText "x-9r-real-ip".toList

/-- `TRUSTED_PROXY_HEADER`, `policy.rs:11`. -/
def trustedProxy : HeaderName := ofText "x-9r-via-proxy".toList

/-- The names that tell of a caller's address, `policy.rs:287`. -/
def spoofable (name : HeaderName) : Bool :=
  name.text == "forwarded".toList || name.text == "x-real-ip".toList ||
    "x-forwarded-".toList.isPrefixOf name.text || name == trustedRealIp || name == trustedProxy

/-- The names that the services and their framework read, in the spellings of their authors. -/
example : ["Forwarded", "X-Forwarded-For", "X-Forwarded-Host", "X-Forwarded-Proto", "X-Real-IP",
    "x-9r-real-ip", "X-9R-Via-Proxy"].all (fun name ↦ (ofText name.toList).spoofable) = true := by
  decide +kernel

end HeaderName

/-- A header map: each value with its name. -/
abbrev HeaderMap (Value : Type) := List (HeaderName × Value)

namespace HeaderMap

variable {Value : Type}

/-- The map of the header lines that came in, in any spelling. -/
def received (lines : List (List Char × Value)) : HeaderMap Value :=
  lines.map fun line ↦ (.ofText line.1, line.2)

/-- `HeaderMap::keys`. -/
def keys (headers : HeaderMap Value) : List HeaderName := (headers.map Prod.fst).dedup

/-- `remove_header`: every value of a name. -/
def remove (headers : HeaderMap Value) (name : HeaderName) : HeaderMap Value :=
  headers.filter (·.1 != name)

/-- `insert_header`: the one value of a name. -/
def insert (headers : HeaderMap Value) (name : HeaderName) (value : Value) : HeaderMap Value :=
  headers.remove name ++ [(name, value)]

/-- `stamp_trusted_identity_headers`, `policy.rs:280`. `display` writes an address. -/
def stampTrustedIdentityHeaders (display : IpAddr → Value) (headers : HeaderMap Value)
    (peer : IpAddr) : HeaderMap Value :=
  ((headers.keys.filter HeaderName.spoofable).foldl remove headers).insert
    HeaderName.trustedRealIp (display peer)

/-- The headers that tell of a caller's address. -/
def identity (headers : HeaderMap Value) : HeaderMap Value := headers.filter (·.1.spoofable)

theorem foldl_remove (names : List HeaderName) (headers : HeaderMap Value) :
    names.foldl remove headers = headers.filter (·.1 ∉ names) := by
  induction names generalizing headers with
  | nil => simp
  | cons name names ih =>
    rw [List.foldl_cons, ih, remove, List.filter_filter]
    apply List.filter_congr
    intro header _
    by_cases h : header.1 = name <;> simp [h]

/-- What is removed is all that could tell of an address. -/
theorem removed (headers : HeaderMap Value) :
    (headers.keys.filter HeaderName.spoofable).foldl remove headers =
      headers.filter (!·.1.spoofable) := by
  rw [foldl_remove]
  apply List.filter_congr
  intro header hheader
  have hkey : header.1 ∈ headers.keys := List.mem_dedup.mpr (List.mem_map_of_mem hheader)
  simp [List.mem_filter, hkey]

private theorem spoofable_trustedRealIp : HeaderName.trustedRealIp.spoofable = true := by
  decide +kernel

/-- What is left of the names of an address is what the gateway put there. -/
theorem identity_stamped (display : IpAddr → Value) (headers : HeaderMap Value)
    (peer : IpAddr) : (headers.stampTrustedIdentityHeaders display peer).identity =
      [(HeaderName.trustedRealIp, display peer)] := by
  rw [identity, stampTrustedIdentityHeaders, removed, insert, remove, List.filter_append,
    List.filter_filter, List.filter_filter]
  have hnone : headers.filter (fun header ↦ header.1.spoofable &&
      header.1 != HeaderName.trustedRealIp && !header.1.spoofable) = [] := by
    apply List.filter_eq_nil_iff.mpr
    intro header _
    cases header.1.spoofable <;> simp
  have hone : [(HeaderName.trustedRealIp, display peer)].filter (·.1.spoofable) =
      [(HeaderName.trustedRealIp, display peer)] :=
    List.filter_cons_of_pos spoofable_trustedRealIp
  rw [hnone, hone, List.nil_append]

/-- Whatever two callers of one address send, in any spelling and number, what the services read
of the address is the same. -/
theorem identity_stamped_eq (display : IpAddr → Value) (peer : IpAddr)
    (first second : List (List Char × Value)) :
    ((received first).stampTrustedIdentityHeaders display peer).identity =
      ((received second).stampTrustedIdentityHeaders display peer).identity := by
  rw [identity_stamped, identity_stamped]

end HeaderMap
end NullRouter.Gateway
