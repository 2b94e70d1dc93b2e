import Mathlib.Data.List.Induction
import NullRouter.Base.Keyed
import NullRouter.Base.Windows
import NullRouter.State.Snapshot

/-!
# Tables of the usage log

The totals and the tables of `aggregate`, `services/state-actix/src/internal/usage_query.rs:335`:
records are grouped by texts that are joined of their fields. What `aggregate` shows of the last
minutes and of the newest records is left out.
-/

namespace NullRouter.State

open NullRouter.Base

/-- `ProviderTotals`, `usage_query.rs:115`. -/
@[ext]
structure ProviderTotals where
  requests : Nat := 0
  promptTokens : Nat := 0
  completionTokens : Nat := 0
  cachedTokens : Nat := 0
  errors : Nat := 0
  lastUsed : Nat := 0
  deriving DecidableEq

namespace ProviderTotals

/-- `add`, `usage_query.rs:125`. -/
def add (totals : ProviderTotals) (record : UsageRecord) : ProviderTotals where
  requests := satAdd64 totals.requests 1
  promptTokens := satAdd64 totals.promptTokens record.promptTokens
  completionTokens := satAdd64 totals.completionTokens record.completionTokens
  cachedTokens := satAdd64 totals.cachedTokens record.cachedTokens
  errors := if record.status ≠ "success" then satAdd64 totals.errors 1 else totals.errors
  lastUsed := max totals.lastUsed record.timestamp

/-- Totals of two lots of records together. -/
def combine (a b : ProviderTotals) : ProviderTotals where
  requests := satAdd64 a.requests b.requests
  promptTokens := satAdd64 a.promptTokens b.promptTokens
  completionTokens := satAdd64 a.completionTokens b.completionTokens
  cachedTokens := satAdd64 a.cachedTokens b.cachedTokens
  errors := satAdd64 a.errors b.errors
  lastUsed := max a.lastUsed b.lastUsed

end ProviderTotals

/-- `DisplayNames`, `usage_query.rs:271`. -/
structure DisplayNames where
  providers : Std.ExtTreeMap String String := ∅
  connections : Std.ExtTreeMap String String := ∅
  apiKeys : Std.ExtTreeMap String String := ∅

/-- `Bucket`, `usage_query.rs:282`. -/
structure Bucket where
  totals : ProviderTotals := {}
  labels : List (String × Json) := []

/-- A record added to a row. -/
def Bucket.add (bucket : Bucket) (record : UsageRecord) : Bucket :=
  { bucket with totals := bucket.totals.add record }

/-! ## The tables -/

/-- Rows by a key, each with the labels of its first record. -/
def groupBy (key : UsageRecord → Option String) (labels : UsageRecord → List (String × Json))
    (records : List UsageRecord) : Std.ExtTreeMap String Bucket :=
  tally key (fun record ↦ { labels := labels record }) Bucket.add records

/-- `provider_label`, `usage_query.rs:367`. -/
def providerLabel (names : DisplayNames) (id : String) : String := names.providers[id]?.getD id

/-- `short_id`, `usage_query.rs:499`. -/
def shortId (id : String) : String := String.ofList (id.toList.take 8)

/-- The key of a row of `byModel`. -/
def modelKey (record : UsageRecord) : String := record.model ++ " (" ++ record.provider ++ ")"

/-- The name of an account, `usage_query.rs:420`. -/
def accountName (names : DisplayNames) (connectionId : String) : String :=
  names.connections[connectionId]?.getD ("Account " ++ shortId connectionId)

/-- The key of a row of `byAccount`. -/
def accountKey (names : DisplayNames) (record : UsageRecord) : Option String :=
  record.connectionId.map fun id ↦
    record.model ++ " (" ++ record.provider ++ " - " ++ accountName names id ++ ")"

/-- The key of a row of `byApiKey`. -/
def apiKeyKey (record : UsageRecord) : String :=
  record.apiKeyId.elim "local-no-key" fun id ↦ id ++ "|" ++ record.model ++ "|" ++ record.provider

/-- The key of a row of `byEndpoint`. -/
def endpointKey (record : UsageRecord) : String :=
  record.endpoint.getD "Unknown" ++ "|" ++ record.model ++ "|" ++ record.provider

/-- `group_by_provider`, `usage_query.rs:376`. -/
def groupByProvider (records : List UsageRecord) : Std.ExtTreeMap String Bucket :=
  groupBy (some ·.provider) (fun _ ↦ []) records

/-- `group_by_model`, `usage_query.rs:389`. -/
def groupByModel (records : List UsageRecord) (names : DisplayNames) :
    Std.ExtTreeMap String Bucket :=
  groupBy (fun record ↦ some (modelKey record)) (fun record ↦ [("rawModel", .str record.model),
    ("provider", .str (providerLabel names record.provider))]) records

/-- `group_by_account`, `usage_query.rs:410`. -/
def groupByAccount (records : List UsageRecord) (names : DisplayNames) :
    Std.ExtTreeMap String Bucket :=
  groupBy (accountKey names) (fun record ↦ [("rawModel", .str record.model),
    ("provider", .str (providerLabel names record.provider)),
    ("connectionId", .str (record.connectionId.getD "")),
    ("accountName", .str (accountName names (record.connectionId.getD "")))]) records

/-- `group_by_api_key`, `usage_query.rs:444`. -/
def groupByApiKey (records : List UsageRecord) (names : DisplayNames) :
    Std.ExtTreeMap String Bucket :=
  groupBy (fun record ↦ some (apiKeyKey record)) (fun record ↦ [("rawModel", .str record.model),
    ("provider", .str (providerLabel names record.provider)), ("apiKeyMasked", .null),
    ("keyName", .str (record.apiKeyId.elim "Local (No API Key)" fun id ↦
      names.apiKeys[id]?.getD (shortId id))),
    ("apiKeyKey", .str (apiKeyKey record))]) records

/-- `group_by_endpoint`, `usage_query.rs:477`. -/
def groupByEndpoint (records : List UsageRecord) (names : DisplayNames) :
    Std.ExtTreeMap String Bucket :=
  groupBy (fun record ↦ some (endpointKey record)) (fun record ↦
    [("endpoint", .str (record.endpoint.getD "Unknown")), ("rawModel", .str record.model),
      ("provider", .str (providerLabel names record.provider))]) records

/-- The totals and the tables. -/
structure UsageTables where
  totals : ProviderTotals
  byProvider : Std.ExtTreeMap String Bucket
  byModel : Std.ExtTreeMap String Bucket
  byAccount : Std.ExtTreeMap String Bucket
  byApiKey : Std.ExtTreeMap String Bucket
  byEndpoint : Std.ExtTreeMap String Bucket

/-- The totals of some records. -/
def totalsOf (records : List UsageRecord) : ProviderTotals := records.foldl .add {}

/-- `aggregate`, `usage_query.rs:335`. -/
def aggregate (records : List UsageRecord) (names : DisplayNames) : UsageTables where
  totals := totalsOf records
  byProvider := groupByProvider records
  byModel := groupByModel records names
  byAccount := groupByAccount records names
  byApiKey := groupByApiKey records names
  byEndpoint := groupByEndpoint records names

/-! ## The arithmetic of totals -/

namespace ProviderTotals

variable {a b c : ProviderTotals} {records more : List UsageRecord}

private theorem totalsOf_append_singleton (records : List UsageRecord) (record : UsageRecord) :
    totalsOf (records ++ [record]) = (totalsOf records).add record := by
  rw [totalsOf, List.foldl_append]
  rfl

/-- The totals of some records, as sums that saturate. -/
theorem totalsOf_eq (records : List UsageRecord) : totalsOf records =
    { requests := min records.length u64Max
      promptTokens := min (records.map (·.promptTokens)).sum u64Max
      completionTokens := min (records.map (·.completionTokens)).sum u64Max
      cachedTokens := min (records.map (·.cachedTokens)).sum u64Max
      errors := min (records.countP (·.status ≠ "success")) u64Max
      lastUsed := (records.map (·.timestamp)).foldl max 0 } := by
  induction records using List.reverseRecOn with
  | nil => rfl
  | append_singleton records record ih =>
    have hadd (sum value : Nat) : satAdd64 (min sum u64Max) value = min (sum + value) u64Max := by
      rw [satAdd64]
      omega
    rw [totalsOf_append_singleton, ih, add]
    simp only [List.map_append, List.map_singleton, List.sum_append, List.sum_singleton,
      List.length_append, List.length_singleton, List.countP_append, List.countP_singleton, hadd,
      List.foldl_append, List.foldl_cons, List.foldl_nil]
    congr 1
    split <;> simp_all

private theorem foldl_max (values : List Nat) (first : Nat) :
    values.foldl max first = max first (values.foldl max 0) := by
  induction values generalizing first with
  | nil => exact (Nat.max_eq_left (Nat.zero_le first)).symm
  | cons value values ih =>
    rw [List.foldl_cons, List.foldl_cons, ih, ih (max 0 value)]
    omega

/-- The totals of two lots of records are combined to those of both. -/
theorem combine_totalsOf (records more : List UsageRecord) :
    (totalsOf records).combine (totalsOf more) = totalsOf (records ++ more) := by
  have hadd (a b : Nat) : satAdd64 (min a u64Max) (min b u64Max) = min (a + b) u64Max := by
    rw [satAdd64]
    omega
  rw [totalsOf_eq, totalsOf_eq, totalsOf_eq, combine]
  simp only [hadd, List.map_append, List.sum_append, List.length_append, List.countP_append,
    List.foldl_append]
  rw [foldl_max _ ((records.map (·.timestamp)).foldl max 0)]

/-- Totals do not depend on the order of the records. -/
theorem totalsOf_perm (h : records.Perm more) : totalsOf records = totalsOf more := by
  have hmax : (records.map (·.timestamp)).foldl max 0 = (more.map (·.timestamp)).foldl max 0 :=
    (h.map _).foldl_eq' (fun _ _ _ _ _ ↦ by omega) 0
  rw [totalsOf_eq, totalsOf_eq, h.length_eq, (h.map _).sum_nat, (h.map _).sum_nat,
    (h.map _).sum_nat, h.countP_eq, hmax]

theorem combine_right_comm (a b c : ProviderTotals) :
    (a.combine b).combine c = (a.combine c).combine b := by
  have hadd (x y z : Nat) : satAdd64 (satAdd64 x y) z = satAdd64 (satAdd64 x z) y := by
    rw [satAdd64, satAdd64, satAdd64, satAdd64]
    omega
  rw [combine, combine, combine, combine]
  congr 1
  all_goals first | exact hadd _ _ _ | (dsimp only; omega)

/-- The totals of some lots of records are combined to those of all. -/
theorem foldl_combine (lots : List (List UsageRecord)) (records : List UsageRecord) :
    (lots.map totalsOf).foldl combine (totalsOf records) = totalsOf (records ++ lots.flatten) := by
  induction lots generalizing records with
  | nil => rw [List.flatten_nil, List.append_nil]; rfl
  | cons lot lots ih =>
    rw [List.map_cons, List.foldl_cons, combine_totalsOf, ih, List.flatten_cons, List.append_assoc]

end ProviderTotals

/-! ## Rows and records -/

/-- A table parts the records that have a key by it: each row is over exactly the records with its
key, and the rows together are over all of them. -/
structure Partitions (key : UsageRecord → Option String) (records : List UsageRecord)
    (table : Std.ExtTreeMap String Bucket) : Prop where
  rows (k : String) : table[k]?.map Bucket.totals =
    if records.filter (key · = some k) = [] then none
    else some (totalsOf (records.filter (key · = some k)))
  sum : (table.toList.map (·.2.totals)).foldl .combine {} =
    totalsOf (records.filter fun record ↦ (key record).isSome)

theorem groupBy_partitions (key : UsageRecord → Option String)
    (labels : UsageRecord → List (String × Json)) (records : List UsageRecord) :
    Partitions key records (groupBy key labels records) := by
  have htotals (records : List UsageRecord) (bucket : Bucket) :
      (records.foldl Bucket.add bucket).totals = records.foldl .add bucket.totals := by
    induction records generalizing bucket with
    | nil => rfl
    | cons record records ih => exact ih (bucket.add record)
  constructor
  · intro k
    rw [groupBy, getElem?_tally]
    cases records.filter (key · = some k) with
    | nil => rfl
    | cons record rest =>
      rw [if_neg (List.cons_ne_nil _ _), rowOf, Option.map_some, htotals]
      rfl
  · have hmeasure (record : UsageRecord) (rest : List UsageRecord) :
        ((record :: rest).foldl Bucket.add { labels := labels record }).totals =
          totalsOf (record :: rest) := by
      rw [htotals, totalsOf]
    have hrows : ((groupBy key labels records).toList.map (·.2.totals)).Perm
        ((groups key (records.filter fun record ↦ (key record).isSome)).map totalsOf) := by
      rw [groupBy]
      exact map_toList_tally_perm hmeasure records
    have hflat : (groups key (records.filter fun record ↦ (key record).isSome)).flatten.Perm
        (records.filter fun record ↦ (key record).isSome) :=
      flatten_groups_perm _
    rw [hrows.foldl_eq' (fun _ _ _ _ _ ↦ ProviderTotals.combine_right_comm _ _ _),
      ← ProviderTotals.totalsOf_perm hflat]
    exact ProviderTotals.foldl_combine _ []

/-! ## Which identities share a row -/

private theorem cut_alike {c : Char} {a b a' b' : List Char} (hb : c ∉ b) (hb' : c ∉ b')
    (h : a ++ c :: b = a' ++ c :: b') : a = a' ∧ b = b' := by
  rcases List.append_eq_append_iff.mp h with ⟨d, rfl, hd⟩ | ⟨d, rfl, hd⟩
  · cases d with
    | nil => exact ⟨(List.append_nil a).symm, (List.cons.inj hd).2⟩
    | cons x d =>
      rw [List.cons_append] at hd
      exact absurd ((List.cons.inj hd).2 ▸ List.mem_append_right d List.mem_cons_self) hb
  · cases d with
    | nil => exact ⟨List.append_nil a', ((List.cons.inj hd).2).symm⟩
    | cons x d =>
      rw [List.cons_append] at hd
      exact absurd ((List.cons.inj hd).2 ▸ List.mem_append_right d List.mem_cons_self) hb'

variable {a b : UsageRecord}

/-- Providers without a parenthesis keep the rows of `byModel` apart. -/
theorem modelKey_eq_iff (ha : '(' ∉ a.provider.toList) (hb : '(' ∉ b.provider.toList) :
    modelKey a = modelKey b ↔ a.model = b.model ∧ a.provider = b.provider := by
  constructor
  · intro h
    have htext (record : UsageRecord) : (modelKey record).toList =
        (record.model.toList ++ [' ']) ++ '(' :: (record.provider.toList ++ [')']) := by
      rw [modelKey, String.toList_append, String.toList_append, String.toList_append]
      simp
    have htexts := congrArg String.toList h
    rw [htext, htext] at htexts
    obtain ⟨hmodel, hprovider⟩ := cut_alike (by simp [ha]) (by simp [hb]) htexts
    exact ⟨String.toList_injective (List.append_cancel_right hmodel),
      String.toList_injective (List.append_cancel_right hprovider)⟩
  · rintro ⟨hmodel, hprovider⟩
    rw [modelKey, modelKey, hmodel, hprovider]

/-- A record whose model and provider have no bar. -/
def Unbarred (record : UsageRecord) : Prop :=
  '|' ∉ record.model.toList ∧ '|' ∉ record.provider.toList

private theorem barred_eq {first first' : String} (ha : Unbarred a) (hb : Unbarred b)
    (h : first ++ "|" ++ a.model ++ "|" ++ a.provider =
      first' ++ "|" ++ b.model ++ "|" ++ b.provider) :
    first = first' ∧ a.model = b.model ∧ a.provider = b.provider := by
  have htext (first : String) (record : UsageRecord) :
      (first ++ "|" ++ record.model ++ "|" ++ record.provider).toList =
        (first.toList ++ '|' :: record.model.toList) ++ '|' :: record.provider.toList := by
    simp
  have htexts := congrArg String.toList h
  rw [htext, htext] at htexts
  obtain ⟨hfront, hprovider⟩ := cut_alike ha.2 hb.2 htexts
  obtain ⟨hfirst, hmodel⟩ := cut_alike ha.1 hb.1 hfront
  exact ⟨String.toList_injective hfirst, String.toList_injective hmodel,
    String.toList_injective hprovider⟩

/-- Models and providers without a bar keep the rows of `byApiKey` apart, but for the one row of all
records without a key. -/
theorem apiKeyKey_eq_iff (ha : Unbarred a) (hb : Unbarred b) :
    apiKeyKey a = apiKeyKey b ↔ a.apiKeyId = b.apiKeyId ∧
      (a.apiKeyId = none ∨ a.model = b.model ∧ a.provider = b.provider) := by
  have hlocal (id : String) (record : UsageRecord) :
      "local-no-key" ≠ id ++ "|" ++ record.model ++ "|" ++ record.provider := by
    intro h
    have hmem : '|' ∈ "local-no-key".toList := by
      rw [h]
      simp
    exact absurd hmem (by decide)
  rw [apiKeyKey, apiKeyKey]
  cases hkey : a.apiKeyId with
  | none =>
    cases hkey' : b.apiKeyId with
    | none => exact iff_of_true rfl ⟨rfl, .inl rfl⟩
    | some id => exact iff_of_false (hlocal id b) fun h ↦ nomatch h.1
  | some id =>
    cases hkey' : b.apiKeyId with
    | none => exact iff_of_false (hlocal id a).symm fun h ↦ nomatch h.1
    | some id' =>
      constructor
      · intro h
        obtain ⟨hid, hboth⟩ := barred_eq ha hb h
        exact ⟨congrArg some hid, .inr hboth⟩
      · rintro ⟨hid, hnone | ⟨hmodel, hprovider⟩⟩
        · cases hnone
        · rw [Option.elim_some, Option.elim_some, Option.some.inj hid, hmodel, hprovider]

/-- Models and providers without a bar keep the rows of `byEndpoint` apart; no endpoint is the one
called `Unknown`. -/
theorem endpointKey_eq_iff (ha : Unbarred a) (hb : Unbarred b) :
    endpointKey a = endpointKey b ↔ a.endpoint.getD "Unknown" = b.endpoint.getD "Unknown" ∧
      a.model = b.model ∧ a.provider = b.provider := by
  constructor
  · exact barred_eq ha hb
  · rintro ⟨hendpoint, hmodel, hprovider⟩
    rw [endpointKey, endpointKey, hendpoint, hmodel, hprovider]

/-- The tables part the records by their keys. All but `byAccount` are over all records, and so
their rows come to the overall totals; `byAccount` is over those with a connection. -/
structure Aggregates (records : List UsageRecord) (names : DisplayNames) (tables : UsageTables) :
    Prop where
  byProvider : Partitions (some ·.provider) records tables.byProvider
  byModel : Partitions (fun record ↦ some (modelKey record)) records tables.byModel
  byAccount : Partitions (accountKey names) records tables.byAccount
  byApiKey : Partitions (fun record ↦ some (apiKeyKey record)) records tables.byApiKey
  byEndpoint : Partitions (fun record ↦ some (endpointKey record)) records tables.byEndpoint
  totals : ∀ table ∈ [tables.byProvider, tables.byModel, tables.byApiKey, tables.byEndpoint],
    (table.toList.map (·.2.totals)).foldl .combine {} = tables.totals

/-- Two records are in one row exactly where their joined keys coincide, and where the separators do
not occur these keys are apart. -/
structure KeysApart (a b : UsageRecord) : Prop where
  model : '(' ∉ a.provider.toList → '(' ∉ b.provider.toList →
    (modelKey a = modelKey b ↔ a.model = b.model ∧ a.provider = b.provider)
  apiKey : Unbarred a → Unbarred b → (apiKeyKey a = apiKeyKey b ↔ a.apiKeyId = b.apiKeyId ∧
    (a.apiKeyId = none ∨ a.model = b.model ∧ a.provider = b.provider))
  endpoint : Unbarred a → Unbarred b → (endpointKey a = endpointKey b ↔
    a.endpoint.getD "Unknown" = b.endpoint.getD "Unknown" ∧ a.model = b.model ∧
      a.provider = b.provider)

/-- The tables of some records part them by their keys, and keys without separators in them are
apart. -/
theorem aggregate_partitions (records : List UsageRecord) (names : DisplayNames) :
    Aggregates records names (aggregate records names) ∧ ∀ a b, KeysApart a b := by
  have hall (key : UsageRecord → String) (labels : UsageRecord → List (String × Json)) :
      ((groupBy (fun record ↦ some (key record)) labels records).toList.map (·.2.totals)).foldl
        .combine {} = totalsOf records := by
    rw [(groupBy_partitions _ labels records).sum]
    exact congrArg totalsOf (List.filter_eq_self.mpr fun _ _ ↦ rfl)
  refine ⟨⟨groupBy_partitions _ _ _, groupBy_partitions _ _ _, groupBy_partitions _ _ _,
    groupBy_partitions _ _ _, groupBy_partitions _ _ _, ?_⟩, fun a b ↦
      ⟨modelKey_eq_iff, apiKeyKey_eq_iff, endpointKey_eq_iff⟩⟩
  intro table htable
  simp only [List.mem_cons, List.not_mem_nil, or_false] at htable
  rcases htable with rfl | rfl | rfl | rfl
  · exact hall _ _
  · exact hall _ _
  · exact hall _ _
  · exact hall _ _

/-- A record of a model of a provider, otherwise empty. -/
private def recordFor (model provider : String) : UsageRecord :=
  ⟨"", 0, provider, model, none, none, none, "success", none, 0, 0, 0, 0, 0, none⟩

/-- Two models of two providers whose joined names coincide are one row. -/
theorem one_row_of_two_models :
    ((aggregate [recordFor "m (a)" "b", recordFor "m" "a) (b"] {}).byModel["m (a) (b)"]?).map
        (·.totals.requests) = some 2 ∧
      (recordFor "m (a)" "b").provider ≠ (recordFor "m" "a) (b").provider := by
  refine ⟨?_, by decide⟩
  have hrow := (groupBy_partitions (fun record ↦ some (modelKey record))
    (fun record ↦ [("rawModel", .str record.model),
      ("provider", .str (providerLabel {} record.provider))])
    [recordFor "m (a)" "b", recordFor "m" "a) (b"]).rows "m (a) (b)"
  have hrequests := congrArg (Option.map ProviderTotals.requests) hrow
  rw [Option.map_map] at hrequests
  exact hrequests.trans (by decide +kernel)

end NullRouter.State
