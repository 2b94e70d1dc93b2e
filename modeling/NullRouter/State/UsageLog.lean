import NullRouter.Base.Windows
import NullRouter.State.Snapshot

/-!
# The usage log

`UsageLog::record`, `services/state-actix/src/usage.rs:101`: requests are numbered, the last of them
are kept, and totals over all of them are kept beside.
-/

namespace NullRouter.State

open NullRouter.Base

/-- `MAX_REQUEST_LOG`, `usage.rs:15`. -/
def maxRequestLog : Nat := 1000

/-- `UsageInput`, `usage.rs:51`. -/
structure UsageInput where
  provider : String
  model : String
  connectionId : Option String := none
  apiKeyId : Option String := none
  endpoint : Option String := none
  status : Option String := none
  statusCode : Option Nat := none
  promptTokens : Nat := 0
  completionTokens : Nat := 0
  cachedTokens : Nat := 0
  latencyMs : Nat := 0
  error : Option String := none

/-- The record of an input under a number and at a time, `usage.rs:105`. -/
def UsageInput.toRecord (input : UsageInput) (sequence nowMs : Nat) : UsageRecord where
  id := "req_" ++ toString sequence
  timestamp := nowMs
  provider := input.provider
  model := input.model
  connectionId := input.connectionId
  apiKeyId := input.apiKeyId
  endpoint := input.endpoint
  status := input.status.getD "success"
  statusCode := input.statusCode
  promptTokens := input.promptTokens
  completionTokens := input.completionTokens
  cachedTokens := input.cachedTokens
  totalTokens := satAdd64 input.promptTokens input.completionTokens
  latencyMs := input.latencyMs
  error := input.error

namespace UsageLog

/-- `record`, `usage.rs:101`. -/
def record (log : UsageLog) (input : UsageInput) (nowMs : Nat) : UsageRecord × UsageLog :=
  let sequence := satAdd64 log.sequence 1
  let record := input.toRecord sequence nowMs
  let records := log.records ++ [record]
  (record, {
    records := if maxRequestLog < records.length then
      records.drop (records.length - maxRequestLog) else records
    totalRequests := satAdd64 log.totalRequests 1
    totalPromptTokens := satAdd64 log.totalPromptTokens record.promptTokens
    totalCompletionTokens := satAdd64 log.totalCompletionTokens record.completionTokens
    totalCachedTokens := satAdd64 log.totalCachedTokens record.cachedTokens
    sequence })

/-- The log after some calls, each an input and a time. -/
def run (log : UsageLog) (calls : List (UsageInput × Nat)) : UsageLog :=
  calls.foldl (fun log call ↦ (log.record call.1 call.2).2) log

end UsageLog

/-- The number of the call in a place. -/
def numberAt (place : Nat) : Nat := min (place + 1) u64Max

/-- The records of some calls, in order. -/
def recordsOf (calls : List (UsageInput × Nat)) : List UsageRecord :=
  calls.mapIdx fun place call ↦ call.1.toRecord (numberAt place) call.2

/-- A log has the last records of some calls, and totals over all of them. -/
structure Logged (calls : List (UsageInput × Nat)) (log : UsageLog) : Prop where
  records : log.records = keepLast maxRequestLog (recordsOf calls)
  sequence : log.sequence = min calls.length u64Max
  totalRequests : log.totalRequests = min calls.length u64Max
  totalPromptTokens :
    log.totalPromptTokens = min (calls.map (·.1.promptTokens)).sum u64Max
  totalCompletionTokens :
    log.totalCompletionTokens = min (calls.map (·.1.completionTokens)).sum u64Max
  totalCachedTokens :
    log.totalCachedTokens = min (calls.map (·.1.cachedTokens)).sum u64Max

variable {calls : List (UsageInput × Nat)} {log : UsageLog}

private theorem satAdd64_min (sum value : Nat) :
    satAdd64 (min sum u64Max) value = min (sum + value) u64Max := by
  rw [satAdd64]
  omega

theorem recordsOf_append_singleton (call : UsageInput × Nat) : recordsOf (calls ++ [call]) =
    recordsOf calls ++ [call.1.toRecord (numberAt calls.length) call.2] := by
  rw [recordsOf, List.mapIdx_append, recordsOf, List.mapIdx_singleton, Nat.zero_add]

/-- A call adds its record and its tokens. -/
theorem Logged.record (h : Logged calls log) (call : UsageInput × Nat) :
    Logged (calls ++ [call]) (log.record call.1 call.2).2 where
  records := by
    have hnumber : satAdd64 log.sequence 1 = numberAt calls.length := by
      rw [h.sequence, satAdd64_min, numberAt]
    have hkept (records : List UsageRecord) : (if maxRequestLog < records.length then
        records.drop (records.length - maxRequestLog) else records) =
          keepLast maxRequestLog records := by
      split
      · rfl
      · next hshort => exact (keepLast_of_length_le (Nat.le_of_not_lt hshort)).symm
    rw [recordsOf_append_singleton, ← keepLast_append, ← h.records, ← hnumber]
    exact hkept _
  sequence := by
    rw [List.length_append, List.length_singleton]
    exact (congrArg (satAdd64 · 1) h.sequence).trans (satAdd64_min _ _)
  totalRequests := by
    rw [List.length_append, List.length_singleton]
    exact (congrArg (satAdd64 · 1) h.totalRequests).trans (satAdd64_min _ _)
  totalPromptTokens := by
    rw [List.map_append, List.sum_append, List.map_singleton, List.sum_singleton]
    exact (congrArg (satAdd64 · _) h.totalPromptTokens).trans (satAdd64_min _ _)
  totalCompletionTokens := by
    rw [List.map_append, List.sum_append, List.map_singleton, List.sum_singleton]
    exact (congrArg (satAdd64 · _) h.totalCompletionTokens).trans (satAdd64_min _ _)
  totalCachedTokens := by
    rw [List.map_append, List.sum_append, List.map_singleton, List.sum_singleton]
    exact (congrArg (satAdd64 · _) h.totalCachedTokens).trans (satAdd64_min _ _)

/-- A run adds the records and the tokens of its calls. -/
theorem Logged.run (h : Logged calls log) (more : List (UsageInput × Nat)) :
    Logged (calls ++ more) (log.run more) := by
  induction more generalizing calls log with
  | nil =>
    rw [List.append_nil]
    exact h
  | cons call more ih =>
    have hall := ih (h.record call)
    rw [List.append_assoc, List.singleton_append] at hall
    exact hall

/-- A log that starts empty has the last records of its calls, and totals over all of them. -/
theorem logged_run (calls : List (UsageInput × Nat)) :
    Logged calls (({} : UsageLog).run calls) := by
  have hempty : Logged [] {} := by
    refine ⟨?_, ?_, ?_, ?_, ?_, ?_⟩
    · rw [keepLast_of_length_le (Nat.zero_le _)]
      rfl
    all_goals exact (Nat.zero_min _).symm
  exact hempty.run calls

theorem length_recordsOf (calls : List (UsageInput × Nat)) :
    (recordsOf calls).length = calls.length :=
  List.length_mapIdx

private theorem getElem_keepLast_recordsOf {place : Nat}
    (h : place < (keepLast maxRequestLog (recordsOf calls)).length) :
    ((keepLast maxRequestLog (recordsOf calls))[place]).id =
      "req_" ++ toString (numberAt (calls.length - maxRequestLog + place)) := by
  simp only [keepLast, List.getElem_drop, recordsOf, List.getElem_mapIdx, List.length_mapIdx]
  rfl

/-- The ids of a log are those of the last calls in turn, as long as the numbers last. -/
theorem Logged.ids (h : Logged calls log) (hfew : calls.length ≤ u64Max) :
    log.records.map (·.id) =
      (List.range' (calls.length - maxRequestLog + 1) (min calls.length maxRequestLog)).map
        fun number ↦ "req_" ++ toString number := by
  rw [h.records]
  apply List.ext_getElem
  · rw [List.length_map, length_keepLast, length_recordsOf, List.length_map, List.length_range']
  · intro place hplace hplace'
    rw [List.length_map, List.length_range'] at hplace'
    have hnumber : numberAt (calls.length - maxRequestLog + place) =
        calls.length - maxRequestLog + 1 + 1 * place := by
      rw [numberAt]
      omega
    rw [List.getElem_map, List.getElem_map, List.getElem_range', ← hnumber,
      getElem_keepLast_recordsOf]

/-- The ids of a log are apart, as long as the numbers last. -/
theorem Logged.nodup_ids (h : Logged calls log) (hfew : calls.length ≤ u64Max) :
    (log.records.map (·.id)).Nodup := by
  rw [h.ids hfew]
  exact List.Nodup.map (append_toString_injective "req_") List.nodup_range'

/-- After the numbers are used up all calls have the last of them. -/
theorem Logged.last_ids (h : Logged calls log) (hmany : u64Max + maxRequestLog ≤ calls.length) :
    log.records.map (·.id) = List.replicate maxRequestLog ("req_" ++ toString u64Max) := by
  rw [h.records]
  apply List.ext_getElem
  · rw [List.length_map, length_keepLast, length_recordsOf, List.length_replicate]
    omega
  · intro place hplace hplace'
    have hnumber : numberAt (calls.length - maxRequestLog + place) = u64Max := by
      rw [numberAt]
      omega
    rw [List.getElem_map, getElem_keepLast_recordsOf, hnumber, List.getElem_replicate]

/-!
## Pages of the usage log

`page_details`, `services/state-actix/src/internal/usage_query.rs:75`: the records that a filter
matches, newest first, a page at a time. A pager counts its pages in 32 bits.
-/

/-- `DetailFilter`, `usage_query.rs:19`: a bound that is not set matches every record. -/
structure DetailFilter where
  provider : Option String := none
  model : Option String := none
  connectionId : Option String := none
  status : Option String := none
  startMs : Option Nat := none
  endMs : Option Nat := none

/-- `text_matches`, `usage_query.rs:33`. -/
def textMatches (filter value : Option String) : Bool :=
  filter.all fun wanted ↦ value.any (· = wanted)

/-- `matches`, `usage_query.rs:32`. -/
def DetailFilter.matchesRecord (filter : DetailFilter) (record : UsageRecord) : Bool :=
  textMatches filter.provider (some record.provider) &&
    textMatches filter.model (some record.model) &&
    textMatches filter.connectionId record.connectionId &&
    textMatches filter.status (some record.status) &&
    filter.startMs.all (· ≤ record.timestamp) && filter.endMs.all (record.timestamp ≤ ·)

/-- `DetailPage`, `usage_query.rs:49`. -/
structure DetailPage where
  records : List UsageRecord
  page : Nat
  pageSize : Nat
  totalItems : Nat
  totalPages : Nat

/-- The matches of a filter, newest first; the sort is stable. -/
def matchesOf (records : List UsageRecord) (filter : DetailFilter) : List UsageRecord :=
  (records.filter filter.matchesRecord).mergeSort fun a b ↦ b.timestamp ≤ a.timestamp

/-- `page_details`, `usage_query.rs:75`. -/
def pageDetails (records : List UsageRecord) (filter : DetailFilter) (page pageSize : Nat) :
    DetailPage :=
  let matched := matchesOf records filter
  let pageSize := max pageSize 1
  let page := max page 1
  let offset := min ((page - 1) * pageSize) u64Max
  { records := (matched.drop offset).take pageSize
    page
    pageSize
    totalItems := matched.length
    totalPages := min (divCeil matched.length pageSize) u32Max }

/-- The pages of a log, from the first to the last. -/
def allPages (records : List UsageRecord) (filter : DetailFilter) (pageSize : Nat) :
    List UsageRecord :=
  (List.range (pageDetails records filter 1 pageSize).totalPages).flatMap fun place ↦
    (pageDetails records filter (place + 1) pageSize).records

/-- The pages of a log have every match once, newest first, and each of them counts all. -/
structure Paged (records : List UsageRecord) (filter : DetailFilter) (pageSize : Nat) : Prop where
  once : (allPages records filter pageSize).Perm (records.filter filter.matchesRecord)
  newest_first : (allPages records filter pageSize).Pairwise (·.timestamp ≥ ·.timestamp)
  total (page : Nat) : (pageDetails records filter page pageSize).totalItems =
    (records.filter filter.matchesRecord).length

variable {records : List UsageRecord} {filter : DetailFilter} {pageSize : Nat}

theorem matchesOf_perm (records : List UsageRecord) (filter : DetailFilter) :
    (matchesOf records filter).Perm (records.filter filter.matchesRecord) :=
  List.mergeSort_perm _ _

theorem pairwise_matchesOf (records : List UsageRecord) (filter : DetailFilter) :
    (matchesOf records filter).Pairwise (·.timestamp ≥ ·.timestamp) := by
  have htrans (a b c : UsageRecord) (hab : decide (b.timestamp ≤ a.timestamp) = true)
      (hbc : decide (c.timestamp ≤ b.timestamp) = true) :
      decide (c.timestamp ≤ a.timestamp) = true :=
    decide_eq_true (Nat.le_trans (of_decide_eq_true hbc) (of_decide_eq_true hab))
  have htotal (a b : UsageRecord) :
      (decide (b.timestamp ≤ a.timestamp) || decide (a.timestamp ≤ b.timestamp)) = true := by
    rw [Bool.or_eq_true, decide_eq_true_eq, decide_eq_true_eq]
    exact Nat.le_total _ _
  exact (List.pairwise_mergeSort htrans htotal _).imp fun h ↦ of_decide_eq_true h

/-- As long as a pager can count them the pages are the matches. -/
theorem allPages_eq (hsize : pageSize ≤ u32Max)
    (hfew : (matchesOf records filter).length ≤ u32Max * max pageSize 1) :
    allPages records filter pageSize = matchesOf records filter := by
  have hpos : 0 < max pageSize 1 := Nat.lt_of_lt_of_le Nat.zero_lt_one (Nat.le_max_right _ _)
  have hpages : min (divCeil (matchesOf records filter).length (max pageSize 1)) u32Max =
      divCeil (matchesOf records filter).length (max pageSize 1) :=
    Nat.min_eq_left (divCeil_le hpos hfew)
  have hplace (place : Nat)
      (h : place < divCeil (matchesOf records filter).length (max pageSize 1)) :
      (pageDetails records filter (place + 1) pageSize).records =
        ((matchesOf records filter).drop (place * max pageSize 1)).take (max pageSize 1) := by
    have hplace : place ≤ u32Max := Nat.le_trans (Nat.le_of_lt h) (divCeil_le hpos hfew)
    have hspan : max pageSize 1 ≤ u32Max := Nat.max_le.mpr ⟨hsize, by decide⟩
    have hoffset : place * max pageSize 1 ≤ u64Max :=
      Nat.le_trans (Nat.mul_le_mul hplace hspan) (by decide)
    rw [pageDetails, Nat.max_eq_left (Nat.le_add_left 1 place), Nat.add_sub_cancel,
      Nat.min_eq_left hoffset]
  rw [allPages, pageDetails]
  dsimp only
  rw [hpages, List.flatMap_congr fun place h ↦ hplace place (List.mem_range.mp h), flatMap_pages,
    List.take_of_length_le (le_divCeil_mul hpos _)]

/-- A log that has no more matches than a pager can count is paged whole. -/
theorem paged_of_few (hsize : pageSize ≤ u32Max)
    (hfew : (records.filter filter.matchesRecord).length ≤ u32Max * max pageSize 1) :
    Paged records filter pageSize := by
  have hlength := (matchesOf_perm records filter).length_eq
  have hall := allPages_eq hsize (hlength ▸ hfew)
  exact ⟨hall ▸ matchesOf_perm records filter, hall ▸ pairwise_matchesOf records filter,
    fun _ ↦ hlength⟩

end NullRouter.State
