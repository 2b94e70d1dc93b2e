import Mathlib.Data.Fin.Tuple.Basic
import Mathlib.Data.List.Forall2
import NullRouter.State.Routes

/-!
# Importing a legacy installation

`import` of `services/state-actix/src/migrate.rs`: how a legacy installation is read, the report of
an import and of a dry run, and what an import leaves. It skips what the store had before it began,
but not what it has added itself, and `create_connection` merges into a record of the same provider
and name; so each record gets its own exactly where the installation repeats none that way.
-/

namespace NullRouter.State

open NullRouter.Base

/-! ## Reading -/

namespace Record

variable (fromStr : String → Option Json)

/-- `Record::splat_data_column`, `migrate.rs:172`. -/
def splatDataColumn (record : Record) : Record :=
  let parsed := match record["data"]? with
    | some (.str text) => fromStr text
    | some (.obj fields) => some (.obj fields)
    | _ => none
  match parsed.bind ofObject? with
  | some extra =>
    (extra.toList.foldl (fun fields field ↦ fields.insertIfNew field.1 field.2) record).erase "data"
  | none => record

/-- The name of a connection, `migrate.rs:382`. -/
def connectionName (record : Record) (provider : String) : String :=
  (((record.text "name").or (record.text "displayName")).or (record.text "email")).getD provider

end Record

namespace Extracted

variable (fromStr : String → Option Json)

/-- `read_legacy_json`, `migrate.rs:273`, with the value of the file. -/
def ofJson (root : Json) : Extracted :=
  let list := fun keys : List String ↦
    ((keys.findSome? fun key ↦ (root.get key).bind Json.asArray).getD []).filterMap fun item ↦
      (Record.ofObject? item).map (·.splatDataColumn fromStr)
  { connections := list ["providerConnections", "connections"]
    combos := list ["combos"]
    proxyPools := list ["proxyPools", "proxy_pools"]
    settings := (root.get "settings").bind Record.ofObject? }

/-- The legacy records that are written, each with its write, against what was read of the store. -/
def entries (legacy : Extracted) (connections : Connections) (pools : List ProxyPool)
    (combos : List Combo) : List (Record × Operation) :=
  let written := fun (write? : Record → Option Operation) (records : List Record) ↦
    records.filterMap fun record ↦ (write? record).map (record, ·)
  written (connection? fromStr connections) legacy.connections ++
    written (proxyPool? pools) legacy.proxyPools ++ written (combo? fromStr combos) legacy.combos

end Extracted

/-! ## The import -/

/-- The counts of `ImportReport`, `migrate.rs:27`. -/
structure ImportReport where
  connectionsFound : Nat := 0
  connectionsImported : Nat := 0
  combosFound : Nat := 0
  combosImported : Nat := 0
  proxyPoolsFound : Nat := 0
  proxyPoolsImported : Nat := 0
  settingsImported : Bool := false
  deriving DecidableEq

/-- The report after a write is counted. -/
def ImportReport.count (report : ImportReport) : Operation → ImportReport
  | .createConnection _ => { report with connectionsImported := report.connectionsImported + 1 }
  | .createProxyPool _ => { report with proxyPoolsImported := report.proxyPoolsImported + 1 }
  | .createCombo .. => { report with combosImported := report.combosImported + 1 }
  | .applyImportedSettings _ => { report with settingsImported := true }
  | _ => report

/-- How many records a report counts as imported. -/
def ImportReport.imported (report : ImportReport) : Nat × Nat × Nat :=
  (report.connectionsImported, report.proxyPoolsImported, report.combosImported)

/-- What a write meets: its readings of the clock, and what the disk answers. -/
structure Attempt where
  now : Nat
  mint : Nat
  io : Option StoreError := none

/-- An import under way: its report, the store, and the writes that were counted. -/
structure Imported where
  report : ImportReport
  store : StateStore
  counted : List (Record × Operation) := []

section

variable (fromStr : String → Option Json) (tries : Nat → Attempt)

/-- The loops of `import`, `migrate.rs:372–480`: a write that fails is not counted. -/
def importAll : Nat → List (Record × Operation) → Imported → Imported
  | _, [], run => run
  | i, entry :: entries, run =>
    let answered := run.store.perform entry.2 (tries i).now (tries i).mint (tries i).io
    importAll (i + 1) entries
      (if answered.1.isOk then
        ⟨run.report.count entry.2, answered.2, run.counted ++ [entry]⟩
      else { run with store := answered.2 })

/-- `import`, `migrate.rs:323`, of what it found. -/
def StateStore.importLegacy (store : StateStore) (legacy : Extracted) (dryRun : Bool) : Imported :=
  let records := legacy.entries fromStr store.snapshot.providerConnections
    store.snapshot.proxyPools store.snapshot.combos
  let writes := records ++ (legacy.settings.map fun settings ↦
    (settings, Operation.applyImportedSettings settings)).toList
  let report : ImportReport :=
    { connectionsFound := legacy.connections.length
      combosFound := legacy.combos.length
      proxyPoolsFound := legacy.proxyPools.length }
  if dryRun then
    { report := writes.foldl (fun report write ↦ report.count write.2) report, store }
  else importAll tries 0 writes { report, store }

end

/-! ## What a legacy record asks for -/

section

variable (fromStr : String → Option Json)

/-- A connection holds what a legacy record says, its secrets among it. -/
structure Record.HeldByConnection (record : Record) (c : ProviderConnection) : Prop where
  provider : record.text "provider" = some c.provider
  name : c.name = record.connectionName c.provider
  apiKey : c.apiKey = record.text "apiKey"
  accessToken : c.accessToken = record.text "accessToken"
  refreshToken : c.refreshToken = record.text "refreshToken"
  providerSpecificData : c.providerSpecificData = record.object fromStr "providerSpecificData"

/-- A proxy pool does; its URL may hold a password. -/
structure Record.HeldByProxyPool (record : Record) (pool : ProxyPool) : Prop where
  name : record.text "name" = some pool.name
  proxyUrl : pool.proxyUrl = (record.text "proxyUrl").getD ""

/-- A combo does. -/
structure Record.HeldByCombo (record : Record) (combo : Combo) : Prop where
  name : record.text "name" = some combo.name
  models : combo.models = record.stringList fromStr "models"

/-- The write that a legacy record asks for. -/
inductive Asks : Record → Operation → Prop where
  | connection {record : Record} (input : ProviderConnectionInput)
    (held : ∀ id priority now, record.HeldByConnection fromStr (input.toRecord id priority now)) :
    Asks record (.createConnection input)
  | proxyPool {record : Record} (input : ProxyPoolInput) (name : record.text "name" = some input.name)
    (proxyUrl : input.proxyUrl = (record.text "proxyUrl").getD "") :
    Asks record (.createProxyPool input)
  | combo {record : Record} (name : String) (kind : Option String) (models : List String)
    (hname : record.text "name" = some name)
    (hmodels : models = record.stringList fromStr "models") :
    Asks record (.createCombo name kind models)

/-- The request of a write of a connection. -/
def Operation.request? : Operation → Option ProviderConnectionInput
  | .createConnection request => some request
  | _ => none

/-- A request that would be merged into a connection. -/
def ProviderConnectionInput.Meets (request : ProviderConnectionInput) (c : ProviderConnection) :
    Prop :=
  c.provider = request.provider ∧ c.authType = "apikey" ∧ c.name = request.name

/-- A request that would be merged into the connection another has left. -/
def ProviderConnectionInput.MergesInto (later earlier : ProviderConnectionInput) : Prop :=
  earlier.provider = later.provider ∧ earlier.authType.getD "apikey" = "apikey" ∧
    earlier.name = later.name

/-- The writes of connections. -/
def Operation.isConnection (op : Operation) : Bool := op.request?.isSome

/-- The writes of proxy pools. -/
def Operation.isProxyPool : Operation → Bool
  | .createProxyPool _ => true
  | _ => false

/-- The writes of combos. -/
def Operation.isCombo : Operation → Bool
  | .createCombo .. => true
  | _ => false

variable {fromStr}

/-- A connection is asked for unless the store has one of its provider and name. -/
theorem Extracted.connection?_eq_some {existing : Connections} {record : Record} {op : Operation}
    (h : connection? fromStr existing record = some op) :
    Asks fromStr record op ∧ op.isConnection = true ∧
      ∀ request ∈ op.request?, ∀ c ∈ existing, ¬ request.Meets c := by
  obtain ⟨provider, hprovider, h⟩ := Option.bind_eq_some_iff.mp h
  dsimp only at h
  split at h
  · cases h
  · next hnone =>
    obtain rfl := Option.some.inj h
    refine ⟨.connection _ fun id priority now ↦ ⟨hprovider, rfl, rfl, rfl, rfl, rfl⟩, rfl, ?_⟩
    rintro _ ⟨⟩ c hc ⟨hsame, -, hname⟩
    apply hnone
    rw [List.any_eq_true]
    exact ⟨c, hc, by simp [hsame, hname]⟩

/-- A proxy pool is asked for as it is told. -/
theorem Extracted.proxyPool?_eq_some {existing : List ProxyPool} {record : Record} {op : Operation}
    (h : proxyPool? existing record = some op) :
    Asks fromStr record op ∧ op.isProxyPool = true := by
  obtain ⟨name, hname, h⟩ := Option.bind_eq_some_iff.mp h
  split at h
  · cases h
  · obtain rfl := Option.some.inj h
    exact ⟨.proxyPool _ hname rfl, rfl⟩

/-- A combo is asked for as it is told. -/
theorem Extracted.combo?_eq_some {existing : List Combo} {record : Record} {op : Operation}
    (h : combo? fromStr existing record = some op) :
    Asks fromStr record op ∧ op.isCombo = true := by
  obtain ⟨name, hname, h⟩ := Option.bind_eq_some_iff.mp h
  dsimp only at h
  split at h
  · cases h
  · split at h
    · cases h
    · obtain rfl := Option.some.inj h
      exact ⟨.combo _ _ _ hname rfl, rfl⟩

/-! ## What the writes leave -/

variable (tries : Nat → Attempt)

/-- The snapshot after some writes, whether or not they reach the disk. -/
def StateSnapshot.applied : Nat → List (Record × Operation) → StateSnapshot → StateSnapshot
  | _, [], s => s
  | i, entry :: entries, s =>
    applied (i + 1) entries (entry.2.closure (tries i).now (tries i).mint s).2

variable {tries}

/-- The records that some writes add, each of its own. -/
structure Grown (fromStr : String → Option Json) (entries : List (Record × Operation))
    (cs : Connections) (ps : List ProxyPool) (qs : List Combo) : Prop where
  connections : List.Forall₂ (Record.HeldByConnection fromStr ·.1 ·)
    (entries.filter (·.2.isConnection)) cs
  proxyPools : List.Forall₂ (Record.HeldByProxyPool ·.1 ·) (entries.filter (·.2.isProxyPool)) ps
  combos : List.Forall₂ (Record.HeldByCombo fromStr ·.1 ·) (entries.filter (·.2.isCombo)) qs

/-- A snapshot with some records more. -/
def StateSnapshot.grown (s : StateSnapshot) (cs : Connections) (ps : List ProxyPool)
    (qs : List Combo) : StateSnapshot :=
  { s with
    providerConnections := s.providerConnections ++ cs
    proxyPools := s.proxyPools ++ ps
    combos := s.combos ++ qs }

theorem StateSnapshot.grown_grown (s : StateSnapshot) (cs cs' : Connections)
    (ps ps' : List ProxyPool) (qs qs' : List Combo) :
    (s.grown cs ps qs).grown cs' ps' qs' = s.grown (cs ++ cs') (ps ++ ps') (qs ++ qs') := by
  simp only [grown, List.append_assoc]

theorem Grown.append {entries more : List (Record × Operation)} {cs cs' : Connections}
    {ps ps' : List ProxyPool} {qs qs' : List Combo} (h : Grown fromStr entries cs ps qs)
    (h' : Grown fromStr more cs' ps' qs') :
    Grown fromStr (entries ++ more) (cs ++ cs') (ps ++ ps') (qs ++ qs') := by
  refine ⟨?_, ?_, ?_⟩
  · rw [List.filter_append]
    exact List.rel_append h.connections h'.connections
  · rw [List.filter_append]
    exact List.rel_append h.proxyPools h'.proxyPools
  · rw [List.filter_append]
    exact List.rel_append h.combos h'.combos

/-- A request is merged into a connection that it meets, or adds one. -/
theorem createConnection_spec (s : StateSnapshot) (request : ProviderConnectionInput)
    (now mint : Nat) : let after := (s.createConnection request now mint).2
    ((∃ c ∈ s.providerConnections, request.Meets c) ∧
      after.providerConnections.length = s.providerConnections.length) ∨
    ((∀ c ∈ s.providerConnections, ¬ request.Meets c) ∧
      ∃ id priority stamp, after = s.grown [request.toRecord id priority stamp] [] []) := by
  intro after
  have htest (c : ProviderConnection) : (c.provider == request.provider &&
      c.authType == "apikey" && c.name == request.name) = true ↔ request.Meets c := by
    simp only [ProviderConnectionInput.Meets, Bool.and_eq_true, beq_iff_eq, and_assoc]
  simp only [after, StateSnapshot.createConnection]
  split
  · next merged hmerged =>
    refine .inl ⟨?_, ?_⟩
    · by_contra hmeets
      exact Option.some_ne_none _ (hmerged.symm.trans (updateFirst_eq_none.mpr
        (List.find?_eq_none.mpr fun c hc hsame ↦ hmeets ⟨c, hc, (htest c).mp hsame⟩)))
    · have hids : merged.map (·.id) = s.providerConnections.map (·.id) :=
        map_updateFirst (fun _ _ _ ↦ by rfl) hmerged
      have hlength := congrArg List.length hids
      rwa [List.length_map, List.length_map] at hlength
  · next hnone =>
    refine .inr ⟨?_, nextId "conn" mint s.providerConnections.length, request.priority.getD
      (min ((s.providerConnections.filter (·.provider == request.provider)).length + 1) u32Max),
      timestamp now, ?_⟩
    · intro c hc hmeets
      have hfind := List.find?_eq_none.mp (updateFirst_eq_none.mp hnone) c hc
      exact hfind ((htest c).mpr hmeets)
    · rw [StateSnapshot.grown, List.append_nil, List.append_nil]

/-- A write that meets no connection adds a record of its own, which those meet that would be merged
into it. -/
theorem closure_of_asks {record : Record} {op : Operation} (h : Asks fromStr record op)
    (now mint : Nat) (s : StateSnapshot)
    (hfresh : ∀ request ∈ op.request?, ∀ c ∈ s.providerConnections, ¬ request.Meets c) :
    ∃ cs ps qs, (op.closure now mint s).2 = s.grown cs ps qs ∧
      Grown fromStr [(record, op)] cs ps qs ∧ ∀ c ∈ cs, ∃ first ∈ op.request?,
        ∀ later : ProviderConnectionInput, later.Meets c → later.MergesInto first := by
  cases h with
  | connection input held =>
    rcases createConnection_spec s input now mint with ⟨⟨c, hc, hmeets⟩, -⟩ | ⟨-, hadds⟩
    · exact absurd hmeets (hfresh input rfl c hc)
    · obtain ⟨id, priority, stamp, hafter⟩ := hadds
      refine ⟨_, _, _, hafter, ⟨.cons (held _ _ _) .nil, .nil, .nil⟩, ?_⟩
      intro c hc
      rw [List.mem_singleton.mp hc]
      exact ⟨input, rfl, fun _ hmeets ↦ hmeets⟩
  | proxyPool input hname hurl =>
    refine ⟨[], [(s.createProxyPool input now mint).1], [], ?_,
      ⟨.nil, .cons ⟨hname, hurl⟩ .nil, .nil⟩, by simp⟩
    simp only [Operation.closure, StateSnapshot.createProxyPool, StateSnapshot.grown,
      List.append_nil]
  | combo name kind models hname hmodels =>
    refine ⟨[], [], [(s.createCombo name kind models now).1], ?_,
      ⟨.nil, .nil, .cons ⟨hname, hmodels⟩ .nil⟩, by simp⟩
    simp only [Operation.closure, StateSnapshot.createCombo, StateSnapshot.grown, List.append_nil]

/-- Where no two of some writes share a connection, and none meets one that is there, each adds a
record of its own. -/
theorem applied_of_apart {entries : List (Record × Operation)} {s : StateSnapshot} (i : Nat)
    (hasks : ∀ entry ∈ entries, Asks fromStr entry.1 entry.2)
    (hfresh : ∀ request ∈ entries.filterMap (·.2.request?), ∀ c ∈ s.providerConnections,
      ¬ request.Meets c)
    (hapart : (entries.filterMap (·.2.request?)).Pairwise fun earlier later ↦
      ¬ later.MergesInto earlier) :
    ∃ cs ps qs, StateSnapshot.applied tries i entries s = s.grown cs ps qs ∧
      Grown fromStr entries cs ps qs := by
  induction entries generalizing s i with
  | nil =>
    refine ⟨[], [], [], ?_, ⟨.nil, .nil, .nil⟩⟩
    simp only [StateSnapshot.applied, StateSnapshot.grown, List.append_nil]
  | cons entry entries ih =>
    obtain ⟨record, op⟩ := entry
    rw [List.forall_mem_cons] at hasks
    have hsplit : ((record, op) :: entries).filterMap (·.2.request?) =
        op.request?.toList ++ entries.filterMap (·.2.request?) := by
      rw [List.filterMap_cons]
      cases op.request? <;> rfl
    rw [hsplit, List.pairwise_append] at hapart
    rw [hsplit] at hfresh
    obtain ⟨-, hrest, hcross⟩ := hapart
    obtain ⟨cs, ps, qs, hafter, hgrown, hmeets⟩ := closure_of_asks hasks.1 (tries i).now
      (tries i).mint s fun request hrequest ↦ hfresh request
        (List.mem_append_left _ (Option.mem_toList.mpr hrequest))
    have hnext : ∀ request ∈ entries.filterMap (·.2.request?),
        ∀ c ∈ (s.grown cs ps qs).providerConnections, ¬ request.Meets c := by
      intro request hrequest c hc hmeet
      rcases List.mem_append.mp hc with hold | hnew
      · exact hfresh request (List.mem_append_right _ hrequest) c hold hmeet
      · obtain ⟨first, hfirst, hmerges⟩ := hmeets c hnew
        exact hcross first (Option.mem_toList.mpr hfirst) request hrequest (hmerges request hmeet)
    obtain ⟨cs', ps', qs', hrun, hgrown'⟩ := ih (i + 1) hasks.2 hnext hrest
    refine ⟨cs ++ cs', ps ++ ps', qs ++ qs', ?_, hgrown.append hgrown'⟩
    rw [StateSnapshot.applied, hafter, hrun, StateSnapshot.grown_grown]

/-- Some writes add a connection each only where no two share one, and none meets one that is
there. -/
theorem length_applied {entries : List (Record × Operation)} {s : StateSnapshot} (i : Nat)
    (hasks : ∀ entry ∈ entries, Asks fromStr entry.1 entry.2) :
    let after := (StateSnapshot.applied tries i entries s).providerConnections.length
    let most := s.providerConnections.length + (entries.filterMap (·.2.request?)).length
    after ≤ most ∧ (after = most →
      (∀ request ∈ entries.filterMap (·.2.request?), ∀ c ∈ s.providerConnections,
        ¬ request.Meets c) ∧
      (entries.filterMap (·.2.request?)).Pairwise fun earlier later ↦
        ¬ later.MergesInto earlier) := by
  induction entries generalizing s i with
  | nil => exact ⟨Nat.le_refl _, fun _ ↦ ⟨by simp, .nil⟩⟩
  | cons entry entries ih =>
    obtain ⟨record, op⟩ := entry
    rw [List.forall_mem_cons] at hasks
    obtain ⟨hask, hasks⟩ := hasks
    intro after most
    have hafter : after = (StateSnapshot.applied tries (i + 1) entries
        (op.closure (tries i).now (tries i).mint s).2).providerConnections.length := rfl
    obtain ⟨hle, heq⟩ := @ih (op.closure (tries i).now (tries i).mint s).2 (i + 1) hasks
    rw [← hafter] at hle heq
    cases hask with
    | connection input held =>
      have hmost : most = s.providerConnections.length +
          ((entries.filterMap (·.2.request?)).length + 1) := rfl
      rcases createConnection_spec s input (tries i).now (tries i).mint with
        ⟨-, hlength⟩ | ⟨hfresh, id, priority, stamp, hadds⟩
      · rw [Operation.closure] at hle
        dsimp only at hle
        rw [hlength] at hle
        exact ⟨by omega, fun hsame ↦ by omega⟩
      · rw [Operation.closure] at hle heq
        dsimp only at hle heq
        rw [hadds] at hle heq
        simp only [StateSnapshot.grown, List.length_append, List.length_singleton] at hle heq
        refine ⟨by omega, fun hsame ↦ ?_⟩
        obtain ⟨hnone, hapart⟩ := heq (by omega)
        refine ⟨?_, .cons ?_ hapart⟩
        · rintro request hrequest c hc
          rcases List.mem_cons.mp hrequest with rfl | hrequest
          · exact hfresh c hc
          · exact hnone request hrequest c (List.mem_append_left _ hc)
        · intro request hrequest hmerges
          exact hnone request hrequest _ (List.mem_append_right _ (List.mem_singleton.mpr rfl))
            hmerges
    | proxyPool input hname hurl => exact ⟨hle, heq⟩
    | combo name kind models hname hmodels => exact ⟨hle, heq⟩

/-! ## What the import counts -/

/-- What a report counts after a write more. -/
theorem ImportReport.imported_count (report : ImportReport) (op : Operation) :
    (report.count op).imported =
      (report.connectionsImported + op.isConnection.toNat,
        report.proxyPoolsImported + op.isProxyPool.toNat,
        report.combosImported + op.isCombo.toNat) := by
  cases op <;> rfl

/-- What a report counts after some writes more. -/
theorem ImportReport.imported_foldl (writes : List (Record × Operation)) (report : ImportReport) :
    (writes.foldl (fun report write ↦ report.count write.2) report).imported =
      (report.connectionsImported + writes.countP (·.2.isConnection),
        report.proxyPoolsImported + writes.countP (·.2.isProxyPool),
        report.combosImported + writes.countP (·.2.isCombo)) := by
  induction writes generalizing report with
  | nil => rfl
  | cons write writes ih =>
    have hcount := report.imported_count write.2
    simp only [imported, Prod.mk.injEq] at hcount
    rw [List.foldl_cons, ih, hcount.1, hcount.2.1, hcount.2.2, List.countP_cons, List.countP_cons,
      List.countP_cons]
    simp only [Prod.mk.injEq, Bool.toNat]
    refine ⟨?_, ?_, ?_⟩
    · cases write.2.isConnection <;> simp [Nat.add_assoc, Nat.add_comm]
    · cases write.2.isProxyPool <;> simp [Nat.add_assoc, Nat.add_comm]
    · cases write.2.isCombo <;> simp [Nat.add_assoc, Nat.add_comm]

/-- A write that is never refused changes the snapshot, and is answered by the disk. -/
def Operation.Unrefused (op : Operation) : Prop :=
  op.precheck = none ∧ ∀ now mint s, (op.closure now mint s).1 = .ok ()

theorem Asks.unrefused {record : Record} {op : Operation} (h : Asks fromStr record op) :
    op.Unrefused := by
  cases h <;> exact ⟨rfl, fun _ _ _ ↦ rfl⟩

theorem perform_of_unrefused {op : Operation} (h : op.Unrefused) (store : StateStore)
    (now mint : Nat) (io : Option StoreError) :
    (store.perform op now mint io).2.snapshot = (op.closure now mint store.snapshot).2 ∧
      (store.perform op now mint io).2.fileBacked = store.fileBacked ∧
      ((store.perform op now mint io).1.isOk = true ↔ store.Saves io) := by
  obtain ⟨hpre, hok⟩ := h
  rw [StateStore.perform, hpre, StateStore.writeSnapshot, StateStore.Saves]
  simp only [StateStore.persist]
  cases hfile : store.fileBacked with
  | false => exact ⟨rfl, rfl, iff_of_true (by simp [hok, Except.isOk, Except.toBool]) (.inl rfl)⟩
  | true =>
    cases io with
    | none =>
      exact ⟨rfl, rfl, iff_of_true (by simp [hok, Except.isOk, Except.toBool]) (.inr rfl)⟩
    | some error => exact ⟨rfl, rfl, iff_of_false (by simp [Except.isOk, Except.toBool]) (by simp)⟩

/-- What the loops of the import leave, and which writes they count: all of them where every one
reaches the disk. -/
theorem importAll_spec {entries : List (Record × Operation)} (i : Nat) (run : Imported)
    (h : ∀ entry ∈ entries, entry.2.Unrefused) : let after := importAll tries i entries run
    after.store.snapshot = StateSnapshot.applied tries i entries run.store.snapshot ∧
      after.store.fileBacked = run.store.fileBacked ∧
      ∃ counted, counted.Sublist entries ∧ after.counted = run.counted ++ counted ∧
        after.report = counted.foldl (fun report write ↦ report.count write.2) run.report ∧
        (counted.length = entries.length ↔
          ∀ k < entries.length, run.store.Saves (tries (i + k)).io) := by
  induction entries generalizing i run with
  | nil => exact ⟨rfl, rfl, [], .slnil, (List.append_nil _).symm, rfl, by simp⟩
  | cons entry entries ih =>
    rw [List.forall_mem_cons] at h
    obtain ⟨hsnapshot, hfile, hok⟩ := perform_of_unrefused h.1 run.store (tries i).now
      (tries i).mint (tries i).io
    have hsaves (io : Option StoreError) :
        (run.store.perform entry.2 (tries i).now (tries i).mint (tries i).io).2.Saves io ↔
          run.store.Saves io := by
      rw [StateStore.Saves, hfile, StateStore.Saves]
    have hall : (∀ k < (entry :: entries).length, run.store.Saves (tries (i + k)).io) ↔
        run.store.Saves (tries i).io ∧
          ∀ k < entries.length, run.store.Saves (tries (i + 1 + k)).io := by
      rw [List.length_cons]
      refine ⟨fun hk ↦ ⟨hk 0 (Nat.zero_lt_succ _), fun k hless ↦ ?_⟩, ?_⟩
      · rw [Nat.add_assoc, Nat.add_comm 1 k]
        exact hk (k + 1) (Nat.succ_lt_succ hless)
      · rintro ⟨hzero, hsucc⟩ (_ | k) hless
        · exact hzero
        · rw [Nat.add_comm k 1, ← Nat.add_assoc]
          exact hsucc k (Nat.lt_of_succ_lt_succ hless)
    intro after
    by_cases hsaved : run.store.Saves (tries i).io
    · have hstep : after = importAll tries (i + 1) entries
          ⟨run.report.count entry.2,
            (run.store.perform entry.2 (tries i).now (tries i).mint (tries i).io).2,
            run.counted ++ [entry]⟩ := by
        simp only [after, importAll]
        rw [if_pos (hok.mpr hsaved)]
      obtain ⟨hsnap, hback, counted, hsub, hcounted, hreport, hlength⟩ := ih (i + 1) _ h.2
      rw [← hstep] at hsnap hback hcounted hreport
      dsimp only at hsnap hback hcounted hreport
      refine ⟨?_, hback.trans hfile, entry :: counted, hsub.cons_cons entry, ?_, hreport, ?_⟩
      · rw [hsnap, hsnapshot, StateSnapshot.applied]
      · rw [hcounted, List.append_assoc, List.singleton_append]
      · rw [hall, List.length_cons, List.length_cons, Nat.add_right_cancel_iff, hlength]
        simp only [hsaves]
        exact (and_iff_right hsaved).symm
    · have hstep : after = importAll tries (i + 1) entries { run with
          store := (run.store.perform entry.2 (tries i).now (tries i).mint (tries i).io).2 } := by
        simp only [after, importAll]
        rw [if_neg (fun hk ↦ hsaved (hok.mp hk))]
      obtain ⟨hsnap, hback, counted, hsub, hcounted, hreport, -⟩ := ih (i + 1) _ h.2
      rw [← hstep] at hsnap hback hcounted hreport
      dsimp only at hsnap hback hcounted hreport
      refine ⟨?_, hback.trans hfile, counted, hsub.cons entry, hcounted, hreport, ?_⟩
      · rw [hsnap, hsnapshot, StateSnapshot.applied]
      · have hless := hsub.length_le
        rw [hall, List.length_cons]
        exact iff_of_false (by omega) (fun hk ↦ hsaved hk.1)

theorem importAll_append (tries : Nat → Attempt) (entries more : List (Record × Operation))
    (i : Nat) (run : Imported) : importAll tries i (entries ++ more) run =
      importAll tries (i + entries.length) more (importAll tries i entries run) := by
  induction entries generalizing i run with
  | nil => rfl
  | cons entry entries ih =>
    rw [List.cons_append, importAll, ih, importAll, List.length_cons, Nat.add_assoc,
      Nat.add_comm 1]

/-- A snapshot with the settings of a legacy installation. -/
def Extracted.applySettings (legacy : Extracted) (s : StateSnapshot) : StateSnapshot :=
  (legacy.settings.map s.applyImportedSettings).getD s

/-- Settings that were imported are not changed by importing them again. -/
theorem Settings.importFrom_importFrom (settings : Settings) (imported : Record) :
    (settings.importFrom imported).importFrom imported = settings.importFrom imported := by
  have honce {α : Type} (value : Option α) (default : α) :
      value.getD (value.getD default) = value.getD default := by
    cases value <;> rfl
  have htwice {α : Type} (first second : Option α) (default : α) :
      first.getD (second.getD (first.getD (second.getD default))) =
        first.getD (second.getD default) := by
    cases first <;> cases second <;> rfl
  simp only [Settings.importFrom, honce, htwice]

theorem Extracted.applySettings_applySettings (legacy : Extracted) (s : StateSnapshot) :
    legacy.applySettings (legacy.applySettings s) = legacy.applySettings s := by
  rw [applySettings, applySettings]
  cases legacy.settings with
  | none => rfl
  | some settings =>
    simp only [Option.map_some, Option.getD_some, StateSnapshot.applyImportedSettings,
      Settings.importFrom_importFrom]

/-! ## What the store lacks -/

namespace Extracted

/-- A connection is not asked for that has no provider, or that the store has. -/
theorem connection?_eq_none_iff {existing : Connections} {record : Record} :
    connection? fromStr existing record = none ↔ ∀ provider ∈ record.text "provider",
      ∃ c ∈ existing, c.provider = provider ∧ c.name = record.connectionName provider := by
  rw [connection?]
  cases record.text "provider" with
  | none => simp
  | some provider =>
    simp only [Option.bind_some, Option.mem_some_iff, forall_eq']
    rw [ite_eq_left_iff]
    simp [Record.connectionName]

/-- A proxy pool is not asked for that has no name, or that the store has. -/
theorem proxyPool?_eq_none_iff {existing : List ProxyPool} {record : Record} :
    proxyPool? existing record = none ↔
      ∀ name ∈ record.text "name", ∃ pool ∈ existing, pool.name = name := by
  rw [proxyPool?]
  cases record.text "name" with
  | none => simp
  | some name =>
    simp only [Option.bind_some, Option.mem_some_iff, forall_eq']
    rw [ite_eq_left_iff]
    simp

/-- A combo is not asked for that has no name or no models, or that the store has. -/
theorem combo?_eq_none_iff {existing : List Combo} {record : Record} :
    combo? fromStr existing record = none ↔ ∀ name ∈ record.text "name",
      (∃ combo ∈ existing, combo.name = name) ∨ record.stringList fromStr "models" = [] := by
  rw [combo?]
  cases record.text "name" with
  | none => simp
  | some name =>
    simp only [Option.bind_some, Option.mem_some_iff, forall_eq']
    rw [ite_eq_left_iff]
    simp [imp_iff_not_or]

/-- The requests for the connections of a legacy installation that the store lacks. -/
def requests (fromStr : String → Option Json) (legacy : Extracted) (existing : Connections) :
    List ProviderConnectionInput :=
  legacy.connections.filterMap fun record ↦
    (connection? fromStr existing record).bind (·.request?)

end Extracted

namespace Extracted

section

variable {legacy : Extracted} {connections : Connections} {pools : List ProxyPool}
  {combos : List Combo}

private theorem mem_written {write? : Record → Option Operation} {records : List Record}
    {entry : Record × Operation} :
    (entry ∈ records.filterMap fun record ↦ (write? record).map (record, ·)) ↔
      entry.1 ∈ records ∧ write? entry.1 = some entry.2 := by
  obtain ⟨record, op⟩ := entry
  simp only [List.mem_filterMap, Option.map_eq_some_iff, Prod.mk.injEq]
  constructor
  · rintro ⟨_, hrecord, _, hwrite, rfl, rfl⟩
    exact ⟨hrecord, hwrite⟩
  · rintro ⟨hrecord, hwrite⟩
    exact ⟨record, hrecord, op, hwrite, rfl, rfl⟩

/-- Where the writes come from. -/
theorem mem_entries {entry : Record × Operation} :
    entry ∈ legacy.entries fromStr connections pools combos ↔
      (entry.1 ∈ legacy.connections ∧ connection? fromStr connections entry.1 = some entry.2) ∨
      (entry.1 ∈ legacy.proxyPools ∧ proxyPool? pools entry.1 = some entry.2) ∨
      (entry.1 ∈ legacy.combos ∧ combo? fromStr combos entry.1 = some entry.2) := by
  rw [entries, List.mem_append, List.mem_append, mem_written, mem_written, mem_written, or_assoc]

/-- A legacy record asks for the write that it is given. -/
theorem asks_of_mem_entries {entry : Record × Operation}
    (h : entry ∈ legacy.entries fromStr connections pools combos) :
    Asks fromStr entry.1 entry.2 := by
  rcases mem_entries.mp h with ⟨-, h⟩ | ⟨-, h⟩ | ⟨-, h⟩
  · exact (connection?_eq_some h).1
  · exact (proxyPool?_eq_some h).1
  · exact (combo?_eq_some h).1

private theorem request?_of_other {op : Operation} (h : op.isProxyPool = true ∨ op.isCombo = true) :
    op.request? = none := by
  cases op with
  | createConnection _ => simp [Operation.isProxyPool, Operation.isCombo] at h
  | _ => rfl

/-- The requests among the writes are those for the connections that the store lacks. -/
theorem filterMap_entries : (legacy.entries fromStr connections pools combos).filterMap
    (·.2.request?) = legacy.requests fromStr connections := by
  have hother {write? : Record → Option Operation} {records : List Record}
      (h : ∀ record op, write? record = some op → op.isProxyPool = true ∨ op.isCombo = true) :
      (records.filterMap fun record ↦ (write? record).map (record, ·)).filterMap
        (fun entry : Record × Operation ↦ entry.2.request?) = [] := by
    rw [List.filterMap_eq_nil_iff]
    intro entry hentry
    exact request?_of_other (h _ _ (mem_written.mp hentry).2)
  rw [entries, List.filterMap_append, List.filterMap_append,
    hother fun _ _ h ↦ .inl (@proxyPool?_eq_some fromStr _ _ _ h).2,
    hother fun _ _ h ↦ .inr (combo?_eq_some h).2, List.append_nil, List.append_nil,
    List.filterMap_filterMap, requests]
  congr
  funext record
  cases connection? fromStr connections record <;> rfl

/-- The connections that are asked for are not met in the store. -/
theorem not_meets_of_mem_requests {request : ProviderConnectionInput}
    (h : request ∈ legacy.requests fromStr connections) {c : ProviderConnection}
    (hc : c ∈ connections) : ¬ request.Meets c := by
  obtain ⟨record, -, h⟩ := List.mem_filterMap.mp h
  obtain ⟨op, hop, hrequest⟩ := Option.bind_eq_some_iff.mp h
  exact (connection?_eq_some hop).2.2 request hrequest c hc

private theorem exists_of_mem {α β : Type} {R : α → β → Prop} {l : List α} {l' : List β}
    (h : List.Forall₂ R l l') {a : α} (ha : a ∈ l) : ∃ b ∈ l', R a b := by
  induction h with
  | nil => cases ha
  | @cons x y _ _ hxy _ ih =>
    rcases List.mem_cons.mp ha with rfl | ha
    · exact ⟨y, List.mem_cons_self, hxy⟩
    · obtain ⟨b, hb, hab⟩ := ih ha
      exact ⟨b, List.mem_cons_of_mem _ hb, hab⟩

/-- Once its records were added, a legacy installation has none that the store lacks. -/
theorem entries_of_grown {cs : Connections} {ps : List ProxyPool} {qs : List Combo}
    (h : Grown fromStr (legacy.entries fromStr connections pools combos) cs ps qs) :
    legacy.entries fromStr (connections ++ cs) (pools ++ ps) (combos ++ qs) = [] := by
  rw [List.eq_nil_iff_forall_not_mem]
  rintro ⟨record, op⟩ hentry
  rcases mem_entries.mp hentry with ⟨hrecord, hop⟩ | ⟨hrecord, hop⟩ | ⟨hrecord, hop⟩
  · refine Option.some_ne_none op (hop.symm.trans (connection?_eq_none_iff.mpr ?_))
    intro provider hprovider
    cases hfirst : connection? fromStr connections record with
    | none =>
      obtain ⟨c, hc, hsame⟩ := connection?_eq_none_iff.mp hfirst provider hprovider
      exact ⟨c, List.mem_append_left _ hc, hsame⟩
    | some first =>
      have hmem : (record, first) ∈ (legacy.entries fromStr connections pools combos).filter
          (·.2.isConnection) := List.mem_filter.mpr
        ⟨mem_entries.mpr (.inl ⟨hrecord, hfirst⟩), (connection?_eq_some hfirst).2.1⟩
      obtain ⟨c, hc, hheld⟩ := exists_of_mem h.connections hmem
      obtain rfl := Option.some.inj (hheld.provider.symm.trans hprovider)
      exact ⟨c, List.mem_append_right _ hc, rfl, hheld.name⟩
  · refine Option.some_ne_none op (hop.symm.trans (proxyPool?_eq_none_iff.mpr ?_))
    intro name hname
    cases hfirst : proxyPool? pools record with
    | none =>
      obtain ⟨pool, hpool, hsame⟩ := proxyPool?_eq_none_iff.mp hfirst name hname
      exact ⟨pool, List.mem_append_left _ hpool, hsame⟩
    | some first =>
      have hmem : (record, first) ∈ (legacy.entries fromStr connections pools combos).filter
          (·.2.isProxyPool) := List.mem_filter.mpr
        ⟨mem_entries.mpr (.inr (.inl ⟨hrecord, hfirst⟩)),
          (@proxyPool?_eq_some fromStr _ _ _ hfirst).2⟩
      obtain ⟨pool, hpool, hheld⟩ := exists_of_mem h.proxyPools hmem
      exact ⟨pool, List.mem_append_right _ hpool,
        Option.some.inj (hheld.name.symm.trans hname)⟩
  · refine Option.some_ne_none op (hop.symm.trans (combo?_eq_none_iff.mpr ?_))
    intro name hname
    cases hfirst : combo? fromStr combos record with
    | none =>
      refine (combo?_eq_none_iff.mp hfirst name hname).imp_left ?_
      rintro ⟨combo, hcombo, hsame⟩
      exact ⟨combo, List.mem_append_left _ hcombo, hsame⟩
    | some first =>
      have hmem : (record, first) ∈ (legacy.entries fromStr connections pools combos).filter
          (·.2.isCombo) := List.mem_filter.mpr
        ⟨mem_entries.mpr (.inr (.inr ⟨hrecord, hfirst⟩)), (combo?_eq_some hfirst).2⟩
      obtain ⟨combo, hcombo, hheld⟩ := exists_of_mem h.combos hmem
      exact .inl ⟨combo, List.mem_append_right _ hcombo,
        Option.some.inj (hheld.name.symm.trans hname)⟩

end

end Extracted

/-! ## The laws of an import -/

/-- Each of some legacy records has its own record in a table. -/
def Own {α : Type} (holds : Record → α → Prop) (counted : List (Record × Operation))
    (table : List α) : Prop :=
  ∃ held : List α, held.Subperm table ∧ List.Forall₂ (holds ·.1 ·) counted held

/-- What an import is to do: it adds records and changes none, each record that it counts has its
own, its counts are those of the records added, a second import of the same changes nothing, and a
dry run counts what it does. -/
structure ImportLaws (fromStr : String → Option Json) (tries : Nat → Attempt) (store : StateStore)
    (legacy : Extracted) : Prop where
  kept : ∃ cs ps qs, (store.importLegacy fromStr tries legacy false).store.snapshot =
    legacy.applySettings (store.snapshot.grown cs ps qs)
  ownConnections : Own (Record.HeldByConnection fromStr)
    ((store.importLegacy fromStr tries legacy false).counted.filter (·.2.isConnection))
    (store.importLegacy fromStr tries legacy false).store.snapshot.providerConnections
  ownProxyPools : Own Record.HeldByProxyPool
    ((store.importLegacy fromStr tries legacy false).counted.filter (·.2.isProxyPool))
    (store.importLegacy fromStr tries legacy false).store.snapshot.proxyPools
  ownCombos : Own (Record.HeldByCombo fromStr)
    ((store.importLegacy fromStr tries legacy false).counted.filter (·.2.isCombo))
    (store.importLegacy fromStr tries legacy false).store.snapshot.combos
  counts : let run := store.importLegacy fromStr tries legacy false
    run.store.snapshot.providerConnections.length =
        store.snapshot.providerConnections.length + run.report.connectionsImported ∧
      run.store.snapshot.proxyPools.length =
        store.snapshot.proxyPools.length + run.report.proxyPoolsImported ∧
      run.store.snapshot.combos.length =
        store.snapshot.combos.length + run.report.combosImported
  again : let run := store.importLegacy fromStr tries legacy false
    ∀ later, (run.store.importLegacy fromStr later legacy false).store.snapshot =
      run.store.snapshot
  previewed : (store.importLegacy fromStr tries legacy true).report.imported =
    (store.importLegacy fromStr tries legacy false).report.imported

/-- The write of the settings, if there are any. -/
private def settingsWrite (legacy : Extracted) : List (Record × Operation) :=
  (legacy.settings.map fun settings ↦ (settings, Operation.applyImportedSettings settings)).toList

private theorem applied_settingsWrite (legacy : Extracted) (tries : Nat → Attempt) (i : Nat)
    (s : StateSnapshot) :
    StateSnapshot.applied tries i (settingsWrite legacy) s = legacy.applySettings s := by
  rw [settingsWrite, Extracted.applySettings]
  cases legacy.settings <;> rfl

private theorem of_mem_settingsWrite {legacy : Extracted} {entry : Record × Operation}
    (h : entry ∈ settingsWrite legacy) : entry.2.Unrefused ∧ entry.2.isConnection = false ∧
      entry.2.isProxyPool = false ∧ entry.2.isCombo = false := by
  rw [settingsWrite, Option.mem_toList, Option.map_eq_some_iff] at h
  obtain ⟨settings, -, rfl⟩ := h
  exact ⟨⟨rfl, fun _ _ _ ↦ rfl⟩, rfl, rfl, rfl⟩

/-- What an import leaves, and counts. -/
theorem importLegacy_spec (fromStr : String → Option Json) (tries : Nat → Attempt)
    (store : StateStore) (legacy : Extracted) :
    let entries := legacy.entries fromStr store.snapshot.providerConnections
      store.snapshot.proxyPools store.snapshot.combos
    let run := store.importLegacy fromStr tries legacy false
    run.store.snapshot =
        legacy.applySettings (StateSnapshot.applied tries 0 entries store.snapshot) ∧
      ∃ counted last, counted.Sublist entries ∧ last.Sublist (settingsWrite legacy) ∧
        run.counted = counted ++ last ∧
        run.report.imported = (counted.countP (·.2.isConnection),
          counted.countP (·.2.isProxyPool), counted.countP (·.2.isCombo)) ∧
        (counted.length = entries.length ↔
          ∀ k < entries.length, store.Saves (tries k).io) := by
  intro entries run
  have hrun : run = importAll tries 0 (entries ++ settingsWrite legacy)
      ⟨⟨legacy.connections.length, 0, legacy.combos.length, 0, legacy.proxyPools.length, 0, false⟩,
        store, []⟩ := rfl
  rw [importAll_append] at hrun
  obtain ⟨hsnap, -, counted, hsub, hcounted, hreport, hlength⟩ := @importAll_spec tries entries 0
    ⟨⟨legacy.connections.length, 0, legacy.combos.length, 0, legacy.proxyPools.length, 0, false⟩,
      store, []⟩ fun entry hentry ↦ (Extracted.asks_of_mem_entries hentry).unrefused
  obtain ⟨hsnap', -, last, hsub', hcounted', hreport', -⟩ := @importAll_spec tries (settingsWrite legacy)
    (0 + entries.length) (importAll tries 0 entries _)
    fun entry hentry ↦ (of_mem_settingsWrite hentry).1
  rw [← hrun] at hsnap' hcounted' hreport'
  refine ⟨?_, counted, last, hsub, hsub', ?_, ?_, ?_⟩
  · rw [hsnap', applied_settingsWrite, hsnap]
  · rw [hcounted', hcounted, List.nil_append]
  · have hnone {p : Operation → Bool} (hp : ∀ entry ∈ settingsWrite legacy, p entry.2 = false) :
        last.countP (p ·.2) = 0 :=
      List.countP_eq_zero.mpr fun entry hentry ↦ by simp [hp entry (hsub'.subset hentry)]
    rw [hreport', hreport, ← List.foldl_append, ImportReport.imported_foldl, List.countP_append,
      List.countP_append, List.countP_append, hnone fun _ h ↦ (of_mem_settingsWrite h).2.1,
      hnone fun _ h ↦ (of_mem_settingsWrite h).2.2.1, hnone fun _ h ↦ (of_mem_settingsWrite h).2.2.2]
    simp only [Nat.add_zero, Nat.zero_add]
  · simpa only [Nat.zero_add] using hlength

private theorem length_eq_kinds {entries : List (Record × Operation)}
    (h : ∀ entry ∈ entries, Asks fromStr entry.1 entry.2) : entries.length =
      entries.countP (·.2.isConnection) + entries.countP (·.2.isProxyPool) +
        entries.countP (·.2.isCombo) := by
  induction entries with
  | nil => rfl
  | cons entry entries ih =>
    rw [List.forall_mem_cons] at h
    have hrest := ih h.2
    have hkind : entry.2.isConnection.toNat + entry.2.isProxyPool.toNat +
        entry.2.isCombo.toNat = 1 := by
      obtain ⟨record, op⟩ := entry
      cases h.1 <;> rfl
    have hcons (p : Operation → Bool) : (entry :: entries).countP (p ·.2) =
        entries.countP (p ·.2) + (p entry.2).toNat := by
      rw [List.countP_cons]
      cases p entry.2 <;> rfl
    rw [hcons, hcons, hcons, List.length_cons]
    omega

private theorem countP_isConnection (entries : List (Record × Operation)) :
    entries.countP (·.2.isConnection) = (entries.filterMap (·.2.request?)).length := by
  rw [List.length_filterMap_eq_countP]
  rfl

theorem Extracted.tables_applySettings (legacy : Extracted) (s : StateSnapshot) :
    (legacy.applySettings s).providerConnections = s.providerConnections ∧
      (legacy.applySettings s).proxyPools = s.proxyPools ∧
      (legacy.applySettings s).combos = s.combos := by
  rw [applySettings]
  cases legacy.settings <;> exact ⟨rfl, rfl, rfl⟩

private theorem own_of_grown {α : Type} {holds : Record → α → Prop} {table added : List α}
    {counted entries : List (Record × Operation)} (hcounted : counted = entries)
    (h : List.Forall₂ (holds ·.1 ·) entries added) : Own holds counted (table ++ added) :=
  ⟨added, (List.sublist_append_right _ _).subperm, hcounted ▸ h⟩

variable (fromStr)

/-- What a dry run counts. -/
theorem imported_of_dryRun (tries : Nat → Attempt) (store : StateStore) (legacy : Extracted) :
    let entries := legacy.entries fromStr store.snapshot.providerConnections
      store.snapshot.proxyPools store.snapshot.combos
    (store.importLegacy fromStr tries legacy true).report.imported =
      (entries.countP (·.2.isConnection), entries.countP (·.2.isProxyPool),
        entries.countP (·.2.isCombo)) := by
  intro entries
  have hdry : (store.importLegacy fromStr tries legacy true).report =
      (entries ++ settingsWrite legacy).foldl
        (fun (report : ImportReport) write ↦ report.count write.2)
        ⟨legacy.connections.length, 0, legacy.combos.length, 0, legacy.proxyPools.length, 0,
          false⟩ := rfl
  have hnone {p : Operation → Bool} (hp : ∀ entry ∈ settingsWrite legacy, p entry.2 = false) :
      (settingsWrite legacy).countP (p ·.2) = 0 :=
    List.countP_eq_zero.mpr fun entry hentry ↦ by simp [hp entry hentry]
  rw [hdry, ImportReport.imported_foldl, List.countP_append, List.countP_append,
    List.countP_append, hnone fun _ h ↦ (of_mem_settingsWrite h).2.1,
    hnone fun _ h ↦ (of_mem_settingsWrite h).2.2.1, hnone fun _ h ↦ (of_mem_settingsWrite h).2.2.2]
  simp only [Nat.add_zero, Nat.zero_add]

variable {fromStr} {store : StateStore} {legacy : Extracted}

private theorem saves_of_previewed {counted entries : List (Record × Operation)}
    (hasks : ∀ entry ∈ entries, Asks fromStr entry.1 entry.2) (hsub : counted.Sublist entries)
    (h : (entries.countP (·.2.isConnection), entries.countP (·.2.isProxyPool),
        entries.countP (·.2.isCombo)) = (counted.countP (·.2.isConnection),
          counted.countP (·.2.isProxyPool), counted.countP (·.2.isCombo))) :
    counted = entries := by
  simp only [Prod.mk.injEq] at h
  apply hsub.eq_of_length
  rw [length_eq_kinds hasks, length_eq_kinds fun entry hentry ↦ hasks entry (hsub.subset hentry),
    h.1, h.2.1, h.2.2]

/-- The laws hold only where the writes reach the disk and none is merged into another. -/
theorem ImportLaws.necessary (h : ImportLaws fromStr tries store legacy) :
    (∀ k < (legacy.entries fromStr store.snapshot.providerConnections store.snapshot.proxyPools
      store.snapshot.combos).length, store.Saves (tries k).io) ∧
    (legacy.requests fromStr store.snapshot.providerConnections).Pairwise fun earlier later ↦
      ¬ later.MergesInto earlier := by
  obtain ⟨hsnap, counted, last, hsub, -, -, hreport, hsaved⟩ :=
    importLegacy_spec fromStr tries store legacy
  have hasks := fun entry hentry ↦ @Extracted.asks_of_mem_entries fromStr legacy
    store.snapshot.providerConnections store.snapshot.proxyPools store.snapshot.combos entry hentry
  have hpreviewed := h.previewed
  rw [imported_of_dryRun, hreport] at hpreviewed
  have hall := saves_of_previewed hasks hsub hpreviewed
  refine ⟨hsaved.mp (congrArg List.length hall), ?_⟩
  have hlength := h.counts.1
  rw [hsnap, (legacy.tables_applySettings _).1] at hlength
  rw [ImportReport.imported, Prod.mk.injEq] at hreport
  rw [hreport.1, hall, countP_isConnection] at hlength
  have hapart := ((length_applied 0 hasks).2 hlength).2
  rwa [Extracted.filterMap_entries] at hapart

/-- They hold where the writes reach the disk and none is merged into another. -/
theorem ImportLaws.sufficient
    (hsaves : ∀ k < (legacy.entries fromStr store.snapshot.providerConnections
      store.snapshot.proxyPools store.snapshot.combos).length, store.Saves (tries k).io)
    (hapart : (legacy.requests fromStr store.snapshot.providerConnections).Pairwise
      fun earlier later ↦ ¬ later.MergesInto earlier) :
    ImportLaws fromStr tries store legacy := by
  obtain ⟨hsnap, counted, last, hsub, hlast, hcounted, hreport, hsaved⟩ :=
    importLegacy_spec fromStr tries store legacy
  have hall := hsub.eq_of_length (hsaved.mpr hsaves)
  have hasks := fun entry hentry ↦ @Extracted.asks_of_mem_entries fromStr legacy
    store.snapshot.providerConnections store.snapshot.proxyPools store.snapshot.combos entry hentry
  rw [← @Extracted.filterMap_entries fromStr legacy store.snapshot.providerConnections
    store.snapshot.proxyPools store.snapshot.combos] at hapart
  obtain ⟨cs, ps, qs, happlied, hgrown⟩ := @applied_of_apart fromStr tries _ store.snapshot 0 hasks
    (fun request hrequest c hc ↦ Extracted.not_meets_of_mem_requests
      (Extracted.filterMap_entries ▸ hrequest) hc) hapart
  obtain ⟨hconnections, hpools, hcombos⟩ :=
    legacy.tables_applySettings (store.snapshot.grown cs ps qs)
  rw [happlied] at hsnap
  rw [← hsnap] at hconnections hpools hcombos
  have hkind {p : Operation → Bool} (hp : ∀ entry ∈ settingsWrite legacy, p entry.2 = false) :
      (store.importLegacy fromStr tries legacy false).counted.filter (p ·.2) =
        (legacy.entries fromStr store.snapshot.providerConnections store.snapshot.proxyPools
          store.snapshot.combos).filter (p ·.2) := by
    have hlast : last.filter (p ·.2) = [] :=
      List.filter_eq_nil_iff.mpr fun entry hentry ↦ by simp [hp entry (hlast.subset hentry)]
    rw [hcounted, hall, List.filter_append, hlast, List.append_nil]
  rw [hall, ImportReport.imported] at hreport
  simp only [Prod.mk.injEq] at hreport
  obtain ⟨hcount, hcount', hcount''⟩ := hreport
  refine ⟨⟨cs, ps, qs, hsnap⟩, ?_, ?_, ?_, ⟨?_, ?_, ?_⟩, ?_, ?_⟩
  · rw [hconnections]
    exact own_of_grown (hkind fun _ h ↦ (of_mem_settingsWrite h).2.1) hgrown.connections
  · rw [hpools]
    exact own_of_grown (hkind fun _ h ↦ (of_mem_settingsWrite h).2.2.1) hgrown.proxyPools
  · rw [hcombos]
    exact own_of_grown (hkind fun _ h ↦ (of_mem_settingsWrite h).2.2.2) hgrown.combos
  · rw [hconnections, hcount, List.countP_eq_length_filter, hgrown.connections.length_eq]
    exact List.length_append
  · rw [hpools, hcount', List.countP_eq_length_filter, hgrown.proxyPools.length_eq]
    exact List.length_append
  · rw [hcombos, hcount'', List.countP_eq_length_filter, hgrown.combos.length_eq]
    exact List.length_append
  · intro run later
    have hsecond := (importLegacy_spec fromStr later run.store legacy).1
    have hempty : legacy.entries fromStr run.store.snapshot.providerConnections
        run.store.snapshot.proxyPools run.store.snapshot.combos = [] := by
      rw [hconnections, hpools, hcombos]
      exact Extracted.entries_of_grown hgrown
    rw [hempty] at hsecond
    rw [hsecond, StateSnapshot.applied, hsnap, Extracted.applySettings_applySettings]
  · rw [imported_of_dryRun, ImportReport.imported, hcount, hcount', hcount'']

/-- An import keeps its laws exactly where the write of every record reaches the disk and, of the
connections that the store lacks, no later one is merged into an earlier. -/
theorem importLaws_iff (fromStr : String → Option Json) (tries : Nat → Attempt)
    (store : StateStore) (legacy : Extracted) : ImportLaws fromStr tries store legacy ↔
      (∀ k < (legacy.entries fromStr store.snapshot.providerConnections store.snapshot.proxyPools
        store.snapshot.combos).length, store.Saves (tries k).io) ∧
      (legacy.requests fromStr store.snapshot.providerConnections).Pairwise fun earlier later ↦
        ¬ later.MergesInto earlier :=
  ⟨fun h ↦ h.necessary, fun h ↦ .sufficient h.1 h.2⟩

end

/-- A file of the older layout with two keys of one provider under one name. -/
def twoKeys : Json :=
  let connection := fun key : String ↦ Json.obj
    [("provider", .str "openai"), ("name", .str "main"), ("apiKey", .str key)]
  .obj [("connections", .arr [connection "sk-first", connection "sk-second"])]

/-- Both keys are counted as imported, into one connection, which holds the second. -/
theorem repeated_connection_is_merged :
    let legacy := Extracted.ofJson (fun _ ↦ none) twoKeys
    let run := StateStore.importLegacy (fun _ ↦ none) (fun i ↦ ⟨i, i, none⟩)
      ⟨true, {}, {}, false⟩ legacy false
    run.report.connectionsImported = 2 ∧
      run.store.snapshot.providerConnections.map (·.apiKey) = [some "sk-second"] ∧
      ¬ ImportLaws (fun _ ↦ none) (fun i ↦ ⟨i, i, none⟩) ⟨true, {}, {}, false⟩ legacy := by
  intro legacy run
  have hreport : run.report.connectionsImported = 2 := by decide +kernel
  have hkeys : run.store.snapshot.providerConnections.map (·.apiKey) = [some "sk-second"] := by
    decide +kernel
  refine ⟨hreport, hkeys, fun h ↦ ?_⟩
  have hlength := h.counts.1
  have hone : run.store.snapshot.providerConnections.length = 1 := by
    rw [← List.length_map, hkeys]
    rfl
  rw [hone, hreport] at hlength
  cases hlength

end NullRouter.State
