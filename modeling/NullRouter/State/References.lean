import NullRouter.State.Identity
import NullRouter.State.Routes

/-!
# References between records

Requests that run at once, each as its steps: the routes read the store once to check what a request
refers to (`services/state-actix/src/routes.rs:302–373,844–890`) and write it later under another
lock. The pools that connections are bound to, and the names of combos, over every interleaving.
-/

namespace NullRouter.State

open NullRouter.Base

/-! ## What refers to what -/

/-- The pool the settings of a connection name, read as `bound_connection_count` reads it,
`store.rs:2041`. -/
def proxyPoolId? (data : Option (Std.ExtTreeMap String Json)) : Option String :=
  (data.bind (·["proxyPoolId"]?)).bind Json.asStr

namespace StateSnapshot

/-- The pool the settings of a connection name, if they name one, is there. -/
def Refers (s : StateSnapshot) (data : Option (Std.ExtTreeMap String Json)) : Prop :=
  ∀ id, proxyPoolId? data = some id → s.proxyPoolExists id = true

/-- Every connection that names a proxy pool names one that is there. -/
def PoolsThere (s : StateSnapshot) : Prop :=
  ∀ c ∈ s.providerConnections, ∀ id, proxyPoolId? c.providerSpecificData = some id →
    ∃ pool ∈ s.proxyPools, pool.id = id

/-- Every connection that names a proxy pool names one that is there, and the names and the ids of
the combos are pairwise distinct. -/
structure Intact (s : StateSnapshot) : Prop where
  pools : ∀ c ∈ s.providerConnections, s.Refers c.providerSpecificData
  names : DistinctBy Combo.name s.combos
  ids : DistinctBy Combo.id s.combos

/-- The checks of the routes, made at the write: a connection that is written names no pool or one
that is there, and the name a combo is written under is that of no other. -/
def Checked (s : StateSnapshot) : Operation → Prop
  | .createConnection request => s.Refers request.providerSpecificData
  | .updateConnection id input => s.providerConnections.any (·.id == id) = true →
    input.providerSpecificData.isSome = true → s.Refers input.providerSpecificData
  | .createCombo name _ _ => s.comboNameExists name none = false
  | .updateCombo id update => s.combos.any (·.id == id) = true →
    ∀ name, update.name = some name → s.comboNameExists name (some id) = false
  | .updateConnectionCredentials _ update => s.Refers update.providerSpecificData
  | _ => True

theorem intact_empty : Intact {} :=
  ⟨fun _ hc ↦ absurd hc List.not_mem_nil, List.nodup_nil, List.nodup_nil⟩

end StateSnapshot

/-! ## Requests at once -/

/-- A request of the routes; a body that is not of the route's form is `none`. An import comes with
what it found of the legacy installation, `none` where it found nothing. -/
inductive Request where
  | createProvider (body : Option ProviderRequest)
  | updateProvider (id : String) (body : Option ProviderUpdateRequest)
  | deleteProvider (id : String)
  | createCombo (body : Option ComboRequest)
  | updateCombo (id : String) (body : Option Json)
  | deleteCombo (id : String)
  | createProxyPool (body : Option ProxyPoolRequest)
  | updateProxyPool (id : String) (body : Option ProxyPoolRequest)
  | deleteProxyPool (id : String)
  | importLegacy (legacy : Option Extracted) (dryRun : Bool)

/-- Where a request stands: before its check, or, an import, between its three reads, or with the
writes that are left. -/
inductive Task where
  | check (request : Request)
  | readPools (legacy : Extracted) (connections : Connections)
  | readCombos (legacy : Extracted) (connections : Connections) (pools : List ProxyPool)
  | write (ops : List Operation)

/-- The one write of a request that passed its check; a refused request has none. -/
def Task.ofPlan : Except Reply Operation → Task
  | .ok op => .write [op]
  | .error _ => .write []

/-- The body of a request, or the refusal of `parse_json`. -/
def parsed {α : Type} (body : Option α) : Except Reply α :=
  (body.map Except.ok).getD (.error .invalidBody)

section Requests

variable (fromStr : String → Option Json)

/-- The check of a request against a snapshot. -/
def Request.check (s : StateSnapshot) : Request → Task
  | .createProvider body => .ofPlan ((parsed body).bind (Routes.createProvider s))
  | .updateProvider id body => .ofPlan ((parsed body).bind (Routes.updateProvider s id))
  | .deleteProvider id => .write [.deleteConnection id]
  | .createCombo body => .ofPlan ((parsed body).bind (Routes.createCombo s))
  | .updateCombo id body => .ofPlan ((parsed body).bind (Routes.updateCombo s id))
  | .deleteCombo id => .write [.deleteCombo id]
  | .createProxyPool body =>
    .ofPlan (((parsed body).bind parseProxyPoolInput).map Operation.createProxyPool)
  | .updateProxyPool id body =>
    .ofPlan (((parsed body).bind proxyPoolUpdateFromRequest).map (Operation.updateProxyPool id))
  | .deleteProxyPool id => .write [.deleteProxyPool id]
  | .importLegacy (some legacy) false => .readPools legacy s.providerConnections
  | .importLegacy _ _ => .write []

/-- One read of the store by a request. -/
def Task.read (s : StateSnapshot) : Task → Task
  | .check request => request.check s
  | .readPools legacy connections => .readCombos legacy connections s.proxyPools
  | .readCombos legacy connections pools =>
    .write (legacy.writes fromStr connections pools s.combos)
  | .write ops => .write ops

/-- The service: the store and the requests under way. -/
structure Server where
  store : StateStore
  tasks : List Task

/-- A step: a request arrives, reads the store once, or writes it once, with the clock readings and
what the disk answers. -/
inductive ServerAction where
  | receive (request : Request)
  | read (i : Nat)
  | write (i now mint : Nat) (io : Option StoreError)

/-- The operation a write of a request is. -/
def Server.operation? (s : Server) (i : Nat) : Option Operation :=
  match s.tasks[i]? with
  | some (.write (op :: _)) => some op
  | _ => none

/-- The steps of the service. -/
inductive Server.Step (s : Server) : ServerAction → Server → Prop where
  | receive (request : Request) :
      Step s (.receive request) { s with tasks := s.tasks ++ [.check request] }
  | read {i : Nat} {task : Task} (h : s.tasks[i]? = some task) :
      Step s (.read i) { s with tasks := s.tasks.set i (task.read fromStr s.store.snapshot) }
  | write {i now mint : Nat} {io : Option StoreError} {op : Operation} {ops : List Operation}
      (h : s.tasks[i]? = some (.write (op :: ops))) :
      Step s (.write i now mint io)
        ⟨(s.store.perform op now mint io).2, s.tasks.set i (.write ops)⟩

/-- What a request checked still holds when it writes. -/
def Server.StillChecked (s : Server) : ServerAction → Prop
  | .write i _ _ _ => ∀ op, s.operation? i = some op → s.store.snapshot.Checked op
  | _ => True

end Requests

/-! ## One write -/

/-- A change of one record under a key that no other record has keeps keys distinct. -/
theorem DistinctBy.of_updateFirst_fresh {α : Type} {key : α → String} {l l' : List α}
    {p : α → Bool} {f : α → α} (h : DistinctBy key l) (hu : updateFirst p f l = some l')
    (hone : ∀ x ∈ l, ∀ y ∈ l, p x = true → p y = true → x = y)
    (hfresh : ∀ x ∈ l, p x = true → ∀ y ∈ l, p y = false → key y ≠ key (f x)) :
    DistinctBy key l' := by
  induction l generalizing l' with
  | nil => cases hu
  | cons x xs ih =>
    obtain ⟨hnot, hxs⟩ := List.nodup_cons.mp h
    have hother {y : α} (hy : y ∈ xs) : key y ≠ key x :=
      fun hkey ↦ hnot (hkey ▸ List.mem_map_of_mem hy)
    unfold updateFirst at hu
    split at hu
    · next hx =>
      cases hu
      refine List.nodup_cons.mpr ⟨fun hmem ↦ ?_, hxs⟩
      obtain ⟨y, hy, hkey⟩ := List.mem_map.mp hmem
      refine hfresh x List.mem_cons_self hx y (List.mem_cons_of_mem _ hy) ?_ hkey
      refine Bool.eq_false_iff.mpr fun hpy ↦ hother hy ?_
      rw [hone y (List.mem_cons_of_mem _ hy) x List.mem_cons_self hpy hx]
    · next hx =>
      obtain ⟨ys, hys, rfl⟩ := Option.map_eq_some_iff.mp hu
      refine List.nodup_cons.mpr ⟨fun hmem ↦ ?_, ih hxs hys
        (fun a ha b hb ↦ hone a (List.mem_cons_of_mem _ ha) b (List.mem_cons_of_mem _ hb))
        (fun a ha hpa b hb ↦ hfresh a (List.mem_cons_of_mem _ ha) hpa b
          (List.mem_cons_of_mem _ hb))⟩
      obtain ⟨y, hy, hkey⟩ := List.mem_map.mp hmem
      revert hkey
      refine forall_mem_updateFirst (P := fun y ↦ key y ≠ key x) hys (fun y hy ↦ hother hy)
        (fun z hz hkey ↦ ?_) y hy
      exact hfresh z (List.mem_cons_of_mem _ (List.mem_of_find?_eq_some hz)) (List.find?_some hz) x
        List.mem_cons_self (by simpa using hx) hkey.symm

namespace StateSnapshot

variable {s : StateSnapshot}

theorem proxyPoolExists_iff {id : String} :
    s.proxyPoolExists id = true ↔ ∃ pool ∈ s.proxyPools, pool.id = id := by
  simp [proxyPoolExists]

theorem comboNameExists_none {name : String} :
    s.comboNameExists name none = false ↔ ∀ c ∈ s.combos, c.name ≠ name := by
  simp [comboNameExists]

theorem comboNameExists_some {name id : String} :
    s.comboNameExists name (some id) = false ↔ ∀ c ∈ s.combos, c.id ≠ id → c.name ≠ name := by
  simp only [comboNameExists, List.any_eq_false, Option.all_some, Bool.and_eq_true, beq_iff_eq,
    bne_iff_ne, not_and, Decidable.not_not, ne_eq]
  exact forall₂_congr fun c _ ↦ ⟨fun h hne hname ↦ hne (h hname),
    fun h hname ↦ Decidable.byContradiction fun hne ↦ h hne hname⟩

/-- Connections may go. -/
theorem Intact.subset (h : s.Intact) {kept : Connections} (hkept : kept ⊆ s.providerConnections) :
    Intact { s with providerConnections := kept } :=
  ⟨fun c hc ↦ h.pools c (hkept hc), h.names, h.ids⟩

/-- A connection may be edited to settings that name no pool or one that is there. -/
theorem Intact.edit (h : s.Intact) {p : ProviderConnection → Bool}
    {f : ProviderConnection → ProviderConnection} {changed : Connections}
    (hu : updateFirst p f s.providerConnections = some changed)
    (hf : ∀ c, s.providerConnections.find? p = some c → s.Refers (f c).providerSpecificData) :
    Intact { s with providerConnections := changed } := by
  have hpools : ∀ c ∈ changed, s.Refers c.providerSpecificData :=
    forall_mem_updateFirst hu h.pools hf
  exact ⟨hpools, h.names, h.ids⟩

/-- A pool that nothing is bound to may go. -/
theorem Intact.deleteProxyPool (h : s.Intact) {id : String}
    (hbound : boundConnectionCount s.providerConnections id = 0) :
    Intact { s with proxyPools := s.proxyPools.filter (·.id != id) } := by
  refine ⟨fun c hc bound hid ↦ ?_, h.names, h.ids⟩
  have hne : bound ≠ id := by
    rintro rfl
    have hnone := List.filter_eq_nil_iff.mp (List.eq_nil_of_length_eq_zero hbound) c hc
    exact hnone (beq_iff_eq.mpr hid)
  obtain ⟨pool, hpool, hpid⟩ := proxyPoolExists_iff.mp (h.pools c hc bound hid)
  exact proxyPoolExists_iff.mpr ⟨pool, List.mem_filter.mpr ⟨hpool, by simpa [hpid] using hne⟩, hpid⟩

/-- A pool is deleted only where nothing is bound to it. -/
theorem Intact.deleteProxyPool_result (h : s.Intact) (id : String) :
    (s.deleteProxyPool id).2.Intact := by
  unfold StateSnapshot.deleteProxyPool
  dsimp only
  split
  · exact h
  · next hbound => exact h.deleteProxyPool (Nat.eq_zero_of_not_pos hbound)

/-- Settings merged over others name the pool of one of the two. -/
theorem Refers.merge {old incoming : Std.ExtTreeMap String Json} (hold : s.Refers (some old))
    (hincoming : s.Refers (some incoming)) :
    s.Refers (some (incoming.toList.foldl (fun settings e ↦ settings.insert e.1 e.2) old)) := by
  have hfold (l : List (String × Json)) (m : Std.ExtTreeMap String Json) {value : Json}
      (h : (l.foldl (fun settings e ↦ settings.insert e.1 e.2) m)["proxyPoolId"]? = some value) :
      ("proxyPoolId", value) ∈ l ∨ m["proxyPoolId"]? = some value := by
    induction l generalizing m with
    | nil => exact .inr h
    | cons e l ih =>
      rcases ih _ h with hmem | hm
      · exact .inl (List.mem_cons_of_mem _ hmem)
      · rw [Std.ExtTreeMap.getElem?_insert] at hm
        split at hm
        · next hkey =>
          cases hm
          rw [← Std.LawfulEqCmp.eq_of_compare hkey]
          exact .inl List.mem_cons_self
        · exact .inr hm
  intro id hid
  obtain ⟨value, hvalue, hstr⟩ := Option.bind_eq_some_iff.mp hid
  rcases hfold incoming.toList old hvalue with hmem | hm
  · rw [Std.ExtTreeMap.mem_toList_iff_getElem?_eq_some] at hmem
    exact hincoming id (Option.bind_eq_some_iff.mpr ⟨value, hmem, hstr⟩)
  · exact hold id (Option.bind_eq_some_iff.mpr ⟨value, hm, hstr⟩)

/-- A write whose checks still hold keeps the references and the names. -/
theorem closure_intact {op : Operation} {now mint : Nat} (h : s.Intact) (hc : s.Checked op) :
    (op.closure now mint s).2.Intact := by
  cases op with
  | createConnection request =>
    simp only [Operation.closure, StateSnapshot.createConnection]
    split
    · next merged hm => exact h.edit hm fun _ _ ↦ hc
    · refine ⟨fun c hmem ↦ ?_, h.names, h.ids⟩
      rcases List.mem_append.mp hmem with hmem | hmem
      · exact h.pools c hmem
      · rw [List.mem_singleton.mp hmem]
        exact hc
  | updateConnection id input =>
    refine Operation.orNotFound_keeps h fun changed hu ↦ h.edit hu fun c hfind ↦ ?_
    have hthere : s.providerConnections.any (·.id == id) = true :=
      List.any_eq_true.mpr
        ⟨c, List.mem_of_find?_eq_some hfind, by simpa using List.find?_some hfind⟩
    change s.Refers (input.providerSpecificData.or c.providerSpecificData)
    cases hdata : input.providerSpecificData with
    | none => exact h.pools c (List.mem_of_find?_eq_some hfind)
    | some data =>
      have hrefers := hc hthere (by rw [hdata]; rfl)
      rwa [hdata] at hrefers
  | deleteConnection id => exact h.subset fun _ hc ↦ List.mem_of_mem_filter hc
  | updateConnectionCredentials id update =>
    refine Operation.orNotFound_keeps h fun changed hu ↦ h.edit hu fun c hfind ↦ ?_
    have hold := h.pools c (List.mem_of_find?_eq_some hfind)
    simp only [Checked] at hc
    simp only [ProviderConnection.editCredentials]
    cases hdata : update.providerSpecificData with
    | none => exact hold
    | some incoming =>
      rw [hdata] at hc
      refine Refers.merge ?_ hc
      cases hold_data : c.providerSpecificData with
      | none =>
        intro id hid
        simp [proxyPoolId?] at hid
      | some data => rwa [hold_data] at hold
  | createCombo name kind models =>
    refine ⟨h.pools, ?_, (h.ids.append_iff _).mpr (nextComboId_fresh s.combos)⟩
    exact (h.names.append_iff _).mpr (comboNameExists_none.mp hc)
  | updateCombo id update =>
    refine Operation.orNotFound_keeps h fun changed hu ↦ ⟨h.pools, ?_, h.ids.of_updateFirst hu fun _ ↦ rfl⟩
    cases hname : update.name with
    | none =>
      refine h.names.of_updateFirst hu fun c ↦ ?_
      change update.name.getD c.name = c.name
      rw [hname, Option.getD_none]
    | some name =>
      refine h.names.of_updateFirst_fresh hu (fun c hc c' hc' hid hid' ↦ ?_)
        fun c hmem hid other hother hne ↦ ?_
      · exact List.inj_on_of_nodup_map h.ids hc hc'
          ((beq_iff_eq.mp hid).trans (beq_iff_eq.mp hid').symm)
      · have hthere : s.combos.any (·.id == id) = true := List.any_eq_true.mpr ⟨c, hmem, hid⟩
        change other.name ≠ update.name.getD c.name
        rw [hname, Option.getD_some]
        exact comboNameExists_some.mp (hc hthere name hname) other hother (by simpa using hne)
  | deleteCombo id => exact ⟨h.pools, h.names.filter _, h.ids.filter _⟩
  | createProxyPool input =>
    refine ⟨fun c hmem id hid ↦ ?_, h.names, h.ids⟩
    obtain ⟨pool, hpool, hpid⟩ := proxyPoolExists_iff.mp (h.pools c hmem id hid)
    exact proxyPoolExists_iff.mpr ⟨pool, List.mem_append_left _ hpool, hpid⟩
  | updateProxyPool id input =>
    refine Operation.orNotFound_keeps h fun changed hu ↦ ⟨fun c hmem bound hid ↦ ?_, h.names, h.ids⟩
    obtain ⟨pool, hpool, hpid⟩ := proxyPoolExists_iff.mp (h.pools c hmem bound hid)
    rcases mem_updateFirst hu hpool with hstays | ⟨-, hedited⟩
    · exact proxyPoolExists_iff.mpr ⟨pool, hstays, hpid⟩
    · exact proxyPoolExists_iff.mpr ⟨_, hedited, hpid⟩
  | deleteProxyPool id =>
    have hkept := h.deleteProxyPool_result id
    simp only [Operation.closure]
    cases hd : s.deleteProxyPool id with
    | mk result kept =>
      rw [hd] at hkept
      cases result with
      | deleted => exact hkept
      | notFound => exact hkept
      | inUse bound => exact hkept
  | createUser _ _ _ _ _ _ | updateUser _ _ _ | deleteUser _ =>
    exact Operation.users_keeps h (fun _ ↦ ⟨h.pools, h.names, h.ids⟩) rfl now mint
  | setDisabledModels providerAlias ids =>
    simp only [Operation.closure, StateSnapshot.setDisabledModels]
    split
    · exact ⟨h.pools, h.names, h.ids⟩
    · exact ⟨h.pools, h.names, h.ids⟩
  | addCustomModel providerAlias id modelType name =>
    simp only [Operation.closure, StateSnapshot.addCustomModel]
    split
    · exact ⟨h.pools, h.names, h.ids⟩
    · exact ⟨h.pools, h.names, h.ids⟩
  | updateKey id isActive =>
    simp only [Operation.closure, StateSnapshot.updateKey]
    exact Operation.orNotFound_keeps h fun _ _ ↦ ⟨h.pools, h.names, h.ids⟩
  | updateProviderNode id input =>
    simp only [Operation.closure, StateSnapshot.updateProviderNode]
    exact Operation.orNotFound_keeps h fun _ _ ↦ ⟨h.pools, h.names, h.ids⟩
  | deleteProviderNode id =>
    simp only [Operation.closure, Operation.orAbsent, StateSnapshot.deleteProviderNode]
    split
    · exact ⟨fun c hc ↦ h.pools c (List.mem_of_mem_filter hc), h.names, h.ids⟩
    · exact ⟨h.pools, h.names, h.ids⟩
  | updateSettings _ | applyImportedSettings _ | saveTranslatorLog _ _ | clearDisabledModels _
  | deleteCustomModel _ _ | setModelAlias _ _ | deleteModelAlias _ | createProviderNode _
  | createKey _ _ | deleteKey _ =>
    exact ⟨h.pools, h.names, h.ids⟩

end StateSnapshot

namespace Server

variable {fromStr : String → Option Json} {s t : Server} {a : ServerAction}

/-- A step whose write still passes its check keeps the references and the names. -/
theorem step_intact (hs : s.store.snapshot.Intact) (hc : s.StillChecked a)
    (h : s.Step fromStr a t) : t.store.snapshot.Intact := by
  cases h with
  | receive request => exact hs
  | read h => exact hs
  | write h =>
    rename_i i now mint io op ops
    rcases s.store.perform_snapshot op now mint io with hsame | hclosure
    · rw [hsame]
      exact hs
    · rw [hclosure]
      exact StateSnapshot.closure_intact hs (hc op (by simp only [operation?, h]))

/-- In every run of requests at once, each in its steps and in any order, whose writes still pass
the checks that the routes make earlier or not at all: every connection that names a proxy pool
names one that is there, and the names of the combos are pairwise distinct. -/
theorem references_of_stillChecked {s₀ s : Server} {as : List ServerAction}
    (h : Run (Guarded StillChecked (Step fromStr)) s₀ as s) (h₀ : s₀.store.snapshot.Intact) :
    s.store.snapshot.PoolsThere ∧ DistinctBy Combo.name s.store.snapshot.combos := by
  have hs : s.store.snapshot.Intact := h.invariant (fun s ↦ s.store.snapshot.Intact)
    (fun _ _ _ hi hstep ↦ step_intact hi hstep.1 hstep.2) h₀
  exact ⟨fun c hc id hid ↦ StateSnapshot.proxyPoolExists_iff.mp (hs.pools c hc id hid), hs.names⟩

/-- A service with nothing in its store. -/
def empty : Server := ⟨.empty, []⟩

/-- A pool is made, a connection is bound to it, and the pool is deleted. -/
def boundPool : List ServerAction :=
  [.receive (.createProxyPool (some { name := some "p", proxyUrl := some "http://p" })),
    .read 0, .write 0 5 5 none,
    .receive (.createProvider (some
      { provider := some "x", apiKey := some "k", proxyPoolId := some (.str "proxy_pool_5_1") })),
    .read 1, .write 1 6 6 none,
    .receive (.deleteProxyPool "proxy_pool_5_1"), .read 2, .write 2 7 7 none]

/-- The rule at a pool that is asked to go while a connection is bound to it. -/
theorem references_of_bound_pool :
    ∃ s, Run (Guarded StillChecked (Step fun _ ↦ none)) empty boundPool s ∧
      s.store.snapshot.providerConnections.map (proxyPoolId? ·.providerSpecificData) =
        [some "proxy_pool_5_1"] ∧
      s.store.snapshot.PoolsThere ∧ DistinctBy Combo.name s.store.snapshot.combos := by
  have checked {s : Server} {i now mint : Nat} {op : Operation} (hop : s.operation? i = some op)
      (hc : s.store.snapshot.Checked op) : s.StillChecked (.write i now mint none) := by
    intro op' hop'
    rw [hop] at hop'
    cases hop'
    exact hc
  have refers {s : StateSnapshot} {id : String} {data : Option (Std.ExtTreeMap String Json)}
      (hdata : proxyPoolId? data = some id) (hpool : s.proxyPoolExists id = true) :
      s.Refers data := by
    intro other hother
    rw [hdata] at hother
    cases hother
    exact hpool
  have run : Run (Guarded StillChecked (Step fun _ ↦ none)) empty boundPool _ :=
    .cons ⟨trivial, .receive _⟩ <| .cons ⟨trivial, .read rfl⟩ <|
    .cons ⟨checked rfl trivial, .write rfl⟩ <|
    .cons ⟨trivial, .receive _⟩ <| .cons ⟨trivial, .read rfl⟩ <|
    .cons ⟨checked rfl (refers rfl (by decide)), .write rfl⟩ <|
    .cons ⟨trivial, .receive _⟩ <| .cons ⟨trivial, .read rfl⟩ <|
    .cons ⟨checked rfl trivial, .write rfl⟩ <| .nil _
  exact ⟨_, run, by decide +kernel, references_of_stillChecked run StateSnapshot.intact_empty⟩

/-- A pool is deleted between the check and the write of a request for a connection bound to it. -/
def poolDeleted : List ServerAction :=
  [.receive (.createProxyPool (some { name := some "p", proxyUrl := some "http://p" })),
    .read 0, .write 0 5 5 none,
    .receive (.createProvider (some
      { provider := some "x", apiKey := some "k", proxyPoolId := some (.str "proxy_pool_5_1") })),
    .receive (.deleteProxyPool "proxy_pool_5_1"),
    .read 1, .read 2, .write 2 6 6 none, .write 1 7 7 none]

/-- The settings of a request name a pool themselves. -/
def rawPool : List ServerAction :=
  [.receive (.createProvider (some
      { provider := some "x", apiKey := some "k"
        providerSpecificData := some ((∅ : Std.ExtTreeMap String Json).insert "proxyPoolId"
          (.str "ghost")) })),
    .read 0, .write 0 5 5 none]

/-- Two requests for combos of one name are both checked before either is written. -/
def bothChecked : List ServerAction :=
  [.receive (.createCombo (some { name := some "c" })),
    .receive (.createCombo (some { name := some "c" })),
    .read 0, .read 1, .write 0 5 5 none, .write 1 6 6 none]

/-- Three runs from an empty store: a connection is left with a pool that was deleted, one is
written with a pool that never was, and two combos have one name. -/
theorem references_break :
    (∃ s, Run (Step fun _ ↦ none) empty poolDeleted s ∧ ¬ s.store.snapshot.PoolsThere) ∧
      (∃ s, Run (Step fun _ ↦ none) empty rawPool s ∧ ¬ s.store.snapshot.PoolsThere) ∧
      ∃ s, Run (Step fun _ ↦ none) empty bothChecked s ∧
        ¬ DistinctBy Combo.name s.store.snapshot.combos := by
  refine ⟨⟨_, .cons (.receive _) <| .cons (.read rfl) <| .cons (.write rfl) <|
      .cons (.receive _) <| .cons (.receive _) <| .cons (.read rfl) <| .cons (.read rfl) <|
      .cons (.write rfl) <| .cons (.write rfl) <| .nil _, fun h ↦ ?_⟩,
    ⟨_, .cons (.receive _) <| .cons (.read rfl) <| .cons (.write rfl) <| .nil _, fun h ↦ ?_⟩,
    ⟨_, .cons (.receive _) <| .cons (.receive _) <| .cons (.read rfl) <| .cons (.read rfl) <|
      .cons (.write rfl) <| .cons (.write rfl) <| .nil _, fun h ↦ ?_⟩⟩
  · obtain ⟨pool, hpool, -⟩ := h _ List.mem_cons_self "proxy_pool_5_1" rfl
    exact absurd hpool List.not_mem_nil
  · obtain ⟨pool, hpool, -⟩ := h _ List.mem_cons_self "ghost" rfl
    exact absurd hpool List.not_mem_nil
  · exact absurd h (by decide +kernel)

end Server
end NullRouter.State
