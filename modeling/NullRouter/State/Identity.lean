import NullRouter.Base.Run
import NullRouter.State.Atomicity

/-!
# Identifiers of the stored records

Runs of the store's operations and the ids they leave: combos and provider nodes look for a
free number (`services/state-actix/src/store.rs:2066`, `provider_nodes/store.rs:82`), the other
records take the clock and the length of their table (`next_id`, `store.rs:2058`).
-/

namespace NullRouter.State

open NullRouter.Base

/-- The keys of a table are pairwise distinct. -/
def DistinctBy {α : Type} (key : α → String) (l : List α) : Prop := (l.map key).Nodup

instance {α : Type} (key : α → String) (l : List α) : Decidable (DistinctBy key l) :=
  inferInstanceAs (Decidable (l.map key).Nodup)

namespace DistinctBy

variable {α : Type} {key : α → String} {l l' : List α}

/-- At most one record has a given key. -/
theorem length_filter_le (h : DistinctBy key l) (id : String) :
    (l.filter (key · == id)).length ≤ 1 := by
  have hcount : (l.filter (key · == id)).length = (l.map key).count id := by
    rw [List.count, List.countP_map, List.countP_eq_length_filter]
    rfl
  rw [hcount]
  exact List.nodup_iff_count_le_one.mp h id

/-- Removing records keeps keys distinct. -/
theorem filter (h : DistinctBy key l) (p : α → Bool) : DistinctBy key (l.filter p) :=
  h.sublist (List.filter_sublist.map key)

/-- A change of one record that keeps its key keeps keys distinct. -/
theorem of_updateFirst (h : DistinctBy key l) {p : α → Bool} {f : α → α}
    (hu : updateFirst p f l = some l') (hf : ∀ x, key (f x) = key x) : DistinctBy key l' := by
  unfold DistinctBy
  rw [map_updateFirst (fun x _ _ ↦ hf x) hu]
  exact h

/-- Appending keeps keys distinct exactly when the new key is not there. -/
theorem append_iff (h : DistinctBy key l) (x : α) :
    DistinctBy key (l ++ [x]) ↔ ∀ y ∈ l, key y ≠ key x := by
  unfold DistinctBy at h ⊢
  rw [List.map_append, List.nodup_append]
  simp [h]

end DistinctBy

/-- Counting up far enough reaches a number that is not taken. -/
theorem firstFree_free {taken : Nat → Bool} {index fuel : Nat}
    (h : ∃ k < fuel, taken (index + k) = false) : taken (firstFree taken index fuel) = false := by
  induction fuel generalizing index with
  | zero =>
    obtain ⟨k, hk, -⟩ := h
    omega
  | succ fuel ih =>
    unfold firstFree
    split
    · next ht =>
      apply ih
      obtain ⟨k, hk, hfree⟩ := h
      cases k with
      | zero =>
        rw [Nat.add_zero, ht] at hfree
        cases hfree
      | succ k => exact ⟨k, by omega, by rw [← hfree]; congr 1; omega⟩
    · next ht => simpa using ht

/-- A counted id is one that no record of the table has. -/
theorem firstFree_id_ne {α : Type} {key : α → String} (l : List α) (pre : String)
    (index : Nat) : ∀ x ∈ l, key x ≠
      pre ++ toString (firstFree (fun i ↦ l.any (key · == pre ++ toString i)) index
        (l.length + 1)) := by
  obtain ⟨k, hk, hfree⟩ :=
    exists_notMem_of_injective (append_toString_injective pre) (l.map key) index
  rw [List.length_map] at hk
  let taken := fun i : Nat ↦ l.any (key · == pre ++ toString i)
  have hfar : ∃ k < l.length + 1, taken (index + k) = false :=
    ⟨k, by omega, by simpa [taken] using hfree⟩
  have hspec : taken (firstFree taken index (l.length + 1)) = false := firstFree_free hfar
  intro x hx e
  simp only [taken, List.any_eq_false] at hspec
  exact hspec x hx (by rw [e]; exact beq_self_eq_true _)

/-- `next_combo_id` answers with an id no combo has. -/
theorem nextComboId_fresh (combos : List Combo) : ∀ c ∈ combos, c.id ≠ nextComboId combos :=
  firstFree_id_ne combos "combo_" _

namespace StateSnapshot

/-- The ids of each of the five tables are pairwise distinct. -/
structure IdsDistinct (s : StateSnapshot) : Prop where
  connections : DistinctBy ProviderConnection.id s.providerConnections
  proxyPools : DistinctBy ProxyPool.id s.proxyPools
  combos : DistinctBy Combo.id s.combos
  apiKeys : DistinctBy ApiKeyRecord.id s.apiKeys
  users : DistinctBy UserRecord.id s.users

/-- The snapshot of a new store has no ids at all. -/
theorem idsDistinct_empty : IdsDistinct {} := by
  constructor <;> exact List.nodup_nil

/-- The id an operation mints from the clock and a table's length is one no record of the table
has. Combos need no such condition, and neither does a connection merged into another. -/
def MintsFresh (s : StateSnapshot) (op : Operation) (mint : Nat) : Prop :=
  match op with
  | .createConnection request =>
    (∃ existing ∈ s.providerConnections, existing.provider = request.provider ∧
      existing.authType = "apikey" ∧ existing.name = request.name) ∨
    ∀ existing ∈ s.providerConnections,
      existing.id ≠ nextId "conn" mint s.providerConnections.length
  | .createProxyPool _ => ∀ existing ∈ s.proxyPools,
      existing.id ≠ nextId "proxy_pool" mint s.proxyPools.length
  | .createKey _ _ => ∀ existing ∈ s.apiKeys, existing.id ≠ nextId "key" mint s.apiKeys.length
  | .createUser _ _ _ _ _ _ => ∀ existing ∈ s.users,
      existing.id ≠ nextId "user" mint s.users.length
  | _ => True

end StateSnapshot

/-- One call of an operation: the clock readings it makes and what the disk answers. -/
structure StoreCall where
  op : Operation
  now : Nat
  mint : Nat
  io : Option StoreError

namespace StateStore

/-- A call as a labelled step of the store. -/
def Step (s : StateStore) (c : StoreCall) (s' : StateStore) : Prop :=
  s' = (s.perform c.op c.now c.mint c.io).2

/-- Whatever the disk answers, a call leaves the snapshot or runs its closure on it. -/
theorem perform_snapshot (s : StateStore) (op : Operation) (now mint : Nat)
    (io : Option StoreError) :
    (s.perform op now mint io).2.snapshot = s.snapshot ∨
      (s.perform op now mint io).2.snapshot = (op.closure now mint s.snapshot).2 := by
  unfold perform
  cases op.precheck with
  | some e => exact .inl rfl
  | none =>
    simp only [writeSnapshot, persist]
    cases s.fileBacked <;> cases io <;> exact .inr rfl

end StateStore

namespace Operation

/-- An edit of one record keeps what holds of the snapshot and of the edited one. -/
theorem orNotFound_keeps {P : StateSnapshot → Prop} {α : Type} {edited : Option α}
    {s : StateSnapshot} {set : α → StateSnapshot} (hs : P s)
    (hset : ∀ x, edited = some x → P (set x)) : P (orNotFound s (edited.map set)).2 := by
  cases edited with
  | none => exact hs
  | some x => exact hset x rfl

/-- A change that may be refused keeps what holds of the snapshot and of the changed one. -/
theorem orRefused_keeps {P : StateSnapshot → Prop} {s : StateSnapshot}
    {changed : Except UserError StateSnapshot} (hs : P s)
    (hchanged : ∀ s', changed = .ok s' → P s') : P (orRefused s changed).2 := by
  cases changed with
  | error e => exact hs
  | ok s' => exact hchanged s' rfl

/-- An operation on a user. -/
def isOfUser : Operation → Bool
  | .createUser .. | .updateUser .. | .deleteUser _ => true
  | _ => false

/-- An operation on a user changes nothing but the users. -/
theorem users_keeps {P : StateSnapshot → Prop} {s : StateSnapshot} {op : Operation}
    (hs : P s) (hset : ∀ users, P { s with users := users }) (h : op.isOfUser = true)
    (now mint : Nat) : P (op.closure now mint s).2 := by
  cases op with
  | createUser username password displayName email role bcrypt =>
    simp only [closure]
    split
    · refine orRefused_keeps hs fun s' hs' ↦ ?_
      unfold StateSnapshot.createUser at hs'
      split at hs' <;> cases hs'
      exact hset _
    · exact hs
  | updateUser id update bcrypt =>
    refine orRefused_keeps hs fun s' hs' ↦ ?_
    unfold StateSnapshot.updateUser at hs'
    split at hs'
    · cases hs'
    · split at hs' <;> cases hs'
      exact hset _
  | deleteUser id =>
    refine orRefused_keeps hs fun s' hs' ↦ ?_
    unfold StateSnapshot.deleteUser at hs'
    split at hs'
    · cases hs'
    · split at hs' <;> cases hs'
      exact hset _
  | _ => cases h

private theorem deleteProxyPool_ids {s : StateSnapshot} (hs : s.IdsDistinct) (id : String) :
    (s.deleteProxyPool id).2.IdsDistinct := by
  simp only [StateSnapshot.deleteProxyPool]
  split
  · exact hs
  · exact { hs with proxyPools := hs.proxyPools.filter _ }

/-- A closure whose minted id is fresh keeps ids distinct. -/
theorem closure_idsDistinct {s : StateSnapshot} {op : Operation} {now mint : Nat}
    (hs : s.IdsDistinct) (hc : s.MintsFresh op mint) : (op.closure now mint s).2.IdsDistinct := by
  cases op with
  | createConnection request =>
    simp only [closure, StateSnapshot.createConnection]
    split
    · next merged hm =>
      exact { hs with connections := hs.connections.of_updateFirst hm fun _ ↦ rfl }
    · next hm =>
      have hnone := List.find?_eq_none.mp (updateFirst_eq_none.mp hm)
      refine { hs with connections := (hs.connections.append_iff _).mpr ?_ }
      rcases hc with ⟨existing, hmem, hp, ha, hn⟩ | hfresh
      · exact absurd (by simp [ProviderConnectionInput.toRecord, hp, ha, hn]) (hnone existing hmem)
      · exact hfresh
  | updateConnection id input =>
    exact orNotFound_keeps hs fun _ hu ↦
      { hs with connections := hs.connections.of_updateFirst hu fun _ ↦ rfl }
  | updateConnectionCredentials id update =>
    exact orNotFound_keeps hs fun _ hu ↦
      { hs with connections := hs.connections.of_updateFirst hu fun _ ↦ rfl }
  | deleteConnection id => exact { hs with connections := hs.connections.filter _ }
  | createCombo name kind models =>
    exact { hs with combos := (hs.combos.append_iff _).mpr (nextComboId_fresh s.combos) }
  | updateCombo id update =>
    exact orNotFound_keeps hs fun _ hu ↦
      { hs with combos := hs.combos.of_updateFirst hu fun _ ↦ rfl }
  | deleteCombo id => exact { hs with combos := hs.combos.filter _ }
  | createProxyPool input =>
    exact { hs with proxyPools := (hs.proxyPools.append_iff _).mpr hc }
  | updateProxyPool id input =>
    exact orNotFound_keeps hs fun _ hu ↦
      { hs with proxyPools := hs.proxyPools.of_updateFirst hu fun _ ↦ rfl }
  | deleteProxyPool id =>
    have hids := deleteProxyPool_ids hs id
    simp only [closure]
    cases hd : s.deleteProxyPool id with
    | mk r s' =>
      rw [hd] at hids
      cases r <;> exact hids
  | createKey name digest => exact { hs with apiKeys := (hs.apiKeys.append_iff _).mpr hc }
  | updateKey id isActive =>
    exact orNotFound_keeps hs fun _ hu ↦
      { hs with apiKeys := hs.apiKeys.of_updateFirst hu fun _ ↦ rfl }
  | deleteKey id => exact { hs with apiKeys := hs.apiKeys.filter _ }
  | createUser username password displayName email role bcrypt =>
    simp only [closure]
    split
    · refine orRefused_keeps hs fun s' h ↦ ?_
      unfold StateSnapshot.createUser at h
      split at h
      · cases h
      · cases h
        exact { hs with users := (hs.users.append_iff _).mpr hc }
    · exact hs
  | updateUser id update bcrypt =>
    refine orRefused_keeps hs fun s' h ↦ ?_
    unfold StateSnapshot.updateUser at h
    split at h
    · cases h
    · split at h
      · cases h
      · next users hu =>
        cases h
        exact { hs with users := hs.users.of_updateFirst hu fun _ ↦ rfl }
  | deleteUser id =>
    refine orRefused_keeps hs fun s' h ↦ ?_
    unfold StateSnapshot.deleteUser at h
    split at h
    · cases h
    · split at h
      · cases h
      · cases h
        exact { hs with users := hs.users.filter _ }
  | setDisabledModels providerAlias ids =>
    simp only [closure, StateSnapshot.setDisabledModels]
    split <;> exact { hs with }
  | addCustomModel providerAlias id modelType name =>
    simp only [closure, StateSnapshot.addCustomModel]
    split <;> exact { hs with }
  | updateProviderNode id input => exact orNotFound_keeps hs fun _ _ ↦ { hs with }
  | deleteProviderNode id =>
    simp only [closure, orAbsent, StateSnapshot.deleteProviderNode]
    split
    · exact { hs with connections := hs.connections.filter _ }
    · exact { hs with }
  | updateSettings _ | applyImportedSettings _ | saveTranslatorLog _ _ | clearDisabledModels _
  | deleteCustomModel _ _ | setModelAlias _ _ | deleteModelAlias _ | createProviderNode _ =>
    exact { hs with }

end Operation

namespace StateStore

/-- The condition on a call, at the store it is made on. -/
def MintsFresh (s : StateStore) (c : StoreCall) : Prop := s.snapshot.MintsFresh c.op c.mint

/-- A call that mints a fresh id, if it mints one, keeps ids distinct. -/
theorem step_idsDistinct {s s' : StateStore} {c : StoreCall} (hs : s.snapshot.IdsDistinct)
    (hc : s.MintsFresh c) (h : s.Step c s') : s'.snapshot.IdsDistinct := by
  subst h
  rcases s.perform_snapshot c.op c.now c.mint c.io with h | h
  · rw [h]
    exact hs
  · rw [h]
    exact Operation.closure_idsDistinct hs hc

/-- In every run of operations from a store with distinct ids, such as an empty one, where each
id minted from the clock and a table's length is one that no record has: the ids of every
table are distinct, and at most one record of a table has a given id. -/
theorem ids_distinct_of_fresh {s₀ s : StateStore} {cs : List StoreCall}
    (h : Run (Guarded MintsFresh Step) s₀ cs s) (h₀ : s₀.snapshot.IdsDistinct) :
    s.snapshot.IdsDistinct ∧ ∀ id,
      (s.snapshot.providerConnections.filter (·.id == id)).length ≤ 1 ∧
      (s.snapshot.proxyPools.filter (·.id == id)).length ≤ 1 ∧
      (s.snapshot.combos.filter (·.id == id)).length ≤ 1 ∧
      (s.snapshot.apiKeys.filter (·.id == id)).length ≤ 1 ∧
      (s.snapshot.users.filter (·.id == id)).length ≤ 1 := by
  have hs : s.snapshot.IdsDistinct := h.invariant (fun s ↦ s.snapshot.IdsDistinct)
    (fun _ _ _ hi hstep ↦ step_idsDistinct hi hstep.1 hstep.2) h₀
  exact ⟨hs, fun id ↦ ⟨hs.connections.length_filter_le id, hs.proxyPools.length_filter_le id,
    hs.combos.length_filter_le id, hs.apiKeys.length_filter_le id, hs.users.length_filter_le id⟩⟩

/-- A store in memory with nothing in it. -/
def empty : StateStore := ⟨false, {}, {}, false⟩

/-- The rule at two keys made in one millisecond and the first of them deleted. -/
theorem ids_distinct_after_delete :
    ∃ s, Run (Guarded MintsFresh Step) empty
      [⟨.createKey "a" (some []), 5, 5, none⟩, ⟨.createKey "b" (some []), 5, 5, none⟩,
        ⟨.deleteKey "key_5_1", 6, 6, none⟩, ⟨.createKey "c" (some []), 6, 6, none⟩] s ∧
      s.snapshot.apiKeys.map (·.id) = ["key_5_2", "key_6_2"] ∧ s.snapshot.IdsDistinct := by
  have fresh (s : StateStore) (name : String) (mint : Nat)
      (h : ∀ k ∈ s.snapshot.apiKeys, k.id ≠ nextId "key" mint s.snapshot.apiKeys.length) :
      s.MintsFresh ⟨.createKey name (some []), mint, mint, none⟩ := h
  have run : Run (Guarded MintsFresh Step) empty
      [⟨.createKey "a" (some []), 5, 5, none⟩, ⟨.createKey "b" (some []), 5, 5, none⟩,
        ⟨.deleteKey "key_5_1", 6, 6, none⟩, ⟨.createKey "c" (some []), 6, 6, none⟩] _ :=
    .cons ⟨fresh _ "a" 5 (by decide), rfl⟩ <| .cons ⟨fresh _ "b" 5 (by decide), rfl⟩ <|
    .cons ⟨trivial, rfl⟩ <| .cons ⟨fresh _ "c" 6 (by decide), rfl⟩ <| .nil _
  exact ⟨_, run, by decide, (ids_distinct_of_fresh run StateSnapshot.idsDistinct_empty).1⟩

/-- Two connections made in one millisecond, the first deleted and a third made in that same
millisecond: the third has the id of the second, and a delete by that id removes both. -/
theorem reused_connection_id :
    ∃ s, Run Step empty
      [⟨.createConnection { provider := "p", name := "a" }, 5, 5, none⟩,
        ⟨.createConnection { provider := "p", name := "b" }, 5, 5, none⟩,
        ⟨.deleteConnection "conn_5_1", 5, 5, none⟩,
        ⟨.createConnection { provider := "p", name := "c" }, 5, 5, none⟩] s ∧
      s.snapshot.providerConnections.map (fun c ↦ (c.id, c.name)) =
        [("conn_5_2", "b"), ("conn_5_2", "c")] ∧
      ¬ s.snapshot.IdsDistinct ∧
      (s.snapshot.deleteConnection "conn_5_2").2.providerConnections = [] := by
  refine ⟨_, .cons rfl <| .cons rfl <| .cons rfl <| .cons rfl <| .nil _, ?_, fun h ↦ ?_, ?_⟩
  · decide
  · exact absurd h.connections (by decide)
  · decide

end StateStore
end NullRouter.State
