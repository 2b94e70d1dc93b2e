import Mathlib.Data.String.Basic
import NullRouter.Base.Offsets
import NullRouter.State.Identity

/-!
# Tables that every operation keeps in form

Provider nodes, custom and disabled models and translator logs (`services/state-actix/src/store.rs`,
`provider_nodes/store.rs`) do not depend on the clock: what holds of them holds in every run.
-/

namespace NullRouter.State

open NullRouter.Base

private theorem eraseReps_loop {α : Type} [LinearOrder α] {a : α} {l acc : List α}
    (hsorted : (a :: l).Pairwise (· ≤ ·)) (hacc : (a :: acc).Pairwise (· > ·)) :
    (List.eraseRepsBy.loop (· == ·) a l acc).Pairwise (· < ·) ∧
      ∀ x ∈ List.eraseRepsBy.loop (· == ·) a l acc, x ∈ acc ++ a :: l := by
  induction l generalizing a acc with
  | nil =>
    rw [List.eraseRepsBy.loop, List.pairwise_reverse]
    exact ⟨hacc, by simp⟩
  | cons b l ih =>
    obtain ⟨hle, hrest⟩ := List.pairwise_cons.mp hsorted
    rw [List.eraseRepsBy.loop]
    split
    · next hsame =>
      obtain rfl := eq_of_beq hsame
      obtain ⟨hstrict, hsub⟩ := ih hrest hacc
      exact ⟨hstrict, fun x hx ↦ by simpa using hsub x hx⟩
    · next hne =>
      have hlt : a < b := lt_of_le_of_ne (hle b List.mem_cons_self) (by simpa using hne)
      obtain ⟨hstrict, hsub⟩ := @ih b (a :: acc) hrest <| List.pairwise_cons.mpr
        ⟨fun c hc ↦ (List.mem_cons.mp hc).elim (· ▸ hlt)
          fun hc ↦ lt_trans ((List.pairwise_cons.mp hacc).1 c hc) hlt, hacc⟩
      refine ⟨hstrict, fun x hx ↦ ?_⟩
      have hmem := hsub x hx
      grind

/-- The ids of `set_disabled_models` are in their order, each once, and none is blank. -/
theorem normalisedIds_spec (ids : List String) :
    (normalisedIds ids).Pairwise (· < ·) ∧ ∀ id ∈ normalisedIds ids, id ≠ "" := by
  have hfilter : ∀ id ∈ ((ids.map trim).filter (· ≠ "")).mergeSort (· ≤ ·), id ≠ "" :=
    fun id hid ↦ by simpa using (List.mem_filter.mp (List.mem_mergeSort.mp hid)).2
  have hsorted : (((ids.map trim).filter (· ≠ "")).mergeSort (· ≤ ·)).Pairwise (· ≤ ·) :=
    (List.pairwise_mergeSort (by simp; exact fun a b c ↦ le_trans) (by simp [le_total]) _).imp
      of_decide_eq_true
  unfold normalisedIds
  generalize ((ids.map trim).filter (· ≠ "")).mergeSort (· ≤ ·) = sorted at hfilter hsorted
  cases sorted with
  | nil => exact ⟨.nil, hfilter⟩
  | cons a l =>
    obtain ⟨hstrict, hsub⟩ := eraseReps_loop hsorted (List.pairwise_singleton _ _)
    exact ⟨hstrict, fun id hid ↦ hfilter id (hsub id hid)⟩

private theorem takeBytes_le (budget : Nat) (text : List Char) :
    byteSize (cappedLog.takeBytes budget text) ≤ budget := by
  induction text generalizing budget with
  | nil => exact Nat.zero_le _
  | cons c text ih =>
    rw [cappedLog.takeBytes]
    split
    · next hle =>
      rw [byteSize_cons]
      have := ih (budget - c.utf8Size)
      omega
    · exact Nat.zero_le _

/-- A log that is kept is a megabyte long at most, but for the note that it was cut. -/
theorem cappedLog_le (content : String) : (cappedLog content).utf8ByteSize ≤ 1024 * 1024 + 43 := by
  unfold cappedLog
  dsimp only
  split
  · have hnote : "\n… truncated by nullrouter-state at 1 MiB".utf8ByteSize = 43 := by decide
    have := takeBytes_le (1024 * 1024) content.toList
    rw [String.utf8ByteSize_append, hnote]
    exact Nat.add_le_add_right this _
  · omega

/-- What a custom model is found by. -/
def CustomModel.key (m : CustomModel) : String × String := (m.providerAlias, m.id)

/-- The provider nodes have distinct ids and the custom models distinct keys, every list of
disabled models has models, none of them blank, each once and in their order, and no log is longer
than its cap and the note. -/
structure StateSnapshot.Tidy (s : StateSnapshot) : Prop where
  nodes : DistinctBy ProviderNode.id s.providerNodes
  models : (s.customModels.map CustomModel.key).Nodup
  disabled : ∀ (name : String) (ids : List String), s.disabledModels[name]? = some ids →
    ids ≠ [] ∧ ids.Pairwise (· < ·) ∧ ∀ id ∈ ids, id ≠ ""
  logs : ∀ (file text : String), s.translatorLogs[file]? = some text →
    text.utf8ByteSize ≤ 1024 * 1024 + 43

namespace Operation

/-- Every closure keeps the tables in form, whatever the clock says. -/
theorem closure_tidy {s : StateSnapshot} (hs : s.Tidy) (op : Operation) (now mint : Nat) :
    (op.closure now mint s).2.Tidy := by
  cases op with
  | createProviderNode input =>
    exact { hs with nodes := (hs.nodes.append_iff _).mpr (firstFree_id_ne s.providerNodes _ _) }
  | updateProviderNode id input =>
    exact orNotFound_keeps hs fun _ hu ↦
      { hs with nodes := hs.nodes.of_updateFirst hu fun _ ↦ rfl }
  | deleteProviderNode id =>
    simp only [closure, orAbsent, StateSnapshot.deleteProviderNode]
    exact { hs with nodes := hs.nodes.filter _ }
  | addCustomModel providerAlias id modelType name =>
    simp only [closure, StateSnapshot.addCustomModel]
    split
    · next changed hu =>
      refine { hs with models := ?_ }
      have hkeys : changed.map CustomModel.key = s.customModels.map CustomModel.key :=
        map_updateFirst (fun _ _ _ ↦ by rfl) hu
      exact hkeys ▸ hs.models
    · next hnone =>
      refine { hs with models := ?_ }
      have hfind := List.find?_eq_none.mp (updateFirst_eq_none.mp hnone)
      dsimp only
      rw [List.map_append, List.nodup_append]
      refine ⟨hs.models, List.nodup_singleton _, fun key hkey other hother ↦ ?_⟩
      obtain ⟨m, hm, rfl⟩ := List.mem_map.mp hkey
      obtain rfl := List.mem_singleton.mp hother
      simpa [CustomModel.key] using hfind m hm
  | deleteCustomModel providerAlias id =>
    exact { hs with models := hs.models.sublist (List.filter_sublist.map _) }
  | setDisabledModels providerAlias ids =>
    simp only [closure, StateSnapshot.setDisabledModels]
    split
    · refine { hs with disabled := fun name kept h ↦ ?_ }
      rw [Std.ExtTreeMap.getElem?_erase] at h
      split at h
      · cases h
      · exact hs.disabled name kept h
    · next hne =>
      refine { hs with disabled := fun name kept h ↦ ?_ }
      rw [Std.ExtTreeMap.getElem?_insert] at h
      split at h
      · cases h
        exact ⟨hne, normalisedIds_spec ids⟩
      · exact hs.disabled name kept h
  | clearDisabledModels providerAlias =>
    refine { hs with disabled := fun name kept h ↦ ?_ }
    simp only [closure, orAbsent, StateSnapshot.clearDisabledModels] at h
    rw [Std.ExtTreeMap.getElem?_erase] at h
    split at h
    · cases h
    · exact hs.disabled name kept h
  | saveTranslatorLog file content =>
    refine { hs with logs := fun name text h ↦ ?_ }
    simp only [closure, StateSnapshot.saveTranslatorLog] at h
    rw [Std.ExtTreeMap.getElem?_insert] at h
    split at h
    · cases h
      exact cappedLog_le content
    · exact hs.logs name text h
  | createUser _ _ _ _ _ _ | updateUser _ _ _ | deleteUser _ =>
    exact users_keeps hs (fun _ ↦ { hs with }) rfl now mint
  | createConnection request =>
    simp only [closure, StateSnapshot.createConnection]
    split <;> exact { hs with }
  | deleteProxyPool id =>
    simp only [closure, StateSnapshot.deleteProxyPool]
    by_cases hbound : 0 < boundConnectionCount s.providerConnections id
    · simpa only [hbound, if_true] using hs
    · simp only [hbound, if_false]
      by_cases hgone : (s.proxyPools.filter (·.id != id)).length = s.proxyPools.length
      · simpa [hgone] using { hs with }
      · simpa [hgone] using { hs with }
  | updateConnection _ _ | updateConnectionCredentials _ _ | updateCombo _ _ | updateProxyPool _ _
  | updateKey _ _ => exact orNotFound_keeps hs fun _ _ ↦ { hs with }
  | _ => exact { hs with }

end Operation

namespace StateStore

/-- In every run of operations from an empty store, at any clock readings and whatever the disk
answers, these tables are in form. -/
theorem tidy_of_run {s : StateStore} {cs : List StoreCall} (h : Run Step empty cs s) :
    s.snapshot.Tidy := by
  refine h.invariant (·.snapshot.Tidy) (fun s c t hs hstep ↦ ?_)
    ⟨.nil, .nil, by simp [empty], by simp [empty]⟩
  subst hstep
  rcases s.perform_snapshot c.op c.now c.mint c.io with h | h
  · rw [h]
    exact hs
  · rw [h]
    exact c.op.closure_tidy hs c.now c.mint

/-- Two nodes are made, the first is deleted, and a third is made. -/
def nodeCalls : List StoreCall :=
  [⟨.createProviderNode ⟨"openai-compatible", "a", "a", none, "u"⟩, 5, 5, none⟩,
    ⟨.createProviderNode ⟨"openai-compatible", "b", "b", none, "u"⟩, 5, 5, none⟩,
    ⟨.deleteProviderNode "openai-compatible-1", 5, 5, none⟩,
    ⟨.createProviderNode ⟨"openai-compatible", "c", "c", none, "u"⟩, 5, 5, none⟩]

theorem tidy_of_nodeCalls : ∃ s, Run Step empty nodeCalls s ∧
    s.snapshot.providerNodes.map (·.id) = ["openai-compatible-2", "openai-compatible-3"] ∧
    s.snapshot.Tidy := by
  have run : Run Step empty nodeCalls _ :=
    .cons rfl <| .cons rfl <| .cons rfl <| .cons rfl <| .nil _
  exact ⟨_, run, by decide, tidy_of_run run⟩

end StateStore
end NullRouter.State
