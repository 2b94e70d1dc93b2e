import Mathlib.Data.List.Induction
import NullRouter.Runtime.Targets

/-!
# The rotation of combos over a run

The order in which the models of a combo are tried, over any sequence of requests to any number
of combos that share one `RotationState`, `services/runtime-actix/src/combo.rs:82–182`. The
specification counts the requests that rotated the combo since its list last changed.
-/

namespace NullRouter.Runtime

open NullRouter.Base

/-- A call of `ordered_models`: the combo, its models and its settings at that request. -/
structure ComboCall where
  combo : String
  models : List String
  strategy : ComboStrategy
  stickyLimit : Nat
  /-- The limit is a `u32`. -/
  limit_le : stickyLimit ≤ u32Max

namespace ComboCall

/-- What the call leaves of the cursors, and the order it gives. -/
def order (call : ComboCall) (cursors : RotationState) : RotationState × List String :=
  orderedModels call.models call.combo call.strategy call.stickyLimit cursors

/-- Whether the call rotates: only the round-robin strategy does, and only over two models or
more. -/
def rotates (call : ComboCall) : Bool := call.strategy = .roundRobin && 2 ≤ call.models.length

/-- The cursors after a sequence of calls. -/
def after (history : List ComboCall) : RotationState :=
  history.foldl (fun cursors call ↦ (call.order cursors).1) ∅

/-- The calls of a history that rotated a combo. -/
def rotations (history : List ComboCall) (combo : String) : List ComboCall :=
  history.filter fun call ↦ call.rotates && call.combo == combo

/-- The cursor of a combo, as `take_index` reads it for a list. -/
private def cursor (cursors : RotationState) (combo : String) (models : List String) : Rotation :=
  (cursors[combo]?.filter (·.models == models)).getD ⟨0, 0, []⟩

/-- The cursor that `take_index` leaves. -/
private def advanced (current : Rotation) (models : List String) (stickyLimit : Nat) : Rotation :=
  if max stickyLimit 1 ≤ satAdd32 current.consecutive 1 then
    ⟨(current.index % models.length + 1) % models.length, 0, models⟩
  else ⟨current.index % models.length, satAdd32 current.consecutive 1, models⟩

private theorem takeIndex_eq (cursors : RotationState) (combo : String) (models : List String)
    (stickyLimit : Nat) :
    takeIndex cursors combo models stickyLimit =
      (cursors.insert combo (advanced (cursor cursors combo models) models stickyLimit),
        (cursor cursors combo models).index % models.length) := rfl

private theorem advanced_models (current : Rotation) (models : List String) (stickyLimit : Nat) :
    (advanced current models stickyLimit).models = models := by
  unfold advanced
  split <;> rfl

private theorem after_snoc (history : List ComboCall) (call : ComboCall) :
    after (history ++ [call]) = (call.order (after history)).1 := by
  unfold after
  rw [List.foldl_append]
  rfl

private theorem rotations_snoc (history : List ComboCall) (call : ComboCall) (combo : String) :
    rotations (history ++ [call]) combo =
      rotations history combo ++ if call.rotates && call.combo == combo then [call] else [] := by
  unfold rotations
  rw [List.filter_append, List.filter_singleton, Bool.cond_eq_ite]

/-- A call that does not rotate keeps the cursors and the configured order. -/
theorem order_of_not_rotates {call : ComboCall} (h : call.rotates = false)
    (cursors : RotationState) : call.order cursors = (cursors, call.models) := by
  unfold order orderedModels
  rw [if_pos]
  unfold rotates at h
  by_cases hstrategy : call.strategy = .roundRobin
  · left
    simp only [hstrategy, decide_true, Bool.true_and, decide_eq_false_iff_not] at h
    omega
  · exact .inr hstrategy

/-- A call that rotates writes the cursor of its combo alone, and starts from where that stood. -/
theorem order_of_rotates {call : ComboCall} (h : call.rotates = true) (cursors : RotationState) :
    call.order cursors =
      (cursors.insert call.combo
        (advanced (cursor cursors call.combo call.models) call.models call.stickyLimit),
        rotateFrom call.models
          ((cursor cursors call.combo call.models).index % call.models.length)) := by
  unfold rotates at h
  rw [Bool.and_eq_true, decide_eq_true_eq, decide_eq_true_eq] at h
  unfold order orderedModels
  rw [if_neg, takeIndex_eq]
  rintro (hlength | hstrategy)
  · omega
  · exact hstrategy h.1

/-- The order is a rearrangement of the models. -/
theorem order_perm (call : ComboCall) (cursors : RotationState) :
    (call.order cursors).2.Perm call.models := by
  cases h : call.rotates with
  | false => rw [order_of_not_rotates h]
  | true =>
    rw [order_of_rotates h]
    show (_ ++ _ : List String).Perm _
    refine List.perm_append_comm.trans ?_
    rw [List.take_append_drop]

/-- The order depends on no other cursor than that of the call's combo. -/
theorem order_congr (call : ComboCall) {cursors cursors' : RotationState}
    (h : cursors[call.combo]? = cursors'[call.combo]?) :
    (call.order cursors).2 = (call.order cursors').2 := by
  cases hr : call.rotates with
  | false => rw [order_of_not_rotates hr, order_of_not_rotates hr]
  | true =>
    rw [order_of_rotates hr, order_of_rotates hr]
    unfold cursor
    rw [h]

private theorem getElem?_order (call : ComboCall) (cursors : RotationState) (combo : String) :
    (call.order cursors).1[combo]? =
      if call.rotates && call.combo == combo then
        some (advanced (cursor cursors combo call.models) call.models call.stickyLimit)
      else cursors[combo]? := by
  cases hr : call.rotates with
  | false => rw [order_of_not_rotates hr]; rfl
  | true =>
    rw [order_of_rotates hr, Std.ExtTreeMap.getElem?_insert]
    by_cases hcombo : call.combo = combo
    · subst hcombo
      simp
    · simp [hcombo]

/-- The cursor of a combo is that of the calls that rotated it. -/
theorem getElem?_after_rotations (history : List ComboCall) (combo : String) :
    (after history)[combo]? = (after (rotations history combo))[combo]? := by
  induction history using List.reverseRecOn with
  | nil => rfl
  | append_singleton history call ih =>
    rw [after_snoc, rotations_snoc, getElem?_order]
    split
    next h =>
      rw [after_snoc, getElem?_order, if_pos h]
      unfold cursor
      rw [ih]
    next h => rw [List.append_nil, ih]

private theorem div_mod_succ {k : Nat} (hk : 0 < k) (j : Nat) :
    if k ≤ j % k + 1 then (j + 1) / k = j / k + 1 ∧ (j + 1) % k = 0
    else (j + 1) / k = j / k ∧ (j + 1) % k = j % k + 1 := by
  have hlt := Nat.mod_lt j hk
  have hj := Nat.div_add_mod j k
  split
  next hfull =>
    rw [Nat.div_mod_unique hk]
    refine ⟨?_, hk⟩
    rw [Nat.mul_add]
    omega
  next hfull =>
    rw [Nat.div_mod_unique hk]
    omega

/-- The cursor counts the calls since the list changed: the quotient by the limit, and the
remainder. -/
private theorem cursor_since {combo : String} {models : List String} {limit : Nat}
    (hlimit : limit ≤ u32Max) {before : List ComboCall}
    (hbefore : ∀ call ∈ before, call.rotates = true ∧ call.combo = combo)
    (hlast : ∀ last ∈ before.getLast?, last.models ≠ models) (since : List ComboCall)
    (hsince : ∀ call ∈ since, call.rotates = true ∧ call.combo = combo)
    (hsame : ∀ call ∈ since, call.models = models ∧ call.stickyLimit = limit) :
    (cursor (after (before ++ since)) combo models).index =
        since.length / max limit 1 % models.length ∧
      (cursor (after (before ++ since)) combo models).consecutive =
        since.length % max limit 1 := by
  induction since using List.reverseRecOn with
  | nil =>
    rw [List.append_nil]
    have hfresh : cursor (after before) combo models = ⟨0, 0, []⟩ := by
      induction before using List.reverseRecOn with
      | nil => rfl
      | append_singleton before last _ =>
        obtain ⟨hrotates, hcombo⟩ := hbefore last (by simp)
        have hmodels := hlast last (by simp)
        unfold cursor
        rw [after_snoc, getElem?_order, if_pos (by simp [hrotates, hcombo]), Option.filter_some,
          if_neg (by rw [advanced_models]; simpa using hmodels), Option.getD_none]
    rw [hfresh]
    simp
  | append_singleton since call ih =>
    obtain ⟨hindex, hconsecutive⟩ := ih (fun c hc ↦ hsince c (by simp [hc]))
      fun c hc ↦ hsame c (by simp [hc])
    obtain ⟨hrotates, hcombo⟩ := hsince call (by simp)
    obtain ⟨hmodels, hstickyLimit⟩ := hsame call (by simp)
    have hpos : 0 < max limit 1 := by omega
    have hnext : satAdd32 (since.length % max limit 1) 1 = since.length % max limit 1 + 1 := by
      have hlt := Nat.mod_lt since.length hpos
      have : 1 ≤ u32Max := by decide
      unfold satAdd32
      omega
    have hcursor : cursor (after (before ++ (since ++ [call]))) combo models =
        advanced (cursor (after (before ++ since)) combo models) models limit := by
      have hread : cursor (after (before ++ (since ++ [call]))) combo models =
          (Option.filter (·.models == models) (some (advanced
            (cursor (after (before ++ since)) combo models) models limit))).getD ⟨0, 0, []⟩ := by
        rw [← List.append_assoc, after_snoc, cursor, getElem?_order,
          if_pos (by simp [hrotates, hcombo]), hmodels, hstickyLimit]
      rw [hread, Option.filter_some, if_pos (by rw [advanced_models]; simp), Option.getD_some]
    have hstep := div_mod_succ hpos since.length
    rw [hcursor, List.length_append, List.length_singleton]
    unfold advanced
    rw [hindex, hconsecutive, hnext, Nat.mod_mod]
    split
    next hfull =>
      rw [if_pos hfull] at hstep
      rw [hstep.1, hstep.2, Nat.mod_add_mod]
      exact ⟨rfl, rfl⟩
    next hfull =>
      rw [if_neg hfull] at hstep
      rw [hstep.1, hstep.2]
      exact ⟨rfl, rfl⟩

private theorem rotations_filter (history : List ComboCall) (combo : String) :
    rotations (history.filter (·.combo == combo)) combo = rotations history combo := by
  unfold rotations
  rw [List.filter_filter]
  refine List.filter_congr fun call _ ↦ ?_
  cases call.combo == combo <;> simp

/-- Over every interleaving of requests: the order is a rearrangement of the models, no request to
another combo matters, and a request that rotates starts at the number of such requests since the
combo's list changed (with the same limit), over the limit and around the list. -/
theorem order_after (history : List ComboCall) (call : ComboCall) :
    (call.order (after history)).2.Perm call.models ∧
    (call.order (after history)).2 =
      (call.order (after (history.filter (·.combo == call.combo)))).2 ∧
    (call.rotates = true → ∀ before since : List ComboCall,
      rotations history call.combo = before ++ since →
      (∀ last ∈ before.getLast?, last.models ≠ call.models) →
      (∀ c ∈ since, c.models = call.models ∧ c.stickyLimit = call.stickyLimit) →
      (call.order (after history)).2 =
        rotateFrom call.models
          (since.length / max call.stickyLimit 1 % call.models.length)) := by
  refine ⟨order_perm call _, order_congr call ?_, fun hrotates before since hsplit hlast hsame ↦ ?_⟩
  · rw [getElem?_after_rotations, ← rotations_filter, ← getElem?_after_rotations]
  · have hof : ∀ c ∈ before ++ since, c.rotates = true ∧ c.combo = call.combo := by
      intro c hc
      rw [← hsplit] at hc
      simpa using (List.mem_filter.mp hc).2
    have hsince := (cursor_since call.limit_le
      (fun c hc ↦ hof c (List.mem_append_left _ hc)) hlast since
      (fun c hc ↦ hof c (List.mem_append_right _ hc)) hsame).1
    rw [order_congr call (getElem?_after_rotations history call.combo), hsplit,
      order_of_rotates hrotates, hsince, Nat.mod_mod]

private theorem one_le_u32Max : 1 ≤ u32Max := by decide

/-- A request to a combo of round-robin strategy that moves on with every request. -/
def request (combo : String) (models : List String) : ComboCall :=
  ⟨combo, models, .roundRobin, 1, one_le_u32Max⟩

/-- The rule at the third request to a combo, with a request to another combo before it. -/
theorem order_after_third :
    ((request "c" ["x", "y"]).order
      (after [request "c" ["x", "y"], request "d" ["z", "x"], request "c" ["x", "y"]])).2 =
      rotateFrom ["x", "y"] (2 / max 1 1 % 2) :=
  (order_after [request "c" ["x", "y"], request "d" ["z", "x"], request "c" ["x", "y"]]
    (request "c" ["x", "y"])).2.2 (by decide) [] [request "c" ["x", "y"], request "c" ["x", "y"]]
    rfl (by simp) (by simp [request])

/-- A combo cut down to one model and then restored goes on from where it stood, although its list
was edited since its previous request. -/
theorem restored_combo_goes_on :
    ¬ ∀ (history : List ComboCall) (call : ComboCall), call.rotates = true →
      (∀ last ∈ (history.filter (·.combo == call.combo)).getLast?, last.models ≠ call.models) →
      (call.order (after history)).2 = rotateFrom call.models 0 := by
  intro h
  have hrestart := h [request "c" ["x", "y"], request "c" ["x"]] (request "c" ["x", "y"])
    (by decide) (by decide)
  exact absurd hrestart (by decide)

end ComboCall

end NullRouter.Runtime
