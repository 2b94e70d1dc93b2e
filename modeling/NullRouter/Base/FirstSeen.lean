import NullRouter.Base.Grouping

/-!
# Tables of what was seen first

A table of keys in the order in which they first appear, where the place of a key is its number, as
a program builds it key by key. The place that a key is given stays its place in every later table.
-/

namespace NullRouter.Base

section Seen

variable {κ : Type} [DecidableEq κ]

/-- A table with a key: at its end where it was not seen. -/
def seen (known : List κ) (key : κ) : List κ :=
  if (known.findIdx? (· == key)).isSome then known else known ++ [key]

/-- The place of a key in the table with it: the first where it was seen, else the last. -/
def placeOf (known : List κ) (key : κ) : Nat :=
  (known.findIdx? (· == key)).getD ((seen known key).length - 1)

variable {known table : List κ} {key : κ}

theorem seen_of_mem (h : key ∈ known) : seen known key = known := by
  rw [seen, if_pos]
  rw [List.findIdx?_isSome, List.any_eq_true]
  exact ⟨key, h, beq_self_eq_true key⟩

theorem seen_of_not_mem (h : key ∉ known) : seen known key = known ++ [key] := by
  rw [seen, if_neg]
  rw [List.findIdx?_isSome, List.any_eq_true]
  rintro ⟨other, hother, hsame⟩
  exact h (eq_of_beq hsame ▸ hother)

/-- A table only grows at its end. -/
theorem prefix_seen (known : List κ) (key : κ) : known <+: seen known key := by
  by_cases h : key ∈ known
  · exact ⟨[], by rw [seen_of_mem h, List.append_nil]⟩
  · exact ⟨[key], (seen_of_not_mem h).symm⟩

theorem mem_seen (known : List κ) (key : κ) : key ∈ seen known key := by
  by_cases h : key ∈ known
  · rwa [seen_of_mem h]
  · rw [seen_of_not_mem h]
    exact List.mem_append_right known List.mem_cons_self

/-- The place of a key that is in a table stays its place. -/
theorem idxOf_of_known (h : known <+: table) (hmem : key ∈ known) :
    table.idxOf key = known.idxOf key := by
  obtain ⟨later, rfl⟩ := h
  exact List.idxOf_append_of_mem hmem

/-- The place that a key is given is its place in every later table. -/
theorem placeOf_eq (h : seen known key <+: table) : placeOf known key = table.idxOf key := by
  rw [idxOf_of_known h (mem_seen known key), placeOf]
  by_cases hmem : key ∈ known
  · rw [seen_of_mem hmem, List.idxOf_eq_getD_idxOf?, List.idxOf?]
    have hsome : (known.findIdx? (· == key)).isSome = true := by
      rw [List.findIdx?_isSome, List.any_eq_true]
      exact ⟨key, hmem, beq_self_eq_true key⟩
    obtain ⟨place, hplace⟩ := Option.isSome_iff_exists.mp hsome
    rw [hplace, Option.getD_some, Option.getD_some]
  · have hnone : known.findIdx? (· == key) = none := by
      rw [List.findIdx?_eq_none_iff]
      exact fun other hother ↦ beq_false_of_ne fun hsame ↦ hmem (hsame ▸ hother)
    rw [hnone, Option.getD_none, seen_of_not_mem hmem, List.idxOf_append_of_notMem hmem,
      List.idxOf_cons_self, List.length_append, List.length_singleton]
    rfl

/-- A table of some keys is a table of more of them at its front. -/
theorem prefix_foldl_seen (keys known : List κ) : known <+: keys.foldl seen known := by
  induction keys generalizing known with
  | nil => exact List.prefix_refl known
  | cons key keys ih => exact (prefix_seen known key).trans (ih (seen known key))

theorem mem_foldl_seen {keys : List κ} (h : key ∈ keys) (known : List κ) :
    key ∈ keys.foldl seen known := by
  induction keys generalizing known with
  | nil => cases h
  | cons first keys ih =>
    rcases List.mem_cons.mp h with rfl | hrest
    · exact (prefix_foldl_seen keys _).subset (mem_seen known key)
    · exact ih hrest _

/-- A table that is built from nothing has each key once, by its first appearance. -/
theorem foldl_seen (keys : List κ) : keys.foldl seen [] = keys.eraseDups := by
  suffices h : ∀ known : List κ, keys.foldl seen known.eraseDups = (known ++ keys).eraseDups from
    h []
  induction keys with
  | nil => exact fun known ↦ by rw [List.foldl_nil, List.append_nil]
  | cons key keys ih =>
    intro known
    have hstep : seen known.eraseDups key = (known ++ [key]).eraseDups := by
      rw [List.eraseDups_append]
      by_cases h : key ∈ known
      · have hnone : List.removeAll [key] known = [] := by simp [List.removeAll, h]
        rw [seen_of_mem (List.mem_eraseDups.mpr h), hnone, List.eraseDups_nil, List.append_nil]
      · have hkept : List.removeAll [key] known = [key] := by simp [List.removeAll, h]
        rw [seen_of_not_mem fun hmem ↦ h (List.mem_eraseDups.mp hmem), hkept]
        rfl
    rw [List.foldl_cons, hstep, ih (known ++ [key]), List.append_assoc, List.singleton_append]

end Seen

section Groups

variable {α β κ ι : Type} [DecidableEq κ] [DecidableEq ι]

/-- The groups of images are the images of the groups. -/
theorem groups_map (key : β → κ) (f : α → β) (items : List α) :
    groups key (items.map f) = (groups (key ∘ f) items).map (List.map f) := by
  rw [groups, groups, List.map_map, List.map_map]
  refine List.map_congr_left fun k _ ↦ ?_
  rw [List.filter_map]
  rfl

/-- Keys that tell the same items apart give the same groups. -/
theorem groups_congr {key : α → κ} {key' : α → ι} {items : List α}
    (h : ∀ a ∈ items, ∀ b ∈ items, key a = key b ↔ key' a = key' b) :
    groups key items = groups key' items := by
  match items with
  | [] => rfl
  | a :: items =>
    have hsame : items.filter (key · = key a) = items.filter (key' · = key' a) :=
      List.filter_congr fun b hb ↦ decide_eq_decide.mpr
        (h b (List.mem_cons_of_mem a hb) a List.mem_cons_self)
    have hrest : items.filter (key · ≠ key a) = items.filter (key' · ≠ key' a) :=
      List.filter_congr fun b hb ↦ decide_eq_decide.mpr
        (not_congr (h b (List.mem_cons_of_mem a hb) a List.mem_cons_self))
    have hmem {b : α} (hb : b ∈ items.filter (key' · ≠ key' a)) : b ∈ a :: items :=
      List.mem_cons_of_mem a (List.mem_filter.mp hb).1
    rw [groups_cons, groups_cons, hsame, hrest]
    rw [groups_congr fun b hb c hc ↦ h b (hmem hb) c (hmem hc)]
termination_by items.length
decreasing_by exact Nat.lt_succ_of_le (List.length_filter_le _ _)

end Groups

end NullRouter.Base
