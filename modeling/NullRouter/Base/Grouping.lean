import Mathlib.Algebra.Order.Ring.Int
import Mathlib.Data.List.Basic
import Mathlib.Data.List.Perm.Subperm

/-!
# Groups by key

The items of a list by key, the keys in the order in which they first appear; and a list of
accumulators where each new item is merged into the first that it fits, or else starts its own.
-/

namespace NullRouter.Base

section Groups

variable {α κ : Type} [DecidableEq κ] (key : α → κ)

/-- The items of each key, by the first appearance of the keys. -/
def groups (items : List α) : List (List α) :=
  (items.map key).eraseDups.map fun k ↦ items.filter (key · = k)

/-- The first item of each key. -/
def firsts (items : List α) : List α := items.eraseDupsBy (key · == key ·)

variable {key}

/-- Without the items of a key, another key still has all of its own. -/
theorem filter_filter_key (items : List α) (k j : κ) :
    (items.filter (key · ≠ k)).filter (key · = j) =
      if j = k then [] else items.filter (key · = j) := by
  rw [List.filter_filter]
  split
  · next h =>
    subst h
    exact List.filter_eq_nil_iff.mpr fun a _ ↦ by simp
  · next h =>
    refine List.filter_congr fun a _ ↦ ?_
    by_cases ha : key a = j <;> simp [ha, h]

/-- The keys of a list without their repetitions: that of the first item, then the others. -/
theorem eraseDups_map_cons (a : α) (items : List α) :
    ((a :: items).map key).eraseDups =
      key a :: ((items.filter (key · ≠ key a)).map key).eraseDups := by
  have hkeys : (items.map key).filter (fun k ↦ !k == key a) =
      (items.filter (key · ≠ key a)).map key := by
    rw [List.filter_map]
    congr 1
    refine List.filter_congr fun b _ ↦ ?_
    by_cases h : key b = key a <;> simp [h]
  rw [List.map_cons, List.eraseDups_cons, hkeys]

/-- The first group is that of the first item; the others are those of the other keys. -/
theorem groups_cons (a : α) (items : List α) :
    groups key (a :: items) =
      (a :: items.filter (key · = key a)) :: groups key (items.filter (key · ≠ key a)) := by
  rw [groups, eraseDups_map_cons, List.map_cons, groups]
  congr 1
  · rw [List.filter_cons_of_pos (by simp)]
  · refine List.map_congr_left fun k hk ↦ ?_
    have hne : k ≠ key a := by
      rw [List.mem_eraseDups] at hk
      obtain ⟨b, hb, rfl⟩ := List.mem_map.mp hk
      exact of_decide_eq_true (List.mem_filter.mp hb).2
    rw [List.filter_cons_of_neg (by simpa using Ne.symm hne), filter_filter_key, if_neg hne]

/-- The groups together are the items. -/
theorem flatten_groups_perm (items : List α) : (groups key items).flatten.Perm items := by
  match items with
  | [] => rfl
  | a :: items =>
    have hsplit := List.filter_append_perm (fun b ↦ decide (key b = key a)) items
    have hrest := flatten_groups_perm (items.filter (key · ≠ key a))
    rw [groups_cons, List.flatten_cons, List.cons_append]
    refine ((hrest.append_left _).trans ?_).cons a
    simpa only [decide_not] using hsplit
termination_by items.length
decreasing_by exact Nat.lt_succ_of_le (List.length_filter_le _ _)

/-- The first items of the keys are items, in their order. -/
theorem firsts_sublist (items : List α) : (firsts key items).Sublist items := by
  match items with
  | [] => simp [firsts]
  | a :: items =>
    rw [firsts, List.eraseDupsBy_cons]
    apply List.Sublist.cons_cons
    exact (firsts_sublist _).trans List.filter_sublist
termination_by items.length
decreasing_by
  simp only [List.length_cons]
  exact Nat.lt_succ_of_le (List.length_filter_le _ items)

theorem nodup_eraseDups (keys : List κ) : keys.eraseDups.Nodup := by
  match keys with
  | [] => simp
  | k :: keys =>
    rw [List.eraseDups_cons, List.nodup_cons]
    exact ⟨by simp, nodup_eraseDups (keys.filter fun k' ↦ !k' == k)⟩
termination_by keys.length
decreasing_by exact Nat.lt_succ_of_le (List.length_filter_le _ _)

/-- Keys that are each there once are those of a list without its repetitions. -/
theorem perm_eraseDups {keys once : List κ} (hnodup : once.Nodup)
    (hmem : ∀ k, k ∈ once ↔ k ∈ keys) : once.Perm keys.eraseDups :=
  (List.perm_ext_iff_of_nodup hnodup (nodup_eraseDups keys)).mpr fun k ↦
    (hmem k).trans List.mem_eraseDups.symm

/-- Leaving out the items of a key leaves at most as many groups, and fewer where it has any. -/
theorem length_groups_filter (items : List α) (k : κ) :
    (groups key (items.filter (key · ≠ k))).length + (if k ∈ items.map key then 1 else 0) ≤
      (groups key items).length := by
  simp only [groups, List.length_map]
  have hrest := nodup_eraseDups ((items.filter (key · ≠ k)).map key)
  have hsub : ∀ j ∈ ((items.filter (key · ≠ k)).map key).eraseDups,
      j ≠ k ∧ j ∈ (items.map key).eraseDups := by
    intro j hj
    rw [List.mem_eraseDups] at hj ⊢
    obtain ⟨b, hb, rfl⟩ := List.mem_map.mp hj
    exact ⟨of_decide_eq_true (List.mem_filter.mp hb).2,
      List.mem_map_of_mem (List.mem_filter.mp hb).1⟩
  split
  · next hk =>
    refine (List.subperm_of_subset (List.nodup_cons.mpr ⟨fun h ↦ (hsub k h).1 rfl, hrest⟩)
      (List.cons_subset.mpr ⟨List.mem_eraseDups.mpr hk, fun j hj ↦ (hsub j hj).2⟩)).length_le
  · exact (List.subperm_of_subset hrest fun j hj ↦ (hsub j hj).2).length_le

/-- Of families of items that each have their own key, a key takes its own. -/
theorem filter_flatMap_of_mem {families : List (κ × List α)} (hkeys : (families.map Prod.fst).Nodup)
    (hkey : ∀ f ∈ families, ∀ a ∈ f.2, key a = f.1) {f : κ × List α} (hf : f ∈ families) :
    (families.flatMap Prod.snd).filter (key · = f.1) = f.2 := by
  induction families with
  | nil => cases hf
  | cons first rest ih =>
    rw [List.map_cons, List.nodup_cons] at hkeys
    rw [List.forall_mem_cons] at hkey
    rw [List.flatMap_cons, List.filter_append]
    rcases List.mem_cons.mp hf with rfl | hrest
    · have hown : f.2.filter (key · = f.1) = f.2 :=
        List.filter_eq_self.mpr fun a ha ↦ by simp [hkey.1 a ha]
      have hothers : (rest.flatMap Prod.snd).filter (key · = f.1) = [] := by
        rw [List.filter_eq_nil_iff]
        intro a ha
        obtain ⟨other, hother, ha⟩ := List.mem_flatMap.mp ha
        rw [decide_eq_true_eq, hkey.2 other hother a ha]
        exact fun heq ↦ hkeys.1 (List.mem_map.mpr ⟨other, hother, heq⟩)
      rw [hown, hothers, List.append_nil]
    · have hfirst : first.2.filter (key · = f.1) = [] := by
        rw [List.filter_eq_nil_iff]
        intro a ha
        rw [decide_eq_true_eq, hkey.1 a ha]
        exact fun heq ↦ hkeys.1 (List.mem_map.mpr ⟨f, hrest, heq.symm⟩)
      rw [hfirst, List.nil_append, ih hkeys.2 hkey.2 hrest]

/-- A key that no family has takes nothing of them. -/
theorem filter_flatMap_of_not_mem {families : List (κ × List α)}
    (hkey : ∀ f ∈ families, ∀ a ∈ f.2, key a = f.1) {k : κ} (hk : k ∉ families.map Prod.fst) :
    (families.flatMap Prod.snd).filter (key · = k) = [] := by
  rw [List.filter_eq_nil_iff]
  intro a ha
  obtain ⟨f, hf, ha⟩ := List.mem_flatMap.mp ha
  rw [decide_eq_true_eq, hkey f hf a ha]
  rintro rfl
  exact hk (List.mem_map_of_mem hf)

/-- Families that follow one another, each with items and a key of its own, are the groups. -/
theorem groups_flatMap {families : List (κ × List α)} (hkeys : (families.map Prod.fst).Nodup)
    (hkey : ∀ f ∈ families, ∀ a ∈ f.2, key a = f.1) (hne : ∀ f ∈ families, f.2 ≠ []) :
    groups key (families.flatMap Prod.snd) = families.map Prod.snd := by
  induction families with
  | nil => rfl
  | cons first rest ih =>
    have hown := filter_flatMap_of_mem hkeys hkey List.mem_cons_self
    rw [List.map_cons, List.nodup_cons] at hkeys
    rw [List.forall_mem_cons] at hkey hne
    obtain ⟨k, items⟩ := first
    cases items with
    | nil => exact absurd rfl hne.1
    | cons a items =>
      have hk : key a = k := hkey.1 a List.mem_cons_self
      have hothers : (items ++ rest.flatMap Prod.snd).filter (key · ≠ k) =
          rest.flatMap Prod.snd := by
        have hnone : items.filter (key · ≠ k) = [] := by
          rw [List.filter_eq_nil_iff]
          intro b hb
          simp [hkey.1 b (List.mem_cons_of_mem _ hb)]
        rw [List.filter_append, hnone, List.nil_append, List.filter_eq_self]
        intro b hb
        obtain ⟨f, hf, hb⟩ := List.mem_flatMap.mp hb
        rw [decide_eq_true_eq, hkey.2 f hf b hb]
        exact fun heq ↦ hkeys.1 (List.mem_map.mpr ⟨f, hf, heq⟩)
      rw [List.flatMap_cons, List.cons_append, List.filter_cons_of_pos (by simp [hk])] at hown
      rw [List.flatMap_cons, List.cons_append, groups_cons, hk, hown, hothers,
        ih hkeys.2 hkey.2 hne.2]
      rfl

end Groups

section Gather

variable {α γ : Type} (start : α → γ) (fits : γ → α → Bool) (merge : γ → α → γ)

/-- Merges an item into the first accumulator that it fits; where it fits none it starts its
own. -/
def gather : List γ → α → List γ
  | [], a => [start a]
  | c :: cs, a => if fits c a then merge c a :: cs else c :: gather cs a

variable {start fits merge}

/-- Where merging leaves alone what fits, an accumulator takes all that fits it and the items
that do not go to the others. -/
theorem foldl_gather_cons (hfits : ∀ c a, fits (merge c a) = fits c) (items : List α) (c : γ)
    (cs : List γ) : items.foldl (gather start fits merge) (c :: cs) =
      (items.filter (fits c)).foldl merge c ::
        (items.filter (!fits c ·)).foldl (gather start fits merge) cs := by
  induction items generalizing c cs with
  | nil => rfl
  | cons a items ih =>
    rw [List.foldl_cons, gather]
    split
    · next h =>
      rw [ih, hfits, List.filter_cons_of_pos h, List.filter_cons_of_neg (by simp [h]),
        List.foldl_cons]
    · next h =>
      rw [ih, List.filter_cons_of_neg h, List.filter_cons_of_pos (by simp [h]), List.foldl_cons]

/-- The first item starts an accumulator that takes all that fits it. -/
theorem foldl_gather_nil (hfits : ∀ c a, fits (merge c a) = fits c) (a : α) (items : List α) :
    (a :: items).foldl (gather start fits merge) [] =
      (items.filter (fits (start a))).foldl merge (start a) ::
        (items.filter (!fits (start a) ·)).foldl (gather start fits merge) [] :=
  foldl_gather_cons hfits items (start a) []

end Gather
end NullRouter.Base

/-!
## Numbered entries

Lists whose entries carry consecutive numbers, and what a reader that holds a number finds after
it: the entries with a higher number are a tail of the list, and none is above that of the last.
-/

namespace NullRouter.Base

universe u

variable {α : Type u} {number : α → Nat} {start : Nat} {l m : List α}

/-- The entries of a list carry the numbers from a first one on. -/
def NumberedFrom (number : α → Nat) (start : Nat) (l : List α) : Prop :=
  l.map number = List.range' start l.length

namespace NumberedFrom

theorem nil : NumberedFrom number start [] := rfl

@[simp] theorem cons_iff {a : α} :
    NumberedFrom number start (a :: l) ↔
      number a = start ∧ NumberedFrom number (start + 1) l := by
  rw [NumberedFrom, List.map_cons, List.length_cons, List.range'_succ, List.cons.injEq]
  rfl

theorem append_iff : NumberedFrom number start (l ++ m) ↔
    NumberedFrom number start l ∧ NumberedFrom number (start + l.length) m := by
  induction l generalizing start with
  | nil => simp [nil]
  | cons a l ih =>
    rw [List.cons_append, cons_iff, cons_iff, ih, List.length_cons, and_assoc,
      Nat.add_right_comm start 1, Nat.add_assoc]

/-- The numbers of a list lie between its first and its length. -/
theorem bounds (h : NumberedFrom number start l) {a : α} (ha : a ∈ l) :
    start ≤ number a ∧ number a < start + l.length := by
  have hmem : number a ∈ l.map number := List.mem_map_of_mem ha
  rw [h, List.mem_range'_1] at hmem
  exact hmem

/-- A number between the first and the length is that of an entry. -/
theorem exists_mem (h : NumberedFrom number start l) {n : Nat} (hlow : start ≤ n)
    (hhigh : n < start + l.length) : ∃ a ∈ l, number a = n := by
  have hmem : n ∈ List.range' start l.length := List.mem_range'_1.mpr ⟨hlow, hhigh⟩
  rw [← h] at hmem
  exact List.mem_map.mp hmem

/-- Consecutive numbers increase. -/
theorem pairwise (h : NumberedFrom number start l) :
    l.Pairwise fun a b ↦ number a < number b := by
  have hsorted : (l.map number).Pairwise (· < ·) := by
    rw [h]
    exact List.pairwise_lt_range' 1
  exact List.pairwise_map.mp hsorted

end NumberedFrom

/-- In a list of increasing numbers none is above that of the last entry. -/
theorem number_le_getLast (h : l.Pairwise fun a b ↦ number a < number b) {a last : α}
    (ha : a ∈ l) (hlast : l.getLast? = some last) : number a ≤ number last := by
  obtain ⟨front, rfl⟩ := List.getLast?_eq_some_iff.mp hlast
  rcases List.mem_append.mp ha with hfront | hself
  · exact Nat.le_of_lt ((List.pairwise_append.mp h).2.2 a hfront last (List.mem_singleton_self _))
  · rw [List.mem_singleton.mp hself]

end NullRouter.Base
