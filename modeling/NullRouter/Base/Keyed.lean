import Mathlib.Data.List.Basic
import NullRouter.Base.Grouping
import Std.Data.ExtTreeMap

/-!
# Tables filled from a list, and requests answered from them

A table that is filled by inserting the entries of a list holds the last value of each key. One that
tallies the items of a list by key has a row for each key, over the items of that key. Requests that
are answered from a table by their keys give each answer of a list out once exactly when the answers
of one key agree and there are as many of them as requests.
-/

namespace NullRouter.Base

/-- The last value that a list of entries gives a key. -/
def lastValue {K V : Type} [BEq K] (entries : List (K × V)) (key : K) : Option V :=
  entries.reverse.lookup key

private theorem lookup_append_or {K V : Type} [BEq K] (l rest : List (K × V)) (key : K) :
    (l ++ rest).lookup key = (l.lookup key).or (rest.lookup key) := by
  induction l with
  | nil => simp
  | cons e l ih =>
    rw [List.cons_append, List.lookup_cons, List.lookup_cons, ih]
    cases key == e.1 <;> rfl

/-- A table that is filled from a list holds the last value of each key. -/
theorem getElem?_foldl_insert {V : Type} (entries : List (String × V))
    (table : Std.ExtTreeMap String V) (key : String) :
    (entries.foldl (fun table entry ↦ table.insert entry.1 entry.2) table)[key]? =
      (lastValue entries key).or table[key]? := by
  induction entries generalizing table with
  | nil => rfl
  | cons entry entries ih =>
    rw [List.foldl_cons, ih, lastValue, lastValue, List.reverse_cons, lookup_append_or,
      Option.or_assoc]
    congr 1
    rw [Std.ExtTreeMap.getElem?_insert, List.lookup_cons, List.lookup_nil]
    by_cases hkey : entry.1 = key
    · subst hkey
      simp
    · have hne : (key == entry.1) = false := by simpa using fun h ↦ hkey h.symm
      simp [hkey, hne]

/-- A key has a last value exactly if there is an entry for it. -/
theorem isSome_lastValue_iff {K V : Type} [BEq K] [LawfulBEq K] {entries : List (K × V)}
    {key : K} : (lastValue entries key).isSome = true ↔ key ∈ entries.map Prod.fst := by
  rw [lastValue]
  have hmem : key ∈ entries.map Prod.fst ↔ key ∈ entries.reverse.map Prod.fst := by simp
  rw [hmem]
  induction entries.reverse with
  | nil => simp
  | cons entry entries ih =>
    rw [List.lookup_cons]
    by_cases hkey : key = entry.1
    · simp [hkey]
    · have hne : (key == entry.1) = false := by simpa using hkey
      rw [hne, List.map_cons, List.mem_cons, or_iff_right hkey]
      exact ih

section Tallies

variable {α V M : Type} (key : α → Option String) (fresh : α → V) (add : V → α → V)

/-- Adds an item to the row of its key, a fresh one where there is none. -/
def tallyItem (table : Std.ExtTreeMap String V) (a : α) : Std.ExtTreeMap String V :=
  match key a with
  | none => table
  | some k => table.insert k (add (table[k]?.getD (fresh a)) a)

/-- A table with a row for each key, to which the items of that key are added. -/
def tally (items : List α) : Std.ExtTreeMap String V := items.foldl (tallyItem key fresh add) ∅

/-- A row over some items. -/
def rowOf : List α → Option V
  | [] => none
  | a :: items => some ((a :: items).foldl add (fresh a))

variable {key fresh add}

private theorem getElem?_foldl_tallyItem (items : List α) (table : Std.ExtTreeMap String V)
    (k : String) : (items.foldl (tallyItem key fresh add) table)[k]? =
      (items.filter (key · = some k)).foldl
        (fun row a ↦ some (add (row.getD (fresh a)) a)) table[k]? := by
  induction items generalizing table with
  | nil => rfl
  | cons a items ih =>
    rw [List.foldl_cons, ih]
    by_cases hkey : key a = some k
    · rw [List.filter_cons_of_pos (by simpa using hkey), List.foldl_cons, tallyItem, hkey]
      simp only
      rw [Std.ExtTreeMap.getElem?_insert_self]
    · rw [List.filter_cons_of_neg (by simpa using hkey), tallyItem]
      cases hother : key a with
      | none => rfl
      | some other =>
        have hne : other ≠ k := fun h ↦ hkey (hother.trans (congrArg some h))
        simp only
        rw [Std.ExtTreeMap.getElem?_insert, if_neg (by simpa using hne)]

/-- The row of a key is over the items of that key; there is one where there are such items. -/
theorem getElem?_tally (items : List α) (k : String) :
    (tally key fresh add items)[k]? = rowOf fresh add (items.filter (key · = some k)) := by
  have hgrown (items : List α) (v : V) :
      items.foldl (fun row a ↦ some (add (row.getD (fresh a)) a)) (some v) =
        some (items.foldl add v) := by
    induction items generalizing v with
    | nil => rfl
    | cons a items ih => exact ih (add v a)
  rw [tally, getElem?_foldl_tallyItem, Std.ExtTreeMap.getElem?_empty]
  cases items.filter (key · = some k) with
  | nil => rfl
  | cons a rest => exact hgrown rest (add (fresh a) a)

/-- The rows of a table, measured, are the groups of the items, measured. -/
theorem map_toList_tally_perm {measure : V → M} {total : List α → M}
    (hmeasure : ∀ a items, measure ((a :: items).foldl add (fresh a)) = total (a :: items))
    (items : List α) :
    ((tally key fresh add items).toList.map fun row ↦ measure row.2).Perm
      ((groups key (items.filter fun a ↦ (key a).isSome)).map total) := by
  have hsame (k : String) : (items.filter fun a ↦ (key a).isSome).filter (key · = some k) =
      items.filter (key · = some k) := by
    rw [List.filter_filter]
    refine List.filter_congr fun a _ ↦ ?_
    cases key a <;> simp
  have hrow {k : String} {v : V} (h : (k, v) ∈ (tally key fresh add items).toList) :
      ∃ a rest, items.filter (key · = some k) = a :: rest ∧
        v = (a :: rest).foldl add (fresh a) := by
    rw [Std.ExtTreeMap.mem_toList_iff_getElem?_eq_some, getElem?_tally] at h
    cases hfilter : items.filter (key · = some k) with
    | nil => rw [hfilter] at h; cases h
    | cons a rest =>
      rw [hfilter] at h
      exact ⟨a, rest, rfl, (Option.some.inj h).symm⟩
  have hkeys : ((tally key fresh add items).toList.map fun row ↦ some row.1).Perm
      (@List.eraseDups _ instBEqOfDecidableEq
        ((items.filter fun a ↦ (key a).isSome).map key)) := by
    have hnodup : ((tally key fresh add items).toList.map fun row ↦ some row.1).Nodup := by
      rw [List.Nodup, List.pairwise_map]
      refine Std.ExtTreeMap.distinct_keys_toList.imp fun hne heq ↦ hne ?_
      rw [Option.some.inj heq]
      exact Std.ReflCmp.compare_self
    refine perm_eraseDups hnodup fun k ↦ ?_
    rw [List.mem_map, List.mem_map]
    constructor
    · rintro ⟨row, hmem, rfl⟩
      obtain ⟨a, rest, hfilter, -⟩ := hrow hmem
      have ha : a ∈ items.filter (key · = some row.1) := hfilter ▸ List.mem_cons_self
      rw [List.mem_filter, decide_eq_true_eq] at ha
      exact ⟨a, List.mem_filter.mpr ⟨ha.1, by rw [ha.2]; rfl⟩, ha.2⟩
    · rintro ⟨a, ha, rfl⟩
      rw [List.mem_filter] at ha
      obtain ⟨k, hk⟩ := Option.isSome_iff_exists.mp ha.2
      have hmem : a ∈ items.filter (key · = some k) :=
        List.mem_filter.mpr ⟨ha.1, decide_eq_true hk⟩
      obtain ⟨first, rest, hfilter⟩ := List.exists_cons_of_ne_nil (List.ne_nil_of_mem hmem)
      refine ⟨(k, (first :: rest).foldl add (fresh first)), ?_, hk.symm⟩
      rw [Std.ExtTreeMap.mem_toList_iff_getElem?_eq_some, getElem?_tally, hfilter]
      rfl
  have hvalues : ((tally key fresh add items).toList.map fun row ↦ measure row.2) =
      ((tally key fresh add items).toList.map fun row ↦ some row.1).map fun k ↦
        total ((items.filter fun a ↦ (key a).isSome).filter (key · = k)) := by
    rw [List.map_map]
    refine List.map_congr_left fun row hmem ↦ ?_
    obtain ⟨a, rest, hfilter, hvalue⟩ := hrow hmem
    rw [Function.comp_apply, hsame, hfilter, hvalue]
    exact hmeasure a rest
  have hgroups := hkeys.map fun k ↦
    total ((items.filter fun a ↦ (key a).isSome).filter (key · = k))
  rw [hvalues, groups, List.map_map (g := total)]
  exact hgroups

end Tallies

section Answers

variable {K P T : Type} {calls : List K} {answer : K → Option P} {keyOf : P → K}
  {tools : List T} {key : T → Option K} {owed : T → Option P}

private theorem map_keyOf_filterMap (hanswer : ∀ k p, answer k = some p → keyOf p = k) :
    (calls.filterMap answer).map keyOf = calls.filter fun k ↦ (answer k).isSome := by
  induction calls with
  | nil => rfl
  | cons k calls ih =>
    cases h : answer k with
    | none =>
      rw [List.filterMap_cons_none h, ih, List.filter_cons_of_neg (by simp [h])]
    | some p =>
      rw [List.filterMap_cons_some h, List.map_cons, ih, hanswer k p h,
        List.filter_cons_of_pos (by simp [h])]

private theorem map_some_filterMap :
    (calls.filterMap answer).map some = (calls.filter fun k ↦ (answer k).isSome).map answer := by
  induction calls with
  | nil => rfl
  | cons k calls ih =>
    cases h : answer k with
    | none => rw [List.filterMap_cons_none h, ih, List.filter_cons_of_neg (by simp [h])]
    | some p =>
      rw [List.filterMap_cons_some h, List.map_cons, ih, List.filter_cons_of_pos (by simp [h]),
        List.map_cons, h]

/-- Requests answered by their keys give out what is owed, each once, exactly if what is owed
under a key is what the table holds for it, and a key has as many requests as debts. -/
theorem perm_answers_iff [DecidableEq K]
    (hanswer : ∀ k p, answer k = some p → keyOf p = k)
    (howed : ∀ t p, owed t = some p → key t = some (keyOf p)) :
    ((calls.filterMap answer).map some).Perm (tools.map owed) ↔
      (∀ t ∈ tools, ∃ k, key t = some k ∧ owed t = answer k ∧ (answer k).isSome = true) ∧
      ∀ k, (answer k).isSome = true → calls.count k = (tools.filterMap key).count k := by
  constructor
  · intro hperm
    have hsome : ∀ t ∈ tools, ∃ p, owed t = some p ∧ answer (keyOf p) = some p := by
      intro t ht
      obtain ⟨p, hp, heq⟩ := List.mem_map.mp (hperm.mem_iff.mpr (List.mem_map_of_mem ht))
      obtain ⟨k, -, hk⟩ := List.mem_filterMap.mp hp
      refine ⟨p, heq.symm, ?_⟩
      rw [hanswer k p hk, hk]
    constructor
    · intro t ht
      obtain ⟨p, howes, hanswers⟩ := hsome t ht
      exact ⟨keyOf p, howed t p howes, howes.trans hanswers.symm, by rw [hanswers]; rfl⟩
    · intro k hk
      have hkeys : (tools.filterMap owed).map keyOf = tools.filterMap key := by
        rw [List.map_filterMap]
        refine List.filterMap_congr fun t ht ↦ ?_
        obtain ⟨p, howes, -⟩ := hsome t ht
        rw [howes, howed t p howes]
        rfl
      have hvalues := (hperm.filterMap id).map keyOf
      rw [List.filterMap_map, List.filterMap_map, Function.id_comp, Function.id_comp,
        List.filterMap_some, map_keyOf_filterMap hanswer, hkeys] at hvalues
      rw [← hvalues.count_eq, List.count_filter (p := fun k ↦ (answer k).isSome) hk]
  · rintro ⟨hagree, hcount⟩
    have howe : tools.map owed = (tools.filterMap key).map answer := by
      rw [List.map_filterMap, ← List.filterMap_eq_map]
      refine List.filterMap_congr fun t ht ↦ ?_
      obtain ⟨k, hk, howes, -⟩ := hagree t ht
      rw [hk, Function.comp_apply, howes]
      rfl
    rw [map_some_filterMap, howe]
    apply List.Perm.map
    rw [List.perm_iff_count]
    intro k
    by_cases hk : (answer k).isSome = true
    · rw [List.count_filter (p := fun k ↦ (answer k).isSome) hk, hcount k hk]
    · have hcalls : k ∉ calls.filter fun k ↦ (answer k).isSome := by simp [hk]
      have htools : k ∉ tools.filterMap key := by
        intro hmem
        obtain ⟨t, ht, hkey⟩ := List.mem_filterMap.mp hmem
        obtain ⟨k', hk', -, hsome⟩ := hagree t ht
        rw [hkey] at hk'
        cases hk'
        exact hk hsome
      rw [List.count_eq_zero_of_not_mem hcalls, List.count_eq_zero_of_not_mem htools]

end Answers
end NullRouter.Base
