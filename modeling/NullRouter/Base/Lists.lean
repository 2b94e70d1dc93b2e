import Mathlib.Data.List.Nodup
import Mathlib.Data.List.Perm.Subperm

/-!
# First matches and extrema of a list

The iterator idioms of a table kept in a vector: change the first record that matches
(`iter_mut().find`), and the extrema of `Iterator::min_by` and `Iterator::max_by`, which
return the first least and the last greatest element.
-/

namespace NullRouter.Base

universe u v

variable {α : Type u} {β : Type v}

/-- Change the first record that matches; `none` when there is none. -/
def updateFirst (p : α → Bool) (f : α → α) : List α → Option (List α)
  | [] => none
  | x :: xs => if p x then some (f x :: xs) else (updateFirst p f xs).map (x :: ·)

/-- `iter_mut().rev()`: change the last record that matches, if there is one. -/
def updateLast (p : α → Bool) (f : α → α) (l : List α) : List α :=
  ((updateFirst p f l.reverse).map List.reverse).getD l

/-- `Iterator::max_by`: the last greatest element. -/
def maxBy (cmp : α → α → Ordering) : List α → Option α
  | [] => none
  | x :: xs => some (xs.foldl (fun m y ↦ if cmp m y = .gt then m else y) x)

/-- `Iterator::min_by`: the first least element. -/
def minBy (cmp : α → α → Ordering) : List α → Option α
  | [] => none
  | x :: xs => some (xs.foldl (fun m y ↦ if cmp m y = .gt then y else m) x)

section UpdateFirst

variable {p q : α → Bool} {f : α → α} {l l' : List α}

/-- Nothing changes exactly when no record matches. -/
theorem updateFirst_eq_none : updateFirst p f l = none ↔ l.find? p = none := by
  induction l with
  | nil => simp [updateFirst]
  | cons x xs ih =>
    by_cases hx : p x = true
    · simp [updateFirst, hx]
    · rw [updateFirst, if_neg hx, Option.map_eq_none_iff, ih, List.find?_cons_of_neg hx]

/-- A view that the change preserves of every record is preserved of the table. -/
theorem map_updateFirst {g : α → β} (hf : ∀ x ∈ l, p x = true → g (f x) = g x)
    (h : updateFirst p f l = some l') : l'.map g = l.map g := by
  induction l generalizing l' with
  | nil => cases h
  | cons x xs ih =>
    unfold updateFirst at h
    split at h
    · next hx =>
      cases h
      simp [hf x (by simp) hx]
    · obtain ⟨ys, hys, rfl⟩ := Option.map_eq_some_iff.mp h
      simp [ih (fun y hy ↦ hf y (by simp [hy])) hys]

/-- So it is where a missing record leaves the table. -/
theorem map_getD_updateFirst {g : α → β} (hf : ∀ x ∈ l, p x = true → g (f x) = g x) :
    ((updateFirst p f l).getD l).map g = l.map g := by
  cases h : updateFirst p f l with
  | none => rfl
  | some l' => exact map_updateFirst hf h

/-- A view that the change preserves of every record is preserved of the list. -/
theorem map_updateLast {g : α → β} (hf : ∀ x ∈ l, p x = true → g (f x) = g x) :
    (updateLast p f l).map g = l.map g := by
  unfold updateLast
  cases h : updateFirst p f l.reverse with
  | none => rfl
  | some l' =>
    rw [Option.map_some, Option.getD_some, List.map_reverse, map_updateFirst ?_ h,
      List.map_reverse, List.reverse_reverse]
    exact fun x hx ↦ hf x (List.mem_reverse.mp hx)

/-- The table is the same after a change exactly when the record changed is. -/
theorem updateFirst_eq_self_iff (h : updateFirst p f l = some l') :
    l' = l ↔ ∀ x, l.find? p = some x → f x = x := by
  induction l generalizing l' with
  | nil => cases h
  | cons x xs ih =>
    unfold updateFirst at h
    split at h
    · next hx =>
      cases h
      simp [hx]
    · next hx =>
      obtain ⟨ys, hys, rfl⟩ := Option.map_eq_some_iff.mp h
      simp [hx, ih hys]

/-- Only the first record that matches changes. -/
theorem getElem?_updateFirst (h : updateFirst p f l = some l') (i : Nat) :
    l'[i]? = if i = l.findIdx p then l[i]?.map f else l[i]? := by
  induction l generalizing l' i with
  | nil => cases h
  | cons x xs ih =>
    unfold updateFirst at h
    split at h
    · next hx =>
      cases h
      rw [List.findIdx_cons, hx]
      cases i <;> simp
    · next hx =>
      obtain ⟨ys, hys, rfl⟩ := Option.map_eq_some_iff.mp h
      rw [List.findIdx_cons, Bool.not_eq_true _ |>.mp hx]
      cases i with
      | zero => simp
      | succ i => simpa using ih hys i

/-- The record found after a change by the same test is the changed one. -/
theorem find?_updateFirst_self (hf : ∀ x, p x = true → p (f x) = true)
    (h : updateFirst p f l = some l') : l'.find? p = (l.find? p).map f := by
  induction l generalizing l' with
  | nil => cases h
  | cons x xs ih =>
    unfold updateFirst at h
    split at h
    · next hx =>
      cases h
      simp [hx, hf x hx]
    · next hx =>
      obtain ⟨ys, hys, rfl⟩ := Option.map_eq_some_iff.mp h
      rw [List.find?_cons_of_neg hx, List.find?_cons_of_neg hx, ih hys]

/-- A test that misses the changed record, before and after, finds what it found. -/
theorem find?_updateFirst_of_ne (hq : ∀ x, p x = true → q x = false ∧ q (f x) = false)
    (h : updateFirst p f l = some l') : l'.find? q = l.find? q := by
  induction l generalizing l' with
  | nil => cases h
  | cons x xs ih =>
    unfold updateFirst at h
    split at h
    · next hx =>
      cases h
      simp [(hq x hx).1, (hq x hx).2]
    · obtain ⟨ys, hys, rfl⟩ := Option.map_eq_some_iff.mp h
      simp [List.find?_cons, ih hys]

/-- A record stays, or it is the first that matches and its change is there. -/
theorem mem_updateFirst {x : α} (h : updateFirst p f l = some l') (hx : x ∈ l) :
    x ∈ l' ∨ l.find? p = some x ∧ f x ∈ l' := by
  induction l generalizing l' with
  | nil => cases h
  | cons y ys ih =>
    unfold updateFirst at h
    split at h
    · next hy =>
      cases h
      rcases List.mem_cons.mp hx with rfl | hx
      · exact .inr ⟨List.find?_cons_of_pos hy, List.mem_cons_self⟩
      · exact .inl (List.mem_cons_of_mem _ hx)
    · next hy =>
      obtain ⟨zs, hzs, rfl⟩ := Option.map_eq_some_iff.mp h
      rcases List.mem_cons.mp hx with rfl | hx
      · exact .inl List.mem_cons_self
      · rw [List.find?_cons_of_neg hy]
        rcases ih hzs hx with hmem | ⟨hfind, hmem⟩
        · exact .inl (List.mem_cons_of_mem _ hmem)
        · exact .inr ⟨hfind, List.mem_cons_of_mem _ hmem⟩

/-- What holds of every record holds after a change if it holds of the changed record. -/
theorem forall_mem_updateFirst {P : α → Prop} (h : updateFirst p f l = some l')
    (hl : ∀ x ∈ l, P x) (hf : ∀ x, l.find? p = some x → P (f x)) : ∀ x ∈ l', P x := by
  induction l generalizing l' with
  | nil => cases h
  | cons y ys ih =>
    obtain ⟨hy, hys⟩ := List.forall_mem_cons.mp hl
    unfold updateFirst at h
    split at h
    · next hp =>
      cases h
      exact List.forall_mem_cons.mpr ⟨hf y (List.find?_cons_of_pos hp), hys⟩
    · next hp =>
      obtain ⟨zs, hzs, rfl⟩ := Option.map_eq_some_iff.mp h
      rw [List.find?_cons_of_neg hp] at hf
      exact List.forall_mem_cons.mpr ⟨hy, ih hzs hys hf⟩

end UpdateFirst

/-- A view that a change preserves of every record is preserved by changing one position. -/
theorem map_modify {f : α → α} {g : α → β} (hf : ∀ x, g (f x) = g x) (l : List α) (i : Nat) :
    (l.modify i f).map g = l.map g := by
  induction l generalizing i with
  | nil => simp
  | cons x xs ih =>
    cases i with
    | zero => simp [hf]
    | succ i => simp [ih]

/-- What stands at a place of a list with one place changed. -/
theorem getElem?_modify_eq_some {f : α → α} {l : List α} {i j : Nat} {a' : α} :
    (l.modify i f)[j]? = some a' ↔ ∃ a, l[j]? = some a ∧ (if i = j then f a else a) = a' := by
  rw [List.getElem?_modify]
  exact Option.map_eq_some_iff

/-- What holds of nothing done, and with each step of what is done then, holds of a whole fold that
may fail. -/
theorem foldlM_induction {f : β → α → Option β} {P : List α → β → Prop}
    (hstep : ∀ done acc a acc', P done acc → f acc a = some acc' → P (done ++ [a]) acc')
    {init result : β} (hinit : P [] init) {l : List α} (h : l.foldlM f init = some result) :
    P l result := by
  have hrun : ∀ l done acc, P done acc → List.foldlM f acc l = some result →
      P (done ++ l) result := by
    intro l
    induction l with
    | nil =>
      intro done acc hacc h
      cases h
      rwa [List.append_nil]
    | cons a l ih =>
      intro done acc hacc h
      rw [List.foldlM_cons] at h
      obtain ⟨acc', ha, h⟩ := Option.bind_eq_some_iff.mp h
      have hrest := ih _ acc' (hstep done acc a acc' hacc ha) h
      rwa [List.append_assoc] at hrest
  exact hrun l [] init hinit h

/-- A fold whose steps do not fail does not fail. -/
theorem foldlM_isSome {f : β → α → Option β} (hstep : ∀ acc a, (f acc a).isSome = true)
    (init : β) (l : List α) : (l.foldlM f init).isSome = true := by
  induction l generalizing init with
  | nil => rfl
  | cons a l ih =>
    obtain ⟨acc, ha⟩ := Option.isSome_iff_exists.mp (hstep init a)
    rw [List.foldlM_cons, ha]
    exact ih acc

/-- What yields no more of each element yields no more of all. -/
theorem length_flatMap_le {f g : α → List β} {l : List α}
    (h : ∀ a ∈ l, (f a).length ≤ (g a).length) :
    (l.flatMap f).length ≤ (l.flatMap g).length := by
  induction l with
  | nil => exact Nat.le_refl _
  | cons a l ih =>
    rw [List.flatMap_cons, List.flatMap_cons, List.length_append, List.length_append]
    have ha := h a List.mem_cons_self
    have hl := ih fun b hb ↦ h b (List.mem_cons_of_mem a hb)
    omega

/-- Where `f` yields no more than `g` of each element, and the same of all together, the two agree
on each element. -/
theorem eq_of_flatMap_eq {f g : α → List β} {l : List α}
    (hle : ∀ a ∈ l, (f a).length ≤ (g a).length) (h : l.flatMap f = l.flatMap g) :
    ∀ a ∈ l, f a = g a := by
  induction l with
  | nil => simp
  | cons a l ih =>
    rw [List.flatMap_cons, List.flatMap_cons] at h
    have hrest := length_flatMap_le fun b hb ↦ hle b (List.mem_cons_of_mem a hb)
    have hlength := congrArg List.length h
    rw [List.length_append, List.length_append] at hlength
    have ha := hle a List.mem_cons_self
    obtain ⟨hhead, htail⟩ := List.append_inj h (by omega)
    intro b hb
    rcases List.mem_cons.mp hb with rfl | hb
    · exact hhead
    · exact ih (fun c hc ↦ hle c (List.mem_cons_of_mem a hc)) htail b hb

section Lookup

variable {κ : Type u} [BEq κ] [LawfulBEq κ] {entries : List (κ × β)} {k : κ} {v : β}

/-- What is looked up is there. -/
theorem mem_of_lookup (h : entries.lookup k = some v) : (k, v) ∈ entries := by
  obtain ⟨front, back, rfl, -⟩ := List.lookup_eq_some_iff.mp h
  simp

/-- Where no key is there twice, what is there is looked up. -/
theorem lookup_of_mem (hkeys : (entries.map Prod.fst).Nodup) (h : (k, v) ∈ entries) :
    entries.lookup k = some v := by
  obtain ⟨front, back, rfl⟩ := List.append_of_mem h
  refine List.lookup_eq_some_iff.mpr ⟨front, back, rfl, fun entry hentry ↦ ?_⟩
  rw [List.map_append, List.map_cons] at hkeys
  have hne := (List.nodup_append.mp hkeys).2.2 entry.1 (List.mem_map_of_mem hentry) k (by simp)
  simpa using hne.symm

end Lookup

/-- Counting up from anywhere along distinct values leaves a list within as many steps as the
list is long. -/
theorem exists_notMem_of_injective {f : Nat → α} (hf : Function.Injective f) (l : List α)
    (start : Nat) : ∃ k ≤ l.length, f (start + k) ∉ l := by
  by_contra h
  push Not at h
  have hinj : Function.Injective fun k ↦ f (start + k) := fun a b e ↦ by
    have := hf e
    omega
  have hsub : (List.range (l.length + 1)).map (fun k ↦ f (start + k)) ⊆ l := by
    intro x hx
    obtain ⟨k, hk, rfl⟩ := List.mem_map.mp hx
    exact h k (by rw [List.mem_range] at hk; omega)
  have hle := (List.subperm_of_subset (List.Nodup.map hinj List.nodup_range) hsub).length_le
  rw [List.length_map, List.length_range] at hle
  omega

/-- Where `f` yields part of what `g` does of each element, the two agree on a list exactly when
they agree on each of its elements. -/
theorem flatMap_eq_iff_of_sublist {f g : α → List β} {l : List α}
    (h : ∀ a ∈ l, (f a).Sublist (g a)) : l.flatMap f = l.flatMap g ↔ ∀ a ∈ l, f a = g a := by
  induction l with
  | nil => simp
  | cons a l ih =>
    have ha := h a (by simp)
    have hl : (l.flatMap f).Sublist (l.flatMap g) := by
      clear ih
      induction l with
      | nil => simp
      | cons b l ihl =>
        rw [List.flatMap_cons, List.flatMap_cons]
        exact (h b (by simp)).append (ihl fun x hx ↦ h x (by
          rcases List.mem_cons.mp hx with rfl | hx <;> simp [*]))
    rw [List.flatMap_cons, List.flatMap_cons, List.forall_mem_cons,
      ← ih fun x hx ↦ h x (by simp [hx])]
    constructor
    · intro he
      have hlen := congrArg List.length he
      rw [List.length_append, List.length_append] at hlen
      have := ha.length_le
      have := hl.length_le
      exact ⟨ha.eq_of_length (by omega), hl.eq_of_length (by omega)⟩
    · rintro ⟨h₁, h₂⟩
      rw [h₁, h₂]

/-- The second list is the first with elements of a kind put in between. -/
inductive Padded (p : α → Prop) : List α → List α → Prop where
  | nil : Padded p [] []
  | keep (a : α) {l l' : List α} : Padded p l l' → Padded p (a :: l) (a :: l')
  | pad (a : α) {l l' : List α} : p a → Padded p l l' → Padded p l (a :: l')

/-- Lists that go on alike stay alike behind a common start. -/
theorem Padded.keep_append {p : α → Prop} {l l' : List α} (start : List α) (h : Padded p l l') :
    Padded p (start ++ l) (start ++ l') := by
  induction start with
  | nil => exact h
  | cons a start ih => exact .keep a ih

/-- A list is itself with nothing put in between. -/
theorem Padded.refl (p : α → Prop) (l : List α) : Padded p l l := by
  rw [← List.append_nil l]
  exact Padded.nil.keep_append l

/-- A block of such elements may be put in front. -/
theorem Padded.append_left {p : α → Prop} {pads l l' : List α} (hp : ∀ a ∈ pads, p a)
    (h : Padded p l l') : Padded p l (pads ++ l') := by
  induction pads with
  | nil => exact h
  | cons a pads ih =>
    exact .pad a (hp a (by simp)) (ih fun x hx ↦ hp x (by simp [hx]))

section Extrema

variable {cmp : α → α → Ordering} {l : List α} {x : α}

private theorem foldl_pick_mem {pick : α → α → α} (hp : ∀ a b, pick a b = a ∨ pick a b = b)
    (l : List α) (x : α) : l.foldl pick x ∈ x :: l := by
  induction l generalizing x with
  | nil => simp
  | cons y ys ih =>
    have h := ih (pick x y)
    rcases hp x y with e | e <;> simp only [e, List.foldl_cons, List.mem_cons] at h ⊢ <;> tauto

/-- The greatest element is one of the list. -/
theorem maxBy_mem (h : maxBy cmp l = some x) : x ∈ l := by
  cases l with
  | nil => cases h
  | cons y ys =>
    cases h
    exact foldl_pick_mem (fun a b ↦ by by_cases h : cmp a b = .gt <;> simp [h]) ys y

/-- The least element is one of the list. -/
theorem minBy_mem (h : minBy cmp l = some x) : x ∈ l := by
  cases l with
  | nil => cases h
  | cons y ys =>
    cases h
    exact foldl_pick_mem (fun a b ↦ by by_cases h : cmp a b = .gt <;> simp [h]) ys y

/-- A list that is not empty has a least element. -/
theorem minBy_isSome (h : l ≠ []) : (minBy cmp l).isSome = true := by
  cases l with
  | nil => exact absurd rfl h
  | cons y ys => rfl

/-- Picking one of two at each element ends on an element of the kind that wins over the others,
if there is one. -/
private theorem foldl_pick_of_wins {pick : α → α → α} {p : α → Prop}
    (hp : ∀ a b, pick a b = a ∨ pick a b = b) (l : List α) (x : α)
    (hkeep : ∀ a ∈ x :: l, ∀ b ∈ x :: l, p a → ¬ p b → pick a b = a)
    (htake : ∀ a ∈ x :: l, ∀ b ∈ x :: l, ¬ p a → p b → pick a b = b)
    (hex : ∃ a ∈ x :: l, p a) : p (l.foldl pick x) := by
  induction l generalizing x with
  | nil =>
    obtain ⟨a, ha, hpa⟩ := hex
    rw [List.mem_singleton.mp ha] at hpa
    exact hpa
  | cons y ys ih =>
    have hmem : ∀ a ∈ pick x y :: ys, a ∈ x :: y :: ys := by
      intro a ha
      rcases List.mem_cons.mp ha with rfl | ha
      · rcases hp x y with h | h <;> rw [h] <;> simp
      · simp [ha]
    refine ih (pick x y) (fun a ha b hb ↦ hkeep a (hmem a ha) b (hmem b hb))
      (fun a ha b hb ↦ htake a (hmem a ha) b (hmem b hb)) ?_
    have hxy : p x ∨ p y → p (pick x y) := by
      intro h
      by_cases hx : p x
      · by_cases hy : p y
        · rcases hp x y with e | e <;> rw [e] <;> assumption
        · rw [hkeep x (by simp) y (by simp) hx hy]
          exact hx
      · have hy := h.resolve_left hx
        rw [htake x (by simp) y (by simp) hx hy]
        exact hy
    obtain ⟨a, ha, hpa⟩ := hex
    rcases List.mem_cons.mp ha with rfl | ha
    · exact ⟨_, List.mem_cons_self, hxy (.inl hpa)⟩
    · rcases List.mem_cons.mp ha with rfl | ha
      · exact ⟨_, List.mem_cons_self, hxy (.inr hpa)⟩
      · exact ⟨a, List.mem_cons_of_mem _ ha, hpa⟩

/-- The least element is of a kind whose elements are all less than the others. -/
theorem minBy_of_lt {p : α → Prop} (hex : ∃ a ∈ l, p a)
    (hlt : ∀ a ∈ l, ∀ b ∈ l, p a → ¬ p b → cmp a b ≠ .gt ∧ cmp b a = .gt)
    (h : minBy cmp l = some x) : p x := by
  cases l with
  | nil => cases h
  | cons y ys =>
    cases h
    refine foldl_pick_of_wins (fun a b ↦ by by_cases h : cmp a b = .gt <;> simp [h]) ys y
      (fun a ha b hb hpa hpb ↦ if_neg (hlt a ha b hb hpa hpb).1)
      (fun a ha b hb hpa hpb ↦ if_pos (hlt b hb a ha hpb hpa).2) hex

/-- The greatest element is of a kind whose elements are all greater than the others. -/
theorem maxBy_of_gt {p : α → Prop} (hex : ∃ a ∈ l, p a)
    (hgt : ∀ a ∈ l, ∀ b ∈ l, p a → ¬ p b → cmp a b = .gt ∧ cmp b a ≠ .gt)
    (h : maxBy cmp l = some x) : p x := by
  cases l with
  | nil => cases h
  | cons y ys =>
    cases h
    refine foldl_pick_of_wins (fun a b ↦ by by_cases h : cmp a b = .gt <;> simp [h]) ys y
      (fun a ha b hb hpa hpb ↦ if_pos (hgt a ha b hb hpa hpb).1)
      (fun a ha b hb hpa hpb ↦ if_neg (hgt b hb a ha hpb hpa).2) hex

/-- A list that is not empty has a greatest element. -/
theorem maxBy_isSome (h : l ≠ []) : (maxBy cmp l).isSome = true := by
  cases l with
  | nil => exact absurd rfl h
  | cons y ys => rfl

/-- The least of some limits is above a bound exactly when all of them are. -/
theorem lt_foldl_min_iff {limits : List Nat} {n bound : Nat} :
    bound < limits.foldl min n ↔ bound < n ∧ ∀ limit ∈ limits, bound < limit := by
  induction limits generalizing n with
  | nil => simp
  | cons limit limits ih =>
    rw [List.foldl_cons, ih, List.forall_mem_cons, Nat.lt_min, and_assoc]

/-- The least of some limits is within a bound exactly when one of them is. -/
theorem foldl_min_le_iff {limits : List Nat} {n bound : Nat} :
    limits.foldl min n ≤ bound ↔ n ≤ bound ∨ ∃ limit ∈ limits, limit ≤ bound := by
  rw [← Nat.not_lt, lt_foldl_min_iff, Classical.not_and_iff_not_or_not]
  simp only [Nat.not_lt, Classical.not_forall, exists_prop]

end Extrema
/-- What `find?` finds is what `eraseP` takes out. -/
theorem eraseP_of_find? {p : α → Bool} {l : List α} {a : α}
    (h : l.find? p = some a) :
    p a = true ∧ ∃ before after, l = before ++ a :: after ∧ l.eraseP p = before ++ after := by
  obtain ⟨ha, before, after, rfl, hbefore⟩ := List.find?_eq_some_iff_append.mp h
  refine ⟨ha, before, after, rfl, ?_⟩
  rw [List.eraseP_append_right _ (by simpa using hbefore), List.eraseP_cons_of_pos ha]

section Part

variable {p q : α → Bool}

/-- The first match of a test is in the part of a list that holds all its matches. -/
theorem find?_filter_of_imp (h : ∀ a, p a = true → q a = true) (l : List α) :
    (l.filter q).find? p = l.find? p := by
  rw [List.find?_filter]
  congr
  funext a
  by_cases hp : p a = true
  · simp [hp, h a hp]
  · simp [hp]

/-- It is taken out of that part as out of the whole. -/
theorem eraseP_filter_of_imp (h : ∀ a, p a = true → q a = true) (l : List α) :
    (l.filter q).eraseP p = (l.eraseP p).filter q := by
  rw [List.eraseP_filter]
  congr
  funext a
  by_cases hp : p a = true
  · simp [hp, h a hp]
  · simp [hp]

/-- The part of a list without a match stays when the first match is taken out. -/
theorem filter_eraseP_of_disjoint (h : ∀ a, p a = true → q a = false) (l : List α) :
    (l.eraseP p).filter q = l.filter q := by
  induction l with
  | nil => rfl
  | cons a l ih =>
    by_cases hp : p a = true
    · rw [List.eraseP_cons_of_pos hp, List.filter_cons_of_neg (by simp [h a hp])]
    · rw [List.eraseP_cons_of_neg hp, List.filter_cons, List.filter_cons, ih]

end Part

end NullRouter.Base
