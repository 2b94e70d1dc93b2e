import Mathlib.Data.List.Chain
import Mathlib.Data.List.Forall2

/-!
# Merging neighbours

A list rebuilt from the left, where an item that can be merged into the last one built is. Every
item built stands for a block of neighbours, and two that stand side by side could not be merged.
-/

namespace NullRouter.Base

variable {α β : Type} (merge : α → α → Option α)

/-- Merges an item into the last one, or puts it behind. -/
def absorb (built : List α) (item : α) : List α :=
  match built.getLast?.bind (merge · item) with
  | some merged => built.dropLast ++ [merged]
  | none => built ++ [item]

/-- Rebuilds a list, merging neighbours. -/
def coalesce (items : List α) : List α := items.foldl (absorb merge) []

variable {merge}

@[simp] theorem coalesce_nil : coalesce merge [] = [] := rfl

theorem coalesce_concat (items : List α) (item : α) :
    coalesce merge (items ++ [item]) = absorb merge (coalesce merge items) item := by
  rw [coalesce, List.foldl_append]
  rfl

/-- What absorbing an item does: it is merged into the last one built, or stands behind. -/
theorem absorb_cases (merge : α → α → Option α) (built : List α) (item : α) :
    (∃ init last merged, built = init ++ [last] ∧ merge last item = some merged ∧
      absorb merge built item = init ++ [merged]) ∨
    ((∀ last ∈ built.getLast?, merge last item = none) ∧
      absorb merge built item = built ++ [item]) := by
  rcases List.eq_nil_or_concat built with rfl | ⟨init, last, rfl⟩
  · right
    exact ⟨by simp, rfl⟩
  · cases hm : merge last item with
    | some merged =>
      left
      exact ⟨init, last, merged, by simp, hm, by simp [absorb, hm]⟩
    | none =>
      right
      exact ⟨by simp [hm], by simp [absorb, hm]⟩

/-- What is related to a list in two parts is in two parts itself. -/
theorem forall₂_append_right {γ : Type} {R : γ → α → Prop} {l : List γ} {l₁ l₂ : List α}
    (h : List.Forall₂ R l (l₁ ++ l₂)) :
    ∃ k₁ k₂, l = k₁ ++ k₂ ∧ List.Forall₂ R k₁ l₁ ∧ List.Forall₂ R k₂ l₂ :=
  ⟨_, _, (List.take_append_drop l₁.length l).symm, List.forall₂_take_append _ _ _ h,
    List.forall₂_drop_append _ _ _ h⟩

/-- Where a relation between blocks and items holds of single elements and is kept by merging,
the list built stands for blocks that make up the whole. -/
theorem exists_blocks {R : List β → α → Prop} {f : β → α} {elements : List β}
    (hone : ∀ b ∈ elements, R [b] (f b))
    (hmerge : ∀ block, ∀ b ∈ elements, ∀ a merged, R block a → merge a (f b) = some merged →
      R (block ++ [b]) merged) :
    ∃ blocks, blocks.flatten = elements ∧ [] ∉ blocks ∧
      List.Forall₂ R blocks (coalesce merge (elements.map f)) := by
  induction elements using List.reverseRecOn with
  | nil => exact ⟨[], rfl, by simp, .nil⟩
  | append_singleton elements b ih =>
    obtain ⟨blocks, hflat, hne, hblocks⟩ :=
      ih (fun b hb ↦ hone b (List.mem_append_left _ hb))
        (fun block b hb ↦ hmerge block b (List.mem_append_left _ hb))
    have hb : b ∈ elements ++ [b] := by simp
    rw [List.map_append, List.map_singleton, coalesce_concat]
    rcases absorb_cases merge (coalesce merge (elements.map f)) (f b) with
      ⟨init, last, merged, hbuilt, hm, h⟩ | ⟨-, h⟩
    · rw [hbuilt] at hblocks
      obtain ⟨front, tail, rfl, hfront, htail⟩ := forall₂_append_right hblocks
      obtain ⟨block, hlast, rfl⟩ : ∃ block, R block last ∧ tail = [block] := by
        cases htail with
        | cons hblock hnil =>
          cases hnil
          exact ⟨_, hblock, rfl⟩
      refine ⟨front ++ [block ++ [b]], ?_, ?_, ?_⟩
      · rw [← hflat]
        simp
      · simp only [List.mem_append, List.mem_singleton, not_or] at hne ⊢
        exact ⟨hne.1, by simp⟩
      · rw [h]
        exact List.rel_append hfront (.cons (hmerge block b hb last merged hlast hm) .nil)
    · refine ⟨blocks ++ [[b]], by simp [hflat], by simp [hne], ?_⟩
      rw [h]
      exact List.rel_append hblocks (.cons (hone b hb) .nil)

section Kinds

variable {κ : Type} {kind : α → κ}
  (hkind : ∀ a b merged, merge a b = some merged → kind merged = kind a ∧ kind merged = kind b)
include hkind

/-- Where merging keeps the kind, the last item built has the kind of the last item. -/
theorem getLast?_coalesce (items : List α) :
    (coalesce merge items).getLast?.map kind = items.getLast?.map kind := by
  induction items using List.reverseRecOn with
  | nil => rfl
  | append_singleton items a ih =>
    rw [coalesce_concat]
    rcases absorb_cases merge (coalesce merge items) a with ⟨init, last, merged, -, hm, h⟩ | ⟨-, h⟩
    · rw [h, List.getLast?_concat, List.getLast?_concat, Option.map_some, Option.map_some,
        (hkind _ _ _ hm).2]
    · rw [h, List.getLast?_concat, List.getLast?_concat]

/-- Where moreover the kinds say whether two items are merged, neighbours built are related by
their kinds exactly when neighbours that are not merged are. -/
theorem isChain_coalesce {joins related : κ → κ → Prop}
    (hjoins : ∀ a b, (merge a b).isSome = true ↔ joins (kind a) (kind b)) (items : List α) :
    (coalesce merge items).IsChain (fun a b ↦ related (kind a) (kind b)) ↔
      items.IsChain fun a b ↦ joins (kind a) (kind b) ∨ related (kind a) (kind b) := by
  induction items using List.reverseRecOn with
  | nil => simp
  | append_singleton items a ih =>
    have hlast := getLast?_coalesce hkind items
    rw [coalesce_concat, List.isChain_append, ← ih]
    rcases absorb_cases merge (coalesce merge items) a with
      ⟨init, last, merged, hbuilt, hm, h⟩ | ⟨hnone, h⟩
    · rw [hbuilt, List.getLast?_concat, Option.map_some] at hlast
      obtain ⟨item, hitem, hitemKind⟩ := Option.map_eq_some_iff.mp hlast.symm
      have hjoin : joins (kind item) (kind a) := by
        rw [hitemKind, ← hjoins, hm]
        rfl
      rw [h, hbuilt, List.isChain_append, List.isChain_append, hitem]
      simp [hjoin, (hkind _ _ _ hm).1]
    · rw [h, List.isChain_append]
      have hne : ∀ item ∈ items.getLast?, ¬ joins (kind item) (kind a) := by
        intro item hitem hjoin
        rw [hitem, Option.map_some] at hlast
        obtain ⟨last, hlast, hlastKind⟩ := Option.map_eq_some_iff.mp hlast
        rw [← hlastKind, ← hjoins, hnone last hlast] at hjoin
        cases hjoin
      have hsame : (∀ x ∈ (coalesce merge items).getLast?, related (kind x) (kind a)) ↔
          ∀ x ∈ items.getLast?, related (kind x) (kind a) := by
        have hforall (o : Option α) : (∀ x ∈ o, related (kind x) (kind a)) ↔
            ∀ k ∈ o.map kind, related k (kind a) := by simp
        rw [hforall, hforall, hlast]
      simp only [List.isChain_singleton, true_and, List.head?_cons, Option.mem_some_iff,
        forall_eq']
      rw [hsame]
      constructor
      · intro ⟨hchain, hrel⟩
        exact ⟨hchain, fun x hx ↦ Or.inr (hrel x hx)⟩
      · intro ⟨hchain, hrel⟩
        exact ⟨hchain, fun x hx ↦ (hrel x hx).resolve_left (hne x hx)⟩

end Kinds

/-- A measure that merging adds up is that of all items together. -/
theorem flatMap_coalesce {measure : α → List β}
    (hmerge : ∀ a b merged, merge a b = some merged → measure merged = measure a ++ measure b)
    (items : List α) : (coalesce merge items).flatMap measure = items.flatMap measure := by
  induction items using List.reverseRecOn with
  | nil => rfl
  | append_singleton items a ih =>
    rw [coalesce_concat, List.flatMap_append, List.flatMap_singleton, ← ih]
    rcases absorb_cases merge (coalesce merge items) a with ⟨init, last, merged, hbuilt, hm, h⟩ | ⟨-, h⟩
    · rw [h, hbuilt, List.flatMap_append, List.flatMap_append, List.flatMap_singleton,
        List.flatMap_singleton, hmerge _ _ _ hm, List.append_assoc]
    · rw [h, List.flatMap_append, List.flatMap_singleton]

end NullRouter.Base
