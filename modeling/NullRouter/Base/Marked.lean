import Mathlib.Data.List.Basic
import Mathlib.Data.List.TakeWhile

/-!
# Blocks between two marks

Lists in which a block stands between an opening and a closing mark: the layouts that the marks may
form, what a block holds, and what is left outside the blocks of several pairs of marks.
-/

namespace NullRouter.Base

section Marked

variable {α : Type} [DecidableEq α] {opening closing : α} {l x y z : List α}

/-- The marks of a list. -/
def marks (opening closing : α) (l : List α) : List α := l.filter fun a ↦ a = opening ∨ a = closing

/-- How the marks of a list lie: none, one block with its content, or anything else. -/
inductive Layout (α : Type) where
  | absent
  | block (content : List α)
  | corrupt
  deriving DecidableEq

/-- What stands between the first opening mark and the closing mark after it. -/
def content (opening closing : α) (l : List α) : List α :=
  ((l.dropWhile (· ≠ opening)).drop 1).takeWhile (· ≠ closing)

/-- The layout of a list's marks. -/
def layout (opening closing : α) (l : List α) : Layout α :=
  if marks opening closing l = [] then .absent
  else if marks opening closing l = [opening, closing] then .block (content opening closing l)
  else .corrupt

/-- A list as its one block and what stands before and after. -/
structure Block (opening closing : α) (l x y z : List α) : Prop where
  eq : l = x ++ opening :: (y ++ closing :: z)
  before : marks opening closing x = []
  inside : marks opening closing y = []
  after : marks opening closing z = []

private theorem ne_of_not_mem {a : α} (h : a ∉ l) : ∀ b ∈ l, decide (b ≠ a) = true := by
  intro b hb
  rw [decide_eq_true_eq]
  rintro rfl
  exact h hb

theorem marks_append : marks opening closing (x ++ y) =
    marks opening closing x ++ marks opening closing y :=
  List.filter_append x y

theorem marks_opening : marks opening closing (opening :: l) =
    opening :: marks opening closing l := by
  simp [marks]

theorem marks_closing : marks opening closing (closing :: l) =
    closing :: marks opening closing l := by
  simp [marks]

theorem marks_eq_nil_iff : marks opening closing l = [] ↔ opening ∉ l ∧ closing ∉ l := by
  rw [marks, List.filter_eq_nil_iff]
  constructor
  · intro h
    exact ⟨fun hmem ↦ h _ hmem (by simp), fun hmem ↦ h _ hmem (by simp)⟩
  · rintro ⟨hopening, hclosing⟩ a ha
    rw [decide_eq_true_eq]
    rintro (rfl | rfl)
    · exact hopening ha
    · exact hclosing ha

/-- A list whose first mark is known. -/
theorem exists_of_marks_eq_cons {mark : α} {rest : List α}
    (h : marks opening closing l = mark :: rest) :
    ∃ before after, l = before ++ mark :: after ∧ marks opening closing before = [] ∧
      (mark = opening ∨ mark = closing) ∧ marks opening closing after = rest := by
  obtain ⟨before, after, hl, hbefore, hmark, hafter⟩ := List.filter_eq_cons_iff.mp h
  exact ⟨before, after, hl, List.filter_eq_nil_iff.mpr hbefore, of_decide_eq_true hmark, hafter⟩

/-- An opening and a closing mark make one block. -/
theorem marks_eq_pair_iff :
    marks opening closing l = [opening, closing] ↔ ∃ x y z, Block opening closing l x y z := by
  constructor
  · intro h
    obtain ⟨x, after, hl, hx, -, hafter⟩ := exists_of_marks_eq_cons h
    obtain ⟨y, z, hy, hmarks, -, hz⟩ := exists_of_marks_eq_cons hafter
    exact ⟨x, y, z, by rw [hl, hy], hx, hmarks, hz⟩
  · rintro ⟨x, y, z, block⟩
    rw [block.eq, marks_append, block.before, marks_opening, marks_append, block.inside,
      marks_closing, block.after]
    rfl

theorem mem_of_mem_marks {a : α} (h : a ∈ marks opening closing l) :
    a = opening ∨ a = closing :=
  of_decide_eq_true (List.mem_filter.mp h).2

/-- The marks that are there are those among the marks. -/
theorem countP_marks {mark : α} (h : mark = opening ∨ mark = closing) :
    (marks opening closing l).countP (· = mark) = l.countP (· = mark) := by
  rw [marks, List.countP_filter]
  apply List.countP_congr
  intro a _
  rw [Bool.and_eq_true, decide_eq_true_eq, decide_eq_true_eq, and_iff_left_iff_imp]
  rintro rfl
  exact h

/-- One mark of each kind, or none, in one order or the other. -/
theorem marks_of_countP (hne : opening ≠ closing)
    (hone : l.countP (· = opening) = l.countP (· = closing)) (hle : l.countP (· = opening) ≤ 1) :
    marks opening closing l = [] ∨ marks opening closing l = [opening, closing] ∨
      marks opening closing l = [closing, opening] := by
  have hopening : (marks opening closing l).countP (· = opening) = l.countP (· = opening) :=
    countP_marks (.inl rfl)
  have hclosing : (marks opening closing l).countP (· = closing) = l.countP (· = closing) :=
    countP_marks (.inr rfl)
  rw [← hopening, ← hclosing] at hone
  rw [← hopening] at hle
  have hmem : ∀ a ∈ marks opening closing l, a = opening ∨ a = closing := fun a ↦ mem_of_mem_marks
  clear hopening hclosing
  generalize marks opening closing l = found at hone hle hmem
  have hlength : found.length = found.countP (· = opening) + found.countP (· = closing) := by
    rw [List.length_eq_countP_add_countP (· = opening), Nat.add_left_cancel_iff]
    apply List.countP_congr
    intro a ha
    rcases hmem a ha with rfl | rfl
    · simp [hne]
    · simp [Ne.symm hne]
  match found with
  | [] => exact .inl rfl
  | [a] =>
    rw [List.length_singleton] at hlength
    omega
  | [a, b] =>
    right
    rw [List.forall_mem_cons, List.forall_mem_cons] at hmem
    rcases hmem with ⟨rfl | rfl, rfl | rfl, -⟩
    · simp at hle
    · exact .inl rfl
    · exact .inr rfl
    · simp [hne, Ne.symm hne] at hone
  | a :: b :: c :: rest =>
    simp only [List.length_cons] at hlength
    omega

namespace Block

variable (block : Block opening closing l x y z)
include block

theorem marks_eq : marks opening closing l = [opening, closing] :=
  marks_eq_pair_iff.mpr ⟨x, y, z, block⟩

theorem content_eq : content opening closing l = y := by
  have hx := (marks_eq_nil_iff.mp block.before).1
  have hy := (marks_eq_nil_iff.mp block.inside).2
  rw [content, block.eq, List.dropWhile_append_of_pos (ne_of_not_mem hx),
    List.dropWhile_cons_of_neg (by simp), List.drop_succ_cons, List.drop_zero,
    List.takeWhile_append_of_pos (ne_of_not_mem hy), List.takeWhile_cons_of_neg (by simp),
    List.append_nil]

theorem layout_eq : layout opening closing l = .block y := by
  rw [layout, block.marks_eq, if_neg (by simp), if_pos rfl, block.content_eq]

end Block

theorem layout_eq_absent_iff : layout opening closing l = .absent ↔
    marks opening closing l = [] := by
  unfold layout
  split
  · simp [*]
  · split
    · simp [*]
    · simp [*]

theorem layout_eq_block_iff {content : List α} : layout opening closing l = .block content ↔
    ∃ x z, Block opening closing l x content z := by
  constructor
  · intro h
    have hmarks : marks opening closing l = [opening, closing] := by
      unfold layout at h
      split at h
      · cases h
      · split at h
        · assumption
        · cases h
    obtain ⟨x, y, z, block⟩ := marks_eq_pair_iff.mp hmarks
    rw [block.layout_eq, Layout.block.injEq] at h
    exact ⟨x, z, h ▸ block⟩
  · rintro ⟨x, z, block⟩
    exact block.layout_eq

/-- A layout that is not corrupt has no marks or one of each, the opening mark first. -/
theorem layout_ne_corrupt_iff : layout opening closing l ≠ .corrupt ↔
    marks opening closing l = [] ∨ marks opening closing l = [opening, closing] := by
  unfold layout
  split
  · simp [*]
  · split
    · simp [*]
    · simp [*]

/-- The items outside a list's block. -/
def outside (opening closing : α) (l : List α) : List α :=
  match layout opening closing l with
  | .block _ => l.takeWhile (· ≠ opening) ++ (l.dropWhile (· ≠ closing)).drop 1
  | _ => l

theorem Block.outside_eq (hne : opening ≠ closing) (block : Block opening closing l x y z) :
    outside opening closing l = x ++ z := by
  have hx := marks_eq_nil_iff.mp block.before
  have hy := (marks_eq_nil_iff.mp block.inside).2
  have htake : l.takeWhile (· ≠ opening) = x := by
    rw [block.eq, List.takeWhile_append_of_pos (ne_of_not_mem hx.1),
      List.takeWhile_cons_of_neg (by simp), List.append_nil]
  have hfront : closing ∉ x ++ opening :: y := by
    simp [hx.2, hy, Ne.symm hne]
  have hdrop : l.dropWhile (· ≠ closing) = closing :: z := by
    rw [block.eq, ← List.cons_append, ← List.append_assoc,
      List.dropWhile_append_of_pos (ne_of_not_mem hfront), List.dropWhile_cons_of_neg (by simp)]
  rw [outside, block.layout_eq, htake, hdrop]
  rfl

theorem outside_of_ne (h : ∀ content, layout opening closing l ≠ .block content) :
    outside opening closing l = l := by
  unfold outside
  split
  · next content hblock => exact absurd hblock (h content)
  · rfl

/-- Items without marks change the layout only where they stand in the block. -/
theorem layout_insert {s : List α} (hs : marks opening closing s = [])
    (h : ¬ (marks opening closing x = [opening] ∧ marks opening closing z = [closing])) :
    layout opening closing (x ++ (s ++ z)) = layout opening closing (x ++ z) := by
  have hmarks : marks opening closing (x ++ (s ++ z)) = marks opening closing (x ++ z) := by
    rw [marks_append, marks_append, marks_append, hs, List.nil_append]
  by_cases hpair : marks opening closing (x ++ z) = [opening, closing]
  · -- both marks stand on one side of the items
    have hsides := hpair
    rw [marks_append] at hsides
    rcases List.append_eq_cons_iff.mp hsides with ⟨hx, hz⟩ | ⟨rest, hx, hrest⟩
    · obtain ⟨u, v, w, block⟩ := marks_eq_pair_iff.mp hz
      have hwith : Block opening closing (x ++ (s ++ z)) (x ++ (s ++ u)) v w :=
        ⟨by rw [block.eq]; simp, by rw [marks_append, marks_append, hx, hs, block.before]; rfl,
          block.inside, block.after⟩
      have hwithout : Block opening closing (x ++ z) (x ++ u) v w :=
        ⟨by rw [block.eq]; simp, by rw [marks_append, hx, block.before]; rfl, block.inside,
          block.after⟩
      rw [hwith.layout_eq, hwithout.layout_eq]
    · rcases List.cons_eq_append_iff.mp hrest with ⟨rfl, hz⟩ | ⟨tail, rfl, htail⟩
      · exact absurd ⟨hx, hz⟩ h
      · obtain ⟨rfl, hz⟩ := List.append_eq_nil_iff.mp htail.symm
        obtain ⟨u, v, w, block⟩ := marks_eq_pair_iff.mp hx
        have hwith : Block opening closing (x ++ (s ++ z)) u v (w ++ (s ++ z)) :=
          ⟨by rw [block.eq]; simp, block.before, block.inside,
            by rw [marks_append, marks_append, block.after, hs, hz]; rfl⟩
        have hwithout : Block opening closing (x ++ z) u v (w ++ z) :=
          ⟨by rw [block.eq]; simp, block.before, block.inside,
            by rw [marks_append, block.after, hz]; rfl⟩
        rw [hwith.layout_eq, hwithout.layout_eq]
  · rw [layout, layout, hmarks, if_neg hpair, if_neg hpair]

end Marked

section Blocks

variable {α ι : Type} [DecidableEq α] {opening closing : ι → α} {all : List ι}
  {l p x y z : List α} {i j : ι}

/-- Whether an item that follows others is in the block that the marks make. -/
def within (opening closing : α) (before : List α) (a : α) : Bool :=
  (a = opening ∨ opening ∈ before) ∧ closing ∉ before

/-- Whether the marks of a list make one block. -/
def hasBlock (opening closing : α) (l : List α) : Bool :=
  marks opening closing l = [opening, closing]

/-- The items of a list that are not inside, each seen with the items before it. -/
def outsideFrom (inside : List α → α → Bool) : List α → List α → List α
  | _, [] => []
  | before, a :: rest =>
    if inside before a then outsideFrom inside (before ++ [a]) rest
    else a :: outsideFrom inside (before ++ [a]) rest

/-- The items outside all the blocks that pairs of marks make in a list. -/
def outsideAll (opening closing : ι → α) (all : List ι) (l : List α) : List α :=
  outsideFrom (fun before a ↦ all.any fun i ↦
    hasBlock (opening i) (closing i) l && within (opening i) (closing i) before a) [] l

/-- Pairs of marks that have no mark in common. -/
structure Distinct (opening closing : ι → α) : Prop where
  own : ∀ i, opening i ≠ closing i
  others : ∀ i j, i ≠ j → marks (opening j) (closing j) [opening i, closing i] = []

omit [DecidableEq α] in
theorem outsideFrom_append (inside : List α → α → Bool) :
    outsideFrom inside p (x ++ y) = outsideFrom inside p x ++ outsideFrom inside (p ++ x) y := by
  induction x generalizing p with
  | nil => simp [outsideFrom]
  | cons a x ih =>
    rw [List.cons_append, outsideFrom, outsideFrom, ih, List.append_assoc, List.singleton_append]
    split
    · rfl
    · rfl

omit [DecidableEq α] in
theorem outsideFrom_congr {f g : List α → α → Bool} {q : List α}
    (h : ∀ before a after, l = before ++ a :: after → f (p ++ before) a = g (q ++ before) a) :
    outsideFrom f p l = outsideFrom g q l := by
  induction l generalizing p q with
  | nil => rfl
  | cons a l ih =>
    have hfirst := h [] a l rfl
    have hrest : outsideFrom f (p ++ [a]) l = outsideFrom g (q ++ [a]) l := by
      apply ih
      intro before b after hl
      have hlater := h (a :: before) b after (by rw [hl]; rfl)
      rwa [List.append_cons p, List.append_cons q] at hlater
    rw [List.append_nil, List.append_nil] at hfirst
    rw [outsideFrom, outsideFrom, hfirst, hrest]

omit [DecidableEq α] in
theorem outsideFrom_eq_nil {f : List α → α → Bool}
    (h : ∀ before a after, l = before ++ a :: after → f (p ++ before) a = true) :
    outsideFrom f p l = [] := by
  induction l generalizing p with
  | nil => rfl
  | cons a l ih =>
    have hfirst := h [] a l rfl
    rw [List.append_nil] at hfirst
    rw [outsideFrom, if_pos hfirst]
    apply ih
    intro before b after hl
    have hlater := h (a :: before) b after (by rw [hl]; rfl)
    rwa [List.append_cons p] at hlater

/-- The items of a block are within it. -/
theorem within_of_mem_block (hp : closing i ∉ p) (hy : closing i ∉ y)
    (hne : opening i ≠ closing i) {before after : List α} {a : α}
    (h : opening i :: (y ++ [closing i]) = before ++ a :: after) :
    within (opening i) (closing i) (p ++ before) a = true := by
  rw [within, decide_eq_true_eq]
  cases before with
  | nil =>
    rw [List.nil_append, List.cons.injEq] at h
    exact ⟨.inl h.1.symm, by rwa [List.append_nil]⟩
  | cons first before =>
    rw [List.cons_append, List.cons.injEq] at h
    obtain ⟨rfl, hrest⟩ := h
    have hprefixed : before <+: y := by
      apply @List.prefix_of_prefix_length_le _ _ _ (y ++ [closing i])
      · exact ⟨a :: after, hrest.symm⟩
      · exact List.prefix_append _ _
      · have hlength := congrArg List.length hrest
        simp only [List.length_append, List.length_cons, List.length_nil] at hlength
        omega
    have hbefore : closing i ∉ before := fun hmem ↦ hy (hprefixed.subset hmem)
    simp [hp, hbefore, Ne.symm hne]

theorem within_eq_false (h : opening i ∉ l) {before after : List α} {a : α}
    (hl : l = before ++ a :: after) : within (opening i) (closing i) before a = false := by
  rw [within, decide_eq_false_iff_not]
  rintro ⟨rfl | hmem, -⟩
  · exact h (hl ▸ by simp)
  · exact h (hl ▸ List.mem_append_left _ hmem)

/-- The items of a block are not outside. -/
theorem outsideFrom_block {has : ι → Bool} (hmem : i ∈ all) (hhas : has i = true)
    (hp : closing i ∉ p) (hy : closing i ∉ y) (hne : opening i ≠ closing i) :
    outsideFrom (fun before a ↦ all.any fun j ↦
      has j && within (opening j) (closing j) before a) p (opening i :: (y ++ [closing i])) =
      [] := by
  apply outsideFrom_eq_nil
  intro before a after h
  rw [List.any_eq_true]
  exact ⟨i, hmem, by rw [hhas, within_of_mem_block hp hy hne h]; rfl⟩

private theorem marks_segment (marked : Distinct opening closing) (hj : j ≠ i)
    (hy : marks (opening j) (closing j) y = []) :
    marks (opening j) (closing j) (opening i :: (y ++ [closing i])) = [] := by
  have hpair := marked.others i j (Ne.symm hj)
  rw [← List.singleton_append, marks_append, List.append_eq_nil_iff] at hpair
  rw [← List.singleton_append, marks_append, marks_append, hpair.1, hpair.2, hy]
  rfl

/-- What is outside all blocks stays when a block at the end is added that holds no marks. -/
theorem outsideAll_append_block [DecidableEq ι] (marked : Distinct opening closing) (hi : i ∈ all)
    (hl : marks (opening i) (closing i) l = [])
    (hy : ∀ j, marks (opening j) (closing j) y = []) :
    outsideAll opening closing all (l ++ opening i :: (y ++ [closing i])) =
      outsideAll opening closing all l := by
  have hown := marks_eq_nil_iff.mp hl
  have hlast : Block (opening i) (closing i) (l ++ opening i :: (y ++ [closing i])) l y [] :=
    ⟨rfl, hl, hy i, rfl⟩
  have hothers : ∀ j, j ≠ i →
      marks (opening j) (closing j) (l ++ opening i :: (y ++ [closing i])) =
        marks (opening j) (closing j) l := by
    intro j hne
    rw [marks_append, marks_segment marked hne (hy j), List.append_nil]
  rw [outsideAll, outsideFrom_append, List.nil_append,
    outsideFrom_block hi (by simp [hasBlock, hlast.marks_eq]) hown.2
      (marks_eq_nil_iff.mp (hy i)).2 (marked.own i), List.append_nil, outsideAll]
  apply outsideFrom_congr
  intro before a after hsplit
  congr 1
  funext j
  by_cases hj : j = i
  · subst hj
    rw [List.nil_append, within_eq_false hown.1 hsplit, Bool.and_false, Bool.and_false]
  · rw [hasBlock, hasBlock, hothers j hj]

/-- What is outside all blocks stays when a block is removed that holds no marks of others. -/
theorem outsideAll_remove_block [DecidableEq ι] (marked : Distinct opening closing) (hi : i ∈ all)
    (block : Block (opening i) (closing i) l x y z)
    (hy : ∀ j, j ≠ i → marks (opening j) (closing j) y = []) :
    outsideAll opening closing all (x ++ z) = outsideAll opening closing all l := by
  have hx := marks_eq_nil_iff.mp block.before
  have hin := marks_eq_nil_iff.mp block.inside
  have hz := marks_eq_nil_iff.mp block.after
  have hl : l = x ++ (opening i :: (y ++ [closing i]) ++ z) := by rw [block.eq]; simp
  have hsegment : ∀ j, j ≠ i →
      marks (opening j) (closing j) (opening i :: (y ++ [closing i])) = [] := fun j hne ↦
    marks_segment marked hne (hy j hne)
  have hhas : ∀ j, j ≠ i → hasBlock (opening j) (closing j) l =
      hasBlock (opening j) (closing j) (x ++ z) := by
    intro j hne
    rw [hasBlock, hasBlock, hl, marks_append, marks_append, hsegment j hne, marks_append,
      List.nil_append]
  have hwith : hasBlock (opening i) (closing i) l = true := by
    rw [hasBlock, block.marks_eq, decide_eq_true_eq]
  have hwithout : hasBlock (opening i) (closing i) (x ++ z) = false := by
    rw [hasBlock, marks_append, block.before, block.after]
    rfl
  have hsplit : outsideAll opening closing all l =
      outsideFrom (fun before a ↦ all.any fun j ↦ hasBlock (opening j) (closing j) l &&
        within (opening j) (closing j) before a) [] (x ++ (opening i :: (y ++ [closing i]) ++ z)) := by
    rw [outsideAll]
    exact congrArg _ hl
  rw [hsplit, outsideAll, outsideFrom_append, outsideFrom_append, outsideFrom_append,
    List.nil_append, outsideFrom_block hi hwith hx.2 hin.2 (marked.own i), List.nil_append]
  congr 1
  · apply outsideFrom_congr
    intro before a after hbefore
    congr 1
    funext j
    by_cases hj : j = i
    · subst hj
      rw [List.nil_append, within_eq_false hx.1 hbefore, Bool.and_false, Bool.and_false]
    · rw [hhas j hj]
  · apply outsideFrom_congr
    intro before a after _
    congr 1
    funext j
    by_cases hj : j = i
    · subst hj
      have hclosed : within (opening j) (closing j)
          (x ++ opening j :: (y ++ [closing j]) ++ before) a = false := by
        rw [within, decide_eq_false_iff_not]
        rintro ⟨-, hnone⟩
        exact hnone (by simp)
      rw [hwithout, Bool.false_and, hclosed, Bool.and_false]
    · have hfree := marks_eq_nil_iff.mp (hsegment j hj)
      rw [hhas j hj, within, within]
      simp only [List.mem_append, hfree.1, hfree.2, or_false]

/-- A list without its block has no marks of it. -/
theorem marks_outside (hne : opening i ≠ closing i)
    (h : layout (opening i) (closing i) l ≠ .corrupt) :
    marks (opening i) (closing i) (outside (opening i) (closing i) l) = [] := by
  rcases layout_ne_corrupt_iff.mp h with hnone | hpair
  · have habsent := layout_eq_absent_iff.mpr hnone
    rwa [outside_of_ne (by simp [habsent])]
  · obtain ⟨x, y, z, block⟩ := marks_eq_pair_iff.mp hpair
    rw [block.outside_eq hne, marks_append, block.before, block.after]
    rfl

/-- A block that holds no marks of others is removed without a change to what is outside all
blocks. -/
theorem outsideAll_outside [DecidableEq ι] (marked : Distinct opening closing) (hi : i ∈ all)
    (hnested : ∀ j ≠ i, ∀ content, layout (opening i) (closing i) l = .block content →
      marks (opening j) (closing j) content = []) :
    outsideAll opening closing all (outside (opening i) (closing i) l) =
      outsideAll opening closing all l := by
  cases hlayout : layout (opening i) (closing i) l with
  | absent => rw [outside_of_ne (by simp [hlayout])]
  | corrupt => rw [outside_of_ne (by simp [hlayout])]
  | block content =>
    obtain ⟨x, z, block⟩ := layout_eq_block_iff.mp hlayout
    rw [block.outside_eq (marked.own i),
      outsideAll_remove_block marked hi block fun j hj ↦ hnested j hj content hlayout]

/-- Nor does the removal change the other marks or, where the block is in no other, their
layout. -/
theorem layout_outside (marked : Distinct opening closing) (hj : j ≠ i)
    (hnested : ∀ content, layout (opening i) (closing i) l = .block content →
      marks (opening j) (closing j) content = [])
    (hsurrounded : ∀ content, layout (opening j) (closing j) l = .block content →
      marks (opening i) (closing i) content = []) :
    marks (opening j) (closing j) (outside (opening i) (closing i) l) =
        marks (opening j) (closing j) l ∧
      layout (opening j) (closing j) (outside (opening i) (closing i) l) =
        layout (opening j) (closing j) l := by
  cases hlayout : layout (opening i) (closing i) l with
  | absent => rw [outside_of_ne (by simp [hlayout])]; exact ⟨rfl, rfl⟩
  | corrupt => rw [outside_of_ne (by simp [hlayout])]; exact ⟨rfl, rfl⟩
  | block content =>
    obtain ⟨x, z, block⟩ := layout_eq_block_iff.mp hlayout
    have hsegment := marks_segment marked hj (hnested content hlayout)
    have hl : l = x ++ (opening i :: (content ++ [closing i]) ++ z) := by rw [block.eq]; simp
    rw [block.outside_eq (marked.own i)]
    constructor
    · rw [hl, marks_append, marks_append, marks_append, hsegment, List.nil_append]
    · refine (layout_insert hsegment ?_).symm.trans (by rw [← hl])
      -- a block around this one would hold its marks
      rintro ⟨hx, hz⟩
      obtain ⟨u, v, hu, hbefore, -, hv⟩ := exists_of_marks_eq_cons hx
      obtain ⟨v', w, hw, hv', -, hafter⟩ := exists_of_marks_eq_cons hz
      have houter : Block (opening j) (closing j) l u
          (v ++ (opening i :: (content ++ [closing i]) ++ v')) w := by
        refine ⟨?_, hbefore, ?_, hafter⟩
        · rw [hl, hu, hw]
          simp
        · rw [marks_append, marks_append, hv, hsegment, hv']
          rfl
      have hnone := marks_eq_nil_iff.mp (hsurrounded _ houter.layout_eq)
      exact hnone.1 (by simp)

/-- A block at the end changes nothing of the other marks. -/
theorem layout_append_block (marked : Distinct opening closing) (hj : j ≠ i)
    (hy : marks (opening j) (closing j) y = []) :
    marks (opening j) (closing j) (l ++ opening i :: (y ++ [closing i])) =
        marks (opening j) (closing j) l ∧
      layout (opening j) (closing j) (l ++ opening i :: (y ++ [closing i])) =
        layout (opening j) (closing j) l := by
  have hsegment := marks_segment marked hj hy
  constructor
  · rw [marks_append, hsegment, List.append_nil]
  · have hinsert := layout_insert (x := l) (z := []) hsegment (by simp [marks])
    rwa [List.append_nil, List.append_nil] at hinsert

end Blocks

end NullRouter.Base
