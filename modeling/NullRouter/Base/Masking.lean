import Mathlib.Data.List.Infix
import NullRouter.Base.Scan

/-!
# Masking the occurrences of texts

A text whose characters carry their places, so that a scan of it shows which of them it copies, and
the replacement of one needle after another by a mask. Where no needle can be read across a mask,
replacing is the removal of whole occurrences; where of two occurrences that meet the later needle's
lies in the earlier's, no character of an occurrence is copied.
-/

namespace NullRouter.Base

variable {α : Type}

/-- A character with the place of the text that it is copied from, if it is. -/
abbrev Placed (α : Type) : Type := α × Option Nat

/-- The characters of a text from a place on, each with its place. -/
def placedFrom : Nat → List α → List (Placed α)
  | _, [] => []
  | place, c :: text => (c, some place) :: placedFrom (place + 1) text

/-- The characters of a text, each with its place. -/
def placed (text : List α) : List (Placed α) := placedFrom 0 text

/-- What is written new has no place. -/
def written (text : List α) : List (Placed α) := text.map (·, none)

@[simp] theorem map_fst_written (text : List α) : (written text).map Prod.fst = text := by
  rw [written, List.map_map]
  exact List.map_id _

theorem map_fst_placedFrom (place : Nat) (text : List α) :
    (placedFrom place text).map Prod.fst = text := by
  induction text generalizing place with
  | nil => rfl
  | cons c text ih => rw [placedFrom, List.map_cons, ih]

@[simp] theorem map_fst_placed (text : List α) : (placed text).map Prod.fst = text :=
  map_fst_placedFrom 0 text

/-- A placed character is the character at its place. -/
theorem mem_placed {text : List α} {c : α} {place : Nat} :
    (c, some place) ∈ placed text ↔ text[place]? = some c := by
  have hfrom (start : Nat) : (c, some place) ∈ placedFrom start text ↔
      start ≤ place ∧ text[place - start]? = some c := by
    induction text generalizing start with
    | nil => simp [placedFrom]
    | cons d text ih =>
      rw [placedFrom, List.mem_cons, ih, Prod.mk.injEq, Option.some_inj]
      rcases Nat.lt_trichotomy place start with hlt | rfl | hlt
      · exact iff_of_false (by omega) (by omega)
      · rw [and_iff_left rfl, or_iff_left (by omega), Nat.sub_self, List.getElem?_cons_zero,
          Option.some_inj, eq_comm (a := c), and_iff_right (Nat.le_refl place)]
      · obtain ⟨n, hn⟩ := Nat.exists_eq_succ_of_ne_zero (Nat.sub_ne_zero_of_lt hlt)
        have hnext : place - (start + 1) = n := by omega
        rw [hn, hnext, Nat.succ_eq_add_one, List.getElem?_cons_succ]
        constructor
        · rintro (⟨-, rfl⟩ | ⟨-, h⟩)
          · omega
          · exact ⟨Nat.le_of_lt hlt, h⟩
        · rintro ⟨-, h⟩
          exact .inr ⟨hlt, h⟩
  rw [placed, hfrom, Nat.sub_zero, and_iff_right (Nat.zero_le place)]

/-- A rule on placed characters that does what a rule does on the characters alone. -/
def Traces (traced : Rule (Placed α)) (rule : Rule α) : Prop :=
  ∀ prev text, rule (prev.map Prod.fst) (text.map Prod.fst) =
    (traced prev text).map fun step ↦ (step.1.map Prod.fst, step.2)

/-- Then so is the scan. -/
theorem Traces.scan {traced : Rule (Placed α)} {rule : Rule α} (h : Traces traced rule)
    (prev : Option (Placed α)) (skip : Nat) (text : List (Placed α)) :
    (traced.scan prev skip text).map Prod.fst =
      rule.scan (prev.map Prod.fst) skip (text.map Prod.fst) := by
  induction text generalizing prev skip with
  | nil => simp [Rule.scan]
  | cons c text ih =>
    cases skip with
    | succ skip => exact ih (some c) skip
    | zero =>
      have hstep := h prev (c :: text)
      cases htraced : traced prev (c :: text) with
      | none =>
        rw [htraced] at hstep
        rw [Rule.scan_cons_none htraced, List.map_cons, List.map_cons, Rule.scan_cons_none hstep, ih]
        rfl
      | some step =>
        rw [htraced] at hstep
        rw [Rule.scan_cons_some htraced, List.map_append, ih, List.map_cons,
          Rule.scan_cons_some hstep]
        rfl

/-- A rule that writes only new characters and those that it reads. -/
def Copies (traced : Rule (Placed α)) : Prop :=
  ∀ prev text new read, traced prev text = some (new, read) → ∀ c place,
    (c, some place) ∈ new → (c, some place) ∈ text

/-- Then the scan copies only characters of the text. -/
theorem Copies.mem_of_mem_scan {traced : Rule (Placed α)} (h : Copies traced)
    {prev : Option (Placed α)} {skip place : Nat} {text : List (Placed α)} {c : α}
    (hmem : (c, some place) ∈ traced.scan prev skip text) : (c, some place) ∈ text := by
  induction text generalizing prev skip with
  | nil => rwa [Rule.scan] at hmem
  | cons d text ih =>
    cases skip with
    | succ skip => exact List.mem_cons_of_mem d (ih hmem)
    | zero =>
      cases hstep : traced prev (d :: text) with
      | none =>
        rw [Rule.scan_cons_none hstep] at hmem
        rcases List.mem_cons.mp hmem with heq | hrest
        · exact List.mem_cons.mpr (.inl heq)
        · exact List.mem_cons_of_mem d (ih hrest)
      | some step =>
        rw [Rule.scan_cons_some hstep] at hmem
        rcases List.mem_append.mp hmem with hnew | hrest
        · exact h _ _ _ _ hstep c place hnew
        · exact List.mem_cons_of_mem d (ih hrest)

section Replacing

variable [DecidableEq α]

/-- `str::replace` of a needle that is not empty, at a place. -/
def replacing (needle mask : List α) : Rule α := fun _ text ↦
  if needle.isPrefixOf text then some (mask, needle.length) else none

/-- The same on placed characters. -/
def replacingPlaced (needle mask : List α) : Rule (Placed α) := fun _ text ↦
  if needle.isPrefixOf (text.map Prod.fst) then some (written mask, needle.length) else none

theorem traces_replacing (needle mask : List α) :
    Traces (replacingPlaced needle mask) (replacing needle mask) := by
  intro prev text
  rw [replacing, replacingPlaced]
  split
  · simp
  · rfl

/-- A needle that is nowhere in a text is not replaced. -/
theorem scan_replacing_of_absent {needle mask : List α} {text : List (Placed α)}
    (h : ¬ needle <:+: text.map Prod.fst) (prev : Option (Placed α)) :
    (replacingPlaced needle mask).scan prev 0 text = text := by
  induction text generalizing prev with
  | nil => rw [Rule.scan]
  | cons c text ih =>
    have hnone : replacingPlaced needle mask prev (c :: text) = none := by
      rw [replacingPlaced, if_neg]
      rw [List.isPrefixOf_iff_prefix]
      exact fun hprefixed ↦ h hprefixed.isInfix
    rw [Rule.scan_cons_none hnone, ih]
    exact fun hinfixed ↦ h (hinfixed.trans (List.suffix_cons _ _).isInfix)

end Replacing

/-- What is read in two texts one after the other is read in the second or starts in the first. -/
theorem infix_append_cases {n a b : List α} (h : n <:+: a ++ b) :
    n <:+: b ∨ ∃ tail, tail ≠ [] ∧ tail <:+ a ∧ n <+: tail ++ b := by
  induction a with
  | nil => exact .inl h
  | cons c a ih =>
    rw [List.cons_append, List.infix_cons_iff] at h
    rcases h with hprefixed | hrest
    · exact .inr ⟨c :: a, List.cons_ne_nil c a, List.suffix_refl _, hprefixed⟩
    · rcases ih hrest with hb | ⟨tail, hne, htail, hprefixed⟩
      · exact .inl hb
      · exact .inr ⟨tail, hne, htail.trans (List.suffix_cons c a), hprefixed⟩

/-- What is read at the start of two texts is read in the first or goes on in the second. -/
theorem prefix_append_cases {n a b : List α} (h : n <+: a ++ b) :
    n <+: a ∨ ∃ rest, n = a ++ rest ∧ rest <+: b := by
  rcases List.prefix_or_prefix_of_prefix h (List.prefix_append a b) with hin | ⟨rest, rfl⟩
  · exact .inl hin
  · exact .inr ⟨rest, rfl, (List.prefix_append_right_inj a).mp h⟩

/-! ## Needles apart from the mask -/

/-- A needle that cannot be read across the mask: it neither runs into it nor out of it, nor lies
around or within it. -/
structure Apart (needle mask : List α) : Prop where
  ends : ∀ v, v ≠ [] → v <:+ needle → ¬ v <+: mask
  starts : ∀ v, v ≠ [] → v <+: needle → ¬ v <:+ mask
  around : ¬ mask <:+: needle
  within : ¬ needle <:+: mask

instance [DecidableEq α] (needle mask : List α) : Decidable (Apart needle mask) :=
  decidable_of_iff ((∀ v ∈ needle.tails, v ≠ [] → ¬ v <+: mask) ∧
      (∀ v ∈ needle.inits, v ≠ [] → ¬ v <:+ mask) ∧ ¬ mask <:+: needle ∧ ¬ needle <:+: mask)
    ⟨fun ⟨hends, hstarts, haround, hwithin⟩ ↦
      ⟨fun v hne hv ↦ hends v ((List.mem_tails _ _).mpr hv) hne,
        fun v hne hv ↦ hstarts v ((List.mem_inits _ _).mpr hv) hne, haround, hwithin⟩,
      fun h ↦ ⟨fun v hv hne ↦ h.ends v hne ((List.mem_tails _ _).mp hv),
        fun v hv hne ↦ h.starts v hne ((List.mem_inits _ _).mp hv), h.around, h.within⟩⟩

variable {needle mask text : List α}

theorem Apart.not_prefix_append (h : Apart needle mask) {v : List α} (hne : v ≠ [])
    (hv : v <:+ needle) (rest : List α) : ¬ v <+: mask ++ rest := by
  intro hprefixed
  rcases prefix_append_cases hprefixed with hin | ⟨tail, rfl, -⟩
  · exact h.ends v hne hv hin
  · exact h.around ((List.prefix_append mask tail).isInfix.trans hv.isInfix)

/-- Nor is the needle read where a part of the mask and a text follow. -/
theorem Apart.not_prefix_tail (h : Apart needle mask) {tail : List α} (hne : tail ≠ [])
    (htail : tail <:+ mask) (rest : List α) : ¬ needle <+: tail ++ rest := by
  intro hprefixed
  rcases prefix_append_cases hprefixed with hin | ⟨later, rfl, -⟩
  · exact h.within (hin.isInfix.trans htail.isInfix)
  · exact h.starts tail hne (List.prefix_append tail later) htail

/-- What is read after a mask is read in the text that follows. -/
theorem Apart.infix_of_append (h : Apart needle mask) {rest : List α}
    (hinfixed : needle <:+: mask ++ rest) : needle <:+: rest := by
  rcases infix_append_cases hinfixed with hrest | ⟨tail, hne, htail, hprefixed⟩
  · exact hrest
  · exact absurd hprefixed (h.not_prefix_tail hne htail rest)

/-! ## Texts with masked parts -/

/-- A character of the text with its place, or a masked part. -/
inductive Cell (α : Type) where
  | shown (c : α) (place : Nat)
  | masked

/-- What cells look like. -/
def render (mask : List α) : List (Cell α) → List (Placed α)
  | [] => []
  | .shown c place :: cells => (c, some place) :: render mask cells
  | .masked :: cells => written mask ++ render mask cells

/-- Cells that show a text from a place on, up to masked parts that are not empty. -/
inductive Masks (text : List α) : Nat → List (Cell α) → Prop
  | done : Masks text text.length []
  | shown {place : Nat} {c : α} {cells : List (Cell α)} :
    text[place]? = some c → Masks text (place + 1) cells →
      Masks text place (.shown c place :: cells)
  | masked {place next : Nat} {cells : List (Cell α)} :
    place < next → Masks text next cells → Masks text place (.masked :: cells)

/-- The place is shown. -/
def Shows (cells : List (Cell α)) (place : Nat) : Prop := ∃ c, Cell.shown c place ∈ cells

/-- A needle stands at a place of a text. -/
def OccursAt (needle text : List α) (place : Nat) : Prop := needle <+: text.drop place

/-- No place from one on to another is shown. -/
def Covers (cells : List (Cell α)) (start stop : Nat) : Prop :=
  ∀ place, start ≤ place → place < stop → ¬ Shows cells place

variable {cells : List (Cell α)} {place start stop : Nat} {c : α}

/-- The cells of a text without masked parts. -/
def cellsFrom : Nat → List α → List (Cell α)
  | _, [] => []
  | place, c :: text => .shown c place :: cellsFrom (place + 1) text

theorem render_cellsFrom (place : Nat) (text : List α) :
    render mask (cellsFrom place text) = placedFrom place text := by
  induction text generalizing place with
  | nil => rfl
  | cons c text ih => rw [cellsFrom, render, placedFrom, ih]

theorem render_append (a b : List (Cell α)) :
    render mask (a ++ b) = render mask a ++ render mask b := by
  induction a with
  | nil => rfl
  | cons cell a ih =>
    cases cell with
    | shown c place => rw [List.cons_append, render, render, ih, List.cons_append]
    | masked => rw [List.cons_append, render, render, ih, List.append_assoc]

theorem length_cellsFrom (place : Nat) (text : List α) :
    (cellsFrom place text).length = text.length := by
  induction text generalizing place with
  | nil => rfl
  | cons c text ih => rw [cellsFrom, List.length_cons, ih, List.length_cons]

/-- All places of a text are shown by its own cells. -/
theorem masks_cellsFrom (before rest : List α) :
    Masks (before ++ rest) before.length (cellsFrom before.length rest) := by
  induction rest generalizing before with
  | nil =>
    rw [List.append_nil]
    exact .done
  | cons c rest ih =>
    apply Masks.shown (by simp)
    have hrest := ih (before ++ [c])
    rwa [List.append_assoc, List.singleton_append, List.length_append] at hrest

/-- What is shown is a character of the text, not before the place at which the cells start. -/
theorem Masks.mem (h : Masks text start cells) (hmem : Cell.shown c place ∈ cells) :
    start ≤ place ∧ text[place]? = some c := by
  induction h with
  | done => cases hmem
  | shown hc _ ih =>
    rcases List.mem_cons.mp hmem with heq | hrest
    · rw [Cell.shown.injEq] at heq
      obtain ⟨rfl, rfl⟩ := heq
      exact ⟨Nat.le_refl _, hc⟩
    · exact ⟨Nat.le_of_succ_le (ih hrest).1, (ih hrest).2⟩
  | masked hlt _ ih =>
    rcases List.mem_cons.mp hmem with heq | hrest
    · cases heq
    · exact ⟨Nat.le_trans (Nat.le_of_lt hlt) (ih hrest).1, (ih hrest).2⟩

theorem Shows.le (h : Masks text start cells) (hshows : Shows cells place) : start ≤ place := by
  obtain ⟨c, hc⟩ := hshows
  exact (h.mem hc).1

/-- A needle that is read at the start of the cells, and does not run into a mask, is shown. -/
theorem Masks.of_front {v : List α} (h : Masks text start cells) (hapart : Apart needle mask)
    (hv : v <:+ needle) (hprefixed : v <+: (render mask cells).map Prod.fst) :
    OccursAt v text start ∧ ∃ rest, cells = cellsFrom start v ++ rest ∧
      Masks text (start + v.length) rest := by
  induction v generalizing start cells with
  | nil => exact ⟨List.nil_prefix, cells, rfl, h⟩
  | cons c v ih =>
    cases h with
    | done => exact absurd hprefixed (by simp [render])
    | masked _ _ =>
      rw [render, List.map_append, map_fst_written] at hprefixed
      exact absurd hprefixed (hapart.not_prefix_append (List.cons_ne_nil c v) hv _)
    | shown hc hrest =>
      rw [render, List.map_cons, List.cons_prefix_cons] at hprefixed
      obtain ⟨rfl, hprefixed⟩ := hprefixed
      obtain ⟨hoccurs, rest, hcells, hmasks⟩ :=
        ih hrest ((List.suffix_cons c v).trans hv) hprefixed
      refine ⟨?_, rest, by rw [hcells, cellsFrom]; rfl, ?_⟩
      · rw [OccursAt, List.drop_eq_getElem?_toList_append, hc]
        exact List.cons_prefix_cons.mpr ⟨rfl, hoccurs⟩
      · rwa [List.length_cons, Nat.add_comm v.length, ← Nat.add_assoc]

/-- A needle that is read in the cells stands in the text, where they show it. -/
theorem Masks.of_part (h : Masks text start cells) (hapart : Apart needle mask)
    (hne : needle ≠ []) (hinfixed : needle <:+: (render mask cells).map Prod.fst) :
    ∃ place, OccursAt needle text place ∧ Shows cells place := by
  induction h with
  | done => exact absurd (List.eq_nil_of_infix_nil hinfixed) hne
  | masked _ _ ih =>
    rw [render, List.map_append, map_fst_written] at hinfixed
    obtain ⟨place, hoccurs, c, hc⟩ := ih (hapart.infix_of_append hinfixed)
    exact ⟨place, hoccurs, c, List.mem_cons_of_mem _ hc⟩
  | shown hc hrest ih =>
    have hmasks := Masks.shown hc hrest
    rw [render, List.map_cons, List.infix_cons_iff] at hinfixed
    rcases hinfixed with hprefixed | hinfixed
    · exact ⟨_, (hmasks.of_front hapart (List.suffix_refl _) hprefixed).1, _, List.mem_cons_self⟩
    · obtain ⟨place, hoccurs, d, hd⟩ := ih hinfixed
      exact ⟨place, hoccurs, d, List.mem_cons_of_mem _ hd⟩

/-! ## One needle -/

section OneNeedle

variable {shown : List (Cell α)}

/-- Cells of which whole occurrences of a needle are masked, and all that meet no other. -/
structure Masked (needle text : List α) (start : Nat) (cells shown : List (Cell α)) : Prop where
  masks : Masks text start shown
  shows : ∀ place, Shows shown place → Shows cells place
  occurs : ∀ place, Shows cells place → ¬ Shows shown place → ∃ a, start ≤ a ∧
    OccursAt needle text a ∧ a ≤ place ∧ place < a + needle.length ∧
      Covers shown a (a + needle.length)
  covers : ∀ a, OccursAt needle text a →
    (∀ place, a ≤ place → place < a + needle.length → Shows cells place) →
    (∀ b, OccursAt needle text b → b < a + needle.length → a < b + needle.length → b = a) →
      Covers shown a (a + needle.length)

theorem shows_cons_shown : Shows (.shown c start :: cells) place ↔
    place = start ∨ Shows cells place := by
  constructor
  · rintro ⟨d, hd⟩
    rcases List.mem_cons.mp hd with heq | hrest
    · exact .inl (Cell.shown.inj heq).2
    · exact .inr ⟨d, hrest⟩
  · rintro (rfl | ⟨d, hd⟩)
    · exact ⟨c, List.mem_cons_self⟩
    · exact ⟨d, List.mem_cons_of_mem _ hd⟩

theorem shows_cons_masked : Shows (.masked :: cells) place ↔ Shows cells place := by
  simp [Shows]

theorem covers_cons_masked : Covers (.masked :: cells) start stop ↔ Covers cells start stop := by
  simp only [Covers, shows_cons_masked]

theorem shows_cellsFrom_append (rest : List (Cell α)) (v : List α) :
    Shows (cellsFrom start v ++ rest) place ↔
      (start ≤ place ∧ place < start + v.length) ∨ Shows rest place := by
  induction v generalizing start with
  | nil =>
    rw [cellsFrom, List.nil_append, List.length_nil, Nat.add_zero, or_iff_right]
    omega
  | cons c v ih =>
    rw [cellsFrom, List.cons_append, shows_cons_shown, ih, List.length_cons, ← or_assoc]
    apply or_congr_left
    omega

/-- A mask over a mask. -/
theorem Masked.cons_masked {next : Nat} (hlt : start < next)
    (h : Masked needle text next cells shown) :
    Masked needle text start (.masked :: cells) (.masked :: shown) where
  masks := .masked hlt h.masks
  shows := by simpa only [shows_cons_masked] using h.shows
  occurs := by
    intro place hplace hnone
    rw [shows_cons_masked] at hplace hnone
    obtain ⟨a, hle, hrest⟩ := h.occurs place hplace hnone
    refine ⟨a, Nat.le_trans (Nat.le_of_lt hlt) hle, ?_⟩
    rwa [covers_cons_masked]
  covers := by simpa only [shows_cons_masked, covers_cons_masked] using h.covers

theorem covers_cons_shown (hlt : start < stop) (h : Covers cells stop place) :
    Covers (.shown c start :: cells) stop place := by
  intro other hle hother hshows
  rcases shows_cons_shown.mp hshows with rfl | hrest
  · omega
  · exact h other hle hother hrest

/-- Where all of an occurrence is shown, it is read. -/
theorem Masks.prefix_of_shows {v : List α} (h : Masks text start cells)
    (hoccurs : OccursAt v text start)
    (hshows : ∀ place, start ≤ place → place < start + v.length → Shows cells place) :
    v <+: (render mask cells).map Prod.fst := by
  induction v generalizing start cells with
  | nil => exact List.nil_prefix
  | cons c v ih =>
    cases h with
    | done =>
      rw [OccursAt, List.drop_length] at hoccurs
      exact absurd hoccurs (by simp)
    | masked hlt hrest =>
      have hfirst := hshows start (Nat.le_refl _) (by simp)
      have hle := (shows_cons_masked.mp hfirst).le hrest
      omega
    | @shown _ d cells hd hrest =>
      rw [OccursAt, List.drop_eq_getElem?_toList_append, hd] at hoccurs
      obtain ⟨rfl, htail⟩ := List.cons_prefix_cons.mp hoccurs
      rw [render, List.map_cons, List.cons_prefix_cons]
      refine ⟨rfl, ih hrest htail fun place hle hlt ↦ ?_⟩
      have hplace := hshows place (by omega) (by rw [List.length_cons]; omega)
      exact (shows_cons_shown.mp hplace).resolve_left (by omega)

/-- A character that stays, where the needle does not stand. -/
theorem Masked.cons_shown (hc : text[start]? = some c)
    (h : Masked needle text (start + 1) cells shown) (hmasks : Masks text (start + 1) cells)
    (hne : needle ≠ [])
    (hnot : ¬ needle <+: (render mask (.shown c start :: cells)).map Prod.fst) :
    Masked needle text start (.shown c start :: cells) (.shown c start :: shown) where
  masks := .shown hc h.masks
  shows := by
    intro place hplace
    rw [shows_cons_shown] at hplace ⊢
    exact hplace.imp_right (h.shows place)
  occurs := by
    intro place hplace hnone
    rw [shows_cons_shown] at hplace hnone
    rw [not_or] at hnone
    obtain ⟨a, hle, hoccurs, hinside, hlt, hcovers⟩ :=
      h.occurs place (hplace.resolve_left hnone.1) hnone.2
    exact ⟨a, Nat.le_of_succ_le hle, hoccurs, hinside, hlt, covers_cons_shown hle hcovers⟩
  covers := by
    intro a hoccurs hshows hself
    have hpos := List.length_pos_of_ne_nil hne
    have hstart : start ≤ a := (hshows a (Nat.le_refl _) (by omega)).le (.shown hc hmasks)
    rcases Nat.lt_or_eq_of_le hstart with hlt | rfl
    · apply covers_cons_shown hlt
      apply h.covers a hoccurs _ hself
      intro place hle hplace
      exact (shows_cons_shown.mp (hshows place hle hplace)).resolve_left (by omega)
    · exact absurd ((Masks.shown hc hmasks).prefix_of_shows hoccurs hshows) hnot

/-- The needle itself, which is masked. -/
theorem Masked.append (hoccurs : OccursAt needle text start) (hne : needle ≠ [])
    (hmasks : Masks text (start + needle.length) cells)
    (h : Masked needle text (start + needle.length) cells shown) :
    Masked needle text start (cellsFrom start needle ++ cells) (.masked :: shown) := by
  have hpos := List.length_pos_of_ne_nil hne
  have hcovers : Covers (.masked :: shown) start (start + needle.length) := by
    intro place _ hlt hshows
    have hle := (shows_cons_masked.mp hshows).le h.masks
    omega
  constructor
  · exact .masked (by omega) h.masks
  · intro place hplace
    rw [shows_cons_masked] at hplace
    exact (shows_cellsFrom_append _ _).mpr (.inr (h.shows place hplace))
  · intro place hplace hnone
    rw [shows_cons_masked] at hnone
    rcases (shows_cellsFrom_append _ _).mp hplace with ⟨hle, hlt⟩ | hrest
    · exact ⟨start, Nat.le_refl _, hoccurs, hle, hlt, hcovers⟩
    · obtain ⟨a, hle, hfound⟩ := h.occurs place hrest hnone
      refine ⟨a, Nat.le_trans (Nat.le_add_right _ _) hle, ?_⟩
      rwa [covers_cons_masked]
  · intro a ha hshows hself
    have hstart : start ≤ a := by
      rcases (shows_cellsFrom_append _ _).mp (hshows a (Nat.le_refl _) (by omega)) with
        ⟨hle, -⟩ | hrest
      · exact hle
      · exact Nat.le_of_add_right_le (hrest.le hmasks)
    by_cases hmeets : a < start + needle.length
    · rw [← hself start hoccurs (by omega) hmeets]
      exact hcovers
    · rw [covers_cons_masked]
      apply h.covers a ha _ hself
      intro place hle hlt
      exact ((shows_cellsFrom_append _ _).mp (hshows place hle hlt)).resolve_left (by omega)

/-- No needle that is apart from the mask is read in a mask. -/
theorem scan_written [DecidableEq α] (hapart : Apart needle mask) {m : List α} (hm : m <:+ mask)
    (prev : Option (Placed α)) (rest : List (Placed α)) :
    ∃ next, (replacingPlaced needle mask).scan prev 0 (written m ++ rest) =
      written m ++ (replacingPlaced needle mask).scan next 0 rest := by
  induction m generalizing prev with
  | nil => exact ⟨prev, rfl⟩
  | cons c m ih =>
    obtain ⟨next, hnext⟩ := ih ((List.suffix_cons c m).trans hm) (some (c, none))
    refine ⟨next, ?_⟩
    have hnone : replacingPlaced needle mask prev ((c, none) :: (written m ++ rest)) = none := by
      rw [replacingPlaced, if_neg]
      rw [List.isPrefixOf_iff_prefix, List.map_cons, List.map_append, map_fst_written]
      exact hapart.not_prefix_tail (List.cons_ne_nil c m) hm _
    show (replacingPlaced needle mask).scan prev 0 ((c, none) :: (written m ++ rest)) = _
    rw [Rule.scan_cons_none hnone, hnext]
    rfl

/-- Replacing a needle that is apart from the mask masks its occurrences. -/
theorem exists_masked [DecidableEq α] (h : Masks text start cells) (hapart : Apart needle mask)
    (hne : needle ≠ []) (prev : Option (Placed α)) :
    ∃ shown, (replacingPlaced needle mask).scan prev 0 (render mask cells) = render mask shown ∧
      Masked needle text start cells shown := by
  induction hn : cells.length using Nat.strongRecOn generalizing cells start prev with
  | ind n ih =>
    subst hn
    cases h with
    | done =>
      refine ⟨[], by rw [render, Rule.scan], .done, fun _ ↦ id, ?_, ?_⟩
      · rintro place ⟨_, hc⟩
        cases hc
      · intro a _ hshows _
        obtain ⟨_, hc⟩ := hshows a (Nat.le_refl _) (by
          have hpos := List.length_pos_of_ne_nil hne
          omega)
        cases hc
    | @masked _ next cells hlt hrest =>
      obtain ⟨next, hnext⟩ := scan_written hapart (List.suffix_refl mask) prev (render mask cells)
      obtain ⟨shown, hscan, hmasked⟩ := ih cells.length (Nat.lt_succ_self _) hrest next rfl
      exact ⟨.masked :: shown, by rw [render, hnext, hscan, render], hmasked.cons_masked hlt⟩
    | @shown _ c cells hc hrest =>
      by_cases hread : needle <+: (render mask (.shown c start :: cells)).map Prod.fst
      · obtain ⟨hoccurs, rest, hcells, hmasks⟩ :=
          (Masks.shown hc hrest).of_front hapart (List.suffix_refl _) hread
        obtain ⟨d, v, rfl⟩ := List.exists_cons_of_ne_nil hne
        have hlength : rest.length < (Cell.shown c start :: cells).length := by
          rw [hcells, List.length_append, length_cellsFrom, List.length_cons]
          omega
        obtain ⟨shown, hscan, hmasked⟩ :=
          ih rest.length hlength hmasks (Rule.before (some (d, some start))
            (placedFrom (start + 1) v)) rfl
        have hsome : replacingPlaced (d :: v) mask prev (render mask (cellsFrom start (d :: v) ++ rest)) =
            some (written mask, (d :: v).length) := by
          rw [replacingPlaced, ← hcells, if_pos (List.isPrefixOf_iff_prefix.mpr hread)]
        have hrender : render mask (cellsFrom start (d :: v) ++ rest) =
            (d, some start) :: (placedFrom (start + 1) v ++ render mask rest) := by
          rw [render_append, render_cellsFrom]
          rfl
        have hskip : (d :: v).length - 1 = (placedFrom (start + 1) v).length := by
          rw [← List.length_map Prod.fst, map_fst_placedFrom]
          rfl
        refine ⟨.masked :: shown, ?_, hcells ▸ hmasked.append hoccurs hne hmasks⟩
        rw [hcells, hrender]
        rw [hrender] at hsome
        rw [Rule.scan_cons_some hsome, hskip, Rule.scan_length_append, hscan, render]
      · obtain ⟨shown, hscan, hmasked⟩ :=
          ih cells.length (Nat.lt_succ_self _) hrest (some (c, some start)) rfl
        have hnone : replacingPlaced needle mask prev (render mask (.shown c start :: cells)) =
            none := by
          rw [replacingPlaced, if_neg (fun h ↦ hread (List.isPrefixOf_iff_prefix.mp h))]
        rw [render] at hnone
        refine ⟨.shown c start :: shown, ?_, hmasked.cons_shown hc hrest hne hread⟩
        rw [render, Rule.scan_cons_none hnone, hscan, render]

end OneNeedle

/-! ## Several needles -/

/-- Wherever the two meet in a text, the second lies in the first. -/
def Nested (text outer inner : List α) : Prop :=
  ∀ a b, OccursAt outer text a → OccursAt inner text b → a < b + inner.length →
    b < a + outer.length → a ≤ b ∧ b + inner.length ≤ a + outer.length

/-- Cells in which all occurrences of the needles are masked, and nothing else. -/
structure Hides (text : List α) (needles : List (List α)) (cells : List (Cell α)) : Prop where
  masks : Masks text 0 cells
  hidden : ∀ place < text.length, ¬ Shows cells place → ∃ needle ∈ needles, ∃ a,
    OccursAt needle text a ∧ a ≤ place ∧ place < a + needle.length ∧
      Covers cells a (a + needle.length)
  covers : ∀ needle ∈ needles, ∀ a, OccursAt needle text a → Covers cells a (a + needle.length)

/-- The replacement of several needles in turn. -/
def maskAll [DecidableEq α] (mask : List α) (needles : List (List α)) (text : List (Placed α)) :
    List (Placed α) :=
  needles.foldl (fun out needle ↦ (replacingPlaced needle mask).scan none 0 out) text

/-- An occurrence of a needle that is not empty ends in the text. -/
theorem OccursAt.le_length (h : OccursAt needle text place) (hne : needle ≠ []) :
    place + needle.length ≤ text.length := by
  have hle := h.length_le
  have hpos := List.length_pos_of_ne_nil hne
  rw [List.length_drop] at hle
  omega

/-- One more needle, whose occurrences lie in those of the needles before where they meet. -/
theorem Hides.step {needles : List (List α)} {shown : List (Cell α)} (h : Hides text needles cells)
    (hstep : Masked needle text 0 cells shown) (hne : needle ≠ []) (hself : Nested text needle needle)
    (hnested : ∀ other ∈ needles, Nested text other needle) :
    Hides text (needles ++ [needle]) shown where
  masks := hstep.masks
  hidden := by
    intro place hlt hnone
    by_cases hbefore : Shows cells place
    · obtain ⟨a, -, hoccurs, hle, hlt, hcovers⟩ := hstep.occurs place hbefore hnone
      exact ⟨needle, by simp, a, hoccurs, hle, hlt, hcovers⟩
    · obtain ⟨other, hother, a, hoccurs, hle, hlt, hcovers⟩ := h.hidden place hlt hbefore
      exact ⟨other, List.mem_append_left _ hother, a, hoccurs, hle, hlt,
        fun p hp hp' hshows ↦ hcovers p hp hp' (hstep.shows p hshows)⟩
  covers := by
    intro other hother a hoccurs
    rcases List.mem_append.mp hother with hother | hother
    · exact fun p hp hp' hshows ↦
        h.covers other hother a hoccurs p hp hp' (hstep.shows p hshows)
    · obtain rfl := List.mem_singleton.mp hother
      by_cases hall : ∀ place, a ≤ place → place < a + other.length → Shows cells place
      · apply hstep.covers a hoccurs hall
        intro b hb hlt hlt'
        have hinside := hself a b hoccurs hb hlt' hlt
        omega
      · -- a place that was masked before, with all of a needle's occurrence around this one
        push Not at hall
        obtain ⟨place, hle, hlt, hnone⟩ := hall
        have hlength := hoccurs.le_length hne
        obtain ⟨outer, houter, b, hb, hle', hlt', hcovers⟩ :=
          h.hidden place (by omega) hnone
        have hinside := hnested outer houter b a hb hoccurs (by omega) (by omega)
        intro p hp hp' hshows
        exact hcovers p (by omega) (by omega) (hstep.shows p hshows)

/-- Replacing needles that are apart from the mask, each within those before it where they meet,
masks all their occurrences. -/
theorem exists_hides [DecidableEq α] {needles : List (List α)}
    (hapart : ∀ needle ∈ needles, Apart needle mask) (hne : ∀ needle ∈ needles, needle ≠ [])
    (hself : ∀ needle ∈ needles, Nested text needle needle)
    (hnested : needles.Pairwise (Nested text)) :
    ∃ cells, maskAll mask needles (placed text) = render mask cells ∧ Hides text needles cells := by
  have hfrom : ∀ (before later : List (List α)) (cells : List (Cell α)), Hides text before cells →
      needles = before ++ later → ∃ shown, maskAll mask later (render mask cells) =
        render mask shown ∧ Hides text needles shown := by
    intro before later
    induction later generalizing before with
    | nil =>
      intro cells h heq
      rw [List.append_nil] at heq
      exact ⟨cells, rfl, heq ▸ h⟩
    | cons needle later ih =>
      intro cells h heq
      have hmem : needle ∈ needles := by simp [heq]
      obtain ⟨shown, hscan, hmasked⟩ :=
        exists_masked h.masks (hapart needle hmem) (hne needle hmem) none
      have hothers : ∀ other ∈ before, Nested text other needle := by
        rw [heq, List.pairwise_append] at hnested
        exact fun other hother ↦ hnested.2.2 other hother needle List.mem_cons_self
      have hnext := h.step hmasked (hne needle hmem) (hself needle hmem) hothers
      obtain ⟨final, hfinal, hhides⟩ := ih (before ++ [needle]) shown hnext (by simp [heq])
      refine ⟨final, ?_, hhides⟩
      rw [maskAll, List.foldl_cons, hscan]
      exact hfinal
  have hall : Masks text 0 (cellsFrom 0 text) := masks_cellsFrom [] text
  have hstart : Hides text [] (cellsFrom 0 text) := by
    refine ⟨hall, fun place hlt hnone ↦ absurd ?_ hnone, by nofun⟩
    have hshows : Shows (cellsFrom 0 text ++ []) place :=
      (shows_cellsFrom_append [] text).mpr (.inl ⟨Nat.zero_le _, by rwa [Nat.zero_add]⟩)
    rwa [List.append_nil] at hshows
  obtain ⟨cells, hcells, hhides⟩ := hfrom [] needles _ hstart rfl
  rw [render_cellsFrom] at hcells
  exact ⟨cells, hcells, hhides⟩

/-- No needle is read where all its occurrences are masked. -/
theorem Hides.not_infix {needles : List (List α)} (h : Hides text needles cells)
    (hmem : needle ∈ needles) (hapart : Apart needle mask) (hne : needle ≠ []) :
    ¬ needle <:+: (render mask cells).map Prod.fst := by
  intro hinfixed
  obtain ⟨place, hoccurs, hshows⟩ := h.masks.of_part hapart hne hinfixed
  have hpos := List.length_pos_of_ne_nil hne
  exact h.covers needle hmem place hoccurs place (Nat.le_refl _) (by omega) hshows

/-- What is copied is shown. -/
theorem shows_of_mem_render (h : (c, some place) ∈ render mask cells) : Shows cells place := by
  induction cells with
  | nil => cases h
  | cons cell cells ih =>
    cases cell with
    | shown d start =>
      rw [render, List.mem_cons] at h
      rcases h with heq | hrest
      · rw [Prod.mk.injEq, Option.some_inj] at heq
        exact shows_cons_shown.mpr (.inl heq.2)
      · exact shows_cons_shown.mpr (.inr (ih hrest))
    | masked =>
      rw [render, List.mem_append] at h
      rcases h with hmask | hrest
      · obtain ⟨_, _, heq⟩ := List.mem_map.mp hmask
        cases heq
      · exact shows_cons_masked.mpr (ih hrest)

/-- The characters that are copied are in no occurrence of a needle. -/
theorem Hides.not_copied {needles : List (List α)} (h : Hides text needles cells)
    (hmem : needle ∈ needles) {a : Nat} (hoccurs : OccursAt needle text a) (hle : a ≤ place)
    (hlt : place < a + needle.length) : (c, some place) ∉ render mask cells :=
  fun hcopied ↦ h.covers needle hmem a hoccurs place hle hlt (shows_of_mem_render hcopied)

theorem copies_replacing [DecidableEq α] (needle mask : List α) :
    Copies (replacingPlaced needle mask) := by
  intro prev text new read hstep c place hmem
  rw [replacingPlaced] at hstep
  split at hstep
  · rw [Option.some_inj, Prod.mk.injEq] at hstep
    obtain ⟨_, _, heq⟩ := List.mem_map.mp (hstep.1 ▸ hmem)
    cases heq
  · cases hstep

/-- Replacing copies only characters of the text. -/
theorem mem_of_mem_maskAll [DecidableEq α] {needles : List (List α)} {text : List (Placed α)}
    (h : (c, some place) ∈ maskAll mask needles text) : (c, some place) ∈ text := by
  induction needles generalizing text with
  | nil => exact h
  | cons needle needles ih => exact (copies_replacing needle mask).mem_of_mem_scan (ih h)

end NullRouter.Base
