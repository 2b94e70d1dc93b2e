import Mathlib.Data.List.TakeWhile
import NullRouter.Base.Scan

/-!
# Markers that a scan removes

Rules that find a marker by what it begins with and what it ends with. A text that arrives in parts
is rewritten part by part as it is whole, unless a part ends inside a marker: where a marker is read
from its front, no marker may begin in one part and end in the next, and where brackets are read, no
bracket that is open at the end of a part may be read otherwise once it is closed.
-/

namespace NullRouter.Base

universe u

variable {α : Type u}

/-! ## Searching -/

private theorem prefix_append_iff {needle s : List α} (h : needle.length ≤ s.length) (b : List α) :
    needle <+: s ++ b ↔ needle <+: s := by
  constructor
  · intro hprefix
    exact List.prefix_of_prefix_length_le hprefix (List.prefix_append s b) h
  · intro hprefix
    exact hprefix.trans (List.prefix_append s b)

/-- A front that lacks a character of what it is a front of with more is a front of that. -/
theorem prefix_of_prefix_append {front s b : List α} {c : α} (h : front <+: s ++ b) (hc : c ∈ s)
    (hnot : c ∉ front) : front <+: s := by
  rcases Nat.le_total front.length s.length with hle | hle
  · exact (prefix_append_iff hle b).mp h
  · have hshorter := List.prefix_of_prefix_length_le (List.prefix_append s b) h hle
    exact absurd (hshorter.subset hc) hnot

section Search

variable [DecidableEq α]

/-- `str::find`: where a needle first stands in a text. -/
def findText (needle : List α) : List α → Option Nat
  | [] => if needle.isEmpty then some 0 else none
  | c :: text =>
    if needle.isPrefixOf (c :: text) then some 0 else (findText needle text).map (· + 1)

/-- The length of a text up to the end of the first needle in it. -/
def endOf (needle text : List α) : Option Nat := (findText needle text).map (· + needle.length)

variable {needle s b : List α} {n : Nat}

/-- What is found fits. -/
theorem findText_fits (hfound : findText needle s = some n) : n + needle.length ≤ s.length := by
  induction s generalizing n with
  | nil =>
    cases needle with
    | nil =>
      obtain rfl : 0 = n := by simpa [findText] using hfound
      exact Nat.le_refl 0
    | cons c needle => cases hfound
  | cons c s ih =>
    rw [findText] at hfound
    split at hfound
    · next hprefix =>
      obtain rfl := Option.some.inj hfound
      rw [Nat.zero_add]
      exact (List.isPrefixOf_iff_prefix.mp hprefix).length_le
    · obtain ⟨m, hm, rfl⟩ := Option.map_eq_some_iff.mp hfound
      have hrest := ih hm
      rw [List.length_cons]
      omega

/-- What is found in a front is found in the whole. -/
theorem findText_append (hfound : findText needle s = some n) :
    findText needle (s ++ b) = some n := by
  induction s generalizing n with
  | nil =>
    cases needle with
    | nil =>
      obtain rfl : 0 = n := by simpa [findText] using hfound
      cases b <;> rfl
    | cons c needle => cases hfound
  | cons c s ih =>
    rw [findText] at hfound
    rw [List.cons_append, findText]
    split at hfound
    · next hprefix =>
      have hlonger : needle.isPrefixOf (c :: (s ++ b)) = true :=
        List.isPrefixOf_iff_prefix.mpr
          ((List.isPrefixOf_iff_prefix.mp hprefix).trans (List.prefix_append (c :: s) b))
      rw [if_pos hlonger]
      exact hfound
    · next hprefix =>
      obtain ⟨m, hm, rfl⟩ := Option.map_eq_some_iff.mp hfound
      split
      · next hlonger =>
        -- The needle would begin earlier, and it is found in the rest of the front.
        have hlength : needle.length ≤ (c :: s).length := by
          have hfits := findText_fits hm
          rw [List.length_cons]
          omega
        have hshorter := (prefix_append_iff hlength b).mp (List.isPrefixOf_iff_prefix.mp hlonger)
        exact absurd (List.isPrefixOf_iff_prefix.mpr hshorter) hprefix
      · rw [ih hm]
        rfl

/-- What is found in the whole, and ends in a front, is found in the front. -/
theorem findText_of_append (hfound : findText needle (s ++ b) = some n)
    (hfits : n + needle.length ≤ s.length) : findText needle s = some n := by
  induction s generalizing n with
  | nil =>
    have hzero : n = 0 ∧ needle = [] := by
      rw [List.length_nil] at hfits
      exact ⟨by omega, List.eq_nil_of_length_eq_zero (by omega)⟩
    obtain ⟨rfl, rfl⟩ := hzero
    rfl
  | cons c s ih =>
    rw [List.cons_append, findText] at hfound
    rw [findText]
    split at hfound
    · next hprefix =>
      obtain rfl := Option.some.inj hfound
      rw [Nat.zero_add] at hfits
      have hshorter := (prefix_append_iff hfits b).mp (List.isPrefixOf_iff_prefix.mp hprefix)
      rw [if_pos (List.isPrefixOf_iff_prefix.mpr hshorter)]
    · next hprefix =>
      obtain ⟨m, hm, rfl⟩ := Option.map_eq_some_iff.mp hfound
      have hnot : ¬ needle.isPrefixOf (c :: s) = true := fun hshorter ↦ hprefix
        (List.isPrefixOf_iff_prefix.mpr
          ((List.isPrefixOf_iff_prefix.mp hshorter).trans (List.prefix_append (c :: s) b)))
      rw [List.length_cons] at hfits
      rw [if_neg hnot, ih hm (by omega)]
      rfl

/-- What is found stands there. -/
theorem prefix_of_findText (hfound : findText needle s = some n) : needle <+: s.drop n := by
  induction s generalizing n with
  | nil =>
    have hfits := findText_fits hfound
    rw [List.length_nil] at hfits
    obtain rfl : needle = [] := List.eq_nil_of_length_eq_zero (by omega)
    exact List.nil_prefix
  | cons c s ih =>
    rw [findText] at hfound
    split at hfound
    · next hprefix =>
      obtain rfl := Option.some.inj hfound
      exact List.isPrefixOf_iff_prefix.mp hprefix
    · obtain ⟨m, hm, rfl⟩ := Option.map_eq_some_iff.mp hfound
      exact ih hm

/-- The characters of a needle that is found are in the text. -/
theorem mem_of_endOf {c : α} (hc : c ∈ needle) (h : endOf needle s = some n) : c ∈ s := by
  obtain ⟨m, hm, -⟩ := Option.map_eq_some_iff.mp h
  exact List.mem_of_mem_drop ((prefix_of_findText hm).subset hc)

theorem endOf_of_append (h : endOf needle (s ++ b) = some n) (hfits : n ≤ s.length) :
    endOf needle s = some n := by
  obtain ⟨m, hm, rfl⟩ := Option.map_eq_some_iff.mp h
  rw [endOf, findText_of_append hm hfits]
  rfl

/-- What is not in the whole is not in a front. -/
theorem findText_none_of_append (h : findText needle (s ++ b) = none) : findText needle s = none := by
  cases hfound : findText needle s with
  | none => rfl
  | some n => exact absurd ((findText_append hfound).symm.trans h) nofun

theorem endOf_none_of_append (h : endOf needle (s ++ b) = none) : endOf needle s = none := by
  rw [endOf, Option.map_eq_none_iff] at h ⊢
  exact findText_none_of_append h

/-- What is found in a text with a front that lacks some character of it ends after the front. -/
theorem length_lt_of_endOf {front rest : List α} {c : α} (hc : c ∈ needle) (hnot : c ∉ front)
    (h : endOf needle (front ++ rest) = some n) : front.length < n := by
  by_contra hle
  exact hnot (mem_of_endOf hc (endOf_of_append h (Nat.le_of_not_lt hle)))

end Search

namespace Rule

/-! ## Markers that are read from their front -/

/-- A marker begins in the first part and ends beyond it. -/
def Reaches (rule : Rule α) (sent new : List α) : Prop :=
  ∃ s, s <:+ sent ∧ s ≠ [] ∧ ∃ prev written read, rule prev (s ++ new) = some (written, read) ∧
    s.length < read

/-- A marker that ends in the front of a text is read there whatever follows. -/
def Local (rule : Rule α) : Prop :=
  ∀ prev s b, s ≠ [] → (∀ written read, rule prev (s ++ b) = some (written, read) →
    read ≤ s.length) → rule prev (s ++ b) = rule prev s

/-- Where no marker reaches into the second part, the scan is that of the parts. -/
theorem scan_append_of_not_reaches {rule : Rule α} (hlocal : rule.Local) {a b : List α}
    (h : ¬ rule.Reaches a b) (prev : Option α) :
    rule.scan prev 0 (a ++ b) = rule.scan prev 0 a ++ rule.scan (before prev a) 0 b := by
  refine scan_append (fun s hs hne prev ↦ .inl ?_) (Nat.zero_le _)
  have hends : ∀ written read, rule prev (s ++ b) = some (written, read) → read ≤ s.length := by
    intro written read hread
    by_contra hbeyond
    exact h ⟨s, hs, hne, prev, written, read, hread, Nat.lt_of_not_le hbeyond⟩
  have hsame := hlocal prev s b hne hends
  exact ⟨hsame, fun written read hread ↦ hends written read (hsame.trans hread)⟩

/-- A scan of a rule that does not look back. -/
theorem scan_congr_of_blind {rule : Rule α} (h : ∀ p q text, rule p text = rule q text)
    (p q : Option α) (skip : Nat) (text : List α) : rule.scan p skip text = rule.scan q skip text := by
  induction text generalizing p q skip with
  | nil => rw [scan, scan]
  | cons c text ih =>
    cases skip with
    | succ skip => rfl
    | zero =>
      rw [scan, scan, h p q]

section Decidable

variable [DecidableEq α]

/-- All between an opener and the closer after it, or the end of the text, is removed. -/
def between (opener closer : List α) : Rule α := fun _ text ↦
  if opener.isPrefixOf text then some ([], (endOf closer text).getD text.length) else none

/-- Where an opener lacks a character of the closer, what is between the two is read locally. -/
theorem between_local {opener closer : List α} {c : α} (hc : c ∈ closer) (hnot : c ∉ opener) :
    (between opener closer).Local := by
  intro prev s b hne hends
  simp only [between, List.isPrefixOf_iff_prefix] at hends ⊢
  by_cases hopens : opener <+: s ++ b
  · rw [if_pos hopens] at hends ⊢
    have hread := hends _ _ rfl
    cases hend : endOf closer (s ++ b) with
    | none =>
      rw [hend, Option.getD_none, List.length_append] at hread
      obtain rfl : b = [] := List.eq_nil_of_length_eq_zero (by omega)
      rw [List.append_nil] at hopens hend ⊢
      rw [if_pos hopens, hend]
    | some n =>
      rw [hend, Option.getD_some] at hread
      have hfront := endOf_of_append hend hread
      rw [if_pos (prefix_of_prefix_append hopens (mem_of_endOf hc hfront) hnot), hfront]
      rfl
  · have hfront : ¬ opener <+: s := fun hfront ↦ hopens (hfront.trans (List.prefix_append s b))
    rw [if_neg hopens, if_neg hfront]

/-! ## Brackets -/

/-- A bracket up to the first closer is removed, or kept as a whole. -/
def bracket (opener closer : α) (drops : List α → Bool) : Rule α := fun _ text ↦
  if text.head? = some opener ∧ closer ∈ text then
    let tag := text.takeWhile (· ≠ closer) ++ [closer]
    some (if drops tag then [] else tag, tag.length)
  else none

/-- The bracket that is open at the end of a text. -/
def pending (opener closer : α) (text : List α) : List α :=
  ((text.reverse.takeWhile (· ≠ closer)).reverse).dropWhile (· ≠ opener)

/-- The second part closes the bracket that is open at the end of the first, and the bracket is one
that is removed, or what closes it is read for one by itself. -/
def Breaks (opener closer : α) (drops : List α → Bool) (sent new : List α) : Prop :=
  pending opener closer sent ≠ [] ∧ closer ∈ new ∧
    (drops (pending opener closer sent ++ (new.takeWhile (· ≠ closer) ++ [closer])) = true ∨
      opener ∈ new.takeWhile (· ≠ closer) ∧
        drops ((new.takeWhile (· ≠ closer)).dropWhile (· ≠ opener) ++ [closer]) = true)

variable {opener closer : α} {drops : List α → Bool}

private theorem bracket_inert {c : α} (h : c ≠ opener) : (bracket opener closer drops).Inert c := by
  intro prev rest
  simp [bracket, h]

private theorem scan_bracket_unopened {p : List α} (h : opener ∉ p) (b : List α) :
    (bracket opener closer drops).scan none 0 (p ++ b) =
      p ++ (bracket opener closer drops).scan none 0 b := by
  rw [scan_append_of_inert (fun c hc ↦ bracket_inert (ne_of_mem_of_not_mem hc h)),
    scan_congr_of_blind (fun _ _ _ ↦ rfl) (before none p) none]

private theorem scan_bracket_unclosed {text : List α} (h : closer ∉ text) :
    (bracket opener closer drops).scan none 0 text = text := by
  refine scan_of_kept (fun t ht prev written read hread ↦ ?_) none (Nat.zero_le _)
  have hnone : bracket opener closer drops prev t = none := by
    rw [bracket, if_neg]
    exact fun hclosed ↦ h (ht.subset hclosed.2)
  rw [hnone] at hread
  cases hread

private theorem takeWhile_closed {q : List α} (h : closer ∉ q) (rest : List α) :
    (q ++ closer :: rest).takeWhile (· ≠ closer) = q := by
  rw [List.takeWhile_append_of_pos, List.takeWhile_cons_of_neg (by simp), List.append_nil]
  intro c hc
  simpa using ne_of_mem_of_not_mem hc h

private theorem dropWhile_opened {p : List α} (h : opener ∉ p) (rest : List α) :
    (p ++ opener :: rest).dropWhile (· ≠ opener) = opener :: rest := by
  rw [List.dropWhile_append_of_pos, List.dropWhile_cons_of_neg (by simp)]
  intro c hc
  simpa using ne_of_mem_of_not_mem hc h

private theorem scan_bracket_closed (hne : opener ≠ closer) {q : List α} (h : closer ∉ q)
    (rest : List α) : (bracket opener closer drops).scan none 0 (opener :: q ++ closer :: rest) =
      (if drops (opener :: q ++ [closer]) then [] else opener :: q ++ [closer]) ++
        (bracket opener closer drops).scan none 0 rest := by
  have hopened : closer ∉ opener :: q := List.not_mem_cons_of_ne_of_not_mem hne.symm h
  have hrule : bracket opener closer drops none (opener :: (q ++ closer :: rest)) =
      some (if drops (opener :: q ++ [closer]) then [] else opener :: q ++ [closer],
        (opener :: q ++ [closer]).length) := by
    rw [← List.cons_append, bracket, if_pos ⟨rfl, by simp⟩, takeWhile_closed hopened]
  have hlength : (opener :: q ++ [closer]).length - 1 = (q ++ [closer]).length := rfl
  have hpassed := @scan_length_append _ (bracket opener closer drops) (some opener)
    (q ++ [closer]) rest
  rw [List.append_assoc, List.singleton_append] at hpassed
  rw [List.cons_append, scan_cons_some hrule, hlength, hpassed,
    scan_congr_of_blind (fun _ _ _ ↦ rfl) (before _ _) none]

private theorem pending_closed (p rest : List α) :
    pending opener closer (p ++ closer :: rest) = pending opener closer rest := by
  have htake (a b : List α) : (a ++ closer :: b).takeWhile (· ≠ closer) =
      a.takeWhile (· ≠ closer) := by
    induction a with
    | nil => simp
    | cons c a ih => simp only [List.cons_append, List.takeWhile_cons, ih]
  rw [pending, List.reverse_append, List.reverse_cons, List.append_assoc, List.singleton_append,
    htake]
  rfl

/-- Where there is no opener, none is open. -/
theorem not_breaks_of_notMem {a b : List α} (h : opener ∉ a) :
    ¬ Breaks opener closer drops a b := by
  refine fun hbreaks ↦ hbreaks.1 (List.dropWhile_eq_nil_iff.mpr fun c hc ↦ ?_)
  have hmem := (List.takeWhile_sublist _).subset (List.mem_reverse.mp hc)
  simpa using ne_of_mem_of_not_mem (List.mem_reverse.mp hmem) h

private theorem pending_opened (hne : opener ≠ closer) {p r : List α} (hp : opener ∉ p)
    (hr : closer ∉ r) : pending opener closer (p ++ opener :: r) = opener :: r := by
  have hall : ∀ c ∈ (opener :: r).reverse, decide (c ≠ closer) = true := by
    intro c hc
    rcases List.mem_cons.mp (List.mem_reverse.mp hc) with rfl | hc
    · simpa using hne
    · simpa using ne_of_mem_of_not_mem hc hr
  have hfront : opener ∉ (p.reverse.takeWhile (· ≠ closer)).reverse := fun hmem ↦
    hp (List.mem_reverse.mp ((List.takeWhile_sublist _).subset (List.mem_reverse.mp hmem)))
  rw [pending, List.reverse_append, List.takeWhile_append_of_pos hall, List.reverse_append,
    List.reverse_reverse, dropWhile_opened hfront]

private theorem scan_bracket_closes (hne : opener ≠ closer) {r q : List α} (hr : closer ∉ r)
    (hq : closer ∉ q) (hwhole : drops (opener :: r ++ (q ++ [closer])) = false)
    (hown : opener ∈ q → drops (q.dropWhile (· ≠ opener) ++ [closer]) = false) (rest : List α) :
    (bracket opener closer drops).scan none 0 (opener :: r ++ (q ++ closer :: rest)) =
      opener :: r ++ (bracket opener closer drops).scan none 0 (q ++ closer :: rest) := by
  have hinside : closer ∉ r ++ q := fun hmem ↦ (List.mem_append.mp hmem).elim hr hq
  have hsplit : opener :: r ++ (q ++ closer :: rest) = opener :: (r ++ q) ++ closer :: rest := by
    simp only [List.cons_append, List.append_assoc]
  have hkept : drops (opener :: (r ++ q) ++ [closer]) = false := by
    rw [← hwhole]
    simp only [List.cons_append, List.append_assoc]
  have hrest : (bracket opener closer drops).scan none 0 (q ++ closer :: rest) =
      q ++ [closer] ++ (bracket opener closer drops).scan none 0 rest := by
    by_cases hopens : opener ∈ q
    · obtain ⟨p, t, rfl, hp⟩ := List.eq_append_cons_of_mem hopens
      have ht : closer ∉ t := fun hmem ↦ hq (by simp [hmem])
      have hfalse := hown hopens
      rw [dropWhile_opened hp] at hfalse
      rw [List.append_assoc, scan_bracket_unopened hp, scan_bracket_closed hne ht, hfalse]
      simp only [Bool.false_eq_true, if_false, List.append_assoc, List.cons_append,
        List.nil_append]
    · have hnot : opener ∉ q ++ [closer] := by simp [hopens, hne]
      rw [List.append_cons, scan_bracket_unopened hnot]
  rw [hsplit, scan_bracket_closed hne hinside, hkept, hrest]
  simp only [Bool.false_eq_true, if_false, List.append_assoc, List.cons_append, List.nil_append]

/-- Where the second part breaks no bracket, the scan is that of the parts: by induction on the
first, which is read up to its last closed bracket. -/
theorem scan_bracket_append (hne : opener ≠ closer) {a b : List α}
    (h : ¬ Breaks opener closer drops a b) :
    (bracket opener closer drops).scan none 0 (a ++ b) =
      (bracket opener closer drops).scan none 0 a ++
        (bracket opener closer drops).scan none 0 b := by
  induction hn : a.length using Nat.strongRecOn generalizing a with
  | ind n ih =>
    by_cases hopens : opener ∈ a
    · obtain ⟨p, r, rfl, hp⟩ := List.eq_append_cons_of_mem hopens
      rw [List.append_assoc, List.cons_append, scan_bracket_unopened hp, scan_bracket_unopened hp,
        List.append_assoc]
      refine congrArg (p ++ ·) ?_
      by_cases hcloses : closer ∈ r
      · obtain ⟨q, rest, rfl, hq⟩ := List.eq_append_cons_of_mem hcloses
        have hsame : pending opener closer (p ++ opener :: (q ++ closer :: rest)) =
            pending opener closer rest := by
          rw [← List.cons_append, ← List.append_assoc, pending_closed]
        have hrest : ¬ Breaks opener closer drops rest b := by
          rwa [Breaks, hsame] at h
        have hshorter : rest.length < n := by
          rw [← hn]
          simp only [List.length_append, List.length_cons]
          omega
        have hparts := ih rest.length hshorter hrest rfl
        have hassoc : opener :: ((q ++ closer :: rest) ++ b) = opener :: q ++ closer :: (rest ++ b) := by
          simp only [List.append_assoc, List.cons_append]
        rw [hassoc, scan_bracket_closed hne hq, hparts, ← List.cons_append, scan_bracket_closed hne hq,
          List.append_assoc]
      · rw [scan_bracket_unclosed (List.not_mem_cons_of_ne_of_not_mem hne.symm hcloses)]
        by_cases hclosed : closer ∈ b
        · obtain ⟨q, rest, rfl, hq⟩ := List.eq_append_cons_of_mem hclosed
          rw [Breaks, pending_opened hne hp hcloses, takeWhile_closed hq] at h
          push Not at h
          obtain ⟨hwhole, hown⟩ := h (List.cons_ne_nil _ _) hclosed
          exact scan_bracket_closes hne hcloses hq (Bool.eq_false_iff.mpr hwhole)
            (fun hmem ↦ Bool.eq_false_iff.mpr (hown hmem)) rest
        · have hnone : closer ∉ opener :: (r ++ b) := by simp [hne.symm, hcloses, hclosed]
          rw [scan_bracket_unclosed hnone, scan_bracket_unclosed hclosed, List.cons_append]
    · have hkept := @scan_bracket_unopened _ _ opener closer drops a hopens []
      rw [List.append_nil, scan, List.append_nil] at hkept
      rw [scan_bracket_unopened hopens, hkept]

end Decidable
end Rule
end NullRouter.Base
