import Mathlib.Data.List.Basic

/-!
# Percent-encoding of unreserved characters

A text and the same text with any of its unreserved characters written as `%XX`. The texts
agree up to the first character that is written so, and a literal without a percent sign
can be found in the escaped text only before it.
-/

namespace NullRouter.Base

/-- Letters, digits and `-._~`. -/
def unreserved (c : Char) : Bool :=
  c.isAlphanum || c == '-' || c == '.' || c == '_' || c == '~'

/-- The value of a hexadecimal digit of either case. -/
def hexValue (c : Char) : Option Nat :=
  if c.isDigit then some (c.toNat - 48)
  else if 'a' ≤ c ∧ c ≤ 'f' then some (c.toNat - 87)
  else if 'A' ≤ c ∧ c ≤ 'F' then some (c.toNat - 55)
  else none

/-- The second text is the first with some unreserved characters written as `%XX`. -/
inductive Escapes : List Char → List Char → Prop where
  | nil : Escapes [] []
  | keep (c : Char) {p q : List Char} (rest : Escapes p q) : Escapes (c :: p) (c :: q)
  | escape {c hi lo : Char} {a b : Nat} (hc : unreserved c = true) (hhi : hexValue hi = some a)
      (hlo : hexValue lo = some b) (hv : 16 * a + b = c.toNat) {p q : List Char}
      (rest : Escapes p q) : Escapes (c :: p) ('%' :: hi :: lo :: q)

/-- The longest common prefix of two texts. -/
def commonPrefix : List Char → List Char → List Char
  | c :: p, d :: q => if c = d then c :: commonPrefix p q else []
  | _, _ => []

namespace Escapes

private theorem slash_ne_hex {c : Char} {a : Nat} (h : hexValue c = some a) : '/' ≠ c := by
  rintro rfl
  have hnone : hexValue '/' = none := by decide
  rw [hnone] at h
  cases h

/-- Escaping neither makes nor removes a slash. -/
theorem mem_slash_iff {p q : List Char} (h : Escapes p q) : '/' ∈ p ↔ '/' ∈ q := by
  induction h with
  | nil => rfl
  | keep c _ ih => simp [ih]
  | @escape c hi lo a b hc hhi hlo hv p q rest ih =>
    have hne : '/' ≠ c := by
      rintro rfl
      exact absurd hc (by decide)
    simp [ih, hne, slash_ne_hex hhi, slash_ne_hex hlo]

/-- A text that differs from its escaping has a first character that is written out. -/
theorem exists_first {p q : List Char} (h : Escapes p q) (hne : q ≠ p) :
    ∃ (x hi lo : Char) (r r' : List Char),
      p = commonPrefix p q ++ x :: r ∧ q = commonPrefix p q ++ '%' :: hi :: lo :: r' ∧
        '/' ≠ x ∧ '/' ≠ hi ∧ '/' ≠ lo ∧ Escapes r r' := by
  induction h with
  | nil => exact absurd rfl hne
  | keep c _ ih =>
    obtain ⟨x, hi, lo, r, r', hp, hq, hx, hrest⟩ := ih fun e ↦ hne (by rw [e])
    refine ⟨x, hi, lo, r, r', ?_, ?_, hx, hrest⟩
    · rw [commonPrefix, if_pos rfl, List.cons_append, ← hp]
    · rw [commonPrefix, if_pos rfl, List.cons_append, ← hq]
  | @escape c hi lo a b hc hhi hlo hv p q rest _ =>
    have hc' : c ≠ '%' := by
      rintro rfl
      exact absurd hc (by decide)
    have hslash : '/' ≠ c := by
      rintro rfl
      exact absurd hc (by decide)
    refine ⟨c, hi, lo, p, q, ?_, ?_, hslash, slash_ne_hex hhi, slash_ne_hex hlo, rest⟩
    · rw [commonPrefix, if_neg hc', List.nil_append]
    · rw [commonPrefix, if_neg hc', List.nil_append]

end Escapes

/-- A literal without a percent sign begins a text with one only where it ends before it. -/
theorem isPrefix_append_percent {l c r : List Char} (hl : '%' ∉ l) :
    l <+: c ++ '%' :: r ↔ l <+: c := by
  refine ⟨fun h ↦ ?_, fun h ↦ h.trans (List.prefix_append _ _)⟩
  rcases List.prefix_or_prefix_of_prefix h (List.prefix_append c ('%' :: r)) with h' | ⟨t, rfl⟩
  · exact h'
  · cases t with
    | nil => simp
    | cons x t =>
      have hx : x = '%' := by
        have := List.cons_prefix_cons.mp ((List.prefix_append_right_inj c).mp h)
        exact this.1
      exact absurd (by simp [hx]) hl

end NullRouter.Base
