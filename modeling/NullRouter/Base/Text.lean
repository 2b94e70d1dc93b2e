import Mathlib.Algebra.Order.Ring.Int
import Mathlib.Data.List.Basic
import Std.Data.String.ToNat

/-!
# Text helpers of the standard library

`str::trim`, `str::strip_prefix`, `u64::from_str` and saturating addition, as the Rust
standard library documents them. Text is handled through its scalar values.
-/

namespace NullRouter.Base

/-- Largest `u64`. -/
def u64Max : Nat := 2 ^ 64 - 1

/-- Largest `u32`. -/
def u32Max : Nat := 2 ^ 32 - 1

/-- `u64::saturating_add`. -/
def satAdd64 (a b : Nat) : Nat := min (a + b) u64Max

/-- `u32::saturating_add`. -/
def satAdd32 (a b : Nat) : Nat := min (a + b) u32Max

/-- `u64` addition: nothing where it overflows. -/
def checkedAdd64 (a b : Nat) : Option Nat := if a + b ≤ u64Max then some (a + b) else none

/-- `char::is_whitespace`: the Unicode property `White_Space`. -/
def isWhitespace (c : Char) : Bool :=
  let n := c.toNat
  (9 ≤ n && n ≤ 13) || n == 0x20 || n == 0x85 || n == 0xA0 || n == 0x1680 ||
    (0x2000 ≤ n && n ≤ 0x200A) || n == 0x2028 || n == 0x2029 || n == 0x202F || n == 0x205F ||
    n == 0x3000

/-- What holds of all characters of a text that is gone through. -/
theorem forall_mem_of_all {text : List Char} {p : Char → Prop} [DecidablePred p]
    (h : (text.all fun c ↦ p c) = true) : ∀ c ∈ text, p c :=
  fun c hc ↦ of_decide_eq_true (List.all_eq_true.mp h c hc)

/-- `str::trim` on scalar values. -/
def trimChars (cs : List Char) : List Char :=
  ((cs.dropWhile isWhitespace).reverse.dropWhile isWhitespace).reverse

/-- `str::trim`. -/
def trim (s : String) : String := String.ofList (trimChars s.toList)

/-- `str::trim_end` on scalar values. -/
def trimEnd (cs : List Char) : List Char := (cs.reverse.dropWhile isWhitespace).reverse

/-- `str::strip_prefix`. -/
def stripPrefix? (p s : String) : Option String :=
  (p.toList.isPrefixOf? s.toList).map String.ofList

/-- `str::strip_suffix`. -/
def stripSuffix? (tail s : String) : Option String :=
  (tail.toList.isSuffixOf? s.toList).map String.ofList

/-- `str::split_once` at a character. -/
def splitOnce (c : Char) (s : String) : Option (String × String) :=
  if c ∈ s.toList then
    some (String.ofList (s.toList.takeWhile (· ≠ c)),
      String.ofList ((s.toList.dropWhile (· ≠ c)).drop 1))
  else none

/-- `str::rsplit(c).next()`: what follows the last `c`, or all where there is none. -/
def afterLast (c : Char) (s : String) : String :=
  String.ofList (s.toList.reverse.takeWhile (· ≠ c)).reverse

/-- `str::to_lowercase`, as far as it can make an ASCII letter: the ASCII letters themselves,
the Kelvin sign and the dotted capital I. -/
def toLowercase (text : List Char) : List Char :=
  text.flatMap fun c ↦
    if c = Char.ofNat 0x212A then ['k']
    else if c = Char.ofNat 0x130 then ['i', Char.ofNat 0x307]
    else [c.toLower]

/-- `str::contains`. -/
def containsText (text needle : List Char) : Bool := text.tails.any (needle.isPrefixOf ·)

/-- `str::to_uppercase`, as far as it can make an ASCII letter: the ASCII letters themselves, the
dotless i, the long and the sharp s, and the Latin ligatures. -/
def toUppercase (text : List Char) : List Char :=
  text.flatMap fun c ↦
    match [(0x131, "I"), (0x17F, "S"), (0xDF, "SS"), (0xFB00, "FF"), (0xFB01, "FI"),
      (0xFB02, "FL"), (0xFB03, "FFI"), (0xFB04, "FFL"), (0xFB05, "ST"), (0xFB06, "ST")].lookup
        c.toNat with
    | some letters => letters.toList
    | none => [c.toUpper]

/-- `u64::from_str`: an optional plus sign, then decimal digits that do not overflow. -/
def parseU64 (s : String) : Option Nat :=
  let digits := match s.toList with
    | '+' :: rest => rest
    | cs => cs
  if digits ≠ [] ∧ digits.all Char.isDigit ∧ Nat.ofDigitChars 10 digits 0 ≤ u64Max then
    some (Nat.ofDigitChars 10 digits 0)
  else none

private theorem toLower_of_not_upper {c : Char} (h : ¬ (c.val ≥ 'A'.val ∧ c.val ≤ 'Z'.val)) :
    c.toLower = c := by
  delta Char.toLower
  rw [dif_neg h]

/-- Lower case is its own lower case. -/
theorem toLower_toLower (c : Char) : c.toLower.toLower = c.toLower := by
  by_cases hupper : c.val ≥ 'A'.val ∧ c.val ≤ 'Z'.val
  · have hlower : c.toLower.val = c.val + 32 := by
      delta Char.toLower
      rw [dif_pos hupper]
      rfl
    apply toLower_of_not_upper
    rw [hlower]
    rintro ⟨-, hle⟩
    have hge := UInt32.le_iff_toNat_le.mp hupper.1
    have hle' := UInt32.le_iff_toNat_le.mp hupper.2
    have hsum := UInt32.le_iff_toNat_le.mp hle
    rw [UInt32.toNat_add] at hsum
    simp at hge hle' hsum
    omega
  · rw [toLower_of_not_upper hupper, toLower_of_not_upper hupper]

/-- The printable characters of ASCII but the space are no whitespace. -/
theorem isWhitespace_of_printable {c : Char} (h : 0x21 ≤ c.toNat) (h' : c.toNat ≤ 0x7E) :
    isWhitespace c = false := by
  unfold isWhitespace
  simp
  omega

/-- No letter or digit of ASCII is whitespace. -/
theorem isWhitespace_of_isAlphanum {c : Char} (h : c.isAlphanum = true) :
    isWhitespace c = false := by
  delta Char.isAlphanum Char.isAlpha Char.isUpper Char.isLower Char.isDigit at h
  simp only [Bool.or_eq_true, Bool.and_eq_true, decide_eq_true_eq, ge_iff_le, UInt32.le_iff_toNat_le] at h
  rcases h with (⟨hge, hle⟩ | ⟨hge, hle⟩) | ⟨hge, hle⟩
  · exact isWhitespace_of_printable (Nat.le_trans (by decide) hge) (Nat.le_trans hle (by decide))
  · exact isWhitespace_of_printable (Nat.le_trans (by decide) hge) (Nat.le_trans hle (by decide))
  · exact isWhitespace_of_printable (Nat.le_trans (by decide) hge) (Nat.le_trans hle (by decide))

/-- Text without whitespace at either end is its own trimming. -/
theorem trimChars_eq_self {cs : List Char} (h : ∀ c ∈ cs, isWhitespace c = false) :
    trimChars cs = cs := by
  have hdrop : ∀ l : List Char, (∀ c ∈ l, isWhitespace c = false) →
      l.dropWhile isWhitespace = l := by
    intro l hl
    cases l with
    | nil => rfl
    | cons c l => simp [hl c (by simp)]
  rw [trimChars, hdrop cs h, hdrop _ (by simpa using h), List.reverse_reverse]

/-- Trimming takes out only. -/
theorem trimEnd_sublist (cs : List Char) : (trimEnd cs).Sublist cs := by
  have h : ((cs.reverse.dropWhile isWhitespace).reverse).Sublist cs.reverse.reverse :=
    (List.dropWhile_sublist _).reverse
  rwa [List.reverse_reverse] at h

theorem trimChars_sublist (cs : List Char) : (trimChars cs).Sublist cs :=
  (trimEnd_sublist (cs.dropWhile isWhitespace)).trans (List.dropWhile_sublist _)

/-- What comes after a start is part of the whole. -/
theorem sublist_of_isPrefixOf? {start cs rest : List Char} (h : start.isPrefixOf? cs = some rest) :
    rest.Sublist cs := by
  induction start generalizing cs with
  | nil =>
    cases cs <;> (cases h; exact List.Sublist.refl _)
  | cons c start ih =>
    cases cs with
    | nil => cases h
    | cons d cs =>
      rw [List.isPrefixOf?] at h
      split at h
      · exact (ih h).trans (List.sublist_cons_self d cs)
      · cases h

private theorem toUpper_toLower_of_lt : ∀ n : Fin 128,
    (Char.ofNat n.val).toLower.toUpper = (Char.ofNat n.val).toUpper := by
  decide

private theorem lt_of_toLower_lt {c : Char} (h : c.toLower.toNat < 128) : c.toNat < 128 := by
  delta Char.toLower at h
  split at h
  · next hupper =>
    have hle : c.toNat ≤ 'Z'.toNat := UInt32.le_iff_toNat_le.mp hupper.2
    exact Nat.lt_of_le_of_lt hle (by decide)
  · exact h

/-- Where the lower case of a text is a word of ASCII without the letter k, the upper case of the
text is that of the word. -/
theorem toUppercase_of_toLowercase {cs word : List Char} (h : toLowercase cs = word)
    (hword : ∀ c ∈ word, c.toNat < 128 ∧ c ≠ 'k') : toUppercase cs = word.map Char.toUpper := by
  induction cs generalizing word with
  | nil =>
    cases h
    rfl
  | cons c cs ih =>
    rw [toLowercase, List.flatMap_cons] at h
    subst h
    by_cases hkelvin : c = Char.ofNat 0x212A
    · exfalso
      rw [if_pos hkelvin] at hword
      exact (hword 'k' (by simp)).2 rfl
    · rw [if_neg hkelvin] at hword ⊢
      by_cases hdotted : c = Char.ofNat 0x130
      · exfalso
        rw [if_pos hdotted] at hword
        exact absurd (hword (Char.ofNat 0x307) (by simp)).1 (by decide)
      · rw [if_neg hdotted] at hword ⊢
        rw [List.singleton_append, List.forall_mem_cons] at hword
        have hascii : c.toNat < 128 := lt_of_toLower_lt hword.1.1
        have hupper : c.toLower.toUpper = c.toUpper := by
          have hofNat := toUpper_toLower_of_lt ⟨c.toNat, hascii⟩
          rwa [Char.ofNat_toNat] at hofNat
        have hplain : [(0x131, "I"), (0x17F, "S"), (0xDF, "SS"), (0xFB00, "FF"), (0xFB01, "FI"),
            (0xFB02, "FL"), (0xFB03, "FFI"), (0xFB04, "FFL"), (0xFB05, "ST"),
            (0xFB06, "ST")].lookup c.toNat = none := by
          have hne (n : Nat) (hn : 128 ≤ n) : (c.toNat == n) = false := by
            rw [beq_eq_false_iff_ne]
            omega
          simp [List.lookup_cons, hne]
        have hrest := ih rfl hword.2
        rw [toUppercase] at hrest ⊢
        rw [List.flatMap_cons, hplain, hrest, List.map_append, List.map_singleton, hupper]
        rfl

/-- No decimal digit is whitespace. -/
theorem isWhitespace_of_isDigit {c : Char} (h : c.isDigit = true) : isWhitespace c = false := by
  have hc : 48 ≤ c.toNat ∧ c.toNat ≤ 57 := by
    simpa [Char.isDigit, UInt32.le_iff_toNat_le] using h
  simp only [isWhitespace, Bool.or_eq_false_iff, Bool.and_eq_false_iff, decide_eq_false_iff_not,
    beq_eq_false_iff_ne]
  omega

/-- Stripping a prefix that was put in front. -/
theorem stripPrefix?_append (p s : String) : stripPrefix? p (p ++ s) = some s := by
  have h : ∀ l r : List Char, l.isPrefixOf? (l ++ r) = some r := by
    intro l r
    induction l with
    | nil => simp
    | cons c l ih => simp
  simp [stripPrefix?, h]

/-- The decimal digits of a number trim to themselves. -/
theorem trim_repr (n : Nat) : trim n.repr = n.repr := by
  have h : ∀ c ∈ Nat.toDigits 10 n, isWhitespace c = false := fun c hc ↦
    isWhitespace_of_isDigit (Nat.isDigit_of_mem_toDigits (by decide) (by decide) hc)
  rw [trim, Nat.toList_repr, trimChars_eq_self h, ← Nat.toList_repr, String.ofList_toList]

/-- Parsing reads back the decimal digits of a number that fits. -/
theorem parseU64_repr {n : Nat} (h : n ≤ u64Max) : parseU64 n.repr = some n := by
  have hdigits : ∀ c ∈ Nat.toDigits 10 n, c.isDigit = true := fun c hc ↦
    Nat.isDigit_of_mem_toDigits (by decide) (by decide) hc
  have hne : Nat.toDigits 10 n ≠ [] := Nat.toDigits_ne_nil
  have hplus : ∀ rest, Nat.toDigits 10 n ≠ '+' :: rest := by
    intro rest e
    have := hdigits '+' (by simp [e])
    exact absurd this (by decide)
  have hmatch : (match n.repr.toList with
      | '+' :: rest => rest
      | cs => cs) = Nat.toDigits 10 n := by
    rw [Nat.toList_repr]
    split
    · next rest e => exact absurd e (hplus rest)
    · rfl
  unfold parseU64
  simp only [hmatch, Nat.ofDigitChars_toDigits (show 1 < 10 by decide) (show 10 ≤ 10 by decide)]
  rw [if_pos ⟨hne, by simpa using hdigits, h⟩]

/-- Numbers after one text are told apart. -/
theorem append_toString_injective (head : String) :
    Function.Injective fun i : Nat ↦ head ++ toString i :=
  fun _ _ h ↦ Nat.repr_injective ((String.append_right_inj head).mp h)

end NullRouter.Base
