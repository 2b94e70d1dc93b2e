import NullRouter.Logship.Scrub
import Mathlib.Data.List.DropRight
import Mathlib.Data.List.TakeWhile

/-!
# Names, separators and values

Where the scrubber of `crates/logship/src/scrub.rs` sees a name, what separates it from its value,
and where the value ends, of a text in two parts: which of these the second part can change.
-/

namespace NullRouter.Logship

open NullRouter.Base

/-! ## Characters -/

/-- A character that names are of. -/
def isNameChar (c : Char) : Bool := c.isAlphanum || c = '_' || c = '-'

/-- The casing of a character of a name does not matter. -/
theorem isNameChar_of_toLower {c : Char} (h : isNameChar c.toLower = true) :
    isNameChar c = true := by
  by_cases hupper : c.val ≥ 'A'.val ∧ c.val ≤ 'Z'.val
  · have halpha : c.isUpper = true := by
      delta Char.isUpper
      simp only [decide_eq_true_eq]
      exact hupper
    delta isNameChar Char.isAlphanum Char.isAlpha
    rw [halpha]
    rfl
  · have hsame : c.toLower = c := by
      delta Char.toLower
      rw [dif_neg hupper]
    rwa [hsame] at h

/-- A blank, a quote, a delimiter or a separator is not of a name. -/
theorem isNameChar_of_isLead {c : Char} (h : isLead c = true) : isNameChar c = false := by
  rw [isLead, decide_eq_true_eq] at h
  have hall : ∀ c ∈ ['"', '\'', ' ', '\t'], isNameChar c = false :=
    forall_mem_of_all (by decide)
  exact hall c h

theorem isNameChar_of_isDelimiter {c : Char} (h : isDelimiter c = true) : isNameChar c = false := by
  rw [isDelimiter, decide_eq_true_eq] at h
  have hall : ∀ c ∈ ['"', '\'', ',', '\x7d', '\n', ';'], isNameChar c = false :=
    forall_mem_of_all (by decide)
  exact hall c h

theorem isNameChar_of_isWhitespace {c : Char} (h : isWhitespace c = true) :
    isNameChar c = false := by
  rw [Bool.eq_false_iff]
  intro hname
  rw [isNameChar, Bool.or_eq_true, Bool.or_eq_true, decide_eq_true_eq, decide_eq_true_eq] at hname
  rcases hname with (halpha | rfl) | rfl
  · rw [isWhitespace_of_isAlphanum halpha] at h
    cases h
  · exact absurd h (by decide)
  · exact absurd h (by decide)

/-- A colon or an equals sign. -/
def isSeparating (c : Char) : Bool := c = ':' || c = '='

theorem isNameChar_of_isSeparating {c : Char} (h : isSeparating c = true) :
    isNameChar c = false := by
  rw [isSeparating, Bool.or_eq_true, decide_eq_true_eq, decide_eq_true_eq] at h
  rcases h with rfl | rfl
  · decide
  · decide

theorem isTokenChar_of_isNameChar {c : Char} (h : isNameChar c = true) : isTokenChar c = true := by
  rw [isNameChar, Bool.or_eq_true, Bool.or_eq_true, decide_eq_true_eq, decide_eq_true_eq] at h
  rcases h with (halpha | rfl) | rfl
  · rw [isTokenChar, halpha, Bool.true_or]
  · decide
  · decide

/-- A blank, a quote, whitespace or a delimiter is not of a token. -/
theorem isTokenChar_of_isLead {c : Char} (h : isLead c = true) : isTokenChar c = false := by
  rw [isLead, decide_eq_true_eq] at h
  have hall : ∀ c ∈ ['"', '\'', ' ', '\t'], isTokenChar c = false :=
    forall_mem_of_all (by decide)
  exact hall c h

theorem isTokenChar_of_isDelimiter {c : Char} (h : isDelimiter c = true) :
    isTokenChar c = false := by
  rw [isDelimiter, decide_eq_true_eq] at h
  have hall : ∀ c ∈ ['"', '\'', ',', '\x7d', '\n', ';'], isTokenChar c = false :=
    forall_mem_of_all (by decide)
  exact hall c h

theorem isTokenChar_of_isWhitespace {c : Char} (h : isWhitespace c = true) :
    isTokenChar c = false := by
  rw [Bool.eq_false_iff]
  intro htoken
  rw [isTokenChar, Bool.or_eq_true, decide_eq_true_eq] at htoken
  rcases htoken with halpha | hmem
  · rw [isWhitespace_of_isAlphanum halpha] at h
    cases h
  · have hall : ∀ c ∈ ['-', '_', '.', '~', '+', '/', '='], isWhitespace c = false :=
      forall_mem_of_all (by decide)
    rw [hall c hmem] at h
    cases h

/-! ## Texts in two parts -/

section

variable {p : Char → Bool} {a b : List Char}

/-- A second part that begins otherwise is not taken. -/
theorem takeWhile_append_of_head (h : ∀ c ∈ b.head?, p c = false) :
    (a ++ b).takeWhile p = a.takeWhile p ∧ (a ++ b).dropWhile p = a.dropWhile p ++ b := by
  induction a with
  | nil =>
    cases b with
    | nil => exact ⟨rfl, rfl⟩
    | cons c b =>
      have hc := h c rfl
      exact ⟨List.takeWhile_cons_of_neg (by rw [hc]; exact Bool.false_ne_true),
        List.dropWhile_cons_of_neg (by rw [hc]; exact Bool.false_ne_true)⟩
  | cons c a ih =>
    rw [List.cons_append]
    by_cases hc : p c = true
    · rw [List.takeWhile_cons_of_pos hc, List.takeWhile_cons_of_pos hc,
        List.dropWhile_cons_of_pos hc, List.dropWhile_cons_of_pos hc, ih.1, ih.2]
      exact ⟨rfl, rfl⟩
    · rw [List.takeWhile_cons_of_neg hc, List.takeWhile_cons_of_neg hc,
        List.dropWhile_cons_of_neg hc, List.dropWhile_cons_of_neg hc]
      exact ⟨rfl, rfl⟩

/-- Past a character that is not taken, nothing is. -/
theorem takeWhile_append_of_mem {c : Char} (hc : c ∈ a) (h : p c = false) :
    (a ++ b).takeWhile p = a.takeWhile p ∧ (a ++ b).dropWhile p = a.dropWhile p ++ b := by
  induction a with
  | nil => cases hc
  | cons d a ih =>
    rw [List.cons_append]
    by_cases hd : p d = true
    · have hmem : c ∈ a := by
        rcases List.mem_cons.mp hc with rfl | hmem
        · rw [h] at hd
          cases hd
        · exact hmem
      rw [List.takeWhile_cons_of_pos hd, List.takeWhile_cons_of_pos hd,
        List.dropWhile_cons_of_pos hd, List.dropWhile_cons_of_pos hd, (ih hmem).1, (ih hmem).2]
      exact ⟨rfl, rfl⟩
    · rw [List.takeWhile_cons_of_neg hd, List.takeWhile_cons_of_neg hd,
        List.dropWhile_cons_of_neg hd, List.dropWhile_cons_of_neg hd]
      exact ⟨rfl, rfl⟩

/-- The first character that is left is not taken. -/
theorem of_head?_dropWhile {c : Char} (h : c ∈ (a.dropWhile p).head?) : p c = false := by
  have hnot := List.head?_dropWhile_not p a
  rw [Option.mem_def.mp h] at hnot
  exact hnot

end

/-! ## Names -/

/-- A text that a name is found at the front of. -/
theorem startsWith_iff {name line : List Char} : startsWith name line = true ↔
    ∃ found rest, line = found ++ rest ∧ found.map Char.toLower = name := by
  rw [startsWith, decide_eq_true_eq]
  constructor
  · intro h
    exact ⟨_, _, (List.take_append_drop name.length line).symm, h⟩
  · rintro ⟨found, rest, rfl, rfl⟩
    rw [List.length_map, List.take_left]

/-- What a name is found of is of names. -/
theorem isNameChar_of_found {name found : List Char} (hname : ∀ c ∈ name, isNameChar c = true)
    (h : found.map Char.toLower = name) : ∀ c ∈ found, isNameChar c = true :=
  fun _ hc ↦ isNameChar_of_toLower (hname _ (h ▸ List.mem_map_of_mem hc))

/-- A name is found across two parts only where it may stand on both sides. -/
theorem found_of_append {name s b : List Char} {q : Char → Bool}
    (h : startsWith name (s ++ b) = true)
    (hfound : ∀ found : List Char, found.map Char.toLower = name → ∀ c ∈ found, q c = true)
    (hapart : (∀ c ∈ s.getLast?, q c = false) ∧ s ≠ [] ∨ ∀ c ∈ b.head?, q c = false) :
    ∃ found rest, s = found ++ rest ∧ found.map Char.toLower = name := by
  obtain ⟨found, rest, hline, hname⟩ := startsWith_iff.mp h
  rcases List.append_eq_append_iff.mp hline with ⟨more, hfront, hback⟩ | ⟨more, hfront, hback⟩
  · cases more with
    | nil => exact ⟨found, [], by rw [hfront, List.append_nil, List.append_nil], hname⟩
    | cons _ more =>
      have hq := hfound found hname
      rcases hapart with ⟨hlast, hne⟩ | hhead
      · have hmem := List.getLast_mem hne
        have hfalse := hlast _ (List.getLast?_eq_some_getLast hne)
        rw [hq _ (hfront ▸ List.mem_append_left _ hmem)] at hfalse
        cases hfalse
      · have hfalse := hhead _ (by rw [hback]; rfl)
        rw [hq _ (hfront ▸ List.mem_append_right _ List.mem_cons_self)] at hfalse
        cases hfalse
  · exact ⟨found, more, hfront, hname⟩

/-! ## Separators -/

/-- Blanks and quotes, a colon or an equals sign, and blanks and quotes. -/
def IsSeparator (text : List Char) : Prop :=
  ∃ blank c lead, text = blank ++ c :: lead ∧ (∀ d ∈ blank, isLead d = true) ∧
    isSeparating c = true ∧ ∀ d ∈ lead, isLead d = true

private theorem isLead_of_isSeparating {c : Char} (h : isSeparating c = true) :
    isLead c = false := by
  rw [isSeparating, Bool.or_eq_true, decide_eq_true_eq, decide_eq_true_eq] at h
  rcases h with rfl | rfl
  · decide
  · decide

/-- What is separated from a name: a separator, and what does not begin with a blank or a quote. -/
theorem separator_eq_some {text front value : List Char} : separator text = some (front, value) ↔
    text = front ++ value ∧ IsSeparator front ∧ ∀ c ∈ value.head?, isLead c = false := by
  constructor
  · intro h
    rw [separator] at h
    split at h
    · cases h
    · next c region hregion =>
      obtain ⟨hc, hsome⟩ := Option.ite_none_right_eq_some.mp h
      obtain ⟨rfl, rfl⟩ := Prod.mk.inj (Option.some.inj hsome)
      refine ⟨?_, ⟨_, c, _, rfl, fun d hd ↦ List.mem_takeWhile_imp hd, ?_,
        fun d hd ↦ List.mem_takeWhile_imp hd⟩, fun d hd ↦ of_head?_dropWhile hd⟩
      · rw [List.append_assoc, List.cons_append, List.takeWhile_append_dropWhile, ← hregion,
          List.takeWhile_append_dropWhile]
      · rw [isSeparating, Bool.or_eq_true, decide_eq_true_eq, decide_eq_true_eq]
        exact hc
  · rintro ⟨rfl, ⟨blank, c, lead, rfl, hblank, hc, hlead⟩, hvalue⟩
    have hstop := isLead_of_isSeparating hc
    have hfirst : (blank ++ c :: (lead ++ value)).takeWhile isLead = blank ∧
        (blank ++ c :: (lead ++ value)).dropWhile isLead = c :: (lead ++ value) := by
      obtain ⟨htake, hdrop⟩ := @takeWhile_append_of_head isLead blank (c :: (lead ++ value))
        (fun d hd ↦ by cases hd; exact hstop)
      rw [htake, hdrop, List.takeWhile_eq_self_iff.mpr hblank,
        List.dropWhile_eq_nil_iff.mpr hblank]
      exact ⟨rfl, rfl⟩
    obtain ⟨htake, hdrop⟩ := @takeWhile_append_of_head isLead lead value hvalue
    rw [List.append_assoc, List.cons_append, separator, hfirst.1, hfirst.2]
    simp only [htake, hdrop, List.takeWhile_eq_self_iff.mpr hlead,
      List.dropWhile_eq_nil_iff.mpr hlead, List.nil_append]
    rw [if_pos]
    rw [isSeparating, Bool.or_eq_true, decide_eq_true_eq, decide_eq_true_eq] at hc
    exact hc

theorem mem_separator {front : List Char} (h : IsSeparator front) {c : Char} (hc : c ∈ front) :
    isLead c = true ∨ isSeparating c = true := by
  obtain ⟨blank, d, lead, rfl, hblank, hd, hlead⟩ := h
  rcases List.mem_append.mp hc with hc | hc
  · exact .inl (hblank c hc)
  · rcases List.mem_cons.mp hc with rfl | hc
    · exact .inr hd
    · exact .inl (hlead c hc)

theorem separator_ne_nil {front : List Char} (h : IsSeparator front) : front ≠ [] := by
  obtain ⟨blank, d, lead, rfl, -⟩ := h
  simp

private theorem separator_of_append {a b front value : List Char}
    (h : separator (a ++ b) = some (front, value))
    (hapart : ∀ more, more ≠ [] → front = a ++ more → b = more ++ value → False) :
    ∃ more, separator a = some (front, more) ∧ value = more ++ b := by
  obtain ⟨hline, hseparator, hvalue⟩ := separator_eq_some.mp h
  rcases List.append_eq_append_iff.mp hline with ⟨more, hfront, hback⟩ | ⟨more, hfront, hback⟩
  · cases more with
    | nil =>
      rw [List.append_nil] at hfront
      refine ⟨[], separator_eq_some.mpr ⟨by rw [hfront, List.append_nil], hseparator, ?_⟩,
        hback.symm⟩
      intro c hc
      cases hc
    | cons c more => exact (hapart _ (List.cons_ne_nil _ _) hfront hback).elim
  · refine ⟨more, separator_eq_some.mpr ⟨hfront, hseparator, ?_⟩, hback⟩
    intro c hc
    cases more with
    | nil => cases hc
    | cons d more => exact hvalue c (by rw [hback]; exact hc)

/-- A second part that begins neither with a blank, a quote, nor a separator is of the value. -/
theorem separator_append_of_head {a b : List Char}
    (h : ∀ c ∈ b.head?, isLead c = false ∧ isSeparating c = false) :
    separator (a ++ b) = (separator a).map fun parts ↦ (parts.1, parts.2 ++ b) := by
  cases hb : separator (a ++ b) with
  | some parts =>
    obtain ⟨front, value⟩ := parts
    obtain ⟨more, ha, rfl⟩ := separator_of_append hb
      (fun more hmore hfront hback ↦ by
        cases more with
        | nil => exact hmore rfl
        | cons c more =>
          have hhead := h c (by rw [hback]; rfl)
          rcases mem_separator (separator_eq_some.mp hb).2.1
            (hfront ▸ List.mem_append_right a List.mem_cons_self) with hc | hc
          · rw [hhead.1] at hc
            cases hc
          · rw [hhead.2] at hc
            cases hc)
    rw [ha]
    rfl
  | none =>
    cases ha : separator a with
    | none => rfl
    | some parts =>
      obtain ⟨front, value⟩ := parts
      obtain ⟨hline, hseparator, hvalue⟩ := separator_eq_some.mp ha
      have hsome : separator (a ++ b) = some (front, value ++ b) := by
        refine separator_eq_some.mpr ⟨by rw [hline, List.append_assoc], hseparator, ?_⟩
        intro c hc
        cases value with
        | nil => exact (h c hc).1
        | cons d value => exact hvalue c hc
      rw [hb] at hsome
      cases hsome

/-- Where the first part ends neither with a blank, a quote, nor a separator, the second is of the
value. -/
theorem separator_append_of_last {a b : List Char} (hne : a ≠ [])
    (h : ∀ c ∈ a.getLast?, isLead c = false ∧ isSeparating c = false) :
    separator (a ++ b) = (separator a).map fun parts ↦ (parts.1, parts.2 ++ b) := by
  have hlast := h _ (List.getLast?_eq_some_getLast hne)
  have hapart {front : List Char} (hseparator : IsSeparator front)
      (hmem : a.getLast hne ∈ front) : False := by
    rcases mem_separator hseparator hmem with hc | hc
    · rw [hlast.1] at hc
      cases hc
    · rw [hlast.2] at hc
      cases hc
  cases hb : separator (a ++ b) with
  | some parts =>
    obtain ⟨front, value⟩ := parts
    obtain ⟨more, ha, rfl⟩ := separator_of_append hb
      (fun more _ hfront _ ↦ hapart (separator_eq_some.mp hb).2.1
        (hfront ▸ List.mem_append_left more (List.getLast_mem hne)))
    rw [ha]
    rfl
  | none =>
    cases ha : separator a with
    | none => rfl
    | some parts =>
      obtain ⟨front, value⟩ := parts
      obtain ⟨hline, hseparator, hvalue⟩ := separator_eq_some.mp ha
      have hsome : separator (a ++ b) = some (front, value ++ b) := by
        refine separator_eq_some.mpr ⟨by rw [hline, List.append_assoc], hseparator, ?_⟩
        intro c hc
        cases value with
        | nil =>
          rw [List.append_nil] at hline
          exact (hapart hseparator (hline ▸ List.getLast_mem hne)).elim
        | cons d value => exact hvalue c hc
      rw [hb] at hsome
      cases hsome

/-! ## Values -/

theorem trimEnd_append_of_blank {a b : List Char} (h : ∀ c ∈ b, isWhitespace c = true) :
    trimEnd (a ++ b) = trimEnd a := by
  rw [trimEnd, List.reverse_append, List.dropWhile_append_of_pos, ← trimEnd]
  intro c hc
  exact h c (List.mem_reverse.mp hc)

theorem trimEnd_eq_nil_iff {a : List Char} : trimEnd a = [] ↔ ∀ c ∈ a, isWhitespace c = true :=
  List.rdropWhile_eq_nil_iff

theorem trimEnd_eq_self {a : List Char} (h : ∀ c ∈ a.getLast?, isWhitespace c = false) :
    trimEnd a = a := by
  refine List.rdropWhile_eq_self_iff.mpr fun hne ↦ ?_
  rw [h _ (List.getLast?_eq_some_getLast hne)]
  exact Bool.false_ne_true

theorem trimEnd_append_rtakeWhile (a : List Char) : trimEnd a ++ a.rtakeWhile isWhitespace = a :=
  List.rdropWhile_append_rtakeWhile

/-- What follows a value is whitespace up to a delimiter or the end of the line. -/
structure Closes (blank rest : List Char) : Prop where
  blank : ∀ c ∈ blank, isWhitespace c = true ∧ isDelimiter c = false
  rest : ∀ c ∈ rest.head?, isDelimiter c = true

/-- A blank that is not a quote is whitespace. -/
theorem isWhitespace_of_isLead {c : Char} (h : isLead c = true) (hplain : isDelimiter c = false) :
    isWhitespace c = true := by
  rw [isLead, decide_eq_true_eq] at h
  have hall : ∀ c ∈ ['"', '\'', ' ', '\t'], isDelimiter c = false → isWhitespace c = true :=
    forall_mem_of_all (by decide)
  exact hall c h hplain

/-- What closes a value does not begin as a name or a token does. -/
theorem Closes.head {blank rest : List Char} (h : Closes blank rest) :
    ∀ c ∈ (blank ++ rest).head?, isNameChar c = false ∧ isTokenChar c = false := by
  intro c hc
  cases blank with
  | nil =>
    have hd := h.rest c hc
    exact ⟨isNameChar_of_isDelimiter hd, isTokenChar_of_isDelimiter hd⟩
  | cons d blank =>
    obtain rfl := Option.some.inj hc
    have hd := (h.blank d List.mem_cons_self).1
    exact ⟨isNameChar_of_isWhitespace hd, isTokenChar_of_isWhitespace hd⟩

/-- Past a delimiter, nothing is of the value. -/
theorem trimmed_append_of_mem {a b : List Char} {c : Char} (hc : c ∈ a)
    (h : isDelimiter c = true) : trimmed (a ++ b) = trimmed a := by
  rw [trimmed, (takeWhile_append_of_mem hc (by rw [h]; rfl)).1, ← trimmed]

private theorem notDelimiter {a : List Char} (h : ∀ c ∈ a, isDelimiter c = false) :
    ∀ c ∈ a, (!isDelimiter c) = true := by
  intro c hc
  rw [h c hc]
  rfl

/-- What is closed is the value, without the whitespace at its end. -/
theorem trimmed_append_of_closes {a blank rest : List Char}
    (ha : ∀ c ∈ a, isDelimiter c = false) (h : Closes blank rest) :
    trimmed (a ++ (blank ++ rest)) = trimEnd a := by
  have htake : (a ++ (blank ++ rest)).takeWhile (fun c ↦ !isDelimiter c) = a ++ blank := by
    rw [← List.append_assoc]
    refine ((takeWhile_append_of_head ?_).1).trans (List.takeWhile_eq_self_iff.mpr ?_)
    · intro c hc
      rw [h.rest c hc]
      rfl
    · apply notDelimiter
      intro c hc
      rcases List.mem_append.mp hc with hc | hc
      · exact ha c hc
      · exact (h.blank c hc).2
  rw [trimmed, htake, trimEnd_append_of_blank fun c hc ↦ (h.blank c hc).1]

/-- A value of which no character is a delimiter is trimmed at its end. -/
theorem trimmed_of_plain {a : List Char} (ha : ∀ c ∈ a, isDelimiter c = false) :
    trimmed a = trimEnd a := by
  rw [trimmed, List.takeWhile_eq_self_iff.mpr (notDelimiter ha)]

/-- A value is a front of the text. -/
theorem trimmed_front (a : List Char) : trimmed a <+: a :=
  (List.rdropWhile_prefix _ _).trans (List.takeWhile_prefix _)

end NullRouter.Logship
