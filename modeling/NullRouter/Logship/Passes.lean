import NullRouter.Logship.Values

/-!
# The passes over a line

How far each pass of the scrubber, `crates/logship/src/scrub.rs`, sees past a part of a line: the
one for bearer tokens, and the one for each credential name.
-/

namespace NullRouter.Logship

open NullRouter.Base

/-- A name that fields are found by. -/
structure IsName (name : List Char) : Prop where
  ne_nil : name ≠ []
  chars : ∀ c ∈ name, isNameChar c = true

theorem isName_of_mem {name : String} (h : name ∈ credentialNames) : IsName name.toList := by
  have hall : ∀ name ∈ credentialNames,
      name.toList ≠ [] ∧ name.toList.all (fun c ↦ isNameChar c) = true := by
    decide +kernel
  exact ⟨(hall name h).1, List.all_eq_true.mp (hall name h).2⟩

section

variable {beyond : Char → Bool} {name : List Char}

/-- What is written after a name, and how much is read for it. -/
def afterName (beyond : Char → Bool) (prev : Option Char) (rest : List Char) : List Char × Nat :=
  match separator rest with
  | none => ([], 0)
  | some (front, value) =>
    if prev.any (isWord beyond) then ([], 0)
    else if trimmed value = [] then (front, front.length)
    else (front ++ redacted, front.length + (trimmed value).length)

theorem namedRule_found {found : List Char} (h : found.map Char.toLower = name)
    (prev : Option Char) (rest : List Char) : namedRule beyond name prev (found ++ rest) =
      some (found ++ (afterName beyond prev rest).1,
        found.length + (afterName beyond prev rest).2) := by
  have hlength : name.length = found.length := by rw [← h, List.length_map]
  rw [namedRule, if_pos (startsWith_iff.mpr ⟨found, rest, rfl, h⟩), hlength, List.take_left,
    List.drop_left, afterName]
  cases separator rest with
  | none => rw [List.append_nil, Nat.add_zero]
  | some parts =>
    simp only
    split
    · rw [List.append_nil, Nat.add_zero]
    · split
      · rfl
      · rw [List.append_assoc, Nat.add_assoc]

theorem namedRule_none {line : List Char} (h : startsWith name line = false) (prev : Option Char) :
    namedRule beyond name prev line = none := by
  rw [namedRule, h, if_neg Bool.false_ne_true]

private theorem afterName_spec (prev : Option Char) (rest : List Char) :
    (afterName beyond prev rest).2 ≤ rest.length ∧
      ((afterName beyond prev rest).1 = rest.take (afterName beyond prev rest).2 ∨
        ∃ kept ≤ (afterName beyond prev rest).2,
          (afterName beyond prev rest).1 = rest.take kept ++ redacted) := by
  rw [afterName]
  split
  · exact ⟨Nat.zero_le _, .inl rfl⟩
  · next front value hseparator =>
    obtain ⟨rfl, -⟩ := separator_eq_some.mp hseparator
    split
    · exact ⟨Nat.zero_le _, .inl rfl⟩
    · split
      · rw [List.length_append]
        exact ⟨Nat.le_add_right _ _, .inl List.take_left.symm⟩
      · have hlength := (trimmed_front value).length_le
        rw [List.length_append]
        exact ⟨Nat.add_le_add_left hlength _, .inr ⟨front.length, Nat.le_add_right _ _,
          by rw [List.take_left]⟩⟩

theorem namedRule_marks (hname : IsName name) : (namedRule beyond name).Marks redacted := by
  intro prev line written read h
  cases hstarts : startsWith name line with
  | false =>
    rw [namedRule_none hstarts] at h
    cases h
  | true =>
    obtain ⟨found, rest, rfl, hfound⟩ := startsWith_iff.mp hstarts
    rw [namedRule_found hfound, Option.some.injEq, Prod.mk.injEq] at h
    obtain ⟨rfl, rfl⟩ := h
    have hpos : 0 < found.length := by
      apply List.length_pos_iff.mpr
      rintro rfl
      exact hname.ne_nil hfound.symm
    obtain ⟨hread, hwritten⟩ := @afterName_spec beyond prev rest
    refine ⟨Nat.add_pos_left hpos _, by rw [List.length_append]; omega, ?_⟩
    rcases hwritten with hsame | ⟨kept, hkept, hmark⟩
    · rw [hsame, List.take_length_add_append]
      exact .inl rfl
    · rw [hmark]
      exact .inr ⟨found.length + kept, Nat.add_pos_left hpos _, Nat.add_le_add_left hkept _,
        by rw [List.take_length_add_append, List.append_assoc]⟩

/-- No name is found where no name begins. -/
theorem namedRule_inert (hname : IsName name) {c : Char} (h : isNameChar c = false) :
    (namedRule beyond name).Inert c := by
  intro prev rest
  apply namedRule_none
  rw [Bool.eq_false_iff]
  intro hstarts
  obtain ⟨found, more, hline, hfound⟩ := startsWith_iff.mp hstarts
  cases found with
  | nil => exact hname.ne_nil hfound.symm
  | cons d found =>
    obtain ⟨rfl, -⟩ := List.cons.inj hline
    rw [isNameChar_of_found hname.chars hfound c List.mem_cons_self] at h
    cases h

/-- The value of a name that is found goes on as it ends. -/
theorem afterName_append {a b : List Char} (prev : Option Char)
    (hseparator : separator (a ++ b) = (separator a).map fun parts ↦ (parts.1, parts.2 ++ b))
    (hvalue : ∀ front value, separator a = some (front, value) →
      trimmed (value ++ b) = trimmed value) :
    afterName beyond prev (a ++ b) = afterName beyond prev a := by
  rw [afterName, afterName, hseparator]
  cases ha : separator a with
  | none => rfl
  | some parts =>
    simp only [Option.map_some, hvalue _ _ ha]

/-- Whether a part ends, or what follows it begins, otherwise than a name. -/
def Apart (s b : List Char) : Prop :=
  (∀ c ∈ s.getLast?, isNameChar c = false) ∧ s ≠ [] ∨ ∀ c ∈ b.head?, isNameChar c = false

/-- What is written after the name that is found in a part decides what the rule sees. -/
theorem named_within (hname : IsName name) {s b : List Char} (hapart : Apart s b)
    (prev : Option Char) (h : ∀ found rest, s = found ++ rest → found.map Char.toLower = name →
      afterName beyond prev (rest ++ b) = afterName beyond prev rest) :
    (namedRule beyond name).Within s b prev := by
  have hmarks := @namedRule_marks beyond name hname
  refine ⟨?_, fun written read hread ↦ (hmarks _ _ _ _ hread).2.1⟩
  cases hstarts : startsWith name s with
  | true =>
    obtain ⟨found, rest, rfl, hfound⟩ := startsWith_iff.mp hstarts
    rw [List.append_assoc, namedRule_found hfound, namedRule_found hfound, h _ _ rfl hfound]
  | false =>
    rw [namedRule_none hstarts]
    apply namedRule_none
    rw [Bool.eq_false_iff]
    intro hboth
    obtain ⟨found, rest, rfl, hfound⟩ :=
      found_of_append hboth (fun _ ↦ isNameChar_of_found hname.chars) hapart
    rw [startsWith_iff.mpr ⟨found, rest, rfl, hfound⟩] at hstarts
    cases hstarts

/-- What begins a value: neither a blank, a quote, nor a separator. -/
def Begins (b : List Char) : Prop := ∀ c ∈ b.head?, isLead c = false ∧ isSeparating c = false

private theorem rest_of_found {found found' rest rest' : List Char}
    (h : found.map Char.toLower = name) (h' : found'.map Char.toLower = name)
    (hsame : found ++ rest = found' ++ rest') : rest = rest' := by
  have hlength := congrArg List.length (h.trans h'.symm)
  rw [List.length_map, List.length_map] at hlength
  exact (List.append_inj hsame hlength).2

/-- Before a word, a rule sees a part, or it reads the part and the word as a value. -/
theorem named_within_or_reads (hname : IsName name) {s : List Char}
    (hlast : ∀ c ∈ s.getLast?, isNameChar c = false) (hne : s ≠ []) (prev : Option Char) :
    (∀ b, Begins b → (namedRule beyond name).Within s b prev) ∨
    ∃ written, ∀ word blank rest, Begins word → word ≠ [] →
      (∀ c ∈ word, isDelimiter c = false) → (∀ c ∈ word.getLast?, isWhitespace c = false) →
      Closes blank rest →
      namedRule beyond name prev (s ++ (word ++ (blank ++ rest))) =
        some (written, s.length + word.length) := by
  by_cases hreads : ∃ found front value, s = found ++ (front ++ value) ∧
      found.map Char.toLower = name ∧ separator (front ++ value) = some (front, value) ∧
      prev.any (isWord beyond) = false ∧ ∀ c ∈ value, isDelimiter c = false
  · obtain ⟨found, front, value, rfl, hfound, hseparator, hword, hvalue⟩ := hreads
    refine .inr ⟨found ++ (front ++ redacted), ?_⟩
    intro word blank rest hbegins hwordne hplain hend hcloses
    have hboth : separator (front ++ value ++ (word ++ (blank ++ rest))) =
        some (front, (value ++ word) ++ (blank ++ rest)) := by
      rw [separator_append_of_head, hseparator, Option.map_some, List.append_assoc]
      intro c hc
      cases word with
      | nil => exact (hwordne rfl).elim
      | cons d word => exact hbegins c hc
    have hlast : ∀ c ∈ (value ++ word).getLast?, isWhitespace c = false := by
      intro c hc
      rw [List.getLast?_append_of_ne_nil _ hwordne] at hc
      exact hend c hc
    have hplain : ∀ c ∈ value ++ word, isDelimiter c = false :=
      List.forall_mem_append.mpr ⟨hvalue, hplain⟩
    have htrimmed : trimmed ((value ++ word) ++ (blank ++ rest)) = value ++ word := by
      rw [trimmed_append_of_closes hplain hcloses, trimEnd_eq_self hlast]
    have hsome : value ++ word ≠ [] := by
      simp only [ne_eq, List.append_eq_nil_iff, hwordne, and_false, not_false_eq_true]
    rw [List.append_assoc, namedRule_found hfound, afterName, hboth]
    simp only [hword, Bool.false_eq_true, if_false, htrimmed, hsome, List.length_append,
      Nat.add_assoc]
  · refine .inl fun b hb ↦ named_within hname (.inl ⟨hlast, hne⟩) prev ?_
    intro found rest hs hfound
    by_cases hword : prev.any (isWord beyond) = true
    · rw [afterName, afterName, separator_append_of_head hb]
      cases separator rest with
      | none => rfl
      | some parts => simp only [Option.map_some, hword, if_true]
    · refine afterName_append prev (separator_append_of_head hb) ?_
      intro front value hseparator
      obtain ⟨rfl, -⟩ := separator_eq_some.mp hseparator
      by_cases hdelimiter : ∃ c ∈ value, isDelimiter c = true
      · obtain ⟨c, hc, hd⟩ := hdelimiter
        exact trimmed_append_of_mem hc hd
      · refine (hreads ⟨found, front, value, hs, hfound, hseparator, ?_, ?_⟩).elim
        · exact Bool.eq_false_iff.mpr hword
        · intro c hc
          exact Bool.eq_false_iff.mpr fun hd ↦ hdelimiter ⟨c, hc, hd⟩

/-- A quote with blanks and quotes about it, after what is neither a separator nor more of these. -/
structure Opens (front quotes : List Char) : Prop where
  lead : ∀ c ∈ quotes, isLead c = true
  quote : ∃ c ∈ quotes, isDelimiter c = true
  front : ∀ c ∈ front.getLast?, isLead c = false ∧ isSeparating c = false

theorem Opens.ne_nil {front quotes : List Char} (h : Opens front quotes) : quotes ≠ [] := by
  rintro rfl
  obtain ⟨c, hc, -⟩ := h.quote
  cases hc

theorem Opens.apart {front quotes : List Char} (h : Opens front quotes) (s b : List Char) :
    Apart s (quotes ++ b) := by
  refine .inr fun c hc ↦ ?_
  cases quotes with
  | nil => exact (h.ne_nil rfl).elim
  | cons d quotes =>
    obtain rfl := Option.some.inj hc
    exact isNameChar_of_isLead (h.lead d List.mem_cons_self)

private theorem forall_getLast?_of_suffix {q : Char → Prop} {s t : List Char} (hs : s <:+ t)
    (hne : s ≠ []) (h : ∀ c ∈ t.getLast?, q c) : ∀ c ∈ s.getLast?, q c := by
  obtain ⟨front, rfl⟩ := hs
  rwa [List.getLast?_append_of_ne_nil _ hne] at h

private theorem separator_opens {front quotes b s found rest : List Char} (h : Opens front quotes)
    (hb : Begins b) (hs : s <:+ front) (hline : s = found ++ rest) :
    separator (rest ++ (quotes ++ b)) =
      (separator rest).map fun parts ↦ (parts.1, parts.2 ++ (quotes ++ b)) := by
  by_cases hrest : rest = []
  · subst hrest
    have hnone : separator (quotes ++ b) = none := by
      rw [separator_append_of_head hb]
      rw [separator, List.dropWhile_eq_nil_iff.mpr h.lead]
      rfl
    rw [List.nil_append, hnone]
    rfl
  · refine separator_append_of_last hrest ?_
    exact forall_getLast?_of_suffix ((List.suffix_append found rest).trans (hline ▸ hs)) hrest
      h.front

/-- Before an opening quote, a rule sees a part. -/
theorem Opens.within_quotes {front quotes s : List Char} (h : Opens front quotes)
    (hname : IsName name) (hs : s <:+ front) (prev : Option Char) :
    (namedRule beyond name).Within s quotes prev := by
  have hapart := h.apart s []
  rw [List.append_nil] at hapart
  refine named_within hname hapart prev fun found rest hline _ ↦ ?_
  have hseparator := separator_opens (b := []) h (fun c hc ↦ by cases hc) hs hline
  rw [List.append_nil] at hseparator
  refine afterName_append prev hseparator fun start value _ ↦ ?_
  by_cases hdelimiter : ∃ c ∈ value, isDelimiter c = true
  · obtain ⟨c, hc, hd⟩ := hdelimiter
    exact trimmed_append_of_mem hc hd
  · have hplain : ∀ c ∈ value, isDelimiter c = false :=
      fun c hc ↦ Bool.eq_false_iff.mpr fun hd ↦ hdelimiter ⟨c, hc, hd⟩
    have hparts := List.takeWhile_append_dropWhile (p := fun c ↦ !isDelimiter c) (l := quotes)
    have hcloses : Closes (quotes.takeWhile fun c ↦ !isDelimiter c)
        (quotes.dropWhile fun c ↦ !isDelimiter c) := by
      constructor
      · intro c hc
        have hd : isDelimiter c = false := by
          have hnot := List.mem_takeWhile_imp hc
          rwa [Bool.not_eq_true'] at hnot
        have hlead := h.lead c ((List.takeWhile_sublist _).subset hc)
        exact ⟨isWhitespace_of_isLead hlead hd, hd⟩
      · intro c hc
        have hnot := of_head?_dropWhile hc
        rwa [Bool.not_eq_false'] at hnot
    rw [← hparts, trimmed_append_of_closes hplain hcloses, trimmed_of_plain hplain]

/-- A rule sees what ends with an opening quote. -/
theorem Opens.within {front quotes s b : List Char} (h : Opens front quotes) (hname : IsName name)
    (hb : Begins b) (hs : s <:+ front ++ quotes) (hne : s ≠ []) (prev : Option Char) :
    (namedRule beyond name).Within s b prev := by
  have hlead : ∀ c ∈ (front ++ quotes).getLast?, isNameChar c = false := by
    intro c hc
    rw [List.getLast?_append_of_ne_nil _ h.ne_nil] at hc
    exact isNameChar_of_isLead (h.lead c (List.mem_of_mem_getLast? hc))
  have hlast := forall_getLast?_of_suffix hs hne hlead
  refine named_within hname (.inl ⟨hlast, hne⟩) prev fun found rest hline hfound ↦ ?_
  have hfirst : ∀ c ∈ found, c ∉ quotes := by
    intro c hc hquotes
    have hfalse := isNameChar_of_isLead (h.lead c hquotes)
    rw [isNameChar_of_found hname.chars hfound c hc] at hfalse
    cases hfalse
  have hfoundne : found ≠ [] := by
    rintro rfl
    exact hname.ne_nil hfound.symm
  obtain ⟨c, found', rfl⟩ := List.exists_cons_of_ne_nil hfoundne
  rcases List.suffix_or_suffix_of_suffix hs (List.suffix_append front quotes) with hquotes | hquotes
  · have hmem : c ∈ s := by
      rw [hline]
      exact List.mem_cons_self
    exact (hfirst c List.mem_cons_self (hquotes.subset hmem)).elim
  · obtain ⟨t, rfl⟩ := hquotes
    have ht : t <:+ front := List.suffix_append_self_iff.mp hs
    obtain ⟨more, rfl, rfl⟩ : ∃ more, t = (c :: found') ++ more ∧ rest = more ++ quotes := by
      rcases List.append_eq_append_iff.mp hline with ⟨more, hfront, hback⟩ | ⟨more, hfront, hback⟩
      · cases more with
        | nil =>
          rw [List.append_nil] at hfront
          exact ⟨[], by rw [hfront, List.append_nil], hback.symm⟩
        | cons d more =>
          have hd : d ∈ c :: found' := hfront ▸ List.mem_append_right t List.mem_cons_self
          exact (hfirst d hd (hback ▸ List.mem_cons_self)).elim
      · exact ⟨more, hfront, hback⟩
    have hboth := separator_opens h hb ht rfl
    have hquotes := separator_opens (b := []) h (fun c hc ↦ by cases hc) ht rfl
    rw [List.append_nil] at hquotes
    obtain ⟨d, hd, hdelimiter⟩ := h.quote
    refine afterName_append prev ?_ ?_
    · rw [List.append_assoc, hboth, hquotes, Option.map_map]
      cases separator more with
      | none => rfl
      | some parts => simp only [Option.map_some, Function.comp_apply, List.append_assoc]
    · intro start value hvalue
      rw [hquotes] at hvalue
      obtain ⟨parts, -, hparts⟩ := Option.map_eq_some_iff.mp hvalue
      obtain ⟨-, rfl⟩ := Prod.mk.inj hparts
      exact trimmed_append_of_mem (List.mem_append_right _ hd) hdelimiter

/-! ## Values and what follows them -/

/-- A value that is redacted as a whole. -/
structure IsValue (value : List Char) : Prop where
  ne_nil : value ≠ []
  head : ∀ c ∈ value.head?, isLead c = false
  last : ∀ c ∈ value.getLast?, isWhitespace c = false
  plain : ∀ c ∈ value, isDelimiter c = false

theorem IsValue.trimmed {value blank rest : List Char} (h : IsValue value)
    (hcloses : Closes blank rest) : trimmed (value ++ (blank ++ rest)) = value := by
  rw [trimmed_append_of_closes h.plain hcloses, trimEnd_eq_self h.last]

/-- A separator and a value are read where a name is found. -/
theorem afterName_value {front value blank rest : List Char} {prev : Option Char}
    (hfront : IsSeparator front) (h : IsValue value) (hcloses : Closes blank rest)
    (hprev : prev.any (isWord beyond) = false) :
    afterName beyond prev (front ++ (value ++ (blank ++ rest))) =
      (front ++ redacted, front.length + value.length) := by
  have hseparator : separator (front ++ (value ++ (blank ++ rest))) =
      some (front, value ++ (blank ++ rest)) := by
    refine separator_eq_some.mpr ⟨rfl, hfront, fun c hc ↦ ?_⟩
    obtain ⟨d, value, rfl⟩ := List.exists_cons_of_ne_nil h.ne_nil
    exact h.head c hc
  rw [afterName, hseparator]
  simp only [hprev, Bool.false_eq_true, if_false, h.trimmed hcloses, h.ne_nil]

/-- What goes on as a name does is not separated from it. -/
theorem separator_of_name {a b : List Char} (h : ∀ c ∈ a, isNameChar c = true)
    (hne : a ≠ []) : separator (a ++ b) = none := by
  obtain ⟨c, a, rfl⟩ := List.exists_cons_of_ne_nil hne
  have hc := h c List.mem_cons_self
  have hlead : isLead c = false := by
    rw [Bool.eq_false_iff]
    intro hlead
    rw [isNameChar_of_isLead hlead] at hc
    cases hc
  have hseparating : ¬(c = ':' ∨ c = '=') := by
    rintro (rfl | rfl)
    · exact absurd hc (by decide)
    · exact absurd hc (by decide)
  rw [List.cons_append, separator, List.dropWhile_cons_of_neg (by rw [hlead]; exact
    Bool.false_ne_true)]
  exact if_neg hseparating

/-- At a name, a rule sees the name, or it reads the name, the separator and the value. -/
theorem named_within_or_reads_value (hname : IsName name) {s front : List Char}
    (hs : ∀ c ∈ s, isNameChar c = true) (hfront : IsSeparator front) (prev : Option Char) :
    (∀ b, (namedRule beyond name).Within s (front ++ b) prev) ∨
    ∀ value blank rest, IsValue value → Closes blank rest →
      namedRule beyond name prev (s ++ (front ++ (value ++ (blank ++ rest)))) =
        some (s ++ (front ++ redacted), s.length + (front.length + value.length)) := by
  by_cases hreads : s.map Char.toLower = name ∧ prev.any (isWord beyond) = false
  · refine .inr fun value blank rest hvalue hcloses ↦ ?_
    rw [namedRule_found hreads.1, afterName_value hfront hvalue hcloses hreads.2]
  · refine .inl fun b ↦ named_within hname ?_ prev fun found rest hline hfound ↦ ?_
    · refine .inr fun c hc ↦ ?_
      have hmem : c ∈ front := by
        obtain ⟨d, front, rfl⟩ := List.exists_cons_of_ne_nil (separator_ne_nil hfront)
        obtain rfl := Option.some.inj hc
        exact List.mem_cons_self
      rcases mem_separator hfront hmem with hlead | hseparating
      · exact isNameChar_of_isLead hlead
      · exact isNameChar_of_isSeparating hseparating
    · cases rest with
      | cons c rest =>
        have hrest : ∀ d ∈ c :: rest, isNameChar d = true :=
          fun d hd ↦ hs d (hline ▸ List.mem_append_right found hd)
        have halone := separator_of_name (b := []) hrest (List.cons_ne_nil _ _)
        rw [List.append_nil] at halone
        rw [afterName, afterName, separator_of_name hrest (List.cons_ne_nil _ _), halone]
      | nil =>
        rw [List.append_nil] at hline
        subst hline
        have hword : prev.any (isWord beyond) = true :=
          Bool.of_not_eq_false fun hword ↦ hreads ⟨hfound, hword⟩
        have hskip (text : List Char) : afterName beyond prev text = ([], 0) := by
          rw [afterName]
          split
          · rfl
          · rw [if_pos hword]
        rw [hskip, hskip]

/-- A text that ends with a credential name and at most its separator. -/
def Unfinished (text : List Char) : Prop :=
  ∃ front found rest, text = front ++ (found ++ rest) ∧
    (∃ name ∈ credentialNames, found.map Char.toLower = name.toList) ∧
    ((∀ c ∈ rest, isLead c = true) ∨ IsSeparator rest)

/-- A text with no value at its front. -/
def Settles (text : List Char) : Prop := trimmed (text.dropWhile isLead) = []

private theorem separator_of_settles {text : List Char} (h : Settles text) :
    separator text = none := by
  rw [Settles] at h
  rw [separator]
  split
  · rfl
  · next c region hregion =>
    refine if_neg fun hc ↦ ?_
    rw [hregion, trimmed, trimEnd_eq_nil_iff] at h
    have hkept : (!isDelimiter c) = true := by
      rcases hc with rfl | rfl
      · decide
      · decide
    have hwhite := h c (by simp only [List.takeWhile_cons, hkept, if_true, List.mem_cons, true_or])
    rcases hc with rfl | rfl
    · exact absurd hwhite (by decide)
    · exact absurd hwhite (by decide)

private theorem settles_append {blank rest : List Char} (hcloses : Closes blank rest)
    (h : (∀ c ∈ blank, isLead c = true) → Settles rest) : Settles (blank ++ rest) := by
  by_cases hlead : ∀ c ∈ blank, isLead c = true
  · rw [Settles, List.dropWhile_append_of_pos hlead]
    exact h hlead
  · have hstop : ∃ c ∈ blank, isLead c = false := by
      simpa only [not_forall, exists_prop, Bool.not_eq_true] using hlead
    obtain ⟨c, hc, hfalse⟩ := hstop
    have hrest : Closes (blank.dropWhile isLead) rest :=
      ⟨fun d hd ↦ hcloses.blank d ((List.dropWhile_sublist _).subset hd), hcloses.rest⟩
    rw [Settles, (takeWhile_append_of_mem hc hfalse).2]
    exact trimmed_append_of_closes (a := []) (fun d hd ↦ by cases hd) hrest

private theorem isLead_of_value {c : Char} (hwhite : isWhitespace c = false)
    (hplain : isDelimiter c = false) : isLead c = false := by
  rw [Bool.eq_false_iff]
  intro hlead
  rw [isWhitespace_of_isLead hlead hplain] at hwhite
  cases hwhite

private theorem isSeparator_front {a more : List Char} (h : IsSeparator (a ++ more))
    (hlast : ∀ c ∈ a.getLast?, isLead c = false) :
    a = [] ∨ IsSeparator a ∧ ∀ c ∈ more, isLead c = true := by
  by_cases hne : a = []
  · exact .inl hne
  · obtain ⟨blank, c, lead, hline, hblank, hc, hlead⟩ := h
    have hstop : a.getLast hne ∉ blank := by
      intro hmem
      have hfalse := hlast _ (List.getLast?_eq_some_getLast hne)
      rw [hblank _ hmem] at hfalse
      cases hfalse
    rcases List.append_eq_append_iff.mp hline with ⟨between, hfront, -⟩ | ⟨between, hfront, hback⟩
    · exact (hstop (hfront ▸ List.mem_append_left between (List.getLast_mem hne))).elim
    · cases between with
      | nil =>
        rw [List.append_nil] at hfront
        exact (hstop (hfront ▸ List.getLast_mem hne)).elim
      | cons e between =>
        obtain ⟨rfl, rfl⟩ := List.cons.inj hback
        have hparts := List.forall_mem_append.mp hlead
        exact .inr ⟨⟨blank, c, between, hfront, hblank, hc, hparts.1⟩, hparts.2⟩

private theorem separator_ne_none {a b : List Char} {parts : List Char × List Char}
    (h : separator a = some parts) : separator (a ++ b) ≠ none := by
  obtain ⟨front, value⟩ := parts
  obtain ⟨rfl, hfront, hvalue⟩ := separator_eq_some.mp h
  cases value with
  | cons c value =>
    rw [separator_eq_some.mpr ⟨List.append_assoc _ _ _, hfront, hvalue⟩]
    exact Option.some_ne_none _
  | nil =>
    obtain ⟨start, c, lead, rfl, hstart, hc, hlead⟩ := hfront
    have hsome : separator (start ++ c :: lead ++ [] ++ b) =
        some (start ++ c :: (lead ++ b.takeWhile isLead), b.dropWhile isLead) := by
      refine separator_eq_some.mpr ⟨?_, ⟨start, c, _, rfl, hstart, hc, ?_⟩,
        fun d hd ↦ of_head?_dropWhile hd⟩
      · simp only [List.append_nil, List.append_assoc, List.cons_append,
          List.takeWhile_append_dropWhile]
      · exact List.forall_mem_append.mpr ⟨hlead, fun d hd ↦ List.mem_takeWhile_imp hd⟩
    rw [hsome]
    exact Option.some_ne_none _

/-- Before the end of a value, a rule sees a part, or it keeps the part and the blanks and quotes
that follow. -/
theorem named_within_or_keeps {name : String} (hmem : name ∈ credentialNames)
    {value blank rest s : List Char} (hvalue : IsValue value) (hcloses : Closes blank rest)
    (hreach : Unfinished (value ++ blank) → Settles rest) (hs : s <:+ value) (hne : s ≠ [])
    (prev : Option Char) :
    (namedRule beyond name.toList).Within s (blank ++ rest) prev ∨
      (namedRule beyond name.toList).Keeps s (blank ++ rest) prev := by
  have hname := isName_of_mem hmem
  have hapart : Apart s (blank ++ rest) := .inr fun c hc ↦ (hcloses.head c hc).1
  cases hstarts : startsWith name.toList s with
  | false =>
    refine .inl (named_within hname hapart prev fun found more hline hfound ↦ ?_)
    rw [startsWith_iff.mpr ⟨found, more, hline, hfound⟩] at hstarts
    cases hstarts
  | true =>
    obtain ⟨found, more, rfl, hfound⟩ := startsWith_iff.mp hstarts
    obtain ⟨front, rfl⟩ := hs
    have hmore : ∀ c ∈ more, isDelimiter c = false := fun c hc ↦
      hvalue.plain c (List.mem_append_right _ (List.mem_append_right _ hc))
    have hlast : ∀ c ∈ more.getLast?, isLead c = false := by
      intro c hc
      refine isLead_of_value (hvalue.last c ?_) (hmore c (List.mem_of_mem_getLast? hc))
      rw [List.getLast?_append, List.getLast?_append, Option.mem_def.mp hc]
      rfl
    have hfinish (h : (∀ c ∈ more, isLead c = true) ∨ IsSeparator more)
        (hlead : ∀ c ∈ blank, isLead c = true) : Settles rest := by
      refine hreach ⟨front, found, more ++ blank, by simp only [List.append_assoc],
        ⟨name, hmem, hfound⟩, ?_⟩
      rcases h with h | ⟨start, c, lead, rfl, hstart, hc, hrest⟩
      · exact .inl (List.forall_mem_append.mpr ⟨h, hlead⟩)
      · exact .inr ⟨start, c, lead ++ blank, by simp only [List.append_assoc, List.cons_append],
          hstart, hc, List.forall_mem_append.mpr ⟨hrest, hlead⟩⟩
    have hsame (h : afterName beyond prev (more ++ (blank ++ rest)) = afterName beyond prev more) :
        (namedRule beyond name.toList).Within (found ++ more) (blank ++ rest) prev := by
      refine named_within hname hapart prev fun found' more' hline hfound' ↦ ?_
      rwa [← rest_of_found hfound hfound' hline]
    have hskip {text : List Char} (h : separator text = none ∨ prev.any (isWord beyond) = true) :
        afterName beyond prev text = ([], 0) := by
      rw [afterName]
      split
      · rfl
      · next hsome =>
        rcases h with h | h
        · rw [hsome] at h
          cases h
        · rw [if_pos h]
    cases hboth : separator (more ++ (blank ++ rest)) with
    | none =>
      have hmore : separator more = none := by
        cases hmore : separator more with
        | none => rfl
        | some parts => exact (separator_ne_none hmore hboth).elim
      exact .inl (hsame ((hskip (.inl hboth)).trans (hskip (.inl hmore)).symm))
    | some parts =>
      obtain ⟨start, text⟩ := parts
      obtain ⟨hline, hseparator, hhead⟩ := separator_eq_some.mp hboth
      rcases List.append_eq_append_iff.mp hline with ⟨extra, rfl, hback⟩ | ⟨extra, rfl, rfl⟩
      · rcases isSeparator_front hseparator hlast with rfl | ⟨hmoreseparator, hextra⟩
        · have hsettles := settles_append hcloses (hfinish (.inl fun c hc ↦ by cases hc))
          rw [List.nil_append, separator_of_settles hsettles] at hboth
          cases hboth
        · by_cases hword : prev.any (isWord beyond) = true
          · exact .inl (hsame ((hskip (.inr hword)).trans (hskip (.inr hword)).symm))
          · have hsettles := settles_append hcloses (hfinish (.inr hmoreseparator))
            have htext : trimmed text = [] := by
              have hdrop := @takeWhile_append_of_head isLead extra text hhead
              rw [Settles, hback, hdrop.2, List.dropWhile_eq_nil_iff.mpr hextra] at hsettles
              exact hsettles
            have halone : separator more = some (more, []) :=
              separator_eq_some.mpr ⟨(List.append_nil _).symm, hmoreseparator,
                fun c hc ↦ by cases hc⟩
            have hnil : trimmed [] = [] := rfl
            refine .inr ⟨Rule.scan_of_read hne ?_, extra, text, hback, ?_, ?_⟩
            · rw [namedRule_found hfound, afterName, halone]
              simp only [hword, hnil, if_true, if_false, Bool.false_eq_true, List.length_append]
            · exact fun c hc ↦ namedRule_inert hname (isNameChar_of_isLead (hextra c hc))
            · rw [List.append_assoc, namedRule_found hfound, afterName, hboth]
              simp only [hword, htext, if_true, if_false, Bool.false_eq_true, List.length_append,
                List.append_assoc, Nat.add_assoc]
      · have halone : separator (start ++ extra) = some (start, extra) := by
          refine separator_eq_some.mpr ⟨rfl, hseparator, fun c hc ↦ ?_⟩
          cases extra with
          | nil => cases hc
          | cons d extra => exact hhead c hc
        refine .inl (hsame (afterName_append prev (by rw [hboth, halone]; rfl) ?_))
        intro start' value' hvalue'
        rw [halone, Option.some.injEq, Prod.mk.injEq] at hvalue'
        obtain ⟨rfl, rfl⟩ := hvalue'
        have hextra : ∀ c ∈ extra, isDelimiter c = false :=
          fun c hc ↦ hmore c (List.mem_append_right _ hc)
        rw [trimmed_append_of_closes hextra hcloses, trimmed_of_plain hextra]

end

end NullRouter.Logship
