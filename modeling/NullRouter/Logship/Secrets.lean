import NullRouter.Logship.Bearer

/-!
# Lines that differ in a secret

Two lines that differ in the value of a credential field, through the passes of the scrubber,
`crates/logship/src/scrub.rs:65`: each pass leaves them the same, or lines that again differ in the
value of that field, until the pass for its name leaves them the same.
-/

namespace NullRouter.Logship

open NullRouter.Base

/-! ## What every pass keeps -/

/-- What is known of a pass: it marks what it takes out, begins only at names, and sees past neither
what stands before an opening quote nor a value. -/
structure IsPass (rule : Rule Char) : Prop where
  marks : rule.Marks redacted
  inert : ∀ c, isNameChar c = false → rule.Inert c
  quotes : ∀ front quotes, Opens front quotes → ∀ s, s <:+ front → s ≠ [] → ∀ prev,
    rule.Within s quotes prev ∨ rule.Keeps s quotes prev
  value : ∀ value blank rest, IsValue value → Closes blank rest →
    (Unfinished (value ++ blank) → Settles rest) → ∀ s, s <:+ value → s ≠ [] → ∀ prev,
      rule.Within s (blank ++ rest) prev ∨ rule.Keeps s (blank ++ rest) prev

theorem isPass_named (beyond : Char → Bool) {name : String} (h : name ∈ credentialNames) :
    IsPass (namedRule beyond name.toList) where
  marks := namedRule_marks (isName_of_mem h)
  inert _ := namedRule_inert (isName_of_mem h)
  quotes _ _ hopens _ hs _ prev := .inl (hopens.within_quotes (isName_of_mem h) hs prev)
  value _ _ _ hvalue hcloses hreach _ hs hne prev :=
    named_within_or_keeps h hvalue hcloses hreach hs hne prev

private theorem ne_space {c : Char} (h : isLead c = false ∨ isWhitespace c = false) : c ≠ ' ' := by
  rintro rfl
  rcases h with h | h
  · exact absurd h (by decide)
  · exact absurd h (by decide)

theorem isPass_bearer : IsPass bearerRule where
  marks := bearerRule_marks
  inert c h := by
    apply bearerRule_inert
    intro hb
    have hname : isNameChar c.toLower = true := by
      rw [hb]
      decide
    rw [isNameChar_of_toLower hname] at h
    cases h
  quotes front quotes hopens s hs hne prev := by
    have hhead : ∀ c ∈ quotes, isTokenChar c = false :=
      fun c hc ↦ isTokenChar_of_isLead (hopens.lead c hc)
    refine bearer_within_or_keeps hne ?_ ?_ ?_ prev
    · intro c hc
      obtain ⟨start, rfl⟩ := hs
      refine ne_space (.inl (hopens.front c ?_).1)
      rwa [List.getLast?_append_of_ne_nil _ hne]
    · exact fun c hc ↦ hhead c (List.mem_of_mem_head? hc)
    · rintro rest rfl c hc
      exact hhead c (List.mem_cons_of_mem _ (List.mem_of_mem_head? hc))
  value value blank rest hvalue hcloses _ s hs hne prev := by
    refine bearer_within_or_keeps hne ?_ (fun c hc ↦ (hcloses.head c hc).2) ?_ prev
    · intro c hc
      obtain ⟨start, rfl⟩ := hs
      refine ne_space (.inr (hvalue.last c ?_))
      rwa [List.getLast?_append_of_ne_nil _ hne]
    · intro more hmore
      cases blank with
      | nil =>
        rw [List.nil_append] at hmore
        have hspace := hcloses.rest ' ' (by rw [hmore]; rfl)
        exact absurd hspace (by decide)
      | cons d blank =>
        obtain ⟨-, rfl⟩ := List.cons.inj hmore
        have hmore : Closes blank rest :=
          ⟨fun c hc ↦ hcloses.blank c (List.mem_cons_of_mem d hc), hcloses.rest⟩
        exact fun c hc ↦ (hmore.head c hc).2

section

variable {rule : Rule Char} (h : IsPass rule)

include h

private theorem last_scan {prev : Option Char} {text : List Char} {c : Char}
    (hc : c ∈ (rule.scan prev 0 text).getLast?) : c ∈ text.getLast? ∨ c = ']' := by
  rcases Rule.scan_eq_or h.marks prev (Nat.zero_le text.length) with
    hsame | ⟨read, kept, written, rfl, hmark⟩
  · rw [hsame, List.drop_zero] at hc
    exact .inl hc
  · rw [hmark] at hc
    by_cases hkept : kept = []
    · subst hkept
      have hlast : redacted = "[redacted".toList ++ [']'] := by decide +kernel
      rw [List.append_nil, hlast, ← List.append_assoc, List.getLast?_append,
        List.getLast?_singleton, Option.some_or] at hc
      exact .inr (Option.some.inj hc).symm
    · rw [List.getLast?_append_of_ne_nil _ hkept] at hc
      rw [List.getLast?_append_of_ne_nil _ hkept]
      exact .inl hc

/-- An opening quote stays one. -/
theorem IsPass.opens {front quotes : List Char} (hopens : Opens front quotes) :
    ∃ front', rule.scan none 0 (front ++ quotes) = front' ++ quotes ∧ Opens front' quotes := by
  have hinert : ∀ c ∈ quotes, rule.Inert c :=
    fun c hc ↦ h.inert c (isNameChar_of_isLead (hopens.lead c hc))
  refine ⟨rule.scan none 0 front, ?_, hopens.lead, hopens.quote, ?_⟩
  · rw [Rule.scan_append (h.quotes front quotes hopens) (Nat.zero_le _), Rule.scan_of_inert hinert]
  · intro c hc
    rcases last_scan h hc with hc | rfl
    · exact hopens.front c hc
    · decide

/-- A value stays one. -/
theorem IsPass.isValue {value : List Char} (hvalue : IsValue value) (prev : Option Char) :
    IsValue (rule.scan prev 0 value) where
  ne_nil := by
    intro hnil
    have hhead := Rule.head?_scan h.marks prev value
    rw [hnil, List.head?_nil] at hhead
    exact hvalue.ne_nil (List.head?_eq_none_iff.mp hhead.symm)
  head := by
    intro c hc
    rw [Rule.head?_scan h.marks] at hc
    exact hvalue.head c hc
  last := by
    intro c hc
    rcases last_scan h hc with hc | rfl
    · exact hvalue.last c hc
    · decide
  plain := by
    intro c hc
    rcases Rule.mem_scan h.marks hc with hc | hc
    · exact hvalue.plain c hc
    · have hall : ∀ c ∈ redacted, isDelimiter c = false :=
        forall_mem_of_all (by decide +kernel)
      exact hall c hc

/-- What closes a value does so afterwards. -/
theorem IsPass.closes {blank rest : List Char} (hcloses : Closes blank rest) :
    Closes blank (rule.scan none 0 rest) := by
  refine ⟨hcloses.blank, fun c hc ↦ hcloses.rest c ?_⟩
  rwa [Rule.head?_scan h.marks] at hc

/-- A value that is finished is finished afterwards. -/
theorem IsPass.unfinished {value blank : List Char} {prev : Option Char}
    (hunfinished : Unfinished (rule.scan prev 0 value ++ blank)) :
    Unfinished (value ++ blank) := by
  rcases Rule.scan_eq_or h.marks prev (Nat.zero_le value.length) with
    hsame | ⟨read, kept, written, rfl, hmark⟩
  · rwa [hsame, List.drop_zero] at hunfinished
  · obtain ⟨front, found, rest, hline, ⟨name, hmem, hfound⟩, hrest⟩ := hunfinished
    have hbracket : ']' ∉ found ++ rest := by
      rw [List.mem_append]
      rintro (hin | hin)
      · exact absurd (isNameChar_of_found (isName_of_mem hmem).chars hfound _ hin) (by decide)
      · rcases hrest with hlead | hseparator
        · exact absurd (hlead _ hin) (by decide)
        · rcases mem_separator hseparator hin with hin | hin
          · exact absurd hin (by decide)
          · exact absurd hin (by decide)
    have hlast : redacted = "[redacted".toList ++ [']'] := by decide +kernel
    rw [hmark, hlast] at hline
    have hline : (written ++ "[redacted".toList) ++ ']' :: (kept ++ blank) =
        front ++ (found ++ rest) := by
      rw [← hline]
      simp only [List.append_assoc, List.cons_append, List.nil_append]
    rcases List.append_eq_append_iff.mp hline with ⟨more, hfront, hback⟩ | ⟨more, hfront, hback⟩
    · cases more with
      | nil => exact (hbracket (by rw [List.nil_append] at hback; rw [← hback]; exact
          List.mem_cons_self)).elim
      | cons c more =>
        obtain ⟨-, htail⟩ := List.cons.inj hback
        refine ⟨read ++ more, found, rest, ?_, ⟨name, hmem, hfound⟩, hrest⟩
        rw [List.append_assoc, htail, List.append_assoc]
        rfl
    · exact (hbracket (hback ▸ List.mem_append_right more List.mem_cons_self)).elim

/-- What has no value at its front has none afterwards. -/
theorem IsPass.settles {rest : List Char} (hsettles : Settles rest) :
    Settles (rule.scan none 0 rest) := by
  have hparts := List.takeWhile_append_dropWhile (p := isLead) (l := rest)
  have hregion := List.takeWhile_append_dropWhile (p := fun c ↦ !isDelimiter c)
    (l := rest.dropWhile isLead)
  have hwhite := trimEnd_eq_nil_iff.mp hsettles
  have hlead : ∀ c ∈ rest.takeWhile isLead, isLead c = true := fun c hc ↦ List.mem_takeWhile_imp hc
  have hblank : ∀ c ∈ (rest.dropWhile isLead).takeWhile fun c ↦ !isDelimiter c,
      isWhitespace c = true ∧ isDelimiter c = false := by
    intro c hc
    have hnot := List.mem_takeWhile_imp hc
    rw [Bool.not_eq_true'] at hnot
    exact ⟨hwhite c hc, hnot⟩
  have hstop : ∀ c ∈ ((rest.dropWhile isLead).dropWhile fun c ↦ !isDelimiter c).head?,
      isDelimiter c = true := by
    intro c hc
    have hnot := of_head?_dropWhile hc
    rwa [Bool.not_eq_false'] at hnot
  have hhead : ∀ c ∈ (rest.dropWhile isLead).head?, isLead c = false := fun c ↦ of_head?_dropWhile
  generalize rest.takeWhile isLead = lead at hparts hlead
  generalize (rest.dropWhile isLead).takeWhile (fun c ↦ !isDelimiter c) = blank at hregion hblank
  generalize (rest.dropWhile isLead).dropWhile (fun c ↦ !isDelimiter c) = close at hregion hstop
  rw [← hregion] at hparts hhead
  have hscan : rule.scan none 0 rest = lead ++ (blank ++ rule.scan none 0 close) := by
    rw [← hparts, Rule.scan_append_of_inert fun c hc ↦ h.inert c (isNameChar_of_isLead (hlead c hc)),
      Rule.scan_append_of_inert fun c hc ↦
        h.inert c (isNameChar_of_isWhitespace (hblank c hc).1),
      Rule.scan_congr_before fun c hc ↦ h.inert c (isNameChar_of_isDelimiter (hstop c hc))]
  have hcloses : Closes blank (rule.scan none 0 close) := h.closes ⟨hblank, hstop⟩
  have hfirst : ∀ c ∈ (blank ++ rule.scan none 0 close).head?, isLead c = false := by
    intro c hc
    rw [List.head?_append, Rule.head?_scan h.marks, ← List.head?_append] at hc
    exact hhead c hc
  have hdrop : (blank ++ rule.scan none 0 close).dropWhile isLead =
      blank ++ rule.scan none 0 close := (takeWhile_append_of_head (a := []) hfirst).2
  rw [Settles, hscan, List.dropWhile_append_of_pos hlead, hdrop]
  exact trimmed_append_of_closes (a := []) (fun c hc ↦ by cases hc) hcloses

/-- What follows a name is scanned as a separator, a value, and what closes the value. -/
theorem IsPass.scan_value {separator value blank rest : List Char}
    (hseparator : IsSeparator separator) (hvalue : IsValue value) (hcloses : Closes blank rest)
    (hreach : Unfinished (value ++ blank) → Settles rest) (prev : Option Char) :
    rule.scan prev 0 (separator ++ (value ++ (blank ++ rest))) = separator ++
      (rule.scan (Rule.before prev separator) 0 value ++ (blank ++ rule.scan none 0 rest)) := by
  have hinert : ∀ c ∈ separator, rule.Inert c := by
    intro c hc
    rcases mem_separator hseparator hc with hlead | hseparating
    · exact h.inert c (isNameChar_of_isLead hlead)
    · exact h.inert c (isNameChar_of_isSeparating hseparating)
  have hblank : ∀ c ∈ blank, rule.Inert c :=
    fun c hc ↦ h.inert c (isNameChar_of_isWhitespace (hcloses.blank c hc).1)
  have hrest : ∀ c ∈ rest.head?, rule.Inert c :=
    fun c hc ↦ h.inert c (isNameChar_of_isDelimiter (hcloses.rest c hc))
  rw [Rule.scan_append_of_inert hinert,
    Rule.scan_append (h.value value blank rest hvalue hcloses hreach) (Nat.zero_le _),
    Rule.scan_append_of_inert hblank, Rule.scan_congr_before hrest _ none]

end

/-! ## Lines of a field -/

/-- A text with the value of a field in it. -/
def fieldLine (before name separator value blank rest : List Char) : List Char :=
  before ++ (name ++ (separator ++ (value ++ (blank ++ rest))))

/-- What stands about the value of a field: a name that stands alone, a separator whose quotes are
opened before the name, and what closes the value. -/
structure Around (beyond : Char → Bool) (before separator blank rest : List Char) : Prop where
  stands : ∀ c ∈ before.getLast?, isNameChar c = false ∧ isWord beyond c = false
  separates : IsSeparator separator
  opens : (∀ c ∈ separator, isDelimiter c = false) ∨
    ∃ front quotes, before = front ++ quotes ∧ Opens front quotes
  closes : Closes blank rest

/-- A value that is redacted as a whole, and does not reach over what closes it. -/
structure Holds (value blank rest : List Char) : Prop where
  isValue : IsValue value
  reach : Unfinished (value ++ blank) → Settles rest

/-- Two lines differ at most in the value of the field. -/
def Differ (beyond : Char → Bool) (name line₁ line₂ : List Char) : Prop :=
  ∃ before separator blank rest value₁ value₂,
    line₁ = fieldLine before name separator value₁ blank rest ∧
    line₂ = fieldLine before name separator value₂ blank rest ∧
    Around beyond before separator blank rest ∧ Holds value₁ blank rest ∧ Holds value₂ blank rest

section

variable {rule : Rule Char} {beyond : Char → Bool} {before name separator blank rest : List Char}

/-- What a pass leaves about a value. -/
theorem IsPass.around (h : IsPass rule) (haround : Around beyond before separator blank rest) :
    Around beyond (rule.scan none 0 before) separator blank (rule.scan none 0 rest) where
  stands := by
    intro c hc
    rcases last_scan h hc with hc | rfl
    · exact haround.stands c hc
    · exact ⟨by decide, rfl⟩
  separates := haround.separates
  opens := by
    rcases haround.opens with hplain | ⟨front, quotes, rfl, hopens⟩
    · exact .inl hplain
    · obtain ⟨front', hline, hopens'⟩ := h.opens hopens
      exact .inr ⟨front', quotes, hline, hopens'⟩
  closes := h.closes haround.closes

/-- What a pass leaves of a value. -/
theorem IsPass.holds (h : IsPass rule) {value : List Char} (hvalue : Holds value blank rest)
    (prev : Option Char) : Holds (rule.scan prev 0 value) blank (rule.scan none 0 rest) where
  isValue := h.isValue hvalue.isValue prev
  reach hunfinished := h.settles (hvalue.reach (h.unfinished hunfinished))

/-- A pass that goes over the text before the name and the name leaves lines that differ so. -/
theorem IsPass.differ (h : IsPass rule) {value₁ value₂ : List Char} {prev : Option Char}
    (haround : Around beyond before separator blank rest) (h₁ : Holds value₁ blank rest)
    (h₂ : Holds value₂ blank rest)
    (hline : ∀ value ∈ [value₁, value₂],
      rule.scan none 0 (fieldLine before name separator value blank rest) =
        rule.scan none 0 before ++
          (name ++ rule.scan prev 0 (separator ++ (value ++ (blank ++ rest))))) :
    Differ beyond name (rule.scan none 0 (fieldLine before name separator value₁ blank rest))
      (rule.scan none 0 (fieldLine before name separator value₂ blank rest)) := by
  have hparts (value : List Char) (hmem : value ∈ [value₁, value₂])
      (hvalue : Holds value blank rest) :
      rule.scan none 0 (fieldLine before name separator value blank rest) =
        fieldLine (rule.scan none 0 before) name separator
          (rule.scan (Rule.before prev separator) 0 value) blank (rule.scan none 0 rest) := by
    rw [hline value hmem,
      h.scan_value haround.separates hvalue.isValue haround.closes hvalue.reach]
    rfl
  exact ⟨_, _, _, _, _, _, hparts value₁ List.mem_cons_self h₁,
    hparts value₂ (List.mem_cons_of_mem _ List.mem_cons_self) h₂, h.around haround, h.holds h₁ _,
    h.holds h₂ _⟩

/-! ## The passes, one after another -/

/-- The pass for bearer tokens leaves lines that differ so. -/
theorem differ_bearer {value₁ value₂ : List Char} {credential : String}
    (hmem : credential ∈ credentialNames) (hname : name.map Char.toLower = credential.toList)
    (haround : Around beyond before separator blank rest) (hfrees : Frees before name separator)
    (h₁ : Holds value₁ blank rest) (h₂ : Holds value₂ blank rest) :
    Differ beyond name (bearerRule.scan none 0 (fieldLine before name separator value₁ blank rest))
      (bearerRule.scan none 0 (fieldLine before name separator value₂ blank rest)) := by
  have hbefore : ∀ s, s <:+ before → s ≠ [] → ∀ c ∈ s.getLast?, isNameChar c = false := by
    rintro s ⟨start, rfl⟩ hne c hc
    refine (haround.stands c ?_).1
    rwa [List.getLast?_append_of_ne_nil _ hne]
  have hinert := bearerRule_inert_of_name hmem hname
  have hline (value : List Char) :
      bearerRule.scan none 0 (fieldLine before name separator value blank rest) =
        bearerRule.scan none 0 before ++
          (name ++ bearerRule.scan (Rule.before (Rule.before none before) name) 0
            (separator ++ (value ++ (blank ++ rest)))) := by
    rw [fieldLine, Rule.scan_append (fun s hs hne ↦ ?_) (Nat.zero_le _),
      Rule.scan_append_of_inert hinert]
    exact bearer_within_or_keeps_name hmem hname (separator_ne_nil haround.separates) hfrees hs hne
      (hbefore s hs hne)
  exact isPass_bearer.differ haround h₁ h₂ fun value _ ↦ hline value

private theorem scan_name {n : List Char} (hn : IsName n) (hname : ∀ c ∈ name, isNameChar c = true)
    (prev : Option Char) : (namedRule beyond n).scan prev 0 name = name := by
  refine Rule.scan_of_kept (fun t ht prev written read hread ↦ ?_) prev (Nat.zero_le _)
  cases hstarts : startsWith n t with
  | false =>
    rw [namedRule_none hstarts] at hread
    cases hread
  | true =>
    obtain ⟨found, more, rfl, hfound⟩ := startsWith_iff.mp hstarts
    have hpos : 0 < found.length := by
      apply List.length_pos_iff.mpr
      rintro rfl
      exact hn.ne_nil hfound.symm
    have hmore : afterName beyond prev more = ([], 0) := by
      cases more with
      | nil => rfl
      | cons c more =>
        have halone := separator_of_name (b := []) (a := c :: more)
          (fun d hd ↦ hname d (ht.subset (List.mem_append_right found hd))) (List.cons_ne_nil _ _)
        rw [List.append_nil] at halone
        rw [afterName, halone]
    rw [namedRule_found hfound, hmore, List.append_nil, Nat.add_zero, Option.some.injEq,
      Prod.mk.injEq] at hread
    obtain ⟨rfl, rfl⟩ := hread
    rw [List.length_append, List.take_left]
    exact ⟨hpos, Nat.le_add_right _ _, rfl⟩

private theorem scan_before {n : List Char} {value₁ value₂ : List Char} (hn : IsName n)
    (hname : ∀ c ∈ name, isNameChar c = true) (hne : name ≠ [])
    (haround : Around beyond before separator blank rest)
    (h₁ : Holds value₁ blank rest) (h₂ : Holds value₂ blank rest) :
    let after (value : List Char) := name ++ (separator ++ (value ++ (blank ++ rest)))
    (namedRule beyond n).scan none 0 (before ++ after value₁) =
        (namedRule beyond n).scan none 0 (before ++ after value₂) ∨
      ((namedRule beyond n).scan none 0 (before ++ after value₁) =
        (namedRule beyond n).scan none 0 before ++
          (namedRule beyond n).scan (Rule.before none before) 0 (after value₁) ∧
      (namedRule beyond n).scan none 0 (before ++ after value₂) =
        (namedRule beyond n).scan none 0 before ++
          (namedRule beyond n).scan (Rule.before none before) 0 (after value₂)) := by
  intro after
  have hbegins (text : List Char) : Begins (name ++ text) := by
    obtain ⟨d, name, rfl⟩ := List.exists_cons_of_ne_nil hne
    intro c hc
    obtain rfl := Option.some.inj hc
    have hd := hname d List.mem_cons_self
    refine ⟨Bool.eq_false_iff.mpr fun hlead ↦ ?_, Bool.eq_false_iff.mpr fun hseparating ↦ ?_⟩
    · rw [isNameChar_of_isLead hlead] at hd
      cases hd
    · rw [isNameChar_of_isSeparating hseparating] at hd
      cases hd
  refine Rule.scan_append_or (fun s hs hsne prev ↦ ?_) (Nat.zero_le _)
  rcases haround.opens with hplain | ⟨front, quotes, rfl, hopens⟩
  · have hlast : ∀ c ∈ s.getLast?, isNameChar c = false := by
      obtain ⟨start, rfl⟩ := hs
      intro c hc
      refine (haround.stands c ?_).1
      rwa [List.getLast?_append_of_ne_nil _ hsne]
    rcases @named_within_or_reads beyond n hn s hlast hsne prev with hwithin | ⟨written, hreads⟩
    · exact .inl ⟨hwithin _ (hbegins _), hwithin _ (hbegins _)⟩
    · have hread (value : List Char) (hvalue : IsValue value) :
          namedRule beyond n prev (s ++ after value) =
            some (written, s.length + (name ++ (separator ++ value)).length) := by
        have hword : after value = (name ++ (separator ++ value)) ++ (blank ++ rest) := by
          simp only [after, List.append_assoc]
        rw [hword]
        refine hreads _ blank rest (hbegins _) ?_ ?_ ?_ haround.closes
        · exact List.append_ne_nil_of_left_ne_nil hne _
        · refine List.forall_mem_append.mpr ⟨fun c hc ↦ ?_,
            List.forall_mem_append.mpr ⟨hplain, hvalue.plain⟩⟩
          refine Bool.eq_false_iff.mpr fun hd ↦ ?_
          have hc := hname c hc
          rw [isNameChar_of_isDelimiter hd] at hc
          cases hc
        · rw [List.getLast?_append_of_ne_nil _ (List.append_ne_nil_of_right_ne_nil _ hvalue.ne_nil),
            List.getLast?_append_of_ne_nil _ hvalue.ne_nil]
          exact hvalue.last
      refine .inr ⟨written, name ++ (separator ++ value₁), name ++ (separator ++ value₂),
        blank ++ rest, ?_, ?_, ?_, hread value₁ h₁.isValue, hread value₂ h₂.isValue⟩
      · simp only [after, List.append_assoc]
      · simp only [after, List.append_assoc]
      · exact fun c hc ↦ namedRule_inert hn (haround.closes.head c hc).1
  · exact .inl ⟨hopens.within hn (hbegins _) hs hsne prev, hopens.within hn (hbegins _) hs hsne prev⟩

/-- The pass for a name leaves the lines the same, or lines that differ so; the pass for the name of
the field leaves them the same. -/
theorem differ_named {n : String} {value₁ value₂ : List Char} {credential : String}
    (hn : n ∈ credentialNames) (hmem : credential ∈ credentialNames)
    (hname : name.map Char.toLower = credential.toList)
    (haround : Around beyond before separator blank rest) (h₁ : Holds value₁ blank rest)
    (h₂ : Holds value₂ blank rest) :
    scrubOneNamed beyond (fieldLine before name separator value₁ blank rest) n.toList =
        scrubOneNamed beyond (fieldLine before name separator value₂ blank rest) n.toList ∨
      n ≠ credential ∧
        Differ beyond name
          (scrubOneNamed beyond (fieldLine before name separator value₁ blank rest) n.toList)
          (scrubOneNamed beyond (fieldLine before name separator value₂ blank rest) n.toList) := by
  have hisName := isName_of_mem hn
  have hchars := isNameChar_of_found (isName_of_mem hmem).chars hname
  have hne : name ≠ [] := by
    rintro rfl
    exact (isName_of_mem hmem).ne_nil hname.symm
  have hmeets {s : List Char} {prev : Option Char}
      (hreads : ∀ value blank rest, IsValue value → Closes blank rest →
        namedRule beyond n.toList prev (s ++ (separator ++ (value ++ (blank ++ rest)))) =
          some (s ++ (separator ++ redacted), s.length + (separator.length + value.length))) :
      (namedRule beyond n.toList).Meets s (separator ++ (value₁ ++ (blank ++ rest)))
        (separator ++ (value₂ ++ (blank ++ rest))) prev := by
    refine ⟨s ++ (separator ++ redacted), separator ++ value₁, separator ++ value₂, blank ++ rest,
      (List.append_assoc _ _ _).symm, (List.append_assoc _ _ _).symm,
      fun c hc ↦ namedRule_inert hisName (haround.closes.head c hc).1, ?_, ?_⟩
    · rw [hreads value₁ blank rest h₁.isValue haround.closes, List.length_append]
    · rw [hreads value₂ blank rest h₂.isValue haround.closes, List.length_append]
  rcases scan_before hisName hchars hne haround h₁ h₂ with hsame | ⟨hfirst, hsecond⟩
  · exact .inl hsame
  · by_cases hown : n = credential
    · subst hown
      have hword : (Rule.before none before).any (isWord beyond) = false := by
        rw [Rule.before, Option.or_none]
        cases hlast : before.getLast? with
        | none => rfl
        | some c => exact (haround.stands c hlast).2
      have hreads : ∀ value blank rest, IsValue value → Closes blank rest →
          namedRule beyond n.toList (Rule.before none before)
              (name ++ (separator ++ (value ++ (blank ++ rest)))) =
            some (name ++ (separator ++ redacted),
              name.length + (separator.length + value.length)) := by
        intro value blank rest hvalue hcloses
        rw [namedRule_found hname, afterName_value haround.separates hvalue hcloses hword]
      refine .inl (hfirst.trans (Eq.trans ?_ hsecond.symm))
      rw [Rule.scan_eq_of_meets hne (hmeets hreads)]
    · have hname' : (namedRule beyond n.toList).scan (Rule.before none before) 0 name = name :=
        scan_name hisName hchars _
      have hparts := @Rule.scan_append_or _ (namedRule beyond n.toList) name
        (separator ++ (value₁ ++ (blank ++ rest))) (separator ++ (value₂ ++ (blank ++ rest)))
        (fun s hs _ prev ↦ by
          have hsname : ∀ c ∈ s, isNameChar c = true := fun c hc ↦ hchars c (hs.subset hc)
          rcases named_within_or_reads_value hisName hsname haround.separates prev with
            hwithin | hreads
          · exact .inl ⟨hwithin _, hwithin _⟩
          · exact .inr (hmeets hreads))
        (Rule.before none before) 0 (Nat.zero_le _)
      rw [hname'] at hparts
      rcases hparts with hsame | ⟨hone, htwo⟩
      · exact .inl (hfirst.trans (hsame ▸ hsecond.symm))
      · have hline : ∀ value ∈ [value₁, value₂],
            (namedRule beyond n.toList).scan none 0
                (fieldLine before name separator value blank rest) =
              (namedRule beyond n.toList).scan none 0 before ++
                (name ++ (namedRule beyond n.toList).scan
                  (Rule.before (Rule.before none before) name) 0
                  (separator ++ (value ++ (blank ++ rest)))) := by
          rw [List.forall_mem_cons, List.forall_mem_singleton]
          exact ⟨hfirst.trans (congrArg _ hone), hsecond.trans (congrArg _ htwo)⟩
        exact .inr ⟨hown, (isPass_named beyond hn).differ haround h₁ h₂ hline⟩

/-- The passes leave the same of lines that differ so, once the pass for the field's name is among
them. -/
theorem scrubNamed_eq_of_differ {credential : String} (hmem : credential ∈ credentialNames)
    (hname : name.map Char.toLower = credential.toList) {line₁ line₂ : List Char}
    (h : Differ beyond name line₁ line₂) : scrubNamed beyond line₁ = scrubNamed beyond line₂ := by
  have hfold : ∀ names : List String, (∀ n ∈ names, n ∈ credentialNames) → credential ∈ names →
      ∀ line₁ line₂, Differ beyond name line₁ line₂ →
        names.foldl (fun out name ↦ scrubOneNamed beyond out name.toList) line₁ =
          names.foldl (fun out name ↦ scrubOneNamed beyond out name.toList) line₂ := by
    intro names hnames hcredential
    induction names with
    | nil => cases hcredential
    | cons n names ih =>
      rw [List.forall_mem_cons] at hnames
      rintro _ _ ⟨before, separator, blank, rest, value₁, value₂, rfl, rfl, haround, h₁, h₂⟩
      rw [List.foldl_cons, List.foldl_cons]
      rcases differ_named hnames.1 hmem hname haround h₁ h₂ with hsame | ⟨hother, hdiffer⟩
      · rw [hsame]
      · refine ih hnames.2 ?_ _ _ hdiffer
        rcases List.mem_cons.mp hcredential with rfl | hrest
        · exact (hother rfl).elim
        · exact hrest
  exact hfold credentialNames (fun _ hn ↦ hn) hmem line₁ line₂ h

end

/-! ## Secrets -/

/-- A credential field as the scrubber knows one: a name that it looks for, in any casing, which
stands alone and is not itself of a bearer token, and a separator whose quotes are opened before the
name. -/
structure IsField (beyond : Char → Bool) (before name separator : List Char) : Prop where
  named : ∃ credential ∈ credentialNames, name.map Char.toLower = credential.toList
  stands : ∀ c ∈ before.getLast?, isNameChar c = false ∧ isWord beyond c = false
  separates : IsSeparator separator
  opens : (∀ c ∈ separator, isDelimiter c = false) ∨
    ∃ front quotes, before = front ++ quotes ∧ Opens front quotes
  frees : Frees before name separator

/-- A secret in a field: it does not end in a name that takes its value from behind the end of the
secret, and the pass for bearer tokens does not lose the end of the line. -/
structure IsSecret (before name separator after value : List Char) : Prop where
  isValue : IsValue value
  reach : Unfinished (value ++ after.takeWhile fun c ↦ !isDelimiter c) →
    Settles (after.dropWhile fun c ↦ !isDelimiter c)
  lossless : Lossless (before ++ (name ++ (separator ++ (value ++ after))))

section

variable {beyond : Char → Bool} {before name separator after : List Char}

private theorem IsSecret.holds {value : List Char}
    (h : IsSecret before name separator after value) :
    let region := after.takeWhile fun c ↦ !isDelimiter c
    Holds (value ++ trimEnd region) (region.rtakeWhile isWhitespace)
      (after.dropWhile fun c ↦ !isDelimiter c) := by
  intro region
  have hregion : ∀ c ∈ trimEnd region, isDelimiter c = false := by
    intro c hc
    have hnot := List.mem_takeWhile_imp ((List.rdropWhile_prefix isWhitespace _).subset hc)
    rwa [Bool.not_eq_true'] at hnot
  refine ⟨⟨?_, ?_, ?_, List.forall_mem_append.mpr ⟨h.isValue.plain, hregion⟩⟩, ?_⟩
  · exact List.append_ne_nil_of_left_ne_nil h.isValue.ne_nil _
  · obtain ⟨c, value, rfl⟩ := List.exists_cons_of_ne_nil h.isValue.ne_nil
    exact h.isValue.head
  · intro c hc
    by_cases hblank : trimEnd region = []
    · rw [hblank, List.append_nil] at hc
      exact h.isValue.last c hc
    · rw [List.getLast?_append_of_ne_nil _ hblank, List.getLast?_eq_some_getLast hblank] at hc
      obtain rfl := Option.some.inj hc
      exact Bool.eq_false_iff.mpr (List.rdropWhile_last_not isWhitespace region hblank)
  · rw [List.append_assoc, trimEnd_append_rtakeWhile]
    exact h.reach

private theorem fieldLine_eq (value : List Char) :
    let region := after.takeWhile fun c ↦ !isDelimiter c
    fieldLine before name separator (value ++ trimEnd region) (region.rtakeWhile isWhitespace)
      (after.dropWhile fun c ↦ !isDelimiter c) =
        before ++ (name ++ (separator ++ (value ++ after))) := by
  intro region
  have hafter : trimEnd region ++ (region.rtakeWhile isWhitespace ++
      after.dropWhile fun c ↦ !isDelimiter c) = after := by
    rw [← List.append_assoc, trimEnd_append_rtakeWhile, List.takeWhile_append_dropWhile]
  rw [fieldLine, List.append_assoc value, hafter]

/-- What is shown of a line does not depend on the secret in it. -/
theorem scrub_secret_irrelevant {value₁ value₂ : List Char}
    (hfield : IsField beyond before name separator)
    (h₁ : IsSecret before name separator after value₁)
    (h₂ : IsSecret before name separator after value₂) :
    scrub beyond (before ++ (name ++ (separator ++ (value₁ ++ after)))) =
      scrub beyond (before ++ (name ++ (separator ++ (value₂ ++ after)))) := by
  obtain ⟨credential, hmem, hname⟩ := hfield.named
  have hcloses : Closes ((after.takeWhile fun c ↦ !isDelimiter c).rtakeWhile isWhitespace)
      (after.dropWhile fun c ↦ !isDelimiter c) := by
    constructor
    · intro c hc
      have hnot := List.mem_takeWhile_imp ((List.rtakeWhile_suffix _ _).subset hc)
      rw [Bool.not_eq_true'] at hnot
      exact ⟨List.mem_rtakeWhile_imp hc, hnot⟩
    · intro c hc
      have hnot := of_head?_dropWhile hc
      rwa [Bool.not_eq_false'] at hnot
  have haround : Around beyond before separator _ _ :=
    ⟨hfield.stands, hfield.separates, hfield.opens, hcloses⟩
  have hbearer := differ_bearer hmem hname haround hfield.frees h₁.holds h₂.holds
  rw [fieldLine_eq, fieldLine_eq] at hbearer
  rw [scrub, scrub, scrubBearer_eq h₁.lossless, scrubBearer_eq h₂.lossless,
    scrubNamed_eq_of_differ hmem hname hbearer]

end

private theorem isSecret_key (value : List Char) (hvalue : IsValue value) (hspace : ' ' ∉ value) :
    IsSecret ['\x7b', '"'] "API_Key".toList ['"', ':', '"'] ['"', '\x7d'] value where
  isValue := hvalue
  reach _ := by
    show trimmed _ = []
    decide
  lossless := by
    apply lossless_of_no_space
    simp only [List.mem_append, not_or]
    exact ⟨by decide, by decide +kernel, by decide, hspace, by decide⟩

/-- What is shown of a body with a key, whichever it is. -/
theorem scrub_key_irrelevant :
    scrub (fun _ ↦ false) "\x7b\"API_Key\":\"a1\"\x7d".toList =
      scrub (fun _ ↦ false) "\x7b\"API_Key\":\"password=\"\x7d".toList := by
  have hquote : ∀ c ∈ ['"'], isLead c = true := forall_mem_of_all (by decide)
  have hopens : Opens ['\x7b'] ['"'] := by
    refine ⟨hquote, ⟨'"', List.mem_singleton_self _, rfl⟩, fun c hc ↦ ?_⟩
    obtain rfl := Option.some.inj hc
    exact ⟨rfl, rfl⟩
  have hfield : IsField (fun _ ↦ false) ['\x7b', '"'] "API_Key".toList ['"', ':', '"'] := by
    refine ⟨⟨"api_key", by decide +kernel, by decide +kernel⟩, fun c hc ↦ ?_,
      ⟨['"'], ':', ['"'], rfl, hquote, rfl, hquote⟩, .inr ⟨['\x7b'], ['"'], rfl, hopens⟩,
      frees_of_no_space (by decide) _ _⟩
    obtain rfl := Option.some.inj hc
    exact ⟨rfl, rfl⟩
  have hvalue {value : List Char} {first last : Char} (hfirst : value.head? = some first)
      (hlast : value.getLast? = some last) (hlead : isLead first = false)
      (hblank : isWhitespace last = false)
      (hplain : (value.all fun c ↦ isDelimiter c = false) = true) : IsValue value := by
    refine ⟨fun hnil ↦ ?_, fun c hc ↦ ?_, fun c hc ↦ ?_, forall_mem_of_all hplain⟩
    · rw [hnil] at hfirst
      cases hfirst
    · rw [hfirst] at hc
      obtain rfl := Option.some.inj hc
      exact hlead
    · rw [hlast] at hc
      obtain rfl := Option.some.inj hc
      exact hblank
  have h₁ := isSecret_key "a1".toList
    (@hvalue _ 'a' '1' (by decide +kernel) (by decide +kernel) rfl rfl
      (by decide +kernel)) (by decide +kernel)
  have h₂ := isSecret_key "password=".toList
    (@hvalue _ 'p' '=' (by decide +kernel) (by decide +kernel) rfl rfl
      (by decide +kernel)) (by decide +kernel)
  have hsame := scrub_secret_irrelevant hfield h₁ h₂
  have hline₁ : "\x7b\"API_Key\":\"a1\"\x7d".toList = ['\x7b', '"'] ++ ("API_Key".toList ++
      (['"', ':', '"'] ++ ("a1".toList ++ ['"', '\x7d']))) := by decide +kernel
  have hline₂ : "\x7b\"API_Key\":\"password=\"\x7d".toList = ['\x7b', '"'] ++
      ("API_Key".toList ++ (['"', ':', '"'] ++ ("password=".toList ++ ['"', '\x7d']))) := by
    decide +kernel
  rw [hline₁, hline₂]
  exact hsame

/-- Of a header, what follows a structural character is shown; and the value of a field is shown whose
quotes are escaped. -/
theorem scrub_shows_rest_of_cookie :
    scrub (fun _ ↦ false) "Cookie: a=1; b=2".toList ≠
      scrub (fun _ ↦ false) "Cookie: a=1; b=3".toList ∧
    scrub (fun _ ↦ false)
        (push "m".toList "body" "\"\x7b\\\"api_key\\\":\\\"s1\\\"\x7d\"".toList) ≠
      scrub (fun _ ↦ false)
        (push "m".toList "body" "\"\x7b\\\"api_key\\\":\\\"s2\\\"\x7d\"".toList) := by
  decide +kernel

end NullRouter.Logship
