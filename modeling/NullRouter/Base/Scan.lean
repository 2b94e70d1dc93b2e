import Mathlib.Data.List.Basic

/-!
# Rewriting a text from left to right

A rule sees what stands before a place of a text and what follows, and says what is written for a
front of it, or that the first character is kept. A scan applies it from left to right and goes on
after what was read. Where a rule does not see past the end of a part, the scan of a text is that of
its parts. Nothing here names a rule of a particular system.
-/

namespace NullRouter.Base

universe u

/-- What is written for a front of what follows, and the length of that front. -/
abbrev Rule (α : Type u) := Option α → List α → Option (List α × Nat)

namespace Rule

variable {α : Type u} (rule : Rule α)

/-- What is written for a text, whose first `skip` characters have been read. -/
def scan : Option α → Nat → List α → List α
  | _, _, [] => []
  | _, skip + 1, c :: rest => scan (some c) skip rest
  | prev, 0, c :: rest =>
    match rule prev (c :: rest) with
    | some (written, read) => written ++ scan (some c) (read - 1) rest
    | none => c :: scan (some c) 0 rest

/-- What stands before what follows a text. -/
def before (prev : Option α) (text : List α) : Option α := text.getLast?.or prev

/-- A character at which nothing is rewritten. -/
def Inert (c : α) : Prop := ∀ prev rest, rule prev (c :: rest) = none

/-- A rule reads the text and no more of what follows it. -/
def Within (s b : List α) (prev : Option α) : Prop :=
  rule prev (s ++ b) = rule prev s ∧ ∀ written read, rule prev s = some (written, read) →
    read ≤ s.length

/-- What would be kept of the text alone is kept with a front of what follows. -/
def Keeps (s b : List α) (prev : Option α) : Prop :=
  rule.scan prev 0 s = s ∧ ∃ front back, b = front ++ back ∧ (∀ c ∈ front, rule.Inert c) ∧
    rule prev (s ++ b) = some (s ++ front, s.length + front.length)

/-- The same is written before two texts, and what is left of them is the same. -/
def Meets (s b₁ b₂ : List α) (prev : Option α) : Prop :=
  ∃ written front₁ front₂ rest, b₁ = front₁ ++ rest ∧ b₂ = front₂ ++ rest ∧
    (∀ c ∈ rest.head?, rule.Inert c) ∧
    rule prev (s ++ b₁) = some (written, s.length + front₁.length) ∧
    rule prev (s ++ b₂) = some (written, s.length + front₂.length)

variable {rule}

@[simp] theorem before_nil (prev : Option α) : before prev [] = prev := rfl

@[simp] theorem before_cons (prev : Option α) (c : α) (text : List α) :
    before prev (c :: text) = before (some c) text := by
  rw [before, before]
  cases text with
  | nil => rfl
  | cons d text => rw [List.getLast?_cons_cons, List.getLast?_cons, Option.some_or, Option.some_or]

theorem before_append (prev : Option α) (a b : List α) :
    before prev (a ++ b) = before (before prev a) b := by
  induction a generalizing prev with
  | nil => rfl
  | cons c a ih => rw [List.cons_append, before_cons, before_cons, ih]

theorem scan_cons_none {prev : Option α} {c : α} {rest : List α} (h : rule prev (c :: rest) = none) :
    rule.scan prev 0 (c :: rest) = c :: rule.scan (some c) 0 rest := by
  rw [scan]
  simp only [h]

theorem scan_cons_some {prev : Option α} {c : α} {rest written : List α} {read : Nat}
    (h : rule prev (c :: rest) = some (written, read)) :
    rule.scan prev 0 (c :: rest) = written ++ rule.scan (some c) (read - 1) rest := by
  rw [scan]
  simp only [h]

/-- What has been read is passed over. -/
theorem scan_length_append (prev : Option α) (a b : List α) :
    rule.scan prev a.length (a ++ b) = rule.scan (before prev a) 0 b := by
  induction a generalizing prev with
  | nil => rfl
  | cons c a ih =>
    rw [before_cons, ← ih]
    rfl

/-- Where a front of a text is read, the scan goes on after it. -/
theorem scan_append_of_read {prev : Option α} {s rest written : List α} (hne : s ≠ [])
    (h : rule prev (s ++ rest) = some (written, s.length)) :
    ∃ next, rule.scan prev 0 (s ++ rest) = written ++ rule.scan next 0 rest := by
  obtain ⟨c, s, rfl⟩ := List.exists_cons_of_ne_nil hne
  refine ⟨before (some c) s, ?_⟩
  rw [List.cons_append] at h ⊢
  rw [scan_cons_some h, List.length_cons, Nat.add_sub_cancel, scan_length_append]

/-- A text that is read as a whole is what is written for it. -/
theorem scan_of_read {prev : Option α} {s written : List α} (hne : s ≠ [])
    (h : rule prev s = some (written, s.length)) : rule.scan prev 0 s = written := by
  obtain ⟨c, s, rfl⟩ := List.exists_cons_of_ne_nil hne
  have hrest := @scan_length_append _ rule (some c) s []
  rw [List.append_nil, scan] at hrest
  rw [scan_cons_some h, List.length_cons, Nat.add_sub_cancel, hrest, List.append_nil]

/-- A text of which what is read is written is kept. -/
theorem scan_of_kept {s : List α} (h : ∀ t, t <:+ s → ∀ prev written read,
    rule prev t = some (written, read) → 0 < read ∧ read ≤ t.length ∧ written = t.take read)
    (prev : Option α) {skip : Nat} (hskip : skip ≤ s.length) :
    rule.scan prev skip s = s.drop skip := by
  induction s generalizing prev skip with
  | nil => rw [scan, List.drop_nil]
  | cons c s ih =>
    have hrest : ∀ t, t <:+ s → ∀ prev written read, rule prev t = some (written, read) →
        0 < read ∧ read ≤ t.length ∧ written = t.take read :=
      fun t ht ↦ h t (ht.trans (List.suffix_cons c s))
    cases skip with
    | succ skip => exact ih hrest (some c) (Nat.le_of_succ_le_succ hskip)
    | zero =>
      cases hrule : rule prev (c :: s) with
      | none => rw [scan_cons_none hrule, ih hrest _ (Nat.zero_le _), List.drop_zero, List.drop_zero]
      | some step =>
        obtain ⟨written, read⟩ := step
        obtain ⟨hpos, hlength, rfl⟩ := h _ (List.suffix_refl _) _ _ _ hrule
        obtain ⟨read, rfl⟩ := Nat.exists_eq_succ_of_ne_zero (Nat.ne_of_gt hpos)
        rw [scan_cons_some hrule, Nat.succ_sub_one,
          ih hrest _ (Nat.le_of_succ_le_succ hlength), List.drop_zero]
        exact List.take_append_drop (read + 1) (c :: s)

/-- Inert characters are kept. -/
theorem scan_append_of_inert {a : List α} (h : ∀ c ∈ a, rule.Inert c) (prev : Option α)
    (b : List α) : rule.scan prev 0 (a ++ b) = a ++ rule.scan (before prev a) 0 b := by
  induction a generalizing prev with
  | nil => rfl
  | cons c a ih =>
    rw [List.forall_mem_cons] at h
    rw [List.cons_append, scan_cons_none (h.1 _ _), ih h.2, before_cons, List.cons_append]

theorem scan_of_inert {a : List α} (h : ∀ c ∈ a, rule.Inert c) (prev : Option α) :
    rule.scan prev 0 a = a := by
  have happend := scan_append_of_inert h prev []
  rwa [List.append_nil, scan, List.append_nil] at happend

/-- What stands before an inert character does not matter. -/
theorem scan_congr_before {b : List α} (h : ∀ c ∈ b.head?, rule.Inert c) (p q : Option α) :
    rule.scan p 0 b = rule.scan q 0 b := by
  cases b with
  | nil => rw [scan, scan]
  | cons c b =>
    have hinert := h c rfl
    rw [scan_cons_none (hinert _ _), scan_cons_none (hinert _ _)]

/-- Where a rule does not see past a text, or keeps what it sees, the scan is that of the parts. -/
theorem scan_append {a b : List α} (h : ∀ s, s <:+ a → s ≠ [] → ∀ prev,
    rule.Within s b prev ∨ rule.Keeps s b prev) {prev : Option α} {skip : Nat}
    (hskip : skip ≤ a.length) :
    rule.scan prev skip (a ++ b) = rule.scan prev skip a ++ rule.scan (before prev a) 0 b := by
  induction a generalizing prev skip with
  | nil =>
    obtain rfl := Nat.le_zero.mp hskip
    rw [scan]
    rfl
  | cons c a ih =>
    have hrest : ∀ s, s <:+ a → s ≠ [] → ∀ prev, rule.Within s b prev ∨ rule.Keeps s b prev :=
      fun s hs ↦ h s (hs.trans (List.suffix_cons c a))
    rw [before_cons]
    cases skip with
    | succ skip => exact ih hrest (Nat.le_of_succ_le_succ hskip)
    | zero =>
      rcases h (c :: a) (List.suffix_refl _) (List.cons_ne_nil _ _) prev with
        ⟨hsame, hread⟩ | ⟨hkept, front, back, rfl, hinert, hrule⟩
      · cases hrule : rule prev (c :: a) with
        | none =>
          rw [hrule, List.cons_append] at hsame
          rw [scan_cons_none hrule, List.cons_append, scan_cons_none hsame,
            ih hrest (Nat.zero_le _), List.cons_append]
        | some step =>
          obtain ⟨written, read⟩ := step
          have hless : read - 1 ≤ a.length := by
            have hlength := hread _ _ hrule
            rw [List.length_cons] at hlength
            omega
          rw [hrule, List.cons_append] at hsame
          rw [scan_cons_some hrule, List.cons_append, scan_cons_some hsame, ih hrest hless,
            List.append_assoc]
      · have hlength : (c :: a).length + front.length - 1 = (a ++ front).length := by
          rw [List.length_cons, List.length_append]
          omega
        rw [List.cons_append] at hrule
        rw [hkept, List.cons_append, scan_cons_some hrule, hlength, ← List.append_assoc a,
          scan_length_append, scan_append_of_inert hinert, before_append, List.append_assoc]

/-- Where the same is written before two texts, the scans are the same. -/
theorem scan_eq_of_meets {s b₁ b₂ : List α} {prev : Option α} (hne : s ≠ [])
    (h : rule.Meets s b₁ b₂ prev) : rule.scan prev 0 (s ++ b₁) = rule.scan prev 0 (s ++ b₂) := by
  obtain ⟨written, front₁, front₂, rest, rfl, rfl, hinert, h₁, h₂⟩ := h
  obtain ⟨c, s, rfl⟩ := List.exists_cons_of_ne_nil hne
  have hlength (front : List α) : (c :: s).length + front.length - 1 = (s ++ front).length := by
    rw [List.length_cons, List.length_append]
    omega
  rw [List.cons_append] at h₁ h₂
  rw [List.cons_append, List.cons_append, scan_cons_some h₁, scan_cons_some h₂, hlength, hlength,
    ← List.append_assoc, ← List.append_assoc, scan_length_append, scan_length_append]
  exact congrArg _ (scan_congr_before hinert _ _)

/-- Where a rule does not see past a text, or writes the same before two texts, the scans are the
same, or those of the parts. -/
theorem scan_append_or {a b₁ b₂ : List α} (h : ∀ s, s <:+ a → s ≠ [] → ∀ prev,
    (rule.Within s b₁ prev ∧ rule.Within s b₂ prev) ∨ rule.Meets s b₁ b₂ prev)
    {prev : Option α} {skip : Nat} (hskip : skip ≤ a.length) :
    rule.scan prev skip (a ++ b₁) = rule.scan prev skip (a ++ b₂) ∨
      (rule.scan prev skip (a ++ b₁) =
        rule.scan prev skip a ++ rule.scan (before prev a) 0 b₁ ∧
      rule.scan prev skip (a ++ b₂) =
        rule.scan prev skip a ++ rule.scan (before prev a) 0 b₂) := by
  induction a generalizing prev skip with
  | nil =>
    obtain rfl := Nat.le_zero.mp hskip
    rw [scan]
    exact .inr ⟨rfl, rfl⟩
  | cons c a ih =>
    have hrest : ∀ s, s <:+ a → s ≠ [] → ∀ prev,
        (rule.Within s b₁ prev ∧ rule.Within s b₂ prev) ∨ rule.Meets s b₁ b₂ prev :=
      fun s hs ↦ h s (hs.trans (List.suffix_cons c a))
    rw [before_cons]
    cases skip with
    | succ skip => exact ih hrest (Nat.le_of_succ_le_succ hskip)
    | zero =>
      rcases h (c :: a) (List.suffix_refl _) (List.cons_ne_nil _ _) prev with
        ⟨⟨hfirst, hread⟩, hsecond, -⟩ | hmeets
      · cases hrule : rule prev (c :: a) with
        | none =>
          rw [hrule, List.cons_append] at hfirst hsecond
          rw [scan_cons_none hrule, List.cons_append, List.cons_append, scan_cons_none hfirst,
            scan_cons_none hsecond]
          rcases @ih hrest (some c) 0 (Nat.zero_le _) with hsame | ⟨hone, htwo⟩
          · exact .inl (congrArg _ hsame)
          · exact .inr ⟨congrArg _ hone, congrArg _ htwo⟩
        | some step =>
          obtain ⟨written, read⟩ := step
          have hless : read - 1 ≤ a.length := by
            have hlength := hread _ _ hrule
            rw [List.length_cons] at hlength
            omega
          rw [hrule, List.cons_append] at hfirst hsecond
          rw [scan_cons_some hrule, List.cons_append, List.cons_append, scan_cons_some hfirst,
            scan_cons_some hsecond]
          rcases @ih hrest (some c) _ hless with hsame | ⟨hone, htwo⟩
          · exact .inl (congrArg _ hsame)
          · rw [hone, htwo, List.append_assoc, List.append_assoc]
            exact .inr ⟨rfl, rfl⟩
      · exact .inl (scan_eq_of_meets (List.cons_ne_nil _ _) hmeets)

/-! ## Marks -/

/-- What is written is what was read, or a front of it and a mark. -/
def Marks (rule : Rule α) (mark : List α) : Prop :=
  ∀ prev s written read, rule prev s = some (written, read) → 0 < read ∧ read ≤ s.length ∧
    (written = s.take read ∨ ∃ kept, 0 < kept ∧ kept ≤ read ∧ written = s.take kept ++ mark)

variable {mark : List α}

/-- The first character is kept. -/
theorem head?_scan (h : rule.Marks mark) (prev : Option α) (s : List α) :
    (rule.scan prev 0 s).head? = s.head? := by
  cases s with
  | nil => rw [scan]
  | cons c s =>
    cases hrule : rule prev (c :: s) with
    | none => rw [scan_cons_none hrule, List.head?_cons, List.head?_cons]
    | some step =>
      obtain ⟨written, read⟩ := step
      rw [scan_cons_some hrule]
      have htake (n : Nat) (rest : List α) (hn : 0 < n) :
          ((c :: s).take n ++ rest).head? = some c := by
        obtain ⟨n, rfl⟩ := Nat.exists_eq_succ_of_ne_zero (Nat.ne_of_gt hn)
        rfl
      obtain ⟨hread, -, rfl | ⟨kept, hkept, -, rfl⟩⟩ := h _ _ _ _ hrule
      · exact htake _ _ hread
      · rw [List.append_assoc]
        exact htake _ _ hkept

/-- Nothing is written that is neither in the text nor in the mark. -/
theorem mem_scan (h : rule.Marks mark) {prev : Option α} {skip : Nat} {s : List α} {c : α}
    (hc : c ∈ rule.scan prev skip s) : c ∈ s ∨ c ∈ mark := by
  induction s generalizing prev skip with
  | nil =>
    rw [scan] at hc
    exact .inl hc
  | cons d s ih =>
    have hrest {prev : Option α} {skip : Nat} (hc : c ∈ rule.scan prev skip s) :
        c ∈ d :: s ∨ c ∈ mark := (ih hc).imp_left (List.mem_cons_of_mem d)
    cases skip with
    | succ skip => exact hrest hc
    | zero =>
      cases hrule : rule prev (d :: s) with
      | none =>
        rw [scan_cons_none hrule, List.mem_cons] at hc
        rcases hc with rfl | hc
        · exact .inl List.mem_cons_self
        · exact hrest hc
      | some step =>
        obtain ⟨written, read⟩ := step
        rw [scan_cons_some hrule, List.mem_append] at hc
        rcases hc with hc | hc
        · obtain ⟨-, -, rfl | ⟨kept, -, -, rfl⟩⟩ := h _ _ _ _ hrule
          · exact .inl (List.mem_of_mem_take hc)
          · exact (List.mem_append.mp hc).imp_left List.mem_of_mem_take
        · exact hrest hc

/-- What is written ends as the text does, back to the last mark. -/
theorem scan_eq_or (h : rule.Marks mark) (prev : Option α) {skip : Nat} {s : List α}
    (hskip : skip ≤ s.length) : rule.scan prev skip s = s.drop skip ∨
      ∃ read kept written, s = read ++ kept ∧ rule.scan prev skip s = written ++ mark ++ kept := by
  induction s generalizing prev skip with
  | nil =>
    rw [scan, List.drop_nil]
    exact .inl rfl
  | cons c s ih =>
    cases skip with
    | succ skip =>
      rcases ih (some c) (Nat.le_of_succ_le_succ hskip) with hsame | ⟨read, kept, written, rfl, hmark⟩
      · exact .inl hsame
      · exact .inr ⟨c :: read, kept, written, rfl, hmark⟩
    | zero =>
      cases hrule : rule prev (c :: s) with
      | none =>
        rw [scan_cons_none hrule]
        rcases ih (some c) (Nat.zero_le _) with hsame | ⟨read, kept, written, rfl, hmark⟩
        · exact .inl (by rw [hsame, List.drop_zero, List.drop_zero])
        · exact .inr ⟨c :: read, kept, c :: written, rfl, by rw [hmark]; rfl⟩
      | some step =>
        obtain ⟨written, read⟩ := step
        rw [scan_cons_some hrule]
        obtain ⟨hpos, hlength, hwritten⟩ := h _ _ _ _ hrule
        obtain ⟨read, rfl⟩ := Nat.exists_eq_succ_of_ne_zero (Nat.ne_of_gt hpos)
        rcases ih (some c) (Nat.le_of_succ_le_succ hlength) with
          hsame | ⟨passed, kept, rest, rfl, hmark⟩
        · rw [Nat.succ_sub_one, hsame]
          rcases hwritten with rfl | ⟨kept, -, -, rfl⟩
          · exact .inl (List.take_append_drop (read + 1) (c :: s))
          · exact .inr ⟨(c :: s).take (read + 1), s.drop read, (c :: s).take kept,
              (List.take_append_drop (read + 1) (c :: s)).symm, rfl⟩
        · refine .inr ⟨c :: passed, kept, written ++ rest, rfl, ?_⟩
          rw [Nat.succ_sub_one, hmark]
          simp only [List.append_assoc]

end Rule
end NullRouter.Base
