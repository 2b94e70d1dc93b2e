import NullRouter.Logship.Passes

/-!
# The pass for bearer tokens

`scrub_bearer` of `crates/logship/src/scrub.rs:82` as a scan, on the lines that it does not lose the
end of, and how far it sees past a part of a line.
-/

namespace NullRouter.Logship

open NullRouter.Base

/-- The pass does not set its cursor past the end of the line, or into a character. -/
def Lossless (line : List Char) : Prop :=
  ∀ front found rest, line = front ++ (found ++ rest) → found.map Char.toLower = marker →
    loses rest = false

/-- What is written after the marker, and how much is read. -/
def afterMarker (rest : List Char) : List Char × Nat :=
  let tokenLen := (rest.takeWhile isTokenChar).length
  if tokenLen < minSecret then (rest.take (max tokenLen 1), min (max tokenLen 1) rest.length)
  else (redacted, tokenLen)

/-- What the pass does where it finds the marker. -/
def bearerRule : Rule Char := fun _ line ↦
  if startsWith marker line then
    some (line.take marker.length ++ (afterMarker (line.drop marker.length)).1,
      marker.length + (afterMarker (line.drop marker.length)).2)
  else none

theorem bearerRule_found {found : List Char} (h : found.map Char.toLower = marker)
    (prev : Option Char) (rest : List Char) : bearerRule prev (found ++ rest) =
      some (found ++ (afterMarker rest).1, found.length + (afterMarker rest).2) := by
  have hlength : marker.length = found.length := by rw [← h, List.length_map]
  rw [bearerRule, if_pos (startsWith_iff.mpr ⟨found, rest, rfl, h⟩), hlength, List.take_left,
    List.drop_left]

theorem bearerRule_none {line : List Char} (h : startsWith marker line = false)
    (prev : Option Char) : bearerRule prev line = none := by
  rw [bearerRule, h, if_neg Bool.false_ne_true]

private theorem length_marker : marker.length = 7 := by decide +kernel

private theorem length_of_found {found : List Char} (h : found.map Char.toLower = marker) :
    found.length = 7 := by
  rw [← length_marker, ← h, List.length_map]

theorem Lossless.of_suffix {s line : List Char} (h : Lossless line) (hs : s <:+ line) :
    Lossless s := by
  obtain ⟨start, rfl⟩ := hs
  intro front found rest hline hfound
  exact h (start ++ front) found rest (by rw [hline, List.append_assoc]) hfound

/-- A line that is not lost is scanned. -/
theorem scrubBearerFrom_eq {line : List Char} (h : Lossless line) (skip : Nat)
    (prev : Option Char) : scrubBearerFrom skip line = some (bearerRule.scan prev skip line) := by
  induction line generalizing skip prev with
  | nil => rw [scrubBearerFrom, Rule.scan]
  | cons c line ih =>
    have hrest := ih (h.of_suffix (List.suffix_cons c line))
    cases skip with
    | succ skip => exact hrest skip (some c)
    | zero =>
      rw [scrubBearerFrom]
      cases hstarts : startsWith marker (c :: line) with
      | false =>
        rw [if_neg Bool.false_ne_true, Rule.scan_cons_none (bearerRule_none hstarts prev),
          hrest 0 (some c)]
        rfl
      | true =>
        obtain ⟨found, rest, hline, hfound⟩ := startsWith_iff.mp hstarts
        have hloses := h [] found rest hline hfound
        have hlength := length_of_found hfound
        have hrule := bearerRule_found hfound prev rest
        have hdrop : (c :: line).drop marker.length = rest := by
          rw [hline, length_marker, ← hlength, List.drop_left]
        rw [← hline] at hrule
        rw [if_pos rfl, Rule.scan_cons_some hrule, hdrop, afterMarker]
        simp only
        have hne : rest ≠ [] := by
          rintro rfl
          cases hloses
        have hpos := List.length_pos_iff.mpr hne
        have htoken := (List.takeWhile_sublist isTokenChar (l := rest)).length_le
        split
        · rw [if_neg (fun hlost ↦ by rw [hloses] at hlost; cases hlost.2), hrest _ (some c),
            Option.getD_some, length_marker, hlength, Nat.min_eq_left (by omega)]
          congr 2
          rw [hline, ← hlength, List.take_length_add_append]
        · rw [hrest _ (some c), Option.getD_some, length_marker, hlength]
          congr 3
          rw [hline, ← hlength, List.take_left]

theorem scrubBearer_eq {line : List Char} (h : Lossless line) :
    scrubBearer line = bearerRule.scan none 0 line := by
  rw [scrubBearer, scrubBearerFrom_eq h 0 none, Option.getD_some]

theorem bearerRule_marks : bearerRule.Marks redacted := by
  intro prev line written read h
  cases hstarts : startsWith marker line with
  | false =>
    rw [bearerRule_none hstarts] at h
    cases h
  | true =>
    obtain ⟨found, rest, rfl, hfound⟩ := startsWith_iff.mp hstarts
    have hlength := length_of_found hfound
    have htoken := (List.takeWhile_sublist isTokenChar (l := rest)).length_le
    rw [bearerRule_found hfound, Option.some.injEq, Prod.mk.injEq] at h
    obtain ⟨rfl, rfl⟩ := h
    rw [List.length_append, afterMarker]
    split
    · refine ⟨by omega, by omega, .inl ?_⟩
      rw [List.take_length_add_append, ← List.take_eq_take_min]
    · exact ⟨by omega, by omega, .inr ⟨found.length, by omega, Nat.le_add_right _ _,
        by rw [List.take_left]⟩⟩

/-- Where the marker begins with another character, nothing is rewritten. -/
theorem bearerRule_inert {c : Char} (h : c.toLower ≠ 'b') : bearerRule.Inert c := by
  intro prev rest
  apply bearerRule_none
  rw [Bool.eq_false_iff]
  intro hstarts
  obtain ⟨found, more, hline, hfound⟩ := startsWith_iff.mp hstarts
  have hmarker : marker = 'b' :: "earer ".toList := by decide +kernel
  cases found with
  | nil =>
    rw [hmarker] at hfound
    cases hfound
  | cons d found =>
    obtain ⟨rfl, -⟩ := List.cons.inj hline
    rw [hmarker, List.map_cons] at hfound
    exact h (List.cons.inj hfound).1

theorem bearerRule_inert_of_isTokenChar {c : Char} (h : isTokenChar c = false) :
    bearerRule.Inert c := by
  apply bearerRule_inert
  intro hb
  have hname : isNameChar c.toLower = true := by
    rw [hb]
    decide
  rw [isTokenChar_of_isNameChar (isNameChar_of_toLower hname)] at h
  cases h

/-- No credential name has the first letter of the marker. -/
theorem bearerRule_inert_of_name {name : String} (h : name ∈ credentialNames) {found : List Char}
    (hfound : found.map Char.toLower = name.toList) : ∀ c ∈ found, bearerRule.Inert c := by
  have hall : ∀ name ∈ credentialNames, 'b' ∉ name.toList := by decide +kernel
  intro c hc
  apply bearerRule_inert
  rintro hb
  exact hall name h (hfound ▸ hb ▸ List.mem_map_of_mem hc)

private theorem eq_space_of_toLower {c : Char} (h : c.toLower = ' ') : c = ' ' := by
  by_cases hupper : c.val ≥ 'A'.val ∧ c.val ≤ 'Z'.val
  · have hlower : c.toLower.val = c.val + 32 := by
      delta Char.toLower
      rw [dif_pos hupper]
      rfl
    have hge := UInt32.le_iff_toNat_le.mp hupper.1
    have hle := UInt32.le_iff_toNat_le.mp hupper.2
    have hsum := congrArg UInt32.toNat hlower
    rw [h, UInt32.toNat_add] at hsum
    simp at hge hle hsum
    omega
  · have hsame : c.toLower = c := by
      delta Char.toLower
      rw [dif_neg hupper]
    rw [← hsame, h]

private theorem found_eq {found : List Char} (h : found.map Char.toLower = marker) :
    ∃ letters, found = letters ++ [' '] ∧ ∀ c ∈ letters, isNameChar c = true := by
  have hmarker : marker = "bearer".toList ++ [' '] := by decide +kernel
  rw [hmarker] at h
  obtain ⟨letters, space, rfl, hletters, hspace⟩ := List.map_eq_append_iff.mp h
  obtain ⟨c, rfl, hc⟩ := List.map_eq_singleton_iff.mp hspace
  have hall : ∀ c ∈ "bearer".toList, isNameChar c = true :=
    forall_mem_of_all (by decide +kernel)
  exact ⟨letters, by rw [eq_space_of_toLower hc], isNameChar_of_found hall hletters⟩

/-- A line without a space is not lost. -/
theorem lossless_of_no_space {line : List Char} (h : ' ' ∉ line) : Lossless line := by
  intro front found rest hline hfound
  obtain ⟨letters, rfl, -⟩ := found_eq hfound
  refine (h ?_).elim
  rw [hline]
  simp only [List.mem_append, List.mem_singleton, or_true, true_or]

private theorem scan_of_length_lt {s : List Char} (h : s.length < 7) (prev : Option Char) :
    bearerRule.scan prev 0 s = s := by
  refine Rule.scan_of_kept (fun t ht prev written read hread ↦ ?_) prev (Nat.zero_le _)
  have hnone : bearerRule prev t = none := by
    refine bearerRule_none (Bool.eq_false_iff.mpr fun hstarts ↦ ?_) prev
    obtain ⟨found, rest, rfl, hfound⟩ := startsWith_iff.mp hstarts
    have hlength := ht.length_le
    rw [List.length_append, length_of_found hfound] at hlength
    omega
  rw [hnone] at hread
  cases hread

/-- Where the marker is found at the front of two parts, and the first does not end with a space, it
is found in the first, or its space begins the second. -/
private theorem found_or_space {s b found rest : List Char} (h : s ++ b = found ++ rest)
    (hfound : found.map Char.toLower = marker) :
    (∃ more, s = found ++ more ∧ rest = more ++ b) ∨
      (∃ c more, found = s ++ c :: more ∧ b = c :: (more ++ rest) ∧
        ((more = [] ∧ c = ' ') ∨ isNameChar c = true) ∧ ∀ d ∈ s, isNameChar d = true) := by
  rcases List.append_eq_append_iff.mp h with ⟨more, hfront, hback⟩ | ⟨more, hfront, hback⟩
  · cases more with
    | nil =>
      rw [List.append_nil] at hfront
      exact .inl ⟨[], by rw [hfront, List.append_nil], hback.symm⟩
    | cons c more =>
      obtain ⟨letters, hletters, hname⟩ := found_eq hfound
      rw [hfront] at hletters
      rcases List.append_eq_append_iff.mp hletters with ⟨front, rfl, hmore⟩ | ⟨front, rfl, hmore⟩
      · rw [List.forall_mem_append] at hname
        refine .inr ⟨c, more, hfront, hback, ?_, hname.1⟩
        cases front with
        | nil =>
          obtain ⟨rfl, rfl⟩ := List.cons.inj hmore
          exact .inl ⟨rfl, rfl⟩
        | cons d front =>
          obtain ⟨rfl, -⟩ := List.cons.inj hmore
          exact .inr (hname.2 c List.mem_cons_self)
      · cases front with
        | nil =>
          obtain ⟨rfl, rfl⟩ := List.cons.inj hmore
          rw [List.append_nil]
          exact .inr ⟨' ', [], by rw [hfront, List.append_nil], hback, .inl ⟨rfl, rfl⟩, hname⟩
        | cons d front =>
          have hlength := congrArg List.length hmore
          simp only [List.length_cons, List.length_append, List.length_nil] at hlength
          omega
  · exact .inl ⟨more, hfront, hback⟩

/-- Before what begins otherwise than a token, and goes on so after a space, the pass sees a part, or
keeps the part and the space. -/
theorem bearer_within_or_keeps {s b : List Char} (hne : s ≠ []) (hlast : ∀ c ∈ s.getLast?, c ≠ ' ')
    (hhead : ∀ c ∈ b.head?, isTokenChar c = false)
    (hnext : ∀ rest, b = ' ' :: rest → ∀ c ∈ rest.head?, isTokenChar c = false)
    (prev : Option Char) : bearerRule.Within s b prev ∨ bearerRule.Keeps s b prev := by
  cases hstarts : startsWith marker (s ++ b) with
  | false =>
    refine .inl ⟨?_, fun written read hread ↦ (bearerRule_marks _ _ _ _ hread).2.1⟩
    rw [bearerRule_none hstarts, bearerRule_none]
    rw [Bool.eq_false_iff]
    intro halone
    obtain ⟨found, rest, rfl, hfound⟩ := startsWith_iff.mp halone
    rw [startsWith_iff.mpr ⟨found, rest ++ b, List.append_assoc _ _ _, hfound⟩] at hstarts
    cases hstarts
  | true =>
    obtain ⟨found, rest, hline, hfound⟩ := startsWith_iff.mp hstarts
    rcases found_or_space hline hfound with
      ⟨more, rfl, rfl⟩ | ⟨c, more, rfl, rfl, hcases, hletters⟩
    · refine .inl ⟨?_, fun written read hread ↦ (bearerRule_marks _ _ _ _ hread).2.1⟩
      have hmore : more ≠ [] := by
        rintro rfl
        obtain ⟨letters, rfl, -⟩ := found_eq hfound
        refine hlast ' ' ?_ rfl
        rw [List.append_nil, List.getLast?_append, List.getLast?_singleton, Option.some_or]
        rfl
      have hpos := List.length_pos_iff.mpr hmore
      have htoken := (List.takeWhile_sublist isTokenChar (l := more)).length_le
      rw [List.append_assoc, bearerRule_found hfound, bearerRule_found hfound, afterMarker,
        afterMarker, (takeWhile_append_of_head hhead).1]
      split
      · rw [List.take_append_of_le_length (by omega), List.length_append, Nat.min_eq_left (by omega),
          Nat.min_eq_left (by omega)]
      · rfl
    · obtain ⟨rfl, rfl⟩ : more = [] ∧ c = ' ' := by
        rcases hcases with hspace | hname
        · exact hspace
        · have hfalse := hhead c rfl
          rw [isTokenChar_of_isNameChar hname] at hfalse
          cases hfalse
      rw [List.nil_append] at hline hhead hnext ⊢
      have hrest := hnext rest rfl
      have htoken : rest.takeWhile isTokenChar = [] := by
        cases rest with
        | nil => rfl
        | cons d rest =>
          refine List.takeWhile_cons_of_neg ?_
          rw [hrest d rfl]
          exact Bool.false_ne_true
      have hlength := length_of_found hfound
      rw [List.length_append, List.length_singleton] at hlength
      refine .inr ⟨scan_of_length_lt (by omega) prev, ' ' :: rest.take 1, rest.drop 1,
        by rw [List.cons_append, List.take_append_drop], ?_, ?_⟩
      · rw [List.forall_mem_cons]
        refine ⟨bearerRule_inert_of_isTokenChar (by decide), fun d hd ↦ ?_⟩
        cases rest with
        | nil => cases hd
        | cons e rest =>
          obtain rfl := List.mem_singleton.mp hd
          exact bearerRule_inert_of_isTokenChar (hrest d rfl)
      · have hsplit : s ++ ' ' :: rest = (s ++ [' ']) ++ rest := by
          rw [List.append_assoc, List.singleton_append]
        rw [hsplit, bearerRule_found hfound, afterMarker, htoken, if_pos (by decide)]
        simp only [List.length_nil, Nat.zero_max, List.length_append, List.length_cons,
          List.append_assoc, List.singleton_append, List.length_take]
        rw [Nat.zero_add, Nat.add_assoc, Nat.add_comm 1]

/-- The text before a name does not end in a marker whose token would take in the name. -/
def Frees (before name separator : List Char) : Prop :=
  ∀ front found token, before = front ++ (found ++ token) → found.map Char.toLower = marker →
    (∀ c ∈ token, isTokenChar c = true) →
    token.length + name.length < minSecret ∧ ∀ c ∈ separator.head?, isTokenChar c = false

theorem frees_of_no_space {before : List Char} (h : ' ' ∉ before) (name separator : List Char) :
    Frees before name separator := by
  intro front found token hline hfound _
  obtain ⟨letters, rfl, -⟩ := found_eq hfound
  refine (h ?_).elim
  rw [hline]
  simp only [List.mem_append, List.mem_singleton, or_true, true_or]

/-- Before a name, the pass sees a part, or keeps the part and the name. -/
theorem bearer_within_or_keeps_name {before name front value s : List Char} {credential : String}
    (hmem : credential ∈ credentialNames) (hname : name.map Char.toLower = credential.toList)
    (hfront : front ≠ []) (hfrees : Frees before name front) (hs : s <:+ before) (hne : s ≠ [])
    (hlast : ∀ c ∈ s.getLast?, isNameChar c = false) (prev : Option Char) :
    bearerRule.Within s (name ++ (front ++ value)) prev ∨
      bearerRule.Keeps s (name ++ (front ++ value)) prev := by
  have hchars := isNameChar_of_found (isName_of_mem hmem).chars hname
  cases hstarts : startsWith marker (s ++ (name ++ (front ++ value))) with
  | false =>
    refine .inl ⟨?_, fun written read hread ↦ (bearerRule_marks _ _ _ _ hread).2.1⟩
    rw [bearerRule_none hstarts, bearerRule_none]
    rw [Bool.eq_false_iff]
    intro halone
    obtain ⟨found, rest, rfl, hfound⟩ := startsWith_iff.mp halone
    rw [startsWith_iff.mpr ⟨found, _, List.append_assoc _ _ _, hfound⟩] at hstarts
    cases hstarts
  | true =>
    obtain ⟨found, rest, hline, hfound⟩ := startsWith_iff.mp hstarts
    rcases found_or_space hline hfound with
      ⟨more, rfl, rfl⟩ | ⟨c, more, rfl, -, -, hletters⟩
    · by_cases htoken : ∀ c ∈ more, isTokenChar c = true
      · obtain ⟨start, rfl⟩ := hs
        obtain ⟨hshort, hapart⟩ := hfrees start found more rfl hfound htoken
        have hnamene : 0 < name.length := by
          have hpos := List.length_pos_iff.mpr (isName_of_mem hmem).ne_nil
          rw [← hname, List.length_map] at hpos
          exact hpos
        have hall : ∀ c ∈ more ++ name, isTokenChar c = true :=
          List.forall_mem_append.mpr
            ⟨htoken, fun c hc ↦ isTokenChar_of_isNameChar (hchars c hc)⟩
        have htake : (more ++ (name ++ (front ++ value))).takeWhile isTokenChar = more ++ name := by
          rw [← List.append_assoc, (takeWhile_append_of_head ?_).1,
            List.takeWhile_eq_self_iff.mpr hall]
          intro c hc
          obtain ⟨d, front, rfl⟩ := List.exists_cons_of_ne_nil hfront
          exact hapart c hc
        refine .inr ⟨Rule.scan_of_read hne ?_, name, front ++ value, rfl,
          bearerRule_inert_of_name hmem hname, ?_⟩
        · rw [bearerRule_found hfound, afterMarker, List.takeWhile_eq_self_iff.mpr htoken,
            if_pos (by omega)]
          rw [List.take_of_length_le (by omega), Nat.min_eq_right (by omega), List.length_append]
        · rw [List.append_assoc, bearerRule_found hfound, afterMarker, htake, List.length_append,
            if_pos (by omega), Nat.max_eq_left (by omega)]
          have hlength : more.length + name.length ≤ (more ++ (name ++ (front ++ value))).length := by
            simp only [List.length_append]
            omega
          rw [Nat.min_eq_left hlength, ← List.append_assoc more, ← List.length_append,
            List.take_left, List.append_assoc]
          simp only [List.length_append, Nat.add_assoc]
      · obtain ⟨c, hc, hfalse⟩ : ∃ c ∈ more, isTokenChar c = false := by
          simpa only [not_forall, exists_prop, Bool.not_eq_true] using htoken
        refine .inl ⟨?_, fun written read hread ↦ (bearerRule_marks _ _ _ _ hread).2.1⟩
        have hpos := List.length_pos_iff.mpr (List.ne_nil_of_mem hc)
        have hlength := (List.takeWhile_sublist isTokenChar (l := more)).length_le
        rw [List.append_assoc, bearerRule_found hfound, bearerRule_found hfound, afterMarker,
          afterMarker, (takeWhile_append_of_mem hc hfalse).1]
        split
        · rw [List.take_append_of_le_length (by omega), List.length_append,
            Nat.min_eq_left (by omega), Nat.min_eq_left (by omega)]
        · rfl
    · have hfalse := hlast _ (List.getLast?_eq_some_getLast hne)
      rw [hletters _ (List.getLast_mem hne)] at hfalse
      cases hfalse

end NullRouter.Logship
