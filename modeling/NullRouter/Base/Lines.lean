import Mathlib.Data.List.Infix
import NullRouter.Base.Offsets
import NullRouter.Base.Text

/-!
# Lines of a text

`str::lines` on scalar values: a line ends at a line feed, which a carriage return may precede, and
the last line need not end. A text that is written line by line reads back as these lines.
-/

namespace NullRouter.Base

/-- A line without the carriage return before its line feed. -/
def chomp (line : List Char) : List Char :=
  if line.getLast? = some '\r' then line.dropLast else line

/-- `str::lines`. -/
def lines (text : List Char) : List (List Char) :=
  let pieces := text.splitOn '\n'
  let last := pieces.getLastD []
  pieces.dropLast.map chomp ++ if last = [] then [] else [last]

/-- A text is a line that does not end, or a line and the text after it. -/
theorem lines_induction {motive : List Char → Prop} (last : ∀ line, '\n' ∉ line → motive line)
    (line : ∀ line rest, '\n' ∉ line → motive rest → motive (line ++ '\n' :: rest)) :
    ∀ text, motive text := by
  intro text
  induction hn : text.length using Nat.strongRecOn generalizing text with
  | ind n ih =>
    subst hn
    by_cases h : '\n' ∈ text
    · obtain ⟨before, rest, htext, hbefore⟩ := List.eq_append_cons_of_mem h
      subst htext
      apply line before rest hbefore
      apply ih rest.length _ rest rfl
      simp only [List.length_append, List.length_cons]
      omega
    · exact last text h

theorem lines_of_not_mem {line : List Char} (h : '\n' ∉ line) :
    lines line = if line = [] then [] else [line] := by
  rw [lines, List.splitOn_eq_singleton h]
  rfl

theorem lines_cons {line : List Char} (h : '\n' ∉ line) (rest : List Char) :
    lines (line ++ '\n' :: rest) = chomp line :: lines rest := by
  obtain ⟨piece, pieces, hpieces⟩ :=
    List.exists_cons_of_ne_nil (List.splitOn_ne_nil '\n' rest)
  rw [lines, lines, List.splitOn_append_cons_self_of_not_mem h, hpieces]
  simp

/-- What stands between line feeds holds none. -/
theorem not_mem_of_mem_splitOn {text line : List Char} (h : line ∈ text.splitOn '\n') :
    '\n' ∉ line := by
  induction text using lines_induction with
  | last only honly =>
    rw [List.splitOn_eq_singleton honly] at h
    rwa [List.mem_singleton.mp h]
  | line first rest hfirst ih =>
    rw [List.splitOn_append_cons_self_of_not_mem hfirst, List.mem_cons] at h
    rcases h with rfl | h
    · exact hfirst
    · exact ih h

/-- A line holds no line feed. -/
theorem not_mem_of_mem_lines {text line : List Char} (h : line ∈ lines text) : '\n' ∉ line := by
  induction text using lines_induction with
  | last only honly =>
    rw [lines_of_not_mem honly] at h
    split at h
    · cases h
    · rwa [List.mem_singleton.mp h]
  | line first rest hfirst ih =>
    rw [lines_cons hfirst, List.mem_cons] at h
    rcases h with rfl | h
    · unfold chomp
      split
      · exact fun hmem ↦ hfirst (List.dropLast_subset first hmem)
      · exact hfirst
    · exact ih h

theorem chomp_append_return (line : List Char) : chomp (line ++ ['\r']) = line := by
  simp [chomp]

theorem chomp_of_ne {line : List Char} (h : line.getLast? ≠ some '\r') : chomp line = line :=
  if_neg h

/-- A carriage return at a line's end stands before a line feed or at the end of the text. -/
theorem getLast?_of_mem_lines {text line : List Char} (hpair : ¬ ['\r', '\n'] <:+: text)
    (hend : text.getLast? ≠ some '\r') (h : line ∈ lines text) : line.getLast? ≠ some '\r' := by
  induction text using lines_induction with
  | last only honly =>
    rw [lines_of_not_mem honly] at h
    split at h
    · cases h
    · rwa [List.mem_singleton.mp h]
  | line first rest hfirst ih =>
    have hlast : first.getLast? ≠ some '\r' := by
      intro hreturn
      obtain ⟨before, hbefore⟩ := List.getLast?_eq_some_iff.mp hreturn
      apply hpair
      exact ⟨before, rest, by simp [hbefore]⟩
    rw [lines_cons hfirst, chomp_of_ne hlast, List.mem_cons] at h
    rcases h with rfl | h
    · exact hlast
    · apply ih (fun hinfixed ↦ hpair (hinfixed.trans ⟨first ++ ['\n'], [], by simp⟩)) _ h
      intro hreturn
      apply hend
      rw [List.getLast?_append, List.getLast?_cons, hreturn]
      rfl

/-- Lines that are written with one line ending each read back as they are. -/
theorem lines_flatMap {written : List (List Char)} (h : ∀ line ∈ written, '\n' ∉ line) :
    lines (written.flatMap (· ++ ['\r', '\n'])) = written := by
  induction written with
  | nil => rfl
  | cons line written ih =>
    rw [List.forall_mem_cons] at h
    have hline : '\n' ∉ line ++ ['\r'] := by simp [h.1]
    rw [List.flatMap_cons, List.append_cons line, List.append_assoc, List.singleton_append,
      lines_cons hline, chomp_append_return, ih h.2]

/-- With a line feed alone, where none ends in a carriage return. -/
theorem lines_flatMap_lf {written : List (List Char)}
    (h : ∀ line ∈ written, '\n' ∉ line ∧ line.getLast? ≠ some '\r') :
    lines (written.flatMap (· ++ ['\n'])) = written := by
  induction written with
  | nil => rfl
  | cons line written ih =>
    rw [List.forall_mem_cons] at h
    rw [List.flatMap_cons, List.append_assoc, List.singleton_append, lines_cons h.1.1,
      chomp_of_ne h.1.2, ih h.2]

/-- Texts joined by a line ending, with one more at the end. -/
theorem intercalate_append {newline : List Char} {written : List (List Char)} (h : written ≠ []) :
    newline.intercalate written ++ newline = written.flatMap (· ++ newline) := by
  induction written with
  | nil => exact absurd rfl h
  | cons line written ih =>
    cases written with
    | nil => simp
    | cons next written =>
      rw [List.intercalate_cons_cons, List.append_assoc, List.append_assoc, ih (by simp),
        @List.flatMap_cons _ _ line, List.append_assoc]

/-! ## Lines with line feeds between them -/

/-- Lines as one text. -/
def joinLines (lines : List (List Char)) : List Char := ['\n'].intercalate lines

/-- The bytes of lines, each with a line feed. -/
def lineBytes (lines : List (List Char)) : Nat := (lines.map (byteSize · + 1)).sum

section Joined

variable {line : List Char} {lines : List (List Char)}

theorem joinLines_singleton : joinLines [line] = line := List.intercalate_singleton

theorem joinLines_cons (h : lines ≠ []) :
    joinLines (line :: lines) = line ++ '\n' :: joinLines lines := by
  rw [joinLines, List.intercalate_cons_of_ne_nil h, List.append_assoc]
  rfl

theorem lineBytes_cons : lineBytes (line :: lines) = byteSize line + 1 + lineBytes lines := by
  rw [lineBytes, List.map_cons, List.sum_cons, ← lineBytes]

theorem byteSize_joinLines : byteSize (joinLines lines) = lineBytes lines - 1 := by
  induction lines with
  | nil => rfl
  | cons line lines ih =>
    cases hrest : lines with
    | nil => simp [joinLines_singleton, lineBytes]
    | cons next others =>
      have hone : byteSize ['\n'] = 1 := by decide
      have hpos : 1 ≤ lineBytes lines := by
        rw [hrest, lineBytes_cons]
        omega
      rw [← hrest, joinLines_cons (by simp [hrest]), byteSize_append, ← List.singleton_append,
        byteSize_append, ih, hone, lineBytes_cons]
      omega

/-- Some of the lines have no more bytes. -/
theorem lineBytes_le_of_sublist {kept : List (List Char)} (h : kept.Sublist lines) :
    lineBytes kept ≤ lineBytes lines := by
  induction h with
  | slnil => exact Nat.le_refl _
  | cons line _ ih =>
    rw [lineBytes_cons]
    omega
  | cons_cons line _ ih =>
    rw [lineBytes_cons, lineBytes_cons]
    omega

/-- The front of a text of lines: all of its lines but the last are whole. -/
theorem prefix_joinLines {front : List Char} (hlines : ∀ line ∈ lines, '\n' ∉ line)
    (h : front <+: joinLines lines) :
    joinLines (lines.take ((front.splitOn '\n').length - 1)) <+: front ∧
      front <+: joinLines (lines.take (front.splitOn '\n').length) := by
  induction lines generalizing front with
  | nil =>
    obtain rfl := List.prefix_nil.mp h
    exact ⟨List.nil_prefix, List.nil_prefix⟩
  | cons line lines ih =>
    rw [List.forall_mem_cons] at hlines
    cases hrest : lines with
    | nil =>
      rw [hrest, joinLines_singleton] at h
      have hfront : '\n' ∉ front := fun hmem ↦ hlines.1 (h.subset hmem)
      rw [List.splitOn_eq_singleton hfront]
      refine ⟨List.nil_prefix, ?_⟩
      rwa [List.length_singleton, List.take_succ_cons, List.take_zero, joinLines_singleton]
    | cons next others =>
      rw [← hrest]
      have hne : lines ≠ [] := by simp [hrest]
      obtain ⟨tail, htail⟩ := h
      rw [joinLines_cons hne] at htail
      by_cases hfront : '\n' ∈ front
      · obtain ⟨before, after, rfl, hbefore⟩ := List.eq_append_cons_of_mem hfront
        rw [List.append_assoc, List.cons_append] at htail
        obtain ⟨rfl, hafter⟩ : before = line ∧ after ++ tail = joinLines lines := by
          have hsplit := congrArg (List.splitOn '\n') htail
          rw [List.splitOn_append_cons_self_of_not_mem hbefore,
            List.splitOn_append_cons_self_of_not_mem hlines.1] at hsplit
          obtain ⟨rfl, -⟩ := List.cons.inj hsplit
          exact ⟨rfl, (List.cons.inj (List.append_cancel_left htail)).2⟩
        obtain ⟨hwhole, hlast⟩ := ih hlines.2 ⟨tail, hafter⟩
        obtain ⟨piece, pieces, hpieces⟩ :=
          List.exists_cons_of_ne_nil (List.splitOn_ne_nil '\n' after)
        rw [hpieces, List.length_cons, Nat.add_sub_cancel] at hwhole
        rw [List.splitOn_append_cons_self_of_not_mem hbefore, List.length_cons, Nat.add_sub_cancel,
          hpieces, List.length_cons, List.take_succ_cons, List.take_succ_cons]
        rw [hpieces, List.length_cons] at hlast
        constructor
        · by_cases hnone : lines.take pieces.length = []
          · rw [hnone, joinLines_singleton]
            exact List.prefix_append ..
          · rw [joinLines_cons hnone]
            exact (List.prefix_append_right_inj before).mpr
              (List.cons_prefix_cons.mpr ⟨rfl, hwhole⟩)
        · rw [joinLines_cons (by simp [hrest])]
          exact (List.prefix_append_right_inj before).mpr (List.cons_prefix_cons.mpr ⟨rfl, hlast⟩)
      · have hline : front <+: line := by
          rcases List.append_eq_append_iff.mp htail with ⟨more, rfl, -⟩ | ⟨more, rfl, hmore⟩
          · exact List.prefix_append ..
          · cases more with
            | nil => rw [List.append_nil]
            | cons c more =>
              obtain rfl := (List.cons.inj hmore).1
              exact absurd (List.mem_append_right line List.mem_cons_self) hfront
        rw [List.splitOn_eq_singleton hfront]
        refine ⟨List.nil_prefix, ?_⟩
        rwa [List.length_singleton, List.take_succ_cons, List.take_zero, joinLines_singleton]

end Joined

theorem containsText_iff (text needle : List Char) :
    containsText text needle = true ↔ needle <:+: text := by
  rw [containsText, List.any_eq_true, List.infix_iff_prefix_suffix]
  simp only [List.mem_tails, List.isPrefixOf_iff_prefix, and_comm]

end NullRouter.Base
