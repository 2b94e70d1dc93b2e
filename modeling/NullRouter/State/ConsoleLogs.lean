import Mathlib.Data.List.DropRight
import NullRouter.Base.Grouping
import NullRouter.Base.Offsets
import NullRouter.Base.Run
import NullRouter.Base.Text

/-!
# The console logs

The ring of log lines that the state service keeps for the dashboard,
`services/state-actix/src/console_logs.rs`, and a reader that polls it with the cursor of its last
page. A line's number tells whether a reader is past it, and the first number that is held whether
lines were lost on the way.
-/

namespace NullRouter.State.ConsoleLogs

open NullRouter.Base

/-! ## The buffer -/

/-- `MAX_LINES`, `console_logs.rs:30`. -/
def maxLines : Nat := 200

/-- `MAX_LINE_BYTES`, `console_logs.rs:37`. -/
def maxLineBytes : Nat := 8 * 1024

/-- `Line`, `console_logs.rs:48`. -/
structure Line where
  service : String
  level : String
  message : String
  atMs : Nat
  seq : Nat
  deriving DecidableEq

/-- `Line::rendered`, `console_logs.rs:65`. -/
def Line.rendered (line : Line) : String :=
  "[" ++ line.service ++ "] " ++ line.level ++ " " ++ line.message

/-- `IncomingLine`, `console_logs.rs:195`. -/
structure IncomingLine where
  level : String
  message : String

/-- `Inner`, `console_logs.rs:77`. -/
structure Inner where
  lines : List Line := []
  nextSeq : Nat := 1
  generation : Nat := 0

/-- `Page`, `console_logs.rs:102`. -/
structure Page where
  lines : List Line
  logs : List String
  cursor : Nat
  generation : Nat
  dropped : Bool

/-- The longest front of a text that takes up at most some bytes. -/
def takeBytes : Nat → List Char → List Char
  | _, [] => []
  | budget, c :: cs =>
    if c.utf8Size ≤ budget then c :: takeBytes (budget - c.utf8Size) cs else []

/-- `truncate`, `console_logs.rs:200`. -/
def truncate (message : String) : String :=
  if message.utf8ByteSize ≤ maxLineBytes then message
  else String.ofList (takeBytes maxLineBytes message.toList) ++ "… [truncated]"

section Append

/- What the scrubber of the log shipper makes of a message. -/
variable (scrub : String → String) (service : String) (atMs : Nat)

/-- The line that is kept of one that comes in. -/
def stamp (seq : Nat) (line : IncomingLine) : Line :=
  ⟨service, line.level, truncate (scrub line.message), atMs, seq⟩

/-- The body of the loop of `append`, `console_logs.rs:131`. -/
def push (inner : Inner) (line : IncomingLine) : Inner :=
  let lines := inner.lines ++ [stamp scrub service atMs inner.nextSeq line]
  { inner with nextSeq := satAdd64 inner.nextSeq 1, lines := lines.drop (lines.length - maxLines) }

/-- `Buffer::append`, `console_logs.rs:122`: with how many lines were accepted. -/
def append (incoming : List IncomingLine) (inner : Inner) : Inner × Nat :=
  (incoming.foldl (push scrub service atMs) inner, incoming.length)

/-- The lines that come in, as they are kept from a number on. -/
def stamped (seq : Nat) : List IncomingLine → List Line
  | [] => []
  | line :: incoming =>
    stamp scrub service atMs seq line :: stamped (satAdd64 seq 1) incoming

end Append

/-- `Buffer::since`, `console_logs.rs:155`: nothing where its addition overflows. -/
def Inner.since (inner : Inner) (cursor : Option Nat) : Option Page :=
  let lines := match cursor with
    | some cursor => inner.lines.filter (cursor < ·.seq)
    | none => inner.lines
  let dropped := match cursor, inner.lines.head? with
    | some cursor, some oldest =>
      (checkedAdd64 cursor 1).map fun next ↦ decide (next < oldest.seq)
    | _, _ => some false
  dropped.map fun dropped ↦
    { lines
      logs := lines.map Line.rendered
      cursor := lines.getLast?.elim (cursor.getD 0) (·.seq)
      generation := inner.generation
      dropped }

/-- `Buffer::clear`, `console_logs.rs:186`. -/
def Inner.clear (inner : Inner) : Inner :=
  { inner with lines := [], generation := satAdd64 inner.generation 1 }

/-! ## A reader -/

/-- A buffer, all that was appended to it, and a reader with the cursor of its last page and the
lines it was given. -/
structure World where
  buffer : Inner := {}
  appended : List Line := []
  cursor : Nat := 0
  delivered : List Line := []

/-- What happens to a buffer: a batch of a service, a clear, or a poll of the reader. -/
inductive Action where
  | append (service : String) (atMs : Nat) (incoming : List IncomingLine)
  | clear
  | poll

/-- A step. A poll whose addition overflows does not return. -/
inductive Step (scrub : String → String) : World → Action → World → Prop where
  | append (w : World) (service : String) (atMs : Nat) (incoming : List IncomingLine) :
    Step scrub w (.append service atMs incoming)
      { w with
        buffer := (append scrub service atMs incoming w.buffer).1
        appended := w.appended ++ stamped scrub service atMs w.buffer.nextSeq incoming }
  | clear (w : World) : Step scrub w .clear { w with buffer := w.buffer.clear }
  | poll {w : World} {page : Page} (h : w.buffer.since (some w.cursor) = some page) :
    Step scrub w .poll
      { w with cursor := page.cursor, delivered := w.delivered ++ page.lines }

/-- A line that was appended and is no longer held: it was evicted or cleared. -/
def Lost (w : World) (line : Line) : Prop := line ∈ w.appended ∧ line ∉ w.buffer.lines

/-- No more lines are appended than have a number of 64 bits. -/
def Fits (w : World) : Action → Prop
  | .append _ _ incoming => w.appended.length + incoming.length ≤ u64Max
  | .clear | .poll => True

/-! ## What a run keeps -/

section Append

variable (scrub : String → String) (service : String) (atMs : Nat)

private theorem append_cons (line : IncomingLine) (incoming : List IncomingLine) (inner : Inner) :
    (append scrub service atMs (line :: incoming) inner).1 =
      (append scrub service atMs incoming (push scrub service atMs inner line)).1 := by
  rw [append, append, List.foldl_cons]

private theorem nextSeq_push (inner : Inner) (line : IncomingLine) :
    (push scrub service atMs inner line).nextSeq = satAdd64 inner.nextSeq 1 := rfl

/-- What is held after a batch is the end of what was held and the batch. -/
theorem lines_append_suffix (incoming : List IncomingLine) (inner : Inner) :
    (append scrub service atMs incoming inner).1.lines <:+
      inner.lines ++ stamped scrub service atMs inner.nextSeq incoming := by
  induction incoming generalizing inner with
  | nil =>
    rw [stamped, List.append_nil]
    exact List.suffix_refl _
  | cons line incoming ih =>
    rw [append_cons, stamped, List.append_cons]
    refine (ih (push scrub service atMs inner line)).trans ?_
    rw [nextSeq_push]
    have hkept : (push scrub service atMs inner line).lines <:+
        inner.lines ++ [stamp scrub service atMs inner.nextSeq line] := by
      simp only [push]
      apply List.drop_suffix
    obtain ⟨gone, hgone⟩ := hkept
    rw [← hgone]
    exact ⟨gone, (List.append_assoc _ _ _).symm⟩

/-- A batch counts on by its lines, up to the largest number. -/
theorem nextSeq_append (incoming : List IncomingLine) {inner : Inner}
    (h : inner.nextSeq ≤ u64Max) : (append scrub service atMs incoming inner).1.nextSeq =
      min (inner.nextSeq + incoming.length) u64Max := by
  induction incoming generalizing inner with
  | nil => rw [append, List.foldl_nil, List.length_nil, Nat.add_zero, Nat.min_eq_left h]
  | cons line incoming ih =>
    have hnext : (push scrub service atMs inner line).nextSeq ≤ u64Max := by
      rw [nextSeq_push]
      exact Nat.min_le_right _ _
    rw [append_cons, ih hnext, nextSeq_push, satAdd64, List.length_cons]
    omega

theorem length_stamped (seq : Nat) (incoming : List IncomingLine) :
    (stamped scrub service atMs seq incoming).length = incoming.length := by
  induction incoming generalizing seq with
  | nil => rfl
  | cons line incoming ih => rw [stamped, List.length_cons, List.length_cons, ih]

/-- The lines of a batch carry the numbers from the next one on, where there are so many. -/
theorem numberedFrom_stamped {seq : Nat} {incoming : List IncomingLine}
    (h : seq + incoming.length ≤ u64Max + 1) :
    NumberedFrom Line.seq seq (stamped scrub service atMs seq incoming) := by
  induction incoming generalizing seq with
  | nil => exact .nil
  | cons line incoming ih =>
    rw [stamped, NumberedFrom.cons_iff]
    refine ⟨rfl, ?_⟩
    cases incoming with
    | nil => exact .nil
    | cons next incoming =>
      simp only [List.length_cons] at h
      have hnext : satAdd64 seq 1 = seq + 1 := Nat.min_eq_left (by omega)
      rw [hnext]
      refine ih ?_
      rw [List.length_cons]
      omega

end Append

/-- A reader that keeps up: the lines that were appended are numbered from 1, the buffer holds the
last of them, and the reader was given, in order, all up to its cursor that it could still find. -/
structure Follows (w : World) : Prop where
  numbered : NumberedFrom Line.seq 1 w.appended
  next : w.buffer.nextSeq = min (w.appended.length + 1) u64Max
  fits : w.appended.length ≤ u64Max
  held : w.buffer.lines <:+ w.appended
  reached : w.cursor ≤ w.appended.length
  ordered : w.delivered.Pairwise fun line line' ↦ line.seq < line'.seq
  passed : ∀ line ∈ w.delivered, line.seq ≤ w.cursor
  found : ∀ line ∈ w.appended, line.seq ≤ w.cursor →
    line ∈ w.delivered ∨ line ∉ w.buffer.lines

variable {scrub : String → String} {w w' : World}

theorem follows_init : Follows {} where
  numbered := .nil
  next := rfl
  fits := Nat.zero_le _
  held := List.suffix_refl _
  reached := Nat.le_refl _
  ordered := List.Pairwise.nil
  passed _ h := absurd h List.not_mem_nil
  found _ h := absurd h List.not_mem_nil

/-- What a poll finds after a cursor. -/
theorem since_some {inner : Inner} {cursor : Nat} {page : Page}
    (h : inner.since (some cursor) = some page) :
    page.lines = inner.lines.filter (cursor < ·.seq) ∧
      page.cursor = page.lines.getLast?.elim cursor (·.seq) := by
  obtain ⟨dropped, -, rfl⟩ := Option.map_eq_some_iff.mp h
  exact ⟨rfl, rfl⟩

/-- A batch that fits leaves a reader where it was. -/
theorem Follows.append (h : Follows w) (service : String) (atMs : Nat)
    {incoming : List IncomingLine} (hfits : w.appended.length + incoming.length ≤ u64Max) :
    Follows { w with
      buffer := (ConsoleLogs.append scrub service atMs incoming w.buffer).1
      appended := w.appended ++ stamped scrub service atMs w.buffer.nextSeq incoming } := by
  have hlength := length_stamped scrub service atMs w.buffer.nextSeq incoming
  have hstamped : NumberedFrom Line.seq (1 + w.appended.length)
      (stamped scrub service atMs w.buffer.nextSeq incoming) := by
    cases incoming with
    | nil => exact .nil
    | cons line incoming =>
      rw [List.length_cons] at hfits
      have hnext : w.buffer.nextSeq = 1 + w.appended.length := by
        rw [h.next]
        omega
      rw [← hnext]
      refine numberedFrom_stamped scrub service atMs ?_
      rw [hnext, List.length_cons]
      omega
  have hsuffix := lines_append_suffix scrub service atMs incoming w.buffer
  constructor
  · exact NumberedFrom.append_iff.mpr ⟨h.numbered, hstamped⟩
  · have hlarge : w.buffer.nextSeq ≤ u64Max := by
      rw [h.next]
      exact Nat.min_le_right _ _
    have hcount := nextSeq_append scrub service atMs incoming hlarge
    rw [h.next] at hcount
    rw [List.length_append, hlength, hcount]
    omega
  · rw [List.length_append, hlength]
    exact hfits
  · obtain ⟨gone, hgone⟩ := h.held
    refine hsuffix.trans ⟨gone, ?_⟩
    rw [← List.append_assoc, hgone]
  · rw [List.length_append]
    exact Nat.le_trans h.reached (Nat.le_add_right _ _)
  · exact h.ordered
  · exact h.passed
  · intro line hline (hcursor : line.seq ≤ w.cursor)
    rcases List.mem_append.mp hline with hold | hnew
    · rcases h.found line hold hcursor with hdelivered | hlost
      · exact .inl hdelivered
      · refine .inr fun hheld ↦ ?_
        rcases List.mem_append.mp (hsuffix.subset hheld) with hkept | hnew
        · exact hlost hkept
        · have hlow := (hstamped.bounds hnew).1
          have hreached := h.reached
          omega
    · have hlow := (hstamped.bounds hnew).1
      have hreached := h.reached
      omega

/-- A poll takes a reader past what it is given. -/
theorem Follows.poll (h : Follows w) {page : Page}
    (hpage : w.buffer.since (some w.cursor) = some page) :
    Follows { w with cursor := page.cursor, delivered := w.delivered ++ page.lines } := by
  obtain ⟨hlines, hcursor⟩ := since_some hpage
  have hmem : ∀ line ∈ page.lines, line ∈ w.buffer.lines ∧ w.cursor < line.seq := by
    intro line hline
    rw [hlines, List.mem_filter] at hline
    exact ⟨hline.1, by simpa using hline.2⟩
  have hsorted : page.lines.Pairwise fun line line' ↦ line.seq < line'.seq := by
    rw [hlines]
    exact (h.numbered.pairwise.sublist h.held.sublist).filter _
  have hlast : w.cursor ≤ page.cursor ∧ page.cursor ≤ w.appended.length ∧
      ∀ line ∈ page.lines, line.seq ≤ page.cursor := by
    rw [hcursor]
    cases hlast : page.lines.getLast? with
    | none =>
      rw [List.getLast?_eq_none_iff.mp hlast]
      exact ⟨Nat.le_refl _, h.reached, fun _ hline ↦ absurd hline List.not_mem_nil⟩
    | some last =>
      obtain ⟨hheld, hafter⟩ := hmem last (List.mem_of_getLast? hlast)
      have hbounds := h.numbered.bounds (h.held.subset hheld)
      refine ⟨Nat.le_of_lt hafter, ?_, fun line hline ↦ number_le_getLast hsorted hline hlast⟩
      show last.seq ≤ w.appended.length
      omega
  obtain ⟨hon, hreached, hpassed⟩ := hlast
  refine ⟨h.numbered, h.next, h.fits, h.held, hreached, ?_, ?_, ?_⟩
  · refine List.pairwise_append.mpr ⟨h.ordered, hsorted, ?_⟩
    intro line hline line' hline'
    exact Nat.lt_of_le_of_lt (h.passed line hline) (hmem line' hline').2
  · intro line hline
    rcases List.mem_append.mp hline with hold | hnew
    · exact Nat.le_trans (h.passed line hold) hon
    · exact hpassed line hnew
  · intro line hline _
    by_cases hpast : line.seq ≤ w.cursor
    · rcases h.found line hline hpast with hdelivered | hlost
      · exact .inl (List.mem_append_left _ hdelivered)
      · exact .inr hlost
    · by_cases hheld : line ∈ w.buffer.lines
      · refine .inl (List.mem_append_right _ ?_)
        rw [hlines, List.mem_filter]
        exact ⟨hheld, by simpa using hpast⟩
      · exact .inr hheld

/-- A clear leaves a reader where it was. -/
theorem Follows.clear (h : Follows w) : Follows { w with buffer := w.buffer.clear } where
  numbered := h.numbered
  next := h.next
  fits := h.fits
  held := List.nil_suffix
  reached := h.reached
  ordered := h.ordered
  passed := h.passed
  found _ _ _ := .inr List.not_mem_nil

/-- Every run whose batches fit keeps its reader up. -/
theorem follows_of_run {actions : List Action}
    (h : Run (Guarded Fits (Step scrub)) {} actions w) : Follows w := by
  refine h.invariant Follows ?_ follows_init
  rintro w action w' hfollows ⟨hfits, hstep⟩
  cases hstep with
  | append service atMs incoming => exact hfollows.append service atMs hfits
  | clear => exact hfollows.clear
  | poll hpage => exact hfollows.poll hpage

/-! ## What a page says -/

/-- A poll returns unless its cursor is the largest number and a line is held. -/
theorem isSome_since_iff {inner : Inner} {cursor : Nat} (h : cursor ≤ u64Max) :
    (inner.since (some cursor)).isSome = true ↔ cursor < u64Max ∨ inner.lines = [] := by
  rw [Inner.since, Option.isSome_map]
  cases hlines : inner.lines with
  | nil => simp
  | cons oldest lines =>
    simp only [List.head?_cons, Option.isSome_map, checkedAdd64, reduceCtorEq, or_false]
    split
    · next hfits =>
      constructor
      · intro _
        omega
      · intro _
        rfl
    · next hfits =>
      constructor
      · intro hsome
        cases hsome
      · intro hless
        omega

/-- The flag of a page says whether the first line that is held comes after the next one. -/
theorem dropped_since {inner : Inner} {cursor : Nat} {page : Page}
    (h : inner.since (some cursor) = some page) :
    page.dropped = true ↔
      ∃ oldest, inner.lines.head? = some oldest ∧ cursor + 1 < oldest.seq := by
  obtain ⟨dropped, hdropped, rfl⟩ := Option.map_eq_some_iff.mp h
  cases hlines : inner.lines with
  | nil =>
    rw [hlines] at hdropped
    cases hdropped
    simp
  | cons oldest lines =>
    rw [hlines] at hdropped
    simp only [List.head?_cons, checkedAdd64] at hdropped
    split at hdropped
    · cases hdropped
      simp
    · cases hdropped

/-- A line was appended after a reader's cursor and lost before the reader was given it. -/
def Missed (w : World) : Prop :=
  ∃ line, Lost w line ∧ w.cursor < line.seq ∧ line ∉ w.delivered

/-- Of a reader that keeps up, the lines it missed are those after its cursor and before the first
that is held. -/
theorem missed_iff (h : Follows w) :
    Missed w ↔ w.cursor + w.buffer.lines.length < w.appended.length := by
  obtain ⟨gone, hgone⟩ := h.held
  have hnumbered := h.numbered
  rw [← hgone, NumberedFrom.append_iff] at hnumbered
  have hlength : w.appended.length = gone.length + w.buffer.lines.length := by
    rw [← hgone, List.length_append]
  constructor
  · rintro ⟨line, ⟨hline, hlost⟩, hafter, -⟩
    rw [← hgone] at hline
    rcases List.mem_append.mp hline with hmem | hheld
    · have hbounds := hnumbered.1.bounds hmem
      omega
    · exact absurd hheld hlost
  · intro hless
    have hnext : ∃ line ∈ gone, line.seq = w.cursor + 1 :=
      hnumbered.1.exists_mem (by omega) (by omega)
    obtain ⟨line, hmem, hseq⟩ := hnext
    have happended : line ∈ w.appended := by
      rw [← hgone]
      exact List.mem_append_left _ hmem
    refine ⟨line, ⟨happended, ?_⟩, by omega, ?_⟩
    · intro hheld
      have hbounds := hnumbered.2.bounds hheld
      omega
    · intro hdelivered
      have hpassed := h.passed line hdelivered
      omega

/-- The flag of a page is right where a line is held: lines before the first of them are gone. -/
theorem dropped_iff_missed (h : Follows w) {page : Page}
    (hpage : w.buffer.since (some w.cursor) = some page) (hheld : w.buffer.lines ≠ []) :
    page.dropped = true ↔ Missed w := by
  obtain ⟨oldest, lines, hlines⟩ := List.exists_cons_of_ne_nil hheld
  obtain ⟨gone, hgone⟩ := h.held
  have hnumbered := h.numbered
  rw [← hgone, NumberedFrom.append_iff, hlines, NumberedFrom.cons_iff] at hnumbered
  have hlength : w.appended.length = gone.length + w.buffer.lines.length := by
    rw [← hgone, List.length_append]
  rw [dropped_since hpage, missed_iff h]
  constructor
  · rintro ⟨first, hfirst, hless⟩
    rw [hlines, List.head?_cons, Option.some_inj] at hfirst
    rw [← hfirst] at hless
    omega
  · intro hless
    refine ⟨oldest, by rw [hlines, List.head?_cons], ?_⟩
    omega

/-- Nothing is flagged where nothing is held. -/
theorem dropped_of_nil {inner : Inner} {cursor : Nat} {page : Page}
    (hpage : inner.since (some cursor) = some page) (hnone : inner.lines = []) :
    page.dropped = false := by
  rw [← Bool.not_eq_true, dropped_since hpage, hnone]
  simp

section Append

variable (scrub : String → String) (service : String) (atMs : Nat)

private theorem rtake_rtake_append {α : Type} (n : Nat) (old new : List α) :
    (old.rtake n ++ new).rtake n = (old ++ new).rtake n := by
  have hdrop : old.rtake n ++ new = (old ++ new).drop (old.length - n) :=
    (List.drop_append_of_le_length (Nat.sub_le _ _)).symm
  rw [hdrop, List.rtake, List.rtake, List.drop_drop]
  congr 1
  simp only [List.length_drop, List.length_append]
  omega

/-- A batch leaves the last lines of what was held and the batch. -/
theorem lines_append (incoming : List IncomingLine) {inner : Inner} {held : List Line}
    (h : inner.lines = held.rtake maxLines) :
    (append scrub service atMs incoming inner).1.lines =
      (held ++ stamped scrub service atMs inner.nextSeq incoming).rtake maxLines := by
  induction incoming generalizing inner held with
  | nil => rw [stamped, List.append_nil, ← h, append, List.foldl_nil]
  | cons line incoming ih =>
    have hpush : (push scrub service atMs inner line).lines =
        (held ++ [stamp scrub service atMs inner.nextSeq line]).rtake maxLines := by
      rw [← rtake_rtake_append, ← h, List.rtake, push]
    rw [append, List.foldl_cons, stamped, List.append_cons]
    exact ih hpush

private theorem takeBytes_le (budget : Nat) (text : List Char) :
    byteSize (takeBytes budget text) ≤ budget := by
  induction text generalizing budget with
  | nil => exact Nat.zero_le _
  | cons c text ih =>
    rw [takeBytes]
    split
    · next hle =>
      rw [byteSize_cons]
      have := ih (budget - c.utf8Size)
      omega
    · exact Nat.zero_le _

private theorem truncate_le (message : String) :
    (truncate message).utf8ByteSize ≤ maxLineBytes + "… [truncated]".utf8ByteSize := by
  unfold truncate
  split
  · omega
  · rw [String.utf8ByteSize_append]
    exact Nat.add_le_add_right (takeBytes_le maxLineBytes message.toList) _

/-- A line whose message has 8192 bytes at most, but for the mark that it was cut. -/
def IsShort (line : Line) : Prop :=
  line.message.utf8ByteSize ≤ maxLineBytes + "… [truncated]".utf8ByteSize

private theorem stamped_isShort {line : Line} {incoming : List IncomingLine} {seq : Nat}
    (h : line ∈ stamped scrub service atMs seq incoming) : IsShort line := by
  induction incoming generalizing seq with
  | nil => exact absurd h List.not_mem_nil
  | cons first incoming ih =>
    rw [stamped, List.mem_cons] at h
    rcases h with rfl | h
    · exact truncate_le _
    · exact ih h

end Append

private theorem exists_new_of_run {actions : List Action} {new : List Line}
    (hlines : w.buffer.lines = new.rtake maxLines) (hshort : ∀ line ∈ new, IsShort line)
    (h : Run (Step scrub) w actions w') :
    ∃ new', w'.buffer.lines = new'.rtake maxLines ∧ (∀ line ∈ new', IsShort line) ∧
      (.clear ∉ actions → ∀ before, w.appended = before ++ new → w'.appended = before ++ new') := by
  induction h generalizing new with
  | nil => exact ⟨new, hlines, hshort, fun _ _ h ↦ h⟩
  | cons hstep _ ih =>
    cases hstep with
    | append service atMs incoming =>
      obtain ⟨new', hlines', hshort', hkeep⟩ := ih
        (lines_append scrub service atMs incoming hlines) fun line hline ↦
          (List.mem_append.mp hline).elim (hshort line) (stamped_isShort scrub service atMs)
      refine ⟨new', hlines', hshort', fun hclear before hbefore ↦ ?_⟩
      refine hkeep (fun h ↦ hclear (List.mem_cons_of_mem _ h)) before ?_
      rw [hbefore, List.append_assoc]
    | clear =>
      obtain ⟨new', hlines', hshort', -⟩ := ih (List.rtake_nil _).symm (by simp)
      exact ⟨new', hlines', hshort', fun hclear ↦ absurd List.mem_cons_self hclear⟩
    | poll =>
      obtain ⟨new', hlines', hshort', hkeep⟩ := ih hlines hshort
      exact ⟨new', hlines', hshort', fun hclear ↦
        hkeep fun h ↦ hclear (List.mem_cons_of_mem _ h)⟩

/-- A line of the API service. -/
def oneLine : Action := .append "api" 1700000000000 [⟨"info", "listening"⟩]

end NullRouter.State.ConsoleLogs
