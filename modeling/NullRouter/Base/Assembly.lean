import Mathlib.Data.List.Nodup
import NullRouter.Base.Text

/-!
# Texts that arrive in pieces

Several texts are under way at once, each under a key of its own. A text is opened by a start, whose
parts follow, or by a whole; a receiver drops what comes before the opening, and a whole that
comes after it.
-/

namespace NullRouter.Base

/-- A piece of a text: its start, a part of it, or all of it. -/
inductive Piece where
  | start
  | part (text : String)
  | whole (text : String)
  deriving DecidableEq

namespace Piece

/-- The part that a piece is. -/
def partText : Piece → String
  | part text => text
  | _ => ""

/-- The whole that a piece is. -/
def whole? : Piece → Option String
  | whole text => some text
  | _ => none

/-- Whether a piece opens a text. -/
def opens : Piece → Bool
  | part _ => false
  | _ => true

end Piece

/-- The parts together. -/
def partsOf (pieces : List Piece) : String := String.join (pieces.map Piece.partText)

/-- The first whole, empty where there is none. -/
def wholeOf (pieces : List Piece) : String := (pieces.findSome? Piece.whole?).getD ""

/-- What is supplied of a text: its parts, or where these are empty its first whole. -/
def supplied (pieces : List Piece) : String :=
  if partsOf pieces = "" then wholeOf pieces else partsOf pieces

/-- What a receiver makes of the pieces of a text. -/
def gathered : List Piece → String
  | [] => ""
  | .start :: late => partsOf late
  | .part _ :: pieces => gathered pieces
  | .whole text :: late => text ++ partsOf late

/-- The text is opened, and no piece of it is lost or comes twice: after a start come the parts,
and no part before it, unless there are no parts and no whole; a whole that opens the text comes
without parts, or after parts that are the same text. -/
def Unspoilt (early : String) : List Piece → Prop
  | [] => False
  | .start :: late => early = "" ∧ (partsOf late = "" → wholeOf late = "")
  | .part text :: pieces => Unspoilt (early ++ text) pieces
  | .whole text :: late => early ++ partsOf late = "" ∨ text = early

section Pieces

variable {pieces : List Piece}

@[simp] theorem partsOf_nil : partsOf [] = "" := rfl

@[simp] theorem partsOf_cons (piece : Piece) (pieces : List Piece) :
    partsOf (piece :: pieces) = piece.partText ++ partsOf pieces := by
  rw [partsOf, List.map_cons, String.join_cons]
  rfl

@[simp] theorem partText_start : Piece.start.partText = "" := rfl

@[simp] theorem partText_whole (text : String) : (Piece.whole text).partText = "" := rfl

/-- A text that nothing spoils is opened. -/
theorem Unspoilt.any_opens {early : String} (h : Unspoilt early pieces) :
    pieces.any Piece.opens = true := by
  induction pieces generalizing early with
  | nil => cases h
  | cons piece pieces ih =>
    cases piece with
    | start => rfl
    | part text => exact ih h
    | whole text => rfl

private theorem unspoilt_iff_early (early : String) (hopens : pieces.any Piece.opens = true) :
    gathered pieces = (if early ++ partsOf pieces = "" then wholeOf pieces
      else early ++ partsOf pieces) ↔ Unspoilt early pieces := by
  induction pieces generalizing early with
  | nil => cases hopens
  | cons piece pieces ih =>
    cases piece with
    | part text =>
      rw [gathered, partsOf_cons, Piece.partText, ← String.append_assoc, Unspoilt]
      exact ih (early ++ text) hopens
    | start =>
      rw [gathered, partsOf_cons, partText_start, String.empty_append, Unspoilt]
      by_cases hempty : early ++ partsOf pieces = ""
      · obtain ⟨hearly, hparts⟩ := String.append_eq_empty_iff.mp hempty
        rw [if_pos hempty, hparts]
        refine ⟨fun h ↦ ⟨hearly, fun _ ↦ h.symm⟩, fun h ↦ (h.2 rfl).symm⟩
      · rw [if_neg hempty, eq_comm, String.append_eq_right_iff]
        refine ⟨fun h ↦ ⟨h, fun hparts ↦ ?_⟩, And.left⟩
        exact absurd (String.append_eq_empty_iff.mpr ⟨h, hparts⟩) hempty
    | whole text =>
      rw [gathered, partsOf_cons, partText_whole, String.empty_append, Unspoilt]
      by_cases hempty : early ++ partsOf pieces = ""
      · rw [if_pos hempty]
        refine ⟨fun _ ↦ .inl hempty, fun _ ↦ ?_⟩
        rw [(String.append_eq_empty_iff.mp hempty).2, String.append_empty]
        rfl
      · rw [if_neg hempty, String.append_left_inj, or_iff_right hempty]

/-- A text that is opened is received as it is supplied exactly where nothing spoils it. -/
theorem gathered_eq_supplied_iff (hopens : pieces.any Piece.opens = true) :
    gathered pieces = supplied pieces ↔ Unspoilt "" pieces := by
  have h := unspoilt_iff_early "" hopens
  rwa [String.empty_append] at h

end Pieces

section Keys

universe u

variable {κ : Type u} [DecidableEq κ]

/-- The pieces under a key. -/
def piecesOf (key : κ) (log : List (κ × Piece)) : List Piece :=
  (log.filter (·.1 = key)).map Prod.snd

/-- What a receiver is given: a text under a key, which it may be told then. -/
structure Delivery (κ : Type u) where
  key : κ
  text : String
  opening : Bool

/-- The keys that are open after a piece. -/
def openAfter (opened : List κ) (first : κ × Piece) : List κ :=
  if first.2.opens = true ∧ first.1 ∉ opened then opened ++ [first.1] else opened

/-- What is delivered of a piece. -/
def handOver (opened : List κ) (first : κ × Piece) : List (Delivery κ) :=
  match first.2 with
  | .start => [⟨first.1, "", true⟩]
  | .part text => if first.1 ∈ opened then [⟨first.1, text, false⟩] else []
  | .whole text => if first.1 ∈ opened then [] else [⟨first.1, text, true⟩]

/-- The keys that are open after some pieces, in the order they were opened. -/
def openedBy (opened : List κ) (log : List (κ × Piece)) : List κ := log.foldl openAfter opened

/-- What is delivered of some pieces. -/
def deliveries : List κ → List (κ × Piece) → List (Delivery κ)
  | _, [] => []
  | opened, first :: log => handOver opened first ++ deliveries (openAfter opened first) log

/-- The text that is delivered under a key. -/
def deliveredTo (key : κ) (given : List (Delivery κ)) : String :=
  String.join ((given.filter (·.key = key)).map Delivery.text)

variable {opened : List κ} {log : List (κ × Piece)} {key : κ}

@[simp] theorem piecesOf_nil : piecesOf key [] = [] := rfl

theorem piecesOf_cons (key : κ) (first : κ × Piece) (log : List (κ × Piece)) :
    piecesOf key (first :: log) =
      if first.1 = key then first.2 :: piecesOf key log else piecesOf key log := by
  rw [piecesOf, List.filter_cons]
  by_cases h : first.1 = key
  · rw [if_pos (decide_eq_true h), if_pos h]
    rfl
  · rw [if_neg (by simpa using h), if_neg h]
    rfl

/-- A key with pieces is in the log. -/
theorem mem_keys_of_any_opens (h : (piecesOf key log).any Piece.opens = true) :
    key ∈ log.map Prod.fst := by
  obtain ⟨piece, hpiece, -⟩ := List.any_eq_true.mp h
  obtain ⟨first, hfirst, rfl⟩ := List.mem_map.mp hpiece
  obtain ⟨hmem, hkey⟩ := List.mem_filter.mp hfirst
  exact List.mem_map.mpr ⟨first, hmem, of_decide_eq_true hkey⟩

theorem deliveredTo_append (key : κ) (given more : List (Delivery κ)) :
    deliveredTo key (given ++ more) = deliveredTo key given ++ deliveredTo key more := by
  rw [deliveredTo, List.filter_append, List.map_append, String.join_append]
  rfl

theorem mem_openAfter {first : κ × Piece} :
    key ∈ openAfter opened first ↔ key ∈ opened ∨ (first.2.opens = true ∧ first.1 = key) := by
  unfold openAfter
  split
  · next h => rw [List.mem_append, List.mem_singleton, eq_comm, and_iff_right h.1]
  · next h =>
    refine ⟨.inl, ?_⟩
    rintro (hkey | ⟨hopens, rfl⟩)
    · exact hkey
    · exact not_not.mp fun hkey ↦ h ⟨hopens, hkey⟩

theorem prefix_openAfter (opened : List κ) (first : κ × Piece) :
    opened <+: openAfter opened first := by
  unfold openAfter
  split
  · exact List.prefix_append ..
  · exact List.prefix_rfl

theorem nodup_openAfter (h : opened.Nodup) (first : κ × Piece) :
    (openAfter opened first).Nodup := by
  unfold openAfter
  split
  · next hfirst =>
    rw [List.nodup_append]
    refine ⟨h, List.nodup_singleton _, ?_⟩
    rintro a ha b hb rfl
    exact hfirst.2 (List.mem_singleton.mp hb ▸ ha)
  · exact h

theorem openedBy_singleton (opened : List κ) (first : κ × Piece) :
    openedBy opened [first] = openAfter opened first := rfl

theorem deliveries_singleton (opened : List κ) (first : κ × Piece) :
    deliveries opened [first] = handOver opened first := List.append_nil _

theorem openedBy_append (opened : List κ) (log more : List (κ × Piece)) :
    openedBy opened (log ++ more) = openedBy (openedBy opened log) more := List.foldl_append

theorem deliveries_append (opened : List κ) (log more : List (κ × Piece)) :
    deliveries opened (log ++ more) =
      deliveries opened log ++ deliveries (openedBy opened log) more := by
  induction log generalizing opened with
  | nil => rfl
  | cons first log ih =>
    rw [List.cons_append, deliveries, ih, ← List.append_assoc]
    rfl

/-- What is open stays so, at its place. -/
theorem prefix_openedBy (opened : List κ) (log : List (κ × Piece)) :
    opened <+: openedBy opened log := by
  induction log generalizing opened with
  | nil => exact List.prefix_rfl
  | cons first log ih => exact (prefix_openAfter opened first).trans (ih _)

theorem nodup_openedBy (h : opened.Nodup) (log : List (κ × Piece)) :
    (openedBy opened log).Nodup := by
  induction log generalizing opened with
  | nil => exact h
  | cons first log ih => exact ih (nodup_openAfter h first)

/-- A key is open that was, or whose pieces open it. -/
theorem mem_openedBy :
    key ∈ openedBy opened log ↔
      key ∈ opened ∨ (piecesOf key log).any Piece.opens = true := by
  induction log generalizing opened with
  | nil => simp [openedBy]
  | cons first log ih =>
    rw [openedBy, List.foldl_cons]
    refine ih.trans ?_
    rw [mem_openAfter, piecesOf_cons, or_assoc]
    by_cases h : first.1 = key
    · simp [h]
    · simp [h]

private theorem deliveredTo_handOver_of_ne {first : κ × Piece} (h : first.1 ≠ key) :
    deliveredTo key (handOver opened first) = "" := by
  obtain ⟨k, piece⟩ := first
  have hkey (text : String) (opening : Bool) :
      deliveredTo key [⟨k, text, opening⟩] = "" := by
    rw [deliveredTo, List.filter_cons_of_neg (by simpa using h)]
    rfl
  cases piece with
  | start => exact hkey ..
  | part text =>
    simp only [handOver]
    split
    · exact hkey ..
    · rfl
  | whole text =>
    simp only [handOver]
    split
    · rfl
    · exact hkey ..

private theorem deliveredTo_singleton (key : κ) (text : String) (opening : Bool) :
    deliveredTo key [⟨key, text, opening⟩] = text := by
  simp [deliveredTo, String.join_cons]

/-- To a key that is open its parts are delivered, to another what is received of it. -/
theorem deliveredTo_deliveries (key : κ) (opened : List κ) (log : List (κ × Piece)) :
    deliveredTo key (deliveries opened log) =
      if key ∈ opened then partsOf (piecesOf key log) else gathered (piecesOf key log) := by
  induction log generalizing opened with
  | nil => exact (ite_self _).symm
  | cons first log ih =>
    obtain ⟨k, piece⟩ := first
    rw [deliveries, deliveredTo_append, ih, piecesOf_cons]
    by_cases hk : k = key
    · subst hk
      rw [if_pos rfl]
      by_cases hopen : k ∈ opened
      · have hafter : k ∈ openAfter opened (k, piece) := mem_openAfter.mpr (.inl hopen)
        rw [if_pos hafter, if_pos hopen, partsOf_cons]
        congr 1
        cases piece with
        | start => exact deliveredTo_singleton ..
        | part text =>
          simp only [handOver, if_pos hopen]
          exact deliveredTo_singleton ..
        | whole text =>
          simp only [handOver, if_pos hopen]
          rfl
      · rw [if_neg hopen]
        cases piece with
        | start =>
          rw [if_pos (mem_openAfter.mpr (.inr ⟨rfl, rfl⟩)), gathered]
          simp only [handOver]
          rw [deliveredTo_singleton, String.empty_append]
        | part text =>
          have hafter : k ∉ openAfter opened (k, .part text) := by
            rw [mem_openAfter]
            rintro (h | ⟨h, -⟩)
            · exact hopen h
            · cases h
          rw [if_neg hafter, gathered]
          simp only [handOver, if_neg hopen]
          exact String.empty_append
        | whole text =>
          rw [if_pos (mem_openAfter.mpr (.inr ⟨rfl, rfl⟩)), gathered]
          simp only [handOver, if_neg hopen]
          rw [deliveredTo_singleton]
    · have hafter : key ∈ openAfter opened (k, piece) ↔ key ∈ opened := by
        rw [mem_openAfter, or_iff_left]
        exact fun h ↦ hk h.2
      rw [if_neg hk, deliveredTo_handOver_of_ne hk, String.empty_append]
      simp only [hafter]

/-- Deliveries go to open keys. -/
theorem mem_openedBy_of_delivery {given : Delivery κ} (h : given ∈ deliveries opened log) :
    given.key ∈ openedBy opened log := by
  induction log generalizing opened with
  | nil => cases h
  | cons first log ih =>
    rw [openedBy, List.foldl_cons]
    rcases List.mem_append.mp h with h | h
    · refine (prefix_openedBy _ log).subset ?_
      obtain ⟨k, piece⟩ := first
      cases piece with
      | start =>
        rw [List.mem_singleton.mp h]
        exact mem_openAfter.mpr (.inr ⟨rfl, rfl⟩)
      | part text =>
        simp only [handOver] at h
        split at h
        · next hk =>
          rw [List.mem_singleton.mp h]
          exact mem_openAfter.mpr (.inl hk)
        · cases h
      | whole text =>
        simp only [handOver] at h
        split at h
        · cases h
        · rw [List.mem_singleton.mp h]
          exact mem_openAfter.mpr (.inr ⟨rfl, rfl⟩)
    · exact ih h

/-- A key that becomes open is told. -/
theorem exists_opening (h : key ∈ openedBy opened log) (hnew : key ∉ opened) :
    ∃ given ∈ deliveries opened log, given.key = key ∧ given.opening = true := by
  induction log generalizing opened with
  | nil => exact absurd h hnew
  | cons first log ih =>
    obtain ⟨k, piece⟩ := first
    rw [openedBy, List.foldl_cons] at h
    by_cases hafter : key ∈ openAfter opened (k, piece)
    · rcases mem_openAfter.mp hafter with hold | ⟨hopens, rfl⟩
      · exact absurd hold hnew
      · cases piece with
        | start => exact ⟨⟨k, "", true⟩, List.mem_append_left _ (List.mem_singleton_self _), rfl, rfl⟩
        | part text => cases hopens
        | whole text =>
          refine ⟨⟨k, text, true⟩, List.mem_append_left _ ?_, rfl, rfl⟩
          simp only [handOver]
          rw [if_neg hnew]
          exact List.mem_singleton_self _
    · obtain ⟨given, hgiven, hkey⟩ := ih h hafter
      exact ⟨given, List.mem_append_right _ hgiven, hkey⟩

end Keys

end NullRouter.Base
