import Mathlib.Data.List.Basic

/-!
# Reading frames

Items that follow one another in a buffer, each known by the front of what is left: how they are
read off a whole buffer, and off one that arrives in pieces and keeps what is not yet complete.
-/

namespace NullRouter.Base

/-! ## Fronts -/

section Fronts

variable {α : Type}

/-- `get(..n)` and `get(n..)` of a slice. -/
def split? (n : Nat) (xs : List α) : Option (List α × List α) :=
  if n ≤ xs.length then some (xs.take n, xs.drop n) else none

@[simp] theorem split?_append (xs rest : List α) :
    split? xs.length (xs ++ rest) = some (xs, rest) := by
  rw [split?, if_pos (by simp), List.take_left, List.drop_left]

theorem split?_append_of_length {n : Nat} {xs rest : List α} (h : xs.length = n) :
    split? n (xs ++ rest) = some (xs, rest) := by
  rw [← h, split?_append]

theorem split?_eq_some {n : Nat} {xs front rest : List α} (h : split? n xs = some (front, rest)) :
    xs = front ++ rest ∧ front.length = n := by
  rw [split?] at h
  split at h
  · next hn =>
    obtain ⟨rfl, rfl⟩ := Prod.mk.inj (Option.some.inj h)
    exact ⟨(List.take_append_drop n xs).symm, List.length_take_of_le hn⟩
  · cases h

/-- Reads a value off the front of a buffer, and gives what is left. -/
abbrev Reader (α β : Type) := List α → Option (β × List α)

/-- What is read is told by a front of the buffer, whatever is left. -/
def Settled {β : Type} (read : Reader α β) : Prop :=
  ∀ ⦃xs : List α⦄ ⦃value : β⦄ ⦃rest : List α⦄, read xs = some (value, rest) →
    ∃ front, xs = front ++ rest ∧ ∀ more, read (front ++ more) = some (value, more)

theorem settled_split? (n : Nat) : Settled (split? n : Reader α (List α)) := by
  intro xs front rest h
  obtain ⟨hxs, hlength⟩ := split?_eq_some h
  exact ⟨front, hxs, fun more ↦ split?_append_of_length hlength⟩

theorem settled_some {β : Type} (value : β) : Settled (fun xs : List α ↦ some (value, xs)) := by
  intro xs v rest h
  obtain ⟨rfl, rfl⟩ := Prod.mk.inj (Option.some.inj h)
  exact ⟨[], rfl, fun more ↦ rfl⟩

theorem settled_none {β : Type} : Settled (fun _ : List α ↦ (none : Option (β × List α))) :=
  fun _ _ _ h ↦ nomatch h

/-- Reading on after what has been read. -/
theorem Settled.bind {β γ : Type} {read : Reader α β} (h : Settled read) {next : β → Reader α γ}
    (hnext : ∀ value, Settled (next value)) :
    Settled fun xs ↦ (read xs).bind fun read ↦ next read.1 read.2 := by
  intro xs value rest hread
  obtain ⟨⟨first, after⟩, hfirst, hsecond⟩ := Option.bind_eq_some_iff.mp hread
  obtain ⟨front, rfl, hfront⟩ := h hfirst
  obtain ⟨second, rfl, hlast⟩ := hnext first hsecond
  refine ⟨front ++ second, (List.append_assoc _ _ _).symm, fun more ↦ ?_⟩
  simp only [List.append_assoc, hfront, Option.bind_some, hlast]

end Fronts

/-! ## Items -/

/-- What the front of a buffer holds: too little to tell, an item of some length, or what no item
begins with. -/
inductive Front (β ε : Type) where
  | wait
  | item (value : β) (length : Nat)
  | stop (error : ε)
  deriving DecidableEq

/-- Reads the front of a buffer: what it has told once it tells of every longer buffer. -/
structure FrameReader (α β ε : Type) where
  front : List α → Front β ε
  front_nil : front [] = .wait
  length_le {buffer : List α} {value : β} {length : Nat} :
    front buffer = .item value length → 0 < length ∧ length ≤ buffer.length
  stable {buffer : List α} : front buffer ≠ .wait → ∀ rest, front (buffer ++ rest) = front buffer

/-- The items of a buffer, what is left of it, and what the reading stopped at. -/
structure Drained (α β ε : Type) where
  items : List β
  rest : List α
  error : Option ε

namespace Drained

variable {α β ε : Type}

/-- Items before others. -/
def prepend (items : List β) (d : Drained α β ε) : Drained α β ε :=
  { d with items := items ++ d.items }

@[simp] theorem items_prepend (items : List β) (d : Drained α β ε) :
    (d.prepend items).items = items ++ d.items := rfl

@[simp] theorem rest_prepend (items : List β) (d : Drained α β ε) :
    (d.prepend items).rest = d.rest := rfl

@[simp] theorem error_prepend (items : List β) (d : Drained α β ε) :
    (d.prepend items).error = d.error := rfl

@[simp] theorem prepend_nil (d : Drained α β ε) : d.prepend [] = d := rfl

theorem prepend_append (items later : List β) (d : Drained α β ε) :
    d.prepend (items ++ later) = (d.prepend later).prepend items := by
  rw [prepend, prepend, prepend, List.append_assoc]

end Drained

namespace FrameReader

variable {α β ε : Type} (reader : FrameReader α β ε)

/-- Reads at most so many items. -/
def drainWithin : Nat → List α → Drained α β ε
  | 0, buffer => ⟨[], buffer, none⟩
  | fuel + 1, buffer =>
    match reader.front buffer with
    | .wait => ⟨[], buffer, none⟩
    | .item value length => (drainWithin fuel (buffer.drop length)).prepend [value]
    | .stop error => ⟨[], buffer, some error⟩

/-- Reads every item at the front of a buffer: each takes some of it. -/
def drain (buffer : List α) : Drained α β ε := reader.drainWithin buffer.length buffer

/-- Reads a buffer that arrives in pieces: what is left of one waits for the next. -/
def drainAll : List (List α) → List α → Drained α β ε
  | [], pending => ⟨[], pending, none⟩
  | piece :: pieces, pending =>
    let drained := reader.drain (pending ++ piece)
    if drained.error.isSome then drained else (drainAll pieces drained.rest).prepend drained.items

variable {reader}

private theorem drainWithin_eq {fuel : Nat} {buffer : List α} (h : buffer.length ≤ fuel) :
    reader.drainWithin fuel buffer = reader.drain buffer := by
  induction fuel using Nat.strongRecOn generalizing buffer with
  | ind fuel ih =>
    cases buffer with
    | nil => cases fuel <;> simp [drain, drainWithin, reader.front_nil]
    | cons a buffer =>
      obtain ⟨fuel, rfl⟩ := Nat.exists_eq_add_one.mpr (Nat.zero_lt_of_lt h)
      rw [drain, List.length_cons, drainWithin, drainWithin]
      cases hfront : reader.front (a :: buffer) with
      | wait => rfl
      | stop error => rfl
      | item value length =>
        have hlength := reader.length_le hfront
        have hdrop : ((a :: buffer).drop length).length ≤ buffer.length := by
          rw [List.length_drop, List.length_cons]
          omega
        rw [List.length_cons] at h
        have hrest := ih fuel (by omega) (Nat.le_trans hdrop (by omega))
        by_cases hfuel : fuel = buffer.length
        · rw [hfuel]
        · have hless := ih buffer.length (by omega) hdrop
          simp only [hrest, hless]

/-- What is read of a buffer, by its front. -/
theorem drain_eq (buffer : List α) : reader.drain buffer = match reader.front buffer with
    | .wait => ⟨[], buffer, none⟩
    | .item value length => (reader.drain (buffer.drop length)).prepend [value]
    | .stop error => ⟨[], buffer, some error⟩ := by
  have hfuel : reader.drain buffer = reader.drainWithin (buffer.length + 1) buffer :=
    (drainWithin_eq (Nat.le_succ _)).symm
  rw [hfuel, drainWithin]
  cases hfront : reader.front buffer with
  | wait => rfl
  | stop error => rfl
  | item value length =>
    have hdrop : (buffer.drop length).length ≤ buffer.length := by
      rw [List.length_drop]
      omega
    simp only [drainWithin_eq hdrop]

theorem drain_of_wait {buffer : List α} (h : reader.front buffer = .wait) :
    reader.drain buffer = ⟨[], buffer, none⟩ := by
  rw [drain_eq, h]

theorem drain_of_item {buffer : List α} {value : β} {length : Nat}
    (h : reader.front buffer = .item value length) :
    reader.drain buffer = (reader.drain (buffer.drop length)).prepend [value] := by
  rw [drain_eq, h]

theorem drain_of_stop {buffer : List α} {error : ε} (h : reader.front buffer = .stop error) :
    reader.drain buffer = ⟨[], buffer, some error⟩ := by
  rw [drain_eq, h]

/-- A rule for every buffer: it holds of one that waits or stops, and of one with an item if it
holds of what is left without it. -/
theorem drain_induction {P : List α → Prop}
    (wait : ∀ buffer, reader.front buffer = .wait → P buffer)
    (item : ∀ buffer value length, reader.front buffer = .item value length →
      P (buffer.drop length) → P buffer)
    (stop : ∀ buffer error, reader.front buffer = .stop error → P buffer) (buffer : List α) :
    P buffer := by
  induction h : buffer.length using Nat.strongRecOn generalizing buffer with
  | ind n ih =>
    cases hfront : reader.front buffer with
    | wait => exact wait buffer hfront
    | stop error => exact stop buffer error hfront
    | item value length =>
      have hlength := reader.length_le hfront
      refine item buffer value length hfront (ih _ ?_ _ rfl)
      rw [List.length_drop]
      omega

/-- What is left of a buffer that did not stop the reading has no item at its front. -/
theorem front_rest (buffer : List α) (h : (reader.drain buffer).error = none) :
    reader.front (reader.drain buffer).rest = .wait := by
  induction buffer using @drain_induction _ _ _ reader with
  | wait buffer hfront => rwa [drain_of_wait hfront]
  | item buffer value length hfront ih =>
    rw [drain_of_item hfront] at h ⊢
    exact ih h
  | stop buffer error hfront =>
    rw [drain_of_stop hfront] at h
    cases h

/-- What is left of a buffer is its end. -/
theorem rest_suffix (buffer : List α) : (reader.drain buffer).rest <:+ buffer := by
  induction buffer using @drain_induction _ _ _ reader with
  | wait buffer hfront =>
    simp only [drain_of_wait hfront]
    exact List.suffix_rfl
  | item buffer value length hfront ih =>
    rw [drain_of_item hfront]
    exact List.IsSuffix.trans ih (List.drop_suffix length buffer)
  | stop buffer error hfront =>
    simp only [drain_of_stop hfront]
    exact List.suffix_rfl

/-- Taking off as many elements as the items of a buffer have leaves what is left. -/
theorem drop_consumed (buffer : List α) :
    buffer.drop (buffer.length - (reader.drain buffer).rest.length) = (reader.drain buffer).rest :=
  (List.suffix_iff_eq_drop.mp (rest_suffix buffer)).symm

/-- More of a buffer goes on where the reading of the first of it has come to. -/
theorem drain_append (buffer more : List α) :
    reader.drain (buffer ++ more) =
      if (reader.drain buffer).error.isSome then
        { reader.drain buffer with rest := (reader.drain buffer).rest ++ more }
      else (reader.drain ((reader.drain buffer).rest ++ more)).prepend
        (reader.drain buffer).items := by
  induction buffer using @drain_induction _ _ _ reader with
  | wait buffer hfront =>
    rw [drain_of_wait hfront]
    rfl
  | item buffer value length hfront ih =>
    have hmore : reader.front (buffer ++ more) = .item value length := by
      rw [reader.stable (by rw [hfront]; nofun), hfront]
    have hdrop : (buffer ++ more).drop length = buffer.drop length ++ more :=
      List.drop_append_of_le_length (reader.length_le hfront).2
    rw [drain_of_item hmore, hdrop, ih, drain_of_item hfront, Drained.error_prepend,
      Drained.rest_prepend, Drained.items_prepend]
    by_cases hstopped : (reader.drain (buffer.drop length)).error.isSome = true
    · rw [if_pos hstopped, if_pos hstopped]
      rfl
    · rw [if_neg hstopped, if_neg hstopped, Drained.prepend_append]
  | stop buffer error hfront =>
    have hmore : reader.front (buffer ++ more) = .stop error := by
      rw [reader.stable (by rw [hfront]; nofun), hfront]
    rw [drain_of_stop hmore, drain_of_stop hfront]
    rfl

/-- The items of a buffer and what stops its reading do not depend on its pieces. -/
theorem drainAll_spec (pieces : List (List α)) {pending : List α}
    (h : reader.front pending = .wait) :
    let whole := reader.drain (pending ++ pieces.flatten)
    let inPieces := reader.drainAll pieces pending
    inPieces.items = whole.items ∧ inPieces.error = whole.error ∧
      (whole.error = none → inPieces.rest = whole.rest) := by
  induction pieces generalizing pending with
  | nil =>
    simp only [List.flatten_nil, List.append_nil, drainAll, drain_of_wait h]
    exact ⟨trivial, trivial, fun _ ↦ trivial⟩
  | cons piece pieces ih =>
    simp only [List.flatten_cons, ← List.append_assoc, drain_append (pending ++ piece), drainAll]
    split
    · next hstopped =>
      refine ⟨rfl, rfl, fun hnone ↦ ?_⟩
      rw [hnone] at hstopped
      cases hstopped
    · next hstopped =>
      obtain ⟨hitems, herror, hrest⟩ := ih (front_rest _ (by simpa using hstopped))
      exact ⟨congrArg ((reader.drain (pending ++ piece)).items ++ ·) hitems, herror, hrest⟩

/-- A buffer that is read from the start. -/
theorem drainAll_nil (pieces : List (List α)) :
    let whole := reader.drain pieces.flatten
    let inPieces := reader.drainAll pieces []
    inPieces.items = whole.items ∧ inPieces.error = whole.error ∧
      (whole.error = none → inPieces.rest = whole.rest) :=
  drainAll_spec pieces reader.front_nil

/-- The items a reader reads, where what it reads is told by its bytes. -/
def ofSettled (read : Reader α β) (h : Settled read) (hnil : read [] = none) :
    FrameReader α β Empty where
  front xs := match read xs with
    | none => .wait
    | some (value, rest) => .item value (xs.length - rest.length)
  front_nil := by rw [hnil]
  length_le {buffer value length} hitem := by
    cases hread : read buffer with
    | none => simp only [hread, reduceCtorEq] at hitem
    | some result =>
      obtain ⟨front, hbuffer, hfront⟩ := h hread
      simp only [hread, Front.item.injEq] at hitem
      have hlength : buffer.length = front.length + result.2.length := by
        rw [hbuffer, List.length_append]
      have hpos : front ≠ [] := by
        rintro rfl
        exact nomatch hnil.symm.trans (hfront [])
      have := List.length_pos_iff.mpr hpos
      omega
  stable {buffer} hsome rest := by
    cases hread : read buffer with
    | none => simp only [hread, ne_eq, not_true] at hsome
    | some result =>
      obtain ⟨front, hbuffer, hfront⟩ := h hread
      have hmore : read (buffer ++ rest) = some (result.1, result.2 ++ rest) := by
        rw [hbuffer, List.append_assoc, hfront]
      simp only [hmore, List.length_append, Nat.add_sub_add_right]

/-- What is read by a reader, item by item. -/
theorem drain_ofSettled {read : Reader α β} (h : Settled read) (hnil : read [] = none)
    (buffer : List α) :
    (ofSettled read h hnil).drain buffer = match read buffer with
      | none => ⟨[], buffer, none⟩
      | some (value, rest) => ((ofSettled read h hnil).drain rest).prepend [value] := by
  cases hread : read buffer with
  | none =>
    rw [drain_of_wait]
    simp only [ofSettled, hread]
  | some result =>
    obtain ⟨front, hbuffer, -⟩ := h hread
    have hitem : (ofSettled read h hnil).front buffer =
        .item result.1 (buffer.length - result.2.length) := by
      simp only [ofSettled, hread]
    have hdrop : buffer.drop (buffer.length - result.2.length) = result.2 := by
      have hfront : buffer.length - result.2.length = front.length := by
        rw [hbuffer, List.length_append, Nat.add_sub_cancel]
      rw [hfront, hbuffer, List.drop_left]
    rw [drain_of_item hitem, hdrop]

/-- The items of a part of a buffer come first among those of the whole. -/
theorem items_prefix {part buffer : List α} (h : part <+: buffer) :
    (reader.drain part).items <+: (reader.drain buffer).items := by
  obtain ⟨more, rfl⟩ := h
  rw [drain_append]
  split
  · exact List.prefix_rfl
  · exact List.prefix_append _ _

end FrameReader
end NullRouter.Base
