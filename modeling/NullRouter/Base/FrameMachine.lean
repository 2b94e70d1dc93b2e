import NullRouter.Base.FrameReader

/-!
# Machines over frames

A machine takes the frames of a buffer in turn and gives outputs for each, until a frame ends it or
what follows is no frame. What it gives for a buffer that arrives in pieces is what it gives for the
whole; where an end takes back the outputs of the piece it came with, only some of those before it
are left.
-/

namespace NullRouter.Base

/-- What a machine does with one frame: outputs, its state after them, and an end. -/
structure Turn (δ γ τ : Type) where
  outputs : List γ
  state : δ
  ended : Option τ

/-- What a machine has done: the outputs of the frames it went on from, those of the frame that
ended it, its state, and the end. -/
structure Ran (δ γ τ : Type) where
  before : List γ
  last : List γ
  state : δ
  ended : Option τ

namespace Ran

variable {δ γ τ : Type}

/-- All outputs. -/
def outputs (ran : Ran δ γ τ) : List γ := ran.before ++ ran.last

/-- Outputs before others. -/
def prepend (first : List γ) (ran : Ran δ γ τ) : Ran δ γ τ :=
  { ran with before := first ++ ran.before }

@[simp] theorem before_prepend (first : List γ) (ran : Ran δ γ τ) :
    (ran.prepend first).before = first ++ ran.before := rfl

@[simp] theorem state_prepend (first : List γ) (ran : Ran δ γ τ) :
    (ran.prepend first).state = ran.state := rfl

@[simp] theorem ended_prepend (first : List γ) (ran : Ran δ γ τ) :
    (ran.prepend first).ended = ran.ended := rfl

@[simp] theorem outputs_prepend (first : List γ) (ran : Ran δ γ τ) :
    (ran.prepend first).outputs = first ++ ran.outputs := List.append_assoc _ _ _

@[simp] theorem prepend_nil (ran : Ran δ γ τ) : ran.prepend [] = ran := rfl

theorem prepend_append (first second : List γ) (ran : Ran δ γ τ) :
    ran.prepend (first ++ second) = (ran.prepend second).prepend first := by
  rw [prepend, prepend, prepend, List.append_assoc]

end Ran

/-- A machine over frames: what it does with one, and how what is no frame ends it. -/
structure FrameMachine (β ε δ γ τ : Type) where
  handle : β → δ → Turn δ γ τ
  fail : ε → δ → τ

namespace FrameMachine

variable {α β ε δ γ τ : Type} (machine : FrameMachine β ε δ γ τ)

/-- Takes frames in turn. -/
def run : List β → δ → Ran δ γ τ
  | [], d => ⟨[], [], d, none⟩
  | frame :: frames, d =>
    let turn := machine.handle frame d
    if turn.ended.isSome then ⟨[], turn.outputs, turn.state, turn.ended⟩
    else (run frames turn.state).prepend turn.outputs

/-- Ends at what is no frame, unless a frame has ended it. -/
def failed (error : Option ε) (ran : Ran δ γ τ) : Ran δ γ τ :=
  if ran.ended.isSome then ran else { ran with ended := error.map (machine.fail · ran.state) }

variable (reader : FrameReader α β ε)

/-- Takes the frames of a buffer. -/
def runBuffer (buffer : List α) (d : δ) : Ran δ γ τ :=
  machine.failed (reader.drain buffer).error (machine.run (reader.drain buffer).items d)

/-- Takes the frames of a buffer as it reads them, at most so many, and gives what is left. -/
def runWithin : Nat → List α → δ → Ran δ γ τ × List α
  | 0, buffer, d => (⟨[], [], d, none⟩, buffer)
  | fuel + 1, buffer, d =>
    match reader.front buffer with
    | .wait => (⟨[], [], d, none⟩, buffer)
    | .stop error => (⟨[], [], d, some (machine.fail error d)⟩, buffer)
    | .item frame length =>
      let turn := machine.handle frame d
      if turn.ended.isSome then (⟨[], turn.outputs, turn.state, turn.ended⟩, buffer.drop length)
      else
        let rest := runWithin fuel (buffer.drop length) turn.state
        (rest.1.prepend turn.outputs, rest.2)

/-- The outputs that are left of a buffer that arrives in pieces, where some ends take back those of
the piece they came with; and the state at the end. -/
def runPieces (takesBack : τ → Bool) : List (List α) → List α → δ → List γ × δ
  | [], _, d => ([], d)
  | piece :: pieces, pending, d =>
    let ran := machine.runBuffer reader (pending ++ piece) d
    match ran.ended with
    | some ended => (if takesBack ended then [] else ran.outputs, ran.state)
    | none =>
      let rest := runPieces takesBack pieces (reader.drain (pending ++ piece)).rest ran.state
      (ran.outputs ++ rest.1, rest.2)

section Laws

variable {machine} {reader}

theorem run_append (frames more : List β) (d : δ) :
    machine.run (frames ++ more) d =
      if (machine.run frames d).ended.isSome then machine.run frames d
      else (machine.run more (machine.run frames d).state).prepend
        (machine.run frames d).before := by
  induction frames generalizing d with
  | nil => rfl
  | cons frame frames ih =>
    rw [List.cons_append, run, run]
    by_cases hended : (machine.handle frame d).ended.isSome = true
    · simp only [hended, if_true]
    · simp only [hended, Bool.false_eq_true, if_false, ih, Ran.ended_prepend, Ran.state_prepend,
        Ran.before_prepend]
      split
      · rfl
      · rw [Ran.prepend_append]

/-- A machine that has not ended has given no last outputs. -/
theorem run_last {frames : List β} {d : δ} (h : (machine.run frames d).ended = none) :
    (machine.run frames d).last = [] := by
  induction frames generalizing d with
  | nil => rfl
  | cons frame frames ih =>
    rw [run] at h ⊢
    by_cases hended : (machine.handle frame d).ended.isSome = true
    · simp only [hended, if_true] at h
      rw [h] at hended
      cases hended
    · simp only [hended, Bool.false_eq_true, if_false, Ran.ended_prepend] at h ⊢
      exact ih h

/-- A machine that has ended has gone on from the frames before one that ended it. -/
theorem run_of_ended {frames : List β} {d : δ} (h : (machine.run frames d).ended.isSome = true) :
    ∃ first frame rest, frames = first ++ frame :: rest ∧ (machine.run first d).ended = none ∧
      (machine.handle frame (machine.run first d).state).ended.isSome = true ∧
      machine.run frames d = ⟨(machine.run first d).before,
        (machine.handle frame (machine.run first d).state).outputs,
        (machine.handle frame (machine.run first d).state).state,
        (machine.handle frame (machine.run first d).state).ended⟩ := by
  induction frames generalizing d with
  | nil => cases h
  | cons frame frames ih =>
    rw [run] at h
    by_cases hended : (machine.handle frame d).ended.isSome = true
    · refine ⟨[], frame, frames, rfl, rfl, hended, ?_⟩
      rw [run]
      simp only [hended, if_true, run]
    · simp only [hended, Bool.false_eq_true, if_false, Ran.ended_prepend] at h
      obtain ⟨first, last, rest, rfl, hfirst, hlast, hrun⟩ := ih h
      have hcons : machine.run (frame :: first) d =
          (machine.run first (machine.handle frame d).state).prepend
            (machine.handle frame d).outputs := by
        rw [run]
        simp only [hended, Bool.false_eq_true, if_false]
      refine ⟨frame :: first, last, rest, rfl, ?_, ?_, ?_⟩
      · rw [hcons, Ran.ended_prepend, hfirst]
      · rw [hcons, Ran.state_prepend]
        exact hlast
      · rw [run, hcons]
        simp only [hended, Bool.false_eq_true, if_false, hrun]
        rfl

/-- What every frame relates a machine's states and outputs by, all frames it goes on from do. -/
theorem run_relates {R : δ → List γ → δ → Prop} (refl : ∀ d, R d [] d)
    (trans : ∀ {d d' d'' outputs later},
      R d outputs d' → R d' later d'' → R d (outputs ++ later) d'')
    (step : ∀ frame d, (machine.handle frame d).ended = none →
      R d (machine.handle frame d).outputs (machine.handle frame d).state)
    {frames : List β} {d : δ} (h : (machine.run frames d).ended = none) :
    R d (machine.run frames d).before (machine.run frames d).state := by
  induction frames generalizing d with
  | nil => exact refl d
  | cons frame frames ih =>
    rw [run] at h ⊢
    by_cases hended : (machine.handle frame d).ended.isSome = true
    · simp only [hended, if_true] at h
      rw [h] at hended
      cases hended
    · simp only [hended, Bool.false_eq_true, if_false, Ran.ended_prepend] at h ⊢
      exact trans (step frame d (by simpa using hended)) (ih h)

theorem runBuffer_of_none {buffer : List α} {d : δ}
    (h : (machine.runBuffer reader buffer d).ended = none) :
    (reader.drain buffer).error = none ∧
      machine.runBuffer reader buffer d = machine.run (reader.drain buffer).items d ∧
      (machine.runBuffer reader buffer d).last = [] := by
  rw [runBuffer, failed] at h
  split at h
  · next hended => rw [h] at hended; cases hended
  · next hended =>
    have herror : (reader.drain buffer).error = none := by
      cases hdrained : (reader.drain buffer).error with
      | none => rfl
      | some error => rw [hdrained] at h; cases h
    have hrun : (machine.run (reader.drain buffer).items d).ended = none := by
      simpa using hended
    have hbuffer : machine.runBuffer reader buffer d =
        machine.run (reader.drain buffer).items d := by
      rw [runBuffer, failed, if_neg hended, herror, Option.map_none, ← hrun]
    exact ⟨herror, hbuffer, by rw [hbuffer, run_last hrun]⟩

/-- A machine goes on with more of a buffer where it has come to. -/
theorem runBuffer_append (buffer more : List α) (d : δ) :
    machine.runBuffer reader (buffer ++ more) d =
      if (machine.runBuffer reader buffer d).ended.isSome then machine.runBuffer reader buffer d
      else (machine.runBuffer reader ((reader.drain buffer).rest ++ more)
        (machine.runBuffer reader buffer d).state).prepend
          (machine.runBuffer reader buffer d).before := by
  rw [runBuffer, FrameReader.drain_append]
  by_cases herror : (reader.drain buffer).error.isSome = true
  · have hended : (machine.runBuffer reader buffer d).ended.isSome = true := by
      cases h : (machine.runBuffer reader buffer d).ended with
      | none => rw [(runBuffer_of_none h).1] at herror; cases herror
      | some ended => rfl
    rw [if_pos herror, if_pos hended]
    rfl
  · have hnone : (reader.drain buffer).error = none := by simpa using herror
    rw [if_neg herror, Drained.error_prepend, Drained.items_prepend, run_append]
    by_cases hended : (machine.run (reader.drain buffer).items d).ended.isSome = true
    · have hbuffer : machine.runBuffer reader buffer d =
          machine.run (reader.drain buffer).items d := by rw [runBuffer, failed, if_pos hended]
      rw [if_pos hended, hbuffer, if_pos hended, failed, if_pos hended]
    · have hrun : (machine.run (reader.drain buffer).items d).ended = none := by simpa using hended
      have hbuffer : machine.runBuffer reader buffer d =
          machine.run (reader.drain buffer).items d := by
        rw [runBuffer, failed, if_neg hended, hnone, Option.map_none, ← hrun]
      rw [if_neg hended, hbuffer, if_neg hended, runBuffer, failed, failed, Ran.ended_prepend]
      split
      · rfl
      · rfl

/-- What a machine leaves of a buffer in pieces, by what it gives for the whole: all outputs, or,
where the end takes back, some of the first of those before it. -/
theorem runPieces_spec (takesBack : τ → Bool) (pieces : List (List α)) {pending : List α} (d : δ)
    (h : reader.front pending = .wait) :
    let whole := machine.runBuffer reader (pending ++ pieces.flatten) d
    let left := machine.runPieces reader takesBack pieces pending d
    left.2 = whole.state ∧
      (whole.ended.all (!takesBack ·) = true → left.1 = whole.outputs) ∧
      (whole.ended.any takesBack = true → left.1 <+: whole.before) := by
  induction pieces generalizing pending d with
  | nil =>
    have hwhole : machine.runBuffer reader (pending ++ [].flatten) d = ⟨[], [], d, none⟩ := by
      rw [List.flatten_nil, List.append_nil, runBuffer, FrameReader.drain_of_wait h]
      rfl
    rw [hwhole]
    exact ⟨rfl, fun _ ↦ rfl, fun hany ↦ nomatch hany⟩
  | cons piece pieces ih =>
    have happend := @runBuffer_append _ _ _ _ _ _ machine reader (pending ++ piece) pieces.flatten d
    rw [List.append_assoc] at happend
    rw [List.flatten_cons, happend, runPieces]
    cases hended : (machine.runBuffer reader (pending ++ piece) d).ended with
    | some ended =>
      simp only [hended, Option.isSome_some, if_true, Option.all_some, Option.any_some]
      refine ⟨trivial, fun hall ↦ ?_, fun hany ↦ ?_⟩
      · rw [if_neg (by simpa using hall)]
      · rw [if_pos hany]
        exact List.nil_prefix
    | none =>
      obtain ⟨herror, -, hlast⟩ := runBuffer_of_none hended
      have hbefore : (machine.runBuffer reader (pending ++ piece) d).outputs =
          (machine.runBuffer reader (pending ++ piece) d).before := by
        rw [Ran.outputs, hlast, List.append_nil]
      obtain ⟨hstate, hall, hany⟩ := ih (machine.runBuffer reader (pending ++ piece) d).state
        (FrameReader.front_rest _ herror)
      simp only [Option.isSome_none, Bool.false_eq_true, if_false, Ran.state_prepend,
        Ran.ended_prepend, Ran.outputs_prepend, Ran.before_prepend, hbefore]
      refine ⟨hstate, fun h ↦ ?_, fun h ↦ ?_⟩
      · rw [hall h]
      · exact (List.prefix_append_right_inj _).mpr (hany h)

/-- What a machine gives for a buffer, by what its front holds. -/
theorem runBuffer_eq (buffer : List α) (d : δ) :
    machine.runBuffer reader buffer d = match reader.front buffer with
      | .wait => ⟨[], [], d, none⟩
      | .stop error => ⟨[], [], d, some (machine.fail error d)⟩
      | .item frame length =>
        if (machine.handle frame d).ended.isSome then
          ⟨[], (machine.handle frame d).outputs, (machine.handle frame d).state,
            (machine.handle frame d).ended⟩
        else (machine.runBuffer reader (buffer.drop length)
          (machine.handle frame d).state).prepend (machine.handle frame d).outputs := by
  cases hfront : reader.front buffer with
  | wait =>
    rw [runBuffer, FrameReader.drain_of_wait hfront]
    rfl
  | stop error =>
    rw [runBuffer, FrameReader.drain_of_stop hfront]
    rfl
  | item frame length =>
    rw [runBuffer, FrameReader.drain_of_item hfront, Drained.items_prepend, List.singleton_append,
      run, Drained.error_prepend]
    by_cases hended : (machine.handle frame d).ended.isSome = true
    · simp only [hended, if_true, failed]
    · simp only [hended, Bool.false_eq_true, if_false]
      rw [runBuffer, failed, failed, Ran.ended_prepend]
      split
      · rfl
      · rfl

/-- Reading and handling in turn is handling what is read. -/
theorem runWithin_eq {fuel : Nat} {buffer : List α} (h : buffer.length ≤ fuel) (d : δ) :
    (machine.runWithin reader fuel buffer d).1 = machine.runBuffer reader buffer d ∧
      ((machine.runBuffer reader buffer d).ended = none →
        (machine.runWithin reader fuel buffer d).2 = (reader.drain buffer).rest) := by
  induction fuel generalizing buffer d with
  | zero =>
    obtain rfl := List.length_eq_zero_iff.mp (Nat.le_zero.mp h)
    rw [runBuffer_eq, reader.front_nil, FrameReader.drain_of_wait reader.front_nil]
    exact ⟨rfl, fun _ ↦ rfl⟩
  | succ fuel ih =>
    rw [runBuffer_eq, runWithin]
    cases hfront : reader.front buffer with
    | wait =>
      rw [FrameReader.drain_of_wait hfront]
      exact ⟨rfl, fun _ ↦ rfl⟩
    | stop error => exact ⟨rfl, fun hnone ↦ nomatch hnone⟩
    | item frame length =>
      have hlength := reader.length_le hfront
      obtain ⟨hrun, hrest⟩ := @ih (buffer.drop length)
        (by rw [List.length_drop]; omega) (machine.handle frame d).state
      rw [FrameReader.drain_of_item hfront, Drained.rest_prepend]
      by_cases hended : (machine.handle frame d).ended.isSome = true
      · simp only [hended, if_true]
        refine ⟨trivial, fun hnone ↦ ?_⟩
        rw [hnone] at hended
        cases hended
      · simp only [hended, Bool.false_eq_true, if_false, hrun, Ran.ended_prepend]
        exact ⟨trivial, hrest⟩

end Laws
end FrameMachine
end NullRouter.Base
