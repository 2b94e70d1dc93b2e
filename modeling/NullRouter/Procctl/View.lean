import NullRouter.Procctl.Engine

/-!
# What callers see of a supervisor

The books that a supervisor keeps with the rest of the system: the child that exists, and the
callers that are owed an answer. They are an automaton over what was done, with one child at most
and one answer a command, and the loop of `engine.rs` moves along it while the shared view says
where it stands.
-/

namespace NullRouter.Procctl

open NullRouter.Base

/-! ## Books -/

/-- The child that exists, and the callers that wait for an answer, the first of them first. -/
structure Books where
  child : Option Nat := none
  owed : List Nat := []

/-- An entry of the books: a child is spawned where none exists, and what is reaped or answered is
what exists or waits. -/
inductive Books.Step : Books → Effect → Books → Prop where
  | received (books : Books) (caller : Nat) :
    Step books (.received caller) { books with owed := books.owed ++ [caller] }
  | spawned (owed : List Nat) (child : Nat) :
    Step ⟨none, owed⟩ (.spawned child) ⟨some child, owed⟩
  | reaped (owed : List Nat) (child : Nat) :
    Step ⟨some child, owed⟩ (.reaped child) ⟨none, owed⟩
  | replied (child : Option Nat) (owed : List Nat) (caller : Nat) (reply : Reply) :
    Step ⟨child, caller :: owed⟩ (.replied caller reply) ⟨child, owed⟩

/-- The children that exist after some entries. -/
def childrenFrom (children : List Nat) : List Effect → List Nat
  | [] => children
  | .spawned child :: effects => childrenFrom (children ++ [child]) effects
  | .reaped child :: effects => childrenFrom (children.erase child) effects
  | _ :: effects => childrenFrom children effects

/-- The children that exist. -/
def children (effects : List Effect) : List Nat := childrenFrom [] effects

/-- How often a caller's command was received. -/
def receptions (caller : Nat) (effects : List Effect) : Nat :=
  effects.countP fun
    | .received caller' => caller' = caller
    | _ => false

/-- How often a caller was answered. -/
def replies (caller : Nat) (effects : List Effect) : Nat :=
  effects.countP fun
    | .replied caller' _ => caller' = caller
    | _ => false

/-- The books say which children exist. -/
theorem childrenFrom_of_run {books books' : Books} {effects : List Effect}
    (h : Run Books.Step books effects books') :
    childrenFrom books.child.toList effects = books'.child.toList := by
  induction h with
  | nil => rfl
  | cons head _ ih =>
    cases head with
    | received => exact ih
    | spawned => exact ih
    | reaped owed child =>
      rw [childrenFrom, Option.toList_some, List.erase_cons_head]
      exact ih
    | replied => exact ih

/-- The books say who was answered. -/
theorem count_owed_of_run {books books' : Books} {effects : List Effect}
    (h : Run Books.Step books effects books') (caller : Nat) :
    replies caller effects + books'.owed.count caller =
      receptions caller effects + books.owed.count caller := by
  induction h with
  | nil => rfl
  | cons head _ ih =>
    cases head with
    | received books caller' =>
      simp only [replies, receptions, List.countP_cons, List.count_append, List.count_singleton]
        at ih ⊢
      simp only [decide_eq_true_eq, Bool.false_eq_true, if_false, beq_iff_eq] at ih ⊢
      omega
    | spawned => exact ih
    | reaped => exact ih
    | replied child owed caller' reply =>
      simp only [replies, receptions, List.countP_cons, List.count_cons] at ih ⊢
      simp only [decide_eq_true_eq, Bool.false_eq_true, if_false, beq_iff_eq] at ih ⊢
      omega

/-! ## The slot's entries -/

namespace Slot

/-- The child of a slot. -/
def running? : Slot → Option Running
  | .starting s => some s.running
  | .live running => some running
  | .empty | .backoff .. => none

/-- The caller that waits for the start of a slot. -/
def caller? : Slot → Option Nat
  | .starting s => s.reply
  | .empty | .live _ | .backoff .. => none

/-- What the books hold for a slot. -/
def books (slot : Slot) : Books := ⟨slot.running?.map (·.child), slot.caller?.toList⟩

end Slot

/-- The view that callers have agrees with a slot. -/
structure Agrees (slot : Slot) (shared : Shared) : Prop where
  starting : shared.state = .starting ↔ ∃ s, slot = .starting s
  running : shared.state = .running ↔ ∃ running, slot = .live running
  backoff : shared.state = .backoff ↔ ∃ spec due attempt, slot = .backoff spec due attempt
  pid : shared.pid = slot.running?.map (·.child)

/-- The view of a start is the same once no signal will come. -/
theorem Agrees.unready {s : Starting} {shared : Shared} (h : Agrees (.starting s) shared) :
    Agrees (.starting { s with ready := false }) shared where
  starting := by simpa using h.starting
  running := by simpa using h.running
  backoff := by simpa using h.backoff
  pid := h.pid

/-- A step of the loop from a slot: its view agrees, and its effects are entries of the books. -/
structure Keeps (slot : Slot) (outcome : Outcome) : Prop where
  view : Agrees outcome.slot outcome.shared
  booked : Run Books.Step slot.books outcome.effects outcome.slot.books

variable {program : String} {shared : Shared} {slot : Slot}

theorem agrees_recordFailure (error : StartError) : Agrees .empty (shared.recordFailure error) := by
  constructor <;> simp [Shared.recordFailure, Slot.running?]

theorem agrees_markStopped : Agrees .empty shared.markStopped := by
  constructor <;> simp [Shared.markStopped, Slot.running?]

/-- An answer to the caller that waits for a start, if one does. -/
theorem run_replied (child : Option Nat) (reply : Option Nat) (owed : List Nat) (answer : Reply) :
    Run Books.Step ⟨child, reply.toList ++ owed⟩
      (reply.map fun caller ↦ Effect.replied caller answer).toList ⟨child, owed⟩ := by
  cases reply with
  | none => exact .nil _
  | some caller => exact .single (.replied child owed caller answer)

/-- After a teardown there is neither a child nor a caller that waits for its start. -/
theorem run_teardown (slot : Slot) (reason : String) (os : Stopping) (owed : List Nat) :
    Run Books.Step ⟨slot.running?.map (·.child), slot.caller?.toList ++ owed⟩
      (teardown program slot reason os).2 ⟨none, owed⟩ := by
  cases slot with
  | empty => exact .nil _
  | backoff => exact .nil _
  | live running => exact .single (.reaped owed running.child)
  | starting s =>
    refine .cons (.reaped _ s.running.child) ?_
    exact run_replied none s.reply owed _

/-- A child that is begun exists, and its caller waits. -/
theorem keeps_begin_ (spec : ChildSpec) (reply : Option Nat) (attempt : Nat)
    (spawn : Except String Nat) (now : Nat) :
    Agrees (begin_ program spec reply attempt spawn now shared).slot
        (begin_ program spec reply attempt spawn now shared).shared ∧
      Run Books.Step ⟨none, reply.toList⟩
        (begin_ program spec reply attempt spawn now shared).effects
        (begin_ program spec reply attempt spawn now shared).slot.books := by
  cases spawn with
  | error source =>
    constructor
    · exact agrees_recordFailure _
    · have h := run_replied none reply [] (.start (.error (.spawn program source)))
      rw [List.append_nil] at h
      exact h
  | ok child =>
    constructor
    · constructor <;> simp [begin_, Shared.begun, Slot.running?]
    · exact .single (.spawned reply.toList child)

theorem keeps_onReady (value : Option String) (now : Nat) (h : Agrees slot shared) :
    Keeps slot (onReady slot value now shared) := by
  cases slot with
  | starting s =>
    constructor
    · have hpid : shared.pid = some s.running.child := h.pid
      constructor <;> simp [onReady, Shared.promoted, Slot.running?, hpid]
    · have hreply := run_replied (some s.running.child) s.reply [] (.start (.ok value))
      rw [List.append_nil] at hreply
      exact hreply
  | empty => exact ⟨h, .nil _⟩
  | live running => exact ⟨h, .nil _⟩
  | backoff spec due attempt => exact ⟨h, .nil _⟩

/-- What ends a start: its child is reaped, and its caller answered. -/
theorem run_ended (s : Starting) (answer : Reply) :
    Run Books.Step (Slot.starting s).books (.reaped s.running.child ::
      (s.reply.map fun caller ↦ Effect.replied caller answer).toList) Slot.empty.books := by
  refine .cons (.reaped _ s.running.child) ?_
  have h := run_replied none s.reply [] answer
  rw [List.append_nil] at h
  exact h

theorem keeps_onDeadline (h : Agrees slot shared) :
    Keeps slot (onDeadline program slot shared) := by
  cases slot with
  | starting s => exact ⟨agrees_recordFailure _, run_ended s _⟩
  | empty => exact ⟨h, .nil _⟩
  | live running => exact ⟨h, .nil _⟩
  | backoff spec due attempt => exact ⟨h, .nil _⟩

/-- After a restart is scheduled or given up there is no child, and the view says which. -/
theorem keeps_scheduleRestart (spec : ChildSpec) (attempt now : Nat) :
    Agrees (scheduleRestart spec attempt now shared).slot
        (scheduleRestart spec attempt now shared).shared ∧
      (scheduleRestart spec attempt now shared).slot.books = {} := by
  rw [scheduleRestart]
  split
  · constructor
    · constructor <;> simp [Slot.running?]
    · rfl
  · constructor
    · constructor <;> simp [Slot.running?]
    · rfl

theorem keeps_onExit (status : Option ExitStatus) (now : Nat) (h : Agrees slot shared) :
    Keeps slot (onExit program slot status now shared) := by
  cases slot with
  | starting s =>
    rw [onExit]
    split
    · constructor
      · constructor <;> simp [Shared.completed, Slot.running?]
      · exact run_ended s _
    · split
      · next caller hreply =>
        refine ⟨agrees_recordFailure _, ?_⟩
        have hrun := run_ended s
          (.start (.error (.exitedEarly program (renderStatus status) shared.tailOf)))
        rw [hreply] at hrun
        exact hrun
      · next hreply =>
        obtain ⟨hview, hbooks⟩ := @keeps_scheduleRestart
          (shared.recordFailure (.exitedEarly program (renderStatus status) shared.tailOf))
          s.running.spec s.attempt now
        refine ⟨hview, ?_⟩
        have hrun := run_ended s (.stop .notRunning)
        rw [hreply] at hrun
        dsimp only
        rw [hbooks]
        exact hrun
  | live running =>
    rw [onExit]
    obtain ⟨hview, hbooks⟩ := @keeps_scheduleRestart (shared.exited (renderStatus status))
      running.spec (if (shared.exited (renderStatus status)).healthyUptime now
        running.spec.restart.resetAfter then 0 else (shared.exited (renderStatus status)).restarts)
      now
    refine ⟨hview, ?_⟩
    dsimp only
    rw [hbooks]
    exact .single (.reaped [] running.child)
  | empty => exact ⟨h, .nil _⟩
  | backoff spec due attempt => exact ⟨h, .nil _⟩

/-! ## Runs -/

/-- A supervisor whose view agrees with its slot and whose effects are the entries of its books. -/
structure Sound (w : World) : Prop where
  view : Agrees w.engine.slot w.engine.shared
  booked : Run Books.Step {} w.done w.engine.slot.books
  ended : w.engine.returned = true → w.engine.slot = .empty

theorem sound_init (capacity : Nat) : Sound (.init capacity) where
  view := by constructor <;> simp [World.init, Engine.init, Shared.new, Slot.running?]
  booked := .nil _
  ended h := rfl

variable {w w' : World}

/-- A turn on an event that the slot waits for keeps the view and the books. -/
theorem keeps_turn {e : Engine} {t : Turn} (h : Agrees e.slot e.shared)
    (hoffers : e.slot.offers t.now t.event = true) :
    Agrees (e.turn program t).1.slot (e.turn program t).1.shared ∧
      Run Books.Step e.slot.books (e.turn program t).2 (e.turn program t).1.slot.books := by
  obtain ⟨slot, shared, returned⟩ := e
  obtain ⟨event, now, os⟩ := t
  cases event with
  | start spec caller spawn =>
    obtain ⟨hview, hbegun⟩ :=
      @keeps_begin_ program shared.cleared spec (some caller) 0 spawn now
    refine ⟨hview, ?_⟩
    refine .cons (.received _ caller) (.append ?_ hbegun)
    exact run_teardown slot _ os [caller]
  | stop caller =>
    refine ⟨agrees_markStopped, ?_⟩
    refine .cons (.received _ caller) (.append ?_ (.single (.replied none [] caller _)))
    exact run_teardown slot _ os [caller]
  | closed =>
    refine ⟨agrees_markStopped, ?_⟩
    have hrun := @run_teardown program slot "the supervisor is shutting down" os []
    rw [List.append_nil] at hrun
    exact hrun
  | ready value => exact ⟨(keeps_onReady value now h).view, (keeps_onReady value now h).booked⟩
  | readyImpossible =>
    cases slot with
    | starting s =>
      exact ⟨h.unready, .nil _⟩
    | empty => exact ⟨h, .nil _⟩
    | live running => exact ⟨h, .nil _⟩
    | backoff spec due attempt => exact ⟨h, .nil _⟩
  | deadline => exact ⟨(keeps_onDeadline h).view, (keeps_onDeadline h).booked⟩
  | exited status =>
    exact ⟨(keeps_onExit status now h).view, (keeps_onExit status now h).booked⟩
  | restartDue spawn =>
    cases slot with
    | backoff spec due attempt =>
      exact @keeps_begin_ program shared spec none attempt spawn now
    | empty => cases hoffers
    | starting s => cases hoffers
    | live running => cases hoffers

/-- A step keeps a supervisor sound. -/
theorem Sound.step (h : Sound w) {what : Happening} (hstep : World.Step program w what w') :
    Sound w' := by
  cases hstep with
  | line clean =>
    refine ⟨?_, h.booked, h.ended⟩
    exact ⟨h.view.starting, h.view.running, h.view.backoff, h.view.pid⟩
  | @turn t hreturned hoffers =>
    obtain ⟨hview, hbooked⟩ := @keeps_turn program _ _ h.view hoffers
    refine ⟨hview, h.booked.append hbooked, ?_⟩
    intro hended
    obtain ⟨event, now, os⟩ := t
    cases event with
    | closed => rfl
    | readyImpossible =>
      dsimp only [Engine.turn] at hended
      split at hended <;> exact absurd (hreturned.symm.trans hended) Bool.false_ne_true
    | restartDue spawn =>
      dsimp only [Engine.turn] at hended
      split at hended <;> exact absurd (hreturned.symm.trans hended) Bool.false_ne_true
    | _ => exact absurd (hreturned.symm.trans hended) Bool.false_ne_true

/-- Every run keeps a supervisor sound. -/
theorem sound_of_run {capacity : Nat} {hs : List Happening}
    (h : Run (World.Step program) (.init capacity) hs w) : Sound w :=
  h.invariant Sound (fun _ _ _ hsound hstep ↦ hsound.step hstep) (sound_init capacity)

/-! ## Answers -/

/-- The turns among what happens. -/
def turns (hs : List Happening) : Nat :=
  hs.countP fun
    | .turn _ => true
    | .line _ => false

theorem replies_append (caller : Nat) (before after : List Effect) :
    replies caller (before ++ after) = replies caller before + replies caller after :=
  List.countP_append

/-- A turn ends a start, unless it only learns that no signal will come. -/
theorem replies_turn_pos {e : Engine} {t : Turn} {s : Starting} {caller : Nat}
    (h : Agrees e.slot e.shared) (hoffers : e.slot.offers t.now t.event = true)
    (hslot : e.slot = .starting s) (hcaller : s.reply = some caller)
    (hevent : t.event ≠ .readyImpossible) : 0 < replies caller (e.turn program t).2 := by
  obtain ⟨slot, shared, returned⟩ := e
  obtain ⟨event, now, os⟩ := t
  cases hslot
  cases event with
  | readyImpossible => exact absurd rfl hevent
  | restartDue spawn => cases hoffers
  | ready value => simp [Engine.turn, onReady, hcaller, replies]
  | deadline => simp [Engine.turn, onDeadline, hcaller, replies]
  | exited status =>
    dsimp only [Engine.turn, onExit]
    split
    · simp [hcaller, replies]
    · simp [hcaller, replies]
  | closed => simp [Engine.turn, teardown, hcaller, replies]
  | stop other => simp [Engine.turn, teardown, hcaller, replies]
  | start spec other spawn => simp [Engine.turn, teardown, hcaller, replies]

/-- The answers that were given stay given. -/
theorem replies_le_of_run {hs : List Happening} (h : Run (World.Step program) w hs w')
    (caller : Nat) : replies caller w.done ≤ replies caller w'.done := by
  induction h with
  | nil => exact Nat.le_refl _
  | cons head _ ih =>
    refine Nat.le_trans ?_ ih
    cases head with
    | line => exact Nat.le_refl _
    | turn =>
      rw [replies_append]
      exact Nat.le_add_right _ _

/-- A start is answered by its second turn, or its first once no signal will come. -/
theorem replies_lt_of_run {hs : List Happening} (h : Run (World.Step program) w hs w')
    (hsound : Sound w) {s : Starting} {caller : Nat} (hslot : w.engine.slot = .starting s)
    (hcaller : s.reply = some caller) (hturns : (if s.ready then 2 else 1) ≤ turns hs) :
    replies caller w.done < replies caller w'.done := by
  induction h generalizing s with
  | nil =>
    rw [turns, List.countP_nil] at hturns
    split at hturns <;> omega
  | @cons w v r what whats head tail ih =>
    have hnext := hsound.step head
    cases head with
    | line clean => exact ih hnext hslot hcaller hturns
    | @turn t hreturned hoffers =>
      by_cases hevent : t.event = .readyImpossible
      · have hready : s.ready = true := by
          rw [hslot, hevent] at hoffers
          exact hoffers
        have hunready : (w.engine.turn program t).1.slot = .starting { s with ready := false } := by
          rw [Engine.turn, hevent, hslot]
        have hmore : 1 ≤ turns whats := by
          rw [if_pos hready, turns, List.countP_cons] at hturns
          rw [turns]
          simp only [if_true] at hturns
          omega
        refine Nat.lt_of_le_of_lt ?_ (ih hnext hunready hcaller hmore)
        rw [replies_append]
        exact Nat.le_add_right _ _
      · refine Nat.lt_of_lt_of_le ?_ (replies_le_of_run tail caller)
        rw [replies_append]
        have hpos := @replies_turn_pos program _ _ _ _ hsound.view hoffers hslot hcaller hevent
        omega

/-- In every run of a supervisor the view agrees with the slot after each turn, a child exists
exactly where the view has its pid, and never a second one, and every command is answered once: at
once, or within two turns where it is a start that waits for its child. -/
theorem supervision_of_run {capacity : Nat} {hs : List Happening}
    (h : Run (World.Step program) (.init capacity) hs w) :
    Agrees w.engine.slot w.engine.shared ∧
      children w.done = w.engine.shared.pid.toList ∧
      (∀ before, before <+: w.done → (children before).length ≤ 1) ∧
      (∀ caller, replies caller w.done + w.engine.slot.caller?.toList.count caller =
        receptions caller w.done) ∧
      (w.engine.returned = true →
        ∀ caller, replies caller w.done = receptions caller w.done) ∧
      ∀ caller later w', w.engine.slot.caller? = some caller →
        Run (World.Step program) w later w' → 2 ≤ turns later →
          replies caller w.done < replies caller w'.done := by
  have hsound := sound_of_run h
  have hcount := count_owed_of_run hsound.booked
  refine ⟨hsound.view, ?_, ?_, hcount, ?_, ?_⟩
  · rw [hsound.view.pid]
    exact childrenFrom_of_run hsound.booked
  · rintro before ⟨after, hdone⟩
    have hbooked := hsound.booked
    rw [← hdone] at hbooked
    obtain ⟨books, hbefore, -⟩ := hbooked.of_append
    have hchildren : children before = books.child.toList := childrenFrom_of_run hbefore
    rw [hchildren]
    cases books.child <;> simp
  · intro hended caller
    have hempty := hcount caller
    rw [hsound.ended hended] at hempty
    exact hempty
  · intro caller later w' hcaller hlater hturns
    cases hslot : w.engine.slot with
    | starting s =>
      rw [hslot] at hcaller
      refine replies_lt_of_run hlater hsound hslot hcaller ?_
      split <;> omega
    | empty => rw [hslot] at hcaller; cases hcaller
    | live running => rw [hslot] at hcaller; cases hcaller
    | backoff spec due attempt => rw [hslot] at hcaller; cases hcaller

/-- A tunnel that is ready once its log says so. -/
def tunnelSpec : ChildSpec := ⟨.occurrences, 90000000000, .resilient⟩

/-- A start of the tunnel, by the first caller. -/
def tunnelStart : Turn := ⟨.start tunnelSpec 1 (.ok 7), 0, ⟨false, true, true⟩⟩

/-- The supervisor of a tunnel that is starting. -/
def startedTunnel : World :=
  ⟨((Engine.init 50).turn "cloudflared" tunnelStart).1,
    ((Engine.init 50).turn "cloudflared" tunnelStart).2⟩

/-- The child of a tunnel that is starting is the only one, and its caller still waits. -/
theorem supervision_of_startedTunnel :
    Agrees startedTunnel.engine.slot startedTunnel.engine.shared ∧
      children startedTunnel.done = [7] ∧
      replies 1 startedTunnel.done + 1 = receptions 1 startedTunnel.done := by
  have h : Run (World.Step "cloudflared") (.init 50) [.turn tunnelStart] startedTunnel :=
    .single (.turn rfl rfl)
  obtain ⟨hview, hchildren, -, hanswers, -⟩ := supervision_of_run h
  exact ⟨hview, hchildren, hanswers 1⟩

end NullRouter.Procctl
