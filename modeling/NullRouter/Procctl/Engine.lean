import NullRouter.Base.Run
import NullRouter.Base.Text

/-!
# The supervisor's loop

One child and one loop, `crates/procctl/src/supervise/engine.rs` and the types of
`crates/procctl/src/supervise.rs`. Times are nanoseconds. What the system answers (whether a child
was spawned, how one went down) comes with the turn it answers in, and the callers that wait on a
command are named by numbers.
-/

namespace NullRouter.Procctl

open NullRouter.Base

/-! ## Types -/

/-- `ReadyRule`, `supervise.rs:46`. What a rule looks for in the output is the watcher's, which
answers with a signal. -/
inductive ReadyRule where
  | spawned
  | completesSuccessfully
  | occurrences
  | survivesOr (grace : Nat)
  | extract
  deriving DecidableEq

/-- `RestartPolicy`, `supervise.rs:104`. -/
structure RestartPolicy where
  maxAttempts : Nat
  backoff : Nat
  maxBackoff : Nat
  resetAfter : Nat
  deriving DecidableEq

/-- `RestartPolicy::resilient`, `supervise.rs:134`. -/
def RestartPolicy.resilient : RestartPolicy := ⟨5, 2000000000, 60000000000, 120000000000⟩

/-- `RestartPolicy::delay_for`, `supervise.rs:145`. -/
def RestartPolicy.delayFor (policy : RestartPolicy) (attempt : Nat) : Nat :=
  min (policy.backoff * 2 ^ min (attempt - 1) 16) policy.maxBackoff

/-- `ChildSpec`, `supervise.rs:154`, as far as the loop reads it. -/
structure ChildSpec where
  ready : ReadyRule
  startupTimeout : Nat
  restart : RestartPolicy
  deriving DecidableEq

/-- `State`, `supervise.rs:178`. -/
inductive State where
  | stopped
  | starting
  | running
  | stopping
  | backoff
  | failed
  deriving DecidableEq

/-- `StopOutcome`, `signal.rs:17`. -/
inductive StopOutcome where
  | notRunning
  | graceful
  | forced
  deriving DecidableEq

/-- `ExitStatus`: a code, or none where a signal ended the child. -/
structure ExitStatus where
  code : Option Int
  deriving DecidableEq

/-- `ExitStatus::success`. -/
def ExitStatus.success (status : ExitStatus) : Bool := status.code = some 0

/-- `StartError`, `supervise.rs:257`. -/
inductive StartError where
  | spawn (program source : String)
  | exitedEarly (program status tail : String)
  | notReady (program : String) (timeout : Nat) (tail : String)
  deriving DecidableEq

/-- The text of an error. -/
def StartError.toText : StartError → String
  | .spawn program source => program ++ " could not be started: " ++ source
  | .exitedEarly program status tail =>
    program ++ " exited during startup with " ++ status ++ ". Last output:\n" ++ tail
  | .notReady program timeout tail =>
    program ++ " did not become ready within " ++ toString (timeout / 1000000000) ++
      "s and was stopped. Last output:\n" ++ tail

/-- `LogRing`, `logring.rs:13`: the lines that are kept, the oldest first. -/
structure LogRing where
  lines : List String := []
  capacity : Nat
  dropped : Nat := 0
  deriving DecidableEq

/-- `LogRing::push`, `logring.rs:38`, of a line that is not cut. -/
def LogRing.push (ring : LogRing) (line : String) : LogRing :=
  if ring.lines.length = ring.capacity then
    { ring with lines := ring.lines.tail ++ [line], dropped := ring.dropped + 1 }
  else { ring with lines := ring.lines ++ [line] }

/-- `LogRing::tail`, `logring.rs:77`. -/
def LogRing.tail (ring : LogRing) : String := "\n".intercalate ring.lines

/-- `Shared`, `supervise.rs:300`: what a caller reads without waiting on the loop. -/
structure Shared where
  state : State
  pid : Option Nat
  readyValue : Option String
  startedAt : Option Nat
  restarts : Nat
  lastError : Option String
  logs : LogRing
  deriving DecidableEq

/-- `Shared::new`, `supervise.rs:311`. -/
def Shared.new (capacity : Nat) : Shared :=
  ⟨.stopped, none, none, none, 0, none, { capacity := max capacity 1 }⟩

/-- `Running`, `engine.rs:22`: the child and the pid that was captured when it was spawned. -/
structure Running where
  child : Nat
  pid : Option Nat
  spec : ChildSpec
  deriving DecidableEq

/-- `Slot::Starting`, `engine.rs:44`: the readiness channel is told by whether it is still there,
and the pending caller by its number. -/
structure Starting where
  running : Running
  deadline : Nat
  survivesAt : Option Nat
  ready : Bool
  reply : Option Nat
  attempt : Nat
  deriving DecidableEq

/-- `Slot`, `engine.rs:40`. -/
inductive Slot where
  | empty
  | starting (starting : Starting)
  | live (running : Running)
  | backoff (spec : ChildSpec) (due : Nat) (attempt : Nat)
  deriving DecidableEq

/-- What a caller is answered. -/
inductive Reply where
  | start (result : Except StartError (Option String))
  | stop (outcome : StopOutcome)

/-- What a turn does outside the loop's own state. -/
inductive Effect where
  | received (caller : Nat)
  | spawned (child : Nat)
  | reaped (child : Nat)
  | replied (caller : Nat) (reply : Reply)

/-- A slot, the shared view, and what was done on the way there. -/
structure Outcome where
  slot : Slot
  shared : Shared
  effects : List Effect := []

/-! ## The shared view -/

namespace Shared

/-- `tail_of`, `engine.rs:744`. -/
def tailOf (shared : Shared) : String :=
  if trimChars shared.logs.tail.toList = [] then "(the child produced no output)"
  else shared.logs.tail

/-- `record_failure`, `engine.rs:754`. -/
def recordFailure (shared : Shared) (error : StartError) : Shared :=
  { shared with state := .failed, pid := none, readyValue := none, startedAt := none
                lastError := some error.toText }

/-- `mark_stopped`, `engine.rs:766`. -/
def markStopped (shared : Shared) : Shared :=
  { shared with state := .stopped, pid := none, readyValue := none, startedAt := none }

/-- `healthy_uptime`, `engine.rs:776`. -/
def healthyUptime (shared : Shared) (now resetAfter : Nat) : Bool :=
  shared.startedAt.any fun since ↦ resetAfter ≤ now - since

/-- The view of a start that clears the history of restarts, `engine.rs:150`. -/
def cleared (shared : Shared) : Shared :=
  { shared with restarts := 0, lastError := none, logs := { shared.logs with lines := [] } }

/-- The view of a child that waits for its rule, `engine.rs:516`. -/
def begun (shared : Shared) (child : Nat) : Shared :=
  { shared with state := .starting, pid := some child, readyValue := none, startedAt := none }

/-- The view of a child that met its rule, `engine.rs:309`. -/
def promoted (shared : Shared) (value : Option String) (now attempt : Nat) : Shared :=
  { shared with state := .running, readyValue := value, startedAt := some now, restarts := attempt }

/-- The view of a child that completed its work, `engine.rs:372`. -/
def completed (shared : Shared) : Shared :=
  { shared with state := .stopped, pid := none, startedAt := none }

/-- The view of a child that was up and is gone, `engine.rs:407`. -/
def exited (shared : Shared) (status : String) : Shared :=
  { shared with pid := none, readyValue := none, startedAt := none
                lastError := some ("exited unexpectedly with " ++ status) }

end Shared

/-! ## The steps -/

/-- What the system answers while a child is stopped: whether it is already gone, takes the signal,
and goes within the grace it is given. -/
structure Stopping where
  exited : Bool
  delivered : Bool
  graceful : Bool
  deriving DecidableEq

/-- `stop_child`, `engine.rs:677`. -/
def stopChild (running : Running) (os : Stopping) : StopOutcome :=
  if os.exited || running.pid.isNone || !os.delivered then .notRunning
  else if os.graceful then .graceful else .forced

/-- `teardown`, `engine.rs:274`. -/
def teardown (program : String) (slot : Slot) (reason : String) (os : Stopping) :
    StopOutcome × List Effect :=
  match slot with
  | .empty | .backoff .. => (.notRunning, [])
  | .live running => (stopChild running os, [.reaped running.child])
  | .starting s =>
    (stopChild s.running os, .reaped s.running.child ::
      (s.reply.map fun caller ↦
        .replied caller (.start (.error (.notReady program 0 reason)))).toList)

/-- When surviving is enough under `SurvivesOr`, `engine.rs:524`. -/
def survivesAt (spec : ChildSpec) (now : Nat) : Option Nat :=
  match spec.ready with
  | .survivesOr grace =>
    some (now + min grace (spec.startupTimeout - max (spec.startupTimeout / 10) 1000000))
  | _ => none

/-- `begin`, `engine.rs:476`. -/
def begin_ (program : String) (spec : ChildSpec) (reply : Option Nat) (attempt : Nat)
    (spawn : Except String Nat) (now : Nat) (shared : Shared) : Outcome :=
  match spawn with
  | .error source =>
    let error := .spawn program source
    { slot := .empty
      shared := shared.recordFailure error
      effects := (reply.map fun caller ↦ .replied caller (.start (.error error))).toList }
  | .ok child =>
    { slot := .starting
        { running := ⟨child, some child, spec⟩
          deadline := now + spec.startupTimeout
          survivesAt := survivesAt spec now
          ready := true
          reply
          attempt }
      shared := shared.begun child
      effects := [.spawned child] }

/-- `on_ready`, `engine.rs:295`. -/
def onReady (slot : Slot) (value : Option String) (now : Nat) (shared : Shared) : Outcome :=
  match slot with
  | .starting s =>
    { slot := .live s.running
      shared := shared.promoted value now s.attempt
      effects := (s.reply.map fun caller ↦ .replied caller (.start (.ok value))).toList }
  | slot => { slot, shared }

/-- `on_deadline`, `engine.rs:328`. -/
def onDeadline (program : String) (slot : Slot) (shared : Shared) : Outcome :=
  match slot with
  | .starting s =>
    let error := .notReady program s.running.spec.startupTimeout shared.tailOf
    { slot := .empty
      shared := shared.recordFailure error
      effects := .reaped s.running.child ::
        (s.reply.map fun caller ↦ .replied caller (.start (.error error))).toList }
  | slot => { slot, shared }

/-- `schedule_restart`, `engine.rs:428`. -/
def scheduleRestart (spec : ChildSpec) (attempt now : Nat) (shared : Shared) : Outcome :=
  let next := satAdd32 attempt 1
  let shared := { shared with pid := none, readyValue := none, startedAt := none
                              restarts := attempt }
  if spec.restart.maxAttempts < next then
    { slot := .empty
      shared := { shared with
        state := .failed
        lastError := shared.lastError.or (some "exited repeatedly and was not restarted") } }
  else
    { slot := .backoff spec (now + spec.restart.delayFor next) next
      shared := { shared with state := .backoff } }

/-- `render_status`, `engine.rs:702`. -/
def renderStatus (status : Option ExitStatus) : String :=
  status.elim "an unreadable status" fun status ↦
    status.code.elim "a signal" fun code ↦ "exit code " ++ toString code

/-- `on_exit`, `engine.rs:354`. -/
def onExit (program : String) (slot : Slot) (status : Option ExitStatus) (now : Nat)
    (shared : Shared) : Outcome :=
  match slot with
  | .starting s =>
    if status.any ExitStatus.success ∧ s.running.spec.ready = .completesSuccessfully then
      { slot := .empty
        shared := shared.completed
        effects := .reaped s.running.child ::
          (s.reply.map fun caller ↦ .replied caller (.start (.ok none))).toList }
    else
      let error := .exitedEarly program (renderStatus status) shared.tailOf
      match s.reply with
      | some caller =>
        { slot := .empty
          shared := shared.recordFailure error
          effects := [.reaped s.running.child, .replied caller (.start (.error error))] }
      | none =>
        { scheduleRestart s.running.spec s.attempt now (shared.recordFailure error) with
          effects := [.reaped s.running.child] }
  | .live running =>
    -- The start time is cleared before the uptime is taken from it.
    let shared := shared.exited (renderStatus status)
    let healthy := shared.healthyUptime now running.spec.restart.resetAfter
    { scheduleRestart running.spec (if healthy then 0 else shared.restarts) now shared with
      effects := [.reaped running.child] }
  | slot => { slot, shared }

/-! ## The loop -/

/-- `Event`, `engine.rs:72`, with what the system answers to a spawn it leads to. -/
inductive Event where
  | start (spec : ChildSpec) (caller : Nat) (spawn : Except String Nat)
  | stop (caller : Nat)
  | closed
  | exited (status : Option ExitStatus)
  | ready (value : Option String)
  | readyImpossible
  | deadline
  | restartDue (spawn : Except String Nat)

/-- A turn of the loop: what it observed, the time it reads, and how a child goes down in it. -/
structure Turn where
  event : Event
  now : Nat
  os : Stopping := ⟨false, true, true⟩

/-- The loop's state, until it returns. -/
structure Engine where
  slot : Slot
  shared : Shared
  returned : Bool := false

/-- The loop before its first turn. -/
def Engine.init (capacity : Nat) : Engine := { slot := .empty, shared := .new capacity }

/-- `next_event`, `engine.rs:209`: the events a slot waits for. -/
def Slot.offers (now : Nat) : Slot → Event → Bool
  | _, .start .. | _, .stop _ | _, .closed => true
  | .starting _, .exited _ | .live _, .exited _ => true
  | .starting s, .ready value => s.ready || value.isNone && s.survivesAt.any (· ≤ now)
  | .starting s, .readyImpossible => s.ready
  | .starting s, .deadline => s.deadline ≤ now
  | .backoff _ due _, .restartDue _ => due ≤ now
  | _, _ => false

/-- A turn of `run`, `engine.rs:134`. -/
def Engine.turn (program : String) (e : Engine) (t : Turn) : Engine × List Effect :=
  let advance (outcome : Outcome) : Engine × List Effect :=
    ({ e with slot := outcome.slot, shared := outcome.shared }, outcome.effects)
  match t.event with
  | .closed =>
    ({ slot := .empty, shared := e.shared.markStopped, returned := true },
      (teardown program e.slot "the supervisor is shutting down" t.os).2)
  | .start spec caller spawn =>
    let torn := teardown program e.slot "superseded by a new start" t.os
    let outcome := begin_ program spec (some caller) 0 spawn t.now e.shared.cleared
    advance { outcome with effects := .received caller :: torn.2 ++ outcome.effects }
  | .stop caller =>
    let torn := teardown program e.slot "stopped on request" t.os
    advance { slot := .empty, shared := e.shared.markStopped
              effects := .received caller :: torn.2 ++ [.replied caller (.stop torn.1)] }
  | .ready value => advance (onReady e.slot value t.now e.shared)
  | .readyImpossible =>
    match e.slot with
    | .starting s => advance { slot := .starting { s with ready := false }, shared := e.shared }
    | slot => advance { slot, shared := e.shared }
  | .deadline => advance (onDeadline program e.slot e.shared)
  | .exited status => advance (onExit program e.slot status t.now e.shared)
  | .restartDue spawn =>
    match e.slot with
    | .backoff spec _ attempt => advance (begin_ program spec none attempt spawn t.now e.shared)
    | _ => advance { slot := .empty, shared := e.shared }

/-- What happens to a supervisor: a turn of its loop, or a line of output that the watcher keeps. -/
inductive Happening where
  | turn (turn : Turn)
  | line (clean : String)

/-- A supervisor with what was done so far. -/
structure World where
  engine : Engine
  done : List Effect := []

/-- A supervisor that was launched. -/
def World.init (capacity : Nat) : World := { engine := .init capacity }

/-- A step: the loop takes a turn on an event it waits for, or the watcher keeps a line. -/
inductive World.Step (program : String) : World → Happening → World → Prop where
  | turn {w : World} {t : Turn} (hreturned : w.engine.returned = false)
      (hoffers : w.engine.slot.offers t.now t.event = true) :
    Step program w (.turn t)
      ⟨(w.engine.turn program t).1, w.done ++ (w.engine.turn program t).2⟩
  | line {w : World} (clean : String) :
    Step program w (.line clean)
      { w with engine.shared.logs := w.engine.shared.logs.push clean }

end NullRouter.Procctl
