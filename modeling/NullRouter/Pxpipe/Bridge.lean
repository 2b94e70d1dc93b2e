import Mathlib.Data.List.Basic
import NullRouter.Base.Run

/-!
# The bridge to the transform worker

`Bridge` of `crates/pxpipe/src/bridge.rs`: calls that take turns at one worker behind a mutex, and the
pipe between them. What happens between two await points of a call is one step. The worker reads a
line after another and answers each that is a request with one frame, `bridge.rs:51–145`; a line that
begins with the remains of another is none, and what is left of a frame is none either.
-/

namespace NullRouter.Pxpipe

open NullRouter.Base

/-! ## Frames and outcomes -/

/-- `TransformInfo`, `bridge.rs:162`. -/
structure TransformInfo where
  origChars : Nat
  compressedChars : Nat
  outgoingTextChars : Nat
  imageCount : Nat
  imageBytes : Nat
  imagePixels : Nat
  imageTokens : Nat
  baselineTokens : Nat
  deriving DecidableEq

/-- `Frame`, `bridge.rs:230`, as far as a reply is read. -/
structure Frame where
  ok : Bool
  applied : Bool
  reason : Option String
  detail : Option String
  error : Option String
  body : Option String
  info : TransformInfo
  cacheOwnsControl : Bool
  deriving DecidableEq

/-- `TransformOutcome`, `bridge.rs:202`. -/
inductive TransformOutcome where
  | applied (body : String) (info : TransformInfo) (cacheOwnsControl : Bool)
  | bypassed (reason : String) (detail : Option String)
  deriving DecidableEq

/-- The refusals of the package that keep their names, `bridge.rs:746`. -/
def knownReasons : List String :=
  ["unsupported_model", "below_min_chars", "below_min_tokens", "not_profitable",
    "compress_disabled", "image_limit", "parse_error", "transform_error"]

/-- `settle`, `bridge.rs:733`. -/
def settle (reply : Frame) : TransformOutcome :=
  if !reply.ok then .bypassed "transform_error" reply.error
  else if !reply.applied then
    .bypassed ((reply.reason.filter (· ∈ knownReasons)).getD "passthrough")
      (reply.detail.or reply.reason)
  else
    match reply.body with
    | some body => .applied body reply.info reply.cacheOwnsControl
    | none =>
      .bypassed "transform_error" (some "the transform reported a change but sent no body")

/-- `StartError`, `bridge.rs:268`. -/
inductive StartError where
  | notInstalled
  | nodeMissing
  | unsupportedNode (detail : String)
  | failed (detail : String)
  deriving DecidableEq

/-- The text of a start error, `bridge.rs:284`. -/
def StartError.text : StartError → String
  | .notInstalled => "PXPIPE is not installed"
  | .nodeMissing => "node was not found, so the transform cannot be loaded"
  | .unsupportedNode detail => detail
  | .failed detail => "the transform worker failed: " ++ detail

/-- Why a call is bypassed that cannot start a worker, `bridge.rs:500`. -/
def StartError.reason : StartError → String
  | .notInstalled => "not_installed"
  | .nodeMissing => "node_missing"
  | .unsupportedNode _ => "node_unsupported"
  | .failed _ => "load_error"

/-! ## The worker -/

/-- A line on the worker's input that it has not read yet. -/
inductive Line (T : Type) where
  | request (t : T)
  | spoilt
  deriving DecidableEq

/-- `Worker`, `bridge.rs:311`, and what is in its two pipes. -/
structure Worker (T : Type) where
  /-- Whether the remains of a line stand on the input. -/
  torn : Bool
  stdin : List (Line T)
  /-- The frames that have not been read, each with the call that its request was of. -/
  stdout : List (T × Frame)
  /-- Whether the first of these has lost its front. -/
  cut : Bool

/-- A worker that has reported that it is ready. -/
def Worker.fresh {T : Type} : Worker T := ⟨false, [], [], false⟩

/-! ## Calls -/

/-- What a call is of: `transform`, `bridge.rs:487`, or `start`, `bridge.rs:419`. -/
inductive Kind where
  | transform (autoLoad : Bool)
  | start
  deriving DecidableEq

/-- Where a call is: at one of its await points, or at its end. -/
inductive Point (T : Type) where
  | waiting
  | spawning
  /-- In `write_all`, of which something may have been written. -/
  | writing (begun : Bool)
  | flushing
  /-- In `read_frame`, which may hold a front of a frame. -/
  | reading (begun : Bool)
  /-- In `shut_down`, of a worker that is no longer the bridge's. -/
  | shuttingDown (outcome : TransformOutcome)
  /-- Returned, with the call whose reply was read. -/
  | done (asked : Option T) (outcome : TransformOutcome)
  | started (loaded : Bool)
  | cancelled
  deriving DecidableEq

/-- Whether a call is within the lock. -/
def Point.holds {T : Type} : Point T → Bool
  | .spawning | .writing _ | .flushing | .reading _ => true
  | _ => false

/-- The bridge and its calls, `bridge.rs:396`. -/
structure Bridge (T : Type) where
  tasks : T → Option (Kind × Point T)
  lock : Option T
  worker : Option (Worker T)
  /-- Every frame that a worker has sent, with the call whose request it answers. -/
  answered : List (T × Frame)

/-- A new bridge, `bridge.rs:410`. -/
def Bridge.init {T : Type} : Bridge T := ⟨fun _ ↦ none, none, none, []⟩

/-- What happens next. -/
inductive Action (T : Type) where
  | call (t : T) (kind : Kind)
  /-- The lock is given to a call, which goes on to its next await point. -/
  | acquire (t : T)
  | spawned (t : T) (result : Option StartError)
  | writeSome (t : T)
  | written (t : T)
  | writeFailed (t : T) (detail : String)
  | flushed (t : T) (error : Option String)
  | readSome (t : T)
  | readFrame (t : T)
  | readFailed (t : T) (timedOut : Bool) (detail : String)
  | shutDown (t : T)
  | cancel (t : T)
  /-- `stop`, `bridge.rs:432`; a restart is this, and a `start`. -/
  | stop
  /-- The worker reads a line, and answers it with a frame if it is a request. -/
  | answer (frame : Frame)

section

variable {T : Type} [DecidableEq T]

/-- Move a call. -/
def Bridge.move (s : Bridge T) (t : T) (kind : Kind) (p : Point T) : Bridge T :=
  { s with tasks := Function.update s.tasks t (some (kind, p)) }

/-- The first await point of a call that has the lock. -/
def Bridge.enter (s : Bridge T) (t : T) (kind : Kind) : Bridge T :=
  match kind, s.worker with
  | .transform _, some _ => { s.move t kind (.writing false) with lock := some t }
  | .transform false, none => s.move t kind (.done none (.bypassed "not_loaded" none))
  | .transform true, none => { s.move t kind .spawning with lock := some t }
  | .start, some _ => s.move t kind (.started true)
  | .start, none => { s.move t kind .spawning with lock := some t }

/-- What a call leaves behind whose future is dropped. -/
def Bridge.drop (s : Bridge T) (t : T) (kind : Kind) : Point T → Option (Bridge T)
  | .waiting | .shuttingDown _ => some (s.move t kind .cancelled)
  | .spawning | .flushing => some { s.move t kind .cancelled with lock := none }
  | .writing begun =>
    some { s.move t kind .cancelled with
      lock := none
      worker := s.worker.map fun w ↦ { w with torn := w.torn || begun } }
  | .reading begun =>
    some { s.move t kind .cancelled with
      lock := none
      worker := s.worker.map fun w ↦ { w with cut := w.cut || begun } }
  | _ => none

/-- Whether a frame can be read from the worker. -/
def Worker.next (w : Worker T) : Option (T × Frame) := if w.cut then none else w.stdout.head?

/-- One step, where it can be taken. -/
def Bridge.step (s : Bridge T) : Action T → Option (Bridge T)
  | .call t kind => if s.tasks t = none then some (s.move t kind .waiting) else none
  | .acquire t =>
    match s.tasks t, s.lock with
    | some (kind, .waiting), none => some (s.enter t kind)
    | _, _ => none
  | .spawned t result =>
    match s.tasks t, result with
    | some (.transform autoLoad, .spawning), none =>
      some { s.move t (.transform autoLoad) (.writing false) with worker := some .fresh }
    | some (.start, .spawning), none =>
      some { s.move t .start (.started true) with lock := none, worker := some .fresh }
    | some (.transform autoLoad, .spawning), some error =>
      some { s.move t (.transform autoLoad) (.done none (.bypassed error.reason error.text)) with
        lock := none }
    | some (.start, .spawning), some _ => some { s.move t .start (.started false) with lock := none }
    | _, _ => none
  | .writeSome t =>
    match s.tasks t with
    | some (kind, .writing _) => some (s.move t kind (.writing true))
    | _ => none
  | .written t =>
    match s.tasks t, s.worker with
    | some (kind, .writing _), some w =>
      some { s.move t kind .flushing with
        worker := some { w with
          torn := false
          stdin := w.stdin ++ [if w.torn then .spoilt else .request t] } }
    | _, _ => none
  | .writeFailed t detail =>
    match s.tasks t with
    | some (kind, .writing _) =>
      some { s.move t kind (.shuttingDown (.bypassed "worker_gone" (some detail))) with
        lock := none
        worker := none }
    | _ => none
  | .flushed t error =>
    match s.tasks t, error with
    | some (kind, .flushing), none => some (s.move t kind (.reading false))
    -- Unlike a failed write, this leaves the worker where it is.
    | some (kind, .flushing), some detail =>
      some { s.move t kind (.done none (.bypassed "worker_gone" (some detail))) with lock := none }
    | _, _ => none
  | .readSome t =>
    match s.tasks t, s.worker.bind Worker.next with
    | some (kind, .reading _), some _ => some (s.move t kind (.reading true))
    | _, _ => none
  | .readFrame t =>
    match s.tasks t, s.worker.bind Worker.next, s.worker with
    | some (kind, .reading _), some (asked, frame), some w =>
      some { s.move t kind (.done (some asked) (settle frame)) with
        lock := none
        worker := some { w with stdout := w.stdout.tail } }
    | _, _, _ => none
  | .readFailed t timedOut detail =>
    match s.tasks t with
    | some (kind, .reading _) =>
      let reason := if timedOut then "timeout" else "transform_error"
      some { s.move t kind (.shuttingDown (.bypassed reason (some detail))) with
        lock := none
        worker := none }
    | _ => none
  | .shutDown t =>
    match s.tasks t with
    | some (kind, .shuttingDown outcome) => some (s.move t kind (.done none outcome))
    | _ => none
  | .cancel t =>
    match s.tasks t with
    | some (kind, p) => s.drop t kind p
    | none => none
  | .stop => if s.lock = none then some { s with worker := none } else none
  | .answer frame =>
    match s.worker with
    | some w =>
      match w.stdin with
      | .request t :: rest =>
        some { s with
          worker := some { w with stdin := rest, stdout := w.stdout ++ [(t, frame)] }
          answered := s.answered ++ [(t, frame)] }
      | .spoilt :: rest => some { s with worker := some { w with stdin := rest } }
      | [] => none
    | none => none

end

end NullRouter.Pxpipe
