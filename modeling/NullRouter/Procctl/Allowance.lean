import NullRouter.Procctl.View

/-!
# The allowance of restarts

What a supervised child has used of its allowance, told from what happens to it alone: a child is
supervised once its start was answered, each of its failures in a row is charged, and a run that
lasted as long as the policy's `reset_after` clears the charges. The counter of `engine.rs` agrees
with it in every run in which a child that was restarted neither fails after such a run, nor misses
its deadline or fails to spawn with restarts left.
-/

namespace NullRouter.Procctl

open NullRouter.Base

/-! ## Accounts -/

/-- What a supervised child has used: its failures in a row and the restarts they led to, and since
when it is up. -/
structure Account where
  supervised : Bool := false
  allowance : Nat := 0
  failures : Nat := 0
  restarts : Nat := 0
  up : Option Nat := none

namespace Account

/-- A failure is charged to a child that is supervised; any other is told to its caller. -/
def failed (a : Account) : Account :=
  if a.supervised then { a with failures := a.failures + 1, up := none } else a

/-- A run that lasted long enough clears what was charged. -/
def rested (a : Account) (now resetAfter : Nat) : Account :=
  if a.up.any fun since ↦ resetAfter ≤ now - since then { a with failures := 0, restarts := 0 }
  else a

/-- The account after a turn that found the loop at a slot. -/
def after (a : Account) (slot : Slot) (t : Turn) : Account :=
  match slot, t.event with
  | _, .start spec _ _ => { allowance := spec.restart.maxAttempts }
  | _, .stop _ | _, .closed => {}
  | .starting _, .ready _ => { a with supervised := true, up := some t.now }
  | .starting s, .exited status =>
    if status.any ExitStatus.success ∧ s.running.spec.ready = .completesSuccessfully then {}
    else a.failed
  | .starting _, .deadline => a.failed
  | .live running, .exited _ => (a.rested t.now running.spec.restart.resetAfter).failed
  | .backoff .., .restartDue (.ok _) => { a with restarts := a.restarts + 1 }
  | .backoff .., .restartDue (.error _) => { a with restarts := a.restarts + 1 }.failed
  | _, _ => a

end Account

/-- A child is restarted at most as often in a row as its policy allows; each failure of a
supervised child is charged once, and it is left alone exactly when the charges are past the
allowance. -/
structure WithinAllowance (a : Account) (slot : Slot) : Prop where
  bounded : a.restarts ≤ a.allowance
  charged : a.supervised = true →
    a.failures = a.restarts + if slot.running?.isSome then 0 else 1
  restarted : a.supervised = true → (slot = .empty ↔ a.allowance < a.failures)

/-- A supervisor with the account of its child. -/
structure Audited where
  world : World
  account : Account := {}

/-- A step of a supervisor, and what it does to the account. -/
inductive Audited.Step (program : String) : Audited → Happening → Audited → Prop where
  | turn {a : Audited} {t : Turn} {w : World} (h : World.Step program a.world (.turn t) w) :
    Step program a (.turn t) ⟨w, a.account.after a.world.engine.slot t⟩
  | line {a : Audited} {clean : String} {w : World}
    (h : World.Step program a.world (.line clean) w) :
    Step program a (.line clean) ⟨w, a.account⟩

/-- The turns in which the loop's counter is right: no child that was restarted exits after a run
long enough to be healthy, or misses its deadline or fails to spawn while restarts are left, and
none exits with the counter at the largest value it has. -/
def Spares (e : Engine) : Happening → Prop
  | .line _ => True
  | .turn t =>
    match e.slot, t.event with
    | .live running, .exited _ =>
      (e.shared.healthyUptime t.now running.spec.restart.resetAfter = true →
        e.shared.restarts = 0) ∧ e.shared.restarts < u32Max
    | .starting s, .exited _ => s.attempt < u32Max
    | .starting s, .deadline => s.reply = none → s.running.spec.restart.maxAttempts ≤ s.attempt
    | .backoff spec _ attempt, .restartDue (.error _) => spec.restart.maxAttempts ≤ attempt
    | _, _ => True

/-! ## The counter -/

/-- The loop's counter agrees with the account. -/
def Tallies (a : Account) (slot : Slot) (shared : Shared) : Prop :=
  a.restarts ≤ a.allowance ∧
    match slot with
    | .empty => a.supervised = true → a.failures = a.restarts + 1 ∧ a.allowance < a.failures
    | .starting s =>
      s.running.spec.restart.maxAttempts = a.allowance ∧ s.attempt = a.restarts ∧
        a.failures = a.restarts ∧ (s.reply = none ↔ a.supervised = true)
    | .live running =>
      running.spec.restart.maxAttempts = a.allowance ∧ shared.restarts = a.restarts ∧
        a.failures = a.restarts ∧ a.supervised = true ∧ shared.startedAt = a.up
    | .backoff spec _ attempt =>
      spec.restart.maxAttempts = a.allowance ∧ attempt = a.failures ∧
        a.failures = a.restarts + 1 ∧ a.failures ≤ a.allowance ∧ a.supervised = true

variable {program : String} {a : Account} {slot : Slot} {shared : Shared}

/-- Where the counter agrees, the child is within its allowance. -/
theorem Tallies.within (h : Tallies a slot shared) : WithinAllowance a slot := by
  obtain ⟨hbounded, h⟩ := h
  refine ⟨hbounded, ?_, ?_⟩
  · intro hsupervised
    cases slot with
    | empty => exact (h hsupervised).1
    | starting s => exact h.2.2.1
    | live running => exact h.2.2.1
    | backoff spec due attempt => exact h.2.2.1
  · intro hsupervised
    cases slot with
    | empty => exact ⟨fun _ ↦ (h hsupervised).2, fun _ ↦ rfl⟩
    | starting s =>
      have hfailures := h.2.2.1
      constructor
      · intro hempty
        cases hempty
      · intro hspent
        omega
    | live running =>
      have hfailures := h.2.2.1
      constructor
      · intro hempty
        cases hempty
      · intro hspent
        omega
    | backoff spec due attempt =>
      have hfailures := h.2.2.2.1
      constructor
      · intro hempty
        cases hempty
      · intro hspent
        omega

@[simp] theorem failed_of_supervised (h : a.supervised = true) :
    a.failed = { a with failures := a.failures + 1, up := none } := if_pos h

@[simp] theorem failed_of_unsupervised (h : a.supervised = false) : a.failed = a := by
  rw [Account.failed, h]
  rfl

/-- A child that is left alone has its charges past its allowance. -/
theorem tallies_empty_failed (hbounded : a.restarts ≤ a.allowance)
    (hfailures : a.failures = a.restarts)
    (hspent : a.supervised = true → a.allowance ≤ a.failures) :
    Tallies a.failed .empty shared := by
  cases hsupervised : a.supervised with
  | false =>
    rw [failed_of_unsupervised hsupervised]
    refine ⟨hbounded, ?_⟩
    intro h
    rw [hsupervised] at h
    cases h
  | true =>
    have hallowance := hspent hsupervised
    rw [failed_of_supervised hsupervised]
    refine ⟨hbounded, ?_⟩
    intro _
    constructor
    · show a.failures + 1 = a.restarts + 1
      omega
    · show a.allowance < a.failures + 1
      omega

/-- Scheduling a restart charges the failure that led to it. -/
theorem tallies_scheduleRestart {spec : ChildSpec} {attempt : Nat} (now : Nat)
    (hbounded : a.restarts ≤ a.allowance) (hfailures : a.failures = a.restarts)
    (hsupervised : a.supervised = true) (hpolicy : spec.restart.maxAttempts = a.allowance)
    (hattempt : attempt = a.restarts) (hroom : attempt < u32Max) :
    Tallies a.failed (scheduleRestart spec attempt now shared).slot
      (scheduleRestart spec attempt now shared).shared := by
  have hnext : satAdd32 attempt 1 = a.failures + 1 := by
    rw [satAdd32, Nat.min_eq_left (by omega)]
    omega
  rw [scheduleRestart]
  split
  · next hspent => exact tallies_empty_failed hbounded hfailures (by omega)
  · next hleft =>
    rw [failed_of_supervised hsupervised]
    refine ⟨hbounded, hpolicy, hnext, ?_, ?_, hsupervised⟩
    · show a.failures + 1 = a.restarts + 1
      omega
    · show a.failures + 1 ≤ a.allowance
      omega

/-- A run that does not count as healthy, or before which nothing was charged, clears nothing. -/
theorem rested_eq_self {now resetAfter : Nat} (hfailures : a.failures = a.restarts)
    (h : (a.up.any fun since ↦ resetAfter ≤ now - since) = true → a.restarts = 0) :
    a.rested now resetAfter = a := by
  rw [Account.rested]
  split
  · next hhealthy =>
    have hnone := h hhealthy
    obtain ⟨supervised, allowance, failures, restarts, up⟩ := a
    dsimp only at hfailures hnone
    rw [hfailures, hnone]
  · rfl

/-- The start time is gone when the uptime of a child that exited is taken. -/
theorem healthyUptime_exited (status : String) (now resetAfter : Nat) :
    (shared.exited status).healthyUptime now resetAfter = false := rfl

/-- Nothing is charged where nothing is supervised. -/
theorem tallies_empty_unsupervised (h : a.supervised = false)
    (hbounded : a.restarts ≤ a.allowance) : Tallies a .empty shared := by
  refine ⟨hbounded, ?_⟩
  intro hsupervised
  rw [h] at hsupervised
  cases hsupervised

/-- A start by a caller has its whole allowance before it. -/
theorem tallies_begin_ (spec : ChildSpec) (caller : Nat) (spawn : Except String Nat) (now : Nat) :
    Tallies { allowance := spec.restart.maxAttempts }
      (begin_ program spec (some caller) 0 spawn now shared).slot
      (begin_ program spec (some caller) 0 spawn now shared).shared := by
  cases spawn with
  | error source => exact tallies_empty_unsupervised rfl (Nat.zero_le _)
  | ok child =>
    refine ⟨Nat.zero_le _, rfl, rfl, rfl, ?_⟩
    constructor
    · intro hreply
      cases hreply
    · intro hsupervised
      cases hsupervised

/-- A command starts a new account. -/
theorem after_start (t : Turn) {spec : ChildSpec} {caller : Nat} {spawn : Except String Nat}
    (h : t.event = .start spec caller spawn) :
    a.after slot t = { allowance := spec.restart.maxAttempts } := by
  obtain ⟨event, now, os⟩ := t
  cases h
  cases slot <;> rfl

theorem after_stop (t : Turn) {caller : Nat} (h : t.event = .stop caller) :
    a.after slot t = {} := by
  obtain ⟨event, now, os⟩ := t
  cases h
  cases slot <;> rfl

theorem after_closed (t : Turn) (h : t.event = .closed) : a.after slot t = {} := by
  obtain ⟨event, now, os⟩ := t
  cases h
  cases slot <;> rfl

/-- A child that exits before it is ready keeps the counter in agreement. -/
theorem tallies_onExit_starting {s : Starting} (status : Option ExitStatus) (now : Nat)
    (os : Stopping) (h : Tallies a (.starting s) shared) (hroom : s.attempt < u32Max) :
    Tallies (a.after (.starting s) ⟨.exited status, now, os⟩)
      (onExit program (.starting s) status now shared).slot
      (onExit program (.starting s) status now shared).shared := by
  obtain ⟨hbounded, hpolicy, hattempt, hfailures, hreply⟩ := h
  dsimp only [Account.after, onExit]
  by_cases hcompleted :
      status.any ExitStatus.success = true ∧ s.running.spec.ready = .completesSuccessfully
  · rw [if_pos hcompleted, if_pos hcompleted]
    exact tallies_empty_unsupervised rfl (Nat.le_refl _)
  · rw [if_neg hcompleted, if_neg hcompleted]
    cases hcaller : s.reply with
    | some caller =>
      have hunsupervised : a.supervised = false := by
        rw [← Bool.not_eq_true, ← hreply, hcaller]
        exact nofun
      rw [failed_of_unsupervised hunsupervised]
      exact tallies_empty_unsupervised hunsupervised hbounded
    | none =>
      have hsupervised := hreply.mp hcaller
      exact tallies_scheduleRestart now hbounded hfailures hsupervised hpolicy hattempt hroom

/-- A turn that the counter is right in keeps it in agreement. -/
theorem tallies_turn {e : Engine} {t : Turn} (h : Tallies a e.slot e.shared)
    (hspares : Spares e (.turn t)) (hoffers : e.slot.offers t.now t.event = true) :
    Tallies (a.after e.slot t) (e.turn program t).1.slot (e.turn program t).1.shared := by
  obtain ⟨slot, shared, returned⟩ := e
  obtain ⟨event, now, os⟩ := t
  cases event with
  | start spec caller spawn =>
    rw [after_start _ rfl]
    exact tallies_begin_ spec caller spawn now
  | stop caller =>
    rw [after_stop _ rfl]
    exact tallies_empty_unsupervised rfl (Nat.le_refl _)
  | closed =>
    rw [after_closed _ rfl]
    exact tallies_empty_unsupervised rfl (Nat.le_refl _)
  | ready value =>
    cases slot with
    | starting s =>
      obtain ⟨hbounded, hpolicy, hattempt, hfailures, -⟩ := h
      exact ⟨hbounded, hpolicy, hattempt, hfailures, rfl, rfl⟩
    | empty => cases hoffers
    | live running => cases hoffers
    | backoff spec due attempt => cases hoffers
  | readyImpossible =>
    cases slot with
    | starting s => exact h
    | empty => cases hoffers
    | live running => cases hoffers
    | backoff spec due attempt => cases hoffers
  | deadline =>
    cases slot with
    | starting s =>
      obtain ⟨hbounded, hpolicy, hattempt, hfailures, hreply⟩ := h
      refine tallies_empty_failed hbounded hfailures ?_
      intro hsupervised
      have hspent := hspares (hreply.mpr hsupervised)
      omega
    | empty => cases hoffers
    | live running => cases hoffers
    | backoff spec due attempt => cases hoffers
  | exited status =>
    cases slot with
    | starting s => exact tallies_onExit_starting status now os h hspares
    | live running =>
      obtain ⟨hbounded, hpolicy, hrestarts, hfailures, hsupervised, hup⟩ := h
      obtain ⟨hhealthy, hroom⟩ := hspares
      have hrested : a.rested now running.spec.restart.resetAfter = a := by
        refine rested_eq_self hfailures ?_
        rw [← hup, ← hrestarts]
        exact hhealthy
      dsimp only [Account.after, Engine.turn, onExit]
      rw [hrested, healthyUptime_exited]
      exact tallies_scheduleRestart now hbounded hfailures hsupervised hpolicy hrestarts hroom
    | empty => cases hoffers
    | backoff spec due attempt => cases hoffers
  | restartDue spawn =>
    cases slot with
    | backoff spec due attempt =>
      obtain ⟨hbounded, hpolicy, hattempt, hfailures, hleft, hsupervised⟩ := h
      cases spawn with
      | ok child =>
        refine ⟨?_, hpolicy, ?_, hfailures, ?_⟩
        · show a.restarts + 1 ≤ a.allowance
          omega
        · show attempt = a.restarts + 1
          omega
        · exact ⟨fun _ ↦ hsupervised, fun _ ↦ rfl⟩
      | error source =>
        have hspent : spec.restart.maxAttempts ≤ attempt := hspares
        refine @tallies_empty_failed { a with restarts := a.restarts + 1 } _ ?_ hfailures ?_
        · show a.restarts + 1 ≤ a.allowance
          omega
        · show a.supervised = true → a.allowance ≤ a.failures
          omega
    | empty => cases hoffers
    | starting s => cases hoffers
    | live running => cases hoffers

/-- In every run in which each turn spares its counter, a supervisor keeps its child within the
allowance of its policy. -/
theorem within_allowance_of_run {capacity : Nat} {hs : List Happening} {b : Audited}
    (h : Run (Guarded (fun b what ↦ Spares b.world.engine what) (Audited.Step program))
      ⟨.init capacity, {}⟩ hs b) : WithinAllowance b.account b.world.engine.slot := by
  refine Tallies.within (h.invariant
    (fun b ↦ Tallies b.account b.world.engine.slot b.world.engine.shared) ?_ ?_)
  · rintro b what b' htallies ⟨hspares, hstep⟩
    cases hstep with
    | turn hturn =>
      cases hturn with
      | turn hreturned hoffers => exact tallies_turn htallies hspares hoffers
    | line hline =>
      cases hline
      obtain ⟨hbounded, hslot⟩ := htallies
      refine ⟨hbounded, ?_⟩
      cases hkept : b.world.engine.slot with
      | empty => rw [hkept] at hslot; exact hslot
      | starting s => rw [hkept] at hslot; exact hslot
      | live running => rw [hkept] at hslot; exact hslot
      | backoff spec due attempt => rw [hkept] at hslot; exact hslot
  · exact tallies_empty_unsupervised rfl (Nat.le_refl _)

/-- A child that may be restarted once, and counts as healthy after two minutes. -/
def onceSpec : ChildSpec :=
  ⟨.occurrences, 90000000000, { RestartPolicy.resilient with maxAttempts := 1 }⟩

/-- A turn at some second of the run. -/
def turnAt (second : Nat) (event : Event) : Happening :=
  .turn ⟨event, second * 1000000000, ⟨false, true, true⟩⟩

/-- A crash of a child that was up for a second, and its restart. -/
def crashed : List Happening :=
  [turnAt 0 (.start onceSpec 1 (.ok 7)), turnAt 1 (.ready none), turnAt 2 (.exited none),
    turnAt 4 (.restartDue (.ok 8)), turnAt 5 (.ready none)]

/-- A crash is charged, and its restart brings the child up again. -/
theorem within_allowance_of_crash : ∃ b,
    Run (Audited.Step "cloudflared") ⟨.init 50, {}⟩ crashed b ∧
      WithinAllowance b.account b.world.engine.slot ∧ b.account.failures = 1 := by
  have h : ∃ b, Run (Guarded (fun b what ↦ Spares b.world.engine what)
      (Audited.Step "cloudflared")) ⟨.init 50, {}⟩ crashed b ∧ b.account.failures = 1 :=
    ⟨_, .cons ⟨trivial, .turn (.turn rfl rfl)⟩ (.cons ⟨trivial, .turn (.turn rfl rfl)⟩
      (.cons ⟨⟨fun h ↦ absurd h (by decide), by decide⟩, .turn (.turn rfl rfl)⟩
        (.cons ⟨trivial, .turn (.turn rfl rfl)⟩
          (.single ⟨trivial, .turn (.turn rfl rfl)⟩)))), rfl⟩
  obtain ⟨b, hrun, hfailures⟩ := h
  exact ⟨b, hrun.of_guarded, within_allowance_of_run hrun, hfailures⟩

/-- A child that was restarted and then up for an hour is given up when it exits, though it has its
whole allowance again. -/
theorem gives_up_after_healthy_run : ∃ b, Run (Audited.Step "cloudflared") ⟨.init 50, {}⟩
    (crashed ++ [turnAt 3605 (.exited none)]) b ∧
      ¬ WithinAllowance b.account b.world.engine.slot := by
  refine ⟨_, .cons (.turn (.turn rfl rfl)) (.cons (.turn (.turn rfl rfl))
    (.cons (.turn (.turn rfl rfl)) (.cons (.turn (.turn rfl rfl)) (.cons (.turn (.turn rfl rfl))
      (.single (.turn (.turn rfl rfl))))))), ?_⟩
  intro h
  exact absurd ((h.restarted rfl).mp rfl) (by decide)

end NullRouter.Procctl
