import NullRouter.Pxpipe.Bridge

/-!
# Replies and the calls they belong to

Frames carry no id, so a call reads its own reply only if nothing is pending in the worker when its
request is written. What keeps this, over every order of steps, `crates/pxpipe/src/bridge.rs:487–574`:
no call leaves the worker to the next one with its request written and its reply not read.
-/

namespace NullRouter.Pxpipe

open NullRouter.Base

variable {T : Type}

/-- Nothing is pending in the worker. -/
def Worker.Quiet (w : Worker T) : Prop := w.stdin = [] ∧ w.stdout = [] ∧ w.cut = false

/-- Nothing but the request of a call, or the reply to it, is pending in the worker. -/
def Worker.Awaits (w : Worker T) (t : T) (answered : List (T × Frame)) : Prop :=
  w.cut = false ∧
    (w.stdout = [] ∧ (w.stdin = [] ∨ w.stdin = [.spoilt] ∨ w.stdin = [.request t]) ∨
      w.stdin = [] ∧ ∃ frame, w.stdout = [(t, frame)] ∧ (t, frame) ∈ answered)

/-- An outcome that changes nothing. -/
def TransformOutcome.IsBypass (outcome : TransformOutcome) : Prop :=
  ∀ body info owns, outcome ≠ .applied body info owns

/-- What is known where a call is. -/
def Bridge.Holds (s : Bridge T) (t : T) : Point T → Prop
  | .spawning => s.worker = none
  | .writing _ => ∀ w ∈ s.worker, w.Quiet
  | .flushing | .reading _ => ∀ w ∈ s.worker, w.Awaits t s.answered
  | .shuttingDown outcome | .done none outcome => outcome.IsBypass
  | .done (some asked) outcome =>
    asked = t ∧ ∃ frame, (t, frame) ∈ s.answered ∧ outcome = settle frame
  | _ => True

/-- Whether a point of a call is within the lock. -/
def inside (p : Kind × Point T) : Bool := p.2.holds

/-- Who holds the lock, and what is pending while nobody does. -/
structure Bridge.InOrder (s : Bridge T) : Prop where
  owned : Owned inside s.tasks s.lock
  free : s.lock = none → ∀ w ∈ s.worker, w.Quiet
  holds : ∀ t kind p, s.tasks t = some (kind, p) → s.Holds t p

/-- The step leaves no request without a reader for its reply: neither is a call dropped that has
written one, nor does a flush fail. -/
def Finishes (s : Bridge T) : Action T → Prop
  | .cancel t => ∀ kind p, s.tasks t = some (kind, p) → p ≠ .flushing ∧ ∀ begun, p ≠ .reading begun
  | .flushed _ error => error = none
  | _ => True

namespace Bridge.InOrder

variable {s s' : Bridge T} {t : T} {kind : Kind} {p : Point T}

theorem init : (Bridge.init : Bridge T).InOrder where
  owned := Owned.of_none
  free _ w hw := by cases hw
  holds t kind p hp := by cases hp

/-- What is known of a call outside the lock does not depend on the worker. -/
theorem holds_of_outside (hp : p.holds = false) (h : s.Holds t p)
    (hanswered : s.answered ⊆ s'.answered) : s'.Holds t p := by
  cases p with
  | spawning => cases hp
  | writing begun => cases hp
  | flushing => cases hp
  | reading begun => cases hp
  | done asked outcome =>
    cases asked with
    | none => exact h
    | some asked =>
      obtain ⟨hasked, frame, hmem, houtcome⟩ := h
      exact ⟨hasked, frame, hanswered hmem, houtcome⟩
  | shuttingDown outcome => exact h
  | waiting => trivial
  | started loaded => trivial
  | cancelled => trivial

/-- While a call holds the lock, or nobody does, the others are outside. -/
theorem outside_of_ne (h : s.InOrder) (hlock : s.lock = none ∨ s.lock = some t) {u : T}
    (hu : u ≠ t) {kind : Kind} {p : Point T} (hp : s.tasks u = some (kind, p)) :
    p.holds = false := by
  rw [Bool.eq_false_iff]
  intro hinside
  have hsome := h.owned.eq_some hp hinside
  rcases hlock with hlock | hlock
  · rw [hlock] at hsome
    cases hsome
  · rw [hlock] at hsome
    exact hu (Option.some.inj hsome).symm

private theorem awaits_written {w : Worker T} (hquiet : w.Quiet) (t : T)
    (answered : List (T × Frame)) :
    Worker.Awaits { w with
      torn := false
      stdin := w.stdin ++ [if w.torn then .spoilt else .request t] } t answered := by
  obtain ⟨hstdin, hstdout, hcut⟩ := hquiet
  refine ⟨hcut, .inl ⟨hstdout, ?_⟩⟩
  simp only [hstdin, List.nil_append]
  cases w.torn with
  | false => exact .inr (.inr rfl)
  | true => exact .inr (.inl rfl)

/-- What a call reads while nothing else is pending is the reply to its own request, and after it
nothing is. -/
private theorem of_awaits {w : Worker T} {answered : List (T × Frame)} {asked : T} {frame : Frame}
    (hawaits : w.Awaits t answered) (hnext : w.next = some (asked, frame)) :
    asked = t ∧ (t, frame) ∈ answered ∧ Worker.Quiet { w with stdout := w.stdout.tail } := by
  obtain ⟨hcut, ⟨hstdout, -⟩ | ⟨hstdin, own, hstdout, hmem⟩⟩ := hawaits
  · rw [Worker.next, hcut, hstdout] at hnext
    cases hnext
  · rw [Worker.next, hcut, hstdout] at hnext
    obtain ⟨rfl, rfl⟩ := Prod.mk.inj (Option.some.inj hnext)
    exact ⟨rfl, hmem, hstdin, by rw [hstdout]; rfl, hcut⟩

private theorem of_answer (h : s.InOrder) {w : Worker T} (hworker : s.worker = some w)
    {line : Line T} {rest : List (Line T)} (hline : w.stdin = line :: rest) :
    ∃ t kind p, s.tasks t = some (kind, p) ∧ p.holds = true ∧ s.lock = some t ∧
      (p = .flushing ∨ ∃ begun, p = .reading begun) ∧ w.Awaits t s.answered := by
  have hbusy : ¬w.Quiet := by
    rintro ⟨hstdin, -⟩
    rw [hline] at hstdin
    cases hstdin
  cases hlock : s.lock with
  | none => exact (hbusy (h.free hlock w hworker)).elim
  | some t =>
    obtain ⟨⟨kind, p⟩, hp, hinside⟩ := h.owned.exists_point hlock
    have hheld := h.holds t kind p hp
    refine ⟨t, kind, p, hp, hinside, rfl, ?_⟩
    cases p with
    | spawning =>
      rw [show s.worker = none from hheld] at hworker
      cases hworker
    | writing begun => exact (hbusy (hheld w hworker)).elim
    | flushing => exact ⟨.inl rfl, hheld w hworker⟩
    | reading begun => exact ⟨.inr ⟨begun, rfl⟩, hheld w hworker⟩
    | waiting => cases hinside
    | shuttingDown outcome => cases hinside
    | done asked outcome => cases hinside
    | started loaded => cases hinside
    | cancelled => cases hinside

variable [DecidableEq T]

/-- A call that moves leaves what is known of the others, if it alone may touch the worker. -/
theorem of_move (h : s.InOrder) (htasks : s'.tasks = Function.update s.tasks t (some (kind, p)))
    (howned : Owned inside s'.tasks s'.lock) (hfree : s'.lock = none → ∀ w ∈ s'.worker, w.Quiet)
    (hholds : s'.Holds t p) (hanswered : s'.answered = s.answered)
    (hothers : s'.worker = s.worker ∨ s.lock = none ∨ s.lock = some t) : s'.InOrder := by
  refine ⟨howned, hfree, fun u kind' p' hp' ↦ ?_⟩
  rw [htasks] at hp'
  by_cases hu : u = t
  · subst hu
    rw [Function.update_self, Option.some.injEq, Prod.mk.injEq] at hp'
    rw [← hp'.2]
    exact hholds
  · rw [Function.update_of_ne hu] at hp'
    have hheld := h.holds u kind' p' hp'
    rcases hothers with hworker | hlock
    · have hsame : s'.Holds u p' ↔ s.Holds u p' := by
        unfold Bridge.Holds
        rw [hworker, hanswered]
      exact hsame.mpr hheld
    · refine holds_of_outside (h.outside_of_ne hlock hu hp') hheld ?_
      rw [hanswered]
      exact List.Subset.refl _

/-- A call outside the lock that stays outside touches nothing. -/
theorem of_stay (h : s.InOrder) {kind' : Kind} {p' : Point T} (hp : s.tasks t = some (kind', p'))
    (houtside : p'.holds = false) (hstays : p.holds = false) (hholds : s.Holds t p) :
    (s.move t kind p).InOrder := by
  refine h.of_move rfl (h.owned.keep ?_) h.free ?_ rfl (.inl rfl)
  · rw [hp]
    exact hstays.trans houtside.symm
  · exact holds_of_outside hstays hholds (List.Subset.refl _)

/-- A call within the lock that stays within may touch the worker. -/
theorem of_within (h : s.InOrder) {kind' : Kind} {p' : Point T} (hp : s.tasks t = some (kind', p'))
    (hinside : p'.holds = true) (hstays : p.holds = true)
    (htasks : s'.tasks = Function.update s.tasks t (some (kind, p))) (hlock : s'.lock = s.lock)
    (hholds : s'.Holds t p) (hanswered : s'.answered = s.answered) : s'.InOrder := by
  have hsome := h.owned.eq_some hp hinside
  refine h.of_move htasks ?_ ?_ hholds hanswered (.inr (.inr hsome))
  · rw [htasks, hlock]
    refine h.owned.keep ?_
    rw [hp]
    exact hstays.trans hinside.symm
  · intro hnone
    rw [hlock, hsome] at hnone
    cases hnone

/-- A call leaves the lock, with nothing pending. -/
theorem of_leave (h : s.InOrder) {kind' : Kind} {p' : Point T} (hp : s.tasks t = some (kind', p'))
    (hinside : p'.holds = true) (hleaves : p.holds = false)
    (htasks : s'.tasks = Function.update s.tasks t (some (kind, p))) (hlock : s'.lock = none)
    (hquiet : ∀ w ∈ s'.worker, w.Quiet) (hholds : s'.Holds t p)
    (hanswered : s'.answered = s.answered) : s'.InOrder := by
  have hsome := h.owned.eq_some hp hinside
  refine h.of_move htasks ?_ (fun _ ↦ hquiet) hholds hanswered (.inr (.inr hsome))
  rw [htasks, hlock]
  refine h.owned.release ?_ hleaves
  rw [hp]
  exact hinside

/-- A call takes the lock. -/
theorem of_take (h : s.InOrder) (hlock : s.lock = none) (htakes : p.holds = true)
    (hholds : Bridge.Holds { s.move t kind p with lock := some t } t p) :
    Bridge.InOrder { s.move t kind p with lock := some t } := by
  refine h.of_move rfl ?_ (fun hnone ↦ by cases hnone) hholds rfl (.inl rfl)
  have howned := h.owned
  rw [hlock] at howned
  exact howned.acquire htakes

theorem of_enter (h : s.InOrder) (hp : s.tasks t = some (kind, .waiting)) (hlock : s.lock = none) :
    (s.enter t kind).InOrder := by
  have hquiet := h.free hlock
  cases kind with
  | start =>
    cases hworker : s.worker with
    | none =>
      simp only [Bridge.enter, hworker]
      exact h.of_take hlock rfl hworker
    | some w =>
      simp only [Bridge.enter, hworker]
      exact h.of_stay hp rfl rfl trivial
  | transform autoLoad =>
    cases hworker : s.worker with
    | some w =>
      simp only [Bridge.enter, hworker]
      exact h.of_take hlock rfl hquiet
    | none =>
      cases autoLoad with
      | true =>
        simp only [Bridge.enter, hworker]
        exact h.of_take hlock rfl hworker
      | false =>
        simp only [Bridge.enter, hworker]
        exact h.of_stay hp rfl rfl fun _ _ _ ↦ TransformOutcome.noConfusion

/-- A call that is dropped, and has written no request. -/
theorem of_drop (h : s.InOrder) (hp : s.tasks t = some (kind, p))
    (hok : p ≠ .flushing ∧ ∀ begun, p ≠ .reading begun) (hdrop : s.drop t kind p = some s') :
    s'.InOrder := by
  cases p with
  | waiting =>
    obtain rfl := Option.some.inj hdrop
    exact h.of_stay hp rfl rfl trivial
  | shuttingDown outcome =>
    obtain rfl := Option.some.inj hdrop
    exact h.of_stay hp rfl rfl trivial
  | spawning =>
    obtain rfl := Option.some.inj hdrop
    have hnone : s.worker = none := h.holds t kind _ hp
    refine h.of_leave hp rfl rfl rfl rfl ?_ trivial rfl
    intro w hw
    cases hnone.symm.trans hw
  | writing begun =>
    obtain rfl := Option.some.inj hdrop
    have hquiet : ∀ w ∈ s.worker, w.Quiet := h.holds t kind _ hp
    refine h.of_leave hp rfl rfl rfl rfl ?_ trivial rfl
    intro w hw
    obtain ⟨w', hw', rfl⟩ := Option.map_eq_some_iff.mp hw
    exact hquiet w' hw'
  | flushing => exact (hok.1 rfl).elim
  | reading begun => exact (hok.2 begun rfl).elim
  | done asked outcome => cases hdrop
  | started loaded => cases hdrop
  | cancelled => cases hdrop

/-- What the worker does while a call waits for it. -/
theorem of_worker (h : s.InOrder) (hp : s.tasks t = some (kind, p)) (hlock : s.lock = some t)
    (hpoint : p = .flushing ∨ ∃ begun, p = .reading begun) (htasks : s'.tasks = s.tasks)
    (hsame : s'.lock = s.lock) (hanswered : s.answered ⊆ s'.answered)
    (hawaits : ∀ w ∈ s'.worker, w.Awaits t s'.answered) : s'.InOrder := by
  refine ⟨?_, ?_, fun u kind' p' hp' ↦ ?_⟩
  · rw [htasks, hsame]
    exact h.owned
  · intro hnone
    rw [hsame, hlock] at hnone
    cases hnone
  · rw [htasks] at hp'
    by_cases hu : u = t
    · subst hu
      rw [hp, Option.some.injEq, Prod.mk.injEq] at hp'
      obtain ⟨rfl, rfl⟩ := hp'
      rcases hpoint with rfl | ⟨begun, rfl⟩
      · exact hawaits
      · exact hawaits
    · exact holds_of_outside (h.outside_of_ne (.inr hlock) hu hp') (h.holds u kind' p' hp') hanswered

/-- A step that leaves no request without a reader for its reply keeps all in order. -/
theorem step (h : s.InOrder) {a : Action T} (hok : Finishes s a) (hstep : s.step a = some s') :
    s'.InOrder := by
  cases a with
  | call t kind =>
    obtain ⟨hnone, hs⟩ := Option.ite_none_right_eq_some.mp hstep
    obtain rfl := Option.some.inj hs
    refine h.of_move rfl (h.owned.keep ?_) h.free trivial rfl (.inl rfl)
    rw [hnone]
    rfl
  | acquire t =>
    simp only [Bridge.step] at hstep
    split at hstep
    · next kind hp hlock =>
      obtain rfl := Option.some.inj hstep
      exact h.of_enter hp hlock
    · cases hstep
  | spawned t result =>
    simp only [Bridge.step] at hstep
    have hfresh : ∀ w ∈ some (Worker.fresh : Worker T), w.Quiet := by
      intro w hw
      obtain rfl := Option.some.inj hw
      exact ⟨rfl, rfl, rfl⟩
    split at hstep
    · next hp =>
      obtain rfl := Option.some.inj hstep
      exact h.of_within hp rfl rfl rfl rfl hfresh rfl
    · next hp =>
      obtain rfl := Option.some.inj hstep
      exact h.of_leave hp rfl rfl rfl rfl hfresh trivial rfl
    · next error hp =>
      obtain rfl := Option.some.inj hstep
      have hnone : s.worker = none := h.holds t _ _ hp
      refine h.of_leave hp rfl rfl rfl rfl ?_ (fun _ _ _ ↦ TransformOutcome.noConfusion) rfl
      intro w hw
      cases hnone.symm.trans hw
    · next error hp =>
      obtain rfl := Option.some.inj hstep
      have hnone : s.worker = none := h.holds t _ _ hp
      refine h.of_leave hp rfl rfl rfl rfl ?_ trivial rfl
      intro w hw
      cases hnone.symm.trans hw
    · cases hstep
  | writeSome t =>
    simp only [Bridge.step] at hstep
    split at hstep
    · next kind begun hp =>
      obtain rfl := Option.some.inj hstep
      exact h.of_within hp rfl rfl rfl rfl (h.holds t kind _ hp) rfl
    · cases hstep
  | written t =>
    simp only [Bridge.step] at hstep
    split at hstep
    · next kind begun w hp hworker =>
      obtain rfl := Option.some.inj hstep
      have hquiet : ∀ w ∈ s.worker, w.Quiet := h.holds t kind _ hp
      refine h.of_within hp rfl rfl rfl rfl ?_ rfl
      intro w' hw'
      obtain rfl := Option.some.inj hw'
      exact awaits_written (hquiet w hworker) t s.answered
    · cases hstep
  | writeFailed t detail =>
    simp only [Bridge.step] at hstep
    split at hstep
    · next kind begun hp =>
      obtain rfl := Option.some.inj hstep
      refine h.of_leave hp rfl rfl rfl rfl ?_ (fun _ _ _ ↦ TransformOutcome.noConfusion) rfl
      intro w hw
      cases hw
    · cases hstep
  | flushed t error =>
    obtain rfl : error = none := hok
    simp only [Bridge.step] at hstep
    split at hstep
    · next kind hp _ =>
      obtain rfl := Option.some.inj hstep
      exact h.of_within hp rfl rfl rfl rfl (h.holds t kind _ hp) rfl
    · next herror => cases herror
    · cases hstep
  | readSome t =>
    simp only [Bridge.step] at hstep
    split at hstep
    · next kind begun next hp hnext =>
      obtain rfl := Option.some.inj hstep
      exact h.of_within hp rfl rfl rfl rfl (h.holds t kind _ hp) rfl
    · cases hstep
  | readFrame t =>
    simp only [Bridge.step] at hstep
    split at hstep
    · next kind begun asked frame w hp hnext hworker =>
      obtain rfl := Option.some.inj hstep
      have hawaits : ∀ w ∈ s.worker, w.Awaits t s.answered := h.holds t kind _ hp
      rw [hworker, Option.bind_some] at hnext
      obtain ⟨rfl, hmem, hquiet⟩ := of_awaits (hawaits w hworker) hnext
      refine h.of_leave hp rfl rfl rfl rfl ?_ ⟨rfl, frame, hmem, rfl⟩ rfl
      intro w' hw'
      obtain rfl := Option.some.inj hw'
      exact hquiet
    · cases hstep
  | readFailed t timedOut detail =>
    simp only [Bridge.step] at hstep
    split at hstep
    · next kind begun hp =>
      obtain rfl := Option.some.inj hstep
      refine h.of_leave hp rfl rfl rfl rfl ?_ (fun _ _ _ ↦ TransformOutcome.noConfusion) rfl
      intro w hw
      cases hw
    · cases hstep
  | shutDown t =>
    simp only [Bridge.step] at hstep
    split at hstep
    · next kind outcome hp =>
      obtain rfl := Option.some.inj hstep
      exact h.of_stay hp rfl rfl (h.holds t kind (.shuttingDown outcome) hp)
    · cases hstep
  | cancel t =>
    simp only [Bridge.step] at hstep
    split at hstep
    · next kind p hp => exact h.of_drop hp (hok kind p hp) hstep
    · cases hstep
  | stop =>
    obtain ⟨hlock, hs⟩ := Option.ite_none_right_eq_some.mp hstep
    obtain rfl := Option.some.inj hs
    refine ⟨h.owned, fun _ w hw ↦ (by cases hw), fun t kind p hp ↦ ?_⟩
    refine holds_of_outside ?_ (h.holds t kind p hp) (List.Subset.refl _)
    rw [Bool.eq_false_iff]
    intro hinside
    cases hlock.symm.trans (h.owned.eq_some hp hinside)
  | answer frame =>
    simp only [Bridge.step] at hstep
    split at hstep
    · next w hworker =>
      split at hstep
      · next u rest hline =>
        obtain rfl := Option.some.inj hstep
        obtain ⟨t, kind, p, hp, hinside, hlock, hpoint, hawaits⟩ := h.of_answer hworker hline
        obtain ⟨hcut, ⟨hstdout, hstdin⟩ | ⟨hstdin, -⟩⟩ := hawaits
        · rw [hline] at hstdin
          obtain ⟨rfl, rfl⟩ : u = t ∧ rest = [] := by simpa using hstdin
          refine h.of_worker hp hlock hpoint rfl rfl (List.subset_append_left _ _) ?_
          intro w' hw'
          obtain rfl := Option.some.inj hw'
          refine ⟨hcut, .inr ⟨rfl, frame, by simp only [hstdout, List.nil_append], ?_⟩⟩
          exact List.mem_append_right _ (List.mem_singleton_self _)
        · rw [hline] at hstdin
          cases hstdin
      · next rest hline =>
        obtain rfl := Option.some.inj hstep
        obtain ⟨t, kind, p, hp, hinside, hlock, hpoint, hawaits⟩ := h.of_answer hworker hline
        obtain ⟨hcut, ⟨hstdout, hstdin⟩ | ⟨hstdin, -⟩⟩ := hawaits
        · rw [hline] at hstdin
          obtain rfl : rest = [] := by simpa using hstdin
          refine h.of_worker hp hlock hpoint rfl rfl (List.Subset.refl _) ?_
          intro w' hw'
          obtain rfl := Option.some.inj hw'
          exact ⟨hcut, .inl ⟨hstdout, .inl rfl⟩⟩
        · rw [hline] at hstdin
          cases hstdin
      · cases hstep
    · cases hstep

end Bridge.InOrder

/-- The reply to the first of two requests. -/
def firstReply : Frame :=
  ⟨true, true, none, none, none, some "prompt of the first", ⟨0, 0, 0, 0, 0, 0, 0, 0⟩, false⟩

/-- A call that starts the worker, writes its request and reads the reply. -/
def oneCall : List (Action Nat) :=
  [.call 0 (.transform true), .acquire 0, .spawned 0 none, .writeSome 0, .written 0,
    .flushed 0 none, .answer firstReply, .readFrame 0]

/-- A call that is dropped while it waits for its reply, and one after it. -/
def droppedCall : List (Action Nat) :=
  [.call 0 (.transform true), .acquire 0, .spawned 0 none, .written 0, .flushed 0 none, .cancel 0,
    .call 1 (.transform false), .acquire 1, .written 1, .flushed 1 none, .answer firstReply,
    .readFrame 1]

end NullRouter.Pxpipe
