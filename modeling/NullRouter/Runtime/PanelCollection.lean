import Mathlib.Data.List.ReduceOption
import NullRouter.Base.Run
import NullRouter.Runtime.Pipeline

/-!
# Collecting the answers of a panel

The loop of `collect_panel`, `services/runtime-actix/src/pipeline.rs:572–628`, over a clock: the
calls of a panel end at any instants, or never, and the loop wakes at the instant at which a call
ends or a deadline comes. What it returns is what was answered before both deadlines, the second of
which counts from the answer that made the quorum.
-/

namespace NullRouter.Runtime.Fusion

open NullRouter.Base

/-! ## Tuning -/

/-- `FusionTuning`, `fusion.rs:41`, with the defaults of `fusion.rs:50`. -/
structure FusionTuning where
  minPanel : Nat := 2
  stragglerGraceMs : Nat := 8000
  panelHardTimeoutMs : Nat := 90000

namespace FusionTuning

/-- `from_override`, `fusion.rs:70`: what is not set, or set to zero, is the default. -/
def fromOverride (minPanel stragglerGraceMs panelHardTimeoutMs : Option Nat) : FusionTuning :=
  let defaults : FusionTuning := {}
  { minPanel := (minPanel.filter (0 < ·)).getD defaults.minPanel
    stragglerGraceMs := (stragglerGraceMs.filter (0 < ·)).getD defaults.stragglerGraceMs
    panelHardTimeoutMs := (panelHardTimeoutMs.filter (0 < ·)).getD defaults.panelHardTimeoutMs }

/-- `quorum`, `fusion.rs:95`. -/
def quorum (tuning : FusionTuning) (panelSize : Nat) : Nat :=
  let floor := if tuning.minPanel < 2 then 2 else tuning.minPanel
  if panelSize < floor then panelSize else floor

theorem quorum_le (tuning : FusionTuning) (panelSize : Nat) :
    tuning.quorum panelSize ≤ panelSize := by
  rw [quorum]
  split <;> split <;> omega

/-- Only a panel without a member has a quorum of none. -/
theorem quorum_pos (tuning : FusionTuning) {panelSize : Nat} (h : 0 < panelSize) :
    0 < tuning.quorum panelSize := by
  rw [quorum]
  split <;> split <;> omega

/-- There is always a window for stragglers. -/
theorem graceMs_pos (minPanel stragglerGraceMs panelHardTimeoutMs : Option Nat) :
    0 < (fromOverride minPanel stragglerGraceMs panelHardTimeoutMs).stragglerGraceMs := by
  rw [fromOverride]
  cases hset : stragglerGraceMs.filter (0 < ·) with
  | none =>
    show 0 < 8000
    omega
  | some grace => exact of_decide_eq_true (Option.filter_eq_some_iff.mp hset).2

end FusionTuning

/-! ## The loop -/

/-- A call of the panel: its model, and the instant at which it ends and the text that it ends
with, if it ends. -/
structure PanelCall where
  target : ModelTarget
  ending : Option (Nat × Option String)

namespace PanelCall

/-- The call has ended by an instant. -/
def EndedBy (call : PanelCall) (now : Nat) : Prop := ∃ ending ∈ call.ending, ending.1 ≤ now

instance (call : PanelCall) (now : Nat) : Decidable (call.EndedBy now) :=
  inferInstanceAs (Decidable (∃ ending ∈ call.ending, ending.1 ≤ now))

/-- The answer of a call and its instant; a text of blanks is none. -/
def answer (call : PanelCall) : Option (Nat × PanelAnswer) :=
  call.ending.bind fun ending ↦
    (ending.2.filter fun text ↦ !(trim text).isEmpty).map fun text ↦
      (ending.1, ⟨Services.targetLabel call.target, text⟩)

theorem ending_of_answer {call : PanelCall} {time : Nat} {answer : PanelAnswer}
    (h : call.answer = some (time, answer)) : ∃ ending ∈ call.ending, ending.1 = time := by
  obtain ⟨ending, hending, hanswer⟩ := Option.bind_eq_some_iff.mp h
  obtain ⟨text, -, htext⟩ := Option.map_eq_some_iff.mp hanswer
  exact ⟨ending, hending, congrArg Prod.fst htext⟩

end PanelCall

/-- The loop between two turns: the instant, the calls that have not been taken, the answers, and
the instant at which the window for stragglers closes, once it is open. -/
structure Collector where
  now : Nat := 0
  calls : List PanelCall
  answers : List PanelAnswer := []
  grace : Option Nat := none

section

variable (quorum : Nat) (tuning : FusionTuning)

namespace Collector

/-- The loop breaks: for a deadline, or because every model has reported. -/
def Breaks (c : Collector) : Prop :=
  tuning.panelHardTimeoutMs ≤ c.now ∨ (∃ deadline ∈ c.grace, deadline ≤ c.now) ∨ c.calls = []

instance (c : Collector) : Decidable (c.Breaks tuning) :=
  inferInstanceAs (Decidable (tuning.panelHardTimeoutMs ≤ c.now ∨
    (∃ deadline ∈ c.grace, deadline ≤ c.now) ∨ c.calls = []))

/-- What the loop does with a call that `calls.next()` yields, `pipeline.rs:611`. -/
def take (c : Collector) (call : PanelCall) (rest : List PanelCall) : Collector :=
  match call.answer with
  | none => { c with calls := rest }
  | some (_, answer) =>
    let answers := c.answers ++ [answer]
    { c with
      calls := rest
      answers
      grace :=
        if quorum ≤ answers.length ∧ c.grace = none then some (c.now + tuning.stragglerGraceMs)
        else c.grace }

/-- A turn of the loop that does not break: a call that has ended is taken, any of those that have,
or there is none, and time passes. -/
inductive Step : Collector → Option PanelCall → Collector → Prop where
  | taken {c : Collector} {before after : List PanelCall} {call : PanelCall}
    (runs : ¬ c.Breaks tuning) (calls : c.calls = before ++ call :: after)
    (ended : call.EndedBy c.now) : Step c (some call) (c.take quorum tuning call (before ++ after))
  | waited {c : Collector} (runs : ¬ c.Breaks tuning)
    (pending : ∀ call ∈ c.calls, ¬ call.EndedBy c.now) : Step c none { c with now := c.now + 1 }

end Collector

/-- The quorum is reached by an instant. -/
def Reached (panel : List PanelCall) (time : Nat) : Prop :=
  quorum ≤ (panel.filterMap (·.answer)).countP (·.1 ≤ time)

instance (panel : List PanelCall) (time : Nat) : Decidable (Reached quorum panel time) :=
  inferInstanceAs (Decidable (_ ≤ _))

/-- An answer is in time: before the hard deadline, and less than the window for stragglers after
every instant at which the quorum is reached, the first of them too. -/
def InTime (panel : List PanelCall) (time : Nat) : Prop :=
  time < tuning.panelHardTimeoutMs ∧
    ∀ reached, Reached quorum panel reached → time < reached + tuning.stragglerGraceMs

instance (panel : List PanelCall) (time : Nat) : Decidable (InTime quorum tuning panel time) :=
  decidable_of_iff (time < tuning.panelHardTimeoutMs ∧ ∀ reached < time + 1,
    Reached quorum panel reached → time < reached + tuning.stragglerGraceMs)
    (and_congr_right fun _ ↦
      ⟨fun h reached hreached ↦ (Nat.lt_or_ge time reached).elim (Nat.lt_add_right _)
        fun hle ↦ h reached (Nat.lt_succ_of_le hle) hreached,
      fun h reached _ ↦ h reached⟩)

end

/-! ## Turns -/

section

variable {quorum : Nat} {tuning : FusionTuning} {panel : List PanelCall}

/-- What was taken: all that ended before now and no call that ends later, with its answers, in time
and in the order in which it was taken. -/
structure Collects (quorum : Nat) (tuning : FusionTuning) (panel : List PanelCall)
    (taken : List PanelCall) (c : Collector) : Prop where
  calls : (taken ++ c.calls).Perm panel
  ended : ∀ call ∈ taken, call.EndedBy c.now
  pending : ∀ call ∈ c.calls, ∀ ending ∈ call.ending, c.now ≤ ending.1
  answers : c.answers = (taken.filterMap (·.answer)).map (·.2)
  inTime : ∀ call ∈ taken, ∀ answer ∈ call.answer, InTime quorum tuning panel answer.1
  now : c.now ≤ tuning.panelHardTimeoutMs
  closed : c.grace = none → c.answers.length < quorum ∨ panel = []
  opened : ∀ deadline ∈ c.grace, ∃ reached, deadline = reached + tuning.stragglerGraceMs ∧
    reached ≤ c.now ∧ Reached quorum panel reached ∧
      ∀ time, Reached quorum panel time → reached ≤ time

/-- How many answers there are by an instant. -/
private def answeredBy (calls : List PanelCall) (time : Nat) : Nat :=
  (calls.filterMap (·.answer)).countP (·.1 ≤ time)

private theorem answeredBy_append (calls calls' : List PanelCall) (time : Nat) :
    answeredBy (calls ++ calls') time = answeredBy calls time + answeredBy calls' time := by
  rw [answeredBy, List.filterMap_append, List.countP_append]
  rfl

private theorem answeredBy_of_ended {calls : List PanelCall} {now : Nat}
    (h : ∀ call ∈ calls, call.EndedBy now) :
    answeredBy calls now = (calls.filterMap (·.answer)).length := by
  rw [answeredBy, List.countP_eq_length]
  intro answer hanswer
  obtain ⟨call, hcall, hanswer⟩ := List.mem_filterMap.mp hanswer
  obtain ⟨ending, hending, hearly⟩ := h call hcall
  obtain ⟨ending', hending', hsame⟩ := PanelCall.ending_of_answer hanswer
  obtain rfl := Option.mem_unique hending hending'
  exact decide_eq_true (hsame ▸ hearly)

namespace Collects

variable {taken : List PanelCall} {c : Collector}

private theorem answeredBy_panel (h : Collects quorum tuning panel taken c) (time : Nat) :
    answeredBy panel time = answeredBy taken time + answeredBy c.calls time := by
  rw [← answeredBy_append]
  exact ((h.calls.filterMap _).countP_eq _).symm

private theorem answeredBy_calls (h : Collects quorum tuning panel taken c) {time : Nat}
    (htime : time < c.now) : answeredBy c.calls time = 0 := by
  rw [answeredBy, List.countP_eq_zero]
  intro answer hanswer
  obtain ⟨call, hcall, hanswer⟩ := List.mem_filterMap.mp hanswer
  obtain ⟨ending, hending, hsame⟩ := PanelCall.ending_of_answer hanswer
  have hlate := h.pending call hcall ending hending
  rw [decide_eq_true_eq]
  omega

private theorem answeredBy_le (h : Collects quorum tuning panel taken c) (time : Nat) :
    answeredBy taken time ≤ c.answers.length := by
  rw [h.answers, List.length_map]
  exact List.countP_le_length

private theorem now_le (h : Collects quorum tuning panel taken c) (hpanel : panel ≠ [])
    (hclosed : c.grace = none) {time : Nat} (hreached : Reached quorum panel time) :
    c.now ≤ time := by
  by_contra hbefore
  have hlength := (h.closed hclosed).resolve_right hpanel
  have hless := h.answeredBy_le time
  have hnone := h.answeredBy_calls (Nat.lt_of_not_le hbefore)
  have hpanel := h.answeredBy_panel time
  have hreached : quorum ≤ answeredBy panel time := hreached
  omega

/-- The loop starts with nothing taken. -/
theorem start (tuning : FusionTuning) (panel : List PanelCall) :
    Collects (tuning.quorum panel.length) tuning panel [] { calls := panel } where
  calls := List.Perm.refl panel
  ended := nofun
  pending _ _ _ _ := Nat.zero_le _
  answers := rfl
  inTime := nofun
  now := Nat.zero_le _
  closed _ := by
    cases panel with
    | nil => exact .inr rfl
    | cons call panel => exact .inl (tuning.quorum_pos (Nat.succ_pos _))
  opened := nofun

/-- When time passes, nothing that has ended is left behind. -/
theorem waited (h : Collects quorum tuning panel taken c) (hruns : ¬ c.Breaks tuning)
    (hpending : ∀ call ∈ c.calls, ¬ call.EndedBy c.now) :
    Collects quorum tuning panel taken { c with now := c.now + 1 } where
  calls := h.calls
  ended call hcall := by
    obtain ⟨ending, hending, hearly⟩ := h.ended call hcall
    exact ⟨ending, hending, Nat.le_succ_of_le hearly⟩
  pending call hcall ending hending := by
    have hlate := h.pending call hcall ending hending
    have hnot : ¬ ending.1 ≤ c.now := fun hearly ↦ hpending call hcall ⟨ending, hending, hearly⟩
    exact Nat.lt_of_not_le hnot
  answers := h.answers
  inTime := h.inTime
  now := Nat.lt_of_not_le fun hhard ↦ hruns (.inl hhard)
  closed := h.closed
  opened deadline hdeadline := by
    obtain ⟨reached, hgrace, hpast, hreached⟩ := h.opened deadline hdeadline
    exact ⟨reached, hgrace, Nat.le_succ_of_le hpast, hreached⟩

private theorem inTime_of_ended (h : Collects quorum tuning panel taken c)
    (hgrace : 0 < tuning.stragglerGraceMs) (hruns : ¬ c.Breaks tuning) {call : PanelCall}
    (hcall : call ∈ c.calls) (hended : call.EndedBy c.now) :
    ∀ answer ∈ call.answer, answer.1 = c.now ∧ InTime quorum tuning panel answer.1 := by
  rintro ⟨time, answer⟩ hanswer
  obtain ⟨ending, hending, hearly⟩ := hended
  obtain ⟨ending', hending', hsame⟩ := PanelCall.ending_of_answer hanswer
  obtain rfl := Option.mem_unique hending hending'
  have hlate := h.pending call hcall ending hending
  have hnow : time = c.now := by omega
  refine ⟨hnow, ?_⟩
  subst hnow
  have hpanel : panel ≠ [] := by
    rintro rfl
    rw [(List.append_eq_nil_iff.mp h.calls.eq_nil).2] at hcall
    cases hcall
  refine ⟨Nat.lt_of_not_le fun hhard ↦ hruns (.inl hhard), fun reached hreached ↦ ?_⟩
  cases hset : c.grace with
  | none =>
    have hfirst := h.now_le hpanel hset hreached
    omega
  | some deadline =>
    obtain ⟨first, rfl, -, -, hfirst⟩ := h.opened deadline hset
    have hbefore : ¬ first + tuning.stragglerGraceMs ≤ c.now :=
      fun hover ↦ hruns (.inr (.inl ⟨_, hset, hover⟩))
    have hafter := hfirst reached hreached
    omega

/-- Taking a call that has ended. -/
theorem taken_call (h : Collects quorum tuning panel taken c)
    (hgrace : 0 < tuning.stragglerGraceMs) (hruns : ¬ c.Breaks tuning)
    {before after : List PanelCall} {call : PanelCall} (hcalls : c.calls = before ++ call :: after)
    (hended : call.EndedBy c.now) :
    Collects quorum tuning panel (taken ++ [call])
      (c.take quorum tuning call (before ++ after)) := by
  have hcall : call ∈ c.calls := by
    rw [hcalls]
    exact List.mem_append_right _ List.mem_cons_self
  have hperm : (taken ++ [call] ++ (before ++ after)).Perm panel := by
    refine List.Perm.trans ?_ h.calls
    rw [hcalls, List.append_assoc, List.singleton_append]
    exact List.perm_middle.symm.append_left taken
  have hendedAll : ∀ other ∈ taken ++ [call], other.EndedBy c.now := by
    intro other hother
    rcases List.mem_append.mp hother with hold | hnew
    · exact h.ended other hold
    · rw [List.mem_singleton.mp hnew]
      exact hended
  have hpending : ∀ other ∈ before ++ after, ∀ ending ∈ other.ending, c.now ≤ ending.1 := by
    intro other hother
    refine h.pending other ?_
    rw [hcalls]
    rcases List.mem_append.mp hother with hfront | hback
    · exact List.mem_append_left _ hfront
    · exact List.mem_append_right _ (List.mem_cons_of_mem _ hback)
  have hinTime := h.inTime_of_ended hgrace hruns hcall hended
  have hinTimeAll : ∀ other ∈ taken ++ [call], ∀ answer ∈ other.answer,
      InTime quorum tuning panel answer.1 := by
    intro other hother answer hanswer
    rcases List.mem_append.mp hother with hold | hnew
    · exact h.inTime other hold answer hanswer
    · rw [List.mem_singleton.mp hnew] at hanswer
      exact (hinTime answer hanswer).2
  rw [Collector.take]
  cases hanswer : call.answer with
  | none =>
    refine ⟨hperm, hendedAll, hpending, ?_, hinTimeAll, h.now, h.closed, h.opened⟩
    rw [List.filterMap_append, List.filterMap_cons_none hanswer, List.filterMap_nil,
      List.append_nil]
    exact h.answers
  | some timed =>
    obtain ⟨time, answer⟩ := timed
    have hanswers : c.answers ++ [answer] =
        ((taken ++ [call]).filterMap (·.answer)).map (·.2) := by
      rw [List.filterMap_append, List.filterMap_cons_some hanswer, List.filterMap_nil,
        List.map_append, ← h.answers]
      rfl
    refine ⟨hperm, hendedAll, hpending, hanswers, hinTimeAll, h.now, ?_, ?_⟩
    · intro hclosed
      dsimp only at hclosed
      split at hclosed
      · cases hclosed
      · next hnot => exact .inl (Nat.lt_of_not_le fun hquorum ↦ hnot ⟨hquorum, hclosed⟩)
    · intro deadline hdeadline
      dsimp only at hdeadline
      split at hdeadline
      · next hopens =>
        cases hdeadline
        refine ⟨c.now, rfl, Nat.le_refl _, ?_, fun reached hreached ↦ ?_⟩
        · have hall := answeredBy_of_ended hendedAll
          have hsplit := answeredBy_append (taken ++ [call]) (before ++ after) c.now
          have hpanel : answeredBy (taken ++ [call] ++ (before ++ after)) c.now =
              answeredBy panel c.now := (hperm.filterMap _).countP_eq _
          have hlength := congrArg List.length hanswers
          rw [List.length_map] at hlength
          show quorum ≤ answeredBy panel c.now
          omega
        · refine h.now_le ?_ hopens.2 hreached
          rintro rfl
          rw [(List.append_eq_nil_iff.mp h.calls.eq_nil).2] at hcall
          cases hcall
      · exact h.opened deadline hdeadline

/-- One turn. -/
theorem step (h : Collects quorum tuning panel taken c) (hgrace : 0 < tuning.stragglerGraceMs)
    {label : Option PanelCall} {c' : Collector} (hstep : c.Step quorum tuning label c') :
    Collects quorum tuning panel (taken ++ label.toList) c' := by
  cases hstep with
  | taken hruns hcalls hended => exact h.taken_call hgrace hruns hcalls hended
  | waited hruns hpending =>
    rw [Option.toList_none, List.append_nil]
    exact h.waited hruns hpending

/-- All turns. -/
theorem run (h : Collects quorum tuning panel taken c) (hgrace : 0 < tuning.stragglerGraceMs)
    {labels : List (Option PanelCall)} {c' : Collector}
    (hrun : Run (Collector.Step quorum tuning) c labels c') :
    Collects quorum tuning panel (taken ++ labels.reduceOption) c' := by
  induction hrun generalizing taken with
  | nil c =>
    rw [List.reduceOption_nil, List.append_nil]
    exact h
  | @cons c next c' label labels hstep _ ih =>
    have hnext := ih (h.step hgrace hstep)
    cases label with
    | none =>
      rw [Option.toList_none, List.append_nil] at hnext
      rw [List.reduceOption_cons_of_none]
      exact hnext
    | some call =>
      rw [List.reduceOption_cons_of_some, ← List.singleton_append, ← List.append_assoc]
      exact hnext

/-- When the loop breaks, the answers are those that are in time. -/
theorem answers_of_breaks (h : Collects quorum tuning panel taken c) (hbreaks : c.Breaks tuning) :
    c.answers.Perm
      (((panel.filterMap (·.answer)).filter (InTime quorum tuning panel ·.1)).map (·.2)) := by
  have hlate : ∀ answer ∈ c.calls.filterMap (·.answer), ¬ InTime quorum tuning panel answer.1 := by
    intro answer hanswer hinTime
    obtain ⟨call, hcall, hanswer⟩ := List.mem_filterMap.mp hanswer
    obtain ⟨ending, hending, hsame⟩ := PanelCall.ending_of_answer hanswer
    have hpending := h.pending call hcall ending hending
    rcases hbreaks with hhard | ⟨deadline, hdeadline, hover⟩ | hnil
    · have hbefore := hinTime.1
      omega
    · obtain ⟨reached, rfl, -, hreached, -⟩ := h.opened deadline hdeadline
      have hbefore := hinTime.2 reached hreached
      omega
    · rw [hnil] at hcall
      cases hcall
  have htaken : ∀ answer ∈ taken.filterMap (·.answer), InTime quorum tuning panel answer.1 := by
    intro answer hanswer
    obtain ⟨call, hcall, hanswer⟩ := List.mem_filterMap.mp hanswer
    exact h.inTime call hcall answer hanswer
  have hfilter : (((taken ++ c.calls).filterMap (·.answer)).filter
      (InTime quorum tuning panel ·.1)).map (·.2) = c.answers := by
    rw [List.filterMap_append, List.filter_append,
      List.filter_eq_self.mpr fun answer hanswer ↦ decide_eq_true (htaken answer hanswer),
      List.filter_eq_nil_iff.mpr fun answer hanswer ↦ by
        rw [decide_eq_true_eq]
        exact hlate answer hanswer,
      List.append_nil, h.answers]
  rw [← hfilter]
  exact ((h.calls.filterMap _).filter _).map _

end Collects

private theorem length_of_run {labels : List (Option PanelCall)} {c c' : Collector}
    (h : Run (Collector.Step quorum tuning) c labels c') :
    c'.now + c.calls.length = c.now + c'.calls.length + labels.length := by
  induction h with
  | nil => rfl
  | @cons c next c' label labels hstep _ ih =>
    rw [List.length_cons]
    cases hstep with
    | @taken before after call hruns hcalls hended =>
      have hlength : c.calls.length = before.length + after.length + 1 := by
        rw [hcalls, List.length_append, List.length_cons, Nat.add_assoc]
      have htake : (c.take quorum tuning call (before ++ after)).calls.length =
          before.length + after.length ∧
          (c.take quorum tuning call (before ++ after)).now = c.now := by
        rw [Collector.take]
        split <;> exact ⟨List.length_append, rfl⟩
      omega
    | waited hruns hpending =>
      dsimp only at ih
      omega

private theorem exists_step {c : Collector} (h : ¬ c.Breaks tuning) :
    ∃ label c', c.Step quorum tuning label c' := by
  by_cases hended : ∃ call ∈ c.calls, call.EndedBy c.now
  · obtain ⟨call, hcall, hended⟩ := hended
    obtain ⟨before, after, hcalls⟩ := List.append_of_mem hcall
    exact ⟨_, _, .taken h hcalls hended⟩
  · refine ⟨_, _, .waited h fun call hcall hnow ↦ hended ⟨call, hcall, hnow⟩⟩

end

/-- The answers that are in time, in the order of the panel. -/
def inTimeAnswers (quorum : Nat) (tuning : FusionTuning) (panel : List PanelCall) :
    List PanelAnswer :=
  ((panel.filterMap (·.answer)).filter (InTime quorum tuning panel ·.1)).map (·.2)

/-- Collecting a panel's answers, under any tuning: the quorum is one that the panel has; the loop
does not go beyond the hard deadline, goes on until it breaks and does so after a bounded number of
turns; and where it breaks, it returns the answers in time, one of each model that gave one. -/
theorem collects_panel (minPanel stragglerGraceMs panelHardTimeoutMs : Option Nat)
    (panel : List PanelCall) :
    let tuning := FusionTuning.fromOverride minPanel stragglerGraceMs panelHardTimeoutMs
    let quorum := tuning.quorum panel.length
    quorum ≤ panel.length ∧
      ∀ turns c, Run (Collector.Step quorum tuning) { calls := panel } turns c →
        c.now ≤ tuning.panelHardTimeoutMs ∧
        turns.length ≤ tuning.panelHardTimeoutMs + panel.length ∧
        (¬ c.Breaks tuning → ∃ turn c', c.Step quorum tuning turn c') ∧
        (c.Breaks tuning → c.answers.Perm (inTimeAnswers quorum tuning panel)) := by
  intro tuning quorum
  refine ⟨tuning.quorum_le _, fun turns c hrun ↦ ?_⟩
  have hgrace : 0 < tuning.stragglerGraceMs := FusionTuning.graceMs_pos ..
  have hcollects := (Collects.start tuning panel).run hgrace hrun
  have hlength := length_of_run hrun
  have hnow := hcollects.now
  dsimp only at hlength
  refine ⟨hnow, by omega, exists_step, hcollects.answers_of_breaks⟩

/-- A call that answers at once. -/
def promptCall (model text : String) : PanelCall := ⟨⟨"openai", model⟩, some (0, some text)⟩

/-- Two models that answer at once, and one that never does. -/
def promptPanel : List PanelCall :=
  [promptCall "a" "yes", promptCall "b" "no", ⟨⟨"openai", "c"⟩, none⟩]

/-- The loop that has waited for the third until the window closed. -/
def promptCollector : Collector :=
  ⟨1, [⟨⟨"openai", "c"⟩, none⟩], [⟨"openai/a", "yes"⟩, ⟨"openai/b", "no"⟩], some 1⟩

/-- Two answers are a quorum of three models, and after it the loop does not wait for long. -/
theorem collects_panel_prompt : promptCollector.answers.Perm
    (inTimeAnswers 2 (FusionTuning.fromOverride none (some 1) none) promptPanel) := by
  have hrun : Run (Collector.Step 2 (FusionTuning.fromOverride none (some 1) none))
      { calls := promptPanel }
      [some (promptCall "a" "yes"), some (promptCall "b" "no"), none] promptCollector := by
    refine .cons (@Collector.Step.taken _ _ _ [] _ (promptCall "a" "yes") ?_ rfl ?_)
      (.cons (@Collector.Step.taken _ _ _ [] _ (promptCall "b" "no") ?_ rfl ?_)
        (.single (.waited ?_ ?_)))
    all_goals decide +kernel
  exact ((collects_panel none (some 1) none promptPanel).2 _ promptCollector hrun).2.2.2
    (.inr (.inl ⟨1, rfl, Nat.le_refl 1⟩))

/-! ## The schedule of a run -/

end NullRouter.Runtime.Fusion
