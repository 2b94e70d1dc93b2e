import NullRouter.Base.Run
import NullRouter.Runtime.Pipeline
import NullRouter.State.Cooldown

/-!
# Backoff over runs of the pipeline

How the backoff level of an account moves between the classifier
(`crates/execute/src/errors.rs:145–219`), the attempts of the pipeline
(`services/runtime-actix/src/pipeline.rs:1397–1442` and, for video jobs, `pipeline.rs:360`) and
the store (`services/state-actix/src/store.rs:1434–1500`), when requests run side by side.
-/

namespace NullRouter.Runtime

open NullRouter.Base NullRouter.State

/-- Whether the rule that classifies a failure backs off, as those for a quota and for a rate
limit do. -/
def isQuotaFailure (status : Nat) (errorText : String) : Bool :=
  let lowered := toLowercase errorText.toList
  match textRules.find? fun rule ↦ !lowered.isEmpty && containsText lowered rule.1.toList with
  | some rule => rule.2.1
  | none => (statusRules.find? fun rule ↦ rule.1 == status).any (·.2.1)

/-- A quota failure is decided by the level after the one given, and no other failure names a
level. -/
theorem checkFallbackError_quota (status : Nat) (errorText : String) (backoffLevel : Nat) :
    if isQuotaFailure status errorText then
      checkFallbackError status errorText backoffLevel = decideCooldown true 0 backoffLevel
    else (checkFallbackError status errorText backoffLevel).newBackoffLevel = none := by
  unfold isQuotaFailure checkFallbackError
  simp only
  generalize List.find? _ textRules = byText
  generalize List.find? _ statusRules = byStatus
  rcases byText with _ | ⟨_, _ | _, _⟩
  · rcases byStatus with _ | ⟨_, _ | _, _⟩ <;> simp [decideCooldown]
  · simp [decideCooldown]
  · simp [decideCooldown]

end NullRouter.Runtime

namespace NullRouter.State.Connections

open NullRouter.Base

/-- The backoff level of the connection that an operation on `id` acts on. -/
def backoffOf (s : Connections) (id : String) : Option Nat :=
  (s.find? (·.id == id)).map (·.backoffLevel)

private theorem backoffOf_congr {s s' : Connections}
    (h : s'.map (fun c ↦ (c.id, c.backoffLevel)) = s.map (fun c ↦ (c.id, c.backoffLevel)))
    (id : String) : s'.backoffOf id = s.backoffOf id := by
  have hview : ∀ t : Connections, t.backoffOf id =
      ((t.map fun c ↦ (c.id, c.backoffLevel)).find? (·.1 == id)).map Prod.snd := by
    intro t
    rw [List.find?_map, Option.map_map]
    rfl
  rw [hview, hview, h]

/-- Selection leaves every connection's level. -/
theorem backoffOf_selectConnection (s : Connections) (request : SelectConnectionRequest)
    (clock stamp : Nat) (id : String) :
    (s.selectConnection request clock stamp).1.backoffOf id = s.backoffOf id := by
  apply backoffOf_congr
  exact map_selectConnection (fun _ _ _ ↦ rfl) s request clock stamp

/-- A change of credentials leaves every connection's level. -/
theorem backoffOf_editCredentials (s : Connections) (connectionId : String) (now : Nat)
    (update : CredentialUpdate) (id : String) :
    Connections.backoffOf ((updateFirst (·.id == connectionId)
      (·.editCredentials now update) s).getD s) id = s.backoffOf id := by
  apply backoffOf_congr
  exact map_getD_updateFirst fun _ _ _ ↦ rfl

/-- A mark sets the level it names, in the connection it names. -/
theorem backoffOf_markConnectionUnavailable {s s' : Connections}
    {update : MarkUnavailableRequest} {clock : Nat}
    (h : s.markConnectionUnavailable update clock = some s') (id : String) :
    s'.backoffOf id = if id = update.connectionId then
        (s.backoffOf id).map (update.backoffLevel.getD ·)
      else s.backoffOf id := by
  unfold backoffOf
  split
  · next e =>
    subst e
    unfold markConnectionUnavailable at h
    rw [find?_updateFirst_self ?_ h, Option.map_map, Option.map_map]
    · rfl
    · exact fun _ hx ↦ hx
  · next e =>
    rw [find?_updateFirst_of_ne (fun c hc ↦ ?_) h]
    have hne : c.id ≠ id := fun k ↦ e (by rw [← k]; simpa using hc)
    simp [hne]

/-- A mark of a connection that is there gets through. -/
theorem markConnectionUnavailable_isSome {s : Connections} {update : MarkUnavailableRequest}
    (clock : Nat) (h : s.backoffOf update.connectionId ≠ none) :
    (s.markConnectionUnavailable update clock).isSome := by
  rw [Option.isSome_iff_ne_none]
  intro hnone
  unfold markConnectionUnavailable at hnone
  rw [updateFirst_eq_none] at hnone
  apply h
  rw [backoffOf, hnone, Option.map_none]

/-- A clear leaves the level of any other connection. -/
theorem backoffOf_clearConnectionError_of_ne (s : Connections) {connectionId id : String}
    (model : Option String) (clock : Nat) (hid : id ≠ connectionId) :
    ((s.clearConnectionError connectionId model clock).getD s).backoffOf id = s.backoffOf id := by
  cases h : s.clearConnectionError connectionId model clock with
  | none => rfl
  | some s' =>
    rw [Option.getD_some]
    unfold backoffOf
    rw [find?_updateFirst_of_ne (fun c hc ↦ ?_) h]
    have hne : c.id ≠ id := fun k ↦ hid (by rw [← k]; simpa using hc)
    refine ⟨by simp [hne], ?_⟩
    dsimp only
    split <;> simp [hne]

end NullRouter.State.Connections

namespace NullRouter.Runtime

open NullRouter.Base NullRouter.State

/-- The requests under way, between their steps: the world, and the failures that were met and
are not marked yet. -/
structure Flight where
  world : World
  failures : List MarkUnavailableRequest

/-- One step of some request, with what it is about. -/
inductive FlightEvent where
  | select (target : ModelTarget) (exclude : List String)
  | responded (context : ChatContext) (target : ModelTarget) (credentials : ProviderConnection)
  | failed (context : ChatContext) (target : ModelTarget) (credentials : ProviderConnection)
  | marked (update : MarkUnavailableRequest)
  | panel (context : ChatContext) (target : ModelTarget)
  | limited (target : ModelTarget)
  | videoFailed (credentials : ProviderConnection) (target : ModelTarget) (status : Nat)
      (message : String)
  | videoCleared (credentials : ProviderConnection) (target : ModelTarget)

namespace FlightEvent

/-- Whether a call on the connection succeeds. -/
def Succeeds (id : String) : FlightEvent → Prop
  | .responded _ _ credentials => credentials.id = id
  | .videoCleared credentials _ => credentials.id = id
  | _ => False

/-- Whether a quota failure of the connection is recorded. -/
def isQuota (id : String) : FlightEvent → Bool
  | .marked update => update.connectionId == id && isQuotaFailure update.status update.reason
  | _ => false

end FlightEvent

/-- How many quota failures of a connection are recorded. -/
def quotaFailures (id : String) (events : List FlightEvent) : Nat :=
  events.countP (·.isQuota id)

/-- The model that a video call's cooldown is for. -/
def ModelTarget.videoModel (target : ModelTarget) : Option String :=
  if target.model = "" then none else some target.model

/-- The cooldown of a failed call, with the decision that the pipeline takes at the backoff
level `0`, `pipeline.rs:1397–1442`. -/
def failureUpdate (connectionId : String) (model : Option String) (status : Nat)
    (message : String) : MarkUnavailableRequest :=
  ⟨connectionId, model, status, message, (checkFallbackError status message 0).cooldownMs,
    (checkFallbackError status message 0).newBackoffLevel⟩

/-- A step of the requests under way. Between any two steps of one request others may run. -/
inductive FlightStep (services : Services) : Flight → FlightEvent → Flight → Prop where
  | select (s : Flight) (target : ModelTarget) (exclude : List String) :
      FlightStep services s (.select target exclude)
        { s with world := (services.selectCredentials target exclude s.world).1 }
  | responded {s : Flight} {context : ChatContext} {target : ModelTarget}
      {credentials : ProviderConnection} {response : Response}
      (h : (services.attempt context target credentials s.world).2 = .responded response) :
      FlightStep services s (.responded context target credentials)
        { s with world := (services.attempt context target credentials s.world).1 }
  | failed {s : Flight} {context : ChatContext} {target : ModelTarget}
      {credentials : ProviderConnection} {status : Nat} {message : String} {cooldownMs : Nat}
      {level : Option Nat}
      (h : (services.attempt context target credentials s.world).2 =
        .retryable status message cooldownMs level) :
      FlightStep services s (.failed context target credentials)
        ⟨(services.attempt context target credentials s.world).1, s.failures ++
          [⟨credentials.id, some target.model, status, message, cooldownMs, level⟩]⟩
  | marked (world : World) (before : List MarkUnavailableRequest)
      (update : MarkUnavailableRequest) (after : List MarkUnavailableRequest) :
      FlightStep services ⟨world, before ++ update :: after⟩ (.marked update)
        ⟨services.markUnavailable update world, before ++ after⟩
  | panel (s : Flight) (context : ChatContext) (target : ModelTarget) :
      FlightStep services s (.panel context target)
        { s with world := (services.panelCall context target s.world).1 }
  | limited (s : Flight) (target : ModelTarget) :
      FlightStep services s (.limited target)
        { s with world := { s.world with readings := s.world.readings + 1 } }
  | videoFailed (s : Flight) (credentials : ProviderConnection) (target : ModelTarget)
      (status : Nat) (message : String) :
      FlightStep services s (.videoFailed credentials target status message)
        { s with
          failures := s.failures ++
            [failureUpdate credentials.id target.videoModel status message] }
  | videoCleared (s : Flight) (credentials : ProviderConnection) (target : ModelTarget) :
      FlightStep services s (.videoCleared credentials target)
        { s with world := services.clearError credentials.id target.videoModel s.world }

/-- The last cooldown that a quota failure gave the connection. -/
def World.lastQuotaCooldown (w : World) (id : String) : Option Nat :=
  ((w.cooldowns.filter fun u ↦ u.connectionId == id && u.backoffLevel.isSome).getLast?).map
    (·.cooldownMs)

/-- The law of the backoff after `n` quota failures in a row: the stored level, and the
cooldown of the last one. -/
def World.Escalated (w : World) (id : String) (n : Nat) : Prop :=
  w.store.backoffOf id = some (min n backoffMaxLevel) ∧
    w.lastQuotaCooldown id = some (min (backoffBaseMs * 2 ^ (n - 1)) backoffMaxMs)

/-- The world afterwards has the connection's level, and the last cooldown of a quota failure,
from before. -/
structure World.Keeps (id : String) (w w' : World) : Prop where
  level : w'.store.backoffOf id = w.store.backoffOf id
  cooldown : w'.lastQuotaCooldown id = w.lastQuotaCooldown id

namespace Services

variable (services : Services) {id : String}

private theorem selectCredentials_keeps (target : ModelTarget) (exclude : List String)
    (w : World) : w.Keeps id (services.selectCredentials target exclude w).1 := by
  constructor
  · exact Connections.backoffOf_selectConnection _ _ _ _ _
  · rfl

private theorem clearError_keeps {connectionId : String} (model : Option String) (w : World)
    (h : id ≠ connectionId) : w.Keeps id (services.clearError connectionId model w) := by
  constructor
  · exact Connections.backoffOf_clearConnectionError_of_ne _ _ _ h
  · rfl

private theorem markUnavailable_keeps {update : MarkUnavailableRequest} (w : World)
    (h : id = update.connectionId → update.backoffLevel = none) :
    w.Keeps id (services.markUnavailable update w) := by
  unfold markUnavailable
  cases hmark : w.store.markConnectionUnavailable update (services.clock w.readings) with
  | none => constructor <;> rfl
  | some store =>
    constructor
    · simp only
      rw [Connections.backoffOf_markConnectionUnavailable hmark]
      split
      · next hid => simp [h hid]
      · rfl
    · have hskip : ¬ (update.connectionId == id && update.backoffLevel.isSome) = true := by
        intro hquota
        rw [Bool.and_eq_true, beq_iff_eq] at hquota
        rw [h hquota.1.symm] at hquota
        simp at hquota
      simp only [World.lastQuotaCooldown, List.filter_append, List.filter_singleton, hskip,
        cond_false, List.append_nil]

private theorem markUnavailable_quota {update : MarkUnavailableRequest} {level : Nat} (w : World)
    (hknown : w.store.backoffOf update.connectionId ≠ none)
    (hlevel : update.backoffLevel = some level) :
    (services.markUnavailable update w).store.backoffOf update.connectionId = some level ∧
      (services.markUnavailable update w).lastQuotaCooldown update.connectionId =
        some update.cooldownMs := by
  have hsome := Connections.markConnectionUnavailable_isSome
    (services.clock w.readings) hknown
  obtain ⟨store, hmark⟩ := Option.isSome_iff_exists.mp hsome
  obtain ⟨before, hbefore⟩ := Option.ne_none_iff_exists'.mp hknown
  unfold markUnavailable
  rw [hmark]
  constructor
  · simp only
    rw [Connections.backoffOf_markConnectionUnavailable hmark, if_pos rfl, hbefore, hlevel]
    rfl
  · simp [World.lastQuotaCooldown, List.filter_append, hlevel]

private theorem refreshIfDue_keeps (provider : String) (credentials : ProviderConnection)
    (w : World) : w.Keeps id (services.refreshIfDue provider credentials w).1 := by
  unfold refreshIfDue
  split
  · constructor <;> rfl
  · constructor <;> rfl
  · constructor
    · exact Connections.backoffOf_editCredentials _ _ _ _ _
    · rfl
  · exact services.markUnavailable_keeps w fun _ ↦ rfl

private theorem refreshIfDue_id (provider : String) (credentials : ProviderConnection)
    (w : World) : (services.refreshIfDue provider credentials w).2.id = credentials.id := by
  unfold refreshIfDue
  split <;> rfl

private theorem panelCall_keeps (context : ChatContext) (target : ModelTarget) (w : World) :
    w.Keeps id (services.panelCall context target w).1 := by
  have hselect := @selectCredentials_keeps services id target [] w
  unfold panelCall
  split
  · simp only
    split
    · split
      · exact ⟨hselect.level, hselect.cooldown⟩
      · exact ⟨hselect.level, hselect.cooldown⟩
    · exact hselect
  · constructor <;> rfl

/-- An attempt that fails is reported at the backoff level `0`, and keeps the level and the
cooldown of every connection. -/
theorem attempt_retryable {context : ChatContext} {target : ModelTarget}
    {credentials : ProviderConnection} {w : World} {status : Nat} {message : String}
    {cooldownMs : Nat} {level : Option Nat}
    (h : (services.attempt context target credentials w).2 =
      .retryable status message cooldownMs level) :
    (⟨credentials.id, some target.model, status, message, cooldownMs, level⟩ :
        MarkUnavailableRequest) =
      failureUpdate credentials.id (some target.model) status message ∧
    w.Keeps id (services.attempt context target credentials w).1 := by
  have hrefresh := @refreshIfDue_keeps services id target.provider credentials w
  unfold attempt at h ⊢
  simp only at h ⊢
  generalize services.upstream.execute _ _ _ _ = dispatched at h ⊢
  rcases dispatched with ⟨sent, error | answer⟩
  · simp only [Attempt.retryable.injEq] at h
    obtain ⟨rfl, rfl, rfl, rfl⟩ := h
    exact ⟨rfl, hrefresh.level, hrefresh.cooldown⟩
  · simp only at h ⊢
    split at h
    · cases h
    · next hfail =>
      split at h
      · next hback =>
        simp only [Attempt.retryable.injEq] at h
        obtain ⟨rfl, rfl, rfl, rfl⟩ := h
        rw [if_neg hfail, if_pos hback]
        exact ⟨rfl, hrefresh.level, hrefresh.cooldown⟩
      · cases h

private theorem attempt_keeps {context : ChatContext} {target : ModelTarget}
    {credentials : ProviderConnection} {w : World} (hid : id ≠ credentials.id) :
    w.Keeps id (services.attempt context target credentials w).1 := by
  have hrefresh := @refreshIfDue_keeps services id target.provider credentials w
  have hsame := services.refreshIfDue_id target.provider credentials w
  unfold attempt
  simp only
  generalize services.upstream.execute _ _ _ _ = dispatched
  rcases dispatched with ⟨sent, error | answer⟩
  · exact ⟨hrefresh.level, hrefresh.cooldown⟩
  · simp only
    split
    · have hclear := services.clearError_keeps (some target.model)
        { (services.refreshIfDue target.provider credentials w).1 with sent := sent }
        (hsame.symm ▸ hid)
      exact ⟨hclear.level.trans hrefresh.level, hclear.cooldown.trans hrefresh.cooldown⟩
    · split
      · exact ⟨hrefresh.level, hrefresh.cooldown⟩
      · exact ⟨hrefresh.level, hrefresh.cooldown⟩

end Services

namespace Flight

/-- Every failure that is not marked yet was decided at the backoff level `0`. -/
def Decided (s : Flight) : Prop :=
  ∀ u ∈ s.failures, ∃ connectionId model status message,
    u = failureUpdate connectionId model status message

/-- The store has the connection. -/
def Knows (s : Flight) (id : String) : Prop := s.world.store.backoffOf id ≠ none

instance (s : Flight) (id : String) : Decidable (s.Knows id) :=
  inferInstanceAs (Decidable (_ ≠ _))

end Flight

namespace FlightStep

variable {services : Services} {s t : Flight} {event : FlightEvent} {id : String}

private theorem decided (hs : s.Decided) (h : FlightStep services s event t) : t.Decided := by
  cases h with
  | select | responded | panel | limited | videoCleared => exact hs
  | failed hfail =>
    intro u hu
    rcases List.mem_append.mp hu with hu | hu
    · exact hs u hu
    · obtain rfl := List.mem_singleton.mp hu
      exact ⟨_, _, _, _, (@Services.attempt_retryable services "" _ _ _ _ _ _ _ _ hfail).1⟩
  | marked world before update after =>
    intro u hu
    apply hs u
    rcases List.mem_append.mp hu with hu | hu
    · exact List.mem_append_left _ hu
    · exact List.mem_append_right _ (List.mem_cons_of_mem _ hu)
  | videoFailed =>
    intro u hu
    rcases List.mem_append.mp hu with hu | hu
    · exact hs u hu
    · obtain rfl := List.mem_singleton.mp hu
      exact ⟨_, _, _, _, rfl⟩

private theorem keeps (hs : s.Decided) (h : FlightStep services s event t)
    (hno : ¬ event.Succeeds id) (hquota : event.isQuota id = false) :
    s.world.Keeps id t.world := by
  cases h with
  | select target exclude => exact services.selectCredentials_keeps _ _ _
  | responded => exact services.attempt_keeps (Ne.symm hno)
  | failed hfail => exact (services.attempt_retryable hfail).2
  | marked world before update after =>
    apply services.markUnavailable_keeps
    rintro rfl
    obtain ⟨connectionId, model, status, message, rfl⟩ :=
      hs update (List.mem_append_right _ List.mem_cons_self)
    have hno : isQuotaFailure status message = false := by
      simpa [FlightEvent.isQuota, failureUpdate] using hquota
    have hlevel := checkFallbackError_quota status message 0
    rw [hno, if_neg Bool.false_ne_true] at hlevel
    exact hlevel
  | panel context target => exact services.panelCall_keeps _ _ _
  | limited => constructor <;> rfl
  | videoFailed => constructor <;> rfl
  | videoCleared => exact services.clearError_keeps _ _ (Ne.symm hno)

private theorem quota (hs : s.Decided) (hknown : s.Knows id) (h : FlightStep services s event t)
    (hquota : event.isQuota id = true) : t.world.Escalated id 1 := by
  cases h with
  | marked world before update after =>
    obtain ⟨connectionId, model, status, message, rfl⟩ :=
      hs update (List.mem_append_right _ List.mem_cons_self)
    simp only [FlightEvent.isQuota, failureUpdate, Bool.and_eq_true, beq_iff_eq] at hquota
    obtain ⟨rfl, hquota⟩ := hquota
    have hdecision := checkFallbackError_quota status message 0
    rw [hquota, if_pos rfl] at hdecision
    have hmark := @Services.markUnavailable_quota services
      (failureUpdate connectionId model status message) 1 world hknown
      (by rw [failureUpdate, hdecision]; rfl)
    rw [failureUpdate, hdecision] at hmark
    rw [failureUpdate, hdecision]
    exact hmark
  | select | responded | failed | panel | limited | videoFailed | videoCleared => cases hquota

/-- After a run without a success of the connection, its level is the first one if a quota
failure was recorded, and else what it was. -/
private theorem run_level {events : List FlightEvent} (hrun : Run (FlightStep services) s events t)
    (hs : s.Decided) (hknown : s.Knows id) (hno : ∀ event ∈ events, ¬ event.Succeeds id) :
    if quotaFailures id events = 0 then s.world.Keeps id t.world else t.world.Escalated id 1 := by
  induction hrun with
  | nil s => exact if_pos rfl ▸ ⟨rfl, rfl⟩
  | @cons s r t event events head tail ih =>
    rw [List.forall_mem_cons] at hno
    have hr := decided hs head
    cases hquota : event.isQuota id with
    | false =>
      have hkeeps := keeps hs head hno.1 hquota
      have hknown' : r.Knows id := by rwa [Flight.Knows, hkeeps.level]
      have ih := ih hr hknown' hno.2
      have hcount : quotaFailures id (event :: events) = quotaFailures id events :=
        List.countP_cons_of_neg (by simp [hquota])
      rw [hcount]
      by_cases hzero : quotaFailures id events = 0
      · rw [if_pos hzero] at ih ⊢
        exact ⟨ih.level.trans hkeeps.level, ih.cooldown.trans hkeeps.cooldown⟩
      · rw [if_neg hzero] at ih ⊢
        exact ih
    | true =>
      have hlevel := quota hs hknown head hquota
      have hknown' : r.Knows id := by rw [Flight.Knows, hlevel.1]; simp
      have ih := ih hr hknown' hno.2
      rw [quotaFailures, List.countP_cons_of_pos hquota, if_neg (by omega)]
      split at ih
      · exact ⟨ih.level.trans hlevel.1, ih.cooldown.trans hlevel.2⟩
      · exact ih

end FlightStep

namespace Services

variable (services : Services) (failures : List MarkUnavailableRequest)

end Services

/-- After a run in which the connection meets quota failures and no success, the backoff is at
the level of their number exactly where that is one. -/
theorem backoff_escalates_iff {services : Services} {world : World} {before events : List FlightEvent}
    {s t : Flight} {id : String} (hreach : Run (FlightStep services) ⟨world, []⟩ before s)
    (hrun : Run (FlightStep services) s events t) (hknown : s.Knows id)
    (hno : ∀ event ∈ events, ¬ event.Succeeds id) (hsome : 0 < quotaFailures id events) :
    t.world.Escalated id (quotaFailures id events) ↔ quotaFailures id events = 1 := by
  have hs : s.Decided :=
    hreach.invariant Flight.Decided (fun _ _ _ hs h ↦ FlightStep.decided hs h) nofun
  have hlevel := FlightStep.run_level hrun hs hknown hno
  rw [if_neg (by omega)] at hlevel
  constructor
  · intro hescalated
    have hsame := Option.some.inj (hlevel.1.symm.trans hescalated.1)
    simp only [backoffMaxLevel] at hsame
    omega
  · intro hone
    rw [hone]
    exact hlevel


/-- An upstream with one endpoint that refuses every call for its rate. -/
def limiting : Services where
  upstream := {
    fallbackCount := fun _ ↦ 1
    retryEntry := fun _ _ ↦ none
    buildUrl := fun _ _ _ ↦ some "https://upstream/v1/chat/completions"
    advancesOnStatus := fun _ _ ↦ false
    answer := fun _ _ ↦ .ok ⟨429, "Rate limit reached"⟩ }
  clock := fun _ ↦ 0
  strategy := .fillFirst
  stickyLimit := 3
  isExecutorSupported := fun _ ↦ true
  unsupportedExecutorMessage := id
  readJson := fun _ ↦ none
  printJson := fun _ ↦ ""
  refresh := fun _ _ _ ↦ .notDue
  prepare := fun _ _ _ ↦ .ok "{}"
  reply := fun _ _ _ answer ↦ .reply answer.status answer.body
  preparePanel := fun _ _ _ ↦ .ok "{}"
  panelText := fun _ _ ↦ none
  judgeBody := fun body _ ↦ body

/-- A call of the account `a`, and its failure. -/
def limitedCall : List FlightEvent :=
  [.failed ⟨.null, false, "openai"⟩ ⟨"p", "m"⟩ (ProviderConnection.unused "a" "p"),
    .marked (failureUpdate "a" (some "m") 429 "Rate limit reached")]

private theorem limitedCall_run (w : World) :
    ∃ w', Run (FlightStep limiting) ⟨w, []⟩ limitedCall ⟨w', []⟩ := by
  have hfail : (limiting.attempt ⟨.null, false, "openai"⟩ ⟨"p", "m"⟩
      (ProviderConnection.unused "a" "p") w).2 =
      .retryable 429 "Rate limit reached" 2000 (some 1) := rfl
  exact ⟨_, .cons (.failed hfail) (.single (.marked _ [] _ []))⟩

/-- One account of a provider. -/
def oneAccount : World := ⟨[ProviderConnection.unused "a" "p"], 0, [], []⟩

/-- The rule after one call. -/
theorem backoff_escalates_after_one_failure :
    ∃ w', Run (FlightStep limiting) ⟨oneAccount, []⟩ limitedCall ⟨w', []⟩ ∧
      w'.Escalated "a" (quotaFailures "a" limitedCall) := by
  obtain ⟨w', hrun⟩ := limitedCall_run oneAccount
  have hcount : quotaFailures "a" limitedCall = 1 := by decide
  refine ⟨w', hrun, (backoff_escalates_iff (.nil _) hrun (by decide) ?_ ?_).mpr hcount⟩
  · simp [limitedCall, FlightEvent.Succeeds]
  · omega

/-- A second call in a row is answered by the first level again. -/
theorem second_failure_does_not_escalate :
    ¬ ∀ (services : Services) (world : World) (before events : List FlightEvent) (s t : Flight)
      (id : String), Run (FlightStep services) ⟨world, []⟩ before s →
      Run (FlightStep services) s events t → s.Knows id →
      (∀ event ∈ events, ¬ event.Succeeds id) → 0 < quotaFailures id events →
      t.world.Escalated id (quotaFailures id events) := by
  intro hall
  obtain ⟨w₁, hfirst⟩ := limitedCall_run oneAccount
  obtain ⟨w₂, hsecond⟩ := limitedCall_run w₁
  have hrun := hfirst.append hsecond
  have hcount : quotaFailures "a" (limitedCall ++ limitedCall) = 2 := by decide
  have hknown : Flight.Knows ⟨oneAccount, []⟩ "a" := by decide
  have hno : ∀ event ∈ limitedCall ++ limitedCall, ¬ event.Succeeds "a" := by
    simp [limitedCall, FlightEvent.Succeeds]
  have hescalated := hall limiting oneAccount [] _ _ _ "a" (.nil _) hrun hknown hno (by omega)
  have hlevel := FlightStep.run_level hrun nofun hknown hno
  rw [if_neg (by omega)] at hlevel
  have hsame := hlevel.1.symm.trans hescalated.1
  rw [hcount] at hsame
  exact absurd hsame (by decide)

end NullRouter.Runtime
