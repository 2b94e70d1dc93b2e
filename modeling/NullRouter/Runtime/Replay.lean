import NullRouter.Runtime.Pipeline
import NullRouter.State.Cooldown

/-!
# Client errors of the upstream

What `execute_chat` (`services/runtime-actix/src/pipeline.rs:465`) does with a request that the
upstream refuses with a client error. Every refusal is one to fall back on
(`check_fallback_error`), so whichever account meets it receives a cooldown and the request goes
to the next account and the next model.
-/

namespace NullRouter.Runtime

open NullRouter.Base NullRouter.State

/-- The upstream refuses every request with 400 or 422, whichever account sends it. -/
def ClientFailure (services : Services) : Prop :=
  ∀ before post, ∃ answer, services.upstream.answer before post = .ok answer ∧
    (answer.status = 400 ∨ answer.status = 422)

/-- The request went out once, the client got the status of its answer, and no connection
received a cooldown. -/
def NotReplayed (services : Services) (before after : World) (response : Response) : Prop :=
  (∃ post answer, after.sent = before.sent ++ [post] ∧
    services.upstream.answer before.sent post = .ok answer ∧
      response.status = answer.status) ∧
  after.cooldowns = before.cooldowns

namespace World

/-- Nothing was sent and no connection received a cooldown. -/
def Idle (w w' : World) : Prop := w'.sent = w.sent ∧ w'.cooldowns = w.cooldowns

/-- Some connection received a cooldown. -/
def Cooled (w w' : World) : Prop := w.cooldowns.length < w'.cooldowns.length

/-- No cooldown was taken back. -/
def Kept (w w' : World) : Prop := w.cooldowns.length ≤ w'.cooldowns.length

/-- The ids of the stored connections. -/
def ids (w : World) : List String := w.store.map (·.id)

variable {w w' w'' : World}

theorem Idle.kept (h : Idle w w') : Kept w w' := Nat.le_of_eq (congrArg List.length h.2.symm)

theorem Cooled.kept (h : Cooled w w') : Kept w w' := Nat.le_of_lt h

theorem Kept.trans (h : Kept w w') (k : Kept w' w'') : Kept w w'' := Nat.le_trans h k

/-- Steps that are idle or cool a connection compose. -/
theorem idle_or_cooled_trans (h : Idle w w' ∨ Cooled w w') (k : Idle w' w'' ∨ Cooled w' w'') :
    Idle w w'' ∨ Cooled w w'' := by
  rcases h with h | h
  · rcases k with k | k
    · exact .inl ⟨k.1.trans h.1, k.2.trans h.2⟩
    · exact .inr (show w.cooldowns.length < w''.cooldowns.length from h.2 ▸ k)
  · have hk : Kept w' w'' := k.elim Idle.kept Cooled.kept
    exact .inr (Nat.lt_of_lt_of_le h hk)

end World

namespace Services

variable {services : Services} {w : World}

/-- Selection sends nothing, and what it selects is stored. -/
theorem selectCredentials_spec (target : ModelTarget) (exclude : List String) :
    w.Idle (services.selectCredentials target exclude w).1 ∧
      ∀ c, (services.selectCredentials target exclude w).2 = .selected c →
        c.id ∈ (services.selectCredentials target exclude w).1.ids := by
  refine ⟨⟨rfl, rfl⟩, fun c hc ↦ ?_⟩
  exact List.mem_map_of_mem (Connections.mem_of_selectConnection (Prod.ext rfl hc))

/-- A mark changes no id and takes back no cooldown. -/
theorem markUnavailable_spec (update : MarkUnavailableRequest) :
    (services.markUnavailable update w).ids = w.ids ∧
      w.Kept (services.markUnavailable update w) := by
  unfold markUnavailable
  split
  · next store hstore =>
    refine ⟨?_, by simp [World.Kept]⟩
    unfold Connections.markConnectionUnavailable at hstore
    refine @map_updateFirst _ _ _ _ _ _ ProviderConnection.id ?_ hstore
    exact fun _ _ _ ↦ rfl
  · exact ⟨rfl, Nat.le_refl _⟩

/-- A mark of a stored connection is a cooldown it receives. -/
theorem markUnavailable_cooled {update : MarkUnavailableRequest}
    (h : update.connectionId ∈ w.ids) : w.Cooled (services.markUnavailable update w) := by
  unfold markUnavailable
  split
  · simp [World.Cooled]
  · next hnone =>
    rw [Connections.markConnectionUnavailable, updateFirst_eq_none, List.find?_eq_none] at hnone
    obtain ⟨c, hc, hid⟩ := List.mem_map.mp h
    exact absurd (by simpa using hid) (hnone c hc)

/-- A token refresh keeps the ids, the connection and the cooldowns received. -/
theorem refreshIfDue_spec (provider : String) (credentials : ProviderConnection) :
    (services.refreshIfDue provider credentials w).1.ids = w.ids ∧
      (services.refreshIfDue provider credentials w).2.id = credentials.id ∧
      w.Kept (services.refreshIfDue provider credentials w).1 := by
  unfold refreshIfDue
  split
  · exact ⟨rfl, rfl, Nat.le_refl _⟩
  · exact ⟨rfl, rfl, Nat.le_refl _⟩
  · exact ⟨map_getD_updateFirst fun _ _ _ ↦ rfl, rfl, Nat.le_refl _⟩
  · exact ⟨(markUnavailable_spec _).1, rfl, (markUnavailable_spec _).2⟩

/-- Dispatch returns no other answers than the upstream's. -/
theorem status_of_execute (h : ClientFailure services) {provider : String}
    {credentials : ProviderConnection} {payload : Except String String} {sent : List Post}
    {answer : Answer}
    (hanswer : (services.upstream.execute provider credentials payload sent).2 = .ok answer) :
    answer.status = 400 ∨ answer.status = 422 := by
  refine @Upstream.answer_of_execute _ (fun a ↦ a.status = 400 ∨ a.status = 422) _ _ _ _ _ _
    (fun before post a ha ↦ ?_) (Prod.ext rfl hanswer)
  obtain ⟨a', ha', hs⟩ := h before post
  rw [ha] at ha'
  exact Except.ok.inj ha' ▸ hs

/-- A client error is no success. -/
theorem isSuccess_eq_false {answer : Answer} (h : answer.status = 400 ∨ answer.status = 422) :
    answer.isSuccess = false := by
  rcases h with h | h <;> simp [Answer.isSuccess, h]

/-- Refused by the upstream, an attempt is one to retry elsewhere. -/
theorem attempt_spec (h : ClientFailure services) (context : ChatContext) (target : ModelTarget)
    (credentials : ProviderConnection) :
    (services.attempt context target credentials w).1.ids = w.ids ∧
      w.Kept (services.attempt context target credentials w).1 ∧
      ∃ status message cooldownMs backoffLevel,
        (services.attempt context target credentials w).2 =
          .retryable status message cooldownMs backoffLevel := by
  obtain ⟨hids, -, hkept⟩ := @refreshIfDue_spec services w target.provider credentials
  unfold attempt
  simp only
  split
  · exact ⟨hids, hkept, _, _, _, _, rfl⟩
  · next answer hanswer =>
    rw [isSuccess_eq_false (status_of_execute h hanswer), if_neg Bool.false_ne_true,
      (checkFallbackError_spec _ _ _).1, if_pos rfl]
    exact ⟨hids, hkept, _, _, _, _, rfl⟩

/-- Refused by the upstream, the accounts of a target send nothing or one of them receives a
cooldown; either way the target fails. -/
theorem tryAccounts_spec (h : ClientFailure services) (context : ChatContext)
    (target : ModelTarget) (attempts : Nat) (excluded : List String)
    (lastError : Option (Nat × String)) (w : World) :
    (w.Idle (services.tryAccounts context target attempts excluded lastError w).1 ∨
      w.Cooled (services.tryAccounts context target attempts excluded lastError w).1) ∧
      ∃ response,
        (services.tryAccounts context target attempts excluded lastError w).2 =
          .failed response := by
  induction attempts generalizing excluded lastError w with
  | zero => exact ⟨.inl ⟨rfl, rfl⟩, _, rfl⟩
  | succ attempts ih =>
    obtain ⟨hidle, hstored⟩ := @selectCredentials_spec services w target excluded
    unfold tryAccounts
    simp only
    split
    · exact ⟨.inl hidle, _, rfl⟩
    · exact ⟨.inl hidle, _, rfl⟩
    · exact ⟨.inl hidle, _, rfl⟩
    · next credentials hselected =>
      have hid := hstored credentials hselected
      generalize (services.selectCredentials target excluded w).1 = w₁ at hidle hid ⊢
      obtain ⟨hids, hkept, status, message, cooldownMs, backoffLevel, hretry⟩ :=
        @attempt_spec services w₁ h context target credentials
      rw [hretry]
      simp only
      refine ⟨?_, (ih _ _ _).2⟩
      -- the mark cools the account down, and what follows takes nothing back
      have hmark := @markUnavailable_cooled services _
        ⟨credentials.id, some target.model, status, message, cooldownMs, backoffLevel⟩
        (hids.symm ▸ hid)
      have hcooled : w.Cooled (services.markUnavailable
          ⟨credentials.id, some target.model, status, message, cooldownMs, backoffLevel⟩
          (services.attempt context target credentials w₁).1) :=
        Nat.lt_of_le_of_lt (hidle.kept.trans hkept) hmark
      exact World.idle_or_cooled_trans (.inr hcooled) (ih _ _ _).1

/-- The same of a target. -/
theorem executeForTarget_spec (h : ClientFailure services) (context : ChatContext)
    (target : ModelTarget) (w : World) :
    (w.Idle (services.executeForTarget context target w).1 ∨
      w.Cooled (services.executeForTarget context target w).1) ∧
      ∃ response, (services.executeForTarget context target w).2 = .failed response := by
  unfold executeForTarget
  split
  · exact tryAccounts_spec h context target _ _ _ w
  · exact ⟨.inl ⟨rfl, rfl⟩, _, rfl⟩

/-- The same of models asked in turn. -/
theorem tryTargets_spec (h : ClientFailure services) (context : ChatContext)
    (targets : List ModelTarget) (w : World) :
    w.Idle (services.tryTargets context targets w).1 ∨
      w.Cooled (services.tryTargets context targets w).1 := by
  induction targets generalizing w with
  | nil => exact .inl ⟨rfl, rfl⟩
  | cons target rest ih =>
    obtain ⟨hstep, response, hfailed⟩ := executeForTarget_spec h context target w
    cases rest with
    | nil => exact hstep
    | cons next rest =>
      unfold tryTargets
      simp only [hfailed]
      exact World.idle_or_cooled_trans hstep (ih _)

/-- Refused by the upstream, a panel call has no text. -/
theorem panelCall_none (h : ClientFailure services) (context : ChatContext)
    (target : ModelTarget) (w : World) : (services.panelCall context target w).2 = none := by
  unfold panelCall
  split
  · simp only
    split
    · split
      · rfl
      · next answer hanswer =>
        rw [isSuccess_eq_false (status_of_execute h hanswer), if_neg Bool.false_ne_true]
    · rfl
  · rfl

/-- Refused by the upstream, a panel has no answers. -/
theorem collectPanel_nil (h : ClientFailure services) (context : ChatContext)
    (panel : List ModelTarget) (schedule : List (Nat × Bool)) (w : World) :
    (services.collectPanel context panel schedule w).2 = [] := by
  induction schedule generalizing w with
  | nil => rfl
  | cons call schedule ih =>
    obtain ⟨i, awaited⟩ := call
    unfold collectPanel
    split
    · exact ih w
    · simp only [panelCall_none h, Option.filter_none]
      exact ih _

end Services

/-- A client error of the upstream is always replayed or masked: whatever the models, the
accounts, their store and the clock, the request is sent another number of times than once, a
connection receives a cooldown, or the client is answered with another status. -/
theorem client_failure_is_replayed {services : Services} (h : ClientFailure services)
    (context : ChatContext) (resolved : ResolvedTargets) (schedule : List (Nat × Bool))
    (w : World) :
    ¬ NotReplayed services w (services.executeChat context resolved schedule w).1
      (services.executeChat context resolved schedule w).2 := by
  rintro ⟨⟨post, answer, hsent, hanswer, hstatus⟩, hcooldowns⟩
  unfold Services.executeChat at hsent hstatus hcooldowns
  split at hsent
  · next hfusion =>
    rw [if_pos hfusion] at hstatus
    have hclient : answer.status = 400 ∨ answer.status = 422 := by
      obtain ⟨a, ha, hs⟩ := h w.sent post
      rw [hanswer] at ha
      exact Except.ok.inj ha ▸ hs
    -- with no panel answer the client gets 503, with no panel 400 and nothing sent
    cases htargets : resolved.targets with
    | nil => simp [htargets] at hfusion
    | cons first rest =>
      rw [htargets] at hstatus
      unfold Services.executeFusion at hstatus
      simp only [Services.collectPanel_nil h, Response.status] at hstatus
      omega
  · next hturn =>
    rw [if_neg hturn] at hcooldowns
    rcases Services.tryTargets_spec h context resolved.targets w with hidle | hcooled
    · rw [hidle.1] at hsent
      simp at hsent
    · rw [World.Cooled, hcooldowns] at hcooled
      exact Nat.lt_irrefl _ hcooled

/-- The services of the tests: one endpoint for every provider, a clock that stands still, and
an upstream that refuses every body as malformed. -/
def refusing : Services where
  upstream := {
    fallbackCount := fun _ ↦ 1
    retryEntry := fun _ _ ↦ none
    buildUrl := fun _ _ _ ↦ some "https://upstream/v1/chat/completions"
    advancesOnStatus := fun _ _ ↦ false
    answer := fun _ _ ↦ .ok ⟨400, "messages: field required"⟩ }
  clock := fun _ ↦ 0
  strategy := .fillFirst
  stickyLimit := 3
  isExecutorSupported := fun _ ↦ true
  unsupportedExecutorMessage := id
  readJson := fun _ ↦ none
  printJson := fun _ ↦ ""
  refresh := fun _ _ _ ↦ .notDue
  prepare := fun _ _ _ ↦ .ok "{}"
  reply := fun _ _ _ answer ↦ .reply answer.status answer.body
  preparePanel := fun _ _ _ ↦ .ok "{}"
  panelText := fun _ _ ↦ none
  judgeBody := fun body _ ↦ body

/-- One model of a provider with two accounts. -/
def twoAccounts : World :=
  ⟨[ProviderConnection.unused "a" "p", ProviderConnection.unused "b" "p"], 0, [], []⟩

/-- The rule for a malformed request to that model. -/
theorem client_failure_is_replayed_at_two_accounts :
    ¬ NotReplayed refusing twoAccounts
      (refusing.executeChat ⟨.null, false, "openai"⟩ ⟨[⟨"p", "m"⟩], .fallback⟩ [] twoAccounts).1
      (refusing.executeChat ⟨.null, false, "openai"⟩ ⟨[⟨"p", "m"⟩], .fallback⟩ [] twoAccounts).2 :=
  client_failure_is_replayed (fun _ _ ↦ ⟨_, rfl, .inl rfl⟩) _ _ _ _

/-- There the request goes out on both accounts, and both receive a cooldown. -/
theorem malformed_request_cools_every_account :
    ¬ ∀ (services : Services) (context : ChatContext) (resolved : ResolvedTargets)
      (schedule : List (Nat × Bool)) (w : World), ClientFailure services →
        NotReplayed services w (services.executeChat context resolved schedule w).1
          (services.executeChat context resolved schedule w).2 := by
  intro hall
  have hrun := hall refusing ⟨.null, false, "openai"⟩ ⟨[⟨"p", "m"⟩], .fallback⟩ [] twoAccounts
    fun _ _ ↦ ⟨_, rfl, .inl rfl⟩
  have hsent : (refusing.executeChat ⟨.null, false, "openai"⟩ ⟨[⟨"p", "m"⟩], .fallback⟩ []
      twoAccounts).1.sent.map (·.connectionId) = ["a", "b"] := by decide
  obtain ⟨⟨post, answer, hone, -⟩, -⟩ := hrun
  rw [hone] at hsent
  simp [twoAccounts] at hsent

end NullRouter.Runtime
