import NullRouter.Auth.BruteForce

/-!
# Clients and the lockout

What one client's logins have to do with another's. The service counts failures for its TCP peer,
which for every request that comes through the gateway is the gateway; the address that the gateway
stamps on the request is not looked at. So the clients share one entry, and a client is answered as
if it were alone only while it does not meet what another has left there.
-/

namespace NullRouter.Auth

open NullRouter.Base
open NullRouter.Gateway (IpAddr)

/-- The service with the client that recorded the failures on record, and the client and the time
of every use of the table. -/
structure Shared where
  world : World
  owner : Option IpAddr := none
  used : List (IpAddr × Nat) := []

/-- The time at which an action uses the table: a check at its own, a record at that of the check
of its request. -/
def World.uses (w : World) : Action → Option Nat
  | .check _ _ now _ _ => some now
  | .answer .. => none
  | .record client request => (w.pending.find? (settled client request)).map (·.now)

/-- The client that recorded the failures on record after an action. -/
def Shared.ownerAfter (g : Shared) : Action → Option IpAddr
  | .check .. | .answer .. => g.owner
  | .record client request =>
    match g.world.pending.find? (settled client request) with
    | some ⟨_, _, _, _, .verified none⟩ => some client
    | _ => g.owner

section

variable (verify : String → Bool) (mint : Nat → NewSession → Option String)
  (gateway : IpAddr) (text : IpAddr → String)

/-- A step of the service. -/
def Shared.Step (g : Shared) (action : Action) (g' : Shared) : Prop :=
  g' = ⟨g.world.act verify mint gateway text action, g.ownerAfter action,
    g.used ++ (g.world.uses action).toList.map (action.client, ·)⟩

/-- A use of the table that does not meet what another client has left there: the failures that it
finds are the client's own, and no other client has used the table at a later time. -/
def Shared.Apart (g : Shared) (action : Action) : Prop :=
  ∀ now ∈ g.world.uses action,
    (g.world.store.found gateway now ≠ none → g.owner = some action.client) ∧
      ∀ use ∈ g.used, use.1 ≠ action.client → use.2 ≤ now

instance (g : Shared) (action : Action) : Decidable (g.Apart gateway action) :=
  inferInstanceAs (Decidable (∀ now ∈ g.world.uses action, _ ∧ _))

/-- The service as some actions alone leave it. -/
def World.acts (w : World) (actions : List Action) : World :=
  actions.foldl (World.act verify mint gateway text) w

/-! ## Steps -/

variable {verify mint gateway text}

/-- What is found later was found before. -/
theorem LockoutEntry.kept_of_le {config : LockoutConfig} {entry : LockoutEntry} {now later : Nat}
    (hle : now ≤ later) (h : entry.kept config later = true) : entry.kept config now = true := by
  rw [kept] at h ⊢
  split at h
  · simp only [decide_eq_true_eq] at h ⊢
    omega
  · simp only [decide_eq_true_eq] at h ⊢
    omega

/-- Once nothing is found, nothing is. -/
theorem LockoutStore.found_eq_none_of_le {store : LockoutStore} {peer : IpAddr} {now later : Nat}
    (hle : now ≤ later) (h : store.found peer now = none) : store.found peer later = none := by
  rw [found, Option.filter_eq_none_iff] at h ⊢
  intro entry hentry hkept
  exact h entry hentry (LockoutEntry.kept_of_le hle hkept)

/-- A check answers by what it finds, and leaves that. -/
theorem openLogin_of_found {store other : LockoutStore} {now : Nat} {client : IpAddr}
    {headers : List (String × String)} {body : Except ApiError LoginRequest}
    (h : other.found gateway now = store.found gateway now) :
    (openLogin other (forward gateway text client headers body) now).1 =
        (openLogin store (forward gateway text client headers body) now).1 ∧
      (openLogin store (forward gateway text client headers body) now).2.entry gateway =
        store.found gateway now ∧
      (openLogin store (forward gateway text client headers body) now).2.config = store.config := by
  obtain ⟨hstate, hentry, hconfig⟩ := store.check_spec gateway now
  obtain ⟨hother, -, -⟩ := other.check_spec gateway now
  have hsame : (other.check gateway now).1 = (store.check gateway now).1 := by
    rw [hother, hstate]
    exact congrArg (LockoutEntry.lockState now) h
  refine ⟨?_, ?_, ?_⟩
  · rw [openLogin, openLogin]
    dsimp only [HttpRequest.peerIp, forward]
    rw [hsame]
    split
    · rfl
    · split
      · rfl
      · split <;> rfl
  · rw [(openLogin_forward store now client headers body).1, hentry]
    rfl
  · rw [(openLogin_forward store now client headers body).1, hconfig]

/-- An outcome is answered by what its record finds, and leaves one entry for that. -/
theorem closeLogin_of_found {store other : LockoutStore} {now : Nat}
    (session : Option NewSession) (hconfig : other.config = store.config)
    (h : other.found gateway now = store.found gateway now) :
    (closeLogin mint other gateway now session).1 =
        (closeLogin mint store gateway now session).1 ∧
      (closeLogin mint other gateway now session).2.entry gateway =
        (closeLogin mint store gateway now session).2.entry gateway ∧
      (closeLogin mint store gateway now session).2.config = store.config := by
  cases session with
  | some session =>
    refine ⟨rfl, ?_, rfl⟩
    exact (other.recordSuccess_spec gateway).1.trans (store.recordSuccess_spec gateway).1.symm
  | none =>
    obtain ⟨entry, hfailed, hstate, hentry, hkept⟩ := store.recordFailure_spec gateway now
    obtain ⟨entry', hfailed', hstate', hentry', -⟩ := other.recordFailure_spec gateway now
    have hsame : entry' = entry := by
      rw [hfailed', hfailed, hconfig]
      rw [LockoutStore.found, LockoutStore.found, hconfig] at h
      rw [h]
    refine ⟨?_, ?_, hkept⟩
    · simp only [closeLogin, hstate, hstate', hsame, hconfig]
    · simp only [closeLogin, hentry, hentry', hsame]

/-- The service as a client alone leaves it, beside the service that it shares: its logins, its
answers, and of the table what it would find. -/
structure Shared.Alone (gateway client : IpAddr) (g : Shared) (alone : World) : Prop where
  configured : alone.store.config = g.world.store.config
  peers : ∀ task ∈ g.world.pending, task.peer = gateway
  pending : alone.pending = g.world.pending.filter (·.client = client)
  answers : alone.answers = g.world.answers.filter (·.1 = client)
  found : ∀ now, (∀ use ∈ g.used, use.1 ≠ client → use.2 ≤ now) →
    alone.store.found gateway now =
      if g.owner = some client then g.world.store.found gateway now else none

namespace Shared.Alone

variable {client : IpAddr} {g : Shared} {alone : World}

/-- A use by the client finds alone what it finds beside the others. -/
theorem found_own (h : g.Alone gateway client alone) {now : Nat}
    (hown : g.world.store.found gateway now ≠ none → g.owner = some client)
    (hlast : ∀ use ∈ g.used, use.1 ≠ client → use.2 ≤ now) :
    alone.store.found gateway now = g.world.store.found gateway now := by
  rw [h.found now hlast]
  split
  · rfl
  · next howner =>
    by_contra hfound
    exact howner (hown (Ne.symm hfound))

/-- After a use by another client, the client alone finds nothing any more. -/
theorem found_other (h : g.Alone gateway client alone) {other : IpAddr} {now later : Nat}
    (hother : other ≠ client)
    (hown : g.world.store.found gateway now ≠ none → g.owner = some other)
    (hlast : ∀ use ∈ g.used ++ [(other, now)], use.1 ≠ client → use.2 ≤ later) :
    alone.store.found gateway later = none := by
  have hle : now ≤ later := hlast (other, now) (by simp) hother
  rw [h.found later fun use huse ↦ hlast use (List.mem_append_left _ huse)]
  split
  · next howner =>
    apply LockoutStore.found_eq_none_of_le hle
    by_contra hfound
    rw [hown hfound] at howner
    exact hother (Option.some.inj howner)
  · rfl

private theorem filter_append_of_ne {α : Type} (f : α → IpAddr) {l : List α} {a : α}
    (h : f a ≠ client) : (l ++ [a]).filter (f · = client) = l.filter (f · = client) := by
  rw [List.filter_append, List.filter_cons_of_neg (by simpa using h), List.filter_nil,
    List.append_nil]

private theorem filter_append_of_eq {α : Type} (f : α → IpAddr) {l : List α} {a : α}
    (h : f a = client) : (l ++ [a]).filter (f · = client) = l.filter (f · = client) ++ [a] := by
  rw [List.filter_append, List.filter_cons_of_pos (by simpa using h), List.filter_nil]

/-- A check of the client's. -/
theorem check_own (h : g.Alone gateway client alone) {request now : Nat}
    {headers : List (String × String)} {body : Except ApiError LoginRequest}
    (hown : g.world.store.found gateway now ≠ none → g.owner = some client)
    (hlast : ∀ use ∈ g.used, use.1 ≠ client → use.2 ≤ now) :
    Alone gateway client
      ⟨g.world.act verify mint gateway text (.check client request now headers body), g.owner,
        g.used ++ [(client, now)]⟩
      (alone.act verify mint gateway text (.check client request now headers body)) := by
  have hsame := h.found_own hown hlast
  obtain ⟨hanswer, hentry, hconfig⟩ :=
    @openLogin_of_found gateway text g.world.store alone.store now client headers body hsame
  obtain ⟨-, halone, hconfig'⟩ :=
    @openLogin_of_found gateway text alone.store g.world.store now client headers body hsame.symm
  have hopened :=
    (@openLogin_forward gateway text g.world.store now client headers body).2
  have hfound : ∀ later,
      (openLogin alone.store (forward gateway text client headers body) now).2.found gateway later =
        if g.owner = some client then
          (openLogin g.world.store (forward gateway text client headers body) now).2.found
            gateway later
        else none := by
    intro later
    rw [LockoutStore.found, LockoutStore.found, halone, hentry, hconfig, hconfig', hsame,
      h.configured]
    split
    · rfl
    · next howner =>
      have hnone : g.world.store.found gateway now = none := by
        by_contra hfound
        exact howner (hown hfound)
      rw [hnone]
      rfl
  simp only [World.act, hanswer]
  split
  · next answer _ =>
    refine ⟨hconfig'.trans (h.configured.trans hconfig.symm), h.peers, h.pending, ?_,
      fun later _ ↦ hfound later⟩
    dsimp only
    rw [h.answers]
    exact (filter_append_of_eq Prod.fst (by rfl)).symm
  · next peer stage hok =>
    obtain ⟨rfl, -⟩ := hopened peer stage hok
    refine ⟨hconfig'.trans (h.configured.trans hconfig.symm), ?_, ?_, h.answers,
      fun later _ ↦ hfound later⟩
    · intro task htask
      rcases List.mem_append.mp htask with hold | hnew
      · exact h.peers task hold
      · rw [List.mem_singleton.mp hnew]
    · dsimp only
      rw [h.pending]
      exact (filter_append_of_eq Task.client (by rfl)).symm

/-- A check of another client's. -/
theorem check_other (h : g.Alone gateway client alone) {other : IpAddr} {request now : Nat}
    {headers : List (String × String)} {body : Except ApiError LoginRequest}
    (hother : other ≠ client)
    (hown : g.world.store.found gateway now ≠ none → g.owner = some other) :
    Alone gateway client
      ⟨g.world.act verify mint gateway text (.check other request now headers body), g.owner,
        g.used ++ [(other, now)]⟩ alone := by
  obtain ⟨-, hentry, hconfig⟩ :=
    @openLogin_of_found gateway text g.world.store g.world.store now other headers body rfl
  have hopened := (@openLogin_forward gateway text g.world.store now other headers body).2
  have hfound : ∀ later, (∀ use ∈ g.used ++ [(other, now)], use.1 ≠ client → use.2 ≤ later) →
      alone.store.found gateway later =
        if g.owner = some client then
          (openLogin g.world.store (forward gateway text other headers body) now).2.found
            gateway later
        else none := by
    intro later hlast
    rw [h.found_other hother hown hlast, LockoutStore.found, hentry]
    split
    · next howner =>
      have hnone : g.world.store.found gateway now = none := by
        by_contra hfound
        rw [hown hfound] at howner
        exact hother (Option.some.inj howner)
      rw [hnone]
      rfl
    · rfl
  simp only [World.act]
  split
  · refine ⟨h.configured.trans hconfig.symm, h.peers, h.pending, ?_, hfound⟩
    exact h.answers.trans (filter_append_of_ne Prod.fst hother).symm
  · next peer stage hok =>
    obtain ⟨rfl, -⟩ := hopened peer stage hok
    refine ⟨h.configured.trans hconfig.symm, ?_, ?_, h.answers, hfound⟩
    · intro task htask
      rcases List.mem_append.mp htask with hold | hnew
      · exact h.peers task hold
      · rw [List.mem_singleton.mp hnew]
    · exact h.pending.trans (filter_append_of_ne Task.client hother).symm

/-- The logins of one client are where they were among all. -/
theorem find?_pending (h : g.Alone gateway client alone) {p : Task → Bool}
    (hp : ∀ task, p task = true → task.client = client) :
    alone.pending.find? p = g.world.pending.find? p ∧
      alone.pending.eraseP p = (g.world.pending.eraseP p).filter (·.client = client) := by
  have himp : ∀ task, p task = true → decide (task.client = client) = true :=
    fun task htask ↦ decide_eq_true (hp task htask)
  rw [h.pending]
  exact ⟨find?_filter_of_imp himp _, eraseP_filter_of_imp himp _⟩

/-- The logins of one client stay when another's is over. -/
theorem filter_pending (h : g.Alone gateway client alone) {other : IpAddr}
    (hother : other ≠ client) {p : Task → Bool}
    (hp : ∀ task, p task = true → task.client = other) :
    alone.pending = (g.world.pending.eraseP p).filter (·.client = client) := by
  rw [h.pending, filter_eraseP_of_disjoint]
  intro task htask
  rw [hp task htask]
  exact decide_eq_false hother

private theorem client_of_waits {client : IpAddr} {request : Nat} {task : Task}
    (h : waits client request task = true) : task.client = client := by
  simp only [waits, Bool.and_eq_true, decide_eq_true_eq] at h
  exact h.1.1

private theorem client_of_settled {client : IpAddr} {request : Nat} {task : Task}
    (h : settled client request task = true) : task.client = client := by
  simp only [settled, Bool.and_eq_true, decide_eq_true_eq] at h
  exact h.1.1

/-- The credential store answers a login of the client's. -/
theorem answer_own (h : g.Alone gateway client alone) (request : Nat) (verdict : Option Verdict) :
    Alone gateway client
      ⟨g.world.act verify mint gateway text (.answer client request verdict), g.owner, g.used⟩
      (alone.act verify mint gateway text (.answer client request verdict)) := by
  obtain ⟨hfind, herase⟩ := h.find?_pending
    fun task htask ↦ @client_of_waits client request task htask
  have hpeers : ∀ task ∈ g.world.pending.eraseP (waits client request), task.peer = gateway :=
    fun task htask ↦ h.peers task (List.mem_of_mem_eraseP htask)
  simp only [World.act, hfind]
  split
  · next asker asked peer now password hsome =>
    obtain rfl : peer = gateway := h.peers _ (List.mem_of_find?_eq_some hsome)
    split
    · refine ⟨h.configured, hpeers, herase, ?_, h.found⟩
      dsimp only
      rw [h.answers]
      exact (filter_append_of_eq Prod.fst (by rfl)).symm
    · refine ⟨h.configured, ?_, ?_, h.answers, h.found⟩
      · intro task htask
        rcases List.mem_append.mp htask with hold | hnew
        · exact hpeers task hold
        · rw [List.mem_singleton.mp hnew]
      · dsimp only
        rw [herase]
        exact (filter_append_of_eq Task.client (by rfl)).symm
  · exact h

/-- The credential store answers a login of another client's. -/
theorem answer_other (h : g.Alone gateway client alone) {other : IpAddr} (hother : other ≠ client)
    (request : Nat) (verdict : Option Verdict) :
    Alone gateway client
      ⟨g.world.act verify mint gateway text (.answer other request verdict), g.owner, g.used⟩
      alone := by
  have herase := h.filter_pending hother
    fun task htask ↦ @client_of_waits other request task htask
  have hpeers : ∀ task ∈ g.world.pending.eraseP (waits other request), task.peer = gateway :=
    fun task htask ↦ h.peers task (List.mem_of_mem_eraseP htask)
  simp only [World.act]
  split
  · next asker asked peer now password hsome =>
    obtain rfl : peer = gateway := h.peers _ (List.mem_of_find?_eq_some hsome)
    split
    · exact ⟨h.configured, hpeers, herase,
        h.answers.trans (filter_append_of_ne Prod.fst hother).symm, h.found⟩
    · refine ⟨h.configured, ?_, ?_, h.answers, h.found⟩
      · intro task htask
        rcases List.mem_append.mp htask with hold | hnew
        · exact hpeers task hold
        · rw [List.mem_singleton.mp hnew]
      · exact herase.trans (filter_append_of_ne Task.client hother).symm
  · exact h

/-- A login of the client's records its outcome. -/
theorem record_own (h : g.Alone gateway client alone) (request : Nat)
    (hown : ∀ now ∈ g.world.uses (.record client request),
      g.world.store.found gateway now ≠ none → g.owner = some client)
    (hlast : ∀ now ∈ g.world.uses (.record client request),
      ∀ use ∈ g.used, use.1 ≠ client → use.2 ≤ now) :
    Alone gateway client
      ⟨g.world.act verify mint gateway text (.record client request),
        g.ownerAfter (.record client request),
        g.used ++ (g.world.uses (.record client request)).toList.map (client, ·)⟩
      (alone.act verify mint gateway text (.record client request)) := by
  obtain ⟨hfind, herase⟩ := h.find?_pending
    fun task htask ↦ @client_of_settled client request task htask
  have hpeers : ∀ task ∈ g.world.pending.eraseP (settled client request), task.peer = gateway :=
    fun task htask ↦ h.peers task (List.mem_of_mem_eraseP htask)
  cases hsome : g.world.pending.find? (settled client request) with
  | none =>
    simp only [World.act, World.uses, Shared.ownerAfter, hfind, hsome, Option.map_none,
      Option.toList_none, List.map_nil, List.append_nil]
    exact h
  | some task =>
    obtain ⟨asker, asked, peer, now, stage⟩ := task
    obtain rfl : peer = gateway := h.peers _ (List.mem_of_find?_eq_some hsome)
    simp only [World.uses, hsome, Option.map_some, Option.mem_some_iff, forall_eq'] at hown hlast
    have hsame := h.found_own hown hlast
    cases stage with
    | verifying password =>
      have hno := List.find?_some hsome
      simp [settled] at hno
    | verified session =>
      obtain ⟨hanswer, hentry, hconfig⟩ := @closeLogin_of_found mint peer g.world.store alone.store now
        session h.configured hsame
      obtain ⟨-, -, hconfig'⟩ := @closeLogin_of_found mint peer alone.store g.world.store now
        session h.configured.symm hsame.symm
      have hleft : (closeLogin mint alone.store peer now session).2.config =
          (closeLogin mint g.world.store peer now session).2.config :=
        hconfig'.trans (h.configured.trans hconfig.symm)
      simp only [World.act, World.uses, Shared.ownerAfter, hfind, hsome, Option.map_some]
      refine ⟨hleft, hpeers, herase, ?_, ?_⟩
      · dsimp only
        rw [h.answers, hanswer]
        exact (filter_append_of_eq Prod.fst (by rfl)).symm
      · intro later _
        rw [LockoutStore.found, LockoutStore.found, hentry, hleft]
        cases session with
        | none => exact (if_pos rfl).symm
        | some session =>
          rw [closeLogin, (g.world.store.recordSuccess_spec peer).1]
          exact (ite_self _).symm

/-- A login of another client's records its outcome. -/
theorem record_other (h : g.Alone gateway client alone) {other : IpAddr} (hother : other ≠ client)
    (request : Nat)
    (hown : ∀ now ∈ g.world.uses (.record other request),
      g.world.store.found gateway now ≠ none → g.owner = some other) :
    Alone gateway client
      ⟨g.world.act verify mint gateway text (.record other request),
        g.ownerAfter (.record other request),
        g.used ++ (g.world.uses (.record other request)).toList.map (other, ·)⟩ alone := by
  have herase := h.filter_pending hother
    fun task htask ↦ @client_of_settled other request task htask
  have hpeers : ∀ task ∈ g.world.pending.eraseP (settled other request), task.peer = gateway :=
    fun task htask ↦ h.peers task (List.mem_of_mem_eraseP htask)
  cases hsome : g.world.pending.find? (settled other request) with
  | none =>
    simp only [World.act, World.uses, Shared.ownerAfter, hsome, Option.map_none,
      Option.toList_none, List.map_nil, List.append_nil]
    exact h
  | some task =>
    obtain ⟨asker, asked, peer, now, stage⟩ := task
    obtain rfl : peer = gateway := h.peers _ (List.mem_of_find?_eq_some hsome)
    simp only [World.uses, hsome, Option.map_some, Option.mem_some_iff, forall_eq'] at hown
    cases stage with
    | verifying password =>
      have hno := List.find?_some hsome
      simp [settled] at hno
    | verified session =>
      obtain ⟨-, -, hconfig⟩ := @closeLogin_of_found mint peer g.world.store g.world.store now
        session rfl rfl
      simp only [World.act, World.uses, Shared.ownerAfter, hsome, Option.map_some]
      refine ⟨h.configured.trans hconfig.symm, hpeers, herase,
        h.answers.trans (filter_append_of_ne Prod.fst hother).symm, ?_⟩
      intro later hlast
      rw [h.found_other hother hown hlast]
      cases session with
      | none =>
        rw [if_neg]
        exact fun howner ↦ hother (Option.some.inj howner)
      | some session =>
        rw [LockoutStore.found, closeLogin, (g.world.store.recordSuccess_spec peer).1]
        exact (ite_self _).symm

/-- A step beside the others that does not meet what they left. -/
theorem step (h : g.Alone gateway client alone) {action : Action} {g' : Shared}
    (hstep : Guarded (Shared.Apart gateway) (Shared.Step verify mint gateway text) g action g') :
    Alone gateway client g' (if action.client = client then
      alone.act verify mint gateway text action else alone) := by
  obtain ⟨hapart, rfl⟩ := hstep
  have hown := fun now hnow ↦ (hapart now hnow).1
  have hlast := fun now hnow ↦ (hapart now hnow).2
  split
  · next hclient =>
    cases action with
    | check asker request now headers body =>
      obtain rfl : asker = client := hclient
      exact h.check_own (hown now rfl) (hlast now rfl)
    | answer asker request verdict =>
      obtain rfl : asker = client := hclient
      simpa [World.uses, Shared.ownerAfter] using h.answer_own request verdict
    | record asker request =>
      obtain rfl : asker = client := hclient
      exact h.record_own request hown hlast
  · next hclient =>
    cases action with
    | check asker request now headers body => exact h.check_other hclient (hown now rfl)
    | answer asker request verdict =>
      have hasker : asker ≠ client := hclient
      simpa [World.uses, Shared.ownerAfter] using h.answer_other hasker request verdict
    | record asker request => exact h.record_other hclient request hown

/-- A run beside the others that does not meet what they left. -/
theorem run (h : g.Alone gateway client alone) {actions : List Action} {g' : Shared}
    (hrun : Run (Guarded (Shared.Apart gateway) (Shared.Step verify mint gateway text))
      g actions g') :
    Alone gateway client g'
      (alone.acts verify mint gateway text (actions.filter (·.client = client))) := by
  induction hrun generalizing alone with
  | nil => exact h
  | @cons g next final action actions hstep hrest ih =>
    have hnext := h.step hstep
    by_cases hclient : action.client = client
    · rw [if_pos hclient] at hnext
      rw [List.filter_cons_of_pos (by simpa using hclient)]
      exact ih hnext
    · rw [if_neg hclient] at hnext
      rw [List.filter_cons_of_neg (by simpa using hclient)]
      exact ih hnext

end Shared.Alone

end

/-- A login of a client's with a wrong password, step after step. -/
def wrongLogin (client : IpAddr) (request : Nat) : List Action :=
  [.check client request 100 [] (.ok ⟨some "guess", none⟩),
    .answer client request (some .noUsersConfigured), .record client request]

/-- The steps of a service whose shared password nobody guesses, behind a gateway on its host. -/
def Shared.GuessStep : Shared → Action → Shared → Prop :=
  Shared.Step (fun _ ↦ false) (fun _ _ ↦ none) (.v4 0x7F000001) fun _ ↦ "127.0.0.1"

end NullRouter.Auth
