import NullRouter.Auth.Login

/-!
# Guessing passwords

How many wrong passwords of one peer are verified before it is locked out. The check of the
lockout table and the record of a failure are apart, so logins that are under way are not on
record: the threshold bounds the wrong passwords in every run in which a login is let through only
while those under way and the failures on record leave room below it.
-/

namespace NullRouter.Auth

open NullRouter.Base
open NullRouter.Gateway (IpAddr)

/-- What an operation at some time finds of a peer's entry. -/
def LockoutStore.found (store : LockoutStore) (peer : IpAddr) (now : Nat) : Option LockoutEntry :=
  (store.entry peer).filter (·.kept store.config now)

/-- An operation at some time forgets a peer's failures: their window is over, or their lock. -/
def LockoutStore.forgets (store : LockoutStore) (peer : IpAddr) (now : Nat) : Bool :=
  (store.entry peer).any (!·.kept store.config now)

/-- The failures on record. -/
def recorded (entry : Option LockoutEntry) : Nat := entry.elim 0 (·.failures)

/-- The service with the wrong passwords that were verified since the peer's failures were last
forgotten. -/
structure Guessed where
  world : World
  wrong : Nat := 0

section

variable (verify : String → Bool) (mint : Nat → NewSession → Option String)
  (gateway : IpAddr) (text : IpAddr → String)

/-- The wrong passwords after a step. -/
def Guessed.wrongAfter (g : Guessed) : Action → Nat
  | .check _ _ now _ _ => if g.world.store.forgets gateway now then 0 else g.wrong
  | .answer client request verdict =>
    match g.world.pending.find? (waits client request) with
    | some ⟨_, _, _, _, .verifying password⟩ =>
      if settle verify password verdict = .ok none then g.wrong + 1 else g.wrong
    | _ => g.wrong
  | .record client request =>
    match g.world.pending.find? (settled client request) with
    | some ⟨_, _, _, now, .verified session⟩ =>
      if session.isSome || g.world.store.forgets gateway now then 0 else g.wrong
    | _ => g.wrong

/-- A step of the service. -/
def Guessed.Step (g : Guessed) (action : Action) (g' : Guessed) : Prop :=
  g' = ⟨g.world.act verify mint gateway text action,
    g.wrongAfter verify gateway action⟩

/-- A login is let through only while there is room below the threshold for it. -/
def Guessed.Room (g : Guessed) : Action → Prop
  | .check client _ now headers body =>
    (openLogin g.world.store (forward gateway text client headers body) now).1.isOk = true →
      recorded (g.world.store.found gateway now) + g.world.pending.length <
        g.world.store.config.threshold
  | .answer .. | .record .. => True

/-! ## Steps -/

variable {verify mint gateway text}

/-- A request that comes through the gateway is checked under the gateway's address. -/
theorem openLogin_forward (store : LockoutStore) (now : Nat) (client : IpAddr)
    (headers : List (String × String)) (body : Except ApiError LoginRequest) :
    (openLogin store (forward gateway text client headers body) now).2 =
        (store.check gateway now).2 ∧
      ∀ peer stage, (openLogin store (forward gateway text client headers body) now).1 =
          .ok (peer, stage) → peer = gateway ∧ ∃ password, stage = .verifying password := by
  rw [openLogin]
  dsimp only [HttpRequest.peerIp, forward]
  split
  · exact ⟨rfl, fun _ _ h ↦ by cases h⟩
  · split
    · exact ⟨rfl, fun _ _ h ↦ by cases h⟩
    · split
      · exact ⟨rfl, fun _ _ h ↦ by cases h⟩
      · refine ⟨rfl, ?_⟩
        intro peer stage h
        cases h
        exact ⟨rfl, _, rfl⟩

/-- What is found is all that was there, unless it is forgotten. -/
theorem recorded_found (store : LockoutStore) (peer : IpAddr) (now : Nat) :
    if store.forgets peer now then store.found peer now = none
    else store.found peer now = store.entry peer := by
  rw [LockoutStore.forgets, LockoutStore.found]
  cases store.entry peer with
  | none => rfl
  | some entry =>
    cases hkept : entry.kept store.config now with
    | true => simp [hkept]
    | false => simp [hkept]

/-- A peer below the threshold has one failure more after a failure. -/
theorem failures_failed {config : LockoutConfig} {now : Nat} {entry : Option LockoutEntry}
    (hkept : ∀ e ∈ entry, e.kept config now = true)
    (hlocked : ∀ e ∈ entry, e.lockedUntil ≠ none → config.threshold ≤ e.failures)
    (hroom : recorded entry < config.threshold) :
    (LockoutEntry.failed config now entry).failures = recorded entry + 1 ∧
      ((LockoutEntry.failed config now entry).lockedUntil ≠ none →
        config.threshold ≤ (LockoutEntry.failed config now entry).failures) := by
  have hmax := config.threshold_le
  have hsat : satAdd32 (recorded entry) 1 = recorded entry + 1 := Nat.min_eq_left (by omega)
  have hwindowed : ((entry.getD (.fresh now)).windowed config now).failures = recorded entry ∧
      ((entry.getD (.fresh now)).windowed config now).lockedUntil = none := by
    cases entry with
    | none =>
      rw [LockoutEntry.windowed]
      split <;> exact ⟨rfl, rfl⟩
    | some e =>
      have hunlocked : e.lockedUntil = none := by
        by_contra hsome
        have hpast := hlocked e rfl hsome
        exact absurd hroom (Nat.not_lt_of_le hpast)
      have hwindow := hkept e rfl
      rw [LockoutEntry.kept, hunlocked, decide_eq_true_eq] at hwindow
      rw [Option.getD_some, LockoutEntry.windowed, if_neg (Nat.not_le_of_lt hwindow)]
      exact ⟨rfl, hunlocked⟩
  rw [LockoutEntry.failed, LockoutEntry.charged]
  dsimp only
  rw [hwindowed.1, hwindowed.2, hsat]
  refine ⟨rfl, ?_⟩
  split
  · next hpast => exact fun _ ↦ hpast
  · exact fun hsome ↦ absurd rfl hsome

/-- The wrong passwords that were verified are on record or about to be, and the record leaves room
for the logins that are under way. -/
structure Guessed.Bounded (config : LockoutConfig) (gateway : IpAddr) (g : Guessed) : Prop where
  configured : g.world.store.config = config
  peers : ∀ task ∈ g.world.pending, task.peer = gateway
  counted : g.wrong ≤ recorded (g.world.store.entry gateway) +
    g.world.pending.countP (·.stage = .verified none)
  room : recorded (g.world.store.entry gateway) + g.world.pending.length ≤ config.threshold
  locked : ∀ entry ∈ g.world.store.entry gateway,
    entry.lockedUntil ≠ none → config.threshold ≤ entry.failures

namespace Guessed.Bounded

variable {config : LockoutConfig} {g : Guessed}

/-- What is found of the entry keeps the bound. -/
theorem found (h : g.Bounded config gateway) (now : Nat) :
    (if g.world.store.forgets gateway now then 0 else g.wrong) ≤
        recorded (g.world.store.found gateway now) +
          g.world.pending.countP (·.stage = .verified none) ∧
      recorded (g.world.store.found gateway now) ≤ recorded (g.world.store.entry gateway) ∧
      ∀ entry ∈ g.world.store.found gateway now,
        entry.lockedUntil ≠ none → config.threshold ≤ entry.failures := by
  have hfound := recorded_found g.world.store gateway now
  split
  · next hforgets =>
    rw [if_pos hforgets] at hfound
    rw [hfound]
    exact ⟨Nat.zero_le _, Nat.zero_le _, nofun⟩
  · next hforgets =>
    rw [if_neg hforgets] at hfound
    rw [hfound]
    exact ⟨h.counted, Nat.le_refl _, h.locked⟩

/-- A check keeps the bound, where it lets a login through only with room for it. -/
theorem check (h : g.Bounded config gateway) {client : IpAddr} {request now : Nat}
    {headers : List (String × String)} {body : Except ApiError LoginRequest}
    (hroom : g.Room gateway text (.check client request now headers body)) :
    Bounded config gateway ⟨g.world.act verify mint gateway text
      (.check client request now headers body),
      if g.world.store.forgets gateway now then 0 else g.wrong⟩ := by
  obtain ⟨hcounted, hless, hlocked⟩ := h.found now
  obtain ⟨hstore, hopened⟩ := @openLogin_forward gateway text g.world.store now client headers body
  obtain ⟨-, hentry, hconfig⟩ := g.world.store.check_spec gateway now
  rw [← hstore] at hentry hconfig
  have hbound := h.room
  rw [World.act]
  split
  · next answer hanswer =>
    refine ⟨hconfig.trans h.configured, h.peers, ?_, ?_, ?_⟩
    · rw [hentry]
      exact hcounted
    · rw [hentry]
      exact Nat.le_trans (Nat.add_le_add_right hless _) hbound
    · rw [hentry]
      exact hlocked
  · next peer stage hok =>
    obtain ⟨rfl, password, rfl⟩ := hopened peer stage hok
    have hleft := hroom (by rw [hok]; rfl)
    refine ⟨hconfig.trans h.configured, ?_, ?_, ?_, ?_⟩
    · intro task htask
      rcases List.mem_append.mp htask with hold | hnew
      · exact h.peers task hold
      · rw [List.mem_singleton.mp hnew]
    · rw [hentry, List.countP_append]
      exact Nat.le_trans hcounted (Nat.add_le_add_left (Nat.le_add_right _ _) _)
    · rw [hentry, List.length_append, List.length_singleton, ← h.configured]
      exact hleft
    · rw [hentry]
      exact hlocked

/-- A login that is no longer under way leaves its room. -/
theorem finished (h : g.Bounded config gateway) {p : Task → Bool} {task : Task}
    (hfind : g.world.pending.find? p = some task) :
    task.peer = gateway ∧ (∀ other ∈ g.world.pending.eraseP p, other.peer = gateway) ∧
      (g.world.pending.eraseP p).length + 1 = g.world.pending.length ∧
      (g.world.pending.eraseP p).countP (·.stage = .verified none) +
        (if task.stage = .verified none then 1 else 0) =
          g.world.pending.countP (·.stage = .verified none) := by
  obtain ⟨-, before, after, hpending, herased⟩ := eraseP_of_find? hfind
  refine ⟨h.peers task (List.mem_of_find?_eq_some hfind), ?_, ?_, ?_⟩
  · intro other hother
    exact h.peers other (List.mem_of_mem_eraseP hother)
  · rw [herased, hpending, List.length_append, List.length_append, List.length_cons,
      Nat.add_assoc]
  · rw [herased, hpending, List.countP_append, List.countP_append, List.countP_cons]
    simp only [decide_eq_true_eq]
    omega

/-- An answer of the credential store keeps the bound: a wrong password is about to be recorded. -/
theorem answer (h : g.Bounded config gateway) (client : IpAddr) (request : Nat)
    (verdict : Option Verdict) : Bounded config gateway
      ⟨g.world.act verify mint gateway text (.answer client request verdict),
        g.wrongAfter verify gateway (.answer client request verdict)⟩ := by
  cases hfind : g.world.pending.find? (waits client request) with
  | none =>
    simp only [World.act, Guessed.wrongAfter, hfind]
    exact h
  | some task =>
    obtain ⟨hpeer, hpeers, hlength, hcount⟩ := h.finished hfind
    have hcounted := h.counted
    have hroom := h.room
    obtain ⟨asker, asked, peer, now, stage⟩ := task
    cases stage with
    | verified session =>
      simp only [World.act, Guessed.wrongAfter, hfind]
      exact h
    | verifying password =>
      rw [if_neg (by simp)] at hcount
      simp only [World.act, Guessed.wrongAfter, hfind]
      cases hsettled : settle verify password verdict with
      | error answer =>
        rw [if_neg (by simp)]
        refine ⟨h.configured, hpeers, ?_, ?_, h.locked⟩
        · dsimp only
          omega
        · dsimp only
          omega
      | ok session =>
        refine ⟨h.configured, ?_, ?_, ?_, h.locked⟩
        · intro task htask
          rcases List.mem_append.mp htask with hold | hnew
          · exact hpeers task hold
          · rw [List.mem_singleton.mp hnew]
            exact hpeer
        · dsimp only
          rw [List.countP_append, List.countP_singleton]
          cases session with
          | none =>
            rw [if_pos rfl, if_pos (by simp)]
            omega
          | some session =>
            rw [if_neg (by simp), if_neg (by simp)]
            omega
        · dsimp only
          rw [List.length_append, List.length_singleton]
          omega

/-- Recording an outcome keeps the bound. -/
theorem record (h : g.Bounded config gateway) (client : IpAddr) (request : Nat) :
    Bounded config gateway
      ⟨g.world.act verify mint gateway text (.record client request),
        g.wrongAfter verify gateway (.record client request)⟩ := by
  cases hfind : g.world.pending.find? (settled client request) with
  | none =>
    simp only [World.act, Guessed.wrongAfter, hfind]
    exact h
  | some task =>
    obtain ⟨hpeer, hpeers, hlength, hcount⟩ := h.finished hfind
    have hroom := h.room
    obtain ⟨asker, asked, peer, now, stage⟩ := task
    have hpeer : peer = gateway := hpeer
    subst hpeer
    cases stage with
    | verifying password =>
      simp only [World.act, Guessed.wrongAfter, hfind]
      exact h
    | verified session =>
      simp only [World.act, Guessed.wrongAfter, hfind]
      cases session with
      | some session =>
        obtain ⟨hentry, hconfig⟩ := g.world.store.recordSuccess_spec peer
        refine ⟨hconfig.trans h.configured, hpeers, Nat.zero_le _, ?_, ?_⟩
        · simp only [closeLogin, hentry]
          show 0 + _ ≤ _
          omega
        · simp only [closeLogin, hentry]
          simp
      | none =>
        obtain ⟨hcounted, hless, hlocked⟩ := h.found now
        obtain ⟨entry, hfailed, -, hentry, hconfig⟩ := g.world.store.recordFailure_spec peer now
        obtain rfl := h.configured
        have hkept : ∀ e ∈ g.world.store.found peer now,
            e.kept g.world.store.config now = true := by
          intro e he
          exact (Option.filter_eq_some_iff.mp he).2
        obtain ⟨hfailures, hlock⟩ := failures_failed hkept hlocked (by omega)
        rw [LockoutStore.found, ← hfailed] at hfailures hlock
        rw [if_pos rfl] at hcount
        have hrecorded : recorded (some entry) = entry.failures := rfl
        refine ⟨hconfig, hpeers, ?_, ?_, ?_⟩
        · simp only [closeLogin, hentry, hrecorded, hfailures, Option.isSome_none, Bool.false_or]
          rw [LockoutStore.found] at hcounted
          omega
        · simp only [closeLogin, hentry, hrecorded, hfailures]
          rw [LockoutStore.found] at hless
          omega
        · simp only [closeLogin, hentry, Option.mem_some_iff]
          rintro _ rfl
          exact hlock

end Guessed.Bounded

end

/-- The check of a guess of the shared password. -/
def guess (request : Nat) : Action :=
  .check (.v4 0xCB007109) request 100 [] (.ok ⟨some "guess", none⟩)

/-- The answer that no account exists, so that the guess is compared with the shared password. -/
def noAccounts (request : Nat) : Action :=
  .answer (.v4 0xCB007109) request (some .noUsersConfigured)

end NullRouter.Auth
