import NullRouter.Runtime.Endpoints

/-!
# The loop of a dispatch

The loop of `Executor::execute`, `crates/execute/src/executor.rs:491–639`, pass by pass: the
index of the URL, the retries spent on each index and the last failure are its state, and
`retry_delay` and the two ways to the next URL change it. The upstream answers a send by all
sends so far.
-/

namespace NullRouter.Runtime

/-- A send: the index it was made for, and the URL it went to. -/
structure Send where
  urlIndex : Nat
  url : String
  deriving DecidableEq

/-- The failure of a send. -/
inductive SendError where
  | timeout
  | other (message : String)
  deriving DecidableEq

namespace SendError

/-- The error that the failure of a send becomes, `executor.rs:580–589`. -/
def failure (provider : String) : SendError → ExecuteError
  | .timeout => .timeout provider
  | .other message => .transport provider message

end SendError

/-- `ExecuteOutcome`, `executor.rs:57`: the answer, and the URL that gave it. -/
structure ExecuteOutcome where
  answer : Answer
  url : String
  deriving DecidableEq

/-- The state of the loop, `executor.rs:513–516`. -/
structure LoopState where
  attemptsByUrl : Std.ExtTreeMap Nat Nat
  lastError : Option ExecuteError
  urlIndex : Nat

/-- What a pass of the loop comes to: another pass, or a result. -/
inductive LoopStep where
  | again (state : LoopState) (sent : List Send)
  | returned (sent : List Send) (result : Except ExecuteError ExecuteOutcome)

/-- What the loop is run with. -/
structure Dispatch where
  provider : String
  totalUrls : Nat
  /-- `build_url` with the path or the suffix of the request. -/
  buildUrl : Nat → Option String
  /-- `resolve_retry_entry`. -/
  resolveRetryEntry : Nat → Option UInt32
  /-- `advances_on_status`. -/
  advancesOnStatus : Nat → Bool
  /-- What becomes of the last of the sends. -/
  respond : List Send → Except SendError Answer

/-- The retries spent on the current URL. -/
def LoopState.used (state : LoopState) : Nat := state.attemptsByUrl[state.urlIndex]?.getD 0

namespace Dispatch

variable (d : Dispatch)

/-- `retry_delay`, `executor.rs:614`: whether to send again to the same URL, and the retries
spent on each index. -/
def retryDelay (status urlIndex : Nat) (attemptsByUrl : Std.ExtTreeMap Nat Nat) :
    Bool × Std.ExtTreeMap Nat Nat :=
  match d.resolveRetryEntry status with
  | none => (false, attemptsByUrl)
  | some attempts =>
    if attempts = 0 then (false, attemptsByUrl)
    else
      let used := attemptsByUrl[urlIndex]?.getD 0
      if attempts.toNat ≤ used then (false, attemptsByUrl.insert urlIndex used)
      else (true, attemptsByUrl.insert urlIndex (used + 1))

/-- A pass of the loop, `executor.rs:518–608`. -/
def pass (state : LoopState) (sent : List Send) : LoopStep :=
  if state.urlIndex < d.totalUrls then
    match d.buildUrl state.urlIndex with
    | none => .returned sent (.error (.noEndpoint d.provider))
    | some url =>
      let sent := sent ++ [⟨state.urlIndex, url⟩]
      match d.respond sent with
      | .ok answer =>
        let retried := d.retryDelay answer.status state.urlIndex state.attemptsByUrl
        if retried.1 then .again { state with attemptsByUrl := retried.2 } sent
        else if (answer.status == 429 || d.advancesOnStatus answer.status) &&
            state.urlIndex + 1 < d.totalUrls then
          .again ⟨retried.2, state.lastError, state.urlIndex + 1⟩ sent
        else .returned sent (.ok ⟨answer, url⟩)
      | .error error =>
        let failure := error.failure d.provider
        let retried := d.retryDelay 502 state.urlIndex state.attemptsByUrl
        if retried.1 then .again ⟨retried.2, some failure, state.urlIndex⟩ sent
        else if state.urlIndex + 1 < d.totalUrls then
          .again ⟨retried.2, some failure, state.urlIndex + 1⟩ sent
        else .returned sent (.error failure)
  else .returned sent (.error (state.lastError.getD (.noEndpoint d.provider)))

/-- At most `fuel` passes of the loop, nothing if more are needed. -/
def run : (fuel : Nat) → LoopState → List Send →
    Option (List Send × Except ExecuteError ExecuteOutcome)
  | 0, _, _ => none
  | fuel + 1, state, sent =>
    match d.pass state sent with
    | .again state sent => run fuel state sent
    | .returned sent result => some (sent, result)

/-- The outcome of the last of the sends, which went to `url`. -/
def outcome (sent : List Send) (url : String) : Except ExecuteError ExecuteOutcome :=
  match d.respond sent with
  | .ok answer => .ok ⟨answer, url⟩
  | .error error => .error (error.failure d.provider)

/-- What a dispatch has done with at most `attempts` retries for each URL: the sends are few, go
through the indices in order, and the result is the outcome of the last of them. -/
structure Settled (attempts : Nat) (sent : List Send)
    (result : Except ExecuteError ExecuteOutcome) : Prop where
  length_le : sent.length ≤ d.totalUrls * (1 + attempts)
  increasing : sent.Pairwise (·.urlIndex ≤ ·.urlIndex)
  inRange : ∀ send ∈ sent, send.urlIndex < d.totalUrls
  built : ∀ send ∈ sent, d.buildUrl send.urlIndex = some send.url
  last : ∀ send ∈ sent.getLast?, result = d.outcome sent send.url

variable {d} {attempts : Nat}

/-- A retry is counted on its URL and needs one that is left; without one, no other URL's count
changes. -/
private theorem retryDelay_cases
    (hattempts : ∀ status a, d.resolveRetryEntry status = some a → a.toNat ≤ attempts)
    (status urlIndex : Nat) (spent : Std.ExtTreeMap Nat Nat) :
    ((d.retryDelay status urlIndex spent).1 = false ∧
      ∀ j, j ≠ urlIndex → (d.retryDelay status urlIndex spent).2[j]? = spent[j]?) ∨
    (d.retryDelay status urlIndex spent =
        (true, spent.insert urlIndex (spent[urlIndex]?.getD 0 + 1)) ∧
      spent[urlIndex]?.getD 0 < attempts) := by
  unfold retryDelay
  cases hentry : d.resolveRetryEntry status with
  | none => exact .inl ⟨rfl, fun _ _ ↦ rfl⟩
  | some a =>
    have hle := hattempts status a hentry
    dsimp only
    split
    next => exact .inl ⟨rfl, fun _ _ ↦ rfl⟩
    next =>
      split
      next hused =>
        refine .inl ⟨rfl, fun j hj ↦ ?_⟩
        rw [Std.ExtTreeMap.getElem?_insert, if_neg]
        simpa using Ne.symm hj
      next hused => exact .inr ⟨rfl, by omega⟩

/-- What a pass does where an index is in range: nothing is sent without a URL; else the send is
retried, taken to the next URL, or returned. -/
private theorem pass_cases
    (hattempts : ∀ status a, d.resolveRetryEntry status = some a → a.toNat ≤ attempts)
    {state : LoopState} (sent : List Send) (hrange : state.urlIndex < d.totalUrls) :
    (d.buildUrl state.urlIndex = none ∧
      d.pass state sent = .returned sent (.error (.noEndpoint d.provider))) ∨
    ∃ url, d.buildUrl state.urlIndex = some url ∧
      ((∃ failed, state.used < attempts ∧ d.pass state sent =
          .again ⟨state.attemptsByUrl.insert state.urlIndex (state.used + 1), failed,
            state.urlIndex⟩ (sent ++ [⟨state.urlIndex, url⟩])) ∨
        (∃ spent failed, (∀ j, j ≠ state.urlIndex → spent[j]? = state.attemptsByUrl[j]?) ∧
          state.urlIndex + 1 < d.totalUrls ∧ d.pass state sent =
            .again ⟨spent, failed, state.urlIndex + 1⟩ (sent ++ [⟨state.urlIndex, url⟩])) ∨
        d.pass state sent = .returned (sent ++ [⟨state.urlIndex, url⟩])
          (d.outcome (sent ++ [⟨state.urlIndex, url⟩]) url)) := by
  unfold pass outcome
  rw [if_pos hrange]
  cases hurl : d.buildUrl state.urlIndex with
  | none => exact .inl ⟨rfl, rfl⟩
  | some url =>
    refine .inr ⟨url, rfl, ?_⟩
    dsimp only
    cases hresponse : d.respond (sent ++ [⟨state.urlIndex, url⟩]) with
    | ok answer =>
      dsimp only
      rcases retryDelay_cases hattempts answer.status state.urlIndex state.attemptsByUrl with
        ⟨hno, hsame⟩ | ⟨hretry, hleft⟩
      · rw [hno, if_neg Bool.false_ne_true]
        split
        next hnext =>
          rw [Bool.and_eq_true, decide_eq_true_eq] at hnext
          exact .inr (.inl ⟨_, _, hsame, hnext.2, rfl⟩)
        next => exact .inr (.inr rfl)
      · rw [hretry]
        exact .inl ⟨_, hleft, rfl⟩
    | error error =>
      dsimp only
      rcases retryDelay_cases hattempts 502 state.urlIndex state.attemptsByUrl with
        ⟨hno, hsame⟩ | ⟨hretry, hleft⟩
      · rw [hno, if_neg Bool.false_ne_true]
        split
        next hnext => exact .inr (.inl ⟨_, _, hsame, hnext, rfl⟩)
        next => exact .inr (.inr rfl)
      · rw [hretry]
        exact .inl ⟨_, hleft, rfl⟩

/-- The invariant of the loop: each URL behind the current one took at most one send and its
retries, and the current one its retries so far. -/
private structure Progress (d : Dispatch) (attempts : Nat) (state : LoopState)
    (sent : List Send) : Prop where
  inRange : state.urlIndex < d.totalUrls
  used_le : state.used ≤ attempts
  fresh : ∀ j, state.urlIndex < j → state.attemptsByUrl[j]? = none
  length_le : sent.length ≤ state.urlIndex * (1 + attempts) + state.used
  increasing : sent.Pairwise (·.urlIndex ≤ ·.urlIndex)
  le_index : ∀ send ∈ sent, send.urlIndex ≤ state.urlIndex
  built : ∀ send ∈ sent, d.buildUrl send.urlIndex = some send.url

namespace Progress

variable {state : LoopState} {sent : List Send}

private theorem pairwise_snoc (h : Progress d attempts state sent) (url : String) :
    (sent ++ [(⟨state.urlIndex, url⟩ : Send)]).Pairwise (·.urlIndex ≤ ·.urlIndex) := by
  rw [List.pairwise_append]
  refine ⟨h.increasing, List.pairwise_singleton _ _, fun send hsend last hlast ↦ ?_⟩
  rw [List.mem_singleton.mp hlast]
  exact h.le_index send hsend

private theorem forall_snoc (h : Progress d attempts state sent) {url : String}
    (hurl : d.buildUrl state.urlIndex = some url) :
    ∀ send ∈ sent ++ [⟨state.urlIndex, url⟩],
      send.urlIndex ≤ state.urlIndex ∧ d.buildUrl send.urlIndex = some send.url := by
  intro send hsend
  rcases List.mem_append.mp hsend with hbefore | hlast
  · exact ⟨h.le_index send hbefore, h.built send hbefore⟩
  · rw [List.mem_singleton.mp hlast]
    exact ⟨Nat.le_refl _, hurl⟩

private theorem retried (h : Progress d attempts state sent) {url : String}
    (hurl : d.buildUrl state.urlIndex = some url) (hused : state.used < attempts)
    (failed : Option ExecuteError) :
    LoopState.used ⟨state.attemptsByUrl.insert state.urlIndex (state.used + 1), failed,
      state.urlIndex⟩ = state.used + 1 ∧
    Progress d attempts ⟨state.attemptsByUrl.insert state.urlIndex (state.used + 1), failed,
      state.urlIndex⟩ (sent ++ [⟨state.urlIndex, url⟩]) := by
  have hcount : LoopState.used ⟨state.attemptsByUrl.insert state.urlIndex (state.used + 1), failed,
      state.urlIndex⟩ = state.used + 1 := by
    unfold LoopState.used
    rw [Std.ExtTreeMap.getElem?_insert_self, Option.getD_some]
  refine ⟨hcount, h.inRange, ?_, fun j hj ↦ ?_, ?_, h.pairwise_snoc url,
    fun send hsend ↦ (h.forall_snoc hurl send hsend).1,
    fun send hsend ↦ (h.forall_snoc hurl send hsend).2⟩
  · rw [hcount]
    omega
  · rw [Std.ExtTreeMap.getElem?_insert, if_neg, h.fresh j hj]
    simpa using Nat.ne_of_lt hj
  · have := h.length_le
    rw [hcount, List.length_append, List.length_singleton]
    show _ ≤ state.urlIndex * (1 + attempts) + _
    omega

private theorem advanced (h : Progress d attempts state sent) {url : String}
    (hurl : d.buildUrl state.urlIndex = some url) {spent : Std.ExtTreeMap Nat Nat}
    (hspent : ∀ j, j ≠ state.urlIndex → spent[j]? = state.attemptsByUrl[j]?)
    (hnext : state.urlIndex + 1 < d.totalUrls) (failed : Option ExecuteError) :
    LoopState.used ⟨spent, failed, state.urlIndex + 1⟩ = 0 ∧
    Progress d attempts ⟨spent, failed, state.urlIndex + 1⟩
      (sent ++ [⟨state.urlIndex, url⟩]) := by
  have hcount : LoopState.used ⟨spent, failed, state.urlIndex + 1⟩ = 0 := by
    show (spent[state.urlIndex + 1]?).getD 0 = 0
    rw [hspent _ (by omega), h.fresh _ (by omega), Option.getD_none]
  refine ⟨hcount, hnext, ?_, fun j hj ↦ ?_, ?_, h.pairwise_snoc url,
    fun send hsend ↦ (h.forall_snoc hurl send hsend).1.trans (Nat.le_succ _),
    fun send hsend ↦ (h.forall_snoc hurl send hsend).2⟩
  · rw [hcount]
    exact Nat.zero_le _
  · have hlt : state.urlIndex < j := Nat.lt_of_succ_lt hj
    rw [hspent j (by omega), h.fresh j hlt]
  · have hlength := h.length_le
    have hused := h.used_le
    have hmul : (state.urlIndex + 1) * (1 + attempts) =
        state.urlIndex * (1 + attempts) + (1 + attempts) := Nat.succ_mul _ _
    rw [hcount, List.length_append, List.length_singleton]
    show _ ≤ (state.urlIndex + 1) * (1 + attempts) + 0
    omega

end Progress

/-- A loop whose indices all have a URL, or none has, settles within the sends that its URLs and
their retries allow. -/
private theorem run_settles
    (hattempts : ∀ status a, d.resolveRetryEntry status = some a → a.toNat ≤ attempts)
    (hsame : ∀ i j, (d.buildUrl i).isSome = (d.buildUrl j).isSome) (fuel : Nat) :
    ∀ (state : LoopState) (sent : List Send), Progress d attempts state sent →
      d.totalUrls * (1 + attempts) < fuel + (state.urlIndex * (1 + attempts) + state.used) →
      ∃ sent' result, d.run fuel state sent = some (sent', result) ∧
        d.Settled attempts sent' result := by
  induction fuel with
  | zero =>
    intro state sent h hfuel
    have hnext : (state.urlIndex + 1) * (1 + attempts) ≤ d.totalUrls * (1 + attempts) :=
      Nat.mul_le_mul_right _ h.inRange
    have hused := h.used_le
    rw [Nat.succ_mul] at hnext
    omega
  | succ fuel ih =>
    intro state sent h hfuel
    have hnext : (state.urlIndex + 1) * (1 + attempts) ≤ d.totalUrls * (1 + attempts) :=
      Nat.mul_le_mul_right _ h.inRange
    rw [Nat.succ_mul] at hnext
    have hused := h.used_le
    have hlength := h.length_le
    unfold run
    rcases pass_cases hattempts sent h.inRange with ⟨hnone, hpass⟩ | ⟨url, hurl, hcases⟩
    · -- without a URL here there is none at any index, so nothing was sent
      rw [hpass]
      have hempty : sent = [] := by
        rw [List.eq_nil_iff_forall_not_mem]
        intro send hsend
        have hboth := hsame send.urlIndex state.urlIndex
        rw [h.built send hsend, hnone] at hboth
        cases hboth
      subst hempty
      exact ⟨_, _, rfl, Nat.zero_le _, List.Pairwise.nil, by simp, by simp, by simp⟩
    · rcases hcases with ⟨failed, hleft, hpass⟩ | ⟨spent, failed, hspent, hmore, hpass⟩ | hpass
      · rw [hpass]
        obtain ⟨hcount, hprogress⟩ := h.retried hurl hleft failed
        refine ih _ _ hprogress ?_
        rw [hcount]
        show _ < fuel + (state.urlIndex * (1 + attempts) + (state.used + 1))
        omega
      · rw [hpass]
        obtain ⟨hcount, hprogress⟩ := h.advanced hurl hspent hmore failed
        refine ih _ _ hprogress ?_
        rw [hcount]
        show _ < fuel + ((state.urlIndex + 1) * (1 + attempts) + 0)
        rw [Nat.succ_mul]
        omega
      · rw [hpass]
        refine ⟨_, _, rfl, ?_, h.pairwise_snoc url, fun send hsend ↦ ?_,
          fun send hsend ↦ (h.forall_snoc hurl send hsend).2, fun send hsend ↦ ?_⟩
        · rw [List.length_append, List.length_singleton]
          omega
        · exact Nat.lt_of_le_of_lt (h.forall_snoc hurl send hsend).1 h.inRange
        · rw [List.getLast?_concat, Option.mem_some_iff] at hsend
          rw [← hsend]

private theorem run_add {fuel : Nat} (more : Nat) :
    ∀ {state : LoopState} {sent : List Send} {settled},
      d.run fuel state sent = some settled → d.run (fuel + more) state sent = some settled := by
  induction fuel with
  | zero =>
    intro _ _ _ h
    cases h
  | succ fuel ih =>
    intro state sent settled h
    rw [Nat.succ_add]
    unfold run at h ⊢
    cases hpass : d.pass state sent with
    | again state' sent' =>
      rw [hpass] at h
      exact ih h
    | returned sent' result =>
      rw [hpass] at h
      exact h

end Dispatch

/-- The path or the suffix that a prepared request puts on its URL: a path replaces the slashes
at the end, `executor.rs:520–525`. -/
structure PreparedUrl where
  chatPath : Option String
  urlSuffix : String

namespace PreparedUrl

/-- The URL of a request. -/
def on (prepared : PreparedUrl) (url : String) : String :=
  match prepared.chatPath with
  | some path => trimEndSlashes url ++ path
  | none => url ++ prepared.urlSuffix

end PreparedUrl

namespace TransportTables

variable (tables : TransportTables)

/-- The dispatch of a request to a provider. -/
def dispatch (provider : String) (credentials : EndpointCredentials) (prepared : PreparedUrl)
    (respond : List Send → Except SendError Answer) : Dispatch where
  provider := provider
  totalUrls := tables.fallbackCount provider
  buildUrl urlIndex := (tables.buildUrl provider credentials urlIndex).map prepared.on
  resolveRetryEntry := tables.resolveRetryEntry provider
  advancesOnStatus := tables.advancesOnStatus provider
  respond := respond

/-- `Executor::execute`, `executor.rs:491`, in at most `fuel` passes of its loop, on a request
whose body serialises or fails to. -/
def execute (provider : String) (credentials : EndpointCredentials) (prepared : PreparedUrl)
    (respond : List Send → Except SendError Answer) (payload : Except String Unit) (fuel : Nat) :
    Option (List Send × Except ExecuteError ExecuteOutcome) :=
  match payload with
  | .error message => some ([], .error (.serialize message))
  | .ok () => (tables.dispatch provider credentials prepared respond).run fuel ⟨∅, none, 0⟩ []

end TransportTables

end NullRouter.Runtime
