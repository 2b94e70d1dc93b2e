import NullRouter.State.Identity

/-!
# The users of an install

The routes under `/api/users` (`services/state-actix/src/users/routes.rs`) over the operations of
the store (`users/store.rs`): runs of requests, and whether they leave an enabled administrator.
-/

namespace NullRouter.State

open NullRouter.Base

/-! ## The routes -/

/-- `Role::parse`, `users/model.rs:50`. -/
def Role.parse (value : String) : Option Role :=
  let name := (trim value).map Char.toLower
  if name = "viewer" then some .viewer
  else if name = "operator" then some .operator
  else if name = "admin" then some .admin
  else none

/-- `UserError::message`, `users/model.rs:118`. -/
def UserError.message : UserError → String
  | .usernameTaken => "That username is already taken"
  | .usernameInvalid =>
    "A username must be 2-64 characters of letters, digits, dot, dash or underscore"
  | .passwordTooShort => "A password must be at least 12 characters"
  | .roleInvalid => "Role must be admin, operator or viewer"
  | .notFound => "User not found"
  | .wouldOrphanAdmin => "This is the last enabled admin; promote another account first"
  | .hashFailed => "The password could not be hashed"

/-- `status_for`, `users/routes.rs:236`. -/
def UserError.status : UserError → Nat
  | .notFound => 404
  | .usernameTaken | .wouldOrphanAdmin => 409
  | .hashFailed => 500
  | .usernameInvalid | .passwordTooShort | .roleInvalid => 400

/-- What a route answers: a status, and the message of a refusal. -/
structure UserReply where
  status : Nat
  error : Option String := none
  deriving DecidableEq

/-- `refuse` of an error of the store. -/
def UserError.reply (e : UserError) : UserReply := ⟨e.status, some e.message⟩

/-- `CreateUserRequest`, `users/routes.rs:63`. -/
structure CreateUserRequest where
  username : Option String := none
  password : Option String := none
  displayName : Option String := none
  email : Option String := none
  role : Option String := none

/-- `UpdateUserRequest`, `users/routes.rs:73`. -/
structure UpdateUserRequest where
  displayName : Option String := none
  email : Option String := none
  role : Option String := none
  isActive : Option Bool := none
  password : Option String := none

/-- A request that may change the users; a body that is not of the route's form is `none`. -/
inductive UserRequest where
  | create (body : Option CreateUserRequest)
  | update (id : String) (body : Option UpdateUserRequest)
  | delete (id : String)

namespace UserRequest

/-- The operation a route calls, or its refusal; `create_user` (`users/routes.rs:131`),
`update_user` (`users/routes.rs:162`) and `delete_user` (`users/routes.rs:190`). -/
def operation (bcrypt : Option String) : UserRequest → Except UserReply Operation
  | .create none | .update _ none => .error ⟨400, some "Invalid JSON body"⟩
  | .create (some body) =>
    match body.username, body.password with
    | some username, some password =>
      match body.role.elim (some Role.operator) Role.parse with
      | none => .error UserError.roleInvalid.reply
      | some role =>
        .ok (.createUser username password body.displayName body.email role bcrypt)
    | _, _ => .error ⟨400, some "A username and password are required"⟩
  | .update id (some body) =>
    match body.role.map Role.parse with
    | some none => .error UserError.roleInvalid.reply
    | role =>
      .ok (.updateUser id ⟨body.displayName, body.email, role.join, body.isActive, body.password⟩
        bcrypt)
  | .delete id => .ok (.deleteUser id)

/-- The status of a request that goes through. -/
def success : UserRequest → Nat
  | .create _ => 201
  | .update _ _ | .delete _ => 200

end UserRequest

/-- A request as it is served: what bcrypt answers, the clock readings and the disk. -/
structure UserCall where
  request : UserRequest
  bcrypt : Option String
  now : Nat
  mint : Nat
  io : Option StoreError

namespace StateStore

/-- The reply to a request, with the store it leaves. -/
def serve (s : StateStore) (c : UserCall) : UserReply × StateStore :=
  match c.request.operation c.bcrypt with
  | .error reply => (reply, s)
  | .ok op =>
    let performed := s.perform op c.now c.mint c.io
    (match performed.1 with
      | .ok () => ⟨c.request.success, none⟩
      | .error (.user e) => e.reply
      | .error _ => ⟨500, some "State service error"⟩, performed.2)

/-- A request as a labelled step of the store. -/
def ServeStep (s : StateStore) (c : UserCall) (s' : StateStore) : Prop := s' = (s.serve c).2

end StateStore

/-! ## What an operation does to the users -/

/-- An enabled administrator. -/
def UserRecord.isAdmin (u : UserRecord) : Bool := u.role == .admin && u.isActive

namespace StateSnapshot

variable {s s' : StateSnapshot}

theorem otherAdmin_iff {id : String} :
    s.otherAdmin id = true ↔ ∃ u ∈ s.users, u.id ≠ id ∧ u.isAdmin = true := by
  simp [otherAdmin, UserRecord.isAdmin, and_assoc]

/-- A user is created at the end of the table, enabled, in the role asked for and under a name
that no other user has. -/
theorem createUser_users {username hash : String} {displayName email : Option String} {role : Role}
    {now mint : Nat} (h : s.createUser username hash displayName email role now mint = .ok s') :
    (∀ u ∈ s.users, u.username ≠ username) ∧
      ∃ record : UserRecord, s'.users = s.users ++ [record] ∧
        record.id = nextId "user" mint s.users.length ∧ record.username = username ∧
        record.role = role ∧ record.isActive = true := by
  unfold createUser at h
  split at h
  · cases h
  · next hnew =>
    cases h
    refine ⟨fun u hu hname ↦ hnew ?_, _, rfl, rfl, rfl, rfl, rfl⟩
    exact List.any_eq_true.mpr ⟨u, hu, beq_iff_eq.mpr hname⟩

/-- The guard of an edit: the edited user would be no enabled administrator, and no other is. -/
theorem losingAdmin_eq {id : String} {u : UserRecord} (hfind : s.users.find? (·.id == id) = some u)
    (hu : u.isAdmin = true) (update : UserUpdate) (hash : Option String) (now : Nat) :
    s.losingAdmin id update = (!(u.edit now update hash).isAdmin && !s.otherAdmin id) := by
  simp only [UserRecord.isAdmin, Bool.and_eq_true, beq_iff_eq] at hu
  rw [losingAdmin, hfind]
  simp only [hu.1, hu.2, UserRecord.isAdmin, UserRecord.edit]
  cases update.role with
  | none => cases update.isActive <;> simp
  | some role => cases update.isActive <;> cases role <;> simp

/-- An edit that goes through leaves an enabled administrator where there was one. -/
theorem updateUser_admin {id : String} {update : UserUpdate} {hash : Option String} {now : Nat}
    (h : s.updateUser id update hash now = .ok s') (hadmin : ∃ u ∈ s.users, u.isAdmin = true) :
    ∃ u ∈ s'.users, u.isAdmin = true := by
  unfold updateUser at h
  split at h
  · cases h
  · next hkeeps =>
    split at h
    · cases h
    · next users hu =>
      cases h
      obtain ⟨u, hmem, hu_admin⟩ := hadmin
      rcases mem_updateFirst hu hmem with hstays | ⟨hfind, hedited⟩
      · exact ⟨u, hstays, hu_admin⟩
      · by_cases hstill : (u.edit now update hash).isAdmin = true
        · exact ⟨_, hedited, hstill⟩
        · -- the guard let the edit pass, so another user is an enabled administrator
          have hother : s.otherAdmin id = true := by
            rw [losingAdmin_eq hfind hu_admin update hash now] at hkeeps
            simpa [hstill] using hkeeps
          obtain ⟨v, hv, hne, hv_admin⟩ := otherAdmin_iff.mp hother
          rcases mem_updateFirst hu hv with hstays | ⟨hfound, -⟩
          · exact ⟨v, hstays, hv_admin⟩
          · exact absurd (by simpa using List.find?_some hfound) hne

/-- A removal that goes through leaves an enabled administrator where there was one, if the ids
are distinct. -/
theorem deleteUser_admin {id : String} (h : s.deleteUser id = .ok s')
    (hids : DistinctBy UserRecord.id s.users) (hadmin : ∃ u ∈ s.users, u.isAdmin = true) :
    ∃ u ∈ s'.users, u.isAdmin = true := by
  unfold deleteUser at h
  split at h
  · cases h
  · next target hfind =>
    split at h
    · cases h
    · next hguard =>
      cases h
      have hkept {v : UserRecord} (hv : v ∈ s.users) (hne : v.id ≠ id) :
          v ∈ s.users.filter (·.id != id) := List.mem_filter.mpr ⟨hv, by simpa using hne⟩
      obtain ⟨u, hmem, hu_admin⟩ := hadmin
      by_cases hid : u.id = id
      · have htarget : target = u := by
          have hsame : target.id = u.id := by
            rw [hid]
            simpa using List.find?_some hfind
          exact List.inj_on_of_nodup_map hids (List.mem_of_find?_eq_some hfind) hmem hsame
        subst htarget
        have hother : s.otherAdmin id = true := by
          simp only [UserRecord.isAdmin, Bool.and_eq_true, beq_iff_eq] at hu_admin
          simpa [hu_admin.1, hu_admin.2] using hguard
        obtain ⟨v, hv, hne, hv_admin⟩ := otherAdmin_iff.mp hother
        exact ⟨v, hkept hv hne, hv_admin⟩
      · exact ⟨u, hkept hmem hid, hu_admin⟩

/-! ## Runs -/

/-- The names of the users are distinct, each in its normal form. -/
structure Named (s : StateSnapshot) : Prop where
  usernames : DistinctBy UserRecord.username s.users
  normal : ∀ u ∈ s.users, normaliseUsername u.username = .ok u.username

/-- The ids of the users are distinct, and some user is an enabled administrator if there is any
user. -/
structure Administrable (s : StateSnapshot) : Prop where
  ids : DistinctBy UserRecord.id s.users
  admin : s.users ≠ [] → ∃ u ∈ s.users, u.isAdmin = true

/-- The administrators of a snapshot that has users. -/
theorem Administrable.of_mem (h : Administrable s) {u : UserRecord} (hu : u ∈ s.users) :
    ∃ u ∈ s.users, u.isAdmin = true := h.admin (List.ne_nil_of_mem hu)

end StateSnapshot

private theorem isWhitespace_of_valid {c : Char}
    (h : (c.isAlphanum || c == '.' || c == '-' || c == '_') = true) : isWhitespace c = false := by
  simp only [Bool.or_eq_true, beq_iff_eq] at h
  rcases h with ((halnum | rfl) | rfl) | rfl
  · exact isWhitespace_of_isAlphanum halnum
  · decide
  · decide
  · decide

/-- A name in its normal form is its own. -/
theorem normaliseUsername_normal {raw name : String} (h : normaliseUsername raw = .ok name) :
    normaliseUsername name = .ok name := by
  unfold normaliseUsername at h
  simp only at h
  split at h
  · next hvalid =>
    cases h
    set name := (trim raw).map Char.toLower with hname
    have htrim : trim name = name := by
      rw [trim, trimChars_eq_self fun c hc ↦
        isWhitespace_of_valid (List.all_eq_true.mp hvalid.2.2 c hc), String.ofList_toList]
    have hlower : name.map Char.toLower = name := by
      rw [hname, ← String.toList_inj]
      simp [String.toList_map, toLower_toLower]
    rw [normaliseUsername, htrim, hlower, if_pos hvalid]
  · cases h

namespace StateStore

variable {s s' : StateStore} {c : UserCall}

/-- A request leaves the snapshot, or it is one of three and goes through. -/
theorem serve_snapshot (s : StateStore) (c : UserCall) :
    (s.serve c).2.snapshot = s.snapshot ∨ ∃ op, c.request.operation c.bcrypt = .ok op ∧
      (s.serve c).2.snapshot = (op.closure c.now c.mint s.snapshot).2 := by
  unfold serve
  cases hop : c.request.operation c.bcrypt with
  | error reply => exact .inl rfl
  | ok op =>
    rcases s.perform_snapshot op c.now c.mint c.io with h | h
    · exact .inl h
    · exact .inr ⟨op, rfl, h⟩

/-- The three operations of the routes. -/
theorem operation_cases {request : UserRequest} {bcrypt : Option String} {op : Operation}
    (h : request.operation bcrypt = .ok op) :
    (∃ username password displayName email role,
        op = .createUser username password displayName email role bcrypt) ∨
      (∃ id update, op = .updateUser id update bcrypt) ∨ ∃ id, op = .deleteUser id := by
  cases request with
  | create body =>
    cases body with
    | none => cases h
    | some body =>
      simp only [UserRequest.operation] at h
      split at h
      · split at h
        · cases h
        · cases h
          exact .inl ⟨_, _, _, _, _, rfl⟩
      · cases h
  | update id body =>
    cases body with
    | none => cases h
    | some body =>
      simp only [UserRequest.operation] at h
      split at h
      · cases h
      · cases h
        exact .inr (.inl ⟨_, _, rfl⟩)
  | delete id =>
    cases h
    exact .inr (.inr ⟨_, rfl⟩)

/-- A request creates a user of a role: the name and the password pass, and no user has the
name. -/
def Creates (s : StateStore) (c : UserCall) (role : Role) : Prop :=
  ∃ username password displayName email,
    c.request.operation c.bcrypt =
        .ok (.createUser username password displayName email role c.bcrypt) ∧
      (Operation.createUser username password displayName email role c.bcrypt).precheck = none ∧
      ∀ name, normaliseUsername username = .ok name →
        ∀ u ∈ s.snapshot.users, u.username ≠ name

/-- The first user that a request creates is an administrator, and the id of a new user is one
that no user has. -/
def Careful (s : StateStore) (c : UserCall) : Prop :=
  ∀ role, s.Creates c role → (s.snapshot.users = [] → role = .admin) ∧
    ∀ u ∈ s.snapshot.users, u.id ≠ nextId "user" c.mint s.snapshot.users.length

/-- What a request does to the users: nothing, or it adds one, changes one or removes some. -/
inductive Changes (s : StateStore) (c : UserCall) (users : List UserRecord) : Prop where
  | nothing (h : users = s.snapshot.users)
  | creates (record : UserRecord) (hcreates : s.Creates c record.role)
      (h : users = s.snapshot.users ++ [record])
      (hid : record.id = nextId "user" c.mint s.snapshot.users.length)
      (hname : ∀ u ∈ s.snapshot.users, u.username ≠ record.username)
      (hnormal : normaliseUsername record.username = .ok record.username)
      (hactive : record.isActive = true)
  | updates (id : String) (update : UserUpdate) (hash : Option String) (t : StateSnapshot)
      (h : s.snapshot.updateUser id update hash c.now = .ok t) (ht : users = t.users)
  | deletes (id : String) (t : StateSnapshot) (h : s.snapshot.deleteUser id = .ok t)
      (ht : users = t.users)

/-- Each request does one of these. -/
theorem changes_of_step (h : s.ServeStep c s') : s.Changes c s'.snapshot.users := by
  subst h
  rcases s.serve_snapshot c with h | ⟨op, hop, h⟩
  · exact .nothing (by rw [h])
  rw [h]
  rcases operation_cases hop with ⟨username, password, displayName, email, role, rfl⟩ |
    ⟨id, update, rfl⟩ | ⟨id, rfl⟩
  · simp only [Operation.closure]
    split
    · next name hash hn hh =>
      cases hr : s.snapshot.createUser name hash displayName email role c.now c.mint with
      | error e => exact .nothing rfl
      | ok t =>
        obtain ⟨hnew, record, husers, hid, hname, hrole, hactive⟩ :=
          StateSnapshot.createUser_users hr
        refine .creates record ?_ husers hid (by rwa [hname]) ?_ hactive
        · rw [hrole]
          refine ⟨username, password, displayName, email, hop, ?_, ?_⟩
          · simp only [Operation.precheck, hn, hh]
          · intro other hother
            rw [hn] at hother
            cases hother
            exact hnew
        · rw [hname]
          exact normaliseUsername_normal hn
    · exact .nothing rfl
  · simp only [Operation.closure]
    cases hr : s.snapshot.updateUser id update _ c.now with
    | error e => exact .nothing rfl
    | ok t => exact .updates id update _ t hr rfl
  · simp only [Operation.closure]
    cases hr : s.snapshot.deleteUser id with
    | error e => exact .nothing rfl
    | ok t => exact .deletes id t hr rfl

/-- An edit changes one record. -/
theorem updateUser_users {s t : StateSnapshot} {id : String} {update : UserUpdate}
    {hash : Option String} {now : Nat} (h : s.updateUser id update hash now = .ok t) :
    updateFirst (·.id == id) (·.edit now update hash) s.users = some t.users := by
  unfold StateSnapshot.updateUser at h
  split at h
  · cases h
  · split at h
    · cases h
    · next users hu =>
      cases h
      exact hu

/-- A removal takes out every record of the id. -/
theorem deleteUser_users {s t : StateSnapshot} {id : String} (h : s.deleteUser id = .ok t) :
    t.users = s.users.filter (·.id != id) := by
  unfold StateSnapshot.deleteUser at h
  split at h
  · cases h
  · split at h
    · cases h
    · cases h
      rfl

/-- Whatever is asked, the names stay distinct and in normal form. -/
theorem step_named (hs : s.snapshot.Named) (h : s.ServeStep c s') : s'.snapshot.Named := by
  rcases changes_of_step h with hsame | ⟨record, -, husers, -, hname, hnormal, -⟩ |
    ⟨id, update, hash, t, hupdate, ht⟩ | ⟨id, t, hdelete, ht⟩
  · exact ⟨hsame ▸ hs.usernames, hsame ▸ hs.normal⟩
  · refine ⟨?_, ?_⟩
    · rw [husers]
      exact (hs.usernames.append_iff record).mpr hname
    · rw [husers]
      intro u hu
      rcases List.mem_append.mp hu with hu | hu
      · exact hs.normal u hu
      · rw [List.mem_singleton.mp hu]
        exact hnormal
  · have hu := updateUser_users hupdate
    have hmap : t.users.map (·.username) = s.snapshot.users.map (·.username) := by
      refine map_updateFirst ?_ hu
      exact fun _ _ _ ↦ rfl
    refine ⟨ht ▸ hs.usernames.of_updateFirst hu fun _ ↦ rfl, ?_⟩
    rw [ht]
    intro u hmem
    have hold : u.username ∈ s.snapshot.users.map (·.username) := by
      rw [← hmap]
      exact List.mem_map_of_mem hmem
    obtain ⟨v, hv, hvu⟩ := List.mem_map.mp hold
    rw [← hvu]
    exact hs.normal v hv
  · rw [deleteUser_users hdelete] at ht
    refine ⟨ht ▸ hs.usernames.filter _, ?_⟩
    rw [ht]
    exact fun u hu ↦ hs.normal u (List.mem_of_mem_filter hu)

/-- A careful request leaves an enabled administrator if it leaves a user. -/
theorem step_administrable (hs : s.snapshot.Administrable) (hc : s.Careful c)
    (h : s.ServeStep c s') : s'.snapshot.Administrable := by
  rcases changes_of_step h with hsame | ⟨record, hcreates, husers, hid, -, -, hactive⟩ |
    ⟨id, update, hash, t, hupdate, ht⟩ | ⟨id, t, hdelete, ht⟩
  · exact ⟨hsame ▸ hs.ids, hsame ▸ hs.admin⟩
  · obtain ⟨hfirst, hfresh⟩ := hc record.role hcreates
    refine ⟨?_, fun _ ↦ ?_⟩
    · rw [husers]
      exact (hs.ids.append_iff record).mpr (by rwa [hid])
    · rw [husers]
      cases hnone : s.snapshot.users with
      | nil =>
        have hadmin : record.isAdmin = true := by
          rw [UserRecord.isAdmin, hfirst hnone, hactive]
          rfl
        exact ⟨record, List.mem_singleton.mpr rfl, hadmin⟩
      | cons first rest =>
        have hmem : first ∈ s.snapshot.users := by rw [hnone]; exact List.mem_cons_self
        obtain ⟨u, hu, hadmin⟩ := hs.of_mem hmem
        exact ⟨u, by rw [← hnone]; exact List.mem_append_left _ hu, hadmin⟩
  · have hu := updateUser_users hupdate
    refine ⟨ht ▸ hs.ids.of_updateFirst hu fun _ ↦ rfl, fun _ ↦ ?_⟩
    rw [ht]
    refine StateSnapshot.updateUser_admin hupdate (hs.admin fun hnone ↦ ?_)
    rw [hnone] at hu
    cases hu
  · refine ⟨?_, fun hleft ↦ ?_⟩
    · rw [ht, deleteUser_users hdelete]
      exact hs.ids.filter _
    · rw [ht] at hleft ⊢
      rw [deleteUser_users hdelete] at hleft
      refine StateSnapshot.deleteUser_admin hdelete hs.ids (hs.admin fun hnone ↦ hleft ?_)
      rw [hnone]
      rfl

/-- In every run of requests from a store with no users the names of the users are distinct, each
in its normal form. -/
theorem usernames_distinct {s₀ : StateStore} {cs : List UserCall}
    (h : Run ServeStep s₀ cs s) (h₀ : s₀.snapshot.users = []) : s.snapshot.Named :=
  h.invariant (·.snapshot.Named) (fun _ _ _ hs hstep ↦ step_named hs hstep)
    ⟨by rw [h₀]; exact List.nodup_nil, by rw [h₀]; exact nofun⟩

/-- In every run of requests from a store with no users, where the first user created is always an
administrator and each id minted is one that no user has: the names of the users are distinct, each
in its normal form, and some user is an enabled administrator if there is any user. -/
theorem administrable_of_careful {s₀ : StateStore} {cs : List UserCall}
    (h : Run (Guarded Careful ServeStep) s₀ cs s) (h₀ : s₀.snapshot.users = []) :
    s.snapshot.Named ∧
      (s.snapshot.users ≠ [] → ∃ u ∈ s.snapshot.users, u.role = .admin ∧ u.isActive = true) := by
  have hadmin : s.snapshot.Administrable := h.invariant (·.snapshot.Administrable)
    (fun _ _ _ hs hstep ↦ step_administrable hs hstep.1 hstep.2)
    ⟨by rw [h₀]; exact List.nodup_nil, fun hne ↦ absurd h₀ hne⟩
  refine ⟨usernames_distinct h.of_guarded h₀, fun hne ↦ ?_⟩
  obtain ⟨u, hu, hu_admin⟩ := hadmin.admin hne
  exact ⟨u, hu, by simpa [UserRecord.isAdmin] using hu_admin⟩

/-- A request that creates a user with a name, a password and perhaps a role. -/
def creating (username : String) (role : Option String) (clock : Nat) : UserCall :=
  ⟨.create (some { username, password := some "correct-horse", role }), some "$2b$12$hash", clock,
    clock, none⟩

/-- The rule for an administrator and then a user without a role, in a store in memory. -/
theorem administrable_of_careful_admin : ∃ s, Run (Guarded Careful ServeStep) empty
    [creating "alice" "admin" 5, creating "bob" none 6] s ∧
      s.snapshot.users.map (fun u ↦ (u.username, u.role)) =
        [("alice", .admin), ("bob", .operator)] ∧
      ∃ u ∈ s.snapshot.users, u.role = .admin ∧ u.isActive = true := by
  have hcareful (s : StateStore) (username : String) (role : Option String) (r : Role) (clock : Nat)
      (hrole : role.elim (some .operator) Role.parse = some r)
      (hfirst : s.snapshot.users = [] → r = .admin)
      (hfresh : ∀ u ∈ s.snapshot.users, u.id ≠ nextId "user" clock s.snapshot.users.length) :
      s.Careful (creating username role clock) := by
    rintro asked ⟨_, _, _, _, hop, -⟩
    simp only [creating, UserRequest.operation, hrole] at hop
    cases hop
    exact ⟨hfirst, hfresh⟩
  have run : Run (Guarded Careful ServeStep) empty
      [creating "alice" "admin" 5, creating "bob" none 6] _ :=
    .cons ⟨hcareful _ "alice" "admin" .admin 5 (by decide +kernel) (fun _ ↦ rfl)
      (by decide +kernel), rfl⟩ <|
    .cons ⟨hcareful _ "bob" none .operator 6 (by decide +kernel) (by decide +kernel)
      (by decide +kernel), rfl⟩ <| .nil _
  exact ⟨_, run, by decide +kernel, (administrable_of_careful run rfl).2 (by decide +kernel)⟩

/-- The first user, created without a role, is an operator: the shared password is off and no
administrator is there. -/
theorem first_user_is_operator :
    ¬ ∀ (s₀ s : StateStore) (cs : List UserCall), Run ServeStep s₀ cs s →
      s₀.snapshot.users = [] → s.snapshot.Named ∧
        (s.snapshot.users ≠ [] →
          ∃ u ∈ s.snapshot.users, u.role = .admin ∧ u.isActive = true) := by
  intro hall
  have hadmin := (hall empty _ [creating "bob" none 5] (.single rfl) rfl).2
  exact absurd (hadmin (by decide +kernel)) (by decide +kernel)

end StateStore
end NullRouter.State
