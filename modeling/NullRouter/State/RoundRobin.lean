import NullRouter.State.Cooldown

/-!
# Sticky round-robin over a run

The turns that `pick_round_robin`, `services/state-actix/src/store.rs:1366–1431`, gives the
accounts over any run of selections in which the available accounts stay the same. A turn's place
is read off the use stamps, so the runs in which the rotation is fair are those whose stamps grow
between turns.
-/

namespace NullRouter.State

open NullRouter.Base

/-- The two readings of the clock in a selection. -/
structure Reading where
  clock : Nat
  stamp : Nat

namespace Connections

/-- The use stamp of the account at a position. -/
def usedAt (s : Connections) (i : Nat) : Option String := s[i]?.bind (·.lastUsedAt)

/-- The use count of the account at a position. -/
def useCount (s : Connections) (i : Nat) : Nat := s[i]?.elim 0 (·.consecutiveUseCount)

/-- Whether the account at a position was used before a stamp, or never. -/
def UsedBefore (s : Connections) (i : Nat) (now : String) : Prop :=
  ∀ used, s.usedAt i = some used → compare used now = .lt

/-- A stamp is later than that of every available account; but the one account that carries the
same stamp may have uses left. -/
def StampAdvances (s : Connections) (available : List Nat) (stickyLimit : Nat) (now : String) :
    Prop :=
  ∀ i ∈ available, s.UsedBefore i now ∨
    s.usedAt i = some now ∧ s.useCount i < stickyLimit ∧
      ∀ j ∈ available, j ≠ i → s.UsedBefore j now

instance (s : Connections) (i : Nat) (now : String) : Decidable (s.UsedBefore i now) :=
  inferInstanceAs (Decidable (∀ used ∈ s.usedAt i, compare used now = .lt))

instance (s : Connections) (available : List Nat) (stickyLimit : Nat) (now : String) :
    Decidable (s.StampAdvances available stickyLimit now) :=
  inferInstanceAs (Decidable (∀ i ∈ available, s.UsedBefore i now ∨
    s.usedAt i = some now ∧ s.useCount i < stickyLimit ∧
      ∀ j ∈ available, j ≠ i → s.UsedBefore j now))

/-- The table before each selection of a run. -/
def tableAt (s : Connections) (request : SelectConnectionRequest) (readings : Nat → Reading) :
    Nat → Connections
  | 0 => s
  | k + 1 => ((tableAt s request readings k).selectConnection request (readings k).clock
      (readings k).stamp).1

section Run

variable (s : Connections) (request : SelectConnectionRequest) (readings : Nat → Reading)
  (available : List Nat)

/-- The position that a selection of a run chooses. -/
def pickedAt (k : Nat) : Nat :=
  ((s.tableAt request readings k).choose request available (timestamp (readings k).stamp)).2

/-- Whether a selection of a run begins a turn: no account is stayed on. -/
def BeginsTurn (k : Nat) : Prop :=
  (s.tableAt request readings k).stickyPick available request.stickyLimit = none

/-- A run of so many round-robin selections without a preferred account, with the same accounts
available throughout. -/
structure SteadyRun (length : Nat) : Prop where
  strategy : request.strategy = .roundRobin
  preferred : request.preferred = none
  limit_pos : 1 ≤ request.stickyLimit
  /-- The limit is a `u32`. -/
  limit_le : request.stickyLimit ≤ u32Max
  nonempty : available ≠ []
  available_eq : ∀ k < length, (s.tableAt request readings k).available request
    (nowMillis (readings k).clock) = available

/-- What a fair run of selections does: each selects the account at the position it chooses; an
account keeps its turn for as many selections as the limit says, and the turns that follow the
beginning of one, as many as there are accounts, are one of each. -/
structure FairRun (length : Nat) : Prop where
  selects : ∀ k < length, pickedAt s request readings available k ∈ available ∧
    ∃ c, ((s.tableAt request readings k).selectConnection request (readings k).clock
        (readings k).stamp).2 = .selected c ∧
      (s.tableAt request readings (k + 1))[pickedAt s request readings available k]? = some c
  changes : ∀ k, k + 1 < length →
    pickedAt s request readings available (k + 1) ≠ pickedAt s request readings available k →
    BeginsTurn s request readings available (k + 1)
  keeps : ∀ k < length, BeginsTurn s request readings available k →
    ∀ m < request.stickyLimit, k + m < length →
      pickedAt s request readings available (k + m) = pickedAt s request readings available k
  ends : ∀ k, k + request.stickyLimit < length → BeginsTurn s request readings available k →
    BeginsTurn s request readings available (k + request.stickyLimit)
  windows : ∀ k, k + available.length * request.stickyLimit ≤ length →
    BeginsTurn s request readings available k → ∀ i ∈ available,
      ((List.range (available.length * request.stickyLimit)).map fun j ↦
        pickedAt s request readings available (k + j)).count i = request.stickyLimit

end Run

variable {s : Connections} {available : List Nat} {stickyLimit : Nat} {now : String}

/-- The account at a position was used later than every other available one. -/
private def Leads (s : Connections) (available : List Nat) (i : Nat) (now : String) : Prop :=
  i ∈ available ∧ s.usedAt i = some now ∧ ∀ j ∈ available, j ≠ i → s.UsedBefore j now

private theorem isSome_lastUsedAt (s : Connections) (i : Nat) :
    s[i]?.any (·.lastUsedAt.isSome) = (s.usedAt i).isSome := by
  unfold usedAt
  cases s[i]? <;> rfl

private theorem stickyPick_of_leads {i : Nat} (h : s.Leads available i now) :
    s.stickyPick available stickyLimit =
      if s.useCount i < stickyLimit then some i else none := by
  obtain ⟨hmem, hused, hothers⟩ := h
  have hi : i ∈ available.filter fun j ↦ s[j]?.any (·.lastUsedAt.isSome) := by
    rw [List.mem_filter, isSome_lastUsedAt, hused]
    exact ⟨hmem, rfl⟩
  have hmost : maxBy (fun j k ↦ compare ((s.usedAt j).getD "") ((s.usedAt k).getD ""))
      (available.filter fun j ↦ s[j]?.any (·.lastUsedAt.isSome)) = some i := by
    have hsome : (maxBy (fun j k ↦ compare ((s.usedAt j).getD "") ((s.usedAt k).getD ""))
        (available.filter fun j ↦ s[j]?.any (·.lastUsedAt.isSome))).isSome = true :=
      maxBy_isSome (List.ne_nil_of_mem hi)
    obtain ⟨most, hmost⟩ := Option.isSome_iff_exists.mp hsome
    rw [hmost, maxBy_of_gt (p := (· = i)) ⟨i, hi, rfl⟩ ?_ hmost]
    intro j hj k hk hji hki
    subst hji
    obtain ⟨hkmem, hkused⟩ := List.mem_filter.mp hk
    rw [isSome_lastUsedAt] at hkused
    obtain ⟨used, hused'⟩ := Option.isSome_iff_exists.mp hkused
    have hlt := hothers k hkmem hki used hused'
    rw [hused, hused', Option.getD_some, Option.getD_some]
    exact ⟨Std.OrientedCmp.gt_of_lt hlt, by rw [hlt]; exact nofun⟩
  have hcount : s[i]?.any (·.consecutiveUseCount < stickyLimit) =
      decide (s.useCount i < stickyLimit) := by
    unfold usedAt at hused
    unfold useCount
    cases hget : s[i]? with
    | none =>
      rw [hget] at hused
      cases hused
    | some c => rfl
  unfold stickyPick
  show Option.filter _ (maxBy (fun j k ↦ compare ((s.usedAt j).getD "") ((s.usedAt k).getD ""))
    _) = _
  rw [hmost, Option.filter_some, hcount]
  by_cases hlt : s.useCount i < stickyLimit
  · rw [if_pos hlt, decide_eq_true hlt, if_pos rfl]
  · rw [if_neg hlt, decide_eq_false hlt, if_neg Bool.false_ne_true]

private theorem pickRoundRobin_writes (s : Connections) (available : List Nat)
    (stickyLimit : Nat) (now : String) (i : Nat) :
    (s.pickRoundRobin available stickyLimit now).1.usedAt i =
      (if i = (s.pickRoundRobin available stickyLimit now).2 ∧ s[i]?.isSome then some now
        else s.usedAt i) ∧
    (s.pickRoundRobin available stickyLimit now).1.useCount i =
      if i = (s.pickRoundRobin available stickyLimit now).2 ∧ s[i]?.isSome then
        (if (s.stickyPick available stickyLimit).isSome then satAdd32 (s.useCount i) 1 else 1)
      else s.useCount i := by
  unfold pickRoundRobin usedAt useCount
  dsimp only
  rw [List.getElem?_modify]
  by_cases hi : (s.stickyPick available stickyLimit).getD ((minBy s.useOrder available).getD 0) = i
  · cases s[i]? with
    | none => simp
    | some c => simp [hi]
  · have hne : i ≠ (s.stickyPick available stickyLimit).getD
        ((minBy s.useOrder available).getD 0) := fun h ↦ hi h.symm
    simp [hi, hne]

private theorem pickRoundRobin_of_stay {i : Nat}
    (h : s.stickyPick available stickyLimit = some i) :
    (s.pickRoundRobin available stickyLimit now).2 = i := by
  unfold pickRoundRobin
  dsimp only
  rw [h, Option.getD_some]

private theorem leads_pickRoundRobin (hthere : ∀ i ∈ available, s[i]?.isSome)
    (hadvances : s.StampAdvances available stickyLimit now)
    (hmem : (s.pickRoundRobin available stickyLimit now).2 ∈ available) :
    (s.pickRoundRobin available stickyLimit now).1.Leads available
      (s.pickRoundRobin available stickyLimit now).2 now := by
  have hwrites := s.pickRoundRobin_writes available stickyLimit now
  refine ⟨hmem, ?_, fun j hj hjne used hused ↦ ?_⟩
  · rw [(hwrites _).1, if_pos ⟨rfl, hthere _ hmem⟩]
  · rw [(hwrites j).1, if_neg fun h ↦ hjne h.1] at hused
    rcases hadvances j hj with hbefore | ⟨hequal, hcount, hothers⟩
    · exact hbefore used hused
    · have hstay : s.stickyPick available stickyLimit = some j := by
        rw [stickyPick_of_leads ⟨hj, hequal, hothers⟩, if_pos hcount]
      exact absurd (pickRoundRobin_of_stay hstay).symm hjne

private theorem useOrder_of_usedBefore {i j : Nat} {used : String} (hi : s[i]?.isSome)
    (hj : s.usedAt j = some used) (hbefore : s.UsedBefore i used) :
    s.useOrder i j ≠ .gt ∧ s.useOrder j i = .gt := by
  obtain ⟨c, hc⟩ := Option.isSome_iff_exists.mp hi
  obtain ⟨d, hd, hdused⟩ := Option.bind_eq_some_iff.mp hj
  unfold useOrder
  simp only [hc, hd, Option.elim_some, hdused, Option.isSome_some, Option.getD_some]
  cases hcused : c.lastUsedAt with
  | none => exact ⟨nofun, rfl⟩
  | some earlier =>
    have hlt : compare earlier used = .lt := by
      refine hbefore earlier ?_
      unfold usedAt
      rw [hc, Option.bind_some, hcused]
    have hgt : compare used earlier = .gt := Std.OrientedCmp.gt_of_lt hlt
    simp [hlt, hgt]

private theorem pickRoundRobin_of_turn {later : List Nat}
    (hturn : s.stickyPick available stickyLimit = none)
    (hthere : ∀ i ∈ available, s[i]?.isSome)
    (hlater : ∀ i ∈ later, ∃ used, s.usedAt i = some used ∧
      ∀ j ∈ available, j ∉ later → s.UsedBefore j used)
    (hothers : ∃ i ∈ available, i ∉ later) :
    (s.pickRoundRobin available stickyLimit now).2 ∉ later := by
  have hsome : (minBy s.useOrder available).isSome = true :=
    minBy_isSome (List.ne_nil_of_mem hothers.choose_spec.1)
  obtain ⟨least, hleast⟩ := Option.isSome_iff_exists.mp hsome
  have hchosen : (s.pickRoundRobin available stickyLimit now).2 = least := by
    unfold pickRoundRobin
    dsimp only
    rw [hturn, hleast]
    rfl
  rw [hchosen]
  refine minBy_of_lt (p := (· ∉ later)) hothers (fun i hi j hj hinot hjnot ↦ ?_) hleast
  obtain ⟨used, hused, hbefore⟩ := hlater j (Decidable.not_not.mp hjnot)
  exact useOrder_of_usedBefore (hthere i hi) hused (hbefore i hi hinot)

section Run

variable {request : SelectConnectionRequest} {readings : Nat → Reading} {length : Nat}

private theorem SteadyRun.select (h : SteadyRun s request readings available length) {k : Nat}
    (hk : k < length) :
    let table := s.tableAt request readings k
    let picked := table.pickRoundRobin available request.stickyLimit
      (timestamp (readings k).stamp)
    s.tableAt request readings (k + 1) = picked.1 ∧
    pickedAt s request readings available k = picked.2 ∧ picked.2 ∈ available ∧
    (∀ i ∈ available, table[i]?.isSome) ∧
    (table.selectConnection request (readings k).clock (readings k).stamp).2 =
      picked.1[picked.2]?.elim .noCredentials .selected := by
  intro table picked
  have havailable := h.available_eq k hk
  have hchoose : table.choose request available (timestamp (readings k).stamp) = picked := by
    unfold choose
    rw [h.preferred, h.strategy]
    rfl
  have hmatching : table.matching request ≠ [] := by
    intro hempty
    refine h.nonempty ?_
    rw [← havailable]
    show (table.matching request).filter _ = []
    rw [hempty, List.filter_nil]
  have hselect : table.selectConnection request (readings k).clock (readings k).stamp =
      (picked.1, picked.1[picked.2]?.elim .noCredentials .selected) := by
    unfold selectConnection
    dsimp only
    rw [if_neg hmatching, havailable, if_neg h.nonempty, hchoose]
  refine ⟨?_, ?_, ?_, fun i hi ↦ ?_, ?_⟩
  · show (table.selectConnection request _ _).1 = _
    rw [hselect]
  · show (table.choose request available _).2 = _
    rw [hchoose]
  · rw [← hchoose]
    exact choose_mem h.nonempty
  · rw [← havailable] at hi
    obtain ⟨c, hc, -⟩ := mem_available hi
    rw [hc]
    rfl
  · rw [hselect]

/-- The stamps of a run advance at each selection. -/
def StampsAdvance (s : Connections) (request : SelectConnectionRequest)
    (readings : Nat → Reading) (available : List Nat) (length : Nat) : Prop :=
  ∀ k < length, (s.tableAt request readings k).StampAdvances available request.stickyLimit
    (timestamp (readings k).stamp)

private theorem SteadyRun.leads (h : SteadyRun s request readings available length)
    (hadvances : StampsAdvance s request readings available length) {k : Nat} (hk : k < length) :
    (s.tableAt request readings (k + 1)).Leads available
      (pickedAt s request readings available k) (timestamp (readings k).stamp) := by
  obtain ⟨htable, hpicked, hmem, hthere, -⟩ := h.select hk
  rw [htable, hpicked]
  exact leads_pickRoundRobin hthere (hadvances k hk) hmem

private theorem SteadyRun.changes (h : SteadyRun s request readings available length)
    (hadvances : StampsAdvance s request readings available length) {k : Nat}
    (hk : k + 1 < length) (hne : pickedAt s request readings available (k + 1) ≠
      pickedAt s request readings available k) :
    BeginsTurn s request readings available (k + 1) := by
  have hsticky := @stickyPick_of_leads _ _ request.stickyLimit _ _
    (h.leads hadvances (Nat.lt_of_succ_lt hk))
  unfold BeginsTurn
  rw [hsticky]
  split
  next hcount =>
    rw [if_pos hcount] at hsticky
    rw [(h.select hk).2.1] at hne
    exact absurd (pickRoundRobin_of_stay hsticky) hne
  next => rfl

/-- From the beginning of a turn its account is chosen again, its uses are counted, and no other
account is touched. -/
private theorem SteadyRun.turn (h : SteadyRun s request readings available length)
    (hadvances : StampsAdvance s request readings available length) {k : Nat}
    (hbegins : BeginsTurn s request readings available k) {m : Nat} (hm : m < request.stickyLimit)
    (hk : k + m < length) :
    pickedAt s request readings available (k + m) = pickedAt s request readings available k ∧
    (s.tableAt request readings (k + m + 1)).useCount (pickedAt s request readings available k) =
      m + 1 ∧
    ∀ j, j ≠ pickedAt s request readings available k →
      (s.tableAt request readings (k + m + 1)).usedAt j =
        (s.tableAt request readings k).usedAt j := by
  induction m with
  | zero =>
    have hk' : k < length := hk
    obtain ⟨htable, hpicked, hmem, hthere, -⟩ := h.select hk'
    have hwrites := (s.tableAt request readings k).pickRoundRobin_writes available
      request.stickyLimit (timestamp (readings k).stamp)
    refine ⟨rfl, ?_, fun j hj ↦ ?_⟩
    · show (s.tableAt request readings (k + 1)).useCount _ = 1
      rw [htable, hpicked, (hwrites _).2, if_pos ⟨rfl, hthere _ hmem⟩]
      unfold BeginsTurn at hbegins
      rw [hbegins]
      rfl
    · rw [hpicked] at hj
      show (s.tableAt request readings (k + 1)).usedAt j = _
      rw [htable, (hwrites j).1, if_neg fun hchosen ↦ hj hchosen.1]
  | succ m ih =>
    obtain ⟨hsame, hcount, hothers⟩ := ih (Nat.lt_of_succ_lt hm) (Nat.lt_of_succ_lt hk)
    obtain ⟨htable, hpicked, hmem, hthere, -⟩ := h.select hk
    have hwrites := (s.tableAt request readings (k + (m + 1))).pickRoundRobin_writes available
      request.stickyLimit (timestamp (readings (k + (m + 1))).stamp)
    have hsticky : (s.tableAt request readings (k + (m + 1))).stickyPick available
        request.stickyLimit = some (pickedAt s request readings available k) := by
      have hleads := h.leads hadvances (k := k + m) (Nat.lt_of_succ_lt hk)
      rw [hsame] at hleads
      rw [← Nat.add_assoc, stickyPick_of_leads hleads, hcount, if_pos hm]
    have hchosen : ((s.tableAt request readings (k + (m + 1))).pickRoundRobin available
        request.stickyLimit (timestamp (readings (k + (m + 1))).stamp)).2 =
          pickedAt s request readings available k := pickRoundRobin_of_stay hsticky
    rw [hchosen] at hmem hpicked
    simp only [hchosen] at hwrites
    refine ⟨hpicked, ?_, fun j hj ↦ ?_⟩
    · have hle := h.limit_le
      have hbefore : (s.tableAt request readings (k + (m + 1))).useCount
          (pickedAt s request readings available k) = m + 1 := hcount
      rw [htable, (hwrites _).2, if_pos ⟨rfl, hthere _ hmem⟩, hsticky, hbefore,
        if_pos Option.isSome_some]
      exact Nat.min_eq_left (by omega)
    · rw [htable, (hwrites j).1, if_neg fun heq ↦ hj heq.1]
      exact hothers j hj

private theorem SteadyRun.ends (h : SteadyRun s request readings available length)
    (hadvances : StampsAdvance s request readings available length) {k : Nat}
    (hbegins : BeginsTurn s request readings available k)
    (hk : k + request.stickyLimit ≤ length) :
    BeginsTurn s request readings available (k + request.stickyLimit) ∧
    (s.tableAt request readings (k + request.stickyLimit)).Leads available
      (pickedAt s request readings available k)
      (timestamp (readings (k + request.stickyLimit - 1)).stamp) ∧
    ∀ j, j ≠ pickedAt s request readings available k →
      (s.tableAt request readings (k + request.stickyLimit)).usedAt j =
        (s.tableAt request readings k).usedAt j := by
  obtain ⟨last, hlast⟩ := Nat.exists_eq_add_of_le' h.limit_pos
  obtain ⟨hsame, hcount, hothers⟩ := h.turn hadvances hbegins (m := last) (by omega) (by omega)
  have hleads := h.leads hadvances (k := k + last) (by omega)
  rw [hsame] at hleads
  rw [hlast]
  refine ⟨?_, hleads, hothers⟩
  unfold BeginsTurn
  rw [show k + (last + 1) = k + last + 1 from rfl, stickyPick_of_leads hleads, hcount, hlast,
    if_neg (Nat.lt_irrefl _)]

private theorem SteadyRun.nodup (h : SteadyRun s request readings available length)
    (hlength : 0 < length) : available.Nodup := by
  rw [← h.available_eq 0 hlength]
  refine List.Nodup.filter _ ?_
  refine List.Nodup.sublist (List.Sublist.map _ List.filter_sublist) ?_
  rw [List.zipIdx_map_snd]
  exact List.nodup_range' _

/-- The turns that follow the beginning of one are of different accounts, as long as there are
accounts left. -/
private theorem SteadyRun.turns (h : SteadyRun s request readings available length)
    (hadvances : StampsAdvance s request readings available length) {k : Nat}
    (hbegins : BeginsTurn s request readings available k) (turns : Nat)
    (hturns : turns ≤ available.length) (hk : k + turns * request.stickyLimit ≤ length) :
    ∃ order : List Nat, order.length = turns ∧ order.Nodup ∧ (∀ i ∈ order, i ∈ available) ∧
      ((List.range (turns * request.stickyLimit)).map fun j ↦
        pickedAt s request readings available (k + j)) =
          order.flatMap (List.replicate request.stickyLimit) ∧
      BeginsTurn s request readings available (k + turns * request.stickyLimit) ∧
      ∀ i ∈ order, ∃ used,
        (s.tableAt request readings (k + turns * request.stickyLimit)).usedAt i = some used ∧
        ∀ j ∈ available, j ∉ order →
          (s.tableAt request readings (k + turns * request.stickyLimit)).UsedBefore j used := by
  induction turns with
  | zero => exact ⟨[], rfl, List.nodup_nil, nofun, by simp, by simpa using hbegins, nofun⟩
  | succ turns ih =>
    have hpos := h.limit_pos
    rw [Nat.succ_mul] at hk
    obtain ⟨order, hlength, hnodup, hsubset, hpicks, hturn, hlater⟩ := ih (by omega) (by omega)
    obtain ⟨start, hstart⟩ : ∃ start, k + turns * request.stickyLimit = start := ⟨_, rfl⟩
    rw [hstart] at hturn hlater
    obtain ⟨-, hpicked, hmem, hthere, -⟩ := h.select (k := start) (by omega)
    obtain ⟨hends, hleads, hothers⟩ := h.ends hadvances hturn (by omega)
    -- fewer turns than accounts: some account has had none
    have hleft : ∃ i ∈ available, i ∉ order := by
      by_contra hall
      have hsub : available ⊆ order := fun i hi ↦ Decidable.not_not.mp fun hnot ↦ hall ⟨i, hi, hnot⟩
      have := (List.subperm_of_subset (h.nodup (by omega)) hsub).length_le
      omega
    have hnew : pickedAt s request readings available start ∉ order := by
      rw [hpicked]
      exact pickRoundRobin_of_turn hturn hthere hlater hleft
    obtain ⟨chosen, hchosen⟩ : ∃ chosen, pickedAt s request readings available start = chosen :=
      ⟨_, rfl⟩
    rw [← hpicked, hchosen] at hmem
    rw [hchosen] at hnew hleads hothers
    refine ⟨order ++ [chosen], ?_, ?_, ?_, ?_, ?_, ?_⟩
    · rw [List.length_append, hlength, List.length_singleton]
    · rw [List.nodup_append]
      refine ⟨hnodup, List.nodup_singleton _, fun i hi j hj ↦ ?_⟩
      rw [List.mem_singleton.mp hj]
      rintro rfl
      exact hnew hi
    · intro i hi
      rcases List.mem_append.mp hi with hi | hi
      · exact hsubset i hi
      · rw [List.mem_singleton.mp hi]
        exact hmem
    · rw [Nat.succ_mul, List.range_add, List.map_append, hpicks, List.flatMap_append,
        List.map_map]
      congr 1
      rw [List.flatMap_singleton]
      refine List.eq_replicate_iff.mpr ⟨by simp, fun i hi ↦ ?_⟩
      obtain ⟨m, hm, rfl⟩ := List.mem_map.mp hi
      rw [List.mem_range] at hm
      show pickedAt s request readings available (k + (turns * request.stickyLimit + m)) = chosen
      rw [← Nat.add_assoc, hstart, ← hchosen]
      exact (h.turn hadvances hturn hm (by omega)).1
    · rw [Nat.succ_mul, ← Nat.add_assoc, hstart]
      exact hends
    · rw [Nat.succ_mul, ← Nat.add_assoc, hstart]
      intro i hi
      rcases List.mem_append.mp hi with hi | hi
      · obtain ⟨used, hused, hbefore⟩ := hlater i hi
        have hne : i ≠ chosen := fun heq ↦ hnew (heq ▸ hi)
        refine ⟨used, by rw [hothers i hne, hused], fun j hj hjnot ↦ ?_⟩
        rw [List.mem_append, List.mem_singleton, not_or] at hjnot
        unfold UsedBefore
        rw [hothers j hjnot.2]
        exact hbefore j hj hjnot.1
      · rw [List.mem_singleton.mp hi]
        refine ⟨_, hleads.2.1, fun j hj hjnot ↦ hleads.2.2 j hj fun heq ↦ hjnot ?_⟩
        rw [heq]
        exact List.mem_append_right _ List.mem_cons_self

private theorem count_flatMap_replicate {order : List Nat} (hnodup : order.Nodup) (n i : Nat)
    (hi : i ∈ order) : (order.flatMap (List.replicate n)).count i = n := by
  induction order with
  | nil => cases hi
  | cons j order ih =>
    rw [List.nodup_cons] at hnodup
    rw [List.flatMap_cons, List.count_append]
    by_cases hij : i = j
    · subst hij
      have hnone : (order.flatMap (List.replicate n)).count i = 0 := by
        rw [List.count_eq_zero]
        intro hmem
        obtain ⟨j, hj, hcopy⟩ := List.mem_flatMap.mp hmem
        rw [List.eq_of_mem_replicate hcopy] at hnodup
        exact hnodup.1 hj
      rw [hnone, List.count_replicate_self, Nat.add_zero]
    · have hnone : (List.replicate n j).count i = 0 := by
        rw [List.count_eq_zero]
        intro hcopy
        exact hij (List.eq_of_mem_replicate hcopy)
      rw [hnone, Nat.zero_add]
      exact ih hnodup.2 ((List.mem_cons.mp hi).resolve_left hij)

/-- In every run of round-robin selections with the same accounts available throughout, whose
stamps advance at each selection, the rotation is fair. -/
theorem fairRun_of_stampsAdvance (h : SteadyRun s request readings available length)
    (hadvances : StampsAdvance s request readings available length) :
    FairRun s request readings available length where
  selects k hk := by
    obtain ⟨htable, hpicked, hmem, hthere, hselect⟩ := h.select hk
    rw [hpicked]
    refine ⟨hmem, ?_⟩
    have hsome : (s.tableAt request readings (k + 1))[((s.tableAt request readings
        k).pickRoundRobin available request.stickyLimit
          (timestamp (readings k).stamp)).2]?.isSome := by
      rw [htable]
      unfold pickRoundRobin
      dsimp only
      rw [List.getElem?_modify, Option.map_eq_map, Option.isSome_map]
      exact hthere _ hmem
    obtain ⟨c, hc⟩ := Option.isSome_iff_exists.mp hsome
    refine ⟨c, ?_, hc⟩
    rw [hselect, ← htable, hc]
    rfl
  changes _ hk hne := h.changes hadvances hk hne
  keeps _ _ hbegins _ hm hk := (h.turn hadvances hbegins hm hk).1
  ends _ hk hbegins := (h.ends hadvances hbegins (Nat.le_of_lt hk)).1
  windows k hk hbegins i hi := by
    obtain ⟨order, hlength, hnodup, hsubset, hpicks, -⟩ :=
      h.turns hadvances hbegins available.length (Nat.le_refl _) hk
    have hpos := h.limit_pos
    have hrun : 0 < length := by
      have := Nat.mul_le_mul (List.length_pos_of_mem hi) hpos
      omega
    rw [hpicks]
    refine count_flatMap_replicate hnodup _ i ?_
    have hperm := (List.subperm_of_subset hnodup hsubset).perm_of_length_le (Nat.le_of_eq hlength.symm)
    exact hperm.mem_iff.mpr hi

end Run

/-- Round-robin selection of any account of a provider, a new one for each request. -/
def nextAccount (provider : String) : SelectConnectionRequest :=
  ⟨provider, none, [], none, .roundRobin, 1⟩

/-- Two accounts that have never been used. -/
def twoUnused : Connections := [.unused "a" "p", .unused "b" "p"]

/-- The rule for two selections in different milliseconds. -/
theorem fairRun_two_unused :
    FairRun twoUnused (nextAccount "p") (fun k ↦ ⟨1000 + k, 1000 + k⟩) [0, 1] 2 := by
  refine fairRun_of_stampsAdvance ⟨rfl, rfl, by decide, by decide, by decide, ?_⟩ ?_
  · decide +kernel
  · unfold StampsAdvance
    decide +kernel

/-- Where four selections fall in one millisecond, the third and the fourth both choose the first
of two accounts. -/
theorem unfair_within_a_millisecond :
    ¬ ∀ (s : Connections) (request : SelectConnectionRequest) (readings : Nat → Reading)
      (available : List Nat) (length : Nat), SteadyRun s request readings available length →
      (∀ k, (readings k).clock ≤ (readings k).stamp ∧
        (readings k).stamp ≤ (readings (k + 1)).clock) →
      FairRun s request readings available length := by
  intro h
  have hsteady : SteadyRun twoUnused (nextAccount "p") (fun _ ↦ ⟨1000, 1000⟩) [0, 1] 4 := by
    refine ⟨rfl, rfl, by decide, by decide, by decide, ?_⟩
    decide +kernel
  have hfair := h _ _ _ _ _ hsteady fun _ ↦ ⟨Nat.le_refl _, Nat.le_refl _⟩
  have hbegins : BeginsTurn twoUnused (nextAccount "p") (fun _ ↦ ⟨1000, 1000⟩) [0, 1] 2 := by
    unfold BeginsTurn
    decide +kernel
  have hcount := hfair.windows 2 (by decide) hbegins 1 (by decide)
  exact absurd hcount (by decide +kernel)

end Connections

end NullRouter.State
