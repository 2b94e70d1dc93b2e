import Mathlib.Data.List.Induction
import Mathlib.Logic.Function.Basic

/-!
# Lifecycles in a log

A log in which things named by keys are opened, used and closed. A log is well bracketed when
whatever it names is opened once, then used, then closed once. A monitor that keeps one phase a
key decides it, and never recovers once it is broken. A program that keeps such phases for
itself is compared with the monitor by `Follows`.
-/

namespace NullRouter.Base

universe u v

/-- What a log entry does to the thing it names. -/
inductive Act where
  | opens
  | uses
  | closes
  deriving DecidableEq

/-- What the monitor knows of one thing. -/
inductive Phase where
  | fresh
  | live
  | closed
  | broken
  deriving DecidableEq

namespace Phase

/-- The phase after an act. -/
def next : Phase → Act → Phase
  | .fresh, .opens => .live
  | .live, .uses => .live
  | .live, .closes => .closed
  | _, _ => .broken

/-- A phase in which a log may end. -/
def settled : Phase → Bool
  | .fresh | .closed => true
  | .live | .broken => false

/-- The phase a program that does not check keeps after an act: only opening what is fresh and
closing what is live change it. -/
def keep : Phase → Act → Phase
  | .fresh, .opens => .live
  | .live, .closes => .closed
  | p, _ => p

theorem keep_opens {p : Phase} (hopen : p ≠ .closed) (hunbroken : p ≠ .broken) :
    p.keep .opens = .live := by
  cases p with
  | fresh => rfl
  | live => rfl
  | closed => exact absurd rfl hopen
  | broken => exact absurd rfl hunbroken

@[simp] theorem keep_closes_eq_fresh {p : Phase} : p.keep .closes = .fresh ↔ p = .fresh := by
  cases p <;> simp [keep]

theorem keep_closes_eq_closed {p : Phase} (hunbroken : p ≠ .broken) :
    p.keep .closes = .closed ↔ p ≠ .fresh := by
  cases p <;> simp_all [keep]

@[simp] theorem next_broken (a : Act) : broken.next a = broken := by cases a <;> rfl

/-- A program that does not check breaks nothing in its own eyes. -/
theorem foldl_keep_ne_broken {acts : List Act} {p : Phase} (h : p ≠ .broken) :
    acts.foldl keep p ≠ .broken := by
  induction acts generalizing p with
  | nil => exact h
  | cons a acts ih =>
    refine ih ?_
    cases p <;> cases a <;> first | exact absurd rfl h | exact nofun

theorem foldl_next_broken (acts : List Act) : acts.foldl next broken = broken := by
  induction acts with
  | nil => rfl
  | cons a acts ih => rw [List.foldl_cons, next_broken, ih]

end Phase

/-- The phase after some acts. -/
def phaseOf (acts : List Act) : Phase := acts.foldl Phase.next .fresh

/-- Opened once, then used any number of times, then closed once. -/
def Bracketed (acts : List Act) : Prop :=
  ∃ n, acts = .opens :: (List.replicate n .uses ++ [.closes])

/-- How acts read that lead to a phase. -/
private def Phase.Reads (acts : List Act) : Phase → Prop
  | .fresh => acts = []
  | .live => ∃ n, acts = .opens :: List.replicate n .uses
  | .closed => Bracketed acts
  | .broken => True

theorem phaseOf_concat (acts : List Act) (a : Act) :
    phaseOf (acts ++ [a]) = (phaseOf acts).next a := by
  simp [phaseOf]

private theorem reads_phaseOf (acts : List Act) : (phaseOf acts).Reads acts := by
  induction acts using List.reverseRecOn with
  | nil => rfl
  | append_singleton acts a ih =>
    rw [phaseOf_concat]
    cases hphase : phaseOf acts with
    | fresh =>
      rw [hphase] at ih
      cases a with
      | opens => exact ⟨0, congrArg (· ++ [Act.opens]) ih⟩
      | uses => trivial
      | closes => trivial
    | live =>
      rw [hphase] at ih
      obtain ⟨n, hn⟩ := ih
      cases a with
      | opens => trivial
      | uses => exact ⟨n + 1, by rw [hn, List.replicate_succ', List.cons_append]⟩
      | closes => exact ⟨n, by rw [hn, List.cons_append]⟩
    | closed => cases a <;> trivial
    | broken => cases a <;> trivial

/-- The monitor may end exactly where the acts are none or bracketed. -/
theorem settled_phaseOf_iff (acts : List Act) :
    (phaseOf acts).settled = true ↔ acts = [] ∨ Bracketed acts := by
  constructor
  · intro h
    have hreads := reads_phaseOf acts
    cases hphase : phaseOf acts with
    | fresh =>
      rw [hphase] at hreads
      exact .inl hreads
    | closed =>
      rw [hphase] at hreads
      exact .inr hreads
    | live =>
      rw [hphase] at h
      cases h
    | broken =>
      rw [hphase] at h
      cases h
  · rintro (rfl | ⟨n, rfl⟩)
    · rfl
    · have hlive : (List.replicate n Act.uses).foldl Phase.next .live = .live := by
        induction n with
        | zero => rfl
        | succ n ih => exact ih
      rw [phaseOf, List.foldl_cons, List.foldl_append]
      change (([Act.closes].foldl Phase.next
        ((List.replicate n Act.uses).foldl Phase.next .live)).settled) = true
      rw [hlive]
      rfl

section Log

variable {κ : Type u} [DecidableEq κ]

/-- What a log does to one thing, in order. -/
def actsOf (key : κ) (log : List (κ × Act)) : List Act :=
  (log.filter (·.1 = key)).map Prod.snd

/-- The phase of one thing at the end of a log. -/
def phaseAt (key : κ) (log : List (κ × Act)) : Phase := phaseOf (actsOf key log)

/-- Everything a log names is opened once, then used, then closed once. -/
def WellBracketed (log : List (κ × Act)) : Prop :=
  ∀ key, actsOf key log = [] ∨ Bracketed (actsOf key log)

theorem wellBracketed_iff {log : List (κ × Act)} :
    WellBracketed log ↔ ∀ key, (phaseAt key log).settled = true :=
  forall_congr' fun key ↦ (settled_phaseOf_iff (actsOf key log)).symm

@[simp] theorem phaseAt_nil (key : κ) : phaseAt key ([] : List (κ × Act)) = .fresh := rfl

/-- Entries move the phase of the thing they name, and of no other. -/
theorem phaseAt_append (key : κ) (log entries : List (κ × Act)) :
    phaseAt key (log ++ entries) = (actsOf key entries).foldl Phase.next (phaseAt key log) := by
  simp [phaseAt, phaseOf, actsOf]

theorem phaseAt_concat (key k : κ) (log : List (κ × Act)) (a : Act) :
    phaseAt key (log ++ [(k, a)]) =
      if k = key then (phaseAt key log).next a else phaseAt key log := by
  rw [phaseAt_append]
  by_cases h : k = key <;> simp [actsOf, h]

/-- What is broken stays broken. -/
theorem phaseAt_append_of_broken {key : κ} {log : List (κ × Act)}
    (h : phaseAt key log = .broken) (entries : List (κ × Act)) :
    phaseAt key (log ++ entries) = .broken := by
  rw [phaseAt_append, h, Phase.foldl_next_broken]

/-- Keys named apart are one thing each. -/
theorem actsOf_map {ι : Type v} [DecidableEq ι] {f : ι → κ} (hf : Function.Injective f) (i : ι)
    (log : List (ι × Act)) : actsOf (f i) (log.map (Prod.map f id)) = actsOf i log := by
  induction log with
  | nil => rfl
  | cons entry log ih =>
    simp only [actsOf, List.map_cons, List.filter_cons, Prod.map_fst, hf.eq_iff] at ih ⊢
    split
    · simp [ih]
    · exact ih

/-- Naming keys apart does not matter to how a log is bracketed. -/
theorem wellBracketed_map {ι : Type v} [DecidableEq ι] {f : ι → κ} (hf : Function.Injective f)
    {log : List (ι × Act)} : WellBracketed (log.map (Prod.map f id)) ↔ WellBracketed log := by
  constructor
  · intro h i
    have hkey := h (f i)
    rwa [actsOf_map hf] at hkey
  · intro h key
    by_cases hkey : ∃ i, f i = key
    · obtain ⟨i, rfl⟩ := hkey
      rw [actsOf_map hf]
      exact h i
    · refine .inl ?_
      simp only [actsOf, List.map_eq_nil_iff, List.filter_eq_nil_iff, decide_eq_true_eq]
      rintro _ hmem rfl
      obtain ⟨entry, -, rfl⟩ := List.mem_map.mp hmem
      exact hkey ⟨entry.1, rfl⟩

/-- Phases kept by a program follow a log: each is where the acts lead from where it was. -/
def Follows (was now : κ → Phase) (log : List (κ × Act)) : Prop :=
  ∀ key, (actsOf key log).foldl Phase.next (was key) = now key

/-- The phases a program that does not check keeps along a log. -/
def kept (was : κ → Phase) (log : List (κ × Act)) : κ → Phase :=
  fun key ↦ (actsOf key log).foldl Phase.keep (was key)

@[simp] theorem kept_nil (was : κ → Phase) : kept was [] = was := rfl

theorem kept_append (was : κ → Phase) (log more : List (κ × Act)) :
    kept was (log ++ more) = kept (kept was log) more := by
  funext key
  simp [kept, actsOf]

theorem kept_single (was : κ → Phase) (key : κ) (a : Act) :
    kept was [(key, a)] = Function.update was key ((was key).keep a) := by
  funext other
  by_cases h : key = other
  · subst h
    simp [kept, actsOf]
  · simp [kept, actsOf, h, Function.update_of_ne (Ne.symm h)]

namespace Follows

variable {was now later : κ → Phase} {log more : List (κ × Act)}

theorem refl (was : κ → Phase) : Follows was was [] := fun _ ↦ rfl

theorem trans (h : Follows was now log) (h' : Follows now later more) :
    Follows was later (log ++ more) := by
  intro key
  rw [← h' key, ← h key]
  simp [actsOf]

/-- One act changes the phase of the thing it names alone. -/
theorem single {key : κ} {a : Act} (hkey : (was key).next a = now key)
    (hothers : ∀ other, other ≠ key → was other = now other) : Follows was now [(key, a)] := by
  intro other
  by_cases h : key = other
  · subst h
    simpa [actsOf] using hkey
  · simpa [actsOf, h] using hothers other (Ne.symm h)

/-- Phases that the monitor shares stay shared along what follows. -/
theorem phaseAt_append (h : Follows was now more) (hwas : ∀ key, phaseAt key log = was key)
    (key : κ) : phaseAt key (log ++ more) = now key := by
  rw [NullRouter.Base.phaseAt_append, hwas, h]

end Follows

section Keeping

variable {phase phase' : κ → Phase} {key : κ}

/-- Opening a thing that is fresh. -/
def opening (phase : κ → Phase) (key : κ) : List (κ × Act) :=
  if phase key = .fresh then [(key, .opens)] else []

/-- Closing a thing that is live. -/
def closing (phase : κ → Phase) (key : κ) : List (κ × Act) :=
  if phase key = .live then [(key, .closes)] else []

omit [DecidableEq κ] in
theorem opening_congr (h : phase key = phase' key) : opening phase key = opening phase' key := by
  rw [opening, opening, h]

theorem kept_opening : kept phase (opening phase key) =
    Function.update phase key ((phase key).keep .opens) := by
  rw [opening]
  split
  · exact kept_single ..
  · next h =>
    rw [kept_nil, eq_comm, Function.update_eq_self_iff]
    cases hphase : phase key <;> first | rfl | exact absurd hphase h

theorem kept_closing : kept phase (closing phase key) =
    Function.update phase key ((phase key).keep .closes) := by
  rw [closing]
  split
  · exact kept_single ..
  · next h =>
    rw [kept_nil, eq_comm, Function.update_eq_self_iff]
    cases hphase : phase key <;> first | rfl | exact absurd hphase h

theorem kept_uses : kept phase [(key, .uses)] = phase := by
  rw [kept_single, Function.update_eq_self_iff]
  cases phase key <;> rfl

theorem follows_opening :
    Follows phase (kept phase (opening phase key)) (opening phase key) := by
  rw [opening]
  split
  · next h =>
    rw [kept_single]
    exact .single (by simp [h, Phase.next, Phase.keep]) fun other hother ↦ by simp [hother]
  · exact .refl phase

theorem follows_closing :
    Follows phase (kept phase (closing phase key)) (closing phase key) := by
  rw [closing]
  split
  · next h =>
    rw [kept_single]
    exact .single (by simp [h, Phase.next, Phase.keep]) fun other hother ↦ by simp [hother]
  · exact .refl phase

theorem follows_uses (h : phase key = .live) : Follows phase phase [(key, .uses)] :=
  .single (by rw [h]; rfl) fun _ _ ↦ rfl

end Keeping

/-- The things a log opens, in order. -/
def openings (log : List (κ × Act)) : List κ := (log.filter (·.2 = .opens)).map Prod.fst

end Log

/-- A log that opens numbered things in turn: `next` comes next, those of `live` are open. -/
structure InTurn (next : Nat) (live : List Nat) (log : List (Nat × Act)) : Prop where
  openings_eq : openings log = List.range next
  fresh_iff : ∀ i, phaseAt i log = .fresh ↔ next ≤ i
  live_iff : ∀ i, phaseAt i log = .live ↔ i ∈ live
  unbroken : ∀ i, phaseAt i log ≠ .broken
  nodup : live.Nodup

namespace InTurn

variable {next : Nat} {live live' : List Nat} {log : List (Nat × Act)} {i : Nat}

theorem nil : InTurn 0 [] [] := ⟨rfl, by simp, by simp, by simp, List.nodup_nil⟩

/-- The next thing opens. -/
theorem opens (h : InTurn next live log) (hlive : live'.Perm (next :: live)) :
    InTurn (next + 1) live' (log ++ [(next, .opens)]) := by
  have hfresh := (h.fresh_iff next).mpr (Nat.le_refl next)
  have hnew : next ∉ live := by
    intro hmem
    have := (h.live_iff next).mpr hmem
    rw [hfresh] at this
    cases this
  refine ⟨?_, ?_, ?_, ?_, hlive.nodup_iff.mpr (List.nodup_cons.mpr ⟨hnew, h.nodup⟩)⟩
  · rw [List.range_succ, ← h.openings_eq]
    simp [Base.openings]
  · intro j
    rw [phaseAt_concat]
    split
    · next hj => simp [← hj, hfresh, Phase.next]
    · next hj =>
      rw [h.fresh_iff]
      omega
  · intro j
    rw [phaseAt_concat, hlive.mem_iff, List.mem_cons]
    split
    · next hj => simp [← hj, hfresh, Phase.next]
    · next hj =>
      rw [h.live_iff]
      simp [Ne.symm hj]
  · intro j
    rw [phaseAt_concat]
    split
    · next hj => simp [← hj, hfresh, Phase.next]
    · exact h.unbroken j

/-- A thing that is open is used. -/
theorem uses (h : InTurn next live log) (hi : i ∈ live) :
    InTurn next live (log ++ [(i, .uses)]) := by
  have hlive := (h.live_iff i).mpr hi
  have hphase : ∀ j, phaseAt j (log ++ [(i, .uses)]) = phaseAt j log := by
    intro j
    rw [phaseAt_concat]
    split
    · next hj => rw [← hj, hlive]; rfl
    · rfl
  refine ⟨?_, fun j ↦ by rw [hphase, h.fresh_iff], fun j ↦ by rw [hphase, h.live_iff],
    fun j ↦ by rw [hphase]; exact h.unbroken j, h.nodup⟩
  rw [← h.openings_eq]
  simp [Base.openings]

/-- A thing that is open closes. -/
theorem closes (h : InTurn next live log) (hi : live.Perm (i :: live')) :
    InTurn next live' (log ++ [(i, .closes)]) := by
  have hlive := (h.live_iff i).mpr (hi.mem_iff.mpr (List.mem_cons_self ..))
  obtain ⟨hnew, hnodup⟩ := List.nodup_cons.mp (hi.nodup_iff.mp h.nodup)
  refine ⟨?_, ?_, ?_, ?_, hnodup⟩
  · rw [← h.openings_eq]
    simp [Base.openings]
  · intro j
    rw [phaseAt_concat, ← h.fresh_iff]
    split
    · next hj => simp [← hj, hlive, Phase.next]
    · rfl
  · intro j
    rw [phaseAt_concat]
    split
    · next hj => simpa [← hj, hlive, Phase.next] using hnew
    · next hj =>
      rw [h.live_iff, hi.mem_iff, List.mem_cons]
      simp [Ne.symm hj]
  · intro j
    rw [phaseAt_concat]
    split
    · next hj => simp [← hj, hlive, Phase.next]
    · exact h.unbroken j

/-- With nothing left open, everything was opened, used and closed. -/
theorem wellBracketed (h : InTurn next [] log) : WellBracketed log := by
  rw [wellBracketed_iff]
  intro i
  have hlive := h.live_iff i
  have hunbroken := h.unbroken i
  cases hphase : phaseAt i log <;> simp_all [Phase.settled]

end InTurn

section Somewhere

variable {α : Type u}

/-- An entry of a list and the entries before it meet a condition. -/
def Somewhere (P : List α → α → Prop) (l : List α) : Prop :=
  ∃ earlier x later, l = earlier ++ x :: later ∧ P earlier x

variable {P : List α → α → Prop}

@[simp] theorem not_somewhere_nil : ¬ Somewhere P [] := by
  rintro ⟨earlier, x, later, h, -⟩
  cases earlier <;> cases h

theorem somewhere_concat {l : List α} {x : α} :
    Somewhere P (l ++ [x]) ↔ Somewhere P l ∨ P l x := by
  constructor
  · rintro ⟨earlier, y, later, h, hy⟩
    induction later using List.reverseRecOn with
    | nil =>
      obtain ⟨rfl, hxy⟩ := List.append_inj' h rfl
      obtain rfl : x = y := List.singleton_inj.mp hxy
      exact .inr hy
    | append_singleton later z _ =>
      rw [← List.cons_append, ← List.append_assoc] at h
      obtain ⟨rfl, -⟩ := List.append_inj' h rfl
      exact .inl ⟨earlier, y, later, rfl, hy⟩
  · rintro (⟨earlier, y, later, rfl, hy⟩ | hx)
    · exact ⟨earlier, y, later ++ [x], by simp, hy⟩
    · exact ⟨l, x, [], rfl, hx⟩

end Somewhere
end NullRouter.Base
