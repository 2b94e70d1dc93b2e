import NullRouter.Base.Lifecycle

/-!
# Parts and wholes

A text that is told in parts, with statements of what it is as a whole in between: of the text
itself, and of what it reads as. Statements that are right when they are made stay right exactly
where no part follows them.
-/

namespace NullRouter.Base

/-- What is said of a text: one more part of it, all of it, or what it reads as. -/
inductive Said where
  | part (text : String)
  | whole (text : String)
  | reading (text : String)
  deriving DecidableEq

namespace Said

/-- The part that is said. -/
def text : Said → String
  | part text => text
  | _ => ""

/-- Whether all of the text is said. -/
def isWhole : Said → Bool
  | whole _ => true
  | _ => false

end Said

/-- The parts together. -/
def told (log : List Said) : String := String.join (log.map Said.text)

@[simp] theorem told_nil : told [] = "" := rfl

@[simp] theorem told_append (log more : List Said) : told (log ++ more) = told log ++ told more := by
  rw [told, List.map_append, String.join_append]
  rfl

@[simp] theorem told_cons (said : Said) (log : List Said) :
    told (said :: log) = said.text ++ told log := by
  rw [told, List.map_cons, String.join_cons]
  rfl

section Keys

universe u v

variable {κ : Type u} {ι : Type v} [DecidableEq κ] [DecidableEq ι]

/-- What a log of several texts says of one of them. -/
def sayings (key : κ) (log : List (κ × Said)) : List Said :=
  (log.filter (·.1 = key)).map Prod.snd

@[simp] theorem sayings_nil (key : κ) : sayings key [] = [] := rfl

@[simp] theorem sayings_append (key : κ) (log more : List (κ × Said)) :
    sayings key (log ++ more) = sayings key log ++ sayings key more := by
  rw [sayings, List.filter_append, List.map_append]
  rfl

theorem sayings_cons (key k : κ) (said : Said) (log : List (κ × Said)) :
    sayings key ((k, said) :: log) = (if k = key then [said] else []) ++ sayings key log := by
  rw [sayings, List.filter_cons]
  by_cases h : k = key
  · simp [h, sayings]
  · simp [h, sayings]

/-- More that is said of one text. -/
theorem sayings_append_pairs (key k : κ) (log : List (κ × Said)) (more : List Said) :
    sayings key (log ++ more.map (k, ·)) =
      if key = k then sayings key log ++ more else sayings key log := by
  have hpairs : sayings key (more.map (k, ·)) = if key = k then more else [] := by
    induction more with
    | nil => exact (ite_self _).symm
    | cons said more ih =>
      rw [List.map_cons, sayings_cons, ih]
      by_cases h : key = k
      · rw [if_pos h.symm, if_pos h, if_pos h]
        rfl
      · rw [if_neg (Ne.symm h), if_neg h, if_neg h]
        rfl
  rw [sayings_append, hpairs]
  split
  · rfl
  · rw [List.append_nil]

/-- Keys under other names. -/
theorem sayings_map {name : κ → ι} (hname : Function.Injective name) (key : κ)
    (log : List (κ × Said)) : sayings (name key) (log.map (Prod.map name id)) = sayings key log := by
  induction log with
  | nil => rfl
  | cons first log ih =>
    obtain ⟨k, said⟩ := first
    rw [List.map_cons, Prod.map_apply, id_eq, sayings_cons, sayings_cons, ih]
    simp only [hname.eq_iff]

omit [DecidableEq κ] in
/-- Nothing is said of a key that has no name. -/
theorem sayings_map_of_forall_ne {name : κ → ι} {other : ι} (h : ∀ key, name key ≠ other)
    (log : List (κ × Said)) : sayings other (log.map (Prod.map name id)) = [] := by
  induction log with
  | nil => rfl
  | cons first log ih =>
    obtain ⟨k, said⟩ := first
    rw [List.map_cons, Prod.map_apply, id_eq, sayings_cons, if_neg (h k), ih]
    rfl

end Keys

section Statements

variable (read : String → String)

/-- What is right to say after what has been said: a part that is not empty, all there is, and what
that reads as, once all has been said. -/
def Right (earlier : List Said) : Said → Prop
  | .part text => text ≠ ""
  | .whole text => text = told earlier
  | .reading text => text = read (told earlier) ∧ earlier.any Said.isWhole = true

/-- Everything was right when it was said. -/
def RightThen (log : List Said) : Prop :=
  ¬ Somewhere (fun earlier said ↦ ¬ Right read earlier said) log

/-- What states the whole text states it as it is in the end. -/
def RightNow (log : List Said) : Prop :=
  (∀ text, .whole text ∈ log → text = told log) ∧
    ∀ text, .reading text ∈ log → text = read (told log)

/-- A part follows a statement of the whole. -/
def Late (log : List Said) : Prop :=
  Somewhere (fun earlier said ↦ (∃ text, said = .part text) ∧ earlier.any Said.isWhole = true) log

variable {read} {log more : List Said} {said : Said}

theorem rightThen_nil : RightThen read [] := not_somewhere_nil

theorem rightThen_concat :
    RightThen read (log ++ [said]) ↔ RightThen read log ∧ Right read log said := by
  rw [RightThen, somewhere_concat, not_or, not_not, RightThen]

theorem not_late_nil : ¬ Late [] := not_somewhere_nil

theorem rightNow_nil : RightNow read [] := by simp [RightNow]

theorem late_concat : Late (log ++ [said]) ↔
    Late log ∨ (∃ text, said = .part text) ∧ log.any Said.isWhole = true := somewhere_concat

/-- What ends a text says all of it, and then only that or what it reads as. -/
def Closes (read : String → String) (text : String) (ends : List Said) : Prop :=
  ∃ rest, ends = .whole text :: rest ∧
    ∀ said ∈ rest, said = .whole text ∨ said = .reading (read text)

private theorem rightThen_append {rest : List Said} (h : RightThen read log)
    (hwhole : log.any Said.isWhole = true)
    (hrest : ∀ said ∈ rest, said = .whole (told log) ∨ said = .reading (read (told log))) :
    RightThen read (log ++ rest) ∧ told (log ++ rest) = told log ∧
      (log ++ rest).any Said.isWhole = true ∧ (Late (log ++ rest) ↔ Late log) := by
  induction rest generalizing log with
  | nil =>
    rw [List.append_nil]
    exact ⟨h, rfl, hwhole, .rfl⟩
  | cons said rest ih =>
    obtain ⟨hsaid, hrest⟩ := List.forall_mem_cons.mp hrest
    have hright : Right read log said := by
      rcases hsaid with rfl | rfl
      · rfl
      · exact ⟨rfl, hwhole⟩
    have htold : told (log ++ [said]) = told log := by
      rw [told_append, told_cons, told_nil, String.append_empty]
      rcases hsaid with rfl | rfl <;> exact String.append_empty
    have hlate : Late (log ++ [said]) ↔ Late log := by
      rw [late_concat, or_iff_left]
      rintro ⟨⟨text, hpart⟩, -⟩
      rcases hsaid with rfl | rfl <;> cases hpart
    obtain ⟨hthen, htold', hwhole', hlate'⟩ := ih (rightThen_concat.mpr ⟨h, hright⟩)
      (by rw [List.any_append, hwhole, Bool.true_or]) (by rwa [htold])
    rw [List.append_cons]
    exact ⟨hthen, htold'.trans htold, hwhole', hlate'.trans hlate⟩

/-- What ends a text is right, and is not late. -/
theorem RightThen.closes {ends : List Said} (h : RightThen read log)
    (hends : Closes read (told log) ends) :
    RightThen read (log ++ ends) ∧ told (log ++ ends) = told log ∧
      (log ++ ends).any Said.isWhole = true ∧ (Late (log ++ ends) ↔ Late log) := by
  obtain ⟨rest, rfl, hrest⟩ := hends
  have htold : told (log ++ [.whole (told log)]) = told log := by
    rw [told_append, told_cons, told_nil, String.append_empty]
    exact String.append_empty
  have hlate : Late (log ++ [.whole (told log)]) ↔ Late log := by
    rw [late_concat, or_iff_left]
    rintro ⟨⟨text, hpart⟩, -⟩
    cases hpart
  have hfirst : RightThen read (log ++ [.whole (told log)]) := rightThen_concat.mpr ⟨h, rfl⟩
  have hany : (log ++ [Said.whole (told log)]).any Said.isWhole = true := by
    rw [List.any_append, Bool.or_eq_true]
    exact .inr rfl
  obtain ⟨hthen, htold', hwhole', hlate'⟩ := rightThen_append hfirst hany (by rwa [htold])
  rw [List.append_cons]
  exact ⟨hthen, htold'.trans htold, hwhole', hlate'.trans hlate⟩

private theorem told_of_no_part {said : List Said} (h : ∀ text, .part text ∉ said) :
    told said = "" := by
  induction said with
  | nil => rfl
  | cons first rest ih =>
    rw [told_cons, ih fun text hmem ↦ h text (List.mem_cons_of_mem _ hmem), String.append_empty]
    cases first with
    | part text => exact absurd List.mem_cons_self (h text)
    | whole text => rfl
    | reading text => rfl

private theorem told_eq_of_not_late {earlier later : List Said} {said : Said}
    (hnotLate : ¬ Late (earlier ++ said :: later))
    (hwhole : (earlier ++ [said]).any Said.isWhole = true) (hsaid : said.text = "") :
    told (earlier ++ said :: later) = told earlier := by
  have hrest : told later = "" := by
    apply told_of_no_part
    intro text hmem
    obtain ⟨before, after, rfl⟩ := List.append_of_mem hmem
    apply hnotLate
    refine ⟨earlier ++ said :: before, .part text, after, by simp, ⟨text, rfl⟩, ?_⟩
    rw [List.append_cons, List.any_append, hwhole, Bool.true_or]
  rw [told_append, told_cons, hsaid, hrest, String.append_empty, String.append_empty]

/-- Statements that were right are right in the end exactly where no part came late. -/
theorem rightNow_iff (h : RightThen read log) : RightNow read log ↔ ¬ Late log := by
  have hright : ∀ earlier said later, log = earlier ++ said :: later →
      Right read earlier said := by
    intro earlier said later hlog
    by_contra hwrong
    exact h ⟨earlier, said, later, hlog, hwrong⟩
  constructor
  · rintro ⟨hnow, -⟩ ⟨earlier, said, later, rfl, ⟨text, rfl⟩, hwhole⟩
    obtain ⟨stated, hmem, hstated⟩ := List.any_eq_true.mp hwhole
    cases stated with
    | whole whole =>
      obtain ⟨before, after, rfl⟩ := List.append_of_mem hmem
      have hthen : whole = told before := hright before _ _ (List.append_assoc ..)
      have hend := hnow whole (by simp)
      have htext : text ≠ "" := hright (before ++ .whole whole :: after) (.part text) _ rfl
      -- the late part makes the text longer than what was stated
      have hlength := congrArg String.length (hthen.symm.trans hend)
      have hpos : text.length ≠ 0 := mt String.length_eq_zero_iff.mp htext
      simp only [told_append, told_cons, String.length_append] at hlength
      have htext' : (Said.part text).text.length = text.length := rfl
      omega
    | part _ => cases hstated
    | reading _ => cases hstated
  · intro hnotLate
    constructor
    · intro text hmem
      obtain ⟨earlier, later, rfl⟩ := List.append_of_mem hmem
      rw [told_eq_of_not_late hnotLate (by simp [Said.isWhole]) rfl]
      exact hright _ _ _ rfl
    · intro text hmem
      obtain ⟨earlier, later, rfl⟩ := List.append_of_mem hmem
      obtain ⟨htext, hwhole⟩ := hright earlier (.reading text) later rfl
      rw [told_eq_of_not_late hnotLate (by rw [List.any_append, hwhole, Bool.true_or]) rfl]
      exact htext

end Statements

end NullRouter.Base
