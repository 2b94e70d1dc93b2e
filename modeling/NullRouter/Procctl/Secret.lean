import NullRouter.Base.Lines
import NullRouter.Base.Masking

/-!
# The secrets of a child

`crates/procctl/src/secret.rs`: a credential that a child gets in its environment, and the scrub of
the child's own output. The scrub is modelled on characters that carry their places, which shows
what it copies.
-/

namespace NullRouter.Procctl

open NullRouter.Base

/-- `Secret`, `secret.rs:19`. -/
structure Secret where
  value : String
  deriving DecidableEq

/-- `REDACTED`, `secret.rs:49`. -/
def redacted : List Char := "<redacted>".toList

/-- `MIN_SCRUBBABLE`, `secret.rs:74`, in bytes. -/
def minScrubbable : Nat := 6

/-- `scrub`, `secret.rs:72`, on scalar values. -/
def scrub (text : List Char) (secrets : List Secret) : List Char :=
  secrets.foldl (fun out secret ↦
    if minScrubbable ≤ secret.value.utf8ByteSize ∧ containsText out secret.value.toList then
      (replacing secret.value.toList redacted).scan none 0 out
    else out) text

/-- `scrub` on placed characters. -/
def scrubPlaced (text : List (Placed Char)) (secrets : List Secret) : List (Placed Char) :=
  secrets.foldl (fun out secret ↦
    if minScrubbable ≤ secret.value.utf8ByteSize ∧
        containsText (out.map Prod.fst) secret.value.toList then
      (replacingPlaced secret.value.toList redacted).scan none 0 out
    else out) text

/-- The places change nothing of the text. -/
theorem map_fst_scrubPlaced (text : List (Placed Char)) (secrets : List Secret) :
    (scrubPlaced text secrets).map Prod.fst = scrub (text.map Prod.fst) secrets := by
  induction secrets generalizing text with
  | nil => rfl
  | cons secret secrets ih =>
    rw [scrubPlaced, scrub, List.foldl_cons, List.foldl_cons]
    refine (ih _).trans ?_
    congr 1
    split
    · exact (traces_replacing _ _).scan none 0 text
    · rfl

/-- The secrets that are long enough to be replaced. -/
def scrubbable (secrets : List Secret) : List (List Char) :=
  (secrets.filter fun secret ↦ minScrubbable ≤ secret.value.utf8ByteSize).map (·.value.toList)

/-- They are replaced in turn. -/
theorem scrubPlaced_eq (text : List (Placed Char)) (secrets : List Secret) :
    scrubPlaced text secrets = maskAll redacted (scrubbable secrets) text := by
  induction secrets generalizing text with
  | nil => rfl
  | cons secret secrets ih =>
    rw [scrubPlaced, List.foldl_cons]
    refine (ih _).trans ?_
    by_cases hlong : minScrubbable ≤ secret.value.utf8ByteSize
    · rw [scrubbable, scrubbable, List.filter_cons_of_pos (by simpa using hlong), List.map_cons,
        maskAll, maskAll, List.foldl_cons]
      congr 1
      split
      · rfl
      · next hnot =>
        rw [not_and, containsText_iff] at hnot
        exact (scan_replacing_of_absent (hnot hlong) none).symm
    · rw [scrubbable, scrubbable, List.filter_cons_of_neg (by simpa using hlong),
        if_neg fun h ↦ hlong h.1]

end NullRouter.Procctl
