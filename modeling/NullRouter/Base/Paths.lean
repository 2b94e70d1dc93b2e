import Mathlib.Data.List.Basic

/-!
# Paths by their text

The components of a Unix path, as `std::path` reads them from its text, and where a path leads when
`.` and `..` are resolved without a look at the file system. Nothing here names a path of a
particular system.
-/

namespace NullRouter.Base.Path

/-- A component of a path, below the root. -/
inductive Component where
  | curDir
  | parentDir
  | normal (name : List Char)
  deriving DecidableEq

/-- What stands between two separators, if anything does. -/
def component : List Char → Option Component
  | [] => none
  | ['.'] => some .curDir
  | ['.', '.'] => some .parentDir
  | name => some (.normal name)

/-- `Path::is_absolute`. -/
def isAbsolute (path : List Char) : Bool := path.head? = some '/'

/-- `Path::components`, below the root. A `.` that is not at the front is kept here; it leads
nowhere. -/
def components (path : List Char) : List Component := (path.splitOn '/').filterMap component

/-- Where some components lead from a place below the root. -/
def resolveFrom (names : List (List Char)) : List Component → List (List Char)
  | [] => names
  | .curDir :: rest => resolveFrom names rest
  | .parentDir :: rest => resolveFrom names.dropLast rest
  | .normal name :: rest => resolveFrom (names ++ [name]) rest

/-- The names from the root on that an absolute path leads through. -/
def resolve (path : List Char) : List (List Char) := resolveFrom [] (components path)

/-- `Path::join`. -/
def join (path name : List Char) : List Char :=
  if isAbsolute name then name
  else if path = [] ∨ path.getLast? = some '/' then path ++ name
  else path ++ '/' :: name

theorem resolveFrom_append (names : List (List Char)) (first second : List Component) :
    resolveFrom names (first ++ second) = resolveFrom (resolveFrom names first) second := by
  induction first generalizing names with
  | nil => rfl
  | cons component first ih =>
    cases component with
    | curDir => exact ih names
    | parentDir => exact ih names.dropLast
    | normal name => exact ih (names ++ [name])

theorem components_separated (path name : List Char) :
    components (path ++ '/' :: name) = components path ++ components name := by
  rw [components, List.splitOn_append_cons_self, List.filterMap_append]
  rfl

/-- A name without a separator is a component, or nothing. -/
theorem components_of_not_mem {name : List Char} (h : '/' ∉ name) :
    components name = (component name).toList := by
  rw [components, List.splitOn_eq_singleton h]
  cases hname : component name with
  | none => rw [List.filterMap_cons_none hname]; rfl
  | some c => rw [List.filterMap_cons_some hname]; rfl

/-- A relative path is gone from where the other leads. -/
theorem resolve_join (path : List Char) {name : List Char} (h : isAbsolute name = false) :
    resolve (join path name) = resolveFrom (resolve path) (components name) := by
  have hcomponents : components (join path name) = components path ++ components name := by
    rw [join, h, if_neg Bool.false_ne_true]
    split
    · next hends =>
      rcases hends with rfl | hlast
      · rfl
      · obtain ⟨front, rfl⟩ := List.getLast?_eq_some_iff.mp hlast
        have hfront : components (front ++ ['/']) = components front := by
          rw [components_separated]
          exact List.append_nil _
        rw [List.append_assoc, hfront]
        exact components_separated front name
    · exact components_separated path name
  rw [resolve, hcomponents, resolveFrom_append]
  rfl

end NullRouter.Base.Path
