import NullRouter.Base.Paths
import NullRouter.Base.Text

/-!
# State directories

What a value has to be to become an argument, and which files a state directory gives out,
`crates/procctl/src/argv.rs:20–126` and `:253–285`. A name is a file of the directory unless it is
`.` or `..`, which the characters of a name allow.
-/

namespace NullRouter.Procctl

open NullRouter.Base

/-! ## Values that become arguments -/

/-- `ArgError`, `argv.rs:20`. -/
inductive ArgError where
  | empty (field : String)
  | tooLong (field : String) (len max : Nat)
  | badCharacter (field : String) (character : Char) (kind : String)
  | looksLikeFlag (field : String)
  | notAbsolute (field : String)
  deriving DecidableEq

/-- `MAX_ARG_LEN`, `argv.rs:64`. -/
def maxArgLen : Nat := 1024

/-- `Charset`, `argv.rs:68`. -/
inductive Charset where
  | token
  | path
  | requirement
  deriving DecidableEq

namespace Charset

/-- `kind`, `argv.rs:84`. -/
def kind : Charset → String
  | token => "an identifier"
  | path => "a path"
  | requirement => "a package requirement"

/-- `allows`, `argv.rs:93`. -/
def allows (charset : Charset) (character : Char) : Bool :=
  let token := character.isAlphanum || character ∈ ['-', '_', '.']
  match charset with
  | .token => token
  | .path => token || character ∈ ['/', '\\', ':', '+', '@', ' ']
  | .requirement => token || character ∈ ['[', ']', ',', '=', '<', '>']

end Charset

/-- `check`, `argv.rs:104`. -/
def check (field value : String) (charset : Charset) : Except ArgError Unit :=
  if value = "" then .error (.empty field)
  else if maxArgLen < value.utf8ByteSize then
    .error (.tooLong field value.utf8ByteSize maxArgLen)
  else if value.toList.head? = some '-' then .error (.looksLikeFlag field)
  else
    match value.toList.find? (!charset.allows ·) with
    | some character => .error (.badCharacter field character charset.kind)
    | none => .ok ()

/-- What passes is not empty and has only characters of its set. -/
theorem allows_of_check {field value : String} {charset : Charset}
    (h : check field value charset = .ok ()) :
    value ≠ "" ∧ ∀ c ∈ value.toList, charset.allows c = true := by
  rw [check] at h
  split at h
  · cases h
  split at h
  · cases h
  split at h
  · cases h
  split at h
  · cases h
  next hempty _ _ _ hnone =>
  refine ⟨hempty, fun c hc ↦ ?_⟩
  simpa using List.find?_eq_none.mp hnone c hc

/-! ## Directories -/

/-- `StateDir`, `argv.rs:258`: a directory that passed `new`. A path whose bytes are no text is
refused there for its characters. -/
structure StateDir where
  path : String
  checked : check "state directory" path .path = .ok ()
  absolute : Path.isAbsolute path.toList = true

namespace StateDir

/-- `new`, `argv.rs:262`. -/
def new (path : String) : Except ArgError StateDir :=
  match checked : check "state directory" path .path with
  | .error error => .error error
  | .ok () =>
    if absolute : Path.isAbsolute path.toList = true then .ok ⟨path, checked, absolute⟩
    else .error (.notAbsolute "state directory")

/-- `join`, `argv.rs:281`. -/
def join (dir : StateDir) (name : String) : Except ArgError String :=
  match check "state file name" name .token with
  | .error error => .error error
  | .ok () => .ok (String.ofList (Path.join dir.path.toList name.toList))

/-- A name that does not lead to a file right below: with a separator, absolute, or with a component
for the directory or its parent. -/
def Hostile (name : String) : Prop :=
  '/' ∈ name.toList ∨ '\\' ∈ name.toList ∨ Path.isAbsolute name.toList = true ∨
    .parentDir ∈ Path.components name.toList ∨ .curDir ∈ Path.components name.toList

/-- Where a name is let through it leads to a child of the directory, and no hostile name is. -/
structure Confined (dir : StateDir) (name : String) : Prop where
  child : ∀ path, dir.join name = .ok path →
    ∃ child, Path.resolve path.toList = Path.resolve dir.path.toList ++ [child]
  refuses : Hostile name → ∃ error, dir.join name = .error error

variable {dir : StateDir} {name : String}

/-- A name that is let through has no separator. -/
theorem join_eq_ok {path : String} (h : dir.join name = .ok path) :
    name ≠ "" ∧ '/' ∉ name.toList ∧ '\\' ∉ name.toList ∧
      path.toList = Path.join dir.path.toList name.toList := by
  rw [join] at h
  split at h
  · cases h
  next hcheck =>
  obtain ⟨hempty, hallows⟩ := allows_of_check hcheck
  cases h
  have hslash : Charset.token.allows '/' = false := by decide
  have hbackslash : Charset.token.allows '\\' = false := by decide
  refine ⟨hempty, fun hmem ↦ ?_, fun hmem ↦ ?_, String.toList_ofList⟩
  · rw [hallows _ hmem] at hslash
    cases hslash
  · rw [hallows _ hmem] at hbackslash
    cases hbackslash

/-- Where a name that is let through leads. -/
theorem resolve_of_join {path : String} (h : dir.join name = .ok path) :
    ∃ component, Path.component name.toList = some component ∧
      Path.components name.toList = [component] ∧ Path.isAbsolute name.toList = false ∧
      Path.resolve path.toList = Path.resolveFrom (Path.resolve dir.path.toList) [component] := by
  obtain ⟨hempty, hslash, -, hpath⟩ := join_eq_ok h
  have habsolute : Path.isAbsolute name.toList = false := by
    rw [Path.isAbsolute, decide_eq_false_iff_not]
    exact fun hhead ↦ hslash (List.mem_of_mem_head? hhead)
  have hcomponents := Path.components_of_not_mem hslash
  cases hname : Path.component name.toList with
  | none =>
    have hnil : name.toList = [] := by
      unfold Path.component at hname
      split at hname
      · assumption
      all_goals cases hname
    exact (hempty (String.toList_eq_nil_iff.mp hnil)).elim
  | some component =>
    rw [hname] at hcomponents
    refine ⟨component, rfl, hcomponents, habsolute, ?_⟩
    rw [hpath, Path.resolve_join _ habsolute, hcomponents]
    rfl

/-- Only `.` and `..` are components of their own. -/
theorem component_cases (name : String) :
    (Path.component name.toList = some .curDir ↔ name = ".") ∧
      (Path.component name.toList = some .parentDir ↔ name = "..") := by
  have hdot : name = "." ↔ name.toList = ['.'] := by
    rw [String.ext_iff]
    rfl
  have hdots : name = ".." ↔ name.toList = ['.', '.'] := by
    rw [String.ext_iff]
    rfl
  rw [hdot, hdots]
  unfold Path.component
  split <;> simp_all

/-- The dots are let through. -/
theorem join_dots (dir : StateDir) : (∃ path, dir.join "." = .ok path) ∧
    ∃ path, dir.join ".." = .ok path := by
  have hdot : check "state file name" "." .token = .ok () := by decide +kernel
  have hdots : check "state file name" ".." .token = .ok () := by decide +kernel
  constructor
  · rw [join, hdot]
    exact ⟨_, rfl⟩
  · rw [join, hdots]
    exact ⟨_, rfl⟩

/-- A directory gives out its children under every name, and refuses the hostile ones, but for the
two names that it lets through though they stand for itself and for its parent. -/
theorem confined_iff (dir : StateDir) (name : String) :
    Confined dir name ↔ name ≠ "." ∧ name ≠ ".." := by
  obtain ⟨hcurDir, hparentDir⟩ := component_cases name
  constructor
  · intro h
    constructor
    · rintro rfl
      obtain ⟨path, hpath⟩ := (join_dots dir).1
      have hhostile : Hostile "." := by
        refine .inr (.inr (.inr (.inr ?_)))
        decide +kernel
      obtain ⟨error, herror⟩ := h.refuses hhostile
      rw [hpath] at herror
      cases herror
    · rintro rfl
      obtain ⟨path, hpath⟩ := (join_dots dir).2
      have hhostile : Hostile ".." := by
        refine .inr (.inr (.inr (.inl ?_)))
        decide +kernel
      obtain ⟨error, herror⟩ := h.refuses hhostile
      rw [hpath] at herror
      cases herror
  · rintro ⟨hdot, hdots⟩
    constructor
    · intro path hpath
      obtain ⟨component, hcomponent, -, -, hresolve⟩ := resolve_of_join hpath
      cases component with
      | curDir => exact (hdot (hcurDir.mp hcomponent)).elim
      | parentDir => exact (hdots (hparentDir.mp hcomponent)).elim
      | normal child => exact ⟨child, hresolve⟩
    · intro hhostile
      cases hjoin : dir.join name with
      | error error => exact ⟨error, rfl⟩
      | ok path =>
        obtain ⟨-, hslash, hbackslash, -⟩ := join_eq_ok hjoin
        obtain ⟨component, hcomponent, hcomponents, habsolute, -⟩ := resolve_of_join hjoin
        rcases hhostile with h | h | h | h | h
        · exact (hslash h).elim
        · exact (hbackslash h).elim
        · rw [habsolute] at h
          cases h
        · rw [hcomponents, List.mem_singleton] at h
          exact (hdots (hparentDir.mp (h ▸ hcomponent))).elim
        · rw [hcomponents, List.mem_singleton] at h
          exact (hdot (hcurDir.mp (h ▸ hcomponent))).elim

/-- A directory for the state of the service. -/
def varLib : StateDir where
  path := "/var/lib/nullrouter"
  checked := by decide +kernel
  absolute := by decide +kernel

/-- The name of the parent is let through, and leads out of the directory. -/
theorem parent_is_given_out : (StateDir.new "/var/lib/nullrouter").toOption = some varLib ∧
    varLib.join ".." = .ok "/var/lib/nullrouter/.." ∧
    Path.resolve "/var/lib/nullrouter/..".toList = ["var".toList, "lib".toList] ∧
    ¬ Confined varLib ".." := by
  have hjoin : varLib.join ".." = .ok "/var/lib/nullrouter/.." := by decide +kernel
  refine ⟨rfl, hjoin, by decide +kernel, fun h ↦ ?_⟩
  obtain ⟨error, herror⟩ := h.refuses (.inr (.inr (.inr (.inl (by decide +kernel)))))
  rw [hjoin] at herror
  cases herror

end StateDir
end NullRouter.Procctl
