import NullRouter.Base.Grouping
import NullRouter.Translate.State

/-!
# Merging tool-call deltas

`merge_tool_calls`, `crates/execute/src/stream.rs:735`, beside what a client makes of the same
deltas: it keys them by index, 0 where a delta names none, takes the first id and the first name
that are not empty and joins the arguments. The two agree on some groups of deltas only.
-/

namespace NullRouter.Stream

open NullRouter.Base NullRouter.Translate

/-- The index that a call states. -/
def stated (call : Json) : Option Nat := (call.get "index").bind Json.asU64

/-- The object that a call's function is, `get("function").and_then(as_object)`. -/
def function? (call : Json) : Option (List (String × Json)) :=
  (call.get "function").bind Json.asObject

/-- The text at `/function/key` of a call. -/
def functionText? (call : Json) (key : String) : Option String :=
  (call.pointer ["function", key]).bind Json.asStr

/-- The text at `/function/key` of a call, empty where there is none. -/
def functionText (call : Json) (key : String) : String := (functionText? call key).getD ""

/-- An insertion into the object that a call's function is; nothing where it is no object. -/
def insertInFunction (call : Json) (key : String) (value : Json) : Json :=
  match call.asObject, function? call with
  | some fields, some function =>
    .obj (Json.insertField fields "function" (.obj (Json.insertField function key value)))
  | _, _ => call

/-- A fragment joined to the arguments of a call; absent arguments count as empty. -/
def appendArguments (existing : Json) (fragment : String) : Json :=
  if fragment.isEmpty then existing
  else insertInFunction existing "arguments" (.str (functionText existing "arguments" ++ fragment))

/-- Whether a function's name is still missing. -/
def nameMissing (function : List (String × Json)) : Bool :=
  ((function.lookup "name").bind Json.asStr).all (·.isEmpty)

/-- The name of a call, where it has none yet. -/
def fillName (existing : Json) : Option String → Json
  | some name =>
    if (function? existing).all nameMissing then insertInFunction existing "name" (.str name)
    else existing
  | none => existing

/-- One delta merged into the call at its position. -/
def mergeDelta (existing delta : Json) : Json :=
  fillName (appendArguments existing (functionText delta "arguments")) (functionText? delta "name")

/-- `merge_tool_calls`, `stream.rs:735`: a delta goes to the first call that states its index,
and where none does it becomes a call. -/
def mergeToolCalls (accumulated deltas : List Json) : List Json :=
  deltas.foldl (gather id (fun call delta ↦ stated call = some (indexOf delta)) mergeDelta)
    accumulated

/-- A tool call as a client holds it. -/
@[ext] structure ToolCall where
  id : String
  name : String
  arguments : String
  deriving DecidableEq

namespace ToolCall

/-- What a call or a delta says of its id, name and arguments. -/
def read (call : Json) : ToolCall :=
  ⟨(call.strField "id").getD "", functionText call "name", functionText call "arguments"⟩

/-- The first text that is not empty. -/
def firstText (a b : String) : String := if a = "" then b else a

/-- A call with one more delta. -/
def add (call delta : ToolCall) : ToolCall :=
  ⟨firstText call.id delta.id, firstText call.name delta.name, call.arguments ++ delta.arguments⟩

/-- The deltas of one index together. -/
def join : List Json → ToolCall
  | [] => ⟨"", "", ""⟩
  | first :: later => (later.map read).foldl add (read first)

end ToolCall

/-- The calls of a client, by the first appearance of their indexes. -/
def clientCalls (deltas : List Json) : List ToolCall := (groups indexOf deltas).map ToolCall.join

/-- The deltas of an index that are merged without loss: there is one, or the first states the
index, has a function object unless no other brings a name or arguments, and has an id unless no
other brings one. -/
def Mergeable : List Json → Prop
  | [] => True
  | first :: later => later = [] ∨ (stated first).isSome ∧
      ((function? first).isSome ∨
        ∀ delta ∈ later, functionText delta "name" = "" ∧ functionText delta "arguments" = "") ∧
      ((ToolCall.read first).id ≠ "" ∨ ∀ delta ∈ later, (ToolCall.read delta).id = "")

instance : DecidablePred Mergeable
  | [] => inferInstanceAs (Decidable True)
  | _ :: _ => inferInstanceAs (Decidable (_ ∨ _))

/-! ## One delta -/

variable {call delta : Json} {key : String} {value : Json}

theorem functionText?_eq (hkey : Json.indexToken key = none) :
    functionText? call key = ((function? call).bind (·.lookup key)).bind Json.asStr := by
  have htoken : Json.indexToken "function" = none := by decide
  cases call with
  | obj fields =>
    simp only [functionText?, function?, Json.pointer, List.foldl_cons, List.foldl_nil,
      Option.bind_some, Json.token?, Json.get]
    cases fields.lookup "function" with
    | none => rfl
    | some v => cases v <;> simp [Json.asObject, hkey]
  | _ => simp [functionText?, function?, Json.pointer, Json.token?, Json.get, htoken]

/-- A text of a function that is an object literal. -/
theorem functionText_of_object {fields : List (String × Json)} (hkey : Json.indexToken key = none)
    (h : call.get "function" = some (Json.object fields)) :
    functionText call key = ((Json.object fields).strField key).getD "" := by
  rw [functionText, functionText?_eq hkey, function?, h]
  rfl

theorem functionText_of_none (hkey : Json.indexToken key = none) (h : function? call = none) :
    functionText call key = "" := by
  rw [functionText, functionText?_eq hkey, h]
  rfl

/-- What a call has beside its function stays. -/
theorem get_insertInFunction {other : String} (h : other ≠ "function") :
    (insertInFunction call key value).get other = call.get other := by
  unfold insertInFunction
  split
  · next hfields _ =>
    cases call with
    | obj fields =>
      cases hfields
      exact Json.lookup_insertField_of_ne h
    | _ => cases hfields
  · rfl

theorem function?_insertInFunction :
    function? (insertInFunction call key value) =
      (function? call).map (Json.insertField · key value) := by
  unfold insertInFunction
  split
  · next hfunction =>
    rw [hfunction]
    simp [function?, Json.get, Json.asObject]
  · next h =>
    cases hfunction : function? call with
    | none => rfl
    | some function =>
      cases call with
      | obj fields => exact absurd hfunction (h fields function rfl)
      | _ => cases hfunction

theorem insertInFunction_of_none (h : function? call = none) :
    insertInFunction call key value = call := by
  unfold insertInFunction
  split
  · next h' => simp [h] at h'
  · rfl

theorem functionText_insertInFunction_self (hkey : Json.indexToken key = none)
    (h : (function? call).isSome) (text : String) :
    functionText (insertInFunction call key (.str text)) key = text := by
  obtain ⟨function, hfunction⟩ := Option.isSome_iff_exists.mp h
  rw [functionText, functionText?_eq hkey, function?_insertInFunction, hfunction]
  simp [Json.asStr]

theorem functionText_insertInFunction_of_ne {other : String} (h : other ≠ key)
    (hother : Json.indexToken other = none) :
    functionText (insertInFunction call key value) other = functionText call other := by
  rw [functionText, functionText, functionText?_eq hother, functionText?_eq hother,
    function?_insertInFunction]
  cases function? call with
  | none => rfl
  | some function => simp [Json.lookup_insertField_of_ne h]

/-- What insertions into the function of a call preserve, merging a delta does. -/
theorem mergeDelta_induction {motive : Json → Prop} (hcall : motive call)
    (hinsert : ∀ call key value, motive call → motive (insertInFunction call key value)) :
    motive (mergeDelta call delta) := by
  have happend : motive (appendArguments call (functionText delta "arguments")) := by
    unfold appendArguments
    split
    · exact hcall
    · exact hinsert _ _ _ hcall
  unfold mergeDelta fillName
  split
  · split
    · exact hinsert _ _ _ happend
    · exact happend
  · exact happend

/-- What a call has beside its function stays. -/
theorem get_mergeDelta {other : String} (h : other ≠ "function") :
    (mergeDelta call delta).get other = call.get other :=
  mergeDelta_induction (motive := fun c ↦ c.get other = call.get other) rfl
    fun _ _ _ hc ↦ (get_insertInFunction h).trans hc

theorem mergeDelta_of_none (h : function? call = none) : mergeDelta call delta = call :=
  mergeDelta_induction (motive := (· = call)) rfl fun _ _ _ hc ↦ by
    rw [hc, insertInFunction_of_none h]

theorem isSome_function?_mergeDelta :
    (function? (mergeDelta call delta)).isSome = (function? call).isSome :=
  mergeDelta_induction (motive := fun c ↦ (function? c).isSome = (function? call).isSome) rfl
    fun _ _ _ hc ↦ by rw [function?_insertInFunction, Option.isSome_map, hc]

theorem isSome_function?_appendArguments (fragment : String) :
    (function? (appendArguments call fragment)).isSome = (function? call).isSome := by
  unfold appendArguments
  split
  · rfl
  · rw [function?_insertInFunction, Option.isSome_map]

theorem functionText_appendArguments (h : (function? call).isSome) (fragment : String) :
    functionText (appendArguments call fragment) "arguments" =
        functionText call "arguments" ++ fragment ∧
      functionText (appendArguments call fragment) "name" = functionText call "name" := by
  unfold appendArguments
  split
  · next hempty => simp [String.isEmpty_iff.mp hempty]
  · exact ⟨functionText_insertInFunction_self (by decide) h _,
      functionText_insertInFunction_of_ne (by decide) (by decide)⟩

theorem functionText_fillName (h : (function? call).isSome) (name : Option String) :
    functionText (fillName call name) "arguments" = functionText call "arguments" ∧
      functionText (fillName call name) "name" =
        ToolCall.firstText (functionText call "name") (name.getD "") := by
  obtain ⟨function, hfunction⟩ := Option.isSome_iff_exists.mp h
  have hname : functionText call "name" = ((function.lookup "name").bind Json.asStr).getD "" := by
    rw [functionText, functionText?_eq (by decide), hfunction]
    rfl
  cases name with
  | none =>
    refine ⟨rfl, ?_⟩
    change functionText call "name" = ToolCall.firstText _ ""
    unfold ToolCall.firstText
    split
    · assumption
    · rfl
  | some name =>
    have hmissing : nameMissing function = true ↔ functionText call "name" = "" := by
      rw [hname, nameMissing]
      cases (function.lookup "name").bind Json.asStr <;> simp
    simp only [fillName, hfunction, Option.all_some, hmissing, ToolCall.firstText]
    split
    · exact ⟨functionText_insertInFunction_of_ne (by decide) (by decide),
        functionText_insertInFunction_self (by decide) h _⟩
    · exact ⟨rfl, rfl⟩

/-- A call with a function object takes the name and the arguments of a delta, not its id. -/
theorem read_mergeDelta (h : (function? call).isSome) : ToolCall.read (mergeDelta call delta) =
    { (ToolCall.read call).add (ToolCall.read delta) with id := (ToolCall.read call).id } := by
  obtain ⟨harguments, hname⟩ := functionText_appendArguments h (functionText delta "arguments")
  obtain ⟨hkept, hfilled⟩ := functionText_fillName
    ((isSome_function?_appendArguments (functionText delta "arguments")).trans h)
    (functionText? delta "name")
  rw [harguments] at hkept
  rw [hname] at hfilled
  simp only [ToolCall.read, ToolCall.add, ToolCall.mk.injEq]
  exact ⟨by rw [Json.strField, get_mergeDelta (by decide), Json.strField], hfilled, hkept⟩

/-! ## The deltas of one index -/

variable {deltas : List Json}

/-- All texts are empty exactly where the first that is not is. -/
theorem foldl_firstText_eq_empty (texts : List String) (text : String) :
    texts.foldl ToolCall.firstText text = "" ↔ text = "" ∧ ∀ t ∈ texts, t = "" := by
  induction texts generalizing text with
  | nil => simp
  | cons t texts ih =>
    rw [List.foldl_cons, ih, ToolCall.firstText]
    split
    · next h => simp [h]
    · next h => simp [h]

/-- A text stays the first exactly where it is not empty or no other is either. -/
theorem foldl_firstText_eq_self (texts : List String) (text : String) :
    texts.foldl ToolCall.firstText text = text ↔ text ≠ "" ∨ ∀ t ∈ texts, t = "" := by
  by_cases h : text = ""
  · subst h
    rw [foldl_firstText_eq_empty]
    simp
  · refine iff_of_true ?_ (.inl h)
    induction texts with
    | nil => rfl
    | cons t texts ih => rw [List.foldl_cons, ToolCall.firstText, if_neg h, ih]

theorem foldl_append_eq_empty (texts : List String) (text : String) :
    texts.foldl (· ++ ·) text = "" ↔ text = "" ∧ ∀ t ∈ texts, t = "" := by
  induction texts generalizing text with
  | nil => simp
  | cons t texts ih => simp [ih, and_assoc]

/-- What joining deltas to a call makes of each field. -/
theorem foldl_add (calls : List ToolCall) (call : ToolCall) : calls.foldl ToolCall.add call =
    ⟨(calls.map ToolCall.id).foldl ToolCall.firstText call.id,
      (calls.map ToolCall.name).foldl ToolCall.firstText call.name,
      (calls.map ToolCall.arguments).foldl (· ++ ·) call.arguments⟩ := by
  induction calls generalizing call with
  | nil => rfl
  | cons c calls ih => rw [List.foldl_cons, ih, ToolCall.add]; rfl

theorem foldl_mergeDelta_of_none (h : function? call = none) :
    deltas.foldl mergeDelta call = call := by
  induction deltas with
  | nil => rfl
  | cons delta deltas ih => rw [List.foldl_cons, mergeDelta_of_none h, ih]

theorem read_foldl_mergeDelta (h : (function? call).isSome) :
    ToolCall.read (deltas.foldl mergeDelta call) =
      { (deltas.map ToolCall.read).foldl ToolCall.add (ToolCall.read call) with
        id := (ToolCall.read call).id } := by
  induction deltas generalizing call with
  | nil => rfl
  | cons delta deltas ih =>
    rw [List.foldl_cons, ih (isSome_function?_mergeDelta.trans h), read_mergeDelta h,
      List.map_cons, List.foldl_cons, foldl_add, foldl_add]

/-- Merging the later deltas of an index into the first gives the client's call exactly where the
first has what the others would bring. -/
theorem read_foldl_mergeDelta_eq_join (first : Json) (later : List Json) :
    ToolCall.read (later.foldl mergeDelta first) = ToolCall.join (first :: later) ↔
      ((function? first).isSome ∨
        ∀ delta ∈ later, functionText delta "name" = "" ∧ functionText delta "arguments" = "") ∧
      ((ToolCall.read first).id ≠ "" ∨ ∀ delta ∈ later, (ToolCall.read delta).id = "") := by
  have hid := foldl_firstText_eq_self ((later.map ToolCall.read).map ToolCall.id)
    (ToolCall.read first).id
  rw [List.map_map, List.forall_mem_map] at hid
  rw [ToolCall.join, foldl_add, List.map_map, List.map_map, List.map_map]
  by_cases h : (function? first).isSome
  · rw [read_foldl_mergeDelta h, foldl_add, ToolCall.mk.injEq, List.map_map, List.map_map,
      eq_comm, hid]
    simp [h]
  · rw [Option.not_isSome_iff_eq_none] at h
    have hname : (ToolCall.read first).name = "" := functionText_of_none (by decide) h
    have harguments : (ToolCall.read first).arguments = "" := functionText_of_none (by decide) h
    have hnames := foldl_firstText_eq_empty (later.map (ToolCall.name ∘ ToolCall.read)) ""
    have hparts := foldl_append_eq_empty (later.map (ToolCall.arguments ∘ ToolCall.read)) ""
    rw [List.forall_mem_map] at hnames hparts
    rw [foldl_mergeDelta_of_none h, eq_comm, ToolCall.ext_iff, hname, harguments]
    simp only [hid, hnames, hparts, h, Function.comp_apply]
    simp [ToolCall.read, forall_and, and_comm]

/-! ## All deltas -/

/-- A first delta that states its index gets the other deltas of that index. -/
theorem mergeToolCalls_cons_of_stated (h : (stated delta).isSome) :
    mergeToolCalls [] (delta :: deltas) =
      (deltas.filter (indexOf · = indexOf delta)).foldl mergeDelta delta ::
        mergeToolCalls [] (deltas.filter (indexOf · ≠ indexOf delta)) := by
  obtain ⟨index, hindex⟩ := Option.isSome_iff_exists.mp h
  have hkey : indexOf delta = index := by
    change (stated delta).getD 0 = index
    rw [hindex, Option.getD_some]
  rw [mergeToolCalls, foldl_gather_nil fun c d ↦ by rw [stated, get_mergeDelta (by decide), stated]]
  simp only [id_eq, hindex, hkey, Option.some.injEq, eq_comm (a := index), ne_eq, decide_not]
  rfl

/-- One that does not gets none. -/
theorem mergeToolCalls_cons_of_unstated (h : stated delta = none) :
    mergeToolCalls [] (delta :: deltas) = delta :: mergeToolCalls [] deltas := by
  rw [mergeToolCalls, foldl_gather_nil fun c d ↦ by rw [stated, get_mergeDelta (by decide), stated]]
  simp [h, mergeToolCalls]

theorem clientCalls_cons : clientCalls (delta :: deltas) =
    ToolCall.join (delta :: deltas.filter (indexOf · = indexOf delta)) ::
      clientCalls (deltas.filter (indexOf · ≠ indexOf delta)) := by
  rw [clientCalls, groups_cons, List.map_cons, clientCalls]

/-- Merging makes no fewer calls than a client does. -/
theorem length_clientCalls_le (deltas : List Json) :
    (clientCalls deltas).length ≤ (mergeToolCalls [] deltas).length := by
  induction hn : deltas.length using Nat.strongRecOn generalizing deltas with
  | ind n ih =>
    subst hn
    cases deltas with
    | nil => exact Nat.le_refl _
    | cons delta deltas =>
      have hlt := Nat.lt_succ_of_le (List.length_filter_le (indexOf · ≠ indexOf delta) deltas)
      rw [clientCalls_cons, List.length_cons]
      cases h : stated delta with
      | some index =>
        rw [mergeToolCalls_cons_of_stated (by rw [h]; rfl), List.length_cons]
        exact Nat.succ_le_succ (ih _ hlt _ rfl)
      | none =>
        rw [mergeToolCalls_cons_of_unstated h, List.length_cons]
        have hrest := ih _ (Nat.lt_succ_self _) deltas rfl
        have hfewer := @length_groups_filter _ _ _ indexOf deltas (indexOf delta)
        simp only [clientCalls, List.length_map] at hrest ⊢
        omega

/-- Merged deltas read as the client's calls exactly where those of every index merge without
loss. -/
theorem mergeToolCalls_read_iff (deltas : List Json) :
    (mergeToolCalls [] deltas).map ToolCall.read = clientCalls deltas ↔
      ∀ index, Mergeable (deltas.filter (indexOf · = index)) := by
  induction hn : deltas.length using Nat.strongRecOn generalizing deltas with
  | ind n ih =>
    subst hn
    cases deltas with
    | nil => exact iff_of_true rfl fun _ ↦ trivial
    | cons delta deltas =>
      have hlt := Nat.lt_succ_of_le (List.length_filter_le (indexOf · ≠ indexOf delta) deltas)
      -- what the condition says of the first index and of the others
      have hsplit : (∀ index, Mergeable ((delta :: deltas).filter (indexOf · = index))) ↔
          Mergeable (delta :: deltas.filter (indexOf · = indexOf delta)) ∧
            ∀ index, Mergeable ((deltas.filter (indexOf · ≠ indexOf delta)).filter
              (indexOf · = index)) := by
        simp only [filter_filter_key]
        refine ⟨fun hall ↦ ⟨?_, fun index ↦ ?_⟩, fun ⟨hfirst, hothers⟩ index ↦ ?_⟩
        · have hfirst := hall (indexOf delta)
          rwa [List.filter_cons_of_pos (by simp)] at hfirst
        · split
          · trivial
          · next hne =>
            have hother := hall index
            rwa [List.filter_cons_of_neg (by simpa using Ne.symm hne)] at hother
        · by_cases hindex : index = indexOf delta
          · subst hindex
            rwa [List.filter_cons_of_pos (by simp)]
          · have hother := hothers index
            rw [if_neg hindex] at hother
            rwa [List.filter_cons_of_neg (by simpa using Ne.symm hindex)]
      rw [hsplit, clientCalls_cons]
      cases h : stated delta with
      | some index =>
        have hstated : (stated delta).isSome := by rw [h]; rfl
        rw [mergeToolCalls_cons_of_stated hstated, List.map_cons, List.cons.injEq,
          ih _ hlt _ rfl, read_foldl_mergeDelta_eq_join]
        refine and_congr_left fun _ ↦ ⟨fun hread ↦ .inr ⟨hstated, hread⟩, ?_⟩
        rintro (hnone | ⟨-, hread⟩)
        · rw [hnone]
          exact ⟨.inr nofun, .inr nofun⟩
        · exact hread
      | none =>
        rw [mergeToolCalls_cons_of_unstated h, List.map_cons]
        cases hsame : deltas.filter (indexOf · = indexOf delta) with
        | nil =>
          have hothers : deltas.filter (indexOf · ≠ indexOf delta) = deltas := by
            refine List.filter_eq_self.mpr fun d hd ↦ ?_
            simpa using List.filter_eq_nil_iff.mp hsame d hd
          rw [hothers, List.cons.injEq, ih _ (Nat.lt_succ_self _) deltas rfl]
          refine and_congr_left fun _ ↦ iff_of_true rfl (.inl rfl)
        | cons other same =>
          refine iff_of_false (fun heq ↦ ?_) fun hall ↦ ?_
          · have hlength := congrArg List.length heq
            have hmem : indexOf delta ∈ deltas.map indexOf := by
              have hother : other ∈ deltas.filter (indexOf · = indexOf delta) := by simp [hsame]
              rw [List.mem_filter, decide_eq_true_eq] at hother
              exact List.mem_map.mpr ⟨other, hother⟩
            have hle := length_clientCalls_le deltas
            have hfewer := @length_groups_filter _ _ _ indexOf deltas (indexOf delta)
            rw [if_pos hmem] at hfewer
            simp only [clientCalls, List.length_cons, List.length_map] at hlength hle
            omega
          · rcases hall.1 with hnil | ⟨hsome, -⟩
            · cases hnil
            · rw [h] at hsome
              cases hsome

/-- Deltas that state indexes of their own stay as they are. -/
theorem mergeToolCalls_eq_self {deltas : List Json} (hstated : ∀ delta ∈ deltas, (stated delta).isSome)
    (hindexes : (deltas.map indexOf).Nodup) : mergeToolCalls [] deltas = deltas := by
  induction deltas with
  | nil => rfl
  | cons delta deltas ih =>
    rw [List.map_cons, List.nodup_cons] at hindexes
    rw [List.forall_mem_cons] at hstated
    have hother : ∀ other ∈ deltas, indexOf other ≠ indexOf delta := fun other h heq ↦
      hindexes.1 (List.mem_map.mpr ⟨other, h, heq⟩)
    have hsame : deltas.filter (indexOf · = indexOf delta) = [] := by
      rw [List.filter_eq_nil_iff]
      intro other h
      simpa using hother other h
    have hothers : deltas.filter (indexOf · ≠ indexOf delta) = deltas := by
      rw [List.filter_eq_self]
      intro other h
      simpa using hother other h
    rw [mergeToolCalls_cons_of_stated hstated.1, hsame, hothers, ih hstated.2 hindexes.2]
    rfl

/-- Merging makes no call of its own. -/
theorem length_mergeToolCalls_le (deltas : List Json) :
    (mergeToolCalls [] deltas).length ≤ deltas.length := by
  induction hn : deltas.length using Nat.strongRecOn generalizing deltas with
  | ind n ih =>
    subst hn
    cases deltas with
    | nil => exact Nat.le_refl _
    | cons delta deltas =>
      have hfewer := List.length_filter_le (indexOf · ≠ indexOf delta) deltas
      cases h : stated delta with
      | some index =>
        have hrest := ih _ (Nat.lt_succ_of_le hfewer) _ rfl
        rw [mergeToolCalls_cons_of_stated (by rw [h]; rfl), List.length_cons, List.length_cons]
        omega
      | none =>
        rw [mergeToolCalls_cons_of_unstated h, List.length_cons, List.length_cons]
        exact Nat.succ_le_succ (ih _ (Nat.lt_succ_self _) _ rfl)

/-- Deltas that state their indexes all become calls exactly where no two state the same. -/
theorem length_mergeToolCalls_eq_iff {deltas : List Json}
    (hstated : ∀ delta ∈ deltas, (stated delta).isSome) :
    (mergeToolCalls [] deltas).length = deltas.length ↔ (deltas.map indexOf).Nodup := by
  constructor
  · intro hlength
    induction deltas with
    | nil => exact .nil
    | cons delta deltas ih =>
      rw [List.forall_mem_cons] at hstated
      have hmerged := length_mergeToolCalls_le (deltas.filter (indexOf · ≠ indexOf delta))
      have hfewer := List.length_filter_le (indexOf · ≠ indexOf delta) deltas
      rw [mergeToolCalls_cons_of_stated hstated.1, List.length_cons, List.length_cons] at hlength
      have hall := List.length_filter_eq_length_iff.mp (show
        (deltas.filter (indexOf · ≠ indexOf delta)).length = deltas.length by omega)
      rw [List.filter_eq_self.mpr hall, Nat.add_right_cancel_iff] at hlength
      rw [List.map_cons, List.nodup_cons]
      refine ⟨?_, ih hstated.2 hlength⟩
      intro hmem
      obtain ⟨other, hother, heq⟩ := List.mem_map.mp hmem
      exact of_decide_eq_true (hall other hother) heq
  · intro hindexes
    rw [mergeToolCalls_eq_self hstated hindexes]

/-- Deltas of calls that follow one another, each under an index of its own, merge to the calls. -/
theorem mergeToolCalls_flatMap {calls : List (Nat × List Json)}
    (hindexes : (calls.map Prod.fst).Nodup)
    (hindex : ∀ call ∈ calls, ∀ delta ∈ call.2, indexOf delta = call.1)
    (hne : ∀ call ∈ calls, call.2 ≠ []) (hmerge : ∀ call ∈ calls, Mergeable call.2) :
    (mergeToolCalls [] (calls.flatMap Prod.snd)).map ToolCall.read =
      calls.map fun call ↦ ToolCall.join call.2 := by
  have hclient : clientCalls (calls.flatMap Prod.snd) =
      calls.map fun call ↦ ToolCall.join call.2 := by
    rw [clientCalls, groups_flatMap hindexes hindex hne, List.map_map]
    rfl
  rw [← hclient, mergeToolCalls_read_iff]
  intro index
  by_cases h : index ∈ calls.map Prod.fst
  · obtain ⟨call, hcall, rfl⟩ := List.mem_map.mp h
    rw [filter_flatMap_of_mem hindexes hindex hcall]
    exact hmerge call hcall
  · rw [filter_flatMap_of_not_mem hindex h]
    trivial

/-! ## Lists of deltas -/

/-- The calls accumulated from the delta lists of a body's chunks, in turn. -/
def accumulate (lists : List (List Json)) : List Json := lists.foldl mergeToolCalls []

/-- A call under its index. -/
def entryOf (call : Json) : Nat × ToolCall := (indexOf call, ToolCall.read call)

/-- The calls that the delta lists make, one for each index: the deltas of an index joined. -/
def entriesOf (lists : List (List Json)) : List (Nat × ToolCall) :=
  (lists.flatten.map indexOf).eraseDups.map fun index ↦
    (index, ToolCall.join (lists.flatten.filter (indexOf · = index)))

/-- The calls do not depend on how the deltas are spread over the lists. -/
theorem accumulate_eq (lists : List (List Json)) :
    accumulate lists = mergeToolCalls [] lists.flatten := by
  have hfrom (accumulated : List Json) : lists.foldl mergeToolCalls accumulated =
      mergeToolCalls accumulated lists.flatten := by
    induction lists generalizing accumulated with
    | nil => rfl
    | cons deltas lists ih =>
      rw [List.foldl_cons, ih, List.flatten_cons, mergeToolCalls, mergeToolCalls, mergeToolCalls,
        List.foldl_append]
  exact hfrom []

/-- Merging keeps the index of a call. -/
theorem indexOf_foldl_mergeDelta (first : Json) (later : List Json) :
    indexOf (later.foldl mergeDelta first) = indexOf first := by
  induction later generalizing first with
  | nil => rfl
  | cons delta later ih =>
    rw [List.foldl_cons, ih]
    show (stated (mergeDelta first delta)).getD 0 = (stated first).getD 0
    rw [stated, stated, get_mergeDelta (by decide)]

/-- Where the deltas of every index merge without loss, there is one call for each index. -/
theorem map_indexOf_mergeToolCalls {deltas : List Json}
    (h : ∀ index, Mergeable (deltas.filter (indexOf · = index))) :
    (mergeToolCalls [] deltas).map indexOf = (deltas.map indexOf).eraseDups := by
  induction hn : deltas.length using Nat.strongRecOn generalizing deltas with
  | ind n ih =>
    subst hn
    cases deltas with
    | nil => simp [mergeToolCalls]
    | cons delta deltas =>
      have hlt := Nat.lt_succ_of_le (List.length_filter_le (indexOf · ≠ indexOf delta) deltas)
      have hrest : ∀ index, Mergeable ((deltas.filter (indexOf · ≠ indexOf delta)).filter
          (indexOf · = index)) := by
        intro index
        rw [filter_filter_key]
        split
        · trivial
        · next hne =>
          have hother := h index
          rwa [List.filter_cons_of_neg (by simpa using Ne.symm hne)] at hother
      rw [eraseDups_map_cons, ← ih _ hlt hrest rfl]
      cases hstated : stated delta with
      | some index =>
        rw [mergeToolCalls_cons_of_stated (by rw [hstated]; rfl), List.map_cons,
          indexOf_foldl_mergeDelta]
      | none =>
        have hfirst := h (indexOf delta)
        rw [List.filter_cons_of_pos (by simp)] at hfirst
        have hsame : deltas.filter (indexOf · = indexOf delta) = [] := by
          rcases hfirst with hnone | ⟨hsome, -⟩
          · exact hnone
          · rw [hstated] at hsome
            cases hsome
        have hothers : deltas.filter (indexOf · ≠ indexOf delta) = deltas := by
          rw [List.filter_eq_self]
          intro other hother
          simpa using List.filter_eq_nil_iff.mp hsame other hother
        rw [mergeToolCalls_cons_of_unstated hstated, List.map_cons, hothers]

/-- The accumulated calls are one for each index that occurred, with its arguments joined and its
first id and name, exactly where the deltas of every index merge without loss. -/
theorem accumulated_entries_iff (lists : List (List Json)) :
    (accumulate lists).map entryOf = entriesOf lists ↔
      ∀ index, Mergeable (lists.flatten.filter (indexOf · = index)) := by
  have hjoined : (entriesOf lists).map Prod.snd = clientCalls lists.flatten := by
    rw [entriesOf, clientCalls, groups, List.map_map, List.map_map]
    rfl
  have hindexes : (entriesOf lists).map Prod.fst = (lists.flatten.map indexOf).eraseDups := by
    rw [entriesOf, List.map_map]
    exact List.map_id _
  rw [accumulate_eq, ← mergeToolCalls_read_iff]
  constructor
  · intro h
    have hcalls := congrArg (List.map Prod.snd) h
    rwa [hjoined, List.map_map] at hcalls
  · intro h
    have hkeys := map_indexOf_mergeToolCalls ((mergeToolCalls_read_iff _).mp h)
    rw [← List.zip_unzip (entriesOf lists), List.unzip_fst, List.unzip_snd, hindexes, hjoined,
      ← h, ← hkeys, List.zip_map']
    rfl

/-- Two fragments of one call, neither with an index. -/
def unindexed : List (List Json) :=
  [[Json.object [("id", .str "a"), ("function",
    Json.object [("name", .str "f"), ("arguments", .str "\x7b")])]],
   [Json.object [("function", Json.object [("arguments", .str "\x7d")])]]]

theorem unindexed_fragments_stay_apart :
    (accumulate unindexed).map entryOf ≠ entriesOf unindexed := by
  decide +kernel

end NullRouter.Stream
