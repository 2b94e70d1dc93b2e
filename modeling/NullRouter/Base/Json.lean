import NullRouter.Base.Text

/-!
# JSON values

`serde_json::Value` with the default (ordered) map, and the accessors the services use.
An object is an association list kept in the order of its keys by `insert`; reading takes
the first field of a name. A float is carried by its bits and never computed with.
-/

namespace NullRouter.Base

/-- `serde_json::Number`. -/
inductive Number where
  | posInt (n : Nat)
  | negInt (n : Int)
  | float (bits : UInt64)
  deriving DecidableEq, Repr

/-- `serde_json::Value`. -/
inductive Json where
  | null
  | bool (b : Bool)
  | num (n : Number)
  | str (s : String)
  | arr (items : List Json)
  | obj (fields : List (String × Json))
  deriving Repr, Inhabited

namespace Json

mutual

/-- Equality of values is decidable. -/
def decEq : (a b : Json) → Decidable (a = b)
  | .null, .null => isTrue rfl
  | .bool a, .bool b => decidable_of_iff (a = b) (by simp)
  | .num a, .num b => decidable_of_iff (a = b) (by simp)
  | .str a, .str b => decidable_of_iff (a = b) (by simp)
  | .arr a, .arr b => @decidable_of_iff _ (a = b) (by simp) (decEqItems a b)
  | .obj a, .obj b => @decidable_of_iff _ (a = b) (by simp) (decEqFields a b)
  | .null, .bool _ | .null, .num _ | .null, .str _ | .null, .arr _ | .null, .obj _
  | .bool _, .null | .bool _, .num _ | .bool _, .str _ | .bool _, .arr _ | .bool _, .obj _
  | .num _, .null | .num _, .bool _ | .num _, .str _ | .num _, .arr _ | .num _, .obj _
  | .str _, .null | .str _, .bool _ | .str _, .num _ | .str _, .arr _ | .str _, .obj _
  | .arr _, .null | .arr _, .bool _ | .arr _, .num _ | .arr _, .str _ | .arr _, .obj _
  | .obj _, .null | .obj _, .bool _ | .obj _, .num _ | .obj _, .str _ | .obj _, .arr _ =>
    isFalse nofun
termination_by structural a => a

/-- Equality of arrays of values is decidable. -/
def decEqItems : (a b : List Json) → Decidable (a = b)
  | [], [] => isTrue rfl
  | [], _ :: _ | _ :: _, [] => isFalse nofun
  | x :: xs, y :: ys =>
    match decEq x y, decEqItems xs ys with
    | isTrue h, isTrue k => isTrue (by rw [h, k])
    | isFalse h, _ => isFalse fun e ↦ h (List.cons.inj e).1
    | _, isFalse k => isFalse fun e ↦ k (List.cons.inj e).2
termination_by structural a => a

/-- Equality of objects' fields is decidable. -/
def decEqFields : (a b : List (String × Json)) → Decidable (a = b)
  | [], [] => isTrue rfl
  | [], _ :: _ | _ :: _, [] => isFalse nofun
  | x :: xs, y :: ys =>
    match decEqField x y, decEqFields xs ys with
    | isTrue h, isTrue i => isTrue (by rw [h, i])
    | isFalse h, _ => isFalse fun e ↦ h (List.cons.inj e).1
    | _, isFalse i => isFalse fun e ↦ i (List.cons.inj e).2
termination_by structural a => a

/-- Equality of fields is decidable. -/
def decEqField : (a b : String × Json) → Decidable (a = b)
  | (k, x), (l, y) =>
    match decEq x y, instDecidableEqString k l with
    | isTrue h, isTrue i => isTrue (by rw [h, i])
    | isFalse h, _ => isFalse fun e ↦ h (Prod.mk.inj e).2
    | _, isFalse i => isFalse fun e ↦ i (Prod.mk.inj e).1
termination_by structural a => a

end

instance : DecidableEq Json := decEq

/-- `Map::insert` on the fields of an object: replace the value of a key, or put the field
where its key belongs in the order. -/
def insertField (fields : List (String × Json)) (key : String) (value : Json) :
    List (String × Json) :=
  match fields with
  | [] => [(key, value)]
  | (k, v) :: rest =>
    if k = key then (key, value) :: rest
    else if key < k then (key, value) :: (k, v) :: rest
    else (k, v) :: insertField rest key value

/-- An object literal of `json!`: its fields inserted in turn. -/
def object (fields : List (String × Json)) : Json :=
  .obj (fields.foldl (fun acc f ↦ insertField acc f.1 f.2) [])

/-- `as_object_mut` and `insert`: a field of an object is set; any other value stays. -/
def setField : Json → String → Json → Json
  | .obj fields, key, value => .obj (insertField fields key value)
  | v, _, _ => v

/-- `as_object_mut` and `remove`: a field of an object is taken out; any other value stays. -/
def eraseField : Json → String → Json
  | .obj fields, key => .obj (fields.filter (·.1 ≠ key))
  | v, _ => v

/-- `Value::get` with a key: the field of an object, nothing on any other value. -/
def get : Json → String → Option Json
  | .obj fields, key => fields.lookup key
  | _, _ => none

/-- `Value::get` with a position. -/
def at? : Json → Nat → Option Json
  | .arr items, i => items[i]?
  | _, _ => none

/-- `Value::as_str`. -/
def asStr : Json → Option String
  | .str s => some s
  | _ => none

/-- `Value::as_bool`. -/
def asBool : Json → Option Bool
  | .bool b => some b
  | _ => none

/-- `Value::as_u64`: integers that are not negative. -/
def asU64 : Json → Option Nat
  | .num (.posInt n) => some n
  | _ => none

/-- `Value::as_array`. -/
def asArray : Json → Option (List Json)
  | .arr items => some items
  | _ => none

/-- `Value::as_object`. -/
def asObject : Json → Option (List (String × Json))
  | .obj fields => some fields
  | _ => none

/-- `Value::is_null`. -/
def isNull : Json → Bool
  | .null => true
  | _ => false

/-- The position a pointer token names: decimal digits without a sign or a leading zero. -/
def indexToken (token : String) : Option Nat :=
  if token.toList.head? = some '+' ∨ (token.toList.head? = some '0' ∧ token ≠ "0") then none
  else parseU64 token

/-- One token of a pointer: a key of an object or a position of an array. -/
def token? : Json → String → Option Json
  | .obj fields, key => fields.lookup key
  | .arr items, key => (indexToken key).bind (items[·]?)
  | _, _ => none

/-- `Value::pointer`, on the tokens of the path. -/
def pointer (v : Json) (tokens : List String) : Option Json :=
  tokens.foldl (fun v token ↦ v.bind (·.token? token)) (some v)

/-- `Value::from` an unsigned integer. -/
def nat (n : Nat) : Json := .num (.posInt n)

/-- A field by key and as text: `.get(key).and_then(Value::as_str)`. -/
def strField (v : Json) (key : String) : Option String := (v.get key).bind asStr

/-- The field just inserted is read back. -/
@[simp] theorem lookup_insertField_self (fields : List (String × Json)) (key : String)
    (value : Json) : (insertField fields key value).lookup key = some value := by
  induction fields with
  | nil => simp [insertField]
  | cons f rest ih =>
    obtain ⟨k, v⟩ := f
    unfold insertField
    split
    · simp
    · next hne =>
      split
      · simp
      · rw [List.lookup_cons, beq_false_of_ne (Ne.symm hne)]
        exact ih

/-- Inserting a field leaves the others. -/
theorem lookup_insertField_of_ne {fields : List (String × Json)} {key other : String}
    {value : Json} (h : other ≠ key) :
    (insertField fields key value).lookup other = fields.lookup other := by
  induction fields with
  | nil => simp [insertField, List.lookup_cons, beq_false_of_ne h]
  | cons f rest ih =>
    obtain ⟨k, v⟩ := f
    unfold insertField
    split
    · next heq =>
      subst heq
      simp [List.lookup_cons, beq_false_of_ne h]
    · split
      · rw [List.lookup_cons, beq_false_of_ne h]
      · rw [List.lookup_cons, ih, ← List.lookup_cons]

/-- Of two values put at a key, the last is there, in whatever order the fields are. -/
theorem insertField_insertField (fields : List (String × Json)) (key : String)
    (first last : Json) :
    insertField (insertField fields key first) key last =
      insertField fields key last := by
  induction fields with
  | nil => simp [insertField]
  | cons f fields ih =>
    obtain ⟨k, v⟩ := f
    by_cases hk : k = key
    · simp [insertField, hk]
    · by_cases hlt : key < k
      · simp [insertField, hk, hlt]
      · simp [insertField, hk, hlt, ih]

private theorem lookup_foldl_insertField (fields acc : List (String × Json)) (key : String) :
    (fields.foldl (fun acc f ↦ insertField acc f.1 f.2) acc).lookup key =
      (fields.reverse.lookup key).or (acc.lookup key) := by
  induction fields generalizing acc with
  | nil => simp
  | cons f fields ih =>
    obtain ⟨k, v⟩ := f
    rw [List.foldl_cons, ih, List.reverse_cons, List.lookup_append, Option.or_assoc]
    congr 1
    by_cases h : key = k
    · subst h
      simp
    · rw [lookup_insertField_of_ne h]
      simp [List.lookup_cons, beq_false_of_ne h]

/-- An object literal holds for each key the last field of that name. -/
theorem get_object (fields : List (String × Json)) (key : String) :
    (object fields).get key = fields.reverse.lookup key := by
  change List.lookup _ _ = _
  rw [lookup_foldl_insertField]
  simp

/-- As text it holds the last field of that name, where that is text. -/
theorem strField_object (fields : List (String × Json)) (key : String) :
    (object fields).strField key = (fields.reverse.lookup key).bind asStr := by
  rw [strField, get_object]

/-- Fields of other names at the end of an object literal do not change what a key holds. -/
theorem get_object_append {fields rest : List (String × Json)} {key : String}
    (h : ∀ f ∈ rest, f.1 ≠ key) : (object (fields ++ rest)).get key = (object fields).get key := by
  have hrest : rest.reverse.lookup key = none := by
    rw [List.lookup_eq_none_iff]
    intro f hf
    simpa using Ne.symm (h f (List.mem_reverse.mp hf))
  rw [get_object, get_object, List.reverse_append, List.lookup_append, hrest, Option.none_or]

/-- Setting a field leaves the others. -/
@[simp] theorem get_setField_of_ne {v value : Json} {key other : String} (h : other ≠ key) :
    (v.setField key value).get other = v.get other := by
  cases v with
  | obj fields => exact lookup_insertField_of_ne h
  | _ => rfl

/-- Of two values that a field is set to, the last is there. -/
theorem setField_setField (v : Json) (key : String) (first last : Json) :
    (v.setField key first).setField key last = v.setField key last := by
  cases v with
  | obj fields => exact congrArg obj (insertField_insertField fields key first last)
  | _ => rfl

/-- A field that was set is read back of an object. -/
theorem get_setField_self {v value : Json} {key : String} (h : v.asObject.isSome = true) :
    (v.setField key value).get key = some value := by
  cases v with
  | obj fields => exact lookup_insertField_self ..
  | _ => cases h

/-- Of fields that are chosen by their keys, those that are left hold what they held. -/
theorem lookup_filter (fields : List (String × Json)) (p : String → Bool) (key : String) :
    (fields.filter fun f ↦ p f.1).lookup key = if p key = true then fields.lookup key else none := by
  induction fields with
  | nil => simp
  | cons f fields ih =>
    obtain ⟨k, x⟩ := f
    by_cases hk : key = k
    · subst hk
      by_cases hp : p key = true
      · simp [hp]
      · simp [hp, ih]
    · have hne := beq_false_of_ne hk
      by_cases hp : p k = true
      · simp [hp, hne, ih, List.lookup_cons]
      · simp [hp, hne, ih, List.lookup_cons]

/-- Taking a field out leaves the others. -/
@[simp] theorem get_eraseField_of_ne {v : Json} {key other : String} (h : other ≠ key) :
    (v.eraseField key).get other = v.get other := by
  cases v with
  | obj fields =>
    rw [eraseField, get, lookup_filter fields fun k ↦ k ≠ key]
    simp [h, get]
  | _ => rfl

/-- A field that was taken out is gone. -/
@[simp] theorem get_eraseField_self (v : Json) (key : String) :
    (v.eraseField key).get key = none := by
  cases v with
  | obj fields =>
    rw [eraseField, get, lookup_filter fields fun k ↦ k ≠ key]
    simp
  | _ => rfl

/-- Taking fields out leaves the others. -/
theorem get_foldl_eraseField (v : Json) (names : List String) (key : String) :
    (names.foldl eraseField v).get key = if key ∈ names then none else v.get key := by
  induction names generalizing v with
  | nil => rfl
  | cons name names ih =>
    rw [List.foldl_cons, ih]
    by_cases hkey : key = name
    · subst hkey
      simp
    · simp [hkey]

/-- Setting a field keeps an object an object. -/
@[simp] theorem isSome_asObject_setField (v value : Json) (key : String) :
    (v.setField key value).asObject.isSome = v.asObject.isSome := by
  cases v <;> rfl

/-- Taking a field out keeps an object an object. -/
@[simp] theorem isSome_asObject_eraseField (v : Json) (key : String) :
    (v.eraseField key).asObject.isSome = v.asObject.isSome := by
  cases v <;> rfl

end Json
end NullRouter.Base
