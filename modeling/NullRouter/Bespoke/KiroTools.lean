import NullRouter.Base.Lists
import NullRouter.Bespoke.KiroRequest
import NullRouter.Bespoke.KiroResponse
import NullRouter.Translate.GeminiTools
import Mathlib.Data.List.Nodup

/-!
# Tool names to Kiro and back

The names under which `normalize_kiro_tool_specs` declares the tools of a request, those of the
calls in the history, and those of the calls of the reply. The names declared are told apart and
are ones that Kiro accepts; the map from the client's names is dropped where the document is built.
-/

namespace NullRouter.Bespoke.Kiro

open NullRouter.Base NullRouter.Translate

/-- A name that Kiro accepts: 1 to 64 characters from `[A-Za-z0-9_-]`. -/
def Accepted (name : String) : Prop :=
  1 ≤ name.length ∧ name.length ≤ kiroToolNameMax ∧ ∀ c ∈ name.toList, isNameChar c = true

instance (name : String) : Decidable (Accepted name) :=
  decidable_of_iff (1 ≤ name.length ∧ name.length ≤ kiroToolNameMax ∧
    name.toList.all isNameChar = true) (by rw [Accepted, List.all_eq_true])

/-- The names of a list of specifications. -/
def specNames (specs : List Json) : List String :=
  specs.filterMap fun spec ↦ (spec.get "toolSpecification").bind (·.strField "name")

/-- The names of the tools that a client called in a message. -/
def calledNames (message : Json) : List String :=
  if role message ≠ "assistant" then []
  else
    match arrayField message "tool_calls" with
    | some calls => calls.filterMap fun call ↦ (call.get "function").bind (·.strField "name")
    | none =>
      (((arrayField message "content").getD []).filter (hasType "tool_use")).map
        (textOrEmpty · "name")

/-- The names of the tool uses of a history. -/
def historyNames (history : List Turn) : List String :=
  history.flatMap fun turn ↦ turn.toolUses.filterMap (·.strField "name")

/-- The name under which a tool was declared. -/
def ToolSpecs.declared (named : ToolSpecs) (raw : String) : String :=
  (named.nameMap.lookup raw).getD raw

/-- The names of the tools of a request survive: the specifications are made, under names that
are distinct and accepted; every call of the history has the name of its specification; and every
call of the reply that uses a declared name reaches the client under the original one. -/
def NamesSurvive (serde : Translate.SerdeJson) (tools : List Json) : Prop :=
  ∃ named, normalizeKiroToolSpecs tools = some named ∧
    (specNames named.specs).Nodup ∧ (∀ name ∈ specNames named.specs, Accepted name) ∧
    (∀ messages, historyNames (convertMessages serde messages).history =
      (messages.flatMap calledNames).map named.declared) ∧
    ∀ (stream : Stream) decoded fragment raw, decoded.tool = some fragment →
      (raw, fragment.name) ∈ named.nameMap →
      (stream.push decoded).1.flatMap GeminiTools.chunkNames = [raw]

/-! ## The loop -/

section Loop

variable {used : List String} {base : String}

private theorem mem_tail_digits {n : Nat} {c : Char} (h : c ∈ (toString n).toList) : c ≠ '_' := by
  rintro rfl
  rw [Nat.toString_eq_repr, Nat.toList_repr] at h
  exact absurd (Nat.isDigit_of_mem_toDigits (by decide) (by decide) h) (by decide)

private theorem suffixed_toList (base : String) (n : Nat) : (suffixed base n).toList =
    base.toList.take (kiroToolNameMax - ("_" ++ toString n).length) ++
      '_' :: (toString n).toList := by
  simp [suffixed]

/-- Different suffixes make different names: what follows the last underscore is the number. -/
theorem suffixed_injective (base : String) : Function.Injective (suffixed base) := by
  intro n m h
  have hdigits (k : Nat) : (suffixed base k).toList.reverse.takeWhile (· ≠ '_') =
      (toString k).toList.reverse := by
    rw [suffixed_toList, List.reverse_append, List.reverse_cons, List.append_assoc,
      List.takeWhile_append_of_pos]
    · simp
    · intro c hc
      simpa using mem_tail_digits (List.mem_reverse.mp hc)
  have heq : (toString n).toList.reverse = (toString m).toList.reverse := by
    rw [← hdigits n, ← hdigits m, h]
  exact Nat.repr_injective (String.toList_injective (List.reverse_injective heq))

private theorem disambiguate_isSome_of_notMem {k suffix : Nat}
    (h : suffixed base (suffix + k) ∉ used) :
    (disambiguate used base (k + 1) (suffixed base suffix) (suffix + 1)).isSome = true := by
  induction k generalizing suffix with
  | zero => simp [disambiguate, show suffixed base suffix ∉ used from h]
  | succ k ih =>
    rw [disambiguate]
    split
    · exact ih (by rwa [show suffix + 1 + k = suffix + (k + 1) by omega])
    · rfl

private theorem disambiguate_mono {rounds more : Nat} {name : String} {suffix : Nat}
    {found : String} (h : disambiguate used base rounds name suffix = some found)
    (hle : rounds ≤ more) : disambiguate used base more name suffix = some found := by
  induction rounds generalizing more name suffix with
  | zero => cases h
  | succ rounds ih =>
    obtain ⟨more, rfl⟩ : ∃ k, more = k + 1 := ⟨more - 1, by omega⟩
    rw [disambiguate] at h ⊢
    split at h
    · next hmem =>
      rw [if_pos hmem]
      exact ih h (by omega)
    · next hmem =>
      rw [if_neg hmem]
      exact h

/-- The loop ends within two rounds more than there are names used, and what it finds stays the
same however many it is given. -/
theorem exists_disambiguate (used : List String) (base : String) :
    ∃ found, ∀ rounds, used.length + 2 ≤ rounds →
      disambiguate used base rounds base 2 = some found := by
  obtain ⟨k, hk, hfree⟩ := exists_notMem_of_injective (suffixed_injective base) used 2
  have hsome : (disambiguate used base (k + 2) base 2).isSome = true := by
    rw [disambiguate]
    split
    · exact disambiguate_isSome_of_notMem hfree
    · rfl
  obtain ⟨found, hfound⟩ := Option.isSome_iff_exists.mp hsome
  refine ⟨found, fun rounds hrounds ↦ ?_⟩
  exact disambiguate_mono hfound (by omega)

/-- What the loop finds is not used yet, and is the first choice or one with a suffix. -/
theorem disambiguate_spec {rounds : Nat} {name : String} {suffix : Nat} {found : String}
    (h : disambiguate used base rounds name suffix = some found) :
    found ∉ used ∧ (found = name ∨
      ∃ n, suffix ≤ n ∧ n < suffix + rounds ∧ found = suffixed base n) := by
  induction rounds generalizing name suffix with
  | zero => cases h
  | succ rounds ih =>
    rw [disambiguate] at h
    split at h
    · obtain ⟨hfree, hfound⟩ := ih h
      refine ⟨hfree, Or.inr ?_⟩
      rcases hfound with rfl | ⟨n, hle, hlt, rfl⟩
      · exact ⟨suffix, le_refl _, by omega, rfl⟩
      · exact ⟨n, by omega, by omega, rfl⟩
    · next hfree =>
      cases h
      exact ⟨hfree, Or.inl rfl⟩

theorem disambiguate_of_notMem {rounds suffix : Nat} {name : String} (h : name ∉ used) :
    disambiguate used base (rounds + 1) name suffix = some name := by
  rw [disambiguate, if_neg h]

end Loop

/-! ## The names declared -/

private theorem baseName_eq {raw : String} (h : raw ≠ "") (index : Nat) :
    baseName index raw = String.ofList ((raw.toList.map fun c ↦
      if isNameChar c = true then c else '_').take kiroToolNameMax) := by
  have hne : raw.toList ≠ [] := by simpa using h
  rw [baseName]
  simp [hne]

/-- The first choice for a name that Kiro accepts is that name. -/
theorem baseName_of_accepted {raw : String} (h : Accepted raw) (index : Nat) :
    baseName index raw = raw := by
  have hne : raw ≠ "" := by
    rintro rfl
    exact absurd h.1 (by decide)
  have hmap : (raw.toList.map fun c ↦ if isNameChar c = true then c else '_') = raw.toList := by
    conv_rhs => rw [← List.map_id raw.toList]
    apply List.map_congr_left
    intro c hc
    rw [if_pos (h.2.2 c hc)]
    rfl
  have hlength : raw.toList.length ≤ kiroToolNameMax := by
    rw [String.length_toList]
    exact h.2.1
  rw [baseName_eq hne, hmap, List.take_of_length_le hlength, String.ofList_toList]

/-- What a tool adds: nothing, where it has no name or one declared before, or a specification
under a name that is not used yet. -/
theorem addTool_cases {acc acc' : ToolSpecs} {index : Nat} {tool : Json}
    (h : addTool acc index tool = some acc') :
    (acc' = acc ∧ ∀ raw, rawName tool = some raw → raw ∈ acc.nameMap.map Prod.fst) ∨
    ∃ raw name, rawName tool = some raw ∧ raw ∉ acc.nameMap.map Prod.fst ∧
      disambiguate acc.usedNames (baseName index raw) (acc.usedNames.length + 2)
        (baseName index raw) 2 = some name ∧
      acc' = ⟨acc.specs ++ [toolSpecification name (description tool raw) (parameters tool)],
        acc.nameMap ++ [(raw, name)], acc.usedNames ++ [name]⟩ := by
  rw [addTool] at h
  split at h
  · next hnone =>
    cases h
    left
    refine ⟨rfl, fun raw hraw ↦ ?_⟩
    rw [hnone] at hraw
    cases hraw
  · next raw hraw =>
    split at h
    · next hmem =>
      cases h
      left
      refine ⟨rfl, fun raw' hraw' ↦ ?_⟩
      rw [hraw] at hraw'
      cases hraw'
      exact hmem
    · next hmem =>
      obtain ⟨name, hname, rfl⟩ := Option.map_eq_some_iff.mp h
      right
      exact ⟨raw, name, hraw, hmem, hname, rfl⟩

private theorem addTool_isSome (acc : ToolSpecs) (index : Nat) (tool : Json) :
    (addTool acc index tool).isSome = true := by
  rw [addTool]
  split
  · rfl
  · next raw _ =>
    split
    · rfl
    · obtain ⟨found, hfound⟩ := exists_disambiguate acc.usedNames (baseName index raw)
      rw [Option.isSome_map, hfound _ (le_refl _)]
      rfl

/-- The specifications are made of every list of tools. -/
theorem exists_normalizeKiroToolSpecs (tools : List Json) :
    ∃ named, normalizeKiroToolSpecs tools = some named := by
  rw [← Option.isSome_iff_exists]
  exact foldlM_isSome (fun acc (entry : Json × Nat) ↦ addTool_isSome acc entry.2 entry.1) _ _

private theorem specNames_append (specs : List Json) (name description : String) (schema : Json) :
    specNames (specs ++ [toolSpecification name description schema]) = specNames specs ++ [name] := by
  rw [specNames, List.filterMap_append]
  simp [specNames, toolSpecification, Json.get_object, Json.strField, List.lookup_cons, Json.asStr]

/-- What holds of the specifications made of some tools: each is under the name that the map
gives its tool, the tools with a name are all in the map, and no name is there twice. -/
structure ToolSpecs.Of (named : ToolSpecs) (tools : List Json) : Prop where
  specs : specNames named.specs = named.nameMap.map Prod.snd
  used : named.usedNames = named.nameMap.map Prod.snd
  raws : (named.nameMap.map Prod.fst).Nodup
  names : (named.nameMap.map Prod.snd).Nodup
  all : ∀ tool ∈ tools, ∀ raw, rawName tool = some raw → raw ∈ named.nameMap.map Prod.fst
  only : ∀ raw ∈ named.nameMap.map Prod.fst, ∃ tool ∈ tools, rawName tool = some raw
  length : named.nameMap.length ≤ tools.length

private theorem of_addTool {acc acc' : ToolSpecs} {tools : List Json} {index : Nat} {tool : Json}
    (hacc : acc.Of tools) (h : addTool acc index tool = some acc') : acc'.Of (tools ++ [tool]) := by
  rcases addTool_cases h with ⟨rfl, hall⟩ | ⟨raw, name, hraw, hmem, hname, rfl⟩
  · refine ⟨hacc.specs, hacc.used, hacc.raws, hacc.names, ?_, ?_, ?_⟩
    · simp only [List.mem_append, List.mem_singleton]
      rintro t (ht | rfl) raw hraw
      · exact hacc.all t ht raw hraw
      · exact hall raw hraw
    · intro raw hraw
      obtain ⟨t, ht, h⟩ := hacc.only raw hraw
      exact ⟨t, List.mem_append_left _ ht, h⟩
    · exact hacc.length.trans (by simp)
  · have hfree := (disambiguate_spec hname).1
    rw [hacc.used] at hfree
    refine ⟨?_, ?_, ?_, ?_, ?_, ?_, ?_⟩
    · rw [specNames_append, hacc.specs, List.map_append]
      rfl
    · rw [hacc.used, List.map_append]
      rfl
    · rw [List.map_append]
      exact List.Nodup.append hacc.raws (List.nodup_singleton raw)
        (List.disjoint_singleton.mpr hmem)
    · rw [List.map_append]
      exact List.Nodup.append hacc.names (List.nodup_singleton name)
        (List.disjoint_singleton.mpr hfree)
    · simp only [List.mem_append, List.mem_singleton, List.map_append, List.map_cons,
        List.map_nil]
      rintro t (ht | rfl) raw' hraw'
      · exact Or.inl (hacc.all t ht raw' hraw')
      · rw [hraw] at hraw'
        cases hraw'
        exact Or.inr rfl
    · intro raw' hraw'
      rw [List.map_append, List.mem_append] at hraw'
      rcases hraw' with hraw' | hraw'
      · obtain ⟨t, ht, h⟩ := hacc.only raw' hraw'
        exact ⟨t, List.mem_append_left _ ht, h⟩
      · obtain rfl := List.mem_singleton.mp hraw'
        exact ⟨tool, by simp, hraw⟩
    · rw [List.length_append, List.length_append]
      exact Nat.add_le_add_right hacc.length 1

private theorem of_nil : ToolSpecs.Of {} [] :=
  ⟨rfl, rfl, List.nodup_nil, List.nodup_nil, by simp, by simp, le_refl _⟩

/-- A law of the specifications that every tool keeps holds of all tools of a request. -/
theorem normalizeKiroToolSpecs_induction {P : List Json → ToolSpecs → Prop}
    (hstep : ∀ done acc index tool acc', acc.Of done → P done acc →
      addTool acc index tool = some acc' → P (done ++ [tool]) acc')
    (hinit : P [] {}) {tools : List Json} {named : ToolSpecs}
    (h : normalizeKiroToolSpecs tools = some named) : named.Of tools ∧ P tools named := by
  have hrun := foldlM_induction (P := fun done acc ↦ acc.Of (done.map Prod.fst) ∧
    P (done.map Prod.fst) acc) (fun done acc entry acc' hacc hadd ↦ by
      rw [List.map_append]
      exact ⟨of_addTool hacc.1 hadd, hstep _ _ _ _ _ hacc.1 hacc.2 hadd⟩) ⟨of_nil, hinit⟩ h
  rwa [List.zipIdx_map_fst] at hrun

/-- Where all names are accepted as they are, each tool is declared under its own. -/
theorem declared_eq_self {tools : List Json} {named : ToolSpecs}
    (h : normalizeKiroToolSpecs tools = some named)
    (haccepted : ∀ tool ∈ tools, ∀ raw, rawName tool = some raw → Accepted raw) :
    ∀ entry ∈ named.nameMap, entry.2 = entry.1 := by
  have hnamed := normalizeKiroToolSpecs_induction (P := fun done acc ↦
    (∀ tool ∈ done, ∀ raw, rawName tool = some raw → Accepted raw) →
      ∀ entry ∈ acc.nameMap, entry.2 = entry.1) ?_ (by simp) h
  · exact hnamed.2 haccepted
  · intro done acc index tool acc' hof hacc hadd haccepted
    have hdone := hacc fun t ht ↦ haccepted t (List.mem_append_left _ ht)
    rcases addTool_cases hadd with ⟨rfl, -⟩ | ⟨raw, name, hraw, hmem, hname, rfl⟩
    · exact hdone
    · have hbase := baseName_of_accepted (haccepted tool (by simp) raw hraw) index
      have hfree : raw ∉ acc.usedNames := by
        rw [hof.used]
        intro hused
        obtain ⟨entry, hentry, rfl⟩ := List.mem_map.mp hused
        exact hmem (List.mem_map.mpr ⟨entry, hentry, (hdone entry hentry).symm⟩)
      rw [hbase, disambiguate_of_notMem hfree] at hname
      cases hname
      simp only [List.mem_append, List.mem_singleton]
      rintro entry (hentry | rfl)
      · exact hdone entry hentry
      · rfl

/-! ## The schemas declared -/

/-- A field that Kiro refuses in a schema. -/
def Refused (field : String × Json) : Prop :=
  field.1 = "additionalProperties" ∨ field.1 = "required" ∧ field.2 = .arr []

/-- A schema that Kiro accepts: none of its objects has a field that it refuses. -/
inductive Clean : Json → Prop where
  | arr {items : List Json} (h : ∀ item ∈ items, Clean item) : Clean (.arr items)
  | obj {fields : List (String × Json)} (h : ∀ field ∈ fields, ¬ Refused field)
    (hchildren : ∀ field ∈ fields, Clean field.2) : Clean (.obj fields)
  | atom {value : Json} (harr : ∀ items, value ≠ .arr items) (hobj : ∀ fields, value ≠ .obj fields) :
    Clean value

private theorem normalizeSchema_eq_nil {value : Json} (h : normalizeSchema value = .arr []) :
    value = .arr [] := by
  cases value with
  | arr items =>
    cases items with
    | nil => rfl
    | cons item items => simp [normalizeSchema, normalizeItems] at h
  | _ => simp [normalizeSchema] at h

mutual

private theorem clean_schema : ∀ value : Json, Clean (normalizeSchema value)
  | .arr items => .arr (clean_items items)
  | .obj fields => .obj (fun field hfield ↦ (clean_fields fields field hfield).1)
      fun field hfield ↦ (clean_fields fields field hfield).2
  | .null | .bool _ | .num _ | .str _ => .atom (by simp [normalizeSchema]) (by simp [normalizeSchema])
termination_by structural value => value

private theorem clean_items : ∀ items : List Json, ∀ item ∈ normalizeItems items, Clean item
  | [] => by simp [normalizeItems]
  | first :: items => by
    have hfirst := clean_schema first
    have hitems := clean_items items
    rw [normalizeItems]
    exact List.forall_mem_cons.mpr ⟨hfirst, hitems⟩
termination_by structural items => items

private theorem clean_fields : ∀ fields : List (String × Json),
    ∀ field ∈ normalizeFields fields, ¬ Refused field ∧ Clean field.2
  | [] => by simp [normalizeFields]
  | (key, child) :: fields => by
    have hchild := clean_field (key, child)
    have hfields := clean_fields fields
    rw [normalizeFields]
    split_ifs with hextra hrequired
    · exact hfields
    · exact hfields
    · refine List.forall_mem_cons.mpr ⟨⟨?_, hchild⟩, hfields⟩
      rintro (h | ⟨hkey, h⟩)
      · exact hextra h
      · exact hrequired ⟨hkey, normalizeSchema_eq_nil h⟩
termination_by structural fields => fields

private theorem clean_field : ∀ field : String × Json, Clean (normalizeField field).2
  | (_, child) => clean_schema child
termination_by structural field => field

end

/-- A schema that Kiro accepts is left as it is. -/
theorem normalizeSchema_of_clean {value : Json} (h : Clean value) : normalizeSchema value = value := by
  induction h with
  | @arr items _ ih =>
    have hitems : normalizeItems items = items := by
      clear * - ih
      induction items with
      | nil => rfl
      | cons item items hrest =>
        rw [List.forall_mem_cons] at ih
        rw [normalizeItems, ih.1, hrest ih.2]
    rw [normalizeSchema, hitems]
  | @obj fields h _ ih =>
    have hfields : normalizeFields fields = fields := by
      clear * - h ih
      induction fields with
      | nil => rfl
      | cons field fields hrest =>
        rw [List.forall_mem_cons] at h ih
        obtain ⟨hextra, hrequired⟩ := not_or.mp h.1
        rw [normalizeFields, if_neg hextra, if_neg hrequired, normalizeField, ih.1, hrest h.2 ih.2]
    rw [normalizeSchema, hfields]
  | @atom value harr hobj =>
    cases value with
    | arr items => exact absurd rfl (harr items)
    | obj fields => exact absurd rfl (hobj fields)
    | _ => rfl

/-- Each specification is of a tool with a name: under the name that the map gives it, and with the
tool's parameters where Kiro accepts them, else with ones that it accepts. -/
def ToolSpecs.Declare (named : ToolSpecs) (tools : List Json) : Prop :=
  ∀ spec ∈ named.specs, ∃ tool ∈ tools, ∃ raw name schema, rawName tool = some raw ∧
    (raw, name) ∈ named.nameMap ∧
    spec = Json.object [("toolSpecification", Json.object [("name", .str name),
      ("description", .str (description tool raw)),
      ("inputSchema", Json.object [("json", schema)])])] ∧
    Clean schema ∧ (schema = parameters tool ↔ Clean (parameters tool))

/-- All tools of a request are declared so. -/
theorem declare_normalizeKiroToolSpecs (tools : List Json) :
    ∃ named, normalizeKiroToolSpecs tools = some named ∧ named.Declare tools := by
  obtain ⟨named, hnamed⟩ := exists_normalizeKiroToolSpecs tools
  refine ⟨named, hnamed, (normalizeKiroToolSpecs_induction
    (P := fun done acc ↦ acc.Declare done) ?_ (by simp [ToolSpecs.Declare]) hnamed).2⟩
  intro done acc index tool acc' _ hacc hadd spec hspec
  rcases addTool_cases hadd with ⟨rfl, -⟩ | ⟨raw, name, hraw, -, -, rfl⟩
  · obtain ⟨tool', htool, h⟩ := hacc spec hspec
    exact ⟨tool', List.mem_append_left _ htool, h⟩
  · simp only [List.mem_append, List.mem_singleton] at hspec ⊢
    rcases hspec with hspec | rfl
    · obtain ⟨tool', htool, raw', name', schema, hraw', hname, h⟩ := hacc spec hspec
      exact ⟨tool', .inl htool, raw', name', schema, hraw', .inl hname, h⟩
    · exact ⟨tool, .inr rfl, raw, name, _, hraw, .inr rfl, rfl, clean_schema _,
        fun h ↦ h ▸ clean_schema _, normalizeSchema_of_clean⟩

/-! ## The names used -/

private theorem names_toolUses (serde : Translate.SerdeJson) (message : Json) :
    (turnOf serde message).toolUses.filterMap (·.strField "name") = calledNames message := by
  rw [turnOf, calledNames]
  by_cases hrole : role message = "assistant"
  · rw [if_pos hrole, if_neg (by simpa using hrole)]
    cases hcalls : arrayField message "tool_calls" with
    | some calls =>
      have hcall (call : Json) : (toolUseFromCall serde call).bind (·.strField "name") =
          (call.get "function").bind (·.strField "name") := by
        rw [toolUseFromCall, Option.bind_assoc]
        congr 1
        funext function
        cases function.strField "name" with
        | none => rfl
        | some name =>
          simp [Json.strField, Json.get_object, List.lookup_cons, Json.asStr]
      simp only [Turn.toolUses, Option.map_some, Option.getD_some, List.filterMap_filterMap, hcall]
    | none =>
      simp only [Turn.toolUses, Option.map_none, Option.getD_none, assistantParts]
      unfold arrayField
      cases message.get "content" with
      | none => rfl
      | some content =>
        cases content with
        | arr parts =>
          simp [Json.asArray, List.filterMap_map, Function.comp_def, Json.strField,
            Json.get_object, List.lookup_cons, Json.asStr]
        | _ => rfl
  · rw [if_neg hrole, if_pos hrole]
    split
    · rfl
    · split <;> rfl

private theorem historyNames_merge (turns : List Turn) :
    historyNames (mergeConsecutiveUsers turns) =
      turns.flatMap fun turn ↦ turn.toolUses.filterMap (·.strField "name") := by
  apply flatMap_coalesce
  intro a b merged h
  cases a <;> cases b <;> cases h
  rfl

private theorem calledNames_of_role {message : Json} (h : role message ≠ "assistant") :
    calledNames message = [] := by
  rw [calledNames, if_pos h]

/-- The calls of the history carry the names that the client wrote. -/
theorem historyNames_convertMessages (serde : Translate.SerdeJson) (messages : List Json) :
    historyNames (convertMessages serde messages).history = messages.flatMap calledNames := by
  have hmerge (ms : List Json) : historyNames (mergeConsecutiveUsers (ms.map (turnOf serde))) =
      ms.flatMap calledNames := by
    rw [historyNames_merge, List.flatMap_map]
    simp only [names_toolUses]
  rcases convertMessages_cases serde messages with
    ⟨-, h⟩ | ⟨front, message, back, rfl, hrole, -, h⟩
  · rw [h, hmerge]
  · rw [h, hmerge, List.flatMap_append, List.flatMap_append, List.flatMap_cons,
      calledNames_of_role hrole, List.nil_append]

private theorem chunkNames_buildChunk (m : ChunkMeta) (delta : Json) (reason : Option String) :
    GeminiTools.chunkNames (buildChunk m delta reason) = GeminiTools.callNames (some delta) := by
  simp [GeminiTools.chunkNames, buildChunk, firstChoice, Json.get_object, List.lookup_cons,
    Json.asArray]

private theorem chunkNames_delta (s : Stream) (delta : Json) :
    GeminiTools.chunkNames (s.delta delta).1 = GeminiTools.callNames (some delta) := by
  rw [Stream.delta, chunkNames_buildChunk]
  split
  · rfl
  · simp [GeminiTools.callNames, deltaToolCalls]

private theorem chunkNames_text (s : Stream) (key text : String) (h : key ≠ "tool_calls") :
    (Stream.one (s.delta (Json.object [(key, .str text)]))).1.flatMap GeminiTools.chunkNames =
      [] := by
  rw [Stream.one, List.flatMap_singleton, chunkNames_delta]
  simp [GeminiTools.callNames, deltaToolCalls, Json.get_object, List.lookup_cons,
    beq_false_of_ne h.symm]

private theorem chunkNames_pushTool (s : Stream) (fragment : ToolFragment) :
    (Stream.one (s.pushTool fragment)).1.flatMap GeminiTools.chunkNames = [fragment.name] := by
  rw [Stream.one, List.flatMap_singleton, Stream.pushTool, chunkNames_delta]
  simp [GeminiTools.callNames, deltaToolCalls, Json.get_object, List.lookup_cons, Json.asArray,
    Json.strField, Json.asStr]

private theorem chunkNames_finish (s : Stream) :
    s.finish.1.flatMap GeminiTools.chunkNames = [] := by
  have hempty : GeminiTools.callNames (some (Json.obj [])) = [] := rfl
  have hcontent := chunkNames_text { s with finished := true } "content" "" (by decide)
  rw [Stream.one, List.flatMap_singleton] at hcontent
  rw [Stream.finish]
  split
  · rfl
  · simp only [List.flatMap_append, List.flatMap_singleton, chunkNames_buildChunk, hempty,
      List.append_nil]
    split
    · rfl
    · rw [List.flatMap_singleton, hcontent]

/-- A frame of the reply delivers a call under the name that the frame has. -/
theorem chunkNames_push (s : Stream) (decoded : Decoded) :
    (s.push decoded).1.flatMap GeminiTools.chunkNames =
      decoded.tool.toList.map ToolFragment.name := by
  have htext (o : Option String) (t : Stream) (key : String) (h : key ≠ "tool_calls") :
      (o.elim ([], t) fun text ↦
        Stream.one (t.delta (Json.object [(key, .str text)]))).1.flatMap
          GeminiTools.chunkNames = [] := by
    cases o with
    | none => rfl
    | some text => exact chunkNames_text t key text h
  have htool (o : Option ToolFragment) (t : Stream) :
      (o.elim ([], t) fun fragment ↦ Stream.one (t.pushTool fragment)).1.flatMap
        GeminiTools.chunkNames = o.toList.map ToolFragment.name := by
    cases o with
    | none => rfl
    | some fragment => exact chunkNames_pushTool t fragment
  have hstop (stopped : Bool) (t : Stream) :
      (if stopped = true then t.finish else ([], t)).1.flatMap GeminiTools.chunkNames = [] := by
    cases stopped with
    | false => rfl
    | true => exact chunkNames_finish t
  simp only [Stream.push, List.flatMap_append, htext _ _ "content" (by decide),
    htext _ _ "reasoning_content" (by decide), htool, hstop, List.nil_append, List.append_nil]

/-! ## Whether names survive -/

/-- An assistant's message that calls a tool. -/
def callOf (name : String) : Json :=
  .obj [("role", .str "assistant"),
    ("tool_calls", .arr [.obj [("function", .obj [("name", .str name)])]])]

private theorem calledNames_callOf (name : String) : calledNames (callOf name) = [name] := by
  rfl

private theorem declared_of_mem {named : ToolSpecs} {tools : List Json} (h : named.Of tools)
    {raw name : String} (hmem : (raw, name) ∈ named.nameMap) : named.declared raw = name := by
  rw [ToolSpecs.declared, lookup_of_mem h.raws hmem, Option.getD_some]

private theorem accepted_of_namesSurvive {serde : Translate.SerdeJson} {tools : List Json}
    (h : NamesSurvive serde tools) {tool : Json} (htool : tool ∈ tools) {raw : String}
    (hraw : rawName tool = some raw) : Accepted raw := by
  obtain ⟨named, hnamed, -, haccepted, hhistory, -⟩ := h
  have hof := (normalizeKiroToolSpecs_induction (P := fun _ _ ↦ True)
    (fun _ _ _ _ _ _ _ _ ↦ trivial) trivial hnamed).1
  obtain ⟨⟨given, name⟩, hmem, hgiven⟩ := List.mem_map.mp (hof.all tool htool raw hraw)
  obtain rfl : given = raw := hgiven
  have hcall := hhistory [callOf given]
  rw [historyNames_convertMessages, List.flatMap_singleton, calledNames_callOf,
    List.map_singleton, declared_of_mem hof hmem] at hcall
  have hname : given = name := List.singleton_inj.mp hcall
  subst hname
  apply haccepted
  rw [hof.specs]
  exact List.mem_map_of_mem hmem

/-- The names of the tools survive exactly when each is one that Kiro accepts as it is: a name that
has to be changed is changed in the specification alone. -/
theorem kiroNamesSurvive_iff (serde : Translate.SerdeJson) (tools : List Json) :
    NamesSurvive serde tools ↔
      ∀ tool ∈ tools, ∀ raw, rawName tool = some raw → Accepted raw := by
  constructor
  · intro h tool htool raw hraw
    exact accepted_of_namesSurvive h htool hraw
  · intro haccepted
    obtain ⟨named, hnamed⟩ := exists_normalizeKiroToolSpecs tools
    have hof := (normalizeKiroToolSpecs_induction (P := fun _ _ ↦ True)
      (fun _ _ _ _ _ _ _ _ ↦ trivial) trivial hnamed).1
    have hself := declared_eq_self hnamed haccepted
    refine ⟨named, hnamed, ?_, ?_, ?_, ?_⟩
    · rw [hof.specs]
      exact hof.names
    · intro name hname
      rw [hof.specs] at hname
      obtain ⟨entry, hentry, rfl⟩ := List.mem_map.mp hname
      obtain ⟨tool, htool, hraw⟩ := hof.only entry.1 (List.mem_map_of_mem hentry)
      rw [hself entry hentry]
      exact haccepted tool htool entry.1 hraw
    · intro messages
      have hdeclared : named.declared = id := by
        funext raw
        rw [ToolSpecs.declared]
        cases hlookup : named.nameMap.lookup raw with
        | none => rfl
        | some name =>
          rw [Option.getD_some]
          exact hself _ (mem_of_lookup hlookup)
      rw [historyNames_convertMessages, hdeclared, List.map_id]
    · intro stream decoded fragment raw hdecoded hmem
      rw [chunkNames_push, hdecoded]
      exact List.singleton_inj.mpr (hself _ hmem)

/-- A tool whose name has a dot is declared with an underscore, and called with the dot. -/
theorem dotted_name_lost : ¬ NamesSurvive ⟨fun _ ↦ none, fun _ ↦ "", fun _ ↦ ""⟩
    [.obj [("function", .obj [("name", .str "mcp.read")])]] := by
  intro h
  have haccepted : Accepted "mcp.read" :=
    accepted_of_namesSurvive h List.mem_cons_self (by decide +kernel)
  exact absurd haccepted (by decide +kernel)

end NullRouter.Bespoke.Kiro
