import NullRouter.Base.FirstSeen
import NullRouter.Stream.BinaryFrames
import NullRouter.Stream.ToolCalls

/-!
# Tool calls in fragments

The tool calls of the two binary providers come in fragments by id. Both encoders,
`crates/execute/src/bespoke/kiro/response.rs:183` and
`crates/execute/src/bespoke/cursor/response.rs:202`, relay each as a delta under the place of its
id, which `merge_tool_calls`, `crates/execute/src/stream.rs:735`, joins again. Kiro's ends its reply
at the first frame that says so, and relays what comes after.
-/

namespace NullRouter.Stream

open NullRouter.Base NullRouter.Translate NullRouter.Bespoke

/-- The role that a chunk announces. -/
def chunkRole (chunk : Json) : Option Json := (chunkDelta chunk).bind (·.get "role")

/-- The delta of a fragment under an index. -/
def callDelta (index : Nat) (fragment : ToolCall) : Json :=
  Json.object [("index", Json.nat index), ("id", .str fragment.id), ("type", .str "function"),
    ("function", Json.object [("name", .str fragment.name),
      ("arguments", .str fragment.arguments)])]

/-- The ids of some fragments, by their first appearance. -/
def idsOf (fragments : List ToolCall) : List String := (fragments.map ToolCall.id).eraseDups

/-- The deltas of some fragments, each under the place of its id. -/
def deltasOf (fragments : List ToolCall) : List Json :=
  fragments.map fun fragment ↦ callDelta ((idsOf fragments).idxOf fragment.id) fragment

/-- The fragments of one call together: the first id and name that are not empty, all arguments. -/
def ToolCall.total : List ToolCall → ToolCall
  | [] => ⟨"", "", ""⟩
  | first :: later => later.foldl ToolCall.add first

/-- The chunks relay the fragments of tool calls: each as it came, under the place of its id among
the ids by first appearance, so that the arguments under a place are those of its id and the merged
calls are those of the ids. The first chunk alone announces the role, and the one finish reason is
that of a reply with the calls that there are. -/
structure RelaysCalls (fragments : List ToolCall) (chunks : List Json) : Prop where
  calls : chunks.flatMap chunkCalls = deltasOf fragments
  arguments (index : Nat) (h : index < (idsOf fragments).length) :
    argumentsAt (chunks.flatMap chunkCalls) index =
      String.join ((fragments.filter (·.id = (idsOf fragments)[index])).map ToolCall.arguments)
  merged : (mergeToolCalls [] (chunks.flatMap chunkCalls)).map ToolCall.read =
    (groups ToolCall.id fragments).map ToolCall.total
  role : ∃ first later, chunks = first :: later ∧ chunkRole first = some (.str "assistant") ∧
    ∀ chunk ∈ later, chunkRole chunk = none
  finish : chunks.filterMap chunkFinish =
    [if chunks.flatMap chunkCalls = [] then "stop" else "tool_calls"]

/-! ## The delta of a fragment -/

section Delta

variable {index : Nat} {fragment : ToolCall}

theorem stated_callDelta : stated (callDelta index fragment) = some index := by
  rw [stated, callDelta, Json.get_object]
  rfl

theorem indexOf_callDelta : indexOf (callDelta index fragment) = index :=
  congrArg (·.getD 0) (@stated_callDelta index fragment)

private theorem get_function_callDelta : (callDelta index fragment).get "function" =
    some (Json.object [("name", .str fragment.name), ("arguments", .str fragment.arguments)]) := by
  rw [callDelta, Json.get_object]
  rfl

theorem isSome_function?_callDelta : (function? (callDelta index fragment)).isSome = true := by
  rw [function?, get_function_callDelta]
  rfl

/-- A fragment is read back from its delta. -/
theorem read_callDelta : ToolCall.read (callDelta index fragment) = fragment := by
  have hid : (callDelta index fragment).strField "id" = some fragment.id := by
    rw [callDelta, Json.strField, Json.get_object]
    rfl
  have htext (key : String) (hkey : Json.indexToken key = none) :=
    functionText_of_object hkey (@get_function_callDelta index fragment)
  rw [ToolCall.read, hid, htext "name" (by decide), htext "arguments" (by decide), Json.strField,
    Json.strField, Json.get_object, Json.get_object]
  rfl

theorem join_eq_total (deltas : List Json) :
    ToolCall.join deltas = ToolCall.total (deltas.map ToolCall.read) := by
  cases deltas <;> rfl

end Delta

/-! ## What the deltas of fragments are joined to -/

section Deltas

variable {fragments : List ToolCall} {index : Nat}

private theorem mem_idsOf {fragment : ToolCall} (h : fragment ∈ fragments) :
    fragment.id ∈ idsOf fragments :=
  List.mem_eraseDups.mpr (List.mem_map_of_mem h)

private theorem idsOf_eq_nil : idsOf fragments = [] ↔ fragments = [] := by
  constructor
  · intro hnone
    by_contra hsome
    obtain ⟨fragment, hfragment⟩ := List.exists_mem_of_ne_nil _ hsome
    have hid := mem_idsOf hfragment
    rw [hnone] at hid
    cases hid
  · rintro rfl
    rfl

private theorem argumentsAt_deltas (h : index < (idsOf fragments).length) :
    argumentsAt (deltasOf fragments) index =
      String.join ((fragments.filter (·.id = (idsOf fragments)[index])).map
        ToolCall.arguments) := by
  have hplace (fragment : ToolCall) (hfragment : fragment ∈ fragments) :
      stated (callDelta ((idsOf fragments).idxOf fragment.id) fragment) = some index ↔
        fragment.id = (idsOf fragments)[index] := by
    rw [stated_callDelta, Option.some.injEq]
    constructor
    · rintro rfl
      exact (List.getElem_idxOf (List.idxOf_lt_length_of_mem (mem_idsOf hfragment))).symm
    · intro hid
      rw [hid]
      exact (nodup_eraseDups _).idxOf_getElem index h
  have hread (fragment : ToolCall) :
      functionText (callDelta ((idsOf fragments).idxOf fragment.id) fragment) "arguments" =
        fragment.arguments :=
    congrArg ToolCall.arguments read_callDelta
  have hfilter : fragments.filter ((stated · = some index) ∘ fun fragment ↦
      callDelta ((idsOf fragments).idxOf fragment.id) fragment) =
        fragments.filter (·.id = (idsOf fragments)[index]) :=
    List.filter_congr fun fragment hfragment ↦ decide_eq_decide.mpr (hplace fragment hfragment)
  rw [argumentsAt, deltasOf, List.filter_map, List.map_map, hfilter]
  exact congrArg _ (List.map_congr_left fun fragment _ ↦ hread fragment)

private theorem place_eq_iff {a b : ToolCall} (ha : a ∈ fragments) :
    (idsOf fragments).idxOf a.id = (idsOf fragments).idxOf b.id ↔ a.id = b.id :=
  List.idxOf_inj (mem_idsOf ha)

private theorem mergeable_deltas (index : Nat) :
    Mergeable ((deltasOf fragments).filter (indexOf · = index)) := by
  rw [deltasOf, List.filter_map]
  generalize hsame : fragments.filter ((indexOf · = index) ∘ fun fragment ↦
    callDelta ((idsOf fragments).idxOf fragment.id) fragment) = same
  have hid (fragment : ToolCall) (hfragment : fragment ∈ same) :
      fragment ∈ fragments ∧ (idsOf fragments).idxOf fragment.id = index := by
    rw [← hsame, List.mem_filter, Function.comp_apply, indexOf_callDelta] at hfragment
    exact ⟨hfragment.1, of_decide_eq_true hfragment.2⟩
  cases same with
  | nil => exact trivial
  | cons first later =>
    refine .inr ⟨by rw [stated_callDelta]; rfl, .inl isSome_function?_callDelta, ?_⟩
    rw [read_callDelta]
    by_cases hempty : first.id = ""
    · right
      intro delta hdelta
      obtain ⟨fragment, hfragment, rfl⟩ := List.mem_map.mp hdelta
      obtain ⟨hfirst, hplace⟩ := hid first List.mem_cons_self
      rw [read_callDelta, ← hempty]
      rw [← (hid fragment (List.mem_cons_of_mem first hfragment)).2, place_eq_iff hfirst] at hplace
      exact hplace.symm
    · exact .inl hempty

private theorem mergeToolCalls_deltas :
    (mergeToolCalls [] (deltasOf fragments)).map ToolCall.read =
      (groups ToolCall.id fragments).map ToolCall.total := by
  have hgroups : groups (indexOf ∘ fun fragment ↦
      callDelta ((idsOf fragments).idxOf fragment.id) fragment) fragments =
        groups ToolCall.id fragments := by
    refine groups_congr fun a ha b _ ↦ ?_
    rw [Function.comp_apply, Function.comp_apply, indexOf_callDelta, indexOf_callDelta]
    exact place_eq_iff ha
  rw [(mergeToolCalls_read_iff _).mpr mergeable_deltas, clientCalls, deltasOf, groups_map, hgroups,
    List.map_map]
  refine List.map_congr_left fun group _ ↦ ?_
  rw [Function.comp_apply, join_eq_total, List.map_map]
  congr 1
  exact (List.map_congr_left fun fragment _ ↦ read_callDelta).trans (List.map_id group)

end Deltas

/-! ## One frame after another -/

/-- The first chunk of a reply that is not open announces the role, and no other does. -/
def Announces (opened : Bool) : List Json → Prop
  | [] => True
  | first :: later => chunkRole first = (if opened then none else some (.str "assistant")) ∧
      ∀ chunk ∈ later, chunkRole chunk = none

/-- Chunks relay fragments, from a table of ids to one with theirs. -/
structure Forwards (table : List String) (opened : Bool) (fragments : List ToolCall)
    (chunks : List Json) (table' : List String) (opened' : Bool) : Prop where
  table : table' = (fragments.map ToolCall.id).foldl seen table
  calls : chunks.flatMap chunkCalls =
    fragments.map fun fragment ↦ callDelta (table'.idxOf fragment.id) fragment
  role : Announces opened chunks
  opened : opened' = (opened || !chunks.isEmpty)

namespace Forwards

variable {table table' table'' : List String} {opened opened' opened'' : Bool}
  {fragments later : List ToolCall} {chunks more : List Json}

theorem refl (table : List String) (opened : Bool) : Forwards table opened [] [] table opened :=
  ⟨rfl, rfl, trivial, (Bool.or_false opened).symm⟩

theorem trans (h : Forwards table opened fragments chunks table' opened')
    (h' : Forwards table' opened' later more table'' opened'') :
    Forwards table opened (fragments ++ later) (chunks ++ more) table'' opened'' where
  table := by rw [List.map_append, List.foldl_append, ← h.table, ← h'.table]
  calls := by
    have hgrown : table' <+: table'' := h'.table ▸ prefix_foldl_seen _ table'
    rw [List.flatMap_append, h.calls, h'.calls, List.map_append]
    congr 1
    refine List.map_congr_left fun fragment hfragment ↦ ?_
    have hmem : fragment.id ∈ table' := h.table ▸ mem_foldl_seen (List.mem_map_of_mem hfragment) _
    rw [idxOf_of_known hgrown hmem]
  role := by
    cases chunks with
    | nil =>
      have hopened := h.opened
      rw [List.isEmpty_nil, Bool.not_true, Bool.or_false] at hopened
      rw [← hopened]
      exact h'.role
    | cons first rest =>
      have hopened := h.opened
      rw [List.isEmpty_cons, Bool.not_false, Bool.or_true] at hopened
      refine ⟨h.role.1, fun chunk hchunk ↦ ?_⟩
      rcases List.mem_append.mp hchunk with hrest | hmore
      · exact h.role.2 chunk hrest
      · have hrole := h'.role
        rw [hopened] at hrole
        cases more with
        | nil => cases hmore
        | cons second more =>
          rcases List.mem_cons.mp hmore with rfl | hmore
          · exact hrole.1
          · exact hrole.2 chunk hmore
  opened := by
    rw [h'.opened, h.opened]
    cases chunks with
    | nil => rw [List.isEmpty_nil, Bool.not_true, Bool.or_false, List.nil_append]
    | cons first rest =>
      rw [List.cons_append, List.isEmpty_cons, List.isEmpty_cons, Bool.not_false, Bool.or_true,
        Bool.true_or]

private theorem announces_buildChunk {identity : ChunkMeta} {delta : Json} {finish : Option String}
    (h : delta.get "role" = if opened then none else some (.str "assistant")) :
    Announces opened [buildChunk identity delta finish] := by
  have hdelta : chunkDelta (buildChunk identity delta finish) = some delta :=
    congrArg Shown.delta (Shown.ofChunk_buildChunk identity delta finish)
  refine ⟨?_, fun chunk hchunk ↦ by cases hchunk⟩
  rw [chunkRole, hdelta, Option.bind_some, h]

/-- A chunk without calls. -/
theorem quiet {identity : ChunkMeta} {delta : Json} {finish : Option String}
    (hcalls : delta.get "tool_calls" = none)
    (hrole : delta.get "role" = if opened then none else some (.str "assistant")) :
    Forwards table opened [] [buildChunk identity delta finish] table true where
  table := rfl
  calls := by
    rw [List.flatMap_singleton, chunkCalls_buildChunk, hcalls]
    rfl
  role := announces_buildChunk hrole
  opened := (Bool.or_true opened).symm

/-- A chunk with the delta of a fragment. -/
theorem call {identity : ChunkMeta} {delta : Json} {finish : Option String} {fragment : ToolCall}
    (hcalls : delta.get "tool_calls" =
      some (.arr [callDelta (placeOf table fragment.id) fragment]))
    (hrole : delta.get "role" = if opened then none else some (.str "assistant")) :
    Forwards table opened [fragment] [buildChunk identity delta finish] (seen table fragment.id)
      true where
  table := rfl
  calls := by
    rw [List.flatMap_singleton, chunkCalls_buildChunk, hcalls, placeOf_eq (List.prefix_refl _)]
    rfl
  role := announces_buildChunk hrole
  opened := (Bool.or_true opened).symm

/-- A whole reply relays its fragments where it ends with the reason that they give. -/
theorem relaysCalls_iff (h : Forwards [] false fragments chunks table' true) {reason : String}
    (hfinish : chunks.filterMap chunkFinish = [reason]) :
    RelaysCalls fragments chunks ↔
      reason = if fragments = [] then "stop" else "tool_calls" := by
  have hcalls : chunks.flatMap chunkCalls = deltasOf fragments := by
    rw [h.calls, h.table, foldl_seen]
    rfl
  have hnone : deltasOf fragments = [] ↔ fragments = [] := List.map_eq_nil_iff
  constructor
  · intro hrelays
    have hreason := hrelays.finish
    rw [hcalls, hfinish] at hreason
    simp only [hnone] at hreason
    exact (List.cons.inj hreason).1
  · intro hreason
    refine ⟨hcalls, fun index hindex ↦ ?_, ?_, ?_, ?_⟩
    · rw [hcalls]
      exact argumentsAt_deltas hindex
    · rw [hcalls]
      exact mergeToolCalls_deltas
    · cases chunks with
      | nil => cases h.opened
      | cons first later => exact ⟨first, later, rfl, h.role.1, h.role.2⟩
    · rw [hfinish, hcalls, hreason]
      simp only [hnone]

end Forwards

/-! ## Kiro -/

section Kiro

/-- The fragments of some frames. -/
def kiroFragments (frames : List Kiro.Decoded) : List ToolCall :=
  frames.filterMap fun decoded ↦
    decoded.tool.map fun fragment ↦ ⟨fragment.id, fragment.name, fragment.input⟩

/-- The chunks of some frames and of the end after them. -/
def kiroChunks : List Kiro.Decoded → Kiro.Stream → List Json
  | [], s => s.finish.1
  | decoded :: rest, s => (s.push decoded).1 ++ kiroChunks rest (s.push decoded).2

/-- A frame until the first that ends the reply, or that one, has a fragment. -/
def calledInTurn : List Kiro.Decoded → Bool
  | [] => false
  | decoded :: rest => decoded.tool.isSome || !decoded.stopped && calledInTurn rest

/-- Chunks of Kiro's encoder relay fragments. -/
private def KiroRelays (s : Kiro.Stream) (fragments : List ToolCall) (chunks : List Json)
    (s' : Kiro.Stream) : Prop :=
  Forwards s.toolIds s.opened fragments chunks s'.toolIds s'.opened

private theorem kiroRelays_delta (s : Kiro.Stream) {key : String} (value : Json)
    (hcalls : key ≠ "tool_calls") (hrole : key ≠ "role") :
    KiroRelays s [] [(s.delta (Json.object [(key, value)])).1]
      (s.delta (Json.object [(key, value)])).2 := by
  have hget (other : String) (h : key ≠ other) : (Json.object [(key, value)]).get other = none := by
    rw [Json.get_object, List.reverse_singleton, List.lookup_cons, beq_false_of_ne h.symm]
    rfl
  rw [Kiro.Stream.delta]
  refine Forwards.quiet ?_ ?_
  · split
    · exact hget _ hcalls
    · rw [Json.get_setField_of_ne (by decide)]
      exact hget _ hcalls
  · split
    · exact hget _ hrole
    · exact Json.get_setField_self rfl

private theorem kiroRelays_pushTool (s : Kiro.Stream) (fragment : Kiro.ToolFragment) :
    KiroRelays s [⟨fragment.id, fragment.name, fragment.input⟩] [(s.pushTool fragment).1]
      (s.pushTool fragment).2 := by
  have hget (other : String) (h : other ≠ "tool_calls") (calls : Json) :
      (Json.object [("tool_calls", calls)]).get other = none := by
    rw [Json.get_object, List.reverse_singleton, List.lookup_cons, beq_false_of_ne h]
    rfl
  have hself (calls : Json) :
      (Json.object [("tool_calls", calls)]).get "tool_calls" = some calls := by
    rw [Json.get_object]
    rfl
  rw [Kiro.Stream.pushTool, Kiro.Stream.delta]
  refine Forwards.call ?_ ?_
  · dsimp only
    split
    · rw [hself]
      rfl
    · rw [Json.get_setField_of_ne (by decide), hself]
      rfl
  · dsimp only
    split
    · exact hget _ (by decide) _
    · exact Json.get_setField_self rfl

private theorem kiroRelays_option {α : Type} {s : Kiro.Stream} (value : Option α)
    {pushed : α → Json × Kiro.Stream}
    (h : ∀ a, KiroRelays s [] [(pushed a).1] (pushed a).2) :
    KiroRelays s [] (value.elim ([], s) fun a ↦ Kiro.Stream.one (pushed a)).1
      (value.elim ([], s) fun a ↦ Kiro.Stream.one (pushed a)).2 := by
  cases value with
  | none => exact .refl _ _
  | some a => exact h a

private theorem kiroRelays_tool (s : Kiro.Stream) (tool : Option Kiro.ToolFragment) :
    KiroRelays s (tool.elim [] fun fragment ↦ [⟨fragment.id, fragment.name, fragment.input⟩])
      (tool.elim ([], s) fun fragment ↦ Kiro.Stream.one (s.pushTool fragment)).1
      (tool.elim ([], s) fun fragment ↦ Kiro.Stream.one (s.pushTool fragment)).2 := by
  cases tool with
  | none => exact .refl _ _
  | some fragment => exact kiroRelays_pushTool s fragment

private theorem kiroRelays_finish (s : Kiro.Stream)
    (hopened : s.finished = true → s.opened = true) :
    KiroRelays s [] s.finish.1 s.finish.2 ∧ s.finish.2.opened = true := by
  have hlast (identity : ChunkMeta) (reason : String) (table : List String) :
      Forwards table true [] [buildChunk identity (.obj []) (some reason)] table true :=
    .quiet rfl rfl
  rw [Kiro.Stream.finish]
  split
  · next hfinished => exact ⟨.refl _ _, hopened hfinished⟩
  · by_cases hopen : s.opened = true
    · simp only [if_pos hopen, List.nil_append]
      rw [KiroRelays, hopen]
      exact ⟨hlast _ _ _, rfl⟩
    · have hfirst := kiroRelays_delta { s with finished := true } (.str "")
        (show "content" ≠ "tool_calls" by decide) (by decide)
      simp only [if_neg hopen]
      exact ⟨Forwards.trans hfirst (hlast _ _ _), rfl⟩

/-- The fragment of a frame. -/
private def toolOf (decoded : Kiro.Decoded) : List ToolCall :=
  decoded.tool.elim [] fun fragment ↦ [⟨fragment.id, fragment.name, fragment.input⟩]

/-- What a frame is before it ends the reply. -/
private def beforeStop (s : Kiro.Stream) (decoded : Kiro.Decoded) : List Json × Kiro.Stream :=
  s.push { decoded with stopped := false }

private theorem push_eq (s : Kiro.Stream) (decoded : Kiro.Decoded) :
    s.push decoded = ((beforeStop s decoded).1 ++
      (if decoded.stopped then (beforeStop s decoded).2.finish
        else ([], (beforeStop s decoded).2)).1,
      (if decoded.stopped then (beforeStop s decoded).2.finish
        else ([], (beforeStop s decoded).2)).2) := by
  rw [beforeStop, Kiro.Stream.push, Kiro.Stream.push]
  simp only [Bool.false_eq_true, if_false, List.append_nil]

private theorem kiroRelays_beforeStop (s : Kiro.Stream) (decoded : Kiro.Decoded) :
    KiroRelays s (toolOf decoded) (beforeStop s decoded).1 (beforeStop s decoded).2 := by
  have htext := kiroRelays_option decoded.text fun text ↦
    kiroRelays_delta s (.str text) (show "content" ≠ _ by decide) (by decide)
  have hreasoning (s : Kiro.Stream) := kiroRelays_option decoded.reasoning fun text ↦
    kiroRelays_delta s (.str text) (show "reasoning_content" ≠ _ by decide) (by decide)
  have hpushed := (htext.trans (hreasoning _)).trans (kiroRelays_tool _ decoded.tool)
  rw [beforeStop, Kiro.Stream.push]
  simp only [Bool.false_eq_true, if_false, List.append_nil]
  exact hpushed

private theorem filterMap_finish (s : Kiro.Stream) : s.finish.1.filterMap chunkFinish =
    if s.finished then [] else [if s.usedTool then "tool_calls" else "stop"] := by
  have hlast (identity : ChunkMeta) (reason : String) :
      [buildChunk identity (.obj []) (some reason)].filterMap chunkFinish = [reason] := by
    rw [List.filterMap_cons_some (chunkFinish_buildChunk _ _ _), List.filterMap_nil]
  have hdelta (s : Kiro.Stream) (delta : Json) :
      [(s.delta delta).1].filterMap chunkFinish = [] := by
    rw [Kiro.Stream.delta, List.filterMap_cons_none (chunkFinish_buildChunk _ _ _),
      List.filterMap_nil]
  rw [Kiro.Stream.finish]
  split
  · rfl
  · by_cases hopen : s.opened = true
    · simp only [if_pos hopen, List.nil_append, hlast]
    · simp only [if_neg hopen, List.filterMap_append, hdelta, hlast, List.nil_append]

private theorem beforeStop_spec (s : Kiro.Stream) (decoded : Kiro.Decoded) :
    (beforeStop s decoded).1.filterMap chunkFinish = [] ∧
      (beforeStop s decoded).2.finished = s.finished ∧
      (beforeStop s decoded).2.usedTool = (s.usedTool || decoded.tool.isSome) := by
  have hdelta (s : Kiro.Stream) (delta : Json) : chunkFinish (s.delta delta).1 = none :=
    chunkFinish_buildChunk _ _ _
  obtain ⟨text, reasoning, tool, stopped, exception⟩ := decoded
  rw [beforeStop, Kiro.Stream.push]
  refine ⟨?_, ?_, ?_⟩
  · cases text <;> cases reasoning <;> cases tool <;>
      simp [Kiro.Stream.one, Kiro.Stream.pushTool, hdelta]
  · cases text <;> cases reasoning <;> cases tool <;> rfl
  · cases text <;> cases reasoning <;> cases tool <;>
      simp [Kiro.Stream.one, Kiro.Stream.pushTool, Kiro.Stream.delta]

private theorem kiroChunks_spec (frames : List Kiro.Decoded) {s : Kiro.Stream}
    (hs : s.finished = true → s.opened = true) :
    (∃ table',
        Forwards s.toolIds s.opened (kiroFragments frames) (kiroChunks frames s) table' true) ∧
      (kiroChunks frames s).filterMap chunkFinish = if s.finished then []
        else [if s.usedTool || calledInTurn frames then "tool_calls" else "stop"] := by
  induction frames generalizing s with
  | nil =>
    obtain ⟨hrelays, hopened⟩ := kiroRelays_finish s hs
    rw [KiroRelays, hopened] at hrelays
    refine ⟨⟨_, hrelays⟩, ?_⟩
    rw [kiroChunks, filterMap_finish, calledInTurn, Bool.or_false]
  | cons decoded rest ih =>
    have hrelays := kiroRelays_beforeStop s decoded
    obtain ⟨hquiet, hfinished, hused⟩ := beforeStop_spec s decoded
    have hfragments : kiroFragments (decoded :: rest) =
        toolOf decoded ++ kiroFragments rest := by
      rw [toolOf, kiroFragments, List.filterMap_cons]
      cases decoded.tool <;> rfl
    have hopened : (beforeStop s decoded).2.finished = true →
        (beforeStop s decoded).2.opened = true := by
      intro hfin
      rw [hrelays.opened, hs (hfinished ▸ hfin), Bool.true_or]
    rw [kiroChunks, push_eq, hfragments, calledInTurn, List.filterMap_append, List.filterMap_append,
      hquiet, List.nil_append]
    by_cases hstop : decoded.stopped = true
    · simp only [hstop, if_true]
      obtain ⟨hend, hopen⟩ := kiroRelays_finish _ hopened
      obtain ⟨⟨table', hrest⟩, hreasons⟩ := ih fun _ ↦ hopen
      have hall := (hrelays.trans hend).trans hrest
      rw [List.append_nil] at hall
      refine ⟨⟨table', hall⟩, ?_⟩
      rw [hreasons, KiroGrows.finished_finish, if_pos rfl, List.append_nil, filterMap_finish,
        hfinished, hused, Bool.not_true, Bool.false_and, Bool.or_false]
    · simp only [hstop, Bool.false_eq_true, if_false, List.append_nil, List.filterMap_nil,
        List.nil_append]
      obtain ⟨⟨table', hrest⟩, hreasons⟩ := ih hopened
      refine ⟨⟨table', hrelays.trans hrest⟩, ?_⟩
      rw [hreasons, hfinished, hused, Bool.not_false, Bool.true_and, Bool.or_assoc]

private theorem fragments_of_called {frames : List Kiro.Decoded} (h : calledInTurn frames = true) :
    kiroFragments frames ≠ [] := by
  induction frames with
  | nil => cases h
  | cons decoded rest ih =>
    rw [kiroFragments, List.filterMap_cons]
    cases htool : decoded.tool with
    | some fragment => exact List.cons_ne_nil _ _
    | none =>
      rw [calledInTurn, htool, Option.isSome_none, Bool.false_or, Bool.and_eq_true] at h
      exact ih h.2

/-- Kiro's encoder relays the fragments of a stream where there are none or one comes no later than
the first end of the reply. -/
theorem kiro_relaysCalls_iff (frames : List Kiro.Decoded) (id : String) (created : Nat)
    (model : String) :
    RelaysCalls (kiroFragments frames) (kiroChunks frames (Kiro.Stream.new id created model)) ↔
      kiroFragments frames = [] ∨ calledInTurn frames = true := by
  obtain ⟨⟨table', hrelays⟩, hreason⟩ :=
    @kiroChunks_spec frames (Kiro.Stream.new id created model) nofun
  rw [hrelays.relaysCalls_iff hreason, Kiro.Stream.new, Bool.false_or]
  cases hcalled : calledInTurn frames with
  | true =>
    rw [if_pos rfl, if_neg (fragments_of_called hcalled)]
    exact iff_of_true rfl (.inr rfl)
  | false =>
    rw [if_neg Bool.false_ne_true]
    by_cases hnone : kiroFragments frames = []
    · rw [if_pos hnone]
      exact iff_of_true rfl (.inl hnone)
    · rw [if_neg hnone]
      exact iff_of_false (by decide) (by simp [hnone])

end Kiro

/-! ## Cursor -/

section Cursor

/-- The fragments of some frames. -/
def cursorFragments (frames : List Cursor.Decoded) : List ToolCall :=
  frames.filterMap fun decoded ↦
    decoded.toolCall.map fun call ↦ ⟨call.id, call.name, call.arguments⟩

/-- The chunks of some frames and of the end after them. -/
def cursorChunks (frames : List Cursor.Decoded) (s : Cursor.Stream) : List Json :=
  (pushAll frames s).1 ++ (pushAll frames s).2.finish.1

/-- Chunks of Cursor's encoder relay fragments. -/
private def CursorRelays (s : Cursor.Stream) (fragments : List ToolCall) (chunks : List Json)
    (s' : Cursor.Stream) : Prop :=
  Forwards s.toolIds s.opened fragments chunks s'.toolIds s'.opened

private theorem cursorRelays_textDelta (s : Cursor.Stream) {field : String} (text : String)
    (hcalls : field ≠ "tool_calls") (hrole : field ≠ "role") :
    CursorRelays s [] [(s.textDelta field text).1] (s.textDelta field text).2 := by
  rw [Cursor.Stream.textDelta]
  refine Forwards.quiet ?_ ?_
  · split
    · simp [Json.get_object, List.lookup_cons, beq_false_of_ne hcalls.symm]
    · simp [Json.get_object, List.lookup_cons, beq_false_of_ne hcalls.symm]
  · split
    · simp [Json.get_object, List.lookup_cons, beq_false_of_ne hrole.symm]
    · simp [Json.get_object, List.lookup_cons, beq_false_of_ne hrole.symm]

private theorem cursorRelays_opening (s : Cursor.Stream) (h : s.opened = false) :
    CursorRelays s [] [s.opening] { s with opened := true } := by
  rw [CursorRelays, h]
  exact Forwards.quiet rfl rfl

private theorem cursorRelays_pushCall (s : Cursor.Stream) (call : Cursor.ToolCall) :
    CursorRelays s [⟨call.id, call.name, call.arguments⟩] (s.pushCall call).1
      (s.pushCall call).2 := by
  have hcall (identity : ChunkMeta) : Forwards s.toolIds true [⟨call.id, call.name, call.arguments⟩]
      [buildChunk identity (Json.object [("tool_calls", .arr [callDelta (placeOf s.toolIds call.id)
        ⟨call.id, call.name, call.arguments⟩])]) none] (seen s.toolIds call.id) true :=
    .call rfl rfl
  rw [Cursor.Stream.pushCall]
  cases hopened : s.opened with
  | true =>
    rw [CursorRelays, hopened]
    exact hcall _
  | false => exact Forwards.trans (cursorRelays_opening s hopened) (hcall _)

private theorem cursorRelays_pushThinking (s : Cursor.Stream) (thinking : String) :
    CursorRelays s [] (s.pushThinking thinking).1 (s.pushThinking thinking).2 := by
  rw [Cursor.Stream.pushThinking]
  split
  · dsimp only
    split
    · split
      · exact Forwards.refl _ _
      · exact cursorRelays_textDelta _ _ (by decide) (by decide)
    · exact Forwards.refl _ _
  · exact cursorRelays_textDelta s _ (by decide) (by decide)

private theorem cursorRelays_push (s : Cursor.Stream) (decoded : Cursor.Decoded) :
    CursorRelays s (cursorFragments [decoded]) (s.push decoded).1 (s.push decoded).2 := by
  have hcalled : CursorRelays s (cursorFragments [decoded])
      (decoded.toolCall.elim ([], s) s.pushCall).1
      (decoded.toolCall.elim ([], s) s.pushCall).2 := by
    cases hcall : decoded.toolCall with
    | none =>
      rw [cursorFragments, List.filterMap_cons_none (by rw [hcall]; rfl)]
      exact Forwards.refl _ _
    | some call =>
      rw [cursorFragments, List.filterMap_cons_some (by rw [hcall]; rfl), List.filterMap_nil]
      exact cursorRelays_pushCall s call
  have htexted (s : Cursor.Stream) : CursorRelays s []
      (decoded.text.elim ([], s) fun text ↦ ([(s.contentDelta text).1], (s.contentDelta text).2)).1
      (decoded.text.elim ([], s) fun text ↦
        ([(s.contentDelta text).1], (s.contentDelta text).2)).2 := by
    cases decoded.text with
    | none => exact Forwards.refl _ _
    | some text => exact cursorRelays_textDelta s text (by decide) (by decide)
  have hthought (s : Cursor.Stream) : CursorRelays s []
      (decoded.thinking.elim ([], s) s.pushThinking).1
      (decoded.thinking.elim ([], s) s.pushThinking).2 := by
    cases decoded.thinking with
    | none => exact Forwards.refl _ _
    | some thinking => exact cursorRelays_pushThinking s thinking
  have hpushed := (hcalled.trans (htexted _)).trans (hthought _)
  rw [List.append_nil, List.append_nil] at hpushed
  exact hpushed

private theorem cursorRelays_pushAll (frames : List Cursor.Decoded) (s : Cursor.Stream) :
    CursorRelays s (cursorFragments frames) (pushAll frames s).1 (pushAll frames s).2 := by
  induction frames generalizing s with
  | nil => exact Forwards.refl _ _
  | cons decoded rest ih =>
    have hfragments : cursorFragments (decoded :: rest) =
        cursorFragments [decoded] ++ cursorFragments rest := by
      rw [cursorFragments, ← List.singleton_append, List.filterMap_append]
      rfl
    rw [hfragments]
    exact (cursorRelays_push s decoded).trans (ih _)

private theorem filterMap_chunk (s : Cursor.Stream) (delta : Json) (finish : Option String) :
    [s.chunk delta finish].filterMap chunkFinish = finish.toList := by
  rw [List.filterMap_cons, Cursor.Stream.chunk, chunkFinish_buildChunk]
  cases finish <;> rfl

private theorem filterMap_of_terminals {chunks : List Json} (h : terminals chunks = 0) :
    chunks.filterMap chunkFinish = [] := by
  rw [List.filterMap_eq_nil_iff]
  intro chunk hchunk
  exact Option.not_isSome_iff_eq_none.mp (List.countP_eq_zero.mp h chunk hchunk)

/-- Cursor's encoder relays the fragments of every stream. -/
theorem cursor_relaysCalls (frames : List Cursor.Decoded) (id : String) (created : Nat)
    (model : String) :
    RelaysCalls (cursorFragments frames)
      (cursorChunks frames (Cursor.Stream.new id created model)) := by
  have hrelays := cursorRelays_pushAll frames (Cursor.Stream.new id created model)
  have hquiet := filterMap_of_terminals
    (cursorGrows_pushAll frames (Cursor.Stream.new id created model)).terminals
  rw [cursorChunks]
  generalize pushAll frames (Cursor.Stream.new id created model) = went at hrelays hquiet ⊢
  obtain ⟨chunks, s⟩ := went
  have htable : s.toolIds = idsOf (cursorFragments frames) := hrelays.table.trans (foldl_seen _)
  have hreason : (if s.toolIds.isEmpty then "stop" else "tool_calls") =
      if cursorFragments frames = [] then "stop" else "tool_calls" := by
    rw [htable]
    simp only [List.isEmpty_iff, idsOf_eq_nil]
  have hend : Forwards s.toolIds s.opened [] s.finish.1 s.toolIds true ∧
      s.finish.1.filterMap chunkFinish =
        [if s.toolIds.isEmpty then "stop" else "tool_calls"] := by
    rw [Cursor.Stream.finish]
    cases hopened : s.opened with
    | true =>
      rw [Cursor.Stream.hasContent, hopened, Bool.true_or, if_pos rfl, List.nil_append]
      exact ⟨.quiet rfl rfl, filterMap_chunk _ _ _⟩
    | false =>
      have hchunks : chunks = [] := by
        have hstart := hrelays.opened
        rw [hopened] at hstart
        simpa [Cursor.Stream.new] using hstart
      have hnone : cursorFragments frames = [] := by
        have hcalls := hrelays.calls
        rw [hchunks] at hcalls
        exact List.map_eq_nil_iff.mp hcalls.symm
      have hids : s.toolIds.isEmpty = true := by
        rw [htable, List.isEmpty_iff, idsOf_eq_nil, hnone]
      rw [Cursor.Stream.hasContent, hopened, hids]
      have hopening := cursorRelays_opening s hopened
      rw [CursorRelays, hopened] at hopening
      refine ⟨Forwards.trans hopening (.quiet rfl rfl), ?_⟩
      rw [Bool.not_true, Bool.or_false, if_neg Bool.false_ne_true, List.filterMap_append,
        Cursor.Stream.opening, filterMap_chunk, filterMap_chunk]
      rfl
  have hall := Forwards.trans hrelays hend.1
  rw [List.append_nil] at hall
  refine (hall.relaysCalls_iff ?_).mpr hreason
  rw [List.filterMap_append, hquiet, hend.2, List.nil_append]

end Cursor

/-- The calls of the two binary providers are relayed: Cursor's always, Kiro's exactly where there
are none or one comes no later than the first end of the reply. -/
theorem call_fragments_iff (frames : List Kiro.Decoded) (frames' : List Cursor.Decoded)
    (id : String) (created : Nat) (model : String) :
    (RelaysCalls (kiroFragments frames) (kiroChunks frames (Kiro.Stream.new id created model)) ↔
        kiroFragments frames = [] ∨ calledInTurn frames = true) ∧
      RelaysCalls (cursorFragments frames')
        (cursorChunks frames' (Cursor.Stream.new id created model)) :=
  ⟨kiro_relaysCalls_iff frames id created model, cursor_relaysCalls frames' id created model⟩

/-- A call that comes after the end of Kiro's reply is relayed after the reason of one without. -/
theorem call_after_stop : ¬RelaysCalls
    (kiroFragments [{ stopped := true }, { tool := some ⟨"t1", "read", "{}", true⟩ }])
    (kiroChunks [{ stopped := true }, { tool := some ⟨"t1", "read", "{}", true⟩ }]
      (Kiro.Stream.new "c" 0 "m")) :=
  fun h ↦ absurd h.finish (by decide +kernel)

end NullRouter.Stream
