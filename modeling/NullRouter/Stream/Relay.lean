import NullRouter.Stream.Agreement

/-!
# What OpenAI chunks show

Of the chunks that a provider's stream becomes, `collapse_stream_to_json`
(`crates/execute/src/stream.rs:626`) and a client read the delta, the finish reason and the usage.
-/

namespace NullRouter.Stream

open NullRouter.Base NullRouter.Translate

/-- The name that a client gave a tool. -/
def originalName (names : List (String × String)) (name : String) : String :=
  (names.reverse.lookup name).getD name

/-- What is read of a chunk. -/
structure Shown where
  delta : Option Json
  finish : Option String := none
  usage : Option Json := none

namespace Shown

/-- What is read of a chunk. -/
def ofChunk (chunk : Json) : Shown :=
  ⟨chunkDelta chunk, chunkFinish chunk, chunk.get "usage"⟩

/-- The text that the delta has under a key. -/
def text (key : String) (shown : Shown) : String := (shown.delta.bind (·.strField key)).getD ""

/-- The tool-call deltas. -/
def calls (shown : Shown) : List Json :=
  ((shown.delta.bind (·.get "tool_calls")).bind Json.asArray).getD []

/-- A delta with one field. -/
def field (key : String) (value : Json) : Shown := { delta := some (Json.object [(key, value)]) }

/-- The last chunk of a stream. -/
def last (finish : String) (usage : Option Json) : Shown := ⟨some (Json.object []), finish, usage⟩

/-- The delta and the finish reason of a chunk's one choice. -/
theorem fields_of_choices {chunk delta : Json} {finish : Option String}
    (h : chunk.get "choices" = some (.arr [Json.object [("index", Json.nat 0), ("delta", delta),
      ("finish_reason", finish.elim .null .str)]])) :
    chunkDelta chunk = some delta ∧ chunkFinish chunk = finish := by
  constructor
  · rw [chunkDelta, pointer_choice h, Json.get_object]
    rfl
  · rw [chunkFinish, pointer_choice h, Json.get_object]
    cases finish <;> rfl

/-- A built chunk shows its delta and its finish reason. -/
theorem ofChunk_buildChunk (identity : ChunkMeta) (delta : Json) (finish : Option String) :
    ofChunk (buildChunk identity delta finish) = { delta := some delta, finish } := by
  have hfield (key : String) : (buildChunk identity delta finish).get key = _ := Json.get_object ..
  obtain ⟨hdelta, hfinish⟩ := fields_of_choices ((hfield "choices").trans rfl)
  rw [ofChunk, hdelta, hfinish, hfield "usage"]
  rfl

/-- A usage that is put into a chunk is all that changes. -/
theorem ofChunk_setField_usage (identity : ChunkMeta) (delta usage : Json)
    (finish : Option String) :
    ofChunk ((buildChunk identity delta finish).setField "usage" usage) =
      { delta := some delta, finish, usage := some usage } := by
  have hchoices := (@Json.get_setField_of_ne (buildChunk identity delta finish) usage "usage"
    "choices" (by decide)).trans (Json.get_object ..)
  obtain ⟨hdelta, hfinish⟩ := fields_of_choices (hchoices.trans rfl)
  rw [ofChunk, hdelta, hfinish, Json.get_setField_self rfl]

@[simp] theorem text_field_self (key : String) (words : String) :
    (field key (.str words)).text key = words := by
  simp [field, text, Json.strField, Json.get_object, Json.asStr]

theorem text_field_of_ne {key other : String} (value : Json) (h : other ≠ key) :
    (field key value).text other = "" := by
  simp [field, text, Json.strField, Json.get_object, List.lookup_cons, beq_false_of_ne h]

theorem calls_field_of_ne {key : String} (value : Json) (h : key ≠ "tool_calls") :
    (field key value).calls = [] := by
  simp [field, calls, Json.get_object, List.lookup_cons, beq_false_of_ne h.symm]

@[simp] theorem calls_field_calls (deltas : List Json) :
    (field "tool_calls" (.arr deltas)).calls = deltas := by
  simp [field, calls, Json.get_object, Json.asArray]

/-- Chunks that show no text show none together. -/
theorem join_text_eq_empty {shown : List Shown} {key : String} (h : ∀ s ∈ shown, s.text key = "") :
    String.join (shown.map (text key)) = "" := by
  induction shown with
  | nil => rfl
  | cons s shown ih =>
    rw [List.forall_mem_cons] at h
    rw [List.map_cons, String.join_cons, h.1, ih h.2, String.append_empty]

/-- The chunk that begins a reply. -/
def role : Shown := field "role" (.str "assistant")

/-- The last chunk has no text. -/
theorem text_last (key finish : String) (usage : Option Json) : (last finish usage).text key = "" :=
  rfl

/-- What a stream says lies between its first chunk and its last. -/
theorem read_role_last {shown : List Shown} (hunfinished : ∀ s ∈ shown, s.finish = none)
    (finish : String) (usage : Option Json) {key : String} (hkey : key ≠ "role") :
    String.join ((role :: shown ++ [last finish usage]).map (text key)) =
        String.join (shown.map (text key)) ∧
      (role :: shown ++ [last finish usage]).flatMap calls = shown.flatMap calls ∧
      (role :: shown ++ [last finish usage]).filterMap Shown.finish = [finish] := by
  have hfinish : shown.filterMap Shown.finish = [] := List.filterMap_eq_nil_iff.mpr hunfinished
  have hrole : role.calls = [] := calls_field_of_ne _ (by decide)
  refine ⟨?_, ?_, ?_⟩
  · rw [List.cons_append, List.map_cons, String.join_cons, role, text_field_of_ne _ hkey,
      List.map_append, String.join_append, List.map_singleton, text_last]
    simp [String.join_cons]
  · rw [List.cons_append, List.flatMap_cons, hrole, List.flatMap_append, List.flatMap_singleton]
    exact List.append_nil _
  · rw [List.cons_append, List.filterMap_cons_none rfl, List.filterMap_append, hfinish]
    rfl

end Shown

/-- A built chunk has the calls of its delta. -/
theorem chunkCalls_buildChunk (identity : ChunkMeta) (delta : Json) (finish : Option String) :
    chunkCalls (buildChunk identity delta finish) =
      ((delta.get "tool_calls").bind Json.asArray).getD [] := by
  have hshown := congrArg Shown.calls (Shown.ofChunk_buildChunk identity delta finish)
  exact hshown

/-- A built chunk has its finish reason. -/
theorem chunkFinish_buildChunk (identity : ChunkMeta) (delta : Json) (finish : Option String) :
    chunkFinish (buildChunk identity delta finish) = finish := by
  have hshown := congrArg Shown.finish (Shown.ofChunk_buildChunk identity delta finish)
  exact hshown

/-- The content of some chunks. -/
def shownContent (chunks : List Json) : String := String.join (chunks.map (chunkText "content"))

theorem shownContent_append (chunks chunks' : List Json) :
    shownContent (chunks ++ chunks') = shownContent chunks ++ shownContent chunks' := by
  rw [shownContent, List.map_append, String.join_append]
  rfl

/-- A built chunk shows the content of its delta. -/
theorem shownContent_buildChunk (identity : ChunkMeta) (delta : Json) (finish : Option String) :
    shownContent [buildChunk identity delta finish] = (delta.strField "content").getD "" := by
  have hdelta : chunkDelta (buildChunk identity delta finish) = some delta :=
    congrArg Shown.delta (Shown.ofChunk_buildChunk identity delta finish)
  rw [shownContent, List.map_singleton, String.join_cons, String.join_nil, String.append_empty,
    chunkText, hdelta, Option.bind_some]

/-- How many of some chunks are terminal. -/
def terminals (chunks : List Json) : Nat := chunks.countP fun chunk ↦ (chunkFinish chunk).isSome

theorem terminals_append (chunks later : List Json) :
    terminals (chunks ++ later) = terminals chunks + terminals later :=
  List.countP_append

theorem terminals_buildChunk (identity : ChunkMeta) (delta : Json) (finish : Option String) :
    terminals [buildChunk identity delta finish] = finish.isSome.toNat := by
  rw [terminals, List.countP_singleton, chunkFinish_buildChunk]
  cases finish <;> rfl

/-- The arguments that some call deltas have under an index. -/
def argumentsAt (calls : List Json) (index : Nat) : String :=
  String.join ((calls.filter (stated · = some index)).map (functionText · "arguments"))

/-- What is gathered of chunks depends on what they show. -/
theorem take_shown {chunks : List Json} {shown : List Shown}
    (h : chunks.map Shown.ofChunk = shown) :
    (({} : Collapsed).take chunks).text = String.join (shown.map (Shown.text "content")) ∧
      (({} : Collapsed).take chunks).reasoning =
        String.join (shown.map (Shown.text "reasoning_content")) ∧
      (({} : Collapsed).take chunks).toolCalls = mergeToolCalls [] (shown.flatMap Shown.calls) ∧
      (({} : Collapsed).take chunks).finishReason = (shown.filterMap Shown.finish).getLast? := by
  subst h
  obtain ⟨htext, hreasoning, hcalls, hfinish⟩ := take_fields chunks {}
  have hmap {β : Type} (f : Shown → β) :
      (chunks.map Shown.ofChunk).map f = chunks.map fun chunk ↦ f (Shown.ofChunk chunk) := by
    rw [List.map_map]
    rfl
  refine ⟨?_, ?_, ?_, ?_⟩
  · rw [htext, hmap]
    rfl
  · rw [hreasoning, hmap]
    rfl
  · rw [hcalls, List.flatMap_map]
    rfl
  · rw [hfinish, List.filterMap_map, Option.or_none]
    rfl

/-- Chunks that show no usage bring none. -/
theorem scrapedUsage_take {chunks : List Json} (h : ∀ chunk ∈ chunks, chunk.get "usage" = none)
    (c : Collapsed) : (c.take chunks).scrapedUsage = c.scrapedUsage := by
  induction chunks generalizing c with
  | nil => rfl
  | cons chunk chunks ih =>
    rw [List.forall_mem_cons] at h
    refine (ih h.2 (c.takeChunk chunk)).trans ?_
    rw [Collapsed.takeChunk, h.1]
    rfl

/-- Chunks that show no usage bring none. -/
theorem scrapedUsage_of_shown {chunks : List Json} {shown : List Shown}
    (h : chunks.map Shown.ofChunk = shown) (hnone : ∀ s ∈ shown, s.usage = none) :
    (({} : Collapsed).take chunks).scrapedUsage = none := by
  refine scrapedUsage_take (fun chunk hchunk ↦ ?_) {}
  exact hnone (Shown.ofChunk chunk) (h ▸ List.mem_map_of_mem hchunk)

section Through

variable {σ : Type} {translate : Json → σ → List Json × σ}

/-- Items after others go through from where the others left the state. -/
theorem through_append (items items' : List Json) (s : σ) :
    through translate (items ++ items') s =
      ((through translate items s).1 ++ (through translate items' (through translate items s).2).1,
        (through translate items' (through translate items s).2).2) := by
  induction items generalizing s with
  | nil => rfl
  | cons item items ih =>
    rw [List.cons_append, through, ih, through]
    simp only [List.append_assoc]

end Through

end NullRouter.Stream
