import NullRouter.Stream.GeminiRelay
import NullRouter.Translate.Response.OllamaToOpenai

/-!
# Tool calls in a stream of Ollama's

What `merge_tool_calls` (`crates/execute/src/stream.rs:735`) gathers of the calls that
`crates/translate/src/response/ollama_to_openai.rs` numbers line by line. Merging goes by the index,
over the whole stream.
-/

namespace NullRouter.Stream

open NullRouter.Base NullRouter.Translate NullRouter.Translate.Response.OllamaToOpenai

/-- The tool calls of a line. -/
def lineCalls (line : Json) : List Json := ((line.get "message").bind messageCalls).getD []

/-- The indexes of the calls of a line: those stated, else the positions. -/
def lineIndexes (line : Json) : List Nat :=
  (lineCalls line).zipIdx.map fun call ↦ callIndex call.1 call.2

/-- Whether a line says that the reply is done. -/
def isDone (line : Json) : Prop := (line.get "done").bind Json.asBool = some true

instance : DecidablePred isDone := fun _ ↦ inferInstanceAs (Decidable (_ = _))

/-- The name and the arguments of a call. -/
def callWords (write : Json → String) (call : Json) : String × String :=
  (callName call, callArguments write call)

/-- The deltas of the tool calls of a stream. -/
def ollamaDeltas (write : Json → String) (lines : List Json) (s : OllamaState) : List Json :=
  (through (translate write) lines s).1.flatMap chunkCalls

/-- No two calls of a stream are under one index, and merged by index they are the calls of its
lines, in order. -/
def StayApart (write : Json → String) (lines : List Json) (s : OllamaState) : Prop :=
  ((ollamaDeltas write lines s).map indexOf).Nodup ∧
    (mergeToolCalls [] (ollamaDeltas write lines s)).map
        (fun call ↦ (functionText call "name", functionText call "arguments")) =
      (lines.flatMap lineCalls).map (callWords write)

/-- No line that says it is done carries calls, and the calls of the stream state different indexes,
the position in the line where they state none. -/
def ApartByIndex (lines : List Json) : Prop :=
  (∀ line ∈ lines, isDone line → lineCalls line = []) ∧ (lines.flatMap lineIndexes).Nodup

instance : DecidablePred ApartByIndex := fun _ ↦ inferInstanceAs (Decidable (_ ∧ _))

/-- The calls that a line shows: none where it says it is done. -/
def shownLine (write : Json → String) (line : Json) : List ShownCall :=
  if isDone line then []
  else (lineCalls line).zipIdx.map fun call ↦ (callIndex call.1 call.2, callWords write call.1)

section Line

variable {write : Json → String}

private theorem isCall_openaiToolCall (call : Json) (position : Nat) (s : OllamaState) :
    IsCall (openaiToolCall write call position s).1
      (callIndex call position, callWords write call) := by
  constructor
  · rw [stated, openaiToolCall, Json.get_object]
    rfl
  · rw [HasFunction, openaiToolCall, Json.get_object]
    rfl

private theorem openaiToolCalls_spec (calls : List Json) (position : Nat) (s : OllamaState) :
    List.Forall₂ IsCall (openaiToolCalls write calls position s).1
      ((calls.zipIdx position).map fun call ↦
        (callIndex call.1 call.2, callWords write call.1)) := by
  induction calls generalizing position s with
  | nil => exact .nil
  | cons call calls ih => exact .cons (isCall_openaiToolCall call position s) (ih _ _)

private theorem lookup_texts (content thinking : String) :
    (textField "content" content ++ textField "reasoning_content" thinking).reverse.lookup
      "tool_calls" = none := by
  rw [List.lookup_eq_none_iff]
  intro field hfield
  rw [List.mem_reverse, List.mem_append, textField, textField] at hfield
  rcases hfield with hfield | hfield
  all_goals
    split at hfield
    · cases hfield
    · rw [List.mem_singleton.mp hfield]
      simp

private theorem relayMessage_spec (message : Json) (s : OllamaState) :
    List.Forall₂ IsCall ((relayMessage write message s).1.flatMap chunkCalls)
      (((messageCalls message).getD []).zipIdx.map fun call ↦
        (callIndex call.1 call.2, callWords write call.1)) := by
  cases hcalls : messageCalls message with
  | none =>
    simp only [relayMessage, hcalls]
    split
    · exact .nil
    · rw [List.flatMap_singleton, chunkCalls_buildChunk, Json.get_object, lookup_texts]
      exact .nil
  | some calls =>
    simp only [relayMessage, hcalls]
    rw [List.flatMap_singleton, chunkCalls_buildChunk, Json.get_object, List.reverse_append,
      List.lookup_append]
    exact openaiToolCalls_spec calls 0 _

private theorem done_spec (raw : Json) (s : OllamaState) :
    (done raw s).1.flatMap chunkCalls = [] := by
  rw [done, List.flatMap_singleton]
  simp only
  cases (chunkMeta _).2.usage with
  | none =>
    rw [Option.elim_none, chunkCalls_buildChunk]
    rfl
  | some usage =>
    rw [Option.elim_some]
    exact congrArg Shown.calls (Shown.ofChunk_setField_usage _ _ usage.toValue _)

private theorem translate_spec (line : Json) (s : OllamaState) :
    List.Forall₂ IsCall ((translate write line s).1.flatMap chunkCalls) (shownLine write line) := by
  by_cases hobject : line.asObject.isNone = true
  · have hline : lineCalls line = [] := by
      cases line with
      | obj fields => cases hobject
      | _ => rfl
    rw [Response.OllamaToOpenai.translate, if_pos hobject, shownLine, hline, List.zipIdx_nil, List.map_nil, ite_self]
    exact .nil
  · have hread : isDone line = ((line.get "done").bind Json.asBool = some true) := rfl
    by_cases hdone : isDone line
    · rw [Response.OllamaToOpenai.translate, if_neg hobject, if_pos (hread ▸ hdone), done_spec, shownLine, if_pos hdone]
      exact .nil
    · rw [Response.OllamaToOpenai.translate, if_neg hobject, if_neg (hread ▸ hdone), shownLine, if_neg hdone, lineCalls]
      cases line.get "message" with
      | none => exact .nil
      | some message => exact relayMessage_spec message _

end Line

/-- A stream shows the calls of its lines. -/
theorem isCall_ollamaDeltas (write : Json → String) (lines : List Json) (s : OllamaState) :
    List.Forall₂ IsCall (ollamaDeltas write lines s) (lines.flatMap (shownLine write)) := by
  rw [ollamaDeltas]
  induction lines generalizing s with
  | nil => exact .nil
  | cons line lines ih =>
    rw [through, List.flatMap_append, List.flatMap_cons]
    exact List.rel_append (translate_spec line s) (ih _)

private theorem words_isCall {deltas : List Json} {calls : List ShownCall}
    (h : List.Forall₂ IsCall deltas calls) :
    deltas.map (fun call ↦ (functionText call "name", functionText call "arguments")) =
      calls.map Prod.snd := by
  induction h with
  | nil => rfl
  | @cons delta call deltas calls hcall _ ih =>
    rw [List.map_cons, List.map_cons, ih, functionText_of_object (by decide) hcall.2,
      functionText_of_object (by decide) hcall.2]
    simp only [Json.strField, Json.get_object]
    rfl

private theorem shownLine_fields (write : Json → String) {line : Json}
    (h : isDone line → lineCalls line = []) :
    (shownLine write line).map Prod.fst = lineIndexes line ∧
      (shownLine write line).map Prod.snd = (lineCalls line).map (callWords write) := by
  rw [shownLine, lineIndexes]
  split
  · next hdone =>
    rw [h hdone]
    exact ⟨rfl, rfl⟩
  · refine ⟨?_, ?_⟩
    · rw [List.map_map]
      rfl
    · rw [List.map_map]
      conv => rhs; rw [← List.zipIdx_map_fst 0 (lineCalls line), List.map_map]
      rfl

private theorem flatMap_shownLine (write : Json → String) {lines : List Json}
    (h : ∀ line ∈ lines, isDone line → lineCalls line = []) :
    (lines.flatMap (shownLine write)).map Prod.fst = lines.flatMap lineIndexes ∧
      (lines.flatMap (shownLine write)).map Prod.snd =
        (lines.flatMap lineCalls).map (callWords write) := by
  rw [List.map_flatMap, List.map_flatMap, List.map_flatMap]
  constructor
  · exact List.flatMap_congr fun line hline ↦ (shownLine_fields write (h line hline)).1
  · exact List.flatMap_congr fun line hline ↦ (shownLine_fields write (h line hline)).2

/-- A stream shows no more calls than its lines have, and fewer where a line that is done has
any. -/
private theorem length_shownLine (write : Json → String) (lines : List Json) :
    (lines.flatMap (shownLine write)).length ≤ (lines.flatMap lineCalls).length ∧
      ((lines.flatMap (shownLine write)).length = (lines.flatMap lineCalls).length →
        ∀ line ∈ lines, isDone line → lineCalls line = []) := by
  induction lines with
  | nil => exact ⟨Nat.le_refl _, nofun⟩
  | cons line lines ih =>
    have hline : (shownLine write line).length ≤ (lineCalls line).length := by
      rw [shownLine]
      split
      · exact Nat.zero_le _
      · rw [List.length_map, List.length_zipIdx]
    rw [List.flatMap_cons, List.flatMap_cons, List.length_append, List.length_append,
      List.forall_mem_cons]
    refine ⟨Nat.add_le_add hline ih.1, ?_⟩
    intro hlength
    refine ⟨?_, ih.2 (by omega)⟩
    intro hdone
    have hnone : (shownLine write line).length = 0 := by
      rw [shownLine, if_pos hdone]
      rfl
    exact List.eq_nil_of_length_eq_zero (by omega)

/-- Merging gives back the calls of a stream exactly where no line that is done carries any and all
state different indexes, or stand at different positions of their lines. -/
theorem merge_ollamaDeltas_iff (write : Json → String) (lines : List Json) (s : OllamaState) :
    (mergeToolCalls [] (ollamaDeltas write lines s)).map
        (fun call ↦ (functionText call "name", functionText call "arguments")) =
      (lines.flatMap lineCalls).map (callWords write) ↔ ApartByIndex lines := by
  have hshown := isCall_ollamaDeltas write lines s
  obtain ⟨hstated, hindexes⟩ := indexes_isCall hshown
  constructor
  · intro hmerged
    have hlength := congrArg List.length hmerged
    have hle := length_mergeToolCalls_le (ollamaDeltas write lines s)
    obtain ⟨hfewer, hdone⟩ := length_shownLine write lines
    rw [List.length_map, List.length_map] at hlength
    rw [← hshown.length_eq] at hfewer hdone
    have hnodup := (length_mergeToolCalls_eq_iff hstated).mp (by omega)
    have hnone := hdone (by omega)
    rw [hindexes, (flatMap_shownLine write hnone).1] at hnodup
    exact ⟨hnone, hnodup⟩
  · rintro ⟨hdone, hnodup⟩
    obtain ⟨hown, hwords⟩ := flatMap_shownLine write hdone
    rw [merge_isCall hshown (by rwa [hown]), words_isCall hshown, hwords]

/-- The calls of a stream stay apart exactly where no line that is done carries any and all state
different indexes, or stand at different positions of their lines. -/
theorem stayApart_iff (write : Json → String) (lines : List Json) (s : OllamaState) :
    StayApart write lines s ↔ ApartByIndex lines := by
  rw [StayApart, merge_ollamaDeltas_iff]
  refine ⟨And.right, ?_⟩
  rintro ⟨hdone, hnodup⟩
  refine ⟨?_, hdone, hnodup⟩
  rwa [(indexes_isCall (isCall_ollamaDeltas write lines s)).2, (flatMap_shownLine write hdone).1]

/-- A line with one call. -/
def callLine (name : String) : Json :=
  Json.object [("message", Json.object [("tool_calls", .arr [Json.object
    [("id", .str name), ("function", Json.object [("name", .str name)])]])])]

/-- Two lines with a call each: the second call is lost in the first. -/
theorem calls_of_two_lines_collide :
    ¬ StayApart (fun _ ↦ "") [callLine "read", callLine "write"] { clock := fun _ ↦ 5 } := by
  intro h
  have hapart := (merge_ollamaDeltas_iff _ _ _).mp h.2
  exact absurd hapart (by decide)

end NullRouter.Stream
