import Mathlib.Data.List.Dedup
import NullRouter.Base.Assembly
import NullRouter.Stream.Relay
import NullRouter.Translate.CommandCode

/-!
# Tool calls in a stream of CommandCode's

What `crates/translate/src/response/commandcode_to_openai.rs` makes of the events of a stream: the
index of every tool call, its arguments, and the chunk that ends the stream.
-/

namespace NullRouter.Stream

open NullRouter.Base NullRouter.Translate NullRouter.Translate.CommandCode

/-- An event of CommandCode's. An OpenAI chunk is none: it is handed on as it is. -/
structure CommandCodeEvent where
  raw : Json
  foreign : raw.strField "object" ≠ some "chat.completion.chunk"

/-- The id of the call that a start opens: its own, else one that is made up. -/
def startId (raw : Json) (s : StreamState) : String :=
  (toolId raw).getD ("call_" ++ toString s.commandCodeTools ++ "_" ++ toString s.nowMillis.1)

/-- The arguments that a delta adds. -/
def fragmentOf (raw : Json) : String :=
  (((raw.get "delta").or (raw.get "inputTextDelta")).bind Json.asStr).getD ""

/-- The arguments of a complete tool call. -/
def inputOf (write : Json → String) (raw : Json) : String :=
  match raw.get "input" with
  | some (.str text) => text
  | some other => write other
  | none => "\x7b\x7d"

/-- What an event is of a tool call, and of which. -/
def pieceOf (write : Json → String) (raw : Json) (s : StreamState) : Option (String × Piece) :=
  if raw.strField "type" = some "tool-input-start" then some (startId raw (identify raw s), .start)
  else if raw.strField "type" = some "tool-input-delta" then
    (toolId raw).map (·, .part (fragmentOf raw))
  else if raw.strField "type" = some "tool-call" then
    (raw.strField "toolCallId").map (·, .whole (inputOf write raw))
  else none

/-- The pieces of tool calls that the events of a stream are. -/
def callPieces (write : Json → String) : List CommandCodeEvent → StreamState → List (String × Piece)
  | [], _ => []
  | event :: events, s =>
    (pieceOf write event.raw s).toList ++
      callPieces write events (translate write event.raw s).2

/-- Whether an event ends the stream. -/
def CommandCodeEvent.ends (event : CommandCodeEvent) : Bool :=
  event.raw.strField "type" = some "finish" || event.raw.strField "type" = some "error"

/-- The chunks of a stream. -/
def commandCodeStream (write : Json → String) (events : List CommandCodeEvent) (s : StreamState) :
    List Json :=
  (through (translate write) (events.map CommandCodeEvent.raw) s).1

/-- Some call deltas name an id under an index. -/
def NamedUnder (calls : List Json) (id : String) (index : Nat) : Prop :=
  ∃ call ∈ calls, call.strField "id" = some id ∧ stated call = some index

/-- Every call of a stream has an index of its own, under which come the arguments that its events
supply, and one chunk ends the stream. -/
structure CallsWhole (write : Json → String) (events : List CommandCodeEvent) (s : StreamState) :
    Prop where
  apart : ∀ {id id' index index'},
    NamedUnder ((commandCodeStream write events s).flatMap chunkCalls) id index →
    NamedUnder ((commandCodeStream write events s).flatMap chunkCalls) id' index' →
      (id = id' ↔ index = index')
  arguments : ∀ id ∈ (callPieces write events s).map Prod.fst,
    ∃ index, NamedUnder ((commandCodeStream write events s).flatMap chunkCalls) id index ∧
      argumentsAt ((commandCodeStream write events s).flatMap chunkCalls) index =
        supplied (piecesOf id (callPieces write events s))
  ended : terminals (commandCodeStream write events s) = 1

/-- One event ends the stream, no call is spoilt by the order of its events, and the calls are no
more than there are indexes. -/
structure CallsOrdered (write : Json → String) (events : List CommandCodeEvent) (s : StreamState) :
    Prop where
  few : ((callPieces write events s).map Prod.fst).dedup.length ≤ u64Max + 1
  unspoilt : ∀ id ∈ (callPieces write events s).map Prod.fst,
    Unspoilt "" (piecesOf id (callPieces write events s))
  ended : events.countP CommandCodeEvent.ends = 1

/-- The index of a call, of some that were opened in order. -/
def place (opened : List String) (id : String) : Nat := min (opened.idxOf id) u64Max

/-- The calls that a stream has opened. -/
structure Opened (opened : List String) (s : StreamState) : Prop where
  count : s.commandCodeTools = min opened.length u64Max
  index : ∀ id, s.commandCodeToolIndex[id]? =
    if id ∈ opened then some (place opened id) else none

/-- A call delta that conveys a delivery. -/
structure Conveys (opened : List String) (call : Json) (given : Delivery String) : Prop where
  known : given.key ∈ opened
  index : stated call = some (place opened given.key)
  id : call.strField "id" = if given.opening then some given.key else none
  text : functionText call "arguments" = given.text

section Step

variable {write : Json → String} {opened : List String} {s : StreamState} {raw : Json}

/-- A call that is open keeps its index. -/
theorem place_of_prefix {later : List String} (h : opened <+: later) {id : String}
    (hid : id ∈ opened) : place later id = place opened id := by
  obtain ⟨rest, rfl⟩ := h
  rw [place, List.idxOf_append_of_mem hid, place]

theorem place_concat {id : String} (h : id ∉ opened) :
    place (opened ++ [id]) id = min opened.length u64Max := by
  rw [place, List.idxOf_append_of_notMem h, List.idxOf_cons_self, Nat.add_zero]

theorem Conveys.of_front {later : List String} {call : Json} {given : Delivery String}
    (h : Conveys opened call given) (hlater : opened <+: later) : Conveys later call given where
  known := hlater.subset h.known
  index := by rw [h.index, place_of_prefix hlater h.known]
  id := h.id
  text := h.text

private theorem Opened.keep {s' : StreamState} (h : Opened opened s)
    (hcount : s'.commandCodeTools = s.commandCodeTools)
    (hindex : s'.commandCodeToolIndex = s.commandCodeToolIndex) : Opened opened s' where
  count := hcount.trans h.count
  index id := by rw [hindex, h.index id]

private theorem Opened.identify (h : Opened opened s) (raw : Json) :
    Opened opened (identify raw s) := by
  rw [CommandCode.identify]
  split
  · exact h
  · exact h.keep rfl rfl

private theorem Opened.chunkMeta (h : Opened opened s) : Opened opened (chunkMeta s).2 := by
  rw [CommandCode.chunkMeta]
  cases s.messageId <;> cases hcreated : s.commandCodeCreated
  all_goals
    simp only [StreamState.nowMillis, hcreated]
    exact h.keep rfl rfl

private theorem Opened.firstChunk (h : Opened opened s) : Opened opened (firstChunk s).2 :=
  h.keep rfl rfl

private theorem Opened.indexTool (h : Opened opened s) {id : String} (hid : id ∉ opened) :
    (indexTool id s).1 = place (opened ++ [id]) id ∧
      Opened (opened ++ [id]) (indexTool id s).2 := by
  refine ⟨h.count.trans (place_concat hid).symm, ?_, ?_⟩
  · change satAdd64 s.commandCodeTools 1 = _
    rw [satAdd64, h.count, List.length_append, List.length_singleton]
    omega
  · intro other
    change (s.commandCodeToolIndex.insert id s.commandCodeTools)[other]? = _
    rw [Std.ExtTreeMap.getElem?_insert, h.count, h.index other]
    by_cases hother : id = other
    · subst hother
      rw [if_pos (by simp), if_pos (by simp), place_concat hid]
    · rw [if_neg (by simpa using hother)]
      by_cases hmem : other ∈ opened
      · rw [if_pos hmem, if_pos (List.mem_append_left _ hmem),
          place_of_prefix (List.prefix_append ..) hmem]
      · rw [if_neg hmem, if_neg (by simp [hmem, Ne.symm hother])]

private theorem conveys_toolCallDelta (first : Bool) {id name arguments : String}
    (hid : id ∈ opened) : List.Forall₂ (Conveys opened)
      ((((toolCallDelta first (place opened id) id name arguments).get "tool_calls").bind
        Json.asArray).getD []) [⟨id, arguments, true⟩] := by
  have hcalls : ((((toolCallDelta first (place opened id) id name arguments).get "tool_calls").bind
      Json.asArray).getD []) = [Json.object [("index", Json.nat (place opened id)),
        ("id", .str id), ("type", .str "function"),
        ("function", Json.object [("name", .str name), ("arguments", .str arguments)])]] := by
    rw [toolCallDelta, Json.get_object, List.reverse_append]
    rfl
  rw [hcalls]
  refine .cons ⟨hid, ?_, ?_, ?_⟩ .nil
  · rw [stated, Json.get_object]
    rfl
  · rw [Json.strField_object]
    rfl
  · rw [functionText_of_object (by decide) (by rw [Json.get_object]; rfl), Json.strField_object]
    rfl

private theorem Opened.indexed (h : Opened opened s) (id : String) :
    let indexed := match s.commandCodeToolIndex[id]? with
      | some index => (index, s)
      | none => CommandCode.indexTool id s
    indexed.1 = place (openAfter opened (id, .start)) id ∧
      Opened (openAfter opened (id, .start)) indexed.2 := by
  rw [h.index id]
  by_cases hid : id ∈ opened
  · have hafter : openAfter opened (id, .start) = opened := if_neg fun hnew ↦ hnew.2 hid
    rw [if_pos hid, hafter]
    exact ⟨rfl, h⟩
  · have hafter : openAfter opened (id, .start) = opened ++ [id] := if_pos ⟨rfl, hid⟩
    rw [if_neg hid, hafter]
    exact h.indexTool hid

/-- What a step makes of a piece: the deliveries are conveyed, the calls that it opens are open, and
so many chunks end the stream. -/
private structure CallStep (opened : List String) (pieces : List (String × Piece)) (ends : Nat)
    (result : List Json × StreamState) : Prop where
  conveys : List.Forall₂ (Conveys (openedBy opened pieces)) (result.1.flatMap chunkCalls)
    (deliveries opened pieces)
  opened : Opened (openedBy opened pieces) result.2
  ended : terminals result.1 = ends

private theorem callStep_silent (h : Opened opened s) : CallStep opened [] 0 ([], s) := ⟨.nil, h, rfl⟩

private theorem callStep_plain (h : Opened opened s) {delta : Json} (finish : Option String)
    (hdelta : delta.get "tool_calls" = none) :
    CallStep opened [] finish.isSome.toNat ([(chunk delta finish s).1], (chunk delta finish s).2) where
  conveys := by
    rw [List.flatMap_singleton, chunk, chunkCalls_buildChunk, hdelta]
    exact .nil
  opened := h.chunkMeta
  ended := terminals_buildChunk _ _ _

private theorem CallStep.pair {ends ends' : Nat} {first second : Json} {s' : StreamState}
    (h : CallStep opened [] ends ([first], s)) (h' : CallStep opened [] ends' ([second], s')) :
    CallStep opened [] (ends + ends') ([first, second], s') where
  conveys := by
    have hfirst : chunkCalls first = [] := (List.append_nil _).symm.trans
      (List.forall₂_nil_right_iff.mp h.conveys)
    rw [List.flatMap_cons, hfirst]
    exact h'.conveys
  opened := h'.opened
  ended := (terminals_append [first] [second]).trans (congrArg₂ (· + ·) h.ended h'.ended)

private theorem callStep_call {piece : String × Piece} (h : Opened (openAfter opened piece) s)
    {delta : Json} (hdelta : List.Forall₂ (Conveys (openAfter opened piece))
      (((delta.get "tool_calls").bind Json.asArray).getD []) (handOver opened piece)) :
    CallStep opened [piece] 0 ([(chunk delta none s).1], (chunk delta none s).2) where
  conveys := by
    rw [List.flatMap_singleton, chunk, chunkCalls_buildChunk, deliveries_singleton]
    exact hdelta
  opened := h.chunkMeta
  ended := terminals_buildChunk _ _ _

private theorem callStep_toolStart (h : Opened opened s) :
    CallStep opened [(startId raw s, .start)] 0 (toolStart raw s) := by
  have hmem (id : String) : id ∈ openAfter opened (id, .start) := mem_openAfter.mpr (.inr ⟨rfl, rfl⟩)
  cases hid : toolId raw with
  | some id =>
    obtain ⟨hindex, hopened⟩ := h.indexed id
    have hstart : startId raw s = id := by rw [startId, hid, Option.getD_some]
    rw [hstart]
    simp only [toolStart, hid]
    exact callStep_call hopened.firstChunk (hindex ▸ conveys_toolCallDelta _ (hmem id))
  | none =>
    have hstart : startId raw s =
        "call_" ++ toString s.commandCodeTools ++ "_" ++ toString s.nowMillis.1 := by
      rw [startId, hid, Option.getD_none]
    obtain ⟨hindex, hopened⟩ := (@Opened.keep _ _ s.nowMillis.2 h rfl rfl).indexed (startId raw s)
    simp only [toolStart, hid, ← hstart]
    exact callStep_call hopened.firstChunk (hindex ▸ conveys_toolCallDelta _ (hmem _))

private theorem callStep_dropped (h : Opened opened s) {piece : String × Piece}
    (hafter : openAfter opened piece = opened) (hdropped : handOver opened piece = []) :
    CallStep opened [piece] 0 ([], s) where
  conveys := by
    rw [deliveries_singleton, hdropped]
    exact .nil
  opened := by rwa [openedBy_singleton, hafter]
  ended := rfl

private theorem callStep_toolDelta (h : Opened opened s) :
    CallStep opened ((toolId raw).map (·, Piece.part (fragmentOf raw))).toList 0
      (toolDelta raw s) := by
  cases hid : toolId raw with
  | none =>
    simp only [toolDelta, hid, Option.bind_none]
    exact callStep_silent h
  | some id =>
    have hindex := h.index id
    have hafter : openAfter opened (id, Piece.part (fragmentOf raw)) = opened :=
      if_neg fun hopens ↦ Bool.false_ne_true hopens.1
    by_cases hopen : id ∈ opened
    · rw [if_pos hopen] at hindex
      simp only [toolDelta, hid, Option.bind_some, hindex]
      refine callStep_call (by rwa [hafter]) ?_
      simp only [hafter, handOver, if_pos hopen, Json.get_object]
      refine .cons ⟨hopen, ?_, ?_, ?_⟩ .nil
      · rw [stated, Json.get_object]
        rfl
      · rw [Json.strField_object]
        rfl
      · rw [functionText_of_object (by decide) (by rw [Json.get_object]; rfl), Json.strField_object]
        rfl
    · rw [if_neg hopen] at hindex
      simp only [toolDelta, hid, Option.bind_some, hindex]
      exact callStep_dropped h hafter (if_neg hopen)

private theorem callStep_wholeToolCall (h : Opened opened s) :
    CallStep opened ((raw.strField "toolCallId").map (·, Piece.whole (inputOf write raw))).toList 0
      (wholeToolCall write raw s) := by
  cases hid : raw.strField "toolCallId" with
  | none =>
    simp only [wholeToolCall, hid]
    exact callStep_silent h
  | some id =>
    have hindex := h.index id
    by_cases hopen : id ∈ opened
    · rw [if_pos hopen] at hindex
      simp only [wholeToolCall, hid, hindex, Option.isSome_some, if_true]
      exact callStep_dropped h (if_neg fun hnew ↦ hnew.2 hopen) (if_pos hopen)
    · rw [if_neg hopen] at hindex
      have hafter : openAfter opened (id, Piece.whole (inputOf write raw)) = opened ++ [id] :=
        if_pos ⟨rfl, hopen⟩
      obtain ⟨hplace, hopened⟩ := h.indexTool hopen
      simp only [wholeToolCall, hid, hindex, Option.isSome_none, Bool.false_eq_true, if_false,
        hplace]
      refine callStep_call (hafter ▸ hopened.firstChunk) ?_
      simp only [hafter, handOver, if_neg hopen]
      exact conveys_toolCallDelta _ (by simp)

private theorem callStep_textDelta (h : Opened opened s) :
    CallStep opened [] 0 (textDelta raw s) := by
  rw [textDelta]
  split
  · exact callStep_silent h
  · refine callStep_plain h.firstChunk none ?_
    rw [Json.get_object]
    cases (firstChunk s).1 <;> rfl

private theorem callStep_reasoning (h : Opened opened s) :
    CallStep opened [] 0 (reasoning raw s) := by
  rw [reasoning]
  split
  · exact callStep_silent h
  · refine callStep_plain h.firstChunk none ?_
    rw [reasoningDelta]
    cases (firstChunk s).1
    · exact Json.get_object ..
    · exact Json.get_object ..

private theorem callStep_finish (h : Opened opened s) : CallStep opened [] 1 (CommandCode.finish raw s) := by
  rw [CommandCode.finish]
  split
  · exact callStep_plain h (some _) rfl
  · next usage _ =>
    refine ⟨?_, h.chunkMeta.keep rfl rfl, ?_⟩
    · have hshown := congrArg Shown.calls (Shown.ofChunk_setField_usage (chunkMeta s).1
        (Json.object []) usage.toValue (some (s.finishReason.getD (mappedFinish raw))))
      have hcalls : (Shown.ofChunk ((buildChunk (chunkMeta s).1 (Json.object [])
          (some (s.finishReason.getD (mappedFinish raw)))).setField "usage"
            usage.toValue)).calls = [] := hshown
      rw [List.flatMap_singleton]
      exact List.forall₂_nil_right_iff.mpr hcalls
    · have hshown := congrArg Shown.finish (Shown.ofChunk_setField_usage (chunkMeta s).1
        (Json.object []) usage.toValue (some (s.finishReason.getD (mappedFinish raw))))
      rw [terminals, List.countP_singleton]
      refine if_pos ?_
      exact congrArg Option.isSome hshown

private theorem callStep_errorEvent (h : Opened opened s) :
    CallStep opened [] 1 (errorEvent write raw s) := by
  have hstopped : Opened opened { s with finishReason := some "stop" } := h.keep rfl rfl
  have hplain (message : String) := callStep_plain hstopped none
    (Json.get_object [("content", .str message)] "tool_calls")
  have hlast := callStep_plain hstopped.chunkMeta (some "stop") (Json.get_object [] "tool_calls")
  exact (hplain _).pair hlast

private theorem callStep_translate (h : Opened opened s) (event : CommandCodeEvent) :
    CallStep opened (pieceOf write event.raw s).toList event.ends.toNat
      (translate write event.raw s) := by
  have hs := h.identify event.raw
  rw [CommandCode.translate, if_neg event.foreign, CommandCodeEvent.ends, pieceOf]
  cases hkind : event.raw.strField "type" with
  | none => exact callStep_silent h
  | some kind =>
    simp only [dispatch, Option.some.injEq]
    by_cases htext : kind = "text-delta"
    · subst htext
      exact callStep_textDelta hs
    by_cases hreasoning : kind = "reasoning-delta"
    · subst hreasoning
      exact callStep_reasoning hs
    by_cases hstart : kind = "tool-input-start"
    · subst hstart
      exact callStep_toolStart hs
    by_cases hdelta : kind = "tool-input-delta"
    · subst hdelta
      exact callStep_toolDelta hs
    by_cases hcall : kind = "tool-call"
    · subst hcall
      exact callStep_wholeToolCall hs
    by_cases hstep : kind = "finish-step"
    · subst hstep
      exact callStep_silent (hs.keep rfl rfl)
    by_cases hfinish : kind = "finish"
    · subst hfinish
      exact callStep_finish hs
    by_cases herror : kind = "error"
    · subst herror
      exact callStep_errorEvent hs
    simp only [htext, hreasoning, hstart, hdelta, hcall, hstep, hfinish, herror, if_false,
      decide_false, Bool.or_self]
    exact callStep_silent hs

/-- The events of a stream: their deliveries are conveyed, and as many chunks end the stream as
events do. -/
theorem commandCodeStream_spec (h : Opened opened s) (events : List CommandCodeEvent) :
    List.Forall₂ (Conveys (openedBy opened (callPieces write events s)))
        ((commandCodeStream write events s).flatMap chunkCalls)
        (deliveries opened (callPieces write events s)) ∧
      terminals (commandCodeStream write events s) =
        events.countP CommandCodeEvent.ends := by
  induction events generalizing opened s with
  | nil => exact ⟨.nil, rfl⟩
  | cons event events ih =>
    obtain ⟨hconveys, hopened, hended⟩ := @callStep_translate write opened s h event
    obtain ⟨hrest, hends⟩ := ih hopened
    rw [commandCodeStream, List.map_cons, through, List.flatMap_append, terminals_append,
      callPieces, openedBy_append, deliveries_append, hended, List.countP_cons]
    refine ⟨List.rel_append (hconveys.imp fun call given hgiven ↦ ?_) hrest, ?_⟩
    · exact hgiven.of_front (prefix_openedBy ..)
    · have hcount : event.ends.toNat = if event.ends = true then 1 else 0 := by
        cases event.ends <;> rfl
      rw [hcount, Nat.add_comm]
      exact congrArg (· + _) hends

end Step

section Places

variable {opened : List String}

/-- No more calls than there are indexes have indexes of their own, and only so many do. -/
theorem place_inj_iff (hnodup : opened.Nodup) :
    (∀ id ∈ opened, ∀ id' ∈ opened, place opened id = place opened id' → id = id') ↔
      opened.length ≤ u64Max + 1 := by
  constructor
  · intro hinj
    by_contra hlength
    have hlast : u64Max < opened.length := by omega
    have hbeyond : u64Max + 1 < opened.length := by omega
    have hsame := hinj _ (List.getElem_mem hlast) _ (List.getElem_mem hbeyond) (by
      rw [place, place, hnodup.idxOf_getElem, hnodup.idxOf_getElem]
      omega)
    rw [hnodup.getElem_inj_iff] at hsame
    omega
  · intro hlength id hid id' hid' hplace
    have hlt := List.idxOf_lt_length_iff.mpr hid
    have hlt' := List.idxOf_lt_length_iff.mpr hid'
    refine (List.idxOf_inj hid).mp ?_
    rw [place, place] at hplace
    omega

variable {calls : List Json} {given : List (Delivery String)}

private theorem exists_conveyed (h : List.Forall₂ (Conveys opened) calls given) :
    (∀ call ∈ calls, ∃ g ∈ given, Conveys opened call g) ∧
      ∀ g ∈ given, ∃ call ∈ calls, Conveys opened call g := by
  induction h with
  | nil => exact ⟨nofun, nofun⟩
  | @cons call g calls given hcall _ ih =>
    constructor
    · rintro c (_ | ⟨_, hc⟩)
      · exact ⟨g, List.mem_cons_self .., hcall⟩
      · obtain ⟨g', hg', hc'⟩ := ih.1 c hc
        exact ⟨g', List.mem_cons_of_mem _ hg', hc'⟩
    · rintro g' (_ | ⟨_, hg'⟩)
      · exact ⟨call, List.mem_cons_self .., hcall⟩
      · obtain ⟨c, hc, hc'⟩ := ih.2 g' hg'
        exact ⟨c, List.mem_cons_of_mem _ hc, hc'⟩

private theorem argumentsAt_place (h : List.Forall₂ (Conveys opened) calls given) {id : String}
    (hown : ∀ other ∈ opened, place opened other = place opened id → other = id) :
    argumentsAt calls (place opened id) = deliveredTo id given := by
  induction h with
  | nil => rfl
  | @cons call g calls given hcall _ ih =>
    have hsame : (stated call = some (place opened id)) ↔ g.key = id := by
      rw [hcall.index, Option.some.injEq]
      exact ⟨hown g.key hcall.known, fun hkey ↦ congrArg _ hkey⟩
    rw [argumentsAt, deliveredTo, List.filter_cons, List.filter_cons]
    by_cases hkey : g.key = id
    · rw [if_pos (decide_eq_true (hsame.mpr hkey)), if_pos (decide_eq_true hkey), List.map_cons,
        List.map_cons, String.join_cons, String.join_cons, hcall.text]
      exact congrArg _ ih
    · rw [if_neg (by simpa using fun hstated ↦ hkey (hsame.mp hstated)),
        if_neg (by simpa using hkey)]
      exact ih

end Places

section Stream

variable {write : Json → String} {s : StreamState}

private theorem namedUnder_iff (hs : Opened [] s) (events : List CommandCodeEvent) (id : String)
    (index : Nat) :
    NamedUnder ((commandCodeStream write events s).flatMap chunkCalls) id index ↔
      id ∈ openedBy [] (callPieces write events s) ∧
        index = place (openedBy [] (callPieces write events s)) id := by
  have hconveys := (@commandCodeStream_spec write [] s hs events).1
  obtain ⟨hgiven, hcalls⟩ := exists_conveyed hconveys
  constructor
  · rintro ⟨call, hcall, hid, hindex⟩
    obtain ⟨g, hg, hconveyed⟩ := hgiven call hcall
    have hkey : g.key = id := by
      have hnamed := hconveyed.id.symm.trans hid
      split at hnamed
      · exact Option.some.inj hnamed
      · cases hnamed
    have hplace := hconveyed.index.symm.trans hindex
    rw [hkey] at hplace
    exact ⟨hkey ▸ mem_openedBy_of_delivery hg, (Option.some.inj hplace).symm⟩
  · rintro ⟨hopen, rfl⟩
    obtain ⟨g, hg, rfl, hopening⟩ := exists_opening hopen (List.not_mem_nil)
    obtain ⟨call, hcall, hconveyed⟩ := hcalls g hg
    refine ⟨call, hcall, ?_, hconveyed.index⟩
    rw [hconveyed.id, hopening, if_pos rfl]

private theorem length_openedBy {log : List (String × Piece)}
    (hall : ∀ id ∈ log.map Prod.fst, id ∈ openedBy [] log) :
    (openedBy [] log).length = (log.map Prod.fst).dedup.length := by
  refine List.Perm.length_eq ((List.perm_ext_iff_of_nodup (nodup_openedBy .nil log)
    (List.nodup_dedup _)).mpr fun id ↦ ?_)
  rw [List.mem_dedup]
  refine ⟨fun hid ↦ ?_, hall id⟩
  rcases mem_openedBy.mp hid with hid | hid
  · cases hid
  · exact mem_keys_of_any_opens hid

private theorem argumentsAt_eq_gathered (hs : Opened [] s) (events : List CommandCodeEvent)
    (hfew : (openedBy [] (callPieces write events s)).length ≤ u64Max + 1) {id : String}
    (hid : id ∈ openedBy [] (callPieces write events s)) :
    argumentsAt ((commandCodeStream write events s).flatMap chunkCalls)
        (place (openedBy [] (callPieces write events s)) id) =
      gathered (piecesOf id (callPieces write events s)) := by
  have hinj := (place_inj_iff (nodup_openedBy .nil _)).mpr hfew
  rw [argumentsAt_place (commandCodeStream_spec hs events).1
    fun other hother hplace ↦ hinj other hother id hid hplace, deliveredTo_deliveries,
    if_neg List.not_mem_nil]

/-- A stream whose calls come whole had its events in order. -/
theorem CallsWhole.ordered (hs : Opened [] s) {events : List CommandCodeEvent}
    (h : CallsWhole write events s) : CallsOrdered write events s := by
  have hopen : ∀ id ∈ (callPieces write events s).map Prod.fst,
      id ∈ openedBy [] (callPieces write events s) := by
    intro id hid
    obtain ⟨index, hindex, -⟩ := h.arguments id hid
    exact ((namedUnder_iff hs events id index).mp hindex).1
  have hfew : (openedBy [] (callPieces write events s)).length ≤ u64Max + 1 := by
    rw [← place_inj_iff (nodup_openedBy .nil _)]
    intro id hid id' hid' hplace
    exact (h.apart ((namedUnder_iff hs events _ _).mpr ⟨hid, rfl⟩)
      ((namedUnder_iff hs events _ _).mpr ⟨hid', rfl⟩)).mpr hplace
  refine ⟨?_, fun id hid ↦ ?_, ?_⟩
  · rwa [← length_openedBy hopen]
  · obtain ⟨index, hindex, harguments⟩ := h.arguments id hid
    obtain ⟨hmem, rfl⟩ := (namedUnder_iff hs events id index).mp hindex
    rw [argumentsAt_eq_gathered hs events hfew hmem] at harguments
    rcases mem_openedBy.mp hmem with hnil | hopens
    · cases hnil
    · exact (gathered_eq_supplied_iff hopens).mp harguments
  · rw [← (@commandCodeStream_spec write [] s hs events).2]
    exact h.ended

/-- The calls of a stream come whole, and one chunk ends it, exactly where one event ends it, every
call that an event names is opened and not spoilt by the order of its events, and no more calls are
opened than there are indexes. -/
theorem callsWhole_iff (hs : Opened [] s) (events : List CommandCodeEvent) :
    CallsWhole write events s ↔ CallsOrdered write events s := by
  refine ⟨CallsWhole.ordered hs, fun h ↦ ?_⟩
  have hopen : ∀ id ∈ (callPieces write events s).map Prod.fst,
      id ∈ openedBy [] (callPieces write events s) :=
    fun id hid ↦ mem_openedBy.mpr (.inr (h.unspoilt id hid).any_opens)
  have hfew : (openedBy [] (callPieces write events s)).length ≤ u64Max + 1 := by
    rw [length_openedBy hopen]
    exact h.few
  have hinj := (place_inj_iff (nodup_openedBy .nil _)).mpr hfew
  refine ⟨fun {id id' index index'} hid hid' ↦ ?_, fun id hid ↦ ?_, ?_⟩
  · obtain ⟨hmem, rfl⟩ := (namedUnder_iff hs events id index).mp hid
    obtain ⟨hmem', rfl⟩ := (namedUnder_iff hs events id' index').mp hid'
    exact ⟨fun heq ↦ heq ▸ rfl, hinj id hmem id' hmem'⟩
  · refine ⟨_, (namedUnder_iff hs events id _).mpr ⟨hopen id hid, rfl⟩, ?_⟩
    rw [argumentsAt_eq_gathered hs events hfew (hopen id hid)]
    exact (gathered_eq_supplied_iff (h.unspoilt id hid).any_opens).mpr (h.unspoilt id hid)
  · rw [(@commandCodeStream_spec write [] s hs events).2]
    exact h.ended

/-- An event with some fields. -/
def CommandCodeEvent.ofFields (fields : List (String × Json))
    (h : fields.reverse.lookup "object" = none) : CommandCodeEvent where
  raw := Json.object fields
  foreign := by
    rw [Json.strField_object, h]
    nofun

/-- The start of a call. -/
def startEvent : CommandCodeEvent :=
  .ofFields [("type", .str "tool-input-start"), ("id", .str "a"), ("toolName", .str "read")] rfl

/-- A delta of a call. -/
def deltaEvent (delta : String) : CommandCodeEvent :=
  .ofFields [("type", .str "tool-input-delta"), ("id", .str "a"), ("delta", .str delta)] rfl

/-- A complete call. -/
def callEvent : CommandCodeEvent :=
  .ofFields [("type", .str "tool-call"), ("toolCallId", .str "a"), ("toolName", .str "read"),
    ("input", .str "[1]")] rfl

/-- An event that ends a stream. -/
def endEvent (kind : String) : CommandCodeEvent := .ofFields [("type", .str kind)] rfl

/-- A call that is streamed and then comes complete is whole. -/
theorem callsWhole_streamed : CallsWhole (fun _ ↦ "")
    [startEvent, deltaEvent "[", deltaEvent "1]", callEvent, endEvent "finish"]
    { clock := fun _ ↦ 5 } := by
  refine (callsWhole_iff ⟨rfl, fun id ↦ ?_⟩ _).mpr ⟨?_, ?_, ?_⟩
  · exact Std.ExtTreeMap.getElem?_empty
  · decide +kernel
  · have hpieces : callPieces (fun _ ↦ "")
        [startEvent, deltaEvent "[", deltaEvent "1]", callEvent, endEvent "finish"]
        { clock := fun _ ↦ 5 } =
          [("a", .start), ("a", .part "["), ("a", .part "1]"), ("a", .whole "[1]")] := rfl
    rw [hpieces]
    intro id hid
    simp only [List.map_cons, List.map_nil, List.mem_cons, List.not_mem_nil, or_false,
      or_self] at hid
    subst hid
    refine ⟨rfl, fun hparts ↦ ?_⟩
    exact absurd hparts (by decide +kernel)
  · decide +kernel

/-- The arguments of a call that starts and then comes complete are lost, and a stream that an error
has ended is ended once more. -/
theorem arguments_lost_and_ended_twice :
    ¬ CallsWhole (fun _ ↦ "") [startEvent, callEvent, endEvent "finish"] { clock := fun _ ↦ 5 } ∧
      ¬ CallsWhole (fun _ ↦ "") [endEvent "error", endEvent "finish"] { clock := fun _ ↦ 5 } := by
  have hfresh : Opened [] { clock := fun _ ↦ 5 } := ⟨rfl, fun _ ↦ Std.ExtTreeMap.getElem?_empty⟩
  constructor
  · intro h
    have hpieces : callPieces (fun _ ↦ "") [startEvent, callEvent, endEvent "finish"]
        { clock := fun _ ↦ 5 } = [("a", .start), ("a", .whole "[1]")] := rfl
    have hunspoilt := (h.ordered hfresh).unspoilt "a" (by simp [hpieces])
    rw [hpieces] at hunspoilt
    exact absurd (hunspoilt.2 rfl) (by decide +kernel)
  · intro h
    exact absurd (h.ordered hfresh).ended (by decide +kernel)

end Stream

end NullRouter.Stream
