import NullRouter.Translate.Body
import NullRouter.Translate.Passes

/-!
# Tool names to Gemini and back

The names of a request's tools as they are declared to Gemini
(`crates/translate/src/request/openai_to_gemini.rs`), and those of the calls of its reply as they
come back to an OpenAI client (`response/gemini_to_openai.rs`, `body.rs`). The declared names are
sanitised, and nothing remembers what they were.
-/

namespace NullRouter.Translate.GeminiTools

open NullRouter.Base Request.OpenaiToGemini Request.GeminiNames Response.GeminiToOpenai

/-- Whether a tool is an OpenAI function of a name. -/
def IsFunction (tool : Json) (name : String) : Prop :=
  hasType "function" tool = true ∧ tool.get "input_schema" = none ∧
    (tool.get "function").bind (·.strField "name") = some name

/-- An OpenAI request that declares tools of distinct names. -/
structure ToolRequest where
  body : Json
  tools : List Json
  names : List String
  declared : arrayField body "tools" = some tools
  functions : List.Forall₂ IsFunction tools names
  distinct : names.Nodup

/-- An OpenAI function of a name. -/
def functionNamed (name : String) : Json :=
  .obj [("function", .obj [("name", .str name)]), ("type", .str "function")]

/-- The request that declares functions of some names and nothing else. -/
def requestOf (names : List String) (distinct : names.Nodup) : ToolRequest where
  body := .obj [("tools", .arr (names.map functionNamed))]
  tools := names.map functionNamed
  names := names
  declared := rfl
  functions := by
    rw [List.forall₂_map_left_iff, List.forall₂_same]
    exact fun _ _ ↦ ⟨rfl, rfl, rfl⟩
  distinct := distinct

/-- The names that a Gemini request declares. -/
def declaredNames (body : Json) : List String :=
  (((arrayField body "tools").getD []).flatMap fun tool ↦
    (arrayField tool "functionDeclarations").getD []).map (textOrEmpty · "name")

/-- The names that the calls of a Gemini reply use. -/
def usedNames (raw : Json) : List String :=
  (firstCandidate (responseOf raw)).elim [] fun candidate ↦
    ((candidateParts candidate).filterMap (·.get "functionCall")).map (textOrEmpty · "name")

/-- The names of the tool calls of an OpenAI message or delta. -/
def callNames (message : Option Json) : List String :=
  (deltaToolCalls message).filterMap fun call ↦ (call.get "function").bind (·.strField "name")

/-- The names of the tool calls of a chunk. -/
def chunkNames (chunk : Json) : List String :=
  callNames ((firstChoice chunk).bind (·.get "delta"))

/-- The names of the tool calls of a whole reply. -/
def replyNames (body : Json) : List String :=
  callNames ((firstChoice body).bind (·.get "message"))

/-- A stream of Gemini replies, translated. -/
def translateStream (write : Json → String) : List Json → StreamState → List Json × StreamState
  | [], s => ([], s)
  | raw :: raws, s => andThen (translate write raw) (translateStream write raws) s

/-- Tool names survive: the declared names are distinct, and the calls of a reply that uses
declared names come back under the original ones, of a stream and of a whole reply alike. -/
def NamesSurvive (catalogue : Catalogue) (writer : GeminiWriter) (route : RequestRoute)
    (stream : Bool) (ceiling : Nat) (request : ToolRequest) : Prop :=
  let translated := translateRequest catalogue writer route request.body stream ceiling
  (declaredNames translated.body).Nodup ∧
  (declaredNames translated.body).length = request.names.length ∧
  ∀ calls, calls ⊆ request.names.zip (declaredNames translated.body) →
    (∀ raws s, s.toolNameMap = translated.toolNameMap → raws.flatMap usedNames = calls.map (·.2) →
      (translateStream writer.serde.toText raws s).1.flatMap chunkNames = calls.map (·.1)) ∧
    ∀ raw s, (firstCandidate (responseOf raw)).isSome = true → usedNames raw = calls.map (·.2) →
      replyNames (Body.translateBody writer.serde route.target route.source raw s) =
        calls.map (·.1)

section Declared

variable {tools : List Json} {names : List String}

private theorem convertTool_function (clean : Json → Json) {tool : Json} {name : String}
    (h : IsFunction tool name) : ∃ declaration, convertTool clean tool = some declaration ∧
      textOrEmpty declaration "name" = sanitizeFunctionName name := by
  obtain ⟨htype, hschema, hname⟩ := h
  obtain ⟨function, hfunction, hname⟩ := Option.bind_eq_some_iff.mp hname
  have hconvert : convertTool clean tool = (some function).map fun function ↦
      Json.object [("name", .str (sanitizeFunctionName (textOrEmpty function "name"))),
        ("description", .str (textOrEmpty function "description")),
        ("parameters", clean ((function.get "parameters").getD
          (Json.object [("type", .str "object"), ("properties", Json.object [])])))] := by
    unfold convertTool
    rw [hschema, htype, hfunction]
    cases tool.strField "name" <;> rfl
  refine ⟨_, hconvert, ?_⟩
  simp only [textOrEmpty, hname, Option.getD_some]
  simp [Json.strField, Json.get_object, List.lookup_cons, Json.asStr]

private theorem convertTools_functions (clean : Json → Json)
    (h : List.Forall₂ IsFunction tools names) :
    (convertTools clean tools).map (textOrEmpty · "name") = names.map sanitizeFunctionName := by
  induction h with
  | nil => rfl
  | cons htool _ ih =>
    obtain ⟨declaration, hdecl, hname⟩ := convertTool_function clean htool
    rw [convertTools, List.filterMap_cons_some hdecl, List.map_cons, List.map_cons, hname]
    exact congrArg _ ih

/-- The declared names are the names of the tools, sanitised. -/
theorem declaredNames_translateRequest (catalogue : Catalogue) (writer : GeminiWriter)
    {route : RequestRoute} (hsource : route.source = .openAi)
    (htarget : route.target = .gemini ∨ route.target = .geminiCli ∨ route.target = .vertex)
    (stream : Bool) (ceiling : Nat) (request : ToolRequest) :
    declaredNames (translateRequest catalogue writer route request.body stream ceiling).body =
      request.names.map sanitizeFunctionName := by
  have hnames := convertTools_functions writer.cleanSchema request.functions
  rw [declaredNames, arrayField, body_translateRequest_gemini catalogue writer hsource htarget,
    get_finishRequest (by decide) (by decide) (by decide)]
  unfold Request.OpenaiToGemini.translate
  simp only [request.declared, Option.map_some, Option.getD_some]
  by_cases hnil : convertTools writer.cleanSchema request.tools = []
  · rw [hnil] at hnames ⊢
    cases systemInstruction (sourceMessages request.body) <;>
      simp [Json.get_object, List.lookup_cons, ← hnames]
  · simp [hnil, Json.get_object, ← hnames, Json.asArray, arrayField]

end Declared

section Delivered

variable {write : Json → String}

/-- A step delivers calls under the original names of some names, and remembers the same. -/
private def Delivers (names : List String) (step : StreamState → List Json × StreamState) : Prop :=
  ∀ s, (step s).1.flatMap chunkNames = names.map s.originalToolName ∧
    (step s).2.toolNameMap = s.toolNameMap

private theorem originalToolName_congr {s t : StreamState} (h : s.toolNameMap = t.toolNameMap) :
    s.originalToolName = t.originalToolName := by
  funext name
  rw [StreamState.originalToolName, StreamState.originalToolName, h]

private theorem Delivers.andThen {names more : List String}
    {f g : StreamState → List Json × StreamState} (hf : Delivers names f) (hg : Delivers more g) :
    Delivers (names ++ more) (andThen f g) := by
  intro s
  obtain ⟨hf₁, hf₂⟩ := hf s
  obtain ⟨hg₁, hg₂⟩ := hg (f s).2
  refine ⟨?_, hg₂.trans hf₂⟩
  rw [Response.GeminiToOpenai.andThen, List.flatMap_append, hf₁, hg₁, originalToolName_congr hf₂,
    List.map_append]

private theorem delivers_nil : Delivers [] fun s ↦ ([], s) := fun _ ↦ ⟨rfl, rfl⟩

private theorem chunkNames_chunk (delta : Json) (finish : Option String) (s : StreamState) :
    chunkNames (chunk delta finish s).1 = callNames (some delta) := by
  simp [chunkNames, chunk, buildChunk, firstChoice, Json.get_object, List.lookup_cons,
    Json.asArray]

private theorem emit_delivers {delta : Json} {names : List String} (s : StreamState)
    (h : callNames (some delta) = names) :
    (emit delta s).1.flatMap chunkNames = names ∧ (emit delta s).2.toolNameMap = s.toolNameMap := by
  refine ⟨?_, rfl⟩
  rw [emit, List.flatMap_singleton, chunkNames_chunk, h]

private theorem emitFunctionCall_delivers (call : Json) :
    Delivers [textOrEmpty call "name"] (emitFunctionCall write call) := by
  intro s
  refine emit_delivers _ ?_
  simp [callNames, deltaToolCalls, Json.get_object, List.lookup_cons, Json.asArray, Json.strField,
    Json.asStr]

private theorem emit_delivers_nil {delta : Json} (h : callNames (some delta) = []) :
    Delivers [] (emit delta) := fun s ↦ emit_delivers s h

private theorem callNames_singleField (key : String) (value : Json) (h : key ≠ "tool_calls") :
    callNames (some (Json.object [(key, value)])) = [] := by
  simp [callNames, deltaToolCalls, Json.get_object, List.lookup_cons, beq_false_of_ne h.symm]

private theorem translatePart_delivers (part : Json) :
    Delivers ((part.get "functionCall").map (textOrEmpty · "name")).toList
      (translatePart write part) := by
  have htext : Delivers [] fun s ↦ ((part.strField "text").filter (!·.isEmpty)).elim ([], s)
      fun text ↦ emit (textDelta text (isThought part)) s := by
    cases (part.strField "text").filter (!·.isEmpty) with
    | none => exact delivers_nil
    | some text =>
      refine emit_delivers_nil ?_
      unfold textDelta reasoningDelta
      split <;> exact callNames_singleField _ _ (by decide)
  have hcall : Delivers ((part.get "functionCall").map (textOrEmpty · "name")).toList
      fun s ↦ (part.get "functionCall").elim ([], s) fun call ↦ emitFunctionCall write call s := by
    cases part.get "functionCall" with
    | none => exact delivers_nil
    | some call => exact emitFunctionCall_delivers call
  have hinline : Delivers [] fun s ↦ if hasThoughtSignature part then ([], s)
      else (inlineOf part).elim ([], s) fun inline ↦ emitInline inline s := by
    by_cases hsignature : hasThoughtSignature part = true
    · simp only [hsignature, ↓reduceIte]
      exact delivers_nil
    · simp only [hsignature]
      cases inlineOf part with
      | none => exact delivers_nil
      | some inline =>
        simp only [Option.elim_some, emitInline]
        cases inline.strField "data" with
        | none => exact delivers_nil
        | some data => exact emit_delivers_nil (callNames_singleField _ _ (by decide))
  have h := htext.andThen (hcall.andThen hinline)
  rwa [List.nil_append, List.append_nil] at h

private theorem translateParts_delivers (parts : List Json) :
    Delivers ((parts.filterMap (·.get "functionCall")).map (textOrEmpty · "name"))
      (translateParts write parts) := by
  induction parts with
  | nil => exact delivers_nil
  | cons part parts ih =>
    have h := (@translatePart_delivers write part).andThen ih
    rw [List.filterMap_cons]
    cases hcall : part.get "functionCall" with
    | none =>
      rw [hcall] at h
      exact h
    | some call =>
      rw [hcall] at h
      exact h

private theorem identify_delivers (response : Json) : Delivers [] (identify response) := by
  intro s
  unfold identify
  cases s.messageId with
  | some id => exact delivers_nil s
  | none =>
    have h : ∀ t : StreamState, t.toolNameMap = s.toolNameMap →
        (emit (Json.object [("role", .str "assistant")]) t).1.flatMap chunkNames = [] ∧
          (emit (Json.object [("role", .str "assistant")]) t).2.toolNameMap = s.toolNameMap := by
      intro t ht
      have := emit_delivers t (callNames_singleField "role" (.str "assistant") (by decide))
      exact ⟨this.1, this.2.trans ht⟩
    refine h _ ?_
    cases response.strField "responseId" <;> rfl

private theorem finishCandidate_delivers (candidate : Json) :
    Delivers [] (finishCandidate candidate) := by
  intro s
  unfold finishCandidate
  cases candidateFinish candidate with
  | none => exact delivers_nil s
  | some reason =>
    have hchunk : ∀ (finish : String) (usage : Option Usage), chunkNames (usage.elim
        (chunk (Json.object []) (some finish) s).1 fun usage ↦
          (chunk (Json.object []) (some finish) s).1.setField "usage" usage.toValue) = [] := by
      intro finish usage
      have hempty : chunkNames (chunk (Json.object []) (some finish) s).1 = [] :=
        chunkNames_chunk ..
      cases usage with
      | none => exact hempty
      | some usage =>
        rw [Option.elim_some, chunkNames, firstChoice, Json.get_setField_of_ne (by decide)]
        exact hempty
    refine ⟨?_, rfl⟩
    rw [List.flatMap_singleton, hchunk, List.map_nil]

private theorem translate_delivers (raw : Json) :
    Delivers (usedNames raw) (Response.GeminiToOpenai.translate write raw) := by
  intro s
  unfold usedNames Response.GeminiToOpenai.translate
  cases firstCandidate (responseOf raw) with
  | none => exact delivers_nil s
  | some candidate =>
    have husage : Delivers [] (takeUsage raw) := fun s ↦ ⟨rfl, rfl⟩
    have h := (identify_delivers (responseOf raw)).andThen
      ((@translateParts_delivers write (candidateParts candidate)).andThen
        (husage.andThen (finishCandidate_delivers candidate)))
    rw [List.nil_append, List.append_nil, List.append_nil] at h
    exact h s

private theorem translateStream_delivers (raws : List Json) :
    Delivers (raws.flatMap usedNames) (translateStream write raws) := by
  induction raws with
  | nil => exact delivers_nil
  | cons raw raws ih => exact (translate_delivers raw).andThen ih

end Delivered

section Whole

variable {write : Json → String}

private theorem geminiToolCalls_names (calls : List Json) (position : Nat) (s : StreamState) :
    (Body.geminiToolCalls write calls position s).1.filterMap
      (fun call ↦ (call.get "function").bind (·.strField "name")) =
        calls.map (textOrEmpty · "name") := by
  induction calls generalizing position s with
  | nil => rfl
  | cons call calls ih =>
    rw [Body.geminiToolCalls, List.filterMap_cons, ih]
    simp [Json.get_object, List.lookup_cons, Json.strField, Json.asStr]

private theorem callNames_assistantMessage (text reasoning : String) (calls : List Json) :
    callNames (some (Body.assistantMessage text reasoning calls)) =
      calls.filterMap fun call ↦ (call.get "function").bind (·.strField "name") := by
  have hget : ((Body.assistantMessage text reasoning calls).get "tool_calls").getD (.arr []) =
      .arr calls := by
    unfold Body.assistantMessage
    rw [Json.get_object_append (by split <;> simp)]
    by_cases hcalls : calls = []
    · rw [if_pos hcalls, List.append_nil, Json.get_object_append (by split <;> simp),
        Json.get_object_append (by split <;> simp), hcalls]
      simp [Json.get_object, List.lookup_cons]
    · rw [if_neg hcalls, Json.get_object]
      simp
  rw [callNames, deltaToolCalls, Option.bind_some]
  cases hfield : (Body.assistantMessage text reasoning calls).get "tool_calls" with
  | none =>
    rw [hfield] at hget
    cases hget
    rfl
  | some value =>
    rw [hfield, Option.getD_some] at hget
    rw [hget]
    rfl

private theorem replyNames_completion (id model : String) (created : Nat) (message : Json)
    (finish : String) (usage : Option Usage) :
    replyNames (Body.completion id model created message finish usage) =
      callNames (some message) := by
  have hchoice : firstChoice (Body.completion id model created message finish usage) =
      some (Json.object [("index", Json.nat 0), ("message", message),
        ("finish_reason", .str finish)]) := by
    rw [firstChoice, Body.completion, Json.get_object_append (by cases usage <;> simp)]
    simp [Json.get_object, Json.asArray]
  rw [replyNames, hchoice, Option.bind_some]
  simp [Json.get_object, List.lookup_cons]

private theorem replyNames_geminiBody {raw : Json} (s : StreamState)
    (h : (firstCandidate (responseOf raw)).isSome = true) :
    replyNames (Body.geminiBodyToOpenai write raw s) = usedNames raw := by
  unfold usedNames Body.geminiBodyToOpenai
  obtain ⟨candidate, hcandidate⟩ := Option.isSome_iff_exists.mp h
  simp only [hcandidate, Option.elim_some]
  rw [replyNames_completion, callNames_assistantMessage, geminiToolCalls_names]

/-- A Gemini reply that makes one call. -/
private def replyCalling (name : String) : Json :=
  .obj [("candidates", .arr [.obj [("content", .obj [("parts",
    .arr [.obj [("functionCall", .obj [("name", .str name)])]])])]])]

private theorem usedNames_replyCalling (name : String) : usedNames (replyCalling name) = [name] :=
  rfl

end Whole

section Survival

variable (catalogue : Catalogue) (writer : GeminiWriter) {route : RequestRoute}
  (hsource : route.source = .openAi)
  (htarget : route.target = .gemini ∨ route.target = .geminiCli ∨ route.target = .vertex)

include hsource htarget

private theorem toolNameMap_translateRequest (body : Json) (stream : Bool) (ceiling : Nat) :
    (translateRequest catalogue writer route body stream ceiling).toolNameMap = [] := by
  unfold translateRequest
  rw [hsource]
  rcases htarget with h | h | h <;> rw [h] <;> rfl

private theorem translateBody_gemini (raw : Json) (s : StreamState) :
    Body.translateBody writer.serde route.target route.source raw s =
      Body.geminiBodyToOpenai writer.serde.toText raw s := by
  rw [hsource]
  rcases htarget with h | h | h <;> rw [h] <;> rfl

/-- Tool names survive the way to Gemini and back exactly when Gemini takes every one as it is. -/
theorem namesSurvive_iff (stream : Bool) (ceiling : Nat) (request : ToolRequest) :
    NamesSurvive catalogue writer route stream ceiling request ↔
      ∀ name ∈ request.names, IsGeminiName name := by
  have hnames := declaredNames_translateRequest catalogue writer hsource htarget stream ceiling
    request
  unfold NamesSurvive
  dsimp only
  rw [hnames, toolNameMap_translateRequest catalogue writer hsource htarget]
  constructor
  · rintro ⟨-, -, hcalls⟩ name hname
    have hmem : (name, sanitizeFunctionName name) ∈
        request.names.zip (request.names.map sanitizeFunctionName) := by
      obtain ⟨i, hi, rfl⟩ := List.mem_iff_getElem.mp hname
      exact List.mem_iff_getElem.mpr ⟨i, by simpa using hi, by simp⟩
    -- a reply that makes this one call
    have hreply := (hcalls [(name, sanitizeFunctionName name)] (by simpa using hmem)).2
      (replyCalling (sanitizeFunctionName name)) { clock := fun _ ↦ 0 } rfl
      (usedNames_replyCalling _)
    rw [translateBody_gemini writer hsource htarget, replyNames_geminiBody _ rfl,
      usedNames_replyCalling] at hreply
    exact (sanitize_eq_self_iff name).mp (List.singleton_injective hreply)
  · intro hall
    have hself : request.names.map sanitizeFunctionName = request.names := by
      rw [List.map_congr_left, List.map_id]
      intro name hname
      exact (sanitize_eq_self_iff name).mpr (hall name hname)
    rw [hself]
    refine ⟨request.distinct, rfl, fun calls hsub ↦ ?_⟩
    have hsame : calls.map (·.1) = calls.map (·.2) := by
      refine List.map_congr_left fun call hcall ↦ ?_
      have := hsub hcall
      rw [List.zip_eq_zipWith, List.zipWith_self] at this
      obtain ⟨name, -, rfl⟩ := List.mem_map.mp this
      rfl
    refine ⟨fun raws s hmap hused ↦ ?_, fun raw s hcandidate hused ↦ ?_⟩
    · have hid : s.originalToolName = id := by
        funext name
        rw [StreamState.originalToolName, hmap]
        rfl
      rw [(translateStream_delivers raws s).1, hid, List.map_id, hused, hsame]
    · rw [translateBody_gemini writer hsource htarget, replyNames_geminiBody s hcandidate, hused,
        hsame]

end Survival

/-- The route to a Gemini model that the tables do not list. -/
def unlistedGemini : RequestRoute := ⟨.openAi, .gemini, "gemini", "unlisted"⟩

/-- Two tools whose names Gemini takes. -/
theorem plain_names_survive :
    NamesSurvive Catalogue.unlisted GeminiWriter.placeholder unlistedGemini false 64000
    (requestOf ["get_weather", "get_time"] (by decide)) :=
  (namesSurvive_iff Catalogue.unlisted GeminiWriter.placeholder rfl (.inl rfl) false 64000 _).mpr
    (by decide)

/-- Two tools that are declared under one name. -/
theorem spaced_name_collides :
    ¬ NamesSurvive Catalogue.unlisted GeminiWriter.placeholder unlistedGemini false 64000
    (requestOf ["get weather", "get_weather"] (by decide)) := by
  rintro ⟨hdistinct, -⟩
  rw [declaredNames_translateRequest Catalogue.unlisted GeminiWriter.placeholder rfl
    (.inl rfl)] at hdistinct
  exact absurd hdistinct (by decide)

end NullRouter.Translate.GeminiTools
