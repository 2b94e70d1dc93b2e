import Mathlib.Data.List.DropRight
import NullRouter.Base.Bytes
import NullRouter.Base.Json
import NullRouter.Base.Lines

/-!
# Lines to and from a child

`send` and `pump` of `services/events-actix/src/mcp/bridge.rs:175–317`: a message is one line of a
child's input, and a line of its output is one frame for every listener. A message that is JSON may
hold line feeds, and a line may be longer than one read.
-/

namespace NullRouter.Mcp

open NullRouter.Base

/-! ## The input of a child -/

/-- The line of a message, `bridge.rs:186`. -/
def sentLine (frame : List Char) : List Char := trimEnd frame ++ ['\n']

/-- What a child reads of the bodies that are sent, `routes.rs:284`. -/
def childInput (bodies : List (List UInt8)) : List Char :=
  bodies.flatMap fun body ↦ sentLine (Bytes.toText body).toList

/-- The child reads one line for each body, in their order, and each is the value of its body. -/
def InputKept (readLine : List Char → Option Json) (readBody : List UInt8 → Option Json)
    (bodies : List (List UInt8)) : Prop :=
  ((childInput bodies).splitOn '\n').dropLast.map readLine = bodies.map readBody

/-! ## The output of a child -/

/-- `MAX_FRAME_BYTES`, `bridge.rs:30`. -/
def maxFrameBytes : Nat := 8 * 1024 * 1024

/-- What `take(MAX_FRAME_BYTES).read_line` reads, `bridge.rs:291–294`: up to a line feed. -/
def readLine (bytes : List UInt8) : List UInt8 :=
  let window := bytes.take maxFrameBytes
  window.take ((window.takeWhile (· ≠ 10)).length + 1)

/-- A text of bytes, if they are one. -/
def decodeLine (bytes : List UInt8) : Option (List Char) :=
  if Bytes.ofText (Bytes.toText bytes) = bytes then some (Bytes.toText bytes).toList else none

/-- `trim_end_matches(['\n', '\r'])`. -/
def trimLine (text : List Char) : List Char := text.rdropWhile fun c ↦ c = '\n' ∨ c = '\r'

/-- The texts that the loop of `pump`, `bridge.rs:288–310`, makes of the bytes to come, with enough
rounds to read them. -/
def pumpedFrom : Nat → List UInt8 → List (List Char)
  | 0, _ => []
  | rounds + 1, bytes =>
    if readLine bytes = [] then []
    else
      match decodeLine (readLine bytes) with
      | none => []
      | some text =>
        (some (trimLine text)).toList.filter (· ≠ []) ++
          pumpedFrom rounds (bytes.drop (readLine bytes).length)

/-- `pump`: the frames that are sent to the listeners. -/
def pump (filter : List Char → List Char) (bytes : List UInt8) : List (List Char) :=
  (pumpedFrom bytes.length bytes).map filter

/-- `LISTENER_BUFFER_FRAMES`, `bridge.rs:32`. -/
def listenerBufferFrames : Nat := 256

/-- The channel of a listener: what has been received of it, and what waits in it. -/
structure Inbox where
  received : List (List Char) := []
  waiting : List (List Char) := []

/-- A frame is offered with `try_send`, `bridge.rs:308`, or one is received. -/
def Inbox.step (inbox : Inbox) : Option (List Char) → Inbox
  | some frame =>
    if inbox.waiting.length < listenerBufferFrames then
      { inbox with waiting := inbox.waiting ++ [frame] }
    else inbox
  | none => ⟨inbox.received ++ inbox.waiting.take 1, inbox.waiting.drop 1⟩

/-- There is space for every frame that is offered. -/
def Inbox.HasSpace : Inbox → List (Option (List Char)) → Prop
  | _, [] => True
  | inbox, op :: ops =>
    (op.isSome → inbox.waiting.length < listenerBufferFrames) ∧ (inbox.step op).HasSpace ops

/-- The texts of the lines that are not empty. -/
def outputLines (bytes : List UInt8) : List (List Char) :=
  ((bytes.splitOn 10).map fun line ↦ trimLine (Bytes.toText line).toList).filter (· ≠ [])

/-- Whatever is done to the frames, a listener with space has one for each line that is not empty,
in their order. -/
def OutputKept (bytes : List UInt8) : Prop :=
  ∀ filter ops, ops.filterMap id = pump filter bytes → Inbox.HasSpace {} ops →
    (ops.foldl Inbox.step {}).received ++ (ops.foldl Inbox.step {}).waiting =
      (outputLines bytes).map filter

/-- A line that is a text and, without the carriage returns at its end, fits one read. -/
def FitsRead (line : List UInt8) : Prop :=
  Bytes.ofText (Bytes.toText line) = line ∧
    (Bytes.ofText (String.ofList (trimLine (Bytes.toText line).toList))).length ≤ maxFrameBytes

/-! ## Bodies -/

section Bodies

variable {readLine : List Char → Option Json} {readBody : List UInt8 → Option Json}
  {bodies : List (List UInt8)}

private theorem count_childInput : (childInput bodies).count '\n' =
    (bodies.map fun body ↦ (trimEnd (Bytes.toText body).toList).count '\n' + 1).sum := by
  rw [childInput, List.count_flatMap]
  congr 1
  apply List.map_congr_left
  intro body _
  simp [sentLine]

private theorem length_splitOn (text : List Char) :
    (text.splitOn '\n').length = text.count '\n' + 1 := by
  induction text using lines_induction with
  | last only honly =>
    rw [List.splitOn_eq_singleton honly, List.count_eq_zero.mpr honly, List.length_singleton]
  | line first rest hfirst ih =>
    rw [List.splitOn_append_cons_self_of_not_mem hfirst, List.length_cons, ih, List.count_append,
      List.count_eq_zero.mpr hfirst, List.count_cons_self, Nat.zero_add]

private theorem splitOn_childInput
    (h : ∀ body ∈ bodies, '\n' ∉ trimEnd (Bytes.toText body).toList) :
    (childInput bodies).splitOn '\n' =
      bodies.map (fun body ↦ trimEnd (Bytes.toText body).toList) ++ [[]] := by
  induction bodies with
  | nil => rfl
  | cons body bodies ih =>
    rw [List.forall_mem_cons] at h
    rw [childInput, List.flatMap_cons, sentLine, List.append_assoc, List.singleton_append,
      List.splitOn_append_cons_self_of_not_mem h.1, ← childInput, ih h.2]
    rfl

/-- The child reads the bodies exactly where none holds a line feed before its end. -/
theorem inputKept_iff (haccepted : ∀ body ∈ bodies, (readBody body).isSome)
    (hbody : ∀ body value, readBody body = some value →
      readLine (Bytes.toText body).toList = some value)
    (htrim : ∀ text value, readLine text = some value → readLine (trimEnd text) = some value) :
    InputKept readLine readBody bodies ↔
      ∀ body ∈ bodies, '\n' ∉ trimEnd (Bytes.toText body).toList := by
  constructor
  · intro h
    have hlength := congrArg List.length h
    rw [List.length_map, List.length_map, List.length_dropLast, length_splitOn,
      Nat.add_sub_cancel, count_childInput] at hlength
    by_contra hsome
    push Not at hsome
    obtain ⟨body, hmem, hline⟩ := hsome
    have hmore : bodies.length <
        (bodies.map fun body ↦ (trimEnd (Bytes.toText body).toList).count '\n' + 1).sum := by
      clear h hlength haccepted
      induction bodies with
      | nil => cases hmem
      | cons first bodies ih =>
        have hrest : ∀ bodies : List (List UInt8), bodies.length ≤
            (bodies.map fun body ↦ (trimEnd (Bytes.toText body).toList).count '\n' + 1).sum := by
          intro bodies
          induction bodies with
          | nil => exact Nat.le_refl _
          | cons first bodies ih =>
            rw [List.map_cons, List.sum_cons, List.length_cons]
            omega
        rw [List.map_cons, List.sum_cons, List.length_cons]
        rcases List.mem_cons.mp hmem with rfl | hmem
        · have hpos := List.count_pos_iff.mpr hline
          have hle := hrest bodies
          omega
        · have hlt := ih hmem
          omega
    omega
  · intro h
    rw [InputKept, splitOn_childInput h, List.dropLast_concat, List.map_map]
    apply List.map_congr_left
    intro body hmem
    obtain ⟨value, hvalue⟩ := Option.isSome_iff_exists.mp (haccepted body hmem)
    rw [Function.comp_apply, htrim _ _ (hbody _ _ hvalue), hvalue]

end Bodies

/-! ## Listeners -/

section Listeners

variable {inbox : Inbox} {ops : List (Option (List Char))}

/-- With space nothing that is offered is lost, and nothing comes twice. -/
theorem Inbox.received_of_hasSpace (h : inbox.HasSpace ops) :
    (ops.foldl Inbox.step inbox).received ++ (ops.foldl Inbox.step inbox).waiting =
      inbox.received ++ inbox.waiting ++ ops.filterMap id := by
  induction ops generalizing inbox with
  | nil => simp
  | cons op ops ih =>
    rw [Inbox.HasSpace] at h
    rw [List.foldl_cons, ih h.2]
    cases op with
    | none =>
      rw [Inbox.step, List.append_assoc inbox.received, List.take_append_drop,
        List.filterMap_cons_none rfl]
    | some frame => simp [Inbox.step, h.1 rfl]

/-- A listener that receives every frame at once has space. -/
theorem Inbox.hasSpace_of_prompt (frames received : List (List Char)) :
    Inbox.HasSpace ⟨received, []⟩ (frames.flatMap fun frame ↦ [some frame, none]) := by
  induction frames generalizing received with
  | nil => trivial
  | cons frame frames ih => exact ⟨fun _ ↦ Nat.zero_lt_succ _, nofun, ih (received ++ [frame])⟩

theorem outputKept_iff_pumped {bytes : List UInt8} :
    OutputKept bytes ↔ pumpedFrom bytes.length bytes = outputLines bytes := by
  constructor
  · intro h
    have hprompt := Inbox.hasSpace_of_prompt (pumpedFrom bytes.length bytes) []
    have hops : ((pumpedFrom bytes.length bytes).flatMap
        fun frame ↦ [some frame, none]).filterMap id = pumpedFrom bytes.length bytes := by
      rw [List.filterMap_flatMap]
      exact List.flatMap_singleton' _
    have hkept := h id _ (by rw [hops, pump, List.map_id]) hprompt
    rwa [Inbox.received_of_hasSpace hprompt, hops, List.map_id] at hkept
  · intro h filter ops hops hspace
    rw [Inbox.received_of_hasSpace hspace, hops, pump, h]
    rfl

end Listeners

/-! ## Reads -/

section Reads

variable {line tail bytes : List UInt8} {text newlines : List Char}

private theorem readLine_of_lt (hline : 10 ∉ line) (htail : ∀ b ∈ tail.head?, b = 10)
    (hlt : line.length < maxFrameBytes) : readLine (line ++ tail) = line ++ tail.take 1 := by
  obtain ⟨n, hn⟩ := Nat.exists_eq_add_of_lt hlt
  have htake : (line ++ tail).take maxFrameBytes = line ++ tail.take (n + 1) := by
    rw [List.take_append, List.take_of_length_le (Nat.le_of_lt hlt)]
    congr 2
    omega
  have hfront : (line ++ tail.take (n + 1)).takeWhile (· ≠ 10) = line := by
    rw [List.takeWhile_append_of_pos]
    · cases tail with
      | nil => simp
      | cons b tail => simp [htail b rfl]
    · intro b hb
      simpa using fun h : b = 10 ↦ hline (h ▸ hb)
  rw [readLine, htake]
  simp only [hfront]
  rw [List.take_length_add_append, List.take_take, Nat.min_eq_left (Nat.le_add_left 1 n)]

private theorem readLine_of_le (hline : 10 ∉ line) (hle : maxFrameBytes ≤ line.length) :
    readLine (line ++ tail) = line.take maxFrameBytes := by
  have htake : (line ++ tail).take maxFrameBytes = line.take maxFrameBytes :=
    List.take_append_of_le_length hle
  have hfront : (line.take maxFrameBytes).takeWhile (· ≠ 10) = line.take maxFrameBytes := by
    rw [List.takeWhile_eq_self_iff]
    intro b hb
    simpa using fun h : b = 10 ↦ hline (h ▸ List.mem_of_mem_take hb)
  rw [readLine, htake]
  simp only [hfront]
  exact List.take_of_length_le (Nat.le_succ _)

private theorem length_readLine_le : (readLine bytes).length ≤ maxFrameBytes := by
  rw [readLine, List.length_take, List.length_take]
  omega

private theorem readLine_eq_nil_iff : readLine bytes = [] ↔ bytes = [] := by
  simp [readLine, List.take_eq_nil_iff, maxFrameBytes]

/-- The texts that the loop makes of some bytes. -/
def pumped (bytes : List UInt8) : List (List Char) := pumpedFrom bytes.length bytes

theorem pumpedFrom_eq {rounds : Nat} (h : bytes.length ≤ rounds) :
    pumpedFrom rounds bytes = pumped bytes := by
  induction hn : bytes.length using Nat.strongRecOn generalizing bytes rounds with
  | ind n ih =>
    rw [pumped]
    cases rounds with
    | zero => rw [List.length_eq_zero_iff.mp (Nat.le_zero.mp h)]; rfl
    | succ rounds =>
      cases bytes with
      | nil => rw [pumpedFrom, if_pos (readLine_eq_nil_iff.mpr rfl), List.length_nil, pumpedFrom]
      | cons b bytes =>
        have hne : readLine (b :: bytes) ≠ [] := by simp [readLine_eq_nil_iff]
        have hpos := List.length_pos_iff.mpr hne
        have hlt : ((b :: bytes).drop (readLine (b :: bytes)).length).length < n := by
          rw [← hn, List.length_drop, List.length_cons]
          omega
        rw [List.length_cons] at hn h
        rw [List.length_cons, pumpedFrom, pumpedFrom, if_neg hne, if_neg hne]
        cases decodeLine (readLine (b :: bytes)) with
        | none => rfl
        | some text =>
          simp only
          rw [ih _ hlt (by omega) rfl, ih _ hlt (by omega) rfl]

/-- One round of the loop. -/
theorem pumped_eq (hne : bytes ≠ []) : pumped bytes = match decodeLine (readLine bytes) with
    | none => []
    | some text => (some (trimLine text)).toList.filter (· ≠ []) ++
        pumped (bytes.drop (readLine bytes).length) := by
  have hread : readLine bytes ≠ [] := mt readLine_eq_nil_iff.mp hne
  rw [← pumpedFrom_eq (Nat.le_succ _), pumpedFrom, if_neg hread]
  cases decodeLine (readLine bytes) with
  | none => rfl
  | some text =>
    simp only
    rw [pumpedFrom_eq]
    rw [List.length_drop]
    omega

end Reads

/-! ## Lines -/

section Lines

variable {line tail bytes : List UInt8} {text newlines rest : List Char}

private theorem trimLine_append_newlines (h : ∀ c ∈ newlines, c = '\n' ∨ c = '\r') :
    trimLine (text ++ newlines) = trimLine text := by
  rw [trimLine, trimLine, List.rdropWhile, List.reverse_append, List.dropWhile_append_of_pos,
    List.rdropWhile]
  intro c hc
  simpa using h c (List.mem_reverse.mp hc)

private theorem trimLine_append (h : trimLine rest ≠ []) :
    trimLine (text ++ rest) = text ++ trimLine rest := by
  rw [trimLine, List.rdropWhile] at h
  rw [trimLine, trimLine, List.rdropWhile, List.rdropWhile, List.reverse_append,
    List.dropWhile_append, if_neg (by simpa using h), List.reverse_append, List.reverse_reverse]

private theorem toText_append_lf (line : List UInt8) :
    (Bytes.toText (line ++ [10])).toList = (Bytes.toText line).toList ++ ['\n'] := by
  rw [Bytes.toText, Bytes.toText, String.toList_ofList, String.toList_ofList, List.map_append,
    Utf8.lossy_append]
  · rfl
  · rintro b hb
    obtain rfl : b = 10 := (Option.mem_some.mp hb).symm
    cases Utf8.State.start.after (line.map UInt8.toNat) with
    | start => rfl
    | inside left value due =>
      have hlow := due.continuation.1
      simp only [Utf8.State.accepts, Bool.and_eq_false_iff, decide_eq_false_iff_not]
      omega

private theorem ofText_newlines (h : ∀ c ∈ newlines, c = '\n' ∨ c = '\r') :
    Bytes.ofText (String.ofList newlines) = newlines.map fun c ↦ UInt8.ofNat c.toNat := by
  rw [Bytes.ofText, String.toList_ofList, List.map_eq_flatMap]
  apply List.flatMap_congr
  intro c hc
  rcases h c hc with rfl | rfl
  · rfl
  · rfl

private theorem take_drop_newlines (h : ∀ c ∈ newlines, c = '\n' ∨ c = '\r') (n : Nat) :
    (Bytes.ofText (String.ofList newlines)).take n =
        Bytes.ofText (String.ofList (newlines.take n)) ∧
      (Bytes.ofText (String.ofList newlines)).drop n =
        Bytes.ofText (String.ofList (newlines.drop n)) := by
  rw [ofText_newlines h, ofText_newlines fun c hc ↦ h c (List.mem_of_mem_take hc),
    ofText_newlines fun c hc ↦ h c (List.mem_of_mem_drop hc), List.map_take, List.map_drop]
  exact ⟨rfl, rfl⟩

private theorem ofText_toText_of_trimmed (h : trimLine (Bytes.toText line).toList = []) :
    Bytes.ofText (Bytes.toText line) = line := by
  have hnewlines : ∀ c ∈ (Bytes.toText line).toList, c = '\n' ∨ c = '\r' := by
    intro c hc
    simpa using List.rdropWhile_eq_nil_iff.mp h c hc
  have hbytes := @Utf8.eq_of_lossy_ascii (line.map UInt8.toNat) fun c hc ↦ by
    rcases hnewlines c (by rwa [Bytes.toText, String.toList_ofList]) with rfl | rfl
    · decide
    · decide
  have htext := ofText_newlines hnewlines
  rw [String.ofList_toList] at htext
  have hsplit : (Bytes.toText line).toList.map (fun c ↦ UInt8.ofNat c.toNat) =
      ((Bytes.toText line).toList.map Char.toNat).map UInt8.ofNat := by
    rw [List.map_map]
    rfl
  have hround : (UInt8.ofNat ∘ UInt8.toNat : UInt8 → UInt8) = id :=
    funext fun _ ↦ UInt8.ofNat_toNat
  rw [htext, hsplit, Bytes.toText, String.toList_ofList, ← hbytes, List.map_map, hround,
    List.map_id]

private theorem exists_of_fitsRead (h : FitsRead line) : ∃ text newlines,
    (∀ c ∈ newlines, c = '\n' ∨ c = '\r') ∧ trimLine text = text ∧
    line = Bytes.ofText (String.ofList text) ++ Bytes.ofText (String.ofList newlines) ∧
    (Bytes.ofText (String.ofList text)).length ≤ maxFrameBytes ∧
    (Bytes.toText line).toList = text ++ newlines := by
  refine ⟨trimLine (Bytes.toText line).toList, (Bytes.toText line).toList.rtakeWhile
    fun c ↦ c = '\n' ∨ c = '\r', ?_, List.rdropWhile_idempotent _ _, ?_, h.2, ?_⟩
  · intro c hc
    simpa using List.mem_rtakeWhile_imp hc
  · rw [← Bytes.ofText_append, ← String.ofList_append, trimLine, List.rdropWhile_append_rtakeWhile,
      String.ofList_toList, h.1]
  · rw [trimLine, List.rdropWhile_append_rtakeWhile]

private theorem decodeLine_ofText (text : List Char) :
    decodeLine (Bytes.ofText (String.ofList text)) = some text := by
  rw [decodeLine, Bytes.toText_ofText, if_pos rfl, String.toList_ofList]

private theorem fitsRead_newlines (h : ∀ c ∈ newlines, c = '\n' ∨ c = '\r') :
    FitsRead (Bytes.ofText (String.ofList newlines)) ∧
      trimLine (Bytes.toText (Bytes.ofText (String.ofList newlines))).toList = [] := by
  have htrim : trimLine newlines = [] := by
    have happend := @trimLine_append_newlines [] newlines h
    rwa [List.nil_append] at happend
  rw [FitsRead, Bytes.toText_ofText, String.toList_ofList, htrim]
  exact ⟨⟨rfl, Nat.zero_le _⟩, rfl⟩

/-- A line that fits one read makes one frame, or none where it is empty. -/
theorem pumped_of_fitsRead (hline : 10 ∉ line) (htail : ∀ b ∈ tail.head?, b = 10)
    (h : FitsRead line) : pumped (line ++ tail) =
      (some (trimLine (Bytes.toText line).toList)).toList.filter (· ≠ []) ++
        pumped (tail.drop 1) := by
  induction hn : line.length using Nat.strongRecOn generalizing line with
  | ind n ih =>
    by_cases hnil : line ++ tail = []
    · obtain ⟨rfl, rfl⟩ := List.append_eq_nil_iff.mp hnil
      rfl
    obtain ⟨text, newlines, hnewlines, htrim, hbytes, hle, htext⟩ := exists_of_fitsRead h
    rw [htext, trimLine_append_newlines hnewlines, htrim, pumped_eq hnil]
    by_cases hlt : line.length < maxFrameBytes
    · have hdecode : ∃ more, (∀ c ∈ more, c = '\n' ∨ c = '\r') ∧
          decodeLine (line ++ tail.take 1) = some (text ++ more) := by
        rw [hbytes, ← Bytes.ofText_append, ← String.ofList_append]
        cases tail with
        | nil =>
          refine ⟨newlines, hnewlines, ?_⟩
          rw [List.take_nil, List.append_nil, decodeLine_ofText]
        | cons b tail =>
          refine ⟨newlines ++ ['\n'], ?_, ?_⟩
          · simpa [or_imp, forall_and] using hnewlines
          · have hlf : Bytes.ofText (String.ofList ['\n']) = [10] := by decide
            rw [htail b rfl, List.take_succ_cons, List.take_zero, ← hlf, ← Bytes.ofText_append,
              ← String.ofList_append, decodeLine_ofText, List.append_assoc]
      obtain ⟨more, hmore, hdecode⟩ := hdecode
      rw [readLine_of_lt hline htail hlt, hdecode]
      simp only
      rw [trimLine_append_newlines hmore, htrim, List.length_append, List.length_take,
        List.drop_append, List.drop_eq_nil_of_le (Nat.le_add_right _ _), List.nil_append,
        Nat.add_sub_cancel_left]
      congr 2
      cases tail with
      | nil => rfl
      | cons b tail => simp
    · rw [Nat.not_lt] at hlt
      have hchunk : line.take maxFrameBytes = Bytes.ofText (String.ofList (text ++
          newlines.take (maxFrameBytes - (Bytes.ofText (String.ofList text)).length))) := by
        rw [hbytes, List.take_append, List.take_of_length_le hle, String.ofList_append,
          Bytes.ofText_append, (take_drop_newlines hnewlines _).1]
      have hrest : line.drop maxFrameBytes = Bytes.ofText (String.ofList
          (newlines.drop (maxFrameBytes - (Bytes.ofText (String.ofList text)).length))) := by
        rw [hbytes, List.drop_append, List.drop_eq_nil_of_le hle, List.nil_append,
          (take_drop_newlines hnewlines _).2]
      obtain ⟨hfits, hempty⟩ := @fitsRead_newlines
        (newlines.drop (maxFrameBytes - (Bytes.ofText (String.ofList text)).length))
        fun c hc ↦ hnewlines c (List.mem_of_mem_drop hc)
      rw [← hrest] at hfits hempty
      have hpos : 0 < maxFrameBytes := by decide
      have hlater := ih _ (by rw [List.length_drop]; omega)
        (fun hmem ↦ hline (List.mem_of_mem_drop hmem)) hfits rfl
      rw [hempty] at hlater
      rw [readLine_of_le hline hlt, hchunk, decodeLine_ofText, ← hchunk]
      simp only
      rw [trimLine_append_newlines fun c hc ↦ hnewlines c (List.mem_of_mem_take hc), htrim,
        List.length_take, Nat.min_eq_left hlt, List.drop_append_of_le_length hlt, hlater]
      rfl

private theorem ofText_of_decodeLine (h : decodeLine line = some text) :
    Bytes.ofText (String.ofList text) = line := by
  rw [decodeLine] at h
  split at h
  · next htext => rw [← Option.some.inj h, String.ofList_toList, htext]
  · cases h

/-- Where a line is no text, nothing comes of it, or less than its text. -/
theorem pumped_of_not_text (hline : 10 ∉ line) (htail : ∀ b ∈ tail.head?, b = 10)
    (h : Bytes.ofText (Bytes.toText line) ≠ line) : pumped (line ++ tail) = [] ∨
      ∃ frame frames, pumped (line ++ tail) = frame :: frames ∧
        frame.length < (trimLine (Bytes.toText line).toList).length := by
  induction hn : line.length using Nat.strongRecOn generalizing line with
  | ind n ih =>
    have hne : line ++ tail ≠ [] := by
      intro hnil
      rw [(List.append_eq_nil_iff.mp hnil).1] at h
      exact h rfl
    rw [pumped_eq hne]
    by_cases hlt : line.length < maxFrameBytes
    · have hdecode : decodeLine (line ++ tail.take 1) = none := by
        rw [decodeLine, if_neg]
        cases tail with
        | nil => rwa [List.take_nil, List.append_nil]
        | cons b tail =>
          have hlf : Bytes.ofText (String.ofList ['\n']) = [10] := by decide
          rw [htail b rfl, List.take_succ_cons, List.take_zero, ← String.ofList_toList
            (s := Bytes.toText (line ++ [10])), toText_append_lf, String.ofList_append,
            String.ofList_toList, Bytes.ofText_append, hlf, List.append_left_inj]
          exact h
      rw [readLine_of_lt hline htail hlt, hdecode]
      exact .inl rfl
    · rw [Nat.not_lt] at hlt
      rw [readLine_of_le hline hlt]
      cases hchunk : decodeLine (line.take maxFrameBytes) with
      | none => exact .inl rfl
      | some text =>
        have htext := (ofText_of_decodeLine hchunk).symm
        have hread : (Bytes.toText line).toList =
            text ++ (Bytes.toText (line.drop maxFrameBytes)).toList := by
          conv_lhs => rw [← List.take_append_drop maxFrameBytes line, htext]
          rw [Bytes.toText_ofText_append, String.toList_append, String.toList_ofList]
        have hrest : Bytes.ofText (Bytes.toText (line.drop maxFrameBytes)) ≠
            line.drop maxFrameBytes := by
          intro hrest
          apply h
          rw [← String.ofList_toList (s := Bytes.toText line), hread, String.ofList_append,
            String.ofList_toList, Bytes.ofText_append, hrest, ← htext, List.take_append_drop]
        have htrim : trimLine (Bytes.toText (line.drop maxFrameBytes)).toList ≠ [] :=
          mt ofText_toText_of_trimmed hrest
        rw [hread, trimLine_append htrim]
        simp only
        by_cases hempty : trimLine text = []
        · have hpos : 0 < maxFrameBytes := by decide
          have hlater := ih _ (by rw [List.length_drop]; omega)
            (fun hmem ↦ hline (List.mem_of_mem_drop hmem)) hrest rfl
          have hskip : (some (trimLine text)).toList.filter (· ≠ []) = [] := by simp [hempty]
          rw [hskip, List.nil_append, List.length_take, Nat.min_eq_left hlt,
            List.drop_append_of_le_length hlt]
          rcases hlater with hlater | ⟨frame, frames, hframes, hless⟩
          · exact .inl hlater
          · refine .inr ⟨frame, frames, hframes, ?_⟩
            rw [List.length_append]
            omega
        · have hkept : (some (trimLine text)).toList.filter (· ≠ []) = [trimLine text] := by
            simp [hempty]
          rw [hkept]
          refine .inr ⟨_, _, rfl, ?_⟩
          have hle : (trimLine text).length ≤ text.length :=
            (List.rdropWhile_prefix _ _).length_le
          have hpos := List.length_pos_iff.mpr htrim
          rw [List.length_append]
          omega

/-- No frame is longer than one read. -/
theorem length_of_mem_pumped {frame : List Char} (h : frame ∈ pumped bytes) :
    (Bytes.ofText (String.ofList frame)).length ≤ maxFrameBytes := by
  rw [pumped] at h
  generalize bytes.length = rounds at h
  induction rounds generalizing bytes with
  | zero => cases h
  | succ rounds ih =>
    rw [pumpedFrom] at h
    split at h
    · cases h
    · cases hchunk : decodeLine (readLine bytes) with
      | none =>
        rw [hchunk] at h
        cases h
      | some text =>
        rw [hchunk] at h
        rcases List.mem_append.mp h with h | h
        · obtain rfl : frame = trimLine text := by
            simpa using (List.mem_filter.mp h).1
          obtain ⟨newlines, hnewlines⟩ := List.rdropWhile_prefix (fun c ↦ c = '\n' ∨ c = '\r') text
          have hlength := congrArg List.length (ofText_of_decodeLine hchunk)
          rw [← hnewlines, String.ofList_append, Bytes.ofText_append, List.length_append] at hlength
          have hle := @length_readLine_le bytes
          rw [trimLine]
          omega
        · exact ih h

theorem outputLines_of_not_mem (h : 10 ∉ line) : outputLines line =
    (some (trimLine (Bytes.toText line).toList)).toList.filter (· ≠ []) := by
  rw [outputLines, List.splitOn_eq_singleton h]
  rfl

theorem outputLines_cons (h : 10 ∉ line) (others : List UInt8) :
    outputLines (line ++ 10 :: others) =
      (some (trimLine (Bytes.toText line).toList)).toList.filter (· ≠ []) ++
        outputLines others := by
  rw [outputLines, List.splitOn_append_cons_self_of_not_mem h, List.map_cons,
    ← List.singleton_append, List.filter_append, ← outputLines]
  rfl

private theorem fitsRead_of_eq (hline : 10 ∉ line) (htail : ∀ b ∈ tail.head?, b = 10)
    {frames : List (List Char)} (h : pumped (line ++ tail) =
      (some (trimLine (Bytes.toText line).toList)).toList.filter (· ≠ []) ++ frames) :
    FitsRead line := by
  have hmem : trimLine (Bytes.toText line).toList ≠ [] →
      (some (trimLine (Bytes.toText line).toList)).toList.filter (· ≠ []) =
        [trimLine (Bytes.toText line).toList] := fun hne ↦ by simp [hne]
  constructor
  · by_contra htext
    have htrim := mt ofText_toText_of_trimmed htext
    rw [hmem htrim] at h
    rcases pumped_of_not_text hline htail htext with hnone | ⟨frame, frames, hframes, hless⟩
    · rw [hnone] at h
      cases h
    · rw [hframes] at h
      rw [(List.cons.inj h).1] at hless
      exact absurd hless (Nat.lt_irrefl _)
  · by_cases hempty : trimLine (Bytes.toText line).toList = []
    · rw [hempty]
      exact Nat.zero_le _
    · apply @length_of_mem_pumped (line ++ tail)
      rw [h, hmem hempty]
      exact List.mem_cons_self

/-- Every line is one frame exactly where every line fits one read. -/
theorem pumped_eq_iff :
    pumped bytes = outputLines bytes ↔ ∀ line ∈ bytes.splitOn 10, FitsRead line := by
  induction hn : bytes.length using Nat.strongRecOn generalizing bytes with
  | ind n ih =>
    by_cases hmem : 10 ∈ bytes
    · obtain ⟨line, others, rfl, hline⟩ := List.eq_append_cons_of_mem hmem
      have hrest := @ih others.length (by
        rw [← hn, List.length_append, List.length_cons]
        omega) others rfl
      have htail : ∀ b ∈ (10 :: others).head?, b = 10 := fun b hb ↦ (Option.mem_some.mp hb).symm
      rw [List.splitOn_append_cons_self_of_not_mem hline, List.forall_mem_cons, ← hrest,
        outputLines_cons hline]
      constructor
      · intro h
        have hfits := fitsRead_of_eq hline htail h
        rw [pumped_of_fitsRead hline htail hfits] at h
        exact ⟨hfits, List.append_cancel_left h⟩
      · rintro ⟨hfits, h⟩
        rw [pumped_of_fitsRead hline htail hfits, List.drop_one, List.tail_cons, h]
    · rw [List.splitOn_eq_singleton hmem, List.forall_mem_singleton, outputLines_of_not_mem hmem]
      have htail : ∀ b ∈ ([] : List UInt8).head?, b = 10 := by nofun
      constructor
      · intro h
        apply @fitsRead_of_eq _ _ hmem htail []
        rw [List.append_nil, List.append_nil, h]
      · intro h
        have hone := pumped_of_fitsRead hmem htail h
        rwa [List.append_nil, List.drop_nil, show pumped [] = [] from rfl, List.append_nil] at hone

end Lines

/-- A child reads every body as one line of its value, and a listener with space receives every line
of the child as one frame, exactly where no body holds a line feed before its end, and every line is
a text that fits one read. -/
theorem stdio_kept_iff (readLine : List Char → Option Json) (readBody : List UInt8 → Option Json)
    (hbody : ∀ body value, readBody body = some value →
      readLine (Bytes.toText body).toList = some value)
    (htrim : ∀ text value, readLine text = some value → readLine (trimEnd text) = some value)
    (bodies : List (List UInt8)) (haccepted : ∀ body ∈ bodies, (readBody body).isSome)
    (bytes : List UInt8) :
    InputKept readLine readBody bodies ∧ OutputKept bytes ↔
      (∀ body ∈ bodies, '\n' ∉ trimEnd (Bytes.toText body).toList) ∧
        ∀ line ∈ bytes.splitOn 10, FitsRead line := by
  rw [inputKept_iff haccepted hbody htrim, outputKept_iff_pumped, ← pumped, pumped_eq_iff]

/-- An empty object, with white space anywhere. -/
private def readBraces (text : List Char) : Option Json :=
  if text.filter (!isWhitespace ·) = ['{', '}'] then some (.obj []) else none

theorem stdio_kept_braces :
    InputKept readBraces (fun body ↦ readBraces (Bytes.toText body).toList)
        [Bytes.ofText "\x7b\x7d\n"] ∧
      OutputKept (Bytes.ofText "\x7b\x7d\r\n") ↔
    (∀ body ∈ [Bytes.ofText "\x7b\x7d\n"], '\n' ∉ trimEnd (Bytes.toText body).toList) ∧
      ∀ line ∈ (Bytes.ofText "\x7b\x7d\r\n").splitOn 10, FitsRead line := by
  apply stdio_kept_iff
  · exact fun _ _ h ↦ h
  · intro text value h
    have hblank : (text.rtakeWhile isWhitespace).filter (!isWhitespace ·) = [] := by
      rw [List.filter_eq_nil_iff]
      intro c hc
      simp [List.mem_rtakeWhile_imp hc]
    have hsplit := congrArg (List.filter (!isWhitespace ·))
      (@List.rdropWhile_append_rtakeWhile _ isWhitespace text)
    rw [List.filter_append, hblank, List.append_nil] at hsplit
    rw [readBraces] at h ⊢
    rwa [trimEnd, ← List.rdropWhile, hsplit]
  · decide +kernel

/-- A line feed within a body parts it into two lines, of which neither is its value. -/
theorem body_with_line_feed_parted :
    ¬ (InputKept readBraces (fun body ↦ readBraces (Bytes.toText body).toList)
        [Bytes.ofText "\x7b\n\x7d"] ∧
      OutputKept []) := by
  rintro ⟨h, -⟩
  unfold InputKept at h
  revert h
  decide +kernel

end NullRouter.Mcp
