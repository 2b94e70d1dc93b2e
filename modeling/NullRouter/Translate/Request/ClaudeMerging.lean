import Mathlib.Data.List.Induction
import NullRouter.Translate.Request.OpenaiToClaude

/-!
# How messages are merged for Claude

What `merge_messages` keeps of the blocks of an OpenAI conversation and where it ends a message,
`crates/translate/src/request/openai_to_claude.rs:97–169`.
-/

namespace NullRouter.Translate.Request.OpenaiToClaude

open NullRouter.Base

/-- The role that a message is merged under. -/
def mergedRole (message : Json) : String :=
  if textOrEmpty message "role" = "user" ∨ textOrEmpty message "role" = "tool" then "user"
  else "assistant"

/-- The messages of a conversation that are merged: all but the system messages. -/
def mergedSource (source : List Json) : List Json :=
  source.filter fun message ↦ message.strField "role" ≠ some "system"

/-- A merged message. -/
def builtMessage (role : String) (blocks : List Json) : Json :=
  Json.object [("role", .str role), ("content", .arr blocks)]

/-- The blocks of a merged message. -/
def blocksOf (message : Json) : List Json := (arrayField message "content").getD []

/-- The blocks of a message in the order in which they are merged: results of tools come first. -/
def orderedBlocks (serde : SerdeJson) (message : Json) : List Json :=
  (contentBlocks serde message).filter (hasType "tool_result") ++
    (contentBlocks serde message).filter (!hasType "tool_result" ·)

/-- A message of results of tools only. -/
def OnlyResults (message : Json) : Prop :=
  ∀ block ∈ blocksOf message, hasType "tool_result" block = true

/-- A message that calls a tool. -/
def HoldsCall (message : Json) : Prop := ∃ block ∈ blocksOf message, hasType "tool_use" block = true

/-- The merged message behind `before` was ended by a message that has no blocks of its own. -/
def EndedByEmpty (serde : SerdeJson) (source before : List Json) (message : Json) : Prop :=
  ∃ start empty rest, source = start ++ empty :: rest ∧
    empty.strField "role" ≠ some "system" ∧ contentBlocks serde empty = [] ∧
    mergeMessages serde start = before ++ [message]

/-- Why no message of the same role is merged into a merged message. -/
def Ended (serde : SerdeJson) (source before : List Json) (message : Json) : Prop :=
  OnlyResults message ∨ HoldsCall message ∨ EndedByEmpty serde source before message

@[simp] theorem blocksOf_builtMessage (role : String) (blocks : List Json) :
    blocksOf (builtMessage role blocks) = blocks := by
  simp [blocksOf, builtMessage, arrayField, Json.get_object, Json.asArray]

@[simp] theorem strField_role_builtMessage (role : String) (blocks : List Json) :
    (builtMessage role blocks).strField "role" = some role := by
  simp [builtMessage, Json.strField, Json.get_object, List.lookup_cons, Json.asStr]

namespace Merge

variable {serde : SerdeJson}

/-- Nothing is pending after a flush. -/
@[simp] theorem currentParts_flush (m : Merge) : m.flush.currentParts = [] := by
  unfold flush
  split
  · split
    · next h => exact h
    · rfl
  · rfl

/-- A flush with nothing pending. -/
theorem flush_of_nil {m : Merge} (h : m.currentParts = []) : m.flush = m := by
  obtain ⟨messages, currentRole, currentParts⟩ := m
  subst h
  cases currentRole <;> rfl

/-- A flush of pending blocks. -/
theorem flush_of_some {m : Merge} {role : String} (hrole : m.currentRole = some role)
    (h : m.currentParts ≠ []) :
    m.flush = ⟨m.messages ++ [builtMessage role m.currentParts], some role, []⟩ := by
  obtain ⟨messages, currentRole, currentParts⟩ := m
  dsimp only at hrole h
  subst hrole
  simp [flush, h, builtMessage]

/-- A message with results: they become a message of their own. -/
theorem take_of_result {m : Merge} {message : Json}
    (h : (contentBlocks serde message).any (hasType "tool_result") = true) :
    m.take serde message =
      { messages := m.flush.messages ++
          [builtMessage "user" ((contentBlocks serde message).filter (hasType "tool_result"))]
        currentRole := if (contentBlocks serde message).filter (!hasType "tool_result" ·) = []
          then m.flush.currentRole else some (mergedRole message)
        currentParts := (contentBlocks serde message).filter (!hasType "tool_result" ·) } := by
  rw [take]
  simp only [h, ↓reduceIte]
  split
  · next hothers => simp [hothers, builtMessage]
  · next hothers => simp [builtMessage, mergedRole]

/-- What is held after the blocks of a message without results are added. -/
def extend (serde : SerdeJson) (m : Merge) (message : Json) : Merge :=
  if m.currentRole = some (mergedRole message) then
    { m with currentParts := m.currentParts ++ contentBlocks serde message }
  else ⟨m.flush.messages, some (mergedRole message), contentBlocks serde message⟩

/-- A message without results: its blocks are added, and a call ends the merged message. -/
theorem take_of_no_result {m : Merge} {message : Json}
    (h : (contentBlocks serde message).any (hasType "tool_result") = false) :
    m.take serde message =
      if (contentBlocks serde message).any (hasType "tool_use") then (m.extend serde message).flush
      else m.extend serde message := by
  have hextend : m.extend serde message =
      { (if m.currentRole = some (mergedRole message) then m
          else { m.flush with currentRole := some (mergedRole message) }) with
        currentParts := (if m.currentRole = some (mergedRole message) then m
          else { m.flush with currentRole := some (mergedRole message) }).currentParts ++
            contentBlocks serde message } := by
    rw [extend]
    split <;> simp
  rw [take, hextend]
  simp only [h, Bool.false_eq_true, ↓reduceIte]
  rfl

end Merge

/-- What is held after a conversation. -/
def mergeState (serde : SerdeJson) (source : List Json) : Merge :=
  (mergedSource source).foldl (Merge.take serde) {}

/-- The merged messages of a conversation are those held and the one pending. -/
theorem mergeMessages_eq (serde : SerdeJson) (source : List Json) :
    mergeMessages serde source = (mergeState serde source).flush.messages := rfl

section Blocks

variable {serde : SerdeJson}

/-- A state that has pending blocks has a role for them. -/
private def HasRole (m : Merge) : Prop := m.currentParts ≠ [] → m.currentRole.isSome = true

private theorem hasRole_flush (m : Merge) : HasRole m.flush :=
  fun h ↦ absurd m.currentParts_flush h

private theorem hasRole_extend (m : Merge) (message : Json) : HasRole (m.extend serde message) := by
  intro _
  rw [Merge.extend]
  split
  · next h => simp [h]
  · rfl

private theorem hasRole_take (m : Merge) (message : Json) :
    HasRole (m.take serde message) := by
  cases h : (contentBlocks serde message).any (hasType "tool_result") with
  | true =>
    rw [Merge.take_of_result h]
    intro hparts
    rw [if_neg hparts]
    rfl
  | false =>
    rw [Merge.take_of_no_result h]
    split
    · exact hasRole_flush _
    · exact hasRole_extend m message

/-- The blocks that a state holds, in merged messages and pending. -/
private def held (m : Merge) : List Json := m.messages.flatMap blocksOf ++ m.currentParts

private theorem held_flush {m : Merge} (h : HasRole m) : held m.flush = held m := by
  by_cases hparts : m.currentParts = []
  · rw [Merge.flush_of_nil hparts]
  · obtain ⟨role, hrole⟩ := Option.isSome_iff_exists.mp (h hparts)
    rw [Merge.flush_of_some hrole hparts]
    simp [held]

private theorem orderedBlocks_of_no_result {message : Json}
    (h : (contentBlocks serde message).any (hasType "tool_result") = false) :
    orderedBlocks serde message = contentBlocks serde message := by
  rw [List.any_eq_false] at h
  rw [orderedBlocks, List.filter_eq_nil_iff.mpr h, List.nil_append, List.filter_eq_self]
  intro block hblock
  simpa using h block hblock

private theorem held_take {m : Merge} (hm : HasRole m) (message : Json) :
    held (m.take serde message) = held m ++ orderedBlocks serde message := by
  cases h : (contentBlocks serde message).any (hasType "tool_result") with
  | true =>
    have hflush := held_flush hm
    rw [held, m.currentParts_flush, List.append_nil] at hflush
    rw [Merge.take_of_result h, held, List.flatMap_append, hflush, orderedBlocks]
    simp
  | false =>
    have hextend : held (m.extend serde message) = held m ++ contentBlocks serde message := by
      rw [Merge.extend]
      split
      · simp [held]
      · have hflush := held_flush hm
        rw [held, m.currentParts_flush, List.append_nil] at hflush
        rw [held, hflush]
    rw [Merge.take_of_no_result h, orderedBlocks_of_no_result h]
    split
    · rw [held_flush (hasRole_extend m message), hextend]
    · exact hextend

/-- The merged messages hold the blocks of the conversation, in the order of its messages. -/
theorem flatMap_blocksOf_mergeMessages (serde : SerdeJson) (source : List Json) :
    (mergeMessages serde source).flatMap blocksOf =
      (mergedSource source).flatMap (orderedBlocks serde) := by
  have hfold : ∀ (messages : List Json) (m : Merge), HasRole m →
      HasRole (messages.foldl (Merge.take serde) m) ∧
        held (messages.foldl (Merge.take serde) m) =
          held m ++ messages.flatMap (orderedBlocks serde) := by
    intro messages
    induction messages with
    | nil => intro m hm; exact ⟨hm, by simp⟩
    | cons message messages ih =>
      intro m hm
      obtain ⟨hrole, hheld⟩ := ih _ (hasRole_take m message)
      exact ⟨hrole, by rw [List.foldl_cons, hheld, held_take hm, List.flatMap_cons,
        List.append_assoc]⟩
  obtain ⟨hrole, hheld⟩ := hfold (mergedSource source) {} (fun h ↦ absurd rfl h)
  have hflush := held_flush hrole
  rw [held, Merge.currentParts_flush, List.append_nil, hheld] at hflush
  exact hflush

end Blocks

section Ends

variable {serde : SerdeJson} {source : List Json}

private theorem Ended.append {before : List Json} {message : Json}
    (h : Ended serde source before message) (next : Json) :
    Ended serde (source ++ [next]) before message := by
  rcases h with h | h | ⟨start, empty, rest, rfl, hempty⟩
  · exact .inl h
  · exact .inr (.inl h)
  · exact .inr (.inr ⟨start, empty, rest ++ [next], by simp, hempty⟩)

/-- Where merged messages end: of two of the same role the first was ended or the second holds
results only. -/
private def Apart (serde : SerdeJson) (source messages : List Json) : Prop :=
  ∀ before x y after, messages = before ++ x :: y :: after →
    x.strField "role" = y.strField "role" → Ended serde source before x ∨ OnlyResults y

/-- What holds of the state after a conversation: its messages are apart, and the last of them
was ended unless blocks of another role are pending. -/
private structure Separates (serde : SerdeJson) (source : List Json) (m : Merge) : Prop where
  apart : Apart serde source m.messages
  last : ∀ before x, m.messages = before ++ [x] →
    (m.currentParts = [] ∨ x.strField "role" = m.currentRole) → Ended serde source before x

private theorem Apart.concat {messages : List Json} {y : Json} (h : Apart serde source messages)
    (hlast : ∀ before x, messages = before ++ [x] → x.strField "role" = y.strField "role" →
      Ended serde source before x ∨ OnlyResults y) : Apart serde source (messages ++ [y]) := by
  intro before x z after hsplit hrole
  rcases after.eq_nil_or_concat with rfl | ⟨after, last, rfl⟩
  · have hinit : messages ++ [y] = (before ++ [x]) ++ [z] := by simp [hsplit]
    obtain ⟨hbefore, hz⟩ := List.append_inj' hinit rfl
    cases hz
    exact hlast before x hbefore hrole
  · have hinit : messages ++ [y] = (before ++ x :: z :: after) ++ [last] := by simp [hsplit]
    obtain ⟨hbefore, -⟩ := List.append_inj' hinit rfl
    exact h before x z after hbefore hrole

private theorem Separates.append {m : Merge} (h : Separates serde source m) (next : Json) :
    Separates serde (source ++ [next]) m where
  apart before x y after hsplit hrole :=
    (h.apart before x y after hsplit hrole).imp_left fun hend ↦ hend.append next
  last before x hsplit hpending := (h.last before x hsplit hpending).append next

private theorem Separates.apart_flush {m : Merge} (h : Separates serde source m)
    (hrole : HasRole m) : Apart serde source m.flush.messages := by
  by_cases hparts : m.currentParts = []
  · rw [Merge.flush_of_nil hparts]
    exact h.apart
  · obtain ⟨role, hsome⟩ := Option.isSome_iff_exists.mp (hrole hparts)
    rw [Merge.flush_of_some hsome hparts]
    apply h.apart.concat
    intro before x hsplit hx
    rw [strField_role_builtMessage, ← hsome] at hx
    exact .inl (h.last before x hsplit (.inr hx))

private theorem last_eq_of_concat {messages before : List Json} {x y : Json}
    (h : messages ++ [y] = before ++ [x]) : before = messages ∧ x = y := by
  obtain ⟨hbefore, hx⟩ := List.append_inj' h rfl
  exact ⟨hbefore.symm, (List.cons.inj hx).1.symm⟩

/-- Blocks of the pending role go on; those of another role end what is pending, for good if
there are none. -/
private theorem separates_extend {next : Json} (hrole : HasRole (mergeState serde source))
    (h : Separates serde source (mergeState serde source))
    (hnext : next.strField "role" ≠ some "system") :
    Separates serde (source ++ [next]) ((mergeState serde source).extend serde next) := by
  have hmessages := mergeMessages_eq serde source
  generalize mergeState serde source = m at hrole h hmessages
  rw [Merge.extend]
  split
  · next hsame =>
    refine ⟨(h.append next).apart, fun before x hsplit hpending ↦ ?_⟩
    refine (h.last before x hsplit ?_).append next
    exact hpending.imp_left fun hnil ↦ (List.append_eq_nil_iff.mp hnil).1
  · next hother =>
    constructor
    · exact fun before x y after hsplit hxy ↦
        (h.apart_flush hrole before x y after hsplit hxy).imp_left fun hend ↦ hend.append next
    · intro before x hsplit hpending
      by_cases hparts : m.currentParts = []
      · rw [Merge.flush_of_nil hparts] at hsplit
        exact (h.last before x hsplit (.inl hparts)).append next
      · obtain ⟨role, hsome⟩ := Option.isSome_iff_exists.mp (hrole hparts)
        rw [Merge.flush_of_some hsome hparts] at hsplit hmessages
        obtain ⟨rfl, rfl⟩ := last_eq_of_concat hsplit
        rcases hpending with hnil | hsame
        · exact .inr (.inr ⟨source, next, [], rfl, hnext, hnil, hmessages⟩)
        · rw [strField_role_builtMessage, ← hsome] at hsame
          exact absurd hsame hother

private theorem separates_take {next : Json} (hrole : HasRole (mergeState serde source))
    (h : Separates serde source (mergeState serde source))
    (hnext : next.strField "role" ≠ some "system") :
    Separates serde (source ++ [next]) ((mergeState serde source).take serde next) := by
  cases hresult : (contentBlocks serde next).any (hasType "tool_result") with
  | true =>
    have honly : OnlyResults (builtMessage "user"
        ((contentBlocks serde next).filter (hasType "tool_result"))) := by
      intro block hblock
      rw [blocksOf_builtMessage] at hblock
      exact (List.mem_filter.mp hblock).2
    rw [Merge.take_of_result hresult]
    constructor
    · apply Apart.concat
      · exact fun before x y after hsplit hxy ↦
          (h.apart_flush hrole before x y after hsplit hxy).imp_left fun hend ↦ hend.append next
      · exact fun _ _ _ _ ↦ .inr honly
    · intro before x hsplit _
      obtain ⟨-, rfl⟩ := last_eq_of_concat hsplit
      exact .inl honly
  | false =>
    have hextend := separates_extend hrole h hnext
    have hrole' := @hasRole_extend serde (mergeState serde source) next
    rw [Merge.take_of_no_result hresult]
    split
    · next hcall =>
      refine ⟨hextend.apart_flush hrole', fun before x hsplit _ ↦ ?_⟩
      obtain ⟨block, hblock, htype⟩ := List.any_eq_true.mp hcall
      have hmem : block ∈ ((mergeState serde source).extend serde next).currentParts := by
        rw [Merge.extend]
        split
        · exact List.mem_append_right _ hblock
        · exact hblock
      have hparts := List.ne_nil_of_mem hmem
      obtain ⟨role, hsome⟩ := Option.isSome_iff_exists.mp (hrole' hparts)
      rw [Merge.flush_of_some hsome hparts] at hsplit
      obtain ⟨-, rfl⟩ := last_eq_of_concat hsplit
      exact .inr (.inl ⟨block, by rwa [blocksOf_builtMessage], htype⟩)
    · exact hextend

/-- Of two neighbouring merged messages of one role, the first was ended by its tool blocks or
by a message without blocks, or the second holds results of tools only. -/
theorem mergeMessages_apart (serde : SerdeJson) (source : List Json) :
    ∀ before x y after, mergeMessages serde source = before ++ x :: y :: after →
      x.strField "role" = y.strField "role" → Ended serde source before x ∨ OnlyResults y := by
  have hstate : ∀ source, HasRole (mergeState serde source) ∧
      Separates serde source (mergeState serde source) := by
    intro source
    induction source using List.reverseRecOn with
    | nil =>
      refine ⟨fun h ↦ absurd rfl h, fun before x y after hsplit ↦ ?_, fun before x hsplit ↦ ?_⟩
      · cases before <;> cases hsplit
      · cases before <;> cases hsplit
    | append_singleton source next ih =>
      by_cases hnext : next.strField "role" = some "system"
      · have hsame : mergeState serde (source ++ [next]) = mergeState serde source := by
          rw [mergeState, mergeState, mergedSource, mergedSource, List.filter_append]
          simp [hnext]
        rw [hsame]
        exact ⟨ih.1, ih.2.append next⟩
      · have htake : mergeState serde (source ++ [next]) =
            (mergeState serde source).take serde next := by
          rw [mergeState, mergeState, mergedSource, mergedSource, List.filter_append]
          simp [hnext]
        rw [htake]
        exact ⟨hasRole_take _ next, separates_take ih.1 ih.2 hnext⟩
  obtain ⟨hrole, hseparates⟩ := hstate source
  exact hseparates.apart_flush hrole

end Ends

section Replies

variable {serde : SerdeJson}

private theorem prefix_flush (m : Merge) : m.messages <+: m.flush.messages := by
  unfold Merge.flush
  split
  · split
    · exact List.prefix_refl _
    · exact List.prefix_append _ _
  · exact List.prefix_refl _

private theorem prefix_take (m : Merge) (message : Json) :
    m.messages <+: (m.take serde message).messages := by
  cases h : (contentBlocks serde message).any (hasType "tool_result") with
  | true =>
    rw [Merge.take_of_result h]
    exact (prefix_flush m).trans (List.prefix_append _ _)
  | false =>
    have hextend : m.messages <+: (m.extend serde message).messages := by
      rw [Merge.extend]
      split
      · exact List.prefix_refl _
      · exact prefix_flush m
    rw [Merge.take_of_no_result h]
    split
    · exact hextend.trans (prefix_flush _)
    · exact hextend

private theorem prefix_foldl (messages : List Json) (m : Merge) :
    m.messages <+: (messages.foldl (Merge.take serde) m).messages := by
  induction messages generalizing m with
  | nil => exact List.prefix_refl _
  | cons message messages ih => exact (prefix_take m message).trans (ih _)

private theorem contentBlocks_tool {message : Json} (h : textOrEmpty message "role" = "tool") :
    ∃ block, contentBlocks serde message = [block] ∧ hasType "tool_result" block = true := by
  refine ⟨_, by rw [contentBlocks, if_pos h], ?_⟩
  simp [hasType, Json.strField, Json.get_object, List.lookup_cons, Json.asStr]

private theorem not_result_of_assistantPart {part block : Json}
    (h : assistantPart part = some block) : hasType "tool_result" block = false := by
  unfold assistantPart at h
  split at h
  · obtain ⟨text, -, rfl⟩ := Option.map_eq_some_iff.mp h
    simp [hasType, textBlock, Json.strField, Json.get_object, List.lookup_cons, Json.asStr]
  · split at h
    · cases h
      simp [hasType, Json.strField, Json.get_object, List.lookup_cons, Json.asStr]
    · split at h
      · next hthinking =>
        cases h
        rw [hasType, beq_iff_eq] at hthinking
        rw [Json.strField] at hthinking
        rw [hasType, Json.strField, Json.get_eraseField_of_ne (by decide), hthinking]
        decide
      · cases h

private theorem no_result_of_assistant {message : Json}
    (h : textOrEmpty message "role" = "assistant") :
    (contentBlocks serde message).any (hasType "tool_result") = false := by
  have htext : ∀ text : String, ∀ block ∈ (if text.isEmpty then [] else [textBlock text]),
      hasType "tool_result" block = false := by
    intro text block hblock
    split at hblock
    · cases hblock
    · rw [List.mem_singleton.mp hblock]
      simp [hasType, textBlock, Json.strField, Json.get_object, List.lookup_cons, Json.asStr]
  rw [List.any_eq_false]
  intro block hblock
  rw [Bool.not_eq_true]
  unfold contentBlocks at hblock
  rw [h, if_neg (by decide), if_neg (by decide), if_pos rfl] at hblock
  rcases List.mem_append.mp hblock with hblock | hblock
  · split at hblock
    · obtain ⟨part, -, hpart⟩ := List.mem_filterMap.mp hblock
      exact not_result_of_assistantPart hpart
    · exact htext _ block hblock
    · split at hblock
      · cases hblock
      · exact htext _ block hblock
    · cases hblock
  · obtain ⟨call, -, rfl⟩ := List.mem_map.mp hblock
    simp [hasType, callBlock, Json.strField, Json.get_object, List.lookup_cons, Json.asStr]

private theorem take_call {m : Merge} {message : Json}
    (h : textOrEmpty message "role" = "assistant")
    (hcall : (contentBlocks serde message).any (hasType "tool_use") = true) :
    ∃ messages parts, m.take serde message =
      ⟨messages ++ [builtMessage "assistant" (parts ++ contentBlocks serde message)],
        some "assistant", []⟩ := by
  have hrole : mergedRole message = "assistant" := by
    rw [mergedRole, h]
    decide
  have hne : contentBlocks serde message ≠ [] := by
    obtain ⟨block, hblock, -⟩ := List.any_eq_true.mp hcall
    exact List.ne_nil_of_mem hblock
  rw [Merge.take_of_no_result (no_result_of_assistant h), if_pos hcall, Merge.extend, hrole]
  split
  · next hsame =>
    refine ⟨m.messages, m.currentParts, Merge.flush_of_some hsame ?_⟩
    exact fun hnil ↦ hne (List.append_eq_nil_iff.mp hnil).2
  · exact ⟨m.flush.messages, [], Merge.flush_of_some rfl hne⟩

/-- A tool message directly behind an assistant message that calls a tool becomes a user message
directly behind the merged message of that call. -/
theorem reply_follows_call {source start rest : List Json} {call reply : Json}
    (hsource : mergedSource source = start ++ call :: reply :: rest)
    (hassistant : textOrEmpty call "role" = "assistant")
    (hcall : (contentBlocks serde call).any (hasType "tool_use") = true)
    (htool : textOrEmpty reply "role" = "tool") :
    ∃ before parts after, mergeMessages serde source =
      before ++ builtMessage "assistant" (parts ++ contentBlocks serde call) ::
        builtMessage "user" (contentBlocks serde reply) :: after := by
  obtain ⟨block, hblocks, hresult⟩ := @contentBlocks_tool serde _ htool
  obtain ⟨messages, parts, htake⟩ := @take_call serde
    (start.foldl (Merge.take serde) {}) call hassistant hcall
  have hreply : ((start.foldl (Merge.take serde) {}).take serde call).take serde reply =
      ⟨messages ++ [builtMessage "assistant" (parts ++ contentBlocks serde call)] ++
        [builtMessage "user" (contentBlocks serde reply)], some "assistant", []⟩ := by
    rw [htake, Merge.take_of_result (by simp [hblocks, hresult]), Merge.flush_of_nil rfl]
    simp [hblocks, hresult]
  have hgrow : messages ++ [builtMessage "assistant" (parts ++ contentBlocks serde call)] ++
      [builtMessage "user" (contentBlocks serde reply)] <+: mergeMessages serde source := by
    have hprefix := (@prefix_foldl serde rest
      (((start.foldl (Merge.take serde) {}).take serde call).take serde reply)).trans
        (prefix_flush _)
    rw [mergeMessages_eq, mergeState, hsource, List.foldl_append, List.foldl_cons,
      List.foldl_cons]
    rw [hreply] at hprefix ⊢
    exact hprefix
  obtain ⟨after, hafter⟩ := hgrow
  exact ⟨messages, parts, after, by rw [← hafter]; simp⟩

end Replies

/-- Merging keeps every block of a conversation once, in the order of the messages, and within a
message with the results of tools first; neighbours of one role are there only because the first
was ended or the second holds results only; and a tool message directly behind the assistant
message that calls its tool becomes a user message directly behind the merged call. -/
theorem mergeMessages_keeps (serde : SerdeJson) (source : List Json) :
    ((mergeMessages serde source).flatMap blocksOf =
        (mergedSource source).flatMap (orderedBlocks serde) ∧
      ∀ message, (orderedBlocks serde message).Perm (contentBlocks serde message)) ∧
    (∀ before x y after, mergeMessages serde source = before ++ x :: y :: after →
      x.strField "role" = y.strField "role" → Ended serde source before x ∨ OnlyResults y) ∧
    ∀ start call reply rest, mergedSource source = start ++ call :: reply :: rest →
      textOrEmpty call "role" = "assistant" →
      (contentBlocks serde call).any (hasType "tool_use") = true →
      textOrEmpty reply "role" = "tool" →
      ∃ before parts after, mergeMessages serde source =
        before ++ builtMessage "assistant" (parts ++ contentBlocks serde call) ::
          builtMessage "user" (contentBlocks serde reply) :: after :=
  ⟨⟨flatMap_blocksOf_mergeMessages serde source,
      fun message ↦ List.filter_append_perm _ (contentBlocks serde message)⟩,
    mergeMessages_apart serde source,
    fun _ _ _ _ hsource hassistant hcall htool ↦
      reply_follows_call hsource hassistant hcall htool⟩

/-- A message of a text. -/
def textMessage (role text : String) : Json :=
  Json.object [("role", .str role), ("content", .str text)]

/-- The result of a tool for a call. -/
def toolMessage (id text : String) : Json :=
  Json.object [("role", .str "tool"), ("tool_call_id", .str id), ("content", .str text)]

/-- A user message with a text and, behind it, a result of a tool. -/
def textThenResult : Json :=
  Json.object [("role", .str "user"), ("content", .arr [
    Json.object [("type", .str "text"), ("text", .str "see")],
    Json.object [("type", .str "tool_result"), ("tool_use_id", .str "a")]])]

/-- Results of two tools stay apart, a message without blocks ends the one before it, and a
result is moved before the text of its message. -/
theorem merging_keeps_apart :
    ∃ serde : SerdeJson,
      (mergeMessages serde [toolMessage "a" "1", toolMessage "b" "2"]).map (·.strField "role") =
        [some "user", some "user"] ∧
      (mergeMessages serde [textMessage "user" "a", textMessage "assistant" "",
        textMessage "user" "b"]).map (·.strField "role") = [some "user", some "user"] ∧
      (mergeMessages serde [textThenResult]).flatMap blocksOf ≠
        contentBlocks serde textThenResult := by
  refine ⟨⟨fun _ ↦ none, fun _ ↦ "", fun _ ↦ ""⟩, ?_, ?_, ?_⟩ <;> decide

end NullRouter.Translate.Request.OpenaiToClaude
