import NullRouter.Base.FrameMachine
import NullRouter.Stream.Pipe
import NullRouter.Stream.Relay

/-!
# What a binary pipe relays

The frames that `pipe_binary_stream`, `crates/execute/src/stream.rs:237`, sends to a client are those
of one list of OpenAI chunks: the chunks of the steps that are relayed, and the decoder's last ones.
For a decoder that is a machine over frames, this list is told by the bytes that were read, but for
chunks that came in one read with the frame that was fatal.
-/

namespace NullRouter.Stream

open NullRouter.Base NullRouter.Translate

section Relayed

variable {δ : Type} (decoder : BinaryDecoder δ)

/-- The chunks of the steps that are relayed, and the decoder after them. -/
def relayedLoop : List (List Nat) → List Nat → δ → List Json × δ
  | [], _, d => ([], d)
  | bytes :: reads, pending, d =>
    let consumed := decoder.consume (pending ++ bytes) d
    if consumed.1.fatal.isSome then ([], consumed.2.2)
    else if consumed.1.stopAfter then (consumed.1.chunks, consumed.2.2)
    else
      let rest := relayedLoop reads consumed.2.1 consumed.2.2
      (consumed.1.chunks ++ rest.1, rest.2)

/-- The chunks that are relayed to a client that stays. -/
def relayed (reads : List (List Nat)) (d : δ) : List Json :=
  let looped := relayedLoop decoder reads [] d
  looped.1 ++ (decoder.finish looped.2).1

end Relayed

/-- What a client sees of two pipes is the same: the frames sent, whether it is gone, and, unless it
is, where the translation stands. -/
structure SameView {σ : Type} (s s' : PipeState σ) : Prop where
  sent : s.sent = s'.sent
  clientGone : s.clientGone = s'.clientGone
  translation : s.clientGone = false → s.translation = s'.translation

namespace SameView

variable {σ : Type} {s s' s'' : PipeState σ}

theorem refl (s : PipeState σ) : SameView s s := ⟨rfl, rfl, fun _ ↦ rfl⟩

theorem symm (h : SameView s s') : SameView s' s :=
  ⟨h.sent.symm, h.clientGone.symm, fun hgone ↦ (h.translation (h.clientGone.trans hgone)).symm⟩

theorem trans (h : SameView s s') (h' : SameView s' s'') : SameView s s'' :=
  ⟨h.sent.trans h'.sent, h.clientGone.trans h'.clientGone,
    fun hgone ↦ (h.translation hgone).trans (h'.translation (h.clientGone.symm.trans hgone))⟩

end SameView

section Deliver

variable {σ : Type} (text : JsonText) (source : Format) (sink : Sink)

private theorem deliver_withTranslation (collect : Bool) (chunks : List Json) (s : PipeState σ)
    (t : σ) : deliver text source sink collect chunks { s with translation := t } =
      { deliver text source sink collect chunks s with translation := t } := by
  induction chunks generalizing s with
  | nil => rfl
  | cons chunk chunks ih =>
    rw [deliver, deliver]
    cases collect with
    | false =>
      simp only [Bool.false_eq_true, if_false]
      split
      · exact ih { s with sent := s.sent ++ [frameFor text chunk source] }
      · rfl
    | true =>
      simp only [if_true]
      split
      · exact ih { s with
          summary := collectText chunk s.summary, sent := s.sent ++ [frameFor text chunk source] }
      · rfl

private theorem sameView_deliver {collect : Bool} {chunks : List Json} {s s' : PipeState σ}
    (h : SameView s s') : SameView (deliver text source sink collect chunks s)
      (deliver text source sink collect chunks s') := by
  induction chunks generalizing s s' with
  | nil => exact h
  | cons chunk chunks ih =>
    rw [deliver, deliver]
    cases collect with
    | false =>
      simp only [Bool.false_eq_true, if_false, h.sent]
      split
      · exact ih ⟨rfl, h.clientGone, h.translation⟩
      · refine ⟨rfl, rfl, ?_⟩
        intro hgone
        cases hgone
    | true =>
      simp only [if_true, h.sent]
      split
      · exact ih ⟨rfl, h.clientGone, h.translation⟩
      · refine ⟨rfl, rfl, ?_⟩
        intro hgone
        cases hgone

private theorem deliver_append (collect : Bool) (chunks more : List Json) {s : PipeState σ}
    (h : s.clientGone = false) :
    deliver text source sink collect (chunks ++ more) s =
      if (deliver text source sink collect chunks s).clientGone then
        deliver text source sink collect chunks s
      else deliver text source sink collect more (deliver text source sink collect chunks s) := by
  induction chunks generalizing s with
  | nil =>
    rw [List.nil_append, deliver, h]
    rfl
  | cons chunk chunks ih =>
    rw [List.cons_append, deliver, deliver]
    cases collect with
    | false =>
      simp only [Bool.false_eq_true, if_false]
      split
      · exact ih h
      · rfl
    | true =>
      simp only [if_true]
      split
      · exact ih h
      · rfl

end Deliver

section Relay

variable (text : JsonText) (source : Format) (sink : Sink)

private theorem toClient_append (chunks more : List Json) (s : StreamState) :
    toClient text source (chunks ++ more) s =
      ((toClient text source chunks s).1 ++
          (toClient text source more (toClient text source chunks s).2).1,
        (toClient text source more (toClient text source chunks s).2).2) := by
  cases source
  case claude | openAiResponses => exact through_append _ _ _
  all_goals rfl

private theorem toClient_nil (s : StreamState) : toClient text source [] s = ([], s) := by
  cases source <;> rfl

theorem relay_nil (s : PipeState StreamState) : relay text source sink [] s = s := by
  rw [relay, toClient_nil]
  rfl

/-- What a client sees of a relay depends on what it has seen. -/
theorem sameView_relay {chunks : List Json} {s s' : PipeState StreamState} (h : SameView s s')
    (hgone : s.clientGone = false) :
    SameView (relay text source sink chunks s) (relay text source sink chunks s') := by
  rw [relay, relay, h.translation hgone]
  exact sameView_deliver text source sink ⟨h.sent, h.clientGone, fun _ ↦ rfl⟩

/-- Chunks are relayed in turn while the client is there. -/
theorem sameView_relay_append (chunks more : List Json) {s : PipeState StreamState}
    (h : s.clientGone = false) :
    SameView (relay text source sink (chunks ++ more) s)
      (if (relay text source sink chunks s).clientGone then relay text source sink chunks s
      else relay text source sink more (relay text source sink chunks s)) := by
  have htranslation : (relay text source sink chunks s).translation =
      (toClient text source chunks s.translation).2 := congrArg PipeState.translation
    (deliver_withTranslation text source sink true
      (toClient text source chunks s.translation).1 s _)
  have hset (t : StreamState) :
      deliver text source sink true (toClient text source chunks s.translation).1
        { s with translation := t } =
      { relay text source sink chunks s with translation := t } :=
    deliver_withTranslation text source sink true _
      { s with translation := (toClient text source chunks s.translation).2 } t
  have happend := deliver_append text source sink true
    (toClient text source chunks s.translation).1
    (toClient text source more (toClient text source chunks s.translation).2).1
    (s := { s with translation :=
      (toClient text source more (toClient text source chunks s.translation).2).2 }) h
  have hmore : relay text source sink more (relay text source sink chunks s) =
      deliver text source sink true
        (toClient text source more (relay text source sink chunks s).translation).1
        { relay text source sink chunks s with translation :=
          (toClient text source more (relay text source sink chunks s).translation).2 } := rfl
  rw [hmore, htranslation, relay, toClient_append, happend, hset]
  by_cases hgone : (relay text source sink chunks s).clientGone = true
  · rw [if_pos hgone, if_pos hgone]
    exact ⟨rfl, rfl, fun hstays ↦ by
      rw [hgone] at hstays
      cases hstays⟩
  · rw [if_neg hgone, if_neg hgone]
    exact .refl _

/-- The frames that a client has been sent at the end of a reply: those that were relayed, those of
the finalizer, and the terminator. -/
def endReply (s : PipeState StreamState) : List String :=
  let s :=
    if s.clientGone then s
    else
      let final := finalizeResponse text source s.translation
      deliver text source sink false final.1 { s with translation := final.2 }
  if s.clientGone ∨ sink s.sent doneFrame = false then s.sent else s.sent ++ [doneFrame]

/-- The frames that a client is sent for some chunks. -/
def replyOf (chunks : List Json) (state : StreamState) : List String :=
  endReply text source sink (relay text source sink chunks ⟨state, {}, [], false⟩)

private theorem endReply_congr {s s' : PipeState StreamState} (h : SameView s s') :
    endReply text source sink s = endReply text source sink s' := by
  have hfinal : SameView
      (if s.clientGone then s
        else deliver text source sink false (finalizeResponse text source s.translation).1
          { s with translation := (finalizeResponse text source s.translation).2 })
      (if s'.clientGone then s'
        else deliver text source sink false (finalizeResponse text source s'.translation).1
          { s' with translation := (finalizeResponse text source s'.translation).2 }) := by
    rw [← h.clientGone]
    split
    · exact h
    · next hgone =>
      rw [h.translation (by simpa using hgone)]
      exact sameView_deliver text source sink ⟨h.sent, rfl, fun _ ↦ rfl⟩
  rw [endReply, endReply]
  simp only [hfinal.sent, hfinal.clientGone]

variable {δ : Type} (decoder : BinaryDecoder δ)

private theorem sameView_binaryLoop (reads : List (List Nat)) (pending : List Nat) (d : δ)
    {s : PipeState StreamState} (h : s.clientGone = false) :
    SameView (binaryLoop decoder text source sink (reads.map some) pending d s).2
        (relay text source sink (relayedLoop decoder reads pending d).1 s) ∧
      ((binaryLoop decoder text source sink (reads.map some) pending d s).2.clientGone = false →
        (binaryLoop decoder text source sink (reads.map some) pending d s).1 =
          (relayedLoop decoder reads pending d).2) := by
  induction reads generalizing pending d s with
  | nil =>
    rw [relayedLoop, relay_nil]
    exact ⟨.refl s, fun _ ↦ rfl⟩
  | cons bytes reads ih =>
    rw [List.map_cons, binaryLoop, relayedLoop]
    cases hfatal : (decoder.consume (pending ++ bytes) d).1.fatal with
    | some message =>
      simp only [Option.isSome_some, if_true, relay_nil]
      exact ⟨⟨rfl, rfl, fun _ ↦ rfl⟩, fun _ ↦ trivial⟩
    | none =>
      simp only [Option.isSome_none, Bool.false_eq_true, if_false]
      by_cases hstop : (decoder.consume (pending ++ bytes) d).1.stopAfter = true
      · simp only [hstop, true_or, if_true]
        exact ⟨.refl _, fun _ ↦ trivial⟩
      · simp only [hstop, Bool.false_eq_true, false_or, if_false]
        have happend := sameView_relay_append text source sink
          (decoder.consume (pending ++ bytes) d).1.chunks
          (relayedLoop decoder reads (decoder.consume (pending ++ bytes) d).2.1
            (decoder.consume (pending ++ bytes) d).2.2).1 h
        by_cases hgone : (relay text source sink
            (decoder.consume (pending ++ bytes) d).1.chunks s).clientGone = true
        · rw [if_pos hgone] at happend ⊢
          refine ⟨happend.symm, fun hstays ↦ ?_⟩
          rw [hgone] at hstays
          cases hstays
        · rw [if_neg hgone] at happend ⊢
          obtain ⟨hview, hstate⟩ := ih (decoder.consume (pending ++ bytes) d).2.1
            (decoder.consume (pending ++ bytes) d).2.2 (by simpa using hgone)
          exact ⟨hview.trans happend.symm, hstate⟩

/-- The frames a pipe sends are those of the chunks that are relayed. -/
theorem sent_pipeBinaryStream_eq_reply (model : String) (reads : List (List Nat))
    (state : StreamState) :
    (pipeBinaryStream decoder text source sink model (reads.map some) state).sent =
      replyOf text source sink (relayed decoder reads (decoder.start model state).1)
        (decoder.start model state).2 := by
  obtain ⟨hloop, hstate⟩ := sameView_binaryLoop text source sink decoder reads []
    (decoder.start model state).1 (s := ⟨(decoder.start model state).2, {}, [], false⟩) rfl
  have hpipe : (pipeBinaryStream decoder text source sink model (reads.map some) state).sent =
      endReply text source sink (
        let looped := binaryLoop decoder text source sink (reads.map some) []
          (decoder.start model state).1 ⟨(decoder.start model state).2, {}, [], false⟩
        if looped.2.clientGone then looped.2
        else relay text source sink (decoder.finish looped.1).1 looped.2) := by
    rw [pipeBinaryStream, endReply]
    exact apply_ite PipeState.sent _ _ _
  rw [hpipe, replyOf]
  refine endReply_congr text source sink ?_
  have happend := sameView_relay_append text source sink
    (relayedLoop decoder reads [] (decoder.start model state).1).1
    (decoder.finish (relayedLoop decoder reads [] (decoder.start model state).1).2).1
    (s := ⟨(decoder.start model state).2, {}, [], false⟩) rfl
  rw [← relayed] at happend
  refine .trans ?_ happend.symm
  simp only [← hloop.clientGone]
  split
  · exact hloop
  · next hgone =>
    have hstays := Bool.eq_false_iff.mpr hgone
    rw [hstate hstays]
    exact sameView_relay text source sink hloop hstays

end Relay
end NullRouter.Stream
