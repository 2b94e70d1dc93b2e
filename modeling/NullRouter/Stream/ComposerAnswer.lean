import Mathlib.Data.List.Infix
import NullRouter.Stream.BinaryFrames

/-!
# The answer in a composer's thinking

What a client is shown of the thinking of a composer model, which has the answer after a marker,
`crates/execute/src/bespoke/cursor/response.rs:232–256` and `:320–326`. The answer of what has come
so far is read again at every fragment, and what is longer than what was shown is shown; where a
second marker takes an answer back, it has been shown already.
-/

namespace NullRouter.Stream

open NullRouter.Base NullRouter.Translate NullRouter.Bespoke.Cursor

/-! ## Bytes of texts -/

private theorem byteLength_append (a b : List Char) :
    Bespoke.Cursor.byteLength (a ++ b) =
      Bespoke.Cursor.byteLength a + Bespoke.Cursor.byteLength b := by
  rw [Bespoke.Cursor.byteLength, List.map_append, List.sum_append]
  rfl

private theorem eq_nil_of_byteLength {a : List Char} (h : Bespoke.Cursor.byteLength a = 0) :
    a = [] := by
  cases a with
  | nil => rfl
  | cons c a =>
    have hpos := c.utf8Size_pos
    rw [Bespoke.Cursor.byteLength, List.map_cons, List.sum_cons] at h
    omega

private theorem dropBytes_append (a b : List Char) :
    dropBytes (Bespoke.Cursor.byteLength a) (a ++ b) = some b := by
  induction a with
  | nil => exact dropBytes.eq_1 b
  | cons c a ih =>
    have hlength : Bespoke.Cursor.byteLength (c :: a) =
        c.utf8Size + Bespoke.Cursor.byteLength a := List.sum_cons
    obtain ⟨n, hn⟩ := Nat.exists_eq_succ_of_ne_zero
      (n := c.utf8Size + Bespoke.Cursor.byteLength a) (by have := c.utf8Size_pos; omega)
    rw [hlength, hn, List.cons_append, dropBytes, if_pos (by omega), ← ih]
    congr 1
    omega

variable {a b text : List Char}

private theorem prefix_of_byteLength (ha : a <+: text) (hb : b <+: text)
    (h : Bespoke.Cursor.byteLength a ≤ Bespoke.Cursor.byteLength b) : a <+: b := by
  rcases List.prefix_or_prefix_of_prefix ha hb with hab | ⟨more, rfl⟩
  · exact hab
  · rw [byteLength_append] at h
    have hnil : more = [] := eq_nil_of_byteLength (by omega)
    rw [hnil, List.append_nil]

/-! ## Fragments -/

/-- Frames of thinking. -/
def thinkingFrames (fragments : List String) : List Decoded :=
  fragments.map fun fragment ↦ { thinking := some fragment }

/-- What a client is shown as content of thinking that comes in fragments. -/
def shownOfThinking (s : Stream) (fragments : List String) : String :=
  let pushed := pushAll (thinkingFrames fragments) s
  shownContent (pushed.1 ++ pushed.2.finish.1)

/-- A text whose answer is never taken back: that of every front is a front of that of the whole. -/
def Steady (text : List Char) : Prop :=
  ∀ front, front <+: text → visibleAfterThink front <+: visibleAfterThink text

/-- What a fragment adds to what is shown, of the answer that has come and the bytes of it that were
shown. -/
def addedBy (shown : Nat) (visible : List Char) : List Char :=
  if shown < Bespoke.Cursor.byteLength visible then (dropBytes shown visible).getD [] else []

section

variable (s : Stream) (fragment : String)

private theorem shownContent_contentDelta (text : String) :
    shownContent [(s.contentDelta text).1] = text := by
  rw [Stream.contentDelta, Stream.textDelta, Stream.chunk, shownContent_buildChunk]
  split
  · simp [Json.strField, Json.get_object, Json.asStr]
  · simp [Json.strField, Json.get_object, Json.asStr]

private theorem push_thinking (h : s.composer = true) :
    (shownContent (s.push { thinking := some fragment }).1).toList =
        addedBy s.emittedVisible (visibleAfterThink (s.thinking ++ fragment.toList)) ∧
      (s.push { thinking := some fragment }).2.thinking = s.thinking ++ fragment.toList ∧
      (s.push { thinking := some fragment }).2.composer = true ∧
      (s.push { thinking := some fragment }).2.emittedVisible = max s.emittedVisible
        (Bespoke.Cursor.byteLength (visibleAfterThink (s.thinking ++ fragment.toList))) := by
  have hpush : s.push { thinking := some fragment } = s.pushThinking fragment := by
    simp [Stream.push]
  rw [hpush, Stream.pushThinking, if_pos h, addedBy]
  dsimp only
  split
  · next hmore =>
    rw [Nat.max_eq_right (Nat.le_of_lt hmore)]
    split
    · next hnil =>
      rw [hnil]
      exact ⟨rfl, rfl, h, rfl⟩
    · refine ⟨?_, rfl, h, rfl⟩
      rw [shownContent_contentDelta, String.toList_ofList]
  · next hless =>
    rw [Nat.max_eq_left (Nat.le_of_not_lt hless)]
    exact ⟨rfl, rfl, h, rfl⟩

private theorem shownContent_finish : shownContent s.finish.1 = "" := by
  have hopening : shownContent [s.opening] = "" := by
    rw [Stream.opening, Stream.chunk, shownContent_buildChunk]
    simp [Json.strField, Json.get_object, Json.asStr]
  have hlast (reason : String) : shownContent [s.chunk (.obj []) (some reason)] = "" := by
    rw [Stream.chunk, shownContent_buildChunk]
    rfl
  rw [Bespoke.Cursor.Stream.finish]
  dsimp only
  rw [shownContent_append, hlast]
  split
  · rfl
  · rw [hopening]
    rfl

end

private theorem shownOfThinking_cons (s : Stream) (fragment : String) (fragments : List String) :
    shownOfThinking s (fragment :: fragments) =
      shownContent (s.push { thinking := some fragment }).1 ++
        shownOfThinking (s.push { thinking := some fragment }).2 fragments := by
  rw [shownOfThinking, thinkingFrames, List.map_cons, pushAll]
  dsimp only
  rw [List.append_assoc, shownContent_append]
  rfl

private theorem shownOfThinking_nil (s : Stream) : shownOfThinking s [] = "" :=
  shownContent_finish s

/-! ## Steady texts -/

/-- Where no front of a text shows what the text does not, a front of its answer has been shown, and
no more of it has come. -/
structure Tells (text : List Char) (s : Stream) (shown : List Char) : Prop where
  composer : s.composer = true
  front : shown <+: visibleAfterThink text
  length : Bespoke.Cursor.byteLength shown = s.emittedVisible
  all : Bespoke.Cursor.byteLength (visibleAfterThink s.thinking) ≤ s.emittedVisible

private theorem Tells.step {s : Stream} {shown : List Char} (h : Tells text s shown)
    (hsteady : Steady text) {fragment : String} (hfront : s.thinking ++ fragment.toList <+: text) :
    Tells text (s.push { thinking := some fragment }).2
      (shown ++ (shownContent (s.push { thinking := some fragment }).1).toList) := by
  obtain ⟨hshown, hthinking, hcomposer, hemitted⟩ := push_thinking s fragment h.composer
  have hvisible := hsteady _ hfront
  rw [hshown, addedBy]
  split
  · next hmore =>
    obtain ⟨more, hanswer⟩ := prefix_of_byteLength h.front hvisible
      (by rw [h.length]; exact Nat.le_of_lt hmore)
    have hadded : (dropBytes s.emittedVisible
        (visibleAfterThink (s.thinking ++ fragment.toList))).getD [] = more := by
      rw [← h.length, ← hanswer, dropBytes_append]
      rfl
    rw [hadded, hanswer]
    refine ⟨hcomposer, hvisible, ?_, ?_⟩
    · rw [hemitted, Nat.max_eq_right (Nat.le_of_lt hmore)]
    · rw [hemitted, hthinking]
      exact Nat.le_max_right _ _
  · next hless =>
    rw [List.append_nil]
    refine ⟨hcomposer, h.front, ?_, ?_⟩
    · rw [hemitted, Nat.max_eq_left (Nat.le_of_not_lt hless)]
      exact h.length
    · rw [hemitted, hthinking]
      exact Nat.le_max_right _ _

private theorem Tells.run {s : Stream} {shown : List Char} (h : Tells text s shown)
    (hsteady : Steady text) {fragments : List String}
    (hfragments : s.thinking ++ (String.join fragments).toList = text) :
    shown ++ (shownOfThinking s fragments).toList = visibleAfterThink text := by
  induction fragments generalizing s shown with
  | nil =>
    have hthinking : s.thinking = text := by
      rw [← hfragments]
      exact (List.append_nil _).symm
    have hall := h.all
    rw [hthinking, ← h.length] at hall
    rw [shownOfThinking_nil]
    refine (List.append_nil _).trans ?_
    have hback := prefix_of_byteLength List.prefix_rfl h.front hall
    exact h.front.eq_of_length_le hback.length_le
  | cons fragment fragments ih =>
    rw [String.join_cons, String.toList_append, ← List.append_assoc] at hfragments
    have hstep := h.step hsteady ⟨_, hfragments⟩
    have hthinking := (push_thinking s fragment h.composer).2.1
    rw [shownOfThinking_cons, String.toList_append, ← List.append_assoc]
    refine ih hstep ?_
    rw [hthinking]
    exact hfragments

private theorem tells_new (id : String) (created : Nat) {model : String}
    (h : isComposer model = true) (text : List Char) :
    Tells text (Stream.new id created model) [] :=
  ⟨h, List.nil_prefix, rfl, Nat.le_refl 0⟩

private theorem shownOfThinking_two (id : String) (created : Nat) {model : String}
    (h : isComposer model = true) (front back : String) :
    (shownOfThinking (Stream.new id created model) [front, back]).toList =
      visibleAfterThink front.toList ++
        addedBy (Bespoke.Cursor.byteLength (visibleAfterThink front.toList))
          (visibleAfterThink (front.toList ++ back.toList)) := by
  obtain ⟨hshown, hthinking, hcomposer, hemitted⟩ :=
    push_thinking (Stream.new id created model) front h
  obtain ⟨hshown', -, -, -⟩ :=
    push_thinking ((Stream.new id created model).push { thinking := some front }).2 back hcomposer
  have hall : addedBy 0 (visibleAfterThink front.toList) = visibleAfterThink front.toList := by
    rw [addedBy]
    split
    · rw [dropBytes, Option.getD_some]
    · next hzero => rw [eq_nil_of_byteLength (Nat.eq_zero_of_not_pos hzero)]
  rw [shownOfThinking_cons, shownOfThinking_cons, shownOfThinking_nil, String.append_empty,
    String.toList_append, hshown, hshown', hthinking, hemitted]
  have hnew : (Stream.new id created model).emittedVisible = 0 := rfl
  have hnone : (Stream.new id created model).thinking = [] := rfl
  rw [hnew, hnone, List.nil_append, hall, Nat.zero_max]

/-- The answer in a composer's thinking is shown as it is, however the thinking is cut, exactly
where no front of the thinking has an answer that the whole takes back. -/
theorem composer_answer_iff (id : String) (created : Nat) {model : String}
    (h : isComposer model = true) (thinking : String) :
    (∀ fragments, String.join fragments = thinking →
      (shownOfThinking (Stream.new id created model) fragments).toList =
        visibleAfterThink thinking.toList) ↔ Steady thinking.toList := by
  constructor
  · rintro hshown front ⟨back, hwhole⟩
    have hjoin : String.join [String.ofList front, String.ofList back] = thinking := by
      rw [← String.toList_inj, String.toList_join, ← hwhole]
      simp
    have htwo := hshown _ hjoin
    rw [shownOfThinking_two id created h, String.toList_ofList] at htwo
    exact ⟨_, htwo⟩
  · intro hsteady fragments hfragments
    apply (tells_new id created h thinking.toList).run hsteady
    rw [hfragments]
    rfl

/-- An answer of three letters is shown where a fragment ends inside the marker before it. -/
theorem composer_answer_yes :
    (shownOfThinking (Stream.new "chatcmpl-1" 0 "cursor/composer-1")
      ["so</th", "ink> yes"]).toList = "yes".toList := by
  have hfronts : ∀ front ∈ "so</think> yes".toList.inits,
      visibleAfterThink front <+: visibleAfterThink "so</think> yes".toList := by decide +kernel
  exact (composer_answer_iff "chatcmpl-1" 0 (by decide +kernel) "so</think> yes").mpr
    (fun front hfront ↦ hfronts front ((List.mem_inits _ _).mpr hfront)) _ rfl

/-- An answer that was shown is not taken back when another marker follows. -/
theorem shown_answer_stays :
    shownOfThinking (Stream.new "chatcmpl-1" 0 "composer-1") ["</think>first", "</think>last"] =
        "first" ∧
      visibleAfterThink (String.join ["</think>first", "</think>last"]).toList = "last".toList := by
  constructor
  · decide +kernel
  · decide +kernel

/-! ## One marker -/

end NullRouter.Stream
