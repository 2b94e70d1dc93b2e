import NullRouter.Stream.GrokRelay
import NullRouter.Translate.Response.PerplexityWebToOpenai

/-!
# The answer in a stream of Perplexity's

What a client is shown of an answer that `crates/translate/src/response/perplexity_web_to_openai.rs`
reads as it grows: each part is cleaned by itself, so that what is shown is the clean answer where
no part ends inside of markup that is stripped.
-/

namespace NullRouter.Stream

open NullRouter.Base NullRouter.Translate NullRouter.Translate.Response.PerplexityWebToOpenai

/-! ## Cleaning in parts -/

/-- No markup that is stripped is cut between what was sent of an answer and what is new, each as
the strippings before leave it: no declaration and no tag of Grok's begins in the one and ends
beyond it, and what the new part closes of a bracket that is open in the old one is no tag
`response`, and no citation, neither as a whole nor from its own first bracket on. -/
structure Uncut (sent new : List Char) : Prop where
  declarations : ¬ xmlRule.Reaches sent new
  grokTags : ¬ grokRule.Reaches (stripXmlDeclarations sent) (stripXmlDeclarations new)
  responseTags : ¬ Rule.Breaks '<' '>' isResponseTag
    (stripGrokTags (stripXmlDeclarations sent)) (stripGrokTags (stripXmlDeclarations new))
  citations : ¬ Rule.Breaks '[' ']' isCitation
    (stripResponseTags (stripGrokTags (stripXmlDeclarations sent)))
    (stripResponseTags (stripGrokTags (stripXmlDeclarations new)))

private theorem xmlRule_local : xmlRule.Local := by
  have hcloses : '>' ∈ "?>".toList := by decide
  exact Rule.between_local hcloses (by decide)

private theorem grokEnd_append {s b : List Char} (hne : b ≠ []) (h : grokEnd (s ++ b) ≤ s.length) :
    grokEnd (s ++ b) = grokEnd s ∧ '>' ∈ s := by
  have hlonger : ¬ (s ++ b).length ≤ s.length := by
    have := List.length_pos_iff.mpr hne
    rw [List.length_append]
    omega
  unfold grokEnd at h ⊢
  cases hclose : findText "</grok:".toList (s ++ b) with
  | some close =>
    simp only [hclose] at h ⊢
    cases hend : endOf ['>'] ((s ++ b).drop close) with
    | none =>
      rw [hend] at h
      exact absurd h hlonger
    | some n =>
      rw [hend, Option.map_some, Option.getD_some] at h
      -- The closing tag has no `>` before its name ends.
      have hlength : "</grok:".toList.length < n := by
        obtain ⟨rest, hrest⟩ := prefix_of_findText hclose
        rw [← hrest] at hend
        exact length_lt_of_endOf (List.mem_singleton_self _) (by decide) hend
      have hfound := findText_of_append hclose (by omega)
      rw [List.drop_append_of_le_length (by omega)] at hend
      have hfront := endOf_of_append hend (by rw [List.length_drop]; omega)
      rw [hfound]
      simp only [hfront]
      exact ⟨rfl, List.mem_of_mem_drop (mem_of_endOf (List.mem_singleton_self _) hfront)⟩
  | none =>
    rw [findText_none_of_append hclose]
    simp only [hclose] at h ⊢
    cases halone : endOf "/>".toList (s ++ b) with
    | some n =>
      rw [halone, Option.some_or, Option.getD_some] at h
      have hfront := endOf_of_append halone h
      rw [hfront]
      exact ⟨rfl, mem_of_endOf (by decide) hfront⟩
    | none =>
      rw [endOf_none_of_append halone]
      rw [halone, Option.none_or] at h
      rw [Option.none_or, Option.none_or]
      cases hend : endOf ['>'] (s ++ b) with
      | none =>
        rw [hend] at h
        exact absurd h hlonger
      | some n =>
        rw [hend, Option.getD_some] at h
        have hfront := endOf_of_append hend h
        rw [hfront]
        exact ⟨rfl, mem_of_endOf (List.mem_singleton_self _) hfront⟩

private theorem grokRule_local : grokRule.Local := by
  intro prev s b hne hends
  by_cases hb : b = []
  · rw [hb, List.append_nil]
  · simp only [grokRule, List.isPrefixOf_iff_prefix] at hends ⊢
    by_cases hopens : "<grok:".toList <+: s ++ b
    · rw [if_pos hopens] at hends ⊢
      obtain ⟨hsame, hmem⟩ := grokEnd_append hb (hends _ _ rfl)
      rw [if_pos (prefix_of_prefix_append hopens hmem (by decide)), hsame]
    · have hfront : ¬ "<grok:".toList <+: s := fun hfront ↦
        hopens (hfront.trans (List.prefix_append s b))
      rw [if_neg hopens, if_neg hfront]

/-- Where nothing is cut, an answer is cleaned as its parts are. -/
theorem clean_append {sent new : List Char} (h : Uncut sent new) :
    clean (sent ++ new) false = clean sent false ++ clean new false := by
  have hxml : stripXmlDeclarations (sent ++ new) =
      stripXmlDeclarations sent ++ stripXmlDeclarations new :=
    (Rule.scan_append_of_not_reaches xmlRule_local h.declarations none).trans
      (congrArg _ (Rule.scan_congr_of_blind (fun _ _ _ ↦ rfl) _ _ _ _))
  have hgrok : stripGrokTags (stripXmlDeclarations (sent ++ new)) =
      stripGrokTags (stripXmlDeclarations sent) ++ stripGrokTags (stripXmlDeclarations new) := by
    rw [hxml]
    exact (Rule.scan_append_of_not_reaches grokRule_local h.grokTags none).trans
      (congrArg _ (Rule.scan_congr_of_blind (fun _ _ _ ↦ rfl) _ _ _ _))
  have htags := Rule.scan_bracket_append (by decide) h.responseTags
  have hcitations := Rule.scan_bracket_append (by decide) h.citations
  simp only [clean, Bool.false_eq_true, if_false, hgrok]
  rw [stripResponseTags, htags]
  exact hcitations

/-! ## Answers -/

/-- Perplexity's events on their way to OpenAI chunks. -/
def perplexityWeb (write : Json → String) : Pivot PerplexityState where
  translate := translate write
  finish := some fun s ↦ (((Response.PerplexityWebToOpenai.finish s).1, none),
    (Response.PerplexityWebToOpenai.finish s).2)
  shared := PerplexityState.toStreamState
  upstreamThread := PerplexityState.pplxBackendUuid
  upstreamAnswer s := if s.pplxAnswer.isEmpty then none
    else some (String.ofList (clean s.pplxAnswer.toList true))

/-- The answer that a block carries, if it is a block of the answer. -/
def answerOf (block : Json) : Option String :=
  let usage := (block.strField "intended_usage").getD ""
  if containsText usage.toList "markdown".toList then blockAnswer block else none

/-- The answers that an event carries: one a markdown block, or its text where it has no block. -/
def answersOf (event : Json) : List String :=
  if (eventBlocks event).isEmpty then ((event.strField "text").map trim).toList
  else (eventBlocks event).filterMap answerOf

/-- Answers of which each is the one before it with something new, on a condition. -/
def Grow (P : (sent new : List Char) → Prop) : (sent : String) → List String → Prop
  | _, [] => True
  | sent, answer :: answers =>
    (∃ new, answer = sent ++ new ∧ P sent.toList new.toList) ∧ Grow P answer answers

/-- The clean text of an answer. -/
def cleanText (answer : String) : String := String.ofList (clean answer.toList false)

/-- The last of the answers, after those that were sent. -/
def lastAnswer (sent : String) (answers : List String) : String := answers.getLast?.getD sent

theorem lastAnswer_append (sent : String) (answers more : List String) :
    lastAnswer sent (answers ++ more) = lastAnswer (lastAnswer sent answers) more := by
  rw [lastAnswer, lastAnswer, lastAnswer, List.getLast?_append]
  cases more.getLast? with
  | none => rfl
  | some last => rfl

theorem grow_append {P : List Char → List Char → Prop} {sent : String}
    {answers more : List String} : Grow P sent (answers ++ more) ↔
      Grow P sent answers ∧ Grow P (lastAnswer sent answers) more := by
  induction answers generalizing sent with
  | nil => exact (iff_of_eq (true_and _)).symm
  | cons answer answers ih =>
    rw [List.cons_append, Grow, Grow, ih, and_assoc]
    have hlast : lastAnswer sent (answer :: answers) = lastAnswer answer answers := by
      rw [lastAnswer, lastAnswer, List.getLast?_cons]
      rfl
    rw [hlast]

/-- From a stream that has shown one answer, a step shows what is new in another. -/
structure Advances (sent answer : String) (relayed : List Json × PerplexityState) : Prop where
  shown : cleanText sent ++ shownContent relayed.1 = cleanText answer
  seen : relayed.2.pplxSeen = answer.utf8ByteSize

section Step

variable {sent answer : String} {s : PerplexityState}

private theorem advances_nil (hseen : s.pplxSeen = sent.utf8ByteSize) : Advances sent sent ([], s) :=
  ⟨String.append_empty, hseen⟩

private theorem advances_emit {delta : Json} {finish : Option String}
    (hshown : cleanText sent ++ (delta.strField "content").getD "" = cleanText answer)
    (hseen : s.pplxSeen = answer.utf8ByteSize) : Advances sent answer (emit delta finish s) := by
  constructor
  · rw [emit, shownContent_buildChunk]
    exact hshown
  · exact hseen

private theorem advances_advance (hseen : s.pplxSeen = sent.utf8ByteSize)
    (h : Grow Uncut sent [answer]) : Advances sent answer (advance answer s) := by
  obtain ⟨⟨new, rfl, h⟩, -⟩ := h
  have hclean : cleanText (sent ++ new) = cleanText sent ++ cleanText new := by
    rw [cleanText, cleanText, cleanText, String.toList_append, clean_append h, String.ofList_append]
  rw [advance, hseen]
  split
  · next hle =>
    rw [String.utf8ByteSize_append] at hle
    have hnew : new = "" := String.utf8ByteSize_eq_zero_iff.mp (by omega)
    subst hnew
    rw [String.append_empty]
    exact advances_nil hseen
  · simp only [getFrom_append]
    split
    · next hempty =>
      refine ⟨?_, rfl⟩
      rw [hclean, cleanText, cleanText, List.isEmpty_iff.mp hempty]
      rfl
    · apply advances_emit
      · rw [hclean, Json.strField_object]
        rfl
      · rfl

private theorem advances_reasoning (hseen : s.pplxSeen = sent.utf8ByteSize) (text : String) :
    Advances sent sent (reasoning text s) := by
  rw [reasoning]
  split
  · exact advances_nil hseen
  · apply advances_emit
    · rw [Json.strField_object]
      exact String.append_empty
    · exact hseen

private theorem advances_each {α : Type} {step : α → PerplexityState → List Json × PerplexityState}
    {answers : α → List String} {items : List α}
    (hstep : ∀ item ∈ items, ∀ sent s, s.pplxSeen = sent.utf8ByteSize →
      Grow Uncut sent (answers item) → Advances sent (lastAnswer sent (answers item)) (step item s))
    (hseen : s.pplxSeen = sent.utf8ByteSize) (h : Grow Uncut sent (items.flatMap answers)) :
    Advances sent (lastAnswer sent (items.flatMap answers)) (each step items s) := by
  induction items generalizing sent s with
  | nil => exact advances_nil hseen
  | cons item items ih =>
    rw [List.forall_mem_cons] at hstep
    rw [List.flatMap_cons, grow_append] at h
    have hfirst := hstep.1 sent s hseen h.1
    have hrest := ih hstep.2 hfirst.seen h.2
    rw [List.flatMap_cons, lastAnswer_append, each]
    refine ⟨?_, hrest.seen⟩
    rw [shownContent_append, ← String.append_assoc, hfirst.shown]
    exact hrest.shown

private theorem advances_texts (texts : List String) (hseen : s.pplxSeen = sent.utf8ByteSize) :
    Advances sent sent (each reasoning texts s) := by
  have hnone : texts.flatMap (fun _ ↦ ([] : List String)) = [] := by simp
  have h := @advances_each sent s _ reasoning (fun _ ↦ []) texts
    (fun text _ sent s hseen _ ↦ advances_reasoning hseen text) hseen
  rw [hnone] at h
  exact h trivial

private theorem advances_block (block : Json) (hseen : s.pplxSeen = sent.utf8ByteSize)
    (h : Grow Uncut sent (answerOf block).toList) :
    Advances sent (lastAnswer sent (answerOf block).toList) (relayBlock block s) := by
  unfold relayBlock
  unfold answerOf at h ⊢
  simp only at h ⊢
  generalize (block.strField "intended_usage").getD "" = usage at h ⊢
  by_cases hmarkdown : containsText usage.toList "markdown".toList = true
  · have hsearch : usage ≠ "pro_search_steps" := by
      rintro rfl
      exact absurd hmarkdown (by decide)
    have hplan : usage ≠ "plan" := by
      rintro rfl
      exact absurd hmarkdown (by decide)
    rw [if_pos hmarkdown] at h ⊢
    rw [if_neg hsearch, if_neg hplan, if_pos hmarkdown]
    rw [answer]
    cases hanswer : blockAnswer block with
    | none => exact advances_nil hseen
    | some full =>
      rw [hanswer] at h
      exact advances_advance hseen h
  · rw [if_neg hmarkdown, if_neg hmarkdown]
    split
    · exact advances_texts _ hseen
    · split
      · exact advances_texts _ hseen
      · exact advances_nil hseen

private theorem advances_translate (write : Json → String) (event : Json)
    (herror : isError event = false) (hseen : s.pplxSeen = sent.utf8ByteSize)
    (h : Grow Uncut sent (answersOf event)) :
    Advances sent (lastAnswer sent (answersOf event)) (translate write event s) := by
  have hidentify : (rememberThread event (identify s)).pplxSeen = sent.utf8ByteSize := by
    rw [← hseen, rememberThread, identify]
    split <;> rfl
  unfold answersOf at h ⊢
  rw [Response.PerplexityWebToOpenai.translate, herror]
  cases hobject : event.asObject with
  | none =>
    cases event with
    | obj fields => cases hobject
    | _ => exact advances_nil hseen
  | some fields =>
    simp only [Option.isNone_some, Bool.false_eq_true, if_false]
    split
    · next hblocks =>
      rw [if_pos hblocks] at h
      cases htext : event.strField "text" with
      | none => exact advances_nil hidentify
      | some text =>
        rw [htext] at h
        exact advances_advance hidentify h
    · next hblocks =>
      rw [if_neg hblocks, List.filterMap_eq_flatMap_toList] at h
      rw [List.filterMap_eq_flatMap_toList]
      exact advances_each (fun block _ _ _ hseen h ↦ advances_block block hseen h) hidentify h

end Step

/-- What is shown of answers that grow and cut no markup is the last of them, clean. -/
theorem perplexity_content {write : Json → String} {events : List Json} {s : PerplexityState}
    (hfresh : s.pplxSeen = 0) (herror : ∀ event ∈ events, isError event = false)
    (hgrow : Grow Uncut "" (events.flatMap answersOf)) :
    shownContent (through (translate write) events s).1 =
      cleanText (lastAnswer "" (events.flatMap answersOf)) := by
  have hthrough : through (translate write) events s = each (translate write) events s := by
    clear hfresh herror hgrow
    induction events generalizing s with
    | nil => rfl
    | cons event events ih => rw [through, each, ih]
  have h := advances_each (fun event hevent sent s hseen h ↦
    advances_translate write event (herror event hevent) hseen h) hfresh hgrow
  rw [hthrough, ← h.shown]
  exact String.empty_append.symm

/-- An event with an answer as it stands. -/
def answerEvent (text : String) : Json :=
  Json.object [("blocks", .arr [Json.object [("intended_usage", .str "ask_text_markdown"),
    ("markdown_block", Json.object [("chunks", .arr [.str text])])]])]

/-- A new conversation. -/
def newThread : PerplexityState := { clock := fun _ ↦ 5 }

/-- A rule for what begins with an angle bracket keeps a text without one, and nothing in that
text reaches beyond it. -/
private theorem plain_spec {rule : Rule Char} {opener text : List Char}
    (hrule : ∀ prev s, ¬ '<' :: opener <+: s → rule prev s = none) (h : '<' ∉ text) :
    rule.scan none 0 text = text ∧ ∀ b, ¬ rule.Reaches text b := by
  have hinert : ∀ c ∈ text, rule.Inert c := by
    intro c hc prev rest
    refine hrule prev (c :: rest) fun hprefix ↦ h ?_
    rw [(List.cons_prefix_cons.mp hprefix).1]
    exact hc
  refine ⟨Rule.scan_of_inert hinert none, fun b hreaches ↦ ?_⟩
  obtain ⟨s, hs, hne, prev, written, read, hread, -⟩ := hreaches
  obtain ⟨c, s, rfl⟩ := List.exists_cons_of_ne_nil hne
  rw [List.cons_append, hinert c (hs.subset List.mem_cons_self) prev (s ++ b)] at hread
  cases hread

private theorem uncut_of_plain {sent new : List Char} (h : '<' ∉ sent)
    (hcitations : ¬ Rule.Breaks '[' ']' isCitation
      (stripResponseTags (stripGrokTags (stripXmlDeclarations sent)))
      (stripResponseTags (stripGrokTags (stripXmlDeclarations new)))) : Uncut sent new := by
  have hxml := @plain_spec xmlRule "?xml".toList sent
    (fun prev s hnot ↦ if_neg fun hprefix ↦ hnot (List.isPrefixOf_iff_prefix.mp hprefix)) h
  have hgrok := @plain_spec grokRule "grok:".toList sent
    (fun prev s hnot ↦ if_neg fun hprefix ↦ hnot (List.isPrefixOf_iff_prefix.mp hprefix)) h
  have hsame : stripXmlDeclarations sent = sent := hxml.1
  have hkept : stripGrokTags sent = sent := hgrok.1
  refine ⟨hxml.2 new, ?_, ?_, hcitations⟩
  · rw [hsame]
    exact hgrok.2 _
  · rw [hsame, hkept]
    exact Rule.not_breaks_of_notMem h

/-- An answer of which a part has a citation as a whole. -/
theorem perplexity_content_of_whole_citation :
    shownContent (through (translate fun _ ↦ "")
      [answerEvent "Hello", answerEvent "Hello [1] world"] newThread).1 = "Hello  world" := by
  have hanswers : [answerEvent "Hello", answerEvent "Hello [1] world"].flatMap answersOf =
      ["Hello", "Hello [1] world"] := by decide +kernel
  have hlast : cleanText (lastAnswer "" ["Hello", "Hello [1] world"]) = "Hello  world" := by
    decide +kernel
  rw [perplexity_content rfl (by decide +kernel), hanswers, hlast]
  rw [hanswers]
  refine ⟨⟨"Hello", rfl, ?_⟩, ⟨" [1] world", by decide +kernel, ?_⟩, trivial⟩
  · exact uncut_of_plain (by decide) (fun h ↦ h.1 (by decide +kernel))
  · exact uncut_of_plain (by decide +kernel) (fun h ↦ h.1 (by decide +kernel))

/-- A citation that two snapshots share is shown. -/
theorem perplexity_shows_cut_citation :
    ¬ ∀ (write : Json → String) (events : List Json) (s : PerplexityState), s.pplxSeen = 0 →
      (∀ event ∈ events, isError event = false) →
      Grow (fun _ _ ↦ True) "" (events.flatMap answersOf) →
      shownContent (through (translate write) events s).1 =
        cleanText (lastAnswer "" (events.flatMap answersOf)) := by
  intro hall
  have hanswers : [answerEvent "a [1", answerEvent "a [1] b"].flatMap answersOf =
      ["a [1", "a [1] b"] := by decide +kernel
  have hcontent := hall (fun _ ↦ "") [answerEvent "a [1", answerEvent "a [1] b"] newThread rfl
    (by decide +kernel)
  rw [hanswers] at hcontent
  have hsame := hcontent ⟨⟨"a [1", rfl, trivial⟩, ⟨"] b", by decide +kernel, trivial⟩, trivial⟩
  exact absurd hsame (by decide +kernel)

end NullRouter.Stream
