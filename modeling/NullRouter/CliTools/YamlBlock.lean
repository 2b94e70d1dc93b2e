import Mathlib.Data.List.DropRight
import NullRouter.Base.Json
import NullRouter.Base.Lines

/-!
# The model block of Hermes' configuration

`src/services/api-actix/src/cli_tools/yaml_block.rs:18–132`. One block of a hand-written file is
written, taken out and read, and the file is never parsed: the block is the line `model:` and the
indented and blank lines after it.
-/

namespace NullRouter.CliTools

open Base

/-- A line with its line feed, where it has one. -/
abbrev Line := List Char

/-- `str::split_inclusive` at line feeds. -/
def splitInclusive : List Char → List Line
  | [] => []
  | c :: text =>
    if c = '\n' then [c] :: splitInclusive text
    else match splitInclusive text with
      | [] => [[c]]
      | line :: rest => (c :: line) :: rest

/-- A line without its line ending. -/
def bare (line : Line) : List Char := line.rdropWhile fun c ↦ c = '\n' ∨ c = '\r'

/-- The header is `model:` and trailing tabs and spaces, so `model: gpt-4` is none. -/
def isHeader (line : Line) : Bool :=
  match "model:".toList.isPrefixOf? (bare line) with
  | some rest => rest.all fun c ↦ c = ' ' ∨ c = '\t'
  | none => false

/-- The block continues through indented and blank lines. -/
def continues (line : Line) : Bool :=
  (bare line).head? = some ' ' ∨ (bare line).head? = some '\t' ∨ trimChars (bare line) = []

/-- The lines of a text that has a block. -/
structure Parts where
  before : List Line
  block : List Line
  after : List Line
  deriving DecidableEq

/-- `model_block`: where the first block of a text stands. -/
def modelBlock (text : List Char) : Option Parts :=
  match (splitInclusive text).dropWhile (!isHeader ·) with
  | [] => none
  | header :: rest => some {
      before := (splitInclusive text).takeWhile (!isHeader ·)
      block := header :: rest.takeWhile continues
      after := rest.dropWhile continues }

/-- The lines of the block that is written. -/
def modelLines (model baseUrl : List Char) : List Line :=
  ["model:\n".toList, "  default: \"".toList ++ model ++ "\"\n".toList,
    "  provider: \"custom\"\n".toList, "  base_url: \"".toList ++ baseUrl ++ "\"\n".toList,
    "  api_key: $\x7bOPENAI_API_KEY\x7d\n".toList]

/-- `build_model_block`. -/
def buildModelBlock (model baseUrl : List Char) : List Char := (modelLines model baseUrl).flatten

/-- `upsert_model_block`: the block in the place of another, else at the top. -/
def upsertModelBlock (text block : List Char) : List Char :=
  match modelBlock text with
  | some parts => parts.before.flatten ++ block ++ parts.after.flatten
  | none => if text = [] then block else block ++ '\n' :: text

/-- `remove_model_block`: the text without its block and without line feeds at the top. -/
def removeModelBlock (text : List Char) : List Char :=
  match modelBlock text with
  | some parts => (parts.before.flatten ++ parts.after.flatten).dropWhile (· = '\n')
  | none => text

/-- A value between two quotes. -/
def unquote (quote : Char) (value : List Char) : Option (List Char) :=
  ([quote].isPrefixOf? value).bind ([quote].isSuffixOf? ·)

/-- The value a line gives a key. -/
def valueOf (key : String) (line : List Char) : Option (List Char) :=
  (key.toList.isPrefixOf? (line.dropWhile isWhitespace)).bind fun rest ↦
    ([':'].isPrefixOf? rest).bind fun rest ↦
      let value := trimChars rest
      let unquoted := trimChars (((unquote '"' value).or (unquote '\'' value)).getD value)
      if unquoted = [] then none else some unquoted

/-- `field`: the first indented line of a block that gives a key a value. -/
def field (body : List Char) (key : String) : Option (List Char) :=
  ((lines body).filter fun line ↦ line.head? = some ' ' ∨ line.head? = some '\t').findSome?
    (valueOf key)

/-- `parse_model_block`. A key without a value is reported as null. -/
def parseModelBlock (text : List Char) : Option Json :=
  (modelBlock text).map fun parts ↦
    .object (["default", "provider", "base_url", "api_key"].map fun key ↦
      (key, ((field parts.block.flatten key).map (Json.str ∘ String.ofList)).getD .null))

/-! ## Lines with their line feeds -/

/-- A line that ends. -/
private def Whole (line : Line) : Prop := ∃ text, '\n' ∉ text ∧ line = text ++ ['\n']

section Lines

variable {line text rest : List Char} {whole pieces tail : List Line}

private theorem splitInclusive_of_not_mem (h : '\n' ∉ line) :
    splitInclusive line = if line = [] then [] else [line] := by
  induction line with
  | nil => rfl
  | cons c line ih =>
    rw [List.mem_cons, not_or] at h
    rw [splitInclusive, if_neg (Ne.symm h.1), ih h.2, if_neg (List.cons_ne_nil c line)]
    cases line with
    | nil => rfl
    | cons d line => rfl

private theorem splitInclusive_cons (h : '\n' ∉ line) (rest : List Char) :
    splitInclusive (line ++ '\n' :: rest) = (line ++ ['\n']) :: splitInclusive rest := by
  induction line with
  | nil => rfl
  | cons c line ih =>
    rw [List.mem_cons, not_or] at h
    rw [List.cons_append, splitInclusive, if_neg (Ne.symm h.1), ih h.2]
    rfl

private theorem flatten_splitInclusive (text : List Char) : (splitInclusive text).flatten = text := by
  induction text using lines_induction with
  | last line h =>
    rw [splitInclusive_of_not_mem h]
    split
    · next hnil => exact hnil.symm
    · exact List.flatten_singleton
  | line line rest h ih =>
    rw [splitInclusive_cons h, List.flatten_cons, ih, List.append_assoc, List.singleton_append]

private theorem splitInclusive_flatten_append (h : ∀ line ∈ whole, Whole line) (rest : List Char) :
    splitInclusive (whole.flatten ++ rest) = whole ++ splitInclusive rest := by
  induction whole with
  | nil => rfl
  | cons line whole ih =>
    rw [List.forall_mem_cons] at h
    obtain ⟨⟨text, htext, rfl⟩, hwhole⟩ := h
    rw [List.flatten_cons, List.append_assoc, List.append_assoc, List.singleton_append,
      splitInclusive_cons htext, ih hwhole, List.cons_append]

private theorem whole_of_splitInclusive (h : splitInclusive text = pieces ++ tail) (hne : tail ≠ []) :
    ∀ line ∈ pieces, Whole line := by
  induction text using lines_induction generalizing pieces with
  | last line hline =>
    cases pieces with
    | nil => exact fun line hmem ↦ absurd hmem List.not_mem_nil
    | cons piece pieces =>
      have hlength := congrArg List.length h
      have htail := List.length_pos_iff.mpr hne
      rw [splitInclusive_of_not_mem hline, List.length_append, List.length_cons] at hlength
      split at hlength
      · rw [List.length_nil] at hlength
        omega
      · rw [List.length_singleton] at hlength
        omega
  | line line rest hline ih =>
    cases pieces with
    | nil => exact fun line hmem ↦ absurd hmem List.not_mem_nil
    | cons piece pieces =>
      rw [splitInclusive_cons hline] at h
      obtain ⟨rfl, hrest⟩ := List.cons.inj h
      rw [List.forall_mem_cons]
      exact ⟨⟨line, hline, rfl⟩, ih hrest⟩

private theorem splitInclusive_flatten (h : splitInclusive text = pieces ++ tail) :
    splitInclusive tail.flatten = tail := by
  by_cases hne : tail = []
  · rw [hne]
    rfl
  · have htext := flatten_splitInclusive text
    rw [h, List.flatten_append] at htext
    rw [← htext, splitInclusive_flatten_append (whole_of_splitInclusive h hne)] at h
    exact List.append_cancel_left h

private theorem whole_of_mem (text : List Char) :
    ∀ line ∈ splitInclusive (text ++ ['\n']), Whole line := by
  induction text using lines_induction with
  | last line h =>
    rw [splitInclusive_cons h, splitInclusive]
    intro piece hpiece
    exact ⟨line, h, List.mem_singleton.mp hpiece⟩
  | line line rest h ih =>
    rw [List.append_assoc, List.cons_append, splitInclusive_cons h, List.forall_mem_cons]
    exact ⟨⟨line, h, rfl⟩, ih⟩

private theorem splitInclusive_dropWhile (text : List Char) :
    splitInclusive (text.dropWhile (· = '\n')) =
      (splitInclusive text).dropWhile (· = ['\n']) := by
  induction text using lines_induction with
  | last line h =>
    cases line with
    | nil => rfl
    | cons c line =>
      have hc : c ≠ '\n' := fun hc ↦ h (by simp [hc])
      rw [List.dropWhile_cons_of_neg (by simpa using hc), splitInclusive_of_not_mem h,
        if_neg (List.cons_ne_nil c line), List.dropWhile_cons_of_neg (by simp [hc])]
  | line line rest h ih =>
    cases line with
    | nil =>
      rw [splitInclusive_cons h, List.nil_append, List.nil_append,
        List.dropWhile_cons_of_pos (by simp), ih, List.dropWhile_cons_of_pos (by simp)]
    | cons c line =>
      have hc : c ≠ '\n' := fun hc ↦ h (by simp [hc])
      rw [splitInclusive_cons h, List.cons_append, List.dropWhile_cons_of_neg (by simpa using hc),
        ← List.cons_append, splitInclusive_cons h, List.dropWhile_cons_of_neg (by simp [hc])]

end Lines

/-! ## The block of a text -/

/-- Lines that are one block: a header and lines that continue it. -/
private def IsBlock (block : List Line) : Prop :=
  ∃ header rest, block = header :: rest ∧ isHeader header = true ∧
    ∀ line ∈ rest, continues line = true

section Blocks

variable {text : List Char} {parts : Parts} {written before after : List Line}

private theorem modelBlock_eq (hlines : splitInclusive text = before ++ written ++ after)
    (hbefore : ∀ line ∈ before, isHeader line = false) (hblock : IsBlock written) :
    modelBlock text = some { before, block := written ++ after.takeWhile continues,
                             after := after.dropWhile continues } := by
  obtain ⟨header, rest, rfl, hheader, hrest⟩ := hblock
  have hnot : ∀ line ∈ before, (!isHeader line) = true := by simpa using hbefore
  rw [List.append_assoc, List.cons_append] at hlines
  rw [modelBlock, hlines, List.dropWhile_append_of_pos hnot,
    List.dropWhile_cons_of_neg (by simp [hheader]), List.takeWhile_append_of_pos hnot,
    List.takeWhile_cons_of_neg (by simp [hheader])]
  simp only [List.append_nil, List.cons_append, List.takeWhile_append_of_pos hrest,
    List.dropWhile_append_of_pos hrest]

private theorem of_modelBlock (h : modelBlock text = some parts) :
    splitInclusive text = parts.before ++ parts.block ++ parts.after ∧
      (∀ line ∈ parts.before, isHeader line = false) ∧ IsBlock parts.block ∧
      parts.after.dropWhile continues = parts.after := by
  have hsplit := @List.takeWhile_append_dropWhile _ (!isHeader ·) (splitInclusive text)
  rw [modelBlock] at h
  cases hdrop : (splitInclusive text).dropWhile (!isHeader ·) with
  | nil =>
    rw [hdrop] at h
    cases h
  | cons header rest =>
    rw [hdrop] at h hsplit
    obtain rfl := Option.some.inj h
    have hheader := @List.head_dropWhile_not _ (!isHeader ·) (splitInclusive text) (by simp [hdrop])
    simp only [hdrop, List.head_cons, Bool.not_eq_false'] at hheader
    refine ⟨?_, ?_, ⟨header, _, rfl, hheader, fun line ↦ List.mem_takeWhile_imp⟩, ?_⟩
    · rw [List.append_assoc, List.cons_append, List.takeWhile_append_dropWhile]
      exact hsplit.symm
    · intro line hline
      simpa using List.mem_takeWhile_imp hline
    · exact List.dropWhile_idempotent _ _

theorem upsertModelBlock_of_some (block : List Char) (h : modelBlock text = some parts) :
    upsertModelBlock text block = parts.before.flatten ++ block ++ parts.after.flatten := by
  rw [upsertModelBlock, h]

theorem removeModelBlock_of_some (h : modelBlock text = some parts) :
    removeModelBlock text =
      (parts.before.flatten ++ parts.after.flatten).dropWhile (· = '\n') := by
  rw [removeModelBlock, h]

end Blocks

/-! ## The block that is written -/

/-- A value that one line can carry: text without line feeds or whitespace around it. -/
def Plain (value : List Char) : Prop := value ≠ [] ∧ '\n' ∉ value ∧ trimChars value = value

instance : DecidablePred Plain := fun _ ↦ inferInstanceAs (Decidable (_ ∧ _ ∧ _))

section Written

variable {text model baseUrl value : List Char} {parts : Parts}

private theorem whole_modelLines (hmodel : '\n' ∉ model) (hurl : '\n' ∉ baseUrl) :
    ∀ line ∈ modelLines model baseUrl, Whole line := by
  simp only [modelLines, List.forall_mem_cons]
  refine ⟨⟨"model:".toList, by decide, rfl⟩, ⟨"  default: \"".toList ++ model ++ ['"'], ?_, ?_⟩,
    ⟨"  provider: \"custom\"".toList, by decide, rfl⟩,
    ⟨"  base_url: \"".toList ++ baseUrl ++ ['"'], ?_, ?_⟩,
    ⟨"  api_key: $\x7bOPENAI_API_KEY\x7d".toList, by decide, rfl⟩, by simp⟩
  · simp [hmodel]
  · simp
  · simp [hurl]
  · simp

private theorem continues_of_space (line : List Char) : continues (' ' :: line) = true := by
  have hbare : (bare (' ' :: line)).head? = some ' ' := by
    rw [bare, List.rdropWhile, List.reverse_cons, List.dropWhile_append]
    split
    · rfl
    · simp
  simp [continues, hbare]

private theorem isBlock_modelLines (model baseUrl : List Char) :
    IsBlock (modelLines model baseUrl) := by
  refine ⟨_, _, rfl, by decide, ?_⟩
  simp only [List.forall_mem_cons]
  exact ⟨continues_of_space _, continues_of_space _, continues_of_space _, continues_of_space _,
    by simp⟩

private theorem splitInclusive_modelLines (hmodel : '\n' ∉ model) (hurl : '\n' ∉ baseUrl) :
    splitInclusive (buildModelBlock model baseUrl) = modelLines model baseUrl := by
  have h := splitInclusive_flatten_append (whole_modelLines hmodel hurl) []
  rwa [List.append_nil, splitInclusive, List.append_nil] at h

private theorem splitInclusive_block_append (model baseUrl rest : List Char) :
    splitInclusive (buildModelBlock model baseUrl ++ rest) =
      splitInclusive (buildModelBlock model baseUrl) ++ splitInclusive rest := by
  obtain ⟨start, hstart⟩ : ∃ start, buildModelBlock model baseUrl = start ++ ['\n'] :=
    ⟨(modelLines model baseUrl).dropLast.flatten ++ "  api_key: $\x7bOPENAI_API_KEY\x7d".toList,
      by simp [buildModelBlock, modelLines]⟩
  have hwhole := whole_of_mem start
  rw [← hstart] at hwhole
  have h := splitInclusive_flatten_append hwhole rest
  rwa [flatten_splitInclusive] at h

private theorem splitInclusive_upsert (model baseUrl : List Char)
    (h : modelBlock text = some parts) :
    splitInclusive (upsertModelBlock text (buildModelBlock model baseUrl)) =
      parts.before ++ splitInclusive (buildModelBlock model baseUrl) ++ parts.after := by
  obtain ⟨hlines, -, ⟨header, rest, hblock, -⟩, -⟩ := of_modelBlock h
  rw [List.append_assoc] at hlines
  have hwhole := whole_of_splitInclusive hlines (by simp [hblock])
  rw [← List.append_assoc] at hlines
  rw [upsertModelBlock_of_some _ h, List.append_assoc, splitInclusive_flatten_append hwhole, splitInclusive_block_append,
    splitInclusive_flatten hlines, List.append_assoc]

private theorem splitInclusive_upsert_new (model baseUrl : List Char) (h : modelBlock text = none)
    (hne : text ≠ []) :
    splitInclusive (upsertModelBlock text (buildModelBlock model baseUrl)) =
      splitInclusive (buildModelBlock model baseUrl) ++ ['\n'] :: splitInclusive text := by
  simp only [upsertModelBlock, h, if_neg hne]
  rw [splitInclusive_block_append]
  rfl

private theorem modelBlock_upsert (hmodel : '\n' ∉ model) (hurl : '\n' ∉ baseUrl) :
    ∃ before more after,
      modelBlock (upsertModelBlock text (buildModelBlock model baseUrl)) =
        some { before, block := modelLines model baseUrl ++ more, after } := by
  have hnew {after : List Line} (hlines : splitInclusive (upsertModelBlock text
      (buildModelBlock model baseUrl)) = modelLines model baseUrl ++ after) :
      ∃ before more after, modelBlock (upsertModelBlock text (buildModelBlock model baseUrl)) =
        some { before, block := modelLines model baseUrl ++ more, after } := by
    rw [← List.nil_append (modelLines model baseUrl)] at hlines
    exact ⟨_, _, _, modelBlock_eq hlines (by simp) (isBlock_modelLines model baseUrl)⟩
  cases h : modelBlock text with
  | some parts =>
    have hlines := splitInclusive_upsert model baseUrl h
    rw [splitInclusive_modelLines hmodel hurl] at hlines
    exact ⟨_, _, _, modelBlock_eq hlines (of_modelBlock h).2.1 (isBlock_modelLines model baseUrl)⟩
  | none =>
    by_cases hne : text = []
    · apply @hnew []
      simp only [upsertModelBlock, h, if_pos hne]
      rw [splitInclusive_modelLines hmodel hurl, List.append_nil]
    · apply hnew
      rw [splitInclusive_upsert_new model baseUrl h hne, splitInclusive_modelLines hmodel hurl]

/-! ## Reading back -/

private theorem trimChars_quoted (value : List Char) :
    trimChars (' ' :: '"' :: value ++ ['"']) = '"' :: value ++ ['"'] := by
  have hspace : isWhitespace ' ' = true := by decide
  have hquote : isWhitespace '"' = false := by decide
  simp [trimChars, hspace, hquote]

private theorem unquote_quoted (value : List Char) :
    unquote '"' ('"' :: value ++ ['"']) = some value := by
  simp [unquote, List.isPrefixOf?, List.isSuffixOf?]

private theorem valueOf_quoted {key : String} {line : List Char} (h : Plain value)
    (hline : key.toList.isPrefixOf? (line.dropWhile isWhitespace) =
      some (':' :: ' ' :: '"' :: value ++ ['"'])) : valueOf key line = some value := by
  have hcolon (rest : List Char) : [':'].isPrefixOf? (':' :: rest) = some rest := rfl
  simp only [valueOf, hline, Option.bind_some, List.cons_append, hcolon]
  rw [← List.cons_append, ← List.cons_append, trimChars_quoted, unquote_quoted]
  simp [h.2.2, h.1]

private theorem lines_modelLines (hmodel : '\n' ∉ model) (hurl : '\n' ∉ baseUrl)
    (more : List Line) :
    lines (modelLines model baseUrl ++ more).flatten =
      ["model:".toList, "  default: \"".toList ++ model ++ ['"'],
        "  provider: \"custom\"".toList, "  base_url: \"".toList ++ baseUrl ++ ['"'],
        "  api_key: $\x7bOPENAI_API_KEY\x7d".toList] ++ lines more.flatten := by
  have hline {line : List Char} (h : '\n' ∉ line) (hend : line.getLast? ≠ some '\r')
      (rest : List Char) : lines (line ++ '\n' :: rest) = line :: lines rest := by
    rw [lines_cons h, chomp_of_ne hend]
  have hquote (line : List Char) : (line ++ ['"']).getLast? ≠ some '\r' := by
    rw [List.getLast?_concat]
    decide
  have hflat : (modelLines model baseUrl ++ more).flatten =
      "model:".toList ++ '\n' :: (("  default: \"".toList ++ model ++ ['"']) ++ '\n' ::
        ("  provider: \"custom\"".toList ++ '\n' ::
          (("  base_url: \"".toList ++ baseUrl ++ ['"']) ++ '\n' ::
            ("  api_key: $\x7bOPENAI_API_KEY\x7d".toList ++ '\n' :: more.flatten)))) := by
    simp [modelLines]
  rw [hflat, hline (by decide) (by decide), hline (by simp [hmodel]) (hquote _),
    hline (by decide) (by decide), hline (by simp [hurl]) (hquote _),
    hline (by decide) (by decide)]
  rfl

private theorem field_modelLines (hmodel : Plain model) (hurl : Plain baseUrl) (more : List Line) :
    field (modelLines model baseUrl ++ more).flatten "default" = some model ∧
      field (modelLines model baseUrl ++ more).flatten "base_url" = some baseUrl := by
  have hdefault : valueOf "default" ("  default: \"".toList ++ model ++ ['"']) = some model :=
    valueOf_quoted hmodel rfl
  have hother : valueOf "base_url" ("  default: \"".toList ++ model ++ ['"']) = none := rfl
  have hprovider : valueOf "base_url" "  provider: \"custom\"".toList = none := rfl
  have hbase : valueOf "base_url" ("  base_url: \"".toList ++ baseUrl ++ ['"']) = some baseUrl :=
    valueOf_quoted hurl rfl
  have hindented {line : List Char} (h : line.head? = some ' ') (rest : List (List Char)) :
      (line :: rest).filter (fun line ↦ line.head? = some ' ' ∨ line.head? = some '\t') =
        line :: rest.filter (fun line ↦ line.head? = some ' ' ∨ line.head? = some '\t') :=
    List.filter_cons_of_pos (by simp [h])
  rw [field, field, lines_modelLines hmodel.2.1 hurl.2.1]
  simp only [List.cons_append]
  rw [List.filter_cons_of_neg (by decide), hindented rfl, hindented rfl, hindented rfl]
  simp only [List.findSome?_cons, hdefault, hother, hprovider, hbase, and_self]

end Written

/-! ## The laws of the block -/

/-- What holds of writing, taking out and reading a block. -/
structure HermesLaws (text model baseUrl : List Char) : Prop where
  readsBack : Plain model → Plain baseUrl → ∃ fields,
    parseModelBlock (upsertModelBlock text (buildModelBlock model baseUrl)) = some fields ∧
      fields.get "default" = some (.str (String.ofList model)) ∧
      fields.get "base_url" = some (.str (String.ofList baseUrl))
  idempotent : '\n' ∉ model → '\n' ∉ baseUrl → text = [] ∨ (modelBlock text).isSome = true →
    upsertModelBlock (upsertModelBlock text (buildModelBlock model baseUrl))
        (buildModelBlock model baseUrl) =
      upsertModelBlock text (buildModelBlock model baseUrl)
  kept (parts : Parts) : modelBlock text = some parts →
    splitInclusive text = parts.before ++ parts.block ++ parts.after ∧
      splitInclusive (upsertModelBlock text (buildModelBlock model baseUrl)) =
        parts.before ++ splitInclusive (buildModelBlock model baseUrl) ++ parts.after ∧
      splitInclusive (removeModelBlock text) =
        (parts.before ++ parts.after).dropWhile (· = ['\n'])
  keptWhole : modelBlock text = none →
    splitInclusive (upsertModelBlock text (buildModelBlock model baseUrl)) =
        splitInclusive (buildModelBlock model baseUrl) ++
          (if text = [] then [] else [['\n']]) ++ splitInclusive text ∧
      removeModelBlock text = text
  removed : '\n' ∉ model → '\n' ∉ baseUrl → modelBlock text = none →
    (∀ line ∈ (splitInclusive text).head?, continues line = false) →
    removeModelBlock (upsertModelBlock text (buildModelBlock model baseUrl)) = text

section Laws

variable {text model baseUrl : List Char} {parts : Parts}

private theorem modelBlock_modelLines (hmodel : '\n' ∉ model) (hurl : '\n' ∉ baseUrl) :
    modelBlock (buildModelBlock model baseUrl) =
      some { before := [], block := modelLines model baseUrl, after := [] } := by
  have hlines : splitInclusive (buildModelBlock model baseUrl) =
      [] ++ modelLines model baseUrl ++ [] := by
    rw [splitInclusive_modelLines hmodel hurl, List.append_nil, List.nil_append]
  simpa using modelBlock_eq hlines (by simp) (isBlock_modelLines model baseUrl)

private theorem upsertModelBlock_idem (hmodel : '\n' ∉ model) (hurl : '\n' ∉ baseUrl)
    (h : modelBlock text = some parts) :
    upsertModelBlock (upsertModelBlock text (buildModelBlock model baseUrl))
        (buildModelBlock model baseUrl) =
      upsertModelBlock text (buildModelBlock model baseUrl) := by
  obtain ⟨-, hbefore, -, hafter⟩ := of_modelBlock h
  have hlines := splitInclusive_upsert model baseUrl h
  rw [splitInclusive_modelLines hmodel hurl] at hlines
  have hagain := modelBlock_eq hlines hbefore (isBlock_modelLines model baseUrl)
  rw [hafter] at hagain
  rw [upsertModelBlock_of_some _ hagain, upsertModelBlock_of_some _ h]

private theorem splitInclusive_remove (h : modelBlock text = some parts) :
    splitInclusive (removeModelBlock text) =
      (parts.before ++ parts.after).dropWhile (· = ['\n']) := by
  obtain ⟨hlines, -, ⟨header, rest, hblock, -⟩, -⟩ := of_modelBlock h
  have hafter := splitInclusive_flatten hlines
  rw [List.append_assoc] at hlines
  have hbefore := whole_of_splitInclusive hlines (by simp [hblock])
  rw [removeModelBlock_of_some h, splitInclusive_dropWhile,
    splitInclusive_flatten_append hbefore, hafter]

/-- The block at the top goes with the empty line after it, where the text begins with a line that
does not continue it. -/
private theorem removeModelBlock_upsert (hmodel : '\n' ∉ model) (hurl : '\n' ∉ baseUrl)
    (h : modelBlock text = none)
    (hfirst : ∀ line ∈ (splitInclusive text).head?, continues line = false) :
    removeModelBlock (upsertModelBlock text (buildModelBlock model baseUrl)) = text := by
  cases text with
  | nil =>
    rw [upsertModelBlock, h]
    exact removeModelBlock_of_some (modelBlock_modelLines hmodel hurl)
  | cons c text =>
    have hlines := splitInclusive_upsert_new model baseUrl h (List.cons_ne_nil c text)
    rw [splitInclusive_modelLines hmodel hurl,
      ← List.nil_append (modelLines model baseUrl)] at hlines
    have hblank : continues ['\n'] = true := by decide
    have hrest : (splitInclusive (c :: text)).dropWhile continues = splitInclusive (c :: text) := by
      cases hsplit : splitInclusive (c :: text) with
      | nil => rfl
      | cons line rest =>
        apply List.dropWhile_cons_of_neg
        simpa using hfirst line (by simp [hsplit])
    have hc : c ≠ '\n' := by
      rintro rfl
      rw [hfirst ['\n'] rfl] at hblank
      cases hblank
    have hparts := modelBlock_eq hlines (by simp) (isBlock_modelLines model baseUrl)
    rw [List.dropWhile_cons_of_pos hblank, hrest] at hparts
    rw [removeModelBlock_of_some hparts, flatten_splitInclusive]
    exact List.dropWhile_cons_of_neg (by simpa using hc)

end Laws

/-- A model and an address that one line can carry are read back after they were written, every
line outside the block stays in its place, and what was put at the top of a text can be taken out
again. -/
theorem hermesLaws (text model baseUrl : List Char) : HermesLaws text model baseUrl where
  readsBack hmodel hurl := by
    obtain ⟨before, more, after, hparts⟩ :=
      @modelBlock_upsert text model baseUrl hmodel.2.1 hurl.2.1
    obtain ⟨hdefault, hbase⟩ := field_modelLines hmodel hurl more
    rw [parseModelBlock, hparts]
    refine ⟨_, rfl, ?_, ?_⟩
    · simp only [Json.get_object, List.map_cons, List.map_nil, hdefault]
      rfl
    · simp only [Json.get_object, List.map_cons, List.map_nil, hbase]
      rfl
  idempotent hmodel hurl h := by
    rcases h with rfl | h
    · change upsertModelBlock (buildModelBlock model baseUrl) (buildModelBlock model baseUrl) =
        buildModelBlock model baseUrl
      rw [upsertModelBlock_of_some _ (modelBlock_modelLines hmodel hurl)]
      simp
    · obtain ⟨parts, hparts⟩ := Option.isSome_iff_exists.mp h
      exact upsertModelBlock_idem hmodel hurl hparts
  kept parts h :=
    ⟨(of_modelBlock h).1, splitInclusive_upsert model baseUrl h, splitInclusive_remove h⟩
  keptWhole h := by
    constructor
    · by_cases hne : text = []
      · simp [hne, upsertModelBlock, modelBlock, splitInclusive]
      · rw [splitInclusive_upsert_new model baseUrl h hne, if_neg hne]
        simp
    · rw [removeModelBlock, h]
  removed := removeModelBlock_upsert

/-- A text whose block is taken out also loses the empty lines at its top. -/
theorem removeModelBlock_blank :
    ∃ parts, modelBlock "\nmodel:\n".toList = some parts ∧ parts.before = [['\n']] ∧
      splitInclusive (removeModelBlock "\nmodel:\n".toList) ≠ parts.before ++ parts.after :=
  ⟨⟨[['\n']], ["model:\n".toList], []⟩, by decide, rfl, by decide⟩

end NullRouter.CliTools
