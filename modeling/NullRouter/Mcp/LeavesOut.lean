import NullRouter.Mcp.Filter

/-!
# What the filter leaves out of a message

`services/events-actix/src/mcp/filter.rs:132–196`. A filtered text keeps lines of the text in their
order, and its notices state how many siblings are left out, exactly where every group with a notice
consists of siblings only. A group also takes the lines nested below its siblings, and these are
counted with them.
-/

namespace NullRouter.Mcp

open NullRouter.Base

/-! ## Texts -/

/-- What is written of a text before the notice that it is cut, `filter.rs:144–155`. -/
def shownText (text : List Char) : List Char :=
  if byteSize (collapsed text) ≤ maxText then collapsed text
  else headWithin (maxText - 300) (collapsed text)

/-- How many lines of a collapsed text are shown. The last may be cut. -/
@[irreducible] def shown (text : List Char) : Nat := ((shownText text).splitOn '\n').length

/-- The items that are shown of a text. -/
def shownItems (text : List Char) : List Item :=
  (collapseRepeated (withoutNoise text)).take (shown text)

/-- The lines of a text that items keep. -/
def keptLines (lines : List Line) : List Item → List Line
  | [] => []
  | .kept place :: items => (lines[place]?).toList ++ keptLines lines items
  | .notice _ _ :: items => keptLines lines items

/-- The lines of the notices among items. -/
def noticeLines (lines : List Line) : List Item → List Line
  | [] => []
  | .kept _ :: items => noticeLines lines items
  | .notice key omitted :: items => (Item.notice key omitted).line lines :: noticeLines lines items

/-- A text whose filtered form only leaves lines out: what is kept of it is a subsequence of its
lines, the notices state the numbers of siblings left out, all shown lines but the last are whole,
and it is no longer than the text and the notices. -/
structure LeavesOut (text : List Char) : Prop where
  written : smartFilterText text = shownText text ∨
    ∃ dropped, smartFilterText text = shownText text ++ truncationNotice dropped
  faithful : Faithful (withoutNoise text) 0 (shown text) (collapseRepeated (withoutNoise text))
  subsequence : (keptLines (withoutNoise text) (shownItems text)).Sublist (text.splitOn '\n')
  whole : joinLines (((collapseRepeated (withoutNoise text)).take (shown text - 1)).map
    (Item.line (withoutNoise text))) <+: shownText text
  last : shownText text <+: joinLines ((shownItems text).map (Item.line (withoutNoise text)))
  size : byteSize (shownText text) ≤
    byteSize text + lineBytes (noticeLines (withoutNoise text) (shownItems text))

/-- The groups of a text of which a notice may be shown. -/
def shownGroups (text : List Char) : List Group :=
  groupsFrom (withoutNoise text) 0 0 (shown text) (withoutNoise text)

section Texts

variable {lines : List Line} {items : List Item} {next place skip count budget : Nat} {line : Line}
  {key : Key} {text : List Char}

theorem headWithin_prefix : headWithin budget text <+: text := by
  induction text generalizing budget with
  | nil => exact List.nil_prefix
  | cons c text ih =>
    rw [headWithin]
    split
    · exact List.cons_prefix_cons.mpr ⟨rfl, ih⟩
    · exact List.nil_prefix

theorem shownText_prefix : shownText text <+: collapsed text := by
  rw [shownText]
  split
  · exact List.prefix_refl _
  · exact headWithin_prefix

/-- Lines that are kept in order are a subsequence. -/
theorem sublist_of_faithful (h : Faithful lines next count items) :
    (keptLines lines (items.take count)).Sublist (lines.drop next) := by
  induction items generalizing next count with
  | nil =>
    rw [List.take_nil]
    exact List.nil_sublist _
  | cons item items ih =>
    cases count with
    | zero => exact List.nil_sublist _
    | succ count =>
      cases item with
      | notice key omitted =>
        rw [Faithful] at h
        exact ih h.2
      | kept place =>
        rw [Faithful] at h
        obtain ⟨hle, hlt, hfaithful⟩ := h
        have hdrop := List.drop_eq_getElem_cons hlt
        have hfirst : (lines[place] :: lines.drop (place + 1)).Sublist (lines.drop next) := by
          rw [← hdrop]
          exact List.drop_sublist_drop_left lines hle
        rw [List.take_succ_cons, keptLines, List.getElem?_eq_getElem hlt]
        exact ((ih hfaithful).cons_cons _).trans hfirst

/-- What is shown is what is kept, and notices. -/
theorem lineBytes_of_faithful (h : Faithful lines next count items) :
    lineBytes ((items.take count).map (Item.line lines)) =
      lineBytes (keptLines lines (items.take count)) +
        lineBytes (noticeLines lines (items.take count)) := by
  induction items generalizing next count with
  | nil =>
    rw [List.take_nil]
    rfl
  | cons item items ih =>
    cases count with
    | zero => rfl
    | succ count =>
      rw [List.take_succ_cons, List.map_cons, lineBytes_cons]
      cases item with
      | notice key omitted =>
        rw [Faithful] at h
        rw [ih h.2, keptLines, noticeLines, lineBytes_cons]
        omega
      | kept place =>
        rw [Faithful] at h
        have hline : Item.line lines (.kept place) = lines[place] := by
          rw [Item.line, List.getElem?_eq_getElem h.2.1, Option.getD_some]
        rw [ih h.2.2, keptLines, noticeLines, List.getElem?_eq_getElem h.2.1, Option.toList_some,
          List.singleton_append, lineBytes_cons, hline]
        omega

/-- The key of a line is made of its characters. -/
theorem subset_of_siblingKey (h : siblingKey line = some key) :
    key.indent ⊆ line ∧ key.role ⊆ line := by
  rw [siblingKey] at h
  split at h
  · next rest hrest =>
    simp only at h
    split at h
    · cases h
    · obtain rfl := Option.some.inj h
      have hafter : '-' :: rest <:+ line := hrest ▸ List.dropWhile_suffix _
      constructor
      · exact (List.takeWhile_prefix _).subset
      · intro c hc
        exact hafter.subset (List.mem_cons_of_mem _
          ((List.dropWhile_suffix _).subset ((List.takeWhile_prefix _).subset hc)))
  · cases h

theorem mem_groupItems {stop : Nat} {item : Item} (h : item ∈ groupItems lines place stop key) :
    (∃ i, item = .kept i) ∨ ∃ omitted, item = .notice key omitted := by
  have hkept : ∀ {start stop}, item ∈ keptRange start stop → ∃ i, item = .kept i := by
    intro start stop hmem
    obtain ⟨i, -, rfl⟩ := List.mem_map.mp hmem
    exact ⟨i, rfl⟩
  rw [groupItems] at h
  split at h
  · rcases List.mem_append.mp h with h | h
    · exact .inl (hkept h)
    · rcases List.mem_cons.mp h with rfl | h
      · exact .inr ⟨_, rfl⟩
      · exact .inl (hkept h)
  · exact .inl (hkept h)

/-- A notice is about a line. -/
theorem key_of_mem_collapseFrom {rest : List Line} {omitted : Nat}
    (h : .notice key omitted ∈ collapseFrom lines place skip rest) :
    ∃ line ∈ rest, siblingKey line = some key := by
  induction rest generalizing place skip with
  | nil => cases h
  | cons line rest ih =>
    have hlater : ∀ {place skip}, .notice key omitted ∈ collapseFrom lines place skip rest →
        ∃ other ∈ line :: rest, siblingKey other = some key := by
      intro place skip hmem
      obtain ⟨other, hother, hkey⟩ := ih hmem
      exact ⟨other, List.mem_cons_of_mem _ hother, hkey⟩
    cases skip with
    | succ skip => exact hlater h
    | zero =>
      rw [collapseFrom] at h
      cases hkey : siblingKey line with
      | none =>
        simp only [hkey] at h
        rcases List.mem_cons.mp h with h | h
        · cases h
        · exact hlater h
      | some first =>
        simp only [hkey] at h
        rcases List.mem_append.mp h with h | h
        · rcases mem_groupItems h with ⟨i, hi⟩ | ⟨_, hnotice⟩
          · cases hi
          · obtain ⟨rfl, -⟩ := Item.notice.inj hnotice
            exact ⟨line, List.mem_cons_self, hkey⟩
        · exact hlater h

/-- No line that is written holds a line feed. -/
theorem not_mem_line (hlines : ∀ line ∈ lines, '\n' ∉ line) {item : Item}
    (h : item ∈ collapseRepeated lines) : '\n' ∉ item.line lines := by
  cases item with
  | kept place =>
    rw [Item.line]
    cases hline : lines[place]? with
    | none => exact List.not_mem_nil
    | some line => exact hlines line (List.mem_of_getElem? hline)
  | notice key omitted =>
    obtain ⟨line, hline, hkey⟩ := key_of_mem_collapseFrom h
    obtain ⟨hindent, hrole⟩ := subset_of_siblingKey hkey
    have hdigits : '\n' ∉ (toString omitted).toList := by
      intro hmem
      rw [Nat.toString_eq_repr, Nat.toList_repr] at hmem
      exact absurd (Nat.isDigit_of_mem_toDigits (by decide) (by decide) hmem) (by decide)
    rw [Item.line]
    simp only [List.mem_append, String.toList_append]
    rintro (((h | ((h | h) | h)) | h) | h)
    · exact hlines line hline (hindent h)
    · revert h
      decide
    · exact hdigits h
    · revert h
      decide
    · exact hlines line hline (hrole h)
    · revert h
      decide

theorem withoutNoise_sublist : (withoutNoise text).Sublist (text.splitOn '\n') :=
  List.filter_sublist

/-- The filtered form of a text only leaves lines out exactly where the groups with a notice consist
of siblings. -/
theorem leavesOut_iff (hfloor : filterFloor ≤ byteSize text) :
    LeavesOut text ↔ ∀ group ∈ shownGroups text, Uniform (withoutNoise text) group := by
  rw [shownGroups, ← faithful_collapseRepeated]
  constructor
  · exact fun h ↦ h.faithful
  · intro h
    have hlines : ∀ line ∈ withoutNoise text, '\n' ∉ line := fun line hline ↦
      not_mem_of_mem_splitOn (withoutNoise_sublist.subset hline)
    have hwritten : ∀ line ∈ (collapseRepeated (withoutNoise text)).map
        (Item.line (withoutNoise text)), '\n' ∉ line := by
      rw [List.forall_mem_map]
      exact fun item hitem ↦ not_mem_line hlines hitem
    obtain ⟨hwhole, hlast⟩ := prefix_joinLines hwritten shownText_prefix
    rw [← List.map_take, ← shown] at hwhole
    rw [← List.map_take, ← shown, ← shownItems] at hlast
    have hkept : (keptLines (withoutNoise text) (shownItems text)).Sublist (text.splitOn '\n') :=
      (sublist_of_faithful h).trans withoutNoise_sublist
    refine ⟨?_, h, hkept, hwhole, hlast, ?_⟩
    · rw [smartFilterText, if_neg (Nat.not_lt.mpr hfloor), shownText]
      split
      · exact .inl rfl
      · exact .inr ⟨_, rfl⟩
    · have hbytes := byteSize_le_of_prefix hlast
      have htext : byteSize text = lineBytes (text.splitOn '\n') - 1 := by
        rw [← byteSize_joinLines, joinLines, List.intercalate_splitOn]
      have hsum := lineBytes_of_faithful h
      have hle := lineBytes_le_of_sublist hkept
      rw [← shownItems] at hsum
      rw [byteSize_joinLines, hsum] at hbytes
      omega

end Texts

/-! ## Messages -/

/-- The texts of a message's content that are filtered. -/
def contentTexts (message : Json) : List String := ((content? message).getD []).filterMap itemText

/-- An entry of the content without its text. -/
def blankText (item : Json) : Json :=
  if (itemText item).isSome then item.setField "text" (.str "") else item

/-- A message without the texts of its content. -/
def blankTexts (message : Json) : Json :=
  match content? message with
  | some items => setContent message (items.map blankText)
  | none => message

section Messages

variable {message item : Json} {items entries : List Json} {text : String}

private theorem isSome_asObject_of_get {v x : Json} {key : String} (h : v.get key = some x) :
    v.asObject.isSome = true := by
  cases v with
  | obj fields => rfl
  | _ => cases h

/-- An entry with a text is an object. -/
theorem get_text_of_itemText (h : itemText item = some text) :
    item.strField "type" = some "text" ∧ item.get "text" = some (.str text) := by
  rw [itemText] at h
  split at h
  · next htype =>
    obtain ⟨value, hvalue, htext⟩ := Option.bind_eq_some_iff.mp h
    cases value with
    | str s => exact ⟨htype, by rw [hvalue, Option.some.inj htext]⟩
    | _ => cases htext
  · cases h

/-- An entry whose text is set has that text. -/
theorem itemText_setField (h : (itemText item).isSome = true) :
    itemText (item.setField "text" (.str text)) = some text := by
  obtain ⟨old, hold⟩ := Option.isSome_iff_exists.mp h
  obtain ⟨htype, hget⟩ := get_text_of_itemText hold
  have hobject := isSome_asObject_of_get hget
  have hkept : (item.setField "text" (.str text)).strField "type" = some "text" := by
    rw [Json.strField, Json.get_setField_of_ne (by decide), ← Json.strField, htype]
  rw [itemText, if_pos hkept, Json.strField, Json.get_setField_self hobject]
  rfl

theorem itemText_filterItem :
    itemText (filterItem item) =
      (itemText item).map fun text ↦ String.ofList (smartFilterText text.toList) := by
  rw [filterItem]
  cases htext : itemText item with
  | none => exact htext
  | some text =>
    simp only
    split
    · exact itemText_setField (by rw [htext]; rfl)
    · next hsame =>
      rw [isChanged, htext, Option.any_some, decide_eq_true_eq, not_not] at hsame
      rw [htext, Option.map_some, hsame, String.ofList_toList]

theorem blankText_filterItem : blankText (filterItem item) = blankText item := by
  have hsome : (itemText (filterItem item)).isSome = (itemText item).isSome := by
    rw [itemText_filterItem, Option.isSome_map]
  rw [blankText, blankText, hsome]
  split
  · next htext =>
    obtain ⟨text, htext⟩ := Option.isSome_iff_exists.mp htext
    rw [filterItem, htext]
    simp only
    split
    · exact Json.setField_setField ..
    · rfl
  · next hnone =>
    rw [filterItem, Option.not_isSome_iff_eq_none.mp hnone]

private theorem exists_result (h : content? message = some items) :
    ∃ result, message.get "result" = some result ∧
      (result.get "content").bind Json.asArray = some items := by
  obtain ⟨content, hcontent, harray⟩ := Option.bind_eq_some_iff.mp h
  obtain ⟨result, hresult, hget⟩ := Option.bind_eq_some_iff.mp hcontent
  exact ⟨result, hresult, by rw [hget]; exact harray⟩

/-- The content that is set is read back. -/
theorem content_setContent (h : content? message = some items) :
    content? (setContent message entries) = some entries := by
  obtain ⟨result, hresult, hitems⟩ := exists_result h
  rw [setContent, hresult, content?, Json.get_setField_self (isSome_asObject_of_get hresult)]
  obtain ⟨content, hcontent, -⟩ := Option.bind_eq_some_iff.mp hitems
  rw [Option.bind_some, Json.get_setField_self (isSome_asObject_of_get hcontent)]
  rfl

theorem setContent_setContent (h : content? message = some items) (first last : List Json) :
    setContent (setContent message first) last = setContent message last := by
  obtain ⟨result, hresult, -⟩ := exists_result h
  have hset : setContent message first =
      message.setField "result" (result.setField "content" (.arr first)) := by
    rw [setContent, hresult]
  rw [hset, setContent, Json.get_setField_self (isSome_asObject_of_get hresult), setContent,
    hresult]
  simp only
  rw [Json.setField_setField, Json.setField_setField]

/-- A message with the filtered entries differs in their texts only. -/
theorem blankTexts_setContent (h : content? message = some items) :
    blankTexts (setContent message (items.map filterItem)) = blankTexts message := by
  have hblank : (items.map filterItem).map blankText = items.map blankText := by
    rw [List.map_map]
    exact List.map_congr_left fun item _ ↦ blankText_filterItem
  rw [blankTexts, content_setContent h, blankTexts, h]
  simp only
  rw [hblank, setContent_setContent h]

theorem contentTexts_setContent (h : content? message = some items) :
    contentTexts (setContent message (items.map filterItem)) =
      (contentTexts message).map fun text ↦ String.ofList (smartFilterText text.toList) := by
  rw [contentTexts, contentTexts, content_setContent h, h, Option.getD_some, Option.getD_some,
    List.filterMap_map, List.map_filterMap]
  exact List.filterMap_congr fun item _ ↦ itemText_filterItem

/-- Where no entry is changed, no text is. -/
theorem smartFilterText_of_unchanged (h : content? message = some items)
    (hsame : items.any isChanged = false) :
    (contentTexts message).map (fun text ↦ String.ofList (smartFilterText text.toList)) =
      contentTexts message := by
  rw [contentTexts, h, Option.getD_some]
  conv_rhs => rw [← List.map_id (items.filterMap itemText)]
  apply List.map_congr_left
  intro text hmem
  obtain ⟨item, hitem, htext⟩ := List.mem_filterMap.mp hmem
  have hitemSame := List.any_eq_false.mp hsame item hitem
  rw [isChanged, htext, Option.any_some, decide_eq_true_eq, not_not] at hitemSame
  rw [hitemSame, String.ofList_toList]
  rfl

/-- The line that leaves the filter is read as the message with its texts filtered. -/
theorem read_frame {read : List Char → Option Json} {print : Json → Option (List Char)}
    {line : Line}
    (hread : read line = some message)
    (hprint : ∀ items, content? message = some items →
      ∃ out, print (setContent message (items.map filterItem)) = some out ∧
        read out = some (setContent message (items.map filterItem))) :
    ∃ filtered, read (frame read print line) = some filtered ∧
      blankTexts filtered = blankTexts message ∧
        contentTexts filtered =
          (contentTexts message).map fun text ↦ String.ofList (smartFilterText text.toList) := by
  rw [frame, hread]
  simp only
  cases h : content? message with
  | none =>
    refine ⟨message, hread, rfl, ?_⟩
    rw [contentTexts, h]
    rfl
  | some items =>
    simp only
    split
    · obtain ⟨out, hout, hback⟩ := hprint items h
      rw [hout, Option.getD_some]
      exact ⟨_, hback, blankTexts_setContent h, contentTexts_setContent h⟩
    · next hsame =>
      rw [Bool.not_eq_true] at hsame
      exact ⟨message, hread, rfl, (smartFilterText_of_unchanged h hsame).symm⟩

/-- A text whose filtered form is the text itself, or only leaves lines out of it. -/
def Keeps (text : List Char) : Prop :=
  if byteSize text < filterFloor then smartFilterText text = text else LeavesOut text

/-- The groups of which a notice may be shown, all of whose lines are siblings. -/
def Regular (text : List Char) : Prop :=
  byteSize text < filterFloor ∨ ∀ group ∈ shownGroups text, Uniform (withoutNoise text) group

theorem keeps_iff {text : List Char} : Keeps text ↔ Regular text := by
  rw [Keeps, Regular]
  split
  · next hshort =>
    rw [smartFilterText, if_pos hshort]
    exact iff_of_true rfl (.inl hshort)
  · next hlong =>
    rw [leavesOut_iff (Nat.le_of_not_lt hlong)]
    exact (or_iff_right hlong).symm

/-- The filtered line is read as the same message but for the texts of its content, which are
filtered and only leave lines out. -/
def LeavesLinesOut (read : List Char → Option Json) (print : Json → Option (List Char))
    (line : Line) (message : Json) : Prop :=
  ∃ filtered, read (frame read print line) = some filtered ∧
    blankTexts filtered = blankTexts message ∧
    contentTexts filtered =
      (contentTexts message).map (fun text ↦ String.ofList (smartFilterText text.toList)) ∧
    ∀ text ∈ contentTexts message, Keeps text.toList

end Messages

/-- A result with a text. -/
private def resultWith (text : List Char) : Json :=
  .obj [("result", .obj [("content",
    .arr [.obj [("text", .str (String.ofList text)), ("type", .str "text")]])])]

/-- The line of a result with a text. -/
private def lineWith (text : List Char) : Line :=
  "\x7b\"result\":\x7b\"content\":[\x7b\"text\":\"".toList ++
    text.flatMap (fun c ↦ if c = '\n' then ['\\', 'n'] else [c]) ++
      "\",\"type\":\"text\"\x7d]\x7d\x7d".toList

private theorem not_leavesLinesOut {read : List Char → Option Json}
    {print : Json → Option (List Char)} {line : Line} {text : List Char} (h : ¬ Regular text) :
    ¬ LeavesLinesOut read print line (resultWith text) := by
  rintro ⟨-, -, -, -, hkeeps⟩
  have htexts : contentTexts (resultWith text) = [String.ofList text] := rfl
  rw [htexts, List.forall_mem_singleton, String.toList_ofList] at hkeeps
  exact h (keeps_iff.mp hkeeps)

/-- A list of one entry with thirty lines below it, and a line after the list. -/
private def nested : List Char :=
  "- list".toList ++ (List.replicate 30 ('\n' :: ' ' :: List.replicate 17 '🦀')).flatten ++
    "\nafter".toList

end NullRouter.Mcp
