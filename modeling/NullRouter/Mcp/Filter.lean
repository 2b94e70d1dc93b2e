import NullRouter.Base.Json
import NullRouter.Base.Lines

/-!
# Filtering tool results

`services/events-actix/src/mcp/filter.rs`: the texts of a tool result without their noise lines,
with long groups of similar lines collapsed, and cut at a size. What the filter keeps is modelled by
the places of the lines, which shows which of them are left out. Reading and printing JSON are
parameters.
-/

namespace NullRouter.Mcp

open NullRouter.Base

/-- A line of a text. -/
abbrev Line : Type := List Char

/-- `FILTER_FLOOR_CHARS`, `filter.rs:16`. -/
def filterFloor : Nat := 2000

/-- `MAX_TEXT_CHARS`, `filter.rs:18`. -/
def maxText : Nat := 50000

/-- `COLLAPSE_THRESHOLD`, `filter.rs:20`. -/
def collapseThreshold : Nat := 30

/-- `COLLAPSE_KEEP_HEAD`, `filter.rs:22`. -/
def collapseKeepHead : Nat := 10

/-- `COLLAPSE_KEEP_TAIL`, `filter.rs:24`. -/
def collapseKeepTail : Nat := 5

/-- The indent and the role of a list line. -/
structure Key where
  indent : List Char
  role : List Char
  deriving DecidableEq

/-- `sibling_key`, `filter.rs:27`. -/
def siblingKey (line : Line) : Option Key :=
  let indent := line.takeWhile isWhitespace
  match line.dropWhile isWhitespace with
  | '-' :: rest =>
    let role := (rest.dropWhile isWhitespace).takeWhile Char.isAlpha
    if role = [] then none else some ⟨indent, role⟩
  | _ => none

/-- `is_continuation`, `filter.rs:41`. -/
def isContinuation (line indent : List Char) : Bool :=
  (indent ++ [' ']).isPrefixOf line || (indent ++ ['\t']).isPrefixOf line

/-- Whether a line belongs to a group, `filter.rs:63–72`. -/
def belongs (key : Key) (line : Line) : Bool :=
  siblingKey line = some key || isContinuation line key.indent

/-- Whether a sibling of a key stands at a place. -/
def isSibling (lines : List Line) (key : Key) (place : Nat) : Bool :=
  (lines[place]?).bind siblingKey = some key

/-- The places of the siblings of a key. -/
def siblings (lines : List Line) (key : Key) : List Nat :=
  (List.range lines.length).filter (isSibling lines key)

/-- `nth_sibling_end`, `filter.rs:106`: the place of the sibling after the first `n` from a start
on. -/
def nthSiblingEnd (lines : List Line) (start : Nat) (key : Key) (n : Nat) : Nat :=
  (((siblings lines key).filter (start ≤ ·))[n]?).getD lines.length

/-- `last_n_sibling_start`, `filter.rs:120`: the place of the `n`th sibling before an end, counted
from there. -/
def lastNSiblingStart (lines : List Line) (stop : Nat) (key : Key) (n : Nat) : Nat :=
  let positions := (siblings lines key).filter (· < stop)
  if positions.length > n then (positions[positions.length - n]?).getD stop else stop

/-- What a collapsed text is made of: lines by their places, and notices. -/
inductive Item where
  | kept (place : Nat)
  | notice (key : Key) (omitted : Nat)
  deriving DecidableEq

/-- The lines from a place to another. -/
def keptRange (start stop : Nat) : List Item := (List.range' start (stop - start)).map .kept

/-- What is kept of a group, `filter.rs:74–98`. -/
def groupItems (lines : List Line) (start stop : Nat) (key : Key) : List Item :=
  if collapseThreshold ≤ stop - start then
    keptRange start (nthSiblingEnd lines start key collapseKeepHead) ++
      .notice key (stop - start - collapseKeepHead - collapseKeepTail) ::
        keptRange (lastNSiblingStart lines stop key collapseKeepTail) stop
  else keptRange start stop

/-- The loop of `collapse_repeated`, `filter.rs:51`, at a place; `skip` lines have been taken with
the group before. -/
def collapseFrom (lines : List Line) : (place skip : Nat) → List Line → List Item
  | _, _, [] => []
  | place, skip + 1, _ :: rest => collapseFrom lines (place + 1) skip rest
  | place, 0, line :: rest =>
    match siblingKey line with
    | none => .kept place :: collapseFrom lines (place + 1) 0 rest
    | some key =>
      let group := (line :: rest).takeWhile (belongs key)
      groupItems lines place (place + group.length) key ++
        collapseFrom lines (place + 1) (group.length - 1) rest

/-- What `collapse_repeated`, `filter.rs:46`, keeps of some lines. -/
def collapseRepeated (lines : List Line) : List Item := collapseFrom lines 0 0 lines

/-- The line that is written for an item. -/
def Item.line (lines : List Line) : Item → Line
  | kept place => (lines[place]?).getD []
  | notice key omitted =>
    key.indent ++ ("... [" ++ toString omitted ++ " similar \"").toList ++ key.role ++
      "\" items omitted by the nullrouter MCP bridge]".toList

/-- Lines that say nothing, `filter.rs:143`. -/
def isNoise (line : Line) : Bool :=
  trimChars line ∈ ["- generic".toList, "- generic:".toList, "- text: \"\"".toList]

/-- The lines of a text that are not noise, `filter.rs:139–147`. -/
def withoutNoise (text : List Char) : List Line := (text.splitOn '\n').filter (!isNoise ·)

/-- The longest front of a text within a number of bytes, `filter.rs:155–159`. -/
def headWithin : Nat → List Char → List Char
  | _, [] => []
  | budget, c :: text =>
    if c.utf8Size ≤ budget then c :: headWithin (budget - c.utf8Size) text else []

/-- The notice after a text that is cut, `filter.rs:161`. -/
def truncationNotice (dropped : Nat) : List Char :=
  ("\n\n... [truncated " ++ toString dropped ++
    " chars by the nullrouter MCP bridge. The result " ++ "is large; narrow it down or act on one of the refs shown above]").toList

/-- The lines of a text that the groups are sought in, and what is kept of them. -/
def collapsed (text : List Char) : List Char :=
  joinLines ((collapseRepeated (withoutNoise text)).map (Item.line (withoutNoise text)))

/-- `smart_filter_text`, `filter.rs:133`. -/
def smartFilterText (text : List Char) : List Char :=
  if byteSize text < filterFloor then text
  else if byteSize (collapsed text) ≤ maxText then collapsed text
  else
    let head := headWithin (maxText - 300) (collapsed text)
    head ++ truncationNotice (byteSize text - byteSize head)

/-- The text of an entry that is filtered, `filter.rs:181–186`. -/
def itemText (item : Json) : Option String :=
  if item.strField "type" = some "text" then item.strField "text" else none

/-- Whether an entry is changed, `filter.rs:188`. -/
def isChanged (item : Json) : Bool :=
  (itemText item).any fun text ↦ smartFilterText text.toList ≠ text.toList

/-- An entry of the content, `filter.rs:180–192`. -/
def filterItem (item : Json) : Json :=
  match itemText item with
  | some text =>
    if isChanged item then
      item.setField "text" (.str (String.ofList (smartFilterText text.toList)))
    else item
  | none => item

/-- The content of a message, `filter.rs:171–175`. -/
def content? (message : Json) : Option (List Json) :=
  ((message.get "result").bind (·.get "content")).bind Json.asArray

/-- A message with other content. -/
def setContent (message : Json) (items : List Json) : Json :=
  match message.get "result" with
  | some result => message.setField "result" (result.setField "content" (.arr items))
  | none => message

/-- `frame`, `filter.rs:168`. -/
def frame (read : List Char → Option Json) (print : Json → Option (List Char)) (line : Line) :
    Line :=
  match read line with
  | none => line
  | some message =>
    match content? message with
    | none => line
    | some items =>
      if items.any isChanged then
        (print (setContent message (items.map filterItem))).getD line
      else line

/-! ## What the filter leaves out -/

/-- The place of the first line that is kept. -/
def firstPlace : List Item → Option Nat
  | [] => none
  | .kept place :: _ => some place
  | .notice _ _ :: items => firstPlace items

/-- The siblings of a key among the lines from a place to another. -/
def siblingsBetween (lines : List Line) (key : Key) (start stop : Nat) : Nat :=
  (List.range' start (stop - start)).countP (isSibling lines key)

/-- Items of which the first `shown` keep lines from a place on, each once and in their order, where
every notice states the number of siblings among the lines that are left out at its place. -/
def Faithful (lines : List Line) : (next shown : Nat) → List Item → Prop
  | _, 0, _ => True
  | _, _ + 1, [] => True
  | next, shown + 1, .kept place :: items =>
    next ≤ place ∧ place < lines.length ∧ Faithful lines (place + 1) shown items
  | next, shown + 1, .notice key omitted :: items =>
    omitted = siblingsBetween lines key next ((firstPlace items).getD lines.length) ∧
      Faithful lines next shown items

/-- A group of lines: its place, its end and its key. -/
abbrev Group : Type := Nat × Nat × Key

/-- The groups that the loop finds whose notice, when they are collapsed, is one of the first
`shown` lines that it writes. -/
def groupsFrom (lines : List Line) : (place skip shown : Nat) → List Line → List Group
  | _, _, _, [] => []
  | place, skip + 1, shown, _ :: rest => groupsFrom lines (place + 1) skip shown rest
  | place, 0, shown, line :: rest =>
    match siblingKey line with
    | none => groupsFrom lines (place + 1) 0 (shown - 1) rest
    | some key =>
      let group := (line :: rest).takeWhile (belongs key)
      let stop := place + group.length
      let others := groupsFrom lines (place + 1) (group.length - 1)
        (shown - (groupItems lines place stop key).length) rest
      if nthSiblingEnd lines place key collapseKeepHead - place < shown then
        (place, stop, key) :: others
      else others

/-- A group that is not collapsed, or all of whose lines are siblings. -/
def Uniform (lines : List Line) (group : Group) : Prop :=
  group.2.1 - group.1 < collapseThreshold ∨
    ∀ place, group.1 ≤ place → place < group.2.1 → isSibling lines group.2.2 place = true

/-! ## Counting siblings -/

section Siblings

variable {lines : List Line} {key : Key} {start middle stop place n : Nat}

private theorem countP_of_getElem?_filter {p : Nat → Bool} {k m : Nat}
    (h : ((List.range' start m).filter p)[k]? = some place) :
    start ≤ place ∧ place < start + m ∧ (List.range' start (place - start)).countP p = k := by
  induction m generalizing start k with
  | zero => simp at h
  | succ m ih =>
    rw [List.range'_succ] at h
    cases hp : p start with
    | false =>
      rw [List.filter_cons_of_neg (by simp [hp])] at h
      obtain ⟨hle, hlt, hcount⟩ := ih h
      have hfirst : place - start = (place - (start + 1)) + 1 := by omega
      refine ⟨by omega, by omega, ?_⟩
      rw [hfirst, List.range'_succ, List.countP_cons_of_neg (by simp [hp]), hcount]
    | true =>
      rw [List.filter_cons_of_pos hp] at h
      cases k with
      | zero =>
        obtain rfl := Option.some.inj h
        simp
      | succ k =>
        obtain ⟨hle, hlt, hcount⟩ := ih h
        have hfirst : place - start = (place - (start + 1)) + 1 := by omega
        refine ⟨by omega, by omega, ?_⟩
        rw [hfirst, List.range'_succ, List.countP_cons_of_pos hp, hcount]

theorem siblingsBetween_add (lines : List Line) (key : Key) (hle : start ≤ middle) (hle' : middle ≤ stop) :
    siblingsBetween lines key start middle + siblingsBetween lines key middle stop =
      siblingsBetween lines key start stop := by
  have hsplit : List.range' start (stop - start) =
      List.range' start (middle - start) ++ List.range' middle (stop - middle) := by
    have happend := @List.range'_append start (middle - start) (stop - middle) 1
    rw [Nat.one_mul, Nat.add_sub_cancel' hle] at happend
    rw [happend]
    congr 1
    omega
  rw [siblingsBetween, siblingsBetween, siblingsBetween, hsplit, List.countP_append]

theorem siblingsBetween_le (lines : List Line) (key : Key) (start stop : Nat) : siblingsBetween lines key start stop ≤ stop - start := by
  have hle := @List.countP_le_length _ (isSibling lines key) (List.range' start (stop - start))
  rwa [List.length_range'] at hle

/-- All lines are siblings where there are as many. -/
theorem siblingsBetween_eq_iff : siblingsBetween lines key start stop = stop - start ↔
    ∀ place, start ≤ place → place < stop → isSibling lines key place = true := by
  have hall := List.countP_eq_length (p := isSibling lines key)
    (l := List.range' start (stop - start))
  rw [List.length_range'] at hall
  rw [siblingsBetween, hall]
  constructor
  · intro h place hle hlt
    exact h place (List.mem_range'_1.mpr ⟨hle, by omega⟩)
  · intro h place hmem
    obtain ⟨hle, hlt⟩ := List.mem_range'_1.mp hmem
    exact h place hle (by omega)

/-- The siblings from a place on, and those before one. -/
theorem siblings_from (hle : start ≤ lines.length) : (siblings lines key).filter (start ≤ ·) =
    (List.range' start (lines.length - start)).filter (isSibling lines key) := by
  have hsplit : List.range lines.length =
      List.range' 0 start ++ List.range' start (lines.length - start) := by
    have happend := @List.range'_append 0 start (lines.length - start) 1
    rw [Nat.one_mul, Nat.zero_add, Nat.add_sub_cancel' hle] at happend
    rw [happend, List.range_eq_range']
  have hbefore : ((List.range' 0 start).filter (isSibling lines key)).filter (start ≤ ·) = [] := by
    rw [List.filter_eq_nil_iff]
    intro i hi
    have hlt := (List.mem_range'_1.mp (List.mem_filter.mp hi).1).2
    simpa using hlt
  rw [siblings, hsplit, List.filter_append, List.filter_append, hbefore, List.nil_append,
    List.filter_eq_self]
  intro i hi
  simpa using (List.mem_range'_1.mp (List.mem_filter.mp hi).1).1

theorem siblings_before (hle : stop ≤ lines.length) : (siblings lines key).filter (· < stop) =
    (List.range' 0 stop).filter (isSibling lines key) := by
  have hsplit : List.range lines.length =
      List.range' 0 stop ++ List.range' stop (lines.length - stop) := by
    have happend := @List.range'_append 0 stop (lines.length - stop) 1
    rw [Nat.one_mul, Nat.zero_add, Nat.add_sub_cancel' hle] at happend
    rw [happend, List.range_eq_range']
  have hafter : ((List.range' stop (lines.length - stop)).filter
      (isSibling lines key)).filter (· < stop) = [] := by
    rw [List.filter_eq_nil_iff]
    intro i hi
    have hle := (List.mem_range'_1.mp (List.mem_filter.mp hi).1).1
    simpa using hle
  rw [siblings, hsplit, List.filter_append, List.filter_append, hafter, List.append_nil,
    List.filter_eq_self]
  intro i hi
  simpa using (List.mem_range'_1.mp (List.mem_filter.mp hi).1).2

/-- The end of the first siblings: there are so many before it, or it is the end of the lines. -/
theorem nthSiblingEnd_spec (key : Key) (n : Nat) (hle : start ≤ lines.length) :
    start ≤ nthSiblingEnd lines start key n ∧ nthSiblingEnd lines start key n ≤ lines.length ∧
      (siblingsBetween lines key start (nthSiblingEnd lines start key n) = n ∨
        nthSiblingEnd lines start key n = lines.length ∧
          siblingsBetween lines key start lines.length ≤ n) := by
  rw [nthSiblingEnd, siblings_from hle]
  cases h : ((List.range' start (lines.length - start)).filter (isSibling lines key))[n]? with
  | some place =>
    obtain ⟨hstart, hlt, hcount⟩ := countP_of_getElem?_filter h
    exact ⟨hstart, by rw [Option.getD_some]; omega, .inl hcount⟩
  | none =>
    rw [List.getElem?_eq_none_iff, ← List.countP_eq_length_filter] at h
    exact ⟨hle, Nat.le_refl _, .inr ⟨rfl, h⟩⟩

/-- The start of the last siblings: there are so many after it, or it is the end and there are no
more in all. -/
theorem lastNSiblingStart_spec (key : Key) (n : Nat) (hle : stop ≤ lines.length) :
    (lastNSiblingStart lines stop key n ≤ stop ∧
      siblingsBetween lines key (lastNSiblingStart lines stop key n) stop = n) ∨
    (lastNSiblingStart lines stop key n = stop ∧ siblingsBetween lines key 0 stop ≤ n) := by
  have htotal : ((List.range' 0 stop).filter (isSibling lines key)).length =
      siblingsBetween lines key 0 stop := by
    rw [← List.countP_eq_length_filter, siblingsBetween, Nat.sub_zero]
  rw [lastNSiblingStart, siblings_before hle]
  simp only [htotal]
  split
  · next hmore =>
    left
    cases h : ((List.range' 0 stop).filter (isSibling lines key))[
        siblingsBetween lines key 0 stop - n]? with
    | some place =>
      obtain ⟨-, hlt, hcount⟩ := countP_of_getElem?_filter h
      rw [Option.getD_some]
      have hadd := siblingsBetween_add lines key (Nat.zero_le place)
        (show place ≤ stop by omega)
      have hbefore : siblingsBetween lines key 0 place = siblingsBetween lines key 0 stop - n :=
        hcount
      omega
    | none =>
      rw [List.getElem?_eq_none_iff, htotal] at h
      rw [Option.getD_none]
      have hself : siblingsBetween lines key stop stop = 0 := by simp [siblingsBetween]
      omega
  · next hfew => exact .inr ⟨rfl, by omega⟩

/-- Some of the lines that are all siblings. -/
theorem siblingsBetween_of_all
    (h : ∀ place, start ≤ place → place < stop → isSibling lines key place = true)
    (hfrom : start ≤ middle) (hto : place ≤ stop) :
    siblingsBetween lines key middle place = place - middle := by
  rw [siblingsBetween_eq_iff]
  intro i hle hlt
  exact h i (by omega) (by omega)

/-- Where all lines are siblings the first of them end where they should. -/
theorem nthSiblingEnd_of_all
    (h : ∀ place, start ≤ place → place < stop → isSibling lines key place = true)
    (hlength : stop ≤ lines.length) (hn : n < stop - start) :
    nthSiblingEnd lines start key n = start + n := by
  obtain ⟨hle, hend, hcount⟩ := nthSiblingEnd_spec key n
    (show start ≤ lines.length by omega)
  generalize nthSiblingEnd lines start key n = head at *
  have hall := siblingsBetween_of_all h (Nat.le_refl start) (Nat.le_refl stop)
  have hstop : head ≤ stop := by
    by_contra hgt
    have hadd := siblingsBetween_add lines key (show start ≤ stop by omega)
      (show stop ≤ head by omega)
    rcases hcount with hcount | ⟨rfl, hcount⟩
    · omega
    · omega
  have hbetween := siblingsBetween_of_all h (Nat.le_refl start) hstop
  rcases hcount with hcount | ⟨rfl, hcount⟩
  · omega
  · obtain rfl : lines.length = stop := by omega
    omega

/-- And the last of them start where they should. -/
theorem lastNSiblingStart_of_all
    (h : ∀ place, start ≤ place → place < stop → isSibling lines key place = true)
    (hlength : stop ≤ lines.length) (hn : n < stop - start) :
    lastNSiblingStart lines stop key n = stop - n := by
  have hspec := lastNSiblingStart_spec key n hlength
  generalize lastNSiblingStart lines stop key n = tail at *
  have hall := siblingsBetween_of_all h (Nat.le_refl start) (Nat.le_refl stop)
  rcases hspec with ⟨hle, hcount⟩ | ⟨rfl, hfew⟩
  · have hstart : start ≤ tail := by
      by_contra hlt
      have hadd := siblingsBetween_add lines key (show tail ≤ start by omega)
        (show start ≤ stop by omega)
      omega
    have hbetween := siblingsBetween_of_all h hstart (Nat.le_refl stop)
    omega
  · have hadd := siblingsBetween_add lines key (Nat.zero_le start)
      (show start ≤ tail by omega)
    omega

end Siblings

/-! ## Groups -/

section Groups

variable {lines rest : List Line} {key : Key} {start stop place next skip shown : Nat}
  {items : List Item} {line : Line}

private theorem keptRange_cons (hlt : start < stop) :
    keptRange start stop = .kept start :: keptRange (start + 1) stop := by
  obtain ⟨n, hn⟩ := Nat.exists_eq_add_of_lt hlt
  rw [keptRange, keptRange, show stop - start = n + 1 by omega, List.range'_succ,
    show stop - (start + 1) = n by omega]
  rfl

theorem length_keptRange : (keptRange start stop).length = stop - start := by
  rw [keptRange, List.length_map, List.length_range']

/-- Lines that follow what is kept already. -/
theorem faithful_keptRange (hle : start ≤ stop) (hlength : stop ≤ lines.length) :
    Faithful lines start shown (keptRange start stop ++ items) ↔
      Faithful lines stop (shown - (stop - start)) items := by
  induction hn : stop - start generalizing start shown with
  | zero =>
    obtain rfl : start = stop := by omega
    simp [keptRange]
  | succ n ih =>
    cases shown with
    | zero =>
      rw [Nat.zero_sub]
      simp only [Faithful]
    | succ shown =>
      rw [keptRange_cons (by omega), List.cons_append, Faithful, ih (by omega) (by omega)]
      rw [Nat.add_sub_add_right]
      exact ⟨fun h ↦ h.2.2, fun h ↦ ⟨Nat.le_refl _, by omega, h⟩⟩

/-- Lines that need not follow at once. -/
theorem faithful_keptRange_of_le (hnext : next ≤ start) (hlt : start < stop)
    (hlength : stop ≤ lines.length) :
    Faithful lines next shown (keptRange start stop ++ items) ↔
      Faithful lines stop (shown - (stop - start)) items := by
  cases shown with
  | zero =>
    rw [Nat.zero_sub]
    simp only [Faithful]
  | succ shown =>
    rw [keptRange_cons hlt, List.cons_append, Faithful, faithful_keptRange hlt hlength,
      show shown + 1 - (stop - start) = shown - (stop - (start + 1)) by omega]
    exact ⟨fun h ↦ h.2.2, fun h ↦ ⟨hnext, by omega, h⟩⟩

theorem firstPlace_keptRange (hlt : start < stop) :
    firstPlace (keptRange start stop ++ items) = some start := by
  rw [keptRange_cons hlt]
  rfl

theorem keptRange_eq_nil (hle : stop ≤ start) : keptRange start stop = [] := by
  rw [keptRange, Nat.sub_eq_zero_of_le hle]
  rfl

/-- The first line of a group is kept. -/
theorem firstPlace_groupItems (hlt : start < stop)
    (hlength : stop ≤ lines.length) :
    firstPlace (groupItems lines start stop key ++ items) = some start := by
  rw [groupItems]
  split
  · obtain ⟨hle, -, hcount⟩ := nthSiblingEnd_spec key collapseKeepHead (show start ≤ lines.length by omega)
    have hmore : start < nthSiblingEnd lines start key collapseKeepHead := by
      rcases hcount with hcount | ⟨hend, -⟩
      · have hbound := siblingsBetween_le lines key start
          (nthSiblingEnd lines start key collapseKeepHead)
        have hkept : collapseKeepHead = 10 := rfl
        omega
      · omega
    rw [List.append_assoc, firstPlace_keptRange hmore]
  · exact firstPlace_keptRange hlt

/-- The number that a notice states is right exactly where all lines of the group are siblings. -/
theorem omitted_eq_iff (key : Key) (hstart : start < stop) (hlength : stop ≤ lines.length)
    (hlong : collapseThreshold ≤ stop - start)
    (hrest : (firstPlace items).getD lines.length = stop) :
    stop - start - collapseKeepHead - collapseKeepTail =
      siblingsBetween lines key (nthSiblingEnd lines start key collapseKeepHead)
        ((firstPlace (keptRange (lastNSiblingStart lines stop key collapseKeepTail) stop ++
          items)).getD lines.length) ↔
    Uniform lines (start, stop, key) := by
  have huniform : Uniform lines (start, stop, key) ↔
      ∀ place, start ≤ place → place < stop → isSibling lines key place = true :=
    or_iff_right (Nat.not_lt.mpr hlong)
  have hthirty : collapseThreshold = 30 := rfl
  have hten : collapseKeepHead = 10 := rfl
  have hfive : collapseKeepTail = 5 := rfl
  rw [huniform]
  constructor
  · intro homitted
    obtain ⟨hhead, -, hheadCount⟩ := nthSiblingEnd_spec key collapseKeepHead (show start ≤ lines.length by omega)
    have htail := lastNSiblingStart_spec key collapseKeepTail hlength
    generalize nthSiblingEnd lines start key collapseKeepHead = head at *
    generalize lastNSiblingStart lines stop key collapseKeepTail = tail at *
    have hempty : siblingsBetween lines key stop stop = 0 := by simp [siblingsBetween]
    have hnone := siblingsBetween_le lines key head tail
    rw [← siblingsBetween_eq_iff]
    rcases htail with ⟨htail, hlast⟩ | ⟨rfl, hfew⟩
    · have hlt : tail < stop := by
        rcases Nat.lt_or_eq_of_le htail with hlt | rfl
        · exact hlt
        · omega
      rw [firstPlace_keptRange hlt, Option.getD_some] at homitted
      have hle : head ≤ tail := by omega
      have hfirst := siblingsBetween_add lines key hhead hle
      have hall := siblingsBetween_add lines key (Nat.le_trans hhead hle) htail
      rcases hheadCount with hcount | ⟨rfl, hcount⟩
      · omega
      · omega
    · -- so few siblings leave no room for the number that is stated
      rw [keptRange_eq_nil (Nat.le_refl _), List.nil_append, hrest] at homitted
      have hle : head ≤ tail := by omega
      have hall := siblingsBetween_add lines key (Nat.zero_le head) hle
      omega
  · intro hall
    rw [nthSiblingEnd_of_all hall hlength (by omega),
      lastNSiblingStart_of_all hall hlength (by omega), firstPlace_keptRange (by omega),
      Option.getD_some, siblingsBetween_of_all hall (by omega) (by omega)]
    omega

/-- A group is kept as it should be exactly where its notice is not shown, or it is not collapsed,
or all its lines are siblings. -/
theorem faithful_groupItems (hstart : start < stop) (hlength : stop ≤ lines.length)
    (hrest : (firstPlace items).getD lines.length = stop) :
    Faithful lines start shown (groupItems lines start stop key ++ items) ↔
      (nthSiblingEnd lines start key collapseKeepHead - start < shown →
        Uniform lines (start, stop, key)) ∧
      Faithful lines stop (shown - (groupItems lines start stop key).length) items := by
  rw [groupItems]
  split
  · next hlong =>
    obtain ⟨hhead, hheadLength, -⟩ := nthSiblingEnd_spec key collapseKeepHead (show start ≤ lines.length by omega)
    have homitted := omitted_eq_iff key hstart hlength hlong hrest
    have hthirty : collapseThreshold = 30 := rfl
    have hten : collapseKeepHead = 10 := rfl
    have hfive : collapseKeepTail = 5 := rfl
    rw [List.append_assoc, List.cons_append, faithful_keptRange hhead hheadLength,
      List.length_append, List.length_cons, length_keptRange, length_keptRange]
    by_cases hshown : nthSiblingEnd lines start key collapseKeepHead - start < shown
    · obtain ⟨more, hmore⟩ : ∃ more,
          shown - (nthSiblingEnd lines start key collapseKeepHead - start) = more + 1 :=
        ⟨_, (Nat.succ_pred_eq_of_pos (by omega)).symm⟩
      rw [← Nat.sub_sub, hmore, Nat.add_sub_add_right, Faithful, homitted]
      simp only [hshown, true_imp_iff]
      apply and_congr_right
      intro huniform
      have hall : ∀ place, start ≤ place → place < stop → isSibling lines key place = true :=
        huniform.resolve_left (Nat.not_lt.mpr hlong)
      have hend := nthSiblingEnd_of_all hall hlength (show collapseKeepHead < stop - start by omega)
      have hfrom :=
        lastNSiblingStart_of_all hall hlength (show collapseKeepTail < stop - start by omega)
      rw [hend, hfrom, faithful_keptRange_of_le (by omega) (by omega) hlength]
    · have hnone : shown - (nthSiblingEnd lines start key collapseKeepHead - start) = 0 := by omega
      rw [← Nat.sub_sub, hnone, Nat.zero_sub]
      simp only [Faithful, hshown, false_imp_iff, and_self]
  · next hshort =>
    rw [faithful_keptRange (Nat.le_of_lt hstart) hlength, length_keptRange]
    exact (and_iff_right fun _ ↦ .inl (Nat.lt_of_not_le hshort)).symm

/-- The lines of a group, one at least, are lines of the text. -/
theorem group_bounds (hrest : line :: rest = lines.drop place) (hkey : siblingKey line = some key) :
    place < place + ((line :: rest).takeWhile (belongs key)).length ∧
      place + ((line :: rest).takeWhile (belongs key)).length ≤ lines.length := by
  have hbelongs : belongs key line = true := by simp [belongs, hkey]
  have hlength := congrArg List.length hrest
  have hle := (List.takeWhile_prefix (l := line :: rest) (belongs key)).length_le
  rw [List.length_drop, List.length_cons] at hlength
  rw [List.length_cons] at hle
  rw [List.takeWhile_cons_of_pos hbelongs] at hle ⊢
  rw [List.length_cons] at hle ⊢
  omega

private theorem drop_succ_of_cons (hrest : line :: rest = lines.drop place) :
    rest = lines.drop (place + 1) := by
  rw [← List.drop_drop, ← hrest, List.drop_succ_cons, List.drop_zero]

/-- The first line that is kept from a place on is the first that has not been taken. -/
theorem firstPlace_collapseFrom (hrest : rest = lines.drop place) (hplace : place ≤ lines.length)
    (hskip : skip ≤ rest.length) :
    (firstPlace (collapseFrom lines place skip rest)).getD lines.length = place + skip := by
  induction rest generalizing place skip with
  | nil =>
    have hlength := congrArg List.length hrest
    rw [List.length_drop, List.length_nil] at hlength
    rw [List.length_nil] at hskip
    rw [collapseFrom, firstPlace, Option.getD_none]
    omega
  | cons line rest ih =>
    have hlength := congrArg List.length hrest
    rw [List.length_drop, List.length_cons] at hlength
    cases skip with
    | succ skip =>
      rw [List.length_cons] at hskip
      rw [collapseFrom, ih (drop_succ_of_cons hrest) (by omega) (by omega)]
      omega
    | zero =>
      rw [collapseFrom]
      cases hkey : siblingKey line with
      | none => rfl
      | some key =>
        obtain ⟨hlt, hle⟩ := group_bounds hrest hkey
        simp only
        rw [firstPlace_groupItems hlt hle]
        rfl

/-- What the loop keeps is what it should exactly where every group is uniform. -/
theorem faithful_collapseFrom (hrest : rest = lines.drop place) (hplace : place ≤ lines.length)
    (hskip : skip ≤ rest.length) :
    Faithful lines (place + skip) shown (collapseFrom lines place skip rest) ↔
      ∀ group ∈ groupsFrom lines place skip shown rest, Uniform lines group := by
  induction rest generalizing place skip shown with
  | nil =>
    refine iff_of_true ?_ (by nofun)
    cases shown <;> trivial
  | cons line rest ih =>
    have hlength := congrArg List.length hrest
    rw [List.length_drop, List.length_cons] at hlength
    have hnext := drop_succ_of_cons hrest
    cases skip with
    | succ skip =>
      rw [List.length_cons] at hskip
      rw [collapseFrom, groupsFrom, ← ih hnext (by omega) (by omega), Nat.add_right_comm,
        Nat.add_assoc place]
    | zero =>
      rw [collapseFrom, groupsFrom, Nat.add_zero]
      cases hkey : siblingKey line with
      | none =>
        simp only
        rw [← ih hnext (by omega) (Nat.zero_le _), Nat.add_zero]
        cases shown with
        | zero => simp only [Faithful, Nat.zero_sub]
        | succ shown =>
          rw [Faithful, Nat.add_sub_cancel]
          exact ⟨fun h ↦ h.2.2, fun h ↦ ⟨Nat.le_refl _, by omega, h⟩⟩
      | some key =>
        obtain ⟨hlt, hle⟩ := group_bounds hrest hkey
        simp only
        generalize hgroup : ((line :: rest).takeWhile (belongs key)).length = size at *
        have hsize : size - 1 ≤ rest.length := by omega
        have hstop : place + 1 + (size - 1) = place + size := by omega
        have hfirst := firstPlace_collapseFrom hnext (by omega) hsize
        rw [hstop] at hfirst
        rw [faithful_groupItems hlt hle hfirst, ← hstop, ih hnext (by omega) hsize]
        split
        · next hshown => rw [List.forall_mem_cons, hstop, imp_iff_right hshown]
        · next hshown => exact and_iff_right fun h ↦ absurd h hshown

theorem faithful_collapseRepeated : Faithful lines 0 shown (collapseRepeated lines) ↔
    ∀ group ∈ groupsFrom lines 0 0 shown lines, Uniform lines group := by
  have hloop := @faithful_collapseFrom lines lines 0 0 shown List.drop_zero.symm (Nat.zero_le _)
    (Nat.zero_le _)
  rwa [Nat.add_zero] at hloop

end Groups

end NullRouter.Mcp
