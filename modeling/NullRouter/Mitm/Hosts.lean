import NullRouter.Base.Lines
import NullRouter.Base.Marked

/-!
# The hosts file of the MITM helper

`crates/mitm-helper/src/lib.rs:14–185`: a block of host lines between two marker lines for each
tool, which `enable_hosts` and `disable_hosts` rewrite and `hosts_enabled` reports. A file is its
text; reading and replacing it do not fail here.
-/

namespace NullRouter.Mitm

open NullRouter.Base

/-- `Tool`, `lib.rs:18`. -/
inductive Tool where
  | antigravity
  | copilot
  | cursor
  | kiro
  deriving DecidableEq

/-- The failure of `HelperError` that the text of the file decides, `lib.rs:70`. -/
inductive HelperError where
  | corruptMarkers
  deriving DecidableEq

namespace Tool

/-- All tools. -/
def all : List Tool := [.antigravity, .copilot, .cursor, .kiro]

/-- `as_str`, `lib.rs:43`. -/
def asStr : Tool → String
  | .antigravity => "antigravity"
  | .copilot => "copilot"
  | .cursor => "cursor"
  | .kiro => "kiro"

/-- `hosts`, `lib.rs:53`. -/
def hosts : Tool → List String
  | .antigravity => ["daily-cloudcode-pa.googleapis.com", "cloudcode-pa.googleapis.com"]
  | .copilot => ["api.individual.githubcopilot.com"]
  | .cursor => ["api2.cursor.sh"]
  | .kiro =>
    ["runtime.us-east-1.kiro.dev", "q.us-east-1.amazonaws.com",
      "codewhisperer.us-east-1.amazonaws.com"]

/-- The first of `markers`, `lib.rs:91`. -/
def opening (tool : Tool) : List Char := "# nullrouter-mitm begin ".toList ++ tool.asStr.toList

/-- The second of `markers`. -/
def closing (tool : Tool) : List Char := "# nullrouter-mitm end ".toList ++ tool.asStr.toList

/-- The lines of a tool's hosts. -/
def hostLines (tool : Tool) : List (List Char) :=
  tool.hosts.map fun host ↦ "127.0.0.1 ".toList ++ host.toList

end Tool

/-- `eol`, `lib.rs:98`. -/
def eol (input : List Char) : List Char :=
  if containsText input ['\r', '\n'] then ['\r', '\n'] else ['\n']

/-- What the scan of `without_block` holds. -/
structure Scan where
  output : List (List Char)
  inside : Bool
  sawBegin : Bool
  sawEnd : Bool
  deriving DecidableEq

/-- One line of the scan, `lib.rs:112–131`. -/
def Scan.line (tool : Tool) (s : Scan) (line : List Char) : Except HelperError Scan :=
  if line = tool.opening then
    if s.inside || s.sawBegin then .error .corruptMarkers
    else .ok { s with inside := true, sawBegin := true }
  else if line = tool.closing then
    if !s.inside || s.sawEnd then .error .corruptMarkers
    else .ok { s with inside := false, sawEnd := true }
  else if !s.inside then .ok { s with output := s.output ++ [line] }
  else .ok s

/-- The lines that `without_block` keeps, `lib.rs:108–134`. -/
def keptLines (input : List Char) (tool : Tool) : Except HelperError (List (List Char)) := do
  let s ← (lines input).foldlM (Scan.line tool) ⟨[], false, false, false⟩
  if s.inside || s.sawBegin != s.sawEnd then .error .corruptMarkers
  else .ok s.output

/-- The kept lines joined, with a line ending where they are not empty, `lib.rs:136–140`. -/
def joined (newline : List Char) (output : List (List Char)) : List Char :=
  let text := newline.intercalate output
  if text.isEmpty then text else text ++ newline

/-- `without_block`, `lib.rs:106`. -/
def withoutBlock (input : List Char) (tool : Tool) : Except HelperError (List Char) :=
  (keptLines input tool).map (joined (eol input))

/-- The text that `enable_hosts` writes, `lib.rs:144`. -/
def enableHosts (original : List Char) (tool : Tool) : Except HelperError (List Char) :=
  let newline := eol original
  (withoutBlock original tool).map fun next ↦
    (if !next.isEmpty && !newline.isSuffixOf next then next ++ newline else next) ++
      tool.opening ++ newline ++ tool.hostLines.flatMap (· ++ newline) ++ tool.closing ++ newline

/-- The text that `disable_hosts` writes, `lib.rs:166`. -/
def disableHosts (original : List Char) (tool : Tool) : Except HelperError (List Char) :=
  withoutBlock original tool

/-- `hosts_enabled`, `lib.rs:173`. -/
def hostsEnabled (content : List Char) (tool : Tool) : Except HelperError Bool :=
  let starts := (lines content).countP (· = tool.opening)
  let ends := (lines content).countP (· = tool.closing)
  if starts > 1 ∨ ends > 1 ∨ starts ≠ ends then .error .corruptMarkers else .ok (starts = 1)

/-- An operation on the file. -/
inductive HostsOp where
  | enable (tool : Tool)
  | disable (tool : Tool)
  deriving DecidableEq

namespace HostsOp

/-- The tool of an operation. -/
def tool : HostsOp → Tool
  | enable tool | disable tool => tool

/-- The text that an operation writes. -/
def write (text : List Char) : HostsOp → Except HelperError (List Char)
  | enable tool => enableHosts text tool
  | disable tool => disableHosts text tool

/-- The block that an operation leaves. -/
def block : HostsOp → List (List Char)
  | enable tool => tool.opening :: (tool.hostLines ++ [tool.closing])
  | disable _ => []

/-- How the markers of its tool lie after an operation. -/
def makes : HostsOp → Layout (List Char)
  | enable tool => .block tool.hostLines
  | disable _ => .absent

/-- The file after an operation: it stays as it is where the operation fails. -/
def step (text : List Char) (op : HostsOp) : List Char :=
  match op.write text with
  | .ok next => next
  | .error _ => text

end HostsOp

/-- The file after a sequence of operations. -/
def runOps (text : List Char) (ops : List HostsOp) : List Char := ops.foldl HostsOp.step text

/-! ## What the operations are for -/

/-- The marker lines of a tool in a text. -/
def Tool.marksIn (tool : Tool) (text : List Char) : List (List Char) :=
  marks tool.opening tool.closing (lines text)

/-- How the markers of a tool lie in a text. -/
def Tool.layoutIn (tool : Tool) (text : List Char) : Layout (List Char) :=
  layout tool.opening tool.closing (lines text)

/-- The lines outside the blocks of all tools. -/
def ownLines (text : List Char) : List (List Char) :=
  outsideAll Tool.opening Tool.closing Tool.all (lines text)

/-- What an operation makes of the layout of each tool's markers: its own tool's block where that
was not corrupt, no other. -/
def HostsOp.expect (tool : Tool) (before : Layout (List Char)) (op : HostsOp) :
    Layout (List Char) :=
  if op.tool = tool ∧ before ≠ .corrupt then op.makes else before

/-- What a sequence of operations makes of the layout of a tool's markers. -/
def expected (tool : Tool) (before : Layout (List Char)) (ops : List HostsOp) :
    Layout (List Char) :=
  ops.foldl (HostsOp.expect tool) before

/-- A file whose lines an operation of a tool can rewrite without loss: no block of another tool
in the tool's block nor around it, more outside the block than one empty line, and no carriage
return at the end of a text that has none before a line feed. -/
structure Rewritable (text : List Char) (tool : Tool) : Prop where
  nested : ∀ other ≠ tool, ∀ content, tool.layoutIn text = .block content →
    marks other.opening other.closing content = []
  surrounded : ∀ other ≠ tool, ∀ content, other.layoutIn text = .block content →
    marks tool.opening tool.closing content = []
  emptyLine : outside tool.opening tool.closing (lines text) ≠ [[]]
  lastReturn : ['\r', '\n'] <:+: text ∨ text.getLast? ≠ some '\r'

/-- Every operation of a sequence is refused or finds a file that it can rewrite without loss. -/
def RewritableAll (text : List Char) : List HostsOp → Prop
  | [] => True
  | op :: ops =>
    (op.tool.layoutIn text = .corrupt ∨ Rewritable text op.tool) ∧
      RewritableAll (op.step text) ops

/-! ## The scan of the lines -/

section Scans

variable {tool other : Tool} {text : List Char} {x : List (List Char)} {s : Scan}

theorem asStr_injective {tool other : Tool} (h : tool.asStr = other.asStr) : tool = other := by
  cases tool <;> cases other <;> first | rfl | simp [Tool.asStr] at h

/-- Texts that differ at a place stay different, whatever follows. -/
theorem append_ne_of_cut {x y shared left right : List Char} {a b : Char}
    (hx : x = shared ++ a :: left) (hy : y = shared ++ b :: right) (hne : a ≠ b)
    (u v : List Char) : x ++ u ≠ y ++ v := by
  subst hx hy
  simp [hne]

theorem opening_ne_closing (tool other : Tool) : tool.opening ≠ other.closing :=
  append_ne_of_cut
    (by decide : "# nullrouter-mitm begin ".toList =
      "# nullrouter-mitm ".toList ++ 'b' :: "egin ".toList)
    (by decide : "# nullrouter-mitm end ".toList =
      "# nullrouter-mitm ".toList ++ 'e' :: "nd ".toList)
    (by decide) _ _

/-- The markers of the tools. -/
theorem distinct_markers : Distinct Tool.opening Tool.closing where
  own tool := opening_ne_closing tool tool
  others tool other hne := by
    have hopening : other.opening ≠ tool.opening := fun h ↦
      hne (asStr_injective (String.toList_inj.mp (List.append_cancel_left h))).symm
    have hclosing : other.closing ≠ tool.closing := fun h ↦
      hne (asStr_injective (String.toList_inj.mp (List.append_cancel_left h))).symm
    simp [marks_eq_nil_iff, hopening, hclosing, opening_ne_closing, (opening_ne_closing _ _).symm]

theorem mem_all (tool : Tool) : tool ∈ Tool.all := by
  cases tool <;> decide

/-- Lines without markers are kept outside a block and left out in it. -/
theorem scan_unmarked (h : marks tool.opening tool.closing x = []) :
    x.foldlM (Scan.line tool) s =
      .ok (if s.inside then s else { s with output := s.output ++ x }) := by
  induction x generalizing s with
  | nil =>
    obtain ⟨output, inside, sawBegin, sawEnd⟩ := s
    cases inside <;> simp [pure, Except.pure]
  | cons line x ih =>
    obtain ⟨output, inside, sawBegin, sawEnd⟩ := s
    obtain ⟨hopening, hclosing⟩ := marks_eq_nil_iff.mp h
    rw [List.mem_cons, not_or] at hopening hclosing
    have hrest := marks_eq_nil_iff.mpr ⟨hopening.2, hclosing.2⟩
    rw [List.foldlM_cons, Scan.line, if_neg (Ne.symm hopening.1), if_neg (Ne.symm hclosing.1)]
    cases inside with
    | true => exact ih hrest
    | false =>
      show x.foldlM (Scan.line tool) ⟨output ++ [line], false, sawBegin, sawEnd⟩ = _
      rw [ih hrest]
      simp

/-- An opening marker is refused in a block and after one. -/
theorem scan_opening : Scan.line tool s tool.opening =
    if s.inside || s.sawBegin then .error .corruptMarkers
    else .ok { s with inside := true, sawBegin := true } := by
  rw [Scan.line, if_pos rfl]

/-- A closing marker is refused outside a block and after another. -/
theorem scan_closing : Scan.line tool s tool.closing =
    if !s.inside || s.sawEnd then .error .corruptMarkers
    else .ok { s with inside := false, sawEnd := true } := by
  rw [Scan.line, if_neg (Ne.symm (distinct_markers.own tool)), if_pos rfl]

private theorem scan_of_marks {l : List (List Char)} :
    (do
      let s ← l.foldlM (Scan.line tool) ⟨[], false, false, false⟩
      if s.inside || s.sawBegin != s.sawEnd then .error .corruptMarkers
      else .ok s.output : Except HelperError (List (List Char))) =
    if layout tool.opening tool.closing l = .corrupt then .error .corruptMarkers
    else .ok (outside tool.opening tool.closing l) := by
  have hown := distinct_markers.own tool
  have hcorrupt {mark : List Char} {rest : List (List Char)}
      (h : marks tool.opening tool.closing l = mark :: rest)
      (hne : mark :: rest ≠ [tool.opening, tool.closing]) :
      layout tool.opening tool.closing l = .corrupt := by
    rw [layout, h, if_neg (by simp), if_neg hne]
  cases hmarks : marks tool.opening tool.closing l with
  | nil =>
    have habsent := layout_eq_absent_iff.mpr hmarks
    rw [scan_unmarked hmarks, habsent, if_neg (by simp), outside_of_ne (by simp [habsent])]
    rfl
  | cons first rest =>
    obtain ⟨x, after, hl, hx, hfirst, hafter⟩ := exists_of_marks_eq_cons hmarks
    rw [hl, List.foldlM_append, scan_unmarked hx, ← hl]
    rcases hfirst with rfl | rfl
    · cases rest with
      | nil =>
        -- the block is not closed
        rw [hcorrupt hmarks (by simp), if_pos rfl]
        simp [bind, Except.bind, scan_opening, scan_unmarked hafter]
      | cons second rest =>
        obtain ⟨y, z, hz, hy, hsecond, hrest⟩ := exists_of_marks_eq_cons hafter
        rw [hz]
        rcases hsecond with rfl | rfl
        · rw [hcorrupt hmarks (by simp [hown]), if_pos rfl]
          simp [bind, Except.bind, scan_opening, scan_unmarked hy]
        · cases rest with
          | nil =>
            have block : Block tool.opening tool.closing l x y z :=
              ⟨by rw [hl, hz], hx, hy, hrest⟩
            rw [block.layout_eq, if_neg (by simp), block.outside_eq hown]
            simp [bind, Except.bind, scan_opening, scan_unmarked hy, scan_closing,
              scan_unmarked hrest]
          | cons third rest =>
            -- any marker after the block
            obtain ⟨u, v, hv, hu, hthird, -⟩ := exists_of_marks_eq_cons hrest
            rw [hcorrupt hmarks (by simp), if_pos rfl, hv]
            rcases hthird with rfl | rfl
            · simp [bind, Except.bind, scan_opening, scan_unmarked hy, scan_closing,
                scan_unmarked hu]
            · simp [bind, Except.bind, scan_opening, scan_unmarked hy, scan_closing,
                scan_unmarked hu]
    · rw [hcorrupt hmarks (by simp [Ne.symm hown]), if_pos rfl]
      simp [bind, Except.bind, scan_closing]

/-- The lines that are kept are those outside the tool's block; any layout but one block or none is
refused. -/
theorem keptLines_eq : keptLines text tool =
    if tool.layoutIn text = .corrupt then .error .corruptMarkers
    else .ok (outside tool.opening tool.closing (lines text)) :=
  scan_of_marks

end Scans

/-! ## The written text -/

section Written

variable {tool other : Tool} {text next : List Char} {written : List (List Char)} {op : HostsOp}

theorem eol_cases (text : List Char) : (eol text = ['\r', '\n'] ∧ ['\r', '\n'] <:+: text) ∨
    (eol text = ['\n'] ∧ ¬ ['\r', '\n'] <:+: text) := by
  unfold eol
  split
  · next h => exact .inl ⟨rfl, (containsText_iff _ _).mp h⟩
  · next h => exact .inr ⟨rfl, fun hinfix ↦ h ((containsText_iff _ _).mpr hinfix)⟩

theorem eol_ne_nil (text : List Char) : eol text ≠ [] := by
  rcases eol_cases text with ⟨h, -⟩ | ⟨h, -⟩ <;> simp [h]

/-- Joined lines are each followed by a line ending, unless they are one empty line. -/
theorem joined_eq (h : written ≠ [[]]) :
    joined (eol text) written = written.flatMap (· ++ eol text) := by
  rw [joined]
  cases written with
  | nil => rfl
  | cons line written =>
    have hne : (eol text).intercalate (line :: written) ≠ [] := by
      cases written with
      | nil =>
        rw [List.intercalate_singleton]
        rintro rfl
        exact h rfl
      | cons next written => simp [eol_ne_nil]
    rw [if_neg (by simpa using hne), intercalate_append (List.cons_ne_nil line written)]

/-- Lines that a text's line ending can end read back as they were written. -/
theorem lines_written (h : ∀ line ∈ written, '\n' ∉ line ∧
    (['\r', '\n'] <:+: text ∨ line.getLast? ≠ some '\r')) :
    lines (written.flatMap (· ++ eol text)) = written := by
  rcases eol_cases text with ⟨heol, -⟩ | ⟨heol, hnone⟩
  · rw [heol, lines_flatMap fun line hline ↦ (h line hline).1]
  · rw [heol, lines_flatMap_lf]
    intro line hline
    exact ⟨(h line hline).1, (h line hline).2.resolve_left hnone⟩

/-- The lines of a block can be written with any line ending. -/
theorem block_lines : ∀ line ∈ op.block, '\n' ∉ line ∧ line.getLast? ≠ some '\r' := by
  obtain tool | tool := op
  · cases tool <;> decide
  · nofun

/-- The lines outside a block are lines of the text. -/
theorem outside_subset {l : List (List Char)} :
    outside tool.opening tool.closing l ⊆ l := by
  unfold outside
  split
  · intro line hline
    rcases List.mem_append.mp hline with hline | hline
    · exact List.takeWhile_subset _ hline
    · exact List.dropWhile_subset _ (List.drop_subset _ _ hline)
  · exact fun _ ↦ id

/-- An operation is refused exactly where its tool's markers are corrupt. -/
theorem write_of_corrupt (h : op.tool.layoutIn text = .corrupt) :
    op.write text = .error .corruptMarkers := by
  obtain tool | tool := op <;>
    · change tool.layoutIn text = _ at h
      simp [HostsOp.write, enableHosts, disableHosts, withoutBlock, keptLines_eq, h, Except.map]

/-- Otherwise it is taken. -/
theorem write_of_sound (h : op.tool.layoutIn text ≠ .corrupt) :
    ∃ next, op.write text = .ok next := by
  obtain tool | tool := op <;>
    · change tool.layoutIn text ≠ _ at h
      simp [HostsOp.write, enableHosts, disableHosts, withoutBlock, keptLines_eq, h, Except.map]

/-- It writes the lines outside the tool's block and then the block that it leaves. -/
theorem write_of_rewritable (hsound : op.tool.layoutIn text ≠ .corrupt)
    (h : outside op.tool.opening op.tool.closing (lines text) ≠ [[]]) :
    op.write text = .ok ((outside op.tool.opening op.tool.closing (lines text) ++ op.block).flatMap
      (· ++ eol text)) := by
  obtain tool | tool := op <;> change tool.layoutIn text ≠ _ at hsound <;>
    change outside tool.opening tool.closing _ ≠ _ at h
  · rw [HostsOp.write, enableHosts, withoutBlock, keptLines_eq, if_neg hsound]
    simp only [Except.map]
    rw [joined_eq h]
    have hended : (if !((outside tool.opening tool.closing (lines text)).flatMap
          (· ++ eol text)).isEmpty && !(eol text).isSuffixOf
            ((outside tool.opening tool.closing (lines text)).flatMap (· ++ eol text)) then
          (outside tool.opening tool.closing (lines text)).flatMap (· ++ eol text) ++ eol text
        else (outside tool.opening tool.closing (lines text)).flatMap (· ++ eol text)) =
        (outside tool.opening tool.closing (lines text)).flatMap (· ++ eol text) := by
      apply if_neg
      by_cases hnil : outside tool.opening tool.closing (lines text) = []
      · simp [hnil]
      · rw [← intercalate_append hnil]
        simp
    rw [hended, HostsOp.block]
    simp [HostsOp.tool]
  · rw [HostsOp.write, disableHosts, withoutBlock, keptLines_eq, if_neg hsound]
    simp only [Except.map]
    rw [joined_eq h, HostsOp.block, List.append_nil]
    rfl

/-- The lines of the file after an operation that it can take. -/
theorem lines_step (hsound : op.tool.layoutIn text ≠ .corrupt) (h : Rewritable text op.tool) :
    lines (op.step text) = outside op.tool.opening op.tool.closing (lines text) ++ op.block := by
  rw [HostsOp.step, write_of_rewritable hsound h.emptyLine]
  apply lines_written
  intro line hline
  rcases List.mem_append.mp hline with hline | hline
  · have hmem := outside_subset hline
    refine ⟨not_mem_of_mem_lines hmem, ?_⟩
    by_cases hpair : ['\r', '\n'] <:+: text
    · exact .inl hpair
    · exact .inr (getLast?_of_mem_lines hpair (h.lastReturn.resolve_left hpair) hmem)
  · exact ⟨(block_lines line hline).1, .inr (block_lines line hline).2⟩

end Written

/-! ## One operation -/

section Steps

variable {tool other : Tool} {text : List Char} {op : HostsOp}

theorem marks_hostLines (tool other : Tool) :
    marks other.opening other.closing tool.hostLines = [] := by
  have hhost {line : List Char} (h : line ∈ tool.hostLines) :
      ∃ host, line = "127.0.0.1 ".toList ++ host := by
    obtain ⟨host, -, rfl⟩ := List.mem_map.mp h
    exact ⟨_, rfl⟩
  have hfirst : "127.0.0.1 ".toList = [] ++ '1' :: "27.0.0.1 ".toList := by decide
  rw [marks_eq_nil_iff]
  constructor
  · intro h
    obtain ⟨host, hline⟩ := hhost h
    exact append_ne_of_cut (by decide : "# nullrouter-mitm begin ".toList =
      [] ++ '#' :: " nullrouter-mitm begin ".toList) hfirst (by decide) _ _ hline
  · intro h
    obtain ⟨host, hline⟩ := hhost h
    exact append_ne_of_cut (by decide : "# nullrouter-mitm end ".toList =
      [] ++ '#' :: " nullrouter-mitm end ".toList) hfirst (by decide) _ _ hline

/-- A refused operation leaves the file as it is. -/
theorem step_of_corrupt (h : op.tool.layoutIn text = .corrupt) : op.step text = text := by
  rw [HostsOp.step, write_of_corrupt h]

/-- An operation keeps the lines outside all blocks. -/
theorem ownLines_step (h : op.tool.layoutIn text = .corrupt ∨ Rewritable text op.tool) :
    ownLines (op.step text) = ownLines text := by
  by_cases hcorrupt : op.tool.layoutIn text = .corrupt
  · rw [step_of_corrupt hcorrupt]
  · have hfile := h.resolve_left hcorrupt
    have hremoved := outsideAll_outside (i := op.tool) distinct_markers (mem_all op.tool) hfile.nested
    have hnone := marks_outside (distinct_markers.own op.tool) hcorrupt
    rw [ownLines, ownLines, lines_step hcorrupt hfile, ← hremoved]
    obtain tool | tool := op
    · exact outsideAll_append_block distinct_markers (mem_all tool) hnone (marks_hostLines tool)
    · rw [HostsOp.block, List.append_nil]

/-- What an operation makes of the markers of its own tool. -/
theorem layoutIn_step_self (hcorrupt : op.tool.layoutIn text ≠ .corrupt)
    (h : Rewritable text op.tool) : op.tool.layoutIn (op.step text) = op.makes := by
  have hnone := marks_outside (distinct_markers.own op.tool) hcorrupt
  rw [Tool.layoutIn, lines_step hcorrupt h]
  obtain tool | tool := op
  · have block : Block tool.opening tool.closing
        (outside tool.opening tool.closing (lines text) ++
          tool.opening :: (tool.hostLines ++ [tool.closing]))
        (outside tool.opening tool.closing (lines text)) tool.hostLines [] :=
      ⟨rfl, hnone, marks_hostLines tool tool, rfl⟩
    exact block.layout_eq
  · rw [HostsOp.block, List.append_nil]
    exact layout_eq_absent_iff.mpr hnone

/-- It changes nothing of the markers of another. -/
theorem layoutIn_step_other (h : op.tool.layoutIn text = .corrupt ∨ Rewritable text op.tool)
    (hother : other ≠ op.tool) :
    other.marksIn (op.step text) = other.marksIn text ∧
      other.layoutIn (op.step text) = other.layoutIn text := by
  by_cases hcorrupt : op.tool.layoutIn text = .corrupt
  · rw [step_of_corrupt hcorrupt]
    exact ⟨rfl, rfl⟩
  · have hfile := h.resolve_left hcorrupt
    obtain ⟨hmarks, hlayout⟩ := layout_outside distinct_markers hother (hfile.nested other hother)
      (hfile.surrounded other hother)
    rw [Tool.marksIn, Tool.marksIn, Tool.layoutIn, Tool.layoutIn, lines_step hcorrupt hfile,
      ← hmarks, ← hlayout]
    obtain tool | tool := op
    · exact layout_append_block distinct_markers hother (marks_hostLines tool other)
    · rw [HostsOp.block, List.append_nil]
      exact ⟨rfl, rfl⟩

/-- An operation does to the layout of every tool's markers what it is for. -/
theorem layoutIn_step (h : op.tool.layoutIn text = .corrupt ∨ Rewritable text op.tool)
    (tool : Tool) : tool.layoutIn (op.step text) = op.expect tool (tool.layoutIn text) := by
  unfold HostsOp.expect
  split
  · next hself =>
    obtain ⟨rfl, hcorrupt⟩ := hself
    exact layoutIn_step_self hcorrupt (h.resolve_left hcorrupt)
  · next hnot =>
    rw [not_and_or, not_not] at hnot
    rcases hnot with hother | hcorrupt
    · exact (layoutIn_step_other h (Ne.symm hother)).2
    · by_cases hother : tool = op.tool
      · subst hother
        rw [step_of_corrupt hcorrupt]
      · exact (layoutIn_step_other h hother).2

/-- No operation swaps the markers of a tool. -/
theorem marksIn_step_ne (h : op.tool.layoutIn text = .corrupt ∨ Rewritable text op.tool)
    (tool : Tool) (hmarks : tool.marksIn text ≠ [tool.closing, tool.opening]) :
    tool.marksIn (op.step text) ≠ [tool.closing, tool.opening] := by
  by_cases hother : tool = op.tool
  · subst hother
    by_cases hcorrupt : op.tool.layoutIn text = .corrupt
    · rwa [step_of_corrupt hcorrupt]
    · have hmakes := layoutIn_step_self hcorrupt (h.resolve_left hcorrupt)
      have hsound : op.tool.layoutIn (op.step text) ≠ .corrupt := by
        rw [hmakes]
        cases op <;> nofun
      have hown := Ne.symm (distinct_markers.own op.tool)
      rcases layout_ne_corrupt_iff.mp hsound with hnone | hpair
      · rw [Tool.marksIn, hnone]
        nofun
      · rw [Tool.marksIn, hpair]
        simp [Ne.symm hown]
  · rwa [(layoutIn_step_other h hother).1]

/-- The status of a tool's block is right for every file, but for markers in the wrong order, which
it takes for a block. -/
theorem hostsEnabled_eq (hmarks : tool.marksIn text ≠ [tool.closing, tool.opening]) :
    hostsEnabled text tool =
      match tool.layoutIn text with
      | .absent => .ok false
      | .block _ => .ok true
      | .corrupt => .error .corruptMarkers := by
  have hown := distinct_markers.own tool
  have hopening : (lines text).countP (· = tool.opening) =
      (tool.marksIn text).countP (· = tool.opening) := (countP_marks (.inl rfl)).symm
  have hclosing : (lines text).countP (· = tool.closing) =
      (tool.marksIn text).countP (· = tool.closing) := (countP_marks (.inr rfl)).symm
  rw [hostsEnabled]
  by_cases hcorrupt : tool.layoutIn text = .corrupt
  · rw [hcorrupt, if_pos]
    by_contra hcounts
    rcases marks_of_countP hown (l := lines text) (by omega) (by omega) with hnone | hpair | hswap
    · exact layout_ne_corrupt_iff.mpr (.inl hnone) hcorrupt
    · exact layout_ne_corrupt_iff.mpr (.inr hpair) hcorrupt
    · exact hmarks hswap
  · rcases layout_ne_corrupt_iff.mp hcorrupt with hnone | hpair
    · rw [Tool.layoutIn, layout_eq_absent_iff.mpr hnone, hopening, hclosing, Tool.marksIn, hnone]
      rfl
    · obtain ⟨x, y, z, block⟩ := marks_eq_pair_iff.mp hpair
      rw [Tool.layoutIn, block.layout_eq, hopening, hclosing, Tool.marksIn, hpair]
      simp [hown, Ne.symm hown]

end Steps

/-! ## Runs -/

section Runs

variable {tool : Tool} {text : List Char} {ops : List HostsOp}

/-- What holds of every step holds of a run: the lines outside all blocks stay, each tool has the
block that the operations are for, and no markers get swapped. -/
theorem runOps_of_rewritable (h : RewritableAll text ops) :
    ownLines (runOps text ops) = ownLines text ∧
      (∀ tool : Tool, tool.layoutIn (runOps text ops) =
        expected tool (tool.layoutIn text) ops) ∧
      ∀ tool : Tool, tool.marksIn text ≠ [tool.closing, tool.opening] →
        tool.marksIn (runOps text ops) ≠ [tool.closing, tool.opening] := by
  induction ops generalizing text with
  | nil => exact ⟨rfl, fun _ ↦ rfl, fun _ ↦ id⟩
  | cons op ops ih =>
    obtain ⟨hop, hops⟩ := h
    obtain ⟨hlines, hlayout, hmarks⟩ := ih hops
    refine ⟨hlines.trans (ownLines_step hop), fun tool ↦ ?_, fun tool hne ↦ ?_⟩
    · show tool.layoutIn (runOps (op.step text) ops) =
        expected tool (op.expect tool (tool.layoutIn text)) ops
      rw [hlayout tool, layoutIn_step hop tool]
    · exact hmarks tool (marksIn_step_ne hop tool hne)

/-- Corrupt markers stay corrupt, and no operation corrupts any. -/
theorem expected_eq_corrupt_iff (before : Layout (List Char)) :
    expected tool before ops = .corrupt ↔ before = .corrupt := by
  induction ops generalizing before with
  | nil => rfl
  | cons op ops ih =>
    show expected tool (op.expect tool before) ops = .corrupt ↔ _
    rw [ih, HostsOp.expect]
    split
    · next hself => exact iff_of_false (by cases op <;> nofun) hself.2
    · rfl

/-- In every run of operations that find a file they can rewrite without loss, or are refused, and
whose first file has no tool's markers in the wrong order: the lines outside all blocks keep their
content and order; each tool has exactly the block that the operations leave it; an operation is
refused, and leaves the file as it is, exactly where the tool's markers were corrupt from the
start; and the status answers exactly on the other files, whether there is a block. -/
theorem hosts_file_kept (h : RewritableAll text ops)
    (hswapped : ∀ tool : Tool, tool.marksIn text ≠ [tool.closing, tool.opening]) :
    ownLines (runOps text ops) = ownLines text ∧
      (∀ tool : Tool, tool.layoutIn (runOps text ops) =
        expected tool (tool.layoutIn text) ops) ∧
      (∀ op : HostsOp, if op.tool.layoutIn text = .corrupt then
          op.write (runOps text ops) = .error .corruptMarkers ∧
            op.step (runOps text ops) = runOps text ops
        else ∃ next, op.write (runOps text ops) = .ok next) ∧
      ∀ tool : Tool, hostsEnabled (runOps text ops) tool =
        match expected tool (tool.layoutIn text) ops with
        | .absent => .ok false
        | .block _ => .ok true
        | .corrupt => .error .corruptMarkers := by
  obtain ⟨hlines, hlayout, hmarks⟩ := runOps_of_rewritable h
  refine ⟨hlines, hlayout, fun op ↦ ?_, fun tool ↦ ?_⟩
  · have hcorrupt : op.tool.layoutIn (runOps text ops) = .corrupt ↔
        op.tool.layoutIn text = .corrupt := by
      rw [hlayout op.tool, expected_eq_corrupt_iff]
    split
    · next hrefused =>
      exact ⟨write_of_corrupt (hcorrupt.mpr hrefused), step_of_corrupt (hcorrupt.mpr hrefused)⟩
    · next hsound => exact write_of_sound fun hrefused ↦ hsound (hcorrupt.mp hrefused)
  · rw [← hlayout tool]
    exact hostsEnabled_eq (hmarks tool (hswapped tool))

/-- A file without markers of any tool, and the block of one tool put into it. -/
theorem hosts_file_kept_enable :
    RewritableAll "127.0.0.1 localhost\n".toList [.enable .cursor] ∧
      Tool.cursor.layoutIn (runOps "127.0.0.1 localhost\n".toList [.enable .cursor]) =
        .block ["127.0.0.1 api2.cursor.sh".toList] := by
  have habsent : ∀ tool : Tool, tool.marksIn "127.0.0.1 localhost\n".toList = [] := by
    intro tool
    cases tool <;> decide +kernel
  have hlayout : ∀ tool : Tool, tool.layoutIn "127.0.0.1 localhost\n".toList = .absent := fun tool ↦
    layout_eq_absent_iff.mpr (habsent tool)
  have hfile : RewritableAll "127.0.0.1 localhost\n".toList [.enable .cursor] := by
    refine ⟨.inr ⟨fun _ _ content h ↦ ?_, fun other _ content h ↦ ?_, ?_, ?_⟩, trivial⟩
    · rw [hlayout] at h
      cases h
    · rw [hlayout] at h
      cases h
    · decide +kernel
    · decide +kernel
  have hkept := (hosts_file_kept hfile fun tool ↦ by rw [habsent]; nofun).2.1 .cursor
  refine ⟨hfile, ?_⟩
  rw [hkept, hlayout]
  decide +kernel

/-- Markers in the wrong order pass for a block that cannot be removed; a block inside another
tool's block is removed with it; one empty line is lost, and so is a last carriage return. -/
theorem hosts_file_changed :
    (hostsEnabled "# nullrouter-mitm end cursor\n# nullrouter-mitm begin cursor\n".toList .cursor =
        .ok true ∧
      disableHosts "# nullrouter-mitm end cursor\n# nullrouter-mitm begin cursor\n".toList .cursor =
        .error .corruptMarkers) ∧
    (Tool.kiro.layoutIn ("# nullrouter-mitm begin cursor\n# nullrouter-mitm begin kiro\n" ++
        "# nullrouter-mitm end kiro\n# nullrouter-mitm end cursor\n").toList = .block [] ∧
      disableHosts ("# nullrouter-mitm begin cursor\n# nullrouter-mitm begin kiro\n" ++
        "# nullrouter-mitm end kiro\n# nullrouter-mitm end cursor\n").toList .cursor = .ok []) ∧
    (ownLines "\n".toList = [[]] ∧ disableHosts "\n".toList .cursor = .ok []) ∧
    (ownLines "a\r".toList = ["a\r".toList] ∧
      disableHosts "a\r".toList .cursor = .ok "a\r\n".toList ∧
      ownLines "a\r\n".toList = ["a".toList]) := by
  decide +kernel

end Runs

end NullRouter.Mitm
