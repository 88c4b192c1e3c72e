import HassNode.BackupDiff
import HassNode.DiffText
import HassNode.PatchApplies

/-!
# The lines of the node's own diffs

`BackupStore.diff` cuts its texts at every line boundary of Python, and writes each line with the end
that it has.  `lineOf` is what the applier makes of such a line: it adds a newline to every one.
-/

namespace HassNode.FsPatch

open Py TextLines EditScript BackupStore

/-! ## Lines of Python -/

theorem flatten_splitLinesKeepFrom (line text : PyStr) :
    (splitLinesKeepFrom line text).flatten = line ++ text := by
  fun_induction splitLinesKeepFrom line text with
  | case1 => rfl
  | case2 line hne => simp
  | case3 line rest ih =>
    rw [List.flatten_cons, ih, List.nil_append, List.append_assoc]
    rfl
  | case4 line c rest hcrlf hbreak ih =>
    rw [List.flatten_cons, ih, List.nil_append, List.append_assoc]
    rfl
  | case5 line c rest hcrlf hbreak ih =>
    rw [ih, List.append_assoc]
    rfl

/-- The lines make the text. -/
theorem flatten_splitLinesKeep (text : PyStr) : (splitLinesKeep text).flatten = text :=
  flatten_splitLinesKeepFrom [] text

/-- A newline is always at the end of its line. -/
theorem splitLinesKeepFrom_oneLine {line : PyStr} (hline : 10 ∉ line) (text : PyStr) :
    ∀ l ∈ splitLinesKeepFrom line text, l ≠ [] ∧ 10 ∉ l.dropLast := by
  fun_induction splitLinesKeepFrom line text with
  | case1 => exact nofun
  | case2 line hne =>
    exact List.forall_mem_singleton.mpr ⟨hne, fun hmem => hline (List.mem_of_mem_dropLast hmem)⟩
  | case3 line rest ih =>
    have hreturn : (10 : CodePoint) ∉ line ++ [13] :=
      fun hmem => (List.mem_append.mp hmem).elim hline fun h => absurd h (by decide)
    refine List.forall_mem_cons.mpr ⟨⟨by simp, ?_⟩, ih List.not_mem_nil⟩
    have hdrop : (line ++ [13, 10]).dropLast = line ++ [13] := by simp
    rw [hdrop]
    exact hreturn
  | case4 line c rest hcrlf hbreak ih =>
    refine List.forall_mem_cons.mpr ⟨⟨by simp, ?_⟩, ih List.not_mem_nil⟩
    rw [List.dropLast_concat]
    exact hline
  | case5 line c rest hcrlf hbreak ih =>
    apply ih
    intro hmem
    cases List.mem_append.mp hmem with
    | inl h => exact hline h
    | inr h =>
      rw [List.mem_singleton] at h
      rw [← h] at hbreak
      exact hbreak (by decide)

theorem splitLinesKeep_oneLine (text : PyStr) :
    ∀ l ∈ splitLinesKeep text, l ≠ [] ∧ 10 ∉ l.dropLast :=
  splitLinesKeepFrom_oneLine List.not_mem_nil text

/-- A line that ends with a newline. -/
def Terminated (line : PyStr) : Prop := line.getLast? = some 10

instance : DecidablePred Terminated := fun line => inferInstanceAs (Decidable (line.getLast? = some 10))

/-- A line of a text that can be encoded. -/
structure PyLine (line : PyStr) : Prop where
  oneLine : Closed 10 line ∨ line ≠ [] ∧ 10 ∉ line
  encodable : line.any unencodable = false

theorem PyLine.ne_nil {line : PyStr} (h : PyLine line) : line ≠ [] := by
  cases h.oneLine with
  | inl hclosed =>
    have ⟨body, _, heq⟩ := hclosed
    simp [heq]
  | inr hopen => exact hopen.1

theorem PyLine.closed_iff {line : PyStr} (h : PyLine line) : Closed 10 line ↔ Terminated line := by
  constructor
  · rintro ⟨body, _, rfl⟩
    exact List.getLast?_concat
  · intro hterminated
    cases h.oneLine with
    | inl hclosed => exact hclosed
    | inr hopen => exact absurd (List.mem_of_getLast? hterminated) hopen.2

theorem any_unencodable_of_subset {text part : PyStr} (htext : text.any unencodable = false)
    (hpart : ∀ c ∈ part, c ∈ text) : part.any unencodable = false := by
  rw [List.any_eq_false] at htext ⊢
  exact fun c hc => htext c (hpart c hc)

theorem pyLine_splitLinesKeep {text : PyStr} (hencodable : text.any unencodable = false) :
    ∀ line ∈ splitLinesKeep text, PyLine line := by
  intro line hline
  have ⟨hne, honeLine⟩ := splitLinesKeep_oneLine text line hline
  constructor
  · have hlast := List.dropLast_append_getLast hne
    by_cases hten : line.getLast hne = 10
    · left
      refine ⟨line.dropLast, honeLine, ?_⟩
      conv_lhs => rw [← hlast, hten]
    · right
      refine ⟨hne, fun hmem => ?_⟩
      rw [← hlast] at hmem
      cases List.mem_append.mp hmem with
      | inl hdrop => exact honeLine hdrop
      | inr heq => exact hten (List.mem_singleton.mp heq).symm
  · apply any_unencodable_of_subset hencodable
    intro c hc
    rw [← flatten_splitLinesKeep text]
    exact List.mem_flatten.mpr ⟨line, hline, hc⟩

theorem PyLine.chomp {line : PyStr} (h : PyLine line) :
    10 ∉ chomp 10 line ∧ (chomp 10 line).any unencodable = false := by
  have hsub : ∀ c ∈ TextLines.chomp 10 line, c ∈ line := by
    intro c hc
    unfold TextLines.chomp at hc
    split at hc
    · exact List.mem_of_mem_dropLast hc
    · exact hc
  exact ⟨not_mem_chomp (h.oneLine.imp_right And.right), any_unencodable_of_subset h.encodable hsub⟩

/-! ## What the applier reads -/

/-- `text.encode("utf-8")` of a text that can be encoded. -/
def bytesOf (text : PyStr) : Bytes := text.flatMap utf8Char

theorem bytesOf_append (text rest : PyStr) : bytesOf (text ++ rest) = bytesOf text ++ bytesOf rest :=
  List.flatMap_append

theorem bytesOf_flatten (lines : List PyStr) : bytesOf lines.flatten = (lines.map bytesOf).flatten := by
  induction lines with
  | nil => rfl
  | cons line lines ih => rw [List.flatten_cons, bytesOf_append, ih, List.map_cons, List.flatten_cons]

/-- A line as it is read in a diff. -/
def lineOf (line : PyStr) : DiffLine :=
  if h : 10 ∉ chomp 10 line ∧ (chomp 10 line).any unencodable = false then
    ⟨chomp 10 line, true, h.1, h.2⟩
  else ⟨[], true, List.not_mem_nil, rfl⟩

theorem PyLine.lineOf_text {line : PyStr} (h : PyLine line) :
    (lineOf line).text = TextLines.chomp 10 line ∧ (lineOf line).terminated = true := by
  unfold lineOf
  rw [dif_pos h.chomp]
  exact ⟨rfl, rfl⟩

theorem PyLine.bytes_lineOf {line : PyStr} (h : PyLine line) :
    (lineOf line).bytes = bytesOf (TextLines.chomp 10 line ++ [10]) := by
  rw [DiffLine.bytes, h.lineOf_text.1, h.lineOf_text.2, bytesOf_append]
  rfl

/-- A line that ends with a newline is read as it is. -/
theorem PyLine.bytes_terminated {line : PyStr} (h : PyLine line) (hterminated : Terminated line) :
    (lineOf line).bytes = bytesOf line := by
  rw [h.bytes_lineOf, chomp_closed (h.closed_iff.mpr hterminated)]

/-- Another line gets a newline of its own. -/
theorem PyLine.bytes_open {line : PyStr} (h : PyLine line) (hopen : ¬ Terminated line) :
    (lineOf line).bytes = bytesOf line ++ [10] := by
  have hten : 10 ∉ line := (h.oneLine.resolve_left (mt h.closed_iff.mp hopen)).2
  rw [h.bytes_lineOf, chomp_open hten, bytesOf_append]
  rfl

theorem PyLine.closed_bytesOf {line : PyStr} (h : PyLine line) (hterminated : Terminated line) :
    Closed 10 (bytesOf line) := by
  have ⟨body, hbody, heq⟩ := h.closed_iff.mpr hterminated
  refine ⟨bytesOf body, fun hmem => hbody (ten_mem_flatMap.mp hmem), ?_⟩
  rw [heq, bytesOf_append]
  rfl

/-! ## The lines of a hunk -/

def signOf {α : Type} : Edit α → CodePoint
  | .keep _ => 32
  | .delete _ => 45
  | .insert _ => 43

theorem opcodeLine_eq (e : Edit PyStr) : opcodeLine e = signOf e :: e.line := by
  cases e with
  | keep line => rfl
  | delete line => rfl
  | insert line => rfl

theorem signOf_ne {α : Type} (e : Edit α) : signOf e ≠ 10 ∧ signOf e ≠ 64 := by
  cases e with
  | keep line => simp [signOf]
  | delete line => simp [signOf]
  | insert line => simp [signOf]

theorem oneLine_opcodeLine {e : Edit PyStr} (h : PyLine e.line) :
    Closed 10 (opcodeLine e) ∨ opcodeLine e ≠ [] ∧ 10 ∉ opcodeLine e := by
  rw [opcodeLine_eq]
  have hsign := (signOf_ne e).1.symm
  cases h.oneLine with
  | inl hclosed =>
    have ⟨body, hbody, heq⟩ := hclosed
    left
    refine ⟨signOf e :: body, ?_, by rw [heq]; rfl⟩
    exact fun hmem => (List.mem_cons.mp hmem).elim hsign hbody
  | inr hopen => exact .inr ⟨nofun, fun hmem => (List.mem_cons.mp hmem).elim hsign hopen.2⟩

theorem closed_opcodeLine {e : Edit PyStr} (h : PyLine e.line) :
    Closed 10 (opcodeLine e) ↔ Terminated e.line := by
  have hlast : (opcodeLine e).getLast? = e.line.getLast? := by
    rw [opcodeLine_eq, List.getLast?_cons_of_ne_nil h.ne_nil]
  constructor
  · rintro ⟨body, _, heq⟩
    rw [heq, List.getLast?_concat] at hlast
    exact hlast.symm
  · intro hterminated
    cases oneLine_opcodeLine h with
    | inl hclosed => exact hclosed
    | inr hopen => exact absurd (List.mem_of_getLast? (hlast.trans hterminated)) hopen.2

/-- Without their ends, the lines of a hunk are the lines of its rendering. -/
theorem map_chomp_opcodeLine {edits : List (Edit PyStr)} (h : ∀ e ∈ edits, PyLine e.line) :
    (edits.map opcodeLine).map (chomp 10) = renderEdits (edits.map (Edit.map lineOf)) := by
  induction edits with
  | nil => rfl
  | cons e edits ih =>
    have ⟨he, hedits⟩ := List.forall_mem_cons.mp h
    have hrender : renderEdit (e.map lineOf) = [chomp 10 (opcodeLine e)] := by
      rw [opcodeLine_eq, chomp_cons _ he.ne_nil, ← he.lineOf_text.1]
      have hsigned : ∀ sign, signedLines sign (lineOf e.line) = [sign :: (lineOf e.line).text] := by
        intro sign
        rw [signedLines, he.lineOf_text.2]
        rfl
      cases e with
      | keep line => exact hsigned 32
      | delete line => exact hsigned 45
      | insert line => exact hsigned 43
    rw [List.map_cons, List.map_cons, ih hedits]
    show _ = renderEdit (e.map lineOf) ++ renderEdits (edits.map (Edit.map lineOf))
    rw [hrender]
    rfl

/-! ## The hunks -/

theorem formatRangeUnified_eq (start count : Nat) :
    formatRangeUnified start (start + count) = rangeText (rangeStart start count) count true := by
  unfold formatRangeUnified rangeText rangeStart
  dsimp only
  rw [Nat.add_sub_cancel_left]
  by_cases hone : count = 1
  · simp [hone]
  · by_cases hnone : count = 0
    · simp [hnone]
      rfl
    · simp [hone, hnone]
      rfl

theorem groupHeader_eq (i j oldCount newCount : Nat) :
    py "@@ -" ++ formatRangeUnified i (i + oldCount) ++ py " +" ++ formatRangeUnified j (j + newCount) ++
        py " @@\n" =
      headerText ⟨j, true, true, []⟩ i oldCount newCount ++ [10] := by
  rw [formatRangeUnified_eq, formatRangeUnified_eq]
  simp only [headerText, List.append_assoc]
  rfl

/-- The parts of a diff of the lines `a`, from the lines `i` of the one side and `j` of the other on. -/
def partsOf (a : List PyStr) : Nat → Nat → List (Hunk PyStr) → List DiffPart
  | _, _, [] => []
  | i, j, h :: hunks =>
    { gap := ((a.take h.start).drop i).map bytesOf
      edits := h.edits.map (Edit.map lineOf)
      header := ⟨j + (h.start - i), true, true, []⟩
      oneLine := List.not_mem_nil } ::
    partsOf a (h.start + (source h.edits).length) (j + (h.start - i) + (target h.edits).length) hunks

section
variable {a : List PyStr} {i j : Nat} {hunks : List (Hunk PyStr)}

theorem length_gap {start : Nat} (hi : i ≤ start) (hstart : start ≤ a.length) :
    i + (((a.take start).drop i).map bytesOf).length = start := by
  rw [List.length_map, List.length_drop, List.length_take]
  omega

theorem length_source_lineOf (edits : List (Edit PyStr)) :
    (source (edits.map (Edit.map lineOf))).length = (source edits).length := by
  rw [source_map, List.length_map]

theorem map_map_lineOf (edits : List (Edit PyStr)) :
    (edits.map (Edit.map lineOf)).map (Edit.map DiffLine.bytes) =
      edits.map (Edit.map fun line => (lineOf line).bytes) := by
  rw [List.map_map]
  apply List.map_congr_left
  intro e _
  cases e with
  | keep line => rfl
  | delete line => rfl
  | insert line => rfl

theorem length_target_lineOf (edits : List (Edit PyStr)) :
    (target (edits.map (Edit.map lineOf))).length = (target edits).length := by
  rw [target_map, List.length_map]

/-- Without their ends, the lines of a diff are the lines of its parts. -/
theorem map_chomp_groupLines (hfits : Fits a i hunks)
    (hlines : ∀ hunk ∈ hunks, ∀ e ∈ hunk.edits, PyLine e.line) :
    (groupLines i j hunks).map (chomp 10) = diffLines i (partsOf a i j hunks) := by
  induction hunks generalizing i j with
  | nil => rfl
  | cons h hunks ih =>
    have ⟨hi, hstart, _, hrest⟩ := hfits
    have ⟨hhere, hbehind⟩ := List.forall_mem_cons.mp hlines
    rw [groupLines, partsOf, diffLines]
    dsimp only
    rw [groupHeader_eq, List.map_cons, chomp_concat, List.map_append, map_chomp_opcodeLine hhere,
      ih hrest hbehind, DiffPart.oldCount, DiffPart.newCount, length_gap hi hstart,
      length_source_lineOf, length_target_lineOf]

/-- No line of a diff is glued to the next when only the last of the lines that the hunks reach may
lack its newline. -/
theorem lines_groupLines (hedits : ∀ hunk ∈ hunks, hunk.edits ≠ [])
    (hlines : ∀ hunk ∈ hunks, ∀ e ∈ hunk.edits, PyLine e.line)
    (hterminated : ∀ e ∈ (front a i hunks).dropLast, Terminated e.line) :
    Lines 10 (groupLines i j hunks) := by
  induction hunks generalizing i j with
  | nil => trivial
  | cons h hunks ih =>
    obtain ⟨hne, heditsBehind⟩ := List.forall_mem_cons.mp hedits
    obtain ⟨hhere, hbehind⟩ := List.forall_mem_cons.mp hlines
    have hclosed : ∀ edits : List (Edit PyStr), (∀ e ∈ edits, e ∈ h.edits ∧ Terminated e.line) →
        ∀ line ∈ edits.map opcodeLine, Closed 10 line := by
      intro edits hall line hline
      obtain ⟨e, he, rfl⟩ := List.mem_map.mp hline
      obtain ⟨hmem, hends⟩ := hall e he
      exact (closed_opcodeLine (hhere e hmem)).mpr hends
    have hheader : ∀ start, Closed 10
        (headerText ⟨start, true, true, []⟩ h.start (source h.edits).length (target h.edits).length ++
          [10]) :=
      fun start => ⟨_, headerText_oneLine List.not_mem_nil _ _ _, rfl⟩
    rw [groupLines, groupHeader_eq, lines_cons_closed (hheader _)]
    rw [dropLast_front hne] at hterminated
    obtain ⟨-, hfront⟩ := List.forall_mem_append.mp hterminated
    cases hunks with
    | nil =>
      -- the last line of the last hunk
      rw [front, List.append_nil] at hfront
      rw [groupLines, List.append_nil, ← List.dropLast_append_getLast hne, List.map_append,
        lines_append_closed (hclosed _ fun e he => ⟨List.mem_of_mem_dropLast he, hfront e he⟩)]
      exact oneLine_opcodeLine (hhere _ (List.getLast_mem hne))
    | cons next hunks =>
      rw [List.dropLast_append_of_ne_nil (front_ne_nil (List.cons_ne_nil next hunks) heditsBehind)] at hfront
      obtain ⟨hends, hrest⟩ := List.forall_mem_append.mp hfront
      rw [lines_append_closed (hclosed _ fun e he => ⟨he, hends e he⟩)]
      exact ih heditsBehind hbehind hrest

theorem patchLines_groupLines (hfits : Fits a i hunks) (hlines : Lines 10 (groupLines i j hunks))
    (hpy : ∀ hunk ∈ hunks, ∀ e ∈ hunk.edits, PyLine e.line) :
    patchLines (groupLines i j hunks).flatten = diffLines i (partsOf a i j hunks) := by
  rw [patchLines_eq, splitAfter_flatten hlines]
  exact map_chomp_groupLines hfits hpy

/-- The script of the parts is the script of the hunks, with every line as it is read. -/
theorem whole_partsOf (hedits : ∀ hunk ∈ hunks, hunk.edits ≠ [])
    (hpy : ∀ e ∈ front a i hunks, PyLine e.line)
    (hterminated : ∀ e ∈ (front a i hunks).dropLast, Terminated e.line) (tail : List Bytes) :
    whole ((partsOf a i j hunks).map DiffPart.part) tail =
      (front a i hunks).map (Edit.map fun line => (lineOf line).bytes) ++ tail.map Edit.keep := by
  induction hunks generalizing i j with
  | nil => rfl
  | cons h hunks ih =>
    obtain ⟨hne, heditsBehind⟩ := List.forall_mem_cons.mp hedits
    have hbehind : ∀ e ∈ front a (h.start + (source h.edits).length) hunks, PyLine e.line :=
      fun e he => hpy e (List.mem_append_right _ he)
    have hends : ∀ e ∈ (front a (h.start + (source h.edits).length) hunks).dropLast,
        Terminated e.line :=
      fun e he => hterminated e (mem_dropLast_front hne he)
    -- the lines between the hunks are read as they are
    have hgap : ((a.take h.start).drop i).map bytesOf =
        ((a.take h.start).drop i).map fun line => (lineOf line).bytes := by
      apply List.map_congr_left
      intro line hline
      have hkeep : Edit.keep line ∈ ((a.take h.start).drop i).map Edit.keep :=
        List.mem_map_of_mem hline
      have hpyLine := hpy (.keep line) (List.mem_append_left _ (List.mem_append_left _ hkeep))
      rw [dropLast_front hne] at hterminated
      exact (hpyLine.bytes_terminated (hterminated (.keep line) (List.mem_append_left _ hkeep))).symm
    rw [partsOf, List.map_cons, whole, ih heditsBehind hbehind hends, DiffPart.part, front]
    dsimp only
    rw [hgap, map_map_lineOf]
    simp only [List.map_append, List.map_map, List.append_assoc]
    rfl

/-- The numbers in the headers are no greater than the numbers of lines. -/
theorem numbers_partsOf (hfits : Fits a i hunks) :
    ∀ h ∈ diffHunks i (partsOf a i j hunks), h.oldStart ≤ a.length ∧ h.oldCount ≤ a.length ∧
      h.newCount ≤ (target (front a i hunks)).length := by
  induction hunks generalizing i j with
  | nil => exact nofun
  | cons h hunks ih =>
    obtain ⟨hi, hstart, hbegins, hrest⟩ := hfits
    have hlength := hbegins.length_le
    rw [List.length_drop] at hlength
    rw [partsOf, diffHunks, front]
    dsimp only
    rw [DiffPart.oldCount, DiffPart.newCount]
    dsimp only
    rw [length_gap hi hstart, length_source_lineOf, length_target_lineOf, target_append, target_append,
      List.length_append, List.length_append]
    refine List.forall_mem_cons.mpr ⟨⟨?_, ?_, ?_⟩, fun other hother => ?_⟩
    · show rangeStart h.start (source h.edits).length ≤ a.length
      unfold rangeStart
      split
      · exact hstart
      · omega
    · show (source h.edits).length ≤ a.length
      omega
    · show (target h.edits).length ≤ _
      omega
    · obtain ⟨hnumber, hold, hnew⟩ := ih hrest other hother
      exact ⟨hnumber, hold, by omega⟩

end

end HassNode.FsPatch
