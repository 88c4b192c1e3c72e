import HassNode.DiffText

/-!
# The lines of a patched text

The result of a patch is joined from lines that carry their newlines.  One that carries none is glued
to what comes behind it; so a patched text has the lines that the patch gives it exactly when a line
without newline comes last.
-/

namespace HassNode.FsPatch

open Py TextLines EditScript

/-- The patched text has a line for every line that was kept or inserted, and those that were kept are
among its lines. -/
structure KeepsLines (original result : Bytes) (edits : List (Edit Bytes)) : Prop where
  count : (splitLinesKeepEnds result).length + (deleted edits).length =
    (splitLinesKeepEnds original).length + (inserted edits).length
  kept : (kept edits).Sublist (splitLinesKeepEnds result)

/-- A line without newline that is kept or inserted is not empty, and nothing is kept or inserted
behind it. -/
def NewlinesInPlace : List (Edit Bytes) → Prop
  | [] => True
  | e :: rest => (∀ line ∈ e.new?, 10 ∉ line → line ≠ [] ∧ target rest = []) ∧ NewlinesInPlace rest

/-! ## The lines of a patch -/

/-- Newlines stand at the end of a line only. -/
def OneLine (line : Bytes) : Prop := Closed 10 line ∨ 10 ∉ line

theorem oneLine_of_lines {pieces : List Bytes} (h : Lines 10 pieces) :
    ∀ piece ∈ pieces, OneLine piece :=
  fun piece hpiece => (closed_or_open_of_lines h piece hpiece).imp_right And.right

theorem not_mem_of_mem_patchLines {patchText line : PyStr} (h : line ∈ patchLines patchText) :
    10 ∉ line := by
  rw [patchLines_eq] at h
  have ⟨piece, hpiece, heq⟩ := List.mem_map.mp h
  have hlines := closed_or_open_of_lines (lines_splitAfter 10 patchText) piece hpiece
  rw [← heq]
  exact not_mem_chomp (hlines.imp_right And.right)

/-- The lines of a hunk are lines of the patch. -/
theorem mem_of_splitHunks {lines : List PyStr} :
    (∀ line ∈ (splitHunks lines).1, line ∈ lines) ∧
      ∀ hunk ∈ (splitHunks lines).2, ∀ line ∈ hunk.2, line ∈ lines := by
  induction lines with
  | nil => exact ⟨List.forall_mem_nil _, List.forall_mem_nil _⟩
  | cons first lines ih =>
    have hbody : ∀ line ∈ (splitHunks lines).1, line ∈ first :: lines := fun line h => .tail _ (ih.1 line h)
    have hhunks : ∀ hunk ∈ (splitHunks lines).2, ∀ line ∈ hunk.2, line ∈ first :: lines :=
      fun hunk hhunk line h => .tail _ (ih.2 hunk hhunk line h)
    rw [splitHunks]
    dsimp only
    split
    · exact ⟨List.forall_mem_nil _, List.forall_mem_cons.mpr ⟨hbody, hhunks⟩⟩
    · exact ⟨List.forall_mem_cons.mpr ⟨.head _, hbody⟩, hhunks⟩

/-- The lines of some edits. -/
def EditsOneLine (edits : List (Edit Bytes)) : Prop := ∀ e ∈ edits, ∀ line ∈ e.new?, OneLine line

theorem encodeUtf8_oneLine {body : PyStr} (hbody : 10 ∉ body) {noNewline : Bool} {line : Bytes}
    (h : encodeUtf8 (if noNewline then body else body ++ [10]) = some line) : OneLine line := by
  cases noNewline with
  | true =>
    right
    rw [(encodeUtf8_eq_some_iff.mp h).2]
    exact fun hmem => hbody (ten_mem_flatMap.mp hmem)
  | false =>
    left
    refine ⟨body.flatMap utf8Char, fun hmem => hbody (ten_mem_flatMap.mp hmem), ?_⟩
    have hline : line = (body ++ [10]).flatMap utf8Char := (encodeUtf8_eq_some_iff.mp h).2
    rw [hline, List.flatMap_append]
    rfl

theorem readTagged_oneLine {tag : CodePoint} {body : PyStr} (hbody : 10 ∉ body) {noNewline : Bool}
    {edits : List (Edit Bytes)} (h : readTagged tag body noNewline = some edits) :
    EditsOneLine edits := by
  unfold readTagged at h
  split at h
  · cases h
  · rename_i line hline
    have honeLine : OneLine line := encodeUtf8_oneLine hbody hline
    split_ifs at h
    · cases h
      exact List.forall_mem_singleton.mpr fun _ heq => Option.some.inj heq ▸ honeLine
    · cases h
      exact List.forall_mem_singleton.mpr nofun
    · cases h
      exact List.forall_mem_singleton.mpr fun _ heq => Option.some.inj heq ▸ honeLine
    · cases h
      exact nofun

theorem readBody_oneLine {lines : List PyStr} (hlines : ∀ line ∈ lines, 10 ∉ line)
    {edits : List (Edit Bytes)} (h : readBody lines = some edits) : EditsOneLine edits := by
  have hseq : ∀ {first : Option (List (Edit Bytes))} {rest : List PyStr} {all : List (Edit Bytes)},
      (∀ edits, first = some edits → EditsOneLine edits) →
      (∀ edits, readBody rest = some edits → EditsOneLine edits) →
      (first.bind fun edits => (readBody rest).map (edits ++ ·)) = some all → EditsOneLine all := by
    intro first rest all hfirst hrest hall
    obtain ⟨edits, hedits, hmap⟩ := Option.bind_eq_some_iff.mp hall
    obtain ⟨others, hothers, heq⟩ := Option.map_eq_some_iff.mp hmap
    rw [← heq]
    exact List.forall_mem_append.mpr ⟨hfirst edits hedits, hrest others hothers⟩
  fun_induction readBody lines generalizing edits with
  | case1 =>
    cases h
    exact List.forall_mem_nil _
  | case2 rest ih =>
    obtain ⟨others, hothers, heq⟩ := Option.map_eq_some_iff.mp h
    rw [← heq]
    have hblank : OneLine [10] := .inl ⟨[], List.not_mem_nil, rfl⟩
    exact List.forall_mem_cons.mpr ⟨fun _ hline => Option.some.inj hline ▸ hblank,
      ih (fun line hmem => hlines line (.tail _ hmem)) hothers⟩
  | case3 tag body =>
    exact readTagged_oneLine (fun hmem => hlines _ (.head _) (.tail _ hmem)) h
  | case4 tag body next rest hmarker ih =>
    have hbody : 10 ∉ body := fun hmem => hlines _ (.head _) (.tail _ hmem)
    exact hseq (fun _ => readTagged_oneLine hbody)
      (fun _ => ih fun line hmem => hlines line (.tail _ (.tail _ hmem))) h
  | case5 tag body next rest hmarker ih =>
    have hbody : 10 ∉ body := fun hmem => hlines _ (.head _) (.tail _ hmem)
    exact hseq (fun _ => readTagged_oneLine hbody)
      (fun _ => ih fun line hmem => hlines line (.tail _ hmem)) h

section
variable [Runtime]

theorem readHunks_oneLine {hunks : List (PyStr × List PyStr)} {hs : List DiffHunk}
    (hlines : ∀ hunk ∈ hunks, ∀ line ∈ hunk.2, 10 ∉ line) (h : readHunks hunks = some hs) :
    ∀ hunk ∈ hs, EditsOneLine hunk.edits := by
  induction hunks generalizing hs with
  | nil =>
    cases h
    exact nofun
  | cons hunk hunks ih =>
    have ⟨first, hfirst, hrest⟩ := Option.bind_eq_some_iff.mp h
    have ⟨rest, hrest, heq⟩ := Option.bind_eq_some_iff.mp hrest
    have ⟨_, _, _, _, _, hbody⟩ := readHunk_eq_some_iff.mp hfirst
    have ⟨hhere, hbehind⟩ := List.forall_mem_cons.mp hlines
    rw [← Option.some.inj heq]
    exact List.forall_mem_cons.mpr ⟨readBody_oneLine hhere hbody, ih hbehind hrest⟩

theorem editsOf_oneLine {original : Bytes} {patchText : PyStr} {hunks : List DiffHunk}
    (h : readDiff patchText = some hunks) : EditsOneLine (editsOf original hunks) := by
  have hhunks : ∀ hunk ∈ hunks, EditsOneLine hunk.edits :=
    readHunks_oneLine (fun hunk hhunk line hline =>
      not_mem_of_mem_patchLines (mem_of_splitHunks.2 hunk hhunk line hline)) h
  intro e he
  cases mem_script he with
  | inl hkept =>
    have ⟨line, hline, heq⟩ := hkept
    rw [heq]
    exact fun _ hsame => Option.some.inj hsame ▸ oneLine_of_lines (lines_splitAfter 10 original) line hline
  | inr hchanged =>
    have ⟨hunk, hmem, hedit⟩ := hchanged
    have ⟨diffHunk, hdiff, heq⟩ := List.mem_map.mp hmem
    rw [← heq] at hedit
    exact hhunks diffHunk hdiff e hedit

/-! ## The law -/

omit [Runtime] in
/-- Newlines are in place exactly when the lines that are left are the lines of a text. -/
theorem newlinesInPlace_iff {edits : List (Edit Bytes)} (h : EditsOneLine edits) :
    NewlinesInPlace edits ↔ Lines 10 (target edits) := by
  induction edits with
  | nil => exact Iff.rfl
  | cons e edits ih =>
    have ⟨hhere, hbehind⟩ := List.forall_mem_cons.mp h
    have hrest := ih hbehind
    have hnew : ∀ line, e.new? = some line → target (e :: edits) = line :: target edits :=
      fun line hline => List.filterMap_cons_some hline
    have hleft : ∀ line, e.new? = some line →
        (((∀ line ∈ e.new?, 10 ∉ line → line ≠ [] ∧ target edits = []) ∧ NewlinesInPlace edits) ↔
          Lines 10 (target (e :: edits))) := by
      intro line hline
      rw [hnew line hline, hrest, hline]
      cases hhere line hline with
      | inl hclosed =>
        rw [lines_cons_closed hclosed]
        have hnone : ∀ other ∈ some line, 10 ∉ other → other ≠ [] ∧ target edits = [] := by
          intro other hother hopen
          rw [← Option.some.inj hother] at hopen
          exact absurd hclosed (not_closed hopen)
        exact ⟨fun hboth => hboth.2, fun hlines => ⟨hnone, hlines⟩⟩
      | inr hopen =>
        rw [lines_cons_open hopen]
        constructor
        · exact fun hboth => hboth.1 line rfl hopen
        · intro hlast
          refine ⟨fun other hother _ => Option.some.inj hother ▸ hlast, ?_⟩
          rw [hlast.2]
          trivial
    cases e with
    | keep line => exact hleft line rfl
    | insert line => exact hleft line rfl
    | delete line => exact ⟨fun hboth => hrest.mp hboth.2, fun hlines => ⟨nofun, hrest.mpr hlines⟩⟩

/-- A patched text has the lines that the patch gives it exactly when a line without newline comes
last and is not empty. -/
theorem patch_keeps_lines_iff {original result : Bytes} {patchText : PyStr} {n : Nat}
    (h : applyUnifiedDiff original patchText = .ok (result, n)) :
    ∃ hunks, readDiff patchText = some hunks ∧
      (KeepsLines original result (editsOf original hunks) ↔
        NewlinesInPlace (editsOf original hunks)) := by
  have ⟨hunks, hread, _, _, hfits, hresult, _⟩ := applyUnifiedDiff_ok_iff.mp h
  refine ⟨hunks, hread, ?_⟩
  have honeLine : EditsOneLine (editsOf original hunks) := editsOf_oneLine hread
  have hpieces : ∀ piece ∈ target (editsOf original hunks), OneLine piece := by
    intro piece hpiece
    have ⟨e, he, hnew⟩ := List.mem_filterMap.mp hpiece
    exact honeLine e he piece hnew
  have hsource : source (editsOf original hunks) = splitLinesKeepEnds original := source_script hfits
  have holdCount := length_source (editsOf original hunks)
  have hnewCount := length_target (editsOf original hunks)
  rw [hsource] at holdCount
  have hlines : (splitLinesKeepEnds result).length = (target (editsOf original hunks)).length ↔
      Lines 10 (target (editsOf original hunks)) := by
    rw [hresult]
    exact length_splitAfter_iff hpieces
  rw [newlinesInPlace_iff honeLine]
  constructor
  · intro hkeeps
    have hcount := hkeeps.count
    exact hlines.mp (by omega)
  · intro hall
    have hcount := hlines.mpr hall
    refine ⟨by omega, ?_⟩
    have hsplit : splitLinesKeepEnds result = target (editsOf original hunks) := by
      rw [hresult]
      exact splitAfter_flatten hall
    rw [hsplit]
    exact kept_sublist_target _

end

/-! ## Two patches -/

section
open Sample

theorem read_inserted : readDiff (py "@@ -1,0 +2 @@
+b
") = some [⟨1, 0, 1, [.insert [98, 10]]⟩] := by decide

/-- A line that is inserted behind a line with a newline keeps that line as it is. -/
theorem patch_keeps_lines_sample : ∃ hunks,
    readDiff (py "@@ -1,0 +2 @@
+b
") = some hunks ∧
      KeepsLines [97, 10] [97, 10, 98, 10] (editsOf [97, 10] hunks) := by
  have happly : applyUnifiedDiff [97, 10] (py "@@ -1,0 +2 @@
+b
") = .ok ([97, 10, 98, 10], 1) := by
    decide
  have ⟨hunks, hread, hkeeps⟩ := patch_keeps_lines_iff happly
  refine ⟨hunks, hread, hkeeps.mpr ?_⟩
  have hedits : editsOf [97, 10] hunks = [.keep [97, 10], .insert [98, 10]] := by
    rw [← Option.some.inj (read_inserted.symm.trans hread)]
    decide
  rw [hedits]
  refine ⟨fun line hline hopen => ?_, fun line hline hopen => ?_, trivial⟩
  · cases hline
    exact absurd (by decide) hopen
  · cases hline
    exact absurd (by decide) hopen

/-- A line that is inserted behind a last line without newline is glued to it. -/
theorem inserted_line_glued :
    applyUnifiedDiff [97] (py "@@ -1,0 +2 @@
+b
") = .ok ([97, 98, 10], 1) ∧
    ∀ hunks, readDiff (py "@@ -1,0 +2 @@
+b
") = some hunks →
      ¬ KeepsLines [97] [97, 98, 10] (editsOf [97] hunks) := by
  refine ⟨by decide, fun hunks hread hkeeps => ?_⟩
  rw [← Option.some.inj (read_inserted.symm.trans hread)] at hkeeps
  exact absurd hkeeps.count (by decide)

end

end HassNode.FsPatch
