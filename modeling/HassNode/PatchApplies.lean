import HassNode.DiffText

/-!
# The applier of unified diffs

A diff that describes an edit script of a text turns it into the edited text; and whenever the applier
returns a text, the patch was such a diff.
-/

namespace HassNode.FsPatch

open Py TextLines EditScript

/-! ## The hunks of a diff -/

theorem DiffPart.oldCount_eq (p : DiffPart) : (source p.part.edits).length = p.oldCount := by
  unfold DiffPart.part
  rw [source_map, List.length_map]
  rfl

theorem DiffPart.newCount_eq (p : DiffPart) : (target p.part.edits).length = p.newCount := by
  unfold DiffPart.part
  rw [target_map, List.length_map]
  rfl

/-- The place that a header gives is the number of lines in front of its hunk. -/
theorem index_rangeStart (index oldCount newCount : Nat) (edits : List (Edit Bytes)) :
    DiffHunk.index ⟨rangeStart index oldCount, oldCount, newCount, edits⟩ = index := by
  unfold DiffHunk.index rangeStart
  by_cases hempty : oldCount = 0
  · rw [if_pos hempty, if_pos hempty]
  · rw [if_neg hempty, if_neg hempty]
    rfl

theorem map_hunk_diffHunks (cursor : Nat) (parts : List DiffPart) :
    (diffHunks cursor parts).map DiffHunk.hunk = place cursor (parts.map DiffPart.part) := by
  induction parts generalizing cursor with
  | nil => rfl
  | cons p parts ih =>
    have hhunk : DiffHunk.hunk ⟨rangeStart (cursor + p.gap.length) p.oldCount, p.oldCount, p.newCount,
        p.part.edits⟩ = ⟨cursor + p.gap.length, p.part.edits⟩ := by
      unfold DiffHunk.hunk
      rw [index_rangeStart]
    rw [diffHunks, List.map_cons, ih, hhunk, List.map_cons, place, p.oldCount_eq]
    rfl

theorem counted_diffHunks (cursor : Nat) (parts : List DiffPart) :
    ∀ h ∈ diffHunks cursor parts, h.Counted := by
  induction parts generalizing cursor with
  | nil => exact nofun
  | cons p parts ih =>
    exact List.forall_mem_cons.mpr ⟨⟨p.oldCount_eq, p.newCount_eq⟩, ih _⟩

theorem length_diffHunks (cursor : Nat) (parts : List DiffPart) :
    (diffHunks cursor parts).length = parts.length := by
  induction parts generalizing cursor with
  | nil => rfl
  | cons p parts ih => exact congrArg (· + 1) (ih _)

section
variable [Runtime]

/-- A diff of an edit script turns the text that the script goes through into the one it leaves. -/
theorem applyUnifiedDiff_diffText {original : Bytes} {preamble : List PyStr} {parts : List DiffPart}
    {tail : List Bytes} {final : Bool}
    (hpreamble : ∀ line ∈ preamble, 10 ∉ line ∧ isHunkLine line = false) (hparts : parts ≠ [])
    (hshort : ShortNumbers (diffHunks 0 parts))
    (hsource : splitLinesKeepEnds original = source (whole (parts.map DiffPart.part) tail)) :
    applyUnifiedDiff original (diffText preamble parts final) =
      .ok ((target (whole (parts.map DiffPart.part) tail)).flatten, parts.length) := by
  have hplace : Fits (splitLinesKeepEnds original) 0 (place 0 (parts.map DiffPart.part)) ∧
      script (splitLinesKeepEnds original) 0 (place 0 (parts.map DiffPart.part)) =
        whole (parts.map DiffPart.part) tail := fits_place hsource (Nat.zero_le _)
  have ⟨hfits, hscript⟩ := hplace
  have hmap := map_hunk_diffHunks 0 parts
  have hlength := length_diffHunks 0 parts
  apply applyUnifiedDiff_ok_iff.mpr
  refine ⟨diffHunks 0 parts, readDiff_diffText hpreamble hparts hshort, ?_, counted_diffHunks 0 parts,
    hmap ▸ hfits, ?_, hlength.symm⟩
  · exact fun hnil => hparts (List.length_eq_zero_iff.mp (hlength ▸ congrArg List.length hnil))
  · rw [editsOf, hmap, hscript]

/-- Every well-formed diff of a text is applied as it is meant; and every text that is returned is
what hunks leave that stand in the patch, count their lines, lie behind each other and go through the
lines of the original. -/
theorem unified_diff_applied :
    (∀ (original : Bytes) (preamble : List PyStr) (parts : List DiffPart) (tail : List Bytes)
        (final : Bool), (∀ line ∈ preamble, 10 ∉ line ∧ isHunkLine line = false) → parts ≠ [] →
      ShortNumbers (diffHunks 0 parts) →
      splitLinesKeepEnds original = source (whole (parts.map DiffPart.part) tail) →
      applyUnifiedDiff original (diffText preamble parts final) =
        .ok ((target (whole (parts.map DiffPart.part) tail)).flatten, parts.length)) ∧
    ∀ (original : Bytes) (patchText : PyStr) (result : Bytes) (n : Nat),
      applyUnifiedDiff original patchText = .ok (result, n) →
      ∃ hunks, readDiff patchText = some hunks ∧ n = hunks.length ∧ (∀ h ∈ hunks, h.Counted) ∧
        Fits (splitLinesKeepEnds original) 0 (hunks.map DiffHunk.hunk) ∧
        result = (target (editsOf original hunks)).flatten := by
  constructor
  · intro original preamble parts tail final hpreamble hparts hshort hsource
    exact applyUnifiedDiff_diffText hpreamble hparts hshort hsource
  · intro original patchText result n happly
    have ⟨hunks, hread, _, hcounted, hfits, hresult, hn⟩ := applyUnifiedDiff_ok_iff.mp happly
    exact ⟨hunks, hread, hn, hcounted, hfits, hresult⟩

end

/-! ## One diff -/

/-- The second line of a text without final newline gets another text and a newline. -/
def lastLinePart : DiffPart where
  gap := [[97, 10]]
  edits := [.delete ⟨py "b", false, by decide, by decide⟩, .insert ⟨py "c", true, by decide, by decide⟩]
  header := ⟨1, true, true, []⟩
  oneLine := by decide

section
open Sample

theorem unified_diff_applied_sample :
    applyUnifiedDiff [97, 10, 98]
      (py "--- x\n+++ y\n@@ -2 +2 @@\n-b\n\\ No newline at end of file\n+c\n") =
    .ok ([97, 10, 99, 10], 1) := by
  have hshort : ShortNumbers (diffHunks 0 [lastLinePart]) := by
    unfold ShortNumbers ShortNumber
    decide
  have happly := unified_diff_applied.1 [97, 10, 98] [py "--- x", py "+++ y"] [lastLinePart] [] true
    (by decide) (by decide) hshort (by decide)
  have htext : diffText [py "--- x", py "+++ y"] [lastLinePart] true =
    py "--- x\n+++ y\n@@ -2 +2 @@\n-b\n\\ No newline at end of file\n+c\n" := by decide
  rw [htext] at happly
  exact happly

end

end HassNode.FsPatch
