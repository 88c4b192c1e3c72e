import HassNode.BackupRuns
import HassNode.DiffRendering
import HassNode.RestoreAtTime
import Mathlib.Data.Nat.Digits.Lemmas

/-!
# The node's own diffs, applied

A diff of two texts applies when every line that its hunks reach ends with a newline: the applier adds
one to every line, and the diff marks none that lacks it.
-/

namespace HassNode.FsPatch

open Py TextLines EditScript BackupStore

/-! ## Numbers -/

theorem length_natStr (n : Nat) : (natStr n).length = max 1 (Nat.digits 10 n).length := by
  unfold natStr
  by_cases hzero : n = 0
  · rw [if_pos hzero, hzero]
    rfl
  · have hpos : 0 < (Nat.digits 10 n).length :=
      List.length_pos_of_ne_nil (Nat.digits_ne_nil_iff_ne_zero.mpr hzero)
    rw [if_neg hzero, digitStr, natDigits, List.length_map, List.length_map, List.length_reverse]
    omega

theorem ShortNumber.of_le {m n : Nat} (h : ShortNumber n) (hmn : m ≤ n) : ShortNumber m := by
  have hdigits := Nat.le_length_digits_le 10 m n hmn
  unfold ShortNumber at h ⊢
  rw [length_natStr] at h ⊢
  omega

/-! ## The labels -/

/-- The lines of a diff that name its sides. -/
def labelText (fromLabel toLabel : PyStr) : PyStr :=
  py "--- " ++ fromLabel ++ py "\n" ++ (py "+++ " ++ toLabel ++ py "\n")

theorem getLast?_labelText (fromLabel toLabel : PyStr) :
    (labelText fromLabel toLabel).getLast? = some 10 := by
  unfold labelText
  rw [← List.append_assoc, ← List.append_assoc]
  exact List.getLast?_concat

/-- A hunk that changes nothing. -/
structure Inert (h : DiffHunk) : Prop where
  counted : h.Counted
  idle : h.hunk.Idle
  silent : (target h.edits).flatten = []

section
variable [Runtime]

/-- Nothing in the labels is read as a hunk that does something. -/
def InertLabels (fromLabel toLabel : PyStr) : Prop :=
  ∃ hunks, readDiff (labelText fromLabel toLabel) = some hunks ∧ ∀ h ∈ hunks, Inert h

/-- Labels without a line that looks like a hunk header. -/
theorem inertLabels_of_plain {fromLabel toLabel : PyStr}
    (h : ∀ line ∈ patchLines (labelText fromLabel toLabel), isHunkLine line = false) :
    InertLabels fromLabel toLabel := by
  refine ⟨[], ?_, nofun⟩
  have hsplit := splitHunks_append h []
  rw [List.append_nil] at hsplit
  unfold readDiff
  rw [hsplit]
  rfl

end

/-! ## When a diff is empty -/

theorem diffOfTexts_eq (d : Differ) {old new : PyStr} (fromLabel toLabel : PyStr)
    (hne : d.hunks (splitLinesKeep old) (splitLinesKeep new) ≠ []) :
    diffOfTexts d old new fromLabel toLabel =
      labelText fromLabel toLabel ++
        (groupLines 0 0 (d.hunks (splitLinesKeep old) (splitLinesKeep new))).flatten := by
  unfold diffOfTexts unifiedDiff labelText
  rw [if_neg hne, List.flatten_cons, List.flatten_cons]
  simp only [List.append_assoc]

/-- Only equal texts have no hunks. -/
theorem hunks_eq_nil_iff (d : Differ) {old new : PyStr} :
    d.hunks (splitLinesKeep old) (splitLinesKeep new) = [] ↔ old = new := by
  constructor
  · intro hnil
    have hleaves := d.leaves (splitLinesKeep old) (splitLinesKeep new)
    rw [hnil, script, List.drop_zero, target_map_keep] at hleaves
    rw [← flatten_splitLinesKeep old, hleaves, flatten_splitLinesKeep]
  · rintro rfl
    exact d.none_of_equal _

/-- The diff is empty exactly when the texts are equal. -/
theorem diffOfTexts_eq_nil_iff (d : Differ) {old new : PyStr} (fromLabel toLabel : PyStr) :
    diffOfTexts d old new fromLabel toLabel = [] ↔ old = new := by
  by_cases hnil : d.hunks (splitLinesKeep old) (splitLinesKeep new) = []
  · have hempty : diffOfTexts d old new fromLabel toLabel = [] := by
      unfold diffOfTexts unifiedDiff
      rw [if_pos hnil]
      rfl
    exact ⟨fun _ => (hunks_eq_nil_iff d).mp hnil, fun _ => hempty⟩
  · rw [diffOfTexts_eq d fromLabel toLabel hnil]
    refine ⟨fun hempty => ?_, fun heq => absurd ((hunks_eq_nil_iff d).mpr heq) hnil⟩
    have hlast := getLast?_labelText fromLabel toLabel
    rw [(List.append_eq_nil_iff.mp hempty).1] at hlast
    cases hlast

/-! ## Diffs that apply -/

section
variable [Runtime]

/-- The hunks of the labels and those of a diff behind them. -/
theorem applyUnifiedDiff_labelled {original result : Bytes} {fromLabel toLabel body : PyStr}
    (hbody : (splitHunks (patchLines body)).1 = []) {n : Nat} :
    applyUnifiedDiff original (labelText fromLabel toLabel ++ body) = .ok (result, n) ↔
      ∃ labels hunks, readDiff (labelText fromLabel toLabel) = some labels ∧
        readDiff body = some hunks ∧ labels ++ hunks ≠ [] ∧ (∀ h ∈ labels ++ hunks, h.Counted) ∧
        Fits (splitLinesKeepEnds original) 0 ((labels ++ hunks).map DiffHunk.hunk) ∧
        result = (target (editsOf original (labels ++ hunks))).flatten ∧
        n = (labels ++ hunks).length := by
  rw [applyUnifiedDiff_ok_iff, readDiff_append (getLast?_labelText fromLabel toLabel) hbody]
  constructor
  · rintro ⟨all, hread, hrest⟩
    have ⟨labels, hlabels, hmap⟩ := Option.bind_eq_some_iff.mp hread
    have ⟨hunks, hhunks, heq⟩ := Option.map_eq_some_iff.mp hmap
    subst heq
    exact ⟨labels, hunks, hlabels, hhunks, hrest⟩
  · rintro ⟨labels, hunks, hlabels, hhunks, hrest⟩
    refine ⟨labels ++ hunks, ?_, hrest⟩
    rw [hlabels, hhunks]
    rfl

omit [Runtime] in
theorem silent_iff {hunks : List DiffHunk} :
    (target (hunks.flatMap DiffHunk.edits)).flatten = [] ↔
      ∀ h ∈ hunks, (target h.edits).flatten = [] := by
  induction hunks with
  | nil => exact ⟨fun _ => nofun, fun _ => rfl⟩
  | cons h hunks ih =>
    rw [List.flatMap_cons, target_append, List.flatten_append, List.append_eq_nil_iff, ih,
      List.forall_mem_cons]

omit [Runtime] in
/-- Hunks in front of the first line only add what they insert. -/
theorem fits_labels (src : List Bytes) {labels : List DiffHunk} (hunks : List DiffHunk)
    (h : ∀ label ∈ labels, label.hunk.Idle) :
    (Fits src 0 ((labels ++ hunks).map DiffHunk.hunk) ↔ Fits src 0 (hunks.map DiffHunk.hunk)) ∧
      script src 0 ((labels ++ hunks).map DiffHunk.hunk) =
        labels.flatMap DiffHunk.edits ++ script src 0 (hunks.map DiffHunk.hunk) := by
  have hidle : ∀ hunk ∈ labels.map DiffHunk.hunk, hunk.Idle := by
    intro hunk hhunk
    have ⟨label, hlabel, heq⟩ := List.mem_map.mp hhunk
    exact heq ▸ h label hlabel
  have ⟨hfits, hscript⟩ := fits_idle src (hunks.map DiffHunk.hunk) hidle
  rw [List.map_append, hfits, hscript, List.flatMap_map]
  exact ⟨Iff.rfl, rfl⟩

/-- Every line that the hunks reach ends with a newline, but the very last may be a context line that
an empty line follows: the applier takes the two for one. -/
structure Reached (a : List PyStr) (hunks : List (Hunk PyStr)) : Prop where
  lines : ∀ e ∈ (front a 0 hunks).dropLast, Terminated e.line
  last : ∀ e, (front a 0 hunks).getLast? = some e →
    Terminated e.line ∨ (∃ line, e = .keep line) ∧ (a.drop (reach 0 hunks)).head? = some [10]

section
variable {a b : List PyStr} {hunks : List (Hunk PyStr)}

omit [Runtime] in
theorem closed_bytes_lineOf {lines : List PyStr} (hlines : ∀ line ∈ lines, PyLine line) :
    ∀ piece ∈ lines.map fun line => (lineOf line).bytes, Closed 10 piece := by
  intro piece hpiece
  obtain ⟨line, hline, rfl⟩ := List.mem_map.mp hpiece
  by_cases hterminated : Terminated line
  · rw [(hlines line hline).bytes_terminated hterminated]
    exact (hlines line hline).closed_bytesOf hterminated
  · have hopen := (hlines line hline).oneLine.resolve_left (mt (hlines line hline).closed_iff.mp hterminated)
    rw [(hlines line hline).bytes_open hterminated]
    exact ⟨bytesOf line, fun hmem => hopen.2 (ten_mem_flatMap.mp hmem), rfl⟩

omit [Runtime] in
theorem flatten_bytes_lineOf {lines : List PyStr} (hlines : ∀ line ∈ lines, PyLine line)
    (hterminated : ∀ line ∈ lines, Terminated line) :
    (lines.map fun line => (lineOf line).bytes).flatten = bytesOf lines.flatten := by
  rw [bytesOf_flatten]
  apply congrArg
  apply List.map_congr_left
  exact fun line hline => (hlines line hline).bytes_terminated (hterminated line hline)

omit [Runtime] in
/-- Lines that end with newlines are read as they are, on both sides of a script. -/
theorem flatten_side_lineOf {edits : List (Edit PyStr)}
    (hedits : ∀ e ∈ edits, PyLine e.line ∧ Terminated e.line) :
    ∀ side : List (Edit PyStr) → List PyStr, side = source ∨ side = target →
      ((side edits).map fun line => (lineOf line).bytes).flatten = bytesOf (side edits).flatten := by
  intro side hkind
  have hmem : ∀ line ∈ side edits, ∃ e ∈ edits, e.line = line := by
    rcases hkind with rfl | rfl
    · exact fun line hline => exists_of_mem_source hline
    · exact fun line hline => exists_of_mem_target hline
  apply flatten_bytes_lineOf
  · intro line hline
    obtain ⟨e, he, rfl⟩ := hmem line hline
    exact (hedits e he).1
  · intro line hline
    obtain ⟨e, he, rfl⟩ := hmem line hline
    exact (hedits e he).2

omit [Runtime] in
/-- The lines that the hunks reach, as they are read, and the text behind them. -/
theorem Reached.bytes (h : Reached a hunks) (hpy : ∀ e ∈ front a 0 hunks, PyLine e.line) :
    ∃ tail : PyStr, ∀ side : List (Edit PyStr) → List PyStr, side = source ∨ side = target →
      ((side (front a 0 hunks)).map fun line => (lineOf line).bytes).flatten ++ bytesOf tail =
        bytesOf (side (front a 0 hunks) ++ a.drop (reach 0 hunks)).flatten := by
  by_cases hall : ∀ e ∈ front a 0 hunks, Terminated e.line
  · refine ⟨(a.drop (reach 0 hunks)).flatten, fun side hkind => ?_⟩
    rw [flatten_side_lineOf (fun e he => ⟨hpy e he, hall e he⟩) side hkind, ← bytesOf_append,
      ← List.flatten_append]
  · -- the last line is a context line, and an empty line follows it
    have hne : front a 0 hunks ≠ [] := by
      intro hnil
      rw [hnil] at hall
      exact hall nofun
    have hsplit := List.dropLast_append_getLast hne
    have hopen : ¬ Terminated ((front a 0 hunks).getLast hne).line := by
      intro hlast
      apply hall
      rw [← hsplit]
      exact List.forall_mem_append.mpr ⟨h.lines, List.forall_mem_singleton.mpr hlast⟩
    obtain ⟨⟨line, hkeep⟩, hempty⟩ :=
      (h.last _ (List.getLast?_eq_getLast_of_ne_nil hne)).resolve_left hopen
    obtain ⟨rest, hrest⟩ := List.head?_eq_some_iff.mp hempty
    rw [hkeep] at hopen hsplit
    have hpyLine : PyLine line := hpy (.keep line) (hsplit ▸ List.mem_append_right _ (.head _))
    refine ⟨rest.flatten, fun side hkind => ?_⟩
    have hlast : side (front a 0 hunks) = side (front a 0 hunks).dropLast ++ [line] := by
      conv_lhs => rw [← hsplit]
      rcases hkind with rfl | rfl
      · exact source_append _ _
      · exact target_append _ _
    have hfront := flatten_side_lineOf
      (fun e he => ⟨hpy e (List.mem_of_mem_dropLast he), h.lines e he⟩) side hkind
    rw [hlast, hrest, List.map_append, List.flatten_append, hfront, List.map_singleton,
      List.flatten_singleton, hpyLine.bytes_open hopen]
    simp only [List.flatten_append, List.flatten_cons, List.flatten_nil, bytesOf_append,
      List.append_assoc]
    rfl

theorem readDiff_groupLines (hfits : Fits a 0 hunks) (hlines : Lines 10 (groupLines 0 0 hunks))
    (hpy : ∀ hunk ∈ hunks, ∀ e ∈ hunk.edits, PyLine e.line)
    (hshort : ShortNumbers (diffHunks 0 (partsOf a 0 0 hunks))) :
    (splitHunks (patchLines (groupLines 0 0 hunks).flatten)).1 = [] ∧
      readDiff (groupLines 0 0 hunks).flatten = some (diffHunks 0 (partsOf a 0 0 hunks)) := by
  rw [readDiff, patchLines_groupLines hfits hlines hpy]
  exact readHunks_diffLines hshort

/-- Hunks apply when the lines that they reach end with a newline. -/
theorem apply_groupLines {fromLabel toLabel : PyStr} (hlabels : InertLabels fromLabel toLabel)
    (hfits : Fits a 0 hunks) (hleaves : target (script a 0 hunks) = b) (hnil : hunks ≠ [])
    (hedits : ∀ hunk ∈ hunks, hunk.edits ≠ []) (hshortOld : ShortNumber a.length)
    (hshortNew : ShortNumber b.length) (hpy : ∀ e ∈ front a 0 hunks, PyLine e.line)
    (hreached : Reached a hunks) :
    ∃ n, applyUnifiedDiff (bytesOf a.flatten)
      (labelText fromLabel toLabel ++ (groupLines 0 0 hunks).flatten) = .ok (bytesOf b.flatten, n) := by
  have ⟨labels, hread, hinert⟩ := hlabels
  have hpyHunks : ∀ hunk ∈ hunks, ∀ e ∈ hunk.edits, PyLine e.line :=
    fun hunk hhunk e he => hpy e (mem_front_of_mem hhunk he)
  rw [script_eq_front, target_append, target_map_keep] at hleaves
  have hshort : ShortNumbers (diffHunks 0 (partsOf a 0 0 hunks)) := by
    intro h hh
    have ⟨hstart, holdCount, hnewCount⟩ := numbers_partsOf hfits h hh
    have hcount := congrArg List.length hleaves
    rw [List.length_append] at hcount
    exact ⟨hshortOld.of_le hstart, hshortOld.of_le holdCount, hshortNew.of_le (by omega)⟩
  have hglued := lines_groupLines (i := 0) (j := 0) hedits hpyHunks hreached.lines
  have ⟨hheaders, hreadHunks⟩ := readDiff_groupLines hfits hglued hpyHunks hshort
  obtain ⟨tail, htail⟩ := hreached.bytes hpy
  have hwhole := whole_partsOf (i := 0) (j := 0) hedits hpy hreached.lines
    (splitAfter 10 (bytesOf tail))
  -- the lines of the old text are those that the parts go through
  have hsource : splitLinesKeepEnds (bytesOf a.flatten) = source
      (whole ((partsOf a 0 0 hunks).map DiffPart.part) (splitAfter 10 (bytesOf tail))) := by
    have hold := source_front hfits
    rw [List.drop_zero] at hold
    have hbytes := htail source (.inl rfl)
    rw [hold] at hbytes
    rw [hwhole, source_append, source_map, source_map_keep, ← hbytes]
    apply splitAfter_append_closed
    apply closed_bytes_lineOf
    intro line hline
    obtain ⟨e, he, rfl⟩ := exists_of_mem_source hline
    exact hpy e he
  have hlinesLeft : (splitLinesKeepEnds (bytesOf a.flatten)).drop 0 = _ := hsource
  have ⟨hplace, hscript⟩ := fits_place hlinesLeft (Nat.zero_le _)
  have ⟨hfitsLabels, hscriptLabels⟩ := fits_labels (splitLinesKeepEnds (bytesOf a.flatten))
    (diffHunks 0 (partsOf a 0 0 hunks)) fun label hlabel => (hinert label hlabel).idle
  have hmap := map_hunk_diffHunks 0 (partsOf a 0 0 hunks)
  refine ⟨(labels ++ diffHunks 0 (partsOf a 0 0 hunks)).length,
    (applyUnifiedDiff_labelled hheaders).mpr ⟨labels, diffHunks 0 (partsOf a 0 0 hunks), hread,
      hreadHunks, ?_, ?_, ?_, ?_, rfl⟩⟩
  · cases hunks with
    | nil => exact absurd rfl hnil
    | cons h hunks => exact List.append_ne_nil_of_right_ne_nil _ (List.cons_ne_nil _ _)
  · exact List.forall_mem_append.mpr ⟨fun h hh => (hinert h hh).counted, counted_diffHunks 0 _⟩
  · rw [hfitsLabels, hmap]
    exact hplace
  · have hsilent := silent_iff.mpr fun label hlabel => (hinert label hlabel).silent
    rw [editsOf, hscriptLabels, hmap, hscript, hwhole, target_append, target_append, target_map,
      target_map_keep, List.flatten_append, hsilent, List.nil_append, List.flatten_append,
      flatten_splitAfter, htail target (.inr rfl), hleaves]

end

/-! ## Diffs of one hunk -/

/-- The lines that an edit with this sign stands for. -/
def signWeight : Option CodePoint → Nat
  | some 32 => 2
  | _ => 1

def IsSign (head : Option CodePoint) : Prop := head = some 32 ∨ head = some 45 ∨ head = some 43

instance : DecidablePred IsSign := fun head =>
  inferInstanceAs (Decidable (head = some 32 ∨ head = some 45 ∨ head = some 43))

omit [Runtime] in
theorem isSign_signOf (e : Edit PyStr) : IsSign (some (signOf e)) := by
  cases e with
  | keep line => exact .inl rfl
  | delete line => exact .inr (.inl rfl)
  | insert line => exact .inr (.inr rfl)

omit [Runtime] in
theorem weight_opcodeLines (edits : List (Edit PyStr)) :
    (((edits.map opcodeLine).map List.head?).map signWeight).sum =
      (source edits).length + (target edits).length := by
  induction edits with
  | nil => rfl
  | cons e edits ih =>
    rw [List.map_cons, List.map_cons, List.map_cons, List.sum_cons, ih, opcodeLine_eq]
    cases e with
    | keep line =>
      show 2 + _ = (source edits).length + 1 + ((target edits).length + 1)
      omega
    | delete line =>
      show 1 + _ = (source edits).length + 1 + (target edits).length
      omega
    | insert line =>
      show 1 + _ = (source edits).length + ((target edits).length + 1)
      omega

omit [Runtime] in
/-- Lines under a sign are one edit each. -/
theorem length_readBody {lines : List PyStr} (hlines : ∀ line ∈ lines, IsSign line.head?)
    {edits : List (Edit Bytes)} (h : readBody lines = some edits) :
    (source edits).length + (target edits).length = ((lines.map List.head?).map signWeight).sum := by
  have htagged : ∀ {tag : CodePoint} {body : PyStr} {noNewline : Bool} {edits : List (Edit Bytes)},
      IsSign (some tag) → readTagged tag body noNewline = some edits →
      (source edits).length + (target edits).length = signWeight (some tag) := by
    intro tag body noNewline edits htag hread
    unfold readTagged at hread
    split at hread
    · cases hread
    · rcases htag with htag | htag | htag
      · cases htag
        cases hread
        rfl
      · cases htag
        cases hread
        rfl
      · cases htag
        cases hread
        rfl
  fun_induction readBody lines generalizing edits with
  | case1 =>
    cases h
    rfl
  | case2 rest ih => exact absurd (hlines [] (.head _)) (by decide)
  | case3 tag body => exact htagged (hlines _ (.head _)) h
  | case4 tag body next rest hmarker ih =>
    -- no line of these is a marker
    have hnext := hlines next (.tail _ (.head _))
    rw [head_of_control hmarker] at hnext
    exact absurd hnext (by decide)
  | case5 tag body next rest hmarker ih =>
    obtain ⟨first, hfirst, hmap⟩ := Option.bind_eq_some_iff.mp h
    obtain ⟨others, hothers, heq⟩ := Option.map_eq_some_iff.mp hmap
    have hone := htagged (hlines _ (.head _)) hfirst
    have hrest := ih (fun line hline => hlines line (.tail _ hline)) hothers
    rw [← heq, source_append, target_append, List.length_append, List.length_append, List.map_cons,
      List.map_cons, List.sum_cons, List.head?_cons]
    omega

section
variable {start : Nat} {edits : List (Edit PyStr)}

omit [Runtime] in
/-- The lines of a hunk as they are read begin with signs of its edits. -/
theorem heads_patchLines (hpy : ∀ e ∈ edits, PyLine e.line) :
    ((patchLines (edits.map opcodeLine).flatten).map List.head?).Sublist
        ((edits.map opcodeLine).map List.head?) ∧
      ∀ line ∈ patchLines (edits.map opcodeLine).flatten, IsSign line.head? := by
  have hpieces : ∀ piece ∈ edits.map opcodeLine, Closed 10 piece ∨ piece ≠ [] ∧ 10 ∉ piece := by
    intro piece hpiece
    obtain ⟨e, he, rfl⟩ := List.mem_map.mp hpiece
    exact oneLine_opcodeLine (hpy e he)
  have hheads := heads_splitAfter hpieces
  -- a line of the patch starts where a piece starts, so with a sign
  have hsigned : ∀ whole ∈ splitAfter 10 (edits.map opcodeLine).flatten, ∃ e : Edit PyStr,
      whole.head? = some (signOf e) := by
    intro whole hwhole
    obtain ⟨piece, hpiece, hhead⟩ := List.mem_map.mp (hheads.subset (List.mem_map_of_mem hwhole))
    obtain ⟨e, -, rfl⟩ := List.mem_map.mp hpiece
    exact ⟨e, by rw [← hhead, opcodeLine_eq, List.head?_cons]⟩
  have hchomp : ∀ whole ∈ splitAfter 10 (edits.map opcodeLine).flatten,
      (chomp 10 whole).head? = whole.head? := by
    intro whole hwhole
    obtain ⟨e, hhead⟩ := hsigned whole hwhole
    rw [hhead]
    exact head?_chomp (signOf_ne e).1 hhead
  rw [patchLines_eq]
  constructor
  · rw [List.map_map]
    exact (List.map_congr_left hchomp).symm ▸ hheads
  · intro line hline
    obtain ⟨whole, hwhole, rfl⟩ := List.mem_map.mp hline
    obtain ⟨e, hhead⟩ := hsigned whole hwhole
    rw [hchomp whole hwhole, hhead]
    exact isSign_signOf e

/-- A diff of one hunk is read as one hunk. -/
theorem readDiff_oneHunk (start : Nat) (hpy : ∀ e ∈ edits, PyLine e.line) :
    (splitHunks (patchLines (groupLines 0 0 [⟨start, edits⟩]).flatten)).1 = [] ∧
      ∀ hunks, readDiff (groupLines 0 0 [⟨start, edits⟩]).flatten = some hunks →
        ∃ read, readBody (patchLines (edits.map opcodeLine).flatten) = some read ∧
          hunks = [⟨rangeStart start (source edits).length, (source edits).length,
            (target edits).length, read⟩] := by
  have hbody : ∀ line ∈ patchLines (edits.map opcodeLine).flatten, isHunkLine line = false := by
    intro line hline
    have hsign := (heads_patchLines hpy).2 line hline
    rw [← Bool.not_eq_true]
    intro hhunk
    rw [head_of_control hhunk] at hsign
    exact absurd hsign (by decide)
  have hpatch : patchLines (groupLines 0 0 [⟨start, edits⟩]).flatten =
      headerText ⟨start, true, true, []⟩ start (source edits).length (target edits).length ::
        patchLines (edits.map opcodeLine).flatten := by
    have hclosed : Closed 10 (headerText ⟨start, true, true, []⟩ start (source edits).length
        (target edits).length ++ [10]) := ⟨_, headerText_oneLine List.not_mem_nil _ _ _, rfl⟩
    have hgroup : groupLines 0 0 [⟨start, edits⟩] =
        (headerText ⟨start, true, true, []⟩ start (source edits).length (target edits).length ++ [10]) ::
          edits.map opcodeLine := by
      rw [groupLines, groupLines, List.append_nil, Nat.zero_add, Nat.sub_zero]
      exact congrArg (· :: _) (groupHeader_eq start start _ _)
    rw [hgroup, List.flatten_cons, patchLines_eq, splitAfter_closed hclosed, List.map_cons, chomp_concat,
      ← patchLines_eq]
  have hsplit : splitHunks (patchLines (edits.map opcodeLine).flatten) =
      (patchLines (edits.map opcodeLine).flatten, []) := by
    have happend := splitHunks_append hbody []
    rw [splitHunks, List.append_nil] at happend
    exact happend
  rw [readDiff, hpatch, splitHunks_header (isHunkLine_headerText _ _ _ _), hsplit]
  refine ⟨rfl, fun hunks hread => ?_⟩
  obtain ⟨h, hhunk, hrest⟩ := Option.bind_eq_some_iff.mp hread
  obtain ⟨_, _, _, read, hedits, heq⟩ := readHunk_headerText_iff.mp hhunk
  have hhunks : [h] = hunks := Option.some.inj hrest
  exact ⟨read, hedits, by rw [← hhunks, heq]⟩

omit [Runtime] in
/-- When the hunk counts its lines, none was glued to the next. -/
theorem readBody_oneHunk (hpy : ∀ e ∈ edits, PyLine e.line) {read : List (Edit Bytes)}
    (hread : readBody (patchLines (edits.map opcodeLine).flatten) = some read)
    (hold : (source read).length = (source edits).length)
    (hnew : (target read).length = (target edits).length) :
    Lines 10 (edits.map opcodeLine) ∧
      read = edits.map (Edit.map fun line => (lineOf line).bytes) := by
  obtain ⟨hheads, hsigns⟩ := heads_patchLines hpy
  have hcount := length_readBody hsigns hread
  have hweights := weight_opcodeLines edits
  have hpositive : ∀ head, 0 < signWeight head := by
    intro head
    unfold signWeight
    split
    · decide
    · decide
  -- signs only go missing when lines are glued, and the counts leave no room for that
  have htotal : (((edits.map opcodeLine).map List.head?).map signWeight).sum ≤
      (((patchLines (edits.map opcodeLine).flatten).map List.head?).map signWeight).sum := by
    omega
  have hall := eq_of_sublist_of_weights hheads (fun head _ => hpositive head) htotal
  have hpieces : ∀ piece ∈ edits.map opcodeLine, Closed 10 piece ∨ 10 ∉ piece := by
    intro piece hpiece
    obtain ⟨e, he, rfl⟩ := List.mem_map.mp hpiece
    exact (oneLine_opcodeLine (hpy e he)).imp_right And.right
  have hlines : Lines 10 (edits.map opcodeLine) := by
    apply (length_splitAfter_iff hpieces).mp
    have hlength := congrArg List.length hall
    rw [patchLines_eq, List.length_map, List.length_map, List.length_map] at hlength
    exact hlength
  refine ⟨hlines, ?_⟩
  rw [patchLines_eq, splitAfter_flatten hlines, map_chomp_opcodeLine hpy, readBody_renderEdits,
    map_map_lineOf] at hread
  exact (Option.some.inj hread).symm

omit [Runtime] in
/-- A text that begins with a newline begins with an empty line. -/
theorem head_of_newline {lines : List PyStr} (hpy : ∀ line ∈ lines, PyLine line)
    (h : [10] <+: bytesOf lines.flatten) : lines.head? = some [10] := by
  cases lines with
  | nil => exact absurd h.length_le (by decide)
  | cons line lines =>
    have hline := hpy line (.head _)
    obtain ⟨c, rest, rfl⟩ := List.exists_cons_of_ne_nil hline.ne_nil
    have hten : c = 10 := by
      have hfirst : [10] <+: utf8Char c ++ bytesOf (rest ++ lines.flatten) := by
        rw [List.flatten_cons, List.cons_append] at h
        exact h
      obtain ⟨behind, hbehind⟩ := hfirst
      cases hchar : utf8Char c with
      | nil => exact absurd (length_utf8Char_pos c) (by rw [hchar]; decide)
      | cons byte bytes =>
        rw [hchar] at hbehind
        apply ten_mem_utf8Char.mp
        rw [hchar, ← (List.cons.inj hbehind).1]
        exact .head _
    subst hten
    obtain ⟨body, hbody, heq⟩ := hline.oneLine.resolve_right fun hopen => hopen.2 (.head _)
    cases body with
    | nil => exact congrArg some heq
    | cons first body =>
      rw [(List.cons.inj heq).1] at hbody
      exact absurd (.head _) hbody

omit [Runtime] in
/-- The newline that an open last line gets is one of the text behind it, and the line is kept: it is
gone through and left alike. -/
theorem keep_of_last_open (hpy : ∀ e ∈ edits, PyLine e.line) (hends : ∀ e ∈ edits.dropLast, Terminated e.line)
    {e : Edit PyStr} (hlast : edits.getLast? = some e) (hopen : ¬ Terminated e.line) {tail rest : Bytes}
    (hsides : ∀ side : List (Edit PyStr) → List PyStr, side = source ∨ side = target →
      bytesOf (side edits).flatten ++ tail =
        ((side edits).map fun line => (lineOf line).bytes).flatten ++ rest) :
    (∃ line, e = .keep line) ∧ tail = 10 :: rest := by
  have hsplit := List.dropLast_append_getLast? e hlast
  have hfront := flatten_side_lineOf fun e he => ⟨hpy e (List.mem_of_mem_dropLast he), hends e he⟩
  have hbytes := (hpy e (List.mem_of_getLast? hlast)).bytes_open hopen
  -- of both sides only the open line is left
  have hgone : bytesOf (source [e]).flatten ++ tail =
      ((source [e]).map fun line => (lineOf line).bytes).flatten ++ rest := by
    have hside := hsides source (.inl rfl)
    rw [← hsplit, source_append, List.map_append, List.flatten_append, List.flatten_append,
      hfront source (.inl rfl), bytesOf_append, List.append_assoc, List.append_assoc] at hside
    exact List.append_cancel_left hside
  have hleft : bytesOf (target [e]).flatten ++ tail =
      ((target [e]).map fun line => (lineOf line).bytes).flatten ++ rest := by
    have hside := hsides target (.inr rfl)
    rw [← hsplit, target_append, List.map_append, List.flatten_append, List.flatten_append,
      hfront target (.inr rfl), bytesOf_append, List.append_assoc, List.append_assoc] at hside
    exact List.append_cancel_left hside
  have hadded : ∀ {line : PyStr}, (lineOf line).bytes = bytesOf line ++ [10] →
      bytesOf [line].flatten ++ tail = ([line].map fun line => (lineOf line).bytes).flatten ++ rest →
      tail = 10 :: rest := by
    intro line hline heq
    rw [List.flatten_singleton, List.map_singleton, List.flatten_singleton, hline, List.append_assoc] at heq
    exact List.append_cancel_left heq
  cases e with
  | keep line => exact ⟨⟨line, rfl⟩, hadded hbytes hgone⟩
  -- the other side does not have the line, so it would gain the newline from nowhere
  | delete line =>
    have hboth : rest = 10 :: rest := (show tail = rest from hleft).symm.trans (hadded hbytes hgone)
    exact absurd (congrArg List.length hboth) (by rw [List.length_cons]; omega)
  | insert line =>
    have hboth : rest = 10 :: rest := (show tail = rest from hgone).symm.trans (hadded hbytes hleft)
    exact absurd (congrArg List.length hboth) (by rw [List.length_cons]; omega)

omit [Runtime] in
/-- A hunk that fits onto the bytes behind lines that end with newlines, on both of its sides. -/
theorem sides_of_fits {a b : List PyStr} (hfits : Fits a 0 [⟨start, edits⟩])
    (hleaves : target (script a 0 [⟨start, edits⟩]) = b) (hpyOld : ∀ line ∈ a, PyLine line)
    (hbefore : ∀ line ∈ a.take start, Terminated line) {read : List (Edit Bytes)}
    (hplaced : Fits (splitLinesKeepEnds (bytesOf a.flatten)) 0 [⟨start, read⟩])
    (hresult : bytesOf b.flatten =
      (target (script (splitLinesKeepEnds (bytesOf a.flatten)) 0 [⟨start, read⟩])).flatten) :
    ∃ rest : Bytes,
      bytesOf (source edits).flatten ++ bytesOf (a.drop (start + (source edits).length)).flatten =
          (source read).flatten ++ rest ∧
        bytesOf (target edits).flatten ++ bytesOf (a.drop (start + (source edits).length)).flatten =
          (target read).flatten ++ rest := by
  have hclosed : ∀ piece ∈ (a.take start).map bytesOf, Closed 10 piece := by
    intro piece hpiece
    obtain ⟨line, hline, rfl⟩ := List.mem_map.mp hpiece
    exact (hpyOld line (List.mem_of_mem_take hline)).closed_bytesOf (hbefore line hline)
  have hlength : ((a.take start).map bytesOf).length = start := by
    rw [List.length_map, List.length_take]
    exact Nat.min_eq_left hfits.2.1
  -- in front of the hunk the applier cuts the bytes where difflib cut the text
  have hsplit : splitLinesKeepEnds (bytesOf a.flatten) =
      (a.take start).map bytesOf ++ splitAfter 10 (bytesOf (a.drop start).flatten) := by
    rw [← splitAfter_append_closed hclosed, ← bytesOf_flatten, ← bytesOf_append, ← List.flatten_append,
      List.take_append_drop]
    rfl
  have htake : (splitLinesKeepEnds (bytesOf a.flatten)).take start = (a.take start).map bytesOf := by
    rw [hsplit]
    exact List.take_left' hlength
  have hdrop : (splitLinesKeepEnds (bytesOf a.flatten)).drop start =
      splitAfter 10 (bytesOf (a.drop start).flatten) := by
    rw [hsplit]
    exact List.drop_left' hlength
  refine ⟨((splitLinesKeepEnds (bytesOf a.flatten)).drop (start + (source read).length)).flatten, ?_, ?_⟩
  · rw [← List.flatten_append, ← drop_of_begins hplaced.2.2.1, hdrop, flatten_splitAfter,
      drop_of_begins hfits.2.2.1, List.flatten_append, bytesOf_append]
  · rw [← hleaves] at hresult
    simp only [script, target_append, target_map_keep, List.drop_zero, htake, List.flatten_append,
      bytesOf_append, ← bytesOf_flatten, List.append_assoc] at hresult
    exact List.append_cancel_left hresult

/-- A diff of one hunk behind lines that end with newlines applies only when the hunk reaches no other
line, or just one at its end. -/
theorem reached_of_applies {a b : List PyStr} {fromLabel toLabel : PyStr} {n : Nat}
    (hlabels : InertLabels fromLabel toLabel) (hfits : Fits a 0 [⟨start, edits⟩])
    (hleaves : target (script a 0 [⟨start, edits⟩]) = b) (hne : edits ≠ [])
    (hpyOld : ∀ line ∈ a, PyLine line) (hpy : ∀ e ∈ edits, PyLine e.line)
    (hbefore : ∀ line ∈ a.take start, Terminated line)
    (happly : applyUnifiedDiff (bytesOf a.flatten)
      (labelText fromLabel toLabel ++ (groupLines 0 0 [⟨start, edits⟩]).flatten) =
        .ok (bytesOf b.flatten, n)) : Reached a [⟨start, edits⟩] := by
  obtain ⟨hheaders, hreadBody⟩ := readDiff_oneHunk start hpy
  obtain ⟨labels, hunks, hread, hreadHunks, -, hcounted, happlied, hresult, -⟩ :=
    (applyUnifiedDiff_labelled hheaders).mp happly
  obtain ⟨inert, hinertRead, hinert⟩ := hlabels
  obtain rfl := Option.some.inj (hinertRead.symm.trans hread)
  obtain ⟨read, hedits, rfl⟩ := hreadBody hunks hreadHunks
  obtain ⟨-, hhunkCounted⟩ := List.forall_mem_append.mp hcounted
  obtain ⟨hold, hnew⟩ := hhunkCounted _ (.head _)
  obtain ⟨hlines, rfl⟩ := readBody_oneHunk hpy hedits hold hnew
  -- every line but the last ends with a newline
  have hends : ∀ e ∈ edits.dropLast, Terminated e.line := by
    intro e he
    apply (closed_opcodeLine (hpy e (List.mem_of_mem_dropLast he))).mp
    apply closed_of_mem_dropLast hlines
    rw [← List.map_dropLast]
    exact List.mem_map_of_mem he
  have hfront : front a 0 [⟨start, edits⟩] = (a.take start).map Edit.keep ++ edits := by
    rw [front, front, List.drop_zero, List.append_nil]
  -- the hunks of the labels go through nothing and leave nothing
  obtain ⟨hlabelsFit, hlabelsScript⟩ := fits_labels (splitLinesKeepEnds (bytesOf a.flatten)) [_]
    fun label hlabel => (hinert label hlabel).idle
  have hsilent := silent_iff.mpr fun label hlabel => (hinert label hlabel).silent
  have hplaced := hlabelsFit.mp happlied
  have hwritten := hresult
  rw [editsOf, hlabelsScript, target_append, List.flatten_append, hsilent, List.nil_append] at hwritten
  rw [List.map_singleton, DiffHunk.hunk, index_rangeStart] at hplaced hwritten
  refine ⟨fun e he => ?_, fun e he => ?_⟩
  · rw [hfront, List.dropLast_append_of_ne_nil hne] at he
    rcases List.mem_append.mp he with hgap | hmem
    · obtain ⟨line, hline, rfl⟩ := List.mem_map.mp hgap
      exact hbefore line hline
    · exact hends e hmem
  · by_cases hterminated : Terminated e.line
    · exact .inl hterminated
    · right
      have hlast : edits.getLast? = some e := by
        rw [hfront, List.getLast?_append_of_ne_nil _ hne] at he
        exact he
      obtain ⟨rest, hgone, hleft⟩ := sides_of_fits hfits hleaves hpyOld hbefore hplaced hwritten
      have hsides : ∀ side : List (Edit PyStr) → List PyStr, side = source ∨ side = target →
          bytesOf (side edits).flatten ++ bytesOf (a.drop (start + (source edits).length)).flatten =
            ((side edits).map fun line => (lineOf line).bytes).flatten ++ rest := by
        rintro side (rfl | rfl)
        · rw [hgone, source_map]
        · rw [hleft, target_map]
      obtain ⟨hkeep, htail⟩ := keep_of_last_open hpy hends hlast hterminated hsides
      refine ⟨hkeep, head_of_newline (fun line hline => hpyOld line (List.mem_of_mem_drop hline)) ?_⟩
      exact ⟨rest, htail.symm⟩

end

end

/-! ## The law -/

section
variable [Runtime] [IsoFormat] {d : Differ} {room : Nat} {s : Store} {live : Except PyStr Bytes}
  {path : PyStr} {fromVersion : SideSelector} {toVersion : Option SideSelector}
  {old new fromLabel toLabel : PyStr} {raw rawNew : Bytes}

/-- `diff` of two texts is empty exactly when they are equal.  Behind labels that hold no hunk, and with
numbers that `int` accepts, it turns the old text into the new when every line that the hunks reach
ends with a newline; and when it is one hunk behind such lines, only then. -/
theorem node_diff_applies (hfrom : s.resolveSide room path fromVersion = .ok (raw, fromLabel))
    (hto : s.otherSide room live path toVersion = .ok (rawNew, toLabel))
    (hraw : encodeUtf8 old = some raw) (hrawNew : encodeUtf8 new = some rawNew) :
    ∃ text, s.diff d room live path fromVersion toVersion = .ok text ∧ (text = [] ↔ old = new) ∧
      (old ≠ new → InertLabels fromLabel toLabel → ShortNumber (splitLinesKeep old).length →
        ShortNumber (splitLinesKeep new).length →
        (Reached (splitLinesKeep old) (d.hunks (splitLinesKeep old) (splitLinesKeep new)) →
          ∃ n, applyUnifiedDiff raw text = .ok (rawNew, n)) ∧
        ∀ h, d.hunks (splitLinesKeep old) (splitLinesKeep new) = [h] →
          (∀ line ∈ (splitLinesKeep old).take h.start, Terminated line) →
          (∃ n, applyUnifiedDiff raw text = .ok (rawNew, n)) → Reached (splitLinesKeep old) [h]) := by
  refine ⟨_, diff_of_sides hfrom hto hraw hrawNew, diffOfTexts_eq_nil_iff d fromLabel toLabel, ?_⟩
  intro hne hlabels hshortOld hshortNew
  obtain ⟨hencodable, rfl⟩ := encodeUtf8_eq_some_iff.mp hraw
  obtain ⟨hencodableNew, rfl⟩ := encodeUtf8_eq_some_iff.mp hrawNew
  have hfits := d.fits (splitLinesKeep old) (splitLinesKeep new)
  have hleaves := d.leaves (splitLinesKeep old) (splitLinesKeep new)
  have hnonempty := d.nonempty (splitLinesKeep old) (splitLinesKeep new)
  have hnil := mt (hunks_eq_nil_iff d).mp hne
  have hpyOld := pyLine_splitLinesKeep hencodable
  have hpyNew := pyLine_splitLinesKeep hencodableNew
  -- every line of a hunk is one of the old or of the new text
  have hpy : ∀ e ∈ front (splitLinesKeep old) 0 (d.hunks (splitLinesKeep old) (splitLinesKeep new)),
      PyLine e.line := by
    intro e he
    have hsource := source_front hfits
    rw [List.drop_zero] at hsource
    rw [script_eq_front, target_append] at hleaves
    cases line_mem he with
    | inl hmem => exact hpyOld _ (hsource ▸ List.mem_append_left _ hmem)
    | inr hmem => exact hpyNew _ (hleaves ▸ List.mem_append_left _ hmem)
  rw [diffOfTexts_eq d fromLabel toLabel hnil]
  constructor
  · intro hreached
    have happly := apply_groupLines hlabels hfits hleaves hnil hnonempty hshortOld hshortNew hpy hreached
    rw [flatten_splitLinesKeep, flatten_splitLinesKeep] at happly
    exact happly
  · rintro ⟨start, edits⟩ hone hbefore ⟨n, happly⟩
    rw [hone] at hfits hleaves hnonempty hpy happly
    apply reached_of_applies hlabels hfits hleaves (hnonempty _ (.head _)) hpyOld
      (fun e he => hpy e (mem_front_of_mem (.head _) he)) hbefore (n := n)
    rw [flatten_splitLinesKeep, flatten_splitLinesKeep]
    exact happly

end

/-! ## Two diffs -/

namespace DiffSample

/-- Every line of the one text is deleted, and every line of the other inserted. -/
def replaceAll (a b : List PyStr) : List (Edit PyStr) := a.map Edit.delete ++ b.map Edit.insert

theorem source_replaceAll (a b : List PyStr) : source (replaceAll a b) = a := by
  have hdelete : source (a.map Edit.delete) = a := by
    induction a with
    | nil => rfl
    | cons line a ih => rw [List.map_cons, source_delete, ih]
  have hinsert : source (b.map Edit.insert) = [] := by
    induction b with
    | nil => rfl
    | cons line b ih => rw [List.map_cons, source_insert, ih]
  rw [replaceAll, source_append, hdelete, hinsert, List.append_nil]

theorem target_replaceAll (a b : List PyStr) : target (replaceAll a b) = b := by
  have hdelete : target (a.map Edit.delete) = [] := by
    induction a with
    | nil => rfl
    | cons line a ih => rw [List.map_cons, target_delete, ih]
  have hinsert : target (b.map Edit.insert) = b := by
    induction b with
    | nil => rfl
    | cons line b ih => rw [List.map_cons, target_insert, ih]
  rw [replaceAll, target_append, hdelete, hinsert, List.nil_append]

/-- The script of texts that have no line in common. -/
def wholeFile : Differ where
  hunks a b := if a = b then [] else [⟨0, replaceAll a b⟩]
  fits a b := by
    split
    · trivial
    · refine ⟨Nat.le_refl 0, Nat.zero_le _, ?_, trivial⟩
      rw [source_replaceAll, List.drop_zero]
  leaves a b := by
    split
    · rename_i heq
      rw [script, target_map_keep, List.drop_zero, heq]
    · rw [script, script, target_append, target_append, target_map_keep, target_map_keep,
        source_replaceAll, target_replaceAll]
      simp
  nonempty a b := by
    split
    · exact nofun
    · rename_i hne
      refine List.forall_mem_singleton.mpr fun hnil => hne ?_
      have hold := source_replaceAll a b
      have hnew := target_replaceAll a b
      rw [show replaceAll a b = [] from hnil] at hold hnew
      exact hold.symm.trans hnew
  none_of_equal a := if_pos rfl

/-- Five lines, of which the last has no newline. -/
def openText : PyStr := py "a\nb\nc\nd\ne"

/-- The same with another first line. -/
def editedText : PyStr := py "X\nb\nc\nd\ne"

def openHunk : Hunk PyStr :=
  ⟨0, [.delete (py "a\n"), .insert (py "X\n"), .keep (py "b\n"), .keep (py "c\n"), .keep (py "d\n")]⟩

/-- The script of the two texts has three lines of context and stays off the last line. -/
def withContext : Differ where
  hunks a b :=
    if a = splitLinesKeep openText ∧ b = splitLinesKeep editedText then [openHunk]
    else wholeFile.hunks a b
  fits a b := by
    split
    · rename_i heq
      rw [heq.1]
      exact ⟨Nat.le_refl 0, Nat.zero_le _, ⟨[py "e"], by decide⟩, trivial⟩
    · exact wholeFile.fits a b
  leaves a b := by
    split
    · rename_i heq
      rw [heq.1, heq.2]
      decide
    · exact wholeFile.leaves a b
  nonempty a b := by
    split
    · exact List.forall_mem_singleton.mpr (List.cons_ne_nil _ _)
    · exact wholeFile.nonempty a b
  none_of_equal a := by
    rw [if_neg]
    · exact wholeFile.none_of_equal a
    · rintro ⟨hopen, hedited⟩
      exact absurd (hopen.symm.trans hedited) (by decide)

scoped instance isoFormat : IsoFormat := extendedFormat

scoped instance digest : Digest where
  sha256 raw :=
    if raw = bytesOf openText then
      py "dbbc47f2a90b02153a78630eb0341612800f530bd3ae6dda5504e60ffbc64018"
    else []
  printable raw := by
    split
    · exact printable_of_all (by decide)
    · exact printable_nil

/-- The text is captured at ten. -/
def openSteps : List Step :=
  [.capture ⟨py "/share/f.txt", bytesOf openText, by decide, py "direct", .write, py "agent",
    py "2024-05-01T10:00:00Z"⟩]

end DiffSample

section
open Sample DiffSample

/-- The diff of the captured text to the one on disk. -/
theorem node_diff_applies_sample :
    ∃ text, (run 10 openSteps).diff withContext 10 (.ok (bytesOf editedText)) (py "/share/f.txt")
        (.version 1) none = .ok text ∧
      ∃ n, applyUnifiedDiff (bytesOf openText) text = .ok (bytesOf editedText, n) := by
  have hfrom : (run 10 openSteps).resolveSide 10 (py "/share/f.txt") (.version 1) =
      .ok (bytesOf openText, py "/share/f.txt@2024-05-01T10:00:00Z") := by
    have hs := indexes_run 10 openSteps
    have hhistory := hs.history (show storable (py "/share/f.txt") = true by decide) 10
    unfold Store.resolveSide Store.sideVersion Store.resolveVersion
    rw [hhistory]
    decide +kernel
  have hto : (run 10 openSteps).otherSide 10 (.ok (bytesOf editedText)) (py "/share/f.txt") none =
      .ok (bytesOf editedText, py "/share/f.txt:current") := rfl
  have hraw : encodeUtf8 openText = some (bytesOf openText) := by decide
  have hrawNew : encodeUtf8 editedText = some (bytesOf editedText) := by decide
  have hshort : ShortNumber 5 := by
    unfold ShortNumber
    decide
  obtain ⟨text, htext, -, happlies⟩ := node_diff_applies (d := withContext) hfrom hto hraw hrawNew
  have hlabels : InertLabels (py "/share/f.txt@2024-05-01T10:00:00Z") (py "/share/f.txt:current") :=
    inertLabels_of_plain (by decide)
  refine ⟨text, htext, (happlies (by decide) hlabels hshort hshort).1 ?_⟩
  have hhunks : withContext.hunks (splitLinesKeep openText) (splitLinesKeep editedText) = [openHunk] := by
    simp only [withContext, and_self, if_true]
  rw [hhunks]
  constructor
  · decide
  · intro e he
    left
    revert e
    decide

/-- Without newlines, the two lines of the diff are one, which the old text does not have. -/
theorem open_line_rejected :
    diffOfTexts wholeFile (py "a") (py "b") (py "/f@1") (py "/f@2") =
        py "--- /f@1\n+++ /f@2\n@@ -1 +1 @@\n-a+b" ∧
      applyUnifiedDiff [97] (py "--- /f@1\n+++ /f@2\n@@ -1 +1 @@\n-a+b") =
        .error (.apply (py "delete mismatch at src line 1: expected b'a+b\\n', got b'a'")) ∧
      ¬ ∀ d : Differ, py "a" ≠ py "b" →
        ∃ n, applyUnifiedDiff [97] (diffOfTexts d (py "a") (py "b") (py "/f@1") (py "/f@2")) =
          .ok ([98], n) := by
  have htext : diffOfTexts wholeFile (py "a") (py "b") (py "/f@1") (py "/f@2") =
      py "--- /f@1\n+++ /f@2\n@@ -1 +1 @@\n-a+b" := by decide
  have hrejected : applyUnifiedDiff [97] (py "--- /f@1\n+++ /f@2\n@@ -1 +1 @@\n-a+b") =
      .error (.apply (py "delete mismatch at src line 1: expected b'a+b\\n', got b'a'")) := by decide
  refine ⟨htext, hrejected, fun happlies => ?_⟩
  have ⟨n, happly⟩ := happlies wholeFile (by decide)
  rw [htext, hrejected] at happly
  cases happly

end

end HassNode.FsPatch
