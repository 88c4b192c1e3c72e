import HassNode.Commands.FsPatch
import HassNode.Library.EditScript

/-!
# What a patch says

`readDiff` reads a patch without a source: the numbers of every hunk header, and the edits of its
lines.  The applier succeeds exactly when the patch can be read, the counts of every header are those
of its edits, and the hunks fit onto the source; then it returns what the edits leave.
-/

namespace HassNode.FsPatch

open Py TextLines EditScript

/-- The lines of a patch are its lines without their newlines. -/
theorem patchLines_eq (patchText : PyStr) :
    patchLines patchText = (splitAfter 10 patchText).map (chomp 10) := by
  unfold patchLines
  dsimp only
  rw [splitOn_eq_chomp]
  by_cases hend : patchText = [] ∨ patchText.getLast? = some 10
  · rw [if_pos hend, List.getLast?_concat, if_pos rfl, List.dropLast_concat]
  · rw [if_neg hend, List.append_nil]
    apply if_neg
    intro hlast
    -- a last line that is empty without its newline has one
    rw [List.getLast?_map, Option.map_eq_some_iff] at hlast
    obtain ⟨line, hline, hempty⟩ := hlast
    have hne := ne_nil_of_lines (lines_splitAfter 10 patchText) line (List.mem_of_getLast? hline)
    have hnewline : line.getLast? = some 10 := by
      by_cases hten : line.getLast? = some 10
      · exact hten
      · rw [chomp, if_neg hten] at hempty
        exact absurd hempty hne
    obtain ⟨before, hsplit⟩ := List.getLast?_eq_some_iff.mp hline
    apply hend
    right
    rw [← flatten_splitAfter 10 patchText, hsplit, List.flatten_append, List.flatten_singleton,
      List.getLast?_append_of_ne_nil _ hne]
    exact hnewline

section
variable [Runtime]

/-! ## Reading -/

/-- The edit of a line that is not empty; a marker of its own is none. -/
def readTagged (tag : CodePoint) (body : PyStr) (noNewline : Bool) : Option (List (Edit Bytes)) :=
  match encodeUtf8 (if noNewline then body else body ++ [10]) with
  | none => none
  | some line =>
    if tag = 32 then some [.keep line]
    else if tag = 45 then some [.delete line]
    else if tag = 43 then some [.insert line]
    else if startsWith (tag :: body) (py "\\ ") then some []
    else none

def readBody : List PyStr → Option (List (Edit Bytes))
  | [] => some []
  | [] :: rest => (readBody rest).map (.keep [10] :: ·)
  | [tag :: body] => readTagged tag body false
  | (tag :: body) :: next :: rest =>
    if isNoNewline next then
      (readTagged tag body true).bind fun edits => (readBody rest).map (edits ++ ·)
    else (readTagged tag body false).bind fun edits => (readBody (next :: rest)).map (edits ++ ·)

/-- A hunk as it stands in a patch. -/
structure DiffHunk where
  oldStart : Nat
  oldCount : Nat
  newCount : Nat
  edits : List (Edit Bytes)
deriving DecidableEq

namespace DiffHunk

/-- The number of source lines before the hunk; an empty range names the line before it. -/
def index (h : DiffHunk) : Nat := if h.oldCount = 0 then h.oldStart else h.oldStart - 1

def hunk (h : DiffHunk) : Hunk Bytes := ⟨h.index, h.edits⟩

/-- The header counts the lines of the hunk. -/
def Counted (h : DiffHunk) : Prop :=
  (source h.edits).length = h.oldCount ∧ (target h.edits).length = h.newCount

end DiffHunk

def readHunk (hunk : PyStr × List PyStr) : Option DiffHunk := do
  let m ← matchHeader (control hunk.1)
  let oldStart ← (intOfDigits m.oldStart).toOption
  let oldCount ← (countOf m.oldCount).toOption
  let newCount ← (countOf m.newCount).toOption
  let edits ← readBody hunk.2
  return ⟨oldStart, oldCount, newCount, edits⟩

def readHunks : List (PyStr × List PyStr) → Option (List DiffHunk)
  | [] => some []
  | hunk :: rest => do return (← readHunk hunk) :: (← readHunks rest)

/-- The hunks of a patch. -/
def readDiff (patchText : PyStr) : Option (List DiffHunk) :=
  readHunks (splitHunks (patchLines patchText)).2

/-! ## Patches behind each other -/

omit [Runtime] in
/-- The lines in front of a patch that begins with a hunk belong to its own hunks. -/
theorem splitHunks_append_hunks {rest : List PyStr} (hrest : (splitHunks rest).1 = [])
    (lines : List PyStr) :
    splitHunks (lines ++ rest) =
      ((splitHunks lines).1, (splitHunks lines).2 ++ (splitHunks rest).2) := by
  induction lines with
  | nil => exact Prod.ext hrest rfl
  | cons line lines ih =>
    rw [List.cons_append, splitHunks, splitHunks, ih]
    dsimp only
    split
    · rfl
    · rfl

theorem readHunks_append (hunks others : List (PyStr × List PyStr)) :
    readHunks (hunks ++ others) =
      (readHunks hunks).bind fun hs => (readHunks others).map (hs ++ ·) := by
  induction hunks with
  | nil =>
    show readHunks others = (readHunks others).map ([] ++ ·)
    simp
  | cons hunk hunks ih =>
    rw [List.cons_append, readHunks, readHunks, ih]
    cases readHunk hunk with
    | none => rfl
    | some h =>
      cases readHunks hunks with
      | none => rfl
      | some hs =>
        cases readHunks others with
        | none => rfl
        | some rest => rfl

theorem readDiff_append {front rest : PyStr} (hfront : front.getLast? = some 10)
    (hrest : (splitHunks (patchLines rest)).1 = []) :
    readDiff (front ++ rest) =
      (readDiff front).bind fun hs => (readDiff rest).map (hs ++ ·) := by
  have hlines : patchLines (front ++ rest) = patchLines front ++ patchLines rest := by
    rw [patchLines_eq, splitAfter_append hfront, List.map_append, ← patchLines_eq, ← patchLines_eq]
  unfold readDiff
  rw [hlines, splitHunks_append_hunks hrest, readHunks_append]

/-! ## The body of a hunk -/

omit [Runtime] in
/-- The walk behind some edits. -/
def Walk.follow (s : Walk) (edits : List (Edit Bytes)) : Walk :=
  ⟨s.out ++ target edits, s.cursor + (source edits).length, s.actualOld + (source edits).length,
    s.actualNew + (target edits).length⟩

omit [Runtime] in
theorem Walk.follow_append (s : Walk) (edits others : List (Edit Bytes)) :
    s.follow (edits ++ others) = (s.follow edits).follow others := by
  simp [Walk.follow, Nat.add_assoc]

omit [Runtime] in
theorem singleton_prefix_drop {src : List Bytes} {line : Bytes} {n : Nat} :
    [line] <+: src.drop n ↔ src[n]? = some line := by
  rw [← List.head?_drop]
  cases src.drop n with
  | nil => simp
  | cons head rest => simp [eq_comm]

omit [Runtime] in
theorem prefix_drop_append {src part rest : List Bytes} {n : Nat} :
    part ++ rest <+: src.drop n ↔ part <+: src.drop n ∧ rest <+: src.drop (n + part.length) := by
  constructor
  · intro h
    have hpart : part <+: src.drop n := (List.prefix_append part rest).trans h
    refine ⟨hpart, ?_⟩
    rw [drop_of_begins hpart] at h
    exact (List.prefix_append_right_inj part).mp h
  · rintro ⟨hpart, hrest⟩
    rw [drop_of_begins hpart]
    exact (List.prefix_append_right_inj part).mpr hrest

/-- What it takes to walk over some edits. -/
def Walks (src : List Bytes) (s s' : Walk) (edits : List (Edit Bytes)) : Prop :=
  source edits <+: src.drop s.cursor ∧ s' = s.follow edits

variable {src : List Bytes} {s s' : Walk}

omit [Runtime] in
theorem Walks.nil_iff : Walks src s s' [] ↔ s' = s := by
  simp [Walks, Walk.follow]

omit [Runtime] in
theorem Walks.append_iff {edits others : List (Edit Bytes)} :
    Walks src s s' (edits ++ others) ↔
      ∃ s₁, Walks src s s₁ edits ∧ Walks src s₁ s' others := by
  unfold Walks
  rw [source_append, prefix_drop_append, Walk.follow_append]
  constructor
  · rintro ⟨⟨hfirst, hrest⟩, rfl⟩
    exact ⟨s.follow edits, ⟨hfirst, rfl⟩, hrest, rfl⟩
  · rintro ⟨s₁, ⟨hfirst, rfl⟩, hrest, rfl⟩
    exact ⟨⟨hfirst, hrest⟩, rfl⟩

omit [Runtime] in
theorem blankLine_ok_iff : blankLine src s = .ok s' ↔ Walks src s s' [.keep [10]] := by
  unfold blankLine Walks
  rw [source_keep, source_nil, singleton_prefix_drop]
  by_cases hline : src[s.cursor]? = some [10]
  · rw [if_pos hline]
    simp [hline, Walk.follow, Walk.context, eq_comm]
  · rw [if_neg hline]
    simp [hline]

theorem taggedLine_ok_iff {tag : CodePoint} {body : PyStr} {noNewline : Bool} :
    taggedLine src s tag body noNewline = .ok s' ↔
      ∃ edits, readTagged tag body noNewline = some edits ∧ Walks src s s' edits := by
  unfold taggedLine readTagged
  cases encodeUtf8 (if noNewline then body else body ++ [10]) with
  | none => simp
  | some line =>
    dsimp only
    by_cases hcontext : tag = 32
    · rw [if_pos hcontext, if_pos hcontext]
      by_cases hline : src[s.cursor]? = some line
      · simp [hline, Walks, singleton_prefix_drop, Walk.follow, Walk.context, eq_comm]
      · simp [hline, Walks, singleton_prefix_drop]
    rw [if_neg hcontext, if_neg hcontext]
    by_cases hdelete : tag = 45
    · rw [if_pos hdelete, if_pos hdelete]
      by_cases hline : src[s.cursor]? = some line
      · simp [hline, Walks, singleton_prefix_drop, Walk.follow, Walk.delete, eq_comm]
      · simp [hline, Walks, singleton_prefix_drop]
    rw [if_neg hdelete, if_neg hdelete]
    by_cases hadd : tag = 43
    · rw [if_pos hadd, if_pos hadd]
      simp [Walks, Walk.follow, Walk.add, eq_comm]
    rw [if_neg hadd, if_neg hadd]
    by_cases hmarker : startsWith (tag :: body) (py "\\ ") = true
    · have htag : tag = 92 := by
        have hbegins := List.isPrefixOf_iff_prefix.mp hmarker
        exact ((List.cons_prefix_cons.mp hbegins).1).symm
      rw [if_pos htag, if_pos hmarker, if_pos hmarker]
      simp [Walks.nil_iff, eq_comm]
    · rw [if_neg hmarker]
      split
      · simp
      · simp

omit [Runtime] in
/-- Two steps of the loop, one behind the other. -/
theorem seq_ok_iff {x : Except PatchFailure Walk} {f : Walk → Except PatchFailure Walk}
    {first second : Option (List (Edit Bytes))}
    (hx : ∀ s₁, x = .ok s₁ ↔ ∃ edits, first = some edits ∧ Walks src s s₁ edits)
    (hf : ∀ s₁, f s₁ = .ok s' ↔ ∃ edits, second = some edits ∧ Walks src s₁ s' edits) :
    x.bind f = .ok s' ↔
      ∃ edits, (first.bind fun edits => second.map (edits ++ ·)) = some edits ∧
        Walks src s s' edits := by
  have hbind : x.bind f = .ok s' ↔ ∃ s₁, x = .ok s₁ ∧ f s₁ = .ok s' := bind_ok_iff
  rw [hbind]
  constructor
  · rintro ⟨s₁, hstep, hrest⟩
    have ⟨edits, hfirst, hwalks⟩ := (hx s₁).mp hstep
    have ⟨others, hsecond, hothers⟩ := (hf s₁).mp hrest
    exact ⟨edits ++ others, by rw [hfirst, hsecond]; rfl, Walks.append_iff.mpr ⟨s₁, hwalks, hothers⟩⟩
  · rintro ⟨all, hread, hwalks⟩
    have ⟨edits, hfirst, hmap⟩ := Option.bind_eq_some_iff.mp hread
    have ⟨others, hsecond, hall⟩ := Option.map_eq_some_iff.mp hmap
    rw [← hall] at hwalks
    have ⟨s₁, hedits, hothers⟩ := Walks.append_iff.mp hwalks
    exact ⟨s₁, (hx s₁).mpr ⟨edits, hfirst, hedits⟩, (hf s₁).mpr ⟨others, hsecond, hothers⟩⟩

/-- The loop over the lines of a hunk walks over the edits that they are read as. -/
theorem walkBody_ok_iff {lines : List PyStr} :
    walkBody src lines s = .ok s' ↔
      ∃ edits, readBody lines = some edits ∧ Walks src s s' edits := by
  fun_induction readBody lines generalizing s with
  | case1 => simp [walkBody, Walks.nil_iff, eq_comm]
  | case2 rest ih =>
    have hblank : ∀ s₁, blankLine src s = .ok s₁ ↔
        ∃ edits, some [.keep [10]] = some edits ∧ Walks src s s₁ edits := by
      intro s₁
      rw [blankLine_ok_iff]
      exact ⟨fun h => ⟨_, rfl, h⟩, fun ⟨_, heq, h⟩ => Option.some.inj heq ▸ h⟩
    exact seq_ok_iff hblank fun _ => ih
  | case3 tag body => exact taggedLine_ok_iff
  | case4 tag body next rest hmarker ih =>
    rw [walkBody, if_pos hmarker]
    exact seq_ok_iff (fun _ => taggedLine_ok_iff) fun _ => ih
  | case5 tag body next rest hmarker ih =>
    rw [walkBody, if_neg hmarker]
    exact seq_ok_iff (fun _ => taggedLine_ok_iff) fun _ => ih

/-! ## The hunks -/

omit [Runtime] in
/-- The lines written behind a hunk. -/
def Applied.follow (src : List Bytes) (s : Applied) (h : DiffHunk) : Applied :=
  ⟨s.outLines ++ (src.take h.index).drop s.srcCursor ++ target h.edits,
    h.index + (source h.edits).length, s.hunksApplied + 1⟩

omit [Runtime] in
theorem hunkSrcIndex_ok_iff {h : DiffHunk} {index : Nat} :
    hunkSrcIndex src h.oldStart h.oldCount = .ok index ↔
      index = h.index ∧ (h.oldCount = 0 → h.index ≤ src.length) := by
  unfold hunkSrcIndex DiffHunk.index
  by_cases hempty : h.oldCount = 0
  · rw [if_pos hempty, if_pos hempty]
    split
    · simp [hempty]
      omega
    · simp [hempty, eq_comm]
      omega
  · rw [if_neg hempty, if_neg hempty]
    simp [hempty, eq_comm]

omit [Runtime] in
/-- Only a hunk without old lines has to be told that it begins behind the source. -/
theorem index_le_length {h : DiffHunk} (hcounted : h.Counted)
    (hbegins : source h.edits <+: src.drop h.index) (hempty : h.oldCount = 0 → h.index ≤ src.length) :
    h.index ≤ src.length := by
  by_cases hcount : h.oldCount = 0
  · exact hempty hcount
  · have hlength := hbegins.length_le
    rw [List.length_drop, hcounted.1] at hlength
    omega

theorem readHunk_eq_some_iff {hunk : PyStr × List PyStr} {h : DiffHunk} :
    readHunk hunk = some h ↔ ∃ m, matchHeader (control hunk.1) = some m ∧
      intOfDigits m.oldStart = .ok h.oldStart ∧ countOf m.oldCount = .ok h.oldCount ∧
      countOf m.newCount = .ok h.newCount ∧ readBody hunk.2 = some h.edits := by
  have htoOption : ∀ {x : Except PatchFailure Nat} {n : Nat}, x.toOption = some n ↔ x = .ok n := by
    intro x n
    cases x with
    | error e => exact ⟨nofun, nofun⟩
    | ok m => exact ⟨fun heq => congrArg _ (Option.some.inj heq), fun heq => congrArg _ (Except.ok.inj heq)⟩
  unfold readHunk
  simp only [Option.bind_eq_bind, Option.bind_eq_some_iff, htoOption, Option.pure_def,
    Option.some.injEq]
  constructor
  · rintro ⟨m, hm, oldStart, hstart, oldCount, hold, newCount, hnew, edits, hedits, rfl⟩
    exact ⟨m, hm, hstart, hold, hnew, hedits⟩
  · rintro ⟨m, hm, hstart, hold, hnew, hedits⟩
    exact ⟨m, hm, _, hstart, _, hold, _, hnew, _, hedits, rfl⟩

theorem applyHunk_ok_iff {s s' : Applied} {hunk : PyStr × List PyStr} :
    applyHunk src s hunk = .ok s' ↔
      ∃ h, readHunk hunk = some h ∧ h.Counted ∧ s.srcCursor ≤ h.index ∧ h.index ≤ src.length ∧
        source h.edits <+: src.drop h.index ∧ s' = s.follow src h := by
  unfold applyHunk
  constructor
  · intro happly
    split at happly
    · cases happly
    · rename_i m hm
      have ⟨oldStart, hstart, happly⟩ := bind_ok_iff.mp happly
      have ⟨oldCount, hold, happly⟩ := bind_ok_iff.mp happly
      have ⟨newCount, hnew, happly⟩ := bind_ok_iff.mp happly
      have ⟨index, hindex, happly⟩ := bind_ok_iff.mp happly
      split at happly
      · cases happly
      · rename_i hcursor
        have ⟨walk, hwalk, hresult⟩ := bind_ok_iff.mp happly
        have ⟨edits, hedits, hbegins, hfollow⟩ := walkBody_ok_iff.mp hwalk
        split at hresult
        · cases hresult
        · rename_i hcounts
          rw [not_or, not_ne_iff, not_ne_iff, hfollow] at hcounts
          have hcounted : DiffHunk.Counted ⟨oldStart, oldCount, newCount, edits⟩ := by
            simpa [DiffHunk.Counted, Walk.follow] using hcounts
          have hplace : index = DiffHunk.index ⟨oldStart, oldCount, newCount, edits⟩ ∧ _ :=
            hunkSrcIndex_ok_iff.mp hindex
          have ⟨heq, hempty⟩ := hplace
          subst heq
          refine ⟨_, readHunk_eq_some_iff.mpr ⟨m, hm, hstart, hold, hnew, hedits⟩, hcounted, by omega,
            index_le_length hcounted hbegins hempty, hbegins, ?_⟩
          rw [← Except.ok.inj hresult, hfollow]
          rfl
  · rintro ⟨h, hread, hcounted, hcursor, hindex, hbegins, rfl⟩
    have ⟨m, hm, hstart, hold, hnew, hedits⟩ := readHunk_eq_some_iff.mp hread
    have hplace : hunkSrcIndex src h.oldStart h.oldCount = .ok h.index :=
      hunkSrcIndex_ok_iff.mpr ⟨rfl, fun _ => hindex⟩
    have hwalk : walkBody src hunk.2 ⟨s.outLines ++ (src.take h.index).drop s.srcCursor, h.index, 0, 0⟩ =
        .ok (Walk.follow _ h.edits) := walkBody_ok_iff.mpr ⟨h.edits, hedits, hbegins, rfl⟩
    have hcounts : ¬ ((Walk.follow ⟨s.outLines ++ (src.take h.index).drop s.srcCursor, h.index, 0, 0⟩
          h.edits).actualOld ≠ h.oldCount ∨
        (Walk.follow ⟨s.outLines ++ (src.take h.index).drop s.srcCursor, h.index, 0, 0⟩
          h.edits).actualNew ≠ h.newCount) := by
      simpa [Walk.follow, DiffHunk.Counted] using hcounted
    rw [hm]
    dsimp only
    refine bind_ok_iff.mpr ⟨_, hstart, bind_ok_iff.mpr ⟨_, hold, bind_ok_iff.mpr ⟨_, hnew,
      bind_ok_iff.mpr ⟨_, hplace, ?_⟩⟩⟩⟩
    rw [if_neg (by omega)]
    refine bind_ok_iff.mpr ⟨_, hwalk, ?_⟩
    rw [if_neg hcounts]
    rfl

/-- Hunks are applied one behind the other. -/
theorem applyHunks_ok_iff {s s' : Applied} {hunks : List (PyStr × List PyStr)} :
    hunks.foldlM (applyHunk src) s = .ok s' ↔
      ∃ hs, readHunks hunks = some hs ∧ (∀ h ∈ hs, h.Counted) ∧
        Fits src s.srcCursor (hs.map DiffHunk.hunk) ∧ s' = hs.foldl (Applied.follow src) s := by
  induction hunks generalizing s with
  | nil =>
    constructor
    · intro h
      exact ⟨[], rfl, nofun, trivial, (Except.ok.inj h).symm⟩
    · rintro ⟨hs, hread, -, -, hfollow⟩
      cases hread
      rw [hfollow]
      rfl
  | cons hunk hunks ih =>
    have hread : ∀ hs, readHunks (hunk :: hunks) = some hs ↔
        ∃ h rest, readHunk hunk = some h ∧ readHunks hunks = some rest ∧ hs = h :: rest := by
      intro hs
      have hpair : ∀ h rest, some (h :: rest) = some hs ↔ hs = h :: rest := fun h rest =>
        ⟨fun heq => (Option.some.inj heq).symm, fun heq => congrArg some heq.symm⟩
      simp only [readHunks, Option.bind_eq_bind, Option.bind_eq_some_iff, Option.pure_def, hpair,
        exists_and_left]
    rw [List.foldlM_cons, bind_ok_iff]
    constructor
    · rintro ⟨s₁, hfirst, hrest⟩
      have ⟨h, hhunk, hcounted, hcursor, hindex, hbegins, hs₁⟩ := applyHunk_ok_iff.mp hfirst
      have ⟨rest, hhunks, hall, hfits, hfollow⟩ := ih.mp hrest
      subst hs₁
      exact ⟨h :: rest, (hread _).mpr ⟨h, rest, hhunk, hhunks, rfl⟩,
        List.forall_mem_cons.mpr ⟨hcounted, hall⟩, ⟨hcursor, hindex, hbegins, hfits⟩, hfollow⟩
    · rintro ⟨hs, hhs, hall, hfits, hfollow⟩
      have ⟨h, rest, hhunk, hhunks, heq⟩ := (hread _).mp hhs
      subst heq
      have ⟨hcounted, hrest⟩ := List.forall_mem_cons.mp hall
      have ⟨hcursor, hindex, hbegins, hfitsRest⟩ := hfits
      exact ⟨s.follow src h, applyHunk_ok_iff.mpr ⟨h, hhunk, hcounted, hcursor, hindex, hbegins, rfl⟩,
        ih.mpr ⟨rest, hhunks, hrest, hfitsRest, hfollow⟩⟩

omit [Runtime] in
/-- What is written in the end is what the script of the hunks leaves. -/
theorem foldl_follow (src : List Bytes) (s : Applied) (hs : List DiffHunk) :
    (hs.foldl (Applied.follow src) s).outLines ++
          src.drop (hs.foldl (Applied.follow src) s).srcCursor =
        s.outLines ++ target (script src s.srcCursor (hs.map DiffHunk.hunk)) ∧
      (hs.foldl (Applied.follow src) s).hunksApplied = s.hunksApplied + hs.length := by
  induction hs generalizing s with
  | nil =>
    rw [List.map_nil, script, target_map_keep]
    exact ⟨rfl, rfl⟩
  | cons h hs ih =>
    obtain ⟨hlines, hcount⟩ := ih (s.follow src h)
    constructor
    · rw [List.foldl_cons, hlines, List.map_cons, script, target_append, target_append,
        target_map_keep]
      simp [Applied.follow, DiffHunk.hunk]
    · rw [List.foldl_cons, hcount, List.length_cons]
      simp [Applied.follow]
      omega

/-- The edits of a whole text, as some hunks of a patch describe them. -/
def editsOf (original : Bytes) (hunks : List DiffHunk) : List (Edit Bytes) :=
  script (splitLinesKeepEnds original) 0 (hunks.map DiffHunk.hunk)

/-- A patch is applied exactly when it can be read, its headers count the lines of its hunks, and the
hunks fit onto the original. -/
theorem applyUnifiedDiff_ok_iff {original result : Bytes} {patchText : PyStr} {n : Nat} :
    applyUnifiedDiff original patchText = .ok (result, n) ↔
      ∃ hunks, readDiff patchText = some hunks ∧ hunks ≠ [] ∧ (∀ h ∈ hunks, h.Counted) ∧
        Fits (splitLinesKeepEnds original) 0 (hunks.map DiffHunk.hunk) ∧
        result = (target (editsOf original hunks)).flatten ∧ n = hunks.length := by
  unfold applyUnifiedDiff readDiff editsOf
  dsimp only
  rw [bind_ok_iff]
  have hlines := foldl_follow (splitLinesKeepEnds original) ⟨[], 0, 0⟩
  simp only [List.nil_append, Nat.zero_add] at hlines
  constructor
  · rintro ⟨applied, happly, hresult⟩
    have ⟨hunks, hread, hcounted, hfits, hfollow⟩ := applyHunks_ok_iff.mp happly
    rw [hfollow, (hlines hunks).1, (hlines hunks).2] at hresult
    split at hresult
    · cases hresult
    · rename_i hne
      cases hresult
      exact ⟨hunks, hread, fun hnil => hne (congrArg List.length hnil), hcounted, hfits, rfl, rfl⟩
  · rintro ⟨hunks, hread, hne, hcounted, hfits, rfl, rfl⟩
    refine ⟨_, applyHunks_ok_iff.mpr ⟨hunks, hread, hcounted, hfits, rfl⟩, ?_⟩
    rw [(hlines hunks).1, (hlines hunks).2, if_neg fun hzero => hne (List.length_eq_zero_iff.mp hzero)]

end

namespace Sample

scoped instance runtime : Runtime := .ofTable []

end Sample

end HassNode.FsPatch
