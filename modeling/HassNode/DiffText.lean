import HassNode.PatchReading

/-!
# Unified diffs

A unified diff as other programs write it: every hunk under a header that gives the place and the
number of its lines, every line under a sign, and a marker behind a line that has no newline.  What is
written is what `readDiff` reads.
-/

namespace HassNode.FsPatch

open Py TextLines EditScript

/-! ## Lines -/

/-- A line that can stand in a patch, without its newline. -/
structure DiffLine where
  text : PyStr
  terminated : Bool
  oneLine : 10 ∉ text
  encodable : text.any unencodable = false

def DiffLine.bytes (l : DiffLine) : Bytes :=
  l.text.flatMap utf8Char ++ if l.terminated then [10] else []

def noNewlineMarker : PyStr := py "\\ No newline at end of file"

/-- The patch lines of a line under its sign. -/
def signedLines (sign : CodePoint) (l : DiffLine) : List PyStr :=
  (sign :: l.text) :: if l.terminated then [] else [noNewlineMarker]

def renderEdit : Edit DiffLine → List PyStr
  | .keep l => signedLines 32 l
  | .delete l => signedLines 45 l
  | .insert l => signedLines 43 l

def renderEdits (edits : List (Edit DiffLine)) : List PyStr := edits.flatMap renderEdit

theorem ten_mem_utf8Char {c : CodePoint} : 10 ∈ utf8Char c ↔ c = 10 := by
  constructor
  · intro h
    have hc := c.isLt
    have hval : c.val = 10 := by
      unfold utf8Char at h
      dsimp only at h
      split_ifs at h
      · exact (List.mem_singleton.mp h).symm
      · simp only [List.mem_cons, List.not_mem_nil, or_false] at h
        omega
      · simp only [List.mem_cons, List.not_mem_nil, or_false] at h
        omega
      · simp only [List.mem_cons, List.not_mem_nil, or_false] at h
        omega
    exact Fin.ext hval
  · rintro rfl
    decide

/-- UTF-8 keeps newlines, and makes none. -/
theorem ten_mem_flatMap {s : PyStr} : 10 ∈ s.flatMap utf8Char ↔ (10 : CodePoint) ∈ s := by
  rw [List.mem_flatMap]
  constructor
  · rintro ⟨c, hc, hten⟩
    exact ten_mem_utf8Char.mp hten ▸ hc
  · exact fun h => ⟨10, h, ten_mem_utf8Char.mpr rfl⟩

theorem encodeUtf8_of_encodable {s : PyStr} (h : s.any unencodable = false) :
    encodeUtf8 s = some (s.flatMap utf8Char) := by
  unfold encodeUtf8
  rw [h]
  rfl

theorem encodeUtf8_eq_some_iff {s : PyStr} {raw : Bytes} :
    encodeUtf8 s = some raw ↔ s.any unencodable = false ∧ raw = s.flatMap utf8Char := by
  unfold encodeUtf8
  cases s.any unencodable with
  | true => exact ⟨nofun, nofun⟩
  | false => exact ⟨fun h => ⟨rfl, (Option.some.inj h).symm⟩, fun h => congrArg some h.2.symm⟩

theorem encodeUtf8_append_newline {s : PyStr} (h : s.any unencodable = false) :
    encodeUtf8 (s ++ [10]) = some (s.flatMap utf8Char ++ [10]) := by
  rw [encodeUtf8_of_encodable]
  · rw [List.flatMap_append]
    rfl
  · rw [List.any_append, h]
    rfl

/-- A control line is what it was, up to its end. -/
theorem control_begins (line : PyStr) : control line <+: line := by
  unfold control
  split
  · exact List.dropLast_prefix line
  · exact List.prefix_refl line

theorem head_of_control {line : PyStr} {c : CodePoint} {rest : PyStr}
    (h : startsWith (control line) (c :: rest) = true) : line.head? = some c := by
  have ⟨behind, hline⟩ := (List.isPrefixOf_iff_prefix.mp h).trans (control_begins line)
  rw [← hline]
  rfl

theorem isNoNewline_signed {sign : CodePoint} (hsign : sign ≠ 92) (text : PyStr) :
    isNoNewline (sign :: text) = false := by
  rw [← Bool.not_eq_true]
  exact fun h => hsign (Option.some.inj (head_of_control h))

theorem isHunkLine_signed {sign : CodePoint} (hsign : sign ≠ 64) (text : PyStr) :
    isHunkLine (sign :: text) = false := by
  rw [← Bool.not_eq_true]
  exact fun h => hsign (Option.some.inj (head_of_control h))

theorem readTagged_signed (l : DiffLine) {tag : CodePoint} :
    readTagged tag l.text (!l.terminated) =
      if tag = 32 then some [.keep l.bytes]
      else if tag = 45 then some [.delete l.bytes]
      else if tag = 43 then some [.insert l.bytes]
      else if startsWith (tag :: l.text) (py "\\ ") then some []
      else none := by
  have hline : encodeUtf8 (if !l.terminated then l.text else l.text ++ [10]) = some l.bytes := by
    unfold DiffLine.bytes
    cases l.terminated with
    | true => exact encodeUtf8_append_newline l.encodable
    | false =>
      rw [if_neg Bool.false_ne_true, List.append_nil]
      exact encodeUtf8_of_encodable l.encodable
  unfold readTagged
  rw [hline]

/-- A line of a hunk with its marker, in front of other lines. -/
theorem readBody_signed {sign : CodePoint} (l : DiffLine) {rest : List PyStr}
    (hrest : ∀ line ∈ rest.head?, isNoNewline line = false) :
    readBody (signedLines sign l ++ rest) =
      (readTagged sign l.text (!l.terminated)).bind fun edits => (readBody rest).map (edits ++ ·) := by
  unfold signedLines
  cases l.terminated with
  | true =>
    cases rest with
    | nil =>
      show readTagged sign l.text false =
        (readTagged sign l.text false).bind fun edits => some (edits ++ [])
      cases readTagged sign l.text false with
      | none => rfl
      | some edits => exact congrArg some (List.append_nil edits).symm
    | cons next rest =>
      have hnext : ¬ isNoNewline next = true := by
        rw [hrest next rfl]
        exact Bool.false_ne_true
      show readBody ((sign :: l.text) :: next :: rest) = _
      rw [readBody, if_neg hnext]
      rfl
  | false =>
    show readBody ((sign :: l.text) :: noNewlineMarker :: rest) = _
    rw [readBody, if_pos (by decide)]
    rfl

theorem renderEdits_head (edits : List (Edit DiffLine)) :
    ∀ line ∈ (renderEdits edits).head?, isNoNewline line = false := by
  cases edits with
  | nil => exact nofun
  | cons e edits =>
    intro line hline
    cases e with
    | keep l =>
      rw [← Option.some.inj hline]
      exact isNoNewline_signed (by decide) _
    | delete l =>
      rw [← Option.some.inj hline]
      exact isNoNewline_signed (by decide) _
    | insert l =>
      rw [← Option.some.inj hline]
      exact isNoNewline_signed (by decide) _

/-- The lines of a hunk are read as the edits that were written. -/
theorem readBody_renderEdits (edits : List (Edit DiffLine)) :
    readBody (renderEdits edits) = some (edits.map (Edit.map DiffLine.bytes)) := by
  induction edits with
  | nil => rfl
  | cons e edits ih =>
    have hrest := renderEdits_head edits
    cases e with
    | keep l =>
      show readBody (signedLines 32 l ++ renderEdits edits) = _
      rw [readBody_signed l hrest, readTagged_signed, if_pos rfl, ih]
      rfl
    | delete l =>
      show readBody (signedLines 45 l ++ renderEdits edits) = _
      rw [readBody_signed l hrest, readTagged_signed, if_neg (by decide), if_pos rfl, ih]
      rfl
    | insert l =>
      show readBody (signedLines 43 l ++ renderEdits edits) = _
      rw [readBody_signed l hrest, readTagged_signed, if_neg (by decide), if_neg (by decide),
        if_pos rfl, ih]
      rfl

/-! ## Hunk headers -/

/-- A place and a number of lines; a single line may go without its number. -/
def rangeText (start count : Nat) (short : Bool) : PyStr :=
  natStr start ++ if short ∧ count = 1 then [] else 44 :: natStr count

/-- The number that a header gives for a place: an empty range names the line before it. -/
def rangeStart (index count : Nat) : Nat := if count = 0 then index else index + 1

/-- What a header tells, apart from the old lines that stand in front of it. -/
structure Header where
  newIndex : Nat
  shortOld : Bool
  shortNew : Bool
  heading : PyStr

def headerText (header : Header) (index oldCount newCount : Nat) : PyStr :=
  py "@@ -" ++ rangeText (rangeStart index oldCount) oldCount header.shortOld ++ py " +" ++
    rangeText (rangeStart header.newIndex newCount) newCount header.shortNew ++ py " @@" ++
    header.heading

/-- A number that `int` accepts. -/
def ShortNumber (n : Nat) : Prop := (natStr n).length ≤ 4300

section
variable [Runtime]

theorem decimalOf_digit (d : Fin 10) : decimalOf (digit d) = some d := by
  have hascii : (digit d).val < 0x80 := by
    show 48 + d.val < 0x80
    omega
  rw [decimalOf, if_pos hascii, digitOf?_digit]

theorem takeDecimals_digitStr {rest : PyStr} (hrest : takeDecimals rest = ([], rest))
    (ds : List (Fin 10)) : takeDecimals (digitStr ds ++ rest) = (ds, rest) := by
  induction ds with
  | nil => exact hrest
  | cons d ds ih =>
    show takeDecimals (digit d :: (digitStr ds ++ rest)) = _
    rw [takeDecimals, decimalOf_digit, ih]

theorem matchRange_rangeText (start count : Nat) (short : Bool) (behind : PyStr) :
    ∃ startDigits countDigits,
      matchRange (rangeText start count short ++ 32 :: behind) =
        some (startDigits, countDigits, 32 :: behind) ∧
      (∀ n, intOfDigits startDigits = .ok n ↔ ShortNumber start ∧ n = start) ∧
      ∀ n, countOf countDigits = .ok n ↔ ShortNumber count ∧ n = count := by
  have hint : ∀ number, ∃ ds, ds ≠ [] ∧ natStr number = digitStr ds ∧
      ∀ n, intOfDigits ds = .ok n ↔ ShortNumber number ∧ n = number := by
    intro number
    obtain ⟨ds, hne, htext, hvalue⟩ := natStr_eq number
    refine ⟨ds, hne, htext, fun n => ?_⟩
    rw [ShortNumber, htext, digitStr, List.length_map, intOfDigits, hvalue]
    by_cases hlong : 4300 < ds.length
    · rw [if_pos hlong]
      exact ⟨nofun, fun h => absurd h.1 (by omega)⟩
    · rw [if_neg hlong]
      exact ⟨fun h => ⟨by omega, (Except.ok.inj h).symm⟩, fun h => congrArg _ h.2.symm⟩
  have hone : ∀ n, countOf none = .ok n ↔ ShortNumber 1 ∧ n = 1 := by
    intro n
    have hshort : ShortNumber 1 := by
      unfold ShortNumber
      decide
    exact ⟨fun h => ⟨hshort, (Except.ok.inj h).symm⟩, fun h => congrArg _ h.2.symm⟩
  have hspace : takeDecimals (32 :: behind) = ([], 32 :: behind) := rfl
  obtain ⟨startDigits, hne, hstart, hvalue⟩ := hint start
  unfold matchRange rangeText
  by_cases homitted : short = true ∧ count = 1
  · rw [if_pos homitted, List.append_nil, hstart, takeDecimals_digitStr hspace]
    refine ⟨startDigits, none, ?_, hvalue, homitted.2 ▸ hone⟩
    cases startDigits with
    | nil => exact absurd rfl hne
    | cons d ds => rfl
  · obtain ⟨countDigits, hcountNe, hcount, hcountValue⟩ := hint count
    have hcomma : takeDecimals (44 :: (digitStr countDigits ++ 32 :: behind)) =
        ([], 44 :: (digitStr countDigits ++ 32 :: behind)) := rfl
    rw [if_neg homitted, hstart, hcount, List.append_assoc, List.cons_append,
      takeDecimals_digitStr hcomma]
    refine ⟨startDigits, some countDigits, ?_, hvalue, hcountValue⟩
    cases startDigits with
    | nil => exact absurd rfl hne
    | cons d ds =>
      simp only [takeDecimals_digitStr hspace]

theorem matchHeader_headerText (header : Header) (index oldCount newCount : Nat) :
    ∃ m, matchHeader (headerText header index oldCount newCount) = some m ∧
      (∀ n, intOfDigits m.oldStart = .ok n ↔
        ShortNumber (rangeStart index oldCount) ∧ n = rangeStart index oldCount) ∧
      (∀ n, countOf m.oldCount = .ok n ↔ ShortNumber oldCount ∧ n = oldCount) ∧
      ∀ n, countOf m.newCount = .ok n ↔ ShortNumber newCount ∧ n = newCount := by
  have hliteral : ∀ literal behind : PyStr, afterLiteral literal (literal ++ behind) = some behind := by
    intro literal behind
    have hstarts : startsWith (literal ++ behind) literal = true :=
      List.isPrefixOf_iff_prefix.mpr (List.prefix_append literal behind)
    rw [afterLiteral, if_pos hstarts, List.drop_left]
  have hold := matchRange_rangeText (rangeStart index oldCount) oldCount header.shortOld
  have hnew := matchRange_rangeText (rangeStart header.newIndex newCount) newCount header.shortNew
  have ⟨newStart, newDigits, hnewMatch, _, hnewCount⟩ := hnew (py "@@" ++ header.heading)
  have ⟨oldStart, oldDigits, holdMatch, hstart, holdCount⟩ :=
    hold (43 :: (rangeText (rangeStart header.newIndex newCount) newCount header.shortNew ++
      32 :: (py "@@" ++ header.heading)))
  refine ⟨⟨oldStart, oldDigits, newDigits⟩, ?_, hstart, holdCount, hnewCount⟩
  have htext : headerText header index oldCount newCount =
      py "@@ -" ++ (rangeText (rangeStart index oldCount) oldCount header.shortOld ++
        32 :: (43 :: (rangeText (rangeStart header.newIndex newCount) newCount header.shortNew ++
          32 :: (py "@@" ++ header.heading)))) := by
    simp only [headerText, List.append_assoc]
    rfl
  have hplus : ∀ behind : PyStr, afterLiteral (py " +") (32 :: 43 :: behind) = some behind :=
    fun behind => hliteral (py " +") behind
  have hend : afterLiteral (py " @@") (32 :: (py "@@" ++ header.heading)) = some header.heading :=
    hliteral (py " @@") header.heading
  unfold matchHeader
  rw [htext, hliteral]
  dsimp only [Option.bind_eq_bind, Option.bind_some]
  rw [holdMatch]
  dsimp only [Option.bind_some]
  rw [hplus]
  dsimp only [Option.bind_some]
  rw [hnewMatch]
  dsimp only [Option.bind_some]
  rw [hend]
  rfl

omit [Runtime] in
/-- Only a line's own end is cut off. -/
theorem control_append {line : PyStr} (h : endsWith line [13] = false) (behind : PyStr) :
    ∃ rest, control (line ++ behind) = line ++ rest := by
  by_cases hbehind : behind = []
  · refine ⟨[], ?_⟩
    rw [hbehind, List.append_nil, control, if_neg (by rw [h]; exact Bool.false_ne_true)]
  · unfold control
    split
    · exact ⟨behind.dropLast, List.dropLast_append_of_ne_nil hbehind⟩
    · exact ⟨behind, rfl⟩

omit [Runtime] in
theorem control_headerText (header : Header) (index oldCount newCount : Nat) :
    ∃ heading, control (headerText header index oldCount newCount) =
      headerText { header with heading := heading } index oldCount newCount := by
  have hsign : ∀ line : PyStr, endsWith (line ++ py " @@") [13] = false := by
    intro line
    rw [← Bool.not_eq_true]
    intro hends
    have ⟨before, hline⟩ := List.isSuffixOf_iff_suffix.mp hends
    have hlast := congrArg List.getLast? hline
    rw [List.getLast?_append, List.getLast?_append] at hlast
    have heq : (13 : CodePoint) = 64 := Option.some.inj hlast
    exact absurd heq (by decide)
  unfold headerText
  exact control_append (hsign _) header.heading

omit [Runtime] in
theorem isHunkLine_headerText (header : Header) (index oldCount newCount : Nat) :
    isHunkLine (headerText header index oldCount newCount) = true := by
  have ⟨heading, hcontrol⟩ := control_headerText header index oldCount newCount
  rw [isHunkLine, hcontrol, startsWith, List.isPrefixOf_iff_prefix]
  simp only [headerText, List.append_assoc]
  exact ⟨_, rfl⟩

/-! ## Diffs -/

omit [Runtime] in
/-- A hunk, with the lines in front of it that are in no hunk. -/
structure DiffPart where
  gap : List Bytes
  edits : List (Edit DiffLine)
  header : Header
  oneLine : 10 ∉ header.heading

namespace DiffPart

def part (p : DiffPart) : Stretch Bytes := ⟨p.gap, p.edits.map (Edit.map DiffLine.bytes)⟩

def oldCount (p : DiffPart) : Nat := (source p.edits).length

def newCount (p : DiffPart) : Nat := (target p.edits).length

end DiffPart

/-- The lines of a diff whose first part begins at the line `cursor`. -/
def diffLines : Nat → List DiffPart → List PyStr
  | _, [] => []
  | cursor, p :: parts =>
    headerText p.header (cursor + p.gap.length) p.oldCount p.newCount ::
      (renderEdits p.edits ++ diffLines (cursor + p.gap.length + p.oldCount) parts)

/-- The hunks that the lines of a diff describe. -/
def diffHunks : Nat → List DiffPart → List DiffHunk
  | _, [] => []
  | cursor, p :: parts =>
    ⟨rangeStart (cursor + p.gap.length) p.oldCount, p.oldCount, p.newCount, p.part.edits⟩ ::
      diffHunks (cursor + p.gap.length + p.oldCount) parts

/-- The text of a diff behind some lines of a preamble; its last newline may be missing. -/
def diffText (preamble : List PyStr) (parts : List DiffPart) (final : Bool) : PyStr :=
  [10].intercalate (preamble ++ diffLines 0 parts) ++ if final then [10] else []

/-- `int` accepts the numbers of every header. -/
def ShortNumbers (hunks : List DiffHunk) : Prop :=
  ∀ h ∈ hunks, ShortNumber h.oldStart ∧ ShortNumber h.oldCount ∧ ShortNumber h.newCount

/-- A hunk is read when `int` accepts the numbers of its header. -/
theorem readHunk_headerText_iff {header : Header} {index oldCount newCount : Nat} {body : List PyStr}
    {h : DiffHunk} :
    readHunk (headerText header index oldCount newCount, body) = some h ↔
      ShortNumber (rangeStart index oldCount) ∧ ShortNumber oldCount ∧ ShortNumber newCount ∧
        ∃ edits, readBody body = some edits ∧
          h = ⟨rangeStart index oldCount, oldCount, newCount, edits⟩ := by
  have ⟨heading, hcontrol⟩ := control_headerText header index oldCount newCount
  have ⟨m, hm, hstart, hold, hnew⟩ :=
    matchHeader_headerText { header with heading := heading } index oldCount newCount
  have hmatch : matchHeader (control (headerText header index oldCount newCount)) = some m :=
    hcontrol ▸ hm
  rw [readHunk_eq_some_iff]
  constructor
  · rintro ⟨m', hm', hstart', hold', hnew', hedits⟩
    have heq : m = m' := Option.some.inj (hmatch.symm.trans hm')
    subst heq
    have ⟨hshortStart, hoStart⟩ := (hstart _).mp hstart'
    have ⟨hshortOld, hoOld⟩ := (hold _).mp hold'
    have ⟨hshortNew, hoNew⟩ := (hnew _).mp hnew'
    refine ⟨hshortStart, hshortOld, hshortNew, h.edits, hedits, ?_⟩
    rw [← hoStart, ← hoOld, ← hoNew]
  · rintro ⟨hshortStart, hshortOld, hshortNew, edits, hedits, rfl⟩
    exact ⟨m, hmatch, (hstart _).mpr ⟨hshortStart, rfl⟩, (hold _).mpr ⟨hshortOld, rfl⟩,
      (hnew _).mpr ⟨hshortNew, rfl⟩, hedits⟩

omit [Runtime] in
theorem splitHunks_append {body : List PyStr} (hbody : ∀ line ∈ body, isHunkLine line = false)
    (rest : List PyStr) :
    splitHunks (body ++ rest) = (body ++ (splitHunks rest).1, (splitHunks rest).2) := by
  induction body with
  | nil => rfl
  | cons line body ih =>
    have ⟨hline, hrest⟩ := List.forall_mem_cons.mp hbody
    rw [List.cons_append, splitHunks, ih hrest]
    dsimp only
    rw [hline]
    rfl

omit [Runtime] in
theorem splitHunks_header {line : PyStr} (hline : isHunkLine line = true) (rest : List PyStr) :
    splitHunks (line :: rest) = ([], (line, (splitHunks rest).1) :: (splitHunks rest).2) := by
  rw [splitHunks]
  dsimp only
  rw [if_pos hline]

omit [Runtime] in
theorem forall_mem_renderEdits {P : PyStr → Prop} (hmarker : P noNewlineMarker)
    (hsigned : ∀ (sign : CodePoint) (l : DiffLine), sign ∈ [32, 45, 43] → P (sign :: l.text))
    (edits : List (Edit DiffLine)) : ∀ line ∈ renderEdits edits, P line := by
  have hlines : ∀ (sign : CodePoint) (l : DiffLine), sign ∈ [32, 45, 43] →
      ∀ line ∈ signedLines sign l, P line := by
    intro sign l hsign line hline
    cases List.mem_cons.mp hline with
    | inl heq => exact heq ▸ hsigned sign l hsign
    | inr hrest =>
      split at hrest
      · cases hrest
      · rw [List.mem_singleton.mp hrest]
        exact hmarker
  intro line hline
  have ⟨e, _, he⟩ := List.mem_flatMap.mp hline
  cases e with
  | keep l => exact hlines 32 l (by decide) line he
  | delete l => exact hlines 45 l (by decide) line he
  | insert l => exact hlines 43 l (by decide) line he

omit [Runtime] in
theorem isHunkLine_renderEdits (edits : List (Edit DiffLine)) :
    ∀ line ∈ renderEdits edits, isHunkLine line = false := by
  apply forall_mem_renderEdits
  · decide
  · intro sign l hsign
    apply isHunkLine_signed
    rintro rfl
    exact absurd hsign (by decide)

theorem readHunks_diffLines {cursor : Nat} {parts : List DiffPart}
    (hshort : ShortNumbers (diffHunks cursor parts)) :
    (splitHunks (diffLines cursor parts)).1 = [] ∧
      readHunks (splitHunks (diffLines cursor parts)).2 = some (diffHunks cursor parts) := by
  induction parts generalizing cursor with
  | nil => exact ⟨rfl, rfl⟩
  | cons p parts ih =>
    have ⟨⟨hstart, hold, hnew⟩, hrest⟩ := List.forall_mem_cons.mp hshort
    have ⟨hbody, hhunks⟩ := ih hrest
    rw [diffLines, splitHunks_header (isHunkLine_headerText _ _ _ _),
      splitHunks_append (isHunkLine_renderEdits p.edits), hbody, List.append_nil]
    refine ⟨rfl, ?_⟩
    have hhunk : readHunk (headerText p.header (cursor + p.gap.length) p.oldCount p.newCount,
        renderEdits p.edits) = some _ :=
      readHunk_headerText_iff.mpr ⟨hstart, hold, hnew, _, readBody_renderEdits p.edits, rfl⟩
    rw [readHunks, hhunk, hhunks]
    rfl

/-! ## The lines of the text -/

omit [Runtime] in
theorem headerText_oneLine {header : Header} (hheading : 10 ∉ header.heading)
    (index oldCount newCount : Nat) : 10 ∉ headerText header index oldCount newCount := by
  have hnumber : ∀ n, (10 : CodePoint) ∉ natStr n := by
    intro n hmem
    have ⟨ds, _, htext, _⟩ := natStr_eq n
    rw [htext] at hmem
    have ⟨d, _, hd⟩ := List.mem_map.mp hmem
    have hval : 48 + d.val = 10 := congrArg Fin.val hd
    omega
  have hrange : ∀ start count short, (10 : CodePoint) ∉ rangeText start count short := by
    intro start count short hmem
    cases List.mem_append.mp hmem with
    | inl hstart => exact hnumber _ hstart
    | inr hcount =>
      split at hcount
      · cases hcount
      · cases List.mem_cons.mp hcount with
        | inl heq => exact absurd heq (by decide)
        | inr hdigits => exact hnumber _ hdigits
  intro hmem
  unfold headerText at hmem
  simp only [List.mem_append] at hmem
  rcases hmem with ((((hmem | hmem) | hmem) | hmem) | hmem) | hmem
  · exact absurd hmem (by decide)
  · exact hrange _ _ _ hmem
  · exact absurd hmem (by decide)
  · exact hrange _ _ _ hmem
  · exact absurd hmem (by decide)
  · exact hheading hmem

omit [Runtime] in
theorem forall_mem_diffLines (cursor : Nat) (parts : List DiffPart) :
    ∀ line ∈ diffLines cursor parts, 10 ∉ line ∧ line ≠ [] := by
  induction parts generalizing cursor with
  | nil => exact nofun
  | cons p parts ih =>
    intro line hline
    cases List.mem_cons.mp hline with
    | inl hheader =>
      rw [hheader]
      exact ⟨headerText_oneLine p.oneLine _ _ _, List.ne_nil_of_mem (by
        unfold headerText
        simp only [List.append_assoc]
        exact List.mem_append_left _ (show (64 : CodePoint) ∈ py "@@ -" by decide))⟩
    | inr hrest =>
      cases List.mem_append.mp hrest with
      | inl hbody =>
        apply forall_mem_renderEdits ⟨by decide, by decide⟩ _ p.edits line hbody
        intro sign l hsign
        refine ⟨fun hmem => ?_, nofun⟩
        cases List.mem_cons.mp hmem with
        | inl heq => exact absurd (heq ▸ hsign) (by decide)
        | inr htext => exact l.oneLine htext
      | inr hbehind => exact ih _ line hbehind

omit [Runtime] in
theorem intercalate_concat {sep last : PyStr} {lines : List PyStr} (h : lines ≠ []) :
    sep.intercalate (lines ++ [last]) = sep.intercalate lines ++ sep ++ last := by
  induction lines with
  | nil => exact absurd rfl h
  | cons line lines ih =>
    cases lines with
    | nil => simp [List.intercalate_cons_cons]
    | cons next rest =>
      have hrest := ih (List.cons_ne_nil next rest)
      rw [List.cons_append, List.cons_append, List.intercalate_cons_cons, List.intercalate_cons_cons,
        ← List.cons_append, hrest]
      simp only [List.append_assoc]

omit [Runtime] in
/-- The lines of a text are those that were joined, whether the last one has its newline or not. -/
theorem patchLines_intercalate {lines : List PyStr} (hne : lines ≠ []) (hlines : ∀ l ∈ lines, 10 ∉ l)
    (hlast : lines.getLast? ≠ some []) (final : Bool) :
    patchLines ([10].intercalate lines ++ if final then [10] else []) = lines := by
  unfold patchLines
  cases final with
  | true =>
    have htext : [10].intercalate lines ++ [10] = ([10] : PyStr).intercalate (lines ++ [[]]) := by
      rw [intercalate_concat hne, List.append_nil]
    have hall : ∀ l ∈ lines ++ [[]], (10 : CodePoint) ∉ l :=
      List.forall_mem_append.mpr ⟨hlines, List.forall_mem_singleton.mpr List.not_mem_nil⟩
    rw [if_pos rfl, htext, List.splitOn_intercalate 10 hall (by simp)]
    simp
  | false =>
    rw [if_neg Bool.false_ne_true, List.append_nil, List.splitOn_intercalate 10 hlines hne]
    dsimp only
    rw [if_neg hlast]

/-- What is written is read. -/
theorem readDiff_diffText {preamble : List PyStr} {parts : List DiffPart} {final : Bool}
    (hpreamble : ∀ line ∈ preamble, 10 ∉ line ∧ isHunkLine line = false) (hparts : parts ≠ [])
    (hshort : ShortNumbers (diffHunks 0 parts)) :
    readDiff (diffText preamble parts final) = some (diffHunks 0 parts) := by
  have hlines := forall_mem_diffLines 0 parts
  have hdiff : diffLines 0 parts ≠ [] := by
    cases parts with
    | nil => exact absurd rfl hparts
    | cons p parts => exact List.cons_ne_nil _ _
  have hsplit : patchLines (diffText preamble parts final) = preamble ++ diffLines 0 parts := by
    apply patchLines_intercalate
    · exact List.append_ne_nil_of_right_ne_nil _ hdiff
    · exact List.forall_mem_append.mpr ⟨fun l hl => (hpreamble l hl).1, fun l hl => (hlines l hl).1⟩
    · rw [List.getLast?_append_of_ne_nil _ hdiff]
      exact fun hlast => (hlines [] (List.mem_of_getLast? hlast)).2 rfl
  unfold readDiff
  rw [hsplit, splitHunks_append fun l hl => (hpreamble l hl).2]
  exact (readHunks_diffLines hshort).2

end

end HassNode.FsPatch
