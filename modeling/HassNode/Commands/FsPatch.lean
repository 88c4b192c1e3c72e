import HassNode.Library.TextLines
import HassNode.Py.Text

/-!
# `commands/fs_patch.py`

The applier of unified diffs.  A loop over the patch lines that stops in front of the next hunk header
is a part of the patch that `splitHunks` has cut there.
-/

namespace HassNode.FsPatch

open Py TextLines

abbrev Bytes := List Nat

inductive PatchFailure where
  /-- `PatchApplyError`. -/
  | apply (message : PyStr)
  /-- The `ValueError` of `int` for more than 4300 digits. -/
  | value
  /-- The `UnicodeEncodeError` of a lone surrogate. -/
  | encode
deriving DecidableEq

/-- `_split_lines_keep_ends`. -/
def splitLinesKeepEnds (data : Bytes) : List Bytes := splitAfter 10 data

/-! ## Texts -/

/-- `repr` of one byte of a bytes literal quoted with `quote`. -/
def reprByte (quote b : Nat) : PyStr :=
  if b = quote ∨ b = 92 then [92, Fin.ofNat _ b]
  else if b = 9 then py "\\t"
  else if b = 10 then py "\\n"
  else if b = 13 then py "\\r"
  else if 32 ≤ b ∧ b < 127 then [Fin.ofNat _ b]
  else py "\\x" ++ hexDigits 2 b

/-- `repr(data)`. -/
def reprBytes (data : Bytes) : PyStr :=
  let quote := if data.contains 39 && !data.contains 34 then 34 else 39
  py "b" ++ [Fin.ofNat _ quote] ++ data.flatMap (reprByte quote) ++ [Fin.ofNat _ quote]

/-- `_control`. -/
def control (line : PyStr) : PyStr := if endsWith line [13] then line.dropLast else line

/-- The lines between which the loops stop. -/
def isHunkLine (line : PyStr) : Bool := startsWith (control line) (py "@@")

def isNoNewline (line : PyStr) : Bool := startsWith (control line) (py "\\ No newline")

/-- `patch_text.split("\n")`, without the empty piece behind a last newline. -/
def patchLines (patchText : PyStr) : List PyStr :=
  let lines := patchText.splitOn 10
  if lines.getLast? = some [] then lines.dropLast else lines

/-- The lines before the first hunk header, and every hunk header with the lines up to the next. -/
def splitHunks : List PyStr → List PyStr × List (PyStr × List PyStr)
  | [] => ([], [])
  | line :: rest =>
    let (body, hunks) := splitHunks rest
    if isHunkLine line then ([], (line, body) :: hunks) else (line :: body, hunks)

/-! ## Hunk headers -/

section
variable [Runtime]

/-- The value of a character of `\d`. -/
def decimalOf (c : CodePoint) : Option (Fin 10) :=
  if c.val < 0x80 then digitOf? c else Runtime.decimalValue c

def takeDecimals : PyStr → List (Fin 10) × PyStr
  | [] => ([], [])
  | c :: rest =>
    match decimalOf c with
    | some d => (d :: (takeDecimals rest).1, (takeDecimals rest).2)
    | none => ([], c :: rest)

/-- `(\d+)(?:,(\d+))?` at the start of a text, and what is behind it. -/
def matchRange (text : PyStr) : Option (List (Fin 10) × Option (List (Fin 10)) × PyStr) :=
  match takeDecimals text with
  | ([], _) => none
  | (start, rest) =>
    match rest with
    | 44 :: behind =>
      match takeDecimals behind with
      | ([], _) => some (start, none, rest)
      | (count, rest) => some (start, some count, rest)
    | _ => some (start, none, rest)

/-- What is behind a literal. -/
def afterLiteral (literal text : PyStr) : Option PyStr :=
  if startsWith text literal then some (text.drop literal.length) else none

/-- The groups of `_HUNK_HEADER_RE` that are read. -/
structure HeaderMatch where
  oldStart : List (Fin 10)
  oldCount : Option (List (Fin 10))
  newCount : Option (List (Fin 10))

/-- `_HUNK_HEADER_RE.match(header)`. -/
def matchHeader (header : PyStr) : Option HeaderMatch := do
  let rest ← afterLiteral (py "@@ -") header
  let (oldStart, oldCount, rest) ← matchRange rest
  let rest ← afterLiteral (py " +") rest
  let (_, newCount, rest) ← matchRange rest
  let _ ← afterLiteral (py " @@") rest
  return ⟨oldStart, oldCount, newCount⟩

end

/-- `int(digits)`. -/
def intOfDigits (digits : List (Fin 10)) : Except PatchFailure Nat :=
  if 4300 < digits.length then .error .value else .ok (ofDigitStr digits)

/-- A count; an omitted one means one. -/
def countOf : Option (List (Fin 10)) → Except PatchFailure Nat
  | some digits => intOfDigits digits
  | none => .ok 1

/-! ## The body of a hunk -/

/-- `out_lines`, `src_cursor`, `actual_old` and `actual_new`. -/
structure Walk where
  out : List Bytes
  cursor : Nat
  actualOld : Nat
  actualNew : Nat
deriving DecidableEq

namespace Walk

def context (s : Walk) (line : Bytes) : Walk :=
  ⟨s.out ++ [line], s.cursor + 1, s.actualOld + 1, s.actualNew + 1⟩

def delete (s : Walk) : Walk := { s with cursor := s.cursor + 1, actualOld := s.actualOld + 1 }

def add (s : Walk) (line : Bytes) : Walk :=
  { s with out := s.out ++ [line], actualNew := s.actualNew + 1 }

end Walk

/-- The error of a context or delete line that is not in the source. -/
def mismatch (kind : String) (src : List Bytes) (cursor : Nat) (expected : Bytes) : PatchFailure :=
  .apply (py kind ++ py " mismatch at src line " ++ natStr (cursor + 1) ++ py ": expected " ++
    reprBytes expected ++ py ", got " ++ reprBytes (src[cursor]?.getD []))

/-- An empty line in a hunk is a blank line of the context. -/
def blankLine (src : List Bytes) (s : Walk) : Except PatchFailure Walk :=
  if src[s.cursor]? = some [10] then .ok (s.context [10])
  else .error (.apply (py "context mismatch at src line " ++ natStr (s.cursor + 1) ++
    py ": expected blank line"))

section
variable [Runtime]

/-- A line that is not empty. -/
def taggedLine (src : List Bytes) (s : Walk) (tag : CodePoint) (body : PyStr) (noNewline : Bool) :
    Except PatchFailure Walk :=
  match encodeUtf8 (if noNewline then body else body ++ [10]) with
  | none => .error .encode
  | some line =>
    if tag = 32 then
      if src[s.cursor]? = some line then .ok (s.context line)
      else .error (mismatch "context" src s.cursor line)
    else if tag = 45 then
      if src[s.cursor]? = some line then .ok s.delete
      else .error (mismatch "delete" src s.cursor line)
    else if tag = 43 then .ok (s.add line)
    else if tag = 92 then
      if startsWith (tag :: body) (py "\\ ") then .ok s
      else .error (.apply (py "unrecognised marker line: " ++ Py.reprStr (tag :: body)))
    else .error (.apply (py "unrecognised hunk line prefix: " ++ Py.reprStr (tag :: body)))

/-- The loop over the lines of a hunk. -/
def walkBody (src : List Bytes) : List PyStr → Walk → Except PatchFailure Walk
  | [], s => .ok s
  | [] :: rest, s => (blankLine src s).bind fun s => walkBody src rest s
  | [tag :: body], s => taggedLine src s tag body false
  | (tag :: body) :: next :: rest, s =>
    -- the marker belongs to the line before it, and is skipped with it
    if isNoNewline next then (taggedLine src s tag body true).bind fun s => walkBody src rest s
    else (taggedLine src s tag body false).bind fun s => walkBody src (next :: rest) s

/-! ## The hunks -/

structure Applied where
  outLines : List Bytes
  srcCursor : Nat
  hunksApplied : Nat

/-- The source line in front of which a hunk begins. -/
def hunkSrcIndex (src : List Bytes) (oldStart declaredOld : Nat) : Except PatchFailure Nat :=
  if declaredOld = 0 then
    if src.length < oldStart then
      .error (.apply (py "pure-add hunk at old_start=" ++ natStr oldStart ++
        py " is beyond end of source (" ++ natStr src.length ++ py " lines)"))
    else .ok oldStart
  else .ok (oldStart - 1)

def applyHunk (src : List Bytes) (s : Applied) (hunk : PyStr × List PyStr) :
    Except PatchFailure Applied :=
  match matchHeader (control hunk.1) with
  | none => .error (.apply (py "malformed hunk header: " ++ Py.reprStr (control hunk.1)))
  | some m => do
    let oldStart ← intOfDigits m.oldStart
    let declaredOld ← countOf m.oldCount
    let declaredNew ← countOf m.newCount
    let index ← hunkSrcIndex src oldStart declaredOld
    if index < s.srcCursor then
      .error (.apply (py "overlapping or out-of-order hunk at line " ++ natStr oldStart))
    else
      let walk ← walkBody src hunk.2 ⟨s.outLines ++ (src.take index).drop s.srcCursor, index, 0, 0⟩
      if walk.actualOld ≠ declaredOld ∨ walk.actualNew ≠ declaredNew then
        .error (.apply (py "hunk count mismatch at old_start=" ++ natStr oldStart ++
          py ": header declared -" ++ natStr declaredOld ++ py " +" ++ natStr declaredNew ++
          py ", body walked -" ++ natStr walk.actualOld ++ py " +" ++ natStr walk.actualNew))
      else .ok ⟨walk.out, walk.cursor, s.hunksApplied + 1⟩

/-- `_apply_unified_diff`. -/
def applyUnifiedDiff (original : Bytes) (patchText : PyStr) : Except PatchFailure (Bytes × Nat) := do
  let src := splitLinesKeepEnds original
  let applied ← (splitHunks (patchLines patchText)).2.foldlM (applyHunk src) ⟨[], 0, 0⟩
  if applied.hunksApplied = 0 then .error (.apply (py "no hunks found in patch"))
  else .ok ((applied.outLines ++ src.drop applied.srcCursor).flatten, applied.hunksApplied)

end

end HassNode.FsPatch
