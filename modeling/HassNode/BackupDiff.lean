import HassNode.BackupResolve
import HassNode.Library.EditScript

/-!
# `BackupStore.diff`

The two sides of a diff, and its rendering by `difflib.unified_diff`.
-/

namespace HassNode.BackupStore

open Py EditScript

/-! ## Lines -/

/-- `text.splitlines(keepends=True)` from the line begun with `line`. -/
def splitLinesKeepFrom (line : PyStr) : PyStr → List PyStr
  | [] => if line = [] then [] else [line]
  | 13 :: 10 :: rest => (line ++ [13, 10]) :: splitLinesKeepFrom [] rest
  | c :: rest =>
    if isLineBreak c then (line ++ [c]) :: splitLinesKeepFrom [] rest
    else splitLinesKeepFrom (line ++ [c]) rest

def splitLinesKeep (text : PyStr) : List PyStr := splitLinesKeepFrom [] text

/-- `_decode_for_diff`; Latin-1 is read with universal newlines. -/
def decodeForDiff (data : Bytes) : PyStr :=
  match decodeUtf8 data with
  | some text => text
  | none => universalNewlines false (data.map (Fin.ofNat _))

theorem decodeForDiff_encodeUtf8 {text : PyStr} {raw : Bytes} (h : encodeUtf8 text = some raw) :
    decodeForDiff raw = text := by
  rw [decodeForDiff, decodeUtf8_encodeUtf8 h]

/-! ## `difflib` -/

/-- The groups of opcodes of a `SequenceMatcher`, as hunks of a correct edit script. -/
structure Differ where
  hunks : List PyStr → List PyStr → List (Hunk PyStr)
  fits : ∀ a b, Fits a 0 (hunks a b)
  leaves : ∀ a b, target (script a 0 (hunks a b)) = b
  nonempty : ∀ a b, ∀ h ∈ hunks a b, h.edits ≠ []
  none_of_equal : ∀ a, hunks a a = []

/-- `_format_range_unified`. -/
def formatRangeUnified (start stop : Nat) : PyStr :=
  let length := stop - start
  if length = 1 then natStr (start + 1)
  else (if length = 0 then natStr start else natStr (start + 1)) ++ py "," ++ natStr length

def opcodeLine : Edit PyStr → PyStr
  | .keep line => py " " ++ line
  | .delete line => py "-" ++ line
  | .insert line => py "+" ++ line

/-- The groups from the lines `i` of the one side and `j` of the other on. -/
def groupLines : Nat → Nat → List (Hunk PyStr) → List PyStr
  | _, _, [] => []
  | i, j, h :: hunks =>
    let i1 := h.start
    let i2 := i1 + (source h.edits).length
    let j1 := j + (h.start - i)
    let j2 := j1 + (target h.edits).length
    (py "@@ -" ++ formatRangeUnified i1 i2 ++ py " +" ++ formatRangeUnified j1 j2 ++ py " @@\n") ::
      (h.edits.map opcodeLine ++ groupLines i2 j2 hunks)

/-- `difflib.unified_diff(a, b, fromfile=…, tofile=…)`. -/
def unifiedDiff (d : Differ) (a b : List PyStr) (fromfile tofile : PyStr) : List PyStr :=
  if d.hunks a b = [] then []
  else (py "--- " ++ fromfile ++ py "\n") :: (py "+++ " ++ tofile ++ py "\n") ::
    groupLines 0 0 (d.hunks a b)

/-- The text of the diff between two texts. -/
def diffOfTexts (d : Differ) (fromText toText fromLabel toLabel : PyStr) : PyStr :=
  (unifiedDiff d (splitLinesKeep fromText) (splitLinesKeep toText) fromLabel toLabel).flatten

/-! ## The sides -/

inductive DiffError where
  | resolve (e : ResolveError)
  | objectEvicted (sha256 path : PyStr)
  | liveRead (path message : PyStr)
deriving DecidableEq

/-- `int | str`. -/
inductive SideSelector where
  | version (version : Int)
  | sha256 (digest : PyStr)

section
variable [Runtime] [IsoFormat]

/-- The version that a side selects. -/
def Store.sideVersion (room : Nat) (s : Store) (path : PyStr) :
    SideSelector → Except ResolveError Version
  | .version version => s.resolveVersion room path { version := some version }
  | .sha256 digest =>
    match s.history room path with
    | .error e => .error (.store e)
    | .ok versions =>
      match (versions.filter fun v => v.sha256 = digest).getLast? with
      | none => .error (.noVersionWithSha digest path)
      | some v => .ok v

/-- `_resolve_side`. -/
def Store.resolveSide (room : Nat) (s : Store) (path : PyStr) (selector : SideSelector) :
    Except DiffError (Bytes × PyStr) :=
  match s.sideVersion room path selector with
  | .error e => .error (.resolve e)
  | .ok v =>
    if v.evicted then .error (.objectEvicted v.sha256 path)
    else
      match s.fetchObject v.sha256 with
      | .error e => .error (.resolve (.store e))
      | .ok raw => .ok (raw, path ++ py "@" ++ v.ts)

/-- The other side of a diff: without a version, what is on disk; `live` are its bytes, or the text of
an `OSError`. -/
def Store.otherSide (room : Nat) (s : Store) (live : Except PyStr Bytes) (path : PyStr) :
    Option SideSelector → Except DiffError (Bytes × PyStr)
  | none =>
    match live with
    | .error message => .error (.liveRead path message)
    | .ok raw => .ok (raw, path ++ py ":current")
  | some toVersion => s.resolveSide room path toVersion

/-- `diff`. -/
def Store.diff (d : Differ) (room : Nat) (s : Store) (live : Except PyStr Bytes) (path : PyStr)
    (fromVersion : SideSelector) (toVersion : Option SideSelector) : Except DiffError PyStr := do
  let (fromBytes, fromLabel) ← s.resolveSide room path fromVersion
  let (toBytes, toLabel) ← s.otherSide room live path toVersion
  return diffOfTexts d (decodeForDiff fromBytes) (decodeForDiff toBytes) fromLabel toLabel

/-- The diff of two sides that are texts is the diff of these texts. -/
theorem diff_of_sides {d : Differ} {room : Nat} {s : Store} {live : Except PyStr Bytes} {path : PyStr}
    {fromVersion : SideSelector} {toVersion : Option SideSelector} {old new fromLabel toLabel : PyStr}
    {raw rawNew : Bytes} (hfrom : s.resolveSide room path fromVersion = .ok (raw, fromLabel))
    (hto : s.otherSide room live path toVersion = .ok (rawNew, toLabel))
    (hraw : encodeUtf8 old = some raw) (hrawNew : encodeUtf8 new = some rawNew) :
    s.diff d room live path fromVersion toVersion = .ok (diffOfTexts d old new fromLabel toLabel) := by
  rw [Store.diff, hfrom, ← decodeForDiff_encodeUtf8 hraw, ← decodeForDiff_encodeUtf8 hrawNew]
  show (s.otherSide room live path toVersion).bind _ = _
  rw [hto]
  rfl

end

end HassNode.BackupStore
