import HassNode.Commands.HaReads
import HassNode.Py.JsonDump
import Mathlib.Logic.Function.Basic

/-!
# `backup_store.py`

The content-addressed store of prior bytes: objects under their digest, and for each path an index
file of JSON lines.
-/

namespace HassNode.BackupStore

open Py

abbrev Bytes := List Nat

/-- `hashlib.sha256(raw).hexdigest()`, which prints hexadecimal digits. -/
class Digest where
  sha256 : Bytes → PyStr
  printable : ∀ raw, Printable (sha256 raw)

inductive StoreError
  | corruptIndexLine
  | indexLineNotObject
  | indexLineMissingField (field : PyStr)
  | unknownOp (op : PyStr)
  | encodedPathTooLong (path : PyStr)
  | objectNotPresent (sha256 : PyStr)
  | unicodeEncode
  | unicodeDecode
  | value
  | overflow
  | recursion
  | os
  deriving DecidableEq, Repr

/-- `isinstance(exc, BackupStoreError)`. -/
def StoreError.isBackupStoreError : StoreError → Bool
  | .corruptIndexLine | .indexLineNotObject | .indexLineMissingField _ | .unknownOp _
  | .encodedPathTooLong _ | .objectNotPresent _ => true
  | _ => false

/-! ## Versions -/

inductive Op
  | write
  | delete
  | moveSrc
  | moveDst
  | restore
  | patch
  deriving DecidableEq, Repr

def Op.text : Op → PyStr
  | .write => py "write"
  | .delete => py "delete"
  | .moveSrc => py "move-src"
  | .moveDst => py "move-dst"
  | .restore => py "restore"
  | .patch => py "patch"

def ops : List Op := [.write, .delete, .moveSrc, .moveDst, .restore, .patch]

/-- `_validate_op`. -/
def validateOp (value : PyStr) : Except StoreError Op :=
  match ops.find? fun op => op.text = value with
  | none => .error (.unknownOp value)
  | some op => .ok op

structure Version where
  ts : PyStr
  proposalId : PyStr
  sha256 : PyStr
  size : Int
  op : Op
  actor : PyStr
  prevSha256 : Option PyStr
  evicted : Bool
  deriving DecidableEq

def Version.payload (v : Version) : Json :=
  .dict ([(py "ts", .str v.ts), (py "proposal_id", .str v.proposalId), (py "sha256", .str v.sha256),
    (py "size", .int v.size), (py "op", .str v.op.text), (py "actor", .str v.actor),
    (py "prev_sha256", v.prevSha256.elim .null .str)] ++
    if v.evicted then [(py "evicted", .bool true)] else [])

variable [Runtime] [Digest]

/-- `Version.to_json`; a size of too many digits is the one thing `json.dumps` refuses. -/
def Version.toJson (room : Nat) (v : Version) : Except StoreError PyStr :=
  match dumpsCompact (room + 1) v.payload with
  | .error .recursion => .error .recursion
  | .error .intDigits => .error .value
  | .ok line => .ok line

def field (data : Dict) (key : PyStr) : Except StoreError Json :=
  match data.get? key with
  | none => .error (.indexLineMissingField key)
  | some v => .ok v

/-- `int(data["size"])`. -/
def sizeOf : Json → Except StoreError Int
  | .int i => .ok i
  | .bool b => .ok (if b then 1 else 0)
  | .float (.inf _) => .error .overflow
  | .float .nan => .error .corruptIndexLine
  | .float (.zero _) => .ok 0
  | .float (.dec neg d) => .ok (HaReads.truncDouble neg d)
  | .str text =>
    match intOfText text with
    | none => .error .corruptIndexLine
    | some i => .ok i
  | .null | .list _ | .dict _ => .error .corruptIndexLine

def Version.ofDict (data : Dict) : Except StoreError Version := do
  let ts ← field data (py "ts")
  let proposalId ← field data (py "proposal_id")
  let sha256 ← field data (py "sha256")
  let size ← sizeOf (← field data (py "size"))
  let op ← validateOp (strOf (← field data (py "op")))
  let actor ← field data (py "actor")
  return {
    ts := strOf ts
    proposalId := strOf proposalId
    sha256 := strOf sha256
    size := size
    op := op
    actor := strOf actor
    prevSha256 :=
      match data.getD (py "prev_sha256") .null with
      | .null => none
      | v => some (strOf v)
    evicted := truthy (data.getD (py "evicted") (.bool false)) }

/-- `Version.from_json`. -/
def Version.fromJson (room : Nat) (line : PyStr) : Except StoreError Version :=
  match loads (room + 1) line with
  | .error .decode => .error .corruptIndexLine
  | .error .intDigits => .error .value
  | .error _ => .error .recursion
  | .ok (.dict data) => Version.ofDict data
  | .ok _ => .error .indexLineNotObject

/-! ## Paths -/

/-- `_INDEX_NAME_MAX`. -/
def indexNameMax : Nat := 250

/-- What the file system allows in a name. -/
def nameMax : Nat := 255

/-- `_encode_path`. -/
def encodePath (path : PyStr) : Except StoreError PyStr :=
  match quote [] path with
  | none => .error .unicodeEncode
  | some encoded =>
    if indexNameMax < encoded.length then .error (.encodedPathTooLong path) else .ok encoded

/-- The name of `_index_path(path)`. -/
def indexPath (path : PyStr) : Except StoreError PyStr := do
  return (← encodePath path) ++ py ".jsonl"

/-! ## The store -/

/-- The files under `objects/` by digest and those under `index/` by name. -/
structure Store where
  objects : PyStr → Option Bytes
  index : PyStr → Option Bytes

def Store.empty : Store := ⟨fun _ => none, fun _ => none⟩

/-- Whether an index file exists, and its bytes; a name that is too long is an `OSError`. -/
def Store.readIndex (s : Store) (name : PyStr) : Except StoreError (Option Bytes) :=
  if nameMax < name.length then .error .os else .ok (s.index name)

/-- Universal newlines: `\r` and `\r\n` are read as `\n`. -/
def universalNewlines (afterReturn : Bool) : PyStr → PyStr
  | [] => []
  | c :: rest =>
    if c = 10 ∧ afterReturn = true then universalNewlines false rest
    else if c = 13 then 10 :: universalNewlines true rest
    else c :: universalNewlines false rest

/-- Lines with their newlines. -/
def linesFrom (line : PyStr) : PyStr → List PyStr
  | [] => if line = [] then [] else [line]
  | c :: rest => if c = 10 then (line ++ [10]) :: linesFrom [] rest else linesFrom (line ++ [c]) rest

/-- Iteration over a file that was opened as text. -/
def fileLines (text : PyStr) : List PyStr := linesFrom [] (universalNewlines false text)

def parseIndex (room : Nat) (raw : Bytes) : Except StoreError (List Version) :=
  match decodeUtf8 raw with
  | none => .error .unicodeDecode
  | some text =>
    ((fileLines text).filter fun line => strip line ≠ []).mapM (Version.fromJson room)

/-- `history`. -/
def Store.history (room : Nat) (s : Store) (path : PyStr) : Except StoreError (List Version) := do
  let idx ← indexPath path
  match ← s.readIndex idx with
  | none => return []
  | some raw => parseIndex room raw

/-- `_last_sha`. -/
def Store.lastSha (room : Nat) (s : Store) (path : PyStr) : Except StoreError (Option PyStr) :=
  match s.history room path with
  | .ok versions => .ok (versions.getLast?.map Version.sha256)
  | .error e => if e.isBackupStoreError then .ok none else .error e

/-- `_atomic_append_line`. -/
def Store.appendLine (s : Store) (name line : PyStr) : Store × Except StoreError Unit :=
  if nameMax < name.length then (s, .error .os)
  else
    match encodeUtf8 (line ++ [10]) with
    | none => (s, .error .unicodeEncode)
    | some raw =>
      ({ s with index := Function.update s.index name (some ((s.index name).getD [] ++ raw)) }, .ok ())

/-- `capture`. -/
def Store.capture (room : Nat) (s : Store) (path : PyStr) (priorBytes : Bytes) (proposalId : PyStr)
    (op : Op) (actor now : PyStr) : Store × Except StoreError Version :=
  let sha := Digest.sha256 priorBytes
  let s :=
    match s.objects sha with
    | some _ => s
    | none => { s with objects := Function.update s.objects sha (some priorBytes) }
  match s.lastSha room path with
  | .error e => (s, .error e)
  | .ok prevSha =>
    let version : Version := {
      ts := now
      proposalId := proposalId
      sha256 := sha
      size := priorBytes.length
      op := op
      actor := actor
      prevSha256 := prevSha
      evicted := false }
    match indexPath path with
    | .error e => (s, .error e)
    | .ok idx =>
      match version.toJson room with
      | .error e => (s, .error e)
      | .ok line =>
        let (s, appended) := s.appendLine idx line
        (s, appended.map fun _ => version)

/-- The newline a log ends with. -/
def ensureNewline (data : Bytes) : Bytes :=
  if data ≠ [] ∧ data.getLast? ≠ some 10 then data ++ [10] else data

/-- `rename_history`. -/
def Store.renameHistory (s : Store) (src dst : PyStr) : Store × Except StoreError Bool :=
  match indexPath src >>= fun name => (s.readIndex name).map fun found => (name, found) with
  | .error e => (s, .error e)
  | .ok (_, none) => (s, .ok false)
  | .ok (srcIndex, some srcData) =>
    match indexPath dst >>= fun name => (s.readIndex name).map fun found => (name, found) with
    | .error e => (s, .error e)
    | .ok (dstIndex, some dstData) =>
      let merged := ensureNewline srcData ++ ensureNewline dstData
      ({ s with index := Function.update (Function.update s.index dstIndex (some merged)) srcIndex none },
        .ok true)
    | .ok (dstIndex, none) =>
      ({ s with index := Function.update (Function.update s.index dstIndex (some srcData)) srcIndex none },
        .ok true)

/-- `fetch_object`. -/
def Store.fetchObject (s : Store) (sha256 : PyStr) : Except StoreError Bytes :=
  match s.objects sha256 with
  | none => .error (.objectNotPresent sha256)
  | some raw => .ok raw

end HassNode.BackupStore
