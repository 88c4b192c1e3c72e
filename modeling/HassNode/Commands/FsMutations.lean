import HassNode.BackupResolve
import HassNode.Commands.FsPatch
import HassNode.Commands.FsRead
import HassNode.Py.PurePath

/-!
# The mutations of files

`fs.write`, `fs.restore`, `fs.patch`, `fs.move` and `fs.delete`.  A handler is a program over its calls of
`safe_path.py`, `safe_fd.py`, the backup store and the trash, and over the approval gate.
-/

namespace HassNode.FsMutations

open Py Py.Base64 Interaction Commands ConfigMutation
open HaClient (error)
open FsRead (fsError)
open BackupStore (Version Selector Digest)

abbrev Bytes := List Nat

/-! ## What a handler does outside itself -/

/-- An exception, with what the handlers read of it. -/
inductive Exc where
  | noAllowedRoots
  | outOfBounds
  /-- `FileNotFoundError`, an `OSError`. -/
  | fileNotFound (text : PyStr)
  | osError (errno : Option Int) (text : PyStr)
  /-- `BackupStoreError`, `VersionNotFoundError` among them. -/
  | backupStore (text : PyStr)
  | valueError (text : PyStr)
  | other (name : PyStr)
deriving DecidableEq

inductive FileOp where
  | resolveSafe (path : PyStr)
  | exists_ (path : PurePath)
  | readBytesSafe (path : PyStr) (missingOk : Bool)
  | atomicWriteSafe (path : PyStr) (data : Bytes)
  | replaceSafe (src dst : PyStr)
  | getStore
  | capture (path : PyStr) (priorBytes : Bytes) (proposalId : PyStr) (op : BackupStore.Op)
      (actor : PyStr)
  | resolveVersion (path : PyStr) (sel : Selector)
  | fetchObject (sha256 : PyStr)
  | renameHistory (src dst : PyStr)
  | trashFile (path : PurePath)
  | purgeTrashEntriesFor (path : PyStr)

/-- What a call returns when it does not raise. -/
def FileOp.Value : FileOp → Type
  | .resolveSafe _ => PurePath
  | .exists_ _ | .renameHistory _ _ => Bool
  | .readBytesSafe _ _ | .fetchObject _ => Bytes
  | .atomicWriteSafe _ _ | .replaceSafe _ _ | .getStore => Unit
  | .capture _ _ _ _ _ | .resolveVersion _ _ => Version
  | .trashFile _ => PyStr
  | .purgeTrashEntriesFor _ => Nat

inductive Op where
  | consume (command action : PyStr) (params : Dict)
  | file (op : FileOp)

def Ans : Op → Type
  | .consume _ _ _ => Option Json
  | .file op => Except Exc op.Value

abbrev Program := Prog Op Ans (Except Exc Json)

abbrev Handler := Dict → Program

def respond (response : Json) : Program := .ret (.ok response)

def raise (exc : Exc) : Program := .ret (.error exc)

/-- One call in a `try` whose clauses are `caught`. -/
def attempt (op : FileOp) (caught : Exc → Option Program) (k : op.Value → Program) : Program :=
  .call (.file op) fun
    | .ok value => k value
    | .error exc => (caught exc).getD (raise exc)

/-- No `try`. -/
def uncaught : Exc → Option Program := fun _ => none

/-- `except OutOfBoundsError` and `except OSError`. -/
def ioErrors (outside : Json) (failed : PyStr → Json) : Exc → Option Program
  | .outOfBounds => some (respond outside)
  | .fileNotFound text | .osError _ text => some (respond (failed text))
  | _ => none

/-- `except BackupStoreError`. -/
def storeErrors (failed : PyStr → Json) : Exc → Option Program
  | .backupStore text => some (respond (failed text))
  | _ => none

/-- `strict_keys_error`, which every handler asks first. -/
def withKeys (allowed : List PyStr) (params : Dict) (k : Program) : Program :=
  match strictKeysError params allowed [] with
  | some invalid => respond invalid
  | none => k

/-! ## `config_mutation.py` -/

/-- The `result` of an `approval_checker`: what its first call returned. -/
abbrev Checked := Option (Option Json)

/-- The check of an `approval_checker`, which consumes the marker once. -/
def approved (command : PyStr) (params : Dict) (result : Checked)
    (k : Option Json → Checked → Program) : Program :=
  match result with
  | some answer => k answer result
  | none => .call (.consume command [] params) fun answer => k answer (some answer)

/-- The check where it is needed; a refusal ends the handler. -/
def unlessDenied (command : PyStr) (params : Dict) (needed : Bool) (result : Checked)
    (k : Checked → Program) : Program :=
  if needed then
    approved command params result fun
      | some denied, _ => respond denied
      | none, result => k result
  else k result

/-! ## `fs_write.py` -/

def protectedRoots : List PyStr := [py "/config", py "/addons", py "/ssl"]

/-- `MAX_WRITE_BYTES`. -/
def maxWriteBytes : Nat := 8 * 1024 * 1024

/-- `_is_protected`. -/
def isProtected (path : PyStr) : Bool :=
  let norm := if endsWith path (py "/") then path else path ++ py "/"
  protectedRoots.any fun root => startsWith norm (root ++ py "/") || path = root

/-- `_is_storage`. -/
def isStorage (path : PyStr) : Bool :=
  hasSubstr path (py "/config/.storage/") || endsWith path (py "/config/.storage")

def storageReadonly : Json :=
  error "STORAGE_READONLY" (py "Writes to .storage/ are refused; use the HA REST config API instead")

/-- `_write_preflight`, which `fs.write`, `fs.restore` and `fs.patch` spell out. -/
def writePreflight (command : PyStr) (params : Dict) (path : PyStr) (agentBridge : Bool)
    (result : Checked) (k : Checked → Program) : Program :=
  if isStorage path then respond storageReadonly
  else unlessDenied command params (isProtected path || agentBridge) result k

def required (name : String) : Program := respond (error "MISSING_PARAM" (py name ++ py " is required"))

def backupError (message : String) (_ : PyStr) : Json := error "BACKUP_ERROR" (py message)

section
variable [Runtime]

/-- `str(params.get(name, default))`. -/
def textOr (params : Dict) (name default : String) : PyStr :=
  strOf (params.getD (py name) (.str (py default)))

def agentBridgeOf (params : Dict) : Bool := truthy (params.getD (py "agent_bridge") (.bool false))

def pathNotAllowed (path : PyStr) : Json :=
  error "PATH_NOT_ALLOWED" (py "Path is outside the allowed roots: " ++ Py.reprStr path)

/-- `_resolve_write_target`. -/
def resolveWriteTarget (path : PyStr) (k : PurePath → Program) : Program :=
  attempt (.resolveSafe path) (fun
    | .noAllowedRoots => some (respond (error "NO_ALLOWED_ROOTS" (py "No filesystem roots configured")))
    | .outOfBounds => some (respond (pathNotAllowed path))
    | _ => none) k

/-- The target, and the check of where it leads: a link may lead into a protected root. -/
def resolveTarget (command : PyStr) (params : Dict) (path : PyStr) (result : Checked)
    (k : PurePath → Checked → Program) : Program :=
  resolveWriteTarget path fun resolved =>
  unlessDenied command params (isProtected resolved.str) result fun result => k resolved result

/-- `_decode_content`. -/
def decodeContent (content encoding : PyStr) (k : Bytes → Program) : Program :=
  if encoding = py "base64" then
    match b64decodeText content with
    | .error text => respond (error "INVALID_CONTENT" (py "base64 decode failed: " ++ text))
    | .ok data => k data
  else if encoding = py "utf-8" then
    match encodeUtf8 content with
    | none => raise (.other (py "UnicodeEncodeError"))
    | some data => k data
  else
    respond (error "INVALID_ENCODING"
      (py "Unknown encoding: " ++ Py.reprStr encoding ++ py "; use utf-8 or base64"))

def tooLarge (code : String) (what : PyStr) (limit : Nat) : Json :=
  fsError (py code) (what ++ py " bytes; limit is " ++ natStr limit) [(py "limit", .int limit)]

/-! ### `fs.write` -/

def writeKeys : List PyStr :=
  [py "path", py "content", py "encoding", py "actor", py "agent_bridge", py "proposal_id",
   approvalParam]

variable [Digest]

/-- The write behind all checks. -/
def writeFile (path : PyStr) (content : Bytes) (proposalId : PyStr) : Program :=
  attempt (.atomicWriteSafe path content)
    (ioErrors (pathNotAllowed path) fun text => error "WRITE_ERROR" (py "Write failed: " ++ text))
    fun () =>
  respond (obj [("ok", .bool true), ("path", .str path), ("size", .int content.length),
    ("sha256", .str (Digest.sha256 content)), ("proposal_id", .str proposalId)])

def handleFsWrite : Handler := fun params =>
  withKeys writeKeys params <|
  let path := textOr params "path" ""
  if path = [] then required "path"
  else
    match params.getD (py "content") .null with
    | .null => required "content"
    | content =>
      let encoding := textOr params "encoding" "utf-8"
      let proposalId := textOr params "proposal_id" "direct"
      let actor := textOr params "actor" "agent"
      writePreflight (py "fs.write") params path (agentBridgeOf params) none fun result =>
      resolveTarget (py "fs.write") params path result fun _ _ =>
      decodeContent (strOf content) encoding fun content =>
      if maxWriteBytes < content.length then
        respond (tooLarge "REQUEST_TOO_LARGE" (py "content is " ++ natStr content.length) maxWriteBytes)
      else
        let created := attempt .getStore uncaught fun () => writeFile path content proposalId
        attempt (.readBytesSafe path false) (fun
          -- a fresh file has no prior version
          | .fileNotFound _ => some created
          | exc => ioErrors (pathNotAllowed path)
              (fun text => error "READ_ERROR" (py "Cannot read prior bytes: " ++ text)) exc)
          fun priorBytes =>
        attempt .getStore uncaught fun () =>
        attempt (.capture path priorBytes proposalId .write actor)
          (storeErrors (backupError "Backup capture failed; write aborted")) fun _ =>
        writeFile path content proposalId

/-! ### `fs.restore` -/

def restoreKeys : List PyStr :=
  [py "path", py "version_id", py "version", py "at", py "actor", py "agent_bridge", py "proposal_id",
   approvalParam]

/-- A selector that is no number, where it is supplied. -/
def givenSelector (params : Dict) (name : String) : Option PyStr :=
  match params.getD (py name) .null with
  | .null => none
  | value => some (strOf value)

/-- `sel_kwargs`. -/
def restoreSelector (params : Dict) (k : Selector → Program) : Program :=
  let chosen (version : Option Int) : Program :=
    let sel : Selector :=
      ⟨version, givenSelector params "proposal_id", givenSelector params "at",
        givenSelector params "version_id"⟩
    if sel.chosen ≠ 1 then
      respond (error "INVALID_PARAM"
        (py "Exactly one of version_id, version, proposal_id, or at is required"))
    else k sel
  match params.getD (py "version") .null with
  | .null => chosen none
  | value =>
    match HaReads.intOfParam value with
    | .error _ => raise (.other (py "OverflowError"))
    | .ok none => respond (error "INVALID_PARAM" (py "version must be an integer"))
    | .ok (some version) => chosen (some version)

def handleFsRestore : Handler := fun params =>
  withKeys restoreKeys params <|
  let path := textOr params "path" ""
  if path = [] then required "path"
  else
    let actor := textOr params "actor" "agent"
    writePreflight (py "fs.restore") params path (agentBridgeOf params) none fun result =>
    resolveTarget (py "fs.restore") params path result fun _ _ =>
    attempt .getStore uncaught fun () =>
    restoreSelector params fun sel =>
    attempt (.resolveVersion path sel) (fun
      | .backupStore text | .valueError text => some (respond (error "VERSION_NOT_FOUND" text))
      | _ => none) fun stored =>
    attempt (.fetchObject stored.sha256) (storeErrors (error "OBJECT_MISSING")) fun restoreBytes =>
    attempt (.readBytesSafe path true)
      (ioErrors (pathNotAllowed path) fun text =>
        error "READ_ERROR" (py "Cannot read prior bytes: " ++ text)) fun priorBytes =>
    attempt (.capture path priorBytes (py "restore-from-" ++ stored.proposalId) .restore actor)
      (storeErrors (backupError "Pre-restore capture failed; restore aborted")) fun _ =>
    attempt (.atomicWriteSafe path restoreBytes)
      (ioErrors (pathNotAllowed path) fun text =>
        error "WRITE_ERROR" (py "Restore write failed: " ++ text)) fun () =>
    attempt (.purgeTrashEntriesFor path) uncaught fun purged =>
    respond (obj [("ok", .bool true), ("path", .str path), ("size", .int restoreBytes.length),
      ("sha256", .str stored.sha256), ("restored_from_proposal", .str stored.proposalId),
      ("trash_purged", .int (Int.ofNat purged))])

/-! ## `fs_patch.py` -/

/-- `MAX_PATCH_BYTES`. -/
def maxPatchBytes : Nat := 1024 * 1024

def patchKeys : List PyStr :=
  [py "path", py "patch", py "dry_run", py "actor", py "agent_bridge", py "proposal_id", approvalParam]

/-- `_run_patch` and the handler's `except PatchApplyError`. -/
def runPatch (original : Bytes) (patchText : PyStr) (k : Bytes → Nat → Program) : Program :=
  match FsPatch.applyUnifiedDiff original patchText with
  | .error (.apply message) =>
    respond (error "PATCH_FAILED" (py "Patch did not apply cleanly: " ++ message))
  | .error .value => raise (.other (py "ValueError"))
  | .error .encode => raise (.other (py "UnicodeEncodeError"))
  | .ok (patched, hunks) => k patched hunks

def handleFsPatch : Handler := fun params =>
  withKeys patchKeys params <|
  let path := textOr params "path" ""
  let patchText := textOr params "patch" ""
  if path = [] then required "path"
  else if patchText = [] then required "patch"
  else
    match encodeUtf8 patchText with
    | none => raise (.other (py "UnicodeEncodeError"))
    | some encoded =>
      if maxPatchBytes < encoded.length then
        respond (tooLarge "REQUEST_TOO_LARGE" (py "patch is " ++ natStr encoded.length) maxPatchBytes)
      else
        let dryRun := truthy (params.getD (py "dry_run") (.bool false))
        let proposalId := textOr params "proposal_id" "direct"
        let actor := textOr params "actor" "agent"
        writePreflight (py "fs.patch") params path (agentBridgeOf params) none fun result =>
        resolveTarget (py "fs.patch") params path result fun _ _ =>
        attempt (.readBytesSafe path false) (fun
          | .fileNotFound _ =>
            some (respond (error "NOT_FOUND" (py "Path does not exist: " ++ Py.reprStr path)))
          | exc => ioErrors (pathNotAllowed path)
              (fun text => error "READ_ERROR" (py "Cannot read file: " ++ text)) exc) fun original =>
        runPatch original patchText fun patched hunks =>
        if maxWriteBytes < patched.length then
          respond (tooLarge "RESULT_TOO_LARGE" (py "patched file would be " ++ natStr patched.length)
            maxWriteBytes)
        else if dryRun then
          respond (obj [("ok", .bool true), ("path", .str path), ("dry_run", .bool true),
            ("hunks_applicable", .int hunks)])
        else
          attempt .getStore uncaught fun () =>
          attempt (.capture path original proposalId .patch actor)
            (storeErrors (backupError "Backup capture failed; patch aborted")) fun _ =>
          attempt (.atomicWriteSafe path patched)
            (ioErrors (pathNotAllowed path) fun text =>
              error "WRITE_ERROR" (py "Atomic write failed: " ++ text)) fun () =>
          respond (obj [("ok", .bool true), ("path", .str path),
            ("sha256", .str (Digest.sha256 patched)), ("size", .int patched.length),
            ("hunks_applied", .int hunks)])

/-! ## `fs_move_delete.py` -/

def moveKeys : List PyStr :=
  [py "src", py "dst", py "actor", py "agent_bridge", py "proposal_id", approvalParam]

/-- `errno.EXDEV`. -/
def exdev : Int := 18

/-- The rename behind all checks, and the history that follows it. -/
def moveFile (srcRaw dstRaw : PyStr) (size : Nat) : Program :=
  let moved (historyMoved : Bool) : Program :=
    respond (obj [("ok", .bool true), ("src", .str srcRaw), ("dst", .str dstRaw), ("size", .int size),
      ("history_moved", .bool historyMoved)])
  attempt (.replaceSafe srcRaw dstRaw) (fun
    | .outOfBounds => some (respond (error "PATH_NOT_ALLOWED"
        (py "Source or destination escapes the allowed roots")))
    | .fileNotFound text => some (respond (error "MOVE_ERROR" (py "Move failed: " ++ text)))
    | .osError errno text =>
      if errno = some exdev then
        some (respond (error "CROSS_DEVICE"
          (py "Cross-device moves are not supported; use fs.write + fs.delete instead")))
      else some (respond (error "MOVE_ERROR" (py "Move failed: " ++ text)))
    | _ => none) fun () =>
  attempt (.renameHistory srcRaw dstRaw) (fun
    | .backupStore _ => some (moved false)
    | _ => none) fun historyMoved =>
  moved historyMoved

/-- The captures of both ends and the move. -/
def captureAndMove (srcRaw dstRaw proposalId actor : PyStr) (dstExists : Bool) : Program :=
  let captureSource : Program :=
    attempt (.readBytesSafe srcRaw false)
      (ioErrors (pathNotAllowed srcRaw) fun text =>
        error "READ_ERROR" (py "Cannot read source: " ++ text)) fun srcBytes =>
    attempt (.capture srcRaw srcBytes proposalId .moveSrc actor)
      (storeErrors (backupError "Backup capture of source failed; move aborted")) fun _ =>
    moveFile srcRaw dstRaw (List.length srcBytes)
  if dstExists then
    attempt (.readBytesSafe dstRaw true)
      (ioErrors (pathNotAllowed dstRaw) fun text =>
        error "READ_ERROR" (py "Cannot read destination prior bytes: " ++ text)) fun dstPrior =>
    attempt (.capture dstRaw dstPrior (py "pre-move-" ++ proposalId) .moveDst actor)
      (storeErrors (backupError "Backup capture of destination failed; move aborted")) fun _ =>
    captureSource
  else captureSource

def handleFsMove : Handler := fun params =>
  withKeys moveKeys params <|
  let srcRaw := textOr params "src" ""
  let dstRaw := textOr params "dst" ""
  if srcRaw = [] then required "src"
  else if dstRaw = [] then required "dst"
  else
    let proposalId := textOr params "proposal_id" "direct"
    let actor := textOr params "actor" "agent"
    let agentBridge :=
      truthy (params.getD (py "agent_bridge") (.bool (isProtected srcRaw || isProtected dstRaw)))
    writePreflight (py "fs.move") params srcRaw agentBridge none fun result =>
    writePreflight (py "fs.move") params dstRaw agentBridge result fun result =>
    resolveTarget (py "fs.move") params srcRaw result fun src result =>
    resolveTarget (py "fs.move") params dstRaw result fun dst _ =>
    attempt (.exists_ src) uncaught fun (srcExists : Bool) =>
    if srcExists = false then
      respond (error "NOT_FOUND" (py "Source path does not exist: " ++ Py.reprStr srcRaw))
    else if src = dst then respond (error "INVALID_PARAM" (py "src and dst must differ"))
    else
      attempt .getStore uncaught fun () =>
      attempt (.exists_ dst) uncaught fun dstExists =>
      captureAndMove srcRaw dstRaw proposalId actor dstExists

def deleteKeys : List PyStr :=
  [py "path", py "actor", py "agent_bridge", py "proposal_id", approvalParam]

def handleFsDelete : Handler := fun params =>
  withKeys deleteKeys params <|
  let path := textOr params "path" ""
  if path = [] then required "path"
  else
    let proposalId := textOr params "proposal_id" "direct"
    let actor := textOr params "actor" "agent"
    writePreflight (py "fs.delete") params path (agentBridgeOf params) none fun result =>
    resolveTarget (py "fs.delete") params path result fun resolved _ =>
    attempt (.exists_ resolved) uncaught fun (pathExists : Bool) =>
    if pathExists = false then
      respond (error "NOT_FOUND" (py "Path does not exist: " ++ Py.reprStr path))
    else
      attempt (.readBytesSafe path false)
        (ioErrors (pathNotAllowed path) fun text =>
          error "READ_ERROR" (py "Cannot read file: " ++ text)) fun priorBytes =>
      attempt .getStore uncaught fun () =>
      attempt (.capture path priorBytes proposalId .delete actor)
        (storeErrors (backupError "Backup capture failed; delete aborted")) fun version =>
      attempt (.trashFile resolved) (fun
        | .fileNotFound text | .osError _ text =>
          some (respond (error "TRASH_ERROR" (py "Trash operation failed: " ++ text)))
        | _ => none) fun trashedTo =>
      respond (obj [("ok", .bool true), ("path", .str path), ("sha256", .str version.sha256),
        ("trashed_to", .str trashedTo)])

end

/-! ## What is written back -/

end HassNode.FsMutations
