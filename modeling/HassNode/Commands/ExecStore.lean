import HassNode.Commands.ExecPolicy
import HassNode.Library.RelyGuarantee
import HassNode.Py.JsonDump

/-!
# Replacing the exec approval policy

`system.execApprovals.get` and `system.execApprovals.set` of `commands/exec_approvals.py`: the
compare-and-swap on the policy file as a program over file operations, and the store that these
operations act on.
-/

namespace HassNode.ExecApprovals

open Py Interaction HaClient

/-! ## File operations -/

inductive FileOp where
  | mkdir                -- `path.parent.mkdir`
  | acquire              -- open, `fchmod` and `flock` the lock file, then `_locks_same_file`
  | read                 -- `path.read_bytes()`
  | mkstemp
  | fchmod
  | fdopen
  | write (raw : Bytes)  -- `handle.write` and `handle.flush`
  | fsync                -- and the close of the handle
  | replace
  | close                -- `os.close` of a descriptor that no handle owns yet
  | release              -- `_release_approvals_write_lock`, which swallows its errors
  | unlink

inductive Acquired where
  | held
  | stale                -- the lock file was replaced while we waited
  | osError (exc : PyStr)

/-- What an operation answers; `some exc` is an `OSError` with that text. -/
abbrev FileOp.Answer : FileOp → Type
  | .acquire => Acquired
  | .read => ReadOutcome
  | .release => Unit
  | _ => Option PyStr

abbrev SetProgram := Prog FileOp FileOp.Answer Result

/-! ## Snapshots -/

/-- What one call of a handler finds around it. -/
structure Setting where
  /-- `str(_approvals_path())`. -/
  path : PyStr
  /-- `hashlib.sha256(raw).hexdigest()`. -/
  digest : Bytes → PyStr
  /-- How deep `json` can nest. -/
  budget : Nat

namespace Setting

variable (setting : Setting)

/-- `_MISSING_HASH`. -/
def missingHash : PyStr := py "missing:" ++ setting.digest []

/-- The `hash` of a snapshot. -/
def hashOf : Option Bytes → PyStr
  | none => setting.missingHash
  | some raw => setting.digest raw

def lockPath : PyStr := setting.path ++ py ".lock"

end Setting

/-- The reply of `_snapshot`. -/
def snapshot (setting : Setting) (file : Dict) (raw : Option Bytes) : Json :=
  obj [("path", .str setting.path), ("exists", .bool raw.isSome),
    ("hash", .str (setting.hashOf raw)), ("file", .dict file)]

/-- `_snapshot` with its redaction. -/
def redactedSnapshot [Runtime] (setting : Setting) (outcome : ReadOutcome) : Result :=
  match readSnapshot setting.budget outcome with
  | .error exc => .error exc
  | .ok (document, raw) => .ok (snapshot setting (redactDocument document) raw)

/-- `handle_system_exec_approvals_get`. -/
def handleSystemExecApprovalsGet [Runtime] (setting : Setting) : SetProgram :=
  .call .read fun outcome => .ret (redactedSnapshot setting outcome)

/-! ## `system.execApprovals.set` -/

/-- `base_hash`. -/
def baseHash (params : Dict) : PyStr :=
  match params.get? (py "baseHash") with
  | some (.str s) => strip s
  | _ => []

/-- The concurrency check against the file that is about to be replaced. -/
def compareBase (setting : Setting) (base : PyStr) (raw : Option Bytes) : Option Json :=
  let current := setting.hashOf raw
  let refused (message : String) := some (error "INVALID_REQUEST" (py message))
  if raw.isSome then
    if current = [] then refused "exec approvals base hash unavailable; reload and retry"
    else if base = [] then refused "exec approvals base hash required; reload and retry"
    else if base ≠ current then refused "exec approvals changed; reload and retry"
    else none
  else if base ≠ [] ∧ base ≠ current then refused "exec approvals changed; reload and retry"
  else none

def encodeError : DumpError → Exc
  | .recursion => recursionError
  | .intDigits => .other (py "ValueError")

/-- `_serialize_document`. -/
def serializeDocument [Runtime] (budget : Nat) (document : Dict) : Except Exc Bytes :=
  match dumpsIndent budget (.dict document) with
  | .error err => .error (encodeError err)
  | .ok text =>
    match encodeUtf8 (text ++ [10]) with
    | none => .error (.other (py "UnicodeEncodeError"))
    | some raw => .ok raw

/-- The handler of an `OSError`. -/
def ioError (exc : PyStr) : Result :=
  .ok (error "IO_ERROR" (py "Could not write approvals document: " ++ exc))

/-- Leave the locked body before a temporary file was made, or after it became the policy. -/
def leave (result : Result) : SetProgram := .call .release fun _ => .ret result

/-- Leave the locked body with the temporary file still there. -/
def abandon (result : Result) : SetProgram :=
  .call .release fun _ => .call .unlink fun _ => .ret result

/-- The same while the descriptor is still open: a failed close ends the `finally` block. -/
def abandonOpen (result : Result) : SetProgram :=
  .call .release fun _ => .call .close fun
    | some _ => .ret (.error (.other (py "OSError")))
    | none => .call .unlink fun _ => .ret result

section
variable [Runtime] (setting : Setting)

/-- From `mkstemp` to the end of the locked body. -/
def writeMerged (merged : Dict) : SetProgram :=
  .call .mkstemp fun
  | some exc => leave (ioError exc)
  | none => .call .fchmod fun
    | some exc => abandonOpen (ioError exc)
    | none => .call .fdopen fun
      | some exc => abandonOpen (ioError exc)
      | none =>
        match serializeDocument setting.budget merged with
        | .error exc => abandon (.error exc)
        | .ok raw => .call (.write raw) fun
          | some exc => abandon (ioError exc)
          | none => .call .fsync fun
            | some exc => abandon (ioError exc)
            | none => .call .replace fun
              | some exc => abandon (ioError exc)
              | none => .call .read fun outcome => leave (redactedSnapshot setting outcome)

/-- The body under the lock. -/
def underLock (document : Dict) (base : PyStr) : SetProgram :=
  .call .read fun outcome =>
    match readSnapshot setting.budget outcome with
    | .error exc => leave (.error exc)
    | .ok (current, raw) =>
      match compareBase setting base raw with
      | some response => leave (.ok response)
      | none => writeMerged setting (mergeSocket document current)

/-- `_approvals_write_lock` around `body`, with `attempts` left. -/
def withWriteLock (body : SetProgram) : Nat → SetProgram
  | 0 => .ret (ioError (py "could not acquire a stable exec approvals lock at " ++ setting.lockPath))
  | attempts + 1 => .call .acquire fun
    | .held => body
    | .stale => withWriteLock body attempts
    | .osError exc => .ret (ioError exc)

/-- `_LOCK_ACQUIRE_ATTEMPTS`. -/
def lockAcquireAttempts : Nat := 5

/-- `handle_system_exec_approvals_set`. -/
def handleSystemExecApprovalsSet (params : Dict) : SetProgram :=
  match params.get? (py "file") with
  | some (.dict document) =>
    match validateDocument (.dict document) with
    | some response => .ret (.ok response)
    | none => .call .mkdir fun
      | some exc => .ret (ioError exc)
      | none =>
        withWriteLock setting (underLock setting document (baseHash params)) lockAcquireAttempts
  | _ => .ret (.ok (error "INVALID_PARAM" (py "file must be an object")))

end

/-- The result is a snapshot: neither an exception nor an error response. -/
def succeeds : Result → Bool
  | .ok (.dict response) => Dict.get? response (py "ok") = none
  | _ => false

/-! ## The store -/

/-- One `os.replace` over the policy file. -/
structure Commit (ι : Type) where
  caller : ι
  replaced : Option Bytes
  stored : Bytes

/-- The policy file, the temporary file of each call, the holder of the write lock, and the history
of the file. -/
structure Store (ι : Type) where
  file : Option Bytes
  temp : ι → Option Bytes
  lock : Option ι
  commits : List (Commit ι)

/-- A read of a file that is there may fail; any other answer is the truth. -/
def Describes (file : Option Bytes) : ReadOutcome → Prop
  | .bytes raw => file = some raw
  | .notFound => file = none
  | .osError => True

section
variable {ι : Type} [DecidableEq ι]

def Store.setTemp (s : Store ι) (i : ι) (content : Option Bytes) : Store ι :=
  { s with temp := Function.update s.temp i content }

/-- `os.replace` of the temporary file of `i`, which holds `stored`. -/
def Store.commit (s : Store ι) (i : ι) (stored : Bytes) : Store ι :=
  { s.setTemp i none with file := some stored, commits := s.commits ++ [⟨i, s.file, stored⟩] }

/-- What an operation of the call `i` does.  A failed write may have written a part; nothing else
that fails changes a file. -/
def Acts (i : ι) : Effect FileOp.Answer (Store ι)
  | .acquire, s, .held, s' => s.lock = none ∧ s' = { s with lock := some i }
  | .read, s, outcome, s' => Describes s.file outcome ∧ s' = s
  | .mkstemp, s, none, s' => s' = s.setTemp i (some [])
  | .write raw, s, none, s' => s' = s.setTemp i (some raw)
  | .write _, s, some _, s' => ∃ part, s' = s.setTemp i (some part)
  | .replace, s, none, s' => ∃ stored, s.temp i = some stored ∧ s' = s.commit i stored
  | .release, s, _, s' => s' = { s with lock := if s.lock = some i then none else s.lock }
  | .unlink, s, none, s' => s' = s.setTemp i none
  | _, s, _, s' => s' = s

end

end HassNode.ExecApprovals
