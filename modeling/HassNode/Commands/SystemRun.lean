import HassNode.Commands.ExecPolicy
import HassNode.Library.Interaction

/-!
# Prepared and executed commands

`system.run.prepare` of `commands/exec_approvals.py` and `commands/system_run.py`: the plan that an
approver sees, and the checks between a forwarded plan and the process.
-/

namespace HassNode.ExecApprovals

open Py Interaction HaClient

/-- `str.upper` beyond ASCII, character by character. -/
class CaseTable where
  upperOf : CodePoint → PyStr

/-- `s.upper()`. -/
def upper [CaseTable] (s : PyStr) : PyStr :=
  s.flatMap fun c =>
    if 97 ≤ c.val ∧ c.val ≤ 122 then [c - 32]
    else if c.val < 0x80 then [c]
    else CaseTable.upperOf c

/-- What the node's process finds around it.  A resolved path that exists has no link left to
follow. -/
structure Host where
  /-- `allowed_roots_for_env()`. -/
  roots : List PyStr
  /-- `str(Path(path).resolve(strict=False))`; `none` is an exception. -/
  resolve : PyStr → Option PyStr
  /-- `path.is_dir()`; `none` is an exception. -/
  isDir : PyStr → Option Bool
  /-- `os.environ`. -/
  environ : List (PyStr × PyStr)
  resolve_absolute : ∀ {path resolved : PyStr}, resolve path = some resolved →
    startsWith resolved (py "/") = true
  resolve_canonical : ∀ {path resolved : PyStr}, resolve path = some resolved →
    isDir resolved = some true → resolve resolved = some resolved

/-! ## Checks that end a handler -/

inductive Stop where
  | refused (response : Json)
  | raised (exc : Exc)

abbrev Checked := Except Stop

def refuse : Option Json → Checked Unit
  | none => .ok ()
  | some response => .error (.refused response)

def refuseIf (c : Prop) [Decidable c] (response : Json) : Checked Unit :=
  if c then .error (.refused response) else .ok ()

def orRefuse {α : Type} : Except Json α → Checked α
  | .ok value => .ok value
  | .error response => .error (.refused response)

def orRaise {α : Type} (exc : Exc) : Option α → Checked α
  | some value => .ok value
  | none => .error (.raised exc)

/-! ## The text of a command -/

/-- `_inline_shell_payload`. -/
def inlineShellPayload : List PyStr → Option PyStr
  | [executable, flag, script] =>
    if executable = py "/bin/sh" ∧ flag ∈ [py "-c", py "-lc"] then
      if strip script = [] then none else some (strip script)
    else none
  | _ => none

/-- `_resolve_command_text`: the text, and the payload when it differs. -/
def resolveCommandText (argv : List PyStr) (rawCommand : Json) :
    Except Json (PyStr × Option PyStr) :=
  let commandText := formatExecCommand argv
  let payload := inlineShellPayload argv
  let preview := if payload ≠ some commandText then payload else none
  let bind raw :=
    if raw = [] then .ok (commandText, preview)
    else if raw ≠ commandText ∧ some raw ≠ payload then
      .error (obj [("ok", .bool false), ("error", .str (py "RAW_COMMAND_MISMATCH")),
        ("message", .str (py "INVALID_REQUEST: rawCommand does not match command")),
        ("inferred", .str commandText), ("formattedArgv", .str commandText)])
    else .ok (commandText, preview)
  match rawCommand with
  | .null => bind []
  | .str s => bind (strip s)
  | _ => .error (error "INVALID_PARAM" (py "rawCommand must be a string"))

/-- `_validate_env`. -/
def validateEnv : Json → Option Json
  | .null => none
  | .dict entries =>
    if entries.all fun kv => kv.1 ≠ [] && isStr kv.2 then none
    else invalid (py "env must be an object of non-empty string keys and values")
  | _ => invalid (py "env must be an object of non-empty string keys and values")

/-! ## The working directory -/

/-- `resolved.relative_to(root)` succeeds. -/
def isBelow (root resolved : PyStr) : Bool :=
  resolved = root || startsWith resolved (root ++ py "/") ||
    (root = py "/" && startsWith resolved (py "/") && !startsWith resolved (py "//"))

section
variable [Runtime] (host : Host)

/-- `_validate_cwd`, with `resolve_safe`. -/
def validateCwd (cwd : PyStr) : Checked PyStr := do
  let outside := error "PATH_NOT_ALLOWED" (py "cwd is outside the allowed roots: " ++ Py.reprStr cwd)
  refuseIf (host.roots = []) (error "NO_ALLOWED_ROOTS" (py "No filesystem roots configured"))
  refuseIf (startsWith cwd (py "/") = false) outside
  let resolved ← orRaise (.other (py "ValueError")) (host.resolve cwd)
  refuseIf ((host.roots.any fun root => isBelow root resolved) = false) outside
  let directory ← orRaise (.other (py "OSError")) (host.isDir resolved)
  refuseIf (directory = false)
    (error "INVALID_PARAM" (py "cwd is not a directory: " ++ Py.reprStr cwd))
  return resolved

/-- The `cwd` of a request: absent, or a directory below an allowed root. -/
def checkCwd : Json → Checked (Option PyStr)
  | .null => .ok none
  | .str cwd =>
    if strip cwd = [] then
      .error (.refused (error "INVALID_PARAM" (py "cwd must be a non-empty string")))
    else (validateCwd host cwd).map some
  | _ => .error (.refused (error "INVALID_PARAM" (py "cwd must be a non-empty string")))

end

/-- `None`, or a text that is not blank. -/
def validateOptionalIdentifier (field : PyStr) : Json → Option Json
  | .null => none
  | .str s => if strip s = [] then invalid (field ++ py " must be a non-empty string") else none
  | _ => invalid (field ++ py " must be a non-empty string")

def textOrNull : Option PyStr → Json
  | none => .null
  | some s => .str s

/-! ## `system.run.prepare` -/

section
variable [Runtime] (host : Host)

/-- The plan of `handle_system_run_prepare`. -/
def prepare (budget : Nat) (stored : ReadOutcome) (params : Dict) : Checked Dict := do
  let argv ← orRefuse (validateArgv (params.getD (py "command") .null))
  let (commandText, commandPreview) ←
    orRefuse (resolveCommandText argv (params.getD (py "rawCommand") .null))
  refuse (validateEnv (params.getD (py "env") .null))
  let cwd ← checkCwd host (params.getD (py "cwd") .null)
  let agentId := params.getD (py "agentId") .null
  let sessionKey := params.getD (py "sessionKey") .null
  refuse (validateOptionalIdentifier (py "agentId") agentId)
  refuse (validateOptionalIdentifier (py "sessionKey") sessionKey)
  let (document, _) ← (readSnapshot budget stored).mapError .raised
  let policy ← (resolvePolicy document (strField params (py "agentId"))).mapError .raised
  return [(py "argv", .list (argv.map .str)), (py "cwd", textOrNull cwd),
    (py "commandText", .str commandText), (py "commandPreview", textOrNull commandPreview),
    (py "agentId", agentId), (py "sessionKey", sessionKey), (py "policySnapshot", .dict policy)]

/-- `handle_system_run_prepare`. -/
def handleSystemRunPrepare (budget : Nat) (stored : ReadOutcome) (params : Dict) : Result :=
  match prepare host budget stored params with
  | .error (.refused response) => .ok response
  | .error (.raised exc) => .error exc
  | .ok plan =>
    let policy := dictField plan (py "policySnapshot")
    .ok (obj [("plan", .dict plan),
      ("execPolicy", obj [("security", policy.getD (py "security") .null),
        ("ask", policy.getD (py "ask") .null)]),
      ("allowAlwaysCoverage", obj [("complete", .bool false), ("patterns", .list [])])])

end

/-! ## `system.run` -/

def defaultTimeoutMs : Int := 30000

def defaultMaxTimeoutMs : Int := 60000

def maxArgvBytes : Nat := 128 * 1024

def maxEnvBytes : Nat := 128 * 1024

/-- `_SAFE_ENV_KEYS`. -/
def safeEnvKeys : List PyStr :=
  [py "PATH", py "HOME", py "LANG", py "TZ", py "USER", py "TERM", py "LOGNAME"]

/-- `_BLOCKED_KEY_SUBSTRINGS`. -/
def blockedKeySubstrings : List PyStr :=
  [py "TOKEN", py "SECRET", py "KEY", py "PASS", py "CREDENTIAL", py "AUTH", py "PWD"]

def approvalDecisions : List PyStr := [py "allow-once", py "allow-always"]

abbrev Env := List (PyStr × PyStr)

/-- `_base_env`. -/
def baseEnv (host : Host) : Env :=
  safeEnvKeys.filterMap fun key => (host.environ.lookup key).map fun value => (key, value)

/-- `_is_blocked_key`. -/
def isBlockedKey [CaseTable] (key : PyStr) : Bool :=
  blockedKeySubstrings.any fun s => hasSubstr (upper key) s

/-- `base.update(env)`. -/
def updateEnv (base env : Env) : Env :=
  base.map (fun kv => (kv.1, (env.lookup kv.1).getD kv.2)) ++
    env.filter fun kv => kv.1 ∉ base.map Prod.fst

/-- `_merge_env`, with the refusal of its `None`. -/
def mergeEnv [CaseTable] (host : Host) (callerEnv : Env) : Except Json Env :=
  if callerEnv.any fun kv => isBlockedKey kv.1 then
    .error (error "INVALID_PARAM" (py "env contains a key matching a blocked pattern " ++
      py "(TOKEN, SECRET, KEY, PASS, CREDENTIAL, AUTH, PWD)"))
  else .ok (updateEnv (baseEnv host) callerEnv)

/-- `_encoded_size`. -/
def encodedSize (items : List PyStr) : Nat :=
  (items.map fun item => (item.flatMap utf8Char).length + 1).sum

/-- `_is_utf8_encodable`. -/
def isUtf8Encodable (items : List PyStr) : Bool := items.all fun item => !item.any unencodable

/-- `_verify_authorization`. -/
def verifyAuthorization (params : Dict) : Option Json :=
  match params.getD (py "systemRunPlan") .null with
  | .null => some (error "UNAUTHORIZED"
      (py "system.run requires the Gateway-forwarded systemRunPlan"))
  | .dict _ =>
    if (strField params (py "runId")).all fun runId => strip runId = [] then
      some (error "UNAUTHORIZED"
        (py "system.run requires a non-empty runId from the approved forward"))
    else
      let approved := params.get? (py "approved") = some (.bool true)
      let decisionOk := (strField params (py "approvalDecision")).any (· ∈ approvalDecisions)
      let sourceOk := (strField params (py "approvalSource")).any fun source => strip source ≠ []
      if ¬ (approved ∨ decisionOk ∨ sourceOk) then
        some (error "UNAUTHORIZED" (py "system.run requires approved=true, approvalDecision, " ++
          py "or approvalSource from the Gateway approval envelope"))
      else none
  | _ => invalid (py "systemRunPlan must be an object")

def mismatch (message : PyStr) : Option Json := some (error "PLAN_MISMATCH" message)

/-- A field that the plan must have, with the forwarded value. -/
def verifyPlanField (plan : Dict) (field : PyStr) (forwarded : Json) : Option Json :=
  match plan.get? field with
  | none => mismatch (py "systemRunPlan is missing the approval-bound " ++ field)
  | some value =>
    if value ≠ forwarded then mismatch (field ++ py " does not match the approved systemRunPlan")
    else none

/-- `_verify_plan_consistency`. -/
def verifyPlanConsistency (plan : Dict) (argv : List PyStr) (cwd : Option PyStr)
    (commandText : PyStr) (params : Dict) : Option Json :=
  firstError
    [if plan.get? (py "argv") ≠ some (.list (argv.map .str)) then
        mismatch (py "command does not match the approved systemRunPlan argv")
      else none,
      verifyPlanField plan (py "commandText") (.str commandText),
      verifyPlanField plan (py "cwd") (textOrNull cwd),
      verifyPlanField plan (py "agentId") (params.getD (py "agentId") .null),
      verifyPlanField plan (py "sessionKey") (params.getD (py "sessionKey") .null)]

/-- `_max_timeout_ms`. -/
def maxTimeoutMs [Runtime] (host : Host) : Int :=
  match host.environ.lookup (py "OPENCLAW_RUN_TIMEOUT_MAX_MS") with
  | none => defaultMaxTimeoutMs
  | some text => (intOfText text).getD defaultMaxTimeoutMs

/-- `_resolve_timeout_ms`. -/
def resolveTimeoutMs [Runtime] (host : Host) (params : Dict) : Except Json Int :=
  if params.has (py "timeout") ∧ ¬ params.has (py "timeoutMs") then
    .error (error "INVALID_PARAM"
      (py "timeout is not accepted; use timeoutMs (native exec wire contract)"))
  else
    match params.getD (py "timeoutMs") (.int defaultTimeoutMs) with
    | .int raw =>
      if raw ≤ 0 then .error (error "INVALID_PARAM" (py "timeoutMs must be positive"))
      else .ok (min raw (maxTimeoutMs host))
    | raw => .error (error "INVALID_PARAM"
        (py "timeoutMs must be an integer number of milliseconds, got " ++ repr raw))

/-- The texts of a validated `env`. -/
def envOf (params : Dict) : Env :=
  (dictField params (py "env")).filterMap fun kv =>
    match kv.2 with
    | .str value => some (kv.1, value)
    | _ => none

/-- The arguments of `subprocess.Popen` and of the wait that follows. -/
structure Spawn where
  argv : List PyStr
  cwd : Option PyStr
  env : Env
  timeoutMs : Int
deriving DecidableEq

section
variable [Runtime] [CaseTable] (host : Host)

/-- `handle_system_run` up to the spawn. -/
def planRun (params : Dict) : Checked Spawn := do
  let argv ← orRefuse (validateArgv (params.getD (py "command") .null))
  refuse (verifyAuthorization params)
  let plan := dictField params (py "systemRunPlan")
  let (commandText, _) ←
    orRefuse (resolveCommandText argv (params.getD (py "rawCommand") .null))
  refuse (validateEnv (params.getD (py "env") .null))
  let cwd ← checkCwd host (params.getD (py "cwd") .null)
  refuse (firstError ([py "agentId", py "sessionKey", py "proposalId", py "runId",
    py "approvalSource"].map fun field => validateOptionalIdentifier field (params.getD field .null)))
  refuse (verifyPlanConsistency plan argv cwd commandText params)
  refuseIf (isUtf8Encodable argv = false)
    (error "INVALID_PARAM" (py "command contains a value that cannot be UTF-8 encoded"))
  refuseIf (maxArgvBytes < encodedSize argv)
    (error "ARGV_TOO_LARGE" (py "command exceeds 131072 total argv bytes"))
  let env ← orRefuse (mergeEnv host (envOf params))
  let envItems := env.map fun kv => kv.1 ++ py "=" ++ kv.2
  refuseIf (isUtf8Encodable envItems = false)
    (error "INVALID_PARAM" (py "env contains a value that cannot be UTF-8 encoded"))
  refuseIf (maxEnvBytes < encodedSize envItems)
    (error "ENV_TOO_LARGE" (py "env exceeds 131072 total bytes"))
  let timeoutMs ← orRefuse (resolveTimeoutMs host params)
  return ⟨argv, cwd, env, timeoutMs⟩

end

/-- How the process ended.  The output is cut to 256 KiB for each stream and decoded. -/
inductive Spawned where
  | fileNotFound
  | osError (message : PyStr)
  | raised (name : PyStr)
  | timedOut (outputIncomplete : Bool) (elapsedMs : Int)
  | exited (code : Int) (stdout stderr : PyStr) (outputIncomplete : Bool) (elapsedMs : Int)

/-- The reply of `handle_system_run` once the process was asked for. -/
def spawnReply [Runtime] (request : Spawn) : Spawned → Result
  | .fileNotFound => .ok (error "NOT_FOUND" (py "Binary not found: " ++ Py.reprStr (request.argv.headD [])))
  | .osError message => .ok (error "EXEC_ERROR" (py "Execution failed: " ++ message))
  | .raised name => .error (.other name)
  | .timedOut outputIncomplete elapsedMs =>
    .ok (obj [("ok", .bool true), ("success", .bool false), ("exitCode", .null),
      ("timedOut", .bool true), ("stdout", .str []), ("stderr", .str []),
      ("outputIncomplete", .bool outputIncomplete),
      ("error", .str (py "Command timed out after " ++ intStr request.timeoutMs ++ py "ms")),
      ("elapsed_ms", .int elapsedMs)])
  | .exited code stdout stderr outputIncomplete elapsedMs =>
    .ok (obj [("ok", .bool true), ("success", .bool (code = 0)), ("exitCode", .int code),
      ("timedOut", .bool false), ("stdout", .str stdout), ("stderr", .str stderr),
      ("outputIncomplete", .bool outputIncomplete), ("elapsed_ms", .int elapsedMs)])

/-- `handle_system_run`, which asks the system for at most one process. -/
def handleSystemRun [Runtime] [CaseTable] (host : Host) (params : Dict) :
    Prog Spawn (fun _ => Spawned) Result :=
  match planRun host params with
  | .error (.refused response) => .ret (.ok response)
  | .error (.raised exc) => .ret (.error exc)
  | .ok request => .call request fun spawned => .ret (spawnReply request spawned)

end HassNode.ExecApprovals
