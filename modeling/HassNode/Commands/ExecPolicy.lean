import HassNode.Commands.ExecArgv
import HassNode.Py.JsonText
import HassNode.Py.Text

/-!
# The exec approval policy

The document part of `commands/exec_approvals.py`: its closed schema, what a read of the policy file
yields, the redacted view of it, and the policy resolved for one agent.
-/

namespace HassNode.ExecApprovals

open Py HaClient

abbrev Bytes := List Nat

def approvalsDocVersion : Int := 1

def validSecurity : List PyStr := [py "deny", py "allowlist", py "full"]

def validAsk : List PyStr := [py "off", py "on-miss", py "always"]

def policyFields : List PyStr := [py "security", py "ask", py "askFallback", py "autoAllowSkills"]

def defaultPolicy : Dict :=
  [(py "security", .str (py "deny")), (py "ask", .str (py "on-miss")),
    (py "askFallback", .str (py "deny")), (py "autoAllowSkills", .bool false)]

def defaultDocument : Dict :=
  [(py "version", .int approvalsDocVersion), (py "defaults", .dict defaultPolicy),
    (py "agents", .dict [])]

/-! ## The schema -/

/-- The first check that fails. -/
def firstError : List (Option Json) → Option Json := List.findSome? id

theorem firstError_cons {check : Option Json} {checks : List (Option Json)} :
    firstError (check :: checks) = none ↔ check = none ∧ firstError checks = none := by
  cases check with
  | none => exact ⟨fun h => ⟨rfl, h⟩, fun h => h.2⟩
  | some _ => exact iff_of_false nofun (fun h => nomatch h.1)

theorem firstError_iff {checks : List (Option Json)} :
    firstError checks = none ↔ ∀ check ∈ checks, check = none := by
  unfold firstError
  rw [List.findSome?_eq_none_iff]
  rfl

def invalid (message : PyStr) : Option Json := some (error "INVALID_PARAM" message)

def unknownKeys (entries : Dict) (fields : List PyStr) : List PyStr :=
  sortedStr (entries.keys.dedup.filter (· ∉ fields))

section
variable [Runtime]

/-- `{sorted(names)}` in a message. -/
def listRepr (names : List PyStr) : PyStr := repr (.list (names.map .str))

/-- `set(entries) - fields` must be empty. -/
def validateFields (scope : PyStr) (entries : Dict) (fields : List PyStr) : Option Json :=
  let unknown := unknownKeys entries fields
  if unknown ≠ [] then invalid (scope ++ py " contains unknown fields: " ++ listRepr unknown)
  else none

end

def isOneOf (value : Json) (allowed : List PyStr) : Bool :=
  match value with
  | .str s => s ∈ allowed
  | _ => false

def isStr : Json → Bool
  | .str _ => true
  | _ => false

/-- `_validate_optional_string`. -/
def validateOptionalString (scope : PyStr) (container : Dict) (field : PyStr) : Option Json :=
  match container.get? field with
  | none => none
  | some value =>
    if isStr value then none else invalid (scope ++ py "." ++ field ++ py " must be a string")

/-- `_validate_min_length_string`. -/
def validateMinLengthString (scope : PyStr) : Json → Option Json
  | .str (_ :: _) => none
  | _ => invalid (scope ++ py " must be a non-empty string")

/-- `_validate_non_blank_string`. -/
def validateNonBlankString (scope : PyStr) : Json → Option Json
  | .str (c :: rest) =>
    if (c :: rest).all isJsSpace then
      invalid (scope ++ py " must contain a non-whitespace character")
    else none
  | _ => invalid (scope ++ py " must be a non-empty string")

/-- `value < 0`. -/
def isNegative : Json → Bool
  | .int i => i < 0
  | .float (.dec neg _) => neg
  | .float (.inf neg) => neg
  | _ => false

/-- `_validate_timestamp`. -/
def validateTimestamp (scope : PyStr) (container : Dict) (field : PyStr) (required : Bool) :
    Option Json :=
  let name := scope ++ py "." ++ field
  match container.get? field with
  | none => if required then invalid (name ++ py " is required") else none
  | some (.float .nan) | some (.float (.inf _)) => invalid (name ++ py " must be a finite number")
  | some (.int i) =>
    if isNegative (.int i) then invalid (name ++ py " must be greater than or equal to 0") else none
  | some (.float x) =>
    if isNegative (.float x) then invalid (name ++ py " must be greater than or equal to 0")
    else none
  | some _ => invalid (name ++ py " must be a number")

/-- The field, when there, is the text `"allow-always"`. -/
def sourceOk (entry : Dict) : Bool := entry.get? (py "source") = some (.str (py "allow-always"))

def allowlistEntryFields : List PyStr :=
  [py "id", py "pattern", py "source", py "commandText", py "argPattern", py "lastUsedAt",
    py "lastUsedCommand", py "lastResolvedPath"]

def mcpToolFields : List PyStr :=
  [py "server", py "tool", py "source", py "addedAt", py "lastUsedAt"]

section
variable [Runtime]

/-- `_validate_allowlist_entry`. -/
def validateAllowlistEntry (scope : PyStr) : Json → Option Json
  | .dict entry =>
    firstError <|
      [validateFields scope entry allowlistEntryFields,
        if isStr (Dict.getD entry (py "pattern") .null) then none
        else invalid (scope ++ py ".pattern must be a string"),
        match Dict.get? entry (py "id") with
        | none => none
        | some value => validateMinLengthString (scope ++ py ".id") value,
        if Dict.has entry (py "source") && !sourceOk entry then
          invalid (scope ++ py ".source must be 'allow-always'")
        else none] ++
      ([py "commandText", py "argPattern", py "lastUsedCommand", py "lastResolvedPath"].map
        (validateOptionalString scope entry)) ++
      [validateTimestamp scope entry (py "lastUsedAt") false]
  | _ => invalid (scope ++ py " must be an object")

/-- `_validate_mcp_tool`. -/
def validateMcpTool (scope : PyStr) : Json → Option Json
  | .dict entry =>
    firstError <|
      [validateFields scope entry mcpToolFields] ++
      ([py "server", py "tool"].map fun field =>
        validateNonBlankString (scope ++ py "." ++ field) (Dict.getD entry field .null)) ++
      [if sourceOk entry then none else invalid (scope ++ py ".source must be 'allow-always'"),
        validateTimestamp scope entry (py "addedAt") true,
        validateTimestamp scope entry (py "lastUsedAt") false]
  | _ => invalid (scope ++ py " must be an object")

/-- A list of entries, each checked under its index. -/
def validateEntries (scope : PyStr) (check : PyStr → Json → Option Json) : Option Json → Option Json
  | none => none
  | some (.list items) =>
    firstError (items.mapIdx fun index entry =>
      check (scope ++ py "[" ++ natStr index ++ py "]") entry)
  | some _ => invalid (scope ++ py " must be a list")

/-- A field whose value is one of a few words. -/
def validateChoice (scope : PyStr) (policy : Dict) (field : PyStr) (allowed : List PyStr) :
    Option Json :=
  match policy.get? field with
  | none => none
  | some value =>
    if isOneOf value allowed then none
    else invalid (scope ++ py "." ++ field ++ py " must be one of " ++ listRepr (sortedStr allowed))

/-- `_validate_policy`. -/
def validatePolicy (scope : PyStr) (policy : Dict) (allowAllowlist : Bool) : Option Json :=
  let allowed := policyFields ++ if allowAllowlist then [py "allowlist", py "mcpTools"] else []
  firstError
    [validateFields scope policy allowed,
      validateChoice scope policy (py "security") validSecurity,
      validateChoice scope policy (py "ask") validAsk,
      validateChoice scope policy (py "askFallback") validSecurity,
      match policy.get? (py "autoAllowSkills") with
      | none | some (.bool _) => none
      | some _ => invalid (scope ++ py ".autoAllowSkills must be boolean"),
      validateEntries (scope ++ py ".allowlist") validateAllowlistEntry
        (policy.get? (py "allowlist")),
      validateEntries (scope ++ py ".mcpTools") validateMcpTool (policy.get? (py "mcpTools"))]

/-- `version != 1` is false. -/
def versionOk : Json → Bool
  | .int i => i = approvalsDocVersion
  | .float x => intEqFloat approvalsDocVersion x
  | _ => false

def validateSocket : Option Json → Option Json
  | none => none
  | some (.dict socket) =>
    if unknownKeys socket [py "path", py "token"] ≠ [] then invalid (py "file.socket is invalid")
    else if socket.any fun kv => !isStr kv.2 then invalid (py "file.socket values must be strings")
    else none
  | some _ => invalid (py "file.socket is invalid")

def validateAgent : PyStr × Json → Option Json
  | (agentId, .dict policy) => validatePolicy (py "file.agents." ++ agentId) policy true
  | _ => invalid (py "file.agents entries must be policy objects")

/-- `_validate_document`. -/
def validateDocument : Json → Option Json
  | .dict value =>
    firstError
      [if unknownKeys value [py "version", py "socket", py "defaults", py "agents"] ≠ [] then
          invalid (py "file contains unknown fields")
        else none,
        if versionOk (Dict.getD value (py "version") .null) then none
        else invalid (py "file.version must be 1"),
        validateSocket (Dict.get? value (py "socket")),
        match Dict.get? value (py "defaults") with
        | none => none
        | some (.dict defaults) => validatePolicy (py "file.defaults") defaults false
        | some _ => invalid (py "file.defaults must be an object"),
        match Dict.get? value (py "agents") with
        | none => none
        | some (.dict agents) => firstError (agents.map validateAgent)
        | some _ => invalid (py "file.agents must be an object")]
  | _ => invalid (py "file must be an object")

end

/-! ## The stored document -/

/-- What `path.read_bytes()` yields. -/
inductive ReadOutcome where
  | bytes (raw : Bytes)
  | notFound
  | osError
deriving DecidableEq

def recursionError : Exc := .other (py "RecursionError")

/-- `_read_snapshot`: the document and the bytes it was read from.  A file that cannot be read counts
as a missing one; only the nesting of a document can raise. -/
def readSnapshot [Runtime] (budget : Nat) : ReadOutcome → Except Exc (Dict × Option Bytes)
  | .notFound => .ok (defaultDocument, none)
  | .osError => .ok (defaultDocument, none)
  | .bytes raw =>
    match decodeUtf8 raw with
    | none => .ok (defaultDocument, some raw)
    | some text =>
      match loads budget text with
      | .error .recursion => .error recursionError
      | .error _ => .ok (defaultDocument, some raw)
      | .ok (.dict document) =>
        if validateDocument (.dict document) ≠ none then .ok (defaultDocument, some raw)
        else .ok (document, some raw)
      | .ok _ => .ok (defaultDocument, some raw)

def dictField (d : Dict) (key : PyStr) : Dict :=
  match d.get? key with
  | some (.dict entries) => entries
  | _ => []

def strField (d : Dict) (key : PyStr) : Option PyStr :=
  match d.get? key with
  | some (.str s) => some s
  | _ => none

/-- `_redact_document`. -/
def redactDocument (document : Dict) : Dict :=
  match strField (dictField document (py "socket")) (py "path") with
  | some path =>
    if strip path ≠ [] then document.set (py "socket") (obj [("path", .str (strip path))])
    else document.pop (py "socket")
  | none => document.pop (py "socket")

/-- `pick_path`: the echo of the redacted path keeps the stored one. -/
def pickPath (incoming stored : Dict) : Option PyStr :=
  match strField incoming (py "path") with
  | none => strField stored (py "path")
  | some incomingValue =>
    match strField stored (py "path") with
    | some storedValue => if incomingValue = strip storedValue then some storedValue
      else some incomingValue
    | none => some incomingValue

/-- `pick_token`. -/
def pickToken (incoming stored : Dict) : Option PyStr :=
  match strField incoming (py "token") with
  | none => strField stored (py "token")
  | some incomingValue => some incomingValue

/-- `_merge_socket`. -/
def mergeSocket (document current : Dict) : Dict :=
  let incoming := dictField document (py "socket")
  let stored := dictField current (py "socket")
  let socket : Dict :=
    (pickPath incoming stored).toList.map (fun path => (py "path", Json.str path)) ++
      (pickToken incoming stored).toList.map fun token => (py "token", Json.str token)
  if socket ≠ [] then document.set (py "socket") (.dict socket) else document.pop (py "socket")

/-! ## The policy of an agent -/

/-- One rule of `_resolve_policy`; the key of `seen` is the rule itself. -/
def allowlistRule : Json → Option Dict
  | .dict entry =>
    match strField entry (py "pattern") with
    | none => none
    | some pattern => some <|
      [(py "pattern", .str pattern)] ++
        (strField entry (py "argPattern")).toList.map (fun s => (py "argPattern", .str s)) ++
        if sourceOk entry then [(py "source", .str (py "allow-always"))] else []
  | _ => none

def allowlistOf (source : Dict) : List Json :=
  match source.get? (py "allowlist") with
  | some (.list entries) => entries
  | _ => []

/-- The sort key of a rule, before `.encode()`. -/
def ruleKey (rule : Dict) : List PyStr :=
  [(strField rule (py "pattern")).getD [], (strField rule (py "argPattern")).getD [],
    (strField rule (py "source")).getD []]

/-- The order of tuples of encoded texts is that of the texts' code points. -/
def keyLe : List PyStr → List PyStr → Bool
  | [], _ => true
  | _ :: _, [] => false
  | a :: as, b :: bs => if a = b then keyLe as bs else le a b

/-- `_resolve_policy`; a rule that is not valid UTF-8 cannot be sorted. -/
def resolvePolicy (document : Dict) (agentId : Option PyStr) : Except Exc Dict :=
  let defaults := dictField document (py "defaults")
  let agents := dictField document (py "agents")
  let wildcard := dictField agents (py "*")
  let exact := match agentId with
    | some agentId => if agentId = [] then [] else dictField agents agentId
    | none => []
  let field name := exact.getD name (wildcard.getD name (defaults.getD name
    (defaultPolicy.getD name .null)))
  let rules := ((allowlistOf wildcard ++ allowlistOf exact).filterMap allowlistRule).reverse.dedup.reverse
  if rules.any fun rule => (ruleKey rule).any fun text => text.any unencodable then
    .error (.other (py "UnicodeEncodeError"))
  else
    let sorted := rules.insertionSort fun a b => keyLe (ruleKey a) (ruleKey b)
    .ok [(py "security", field (py "security")), (py "ask", field (py "ask")),
      (py "askFallback", field (py "askFallback")),
      (py "autoAllowSkills", field (py "autoAllowSkills")),
      (py "allowlistRules", .list (sorted.map .dict))]

end HassNode.ExecApprovals
