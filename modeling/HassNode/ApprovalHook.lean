import HassNode.ApprovalPreflight
import HassNode.Library.OrderedDict

/-!
# The approval hook

`approval-grants.ts` and the `before_tool_call` hook of `node-approval.ts`.  The hook gets the tool
call of a model and hands on its params, rewritten, with or without a request for an approval; the
grants of a session are the only state it reads.
-/

namespace HassNode.NodeApproval

open Py Js

/-! ## `approval-grants.ts` -/

/-- `GRANT_TTL_MS`. -/
def grantTtlMs : Int := 3600000

/-- The map of a grant store, from the text of a key to the time it expires. -/
abbrev GrantStore := OrderedDict JsStr Int

/-- `JSON.stringify([sessionKey, command, action])`. -/
def keyOf (sessionKey command action : JsStr) : JsStr :=
  stringify (.arr [.str sessionKey, .str command, .str action])

namespace GrantStore

def grant (store : GrantStore) (sessionKey command action : JsStr) (nowMs : Int) : GrantStore :=
  store.set (keyOf sessionKey command action) (nowMs + grantTtlMs)

/-- `has`: an expired grant is deleted. -/
def has (store : GrantStore) (sessionKey command action : JsStr) (nowMs : Int) : Bool × GrantStore :=
  match store.lookup (keyOf sessionKey command action) with
  | none => (false, store)
  | some expiresAt =>
    if nowMs ≥ expiresAt then (false, store.erase (keyOf sessionKey command action))
    else (true, store)

def revokeSession (store : GrantStore) (sessionKey : JsStr) : GrantStore :=
  ⟨store.entries.filter fun e => !Js.startsWith e.1 (js "[" ++ stringify (.str sessionKey) ++ js ","),
    store.nodupKeys.sublist List.filter_sublist⟩

end GrantStore

/-- `grantable`. -/
def grantable (command action : JsStr) : Bool := !listed destructive command action

/-- `grantSessionKey`. -/
def grantSessionKey : Option JsValue → Option JsStr
  | some (.str sessionKey) => if trim sessionKey = [] then none else some (trim sessionKey)
  | _ => none

/-! ## The tables of the hook -/

/-- `APPROVAL_PARAM`. -/
def approvalParam : JsStr := js "_openclaw_approval"

def approvalTimeoutMs : Int := 600000

def dispatchGraceSeconds : Int := 120

def approvalTtlSeconds : Int := approvalTimeoutMs / 1000 + dispatchGraceSeconds

/-- `APPROVAL_GATED`. -/
def approvalGated : ActionTable :=
  [(js "ha.config.automation", [js "save", js "delete"]),
    (js "ha.config.script", [js "save", js "delete"]),
    (js "ha.config.scene", [js "save", js "delete"]),
    (js "ha.config.helpers", [js "create", js "update", js "delete"]),
    (js "ha.config.area_registry", [js "create", js "update", js "delete"]),
    (js "ha.config.device_registry", [js "update"]),
    (js "ha.config.entity_registry", [js "update", js "remove"]),
    (js "ha.config.config_entries", [js "disable", js "enable"]),
    (js "ha.config.lovelace", [js "save", js "resources_create"]),
    (js "fs.write", [js ""]), (js "fs.restore", [js ""]), (js "fs.move", [js ""]),
    (js "fs.delete", [js ""]), (js "fs.patch", [js ""]), (js "ha.reload_config", [js ""]),
    (js "ha.update_install", [js ""]), (js "ha.addon_start", [js ""]), (js "ha.addon_stop", [js ""]),
    (js "ha.addon_restart", [js ""]), (js "ha.addon_update", [js ""])]

/-- `ADMIN_TOOL_COMMANDS`. -/
def adminToolCommands : List (JsStr × JsStr) :=
  [(js "ha_reload_config", js "ha.reload_config"), (js "ha_update_install", js "ha.update_install"),
    (js "ha_addon_start", js "ha.addon_start"), (js "ha_addon_stop", js "ha.addon_stop"),
    (js "ha_addon_restart", js "ha.addon_restart"), (js "ha_addon_update", js "ha.addon_update")]

def adminTitles : List (JsStr × JsStr) :=
  [(js "ha.reload_config", js "Reload HA core config"), (js "ha.update_install", js "Install HA update"),
    (js "ha.addon_start", js "Start HA add-on"), (js "ha.addon_stop", js "Stop HA add-on"),
    (js "ha.addon_restart", js "Restart HA add-on"), (js "ha.addon_update", js "Update HA add-on")]

def nouns : List (JsStr × JsStr) :=
  [(js "ha.config.automation", js "HA automation"), (js "ha.config.script", js "HA script"),
    (js "ha.config.scene", js "HA scene"), (js "ha.config.helpers", js "HA helper"),
    (js "ha.config.area_registry", js "HA area"), (js "ha.config.device_registry", js "HA device"),
    (js "ha.config.entity_registry", js "HA entity"),
    (js "ha.config.config_entries", js "HA integration"), (js "ha.config.lovelace", js "HA dashboard"),
    (js "fs.write", js "file"), (js "fs.restore", js "file"), (js "fs.move", js "file"),
    (js "fs.delete", js "file"), (js "fs.patch", js "file")]

def fsVerbs : List (JsStr × JsStr) :=
  [(js "fs.write", js "Write"), (js "fs.restore", js "Restore"), (js "fs.move", js "Move"),
    (js "fs.delete", js "Delete"), (js "fs.patch", js "Patch")]

def targetKeys : List JsStr :=
  [js "slug", js "id", js "entity_id", js "device_id", js "area_id", js "entry_id", js "url_path",
    js "url", js "name", js "path", js "src", js "dst"]

/-! ## The text of a request -/

/-- The text of a string field, `none` for a field of another type. -/
def stringField (inner : JsObject) (key : JsStr) : Option JsStr :=
  match inner.lookup key with
  | some (.str s) => some s
  | _ => none

/-- `describeTarget`. -/
def describeTarget (inner : JsObject) (command : JsStr) : JsStr :=
  if command = js "ha.reload_config" then js "core configuration"
  else
    let keys := match stringField inner (js "helper_type") with
      | some helperType => targetKeys ++ [js "helper_type", helperType ++ js "_id"]
      | none => targetKeys
    let parts := keys.filterMap fun key => (stringField inner key).map fun text =>
      key ++ js "=" ++ quoteJSONString (text.take 80)
    let target := (js " ").intercalate parts
    let aliasText := match inner.lookup (js "config") with
      | some (.obj config) => (stringField config (js "alias")).elim [] fun text =>
          js " (alias " ++ quoteJSONString (text.take 80) ++ js ")"
      | _ => []
    (if target = [] then js "unknown target" else target) ++ aliasText

section
variable [JsRuntime]

/-- `titleOf`. -/
def titleOf (command action : JsStr) : JsStr :=
  match adminTitles.lookup command with
  | some title => title
  | none =>
    let verb := (fsVerbs.lookup command).getD
      (JsRuntime.upper (action.take 1) ++ (action.drop 1).map fun u => if u = 95 then 32 else u)
    verb ++ js " " ++ (nouns.lookup command).getD (js "undefined")

/-- Everything a session grant keys on. -/
structure GrantScope where
  sessionKey : JsStr
  command : JsStr
  action : JsStr

/-- `grantScope`. -/
def grantScope (sessionKey : Option JsValue) (command action : JsStr) : Option GrantScope :=
  match grantSessionKey sessionKey with
  | none => none
  | some key => if grantable command action then some ⟨key, command, action⟩ else none

/-- A `requireApproval`; `allow-always` is offered when there is a scope. -/
structure ApprovalRequest where
  title : JsStr
  description : JsStr
  scope : Option GrantScope

/-- `approvalRequest`. -/
def approvalRequest (title description : JsStr) (scope : Option GrantScope) : ApprovalRequest :=
  ⟨title, match scope with
    | none => description
    | some _ => description ++
        js " Allow always trusts this command and action in this session for 1 hour.", scope⟩

def ApprovalRequest.allowedDecisions (request : ApprovalRequest) : List JsStr :=
  match request.scope with
  | none => [js "allow-once", js "deny"]
  | some _ => [js "allow-once", js "allow-always", js "deny"]

/-- `onResolution`. -/
def ApprovalRequest.onResolution (request : ApprovalRequest) (decision : JsStr) (nowMs : Int)
    (store : GrantStore) : GrantStore :=
  match request.scope with
  | none => store
  | some scope =>
    if decision = js "allow-always" then
      store.grant scope.sessionKey scope.command scope.action nowMs
    else store

/-! ## The hook -/

/-- What `crypto.randomUUID()` and the two reads of the clock give to one call of the hook. -/
structure Draw where
  uuid : JsStr
  mintedAtMs : Int
  checkedAtMs : Int

/-- A number literal. -/
def jsInt [Runtime] (i : Int) : JsValue :=
  .num (Double.ofDecimal (i < 0) (natDigits i.natAbs) (natDigits i.natAbs).length)

/-- `newMarker`. -/
def newMarker [Runtime] (command action : JsStr) (params : JsObject) (draw : Draw) : JsValue :=
  .obj [(js "id", .str draw.uuid), (js "exp", jsInt (draw.mintedAtMs / 1000 + approvalTtlSeconds)),
    (js "bind", .str (encode (approvalBind command action params)))]

/-- What the hook returns. -/
inductive HookResult where
  /-- `undefined`: the params are handed on as they are. -/
  | untouched
  | block (blockReason : JsStr)
  /-- `invokeParamsJson` becomes the text of `inner`; with a request the rewrite counts only once that
  was approved. -/
  | params (inner : JsObject) (requireApproval : Option ApprovalRequest)
  /-- The arguments of an admin tool are replaced. -/
  | toolParams (args : JsObject) (requireApproval : Option ApprovalRequest)

/-- `normalized`. -/
def normalized : Option JsValue → JsStr
  | some (.str value) => JsRuntime.lower (trim value)
  | _ => []

/-- `hasUnsafeInteger`. -/
def hasUnsafeInteger (raw : JsStr) : Bool :=
  (JsRuntime.numbers raw).any fun n => isIntegerText n.1 && !isSafeInteger n.2
where
  /-- `/^-?\d+$/`. -/
  isIntegerText (s : JsStr) : Bool :=
    let digits := if s.head? = some 45 then s.tail else s
    digits ≠ [] && digits.all fun u => 48 ≤ u.val && u.val ≤ 57
  /-- `Number.isSafeInteger`. -/
  isSafeInteger : Double → Bool
    | .zero _ => true
    | .dec _ d => d.digits.length ≤ d.point &&
        ofDigitStr d.digits * 10 ^ (d.point - d.digits.length).toNat ≤ 2 ^ 53 - 1
    | _ => false

/-- `parseInnerParams`. -/
def parseInnerParams : Option JsValue → Option (JsStr × JsObject)
  | some (.str raw) =>
    match JsRuntime.parse raw with
    | some (.obj inner) => some (raw, inner)
    | _ => none
  | _ => none

/-- `const { [APPROVAL_PARAM]: _, [CALLER_PARAM]: _, ...clean } = inner`. -/
def cleaned (inner : JsObject) : JsObject :=
  inner.filter fun kv => kv.1 ≠ approvalParam ∧ kv.1 ≠ callerParam

/-- `{ ...clean, [CALLER_PARAM]: { sessionKey } }`. -/
def hinted (clean : JsObject) : Option JsStr → JsObject
  | none => clean
  | some sessionKey => clean ++ [(callerParam, .obj [(js "sessionKey", .str sessionKey)])]

/-- `typeof clean.action === "string" ? clean.action.trim() : ""`. -/
def actionOf (clean : JsObject) : JsStr :=
  match clean.lookup (js "action") with
  | some (.str action) => trim action
  | _ => []

def needsApproval (command action : JsStr) : Bool := listed approvalGated command action

/-- The description of a request. -/
def describeCall (clean : JsObject) (command action : JsStr) : JsStr :=
  titleOf command action ++ js ": " ++ describeTarget clean command ++ js " via " ++ command ++
    (if action = [] then [] else js " action=" ++ action) ++ js "."

/-- The gated part of `beforeToolCall`: `raw` is the text of the params. -/
def gatedCall [Runtime] (raw : JsStr) (clean : JsObject) (command action : JsStr) (draw : Draw)
    (sessionKey : Option JsValue) (store : GrantStore) : HookResult × GrantStore :=
  match gatedCallRefusal command action clean with
  | some refused => (.block refused, store)
  | none =>
    if hasUnsafeInteger raw then
      (.block (js "Call contains an integer beyond 2^53 that cannot be approved exactly; use a string."),
        store)
    else
      let assistKey := normalizeAssistSessionKey sessionKey
      if assistKey.isSome ∧ assistSkipsPrompt command action then
        (.params (hinted clean assistKey) none, store)
      else
        let approved :=
          hinted clean assistKey ++ [(approvalParam, newMarker command action clean draw)]
        let scope := grantScope sessionKey command action
        let request := approvalRequest (titleOf command action) (describeCall clean command action) scope
        match scope with
        | none => (.params approved (some request), store)
        | some s =>
          let held := store.has s.sessionKey s.command s.action draw.checkedAtMs
          (.params approved (if held.1 then none else some request), held.2)

/-- A call of the `nodes` tool. -/
def nodesCall [Runtime] (params : JsObject) (draw : Draw) (sessionKey : Option JsValue)
    (store : GrantStore) : HookResult × GrantStore :=
  if normalized (params.lookup (js "action")) ≠ js "invoke" then (.untouched, store)
  else
    match parseInnerParams (params.lookup (js "invokeParamsJson")) with
    | none => (.untouched, store)
    | some (raw, inner) =>
      let clean := cleaned inner
      let command := normalized (params.lookup (js "invokeCommand"))
      if needsApproval command (actionOf clean) then
        gatedCall raw clean command (actionOf clean) draw sessionKey store
      else if (inner.lookup approvalParam).isNone ∧ (inner.lookup callerParam).isNone then
        (.untouched, store)
      else (.params clean none, store)

/-! ## The admin tools -/

/-- `trimmed`. -/
def trimmed : Option JsValue → JsStr
  | some (.str value) => trim value
  | _ => []

/-- `adminCommandParams`. -/
def adminCommandParams (command : JsStr) (args : JsObject) : JsObject :=
  if command = js "ha.reload_config" then
    let domain := trimmed (args.lookup (js "domain"))
    if domain = [] then [] else [(js "domain", .str domain)]
  else if command = js "ha.update_install" then
    [(js "entity_id", .str (trimmed (args.lookup (js "entity_id"))))] ++
      (match args.lookup (js "backup") with
        | some (.bool backup) => [(js "backup", .bool backup)]
        | _ => []) ++
      match args.lookup (js "version") with
        | some (.str version) => if version = [] then [] else [(js "version", .str version)]
        | _ => []
  else [(js "slug", .str (trimmed (args.lookup (js "slug"))))]

/-- `beforeAdminToolCall`. -/
def beforeAdminToolCall [Runtime] (command : JsStr) (params : JsObject) (draw : Draw)
    (sessionKey : Option JsValue) (store : GrantStore) : HookResult × GrantStore :=
  let clean := params.filter fun kv => kv.1 ≠ approvalParam
  let commandParams := adminCommandParams command clean
  match if Js.startsWith command (js "ha.addon_") then addonSlugRefusal (commandParams.lookup (js "slug"))
    else none with
  | some refused => (.block refused, store)
  | none =>
    if (normalizeAssistSessionKey sessionKey).isSome ∧ assistSkipsPrompt command [] then
      (.toolParams clean none, store)
    else
      let approved := clean ++ [(approvalParam, newMarker command [] commandParams draw)]
      let scope := grantScope sessionKey command []
      let request := approvalRequest (titleOf command []) (titleOf command [] ++ js ": " ++
        describeTarget commandParams command ++ js " via " ++ command ++ js ".") scope
      match scope with
      | none => (.toolParams approved (some request), store)
      | some s =>
        let held := store.has s.sessionKey s.command s.action draw.checkedAtMs
        (.toolParams approved (if held.1 then none else some request), held.2)

/-- `beforeToolCall`. -/
def beforeToolCall [Runtime] (toolName : JsStr) (params : JsObject) (draw : Draw)
    (sessionKey : Option JsValue) (store : GrantStore) : HookResult × GrantStore :=
  match adminToolCommands.lookup toolName with
  | some command => beforeAdminToolCall command params draw sessionKey store
  | none =>
    if toolName = js "nodes" then nodesCall params draw sessionKey store else (.untouched, store)

end

end HassNode.NodeApproval
