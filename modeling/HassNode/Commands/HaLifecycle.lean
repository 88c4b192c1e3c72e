import HassNode.Commands.Params

/-!
# The approval-gated handlers of `commands/ha.py`

`ha.reload_config`, `ha.update_install` and the add-on lifecycle commands.
-/

namespace HassNode.HaLifecycle

open Py Interaction ConfigMutation HaClient Commands

/-- A request whose time-out has its own answer. -/
def requestOrTimeout (r : Request) (onTimeout : Json) (k : Json → Program) : Program :=
  .call (.request r) fun
    | .ok value => k value
    | .error .timeoutError => respond onTimeout
    | .error (.haClientError code message) => respond (toError code message)
    | .error exc => .ret (.error exc)

theorem asks_requestOrTimeout {Q : Op → Prop} {r : Request} {onTimeout : Json}
    {k : Json → Program} (hr : Q (.request r)) (hk : ∀ value, Prog.Asks Q (k value)) :
    Prog.Asks Q (requestOrTimeout r onTimeout k) := by
  unfold requestOrTimeout
  constructor
  · exact hr
  · intro ans
    cases ans with
    | ok value => exact hk value
    | error exc =>
      cases exc with
      | timeoutError => trivial
      | haClientError code message => trivial
      | other name => trivial

/-! ## `ha.reload_config` -/

def reloadConfigKeys : List PyStr := [py "domain", approvalParam]

section
variable [Runtime]

/-- Only the core reload is implemented; `null` and blank mean the same as leaving it out. -/
def reloadDomainError (params : Dict) : Option Json :=
  match params.get? (py "domain") with
  | none | some .null => none
  | some (.str raw) =>
    let requested := strip raw
    if requested ≠ [] ∧ requested ≠ py "core" then
      some (error "UNSUPPORTED" (py "ha.reload_config only reloads core config; domain=" ++
        Py.reprStr requested ++ py " is not implemented. Supply domain='core' or omit it."))
    else none
  | some _ => some (error "INVALID_PARAM" (py "domain must be a string when supplied"))

def reloadCoreConfig : Program :=
  request (.post (py "/api/services/homeassistant/reload_core_config") none) fun _ =>
  respond (obj [("ok", .bool true), ("domain", .str (py "core"))])

def handleHaReloadConfig : Handler := fun params =>
  match strictKeysError params reloadConfigKeys [] with
  | some invalid => respond invalid
  | none =>
    match reloadDomainError params with
    | some invalid => respond invalid
    | none => gate (py "ha.reload_config") [] params fun _ => reloadCoreConfig

/-! ## `ha.update_install` -/

def updateInstallKeys : List PyStr := [py "entity_id", py "backup", py "version", approvalParam]

/-- The service data, put together before the gate. -/
def updateInstallData (params : Dict) : Except Json (PyStr × Dict) :=
  let entityId := strip (strOf (params.getD (py "entity_id") (.str [])))
  if entityId = [] then .error (error "MISSING_PARAM" (py "entity_id is required"))
  else if ¬ startsWith entityId (py "update.") then
    .error (error "INVALID_PARAM"
      (py "entity_id must be in the update.* domain, got: " ++ Py.reprStr entityId))
  else
    let versioned (data : Dict) : PyStr × Dict :=
      match params.get? (py "version") with
      | none | some .null => (entityId, data)
      | some version => (entityId, data ++ [(py "version", .str (strOf version))])
    let data : Dict := [(py "entity_id", .str entityId)]
    match params.get? (py "backup") with
    | none | some .null => .ok (versioned data)
    | some (.bool backup) => .ok (versioned (data ++ [(py "backup", .bool backup)]))
    | some _ => .error (error "INVALID_PARAM" (py "backup must be a boolean"))

def installUpdate (entityId : PyStr) (data : Dict) : Program :=
  requestOrTimeout (.post (py "/api/services/update/install") (some data))
    (error "OUTCOME_UNKNOWN" (py "ha.update_install timed out waiting for Home Assistant; " ++
      py "the update may still be running. Check the update entity's state (in_progress, " ++
      py "installed_version) with a read-only command. Do not retry.")) fun result =>
  let changed := match result with
    | .list items => items
    | _ => []
  respond (obj [("ok", .bool true), ("entity_id", .str entityId), ("changed_states", .list changed)])

def handleHaUpdateInstall : Handler := fun params =>
  match strictKeysError params updateInstallKeys [] with
  | some invalid => respond invalid
  | none =>
    orReturn (updateInstallData params) fun (entityId, data) =>
    gate (py "ha.update_install") [] params fun _ => installUpdate entityId data

/-! ## The add-on lifecycle -/

def lifecycleKeys : List PyStr := [py "slug", approvalParam]

/-- `_ADDON_SLUG_RE`, `^[a-z0-9][a-z0-9_-]*$`. -/
def validAddonSlug (slug : PyStr) : Bool :=
  slug.length ≤ 128 && matchesClass (fun c => isSlugChar c || c = 45) slug &&
    slug.head?.any fun c => c ≠ 95 && c ≠ 45

def defaultLifecycleDenylist : List PyStr := [py "homeassistant", py "supervisor"]

/-- `_addon_lifecycle_policy_error`; `denylist` is what the environment variable adds, folded.
A valid slug is lower-case ASCII, so it is its own case folding. -/
def lifecyclePolicyError (denylist : List PyStr) (slug : PyStr) : Option Json :=
  if startsWith slug (py "core_") then
    some (error "PERMISSION_DENIED" (py "addon lifecycle denied for core slug: " ++ slug))
  else if slug ∈ defaultLifecycleDenylist ++ denylist then
    some (error "PERMISSION_DENIED" (py "addon lifecycle denied for slug: " ++ slug))
  else none

/-- The checks on the slug, which come before the check of the keys. -/
def lifecycleSlug (denylist : List PyStr) (params : Dict) : Except Json PyStr :=
  let slug := strip (strOf (params.getD (py "slug") (.str [])))
  if slug = [] then .error (error "MISSING_PARAM" (py "slug is required"))
  else if ¬ validAddonSlug slug then
    .error (error "INVALID_PARAM" (py "invalid addon slug: " ++ Py.reprStr slug))
  else
    match lifecyclePolicyError denylist slug with
    | some denied => .error denied
    | none => .ok slug

/-- `_addon_state`, read from the reply. -/
def addonState : Json → PyStr
  | .dict raw =>
    match Dict.get? raw (py "data") with
    | some (.dict data) =>
      match Dict.get? data (py "state") with
      | some (.str state) => state
      | _ => []
    | _ => []
  | _ => []

def addonPath (slug rest : PyStr) : PyStr := py "/addons/" ++ slug ++ py "/" ++ rest

def lifecycleReply (slug state : PyStr) (changed : Bool) : Json :=
  obj [("ok", .bool true), ("slug", .str slug), ("state", .str state), ("changed", .bool changed)]

/-- What `_handle_addon_lifecycle` does once it is approved. -/
def runLifecycle (command action : PyStr) (desired : Option PyStr) (slug : PyStr) : Program :=
  let unknownOutcome := error "OUTCOME_UNKNOWN" (command ++
    py " timed out waiting for Supervisor; the action may or may not have happened. " ++
    py "Do not retry automatically. ha.addon_info reports a current snapshot, not action " ++
    py "history: after a restart it cannot distinguish completed from not, and after an " ++
    py "update only a changed version shows it completed.")
  request (.supervisorGet (addonPath slug (py "info"))) fun raw =>
  let before := addonState raw
  if desired = some before then respond (lifecycleReply slug before false)
  else
    requestOrTimeout (.supervisorPost (addonPath slug action)) unknownOutcome fun _ =>
    requestOrTimeout (.supervisorGet (addonPath slug (py "info"))) unknownOutcome fun raw =>
    respond (lifecycleReply slug (addonState raw) true)

def handleAddonLifecycle (command action : PyStr) (desired : Option PyStr)
    (denylist : List PyStr) : Handler := fun params =>
  orReturn (lifecycleSlug denylist params) fun slug =>
  match strictKeysError params lifecycleKeys [] with
  | some invalid => respond invalid
  | none => gate command [] params fun _ => runLifecycle command action desired slug

def handleHaAddonStart : List PyStr → Handler :=
  handleAddonLifecycle (py "ha.addon_start") (py "start") (some (py "started"))

def handleHaAddonStop : List PyStr → Handler :=
  handleAddonLifecycle (py "ha.addon_stop") (py "stop") (some (py "stopped"))

def handleHaAddonRestart : List PyStr → Handler :=
  handleAddonLifecycle (py "ha.addon_restart") (py "restart") none

def handleHaAddonUpdate : List PyStr → Handler :=
  handleAddonLifecycle (py "ha.addon_update") (py "update") none

end

end HassNode.HaLifecycle
