import HassNode.Commands.Filters

/-!
# The `ha.config.*` handlers

One handler for each module `commands/ha_config_*.py`.  The automation, script and scene modules
differ in one word only and are one definition.  What a handler does after the approval gate is a
function of its own, so that it can be read off what the marker bound.
-/

namespace HassNode.HaConfig

open Py Interaction ConfigMutation HaClient Commands

/-- `_ACTION_KEYS[action]`. -/
def keysIn (table : List (PyStr × List PyStr)) (action : PyStr) : List PyStr :=
  (table.lookup action).getD []

/-- `ha_ws_call(msg_type, payload)`. -/
def wsCall (msgType : PyStr) (payload : Dict) (k : Json → Program) : Program :=
  request (.ws (wsFrame msgType payload)) k

/-- A list frame with no payload, whose result `shape` turns into the response. -/
def listFrame (msgType : PyStr) (shape : List Json → Json) : Program :=
  wsCall msgType [] fun
    | .list items => respond (shape items)
    | _ => respond (error "HA_BAD_RESPONSE" (py "Expected list from " ++ msgType))

def counted (field : String) (items : List Json) : Json :=
  obj [("ok", .bool true), ("count", .int items.length), (field, .list items)]

/-! ## `ha.config.automation`, `ha.config.script`, `ha.config.scene` -/

def restActions : List PyStr := [py "get", py "save", py "delete"]

def restActionKeys : List (PyStr × List PyStr) :=
  [(py "get", [py "action", py "id"]),
   (py "save", [py "action", py "id", py "config", py "proposal_id", py "_openclaw_approval"]),
   (py "delete", [py "action", py "id", py "proposal_id", py "_openclaw_approval"])]

/-- `_require_id`: a Home Assistant slug. -/
def requireId (params : Dict) : Except Json PyStr :=
  match requireText (py "id") params with
  | .error response => .error response
  | .ok trimmed =>
    if matchesClass isSlugChar trimmed then .ok trimmed
    else .error (error "INVALID_PARAM"
      (py "id must be an HA slug (lowercase letters, digits, underscores)"))

def configPath (kind id : PyStr) : PyStr := py "/api/config/" ++ kind ++ py "/config/" ++ id

def getConfig (kind : PyStr) (params : Dict) : Program :=
  orReturn (requireId params) fun id =>
  request (.get (configPath kind id)) fun
    | .dict config =>
      respond (obj [("ok", .bool true), ("id", .str id), ("config", .dict config)])
    | _ =>
      respond (error "HA_BAD_RESPONSE"
        (py "Expected dict from /api/config/" ++ kind ++ py "/config/<id>"))

def saveConfig (kind : PyStr) (params : Dict) : Program :=
  orReturn (requireId params) fun id =>
  orReturn (requireDict (py "config") params) fun config =>
  request (.post (configPath kind id) (some config)) fun _ =>
  respond (obj [("ok", .bool true), ("id", .str id)])

def deleteConfig (kind : PyStr) (params : Dict) : Program :=
  orReturn (requireId params) fun id =>
  request (.delete (configPath kind id)) fun _ =>
  respond (obj [("ok", .bool true), ("id", .str id)])

section
variable [Runtime]

def handleRest (command kind : PyStr) : Handler := fun params =>
  withAction restActions (keysIn restActionKeys) [] params fun action =>
    if action = py "get" then getConfig kind params
    else if action = py "save" then gate command (py "save") params (saveConfig kind)
    else gate command (py "delete") params (deleteConfig kind)

def handleHaConfigAutomation : Handler := handleRest (py "ha.config.automation") (py "automation")

def handleHaConfigScript : Handler := handleRest (py "ha.config.script") (py "script")

def handleHaConfigScene : Handler := handleRest (py "ha.config.scene") (py "scene")

end

/-! ## `ha.config.helpers` -/

namespace Helpers

def actions : List PyStr := [py "list", py "create", py "update", py "delete"]

def helperTypes : List PyStr :=
  [py "input_boolean", py "input_text", py "input_number", py "input_select",
   py "input_datetime", py "counter", py "timer", py "schedule"]

def actionKeys : List (PyStr × List PyStr) :=
  [(py "list", [py "action", py "helper_type"]),
   (py "create",
     [py "action", py "helper_type", py "attrs", py "proposal_id", py "_openclaw_approval"]),
   (py "update",
     [py "action", py "helper_type", py "attrs", py "proposal_id", py "_openclaw_approval"]),
   (py "delete", [py "action", py "helper_type", py "proposal_id", py "_openclaw_approval"])]

def itemKey (helperType : PyStr) : PyStr := helperType ++ py "_id"

/-- Update and delete also take the item key, which is named after the helper type. -/
def allowedKeys (params : Dict) (action : PyStr) : List PyStr :=
  let allowed := keysIn actionKeys action
  match params.get? (py "helper_type") with
  | some (.str helperType) =>
    if action ∈ [py "update", py "delete"] then allowed.insert (itemKey (strip helperType))
    else allowed
  | _ => allowed

section
variable [Runtime]

def requireHelperType (params : Dict) : Except Json PyStr :=
  match requireText (py "helper_type") params with
  | .error response => .error response
  | .ok ht =>
    if ht ∈ helperTypes then .ok ht
    else .error (error "INVALID_PARAM" (py "helper_type must be one of " ++
      Py.repr (.list ((sortedStr helperTypes).map .str)) ++ py ", got " ++ Py.reprStr ht))

def list (params : Dict) : Program :=
  orReturn (requireHelperType params) fun ht =>
  listFrame (ht ++ py "/list") fun helpers =>
    obj [("ok", .bool true), ("helper_type", .str ht), ("count", .int helpers.length),
      ("helpers", .list helpers)]

def create (params : Dict) : Program :=
  orReturn (requireHelperType params) fun ht =>
  orReturn (requireDict (py "attrs") params) fun attrs =>
  wsCall (ht ++ py "/create") attrs fun helper =>
  respond (obj [("ok", .bool true), ("helper_type", .str ht), ("helper", helper)])

def update (params : Dict) : Program :=
  orReturn (requireHelperType params) fun ht =>
  orReturn (requireText (itemKey ht) params) fun itemId =>
  orReturn (requireDict (py "attrs") params) fun attrs =>
  -- the frame would otherwise name another helper than the one logged and returned
  if attrs.has (itemKey ht) then
    respond (error "INVALID_PARAM" (py "attrs must not contain " ++ Py.reprStr (itemKey ht) ++
      py "; pass it as the top-level param"))
  else
    wsCall (ht ++ py "/update") (attrs.set (itemKey ht) (.str itemId)) fun helper =>
    respond (.dict [(py "ok", .bool true), (py "helper_type", .str ht), (itemKey ht, .str itemId),
      (py "helper", helper)])

def delete (params : Dict) : Program :=
  orReturn (requireHelperType params) fun ht =>
  orReturn (requireText (itemKey ht) params) fun itemId =>
  wsCall (ht ++ py "/delete") [(itemKey ht, .str itemId)] fun _ =>
  respond (.dict [(py "ok", .bool true), (py "helper_type", .str ht), (itemKey ht, .str itemId)])

end

end Helpers

def handleHaConfigHelpers [Runtime] : Handler := fun params =>
  withAction Helpers.actions (Helpers.allowedKeys params) [] params fun action =>
    if action = py "list" then Helpers.list params
    else if action = py "create" then
      gate (py "ha.config.helpers") (py "create") params Helpers.create
    else if action = py "update" then
      gate (py "ha.config.helpers") (py "update") params Helpers.update
    else gate (py "ha.config.helpers") (py "delete") params Helpers.delete

/-! ## `ha.config.area_registry` -/

namespace AreaRegistry

def actions : List PyStr := [py "list", py "create", py "update", py "delete"]

def actionKeys : List (PyStr × List PyStr) :=
  [(py "list", [py "action"]),
   (py "create", [py "action", py "name", py "attrs", py "proposal_id", py "_openclaw_approval"]),
   (py "update", [py "action", py "area_id", py "attrs", py "proposal_id", py "_openclaw_approval"]),
   (py "delete", [py "action", py "area_id", py "proposal_id", py "_openclaw_approval"])]

def create (params : Dict) : Program :=
  orReturn (requireText (py "name") params) fun name =>
  let named : Dict := [(py "name", .str name)]
  let payload := match params.get? (py "attrs") with
    | some (.dict attrs) => named.update attrs
    | _ => named
  wsCall (py "config/area_registry/create") payload fun area =>
  respond (obj [("ok", .bool true), ("area", area)])

def update (params : Dict) : Program :=
  orReturn (requireText (py "area_id") params) fun areaId =>
  orReturn (requireDict (py "attrs") params) fun attrs =>
  wsCall (py "config/area_registry/update")
    (Dict.update [(py "area_id", .str areaId)] attrs) fun area =>
  respond (obj [("ok", .bool true), ("area_id", .str areaId), ("area", area)])

def delete (params : Dict) : Program :=
  orReturn (requireText (py "area_id") params) fun areaId =>
  wsCall (py "config/area_registry/delete") [(py "area_id", .str areaId)] fun _ =>
  respond (obj [("ok", .bool true), ("area_id", .str areaId)])

/-- What follows the gate. -/
def approved (action : PyStr) (params : Dict) : Program :=
  if action = py "create" then create params
  else if action = py "update" then update params
  else delete params

end AreaRegistry

def handleHaConfigAreaRegistry [Runtime] : Handler := fun params =>
  withAction AreaRegistry.actions (keysIn AreaRegistry.actionKeys) [] params fun action =>
    if action = py "list" then listFrame (py "config/area_registry/list") (counted "areas")
    else gate (py "ha.config.area_registry") action params (AreaRegistry.approved action)

/-! ## `ha.config.device_registry` -/

namespace DeviceRegistry

def actions : List PyStr := [py "list", py "update"]

def actionKeys : List (PyStr × List PyStr) :=
  [(py "list", py "action" :: deviceRegistryFilters),
   (py "update",
     [py "action", py "device_id", py "attrs", py "proposal_id", py "_openclaw_approval"])]

def list (params : Dict) : Program :=
  match filterParamError params deviceRegistryFilters [py "action"] with
  | some invalid => respond invalid
  | none =>
    listFrame (py "config/device_registry/list") fun devices =>
      counted "devices" (filterDeviceRegistry devices params)

/-- The device id has one text for both its failures. -/
def requireDeviceId (params : Dict) : Except Json PyStr :=
  let missing : Except Json PyStr :=
    .error (error "MISSING_PARAM" (py "device_id must be a non-empty string"))
  match params.get? (py "device_id") with
  | some (.str raw) => if strip raw = [] then missing else .ok (strip raw)
  | _ => missing

def update (params : Dict) : Program :=
  orReturn (requireDeviceId params) fun deviceId =>
  orReturn (requireDict (py "attrs") params) fun attrs =>
  wsCall (py "config/device_registry/update")
    (Dict.update [(py "device_id", .str deviceId)] attrs) fun device =>
  respond (obj [("ok", .bool true), ("device_id", .str deviceId), ("device", device)])

end DeviceRegistry

def handleHaConfigDeviceRegistry [Runtime] : Handler := fun params =>
  withAction DeviceRegistry.actions (keysIn DeviceRegistry.actionKeys) [] params fun action =>
    if action = py "list" then DeviceRegistry.list params
    else gate (py "ha.config.device_registry") action params DeviceRegistry.update

/-! ## `ha.config.entity_registry` -/

namespace EntityRegistry

def actions : List PyStr := [py "list", py "get", py "update", py "remove"]

def actionKeys : List (PyStr × List PyStr) :=
  [(py "list", py "action" :: entityRegistryFilters),
   (py "get", [py "action", py "entity_id"]),
   (py "update",
     [py "action", py "entity_id", py "attrs", py "proposal_id", py "_openclaw_approval"]),
   (py "remove", [py "action", py "entity_id", py "proposal_id", py "_openclaw_approval"])]

def list (params : Dict) : Program :=
  match filterParamError params entityRegistryFilters [py "action"] with
  | some invalid => respond invalid
  | none =>
    listFrame (py "config/entity_registry/list") fun entities =>
      counted "entities" (filterEntityRegistry entities params)

def get (params : Dict) : Program :=
  orReturn (requireText (py "entity_id") params) fun entityId =>
  wsCall (py "config/entity_registry/get") [(py "entity_id", .str entityId)] fun
    | .dict entity =>
      respond (obj [("ok", .bool true), ("entity_id", .str entityId), ("entity", .dict entity)])
    | _ =>
      respond (error "HA_BAD_RESPONSE" (py "Expected dict from config/entity_registry/get"))

def update (params : Dict) : Program :=
  orReturn (requireText (py "entity_id") params) fun entityId =>
  orReturn (requireDict (py "attrs") params) fun attrs =>
  wsCall (py "config/entity_registry/update")
    (Dict.update [(py "entity_id", .str entityId)] attrs) fun entity =>
  respond (obj [("ok", .bool true), ("entity_id", .str entityId), ("entity", entity)])

def remove (params : Dict) : Program :=
  orReturn (requireText (py "entity_id") params) fun entityId =>
  wsCall (py "config/entity_registry/remove") [(py "entity_id", .str entityId)] fun _ =>
  respond (obj [("ok", .bool true), ("entity_id", .str entityId)])

end EntityRegistry

def handleHaConfigEntityRegistry [Runtime] : Handler := fun params =>
  withAction EntityRegistry.actions (keysIn EntityRegistry.actionKeys) [] params fun action =>
    if action = py "list" then EntityRegistry.list params
    else if action ∈ [py "update", py "remove"] then
      gate (py "ha.config.entity_registry") action params fun params =>
        if action = py "update" then EntityRegistry.update params else EntityRegistry.remove params
    else EntityRegistry.get params

/-! ## `ha.config.config_entries` -/

namespace ConfigEntries

def actions : List PyStr := [py "get", py "disable", py "enable"]

def actionKeys : List (PyStr × List PyStr) :=
  [(py "get", [py "action", py "entry_id"]),
   (py "disable", [py "action", py "entry_id", py "proposal_id", py "_openclaw_approval"]),
   (py "enable", [py "action", py "entry_id", py "proposal_id", py "_openclaw_approval"])]

def getEntry (params : Dict) : Program :=
  orReturn (requireText (py "entry_id") params) fun entryId =>
  wsCall (py "config_entries/get_single") [(py "entry_id", .str entryId)] fun
    | .dict entry =>
      respond (obj [("ok", .bool true), ("entry_id", .str entryId), ("entry", .dict entry)])
    | _ => respond (error "HA_BAD_RESPONSE" (py "Expected dict from config_entries/get_single"))

/-- Enabling is the disable frame with a null `disabled_by`. -/
def setDisabled (action : PyStr) (params : Dict) : Program :=
  orReturn (requireText (py "entry_id") params) fun entryId =>
  let disabledBy : Json := if action = py "disable" then .str (py "user") else .null
  wsCall (py "config_entries/disable")
    [(py "entry_id", .str entryId), (py "disabled_by", disabledBy)] fun result =>
  respond (obj [("ok", .bool true), ("entry_id", .str entryId), ("result", result)])

end ConfigEntries

def handleHaConfigConfigEntries [Runtime] : Handler := fun params =>
  withAction ConfigEntries.actions (keysIn ConfigEntries.actionKeys) [] params fun action =>
    if action ∈ [py "disable", py "enable"] then
      gate (py "ha.config.config_entries") action params (ConfigEntries.setDisabled action)
    else ConfigEntries.getEntry params

/-! ## `ha.config.lovelace` -/

namespace Lovelace

def resourceTypes : List PyStr := [py "module", py "css", py "js", py "html"]

def actions : List PyStr :=
  [py "get", py "save", py "dashboards_list", py "resources_list", py "resources_create"]

def actionKeys : List (PyStr × List PyStr) :=
  [(py "get", [py "action", py "url_path"]),
   (py "save",
     [py "action", py "url_path", py "config", py "proposal_id", py "_openclaw_approval"]),
   (py "dashboards_list", [py "action"]),
   (py "resources_list", [py "action"]),
   (py "resources_create",
     [py "action", py "url", py "res_type", py "proposal_id", py "_openclaw_approval"])]

def optionalUrlPath (params : Dict) : Except Json (Option PyStr) :=
  match params.get? (py "url_path") with
  | none | some .null => .ok none
  | some (.str raw) => .ok (if strip raw = [] then none else some (strip raw))
  | some _ => .error (error "INVALID_PARAM" (py "url_path must be a string"))

def urlPathJson : Option PyStr → Json
  | none => .null
  | some urlPath => .str urlPath

def urlPathEntry : Option PyStr → Dict
  | none => []
  | some urlPath => [(py "url_path", .str urlPath)]

def get (params : Dict) : Program :=
  orReturn (optionalUrlPath params) fun urlPath =>
  wsCall (py "lovelace/config") (urlPathEntry urlPath) fun
    | .dict config =>
      respond (obj [("ok", .bool true), ("url_path", urlPathJson urlPath), ("config", .dict config)])
    | _ => respond (error "HA_BAD_RESPONSE" (py "Expected dict from lovelace/config"))

def save (params : Dict) : Program :=
  orReturn (requireDict (py "config") params) fun config =>
  orReturn (optionalUrlPath params) fun urlPath =>
  wsCall (py "lovelace/config/save") ((py "config", .dict config) :: urlPathEntry urlPath) fun _ =>
  respond (obj [("ok", .bool true), ("url_path", urlPathJson urlPath)])

/-- A text of the resource form: present and not blank. -/
def requireField (name : PyStr) (params : Dict) : Except Json PyStr :=
  let missing : Except Json PyStr := .error (error "MISSING_PARAM" (name ++ py " is required"))
  match params.get? name with
  | some (.str raw) => if strip raw = [] then missing else .ok raw
  | _ => missing

def createResource [Runtime] (params : Dict) : Program :=
  orReturn (requireField (py "url") params) fun url =>
  orReturn (requireField (py "res_type") params) fun resType =>
  if resType ∉ resourceTypes then
    respond (error "INVALID_PARAM" (py "res_type must be one of " ++
      Py.repr (.list ((sortedStr resourceTypes).map .str)) ++ py ", got " ++ Py.reprStr resType))
  else
    wsCall (py "lovelace/resources/create")
      [(py "url", .str (strip url)), (py "res_type", .str resType)] fun resource =>
    respond (obj [("ok", .bool true), ("resource", resource)])

end Lovelace

def handleHaConfigLovelace [Runtime] : Handler := fun params =>
  withAction Lovelace.actions (keysIn Lovelace.actionKeys) [py "url_path"] params fun action =>
    if action = py "get" then Lovelace.get params
    else if action = py "save" then gate (py "ha.config.lovelace") (py "save") params Lovelace.save
    else if action = py "dashboards_list" then
      listFrame (py "lovelace/dashboards/list") (counted "dashboards")
    else if action = py "resources_list" then
      listFrame (py "lovelace/resources") (counted "resources")
    else
      gate (py "ha.config.lovelace") (py "resources_create") params Lovelace.createResource

end HassNode.HaConfig
