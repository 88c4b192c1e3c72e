import HassNode.Commands.HaConfig
import HassNode.Commands.HaLifecycle
import HassNode.Commands.HaServices

/-!
# The read-only handlers of `commands/ha.py`
-/

namespace HassNode.HaReads

open Py Interaction HaClient Commands HaConfig HaLifecycle HaServices

/-- A step that raises ends the handler with the exception. -/
def orRaise {α : Type} (checked : Except Exc α) (k : α → Program) : Program :=
  match checked with
  | .error exc => .ret (.error exc)
  | .ok value => k value

def attributeError : Exc := .other (py "AttributeError")

def withKeys (allowed : List PyStr) (params : Dict) (k : Program) : Program :=
  match strictKeysError params allowed [] with
  | some invalid => respond invalid
  | none => k

def withFilters (names extra : List PyStr) (params : Dict) (k : Program) : Program :=
  match filterParamError params names extra with
  | some invalid => respond invalid
  | none => k

/-- A request whose result must be a list. -/
def readList (r : Request) (what : String) (shape : List Json → Json) : Program :=
  request r fun
    | .list items => respond (shape items)
    | _ => respond (error "HA_BAD_RESPONSE" (py "Expected list from " ++ py what))

/-- A request whose result must be a dict. -/
def readDict (r : Request) (what : String) (shape : Dict → Json) : Program :=
  request r fun
    | .dict entries => respond (shape entries)
    | _ => respond (error "HA_BAD_RESPONSE" (py "Expected dict from " ++ py what))

section
variable {Q : Op → Prop}

theorem asks_orRaise {α : Type} {checked : Except Exc α} {k : α → Program}
    (hk : ∀ value, Prog.Asks Q (k value)) : Prog.Asks Q (orRaise checked k) := by
  cases checked with
  | error exc => trivial
  | ok value => exact hk value

theorem asks_withKeys {allowed : List PyStr} {params : Dict} {k : Program} (hk : Prog.Asks Q k) :
    Prog.Asks Q (withKeys allowed params k) := by
  unfold withKeys
  split
  · exact asks_respond _
  · exact hk

theorem asks_withFilters {names extra : List PyStr} {params : Dict} {k : Program}
    (hk : Prog.Asks Q k) : Prog.Asks Q (withFilters names extra params k) := by
  unfold withFilters
  split
  · exact asks_respond _
  · exact hk

theorem asks_readList {r : Request} {what : String} {shape : List Json → Json}
    (hr : Q (.request r)) : Prog.Asks Q (readList r what shape) := by
  apply asks_request hr
  intro value
  cases value <;> exact asks_respond _

theorem asks_readDict {r : Request} {what : String} {shape : Dict → Json}
    (hr : Q (.request r)) : Prog.Asks Q (readDict r what shape) := by
  apply asks_request hr
  intro value
  cases value <;> exact asks_respond _

end

/-- `_filter_by_domain`. -/
def filterByDomain (records : List Json) (params : Dict) : List Json :=
  let domain := filterValue (params.get? (py "domain"))
  if domain = [] then records
  else
    records.filter fun
      | .dict record => Dict.get? record (py "domain") = some (.str domain)
      | _ => false

/-! ## States and registries -/

/-- The entity ids of a list of states; anything but a dict raises. -/
def narrowStates (accepts : PyStr → Bool) (states : List Json) : Except Exc (List Json) :=
  if states.all fun | .dict _ => true | _ => false then
    .ok (states.filter fun
      | .dict state =>
        match Dict.get? state (py "entity_id") with
        | some (.str id) => accepts id
        | _ => false
      | _ => false)
  else .error attributeError

section
variable [Runtime]

/-- `str(params.get(key, ""))`. -/
def givenText (params : Dict) (key : String) : PyStr := strOf (params.getD (py key) (.str []))

def listStatesFilters : List PyStr := [py "domain", py "entity_filter"]

def handleHaListStates : Handler := fun params =>
  withFilters listStatesFilters [] params <|
  request (.get (py "/api/states")) fun
    | .list raw =>
      let domain := givenText params "domain"
      let pattern := givenText params "entity_filter"
      let inDomain := if domain = [] then .ok raw
        else narrowStates (fun id => startsWith id (domain ++ py ".")) raw
      orRaise inDomain fun states =>
      let matching := if pattern = [] then .ok states
        else narrowStates (fun id => fnmatchcase id pattern) states
      orRaise matching fun states => respond (counted "states" states)
    | _ => respond (error "HA_BAD_RESPONSE" (py "Expected list from /api/states"))

def handleHaGetState : Handler := fun params =>
  withKeys [py "entity_id"] params <|
  let entityId := givenText params "entity_id"
  if entityId = [] then respond (error "MISSING_PARAM" (py "entity_id is required"))
  else
    orRaise (encodePathSegment entityId) fun
      | none => respond (error "INVALID_PARAM"
          (py "entity_id must not be a bare '.' or '..' path segment"))
      | some encoded =>
        readDict (.get (py "/api/states/" ++ encoded)) "/api/states/<entity_id>" fun state =>
          obj [("ok", .bool true), ("state", .dict state)]

def handleHaListAreas : Handler := fun params =>
  withKeys [] params <|
  readList (.ws (wsFrame (py "config/area_registry/list") [])) "area_registry/list"
    (counted "areas")

def handleHaListDevices : Handler := fun params =>
  withFilters deviceRegistryFilters [] params <|
  readList (.ws (wsFrame (py "config/device_registry/list") [])) "device_registry/list"
    fun devices => counted "devices" (filterDeviceRegistry devices params)

def handleHaListEntityRegistry : Handler := fun params =>
  withFilters entityRegistryFilters [] params <|
  readList (.ws (wsFrame (py "config/entity_registry/list") [])) "entity_registry/list"
    fun entities => counted "entities" (filterEntityRegistry entities params)

def handleHaListServices : Handler := fun params =>
  withFilters [py "domain"] [] params <|
  readList (.get (py "/api/services")) "/api/services" fun services =>
    counted "services" (filterByDomain services params)

def handleHaListConfigEntries : Handler := fun params =>
  withFilters [py "domain"] [] params <|
  readList (.get (py "/api/config/config_entries/entry")) "/api/config/config_entries/entry"
    fun entries => counted "entries" (filterByDomain entries params)

def handleHaGetConfig : Handler := fun params =>
  withKeys [] params <|
  readDict (.get (py "/api/config")) "/api/config" fun config =>
    obj [("ok", .bool true), ("config", .dict config)]

def handleHaListEvents : Handler := fun params =>
  withKeys [] params <|
  readList (.get (py "/api/events")) "/api/events" (counted "events")

/-! ## Logbook and history -/

/-- The path with the caller's start time as one segment. -/
def periodPath (base : String) (params : Dict) (k : PyStr → Program) : Program :=
  let startTime := givenText params "start_time"
  if startTime = [] then k (py base)
  else
    orRaise (encodePathSegment startTime) fun
      | none => respond (error "INVALID_PARAM"
          (py "start_time must not be a bare '.' or '..' path segment"))
      | some encoded => k (py base ++ py "/" ++ encoded)

theorem asks_periodPath {Q : Op → Prop} {base : String} {params : Dict} {k : PyStr → Program}
    (hk : ∀ path, Prog.Asks Q (k path)) : Prog.Asks Q (periodPath base params k) := by
  apply asks_ite (hk _)
  apply asks_orRaise
  intro encoded
  cases encoded with
  | none => exact asks_respond _
  | some encoded => exact hk _

/-- `name=value` for a text that is given. -/
def queryPart (name : String) (value : PyStr) : Except Exc (List PyStr) :=
  if value = [] then .ok []
  else
    match encodeQueryValue value with
    | .error exc => .error exc
    | .ok encoded => .ok [py name ++ py "=" ++ encoded]

def withQuery (path : PyStr) (parts : List PyStr) : PyStr :=
  if parts = [] then path else path ++ py "?" ++ joinWith (py "&") parts

def logbookParams : List PyStr := [py "start_time", py "end_time", py "entity_id"]

def handleHaLogbook : Handler := fun params =>
  withFilters logbookParams [] params <|
  periodPath "/api/logbook" params fun path =>
  orRaise (queryPart "end_time" (givenText params "end_time")) fun endPart =>
  orRaise (queryPart "entity" (givenText params "entity_id")) fun entityPart =>
  readList (.get (withQuery path (endPart ++ entityPart))) "/api/logbook" (counted "entries")

/-- The reads of `_missing_entity_ids`; only the answer 404 counts as missing. -/
def probeMissing : List (PyStr × PyStr) → List PyStr → (List PyStr → Program) → Program
  | [], missing, k => k missing
  | (eid, path) :: rest, missing, k =>
    .call (.request (.get path)) fun
      | .error (.haClientError code _) =>
        probeMissing rest (if code = py "HA_NOT_FOUND" then missing ++ [eid] else missing) k
      | .ok _ | .error _ => probeMissing rest missing k

omit [Runtime] in
theorem asks_probeMissing {Q : Op → Prop} {paths : List (PyStr × PyStr)} {missing : List PyStr}
    {k : List PyStr → Program} (hget : ∀ entry ∈ paths, Q (.request (.get entry.2)))
    (hk : ∀ missing, Prog.Asks Q (k missing)) : Prog.Asks Q (probeMissing paths missing k) := by
  induction paths generalizing missing with
  | nil => exact hk missing
  | cons entry rest ih =>
    rw [List.forall_mem_cons] at hget
    unfold probeMissing
    constructor
    · exact hget.1
    · intro ans
      cases ans with
      | ok value => exact ih hget.2
      | error exc => cases exc <;> exact ih hget.2

def historyTimeParams : List PyStr := [py "start_time", py "end_time"]

def historyFlags : List PyStr :=
  [py "minimal_response", py "no_attributes", py "significant_changes_only"]

def historyExtraParams : List PyStr := py "entity_ids" :: historyFlags

/-- The ids to filter by; `none` when they are not given. -/
def historyIds (params : Dict) : Except Json (Option (List PyStr)) :=
  let invalid := error "INVALID_PARAM" (py "entity_ids must be a non-empty list of non-empty strings")
  match params.get? (py "entity_ids") with
  | none => .ok none
  | some (.list raw) =>
    let usable := raw.all fun
      | .str id => strip id ≠ []
      | _ => false
    if raw ≠ [] ∧ usable then .ok (some (raw.map strOf)) else .error invalid
  | some _ => .error invalid

/-- The flags that are set; the first that is no boolean is an error. -/
def historyFlagParts (params : Dict) : List PyStr → Except Json (List PyStr)
  | [] => .ok []
  | flag :: rest =>
    match params.get? flag with
    | none | some (.bool false) => historyFlagParts params rest
    | some (.bool true) =>
      match historyFlagParts params rest with
      | .error response => .error response
      | .ok parts => .ok (flag :: parts)
    | some _ => .error (error "INVALID_PARAM" (flag ++ py " must be a boolean"))

def handleHaHistory : Handler := fun params =>
  withFilters historyTimeParams historyExtraParams params <|
  periodPath "/api/history/period" params fun path =>
  orRaise (queryPart "end_time" (givenText params "end_time")) fun endPart =>
  orReturn (historyIds params) fun ids =>
  let joined := match ids with
    | none => .ok []
    | some ids => queryPart "filter_entity_id" (joinWith (py ",") ids)
  orRaise joined fun idPart =>
  orReturn (historyFlagParts params historyFlags) fun flagParts =>
  request (.get (withQuery path (endPart ++ idPart ++ flagParts))) fun
    | .list [] =>
      match ids with
      | none => respond (counted "history" [])
      | some ids =>
        -- nothing came back: which of the ids does Home Assistant not know
        orRaise (statePaths (ids.take maxEntityStateFetches)) fun paths =>
        probeMissing paths [] fun missing =>
        if missing = [] then respond (counted "history" [])
        else respond (error "HA_NOT_FOUND" (py "unknown entity_id(s): " ++
          joinWith (py ", ") missing))
    | .list history => respond (counted "history" history)
    | _ => respond (error "HA_BAD_RESPONSE" (py "Expected list from /api/history/period"))

/-! ## Automations -/

def listAutomationsParams : List PyStr := [py "include_traces", py "entity_filter", py "state_filter"]

def maxAutomationFilterLength : Nat := 256

/-- A filter of `ha.list_automations`, of bounded length; `none` when it is not given. -/
def automationFilter (name : PyStr) (inDomain : Bool) (params : Dict) : Except Json (Option PyStr) :=
  let invalid := error "INVALID_PARAM" (name ++ py " must be a non-empty string")
  match params.get? name with
  | none | some .null => .ok none
  | some (.str text) =>
    if text = [] then .error invalid
    else if inDomain ∧ ¬ startsWith text (py "automation.") then
      .error (error "INVALID_PARAM" (name ++ py " must be scoped to the 'automation.' domain"))
    else if maxAutomationFilterLength < text.length then
      .error (error "INVALID_PARAM" (name ++ py " exceeds " ++ natStr maxAutomationFilterLength ++
        py " chars"))
    else .ok (some text)
  | some _ => .error invalid

/-- The automations among the states that pass both filters. -/
def selectAutomations (raw : List Json) (pattern wanted : Option PyStr) : List Dict :=
  raw.filterMap fun
    | .dict state =>
      match Dict.get? state (py "entity_id") with
      | some (.str id) =>
        if startsWith id (py "automation.") && (pattern.all fun p => fnmatchcase id p) &&
            (wanted.all fun w => Dict.get? state (py "state") = some (.str w)) then some state
        else none
      | _ => none
    | _ => none

/-- `(auto.get("attributes") or {}).get("id")`. -/
def automationId (auto : Dict) : Except Exc Json :=
  match auto.get? (py "attributes") with
  | some (.dict attributes) => .ok (Dict.getD attributes (py "id") .null)
  | some attributes => if truthy attributes then .error attributeError else .ok .null
  | none => .ok .null

/-- Attach the traces to one automation after the other. -/
def withTraces : List Dict → List Json → Program
  | [], done => respond (counted "automations" done)
  | auto :: rest, done =>
    let traced (traces : List Json) : List Json :=
      done ++ [.dict (auto.set (py "traces") (.list traces))]
    orRaise (automationId auto) fun id =>
    if ¬ truthy id then withTraces rest (traced [])
    else
      .call (.request (.ws (wsFrame (py "trace/list")
        [(py "domain", .str (py "automation")), (py "item_id", .str (strOf id))]))) fun
        | .ok (.list traces) => withTraces rest (traced traces)
        | .ok _ => withTraces rest (traced [])
        | .error (.haClientError _ _) => withTraces rest (traced [])
        | .error exc => .ret (.error exc)

theorem asks_withTraces {Q : Op → Prop} {automations : List Dict} {done : List Json}
    (hws : ∀ frame, Q (.request (.ws frame))) : Prog.Asks Q (withTraces automations done) := by
  induction automations generalizing done with
  | nil => exact asks_respond _
  | cons auto rest ih =>
    unfold withTraces
    apply asks_orRaise
    intro id
    apply asks_ite ih
    constructor
    · exact hws _
    · intro ans
      cases ans with
      | ok value => cases value <;> exact ih
      | error exc =>
        cases exc with
        | haClientError code message => exact ih
        | timeoutError => trivial
        | other name => trivial

def handleHaListAutomations : Handler := fun params =>
  withKeys listAutomationsParams params <|
  match params.getD (py "include_traces") (.bool false) with
  | .bool includeTraces =>
    orReturn (automationFilter (py "entity_filter") true params) fun pattern =>
    orReturn (automationFilter (py "state_filter") false params) fun wanted =>
    request (.get (py "/api/states")) fun
      | .list raw =>
        let automations := selectAutomations raw pattern wanted
        if includeTraces then withTraces automations []
        else respond (counted "automations" (automations.map .dict))
      | _ => respond (error "HA_BAD_RESPONSE" (py "Expected list from /api/states"))
  | _ => respond (error "INVALID_PARAM" (py "include_traces must be a bool"))

def handleHaCheckConfig : Handler := fun params =>
  withKeys [] params <|
  readDict (.post (py "/api/config/core/check_config") none) "/api/config/core/check_config"
    fun raw => obj [("ok", .bool true), ("result", raw.getD (py "result") (.str (py "unknown"))),
      ("errors", raw.getD (py "errors") .null), ("warnings", raw.getD (py "warnings") .null)]

/-! ## Logs -/

/-- `max(1, min(lines, 5000))`. -/
def clampLines (lines : Int) : Nat := (max 1 (min lines 5000)).toNat

/-- A text endpoint of the Supervisor. -/
def readText (path : PyStr) (shape : PyStr → Json) : Program :=
  request (.supervisorGetText path) fun
    | .str body => respond (shape body)
    | _ => .ret (.error attributeError)

omit [Runtime] in
theorem asks_readText {Q : Op → Prop} {path : PyStr} {shape : PyStr → Json}
    (hr : Q (.request (.supervisorGetText path))) : Prog.Asks Q (readText path shape) := by
  apply asks_request hr
  intro value
  cases value <;> trivial

def tailLines (lines : Nat) (body : PyStr) : List PyStr := lastN lines (splitLines body)

def handleHaCoreLogs : Handler := fun params =>
  withKeys [py "lines"] params <|
  match params.getD (py "lines") (.int 200) with
  | .int raw =>
    readText (py "/core/logs") fun body =>
    let selected := tailLines (clampLines raw) body
    obj [("ok", .bool true), ("lines", .int selected.length),
      ("log", .str (joinWith (py "\n") selected))]
  | _ => respond (error "INVALID_PARAM" (py "lines must be an integer"))

/-- The whole part of a finite float.  Past `2 ^ 53` its digits are not the exact ones, but there
only the clamp is left to do. -/
def truncDouble (neg : Bool) (d : ShortDigits) : Int :=
  let whole := ofDigitStr (d.digits.take d.point.toNat) * 10 ^ (d.point.toNat - d.digits.length)
  if neg then -(whole : Int) else whole

/-- `int(lines)`, whose `TypeError` and `ValueError` are caught and `OverflowError` is not. -/
def intOfParam : Json → Except Exc (Option Int)
  | .int i => .ok (some i)
  | .bool b => .ok (some (if b then 1 else 0))
  | .float (.inf _) => .error (.other (py "OverflowError"))
  | .float .nan => .ok none
  | .float (.zero _) => .ok (some 0)
  | .float (.dec neg d) => .ok (some (truncDouble neg d))
  | .str text => .ok (intOfText text)
  | .null | .list _ | .dict _ => .ok none

def requireSlug (params : Dict) : Except Json PyStr :=
  let slug := strip (givenText params "slug")
  if slug = [] then .error (error "MISSING_PARAM" (py "slug is required"))
  else if ¬ validAddonSlug slug then
    .error (error "INVALID_PARAM" (py "invalid addon slug: " ++ Py.reprStr slug))
  else .ok slug

def handleHaAddonLogs : Handler := fun params =>
  withKeys [py "slug", py "lines"] params <|
  orReturn (requireSlug params) fun slug =>
  orRaise (intOfParam (params.getD (py "lines") (.int 200))) fun
    | none => respond (error "INVALID_PARAM" (py "lines must be an integer"))
    | some raw =>
      readText (addonPath slug (py "logs")) fun body =>
      let trimmed := tailLines (clampLines raw) body
      obj [("ok", .bool true), ("slug", .str slug), ("lines", .int trimmed.length),
        ("log", .str (joinWith (py "\n") trimmed))]

def handleAddonText (document : String) : Handler := fun params =>
  withKeys [py "slug"] params <|
  orReturn (requireSlug params) fun slug =>
  readText (addonPath slug (py document)) fun body =>
  obj [("ok", .bool true), ("slug", .str slug), (document, .str body)]

def handleHaAddonChangelog : Handler := handleAddonText "changelog"

def handleHaAddonDocumentation : Handler := handleAddonText "documentation"

/-! ## Add-ons and the Supervisor -/

/-- The selected fields; a missing one is `null`. -/
def selectFields (fields : List String) (value : Json → Json) (data : Dict) : Json :=
  obj (fields.map fun field => (field, value (data.getD (py field) .null)))

/-- The `data` of a Supervisor reply. -/
def supervisorData (what : String) (raw : Json) : Except Json Dict :=
  match raw with
  | .dict reply =>
    match Dict.get? reply (py "data") with
    | some (.dict data) => .ok data
    | _ => .error (error "HA_BAD_RESPONSE"
        (py "Supervisor " ++ py what ++ py " response missing 'data'"))
  | _ => .error (error "HA_BAD_RESPONSE" (py "Expected dict from Supervisor " ++ py what))

def addonFields : List String :=
  ["slug", "name", "state", "version", "version_latest", "update_available"]

def handleHaListAddons : Handler := fun params =>
  withKeys [] params <|
  request (.supervisorGet (py "/addons")) fun raw =>
  orReturn (supervisorData "/addons" raw) fun data =>
  match data.get? (py "addons") with
  | some (.list entries) =>
    respond (counted "addons" (entries.filterMap fun
      | .dict entry => some (selectFields addonFields id entry)
      | _ => none))
  | _ => respond (error "HA_BAD_RESPONSE" (py "Supervisor /addons 'data.addons' is not a list"))

def addonInfoFields : List String :=
  ["slug", "name", "state", "description", "version", "version_latest", "update_available", "boot",
   "startup", "stage", "arch", "machine", "ingress", "ingress_port"]

def addonStatsFields : List String :=
  ["cpu_percent", "memory_usage", "memory_limit", "memory_percent", "network_rx", "network_tx",
   "blk_read", "blk_write"]

def handleAddonData (endpoint : String) (fields : List String) : Handler := fun params =>
  withKeys [py "slug"] params <|
  orReturn (requireSlug params) fun slug =>
  request (.supervisorGet (addonPath slug (py endpoint))) fun raw =>
  orReturn (supervisorData ("/addons/<slug>/" ++ endpoint) raw) fun data =>
  respond (obj [("ok", .bool true), ("slug", .str slug), (endpoint, selectFields fields id data)])

def handleHaAddonInfo : Handler := handleAddonData "info" addonInfoFields

def handleHaAddonStats : Handler := handleAddonData "stats" addonStatsFields

def supervisorInfoFields : List String :=
  ["arch", "machine", "supervisor", "homeassistant", "hassos", "operating_system", "docker",
   "channel"]

/-- `_supervisor_info_value`: only a short text is passed on. -/
def supervisorInfoValue : Json → Json
  | .str text => if text.length ≤ 128 then .str text else .null
  | _ => .null

def handleHaSupervisorInfo : Handler := fun params =>
  withKeys [] params <|
  .call (.request (.supervisorGet (py "/info"))) fun
    | .ok raw =>
      orReturn (supervisorData "/info" raw) fun data =>
      respond (obj [("ok", .bool true),
        ("info", selectFields supervisorInfoFields supervisorInfoValue data)])
    -- the upstream text may name the host and is not repeated
    | .error (.haClientError code _) =>
      respond (toError code (py "Supervisor /info request failed"))
    | .error exc => .ret (.error exc)

end

end HassNode.HaReads
