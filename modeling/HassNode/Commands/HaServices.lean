import HassNode.Authz

/-!
# The service calls of `commands/ha.py`

`ha.call_service`, the two light commands and the read-only calendar call, with the list of denied
services and the state reads that follow a call which changed nothing.
-/

namespace HassNode.HaServices

open Py Interaction HaClient Commands Authz

/-! ## Denied services -/

/-- `_INTERIM_DENIED_SERVICE_PATTERNS`. -/
def interimDeniedServicePatterns : List (PyStr × PyStr) :=
  [(py "hassio.addon_start", py "use ha.addon_start with node slug policy"),
   (py "hassio.addon_stop", py "use ha.addon_stop with node slug policy"),
   (py "hassio.addon_restart", py "use ha.addon_restart with node slug policy"),
   (py "hassio.addon_update", py "use ha.addon_update with node slug policy"),
   (py "hassio.app_start", py "use ha.addon_start with node slug policy"),
   (py "hassio.app_stop", py "use ha.addon_stop with node slug policy"),
   (py "hassio.app_restart", py "use ha.addon_restart with node slug policy"),
   (py "hassio.app_update", py "use ha.addon_update with node slug policy"),
   (py "hassio.addon_stdin", py "use the future service effect-policy path"),
   (py "hassio.app_stdin", py "use the future service effect-policy path"),
   (py "hassio.host_reboot", py "use the future host lifecycle approval path"),
   (py "hassio.host_shutdown", py "use the future host lifecycle approval path"),
   (py "hassio.host_update", py "use the future host update approval path"),
   (py "hassio.supervisor_update", py "use the future Supervisor update approval path"),
   (py "hassio.mount_reload", py "use the dedicated reload/configuration policy path"),
   (py "update.*", py "use ha.update_install with operator approval"),
   (py "shell_command.*", py "use system.run with native exec approval"),
   (py "python_script.*", py "use the future service effect-policy path"),
   (py "command_line.*", py "use the future service effect-policy path"),
   (py "homeassistant.restart", py "use the future lifecycle approval path"),
   (py "homeassistant.stop", py "use the future shutdown approval path"),
   (py "*.reload", py "use the dedicated reload/configuration policy path"),
   (py "*.reload_*", py "use the dedicated reload/configuration policy path")]

def denialCandidates (domain service : PyStr) : List PyStr :=
  [domain ++ py "." ++ service, domain ++ py ".*"] ++
    (if service = py "reload" then [py "*.reload"]
      else if startsWith service (py "reload_") then [py "*.reload_*"] else [])

/-- `_interim_service_denial`: the reason of the first listed candidate. -/
def interimServiceDenial (domain service : PyStr) : Option PyStr :=
  (denialCandidates domain service).findSome? fun pattern =>
    interimDeniedServicePatterns.lookup pattern

/-! ## URLs -/

/-- `_encode_path_segment`; a text that is not valid UTF-8 raises, a bare dot segment is refused. -/
def encodePathSegment (value : PyStr) : Except Exc (Option PyStr) :=
  if value = py "." ∨ value = py ".." then .ok none
  else
    -- `:`, `+` and `.` stay literal
    match quote [58, 43, 46] value with
    | some encoded => .ok (some encoded)
    | none => .error (.other (py "UnicodeEncodeError"))

/-- `_encode_query_value`. -/
def encodeQueryValue (value : PyStr) : Except Exc PyStr :=
  match quote [58, 44] value with
  | some encoded => .ok encoded
  | none => .error (.other (py "UnicodeEncodeError"))

/-- The URLs of the state reads, at most `_MAX_ENTITY_STATE_FETCHES`; dot segments are skipped. -/
def statePaths : List PyStr → Except Exc (List (PyStr × PyStr))
  | [] => .ok []
  | eid :: rest =>
    match encodePathSegment eid with
    | .error exc => .error exc
    | .ok encoded =>
      match statePaths rest with
      | .error exc => .error exc
      | .ok paths =>
        match encoded with
        | none => .ok paths
        | some encoded => .ok ((eid, py "/api/states/" ++ encoded) :: paths)

/-- The URL of the state of an entity. -/
def StatePath (id path : PyStr) : Prop :=
  ∃ encoded, encodePathSegment id = .ok (some encoded) ∧ path = py "/api/states/" ++ encoded

def isDotSegment (id : PyStr) : Bool := id = py "." || id = py ".."

/-- Every id but a dot segment has a URL. -/
theorem statePaths_ok {ids : List PyStr} {paths : List (PyStr × PyStr)} (h : statePaths ids = .ok paths) :
    paths.map Prod.fst = ids.filter (fun id => !isDotSegment id) ∧
      ∀ entry ∈ paths, StatePath entry.1 entry.2 := by
  induction ids generalizing paths with
  | nil =>
    cases h
    exact ⟨rfl, fun _ hmem => by cases hmem⟩
  | cons id ids ih =>
    unfold statePaths at h
    cases hencoded : encodePathSegment id with
    | error exc =>
      rw [hencoded] at h
      cases h
    | ok encoded =>
      cases hpaths : statePaths ids with
      | error exc =>
        rw [hencoded, hpaths] at h
        cases h
      | ok later =>
        rw [hencoded, hpaths] at h
        obtain ⟨hids, hurls⟩ := ih hpaths
        have hdot : encoded = none ↔ isDotSegment id = true := by
          unfold encodePathSegment at hencoded
          unfold isDotSegment
          split at hencoded
          · rename_i hsegment
            cases hencoded
            simpa using hsegment
          · rename_i hsegment
            split at hencoded
            · cases hencoded
              simpa using hsegment
            · cases hencoded
        cases encoded with
        | none =>
          cases h
          rw [List.filter_cons_of_neg (by rw [hdot.mp rfl]; decide)]
          exact ⟨hids, hurls⟩
        | some encoded =>
          cases h
          have hplain : isDotSegment id = false := by
            rw [Bool.eq_false_iff]
            intro hsegment
            cases hdot.mpr hsegment
          rw [List.filter_cons_of_pos (by rw [hplain]; decide), List.map_cons, hids]
          refine ⟨rfl, ?_⟩
          rw [List.forall_mem_cons]
          exact ⟨⟨encoded, hencoded, rfl⟩, hurls⟩

/-- Ids that are text have URLs. -/
theorem statePaths_isOk {ids : List PyStr} (h : ∀ id ∈ ids, encodeUtf8 id ≠ none) :
    ∃ paths, statePaths ids = .ok paths := by
  induction ids with
  | nil => exact ⟨[], rfl⟩
  | cons id ids ih =>
    rw [List.forall_mem_cons] at h
    obtain ⟨later, hlater⟩ := ih h.2
    have hencoded : ∃ encoded, encodePathSegment id = .ok encoded := by
      unfold encodePathSegment quote
      split
      · exact ⟨none, rfl⟩
      · obtain ⟨bytes, hbytes⟩ := Option.ne_none_iff_exists'.mp h.1
        rw [hbytes]
        exact ⟨_, rfl⟩
    obtain ⟨encoded, hencoded⟩ := hencoded
    unfold statePaths
    rw [hencoded, hlater]
    cases encoded with
    | none => exact ⟨later, rfl⟩
    | some encoded => exact ⟨_, rfl⟩

def maxEntityStateFetches : Nat := 10

/-! ## States after a call -/

/-- The concurrent reads of `_fetch_entity_states`, in the order they are started.  A read that
fails or does not come in time is skipped. -/
def readStates : List (PyStr × PyStr) → List Json → (List Json → Program) → Program
  | [], states, k => k states
  | (_, path) :: rest, states, k =>
    .call (.request (.get path)) fun
      | .ok (.dict state) => readStates rest (states ++ [.dict state]) k
      | .ok _ | .error _ => readStates rest states k

theorem asks_readStates {Q : Op → Prop} {paths : List (PyStr × PyStr)} {states : List Json}
    {k : List Json → Program} (hget : ∀ path, Q (.request (.get path)))
    (hk : ∀ states, Prog.Asks Q (k states)) : Prog.Asks Q (readStates paths states k) := by
  induction paths generalizing states with
  | nil => exact hk states
  | cons entry rest ih =>
    unfold readStates
    constructor
    · exact hget entry.2
    · intro ans
      cases ans with
      | ok value => cases value <;> exact ih
      | error exc => exact ih

def observedReply (states : List Json) (complete : Bool) (count : Nat) : Json :=
  obj [("ok", .bool true), ("changed_states", .list states),
    ("changed_states_complete", .bool complete), ("targeted_entity_count", .int count)]

/-- The entity ids that a target names. -/
def targetedIds (target : Dict) : List PyStr :=
  let raw : List Json := match target.get? (py "entity_id") with
    | some (.str id) => [.str id]
    | some (.list ids) => ids
    | _ => []
  raw.filterMap fun
    | .str id => if id = [] then none else some id
    | _ => none

/-- `_with_observed_states`. -/
def withObservedStates (changed : List Json) (target : Dict) : Program :=
  if changed ≠ [] then respond (obj [("ok", .bool true), ("changed_states", .list changed)])
  else
    let ids := targetedIds target
    if ids = [] then respond (observedReply [] false 0)
    else
      match statePaths (ids.take maxEntityStateFetches) with
      -- whatever fails here, the call itself has succeeded
      | .error _ => respond (observedReply [] false ids.length)
      | .ok paths =>
        readStates paths [] fun states =>
        let composite := truthy (target.getD (py "area_id") .null) ||
          truthy (target.getD (py "device_id") .null)
        respond (observedReply states
          (states.length = ids.length && ids.length ≤ maxEntityStateFetches && !composite)
          ids.length)

theorem asks_withObservedStates {Q : Op → Prop} {changed : List Json} {target : Dict}
    (hget : ∀ path, Q (.request (.get path))) : Prog.Asks Q (withObservedStates changed target) := by
  unfold withObservedStates
  apply asks_ite (asks_respond _)
  apply asks_ite (asks_respond _)
  split
  · exact asks_respond _
  · exact asks_readStates hget fun _ => asks_respond _

/-- `_unencodable_target`: a text of the target that is not valid UTF-8. -/
def unencodableTarget (target : Dict) : Bool :=
  target.any fun kv =>
    let items : List Json := match kv.2 with
      | .list items => items
      | value => [value]
    items.any fun
      | .str text => (encodeUtf8 text).isNone
      | _ => false

/-! ## `ha.call_service` -/

section
variable [Runtime]

mutual

/-- `_service_data_equal`: no value of another type equals a boolean. -/
def serviceDataEqual : Json → Json → Bool
  | .dict left, .dict right =>
    (left.all fun kv => Dict.has right kv.1) && (right.all fun kv => Dict.has left kv.1) &&
      serviceDictEqual left right
  | .list left, .list right => serviceListEqual left right
  | .bool left, .bool right => left = right
  | .null, .null => true
  | .str left, .str right => left = right
  | .int left, .int right => left = right
  | .int left, .float right => intEqFloat left right
  | .float left, .int right => intEqFloat right left
  | .float left, .float right => floatEq left right
  | _, _ => false

def serviceListEqual : List Json → List Json → Bool
  | [], [] => true
  | a :: left, b :: right => serviceDataEqual a b && serviceListEqual left right
  | _, _ => false

def serviceDictEqual : List (PyStr × Json) → Dict → Bool
  | [], _ => true
  | (key, value) :: left, right =>
    (match Dict.get? right key with
      | some other => serviceDataEqual value other
      | none => false) && serviceDictEqual left right

end

def callServiceParams : List PyStr :=
  [py "domain", py "service", py "target", py "data", py "service_data"]

def callServiceTargetParams : List PyStr := [py "entity_id", py "area_id", py "device_id"]

/-- `_canonical_service_component`. -/
def canonicalServiceComponent (params : Dict) (key : PyStr) : Option PyStr :=
  match params.get? key with
  | some (.str raw) => if isServiceName (strip raw) then some (strip raw) else none
  | _ => none

omit [Runtime] in
theorem canonicalServiceComponent_eq_some {params : Dict} {key value : PyStr}
    (h : canonicalServiceComponent params key = some value) :
    strippedText params key = value ∧ isServiceName value = true := by
  unfold canonicalServiceComponent at h
  unfold strippedText
  cases hget : params.get? key with
  | none =>
    rw [hget] at h
    cases h
  | some given =>
    rw [hget] at h
    cases given with
    | str raw =>
      change (if isServiceName (strip raw) then some (strip raw) else none) = some value at h
      show strip raw = value ∧ isServiceName value = true
      by_cases hname : isServiceName (strip raw) = true
      · rw [if_pos hname, Option.some.injEq] at h
        exact ⟨h, h ▸ hname⟩
      · rw [if_neg hname] at h
        cases h
    | null | bool _ | int _ | float _ | list _ | dict _ => cases h

def isMissing (params : Dict) (key : PyStr) : Bool :=
  params.get? key = none || params.get? key = some (.str [])

/-- The domain and the service to call. -/
def requireService (params : Dict) : Except Json (PyStr × PyStr) :=
  if isMissing params (py "domain") then .error (error "MISSING_PARAM" (py "domain is required"))
  else if isMissing params (py "service") then .error (error "MISSING_PARAM" (py "service is required"))
  else
    match canonicalServiceComponent params (py "domain"),
        canonicalServiceComponent params (py "service") with
    | some domain, some service => .ok (domain, service)
    | _, _ => .error (error "INVALID_PARAM"
        (py "domain and service must be lowercase [a-z0-9_]+ names"))

omit [Runtime] in
/-- The handler reads the same pair that the policy reads. -/
theorem requireService_judged {params : Dict} {domain service : PyStr}
    (h : requireService params = .ok (domain, service)) :
    serviceForCommand (py "ha.call_service") params = some (domain ++ py "." ++ service) ∧
      isServiceName domain = true ∧ isServiceName service = true := by
  unfold requireService at h
  split at h
  · cases h
  split at h
  · cases h
  split at h
  · rename_i d s hd hs
    cases h
    have hdomain := canonicalServiceComponent_eq_some hd
    have hservice := canonicalServiceComponent_eq_some hs
    refine ⟨?_, hdomain.2, hservice.2⟩
    rw [serviceForCommand_call, hdomain.1, hservice.1, hdomain.2, hservice.2]
    rfl
  · cases h

def isNonEmptyStr : Json → Bool
  | .str text => text ≠ []
  | _ => false

/-- The checks on `target`, which may be left out. -/
def requireTarget (params : Dict) : Except Json Dict :=
  match params.get? (py "target") with
  | none | some .null => .ok []
  | some (.dict target) =>
    let unknown := sortedStr ((Dict.keys target).dedup.filter fun k => k ∉ callServiceTargetParams)
    let nulls := sortedStr ((target.filter fun kv => kv.2 = .null).map Prod.fst)
    if unknown ≠ [] then
      .error (error "INVALID_PARAM"
        (py "unknown target parameter(s): " ++ joinWith (py ", ") unknown))
    else if nulls ≠ [] then
      .error (error "INVALID_PARAM"
        (py "target parameter(s) must not be null; omit instead: " ++ joinWith (py ", ") nulls))
    else
      match Dict.get? target (py "entity_id") with
      | some (.list ids) =>
        if ids.all isNonEmptyStr then .ok target
        else .error (error "INVALID_PARAM" (py "entity_id list members must be non-empty strings"))
      | _ => .ok target
  | some _ => .error (error "INVALID_PARAM" (py "target must be a dict"))

/-- `data`, or its alias `service_data`; both only when they agree. -/
def requireServiceData (params : Dict) : Except Json Dict :=
  match params.get? (py "data"), params.get? (py "service_data") with
  | none, none => .ok []
  | some (.dict data), none => .ok data
  | none, some (.dict data) => .ok data
  | some (.dict data), some (.dict other) =>
    if serviceDataEqual (.dict data) (.dict other) then .ok data
    else .error (error "INVALID_PARAM" (py "data and service_data must agree when both are supplied"))
  | some (.dict _), some _ => .error (error "INVALID_PARAM" (py "service_data must be a dict"))
  | none, some _ => .error (error "INVALID_PARAM" (py "service_data must be a dict"))
  | some _, _ => .error (error "INVALID_PARAM" (py "data must be a dict"))

/-- `body or None`. -/
def bodyOrNone (body : Dict) : Option Dict := if body = [] then none else some body

def handleHaCallService : Handler := fun params =>
  match strictKeysError params callServiceParams [] with
  | some invalid => respond invalid
  | none =>
    orReturn (requireService params) fun (domain, service) =>
    orReturn (requireTarget params) fun target =>
    orReturn (requireServiceData params) fun data =>
    if unencodableTarget target then
      respond (error "INVALID_PARAM" (py "target strings must be valid UTF-8 text"))
    else
      match interimServiceDenial domain service with
      | some denial =>
        respond (error "SERVICE_DENIED" (py "ha.call_service denies " ++ domain ++ py "." ++
          service ++ py ": " ++ denial))
      | none =>
        -- the target is collapsed into the body
        match normaliseServiceCode domain ((Dict.update [] data).update target) with
        | .error message => respond (error "INVALID_PARAM" message)
        | .ok body =>
          request (.post (servicePath domain service) (bodyOrNone body)) fun
            | .list changed => withObservedStates changed target
            | _ => respond (error "HA_BAD_RESPONSE"
                (py "Expected changed-state list from service call"))

/-! ## The light commands -/

def lightTargetKeys : List PyStr := [py "entity_id", py "area_id", py "device_id"]

def lightOnData : List PyStr :=
  [py "brightness", py "brightness_pct", py "color_temp_kelvin", py "rgb_color", py "transition"]

/-- `_build_light_target`; every message is reported as `MISSING_PARAM`. -/
def buildLightTarget (params : Dict) : Except Json Dict :=
  let given (key : PyStr) : Dict :=
    match params.get? key with
    | none | some .null => []
    | some value => [(key, value)]
  let rest := given (py "area_id") ++ given (py "device_id")
  match params.get? (py "entity_id") with
  | none | some .null =>
    if rest = [] then
      .error (error "MISSING_PARAM" (py "one of entity_id, area_id, or device_id is required"))
    else .ok rest
  | some (.str id) => .ok ((py "entity_id", .str id) :: rest)
  | some (.list ids) =>
    if ids.all isNonEmptyStr then .ok ((py "entity_id", .list ids) :: rest)
    else .error (error "MISSING_PARAM" (py "entity_id list members must be non-empty strings"))
  | some _ => .error (error "MISSING_PARAM" (py "entity_id must be a string or list of strings"))

/-- The two light commands, which differ in their service and in the data they copy. -/
def handleLight (service : PyStr) (dataKeys : List PyStr) : Handler := fun params =>
  match strictKeysError params (lightTargetKeys ++ dataKeys) [] with
  | some invalid => respond invalid
  | none =>
    orReturn (buildLightTarget params) fun target =>
    if unencodableTarget target then
      respond (error "INVALID_PARAM" (py "target strings must be valid UTF-8 text"))
    else
      let data : Dict := dataKeys.filterMap fun key => (params.get? key).map fun v => (key, v)
      request (.post (servicePath (py "light") service) (bodyOrNone (data.update target))) fun
        | .list changed => withObservedStates changed target
        | _ => withObservedStates [] target

def handleHaLightTurnOn : Handler := handleLight (py "turn_on") lightOnData

def handleHaLightTurnOff : Handler := handleLight (py "turn_off") [py "transition"]

/-! ## `ha.calendar_get_events` -/

def calendarKeys : List PyStr := [py "entity_id", py "start_date_time", py "end_date_time"]

def requireCalendarIds (params : Dict) : Except Json Json :=
  let invalid := error "INVALID_PARAM" (py "entity_id must be a non-empty string or list of strings")
  match params.get? (py "entity_id") with
  | some (.str id) => if id = [] then .error invalid else .ok (.str id)
  | some (.list ids) =>
    if ids ≠ [] ∧ ids.all isNonEmptyStr then .ok (.list ids) else .error invalid
  | _ => .error invalid

def requireTime (name : PyStr) (params : Dict) : Except Json Json :=
  match params.get? name with
  | some (.str text) =>
    if text = [] then .error (error "MISSING_PARAM" (name ++ py " is required")) else .ok (.str text)
  | _ => .error (error "MISSING_PARAM" (name ++ py " is required"))

def handleHaCalendarGetEvents : Handler := fun params =>
  match strictKeysError params calendarKeys [] with
  | some invalid => respond invalid
  | none =>
    orReturn (requireCalendarIds params) fun ids =>
    orReturn (requireTime (py "start_date_time") params) fun startTime =>
    orReturn (requireTime (py "end_date_time") params) fun endTime =>
    request (.post (py "/api/services/calendar/get_events?return_response")
      (some [(py "entity_id", ids), (py "start_date_time", startTime),
        (py "end_date_time", endTime)])) fun
      | .dict response => respond (obj [("ok", .bool true), ("response", .dict response)])
      | _ => respond (error "HA_BAD_RESPONSE" (py "Expected dict from calendar.get_events"))

end

end HassNode.HaServices
