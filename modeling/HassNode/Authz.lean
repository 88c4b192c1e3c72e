import HassNode.Commands.Params
import HassNode.Py.Text

/-!
# The household policy

`authz.py` as far as it decides calls: the services a household or admin principal may use, the
service that a command would call, and the matching of a forbidden set.
-/

namespace HassNode.Authz

open Py HaClient Commands

def onOffToggle : List PyStr := [py "turn_on", py "turn_off", py "toggle"]

/-- `HOUSEHOLD_ALLOWED_SERVICES`. -/
def householdAllowedServices : List (PyStr × List PyStr) :=
  [(py "light", onOffToggle),
   (py "switch", onOffToggle),
   (py "input_boolean", onOffToggle),
   (py "media_player", onOffToggle ++
     [py "media_play", py "media_pause", py "media_play_pause", py "media_stop",
      py "media_next_track", py "media_previous_track", py "volume_up", py "volume_down",
      py "volume_mute", py "volume_set", py "select_source", py "select_sound_mode"]),
   (py "cover",
     [py "open_cover", py "close_cover", py "stop_cover", py "toggle", py "set_cover_position",
      py "open_cover_tilt", py "close_cover_tilt", py "stop_cover_tilt", py "toggle_cover_tilt",
      py "set_cover_tilt_position"]),
   (py "climate",
     [py "turn_on", py "turn_off", py "set_temperature", py "set_hvac_mode", py "set_fan_mode",
      py "set_preset_mode", py "set_humidity"]),
   (py "fan", onOffToggle ++
     [py "set_percentage", py "set_preset_mode", py "oscillate", py "set_direction"]),
   (py "input_select",
     [py "select_option", py "select_next", py "select_previous", py "select_first",
      py "select_last"]),
   (py "input_number", [py "set_value", py "increment", py "decrement"]),
   (py "vacuum",
     [py "start", py "pause", py "stop", py "return_to_base", py "locate", py "clean_spot"]),
   (py "humidifier", onOffToggle ++ [py "set_humidity", py "set_mode"]),
   (py "water_heater",
     [py "turn_on", py "turn_off", py "set_temperature", py "set_operation_mode"]),
   (py "remote", onOffToggle ++ [py "send_command"]),
   (py "scene", [py "turn_on"]),
   (py "script", [py "turn_on"]),
   (py "button", [py "press"]),
   (py "lock", [py "lock", py "unlock", py "open"]),
   (py "alarm_control_panel",
     [py "alarm_arm_away", py "alarm_arm_home", py "alarm_arm_night", py "alarm_arm_vacation",
      py "alarm_arm_custom_bypass", py "alarm_disarm"])]

/-- `text.partition(".")` without the separator. -/
def partitionDot (text : PyStr) : PyStr × PyStr :=
  (text.takeWhile (· ≠ 46), (text.dropWhile (· ≠ 46)).drop 1)

def allowedPair (domain name : PyStr) : Bool :=
  ((householdAllowedServices.lookup domain).getD []).contains name

/-- `service_allowed`. -/
def serviceAllowed (service : PyStr) : Bool :=
  let (domain, name) := partitionDot service
  allowedPair domain name

/-! ## The service of a command -/

/-- `^[a-z0-9_]{1,64}$` under `fullmatch`. -/
def isServiceName (value : PyStr) : Bool :=
  1 ≤ value.length && value.length ≤ 64 && value.all isSlugChar

/-- The light wrappers share the decision on the service they call. -/
def wrapperServices : List (PyStr × PyStr) :=
  [(py "ha.light_turn_on", py "light.turn_on"), (py "ha.light_turn_off", py "light.turn_off")]

def strippedText (params : Dict) (key : PyStr) : PyStr :=
  match params.get? key with
  | some (.str raw) => strip raw
  | _ => []

/-- `service_for_command`. -/
def serviceForCommand (command : PyStr) (params : Dict) : Option PyStr :=
  match wrapperServices.lookup command with
  | some service => some service
  | none =>
    if command ≠ py "ha.call_service" then none
    else
      let domain := strippedText params (py "domain")
      let service := strippedText params (py "service")
      if isServiceName domain && isServiceName service then some (domain ++ py "." ++ service)
      else none

theorem serviceForCommand_call (params : Dict) :
    serviceForCommand (py "ha.call_service") params =
      if isServiceName (strippedText params (py "domain")) &&
          isServiceName (strippedText params (py "service")) then
        some (strippedText params (py "domain") ++ py "." ++ strippedText params (py "service"))
      else none := rfl

theorem slugs_of_isServiceName {value : PyStr} (h : isServiceName value = true) :
    value.all isSlugChar = true := by
  unfold isServiceName at h
  rw [Bool.and_eq_true] at h
  exact h.2

/-- A canonical name is split where it was joined. -/
theorem partitionDot_joined {domain name : PyStr} (h : domain.all isSlugChar = true) :
    partitionDot (domain ++ py "." ++ name) = (domain, name) := by
  have htake : ∀ c ∈ domain, decide (c ≠ 46) = true := fun c hc =>
    decide_eq_true (slugChar_ne (List.all_eq_true.mp h c hc)).1
  have hdot : domain ++ py "." ++ name = domain ++ (46 :: name) := by
    rw [List.append_assoc]
    rfl
  unfold partitionDot
  rw [hdot, List.takeWhile_append_of_pos htake, List.dropWhile_append_of_pos htake]
  simp

/-! ## Forbidden sets -/

def callServicePrefix : PyStr := py "ha.call_service:"

/-- `is_forbidden`: exact command names, or globs over the canonical service. -/
def isForbidden (forbidden : List PyStr) (command : PyStr) (params : Dict) : Bool :=
  if command ∈ forbidden then true
  else if command ≠ py "ha.call_service" ∧ (wrapperServices.lookup command).isNone then false
  else
    let patterns := (forbidden.filter fun e => startsWith e callServicePrefix).map
      fun e => e.drop callServicePrefix.length
    if patterns = [] then false
    else
      match serviceForCommand command params with
      -- a malformed name is forbidden as soon as there is a service entry
      | none => true
      | some service => patterns.any fun pattern =>
          if pattern = py "*" then !serviceAllowed service else fnmatchcase service pattern

/-- `USER_ALLOWED_COMMANDS`. -/
def userAllowedCommands : List PyStr :=
  [py "ping", py "fs.read", py "fs.list", py "fs.stat", py "fs.glob", py "fs.history",
   py "fs.diff", py "system.which", py "ha.list_states", py "ha.get_state", py "ha.call_service",
   py "ha.light_turn_on", py "ha.light_turn_off", py "ha.list_areas", py "ha.list_devices",
   py "ha.list_services", py "ha.get_config", py "ha.list_events", py "ha.list_config_entries",
   py "ha.core_logs", py "ha.calendar_get_events", py "ha.list_entity_registry", py "ha.logbook",
   py "ha.history", py "ha.list_automations", py "ha.check_config", py "ha.addon_logs",
   py "ha.list_addons", py "ha.addon_info", py "ha.addon_stats", py "ha.addon_changelog",
   py "ha.addon_documentation", py "ha.supervisor_info"]

/-! ## The `code` of a lock or an alarm -/

def codeDomains : List PyStr := [py "lock", py "alarm_control_panel"]

/-- `normalise_service_code`; the error is the text of the `ValueError`. -/
def normaliseServiceCode [Runtime] (domain : PyStr) (body : Dict) : Except PyStr Dict :=
  if domain ∉ codeDomains then .ok body
  else
    match body.get? (py "code") with
    | none => .ok body
    | some (.bool _) | some (.list _) | some (.dict _) | some (.float .nan)
    | some (.float (.inf _)) => .error (py "code must be a string or a finite number")
    | some (.int i) =>
      -- the interpreter's own bound on `str(int)`
      if 4300 < (natDigits i.natAbs).length then
        .error (py "Exceeds the limit (4300 digits) for integer string conversion; " ++
          py "use sys.set_int_max_str_digits() to increase the limit")
      else .ok (body.set (py "code") (.str (intStr i)))
    | some (.float x) => .ok (body.set (py "code") (.str (reprFloat x)))
    | some (.str _) | some .null => .ok body

end HassNode.Authz
