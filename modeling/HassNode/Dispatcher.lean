import HassNode.Commands.HaReads
import HassNode.EffectPolicy

/-!
# The dispatcher

`commands/dispatcher.py`: the registry of commands, and one invoke from the command name to the
result of its handler, before the codes of the call are masked in it.
-/

namespace HassNode.Dispatcher

open Py Interaction ConfigMutation HaClient HaConfig HaLifecycle HaServices HaReads EffectPolicy

/-- A registered handler.  The `fs.*`, `system.*` and `ping` handlers work on the node itself and
have no access to Home Assistant. -/
inductive CommandHandler where
  | node
  | ha (handler : Handler)

/-- `_REGISTRY`. -/
def registry [Runtime] (denylist : List PyStr) : List (PyStr × CommandHandler) :=
  [(py "ping", .node),
   (py "fs.read", .node),
   (py "fs.list", .node),
   (py "fs.stat", .node),
   (py "fs.glob", .node),
   (py "fs.write", .node),
   (py "fs.restore", .node),
   (py "fs.history", .node),
   (py "fs.diff", .node),
   (py "fs.move", .node),
   (py "fs.delete", .node),
   (py "fs.patch", .node),
   (py "system.run", .node),
   (py "system.run.prepare", .node),
   (py "system.which", .node),
   (py "system.execApprovals.get", .node),
   (py "system.execApprovals.set", .node),
   (py "ha.list_states", .ha handleHaListStates),
   (py "ha.get_state", .ha handleHaGetState),
   (py "ha.call_service", .ha handleHaCallService),
   (py "ha.list_areas", .ha handleHaListAreas),
   (py "ha.list_devices", .ha handleHaListDevices),
   (py "ha.list_services", .ha handleHaListServices),
   (py "ha.get_config", .ha handleHaGetConfig),
   (py "ha.list_events", .ha handleHaListEvents),
   (py "ha.list_config_entries", .ha handleHaListConfigEntries),
   (py "ha.core_logs", .ha handleHaCoreLogs),
   (py "ha.calendar_get_events", .ha handleHaCalendarGetEvents),
   (py "ha.list_entity_registry", .ha handleHaListEntityRegistry),
   (py "ha.logbook", .ha handleHaLogbook),
   (py "ha.history", .ha handleHaHistory),
   (py "ha.reload_config", .ha handleHaReloadConfig),
   (py "ha.light_turn_on", .ha handleHaLightTurnOn),
   (py "ha.light_turn_off", .ha handleHaLightTurnOff),
   (py "ha.list_automations", .ha handleHaListAutomations),
   (py "ha.check_config", .ha handleHaCheckConfig),
   (py "ha.addon_logs", .ha handleHaAddonLogs),
   (py "ha.list_addons", .ha handleHaListAddons),
   (py "ha.addon_info", .ha handleHaAddonInfo),
   (py "ha.addon_stats", .ha handleHaAddonStats),
   (py "ha.addon_changelog", .ha handleHaAddonChangelog),
   (py "ha.addon_documentation", .ha handleHaAddonDocumentation),
   (py "ha.supervisor_info", .ha handleHaSupervisorInfo),
   (py "ha.addon_start", .ha (handleHaAddonStart denylist)),
   (py "ha.addon_stop", .ha (handleHaAddonStop denylist)),
   (py "ha.addon_restart", .ha (handleHaAddonRestart denylist)),
   (py "ha.addon_update", .ha (handleHaAddonUpdate denylist)),
   (py "ha.update_install", .ha handleHaUpdateInstall),
   (py "ha.config.lovelace", .ha handleHaConfigLovelace),
   (py "ha.config.automation", .ha handleHaConfigAutomation),
   (py "ha.config.script", .ha handleHaConfigScript),
   (py "ha.config.scene", .ha handleHaConfigScene),
   (py "ha.config.helpers", .ha handleHaConfigHelpers),
   (py "ha.config.area_registry", .ha handleHaConfigAreaRegistry),
   (py "ha.config.device_registry", .ha handleHaConfigDeviceRegistry),
   (py "ha.config.entity_registry", .ha handleHaConfigEntityRegistry),
   (py "ha.config.config_entries", .ha handleHaConfigConfigEntries)]

/-- What the node's own commands do: their result, and the state they leave. -/
abbrev NodeCommands (ω : Type) := PyStr → Caller → Dict → UsedIds × ω → Result × (UsedIds × ω)

section
variable [Runtime] {ω : Type}

/-- `dispatch_async` up to the masking of supplied codes: the result, the requests and the state
after the call.  The caller of the call is the current caller while its handler runs. -/
def dispatchUnmasked (env : Environment ω) (node : NodeCommands ω) (denylist : List PyStr)
    (caller : Caller) (command : PyStr) (params : Dict) (s : UsedIds × ω) :
    Result × List (Event Ans) × (UsedIds × ω) :=
  match (registry denylist).lookup command with
  | none => (.error (.other (py "UnknownCommandError")), [], s)
  | some registered =>
    match check caller command params with
    | some refusal => (.ok refusal, [], s)
    | none =>
      match registered with
      | .node => ((node command caller params s).1, [], (node command caller params s).2)
      | .ha handler =>
        Prog.exec (Environment.answer { env with caller := some caller }) (handler params) s

/-- A call with a request in it was let through to a handler that talks to Home Assistant. -/
theorem reached_of_mem {env : Environment ω} {node : NodeCommands ω} {denylist : List PyStr}
    {caller : Caller} {command : PyStr} {params : Dict} {s : UsedIds × ω} {e : Event Ans}
    (he : e ∈ (dispatchUnmasked env node denylist caller command params s).2.1) :
    ∃ handler, (command, .ha handler) ∈ registry denylist ∧
      Passed caller command params ∧
      dispatchUnmasked env node denylist caller command params s =
        Prog.exec (Environment.answer { env with caller := some caller }) (handler params) s := by
  unfold dispatchUnmasked at *
  cases hlookup : (registry denylist).lookup command with
  | none =>
    rw [hlookup] at he
    cases he
  | some registered =>
    rw [hlookup] at he
    cases hcheck : check caller command params with
    | some refusal =>
      rw [hcheck] at he
      cases he
    | none =>
      rw [hcheck] at he
      cases registered with
      | node => cases he
      | ha handler => exact ⟨handler, mem_of_lookup hlookup, passed_of_check hcheck, rfl⟩

end

end HassNode.Dispatcher
