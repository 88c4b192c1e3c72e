import HassNode.Py.Value

/-!
# Callers and the approval table

`caller.py` and `approval_policy.py`: who is invoking a command, and which gated calls that
principal may run with no approval marker.
-/

namespace HassNode

open Py

inductive CallerRole where
  | user | admin | superAdmin | operator
deriving DecidableEq, Repr

/-- Principal for one command invocation. -/
structure Caller where
  role : CallerRole
  actorId : PyStr
  forbidden : List PyStr := []
deriving DecidableEq

namespace ApprovalPolicy

abbrev ActionTable := List (PyStr × List PyStr)

/-- No approval for a verified HA admin or super_admin in a live Assist turn. -/
def userDirected : ActionTable :=
  [(py "ha.config.automation", [py "save"]),
   (py "ha.config.script", [py "save"]),
   (py "ha.config.scene", [py "save"]),
   (py "ha.config.helpers", [py "create", py "update"]),
   (py "ha.config.area_registry", [py "create", py "update"]),
   (py "ha.config.device_registry", [py "update"]),
   (py "ha.config.entity_registry", [py "update"]),
   (py "ha.config.config_entries", [py "enable"]),
   (py "ha.config.lovelace", [py "save", py "resources_create"])]

/-- Add-on lifecycle commands each role may run with no approval from an Assist turn. -/
def lifecycleNoApproval : CallerRole → Option ActionTable
  | .admin => some [(py "ha.addon_start", [py ""]), (py "ha.addon_restart", [py ""])]
  | .superAdmin =>
    some [(py "ha.addon_start", [py ""]), (py "ha.addon_stop", [py ""]),
      (py "ha.addon_restart", [py ""])]
  | .user | .operator => none

def listed (table : ActionTable) (command action : PyStr) : Bool :=
  ((table.lookup command).getD []).contains action

/-- Whether `caller` may run this gated call with no approval marker. -/
def approvalExempt (caller : Option Caller) (command action : PyStr) : Bool :=
  match caller with
  | none => false
  | some c =>
    match lifecycleNoApproval c.role with
    | none => false
    | some table =>
      if c.actorId = py "<anonymous>" then false
      else listed userDirected command action || listed table command action

end ApprovalPolicy

end HassNode
