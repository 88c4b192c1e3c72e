import HassNode.Commands.Params

/-!
# Registry filters

The filters of `commands/ha.py` that narrow a registry or a list after it was fetched.
-/

namespace HassNode.Commands

open Py HaClient

def entityRegistryFilters : List PyStr :=
  [py "domain", py "platform", py "area_id", py "device_id"]

def deviceRegistryFilters : List PyStr := [py "area_id", py "config_entry_id"]

/-- `filter_param_error`: the first unknown key or unusable filter. -/
def filterParamError (params : Dict) (names extra : List PyStr) : Option Json :=
  let unknown := sortedStr (params.keys.dedup.filter fun k => k ∉ names ++ extra)
  if unknown ≠ [] then
    some (error "INVALID_PARAM" (py "unknown parameter(s): " ++ joinWith (py ", ") unknown ++
      py "; allowed: " ++ joinWith (py ", ") (sortedStr (names ++ extra).dedup)))
  else
    let unusable := names.find? fun name =>
      match params.get? name with
      | none => false
      | some (.str value) => strip value = []
      | some _ => true
    unusable.map fun name =>
      error "INVALID_PARAM" (name ++ py " must be a non-empty string when supplied")

def filterValue : Option Json → PyStr
  | some (.str value) => strip value
  | _ => []

/-- A filter that is not given passes every entry. -/
def fieldIs (entry : Dict) (field : String) (wanted : PyStr) : Bool :=
  wanted = [] || entry.get? (py field) = some (.str wanted)

/-- `filter_entity_registry`. -/
def filterEntityRegistry (entries : List Json) (params : Dict) : List Json :=
  let domain := filterValue (params.get? (py "domain"))
  let platform := filterValue (params.get? (py "platform"))
  let areaId := filterValue (params.get? (py "area_id"))
  let deviceId := filterValue (params.get? (py "device_id"))
  let pre := if domain ≠ [] then domain ++ py "." else []
  if pre = [] ∧ platform = [] ∧ areaId = [] ∧ deviceId = [] then entries
  else
    entries.filter fun
      | .dict entry =>
        let inDomain := match Dict.get? entry (py "entity_id") with
          | some (.str id) => startsWith id pre
          | _ => false
        (pre = [] || inDomain) && fieldIs entry "platform" platform &&
          fieldIs entry "area_id" areaId && fieldIs entry "device_id" deviceId
      | _ => false

/-- `filter_device_registry`. -/
def filterDeviceRegistry (devices : List Json) (params : Dict) : List Json :=
  let areaId := filterValue (params.get? (py "area_id"))
  let configEntryId := filterValue (params.get? (py "config_entry_id"))
  if areaId = [] ∧ configEntryId = [] then devices
  else
    devices.filter fun
      | .dict device =>
        -- one device can belong to several config entries
        let owned := match Dict.get? device (py "config_entries") with
          | some (.list owning) => owning.contains (.str configEntryId)
          | _ => false
        fieldIs device "area_id" areaId && (configEntryId = [] || owned)
      | _ => false

end HassNode.Commands
