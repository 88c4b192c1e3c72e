import HassNode.NodeApproval

/-!
# Refusals before a prompt

`node-approval-preflight.ts`, `approval-policy.ts` and `caller-context.ts` of the plugin: which gated
calls are refused without asking a human, which ones an Assist session may make without a prompt, and
which session keys are those of an Assist session.
-/

namespace Js

open Py

/-- The parts of ECMAScript that rest on Unicode tables or on the grammar of JSON. -/
class JsRuntime where
  /-- `String.prototype.toLowerCase`. -/
  lower : JsStr → JsStr
  /-- `String.prototype.toUpperCase`. -/
  upper : JsStr → JsStr
  /-- `JSON.parse`, `none` when it throws. -/
  parse : JsStr → Option JsValue
  /-- The numbers that a reviver of `JSON.parse` is called with, and their source texts. -/
  numbers : JsStr → List (JsStr × Double)

/-- White space and line terminators, the characters of `\s`. -/
def isSpace (u : CodeUnit) : Bool :=
  u.val ∈ [9, 10, 11, 12, 13, 32, 0xA0, 0x1680, 0x2028, 0x2029, 0x202F, 0x205F, 0x3000, 0xFEFF] ||
    (0x2000 ≤ u.val && u.val ≤ 0x200A)

/-- `String.prototype.trim`. -/
def trim (s : JsStr) : JsStr := (s.dropWhile isSpace).rdropWhile isSpace

/-- One code unit as `/i` compares it with an ASCII letter. -/
def foldAscii (u : CodeUnit) : CodeUnit := if 65 ≤ u.val ∧ u.val ≤ 90 then unit (u.val + 32) else u

protected def startsWith (s needle : JsStr) : Bool := needle.isPrefixOf s

def endsWith (s needle : JsStr) : Bool := needle.isSuffixOf s

/-- `String.prototype.includes`. -/
def includes (s needle : JsStr) : Bool := s.tails.any fun t => needle.isPrefixOf t

/-- `keys.sort()`. -/
def sortStrs (keys : List JsStr) : List JsStr := keys.insertionSort fun a b => unitsLe a b

def isAlnum (u : CodeUnit) : Bool :=
  (48 ≤ u.val && u.val ≤ 57) || (65 ≤ u.val && u.val ≤ 90) || (97 ≤ u.val && u.val ≤ 122)

end Js

namespace HassNode.NodeApproval

open Py Js

abbrev ActionTable := List (JsStr × List JsStr)

/-! ## `approval-policy.ts` -/

/-- Always needs approval, for every caller. -/
def destructive : ActionTable :=
  [(js "ha.config.automation", [js "delete"]), (js "ha.config.script", [js "delete"]),
    (js "ha.config.scene", [js "delete"]), (js "ha.config.helpers", [js "delete"]),
    (js "ha.config.area_registry", [js "delete"]), (js "ha.config.entity_registry", [js "remove"]),
    (js "ha.config.config_entries", [js "disable"]), (js "fs.delete", [js ""]),
    (js "fs.move", [js ""]), (js "fs.restore", [js ""]), (js "ha.update_install", [js ""])]

/-- No approval for a verified HA admin or super_admin in a live Assist turn. -/
def userDirected : ActionTable :=
  [(js "ha.config.automation", [js "save"]), (js "ha.config.script", [js "save"]),
    (js "ha.config.scene", [js "save"]), (js "ha.config.helpers", [js "create", js "update"]),
    (js "ha.config.area_registry", [js "create", js "update"]),
    (js "ha.config.device_registry", [js "update"]), (js "ha.config.entity_registry", [js "update"]),
    (js "ha.config.config_entries", [js "enable"]),
    (js "ha.config.lovelace", [js "save", js "resources_create"])]

/-- Add-on lifecycle commands of each Assist role. -/
def lifecycleNoApproval : List ActionTable :=
  [[(js "ha.addon_start", [js ""]), (js "ha.addon_restart", [js ""])],
    [(js "ha.addon_start", [js ""]), (js "ha.addon_stop", [js ""]), (js "ha.addon_restart", [js ""])]]

def listed (table : ActionTable) (command action : JsStr) : Bool :=
  ((table.lookup command).getD []).contains action

/-- `assistSkipsPrompt`. -/
def assistSkipsPrompt (command action : JsStr) : Bool :=
  listed userDirected command action || lifecycleNoApproval.all fun table => listed table command action

/-! ## `caller-context.ts` -/

/-- `CALLER_PARAM`. -/
def callerParam : JsStr := js "_openclaw_caller"

/-- `ha-assist:\S+$`, ignoring case. -/
def assistTail (s : JsStr) : Bool :=
  (s.take 10).map foldAscii = js "ha-assist:" && s.drop 10 ≠ [] && (s.drop 10).all (!isSpace ·)

/-- `/(^|:)ha-assist:\S+$/i`. -/
def isAssistKey (s : JsStr) : Bool :=
  assistTail s || s.tails.any fun t => t.head? = some 58 && assistTail t.tail

/-- `normalizeAssistSessionKey`; `none` stands for `undefined`. -/
def normalizeAssistSessionKey : Option JsValue → Option JsStr
  | some (.str sessionKey) => if isAssistKey (trim sessionKey) then some (trim sessionKey) else none
  | _ => none

/-! ## `approval-preflight.json` -/

/-- The reserved approval field is allowed for every pair. -/
def withApproval (keys : List String) : List JsStr := js "_openclaw_approval" :: keys.map js

def allowedKeys : List (JsStr × List (JsStr × List JsStr)) :=
  [(js "ha.config.automation",
      [(js "save", withApproval ["action", "config", "id", "proposal_id"]),
        (js "delete", withApproval ["action", "id", "proposal_id"])]),
    (js "ha.config.script",
      [(js "save", withApproval ["action", "config", "id", "proposal_id"]),
        (js "delete", withApproval ["action", "id", "proposal_id"])]),
    (js "ha.config.scene",
      [(js "save", withApproval ["action", "config", "id", "proposal_id"]),
        (js "delete", withApproval ["action", "id", "proposal_id"])]),
    (js "ha.config.helpers",
      [(js "create", withApproval ["action", "attrs", "helper_type", "proposal_id"]),
        (js "update", withApproval ["action", "attrs", "helper_type", "proposal_id"]),
        (js "delete", withApproval ["action", "helper_type", "proposal_id"])]),
    (js "ha.config.area_registry",
      [(js "create", withApproval ["action", "attrs", "name", "proposal_id"]),
        (js "update", withApproval ["action", "area_id", "attrs", "proposal_id"]),
        (js "delete", withApproval ["action", "area_id", "proposal_id"])]),
    (js "ha.config.device_registry",
      [(js "update", withApproval ["action", "attrs", "device_id", "proposal_id"])]),
    (js "ha.config.entity_registry",
      [(js "update", withApproval ["action", "attrs", "entity_id", "proposal_id"]),
        (js "remove", withApproval ["action", "entity_id", "proposal_id"])]),
    (js "ha.config.config_entries",
      [(js "disable", withApproval ["action", "entry_id", "proposal_id"]),
        (js "enable", withApproval ["action", "entry_id", "proposal_id"])]),
    (js "ha.config.lovelace",
      [(js "save", withApproval ["action", "config", "proposal_id", "url_path"]),
        (js "resources_create", withApproval ["action", "proposal_id", "res_type", "url"])]),
    (js "ha.reload_config", [(js "", withApproval ["domain"])]),
    (js "ha.update_install", [(js "", withApproval ["backup", "entity_id", "version"])]),
    (js "ha.addon_start", [(js "", withApproval ["slug"])]),
    (js "ha.addon_stop", [(js "", withApproval ["slug"])]),
    (js "ha.addon_restart", [(js "", withApproval ["slug"])]),
    (js "ha.addon_update", [(js "", withApproval ["slug"])]),
    (js "fs.write",
      [(js "", withApproval ["actor", "agent_bridge", "content", "encoding", "path", "proposal_id"])]),
    (js "fs.restore",
      [(js "", withApproval ["actor", "agent_bridge", "at", "path", "proposal_id", "version",
        "version_id"])]),
    (js "fs.patch",
      [(js "", withApproval ["actor", "agent_bridge", "dry_run", "patch", "path", "proposal_id"])]),
    (js "fs.move", [(js "", withApproval ["actor", "agent_bridge", "dst", "proposal_id", "src"])]),
    (js "fs.delete", [(js "", withApproval ["actor", "agent_bridge", "path", "proposal_id"])])]

/-- `dynamic_keys`: the actions, the type key and the key suffix. -/
def dynamicKeys : List (JsStr × List JsStr × JsStr × JsStr) :=
  [(js "ha.config.helpers", [js "update", js "delete"], js "helper_type", js "_id")]

/-- `storage.path_keys`. -/
def storagePathKeys : List (JsStr × List JsStr) :=
  [(js "fs.write", [js "path"]), (js "fs.restore", [js "path"]), (js "fs.patch", [js "path"]),
    (js "fs.delete", [js "path"]), (js "fs.move", [js "src", js "dst"])]

def storageMarker : JsStr := js "/config/.storage/"

def storageSuffix : JsStr := js "/config/.storage"

def storageMessage : JsStr :=
  js "Writes to .storage/ are refused; use the HA REST config API instead"

def addonMaxLength : Nat := 128

def addonCorePrefix : JsStr := js "core_"

def addonDenylist : List JsStr := [js "homeassistant", js "supervisor"]

/-! ## `node-approval-preflight.ts` -/

def lifecycle : List JsStr :=
  [js "ha.addon_start", js "ha.addon_stop", js "ha.addon_restart", js "ha.addon_update"]

/-- `PLAIN_SLUG`. -/
def plainSlug (s : JsStr) : Bool := s.all fun u => isAlnum u || u = 95 || u = 45

/-- `PLAIN_PATH`. -/
def plainPath (s : JsStr) : Bool := s ≠ [] && s.all fun u => 0x21 ≤ u.val && u.val ≤ 0x7E

def isSlugUnit (u : CodeUnit) : Bool := (isAlnum u && !(65 ≤ u.val && u.val ≤ 90)) || u = 95 || u = 45

/-- `SLUG`, the pattern `^[a-z0-9][a-z0-9_-]*$`. -/
def slugPattern : JsStr → Bool
  | [] => false
  | u :: rest => isSlugUnit u && u ≠ 95 && u ≠ 45 && rest.all isSlugUnit

def refusal (code : String) (message : JsStr) : JsStr := js code ++ js ": " ++ message

/-- `addonSlugRefusal`. -/
def addonSlugRefusal : Option JsValue → Option JsStr
  | none => some (refusal "MISSING_PARAM" (js "slug is required"))
  | some (.str slug) =>
    if !plainSlug slug then none
    else if slug = [] then some (refusal "MISSING_PARAM" (js "slug is required"))
    else if addonMaxLength < slug.length ∨ ¬ slugPattern slug then
      some (refusal "INVALID_PARAM" (js "invalid addon slug: '" ++ slug ++ js "'"))
    else if Js.startsWith slug addonCorePrefix then
      some (refusal "PERMISSION_DENIED" (js "addon lifecycle denied for core slug: " ++ slug))
    else if slug ∈ addonDenylist then
      some (refusal "PERMISSION_DENIED" (js "addon lifecycle denied for slug: " ++ slug))
    else none
  | some _ => none

/-- The allowed keys of a pair with the helper's own key, and the suffix that exempts a key when the
helper type cannot be judged. -/
def allowedFor (command action : JsStr) (inner : JsObject) : Option (List JsStr × Option JsStr) :=
  match ((allowedKeys.lookup command).getD []).lookup action with
  | none => none
  | some allowed =>
    match dynamicKeys.lookup command with
    | none => some (allowed, none)
    | some (actions, typeKey, keySuffix) =>
      if action ∉ actions then some (allowed, none)
      else
        match inner.lookup typeKey with
        | some (.str helperType) =>
          if plainSlug helperType then some (allowed ++ [helperType ++ keySuffix], none)
          else some (allowed, some keySuffix)
        | _ => some (allowed, some keySuffix)

/-- The refusal of unknown parameters. -/
def unknownKeysRefusal (command action : JsStr) (inner : JsObject) : Option JsStr :=
  match allowedFor command action inner with
  | none => none
  | some (allowed, exemptSuffix) =>
    let unknown := sortStrs ((inner.map Prod.fst).filter fun key =>
      key ≠ callerParam && !allowed.contains key && !exemptSuffix.any fun suffix => endsWith key suffix)
    if unknown = [] then none
    else some (refusal "INVALID_PARAM" (js "unknown parameter(s): " ++ (js ", ").intercalate unknown ++
      js "; allowed: " ++ (js ", ").intercalate (sortStrs allowed)))

/-- The path of one key leads into `.storage`. -/
def isStoragePath : Option JsValue → Bool
  | some (.str path) => plainPath path && (includes path storageMarker || endsWith path storageSuffix)
  | _ => false

/-- `gatedCallRefusal`. -/
def gatedCallRefusal (command action : JsStr) (inner : JsObject) : Option JsStr :=
  let slugRefusal :=
    if command ∈ lifecycle then addonSlugRefusal (inner.lookup (js "slug")) else none
  let storageRefusal :=
    if ((storagePathKeys.lookup command).getD []).any fun key => isStoragePath (inner.lookup key) then
      some (refusal "STORAGE_READONLY" storageMessage)
    else none
  (slugRefusal.or (unknownKeysRefusal command action inner)).or storageRefusal

end HassNode.NodeApproval
