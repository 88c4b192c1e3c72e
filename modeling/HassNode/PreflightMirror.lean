import HassNode.GatedCall
import HassNode.PreflightKeys

/-!
# The preflight mirrors the node

What `gatedCallRefusal` of the plugin refuses, the node's handler refuses by itself: it sends nothing to
Home Assistant or the Supervisor, touches no file and answers with an error.  And what the node refuses on
static grounds, the plugin refuses too, where it judges the texts on which the grounds rest: a slug or a
helper type is judged when it is made of letters, digits, `_` and `-` only.
-/

namespace HassNode.PreflightMirror

open Py Py.JsonText Js Interaction Commands NodeApproval
open ConfigMutation (UsedIds)

/-- The three grounds of a refusal. -/
theorem gatedCallRefusal_ne_none_iff {command action : JsStr} {inner : JsObject} :
    gatedCallRefusal command action inner ≠ none ↔
      (command ∈ lifecycle ∧ addonSlugRefusal (inner.lookup (js "slug")) ≠ none) ∨
        unknownKeysRefusal command action inner ≠ none ∨
        ∃ key ∈ (storagePathKeys.lookup command).getD [], isStoragePath (inner.lookup key) = true := by
  unfold gatedCallRefusal
  simp only [ne_eq, Option.or_eq_none_iff, not_and_or, or_assoc]
  apply or_congr
  · by_cases hmem : command ∈ lifecycle
    · simp [hmem]
    · simp [hmem]
  · apply or_congr Iff.rfl
    simp

/-! ## The slug policy -/

/-- The slug as the handler reads it. -/
def slugOf [Runtime] (params : Dict) : PyStr := strip (strOf (params.getD (py "slug") (.str [])))

section
open HaLifecycle

/-- The errors of the slug policy. -/
theorem lifecycleSlug_isError [Runtime] {denylist : List PyStr} {params : Dict} {response : Json}
    (h : lifecycleSlug denylist params = .error response) : IsError response := by
  unfold lifecycleSlug at h
  dsimp only at h
  split_ifs at h
  · cases h
    exact isError_error _ _
  · unfold lifecyclePolicyError at h
    split_ifs at h
    · cases h
      exact isError_error _ _
    · cases h
      exact isError_error _ _
  · cases h
    exact isError_error _ _

/-- What the slug policy refuses. -/
theorem lifecycleSlug_error_iff [Runtime] {denylist : List PyStr} {params : Dict} :
    (∃ response, lifecycleSlug denylist params = .error response) ↔
      slugOf params = [] ∨ validAddonSlug (slugOf params) = false ∨
        startsWith (slugOf params) (py "core_") = true ∨
        slugOf params ∈ defaultLifecycleDenylist ++ denylist := by
  unfold lifecycleSlug
  rw [← slugOf]
  dsimp only
  by_cases hempty : slugOf params = []
  · simp [hempty]
  by_cases hvalid : validAddonSlug (slugOf params) = true
  · unfold lifecyclePolicyError
    by_cases hcore : startsWith (slugOf params) (py "core_") = true
    · simp [hempty, hvalid, hcore]
    · by_cases hdenied : slugOf params ∈ defaultLifecycleDenylist ++ denylist
      · simp [hempty, hvalid, hcore, hdenied]
      · simp [hempty, hvalid, hcore, hdenied]
  · simp [hempty, hvalid]

/-- What the plugin refuses of a plain slug. -/
theorem addonSlugRefusal_ne_none_iff {slug : JsStr} (h : plainSlug slug = true) :
    addonSlugRefusal (some (.str slug)) ≠ none ↔
      slug = [] ∨ (addonMaxLength < slug.length ∨ ¬ slugPattern slug = true) ∨
        Js.startsWith slug addonCorePrefix = true ∨ slug ∈ addonDenylist := by
  unfold addonSlugRefusal
  dsimp only
  rw [h, Bool.not_true, if_neg Bool.false_ne_true]
  have hrefused : ∀ {text : JsStr}, some text ≠ none := Option.some_ne_none _
  by_cases hempty : slug = []
  · rw [if_pos hempty]
    exact iff_of_true hrefused (.inl hempty)
  rw [if_neg hempty]
  by_cases hinvalid : addonMaxLength < slug.length ∨ ¬ slugPattern slug = true
  · rw [if_pos hinvalid]
    exact iff_of_true hrefused (.inr (.inl hinvalid))
  rw [if_neg hinvalid]
  by_cases hcore : Js.startsWith slug addonCorePrefix = true
  · rw [if_pos hcore]
    exact iff_of_true hrefused (.inr (.inr (.inl hcore)))
  rw [if_neg hcore]
  by_cases hdenied : slug ∈ addonDenylist
  · rw [if_pos hdenied]
    exact iff_of_true hrefused (.inr (.inr (.inr hdenied)))
  · rw [if_neg hdenied]
    apply iff_of_false (not_not_intro rfl)
    rintro (h | h | h | h)
    · exact hempty h
    · exact hinvalid h
    · exact hcore h
    · exact hdenied h

theorem isSlugUnit_eq (u : CodeUnit) :
    isSlugUnit u = (isSlugChar (point u) || decide (point u = 45)) := by
  have hval : (point u).val = u.val := rfl
  have h95 : (95 : CodeUnit).val = 95 := rfl
  have h45 : (45 : CodeUnit).val = 45 := rfl
  have hpoint95 : (95 : CodePoint).val = 95 := rfl
  have hpoint45 : (45 : CodePoint).val = 45 := rfl
  rw [Bool.eq_iff_iff]
  simp only [isSlugUnit, isAlnum, isSlugChar, Bool.or_eq_true, Bool.and_eq_true, decide_eq_true_eq,
    Bool.not_eq_true', Bool.and_eq_false_iff, decide_eq_false_iff_not, Fin.ext_iff]
  omega

/-- Both sides know the same slugs. -/
theorem validAddonSlug_map {slug : JsStr} (h : plainSlug slug = true) :
    validAddonSlug (slug.map point) = true ↔
      ¬ (addonMaxLength < slug.length ∨ ¬ slugPattern slug = true) := by
  have hline : (slug.map point).getLast? ≠ some 10 := by
    intro hlast
    obtain ⟨u, hu, hpoint⟩ := List.mem_map.mp (List.mem_of_getLast? hlast)
    have hspace := (plainSlug_lt h u hu).2
    rw [hpoint] at hspace
    exact absurd hspace (by decide)
  have hclass : (fun c => isSlugChar c || decide (c = 45)) ∘ point = isSlugUnit := by
    funext u
    exact (isSlugUnit_eq u).symm
  have hword : (slug.map point).all (fun c => isSlugChar c || decide (c = 45)) = slug.all isSlugUnit := by
    rw [List.all_map, hclass]
  unfold validAddonSlug matchesClass
  rw [if_neg hline]
  dsimp only
  rw [hword, List.length_map]
  cases slug with
  | nil => simp [slugPattern]
  | cons u rest =>
    have h95 : point u = 95 ↔ u = 95 := point_injective.eq_iff (b := 95)
    have h45 : point u = 45 ↔ u = 45 := point_injective.eq_iff (b := 45)
    simp only [slugPattern, addonMaxLength, List.map_cons, List.head?_cons, Option.any_some,
      List.all_cons, Bool.and_eq_true, decide_eq_true_eq, ne_eq, reduceCtorEq, not_false_eq_true,
      true_and, not_or, not_lt, not_not, h95, h45]
    constructor
    · rintro ⟨⟨hlength, hu, hrest⟩, hne95, hne45⟩
      exact ⟨hlength, ⟨⟨hu, hne95⟩, hne45⟩, hrest⟩
    · rintro ⟨hlength, ⟨⟨hu, hne95⟩, hne45⟩, hrest⟩
      exact ⟨⟨hlength, hu, hrest⟩, hne95, hne45⟩

section
variable [Runtime] {inner : JsObject} {params : Dict} {slug : JsStr}

theorem slugOf_absent (hparams : Delivered inner params) (h : inner.lookup (js "slug") = none) :
    slugOf params = [] := by
  have hslug := hparams.get? "slug" (by decide) (by decide)
  rw [h, Option.map_none] at hslug
  rw [slugOf, Dict.getD, hslug]
  rfl

theorem slugOf_plain (hparams : Delivered inner params) (h : inner.lookup (js "slug") = some (.str slug))
    (hplain : plainSlug slug = true) : slugOf params = slug.map point := by
  have hslug := hparams.get? "slug" (by decide) (by decide)
  rw [h, Option.map_some, received] at hslug
  have hstrip := strip_plainSlug hplain
  calc slugOf params
      = strip (decode slug) := by
        rw [slugOf, Dict.getD, hslug]
        rfl
    _ = slug.map point := hstrip.2.trans hstrip.1

/-- The node refuses a plain slug where the plugin does, or the operator denies it. -/
theorem lifecycleSlug_plain_iff {denylist : List PyStr} (hparams : Delivered inner params)
    (h : inner.lookup (js "slug") = some (.str slug)) (hplain : plainSlug slug = true) :
    (∃ response, lifecycleSlug denylist params = .error response) ↔
      addonSlugRefusal (some (.str slug)) ≠ none ∨ slug.map point ∈ denylist := by
  have hcore : py "core_" = addonCorePrefix.map point := by decide
  have hdefault : defaultLifecycleDenylist = addonDenylist.map (List.map point) := by decide
  rw [lifecycleSlug_error_iff, slugOf_plain hparams h hplain, addonSlugRefusal_ne_none_iff hplain,
    List.map_eq_nil_iff, hcore, startsWith_map, List.mem_append, hdefault,
    List.mem_map_of_injective point_injective.list_map, ← Bool.not_eq_true, validAddonSlug_map hplain,
    not_not]
  simp only [or_assoc]

/-- The slugs that the plugin refuses the node refuses. -/
theorem lifecycleSlug_of_refusal (denylist : List PyStr) (hparams : Delivered inner params)
    (h : addonSlugRefusal (inner.lookup (js "slug")) ≠ none) :
    ∃ response, lifecycleSlug denylist params = .error response := by
  cases hslug : inner.lookup (js "slug") with
  | none => exact lifecycleSlug_error_iff.mpr (.inl (slugOf_absent hparams hslug))
  | some value =>
    rw [hslug] at h
    cases value with
    | str slug =>
      by_cases hplain : plainSlug slug = true
      · exact (lifecycleSlug_plain_iff hparams hslug hplain).mpr (.inl h)
      · exact absurd (by simp [addonSlugRefusal, hplain]) h
    | _ => exact absurd rfl h

end

end

/-! ## Paths -/

/-- A text of printable ASCII without spaces. -/
def printable (s : JsStr) : Bool := s.all fun u => 0x21 ≤ u.val && u.val ≤ 0x7E

theorem isStoragePath_iff {path : JsStr} : isStoragePath (some (.str path)) = true ↔
    printable path = true ∧ (includes path storageMarker || Js.endsWith path storageSuffix) = true := by
  have hnonempty : (includes path storageMarker || Js.endsWith path storageSuffix) = true → path ≠ [] := by
    rintro h rfl
    exact absurd h (by decide)
  show (decide (path ≠ []) && printable path && (includes path storageMarker ||
    Js.endsWith path storageSuffix)) = true ↔ _
  rw [Bool.and_eq_true, Bool.and_eq_true, decide_eq_true_eq, and_assoc]
  exact ⟨fun h => h.2, fun h => ⟨hnonempty h.2, h⟩⟩

theorem decode_printable {path : JsStr} (h : printable path = true) : decode path = path.map point := by
  apply decode_eq_map
  intro u hu
  have hrange := List.all_eq_true.mp h u hu
  simp only [Bool.and_eq_true, decide_eq_true_eq] at hrange
  omega

/-- Both sides know the same paths in `.storage`. -/
theorem isStorage_printable {path : JsStr} (h : printable path = true) :
    FsMutations.isStorage (decode path) =
      (includes path storageMarker || Js.endsWith path storageSuffix) := by
  have hmarker : py "/config/.storage/" = storageMarker.map point := by decide
  have hsuffix : py "/config/.storage" = storageSuffix.map point := by decide
  rw [FsMutations.isStorage, decode_printable h, hmarker, hsuffix, hasSubstr_map, endsWith_map]

section
variable [Runtime] {inner : JsObject} {params : Dict}

theorem textOr_given (hparams : Delivered inner params) {name : String} {path : JsStr}
    (happroval : name ≠ "_openclaw_approval") (hcaller : name ≠ "_openclaw_caller")
    (h : inner.lookup (js name) = some (.str path)) (default : String) :
    FsMutations.textOr params name default = decode path := by
  have hpath := hparams.get? name happroval hcaller
  rw [h, Option.map_some, received] at hpath
  rw [FsMutations.textOr, Dict.getD, hpath]
  rfl

theorem textOr_absent (hparams : Delivered inner params) {name : String}
    (happroval : name ≠ "_openclaw_approval") (hcaller : name ≠ "_openclaw_caller")
    (h : inner.lookup (js name) = none) (default : String) :
    FsMutations.textOr params name default = py default := by
  have hpath := hparams.get? name happroval hcaller
  rw [h, Option.map_none] at hpath
  rw [FsMutations.textOr, Dict.getD, hpath]
  rfl

/-- A path that the plugin refuses the node refuses. -/
theorem isStorage_of_refusal (hparams : Delivered inner params) {name : String}
    (happroval : name ≠ "_openclaw_approval") (hcaller : name ≠ "_openclaw_caller")
    (h : isStoragePath (inner.lookup (js name)) = true) :
    FsMutations.isStorage (FsMutations.textOr params name "") = true := by
  cases hpath : inner.lookup (js name) with
  | none =>
    rw [hpath] at h
    exact absurd h Bool.false_ne_true
  | some value =>
    rw [hpath] at h
    cases value with
    | str path =>
      obtain ⟨hplain, hstorage⟩ := isStoragePath_iff.mp h
      rw [textOr_given hparams happroval hcaller hpath, isStorage_printable hplain, hstorage]
    | _ => exact absurd h Bool.false_ne_true

/-- A path without spaces that the node refuses the plugin refuses. -/
theorem refusal_of_isStorage (hparams : Delivered inner params) {name : String}
    (happroval : name ≠ "_openclaw_approval") (hcaller : name ≠ "_openclaw_caller")
    (hplain : inner.lookup (js name) = none ∨
      ∃ path, inner.lookup (js name) = some (.str path) ∧ printable path = true)
    (h : FsMutations.isStorage (FsMutations.textOr params name "") = true) :
    isStoragePath (inner.lookup (js name)) = true := by
  rcases hplain with habsent | ⟨path, hpath, hplain⟩
  · rw [textOr_absent hparams happroval hcaller habsent] at h
    exact absurd h (by decide)
  · rw [textOr_given hparams happroval hcaller hpath, isStorage_printable hplain] at h
    rw [hpath]
    exact isStoragePath_iff.mpr ⟨hplain, h⟩

end

/-! ## The commands -/

/-- Where there is no slug and no path, a refusal names unknown keys. -/
theorem refusal_iff_unknown {command action : JsStr} {inner : JsObject} (hlifecycle : command ∉ lifecycle)
    (hpaths : storagePathKeys.lookup command = none) :
    gatedCallRefusal command action inner ≠ none ↔ unknownKeysRefusal command action inner ≠ none := by
  rw [gatedCallRefusal_ne_none_iff, hpaths]
  simp [hlifecycle]

/-- A gated pair does not list. -/
theorem strippedAction_ne_list {command : JsStr} {inner : JsObject}
    {params : Dict} {actions : List PyStr} (hparams : Delivered inner params)
    (hgated : needsApproval command (actionOf inner) = true)
    (hslug : ∀ action ∈ actions, action ≠ [] ∧ action.all isSlugChar = true)
    (hmem : py "list" ∈ actions) (hlist : needsApproval command (js "list") = false) :
    strippedAction params ≠ py "list" := by
  intro heq
  have hstripped := strippedAction_eq hparams hgated hslug (heq ▸ hmem)
  rw [heq, ← decode_js "list"] at hstripped
  rw [← decode_injective hstripped, hlist] at hgated
  cases hgated

/-- The slug, the paths and the helper type are texts that the plugin judges. -/
structure Judged (command action : JsStr) (inner : JsObject) : Prop where
  slug : command ∈ lifecycle → inner.lookup (js "slug") = none ∨
    ∃ slug, inner.lookup (js "slug") = some (.str slug) ∧ plainSlug slug = true
  path : ∀ key ∈ (storagePathKeys.lookup command).getD [], inner.lookup key = none ∨
    ∃ path, inner.lookup key = some (.str path) ∧ printable path = true
  helperType : command = js "ha.config.helpers" → action ∈ [js "update", js "delete"] →
    ∃ helperType, inner.lookup (js "helper_type") = some (.str helperType) ∧
      plainSlug helperType = true

section
variable [Runtime]

/-- `fs.patch` encodes the text of its patch before it judges the path. -/
def PatchRaises (command : JsStr) (params : Dict) : Prop :=
  command = js "fs.patch" ∧ encodeUtf8 (FsMutations.textOr params "patch" "") = none

/-- The handler of a command refuses what the plugin refuses, and the plugin what the handler refuses
on static grounds. -/
structure Mirrored (command action : JsStr) (inner : JsObject) (params : Dict)
    (handler : List PyStr → NodeHandler) : Prop where
  refuses : ∀ denylist, gatedCallRefusal command action inner ≠ none →
    (handler denylist).Refuses (PatchRaises command params) params
  quiet : Judged command action inner →
    (handler []).Quiet (gatedCallRefusal command action inner ≠ none) params

variable {command : JsStr} {inner : JsObject} {params : Dict}

/-! ### The configuration commands -/

section
open HaConfig

/-- A handler behind the prologue: its keys are checked once its action is known. -/
theorem mirrored_withAction {actions nullable : List PyStr} {keysOf : PyStr → List PyStr}
    {run : PyStr → HaClient.Program} {handler : HaClient.Handler}
    (hhandler : handler params = withAction actions keysOf nullable params run)
    (hlifecycle : command ∉ lifecycle) (hpaths : storagePathKeys.lookup command = none)
    (haction : strippedAction params ∈ actions → strippedAction params = decode (actionOf inner))
    (hrefused : unknownKeysRefusal command (actionOf inner) inner ≠ none →
      ∃ key ∈ params.keys, key ∉ keysOf (decode (actionOf inner)))
    (hunknown : Judged command (actionOf inner) inner →
      (∃ key ∈ params.keys, key ∉ keysOf (decode (actionOf inner))) →
      unknownKeysRefusal command (actionOf inner) inner ≠ none)
    (hquiet : Judged command (actionOf inner) inner → ∀ {T : Prop}, (strippedAction params ∈ actions →
      (∃ key ∈ params.keys, key ∉ keysOf (strippedAction params)) → T) → Quiet T (handler params)) :
    Mirrored command (actionOf inner) inner params fun _ => .ha handler := by
  have hiff : gatedCallRefusal command (actionOf inner) inner ≠ none ↔
      unknownKeysRefusal command (actionOf inner) inner ≠ none :=
    refusal_iff_unknown hlifecycle hpaths
  constructor
  · intro denylist h
    show ∃ response, handler params = _ ∧ _
    rw [hhandler]
    apply withAction_refuses
    intro hmem
    rw [haction hmem]
    exact hrefused (hiff.mp h)
  · intro hjudged
    apply hquiet hjudged
    intro hmem hkeys
    rw [haction hmem] at hkeys
    exact hiff.mpr (hunknown hjudged hkeys)

/-- A command with a table of keys, none of them named after a param, and without a path or a slug. -/
def keyedBy (command : JsStr) (table : List (PyStr × List PyStr)) : Bool :=
  command ∉ lifecycle && storagePathKeys.lookup command = none && dynamicKeys.lookup command = none &&
    flatKeys.lookup (decode command) = none && actionTables.lookup (decode command) = some table

theorem mirrored_table {actions nullable : List PyStr} {table : List (PyStr × List PyStr)}
    {run : PyStr → HaClient.Program} {handler : HaClient.Handler} (hparams : Delivered inner params)
    (hgated : needsApproval command (actionOf inner) = true)
    (hhandler : handler params = withAction actions (keysIn table) nullable params run)
    (hcommand : keyedBy command table = true)
    (hslug : ∀ action ∈ actions, action ≠ [] ∧ action.all isSlugChar = true)
    (hquiet : ∀ {T : Prop}, (strippedAction params ∈ actions →
      (∃ key ∈ params.keys, key ∉ keysIn table (strippedAction params)) → T) → Quiet T (handler params)) :
    Mirrored command (actionOf inner) inner params fun _ => .ha handler := by
  simp only [keyedBy, Bool.and_eq_true, decide_eq_true_eq] at hcommand
  obtain ⟨⟨⟨⟨hlifecycle, hpaths⟩, hdynamic⟩, hflat⟩, htable⟩ := hcommand
  have hiff := unknown_iff hparams hgated (.inl hdynamic)
  rw [nodeKeys_actions hflat htable] at hiff
  exact mirrored_withAction hhandler hlifecycle hpaths (strippedAction_eq hparams hgated hslug)
    hiff.mp (fun _ => hiff.mpr) fun _ => hquiet

theorem mirrored_rest {name : String} (kind : PyStr) (hparams : Delivered inner params)
    (hgated : needsApproval (js name) (actionOf inner) = true)
    (hname : name ∈ ["ha.config.automation", "ha.config.script", "ha.config.scene"]) :
    Mirrored (js name) (actionOf inner) inner params fun _ => .ha (handleRest (py name) kind) := by
  have hkeyed : ∀ name ∈ ["ha.config.automation", "ha.config.script", "ha.config.scene"],
      keyedBy (js name) restActionKeys = true := by
    simp [keyedBy, lifecycle, storagePathKeys, dynamicKeys, flatKeys, actionTables, decode_js]
  exact mirrored_table hparams hgated rfl (hkeyed name hname) (by decide) (quiet_rest _ _)

theorem mirrored_areaRegistry (hparams : Delivered inner params)
    (hgated : needsApproval (js "ha.config.area_registry") (actionOf inner) = true) :
    Mirrored (js "ha.config.area_registry") (actionOf inner) inner params
      fun _ => .ha handleHaConfigAreaRegistry :=
  mirrored_table hparams hgated rfl
    (by simp [keyedBy, lifecycle, storagePathKeys, dynamicKeys, flatKeys, actionTables, decode_js])
    (by decide) quiet_areaRegistry

theorem mirrored_deviceRegistry (hparams : Delivered inner params)
    (hgated : needsApproval (js "ha.config.device_registry") (actionOf inner) = true) :
    Mirrored (js "ha.config.device_registry") (actionOf inner) inner params
      fun _ => .ha handleHaConfigDeviceRegistry := by
  have hslug : ∀ action ∈ DeviceRegistry.actions, action ≠ [] ∧ action.all isSlugChar = true := by
    decide
  exact mirrored_table hparams hgated rfl
    (by simp [keyedBy, lifecycle, storagePathKeys, dynamicKeys, flatKeys, actionTables, decode_js])
    hslug (quiet_deviceRegistry (strippedAction_ne_list hparams hgated hslug (.head _)
      (by simp [needsApproval, listed, approvalGated])))

theorem mirrored_entityRegistry (hparams : Delivered inner params)
    (hgated : needsApproval (js "ha.config.entity_registry") (actionOf inner) = true) :
    Mirrored (js "ha.config.entity_registry") (actionOf inner) inner params
      fun _ => .ha handleHaConfigEntityRegistry := by
  have hslug : ∀ action ∈ EntityRegistry.actions, action ≠ [] ∧ action.all isSlugChar = true := by
    decide
  exact mirrored_table hparams hgated rfl
    (by simp [keyedBy, lifecycle, storagePathKeys, dynamicKeys, flatKeys, actionTables, decode_js])
    hslug (quiet_entityRegistry (strippedAction_ne_list hparams hgated hslug (.head _)
      (by simp [needsApproval, listed, approvalGated])))

theorem mirrored_configEntries (hparams : Delivered inner params)
    (hgated : needsApproval (js "ha.config.config_entries") (actionOf inner) = true) :
    Mirrored (js "ha.config.config_entries") (actionOf inner) inner params
      fun _ => .ha handleHaConfigConfigEntries :=
  mirrored_table hparams hgated rfl
    (by simp [keyedBy, lifecycle, storagePathKeys, dynamicKeys, flatKeys, actionTables, decode_js])
    (by decide) quiet_configEntries

theorem mirrored_lovelace (hparams : Delivered inner params)
    (hgated : needsApproval (js "ha.config.lovelace") (actionOf inner) = true) :
    Mirrored (js "ha.config.lovelace") (actionOf inner) inner params
      fun _ => .ha handleHaConfigLovelace :=
  mirrored_table hparams hgated rfl
    (by simp [keyedBy, lifecycle, storagePathKeys, dynamicKeys, flatKeys, actionTables, decode_js])
    (by decide) quiet_lovelace

omit [Runtime] in
theorem plainName_itemKey {helperType : JsStr} (h : plainSlug helperType = true) :
    plainName (Helpers.itemKey (strip (decode helperType))) = true := by
  have hkey := strip_plainSlug h
  rw [hkey.2, hkey.1, Helpers.itemKey]
  have hne : ∀ {name : PyStr}, ¬ py "_id" <:+ name → helperType.map point ++ py "_id" ≠ name := by
    rintro name hnot rfl
    exact hnot (List.suffix_append _ _)
  simp only [plainName, Bool.and_eq_true, decide_eq_true_eq, List.all_append]
  refine ⟨⟨⟨?_, by decide⟩, hne (by decide)⟩, hne (by decide)⟩
  rw [List.all_map, List.all_eq_true]
  intro u hu
  apply decide_eq_true
  intro hspace
  have hnot := (plainSlug_lt h u hu).2
  rw [hspace] at hnot
  exact absurd hnot (by decide)

omit [Runtime] in
/-- The names of the params of a plain helper are plain. -/
theorem plainName_helper {action : JsStr} (hparams : Delivered inner params)
    (hplain : action ∈ [js "update", js "delete"] →
      ∃ helperType, inner.lookup (js "helper_type") = some (.str helperType) ∧
        plainSlug helperType = true)
    (hknown : decode action ∈ Helpers.actions) :
    ∀ name ∈ Helpers.allowedKeys params (decode action), plainName name = true := by
  have htable : ∀ action ∈ Helpers.actions, ∀ name ∈ keysIn Helpers.actionKeys action,
      plainName name = true := by
    decide
  intro name hname
  by_cases hmem : action ∈ [js "update", js "delete"]
  · obtain ⟨helperType, hhelper, htext⟩ := hplain hmem
    have htype := get?_helperType hparams
    rw [hhelper, Option.map_some, received] at htype
    unfold Helpers.allowedKeys at hname
    simp only [htype, if_pos (mem_dynamic_iff.mpr hmem), List.mem_insert_iff] at hname
    rcases hname with rfl | hname
    · exact plainName_itemKey htext
    · exact htable _ hknown name hname
  · rw [helperKeys_static hmem, nodeKeys_helpers] at hname
    exact htable _ hknown name hname

theorem mirrored_helpers (hparams : Delivered inner params)
    (hgated : needsApproval (js "ha.config.helpers") (actionOf inner) = true) :
    Mirrored (js "ha.config.helpers") (actionOf inner) inner params
      fun _ => .ha handleHaConfigHelpers := by
  have haction := strippedAction_eq hparams hgated
    (show ∀ action ∈ Helpers.actions, action ≠ [] ∧ action.all isSlugChar = true by decide)
  apply mirrored_withAction rfl (by simp [lifecycle]) (by simp [storagePathKeys]) haction
  · exact helper_unknown hparams hgated
  · intro hjudged
    exact helper_refusal hparams hgated (hjudged.helperType rfl)
  · intro hjudged T hT
    apply quiet_helpers _ hT
    intro hmem
    rw [haction hmem]
    exact plainName_helper hparams (hjudged.helperType rfl) (haction hmem ▸ hmem)

end

/-! ### The commands of `ha.py` -/

section
open HaLifecycle

/-- A handler that checks its keys first. -/
theorem mirrored_flat {keys : List PyStr} {handler : HaClient.Handler} (hparams : Delivered inner params)
    (hgated : needsApproval command (actionOf inner) = true)
    (hcommand : command ∉ lifecycle ∧ storagePathKeys.lookup command = none ∧
      dynamicKeys.lookup command = none ∧ flatKeys.lookup (decode command) = some keys)
    (hchecks : ∀ invalid, strictKeysError params keys [] = some invalid →
      handler params = HaClient.respond invalid)
    (hquiet : ∀ {T : Prop}, ((∃ key ∈ params.keys, key ∉ keys) → T) → Quiet T (handler params)) :
    Mirrored command (actionOf inner) inner params fun _ => .ha handler := by
  obtain ⟨hlifecycle, hpaths, hdynamic, hflat⟩ := hcommand
  have hunknown := unknown_iff hparams hgated (.inl hdynamic)
  rw [nodeKeys_flat hflat] at hunknown
  have hiff := (refusal_iff_unknown hlifecycle hpaths).trans hunknown
  constructor
  · intro denylist h
    obtain ⟨key, hkey, hnot⟩ := hiff.mp h
    obtain ⟨invalid, hinvalid, herror⟩ := strictKeysError_unknown [] hkey hnot
    exact ⟨invalid, hchecks invalid hinvalid, herror⟩
  · exact fun _ => hquiet hiff.mpr

theorem mirrored_reloadConfig (hparams : Delivered inner params)
    (hgated : needsApproval (js "ha.reload_config") (actionOf inner) = true) :
    Mirrored (js "ha.reload_config") (actionOf inner) inner params
      fun _ => .ha handleHaReloadConfig := by
  apply mirrored_flat hparams hgated
    (by simp [lifecycle, storagePathKeys, dynamicKeys, flatKeys, decode_js]) _ quiet_reloadConfig
  intro invalid hinvalid
  unfold handleHaReloadConfig
  rw [hinvalid]

theorem mirrored_updateInstall (hparams : Delivered inner params)
    (hgated : needsApproval (js "ha.update_install") (actionOf inner) = true) :
    Mirrored (js "ha.update_install") (actionOf inner) inner params
      fun _ => .ha handleHaUpdateInstall := by
  apply mirrored_flat hparams hgated
    (by simp [lifecycle, storagePathKeys, dynamicKeys, flatKeys, decode_js]) _ quiet_updateInstall
  intro invalid hinvalid
  unfold handleHaUpdateInstall
  rw [hinvalid]

/-- The slug policy comes before the keys on both sides. -/
theorem mirrored_lifecycle {name : String} (action : PyStr) (desired : Option PyStr)
    (hparams : Delivered inner params) (hgated : needsApproval (js name) (actionOf inner) = true)
    (hcommand : js name ∈ lifecycle) : Mirrored (js name) (actionOf inner) inner params
      fun denylist => .ha (handleAddonLifecycle (py name) action desired denylist) := by
  have htables : ∀ command ∈ lifecycle, storagePathKeys.lookup command = none ∧
      dynamicKeys.lookup command = none ∧ flatKeys.lookup (decode command) = some lifecycleKeys := by
    simp [lifecycle, storagePathKeys, dynamicKeys, flatKeys, decode_js]
  obtain ⟨hpaths, hdynamic, hflat⟩ := htables _ hcommand
  have hunknown := unknown_iff hparams hgated (.inl hdynamic)
  rw [nodeKeys_flat hflat] at hunknown
  have hiff : gatedCallRefusal (js name) (actionOf inner) inner ≠ none ↔
      addonSlugRefusal (inner.lookup (js "slug")) ≠ none ∨ ∃ key ∈ params.keys, key ∉ lifecycleKeys := by
    rw [gatedCallRefusal_ne_none_iff, hunknown, hpaths]
    simp [hcommand]
  constructor
  · intro denylist h
    show ∃ response, handleAddonLifecycle _ _ _ _ _ = _ ∧ _
    unfold handleAddonLifecycle
    cases hslug : lifecycleSlug denylist params with
    | error response => exact ⟨response, rfl, lifecycleSlug_isError hslug⟩
    | ok slug =>
      rcases hiff.mp h with hrefused | ⟨key, hkey, hnot⟩
      · obtain ⟨response, hresponse⟩ := lifecycleSlug_of_refusal denylist hparams hrefused
        rw [hslug] at hresponse
        cases hresponse
      · obtain ⟨invalid, hinvalid, herror⟩ := strictKeysError_unknown [] hkey hnot
        refine ⟨invalid, ?_, herror⟩
        simp only [HaClient.orReturn, hinvalid]
  · intro hjudged
    apply quiet_lifecycle
    · intro hrefused
      apply hiff.mpr
      left
      rcases hjudged.slug hcommand with habsent | ⟨slug, hslug, hplain⟩
      · rw [habsent]
        exact Option.some_ne_none _
      · rw [hslug]
        rcases (lifecycleSlug_plain_iff hparams hslug hplain).mp hrefused with h | hdenied
        · exact h
        · cases hdenied
    · exact fun hkeys => hiff.mpr (.inr hkeys)

end

/-! ### The commands on files -/

/-- A handler that checks its keys first and then that no path leads into `.storage`. -/
theorem mirrored_file {keys : List PyStr} (names : List String) {handler : FsMutations.Handler}
    {k : FsMutations.Program} (hparams : Delivered inner params)
    (hgated : needsApproval command (actionOf inner) = true)
    (hcommand : command ∉ lifecycle ∧ storagePathKeys.lookup command = some (names.map js) ∧
      dynamicKeys.lookup command = none ∧ flatKeys.lookup (decode command) = some keys)
    (hnames : ∀ name ∈ names, name ≠ "_openclaw_approval" ∧ name ≠ "_openclaw_caller")
    (hhandler : handler params = FsMutations.withKeys keys params k)
    (hstorage : (∃ name ∈ names, FsMutations.isStorage (FsMutations.textOr params name "") = true) →
      Refuses (PatchRaises command params) (handler params))
    (hquiet : ∀ {T : Prop}, ((∃ key ∈ params.keys, key ∉ keys) → T) →
      (∀ name ∈ names, FsMutations.isStorage (FsMutations.textOr params name "") = true → T) →
      FileQuiet T (handler params)) :
    Mirrored command (actionOf inner) inner params fun _ => .file handler := by
  obtain ⟨hlifecycle, hpaths, hdynamic, hflat⟩ := hcommand
  have hunknown := unknown_iff hparams hgated (.inl hdynamic)
  rw [nodeKeys_flat hflat] at hunknown
  have hiff : gatedCallRefusal command (actionOf inner) inner ≠ none ↔
      (∃ key ∈ params.keys, key ∉ keys) ∨
        ∃ name ∈ names, isStoragePath (inner.lookup (js name)) = true := by
    rw [gatedCallRefusal_ne_none_iff, hunknown, hpaths]
    simp [hlifecycle]
  constructor
  · intro denylist h
    rcases hiff.mp h with ⟨key, hkey, hnot⟩ | ⟨name, hname, hpath⟩
    · show Refuses _ (handler params)
      rw [hhandler]
      exact refuses_unknown hkey hnot k
    · have hreserved := hnames name hname
      exact hstorage ⟨name, hname, isStorage_of_refusal hparams hreserved.1 hreserved.2 hpath⟩
  · intro hjudged
    apply hquiet
    · exact fun hkeys => hiff.mpr (.inl hkeys)
    · intro name hname hrefused
      have hreserved := hnames name hname
      have hplain := hjudged.path (js name) (by
        rw [hpaths]
        exact List.mem_map_of_mem hname)
      exact hiff.mpr (.inr ⟨name, hname,
        refusal_of_isStorage hparams hreserved.1 hreserved.2 hplain hrefused⟩)

section
open FsMutations

theorem mirrored_restore (hparams : Delivered inner params)
    (hgated : needsApproval (js "fs.restore") (actionOf inner) = true) :
    Mirrored (js "fs.restore") (actionOf inner) inner params fun _ => .file handleFsRestore := by
  apply mirrored_file ["path"] hparams hgated
    (by simp [lifecycle, storagePathKeys, dynamicKeys, flatKeys, decode_js]) (by decide) rfl
  · rintro ⟨_, hname, hstorage⟩
    rw [List.mem_singleton.mp hname] at hstorage
    exact refuses_restore hstorage
  · intro T hkeys hstorage
    exact fileQuiet_restore hkeys (hstorage "path" (.head _))

theorem mirrored_delete (hparams : Delivered inner params)
    (hgated : needsApproval (js "fs.delete") (actionOf inner) = true) :
    Mirrored (js "fs.delete") (actionOf inner) inner params fun _ => .file handleFsDelete := by
  apply mirrored_file ["path"] hparams hgated
    (by simp [lifecycle, storagePathKeys, dynamicKeys, flatKeys, decode_js]) (by decide) rfl
  · rintro ⟨_, hname, hstorage⟩
    rw [List.mem_singleton.mp hname] at hstorage
    exact refuses_delete hstorage
  · intro T hkeys hstorage
    exact fileQuiet_delete hkeys (hstorage "path" (.head _))

theorem mirrored_move (hparams : Delivered inner params)
    (hgated : needsApproval (js "fs.move") (actionOf inner) = true) :
    Mirrored (js "fs.move") (actionOf inner) inner params fun _ => .file handleFsMove := by
  apply mirrored_file ["src", "dst"] hparams hgated
    (by simp [lifecycle, storagePathKeys, dynamicKeys, flatKeys, decode_js]) (by decide) rfl
  · rintro ⟨_, hname, hstorage⟩
    rcases List.mem_pair.mp hname with rfl | rfl
    · exact refuses_move (.inl hstorage)
    · exact refuses_move (.inr hstorage)
  · intro T hkeys hstorage
    exact fileQuiet_move hkeys (hstorage "src" (.head _)) (hstorage "dst" (.tail _ (.head _)))

variable [BackupStore.Digest]

theorem mirrored_write (hparams : Delivered inner params)
    (hgated : needsApproval (js "fs.write") (actionOf inner) = true) :
    Mirrored (js "fs.write") (actionOf inner) inner params fun _ => .file handleFsWrite := by
  apply mirrored_file ["path"] hparams hgated
    (by simp [lifecycle, storagePathKeys, dynamicKeys, flatKeys, decode_js]) (by decide) rfl
  · rintro ⟨_, hname, hstorage⟩
    rw [List.mem_singleton.mp hname] at hstorage
    exact refuses_write hstorage
  · intro T hkeys hstorage
    exact fileQuiet_write hkeys (hstorage "path" (.head _))

theorem mirrored_patch (hparams : Delivered inner params)
    (hgated : needsApproval (js "fs.patch") (actionOf inner) = true) :
    Mirrored (js "fs.patch") (actionOf inner) inner params fun _ => .file handleFsPatch := by
  apply mirrored_file ["path"] hparams hgated
    (by simp [lifecycle, storagePathKeys, dynamicKeys, flatKeys, decode_js]) (by decide) rfl
  · rintro ⟨_, hname, hstorage⟩
    rw [List.mem_singleton.mp hname] at hstorage
    exact refuses_patch (fun hencode => ⟨rfl, hencode⟩) hstorage
  · intro T hkeys hstorage
    exact fileQuiet_patch hkeys (hstorage "path" (.head _))

/-! ## The mirror -/

theorem handlerOf_ha {denylist : List PyStr} {name : String} {handler : HaClient.Handler}
    (hfile : fileHandlers.lookup (py name) = none)
    (hha : (Dispatcher.registry denylist).lookup (py name) = some (.ha handler)) :
    handlerOf denylist (decode (js name)) = some (.ha handler) := by
  rw [handlerOf, decode_js, hfile, hha]

theorem handlerOf_file {denylist : List PyStr} {name : String} {handler : FsMutations.Handler}
    (hfile : fileHandlers.lookup (py name) = some handler)
    (hnode : (Dispatcher.registry denylist).lookup (py name) = some .node) :
    handlerOf denylist (decode (js name)) = some (.file handler) := by
  rw [handlerOf, decode_js, hfile, hnode]

/-- Every gated pair has a handler, and it is mirrored. -/
theorem exists_mirrored (hparams : Delivered inner params)
    (hgated : needsApproval command (actionOf inner) = true) :
    ∃ handler, (∀ denylist, handlerOf denylist (decode command) = some (handler denylist)) ∧
      Mirrored command (actionOf inner) inner params handler := by
  have hmem : command ∈ approvalGated.map Prod.fst := by
    unfold needsApproval listed at hgated
    cases hlookup : approvalGated.lookup command with
    | none =>
      rw [hlookup] at hgated
      cases hgated
    | some actions => exact List.mem_map_of_mem (mem_of_lookup hlookup)
  simp only [approvalGated, List.map_cons, List.map_nil, List.mem_cons, List.not_mem_nil, or_false]
    at hmem
  rcases hmem with rfl | rfl | rfl | rfl | rfl | rfl | rfl | rfl | rfl | rfl | rfl | rfl | rfl | rfl |
    rfl | rfl | rfl | rfl | rfl | rfl
  · exact ⟨_, fun _ => handlerOf_ha (by simp [fileHandlers]) (by simp [Dispatcher.registry]; rfl),
      mirrored_rest (py "automation") hparams hgated (by simp)⟩
  · exact ⟨_, fun _ => handlerOf_ha (by simp [fileHandlers]) (by simp [Dispatcher.registry]; rfl),
      mirrored_rest (py "script") hparams hgated (by simp)⟩
  · exact ⟨_, fun _ => handlerOf_ha (by simp [fileHandlers]) (by simp [Dispatcher.registry]; rfl),
      mirrored_rest (py "scene") hparams hgated (by simp)⟩
  · exact ⟨_, fun _ => handlerOf_ha (by simp [fileHandlers]) (by simp [Dispatcher.registry]),
      mirrored_helpers hparams hgated⟩
  · exact ⟨_, fun _ => handlerOf_ha (by simp [fileHandlers]) (by simp [Dispatcher.registry]),
      mirrored_areaRegistry hparams hgated⟩
  · exact ⟨_, fun _ => handlerOf_ha (by simp [fileHandlers]) (by simp [Dispatcher.registry]),
      mirrored_deviceRegistry hparams hgated⟩
  · exact ⟨_, fun _ => handlerOf_ha (by simp [fileHandlers]) (by simp [Dispatcher.registry]),
      mirrored_entityRegistry hparams hgated⟩
  · exact ⟨_, fun _ => handlerOf_ha (by simp [fileHandlers]) (by simp [Dispatcher.registry]),
      mirrored_configEntries hparams hgated⟩
  · exact ⟨_, fun _ => handlerOf_ha (by simp [fileHandlers]) (by simp [Dispatcher.registry]),
      mirrored_lovelace hparams hgated⟩
  · exact ⟨_, fun _ => handlerOf_file (by simp [fileHandlers]) (by simp [Dispatcher.registry]),
      mirrored_write hparams hgated⟩
  · exact ⟨_, fun _ => handlerOf_file (by simp [fileHandlers]) (by simp [Dispatcher.registry]),
      mirrored_restore hparams hgated⟩
  · exact ⟨_, fun _ => handlerOf_file (by simp [fileHandlers]) (by simp [Dispatcher.registry]),
      mirrored_move hparams hgated⟩
  · exact ⟨_, fun _ => handlerOf_file (by simp [fileHandlers]) (by simp [Dispatcher.registry]),
      mirrored_delete hparams hgated⟩
  · exact ⟨_, fun _ => handlerOf_file (by simp [fileHandlers]) (by simp [Dispatcher.registry]),
      mirrored_patch hparams hgated⟩
  · exact ⟨_, fun _ => handlerOf_ha (by simp [fileHandlers]) (by simp [Dispatcher.registry]),
      mirrored_reloadConfig hparams hgated⟩
  · exact ⟨_, fun _ => handlerOf_ha (by simp [fileHandlers]) (by simp [Dispatcher.registry]),
      mirrored_updateInstall hparams hgated⟩
  · exact ⟨_, fun _ => handlerOf_ha (by simp [fileHandlers]) (by simp [Dispatcher.registry]; rfl),
      mirrored_lifecycle (py "start") (some (py "started")) hparams hgated (by simp [lifecycle])⟩
  · exact ⟨_, fun _ => handlerOf_ha (by simp [fileHandlers]) (by simp [Dispatcher.registry]; rfl),
      mirrored_lifecycle (py "stop") (some (py "stopped")) hparams hgated (by simp [lifecycle])⟩
  · exact ⟨_, fun _ => handlerOf_ha (by simp [fileHandlers]) (by simp [Dispatcher.registry]; rfl),
      mirrored_lifecycle (py "restart") none hparams hgated (by simp [lifecycle])⟩
  · exact ⟨_, fun _ => handlerOf_ha (by simp [fileHandlers]) (by simp [Dispatcher.registry]; rfl),
      mirrored_lifecycle (py "update") none hparams hgated (by simp [lifecycle])⟩

/-- A gated call that the plugin refuses the node refuses too, in every world, with any marker or none
and whoever calls; and where the plugin judges the texts of a call, it refuses what the node, without a
denylist of its own, refuses on static grounds. -/
theorem preflight_mirrors {ω : Type} (hgated : needsApproval command (actionOf inner) = true)
    (hparams : Delivered inner params) (world : World ω) (s : UsedIds × ω) (denylist : List PyStr) :
    ∃ outcome, invoke world denylist (decode command) params s = some outcome ∧
      (gatedCallRefusal command (actionOf inner) inner ≠ none →
        outcome.Refused (PatchRaises command params)) ∧
      (denylist = [] → Judged command (actionOf inner) inner → outcome.effects = [] →
        ∀ response, outcome.response = some response → StaticRefusal response →
          gatedCallRefusal command (actionOf inner) inner ≠ none) := by
  obtain ⟨handler, hregistered, hmirrored⟩ := exists_mirrored hparams hgated
  refine ⟨(handler denylist).run world params s, ?_, ?_, ?_⟩
  · rw [invoke, hregistered]
    rfl
  · intro hrefused
    exact (hmirrored.refuses denylist hrefused).run world s
  · rintro rfl hjudged hsilent response hresponse hstatic
    exact (hmirrored.quiet hjudged).run world s hsilent hresponse hstatic

end

end

namespace PreflightSample

scoped instance runtime : Runtime := .ofTable []

theorem digest_printable : ∀ _ : List Nat, Printable [] := fun _ => printable_nil

scoped instance digest : BackupStore.Digest where
  sha256 _ := []
  printable := digest_printable

/-- A world in which every request times out. -/
def world : World Unit where
  caller := none
  now _ := 0
  reply _ s := (.error .timeoutError, s)
  file _ s := (.error .outOfBounds, s)

def called (command : JsStr) (inner : JsObject) : Option Outcome :=
  invoke world [] (decode command) (receivedEntries inner) ([], ())

/-- A write into `.storage`, as it is handed on with a marker. -/
def storageWrite : JsObject :=
  [(js "path", .str (js "/config/.storage/core")), (js "content", .str (js "x")),
    (NodeApproval.approvalParam, .obj [(js "id", .str (js "a"))])]

theorem judged_storageWrite : Judged (js "fs.write") [] (cleaned storageWrite) where
  slug := fun hmem => absurd hmem (by decide)
  path := by
    intro key hkey
    rw [List.mem_singleton.mp (hkey : key ∈ [js "path"])]
    exact .inr ⟨js "/config/.storage/core", rfl, by decide⟩
  helperType := fun heq => absurd heq (by decide)

theorem preflight_mirrors_storage :
    let params := Dict.pop (receivedEntries storageWrite) (py "_openclaw_caller")
    ∃ outcome, invoke world [] (decode (js "fs.write")) params ([], ()) = some outcome ∧
      outcome.Refused (PatchRaises (js "fs.write") params) ∧
      (outcome.effects = [] → ∀ response, outcome.response = some response → StaticRefusal response →
        gatedCallRefusal (js "fs.write") [] (cleaned storageWrite) ≠ none) := by
  intro params
  have hgated : needsApproval (js "fs.write") (actionOf (cleaned storageWrite)) = true := by decide
  obtain ⟨outcome, hinvoke, hrefused, hstatic⟩ :=
    preflight_mirrors hgated (delivered_cleaned storageWrite) world ([], ()) []
  exact ⟨outcome, hinvoke, hrefused (by decide), hstatic rfl judged_storageWrite⟩

theorem called_ha {name : String} {handler : HaClient.Handler} {inner : JsObject}
    (h : handlerOf [] (decode (js name)) = some (.ha handler)) : called (js name) inner =
      some (NodeHandler.run world (receivedEntries inner) ([], ()) (.ha handler)) := by
  rw [called, invoke, h, Option.map_some]

/-- What the node refuses on static grounds the plugin lets through. -/
def LetThrough (command action : JsStr) (inner : JsObject) : Prop :=
  gatedCallRefusal command action inner = none ∧ ∃ response,
    called command inner = some ⟨some response, []⟩ ∧ StaticRefusal response

/-- A slug of plain ASCII that is not made of letters, digits, `_` and `-`. -/
def dottedSlug : JsObject := [(js "slug", .str (js "a.b"))]

/-- A helper type of that kind, and a key of another type. -/
def dottedHelper : JsObject :=
  [(js "action", .str (js "delete")), (js "helper_type", .str (js "a.b")), (js "x_id", .str (js "1"))]

/-- Params of another action than the one that is judged. -/
def otherAction : JsObject :=
  [(js "action", .str (js "delete")), (js "id", .str (js "x")), (js "config", .obj [])]

/-- The patch is a lone surrogate. -/
def storagePatch : JsObject :=
  [(js "path", .str (js "/config/.storage/core")), (js "patch", .str [0xD800])]

theorem preflight_differs :
    LetThrough (js "ha.addon_start") [] dottedSlug ∧
      LetThrough (js "ha.config.helpers") (js "delete") dottedHelper ∧
      LetThrough (js "ha.config.automation") (js "save") otherAction ∧
      gatedCallRefusal (js "fs.patch") [] storagePatch ≠ none ∧
      called (js "fs.patch") storagePatch = some ⟨none, []⟩ := by
  have hstart : handlerOf [] (decode (js "ha.addon_start")) =
      some (.ha (HaLifecycle.handleHaAddonStart [])) :=
    handlerOf_ha (by simp [fileHandlers]) (by simp [Dispatcher.registry])
  have hhelpers : handlerOf [] (decode (js "ha.config.helpers")) =
      some (.ha HaConfig.handleHaConfigHelpers) :=
    handlerOf_ha (by simp [fileHandlers]) (by simp [Dispatcher.registry])
  have hautomation : handlerOf [] (decode (js "ha.config.automation")) =
      some (.ha HaConfig.handleHaConfigAutomation) :=
    handlerOf_ha (by simp [fileHandlers]) (by simp [Dispatcher.registry])
  have hpatch : handlerOf [] (decode (js "fs.patch")) = some (.file FsMutations.handleFsPatch) :=
    handlerOf_file (by simp [fileHandlers]) (by simp [Dispatcher.registry])
  refine ⟨⟨by decide, _, called_ha hstart, ?_⟩, ⟨by decide, _, called_ha hhelpers, ?_⟩,
    ⟨by decide, _, called_ha hautomation, ?_⟩, by decide, ?_⟩
  · exact staticRefusal_error.mpr (by decide)
  · exact staticRefusal_error.mpr (by decide)
  · exact staticRefusal_error.mpr (by decide)
  · rw [called, invoke, hpatch]
    rfl

end PreflightSample

end HassNode.PreflightMirror
