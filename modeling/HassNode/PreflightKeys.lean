import HassNode.ApprovalHookIntegrity
import HassNode.JsonRoundTrip
import HassNode.StaticRefusals

/-!
# The keys of a gated call

The params as the node receives them, the texts in them on both sides, and the names of the params: the
plugin's contract and the node's tables agree for every gated pair, so that each side refuses the unknown
names of the other.  A helper has one more key, named after its type, which the plugin knows only when the
type is made of letters, digits, `_` and `-`.
-/

namespace HassNode.PreflightMirror

open Py Py.JsonText Js Interaction Commands NodeApproval
open ConfigMutation (UsedIds)

/-! ## The params of a call -/

/-- The params with which the node calls a handler: those of the model as they are read back, without
the hint of the caller, and with any marker or none. -/
structure Delivered (inner : JsObject) (params : Dict) : Prop where
  param : ∀ key, key ≠ ConfigMutation.approvalParam → key ≠ py "_openclaw_caller" →
    params.get? key = Dict.get? (receivedEntries inner) key
  caller : params.get? (py "_openclaw_caller") = none

theorem get?_received (inner : JsObject) (key : JsStr) :
    Dict.get? (receivedEntries inner) (decode key) = (inner.lookup key).map received := by
  induction inner with
  | nil => rfl
  | cons kv inner ih =>
    obtain ⟨k, v⟩ := kv
    rw [receivedEntries, Dict.get?_cons, List.lookup_cons]
    by_cases hk : key = k
    · simp [hk]
    · have hne : (key == k) = false := beq_eq_false_iff_ne.mpr hk
      rw [if_neg (decode_injective.ne hk), hne]
      exact ih

theorem mem_keys_iff {d : Dict} {key : PyStr} : key ∈ d.keys ↔ d.get? key ≠ none := by
  rw [← Dict.has_iff_mem_keys, Dict.has, Option.isSome_iff_ne_none]

theorem mem_keys_received {inner : JsObject} {key : PyStr} :
    key ∈ Dict.keys (receivedEntries inner) ↔ ∃ k ∈ inner.map Prod.fst, decode k = key := by
  rw [receivedEntries_eq_map, Dict.keys, List.map_map]
  simp [receivedEntry]

namespace Delivered

variable {inner : JsObject} {params : Dict} (h : Delivered inner params)
include h

/-- The value of an unreserved parameter. -/
theorem get? (name : String) (happroval : name ≠ "_openclaw_approval")
    (hcaller : name ≠ "_openclaw_caller") :
    params.get? (py name) = (inner.lookup (js name)).map received := by
  rw [h.param (py name) (fun heq => happroval (py_inj.mp heq)) fun heq => hcaller (py_inj.mp heq),
    ← decode_js name, get?_received]

theorem mem_keys {key : PyStr} (hkey : key ∈ params.keys) (happroval : key ≠ ConfigMutation.approvalParam) :
    ∃ k ∈ inner.map Prod.fst, k ≠ callerParam ∧ decode k = key := by
  rw [mem_keys_iff] at hkey
  have hcaller : key ≠ py "_openclaw_caller" := by
    rintro rfl
    exact hkey h.caller
  rw [h.param key happroval hcaller, ← mem_keys_iff, mem_keys_received] at hkey
  obtain ⟨k, hk, rfl⟩ := hkey
  refine ⟨k, hk, ?_, rfl⟩
  rintro rfl
  exact hcaller (decode_js _)

theorem decode_mem_keys {k : JsStr} (hk : k ∈ inner.map Prod.fst) (happroval : k ≠ approvalParam)
    (hcaller : k ≠ callerParam) : decode k ∈ params.keys := by
  have hne : ∀ {k other : JsStr} {s : String}, other = js s → k ≠ other → decode k ≠ py s := by
    rintro k _ s rfl hne heq
    rw [← decode_js s] at heq
    exact hne (decode_injective heq)
  rw [mem_keys_iff, h.param _ (hne rfl happroval) (hne rfl hcaller), ← mem_keys_iff, mem_keys_received]
  exact ⟨k, hk, rfl⟩

end Delivered

/-- What the hook hands on is delivered as its clean params, whatever the marker and the hint are. -/
theorem delivered_cleaned (out : JsObject) :
    Delivered (cleaned out) (Dict.pop (receivedEntries out) (py "_openclaw_caller")) := by
  have hclean : cleaned out = out.filter fun kv => kv.1 ∉ reservedParams := by
    apply List.filter_congr
    intro kv _
    rw [decide_eq_decide]
    simp [reservedParams, NodeApproval.approvalParam, callerParam]
  constructor
  · intro key happroval hcaller
    have hkey : key ∉ ConfigMutation.reserved := by
      simp [ConfigMutation.reserved, happroval, hcaller]
    rw [hclean, ← unreserved_received, ConfigMutation.get?_unreserved hkey, Dict.get?_pop,
      if_neg hcaller]
  · exact Dict.get?_pop_self _ _

/-! ## Texts -/

@[simp] theorem js_inj {s t : String} : js s = js t ↔ s = t := by
  rw [← py_inj, ← decode_js, ← decode_js]
  exact decode_injective.eq_iff.symm

/-- A table of the node is read by comparing names. -/
@[simp] theorem lookup_py {α : Type} (name other : String) (v : α) (table : List (PyStr × α)) :
    ((py other, v) :: table).lookup (py name) = if name = other then some v else table.lookup (py name) := by
  rw [List.lookup_cons]
  by_cases h : name = other
  · simp [h]
  · have hne : (py name == py other) = false := by simpa using h
    rw [hne, if_neg h]

/-- So is one of the plugin. -/
@[simp] theorem lookup_js {α : Type} (name other : String) (v : α) (table : List (JsStr × α)) :
    ((js other, v) :: table).lookup (js name) = if name = other then some v else table.lookup (js name) := by
  rw [List.lookup_cons]
  by_cases h : name = other
  · simp [h]
  · have hne : (js name == js other) = false := by simpa using h
    rw [hne, if_neg h]

/-- A text whose units are read one by one. -/
theorem decode_eq_map {s : JsStr} (h : ∀ u ∈ s, u.val < 0xD800) : decode s = s.map point := by
  induction s with
  | nil => rfl
  | cons u s ih =>
    rw [List.forall_mem_cons] at h
    have hhigh : isHigh u.val = false := by
      simp only [isHigh, Bool.and_eq_false_iff, decide_eq_false_iff_not]
      omega
    rw [decode_cons_of_not_high hhigh, ih h.2, List.map_cons]

theorem point_injective : Function.Injective point := by
  intro u v h
  apply Fin.ext
  exact (congrArg Fin.val h : (point u).val = (point v).val)

theorem startsWith_map (s t : JsStr) :
    Py.startsWith (s.map point) (t.map point) = Js.startsWith s t := by
  rw [Bool.eq_iff_iff, Py.startsWith, Js.startsWith, List.isPrefixOf_iff_prefix,
    List.isPrefixOf_iff_prefix, List.prefix_map_iff_of_injective point_injective]

theorem endsWith_map (s t : JsStr) : Py.endsWith (s.map point) (t.map point) = Js.endsWith s t := by
  rw [Bool.eq_iff_iff, Py.endsWith, Js.endsWith, List.isSuffixOf_iff_suffix,
    List.isSuffixOf_iff_suffix, List.suffix_map_iff_of_injective point_injective]

theorem hasSubstr_map (s t : JsStr) : hasSubstr (s.map point) (t.map point) = includes s t := by
  unfold hasSubstr includes
  rw [List.map_tails, List.any_map]
  congr 1
  funext rest
  exact startsWith_map rest t

/-- A text without spaces is not stripped. -/
theorem strip_of_forall {s : PyStr} (h : ∀ c ∈ s, Py.isSpace c = false) : strip s = s :=
  strip_eq_self (fun _ => h _ (List.get_mem _ _)) fun hne => h _ (List.getLast_mem hne)

/-! ## The tables of keys -/

section
open HaConfig HaLifecycle FsMutations

/-- The commands with one set of keys, `_FLAT` of the contract test. -/
def flatKeys : List (PyStr × List PyStr) :=
  [(py "ha.reload_config", reloadConfigKeys), (py "ha.update_install", updateInstallKeys),
   (py "ha.addon_start", lifecycleKeys), (py "ha.addon_stop", lifecycleKeys),
   (py "ha.addon_restart", lifecycleKeys), (py "ha.addon_update", lifecycleKeys),
   (py "fs.write", writeKeys), (py "fs.restore", restoreKeys), (py "fs.patch", patchKeys),
   (py "fs.move", moveKeys), (py "fs.delete", deleteKeys)]

/-- `_ACTION_KEYS` of each module. -/
def actionTables : List (PyStr × List (PyStr × List PyStr)) :=
  [(py "ha.config.automation", restActionKeys), (py "ha.config.script", restActionKeys),
   (py "ha.config.scene", restActionKeys), (py "ha.config.helpers", Helpers.actionKeys),
   (py "ha.config.area_registry", AreaRegistry.actionKeys),
   (py "ha.config.device_registry", DeviceRegistry.actionKeys),
   (py "ha.config.entity_registry", EntityRegistry.actionKeys),
   (py "ha.config.config_entries", ConfigEntries.actionKeys),
   (py "ha.config.lovelace", Lovelace.actionKeys)]

/-- `_node_keys`. -/
def nodeKeys (command action : PyStr) : List PyStr :=
  match flatKeys.lookup command with
  | some keys => keys
  | none => keysIn ((actionTables.lookup command).getD []) action

theorem nodeKeys_flat {command : PyStr} {keys : List PyStr} (h : flatKeys.lookup command = some keys)
    (action : PyStr) : nodeKeys command action = keys := by
  unfold nodeKeys
  rw [h]

theorem nodeKeys_actions {command : PyStr} {table : List (PyStr × List PyStr)}
    (hflat : flatKeys.lookup command = none) (h : actionTables.lookup command = some table)
    (action : PyStr) : nodeKeys command action = keysIn table action := by
  unfold nodeKeys
  rw [hflat, h]
  rfl

end

/-- The keys of a gated pair in the plugin's contract. -/
def contractKeys (command action : JsStr) : Option (List JsStr) :=
  ((allowedKeys.lookup command).getD []).lookup action

/-- The plugin and the node allow the same keys, the marker's among them. -/
def keysAgree (command action : JsStr) : Bool :=
  match contractKeys command action with
  | none => false
  | some allowed =>
    allowed.contains NodeApproval.approvalParam &&
      allowed.all (fun key => (nodeKeys (decode command) (decode action)).contains (decode key)) &&
      (nodeKeys (decode command) (decode action)).all fun key => (allowed.map decode).contains key

theorem tables_agree :
    (approvalGated.all fun entry => entry.2.all fun action => keysAgree entry.1 action) = true := by
  decide +kernel

/-- What a check of the whole table found holds of every gated pair. -/
theorem gated_all {p : JsStr → JsStr → Bool}
    (hall : (approvalGated.all fun entry => entry.2.all fun action => p entry.1 action) = true)
    {command action : JsStr} (h : needsApproval command action = true) : p command action = true := by
  unfold needsApproval listed at h
  cases hlookup : approvalGated.lookup command with
  | none =>
    rw [hlookup] at h
    exact absurd h Bool.false_ne_true
  | some actions =>
    rw [hlookup, Option.getD_some, List.contains_iff_mem] at h
    exact List.all_eq_true.mp (List.all_eq_true.mp hall _ (mem_of_lookup hlookup)) action h

theorem gated_agree {command action : JsStr} (h : needsApproval command action = true) :
    ∃ allowed, contractKeys command action = some allowed ∧ NodeApproval.approvalParam ∈ allowed ∧
      ∀ key, key ∈ allowed ↔ decode key ∈ nodeKeys (decode command) (decode action) := by
  have hagree := gated_all tables_agree h
  unfold keysAgree at hagree
  split at hagree
  · exact absurd hagree Bool.false_ne_true
  · rename_i allowed hallowed
    simp only [Bool.and_eq_true, List.all_eq_true, List.contains_iff_mem] at hagree
    refine ⟨allowed, hallowed, hagree.1.1, fun key => ⟨hagree.1.2 key, fun hkey => ?_⟩⟩
    obtain ⟨other, hother, heq⟩ := List.mem_map.mp (hagree.2 _ hkey)
    rwa [← decode_injective heq]

/-! ## Unknown parameters -/

theorem unknownKeysRefusal_ne_none_iff {command action : JsStr} {inner : JsObject} :
    unknownKeysRefusal command action inner ≠ none ↔
      ∃ allowed exempt, allowedFor command action inner = some (allowed, exempt) ∧
        ∃ key ∈ inner.map Prod.fst, key ≠ callerParam ∧ key ∉ allowed ∧
          ∀ tail, exempt = some tail → Js.endsWith key tail = false := by
  unfold unknownKeysRefusal
  cases hallowed : allowedFor command action inner with
  | none => simp
  | some pair =>
    obtain ⟨allowed, exempt⟩ := pair
    have hsorted : ∀ keys : List JsStr, sortStrs keys = [] ↔ keys = [] := by
      intro keys
      rw [← List.length_eq_zero_iff, sortStrs, List.length_insertionSort, List.length_eq_zero_iff]
    dsimp only
    split_ifs with hnone
    · rw [hsorted, List.filter_eq_nil_iff] at hnone
      simp only [ne_eq, not_true_eq_false, false_iff, not_exists, not_and]
      rintro _ _ heq key hkey hcaller hnot
      cases heq
      have hfiltered := hnone key hkey
      cases exempt with
      | none => simp [hcaller, hnot] at hfiltered
      | some tail =>
        intro hexempt
        simp [hcaller, hnot, hexempt tail rfl] at hfiltered
    · rw [hsorted, List.filter_eq_nil_iff] at hnone
      simp only [not_forall] at hnone
      obtain ⟨key, hkey, hfiltered⟩ := hnone
      simp only [not_not, Bool.and_eq_true, decide_eq_true_eq, Bool.not_eq_true',
        Bool.eq_false_iff (b := allowed.contains key), ne_eq, List.contains_iff_mem] at hfiltered
      refine iff_of_true (by simp) ⟨allowed, exempt, rfl, key, hkey, hfiltered.1.1, hfiltered.1.2, ?_⟩
      rintro tail rfl
      simpa using hfiltered.2

section
variable {command action : JsStr} {inner : JsObject} {params : Dict} {allowed : List JsStr}
  {known : List PyStr}

/-- An unknown name of the plugin's is one of the node's, which knows no more names. -/
theorem unknown_of_refusal {exempt : Option JsStr} (hparams : Delivered inner params)
    (hallowed : allowedFor command action inner = some (allowed, exempt))
    (happroval : NodeApproval.approvalParam ∈ allowed)
    (hknown : ∀ key, decode key ∈ known →
      key ∈ allowed ∨ ∃ tail, exempt = some tail ∧ Js.endsWith key tail = true)
    (hrefused : unknownKeysRefusal command action inner ≠ none) :
    ∃ key ∈ params.keys, key ∉ known := by
  obtain ⟨allowed', exempt', heq, key, hkey, hcaller, hnot, hexempt⟩ :=
    unknownKeysRefusal_ne_none_iff.mp hrefused
  rw [hallowed] at heq
  cases heq
  have hne : key ≠ NodeApproval.approvalParam := fun heq => hnot (heq ▸ happroval)
  refine ⟨decode key, hparams.decode_mem_keys hkey hne hcaller, fun hmem => ?_⟩
  rcases hknown key hmem with hin | ⟨tail, htail, hends⟩
  · exact hnot hin
  · rw [hexempt tail htail] at hends
    cases hends

/-- An unknown name of the node's is one of the plugin's, which knows no more names. -/
theorem refusal_of_unknown (hparams : Delivered inner params)
    (hallowed : allowedFor command action inner = some (allowed, none))
    (happroval : NodeApproval.approvalParam ∈ allowed)
    (hknown : ∀ key ∈ allowed, decode key ∈ known) (hunknown : ∃ key ∈ params.keys, key ∉ known) :
    unknownKeysRefusal command action inner ≠ none := by
  obtain ⟨key, hkey, hnot⟩ := hunknown
  have hne : key ≠ ConfigMutation.approvalParam := by
    rintro rfl
    have hmem := hknown _ happroval
    rw [show decode NodeApproval.approvalParam = ConfigMutation.approvalParam from decode_js _] at hmem
    exact hnot hmem
  obtain ⟨k, hk, hcaller, rfl⟩ := hparams.mem_keys hkey hne
  exact unknownKeysRefusal_ne_none_iff.mpr
    ⟨allowed, none, hallowed, k, hk, hcaller, fun hmem => hnot (hknown k hmem), nofun⟩

/-- The keys of a call that has no key named after another param. -/
theorem allowedFor_static (hallowed : contractKeys command action = some allowed)
    (hdynamic : dynamicKeys.lookup command = none ∨ action ∉ [js "update", js "delete"]) :
    allowedFor command action inner = some (allowed, none) := by
  have hactions : ∀ {entry}, dynamicKeys.lookup command = some entry →
      entry.1 = [js "update", js "delete"] := by
    intro entry hentry
    have hmem := mem_of_lookup hentry
    rw [dynamicKeys, List.mem_singleton] at hmem
    cases hmem
    rfl
  unfold contractKeys at hallowed
  unfold allowedFor
  rw [hallowed]
  dsimp only
  split
  · rfl
  · rename_i entry actions typeKey keySuffix hentry
    rcases hdynamic with hnone | hnot
    · rw [hnone] at hentry
      cases hentry
    · have heq : actions = [js "update", js "delete"] := hactions hentry
      rw [heq, if_pos hnot]

/-- Where the keys are fixed, both sides refuse the same names. -/
theorem unknown_iff (hparams : Delivered inner params) (hgated : needsApproval command action = true)
    (hdynamic : dynamicKeys.lookup command = none ∨ action ∉ [js "update", js "delete"]) :
    unknownKeysRefusal command action inner ≠ none ↔
      ∃ key ∈ params.keys, key ∉ nodeKeys (decode command) (decode action) := by
  obtain ⟨allowed, hallowed, happroval, hagree⟩ := gated_agree hgated
  have hstatic : allowedFor command action inner = some (allowed, none) :=
    allowedFor_static hallowed hdynamic
  constructor
  · exact unknown_of_refusal hparams hstatic happroval fun key hkey => .inl ((hagree key).mpr hkey)
  · exact refusal_of_unknown hparams hstatic happroval fun key hkey => (hagree key).mp hkey

/-! ### The key of a helper -/

theorem plainSlug_lt {text : JsStr} (h : plainSlug text = true) :
    ∀ u ∈ text, u.val < 0x80 ∧ Py.isSpace (point u) = false := by
  intro u hu
  have hplain := List.all_eq_true.mp h u hu
  simp only [isAlnum, Bool.or_eq_true, Bool.and_eq_true, decide_eq_true_eq, Fin.ext_iff] at hplain
  have hval : (point u).val = u.val := rfl
  have hrange : u.val = 95 ∨ u.val = 45 ∨ (48 ≤ u.val ∧ u.val ≤ 57) ∨ (65 ≤ u.val ∧ u.val ≤ 90) ∨
      (97 ≤ u.val ∧ u.val ≤ 122) := by
    have h95 : (95 : CodeUnit).val = 95 := rfl
    have h45 : (45 : CodeUnit).val = 45 := rfl
    omega
  constructor
  · omega
  · simp only [Py.isSpace, hval, Bool.or_eq_false_iff, Bool.and_eq_false_iff, decide_eq_false_iff_not,
      beq_eq_false_iff_ne]
    omega

/-- A plain text is read unit by unit and is not stripped. -/
theorem strip_plainSlug {text : JsStr} (h : plainSlug text = true) :
    decode text = text.map point ∧ strip (decode text) = decode text := by
  have hmap : decode text = text.map point := decode_eq_map fun u hu => by
    have hlt := (plainSlug_lt h u hu).1
    omega
  refine ⟨hmap, strip_of_forall ?_⟩
  rw [hmap, List.forall_mem_map]
  exact fun u hu => (plainSlug_lt h u hu).2

/-- The item key of a plain helper type is the plugin's key. -/
theorem itemKey_plain {helperType : JsStr} (h : plainSlug helperType = true) :
    HaConfig.Helpers.itemKey (strip (decode helperType)) = decode (helperType ++ js "_id") := by
  have hplain := strip_plainSlug h
  have htext : Encodes helperType (decode helperType) := by
    refine ⟨(encode_decode _).symm, ?_⟩
    rw [hplain.1, List.forall_mem_map]
    intro u hu
    have hlt : (point u).val < 0x80 := (plainSlug_lt h u hu).1
    simp only [isSurrogate, Bool.and_eq_false_iff, decide_eq_false_iff_not]
    omega
  rw [HaConfig.Helpers.itemKey, hplain.2]
  exact (htext.append (Encodes.js "_id")).decode_eq.symm

theorem endsWith_itemKey {key : JsStr} {helperType : PyStr}
    (h : decode key = HaConfig.Helpers.itemKey helperType) : Js.endsWith key (js "_id") = true := by
  have hkey := congrArg encode h
  rw [encode_decode, HaConfig.Helpers.itemKey, encode_append] at hkey
  rw [hkey, Js.endsWith, List.isSuffixOf_iff_suffix]
  exact List.suffix_append _ _

theorem nodeKeys_helpers (action : PyStr) :
    nodeKeys (py "ha.config.helpers") action = HaConfig.keysIn HaConfig.Helpers.actionKeys action :=
  nodeKeys_actions (by simp [flatKeys]) (by simp [actionTables]) action

/-- The action names the helper's own key. -/
theorem mem_dynamic_iff : decode action ∈ [py "update", py "delete"] ↔
    action ∈ [js "update", js "delete"] := by
  rw [← decode_js "update", ← decode_js "delete"]
  simp [decode_injective.eq_iff]

theorem helperKeys_static (h : action ∉ [js "update", js "delete"]) :
    HaConfig.Helpers.allowedKeys params (decode action) =
      nodeKeys (py "ha.config.helpers") (decode action) := by
  have hnot : decode action ∉ [py "update", py "delete"] := fun hmem => h (mem_dynamic_iff.mp hmem)
  unfold HaConfig.Helpers.allowedKeys
  rw [nodeKeys_helpers]
  split
  · rw [if_neg hnot]
  · rfl

theorem allowedFor_helper (inner : JsObject)
    (hallowed : contractKeys (js "ha.config.helpers") action = some allowed)
    (h : action ∈ [js "update", js "delete"]) :
    allowedFor (js "ha.config.helpers") action inner =
      match inner.lookup (js "helper_type") with
      | some (.str helperType) =>
        if plainSlug helperType then some (allowed ++ [helperType ++ js "_id"], none)
        else some (allowed, some (js "_id"))
      | _ => some (allowed, some (js "_id")) := by
  have hdynamic : dynamicKeys.lookup (js "ha.config.helpers") =
      some ([js "update", js "delete"], js "helper_type", js "_id") := by simp [dynamicKeys]
  unfold contractKeys at hallowed
  unfold allowedFor
  rw [hallowed, hdynamic]
  exact if_neg (not_not_intro h)

theorem get?_helperType (hparams : Delivered inner params) :
    params.get? (py "helper_type") = (inner.lookup (js "helper_type")).map received :=
  hparams.get? "helper_type" (by decide) (by decide)

/-- Every name that the plugin refuses in a helper call the node refuses. -/
theorem helper_unknown (hparams : Delivered inner params)
    (hgated : needsApproval (js "ha.config.helpers") action = true)
    (hrefused : unknownKeysRefusal (js "ha.config.helpers") action inner ≠ none) :
    ∃ key ∈ params.keys, key ∉ HaConfig.Helpers.allowedKeys params (decode action) := by
  by_cases hmem : action ∈ [js "update", js "delete"]
  · obtain ⟨allowed, hallowed, happroval, hagree⟩ := gated_agree hgated
    rw [decode_js, nodeKeys_helpers] at hagree
    have hfor := allowedFor_helper inner hallowed hmem
    have htype := get?_helperType hparams
    have hbase : ∀ key, decode key ∈ HaConfig.keysIn HaConfig.Helpers.actionKeys (decode action) →
        key ∈ allowed := fun key => (hagree key).mpr
    unfold HaConfig.Helpers.allowedKeys
    -- the item key is named after a helper type that is a plain text
    split at hfor
    · rename_i helperType hhelper
      rw [htype, hhelper]
      simp only [Option.map_some, received, if_pos (mem_dynamic_iff.mpr hmem)]
      split_ifs at hfor with hplain
      · apply unknown_of_refusal hparams hfor (List.mem_append_left _ happroval) _ hrefused
        intro key hkey
        rw [itemKey_plain hplain, List.mem_insert_iff] at hkey
        left
        rcases hkey with hkey | hkey
        · rw [decode_injective hkey]
          exact List.mem_append_right _ (.head _)
        · exact List.mem_append_left _ (hbase key hkey)
      -- the plugin lets every key with the tail pass, among them the one that the node takes
      · apply unknown_of_refusal hparams hfor happroval _ hrefused
        intro key hkey
        rw [List.mem_insert_iff] at hkey
        rcases hkey with hkey | hkey
        · exact .inr ⟨_, rfl, endsWith_itemKey hkey⟩
        · exact .inl (hbase key hkey)
    · apply unknown_of_refusal hparams hfor happroval _ hrefused
      intro key hkey
      split at hkey
      · rw [if_pos (mem_dynamic_iff.mpr hmem), List.mem_insert_iff] at hkey
        rcases hkey with hkey | hkey
        · exact .inr ⟨_, rfl, endsWith_itemKey hkey⟩
        · exact .inl (hbase key hkey)
      · exact .inl (hbase key hkey)
  · rw [helperKeys_static hmem, ← decode_js]
    exact (unknown_iff hparams hgated (.inr hmem)).mp hrefused

/-- Every name that the node refuses in a helper call with a plain helper type the plugin refuses. -/
theorem helper_refusal (hparams : Delivered inner params)
    (hgated : needsApproval (js "ha.config.helpers") action = true)
    (hplain : action ∈ [js "update", js "delete"] →
      ∃ helperType, inner.lookup (js "helper_type") = some (.str helperType) ∧
        plainSlug helperType = true)
    (hunknown : ∃ key ∈ params.keys, key ∉ HaConfig.Helpers.allowedKeys params (decode action)) :
    unknownKeysRefusal (js "ha.config.helpers") action inner ≠ none := by
  by_cases hmem : action ∈ [js "update", js "delete"]
  · obtain ⟨allowed, hallowed, happroval, hagree⟩ := gated_agree hgated
    rw [decode_js, nodeKeys_helpers] at hagree
    obtain ⟨helperType, hhelper, htext⟩ := hplain hmem
    have hfor := allowedFor_helper inner hallowed hmem
    have htype := get?_helperType hparams
    rw [hhelper] at hfor htype
    dsimp only at hfor
    rw [if_pos htext] at hfor
    unfold HaConfig.Helpers.allowedKeys at hunknown
    rw [htype] at hunknown
    simp only [Option.map_some, received, if_pos (mem_dynamic_iff.mpr hmem), itemKey_plain htext]
      at hunknown
    apply refusal_of_unknown hparams hfor (List.mem_append_left _ happroval) _ hunknown
    intro key hkey
    rcases List.mem_append.mp hkey with hkey | hkey
    · exact List.mem_insert_of_mem ((hagree key).mp hkey)
    · rw [List.mem_singleton.mp hkey]
      exact List.mem_insert_self
  · rw [helperKeys_static hmem, ← decode_js] at hunknown
    exact (unknown_iff hparams hgated (.inr hmem)).mpr hunknown

end

/-! ## Actions -/

theorem filter_dropWhile {α : Type} {p q : α → Bool} (h : ∀ a, q a = true → p a = false) (l : List α) :
    (l.dropWhile q).filter p = l.filter p := by
  induction l with
  | nil => rfl
  | cons a l ih =>
    by_cases hq : q a = true
    · rw [List.dropWhile_cons_of_pos hq, ih, List.filter_cons_of_neg (by simp [h a hq])]
    · rw [List.dropWhile_cons_of_neg hq]

/-- What is kept by no trimming is not lost to one. -/
theorem filter_trimmed {α : Type} {p q : α → Bool} (h : ∀ a, q a = true → p a = false) (l : List α) :
    ((l.dropWhile q).rdropWhile q).filter p = l.filter p := by
  rw [List.rdropWhile, List.filter_reverse, filter_dropWhile h, ← List.filter_reverse,
    List.reverse_reverse, filter_dropWhile h]

def slugUnit (u : CodeUnit) : Bool := isSlugChar (point u)

theorem isSlugChar_lt {c : CodePoint} (h : isSlugChar c = true) :
    c.val < 0x80 ∧ 48 ≤ c.val := by
  simp only [isSlugChar, Bool.or_eq_true, Bool.and_eq_true, decide_eq_true_eq] at h
  rcases h with (h | h) | rfl
  · omega
  · omega
  · decide

theorem filter_decode (s : JsStr) :
    (decode s).filter isSlugChar = (s.filter slugUnit).map point := by
  fun_induction decode s with
  | case1 => rfl
  | case2 u =>
    by_cases hu : slugUnit u = true
    · have hpoint : isSlugChar (point u) = true := hu
      rw [List.filter_cons_of_pos hu, List.filter_cons_of_pos hpoint]
      rfl
    · have hpoint : ¬ isSlugChar (point u) = true := hu
      rw [List.filter_cons_of_neg hu, List.filter_cons_of_neg hpoint]
      rfl
  | case3 u v rest hpair ih =>
    simp only [Bool.and_eq_true] at hpair
    have hjoined : ¬ isSlugChar (joinPair u v) = true := by
      intro h
      have hlt := (isSlugChar_lt h).1
      rw [joinPair_val hpair.1 hpair.2] at hlt
      omega
    have hhigh : ¬ slugUnit u = true := by
      intro h
      have hlt : u.val < 0x80 := (isSlugChar_lt h).1
      simp only [isHigh, Bool.and_eq_true, decide_eq_true_eq] at hpair
      omega
    have hlow : ¬ slugUnit v = true := by
      intro h
      have hlt : v.val < 0x80 := (isSlugChar_lt h).1
      simp only [isLow, Bool.and_eq_true, decide_eq_true_eq] at hpair
      omega
    rw [List.filter_cons_of_neg hjoined, List.filter_cons_of_neg hhigh, List.filter_cons_of_neg hlow,
      ih]
  | case4 u v rest hpair ih =>
    by_cases hu : slugUnit u = true
    · have hpoint : isSlugChar (point u) = true := hu
      rw [List.filter_cons_of_pos hu, List.filter_cons_of_pos hpoint, ih, List.map_cons]
    · have hpoint : ¬ isSlugChar (point u) = true := hu
      rw [List.filter_cons_of_neg hu, List.filter_cons_of_neg hpoint, ih]

/-- A text that is read back as a string was one. -/
theorem received_eq_str {v : JsValue} {text : PyStr} (h : received v = .str text) :
    ∃ s, v = .str s ∧ decode s = text := by
  cases v with
  | str s =>
    rw [received, Json.str.injEq] at h
    exact ⟨s, rfl, h⟩
  | num x =>
    rw [received] at h
    unfold NumberText.receivedNumber at h
    split at h <;> try split_ifs at h
    all_goals cases h
  | null => cases h
  | bool b => cases h
  | arr items => cases h
  | obj entries => cases h

theorem gatedActions_slug :
    (approvalGated.all fun entry => entry.2.all fun action => action.all slugUnit) = true := by
  decide +kernel

theorem space_not_slug (c : CodePoint) (h : Py.isSpace c = true) : isSlugChar c = false := by
  rw [Bool.eq_false_iff]
  intro hslug
  simp only [isSlugChar, Bool.or_eq_true, Bool.and_eq_true, decide_eq_true_eq, Fin.ext_iff] at hslug
  simp only [Py.isSpace, Bool.or_eq_true, Bool.and_eq_true, decide_eq_true_eq, beq_iff_eq] at h
  have h95 : (95 : CodePoint).val = 95 := rfl
  omega

theorem space_not_slugUnit (u : CodeUnit) (h : Js.isSpace u = true) : slugUnit u = false := by
  rw [Bool.eq_false_iff]
  intro hslug
  have hrange := isSlugChar_lt hslug
  have hval : (point u).val = u.val := rfl
  simp only [Js.isSpace, Bool.or_eq_true, Bool.and_eq_true, decide_eq_true_eq, List.mem_cons,
    List.not_mem_nil, or_false] at h
  omega

/-- Where the node reads a known action, it is the one the plugin read. -/
theorem strippedAction_eq {command : JsStr} {inner : JsObject} {params : Dict}
    (hparams : Delivered inner params) (hgated : needsApproval command (actionOf inner) = true)
    {actions : List PyStr} (hslug : ∀ action ∈ actions, action ≠ [] ∧ action.all isSlugChar = true)
    (hmem : strippedAction params ∈ actions) : strippedAction params = decode (actionOf inner) := by
  have hgiven := hparams.get? "action" (by decide) (by decide)
  have hknown := hslug _ hmem
  unfold strippedAction at hknown ⊢
  split at hknown
  · rename_i raw hraw
    rw [hraw] at hgiven
    obtain ⟨value, hvalue, hreceived⟩ := Option.map_eq_some_iff.mp hgiven.symm
    obtain ⟨text, rfl, rfl⟩ := received_eq_str hreceived
    have haction : actionOf inner = trim text := by
      unfold actionOf
      rw [hvalue]
    have hall := gated_all (p := fun _ action => action.all slugUnit) gatedActions_slug hgated
    have hunits : ∀ u ∈ actionOf inner, slugUnit u = true := List.all_eq_true.mp hall
    show strip (decode text) = decode (actionOf inner)
    calc strip (decode text)
        = (strip (decode text)).filter isSlugChar :=
          (List.filter_eq_self.mpr (List.all_eq_true.mp hknown.2)).symm
      _ = (decode text).filter isSlugChar := filter_trimmed space_not_slug _
      _ = (text.filter slugUnit).map point := filter_decode text
      _ = ((trim text).filter slugUnit).map point := by rw [trim, filter_trimmed space_not_slugUnit]
      _ = (actionOf inner).map point := by rw [← haction, List.filter_eq_self.mpr hunits]
      _ = decode (actionOf inner) := (decode_eq_map fun u hu => by
        have hlt : u.val < 0x80 := (isSlugChar_lt (hunits u hu)).1
        omega).symm
  · exact absurd rfl hknown.1

end HassNode.PreflightMirror
