import HassNode.Commands.HaConfig
import HassNode.Commands.HaLifecycle

/-!
# The approval gate of the Home Assistant mutations

Every gated handler has one shape (`Shaped`): it answers by itself, or it only reads, or it starts
with the gate on its own command and stripped action and goes on as a function of what the marker
bound.  What a run of such a handler can do follows from the shape alone.
-/

namespace HassNode.MutationGate

open Py Interaction ConfigMutation HaClient Commands HaConfig HaLifecycle

def readFrame (msgType : PyStr) : Bool :=
  endsWith msgType (py "/list") || endsWith msgType (py "/get") ||
    endsWith msgType (py "/get_single") ||
    msgType ∈ [py "lovelace/config", py "lovelace/resources"]

/-- A GET, or a list, get, get_single or Lovelace read frame. -/
def IsRead : Request → Prop
  | .get _ | .supervisorGet _ | .supervisorGetText _ => True
  | .ws frame => ∃ msgType, frame.get? (py "type") = some (.str msgType) ∧ readFrame msgType = true
  | .post _ _ | .delete _ | .supervisorPost _ => False

def IsAny : Request → Prop := fun _ => True

theorem isAny_of_isRequest {P : Request → Prop} {op : Op} (h : Op.IsRequest P op) :
    Op.IsRequest IsAny op := by
  cases op with
  | consume command action params => exact h
  | request r => trivial

/-- The shape of a gated handler on `params`. -/
inductive Shaped (command : PyStr) (reads : List PyStr) (body : PyStr → Dict → Program)
    (params : Dict) : Program → Prop where
  | refused (response : Json) : Shaped command reads body params (respond response)
  | reading {p : Program} (action : strippedAction params ∈ reads)
      (asks : Prog.Asks (Op.IsRequest IsRead) p) : Shaped command reads body params p
  | gated : Shaped command reads body params
      (gate command (strippedAction params) params fun _ =>
        body (strippedAction params) (unreserved params))

section
variable {command : PyStr} {reads : List PyStr} {body : PyStr → Dict → Program} {params : Dict}

theorem Shaped.of_gate {action : PyStr} {k : Dict → Program} (haction : strippedAction params = action)
    (hk : k (params.pop approvalParam) = body action (unreserved params)) :
    Shaped command reads body params (gate command action params k) := by
  have heq : gate command action params k = gate command (strippedAction params) params fun _ =>
      body (strippedAction params) (unreserved params) := by
    rw [haction, ← hk]
    rfl
  rw [heq]
  exact .gated

theorem Shaped.of_orReturn {α : Type} {checked : Except Json α} {k : α → Program}
    (hk : ∀ value, checked = .ok value → Shaped command reads body params (k value)) :
    Shaped command reads body params (orReturn checked k) := by
  cases checked with
  | error response => exact .refused response
  | ok value => exact hk value rfl

/-- The prologue keeps the shape. -/
theorem Shaped.of_withAction [Runtime] {actions nullable : List PyStr}
    {keysOf : PyStr → List PyStr} {run : PyStr → Program}
    (hrun : strippedAction params ∈ actions →
      strictKeysError params (keysOf (strippedAction params)) nullable = none →
      Shaped command reads body params (run (strippedAction params))) :
    Shaped command reads body params (withAction actions keysOf nullable params run) := by
  cases withAction_cases actions keysOf nullable params run with
  | inl h =>
    cases h with
    | intro response h =>
      rw [h]
      exact .refused response
  | inr h =>
    rw [h.2.2]
    exact hrun h.1 h.2.1

end

theorem get?_wsFrame (msgType : PyStr) (payload : Dict) (key : PyStr) :
    (wsFrame msgType payload).get? key = (Dict.get? payload.reverse key).or
      (Dict.get? [(py "id", .int 1), (py "type", .str msgType)] key) := by
  unfold wsFrame
  by_cases hempty : payload = []
  · simp [hempty]
  · simp only [if_neg hempty]
    exact Dict.get?_update _ payload key

/-- A frame whose payload has no `type` is of the type it was made for. -/
theorem isRead_wsFrame {msgType : PyStr} {payload : Dict}
    (htype : Dict.get? payload.reverse (py "type") = none) (hread : readFrame msgType = true) :
    IsRead (.ws (wsFrame msgType payload)) := by
  refine ⟨msgType, ?_, hread⟩
  rw [get?_wsFrame, htype]
  simp [Dict.get?_cons, py_inj]

theorem asks_listFrame {msgType : PyStr} (shape : List Json → Json)
    (hread : readFrame msgType = true) :
    Prog.Asks (Op.IsRequest IsRead) (listFrame msgType shape) := by
  apply asks_request (isRead_wsFrame rfl hread)
  intro value
  cases value <;> trivial

theorem asks_wsCall {Q : Op → Prop} {msgType : PyStr} {payload : Dict} {k : Json → Program}
    (hframe : Q (.request (.ws (wsFrame msgType payload)))) (hk : ∀ value, Prog.Asks Q (k value)) :
    Prog.Asks Q (wsCall msgType payload k) := asks_request hframe hk

/-- A handler is gated when its runs past the gate are given by one function of the action and of
what the marker bound. -/
def Gated (command : PyStr) (reads : List PyStr) (services : List (PyStr × PyStr))
    (handler : Handler) : Prop :=
  ∃ body : PyStr → Dict → Program,
    (∀ action p, Prog.Asks (Op.IsRequest (CallsOnly services)) (body action p)) ∧
    ∀ params, Shaped command reads body params (handler params)

/-! ## The shape of each handler -/

theorem asks_saveConfig (kind : PyStr) (params : Dict) :
    Prog.Asks (Op.IsRequest (CallsOnly [])) (saveConfig kind params) := by
  apply asks_orReturn
  intro id _
  apply asks_orReturn
  intro config _
  have hpost : CallsOnly [] (.post (configPath kind id) (some config)) := callsOnly_post rfl
  exact asks_request hpost fun _ => trivial

theorem asks_deleteConfig (kind : PyStr) (params : Dict) :
    Prog.Asks (Op.IsRequest (CallsOnly [])) (deleteConfig kind params) := by
  apply asks_orReturn
  intro id _
  exact asks_request trivial fun _ => trivial

theorem rest_gated [Runtime] (command kind : PyStr) :
    Gated command [py "get"] [] (handleRest command kind) := by
  refine ⟨fun action p => if action = py "save" then saveConfig kind p else deleteConfig kind p,
    ?_, ?_⟩
  · intro action p
    exact asks_ite (asks_saveConfig kind p) (asks_deleteConfig kind p)
  · intro params
    apply Shaped.of_withAction
    intro haction hkeys
    have hcaller : ∀ action ∈ restActions, py "_openclaw_caller" ∉ keysIn restActionKeys action := by
      decide
    have hpop := pop_eq_unreserved hkeys (hcaller _ haction)
    by_cases hget : strippedAction params = py "get"
    · rw [if_pos hget]
      apply Shaped.reading
      · rw [hget]
        exact .head _
      · apply asks_orReturn
        intro id _
        apply asks_request trivial
        intro value
        cases value <;> trivial
    · rw [if_neg hget]
      by_cases hsave : strippedAction params = py "save"
      · rw [if_pos hsave]
        apply Shaped.of_gate hsave
        rw [hpop, if_pos rfl]
      · rw [if_neg hsave]
        have hdelete : strippedAction params = py "delete" := by
          simpa [restActions, hget, hsave] using haction
        apply Shaped.of_gate hdelete
        rw [hpop, if_neg (by decide)]

/-! ### Helpers -/

theorem caller_ne_itemKey (helperType : PyStr) :
    py "_openclaw_caller" ≠ Helpers.itemKey helperType := by
  intro h
  have hlast := congrArg List.getLast? h
  rw [Helpers.itemKey, List.getLast?_append_of_ne_nil _ (by decide)] at hlast
  exact absurd hlast (by decide)

theorem caller_not_allowed {action : PyStr} (params : Dict) (haction : action ∈ Helpers.actions) :
    py "_openclaw_caller" ∉ Helpers.allowedKeys params action := by
  have htable : ∀ action ∈ Helpers.actions,
      py "_openclaw_caller" ∉ keysIn Helpers.actionKeys action := by decide
  unfold Helpers.allowedKeys
  split
  · split
    · rw [List.mem_insert_iff]
      exact not_or.mpr ⟨caller_ne_itemKey _, htable _ haction⟩
    · exact htable _ haction
  · exact htable _ haction

theorem mem_of_requireHelperType [Runtime] {params : Dict} {ht : PyStr}
    (h : Helpers.requireHelperType params = .ok ht) : ht ∈ Helpers.helperTypes := by
  unfold Helpers.requireHelperType at h
  split at h
  · cases h
  · split at h
    · rename_i hmem
      cases h
      exact hmem
    · cases h

theorem asks_helpers_list [Runtime] (params : Dict) :
    Prog.Asks (Op.IsRequest IsRead) (Helpers.list params) := by
  apply asks_orReturn
  intro ht hht
  have hread : ∀ ht ∈ Helpers.helperTypes, readFrame (ht ++ py "/list") = true := by decide
  exact asks_listFrame _ (hread ht (mem_of_requireHelperType hht))

theorem asks_helpers_create [Runtime] (params : Dict) :
    Prog.Asks (Op.IsRequest (CallsOnly [])) (Helpers.create params) := by
  apply asks_orReturn
  intro ht _
  apply asks_orReturn
  intro attrs _
  exact asks_wsCall trivial fun _ => trivial

theorem asks_helpers_update [Runtime] (params : Dict) :
    Prog.Asks (Op.IsRequest (CallsOnly [])) (Helpers.update params) := by
  apply asks_orReturn
  intro ht _
  apply asks_orReturn
  intro itemId _
  apply asks_orReturn
  intro attrs _
  split
  · trivial
  · exact asks_wsCall trivial fun _ => trivial

theorem asks_helpers_delete [Runtime] (params : Dict) :
    Prog.Asks (Op.IsRequest (CallsOnly [])) (Helpers.delete params) := by
  apply asks_orReturn
  intro ht _
  apply asks_orReturn
  intro itemId _
  exact asks_wsCall trivial fun _ => trivial

theorem helpers_gated [Runtime] : Gated (py "ha.config.helpers") [py "list"] [] handleHaConfigHelpers := by
  refine ⟨fun action p => if action = py "create" then Helpers.create p
    else if action = py "update" then Helpers.update p else Helpers.delete p, ?_, ?_⟩
  · intro action p
    apply asks_ite (asks_helpers_create p)
    exact asks_ite (asks_helpers_update p) (asks_helpers_delete p)
  · intro params
    apply Shaped.of_withAction
    intro haction hkeys
    have hpop := pop_eq_unreserved hkeys (caller_not_allowed params haction)
    by_cases hlist : strippedAction params = py "list"
    · rw [if_pos hlist]
      apply Shaped.reading
      · rw [hlist]
        exact .head _
      · exact asks_helpers_list params
    · rw [if_neg hlist]
      by_cases hcreate : strippedAction params = py "create"
      · rw [if_pos hcreate]
        apply Shaped.of_gate hcreate
        rw [hpop, if_pos rfl]
      · rw [if_neg hcreate]
        by_cases hupdate : strippedAction params = py "update"
        · rw [if_pos hupdate]
          apply Shaped.of_gate hupdate
          rw [hpop, if_neg (by decide), if_pos rfl]
        · rw [if_neg hupdate]
          have hdelete : strippedAction params = py "delete" := by
            simpa [Helpers.actions, hlist, hcreate, hupdate] using haction
          apply Shaped.of_gate hdelete
          rw [hpop, if_neg (by decide), if_neg (by decide)]

/-! ### Registries -/

theorem asks_area_approved (action : PyStr) (params : Dict) :
    Prog.Asks (Op.IsRequest (CallsOnly [])) (AreaRegistry.approved action params) := by
  unfold AreaRegistry.approved
  split
  · apply asks_orReturn
    intro name _
    exact asks_wsCall trivial fun _ => trivial
  · split
    · apply asks_orReturn
      intro areaId _
      apply asks_orReturn
      intro attrs _
      exact asks_wsCall trivial fun _ => trivial
    · apply asks_orReturn
      intro areaId _
      exact asks_wsCall trivial fun _ => trivial

theorem area_gated [Runtime] :
    Gated (py "ha.config.area_registry") [py "list"] [] handleHaConfigAreaRegistry := by
  refine ⟨AreaRegistry.approved, asks_area_approved, ?_⟩
  intro params
  apply Shaped.of_withAction
  intro haction hkeys
  have hcaller : ∀ action ∈ AreaRegistry.actions,
      py "_openclaw_caller" ∉ keysIn AreaRegistry.actionKeys action := by decide
  have hpop := pop_eq_unreserved hkeys (hcaller _ haction)
  by_cases hlist : strippedAction params = py "list"
  · rw [if_pos hlist]
    apply Shaped.reading
    · rw [hlist]
      exact .head _
    · exact asks_listFrame _ (by decide)
  · rw [if_neg hlist]
    apply Shaped.of_gate rfl
    rw [hpop]

theorem asks_device_list (params : Dict) :
    Prog.Asks (Op.IsRequest IsRead) (DeviceRegistry.list params) := by
  unfold DeviceRegistry.list
  split
  · trivial
  · exact asks_listFrame _ (by decide)

theorem asks_device_update (params : Dict) :
    Prog.Asks (Op.IsRequest (CallsOnly [])) (DeviceRegistry.update params) := by
  apply asks_orReturn
  intro deviceId _
  apply asks_orReturn
  intro attrs _
  exact asks_wsCall trivial fun _ => trivial

theorem device_gated [Runtime] :
    Gated (py "ha.config.device_registry") [py "list"] [] handleHaConfigDeviceRegistry := by
  refine ⟨fun _ => DeviceRegistry.update, fun _ => asks_device_update, ?_⟩
  intro params
  apply Shaped.of_withAction
  intro haction hkeys
  have hcaller : ∀ action ∈ DeviceRegistry.actions,
      py "_openclaw_caller" ∉ keysIn DeviceRegistry.actionKeys action := by decide
  have hpop := pop_eq_unreserved hkeys (hcaller _ haction)
  by_cases hlist : strippedAction params = py "list"
  · rw [if_pos hlist]
    apply Shaped.reading
    · rw [hlist]
      exact .head _
    · exact asks_device_list params
  · rw [if_neg hlist]
    apply Shaped.of_gate rfl
    rw [hpop]

theorem asks_entity_list (params : Dict) :
    Prog.Asks (Op.IsRequest IsRead) (EntityRegistry.list params) := by
  unfold EntityRegistry.list
  split
  · trivial
  · exact asks_listFrame _ (by decide)

theorem asks_entity_get (params : Dict) :
    Prog.Asks (Op.IsRequest IsRead) (EntityRegistry.get params) := by
  apply asks_orReturn
  intro entityId _
  have htype : Dict.get? (List.reverse [(py "entity_id", Json.str entityId)]) (py "type") = none := by
    simp [Dict.get?_cons, py_inj]
  apply asks_wsCall (isRead_wsFrame htype (by decide))
  intro value
  cases value <;> trivial

theorem asks_entity_update (params : Dict) :
    Prog.Asks (Op.IsRequest (CallsOnly [])) (EntityRegistry.update params) := by
  apply asks_orReturn
  intro entityId _
  apply asks_orReturn
  intro attrs _
  exact asks_wsCall trivial fun _ => trivial

theorem asks_entity_remove (params : Dict) :
    Prog.Asks (Op.IsRequest (CallsOnly [])) (EntityRegistry.remove params) := by
  apply asks_orReturn
  intro entityId _
  exact asks_wsCall trivial fun _ => trivial

theorem entity_gated [Runtime] :
    Gated (py "ha.config.entity_registry") [py "list", py "get"] [] handleHaConfigEntityRegistry := by
  refine ⟨fun action p => if action = py "update" then EntityRegistry.update p
    else EntityRegistry.remove p, ?_, ?_⟩
  · intro action p
    exact asks_ite (asks_entity_update p) (asks_entity_remove p)
  · intro params
    apply Shaped.of_withAction
    intro haction hkeys
    have hcaller : ∀ action ∈ EntityRegistry.actions,
        py "_openclaw_caller" ∉ keysIn EntityRegistry.actionKeys action := by decide
    have hpop := pop_eq_unreserved hkeys (hcaller _ haction)
    by_cases hlist : strippedAction params = py "list"
    · rw [if_pos hlist]
      apply Shaped.reading
      · rw [hlist]
        exact .head _
      · exact asks_entity_list params
    · rw [if_neg hlist]
      by_cases hmutates : strippedAction params ∈ [py "update", py "remove"]
      · rw [if_pos hmutates]
        apply Shaped.of_gate rfl
        rw [hpop]
      · rw [if_neg hmutates]
        have hget : strippedAction params = py "get" := by
          rw [List.mem_pair, not_or] at hmutates
          simpa [EntityRegistry.actions, hlist, hmutates.1, hmutates.2] using haction
        apply Shaped.reading
        · rw [hget]
          exact .tail _ (.head _)
        · exact asks_entity_get params

/-! ### Config entries and Lovelace -/

theorem asks_entry_get (params : Dict) :
    Prog.Asks (Op.IsRequest IsRead) (ConfigEntries.getEntry params) := by
  apply asks_orReturn
  intro entryId _
  have htype : Dict.get? (List.reverse [(py "entry_id", Json.str entryId)]) (py "type") = none := by
    simp [Dict.get?_cons, py_inj]
  apply asks_wsCall (isRead_wsFrame htype (by decide))
  intro value
  cases value <;> trivial

theorem asks_entry_setDisabled (action : PyStr) (params : Dict) :
    Prog.Asks (Op.IsRequest (CallsOnly [])) (ConfigEntries.setDisabled action params) := by
  apply asks_orReturn
  intro entryId _
  exact asks_wsCall trivial fun _ => trivial

theorem entries_gated [Runtime] :
    Gated (py "ha.config.config_entries") [py "get"] [] handleHaConfigConfigEntries := by
  refine ⟨ConfigEntries.setDisabled, asks_entry_setDisabled, ?_⟩
  intro params
  apply Shaped.of_withAction
  intro haction hkeys
  have hcaller : ∀ action ∈ ConfigEntries.actions,
      py "_openclaw_caller" ∉ keysIn ConfigEntries.actionKeys action := by decide
  have hpop := pop_eq_unreserved hkeys (hcaller _ haction)
  by_cases hmutates : strippedAction params ∈ [py "disable", py "enable"]
  · rw [if_pos hmutates]
    apply Shaped.of_gate rfl
    rw [hpop]
  · rw [if_neg hmutates]
    have hget : strippedAction params = py "get" := by
      rw [List.mem_pair, not_or] at hmutates
      simpa [ConfigEntries.actions, hmutates.1, hmutates.2] using haction
    apply Shaped.reading
    · rw [hget]
      exact .head _
    · exact asks_entry_get params

theorem asks_lovelace_get (params : Dict) :
    Prog.Asks (Op.IsRequest IsRead) (Lovelace.get params) := by
  apply asks_orReturn
  intro urlPath _
  have htype : Dict.get? (Lovelace.urlPathEntry urlPath).reverse (py "type") = none := by
    cases urlPath with
    | none => rfl
    | some urlPath => simp [Lovelace.urlPathEntry, Dict.get?_cons, py_inj]
  apply asks_wsCall (isRead_wsFrame htype (by decide))
  intro value
  cases value <;> trivial

theorem asks_lovelace_save (params : Dict) :
    Prog.Asks (Op.IsRequest (CallsOnly [])) (Lovelace.save params) := by
  apply asks_orReturn
  intro config _
  apply asks_orReturn
  intro urlPath _
  exact asks_wsCall trivial fun _ => trivial

theorem asks_lovelace_createResource [Runtime] (params : Dict) :
    Prog.Asks (Op.IsRequest (CallsOnly [])) (Lovelace.createResource params) := by
  apply asks_orReturn
  intro url _
  apply asks_orReturn
  intro resType _
  split
  · trivial
  · exact asks_wsCall trivial fun _ => trivial

theorem lovelace_gated [Runtime] :
    Gated (py "ha.config.lovelace") [py "get", py "dashboards_list", py "resources_list"] []
      handleHaConfigLovelace := by
  refine ⟨fun action p => if action = py "save" then Lovelace.save p
    else Lovelace.createResource p, ?_, ?_⟩
  · intro action p
    exact asks_ite (asks_lovelace_save p) (asks_lovelace_createResource p)
  · intro params
    apply Shaped.of_withAction
    intro haction hkeys
    have hcaller : ∀ action ∈ Lovelace.actions,
        py "_openclaw_caller" ∉ keysIn Lovelace.actionKeys action := by decide
    have hpop := pop_eq_unreserved hkeys (hcaller _ haction)
    by_cases hget : strippedAction params = py "get"
    · rw [if_pos hget]
      apply Shaped.reading
      · rw [hget]
        exact .head _
      · exact asks_lovelace_get params
    · rw [if_neg hget]
      by_cases hsave : strippedAction params = py "save"
      · rw [if_pos hsave]
        apply Shaped.of_gate hsave
        rw [hpop, if_pos rfl]
      · rw [if_neg hsave]
        by_cases hdashboards : strippedAction params = py "dashboards_list"
        · rw [if_pos hdashboards]
          apply Shaped.reading
          · rw [hdashboards]
            exact .tail _ (.head _)
          · exact asks_listFrame _ (by decide)
        · rw [if_neg hdashboards]
          by_cases hresources : strippedAction params = py "resources_list"
          · rw [if_pos hresources]
            apply Shaped.reading
            · rw [hresources]
              exact .tail _ (.tail _ (.head _))
            · exact asks_listFrame _ (by decide)
          · rw [if_neg hresources]
            have hcreate : strippedAction params = py "resources_create" := by
              simpa [Lovelace.actions, hget, hsave, hdashboards, hresources] using haction
            apply Shaped.of_gate hcreate
            rw [hpop, if_neg (by decide)]

/-! ### Reload, update and the add-on lifecycle -/

/-- A command that takes no `action` key executes the empty action. -/
theorem strippedAction_nil {params : Dict} {allowed nullable : List PyStr}
    (h : strictKeysError params allowed nullable = none) (haction : py "action" ∉ allowed) :
    strippedAction params = [] := by
  have habsent : params.get? (py "action") = none := by
    cases hget : params.get? (py "action") with
    | none => rfl
    | some value =>
      have hmem : py "action" ∈ params.keys := by
        rw [← Dict.has_iff_mem_keys, Dict.has, hget]
        rfl
      exact absurd (keys_of_strictKeysError h _ hmem) haction
  unfold strippedAction
  rw [habsent]

/-- The service of `ha.reload_config`. -/
def reloadService : PyStr × PyStr := (py "homeassistant", py "reload_core_config")

/-- The service of `ha.update_install`. -/
def updateService : PyStr × PyStr := (py "update", py "install")

theorem reloadConfig_gated [Runtime] :
    Gated (py "ha.reload_config") [] [reloadService] handleHaReloadConfig := by
  refine ⟨fun _ _ => reloadCoreConfig, ?_, ?_⟩
  · intro _ _
    have hpost : CallsOnly [reloadService] (.post (py "/api/services/homeassistant/reload_core_config")
        none) := callsOnly_service _ (by decide) (by decide)
    exact asks_request hpost fun _ => trivial
  · intro params
    unfold handleHaReloadConfig
    split
    · exact .refused _
    · rename_i hkeys
      split
      · exact .refused _
      · exact Shaped.of_gate (strippedAction_nil hkeys (by decide)) rfl

/-- The service data does not depend on the marker. -/
theorem updateInstallData_unreserved [Runtime] (params : Dict) :
    updateInstallData (unreserved params) = updateInstallData params := by
  have hget : ∀ key, key ∉ reserved → (unreserved params).get? key = params.get? key := by
    intro key hkey
    exact get?_unreserved hkey
  unfold updateInstallData Dict.getD
  rw [hget _ (by decide), hget _ (by decide), hget _ (by decide)]

theorem updateInstall_gated [Runtime] :
    Gated (py "ha.update_install") [] [updateService] handleHaUpdateInstall := by
  refine ⟨fun _ p => orReturn (updateInstallData p) fun data => installUpdate data.1 data.2,
    ?_, ?_⟩
  · intro _ p
    apply asks_orReturn
    intro data _
    have hpost : CallsOnly [updateService] (.post (py "/api/services/update/install") (some data.2)) :=
      callsOnly_service _ (by decide) (by decide)
    exact asks_requestOrTimeout hpost fun _ => trivial
  · intro params
    unfold handleHaUpdateInstall
    split
    · exact .refused _
    · rename_i hkeys
      apply Shaped.of_orReturn
      intro data hdata
      apply Shaped.of_gate (strippedAction_nil hkeys (by decide))
      rw [updateInstallData_unreserved, hdata]
      rfl

theorem lifecycleSlug_unreserved [Runtime] (denylist : List PyStr) (params : Dict) :
    lifecycleSlug denylist (unreserved params) = lifecycleSlug denylist params := by
  unfold lifecycleSlug Dict.getD
  rw [get?_unreserved (by decide)]

theorem asks_runLifecycle (command action : PyStr) (desired : Option PyStr) (slug : PyStr) :
    Prog.Asks (Op.IsRequest (CallsOnly [])) (runLifecycle command action desired slug) := by
  apply asks_request trivial
  intro raw
  apply asks_ite (asks_respond _)
  apply asks_requestOrTimeout trivial
  intro _
  exact asks_requestOrTimeout trivial fun _ => trivial

theorem lifecycle_gated [Runtime] (command action : PyStr) (desired : Option PyStr) (denylist : List PyStr) :
    Gated command [] [] (handleAddonLifecycle command action desired denylist) := by
  refine ⟨fun _ p => orReturn (lifecycleSlug denylist p) (runLifecycle command action desired),
    ?_, ?_⟩
  · intro _ p
    apply asks_orReturn
    intro slug _
    exact asks_runLifecycle command action desired slug
  · intro params
    apply Shaped.of_orReturn
    intro slug hslug
    split
    · exact .refused _
    · rename_i hkeys
      apply Shaped.of_gate (strippedAction_nil hkeys (by decide))
      rw [lifecycleSlug_unreserved, hslug]
      rfl

/-! ## Runs of the gated commands -/

structure GatedCommand where
  name : PyStr
  /-- The actions that only read. -/
  reads : List PyStr
  /-- The services it calls once it is approved. -/
  services : List (PyStr × PyStr)
  handler : Handler

/-- Every command of the node that mutates Home Assistant or the Supervisor behind the gate. -/
def gatedCommands [Runtime] (denylist : List PyStr) : List GatedCommand :=
  [⟨py "ha.config.automation", [py "get"], [], handleHaConfigAutomation⟩,
   ⟨py "ha.config.script", [py "get"], [], handleHaConfigScript⟩,
   ⟨py "ha.config.scene", [py "get"], [], handleHaConfigScene⟩,
   ⟨py "ha.config.helpers", [py "list"], [], handleHaConfigHelpers⟩,
   ⟨py "ha.config.area_registry", [py "list"], [], handleHaConfigAreaRegistry⟩,
   ⟨py "ha.config.device_registry", [py "list"], [], handleHaConfigDeviceRegistry⟩,
   ⟨py "ha.config.entity_registry", [py "list", py "get"], [], handleHaConfigEntityRegistry⟩,
   ⟨py "ha.config.config_entries", [py "get"], [], handleHaConfigConfigEntries⟩,
   ⟨py "ha.config.lovelace", [py "get", py "dashboards_list", py "resources_list"], [],
     handleHaConfigLovelace⟩,
   ⟨py "ha.reload_config", [], [reloadService], handleHaReloadConfig⟩,
   ⟨py "ha.update_install", [], [updateService], handleHaUpdateInstall⟩,
   ⟨py "ha.addon_start", [], [], handleHaAddonStart denylist⟩,
   ⟨py "ha.addon_stop", [], [], handleHaAddonStop denylist⟩,
   ⟨py "ha.addon_restart", [], [], handleHaAddonRestart denylist⟩,
   ⟨py "ha.addon_update", [], [], handleHaAddonUpdate denylist⟩]

theorem gatedCommands_gated [Runtime] (denylist : List PyStr) :
    ∀ c ∈ gatedCommands denylist, Gated c.name c.reads c.services c.handler := by
  simp only [gatedCommands, List.forall_mem_cons]
  exact ⟨rest_gated _ _, rest_gated _ _, rest_gated _ _, helpers_gated, area_gated, device_gated,
    entity_gated, entries_gated, lovelace_gated, reloadConfig_gated, updateInstall_gated,
    lifecycle_gated _ _ _ _, lifecycle_gated _ _ _ _, lifecycle_gated _ _ _ _,
    lifecycle_gated _ _ _ _, fun _ h => nomatch h⟩

/-- The event of the gate on one call, with its verdict. -/
def gateEvent (command action : PyStr) (params : Dict) (verdict : Option Json) : Event Ans :=
  ⟨.consume command action params, verdict⟩

section
variable [Runtime] {ω : Type}

theorem exec_gate_denied (env : Environment ω) {command action : PyStr} {params : Dict}
    (k : Dict → Program) {used : UsedIds} {w : ω} {denied : Json}
    (h : (consumeApprovalMarker env.caller (env.now w) used command action params).refusal =
      some denied) :
    Prog.exec env.answer (gate command action params k) (used, w) =
      (.ok denied, [gateEvent command action params (some denied)],
        ((consumeApprovalMarker env.caller (env.now w) used command action params).used, w)) := by
  have hans : env.answer (.consume command action params) (used, w) = (some denied,
      (consumeApprovalMarker env.caller (env.now w) used command action params).used, w) :=
    Prod.ext h rfl
  unfold gate
  rw [Prog.exec_call hans]
  rfl

theorem exec_gate_approved (env : Environment ω) {command action : PyStr} {params : Dict}
    (k : Dict → Program) {used : UsedIds} {w : ω}
    (h : (consumeApprovalMarker env.caller (env.now w) used command action params).refusal = none) :
    let rest := Prog.exec env.answer (k (params.pop approvalParam))
      ((consumeApprovalMarker env.caller (env.now w) used command action params).used, w)
    Prog.exec env.answer (gate command action params k) (used, w) =
      (rest.1, gateEvent command action params none :: rest.2.1, rest.2.2) := by
  have hans : env.answer (.consume command action params) (used, w) = (none,
      (consumeApprovalMarker env.caller (env.now w) used command action params).used, w) :=
    Prod.ext h rfl
  unfold gate
  rw [Prog.exec_call hans]
  rfl

/-- A call that sends Home Assistant or the Supervisor anything but a read has first passed the
gate, once, on its own command and stripped action, and goes on as a function of what the marker
bound; a call that is refused sends nothing, and before the gate it uses up no marker. -/
theorem mutations_gated (denylist : List PyStr) (c : GatedCommand)
    (hc : c ∈ gatedCommands denylist) :
    ∃ body : PyStr → Dict → Program, ∀ {ω : Type} (env : Environment ω) (used : UsedIds) (w : ω)
      (params : Dict),
      let action := strippedAction params
      let verdict := consumeApprovalMarker env.caller (env.now w) used c.name action params
      let run := Prog.exec env.answer (c.handler params) (used, w)
      -- answered before the gate, or a read
      ((∀ e ∈ run.2.1, Op.IsRequest IsRead e.1) ∧ (action ∉ c.reads → run.2.1 = []) ∧
        run.2.2.1 = used) ∨
      -- refused by the gate
      (∃ denied, verdict.refusal = some denied ∧ run.1 = .ok denied ∧
        run.2.1 = [gateEvent c.name action params (some denied)] ∧
        ∀ e ∈ run.2.2.1, e ∈ used) ∨
      -- approved
      (verdict.refusal = none ∧ ∃ rest,
        run.2.1 = gateEvent c.name action params none :: rest ∧
        (∀ e ∈ rest, Op.IsRequest IsAny e.1) ∧
        (run.1, rest, run.2.2) =
          Prog.exec env.answer (body action (unreserved params)) (verdict.used, w)) := by
  cases gatedCommands_gated denylist c hc with
  | intro body h =>
    refine ⟨body, ?_⟩
    intro ω env used w params action verdict run
    have hshape := h.2 params
    generalize hp : c.handler params = p at hshape
    have hrun : run = Prog.exec env.answer p (used, w) := by rw [← hp]
    rw [hrun]
    cases hshape with
    | refused response =>
      left
      exact ⟨fun e he => absurd he List.not_mem_nil, fun _ => rfl, rfl⟩
    | reading haction hasks =>
      left
      have hpath := Prog.exec_path env.answer p (used, w)
      exact ⟨hasks.path hpath, fun hnot => absurd haction hnot, exec_used env hasks (used, w)⟩
    | gated =>
      right
      cases hverdict : verdict.refusal with
      | some denied =>
        left
        rw [exec_gate_denied env _ hverdict]
        have hrefused : verdict.refusal ≠ none := by
          rw [hverdict]
          exact Option.some_ne_none denied
        exact ⟨denied, rfl, rfl, rfl, consume_refused_used hrefused⟩
      | none =>
        right
        rw [exec_gate_approved env _ hverdict]
        have hrest := (h.1 action (unreserved params)).path
          (Prog.exec_path env.answer _ (verdict.used, w))
        exact ⟨rfl, _, rfl, fun e he => isAny_of_isRequest (hrest e he), rfl⟩

end

def createDoorParams : Dict := (py "action", .str (py "create")) :: doorParams

def createDoorMarker : Marker :=
  ⟨py "m2", 1060, py "c2698ec80cf278b44c9cdbb632e1b586fa26be7b988fb877490db1b8d24d215b"⟩

/-- A call that creates the helper `Door`, with its marker. -/
def createDoor : Dict :=
  createDoorParams ++ [(approvalParam, obj [("id", .str createDoorMarker.id),
    ("exp", .int createDoorMarker.exp), ("bind", .str createDoorMarker.bind)])]

@[reducible] def createDoorRuntime : Runtime :=
  Runtime.ofTable [(approvalText (py "ha.config.helpers") (py "create") createDoorParams,
    createDoorMarker.bind)]

/-- No Assist turn, and a Home Assistant that answers `null` to everything. -/
def nullWorld : Environment Unit where
  caller := none
  now := fun _ => 1000
  reply := fun _ w => (.ok .null, w)

/-- The gate passes, then one frame is sent. -/
theorem mutations_gated_createDoor :
    let _ := createDoorRuntime
    let run := Prog.exec nullWorld.answer (handleHaConfigHelpers createDoor) ([], ())
    ∃ rest, run.2.1 = gateEvent (py "ha.config.helpers") (py "create") createDoor none :: rest ∧
      rest.length = 1 ∧ ∀ e ∈ rest, Op.IsRequest IsAny e.1 := by
  intro _ run
  have hmem : (⟨py "ha.config.helpers", [py "list"], [], handleHaConfigHelpers⟩ : GatedCommand) ∈
      gatedCommands [] := .tail _ (.tail _ (.tail _ (.head _)))
  cases mutations_gated [] _ hmem with
  | intro body h =>
    have haction : strippedAction createDoor = py "create" := by decide
    have hlength : run.2.1.length = 2 := by decide
    cases h nullWorld [] () createDoor with
    | inl hreads =>
      have hnil := hreads.2.1 (by rw [haction]; decide)
      rw [show run.2.1 = [] from hnil] at hlength
      cases hlength
    | inr hgate =>
      cases hgate with
      | inl hdenied =>
        cases hdenied with
        | intro denied hdenied =>
          rw [show run.2.1 = _ from hdenied.2.2.1] at hlength
          cases hlength
      | inr happroved =>
        cases happroved.2 with
        | intro rest hrest =>
          have hrun : run.2.1 = gateEvent (py "ha.config.helpers") (py "create") createDoor none ::
              rest := by
            rw [← haction]
            exact hrest.1
          rw [hrun, List.length_cons] at hlength
          exact ⟨rest, hrun, Nat.succ.inj hlength, hrest.2.1⟩

end HassNode.MutationGate
