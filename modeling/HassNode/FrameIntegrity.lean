import HassNode.MutationGate

/-!
# What a WebSocket frame carries

The helpers and registry handlers merge the caller's `attrs` into the frame, and `ha_ws_call`
merges that payload over `id` and `type`.  A frame is the one its handler names exactly when the
merged `attrs` override none of the three keys that name it.
-/

namespace HassNode.FrameIntegrity

open Py Interaction ConfigMutation HaClient Commands HaConfig MutationGate

/-- The commands that merge `attrs`. -/
inductive Registry where
  | helpers | area | device | entity
deriving DecidableEq

namespace Registry

def command : Registry → PyStr
  | helpers => py "ha.config.helpers"
  | area => py "ha.config.area_registry"
  | device => py "ha.config.device_registry"
  | entity => py "ha.config.entity_registry"

def handler [Runtime] : Registry → Handler
  | helpers => handleHaConfigHelpers
  | area => handleHaConfigAreaRegistry
  | device => handleHaConfigDeviceRegistry
  | entity => handleHaConfigEntityRegistry

/-- The keys each action takes. -/
def keysOf (r : Registry) (params : Dict) (action : PyStr) : List PyStr :=
  match r with
  | helpers => Helpers.allowedKeys params action
  | area => keysIn AreaRegistry.actionKeys action
  | device => keysIn DeviceRegistry.actionKeys action
  | entity => keysIn EntityRegistry.actionKeys action

end Registry

/-- A param as the handlers name it: trimmed. -/
def stripped (name : PyStr) (params : Dict) : PyStr :=
  match params.get? name with
  | some (.str raw) => strip raw
  | _ => []

namespace Registry

/-- The type a handler names for the action of the call. -/
def frameType (r : Registry) (params : Dict) : PyStr :=
  let action := strippedAction params
  match r with
  | helpers => stripped (py "helper_type") params ++ py "/" ++ action
  | area => py "config/area_registry/" ++ action
  | device => py "config/device_registry/" ++ action
  | entity => py "config/entity_registry/" ++ action

/-- The key of the object the action is about, where it has one. -/
def targetKey (r : Registry) (params : Dict) : Option PyStr :=
  let action := strippedAction params
  match r with
  | helpers =>
    if action ∈ [py "update", py "delete"] then
      some (Helpers.itemKey (stripped (py "helper_type") params))
    else none
  | area => if action ∈ [py "update", py "delete"] then some (py "area_id") else none
  | device => if action = py "update" then some (py "device_id") else none
  | entity => if action = py "list" then none else some (py "entity_id")

/-- The actions whose frame takes `attrs`. -/
def merging : Registry → List PyStr
  | helpers | area => [py "create", py "update"]
  | device | entity => [py "update"]

end Registry

/-- The frame is the one the handler names: its type, id 1, and the trimmed top-level target. -/
structure Named (r : Registry) (params frame : Dict) : Prop where
  type : frame.get? (py "type") = some (.str (r.frameType params))
  id : frame.get? (py "id") = some (.int 1)
  target : ∀ key, r.targetKey params = some key →
    frame.get? key = some (.str (stripped key params))

/-- What the call merges into its frame. -/
def attrsOf (r : Registry) (params : Dict) : Dict :=
  if strippedAction params ∈ r.merging then
    match params.get? (py "attrs") with
    | some (.dict attrs) => attrs
    | _ => []
  else []

/-- `attrs` gives `key` another value than `value`; a later binding of a key wins the merge. -/
def Changes (attrs : Dict) (key : PyStr) (value : Json) : Prop :=
  ∃ other, Dict.get? attrs.reverse key = some other ∧ other ≠ value

/-- `attrs` overrides the type, the id or the target of the frame. -/
def Overrides (r : Registry) (params : Dict) : Prop :=
  Changes (attrsOf r params) (py "type") (.str (r.frameType params)) ∨
  Changes (attrsOf r params) (py "id") (.int 1) ∨
  ∃ key, r.targetKey params = some key ∧
    Changes (attrsOf r params) key (.str (stripped key params))

/-- A payload that takes `attrs` over what the handler puts in. -/
structure Merges (r : Registry) (params payload : Dict) : Prop where
  type : Dict.get? payload.reverse (py "type") = Dict.get? (attrsOf r params).reverse (py "type")
  id : Dict.get? payload.reverse (py "id") = Dict.get? (attrsOf r params).reverse (py "id")
  target : ∀ key, r.targetKey params = some key → Dict.get? payload.reverse key =
    (Dict.get? (attrsOf r params).reverse key).or (some (.str (stripped key params)))

/-- Merging `found` over `value` leaves `value` exactly when `found` does not differ. -/
theorem or_eq_iff {found : Option Json} {value : Json} :
    found.or (some value) = some value ↔ ¬ ∃ other, found = some other ∧ other ≠ value := by
  cases found with
  | none => simp
  | some other => simp

theorem targetKey_ne {r : Registry} {params : Dict} {key : PyStr}
    (h : r.targetKey params = some key) : key ≠ py "type" ∧ key ≠ py "id" := by
  have hitem : ∀ ht, Helpers.itemKey ht ≠ py "type" ∧ Helpers.itemKey ht ≠ py "id" := by
    intro ht
    have hsuffix : py "_id" <:+ Helpers.itemKey ht := List.suffix_append ht (py "_id")
    constructor
    · intro heq
      rw [heq] at hsuffix
      exact absurd hsuffix (by decide)
    · intro heq
      rw [heq] at hsuffix
      exact absurd hsuffix (by decide)
  unfold Registry.targetKey at h
  cases r with
  | helpers =>
    simp only [Option.ite_none_right_eq_some, Option.some.injEq] at h
    rw [← h.2]
    exact hitem _
  | area =>
    simp only [Option.ite_none_right_eq_some, Option.some.injEq] at h
    rw [← h.2]
    decide
  | device =>
    simp only [Option.ite_none_right_eq_some, Option.some.injEq] at h
    rw [← h.2]
    decide
  | entity =>
    simp only [Option.ite_none_left_eq_some, Option.some.injEq] at h
    rw [← h.2]
    decide

/-- The frame of a merged payload is the named one exactly when `attrs` override nothing. -/
theorem named_iff {r : Registry} {params payload : Dict} (h : Merges r params payload) :
    Named r params (wsFrame (r.frameType params) payload) ↔ ¬ Overrides r params := by
  have htype : (wsFrame (r.frameType params) payload).get? (py "type") =
      (Dict.get? (attrsOf r params).reverse (py "type")).or (some (.str (r.frameType params))) := by
    rw [get?_wsFrame, h.type]
    simp [Dict.get?_cons, py_inj]
  have hid : (wsFrame (r.frameType params) payload).get? (py "id") =
      (Dict.get? (attrsOf r params).reverse (py "id")).or (some (.int 1)) := by
    rw [get?_wsFrame, h.id]
    simp [Dict.get?_cons]
  have htarget : ∀ key, r.targetKey params = some key →
      (wsFrame (r.frameType params) payload).get? key =
        (Dict.get? (attrsOf r params).reverse key).or (some (.str (stripped key params))) := by
    intro key hkey
    have hne := targetKey_ne hkey
    rw [get?_wsFrame, h.target key hkey, Dict.get?_cons, if_neg hne.2, Dict.get?_cons, if_neg hne.1,
      Dict.get?_nil, Option.or_none]
  constructor
  · intro hnamed hoverrides
    cases hoverrides with
    | inl hchanges => exact or_eq_iff.mp (htype ▸ hnamed.type) hchanges
    | inr hoverrides =>
      cases hoverrides with
      | inl hchanges => exact or_eq_iff.mp (hid ▸ hnamed.id) hchanges
      | inr hoverrides =>
        cases hoverrides with
        | intro key hkey =>
          exact or_eq_iff.mp (htarget key hkey.1 ▸ hnamed.target key hkey.1) hkey.2
  · intro hnot
    refine ⟨?_, ?_, ?_⟩
    · rw [htype]
      exact or_eq_iff.mpr fun hchanges => hnot (.inl hchanges)
    · rw [hid]
      exact or_eq_iff.mpr fun hchanges => hnot (.inr (.inl hchanges))
    · intro key hkey
      rw [htarget key hkey]
      exact or_eq_iff.mpr fun hchanges => hnot (.inr (.inr ⟨key, hkey, hchanges⟩))

/-! ## What each handler sends -/

/-- A program that answers by itself, or sends one frame of the named type and then answers. -/
def Plain (r : Registry) (params : Dict) (p : Program) : Prop :=
  (∃ response, p = respond response) ∨
  ∃ payload k, p = wsCall (r.frameType params) payload k ∧ Merges r params payload ∧
    ∀ value, ∃ response, k value = respond response

theorem Plain.of_orReturn {r : Registry} {params : Dict} {α : Type} {checked : Except Json α}
    {k : α → Program} (hk : ∀ value, checked = .ok value → Plain r params (k value)) :
    Plain r params (orReturn checked k) := by
  cases checked with
  | error response => exact .inl ⟨response, rfl⟩
  | ok value => exact hk value rfl

theorem stripped_of_requireText {name : PyStr} {params : Dict} {text : PyStr}
    (h : requireText name params = .ok text) : text = stripped name params := by
  cases requireText_eq_ok h with
  | intro raw hraw =>
    unfold stripped
    rw [hraw.1]
    exact hraw.2

theorem stripped_of_requireHelperType [Runtime] {params : Dict} {ht : PyStr}
    (h : Helpers.requireHelperType params = .ok ht) : ht = stripped (py "helper_type") params := by
  unfold Helpers.requireHelperType at h
  cases htext : requireText (py "helper_type") params with
  | error response =>
    rw [htext] at h
    cases h
  | ok text =>
    rw [htext] at h
    by_cases hmem : text ∈ Helpers.helperTypes
    · simp only [if_pos hmem, Except.ok.injEq] at h
      rw [← h]
      exact stripped_of_requireText htext
    · simp only [if_neg hmem] at h
      cases h

theorem stripped_of_requireDeviceId {params : Dict} {id : PyStr}
    (h : DeviceRegistry.requireDeviceId params = .ok id) : id = stripped (py "device_id") params := by
  unfold DeviceRegistry.requireDeviceId at h
  split at h
  · rename_i raw hraw
    unfold stripped
    rw [hraw]
    by_cases hblank : strip raw = []
    · simp only [if_pos hblank] at h
      cases h
    · simp only [if_neg hblank, Except.ok.injEq] at h
      exact h.symm
  · cases h

section
variable {r : Registry} {params : Dict}

theorem attrsOf_not_merging (h : strippedAction params ∉ r.merging) : attrsOf r params = [] :=
  if_neg h

theorem merges_nil (h : strippedAction params ∉ r.merging) (htarget : r.targetKey params = none) :
    Merges r params [] := by
  refine ⟨?_, ?_, ?_⟩
  · rw [attrsOf_not_merging h]
  · rw [attrsOf_not_merging h]
  · intro key hkey
    rw [htarget] at hkey
    cases hkey

/-- The payload of a request that only names its object. -/
theorem merges_target (h : strippedAction params ∉ r.merging) {key id : PyStr}
    (htarget : r.targetKey params = some key) (hid : id = stripped key params) :
    Merges r params [(key, .str id)] := by
  have hne := targetKey_ne htarget
  refine ⟨?_, ?_, ?_⟩
  · rw [attrsOf_not_merging h, List.reverse_singleton, Dict.get?_cons, if_neg hne.1.symm]
    rfl
  · rw [attrsOf_not_merging h, List.reverse_singleton, Dict.get?_cons, if_neg hne.2.symm]
    rfl
  · intro key' hkey'
    rw [htarget, Option.some.injEq] at hkey'
    rw [attrsOf_not_merging h, ← hkey', List.reverse_singleton, Dict.get?_cons, if_pos rfl, hid]
    rfl

/-- A list frame with no payload. -/
theorem plain_listFrame {msgType : PyStr} (shape : List Json → Json)
    (h : strippedAction params ∉ r.merging) (htype : msgType = r.frameType params)
    (htarget : r.targetKey params = none) : Plain r params (listFrame msgType shape) := by
  right
  rw [htype]
  refine ⟨[], _, rfl, merges_nil h htarget, ?_⟩
  intro value
  cases value <;> exact ⟨_, rfl⟩

/-- The payload that puts `attrs` over one entry of the handler. -/
theorem merges_update {key : PyStr} {value : Json}
    (hkey : key ≠ py "type" ∧ key ≠ py "id")
    (htarget : ∀ target, r.targetKey params = some target →
      target = key ∧ value = .str (stripped key params)) :
    Merges r params (Dict.update [(key, value)] (attrsOf r params)) := by
  have hbase : (Dict.keys [(key, value)]).Nodup := List.nodup_singleton key
  have hnodup := Dict.nodup_keys_update hbase (attrsOf r params)
  refine ⟨?_, ?_, ?_⟩
  · rw [Dict.get?_reverse hnodup, Dict.get?_update, Dict.get?_cons, if_neg hkey.1.symm,
      Dict.get?_nil, Option.or_none]
  · rw [Dict.get?_reverse hnodup, Dict.get?_update, Dict.get?_cons, if_neg hkey.2.symm,
      Dict.get?_nil, Option.or_none]
  · intro target h
    have heq := htarget target h
    rw [Dict.get?_reverse hnodup, Dict.get?_update, heq.1, Dict.get?_cons, if_pos rfl, heq.2]

end

/-! ## Calls that merge nothing -/

/-- What the call does apart from merging `attrs`: at most one frame, of the named type, before or
after the gate. -/
def Harmless (r : Registry) (params : Dict) (p : Program) : Prop :=
  Plain r params p ∨ ∃ body, p = gate r.command (strippedAction params) params body ∧
    Plain r params (body (params.pop approvalParam))

theorem get?_pop_marker {params : Dict} {key : PyStr} (h : key ≠ approvalParam) :
    (params.pop approvalParam).get? key = params.get? key := by
  rw [Dict.get?_pop, if_neg h]

theorem requireText_pop {params : Dict} {name : PyStr} (h : name ≠ approvalParam) :
    requireText name (params.pop approvalParam) = requireText name params := by
  unfold requireText
  rw [get?_pop_marker h]

theorem requireDict_pop {params : Dict} {name : PyStr} (h : name ≠ approvalParam) :
    requireDict name (params.pop approvalParam) = requireDict name params := by
  unfold requireDict
  rw [get?_pop_marker h]

theorem requireHelperType_pop [Runtime] (params : Dict) :
    Helpers.requireHelperType (params.pop approvalParam) = Helpers.requireHelperType params := by
  unfold Helpers.requireHelperType
  rw [requireText_pop (by decide)]

theorem requireDeviceId_pop (params : Dict) :
    DeviceRegistry.requireDeviceId (params.pop approvalParam) =
      DeviceRegistry.requireDeviceId params := by
  unfold DeviceRegistry.requireDeviceId
  rw [get?_pop_marker (by decide)]

theorem itemKey_ne_marker (ht : PyStr) : Helpers.itemKey ht ≠ approvalParam := by
  intro heq
  have hsuffix : py "_id" <:+ Helpers.itemKey ht := List.suffix_append ht (py "_id")
  rw [heq] at hsuffix
  exact absurd hsuffix (by decide)

theorem Harmless.of_withAction [Runtime] {r : Registry} {params : Dict} {actions : List PyStr}
    {run : PyStr → Program}
    (hrun : strippedAction params ∈ actions →
      strictKeysError params (r.keysOf params (strippedAction params)) [] = none →
      Harmless r params (run (strippedAction params))) :
    Harmless r params (withAction actions (r.keysOf params) [] params run) := by
  cases withAction_cases actions (r.keysOf params) [] params run with
  | inl h => exact .inl (.inl h)
  | inr h =>
    rw [h.2.2]
    exact hrun h.1 h.2.1

section
variable [Runtime] {params : Dict}

theorem helpers_frameType {action : PyStr} (haction : strippedAction params = action) {ht : PyStr}
    (hht : Helpers.requireHelperType params = .ok ht) :
    Registry.helpers.frameType params = ht ++ py "/" ++ action := by
  unfold Registry.frameType
  rw [haction, stripped_of_requireHelperType hht]

theorem helpers_harmless
    (h : ¬ (strippedAction params ∈ Registry.helpers.merging ∧
      strictKeysError params (Registry.helpers.keysOf params (strippedAction params)) [] = none)) :
    Harmless .helpers params (handleHaConfigHelpers params) := by
  apply Harmless.of_withAction
  intro haction hkeys
  have hnot : strippedAction params ∉ Registry.helpers.merging := fun hm => h ⟨hm, hkeys⟩
  have hcreate : strippedAction params ≠ py "create" := fun heq => hnot (by rw [heq]; decide)
  have hupdate : strippedAction params ≠ py "update" := fun heq => hnot (by rw [heq]; decide)
  by_cases hlist : strippedAction params = py "list"
  · rw [if_pos hlist]
    left
    apply Plain.of_orReturn
    intro ht hht
    apply plain_listFrame _ hnot
    · rw [helpers_frameType hlist hht, List.append_assoc]
      rfl
    · unfold Registry.targetKey
      rw [hlist]
      rfl
  · have hdelete : strippedAction params = py "delete" := by
      simpa [Helpers.actions, hlist, hcreate, hupdate] using haction
    rw [if_neg hlist, if_neg hcreate, if_neg hupdate]
    right
    refine ⟨Helpers.delete, by rw [hdelete]; rfl, ?_⟩
    apply Plain.of_orReturn
    intro ht hht
    rw [requireHelperType_pop] at hht
    apply Plain.of_orReturn
    intro itemId hitem
    rw [requireText_pop (itemKey_ne_marker ht)] at hitem
    right
    have htype : ht ++ py "/delete" = Registry.helpers.frameType params := by
      rw [helpers_frameType hdelete hht, List.append_assoc]
      rfl
    rw [htype]
    have htarget : Registry.helpers.targetKey params = some (Helpers.itemKey ht) := by
      unfold Registry.targetKey
      rw [hdelete, ← stripped_of_requireHelperType hht]
      rfl
    exact ⟨_, _, rfl, merges_target hnot htarget (stripped_of_requireText hitem),
      fun _ => ⟨_, rfl⟩⟩

theorem area_harmless
    (h : ¬ (strippedAction params ∈ Registry.area.merging ∧
      strictKeysError params (Registry.area.keysOf params (strippedAction params)) [] = none)) :
    Harmless .area params (handleHaConfigAreaRegistry params) := by
  apply Harmless.of_withAction
  intro haction hkeys
  have hnot : strippedAction params ∉ Registry.area.merging := fun hm => h ⟨hm, hkeys⟩
  have hcreate : strippedAction params ≠ py "create" := fun heq => hnot (by rw [heq]; decide)
  have hupdate : strippedAction params ≠ py "update" := fun heq => hnot (by rw [heq]; decide)
  by_cases hlist : strippedAction params = py "list"
  · rw [if_pos hlist]
    left
    apply plain_listFrame _ hnot
    · unfold Registry.frameType
      rw [hlist]
      rfl
    · unfold Registry.targetKey
      rw [hlist]
      rfl
  · have hdelete : strippedAction params = py "delete" := by
      simpa [AreaRegistry.actions, hlist, hcreate, hupdate] using haction
    rw [if_neg hlist]
    right
    refine ⟨AreaRegistry.approved (strippedAction params), rfl, ?_⟩
    unfold AreaRegistry.approved
    rw [if_neg hcreate, if_neg hupdate]
    apply Plain.of_orReturn
    intro areaId hid
    rw [requireText_pop (by decide)] at hid
    right
    have htype : py "config/area_registry/delete" = Registry.area.frameType params := by
      unfold Registry.frameType
      rw [hdelete]
      rfl
    rw [htype]
    have htarget : Registry.area.targetKey params = some (py "area_id") := by
      unfold Registry.targetKey
      rw [hdelete]
      rfl
    exact ⟨_, _, rfl, merges_target hnot htarget (stripped_of_requireText hid), fun _ => ⟨_, rfl⟩⟩

theorem device_harmless
    (h : ¬ (strippedAction params ∈ Registry.device.merging ∧
      strictKeysError params (Registry.device.keysOf params (strippedAction params)) [] = none)) :
    Harmless .device params (handleHaConfigDeviceRegistry params) := by
  apply Harmless.of_withAction
  intro haction hkeys
  have hnot : strippedAction params ∉ Registry.device.merging := fun hm => h ⟨hm, hkeys⟩
  have hupdate : strippedAction params ≠ py "update" := fun heq => hnot (by rw [heq]; decide)
  have hlist : strippedAction params = py "list" := by
    simpa [DeviceRegistry.actions, hupdate] using haction
  rw [if_pos hlist]
  left
  unfold DeviceRegistry.list
  split
  · exact .inl ⟨_, rfl⟩
  · apply plain_listFrame _ hnot
    · unfold Registry.frameType
      rw [hlist]
      rfl
    · unfold Registry.targetKey
      rw [hlist]
      rfl

theorem entity_harmless
    (h : ¬ (strippedAction params ∈ Registry.entity.merging ∧
      strictKeysError params (Registry.entity.keysOf params (strippedAction params)) [] = none)) :
    Harmless .entity params (handleHaConfigEntityRegistry params) := by
  apply Harmless.of_withAction
  intro haction hkeys
  have hnot : strippedAction params ∉ Registry.entity.merging := fun hm => h ⟨hm, hkeys⟩
  have hupdate : strippedAction params ≠ py "update" := fun heq => hnot (by rw [heq]; decide)
  by_cases hlist : strippedAction params = py "list"
  · rw [if_pos hlist]
    left
    unfold EntityRegistry.list
    split
    · exact .inl ⟨_, rfl⟩
    · apply plain_listFrame _ hnot
      · unfold Registry.frameType
        rw [hlist]
        rfl
      · unfold Registry.targetKey
        rw [hlist]
        rfl
  · have htarget : Registry.entity.targetKey params = some (py "entity_id") := if_neg hlist
    rw [if_neg hlist]
    by_cases hremove : strippedAction params = py "remove"
    · rw [if_pos (by rw [hremove]; decide)]
      right
      refine ⟨_, rfl, ?_⟩
      rw [if_neg hupdate]
      apply Plain.of_orReturn
      intro entityId hid
      rw [requireText_pop (by decide)] at hid
      right
      have htype : py "config/entity_registry/remove" = Registry.entity.frameType params := by
        unfold Registry.frameType
        rw [hremove]
        rfl
      rw [htype]
      exact ⟨_, _, rfl, merges_target hnot htarget (stripped_of_requireText hid),
        fun _ => ⟨_, rfl⟩⟩
    · have hget : strippedAction params = py "get" := by
        simpa [EntityRegistry.actions, hlist, hupdate, hremove] using haction
      rw [if_neg (by rw [hget]; decide)]
      left
      apply Plain.of_orReturn
      intro entityId hid
      right
      have htype : py "config/entity_registry/get" = Registry.entity.frameType params := by
        unfold Registry.frameType
        rw [hget]
        rfl
      rw [htype]
      refine ⟨_, _, rfl, merges_target hnot htarget (stripped_of_requireText hid), ?_⟩
      intro value
      cases value <;> exact ⟨_, rfl⟩

end

/-! ## Calls that merge `attrs` -/

def Passes {α : Type} (checked : Except Json α) : Prop := ∃ value, checked = .ok value

/-- The checks that a merging call makes after the gate. -/
def Required [Runtime] (r : Registry) (params : Dict) : Prop :=
  let attrs := requireDict (py "attrs") params
  match r with
  | .helpers =>
    let key := Helpers.itemKey (stripped (py "helper_type") params)
    Passes (Helpers.requireHelperType params) ∧ Passes attrs ∧
      (strippedAction params = py "update" →
        Passes (requireText key params) ∧ (attrsOf .helpers params).has key = false)
  | .area =>
    if strippedAction params = py "create" then Passes (requireText (py "name") params)
    else Passes (requireText (py "area_id") params) ∧ Passes attrs
  | .device => Passes (DeviceRegistry.requireDeviceId params) ∧ Passes attrs
  | .entity => Passes (requireText (py "entity_id") params) ∧ Passes attrs

/-- The rest of a merging call: it sends its frame exactly when its checks pass. -/
def Sending [Runtime] (r : Registry) (params : Dict) (p : Program) : Prop :=
  (¬ Required r params ∧ ∃ response, p = respond response) ∨
  (Required r params ∧ ∃ payload k, p = wsCall (r.frameType params) payload k ∧
    Merges r params payload ∧ ∀ value, ∃ response, k value = respond response)

/-- A merging call goes to the gate and then sends its frame if its checks pass. -/
def MergingForm [Runtime] (r : Registry) (params : Dict) (p : Program) : Prop :=
  ∃ body, p = gate r.command (strippedAction params) params body ∧
    Sending r params (body (params.pop approvalParam))

theorem MergingForm.of_withAction [Runtime] {r : Registry} {params : Dict} {actions : List PyStr}
    {run : PyStr → Program} (haction : strippedAction params ∈ actions)
    (hne : strippedAction params ≠ [])
    (hkeys : strictKeysError params (r.keysOf params (strippedAction params)) [] = none)
    (hrun : MergingForm r params (run (strippedAction params))) :
    MergingForm r params (withAction actions (r.keysOf params) [] params run) := by
  rw [withAction_run haction hne hkeys]
  exact hrun

theorem attrsOf_eq {r : Registry} {params attrs : Dict} (haction : strippedAction params ∈ r.merging)
    (h : requireDict (py "attrs") params = .ok attrs) : attrsOf r params = attrs := by
  unfold attrsOf
  rw [if_pos haction, requireDict_eq_ok.mp h]

theorem not_passes {α : Type} {checked : Except Json α} {response : Json}
    (h : checked = .error response) : ¬ Passes checked := by
  intro hpass
  cases hpass with
  | intro value hvalue =>
    rw [h] at hvalue
    cases hvalue

section
variable [Runtime] {params : Dict}

/-- The registry updates: an id, `attrs`, and a frame that takes `attrs` over the id. -/
theorem sending_update {r : Registry} {key : PyStr} {checkedId : Except Json PyStr}
    {k : PyStr → Json → Program} (haction : strippedAction params ∈ r.merging)
    (hrequired : Required r params ↔
      Passes checkedId ∧ Passes (requireDict (py "attrs") params))
    (hid : ∀ id, checkedId = .ok id → id = stripped key params)
    (hkey : key ≠ py "type" ∧ key ≠ py "id") (htarget : r.targetKey params = some key)
    (hk : ∀ id value, ∃ response, k id value = respond response) :
    Sending r params (orReturn checkedId fun id =>
      orReturn (requireDict (py "attrs") (params.pop approvalParam)) fun attrs =>
      wsCall (r.frameType params) (Dict.update [(key, .str id)] attrs) (k id)) := by
  unfold Sending
  rw [hrequired, requireDict_pop (by decide)]
  cases hchecked : checkedId with
  | error response =>
    left
    exact ⟨fun h => not_passes rfl h.1, response, rfl⟩
  | ok id =>
    cases hattrs : requireDict (py "attrs") params with
    | error response =>
      left
      exact ⟨fun h => not_passes rfl h.2, response, rfl⟩
    | ok attrs =>
      right
      refine ⟨⟨⟨id, rfl⟩, ⟨attrs, rfl⟩⟩, _, k id, rfl, ?_, hk id⟩
      rw [← attrsOf_eq haction hattrs]
      apply merges_update hkey
      intro target h
      rw [htarget, Option.some.injEq] at h
      exact ⟨h.symm, by rw [← hid id hchecked]⟩

theorem device_merging (haction : strippedAction params ∈ Registry.device.merging)
    (hkeys : strictKeysError params (Registry.device.keysOf params (strippedAction params)) [] =
      none) : MergingForm .device params (handleHaConfigDeviceRegistry params) := by
  have hupdate : strippedAction params = py "update" := List.mem_singleton.mp haction
  apply MergingForm.of_withAction (by rw [hupdate]; decide) (by rw [hupdate]; decide) hkeys
  rw [if_neg (by rw [hupdate]; decide)]
  refine ⟨DeviceRegistry.update, rfl, ?_⟩
  have htype : py "config/device_registry/update" = Registry.device.frameType params := by
    unfold Registry.frameType
    rw [hupdate]
    rfl
  unfold DeviceRegistry.update
  rw [htype, requireDeviceId_pop]
  exact sending_update haction Iff.rfl (fun _ h => stripped_of_requireDeviceId h) (by decide)
    (if_pos hupdate) fun _ _ => ⟨_, rfl⟩

theorem entity_merging (haction : strippedAction params ∈ Registry.entity.merging)
    (hkeys : strictKeysError params (Registry.entity.keysOf params (strippedAction params)) [] =
      none) : MergingForm .entity params (handleHaConfigEntityRegistry params) := by
  have hupdate : strippedAction params = py "update" := List.mem_singleton.mp haction
  apply MergingForm.of_withAction (by rw [hupdate]; decide) (by rw [hupdate]; decide) hkeys
  rw [if_neg (by rw [hupdate]; decide), if_pos (by rw [hupdate]; decide)]
  refine ⟨_, rfl, ?_⟩
  have htype : py "config/entity_registry/update" = Registry.entity.frameType params := by
    unfold Registry.frameType
    rw [hupdate]
    rfl
  have htarget : Registry.entity.targetKey params = some (py "entity_id") :=
    if_neg (by rw [hupdate]; decide)
  unfold EntityRegistry.update
  rw [if_pos hupdate, htype, requireText_pop (by decide)]
  exact sending_update haction Iff.rfl (fun _ h => stripped_of_requireText h) (by decide)
    htarget fun _ _ => ⟨_, rfl⟩

theorem area_merging (haction : strippedAction params ∈ Registry.area.merging)
    (hkeys : strictKeysError params (Registry.area.keysOf params (strippedAction params)) [] =
      none) : MergingForm .area params (handleHaConfigAreaRegistry params) := by
  have hactions : ∀ action ∈ Registry.area.merging,
      action ∈ AreaRegistry.actions ∧ action ≠ [] ∧ action ≠ py "list" := by decide
  have hknown := hactions _ haction
  apply MergingForm.of_withAction hknown.1 hknown.2.1 hkeys
  rw [if_neg hknown.2.2]
  refine ⟨AreaRegistry.approved (strippedAction params), rfl, ?_⟩
  unfold AreaRegistry.approved
  by_cases hcreate : strippedAction params = py "create"
  · have hrequired : Required .area params ↔ Passes (requireText (py "name") params) := by
      show (if strippedAction params = py "create" then _ else _) ↔ _
      rw [if_pos hcreate]
    have htype : py "config/area_registry/create" = Registry.area.frameType params := by
      unfold Registry.frameType
      rw [hcreate]
      rfl
    unfold Sending AreaRegistry.create
    rw [if_pos hcreate, hrequired, htype, requireText_pop (by decide), get?_pop_marker (by decide)]
    cases hname : requireText (py "name") params with
    | error response =>
      left
      exact ⟨not_passes rfl, response, rfl⟩
    | ok name =>
      right
      refine ⟨⟨name, rfl⟩, Dict.update [(py "name", .str name)] (attrsOf .area params),
        fun area => respond (obj [("ok", .bool true), ("area", area)]), ?_, ?_,
        fun _ => ⟨_, rfl⟩⟩
      · unfold attrsOf
        rw [if_pos haction]
        -- `attrs` that is not a dict is left out
        cases params.get? (py "attrs") with
        | none => rfl
        | some attrs => cases attrs <;> rfl
      · apply merges_update (by decide)
        intro target h
        have hnone : Registry.area.targetKey params = none := if_neg (by rw [hcreate]; decide)
        rw [hnone] at h
        cases h
  · have hupdate : strippedAction params = py "update" := by
      simpa [Registry.merging, hcreate] using haction
    have hrequired : Required .area params ↔ Passes (requireText (py "area_id") params) ∧
        Passes (requireDict (py "attrs") params) := by
      show (if strippedAction params = py "create" then _ else _) ↔ _
      rw [if_neg hcreate]
    have htype : py "config/area_registry/update" = Registry.area.frameType params := by
      unfold Registry.frameType
      rw [hupdate]
      rfl
    have htarget : Registry.area.targetKey params = some (py "area_id") :=
      if_pos (by rw [hupdate]; decide)
    unfold AreaRegistry.update
    rw [if_neg hcreate, if_pos hupdate, htype, requireText_pop (by decide)]
    exact sending_update haction hrequired (fun _ h => stripped_of_requireText h) (by decide)
      htarget fun _ _ => ⟨_, rfl⟩

theorem helpers_merging_create (haction : strippedAction params ∈ Registry.helpers.merging)
    (hcreate : strippedAction params = py "create") :
    Sending .helpers params (Helpers.create (params.pop approvalParam)) := by
  have hrequired : Required .helpers params ↔ Passes (Helpers.requireHelperType params) ∧
      Passes (requireDict (py "attrs") params) := by
    constructor
    · intro h
      exact ⟨h.1, h.2.1⟩
    · intro h
      exact ⟨h.1, h.2, fun hupdate => absurd (hcreate.symm.trans hupdate) (by decide)⟩
  unfold Sending Helpers.create
  rw [hrequired, requireHelperType_pop, requireDict_pop (by decide)]
  cases hht : Helpers.requireHelperType params with
  | error response =>
    left
    exact ⟨fun h => not_passes rfl h.1, response, rfl⟩
  | ok ht =>
    cases hattrs : requireDict (py "attrs") params with
    | error response =>
      left
      exact ⟨fun h => not_passes rfl h.2, response, rfl⟩
    | ok attrs =>
      right
      have htype : ht ++ py "/create" = Registry.helpers.frameType params := by
        rw [helpers_frameType hcreate hht, List.append_assoc]
        rfl
      have htarget : Registry.helpers.targetKey params = none :=
        if_neg (by rw [hcreate]; decide)
      refine ⟨⟨⟨ht, rfl⟩, ⟨attrs, rfl⟩⟩, attrs, fun helper => respond (obj [("ok", .bool true),
        ("helper_type", .str ht), ("helper", helper)]), ?_, ?_, fun _ => ⟨_, rfl⟩⟩
      · rw [← htype]
        rfl
      · refine ⟨?_, ?_, ?_⟩
        · rw [attrsOf_eq haction hattrs]
        · rw [attrsOf_eq haction hattrs]
        · intro key hkey
          rw [htarget] at hkey
          cases hkey

theorem helpers_merging_update (haction : strippedAction params ∈ Registry.helpers.merging)
    (hupdate : strippedAction params = py "update") :
    Sending .helpers params (Helpers.update (params.pop approvalParam)) := by
  unfold Sending Helpers.update
  rw [requireHelperType_pop, requireDict_pop (by decide)]
  cases hht : Helpers.requireHelperType params with
  | error response =>
    left
    exact ⟨fun h => not_passes hht h.1, response, rfl⟩
  | ok ht =>
    have hkey : Helpers.itemKey (stripped (py "helper_type") params) = Helpers.itemKey ht := by
      rw [← stripped_of_requireHelperType hht]
    simp only [orReturn, requireText_pop (itemKey_ne_marker ht)]
    cases hid : requireText (Helpers.itemKey ht) params with
    | error response =>
      left
      refine ⟨fun h => ?_, response, rfl⟩
      have hpass := (h.2.2 hupdate).1
      rw [hkey] at hpass
      exact not_passes hid hpass
    | ok itemId =>
      cases hattrs : requireDict (py "attrs") params with
      | error response =>
        left
        exact ⟨fun h => not_passes hattrs h.2.1, response, rfl⟩
      | ok attrs =>
        have hattrsOf := attrsOf_eq haction hattrs
        cases hhas : attrs.has (Helpers.itemKey ht) with
        | true =>
          left
          refine ⟨fun h => ?_, _, if_pos hhas⟩
          have hfree := (h.2.2 hupdate).2
          rw [hkey, hattrsOf, hhas] at hfree
          cases hfree
        | false =>
          right
          have htype : ht ++ py "/update" = Registry.helpers.frameType params := by
            rw [helpers_frameType hupdate hht, List.append_assoc]
            rfl
          have hnot : Helpers.itemKey ht ∉ attrs.keys := by
            rw [← Dict.has_iff_mem_keys, hhas]
            exact Bool.false_ne_true
          have htarget : Registry.helpers.targetKey params = some (Helpers.itemKey ht) := by
            rw [← hkey]
            exact if_pos (by rw [hupdate]; decide)
          have hne := targetKey_ne htarget
          refine ⟨⟨⟨ht, hht⟩, ⟨attrs, hattrs⟩, fun _ => ?_⟩,
            attrs.set (Helpers.itemKey ht) (.str itemId), fun helper => respond (.dict
              [(py "ok", .bool true), (py "helper_type", .str ht),
                (Helpers.itemKey ht, .str itemId), (py "helper", helper)]),
            ?_, ?_, fun _ => ⟨_, rfl⟩⟩
          · rw [hkey, hattrsOf]
            exact ⟨⟨itemId, hid⟩, hhas⟩
          · simp only [hhas, Bool.false_eq_true, if_false]
            rw [← htype]
          · rw [Dict.set_of_not_mem hnot]
            -- the item key is not in `attrs`, so it stands last
            refine ⟨?_, ?_, ?_⟩
            · rw [hattrsOf, List.reverse_append, List.reverse_singleton, List.singleton_append,
                Dict.get?_cons, if_neg hne.1.symm]
            · rw [hattrsOf, List.reverse_append, List.reverse_singleton, List.singleton_append,
                Dict.get?_cons, if_neg hne.2.symm]
            · intro key h
              rw [htarget, Option.some.injEq] at h
              have habsent : Dict.get? attrs.reverse (Helpers.itemKey ht) = none := by
                cases hget : Dict.get? attrs.reverse (Helpers.itemKey ht) with
                | none => rfl
                | some value =>
                  have hmem : Helpers.itemKey ht ∈ Dict.keys attrs.reverse :=
                    Dict.has_iff_mem_keys.mp (by rw [Dict.has, hget]; rfl)
                  rw [Dict.keys, List.map_reverse, List.mem_reverse] at hmem
                  exact absurd hmem hnot
              rw [hattrsOf, ← h, List.reverse_append, List.reverse_singleton, List.singleton_append,
                Dict.get?_cons, if_pos rfl, habsent, ← stripped_of_requireText hid]
              rfl

theorem helpers_merging (haction : strippedAction params ∈ Registry.helpers.merging)
    (hkeys : strictKeysError params (Registry.helpers.keysOf params (strippedAction params)) [] =
      none) : MergingForm .helpers params (handleHaConfigHelpers params) := by
  have hactions : ∀ action ∈ Registry.helpers.merging,
      action ∈ Helpers.actions ∧ action ≠ [] ∧ action ≠ py "list" := by decide
  have hknown := hactions _ haction
  apply MergingForm.of_withAction hknown.1 hknown.2.1 hkeys
  rw [if_neg hknown.2.2]
  by_cases hcreate : strippedAction params = py "create"
  · rw [if_pos hcreate]
    exact ⟨Helpers.create, by rw [hcreate]; rfl, helpers_merging_create haction hcreate⟩
  · have hupdate : strippedAction params = py "update" := by
      simpa [Registry.merging, hcreate] using haction
    rw [if_neg hcreate, if_pos hupdate]
    exact ⟨Helpers.update, by rw [hupdate]; rfl, helpers_merging_update haction hupdate⟩

theorem handler_merging {r : Registry} (haction : strippedAction params ∈ r.merging)
    (hkeys : strictKeysError params (r.keysOf params (strippedAction params)) [] = none) :
    MergingForm r params (r.handler params) := by
  cases r with
  | helpers => exact helpers_merging haction hkeys
  | area => exact area_merging haction hkeys
  | device => exact device_merging haction hkeys
  | entity => exact entity_merging haction hkeys

/-- A key that the action does not take ends the call in the prologue. -/
theorem handler_refused {r : Registry}
    (h : strictKeysError params (r.keysOf params (strippedAction params)) [] ≠ none) :
    ∃ response, r.handler params = respond response := by
  have hprologue : ∀ actions run,
      ∃ response, withAction actions (r.keysOf params) [] params run = respond response := by
    intro actions run
    cases withAction_cases actions (r.keysOf params) [] params run with
    | inl hresponse => exact hresponse
    | inr hrun => exact absurd hrun.2.1 h
  cases r with
  | helpers =>
    unfold Registry.handler handleHaConfigHelpers
    exact hprologue _ _
  | area =>
    unfold Registry.handler handleHaConfigAreaRegistry
    exact hprologue _ _
  | device =>
    unfold Registry.handler handleHaConfigDeviceRegistry
    exact hprologue _ _
  | entity =>
    unfold Registry.handler handleHaConfigEntityRegistry
    exact hprologue _ _

theorem handler_harmless {r : Registry}
    (h : ¬ (strippedAction params ∈ r.merging ∧
      strictKeysError params (r.keysOf params (strippedAction params)) [] = none)) :
    Harmless r params (r.handler params) := by
  cases r with
  | helpers => exact helpers_harmless h
  | area => exact area_harmless h
  | device => exact device_harmless h
  | entity => exact entity_harmless h

end

/-! ## The frames of a run -/

/-- The frames that were sent, in order. -/
def framesOf (events : List (Event Ans)) : List Dict :=
  events.filterMap fun
    | ⟨.request (.ws frame), _⟩ => some frame
    | _ => none

section
variable [Runtime] {ω : Type} {r : Registry} {params : Dict}

theorem framesOf_wsCall (env : Environment ω) (msgType : PyStr) (payload : Dict)
    {k : Json → Program} (hk : ∀ value, ∃ response, k value = respond response) (s : UsedIds × ω) :
    framesOf (Prog.exec env.answer (wsCall msgType payload k) s).2.1 = [wsFrame msgType payload] := by
  have hans : env.answer (.request (.ws (wsFrame msgType payload))) s =
      ((env.reply (.ws (wsFrame msgType payload)) s.2).1, s.1,
        (env.reply (.ws (wsFrame msgType payload)) s.2).2) := rfl
  unfold wsCall request
  rw [Prog.exec_call hans]
  cases (env.reply (.ws (wsFrame msgType payload)) s.2).1 with
  | ok value =>
    cases hk value with
    | intro response hresponse =>
      simp only [hresponse]
      rfl
  | error exc => cases exc <;> rfl

theorem framesOf_plain (env : Environment ω) {p : Program} (h : Plain r params p)
    (hnot : ¬ Overrides r params) (s : UsedIds × ω) :
    ∀ frame ∈ framesOf (Prog.exec env.answer p s).2.1, Named r params frame := by
  cases h with
  | inl h =>
    cases h with
    | intro response h =>
      rw [h]
      exact fun frame hframe => absurd hframe List.not_mem_nil
  | inr h =>
    cases h with
    | intro payload h =>
      cases h with
      | intro k h =>
        rw [h.1, framesOf_wsCall env _ _ h.2.2]
        intro frame hframe
        rw [List.mem_singleton.mp hframe]
        exact (named_iff h.2.1).mpr hnot

/-- The frames of a gated program: none when the gate refuses, else those of the rest. -/
theorem framesOf_gate (env : Environment ω) (command action : PyStr) (params : Dict)
    (k : Dict → Program) (used : UsedIds) (w : ω) :
    let verdict := consumeApprovalMarker env.caller (env.now w) used command action params
    framesOf (Prog.exec env.answer (gate command action params k) (used, w)).2.1 =
      if verdict.refusal = none then
        framesOf (Prog.exec env.answer (k (params.pop approvalParam)) (verdict.used, w)).2.1
      else [] := by
  intro verdict
  cases hverdict : verdict.refusal with
  | none =>
    rw [exec_gate_approved env k hverdict, if_pos rfl]
    rfl
  | some denied =>
    rw [exec_gate_denied env k hverdict, if_neg (Option.some_ne_none denied)]
    rfl

/-- The call passes its checks and the gate, so that its merged frame is sent. -/
def Sent (r : Registry) (env : Environment ω) (used : UsedIds) (w : ω) (params : Dict) : Prop :=
  strippedAction params ∈ r.merging ∧
  strictKeysError params (r.keysOf params (strippedAction params)) [] = none ∧
  (consumeApprovalMarker env.caller (env.now w) used r.command (strippedAction params)
    params).refusal = none ∧
  Required r params

omit [Runtime] in
theorem overrides_merging (h : Overrides r params) : strippedAction params ∈ r.merging := by
  by_contra hnot
  have hnil : attrsOf r params = [] := attrsOf_not_merging hnot
  unfold Overrides at h
  rw [hnil] at h
  have hnone : ∀ key value, ¬ Changes [] key value := by
    intro key value hchanges
    cases hchanges with
    | intro other hother => cases hother.1
  cases h with
  | inl h => exact hnone _ _ h
  | inr h =>
    cases h with
    | inl h => exact hnone _ _ h
    | inr h =>
      cases h with
      | intro key hkey => exact hnone _ _ hkey.2

/-- Every frame of a call is the one its handler names exactly when the call is refused before its
frame or its `attrs` override none of the type, the id and the target. -/
theorem frames_named_iff (r : Registry) (env : Environment ω) (used : UsedIds) (w : ω)
    (params : Dict) :
    (∀ frame ∈ framesOf (Prog.exec env.answer (r.handler params) (used, w)).2.1,
      Named r params frame) ↔ ¬ (Sent r env used w params ∧ Overrides r params) := by
  by_cases hmerging : strippedAction params ∈ r.merging ∧
      strictKeysError params (r.keysOf params (strippedAction params)) [] = none
  · cases handler_merging hmerging.1 hmerging.2 with
    | intro body h =>
      rw [h.1, framesOf_gate env r.command (strippedAction params) params body used w]
      by_cases hverdict : (consumeApprovalMarker env.caller (env.now w) used r.command
          (strippedAction params) params).refusal = none
      · rw [if_pos hverdict]
        cases h.2 with
        | inl hrefused =>
          cases hrefused.2 with
          | intro response hresponse =>
            rw [hresponse]
            constructor
            · intro _ hsent
              exact hrefused.1 hsent.1.2.2.2
            · exact fun _ frame hframe => absurd hframe List.not_mem_nil
        | inr hsends =>
          cases hsends.2 with
          | intro payload hpayload =>
            cases hpayload with
            | intro k hk =>
              rw [hk.1, framesOf_wsCall env _ _ hk.2.2, List.forall_mem_singleton,
                named_iff hk.2.1]
              constructor
              · exact fun hnot hsent => hnot hsent.2
              · exact fun hnot hoverrides =>
                  hnot ⟨⟨hmerging.1, hmerging.2, hverdict, hsends.1⟩, hoverrides⟩
      · rw [if_neg hverdict]
        constructor
        · exact fun _ hsent => hverdict hsent.1.2.2.1
        · exact fun _ frame hframe => absurd hframe List.not_mem_nil
  · constructor
    · exact fun _ hsent => hmerging ⟨hsent.1.1, hsent.1.2.1⟩
    · intro _
      by_cases hoverrides : Overrides r params
      · -- refused by the prologue, so that nothing is sent
        have haction := overrides_merging hoverrides
        cases handler_refused fun hkeys => hmerging ⟨haction, hkeys⟩ with
        | intro response h =>
          rw [h]
          exact fun frame hframe => absurd hframe List.not_mem_nil
      · cases handler_harmless hmerging with
        | inl hplain => exact framesOf_plain env hplain hoverrides (used, w)
        | inr hgate =>
          cases hgate with
          | intro body h =>
            rw [h.1, framesOf_gate env r.command (strippedAction params) params body used w]
            by_cases hverdict : (consumeApprovalMarker env.caller (env.now w) used r.command
                (strippedAction params) params).refusal = none
            · rw [if_pos hverdict]
              exact framesOf_plain env h.2 hoverrides _
            · rw [if_neg hverdict]
              exact fun frame hframe => absurd hframe List.not_mem_nil

end

/-- An admin in a live Assist turn, and a Home Assistant that answers `null`. -/
def adminWorld : Environment Unit where
  caller := some ⟨.admin, py "u1", []⟩
  now := fun _ => 1000
  reply := fun _ w => (.ok .null, w)

/-- An update of one entity whose `attrs` name another command. -/
def smuggledRemove : Dict :=
  [(py "action", .str (py "update")), (py "entity_id", .str (py "light.kitchen")),
   (py "attrs", obj [("type", .str (py "config/entity_registry/remove"))])]

/-- The update, which an admin needs no approval for, sends the frame that removes the entity. -/
theorem frames_not_named :
    let _ := Runtime.ofTable []
    let frames :=
      framesOf (Prog.exec adminWorld.answer (Registry.entity.handler smuggledRemove) ([], ())).2.1
    frames = [[(py "id", .int 1), (py "type", .str (py "config/entity_registry/remove")),
      (py "entity_id", .str (py "light.kitchen"))]] ∧
    ¬ ∀ frame ∈ frames, Named .entity smuggledRemove frame := by
  intro _ frames
  have hframes : frames = [[(py "id", .int 1), (py "type", .str (py "config/entity_registry/remove")),
      (py "entity_id", .str (py "light.kitchen"))]] := by decide
  refine ⟨hframes, ?_⟩
  rw [hframes, List.forall_mem_singleton]
  intro hnamed
  exact absurd hnamed.type (by decide)

end HassNode.FrameIntegrity
