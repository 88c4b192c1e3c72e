import HassNode.Commands.HaServices

/-!
# The completeness flag

After a service call that changed no state the node reads the states of the entities that the target
names, and says whether these are all.  `path_withObservedStates` lists the runs of that observation;
`flag_honest_iff` says for which calls the flag can be believed, whatever the reads bring.
-/

namespace HassNode.HaServices

open Py Interaction HaClient Commands Authz

/-! ## The observation -/

/-- The read of the state of one entity, with its outcome. -/
def stateRead (entry : PyStr × PyStr) (outcome : Result) : Event Ans :=
  ⟨.request (.get entry.2), outcome⟩

/-- The states among the outcomes of some reads. -/
def observed (outcomes : List Result) : List Json :=
  outcomes.filterMap fun
    | .ok (.dict state) => some (.dict state)
    | _ => none

/-- `composite`. -/
def composite (target : Dict) : Bool :=
  truthy (target.getD (py "area_id") .null) || truthy (target.getD (py "device_id") .null)

variable {paths : List (PyStr × PyStr)} {ids : List PyStr} {target : Dict}
  {reads : List (Event Ans)} {reply : Result}

theorem observed_cons (outcome : Result) (outcomes : List Result) :
    observed (outcome :: outcomes) = observed [outcome] ++ observed outcomes := by
  unfold observed
  rw [← List.filterMap_append]
  rfl

/-- The first read. -/
theorem path_readStates_cons {entry : PyStr × PyStr} {states : List Json}
    {k : List Json → Program} : Prog.Path (readStates (entry :: paths) states k) reads reply ↔
      ∃ (outcome : Result) (later : List (Event Ans)), reads = stateRead entry outcome :: later ∧
        Prog.Path (readStates paths (states ++ observed [outcome]) k) later reply := by
  have hnone : states ++ [] = states := List.append_nil states
  have hskip : ∀ value, (∀ state, value ≠ .dict state) →
      states ++ observed [.ok value] = states := by
    intro value hvalue
    cases value with
    | dict state => exact absurd rfl (hvalue state)
    | null | bool _ | int _ | float _ | str _ | list _ => exact hnone
  rw [readStates, Prog.path_call_iff]
  constructor
  · rintro ⟨outcome, later, rfl, h⟩
    refine ⟨outcome, later, rfl, ?_⟩
    cases outcome with
    | error exc =>
      show Prog.Path (readStates paths (states ++ []) k) later reply
      rw [hnone]
      exact h
    | ok value =>
      cases value with
      | dict state => exact h
      | null | bool _ | int _ | float _ | str _ | list _ =>
        rw [hskip _ fun _ heq => by cases heq]
        exact h
  · rintro ⟨outcome, later, rfl, h⟩
    refine ⟨outcome, later, rfl, ?_⟩
    cases outcome with
    | error exc =>
      change Prog.Path (readStates paths (states ++ []) k) later reply at h
      rw [hnone] at h
      exact h
    | ok value =>
      cases value with
      | dict state => exact h
      | null | bool _ | int _ | float _ | str _ | list _ =>
        rw [hskip _ fun _ heq => by cases heq] at h
        exact h

/-- A run of the reads: each has an outcome of its own. -/
theorem path_readStates {states : List Json} {k : List Json → Program} :
    Prog.Path (readStates paths states k) reads reply ↔ ∃ outcomes rest,
      outcomes.length = paths.length ∧ reads = List.zipWith stateRead paths outcomes ++ rest ∧
        Prog.Path (k (states ++ observed outcomes)) rest reply := by
  induction paths generalizing states reads with
  | nil =>
    constructor
    · intro h
      refine ⟨[], reads, rfl, rfl, ?_⟩
      rw [show observed [] = [] from rfl, List.append_nil]
      exact h
    · rintro ⟨outcomes, rest, hlength, rfl, h⟩
      cases List.length_eq_zero_iff.mp hlength
      rw [show observed [] = [] from rfl, List.append_nil] at h
      exact h
  | cons entry paths ih =>
    rw [path_readStates_cons]
    constructor
    · rintro ⟨outcome, later, rfl, h⟩
      obtain ⟨outcomes, rest, hlength, rfl, hrest⟩ := ih.mp h
      refine ⟨outcome :: outcomes, rest, by simp [hlength], rfl, ?_⟩
      rw [observed_cons, ← List.append_assoc]
      exact hrest
    · rintro ⟨outcomes, rest, hlength, rfl, hrest⟩
      cases outcomes with
      | nil => simp at hlength
      | cons outcome outcomes =>
        rw [observed_cons, ← List.append_assoc] at hrest
        refine ⟨outcome, List.zipWith stateRead paths outcomes ++ rest, rfl, ?_⟩
        exact ih.mpr ⟨outcomes, rest, by simpa using hlength, rfl, hrest⟩

/-- The ids that a target names are texts of the target. -/
theorem encodable_targetedIds (h : unencodableTarget target = false) {id : PyStr}
    (hid : id ∈ targetedIds target) : encodeUtf8 id ≠ none := by
  unfold targetedIds at hid
  rw [List.mem_filterMap] at hid
  obtain ⟨item, hitem, hsome⟩ := hid
  have hstr : item = .str id := by
    cases item with
    | str text =>
      change (if text = [] then none else some text) = some id at hsome
      by_cases htext : text = []
      · rw [if_pos htext] at hsome
        cases hsome
      · rw [if_neg htext, Option.some.injEq] at hsome
        rw [hsome]
    | null | bool _ | int _ | float _ | list _ | dict _ => cases hsome
  subst hstr
  intro hnone
  unfold unencodableTarget at h
  rw [List.any_eq_false] at h
  cases hget : target.get? (py "entity_id") with
  | none =>
    rw [hget] at hitem
    cases hitem
  | some value =>
    have hvalue := h (py "entity_id", value) (Dict.mem_of_get? hget)
    rw [hget] at hitem
    cases value with
    | str text =>
      rw [List.mem_singleton] at hitem
      cases hitem
      simp [hnone] at hvalue
    | list items =>
      rw [Bool.not_eq_true, List.any_eq_false] at hvalue
      have := hvalue _ hitem
      simp [hnone] at this
    | null | bool _ | int _ | float _ | dict _ => cases hitem

/-- The flag that the observation gives, by the outcomes of its reads. -/
def allObserved (target : Dict) (outcomes : List Result) : Bool :=
  (observed outcomes).length = (targetedIds target).length &&
    (targetedIds target).length ≤ maxEntityStateFetches && !composite target

/-- The runs of the observation. -/
theorem path_withObservedStates (hutf8 : unencodableTarget target = false)
    (hids : targetedIds target ≠ []) :
    Prog.Path (withObservedStates [] target) reads reply ↔ ∃ paths outcomes,
      statePaths ((targetedIds target).take maxEntityStateFetches) = .ok paths ∧
        outcomes.length = paths.length ∧ reads = List.zipWith stateRead paths outcomes ∧
          reply = .ok (observedReply (observed outcomes) (allObserved target outcomes)
            (targetedIds target).length) := by
  obtain ⟨paths, hpaths⟩ :
      ∃ paths, statePaths ((targetedIds target).take maxEntityStateFetches) = .ok paths :=
    statePaths_isOk fun id hid => encodable_targetedIds hutf8 (List.mem_of_mem_take hid)
  unfold withObservedStates
  rw [if_neg (not_not_intro rfl)]
  dsimp only
  rw [if_neg hids, hpaths]
  dsimp only
  rw [path_readStates]
  constructor
  · rintro ⟨outcomes, rest, hlength, rfl, hrest⟩
    obtain ⟨rfl, rfl⟩ := Prog.path_ret_iff.mp hrest
    exact ⟨paths, outcomes, rfl, hlength, List.append_nil _, rfl⟩
  · rintro ⟨_, outcomes, hsame, hlength, rfl, rfl⟩
    cases hsame
    exact ⟨outcomes, [], hlength, (List.append_nil _).symm, .ret _⟩

theorem path_withObservedStates_nil (hids : targetedIds target = []) :
    Prog.Path (withObservedStates [] target) reads reply ↔
      reads = [] ∧ reply = .ok (observedReply [] false 0) := by
  unfold withObservedStates
  rw [if_neg (not_not_intro rfl)]
  dsimp only
  rw [if_pos hids]
  exact Prog.path_ret_iff

/-! ## A complete observation -/

/-- A state that was fetched for an entity. -/
def Fetched (reads : List (Event Ans)) (id : PyStr) (state : Json) : Prop :=
  ∃ path, StatePath id path ∧ (⟨.request (.get path), .ok state⟩ : Event Ans) ∈ reads

/-- The states are one for each entity, and fetched for it. -/
structure OneEach (ids : List PyStr) (reads : List (Event Ans)) (states : List Json) : Prop where
  nodup : ids.Nodup
  fetched : List.Forall₂ (Fetched reads) ids states

/-- The target lets an observation be complete: it names one to ten entities, none by a dot segment,
and no area or device. -/
def CanBeComplete (target : Dict) : Prop :=
  targetedIds target ≠ [] ∧ (targetedIds target).length ≤ maxEntityStateFetches ∧
    (∀ id ∈ targetedIds target, isDotSegment id = false) ∧ composite target = false

theorem Fetched.cons {id : PyStr} {state : Json} (h : Fetched reads id state) (read : Event Ans) :
    Fetched (read :: reads) id state := by
  obtain ⟨path, hpath, hmem⟩ := h
  exact ⟨path, hpath, List.mem_cons_of_mem _ hmem⟩

/-- When every read is answered, each state was fetched for its own entity. -/
theorem forall₂_fetched {outcomes : List Result} (hlength : outcomes.length = paths.length)
    (hanswered : (observed outcomes).length = outcomes.length)
    (hurls : ∀ entry ∈ paths, StatePath entry.1 entry.2) :
    List.Forall₂ (Fetched (List.zipWith stateRead paths outcomes)) (paths.map Prod.fst)
      (observed outcomes) := by
  induction paths generalizing outcomes with
  | nil =>
    cases List.length_eq_zero_iff.mp hlength
    exact .nil
  | cons entry paths ih =>
    cases outcomes with
    | nil => simp at hlength
    | cons outcome outcomes =>
      rw [List.forall_mem_cons] at hurls
      have hle : (observed outcomes).length ≤ outcomes.length := List.length_filterMap_le _ _
      have hdict : ∃ state, outcome = .ok (.dict state) := by
        have hskip : observed [outcome] ≠ [] := by
          intro hnil
          rw [observed_cons, hnil, List.nil_append, List.length_cons] at hanswered
          omega
        cases outcome with
        | error exc => exact absurd rfl hskip
        | ok value =>
          cases value with
          | dict state => exact ⟨state, rfl⟩
          | null | bool _ | int _ | float _ | str _ | list _ => exact absurd rfl hskip
      obtain ⟨state, rfl⟩ := hdict
      rw [observed_cons] at hanswered ⊢
      have hrest : (observed outcomes).length = outcomes.length := by
        rw [List.length_append, List.length_cons] at hanswered
        have hone : (observed [.ok (.dict state)]).length = 1 := rfl
        omega
      refine .cons ⟨entry.2, hurls.1, List.mem_cons_self⟩ ?_
      exact (ih (by simpa using hlength) hrest hurls.2).imp fun _ _ h => h.cons _

/-- A complete observation read one state for each id of a target that lets it. -/
theorem complete_observed {outcomes : List Result} (hids : targetedIds target ≠ [])
    (hpaths : statePaths ((targetedIds target).take maxEntityStateFetches) = .ok paths)
    (hlength : outcomes.length = paths.length) (h : allObserved target outcomes = true) :
    CanBeComplete target ∧ List.Forall₂ (Fetched (List.zipWith stateRead paths outcomes))
      (targetedIds target) (observed outcomes) := by
  unfold allObserved at h
  rw [Bool.and_eq_true, Bool.and_eq_true, decide_eq_true_eq, decide_eq_true_eq,
    Bool.not_eq_true'] at h
  obtain ⟨⟨hall, hcap⟩, hcomposite⟩ := h
  obtain ⟨hnames, hurls⟩ := statePaths_ok hpaths
  rw [List.take_of_length_le hcap] at hnames
  -- No read failed and no id was left out, or there would be fewer states than ids.
  have hle : (observed outcomes).length ≤ outcomes.length := List.length_filterMap_le _ _
  have hfilter := List.length_filter_le (fun id => !isDotSegment id) (targetedIds target)
  have hpathsLength : paths.length = ((targetedIds target).filter fun id => !isDotSegment id).length := by
    rw [← hnames, List.length_map]
  have hplain : ∀ id ∈ targetedIds target, (!isDotSegment id) = true :=
    List.length_filter_eq_length_iff.mp (by omega)
  rw [List.filter_eq_self.mpr hplain] at hnames
  refine ⟨⟨hids, hcap, fun id hid => by simpa using hplain id hid, hcomposite⟩, ?_⟩
  rw [← hnames]
  exact forall₂_fetched hlength (by omega) hurls

/-- Such a target is observed completely when every read is answered. -/
theorem exists_complete (hutf8 : unencodableTarget target = false) (h : CanBeComplete target) :
    ∃ reads states count, Prog.Path (withObservedStates [] target) reads
      (.ok (observedReply states true count)) := by
  obtain ⟨hids, hcap, hplain, hcomposite⟩ := h
  obtain ⟨paths, hpaths⟩ :
      ∃ paths, statePaths ((targetedIds target).take maxEntityStateFetches) = .ok paths :=
    statePaths_isOk fun id hid => encodable_targetedIds hutf8 (List.mem_of_mem_take hid)
  have hnames := (statePaths_ok hpaths).1
  rw [List.take_of_length_le hcap, List.filter_eq_self.mpr (by simpa using hplain)] at hnames
  have hstates : ∀ n, (observed (List.replicate n (.ok (.dict [])))).length = n := by
    intro n
    induction n with
    | zero => rfl
    | succ n ih =>
      rw [List.replicate_succ, observed_cons, List.length_append, ih]
      exact Nat.add_comm 1 n
  have hall : allObserved target (List.replicate paths.length (.ok (.dict []))) = true := by
    unfold allObserved
    rw [hstates, ← hnames, List.length_map, hcomposite]
    rw [← hnames, List.length_map] at hcap
    simp [hcap]
  have hrun := (path_withObservedStates hutf8 hids).mpr
    ⟨paths, List.replicate paths.length (.ok (.dict [])), hpaths, List.length_replicate, rfl, rfl⟩
  rw [hall] at hrun
  exact ⟨_, _, _, hrun⟩

/-! ## The three commands -/

/-- The commands that observe after a service call. -/
inductive ServiceCommand where
  | callService
  | lightTurnOn
  | lightTurnOff
deriving DecidableEq

namespace ServiceCommand

section
variable [Runtime]

def handler : ServiceCommand → Handler
  | .callService => handleHaCallService
  | .lightTurnOn => handleHaLightTurnOn
  | .lightTurnOff => handleHaLightTurnOff

/-- The target of accepted params. -/
def targetOf : ServiceCommand → Dict → Dict
  | .callService, params => (requireTarget params).toOption.getD []
  | _, params => (buildLightTarget params).toOption.getD []

def lightDataOf (dataKeys : List PyStr) (params : Dict) : Dict :=
  dataKeys.filterMap fun key => (params.get? key).map fun v => (key, v)

/-- The service data of accepted params. -/
def dataOf : ServiceCommand → Dict → Dict
  | .callService, params => (requireServiceData params).toOption.getD []
  | .lightTurnOn, params => lightDataOf lightOnData params
  | .lightTurnOff, params => lightDataOf [py "transition"] params

end

end ServiceCommand

/-- What selects entities besides `entity_id`. -/
def otherSelectors : List PyStr := [py "area_id", py "device_id", py "floor_id", py "label_id"]

/-- A body selects entities by `entity_id` alone. -/
def SelectsByEntityId (body : Option Dict) : Prop :=
  ∀ key ∈ otherSelectors, truthy ((body.getD []).getD key .null) = false

/-- The data selects nothing where the target is silent. -/
def NoOtherSelector (data target : Dict) : Prop :=
  ∀ key ∈ otherSelectors, truthy (((target.get? key).or (data.get? key)).getD .null) = false

instance decidableNoOtherSelector (data target : Dict) : Decidable (NoOtherSelector data target) :=
  inferInstanceAs (Decidable (∀ key ∈ otherSelectors, _))

theorem path_orReturn {α : Type} {checked : Except Json α} {k : α → Program} {event : Event Ans}
    (h : Prog.Path (orReturn checked k) (event :: reads) reply) : ∃ value, checked = .ok value ∧
      orReturn checked k = k value ∧ Prog.Path (k value) (event :: reads) reply := by
  cases checked with
  | error response => cases h
  | ok value => exact ⟨value, rfl, rfl, h⟩

theorem path_request_ok {r : Request} {k : Json → Program} {value : Json} :
    Prog.Path (request r k) (⟨.request r, .ok value⟩ :: reads) reply ↔
      Prog.Path (k value) reads reply := by
  unfold request
  rw [Prog.path_call_iff]
  constructor
  · rintro ⟨_, _, heq, h⟩
    cases heq
    exact h
  · intro h
    exact ⟨_, _, rfl, h⟩

theorem eq_of_path_request {r r' : Request} {k : Json → Program} {value : Json}
    (h : Prog.Path (request r k) (⟨.request r', .ok value⟩ :: reads) reply) : r' = r := by
  unfold request at h
  rw [Prog.path_call_iff] at h
  obtain ⟨_, _, heq, _⟩ := h
  cases heq
  rfl

theorem getD_bodyOrNone (body : Dict) : (bodyOrNone body).getD [] = body := by
  unfold bodyOrNone
  split
  · rename_i hnil
    rw [hnil]
    rfl
  · rfl

theorem get?_normaliseServiceCode [Runtime] {domain : PyStr} {body normal : Dict}
    (h : normaliseServiceCode domain body = .ok normal) {key : PyStr} (hkey : key ≠ py "code") :
    normal.get? key = body.get? key := by
  have hset : ∀ value, (body.set (py "code") value).get? key = body.get? key := by
    intro value
    rw [Dict.get?_set, if_neg hkey]
  unfold normaliseServiceCode at h
  split at h
  · cases h
    rfl
  · split at h <;> try split at h
    all_goals first
      | (cases h; rfl)
      | (cases h; exact hset _)
      | cases h

variable {command : ServiceCommand} {params : Dict} {path : PyStr}

/-- A dictionary that the params hold has distinct keys. -/
theorem nodup_of_get? (hparams : (Json.dict params).DistinctKeys) {key : PyStr} {entries : Dict}
    (h : params.get? key = some (.dict entries)) : (Dict.keys entries).Nodup := by
  have hvalue := (Json.forall_dict.mp hparams).2 (key, .dict entries) (Dict.mem_of_get? h)
  exact (Json.forall_dict.mp hvalue).1

theorem requireTarget_ok {target : Dict} (h : requireTarget params = .ok target) :
    target = [] ∨ params.get? (py "target") = some (.dict target) := by
  unfold requireTarget at h
  split at h
  · cases h
    exact .inl rfl
  · cases h
    exact .inl rfl
  · rename_i given hget
    have hsame : given = target := by
      dsimp only at h
      split at h
      · cases h
      split at h
      · cases h
      split at h
      · split at h
        · cases h
          rfl
        · cases h
      · cases h
        rfl
    rw [← hsame]
    exact .inr hget
  · cases h

/-- What an area or a device adds to a light target. -/
def givenTarget (params : Dict) (key : PyStr) : Dict :=
  match params.get? key with
  | none | some .null => []
  | some value => [(key, value)]

theorem givenTarget_keys (params : Dict) (key : PyStr) :
    (Dict.keys (givenTarget params key)).Sublist [key] := by
  unfold givenTarget
  split
  · exact List.nil_sublist _
  · exact List.nil_sublist _
  · exact List.Sublist.refl _

/-- The keys of a light target are in the order of its fields. -/
theorem buildLightTarget_ok {target : Dict} (h : buildLightTarget params = .ok target) :
    (Dict.keys target).Sublist lightTargetKeys := by
  have hrest := (givenTarget_keys params (py "area_id")).append
    (givenTarget_keys params (py "device_id"))
  rw [show ∀ d e : Dict, Dict.keys d ++ Dict.keys e = Dict.keys (d ++ e) from
    fun d e => (List.map_append ..).symm] at hrest
  unfold buildLightTarget at h
  cases hentity : params.get? (py "entity_id") with
  | none =>
    rw [hentity] at h
    dsimp only at h
    split_ifs at h
    cases h
    exact hrest.cons _
  | some value =>
    rw [hentity] at h
    cases value with
    | null =>
      dsimp only at h
      split_ifs at h
      cases h
      exact hrest.cons _
    | str id =>
      cases h
      exact hrest.cons_cons _
    | list ids =>
      dsimp only at h
      split_ifs at h
      cases h
      exact hrest.cons_cons _
    | bool _ | int _ | float _ | dict _ => cases h

theorem get?_merged {data target : Dict} (htarget : (Dict.keys target).Nodup) (key : PyStr) :
    (data.update target).get? key = (target.get? key).or (data.get? key) := by
  rw [Dict.get?_update, Dict.get?_reverse htarget]

section
variable [Runtime]

theorem requireServiceData_ok {data : Dict} (h : requireServiceData params = .ok data) :
    data = [] ∨ params.get? (py "data") = some (.dict data) ∨
      params.get? (py "service_data") = some (.dict data) := by
  unfold requireServiceData at h
  split at h
  · cases h
    exact .inl rfl
  · rename_i hdata _
    cases h
    exact .inr (.inl hdata)
  · rename_i hdata
    cases h
    exact .inr (.inr hdata)
  · rename_i hdata _
    split at h
    · cases h
      exact .inr (.inl hdata)
    · cases h
  all_goals cases h

omit [Runtime] in
theorem nodup_targetOf (hparams : (Json.dict params).DistinctKeys) (command : ServiceCommand) :
    (Dict.keys (command.targetOf params)).Nodup := by
  have hnil : (Dict.keys []).Nodup := List.nodup_nil
  have hlight : (Dict.keys ((buildLightTarget params).toOption.getD [])).Nodup := by
    cases htarget : buildLightTarget params with
    | error response => exact hnil
    | ok target => exact (by decide : lightTargetKeys.Nodup).sublist (buildLightTarget_ok htarget)
  cases command with
  | callService =>
    show (Dict.keys ((requireTarget params).toOption.getD [])).Nodup
    cases htarget : requireTarget params with
    | error response => exact hnil
    | ok target =>
      rcases requireTarget_ok htarget with rfl | hget
      · exact hnil
      · exact nodup_of_get? hparams hget
  | lightTurnOn => exact hlight
  | lightTurnOff => exact hlight

theorem nodup_dataOf (hparams : (Json.dict params).DistinctKeys) (command : ServiceCommand) :
    (Dict.keys (command.dataOf params)).Nodup := by
  have hlight : ∀ dataKeys : List PyStr, dataKeys.Nodup →
      (Dict.keys (ServiceCommand.lightDataOf dataKeys params)).Nodup := by
    intro dataKeys hnodup
    refine hnodup.sublist ?_
    induction dataKeys with
    | nil => exact List.Sublist.refl []
    | cons key dataKeys ih =>
      unfold ServiceCommand.lightDataOf at ih ⊢
      have hrest := ih (List.nodup_cons.mp hnodup).2
      cases hget : params.get? key with
      | none =>
        rw [List.filterMap_cons_none (by rw [hget]; rfl)]
        exact hrest.cons key
      | some value =>
        rw [List.filterMap_cons_some (by rw [hget]; rfl)]
        exact hrest.cons_cons key
  cases command with
  | callService =>
    show (Dict.keys ((requireServiceData params).toOption.getD [])).Nodup
    cases hdata : requireServiceData params with
    | error response => exact List.nodup_nil
    | ok data =>
      rcases requireServiceData_ok hdata with rfl | hget | hget
      · exact List.nodup_nil
      · exact nodup_of_get? hparams hget
      · exact nodup_of_get? hparams hget
  | lightTurnOn => exact hlight lightOnData (by decide)
  | lightTurnOff => exact hlight [py "transition"] (by decide)

/-- An accepted call: what it posts, and that an empty answer is followed by the observation. -/
structure Posts (command : ServiceCommand) (params : Dict) (path : PyStr) (body : Option Dict) :
    Prop where
  encodable : unencodableTarget (command.targetOf params) = false
  merged : ∀ key, key ≠ py "code" → (body.getD []).get? key =
    ((command.targetOf params).get? key).or ((command.dataOf params).get? key)
  observes : ∀ reads reply,
    Prog.Path (command.handler params) (⟨.request (.post path body), .ok (.list [])⟩ :: reads) reply ↔
      Prog.Path (withObservedStates [] (command.targetOf params)) reads reply

theorem posts_callService (hparams : (Json.dict params).DistinctKeys) {posted : Option Dict}
    (h : Prog.Path (handleHaCallService params)
      (⟨.request (.post path posted), .ok (.list [])⟩ :: reads) reply) :
    Posts .callService params path posted := by
  have hnodupTarget := nodup_targetOf hparams .callService
  have hnodupData := nodup_dataOf hparams .callService
  cases hkeys : strictKeysError params callServiceParams [] with
  | some invalid =>
    unfold handleHaCallService at h
    rw [hkeys] at h
    cases h
  | none =>
    have hprogram := h
    unfold handleHaCallService at hprogram
    rw [hkeys] at hprogram
    obtain ⟨⟨domain, service⟩, hservice, heqService, hrun⟩ := path_orReturn hprogram
    obtain ⟨target, htarget, heqTarget, hrun⟩ := path_orReturn hrun
    obtain ⟨data, hdata, heqData, hrun⟩ := path_orReturn hrun
    have hTarget : ServiceCommand.callService.targetOf params = target := by
      show (requireTarget params).toOption.getD [] = target
      rw [htarget]
      rfl
    have hData : ServiceCommand.callService.dataOf params = data := by
      show (requireServiceData params).toOption.getD [] = data
      rw [hdata]
      rfl
    rw [hTarget] at hnodupTarget
    rw [hData] at hnodupData
    -- the call is past its checks, or nothing would have been posted
    split at hrun
    · cases hrun
    · rename_i hutf8
      cases hdenial : interimServiceDenial domain service with
      | some denial =>
        rw [hdenial] at hrun
        cases hrun
      | none =>
        rw [hdenial] at hrun
        cases hnormal : normaliseServiceCode domain ((Dict.update [] data).update target) with
        | error message =>
          rw [hnormal] at hrun
          cases hrun
        | ok body =>
          rw [hnormal] at hrun
          -- the body is data updated with target
          cases eq_of_path_request hrun
          refine ⟨?_, ?_, ?_⟩
          · rw [hTarget]
            exact Bool.eq_false_iff.mpr hutf8
          · intro key hkey
            rw [hTarget, hData, getD_bodyOrNone, get?_normaliseServiceCode hnormal hkey,
              Dict.update_nil_of_nodup hnodupData, get?_merged hnodupTarget]
          · intro reads reply
            show Prog.Path (handleHaCallService params) _ _ ↔ _
            unfold handleHaCallService
            rw [hkeys]
            dsimp only
            rw [heqService]
            dsimp only
            rw [heqTarget, heqData, if_neg hutf8, hdenial]
            dsimp only
            rw [hnormal]
            dsimp only
            rw [path_request_ok, hTarget]

/-- The light commands, which have a target and data of their own. -/
theorem posts_light {service : PyStr} {dataKeys : List PyStr} {posted : Option Dict}
    (hhandler : command.handler = handleLight service dataKeys)
    (htargetOf : command.targetOf params = (buildLightTarget params).toOption.getD [])
    (hdataOf : command.dataOf params = ServiceCommand.lightDataOf dataKeys params)
    (hnodup : (Dict.keys (command.targetOf params)).Nodup)
    (h : Prog.Path (handleLight service dataKeys params)
      (⟨.request (.post path posted), .ok (.list [])⟩ :: reads) reply) :
    Posts command params path posted := by
  cases hkeys : strictKeysError params (lightTargetKeys ++ dataKeys) [] with
  | some invalid =>
    unfold handleLight at h
    rw [hkeys] at h
    cases h
  | none =>
    have hprogram := h
    unfold handleLight at hprogram
    rw [hkeys] at hprogram
    obtain ⟨target, htarget, heqTarget, hrun⟩ := path_orReturn hprogram
    have hTarget : command.targetOf params = target := by
      rw [htargetOf, htarget]
      rfl
    rw [hTarget] at hnodup
    split at hrun
    · cases hrun
    · rename_i hutf8
      cases eq_of_path_request hrun
      refine ⟨?_, ?_, ?_⟩
      · rw [hTarget]
        exact Bool.eq_false_iff.mpr hutf8
      · intro key _
        rw [hTarget, hdataOf, getD_bodyOrNone]
        exact get?_merged hnodup key
      · intro reads reply
        rw [hhandler]
        unfold handleLight
        rw [hkeys]
        dsimp only
        rw [heqTarget, if_neg hutf8, path_request_ok, hTarget]

theorem posts (hparams : (Json.dict params).DistinctKeys) {posted : Option Dict}
    (h : Prog.Path (command.handler params)
      (⟨.request (.post path posted), .ok (.list [])⟩ :: reads) reply) :
    Posts command params path posted := by
  have hnodup := nodup_targetOf hparams command
  cases command with
  | callService => exact posts_callService hparams h
  | lightTurnOn => exact posts_light rfl rfl rfl hnodup h
  | lightTurnOff => exact posts_light rfl rfl rfl hnodup h

/-! ## The flag -/

omit [Runtime] in
theorem observedReply_inj {states states' : List Json} {complete complete' : Bool}
    {count count' : Nat} (h : observedReply states complete count = observedReply states' complete' count') :
    states = states' ∧ complete = complete' := by
  simp only [observedReply, obj, List.map_cons, List.map_nil, Json.dict.injEq, List.cons.injEq,
    Prod.mk.injEq, Json.list.injEq, Json.bool.injEq] at h
  exact ⟨h.2.1.2, h.2.2.1.2⟩

/-- The ids that the body names are those of a target that names some. -/
theorem targetedIds_body {posted : Option Dict} (h : Posts command params path posted)
    (hids : targetedIds (command.targetOf params) ≠ []) :
    targetedIds (posted.getD []) = targetedIds (command.targetOf params) := by
  have hentity := h.merged (py "entity_id") (by decide)
  cases hget : (command.targetOf params).get? (py "entity_id") with
  | none =>
    unfold targetedIds at hids
    rw [hget] at hids
    exact absurd rfl hids
  | some value =>
    rw [hget, Option.some_or] at hentity
    unfold targetedIds
    rw [hentity, hget]

theorem selectsByEntityId_iff {posted : Option Dict} (h : Posts command params path posted) :
    SelectsByEntityId posted ↔
      NoOtherSelector (command.dataOf params) (command.targetOf params) := by
  unfold SelectsByEntityId NoOtherSelector
  apply forall_congr'
  intro key
  apply forall_congr'
  intro hkey
  have hne : key ≠ py "code" := by
    rintro rfl
    exact absurd hkey (by decide)
  unfold Dict.getD
  rw [h.merged key hne]

omit [Runtime] in
/-- Every run of the observation ends in a success. -/
theorem reply_observed {target : Dict} (hutf8 : unencodableTarget target = false)
    (h : Prog.Path (withObservedStates [] target) reads reply) :
    ∃ states complete count, reply = .ok (observedReply states complete count) := by
  by_cases hids : targetedIds target = []
  · exact ⟨_, _, _, ((path_withObservedStates_nil hids).mp h).2⟩
  · obtain ⟨paths, outcomes, _, _, _, hreply⟩ := (path_withObservedStates hutf8 hids).mp h
    exact ⟨_, _, _, hreply⟩

omit [Runtime] in
/-- A run that is flagged complete. -/
theorem flagged_run {target : Dict} (hutf8 : unencodableTarget target = false) {states : List Json}
    {count : Nat} (h : Prog.Path (withObservedStates [] target) reads
      (.ok (observedReply states true count))) :
    CanBeComplete target ∧ List.Forall₂ (Fetched reads) (targetedIds target) states := by
  by_cases hids : targetedIds target = []
  · have hreply := ((path_withObservedStates_nil hids).mp h).2
    cases (observedReply_inj (Except.ok.inj hreply)).2
  · obtain ⟨paths, outcomes, hpaths, hlength, rfl, hreply⟩ :=
      (path_withObservedStates hutf8 hids).mp h
    obtain ⟨rfl, hcomplete⟩ := observedReply_inj (Except.ok.inj hreply)
    exact complete_observed hids hpaths hlength hcomplete.symm

/-- No outcome of the reads turns an accepted call into an error.  The flag of the call is honest for
all outcomes just if, where the target lets it be given, the data selects nothing else and no id is
named twice. -/
theorem flag_honest_iff (command : ServiceCommand) {params : Dict}
    (hparams : (Json.dict params).DistinctKeys) {path : PyStr} {posted : Option Dict}
    (haccepted : ∃ reads reply, Prog.Path (command.handler params)
      (⟨.request (.post path posted), .ok (.list [])⟩ :: reads) reply) :
    (∀ reads reply, Prog.Path (command.handler params)
        (⟨.request (.post path posted), .ok (.list [])⟩ :: reads) reply →
      ∃ states complete count, reply = .ok (observedReply states complete count)) ∧
    ((∀ reads states count, Prog.Path (command.handler params)
        (⟨.request (.post path posted), .ok (.list [])⟩ :: reads)
          (.ok (observedReply states true count)) →
        SelectsByEntityId posted ∧ OneEach (targetedIds (posted.getD [])) reads states) ↔
      (CanBeComplete (command.targetOf params) →
        NoOtherSelector (command.dataOf params) (command.targetOf params) ∧
          (targetedIds (command.targetOf params)).Nodup)) := by
  obtain ⟨_, _, hfirst⟩ := haccepted
  have hposts := posts hparams hfirst
  simp only [hposts.observes]
  refine ⟨fun reads reply h => reply_observed hposts.encodable h, ?_, ?_⟩
  -- a run in which every read answers is flagged, so honesty has to hold for it
  · intro honest hcan
    obtain ⟨reads, states, count, hrun⟩ := exists_complete hposts.encodable hcan
    obtain ⟨hselects, hone⟩ := honest reads states count hrun
    rw [targetedIds_body hposts hcan.1] at hone
    exact ⟨(selectsByEntityId_iff hposts).mp hselects, hone.nodup⟩
  · intro hcondition reads states count hrun
    obtain ⟨hcan, hfetched⟩ := flagged_run hposts.encodable hrun
    obtain ⟨hdata, hnodup⟩ := hcondition hcan
    rw [targetedIds_body hposts hcan.1]
    exact ⟨(selectsByEntityId_iff hposts).mpr hdata, hnodup, hfetched⟩

end

/-! ## Calls for one lamp and for two -/

namespace LampSample

scoped instance sampleRuntime : Runtime := .ofTable []

def lampTarget : Dict := [(py "entity_id", .str (py "light.a"))]

def lampsTarget : Dict :=
  [(py "entity_id", .list [.str (py "light.a"), .str (py "light.b")])]

/-- `light.turn_on` for some lamps, with further data. -/
def lampCall (target data : Dict) : Dict :=
  [(py "domain", .str (py "light")), (py "service", .str (py "turn_on")),
    (py "target", .dict target), (py "data", .dict data)]

/-- Home Assistant changes nothing. -/
def lampPost (body : Dict) : Event Ans :=
  ⟨.request (.post (py "/api/services/light/turn_on") (some body)), .ok (.list [])⟩

/-- It has the state of the lamp. -/
def lampRead (path : PyStr) : Event Ans := ⟨.request (.get path), .ok (.dict [])⟩

def lampsReads : List (Event Ans) :=
  [lampRead (py "/api/states/light.a"), lampRead (py "/api/states/light.b")]

theorem lampsCall_distinctKeys : (Json.dict (lampCall lampsTarget [])).DistinctKeys := by
  simp [lampCall, lampsTarget, Json.DistinctKeys, Json.Forall, Json.ForallList, Json.ForallDict,
    Dict.keys]

theorem lampsCall_run : Prog.Path (handleHaCallService (lampCall lampsTarget []))
    (lampPost lampsTarget :: lampsReads) (.ok (observedReply [.dict [], .dict []] true 2)) :=
  .call _ _ _ (.call _ _ _ (.call _ _ _ (.ret _)))

/-- For two lamps, each named once, the flag is honest. -/
theorem flag_honest_lamps : SelectsByEntityId (some lampsTarget) ∧
    OneEach (targetedIds lampsTarget) lampsReads [.dict [], .dict []] :=
  (flag_honest_iff .callService lampsCall_distinctKeys ⟨_, _, lampsCall_run⟩).2.mpr
    (fun _ => ⟨by decide, by decide⟩) _ _ _ lampsCall_run

/-- The data selects an area, and the flag is given all the same. -/
theorem area_in_data_flagged :
    Prog.Path (handleHaCallService (lampCall lampTarget [(py "area_id", .str (py "kitchen"))]))
      [lampPost ((py "area_id", .str (py "kitchen")) :: lampTarget),
        lampRead (py "/api/states/light.a")]
      (.ok (observedReply [.dict []] true 1)) ∧
    ¬ SelectsByEntityId (some ((py "area_id", .str (py "kitchen")) :: lampTarget)) := by
  constructor
  · exact .call _ _ _ (.call _ _ _ (.ret _))
  · intro h
    exact absurd (h (py "area_id") (by decide)) (by decide)

end LampSample

end HassNode.HaServices
