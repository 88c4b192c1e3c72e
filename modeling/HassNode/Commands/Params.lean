import Mathlib.Data.List.Dedup
import HassNode.HaClient

/-!
# Parameter checks shared by the handlers

`commands/params.py` and the checks that the handlers repeat: the `action` prologue, a required
text, a required dict.
-/

namespace HassNode.Commands

open Py Interaction ConfigMutation HaClient

/-- `strict_keys_error`. -/
def strictKeysError (params : Dict) (allowed nullable : List PyStr) : Option Json :=
  let unknown := sortedStr (params.keys.dedup.filter fun k => k ∉ allowed)
  if unknown ≠ [] then
    some (error "INVALID_PARAM" (py "unknown parameter(s): " ++ joinWith (py ", ") unknown ++
      py "; allowed: " ++ joinWith (py ", ") (sortedStr allowed)))
  else
    -- an explicit null is reported for the first such name in sorted order
    match (sortedStr (allowed.filter fun k => k ∉ nullable)).find? fun name =>
        params.get? name = some .null with
    | some name => some (error "INVALID_PARAM" (name ++ py " must not be null; omit it instead"))
    | none => none

theorem keys_of_strictKeysError {params : Dict} {allowed nullable : List PyStr}
    (h : strictKeysError params allowed nullable = none) : ∀ k ∈ params.keys, k ∈ allowed := by
  intro k hk
  unfold strictKeysError at h
  by_cases hunknown : sortedStr (params.keys.dedup.filter fun k => k ∉ allowed) ≠ []
  · simp only [if_pos hunknown] at h
    cases h
  · have hnil := not_not.mp hunknown
    by_contra hnot
    have hmem : k ∈ sortedStr (params.keys.dedup.filter fun k => k ∉ allowed) := by
      rw [mem_sortedStr, List.mem_filter]
      exact ⟨List.mem_dedup.mpr hk, decide_eq_true hnot⟩
    rw [hnil] at hmem
    cases hmem

/-- Where no reserved field but the marker is an allowed key, what is left after the gate is what
the marker binds. -/
theorem pop_eq_unreserved {params : Dict} {allowed nullable : List PyStr}
    (h : strictKeysError params allowed nullable = none) (hcaller : py "_openclaw_caller" ∉ allowed) :
    params.pop approvalParam = unreserved params := by
  unfold Dict.pop unreserved
  apply List.filter_congr
  intro kv hkv
  have hallowed := keys_of_strictKeysError h kv.1 (List.mem_map_of_mem hkv)
  have hne : kv.1 ≠ py "_openclaw_caller" := fun heq => hcaller (heq ▸ hallowed)
  simp [reserved, hne]

/-- A regular expression `^[cls]+$` under `match`: `$` also stands before a final newline. -/
def matchesClass (cls : CodePoint → Bool) (text : PyStr) : Bool :=
  let line := if text.getLast? = some 10 then text.dropLast else text
  line ≠ [] && line.all cls

def isSlugChar (c : CodePoint) : Bool :=
  (97 ≤ c.val && c.val ≤ 122) || (48 ≤ c.val && c.val ≤ 57) || c = 95

theorem slugChar_ne {c : CodePoint} (h : isSlugChar c = true) : c ≠ 46 ∧ c ≠ 47 ∧ c ≠ 63 := by
  refine ⟨?_, ?_, ?_⟩ <;>
  · rintro rfl
    exact absurd h (by decide)

/-- The path of a service with slug names is read back. -/
theorem postedService_slugs {domain service : PyStr} (hdomain : domain.all isSlugChar = true)
    (hservice : service.all isSlugChar = true) :
    postedService (servicePath domain service) = some (domain, service) := by
  rw [List.all_eq_true] at hdomain hservice
  exact postedService_servicePath (fun c hc => (slugChar_ne (hdomain c hc)).2)
    fun c hc => (slugChar_ne (hservice c hc)).2.2

/-- A POST to the path of a service with slug names calls that service. -/
theorem callsOnly_service {domain service : PyStr} (body : Option Dict)
    (hdomain : domain.all isSlugChar = true) (hservice : service.all isSlugChar = true) :
    CallsOnly [(domain, service)] (.post (servicePath domain service) body) := by
  intro called hposted
  rw [postedService_slugs hdomain hservice, Option.some.injEq] at hposted
  rw [hposted]
  exact .head _

/-- The required texts of the handlers: `params[name]`, trimmed and not blank. -/
def requireText (name : PyStr) (params : Dict) : Except Json PyStr :=
  match params.get? name with
  | some (.str raw) =>
    let trimmed := strip raw
    if trimmed = [] then .error (error "MISSING_PARAM" (name ++ py " must be a non-empty string"))
    else .ok trimmed
  | _ => .error (error "MISSING_PARAM" (name ++ py " must be a string and is required"))

def requireDict (name : PyStr) (params : Dict) : Except Json Dict :=
  match params.get? name with
  | some (.dict entries) => .ok entries
  | _ => .error (error "MISSING_PARAM" (name ++ py " must be a dict and is required"))

theorem requireText_eq_ok {name : PyStr} {params : Dict} {text : PyStr}
    (h : requireText name params = .ok text) :
    ∃ raw, params.get? name = some (.str raw) ∧ text = strip raw := by
  unfold requireText at h
  split at h
  · rename_i raw hraw
    by_cases hblank : strip raw = []
    · simp only [if_pos hblank] at h
      cases h
    · simp only [if_neg hblank] at h
      cases h
      exact ⟨raw, hraw, rfl⟩
  · cases h

theorem requireDict_eq_ok {name : PyStr} {params entries : Dict} :
    requireDict name params = .ok entries ↔ params.get? name = some (.dict entries) := by
  unfold requireDict
  split
  · rename_i other hother
    rw [hother]
    constructor
    · intro h
      cases h
      rfl
    · intro h
      cases h
      rfl
  · rename_i hnot
    constructor
    · intro h
      cases h
    · intro h
      exact absurd h (hnot entries)

section
variable [Runtime]

/-- What the `ha.config.*` handlers do first: read `action`, check it and the other keys. -/
def withAction (actions : List PyStr) (keysOf : PyStr → List PyStr) (nullable : List PyStr)
    (params : Dict) (run : PyStr → Program) : Program :=
  match params.get? (py "action") with
  | some (.str raw) =>
    let action := strip raw
    if action = [] then respond (error "INVALID_PARAM" (py "action is required"))
    else if action ∉ actions then
      respond (error "INVALID_PARAM" (py "action must be one of " ++
        Py.repr (.list ((sortedStr actions).map .str)) ++ py ", got " ++ Py.reprStr action))
    else
      match strictKeysError params (keysOf action) nullable with
      | some invalid => respond invalid
      | none => run action
  | _ => respond (error "INVALID_PARAM" (py "action is required"))

/-- The action that a handler executes; `""` where the command has none. -/
def strippedAction (params : Dict) : PyStr :=
  match params.get? (py "action") with
  | some (.str raw) => strip raw
  | _ => []

/-- The prologue answers by itself or runs the stripped action on checked params. -/
theorem withAction_cases (actions : List PyStr) (keysOf : PyStr → List PyStr)
    (nullable : List PyStr) (params : Dict) (run : PyStr → Program) :
    (∃ response, withAction actions keysOf nullable params run = respond response) ∨
    (strippedAction params ∈ actions ∧
      strictKeysError params (keysOf (strippedAction params)) nullable = none ∧
      withAction actions keysOf nullable params run = run (strippedAction params)) := by
  unfold withAction strippedAction
  split
  · rename_i raw hraw
    by_cases hblank : strip raw = []
    · left
      exact ⟨_, if_pos hblank⟩
    · by_cases hknown : strip raw ∉ actions
      · left
        exact ⟨_, by rw [if_neg hblank, if_pos hknown]⟩
      · cases hkeys : strictKeysError params (keysOf (strip raw)) nullable with
        | some invalid =>
          left
          exact ⟨invalid, by rw [if_neg hblank, if_neg hknown, hkeys]⟩
        | none =>
          right
          exact ⟨not_not.mp hknown, rfl, by rw [if_neg hblank, if_neg hknown, hkeys]⟩
  · left
    exact ⟨_, rfl⟩

/-- On checked params the prologue runs the action. -/
theorem withAction_run {actions : List PyStr} {keysOf : PyStr → List PyStr}
    {nullable : List PyStr} {params : Dict} {run : PyStr → Program}
    (haction : strippedAction params ∈ actions) (hne : strippedAction params ≠ [])
    (hkeys : strictKeysError params (keysOf (strippedAction params)) nullable = none) :
    withAction actions keysOf nullable params run = run (strippedAction params) := by
  unfold withAction
  unfold strippedAction at *
  split
  · rename_i raw hraw
    simp only [hraw] at haction hne hkeys
    rw [if_neg hne, if_neg (not_not.mpr haction), hkeys]
  · rename_i hnot
    exfalso
    apply hne
    split
    · rename_i raw hraw
      exact absurd hraw (hnot raw)
    · rfl

end

end HassNode.Commands
