import HassNode.Commands.HaServices

/-!
# The effect policy

`effect_policy.py`: the refusal of a call, decided before its handler runs.
-/

namespace HassNode.EffectPolicy

open Py HaClient Commands Authz HaServices

inductive Effect where
  | deny | autoAllow | unclassified
deriving DecidableEq

/-- A canonical service of the deny class. -/
def deniedService (service : PyStr) : Bool :=
  (interimServiceDenial (partitionDot service).1 (partitionDot service).2).isSome

/-- `classify`; a malformed name is denied. -/
def classify : Option PyStr → Effect
  | none => .deny
  | some service =>
    if deniedService service then .deny
    else if serviceAllowed service then .autoAllow
    else .unclassified

/-- `check`: a refusal, or `none` when the call may proceed. -/
def check (caller : Caller) (command : PyStr) (params : Dict) : Option Json :=
  let notPermitted :=
    some (error "PERMISSION_DENIED" (command ++ py " is not permitted for this caller"))
  let operator := caller.role = .operator
  let service := serviceForCommand command params
  let effect := classify service
  if service.isSome ∧ effect = .deny then
    some (error "SERVICE_DENIED" (command ++ py " denies " ++ service.getD []))
  else if caller.role = .user ∧ command ∉ userAllowedCommands then notPermitted
  else if ¬ operator ∧ isForbidden caller.forbidden command params then notPermitted
  else if command ≠ py "ha.call_service" ∧ service.isNone then none
  else
    match service with
    | none =>
      -- an operator is told by the handler
      if operator then none
      else some (error "PERMISSION_DENIED" (py "service is malformed"))
    | some service =>
      if effect = .autoAllow then none
      else if operator then none
      else if caller.role = .user then
        some (error "PERMISSION_DENIED"
          (py "service " ++ service ++ py " is not permitted for this caller"))
      else
        some (error "APPROVAL_REQUIRED" (py "service " ++ service ++
          py " needs approval; native approval is not available in this build"))

theorem classify_deny {service : PyStr} (h : deniedService service = true) :
    classify (some service) = .deny := if_pos h

theorem allowed_of_autoAllow {service : PyStr} (h : classify (some service) = .autoAllow) :
    serviceAllowed service = true := by
  by_contra hallowed
  change (if deniedService service then Effect.deny else _) = _ at h
  by_cases hdenied : deniedService service = true
  · rw [if_pos hdenied] at h
    cases h
  · rw [if_neg hdenied, if_neg hallowed] at h
    cases h

/-- What a call that passes has been checked for. -/
structure Passed (caller : Caller) (command : PyStr) (params : Dict) : Prop where
  notDenied : ∀ service, serviceForCommand command params = some service →
    deniedService service = false
  userAllowed : caller.role = .user → command ∈ userAllowedCommands
  wellFormed : caller.role ≠ .operator → command = py "ha.call_service" →
    serviceForCommand command params ≠ none
  allowed : caller.role ≠ .operator → ∀ service, serviceForCommand command params = some service →
    serviceAllowed service = true

theorem passed_of_check {caller : Caller} {command : PyStr} {params : Dict}
    (h : check caller command params = none) : Passed caller command params := by
  unfold check at h
  -- the refusals of check in turn: denied everywhere, not for the user, forbidden for the role
  by_cases hdeny : (serviceForCommand command params).isSome = true ∧
      classify (serviceForCommand command params) = .deny
  · simp only [if_pos hdeny] at h
    cases h
  simp only [if_neg hdeny] at h
  by_cases huser : caller.role = .user ∧ command ∉ userAllowedCommands
  · simp only [if_pos huser] at h
    cases h
  simp only [if_neg huser] at h
  by_cases hforbidden : ¬ caller.role = .operator ∧
      isForbidden caller.forbidden command params = true
  · simp only [if_pos hforbidden] at h
    cases h
  simp only [if_neg hforbidden] at h
  have huserAllowed : caller.role = .user → command ∈ userAllowedCommands := by
    intro hrole
    by_contra hnot
    exact huser ⟨hrole, hnot⟩
  cases hservice : serviceForCommand command params with
  | none =>
    rw [hservice] at h
    constructor
    · intro service hs
      rw [hservice] at hs
      cases hs
    · exact huserAllowed
    · intro hrole hcommand
      rw [if_neg (fun hno => hno.1 hcommand)] at h
      simp only [if_neg hrole] at h
      cases h
    · intro _ service hs
      rw [hservice] at hs
      cases hs
  -- a service is called: anyone but the operator needs it on the list
  | some service =>
    rw [hservice] at h hdeny
    constructor
    · intro service' hs
      rw [hservice] at hs
      cases hs
      apply Bool.eq_false_of_not_eq_true
      exact fun hdenied => hdeny ⟨rfl, classify_deny hdenied⟩
    · exact huserAllowed
    · intro _ _
      rw [hservice]
      exact Option.some_ne_none service
    · intro hrole service' hs
      rw [hservice] at hs
      cases hs
      apply allowed_of_autoAllow
      by_contra hnot
      rw [if_neg (fun hno => nomatch hno.2)] at h
      simp only [if_neg hnot, if_neg hrole] at h
      by_cases husr : caller.role = .user
      · rw [if_pos husr] at h
        cases h
      · rw [if_neg husr] at h
        cases h

theorem notForbidden_of_check {caller : Caller} {command : PyStr} {params : Dict}
    (hrole : caller.role ≠ .operator) (h : check caller command params = none) :
    isForbidden caller.forbidden command params = false := by
  apply Bool.eq_false_of_not_eq_true
  intro hforbidden
  unfold check at h
  by_cases hdeny : (serviceForCommand command params).isSome = true ∧
      classify (serviceForCommand command params) = .deny
  · simp only [if_pos hdeny] at h
    cases h
  simp only [if_neg hdeny] at h
  by_cases huser : caller.role = .user ∧ command ∉ userAllowedCommands
  · simp only [if_pos huser] at h
    cases h
  simp only [if_neg huser] at h
  have hboth : ¬ caller.role = .operator ∧
      isForbidden caller.forbidden command params = true := ⟨hrole, hforbidden⟩
  simp only [if_pos hboth] at h
  cases h

theorem classify_autoAllow {service : PyStr} (hdenied : deniedService service = false)
    (hallowed : serviceAllowed service = true) : classify (some service) = .autoAllow := by
  show (if deniedService service then Effect.deny else _) = _
  rw [hdenied, if_neg Bool.false_ne_true, if_pos hallowed]

/-- What lets the principal of a turn proceed. -/
theorem check_eq_none_iff {caller : Caller} {command : PyStr} {params : Dict}
    (hrole : caller.role ≠ .operator) :
    check caller command params = none ↔
      (∀ service, serviceForCommand command params = some service →
        deniedService service = false ∧ serviceAllowed service = true) ∧
      (caller.role = .user → command ∈ userAllowedCommands) ∧
      isForbidden caller.forbidden command params = false ∧
      (command = py "ha.call_service" → serviceForCommand command params ≠ none) := by
  constructor
  · intro h
    have hpassed := passed_of_check h
    exact ⟨fun service hs => ⟨hpassed.notDenied service hs, hpassed.allowed hrole service hs⟩,
      hpassed.userAllowed, notForbidden_of_check hrole h, hpassed.wellFormed hrole⟩
  · rintro ⟨hopen, huser, hforbidden, hformed⟩
    have hnotUser : ¬ (caller.role = .user ∧ command ∉ userAllowedCommands) :=
      fun h => h.2 (huser h.1)
    have hnotForbidden : ¬ (¬ caller.role = .operator ∧
        isForbidden caller.forbidden command params = true) := by
      rw [hforbidden]
      exact fun h => Bool.false_ne_true h.2
    unfold check
    cases hservice : serviceForCommand command params with
    | none =>
      have hother : command ≠ py "ha.call_service" ∧
          (Option.isNone (none : Option PyStr)) = true :=
        ⟨fun hcall => hformed hcall hservice, rfl⟩
      simp only [if_neg hnotUser, if_neg hnotForbidden, if_pos hother]
      rw [if_neg (fun h => Bool.false_ne_true h.1)]
    | some service =>
      have heffect := classify_autoAllow (hopen service hservice).1 (hopen service hservice).2
      have hsome : ¬ (command ≠ py "ha.call_service" ∧
          (Option.isNone (some service)) = true) := fun h => Bool.false_ne_true h.2
      simp only [heffect, if_neg hnotUser, if_neg hnotForbidden, if_neg hsome]
      rw [if_neg (fun h => nomatch h.2)]
      rfl

end HassNode.EffectPolicy
