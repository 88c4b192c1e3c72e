import Mathlib.Data.Rat.Cast.Order
import HassNode.ApprovalPolicy
import HassNode.Canonical

/-!
# Consuming an approval marker

`consume_approval_marker` of `config_mutation.py` over its table of used marker ids, and what any
sequence of such calls can authorise.
-/

namespace HassNode.ConfigMutation

open Py ApprovalPolicy

def refusal (code message : String) : Json :=
  obj [("ok", .bool false), ("error", .str (py code)), ("message", .str (py message))]

/-- `require_config_mutation_approval`: the refusal of a mutation that carries no marker. -/
def requireConfigMutationApproval (command action : PyStr) : Json :=
  let target := if action ≠ [] then command ++ py " action=" ++ action else command
  obj [("ok", .bool false), ("error", .str (py "PROPOSAL_REQUIRED")),
    ("message", .str (target ++
      py ": mutation requires native approval; proposal_id alone is not authorization"))]

/-- A marker of the right shape. -/
structure Marker where
  id : PyStr
  exp : Int
  bind : PyStr
deriving DecidableEq

def markerKeys : List PyStr := [py "id", py "exp", py "bind"]

/-- The shape check on the reserved field: exactly three keys, each of its type. -/
def markerOf : Json → Option Marker
  | .dict entries =>
    if (Dict.keys entries).all (markerKeys.contains ·) && markerKeys.all (Dict.has entries ·) then
      match Dict.get? entries (py "id"), Dict.get? entries (py "exp"),
        Dict.get? entries (py "bind") with
      | some (.str id), some (.int exp), some (.str bind) =>
        if id ≠ [] then some ⟨id, exp, bind⟩ else none
      | _, _, _ => none
    else none
  | _ => none

/-- `_USED_IDS`: marker id and expiry, in insertion order. -/
abbrev UsedIds := List (PyStr × Int)

/-- The entries that the pruning loop keeps at the clock reading `now`. -/
def prune (now : ℚ) (used : UsedIds) : UsedIds := used.filter fun e => ¬ (e.2 : ℚ) < now

/-- What a call of `consume_approval_marker` returns and leaves behind. -/
structure Consumption where
  refusal : Option Json
  params : Dict
  used : UsedIds

/-- `consume_approval_marker`, with `CURRENT_CALLER`, `time.time()` and `_USED_IDS` explicit. -/
def consumeApprovalMarker [Runtime] (caller : Option Caller) (now : ℚ) (used : UsedIds)
    (command action : PyStr) (params : Dict) : Consumption :=
  match params.get? approvalParam with
  | none =>
    if approvalExempt caller command action then ⟨none, params, used⟩
    else ⟨some (requireConfigMutationApproval command action), params, used⟩
  | some marker =>
    let rest := params.pop approvalParam
    match markerOf marker with
    | none => ⟨some (refusal "APPROVAL_INVALID" "approval marker is malformed"), rest, used⟩
    | some m =>
      let live := prune now used
      if (m.exp : ℚ) < now then
        ⟨some (refusal "APPROVAL_INVALID" "approval marker has expired"), rest, live⟩
      else if m.bind ≠ approvalBind command action rest then
        ⟨some (refusal "APPROVAL_INVALID" "approval marker does not match this call"), rest, live⟩
      else if live.any fun e => e.1 = m.id then
        ⟨some (refusal "APPROVAL_INVALID" "approval marker was already used"), rest, live⟩
      -- the id is not a key of the table, so the assignment appends
      else ⟨none, rest, live ++ [(m.id, m.exp)]⟩

theorem mem_prune {now : ℚ} {used : UsedIds} {e : PyStr × Int} :
    e ∈ prune now used ↔ e ∈ used ∧ now ≤ e.2 := by
  simp [prune, List.mem_filter]

section
variable [Runtime] {caller : Option Caller} {now : ℚ} {used : UsedIds} {command action : PyStr}
  {params : Dict}

/-- Everything a call can do: pass on an exemption, refuse without adding an id, or accept a live,
matching and unused marker and record it. -/
theorem consume_cases (caller : Option Caller) (now : ℚ) (used : UsedIds) (command action : PyStr)
    (params : Dict) :
    let r := consumeApprovalMarker caller now used command action params
    (params.get? approvalParam = none ∧ r.params = params ∧ r.used = used ∧
      (r.refusal = none → approvalExempt caller command action = true)) ∨
    ((∃ marker, params.get? approvalParam = some marker) ∧ r.params = params.pop approvalParam ∧
      r.refusal ≠ none ∧ (r.used = used ∨ r.used = prune now used)) ∨
    (∃ marker m, params.get? approvalParam = some marker ∧ markerOf marker = some m ∧
      now ≤ m.exp ∧ m.bind = approvalBind command action (params.pop approvalParam) ∧
      (∀ e ∈ prune now used, e.1 ≠ m.id) ∧ r.refusal = none ∧
      r.params = params.pop approvalParam ∧ r.used = prune now used ++ [(m.id, m.exp)]) := by
  unfold consumeApprovalMarker
  cases hget : params.get? approvalParam with
  | none =>
    left
    by_cases hex : approvalExempt caller command action = true
    · simp [hex]
    · simp [hex]
  | some marker =>
    right
    cases hm : markerOf marker with
    | none =>
      left
      simp only [hm]
      exact ⟨⟨marker, rfl⟩, trivial, by simp, .inl trivial⟩
    | some m =>
      simp only [hm]
      -- the checks in the order of the code: expired, bound to another call, used before
      by_cases hexp : (m.exp : ℚ) < now
      · left
        rw [if_pos hexp]
        exact ⟨⟨marker, rfl⟩, rfl, by simp, .inr rfl⟩
      · rw [if_neg hexp]
        by_cases hbind : m.bind ≠ approvalBind command action (params.pop approvalParam)
        · left
          rw [if_pos hbind]
          exact ⟨⟨marker, rfl⟩, rfl, by simp, .inr rfl⟩
        · rw [if_neg hbind]
          by_cases hused : (prune now used).any fun e => e.1 = m.id
          · left
            rw [if_pos hused]
            exact ⟨⟨marker, rfl⟩, rfl, by simp, .inr rfl⟩
          · right
            rw [if_neg hused]
            have hfresh : ∀ e ∈ prune now used, e.1 ≠ m.id := by
              intro e he heq
              exact hused (List.any_eq_true.mpr ⟨e, he, decide_eq_true heq⟩)
            exact ⟨marker, m, rfl, hm, not_lt.mp hexp, not_not.mp hbind, hfresh, rfl, rfl, rfl⟩

/-- On every path the reserved field is gone. -/
theorem consume_params :
    (consumeApprovalMarker caller now used command action params).params =
      params.pop approvalParam := by
  rcases consume_cases caller now used command action params with
    ⟨hnone, hparams, -⟩ | ⟨-, hparams, -⟩ | ⟨_, _, -, -, -, -, -, -, hparams, -⟩
  · rw [hparams]
    refine (List.filter_eq_self.mpr fun kv hkv => ?_).symm
    have habsent : approvalParam ∉ params.keys := by
      rw [← Dict.has_iff_mem_keys]
      simp [Dict.has, hnone]
    have hne : kv.1 ≠ approvalParam := fun heq => habsent (heq ▸ List.mem_map_of_mem hkv)
    simpa using hne
  · exact hparams
  · exact hparams

/-- A refused call records no id. -/
theorem consume_refused_used
    (h : (consumeApprovalMarker caller now used command action params).refusal ≠ none) :
    ∀ e ∈ (consumeApprovalMarker caller now used command action params).used, e ∈ used := by
  rcases consume_cases caller now used command action params with
    ⟨-, -, hused, -⟩ | ⟨-, -, -, hused | hused⟩ | ⟨_, _, -, -, -, -, -, hnone, -⟩
  · rw [hused]; exact fun e he => he
  · rw [hused]; exact fun e he => he
  · rw [hused]; exact fun e he => (mem_prune.mp he).1
  · exact absurd hnone h

/-- An entry leaves the table only once it has expired. -/
theorem consume_keeps {e : PyStr × Int} (he : e ∈ used) :
    e ∈ (consumeApprovalMarker caller now used command action params).used ∨ (e.2 : ℚ) < now := by
  by_cases hexp : (e.2 : ℚ) < now
  · exact .inr hexp
  · have hlive : e ∈ prune now used := mem_prune.mpr ⟨he, not_lt.mp hexp⟩
    left
    rcases consume_cases caller now used command action params with
      ⟨-, -, hused, -⟩ | ⟨-, -, -, hused | hused⟩ | ⟨_, _, -, -, -, -, -, -, -, hused⟩
    · rw [hused]; exact he
    · rw [hused]; exact he
    · rw [hused]; exact hlive
    · rw [hused]; exact List.mem_append_left _ hlive

end

/-! ## Sequences of calls -/

/-- One call of `consume_approval_marker`. -/
structure Call where
  caller : Option Caller
  now : ℚ
  command : PyStr
  action : PyStr
  params : Dict

/-- A call with the table it found and what it returned. -/
structure Step where
  call : Call
  before : UsedIds
  result : Consumption

section
variable [Runtime]

def Call.consume (c : Call) (used : UsedIds) : Consumption :=
  consumeApprovalMarker c.caller c.now used c.command c.action c.params

/-- The steps of a sequence of calls, each on the table the one before it left. -/
def consumeAll (used : UsedIds) : List Call → List Step
  | [] => []
  | c :: rest => ⟨c, used, c.consume used⟩ :: consumeAll (c.consume used).used rest

/-- The call carried the marker `m` and was let through. -/
def Step.AuthorisedBy (s : Step) (m : Marker) : Prop :=
  ∃ marker, s.call.params.get? approvalParam = some marker ∧ markerOf marker = some m ∧
    s.result.refusal = none

theorem mem_consumeAll {used : UsedIds} {calls : List Call} {s : Step}
    (h : s ∈ consumeAll used calls) : s.call ∈ calls ∧ s.result = s.call.consume s.before := by
  induction calls generalizing used with
  | nil => cases h
  | cons c rest ih =>
    rcases List.mem_cons.mp h with rfl | h
    · exact ⟨.head _, rfl⟩
    · exact ⟨.tail _ (ih h).1, (ih h).2⟩

/-- An authorised call recorded a live marker that matches it and whose id was not in use. -/
theorem Step.AuthorisedBy.spec {s : Step} {m : Marker} (hs : s.result = s.call.consume s.before)
    (h : s.AuthorisedBy m) :
    s.call.now ≤ m.exp ∧
    m.bind = approvalBind s.call.command s.call.action (s.call.params.pop approvalParam) ∧
    (∀ e ∈ s.before, e.1 = m.id → (e.2 : ℚ) < s.call.now) ∧
    (m.id, m.exp) ∈ s.result.used := by
  obtain ⟨marker, hget, hm, hnone⟩ := h
  rw [hs] at hnone ⊢
  rcases consume_cases s.call.caller s.call.now s.before s.call.command s.call.action
    s.call.params with ⟨hget', -⟩ | ⟨-, -, hrefused, -⟩ |
      ⟨marker', m', hget', hm', hexp, hbind, hfresh, -, -, hused⟩
  · rw [hget] at hget'
    cases hget'
  · exact absurd hnone hrefused
  · rw [hget, Option.some.injEq] at hget'
    subst hget'
    rw [hm, Option.some.injEq] at hm'
    subst hm'
    refine ⟨hexp, hbind, ?_, ?_⟩
    · intro e he hid
      by_contra hlive
      exact hfresh e (mem_prune.mpr ⟨he, not_lt.mp hlive⟩) hid
    · change (m.id, m.exp) ∈ (consumeApprovalMarker _ _ _ _ _ _).used
      rw [hused]
      exact List.mem_append_right _ (.head _)

/-- Along a sequence of calls an entry of the table is found by every later call whose clock has
not passed it. -/
theorem entry_found {used : UsedIds} {calls : List Call} {e : PyStr × Int} (he : e ∈ used)
    (hclock : calls.Pairwise fun c d => c.now ≤ d.now) :
    ∀ t ∈ consumeAll used calls, e ∈ t.before ∨ (e.2 : ℚ) < t.call.now := by
  induction calls generalizing used with
  | nil => intro t ht; cases ht
  | cons c rest ih =>
    intro t ht
    rw [List.pairwise_cons] at hclock
    rcases List.mem_cons.mp ht with rfl | ht
    · exact .inl he
    · rcases consume_keeps he with hkept | hexp
      · exact ih hkept hclock.2 t ht
      · exact .inr (lt_of_lt_of_le hexp (hclock.1 t.call (mem_consumeAll ht).1))

/-- Two authorised calls of a sequence never share a live marker id. -/
theorem authorised_pairwise (used : UsedIds) (calls : List Call)
    (hclock : calls.Pairwise fun c d => c.now ≤ d.now) :
    (consumeAll used calls).Pairwise fun s t => ∀ m m', s.AuthorisedBy m → t.AuthorisedBy m' →
      m.id = m'.id → (m.exp : ℚ) < t.call.now := by
  induction calls generalizing used with
  | nil => exact .nil
  | cons c rest ih =>
    rw [List.pairwise_cons] at hclock
    refine .cons ?_ (ih _ hclock.2)
    intro t ht m m' hs hm' hid
    have hrecorded := (hs.spec rfl).2.2.2
    rcases entry_found hrecorded hclock.2 t ht with hfound | hexp
    · exact (hm'.spec (mem_consumeAll ht).2).2.2.1 _ hfound hid
    · exact hexp

/-- A marker authorises at most one call, and only the call it was bound to. -/
theorem marker_authorises_once (used : UsedIds) (calls : List Call)
    (hclock : calls.Pairwise fun c d => c.now ≤ d.now) :
    (consumeAll used calls).Pairwise (fun s t => ∀ m m', s.AuthorisedBy m → t.AuthorisedBy m' →
      m.id = m'.id → (m.exp : ℚ) < t.call.now ∧ m ≠ m') ∧
    (∀ s ∈ consumeAll used calls,
      (∀ marker, s.call.params.get? approvalParam = some marker → s.result.refusal = none →
        ∃ m, markerOf marker = some m ∧ s.call.now ≤ m.exp ∧
          m.bind = approvalBind s.call.command s.call.action (s.call.params.pop approvalParam)) ∧
      (s.result.refusal ≠ none → ∀ e ∈ s.result.used, e ∈ s.before) ∧
      s.result.params = s.call.params.pop approvalParam ∧
      s.result.params.has approvalParam = false) := by
  constructor
  -- an id that comes again belongs to a marker that has expired, so the later marker is another one
  · refine List.Pairwise.imp_of_mem ?_ (authorised_pairwise used calls hclock)
    intro s t _ ht hst m m' hs hm' hid
    have hexp := hst m m' hs hm' hid
    refine ⟨hexp, ?_⟩
    rintro rfl
    exact absurd hexp (not_lt.mpr (hm'.spec (mem_consumeAll ht).2).1)
  · intro s hs
    have hresult := (mem_consumeAll hs).2
    refine ⟨?_, ?_, ?_, ?_⟩
    · intro marker hget hnone
      rcases consume_cases s.call.caller s.call.now s.before s.call.command s.call.action
        s.call.params with ⟨hget', -⟩ | ⟨-, -, hrefused, -⟩ |
          ⟨marker', m, hget', hm, hexp, hbind, -⟩
      · rw [hget] at hget'
        cases hget'
      · rw [hresult] at hnone
        exact absurd hnone hrefused
      · rw [hget, Option.some.injEq] at hget'
        subst hget'
        exact ⟨m, hm, hexp, hbind⟩
    · rw [hresult]
      exact consume_refused_used
    · rw [hresult]
      exact consume_params
    · have hparams : s.result.params = s.call.params.pop approvalParam := by
        rw [hresult]
        exact consume_params
      rw [hparams]
      simp [Dict.has]

end

/-- A marker for creating the toggle helper `Door`. -/
def doorMarker : Marker :=
  ⟨py "m1", 1060, py "15558e9e5239b9f8398366816cf1e8d1eafafef41dfef8eaf2c2571e11864649"⟩

def doorParams : Dict :=
  [(py "helper_type", .str (py "input_boolean")), (py "attrs", obj [("name", .str (py "Door"))])]

/-- The call that `doorMarker` approves, made at `now` by no Assist turn. -/
def doorCall (now : ℚ) : Call where
  caller := none
  now := now
  command := py "ha.config.helpers"
  action := py "create"
  params := doorParams ++ [(approvalParam, obj [("id", .str doorMarker.id),
    ("exp", .int doorMarker.exp), ("bind", .str doorMarker.bind)])]

@[reducible] def doorRuntime : Runtime :=
  Runtime.ofTable [(approvalText (py "ha.config.helpers") (py "create") doorParams, doorMarker.bind)]

/-- The same marker presented twice: the first call passes, the replay does not. -/
theorem marker_authorises_once_replay :
    let _ := doorRuntime
    ∃ s t, consumeAll [] [doorCall 1000, doorCall 1030] = [s, t] ∧ s.AuthorisedBy doorMarker ∧
      ¬ t.AuthorisedBy doorMarker := by
  intro _
  have hclock : [doorCall 1000, doorCall 1030].Pairwise fun c d => c.now ≤ d.now := by
    simp only [List.pairwise_cons, List.mem_singleton, forall_eq, doorCall]
    refine ⟨by norm_num, by simp⟩
  have honce := (marker_authorises_once [] _ hclock).1
  have hfirst : (Step.mk (doorCall 1000) [] ((doorCall 1000).consume [])).AuthorisedBy doorMarker := by
    exact ⟨_, by rfl, by decide, by decide⟩
  refine ⟨_, _, rfl, hfirst, fun hsecond => ?_⟩
  have hpair := List.rel_of_pairwise_cons honce (.head _)
  exact (hpair doorMarker doorMarker hfirst hsecond rfl).2 rfl

end HassNode.ConfigMutation
