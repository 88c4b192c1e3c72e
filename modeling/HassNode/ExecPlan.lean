import HassNode.Commands.SystemRun

/-!
# What an approval binds

A process is only asked for with the argument vector, text, directory and identities of the approved
plan, and a plan that was prepared is accepted when it comes back.
-/

namespace HassNode.ExecApprovals

open Py Interaction HaClient

/-! ## Chains of checks -/

theorem checked_bind {α β : Type} {checked : Checked α} {next : α → Checked β} {result : β} :
    (checked >>= next) = .ok result ↔ ∃ value, checked = .ok value ∧ next value = .ok result := by
  cases checked with
  | error stop => exact iff_of_false nofun (fun ⟨_, h, _⟩ => nomatch h)
  | ok value => exact ⟨fun h => ⟨value, rfl, h⟩, fun ⟨_, h, hnext⟩ => Except.ok.inj h ▸ hnext⟩

theorem refuse_eq_ok {response : Option Json} {u : Unit} :
    refuse response = .ok u ↔ response = none := by
  cases response with
  | none => exact iff_of_true rfl rfl
  | some _ => exact iff_of_false nofun nofun

theorem refuseIf_eq_ok {c : Prop} [Decidable c] {response : Json} {u : Unit} :
    refuseIf c response = .ok u ↔ ¬ c := by
  unfold refuseIf
  by_cases hc : c
  · rw [if_pos hc]
    exact iff_of_false nofun (not_not_intro hc)
  · rw [if_neg hc]
    exact iff_of_true rfl hc

theorem orRefuse_eq_ok {α : Type} {checked : Except Json α} {value : α} :
    orRefuse checked = .ok value ↔ checked = .ok value := by
  cases checked with
  | ok _ => exact ⟨fun h => congrArg _ (Except.ok.inj h), fun h => congrArg _ (Except.ok.inj h)⟩
  | error _ => exact iff_of_false nofun nofun

theorem orRaise_eq_ok {α : Type} {exc : Exc} {found : Option α} {value : α} :
    orRaise exc found = .ok value ↔ found = some value := by
  cases found with
  | some _ => exact ⟨fun h => congrArg _ (Except.ok.inj h), fun h => congrArg _ (Option.some.inj h)⟩
  | none => exact iff_of_false nofun nofun

theorem resolveCommandText_fst {argv : List PyStr} {raw : Json} {resolved : PyStr × Option PyStr}
    (h : resolveCommandText argv raw = .ok resolved) : resolved.1 = formatExecCommand argv := by
  unfold resolveCommandText at h
  extract_lets commandText payload preview bind at h
  have hbind : ∀ {raw : PyStr}, bind raw = .ok resolved → resolved.1 = commandText := by
    intro raw hraw
    change (if raw = [] then Except.ok (commandText, preview)
      else if raw ≠ commandText ∧ some raw ≠ payload then _ else _) = _ at hraw
    split_ifs at hraw
    · rw [← Except.ok.inj hraw]
    · rw [← Except.ok.inj hraw]
  cases raw with
  | null => exact hbind h
  | str s => exact hbind h
  | bool _ | int _ | float _ | list _ | dict _ => cases h

section
variable [Runtime] [CaseTable] {host : Host}

/-- The checks between a request and its process. -/
structure RunChecked (host : Host) (params : Dict) (request : Spawn) : Prop where
  argv : validateArgv (params.getD (py "command") .null) = .ok request.argv
  authorized : verifyAuthorization params = none
  text : ∃ preview, resolveCommandText request.argv (params.getD (py "rawCommand") .null) =
    .ok (formatExecCommand request.argv, preview)
  envShape : validateEnv (params.getD (py "env") .null) = none
  cwd : checkCwd host (params.getD (py "cwd") .null) = .ok request.cwd
  identifiers : ∀ field ∈ [py "agentId", py "sessionKey", py "proposalId", py "runId",
    py "approvalSource"], validateOptionalIdentifier field (params.getD field .null) = none
  consistent : verifyPlanConsistency (dictField params (py "systemRunPlan")) request.argv
    request.cwd (formatExecCommand request.argv) params = none
  argvText : isUtf8Encodable request.argv = true
  argvSize : encodedSize request.argv ≤ maxArgvBytes
  env : mergeEnv host (envOf params) = .ok request.env
  envText : isUtf8Encodable (request.env.map fun kv => kv.1 ++ py "=" ++ kv.2) = true
  envSize : encodedSize (request.env.map fun kv => kv.1 ++ py "=" ++ kv.2) ≤ maxEnvBytes
  timeout : resolveTimeoutMs host params = .ok request.timeoutMs

theorem planRun_eq_ok {params : Dict} {request : Spawn} :
    planRun host params = .ok request ↔ RunChecked host params request := by
  unfold planRun
  simp only [checked_bind, orRefuse_eq_ok, refuse_eq_ok, refuseIf_eq_ok, firstError_iff,
    Bool.not_eq_false, not_lt]
  constructor
  · rintro ⟨argv, hargv, _, hauth, ⟨text, preview⟩, htext, _, henvShape, cwd, hcwd, _, hids, _,
      hconsistent, _, hargvText, _, hargvSize, env, henv, _, henvText, _, henvSize, timeoutMs,
      htimeout, hrequest⟩
    have hfst := resolveCommandText_fst htext
    change text = _ at hfst
    rw [← Except.ok.inj hrequest]
    rw [hfst] at htext hconsistent
    exact ⟨hargv, hauth, ⟨preview, htext⟩, henvShape, hcwd,
      fun field hfield => hids _ (List.mem_map_of_mem hfield), hconsistent, hargvText, hargvSize,
      henv, henvText, henvSize, htimeout⟩
  · intro h
    obtain ⟨preview, htext⟩ := h.text
    refine ⟨request.argv, h.argv, (), h.authorized, _, htext, (), h.envShape, request.cwd, h.cwd,
      (), ?_, (), h.consistent, (), h.argvText, (), h.argvSize, request.env, h.env, (), h.envText,
      (), h.envSize, request.timeoutMs, h.timeout, rfl⟩
    intro check hcheck
    obtain ⟨field, hfield, rfl⟩ := List.mem_map.mp hcheck
    exact h.identifiers field hfield

end

/-! ## Only what was approved is executed -/

/-- The child's variables hide no credential. -/
def NoBlockedKey [CaseTable] (env : Env) : Prop := ∀ kv ∈ env, isBlockedKey kv.1 = false

/-- What an approver agreed to, the request repeats and the process gets. -/
structure Approved [CaseTable] (params : Dict) (request : Spawn) : Prop where
  plan : ∃ plan : Dict, params.get? (py "systemRunPlan") = some (.dict plan) ∧
    plan.get? (py "argv") = some (.list (request.argv.map .str)) ∧
    plan.get? (py "commandText") = some (.str (formatExecCommand request.argv)) ∧
    plan.get? (py "cwd") = some (textOrNull request.cwd) ∧
    plan.get? (py "agentId") = some (params.getD (py "agentId") .null) ∧
    plan.get? (py "sessionKey") = some (params.getD (py "sessionKey") .null)
  command : params.get? (py "command") = some (.list (request.argv.map .str))
  runId : ∃ runId, params.get? (py "runId") = some (.str runId) ∧ strip runId ≠ []
  envelope : params.get? (py "approved") = some (.bool true) ∨
    (∃ decision ∈ approvalDecisions, params.get? (py "approvalDecision") = some (.str decision)) ∨
    ∃ source, params.get? (py "approvalSource") = some (.str source) ∧ strip source ≠ []
  env : NoBlockedKey request.env

theorem strings?_eq_some {items : List Json} {texts : List PyStr} (h : strings? items = some texts) :
    items = texts.map .str := by
  induction items generalizing texts with
  | nil => rw [← Option.some.inj h]; rfl
  | cons item rest ih =>
    cases item with
    | str s =>
      rw [strings?] at h
      obtain ⟨tail, htail, htexts⟩ := Option.map_eq_some_iff.mp h
      rw [← htexts, ih htail]
      rfl
    | null | bool _ | int _ | float _ | list _ | dict _ => cases h

theorem list_of_validateArgv {value : Json} {argv : List PyStr} (h : validateArgv value = .ok argv) :
    value = .list (argv.map .str) := by
  cases value with
  | list items =>
    rw [validateArgv] at h
    cases hstrings : strings? items with
    | none =>
      rw [hstrings] at h
      cases h
    | some texts =>
      cases texts with
      | nil =>
        rw [hstrings] at h
        cases h
      | cons executable args =>
        simp only [hstrings] at h
        split_ifs at h
        rw [← Except.ok.inj h, strings?_eq_some hstrings]
  | null | bool _ | int _ | float _ | str _ | dict _ => cases h

theorem get?_of_getD {params : Dict} {key : PyStr} {value : Json} (hne : value ≠ .null)
    (h : params.getD key .null = value) : params.get? key = some value := by
  unfold Dict.getD at h
  cases hget : params.get? key with
  | none =>
    rw [hget] at h
    exact absurd h.symm hne
  | some found =>
    rw [hget] at h
    exact congrArg some h

theorem get?_of_strField {params : Dict} {key s : PyStr} (h : strField params key = some s) :
    params.get? key = some (.str s) := by
  unfold strField at h
  cases hget : params.get? key with
  | none =>
    rw [hget] at h
    cases h
  | some value =>
    rw [hget] at h
    cases value with
    | str s' => rw [Option.some.inj h]
    | null | bool _ | int _ | float _ | list _ | dict _ => cases h

theorem of_verifyPlanField {plan : Dict} {field : PyStr} {forwarded : Json}
    (h : verifyPlanField plan field forwarded = none) : plan.get? field = some forwarded := by
  unfold verifyPlanField at h
  cases hget : plan.get? field with
  | none =>
    rw [hget] at h
    cases h
  | some value =>
    rw [hget] at h
    by_contra hne
    have hvalue : value ≠ forwarded := fun heq => hne (congrArg some heq)
    change (if value ≠ forwarded then _ else none) = none at h
    rw [if_pos hvalue] at h
    cases h

/-- The envelope that an authorized request carries. -/
theorem of_verifyAuthorization {params : Dict} (h : verifyAuthorization params = none) :
    (∃ plan : Dict, params.get? (py "systemRunPlan") = some (.dict plan)) ∧
    (∃ runId, params.get? (py "runId") = some (.str runId) ∧ strip runId ≠ []) ∧
    (params.get? (py "approved") = some (.bool true) ∨
      (∃ decision ∈ approvalDecisions, params.get? (py "approvalDecision") = some (.str decision)) ∨
      ∃ source, params.get? (py "approvalSource") = some (.str source) ∧ strip source ≠ []) := by
  unfold verifyAuthorization at h
  cases hplan : params.getD (py "systemRunPlan") .null with
  | dict plan =>
    rw [hplan] at h
    refine ⟨⟨plan, get?_of_getD (by simp) hplan⟩, ?_⟩
    cases hrun : strField params (py "runId") with
    | none =>
      rw [hrun] at h
      cases h
    | some runId =>
      rw [hrun] at h
      by_cases hblank : strip runId = []
      · simp [hblank] at h
      · refine ⟨⟨runId, get?_of_strField hrun, hblank⟩, ?_⟩
        simp only [Option.all_some, hblank, decide_false, Bool.false_eq_true, if_false] at h
        by_contra hnone
        rw [not_or, not_or] at hnone
        rw [if_pos] at h
        · cases h
        · rintro (happroved | hdecision | hsource)
          · exact hnone.1 happroved
          · obtain ⟨decision, hfield, hmem⟩ := (Option.any_eq_true _ _).mp hdecision
            exact hnone.2.1 ⟨decision, of_decide_eq_true hmem, get?_of_strField hfield⟩
          · obtain ⟨source, hfield, hsource⟩ := (Option.any_eq_true _ _).mp hsource
            exact hnone.2.2 ⟨source, get?_of_strField hfield, of_decide_eq_true hsource⟩
  | null | bool _ | int _ | float _ | list _ | str _ =>
    rw [hplan] at h
    cases h

theorem baseEnv_noBlockedKey [CaseTable] (host : Host) : NoBlockedKey (baseEnv host) := by
  have hsafe : (safeEnvKeys.all fun key => !isBlockedKey key) = true := rfl
  intro kv hkv
  obtain ⟨key, hkey, hvalue⟩ := List.mem_filterMap.mp hkv
  obtain ⟨value, -, rfl⟩ := Option.map_eq_some_iff.mp hvalue
  have h := List.all_eq_true.mp hsafe key hkey
  rwa [Bool.not_eq_true'] at h

/-- Neither the node's own variables nor the added ones are blocked. -/
theorem noBlockedKey_of_mergeEnv [CaseTable] {host : Host} {callerEnv env : Env}
    (h : mergeEnv host callerEnv = .ok env) : NoBlockedKey env := by
  unfold mergeEnv at h
  by_cases hblocked : (callerEnv.any fun kv => isBlockedKey kv.1) = true
  · rw [if_pos hblocked] at h
    cases h
  · rw [if_neg hblocked] at h
    rw [← Except.ok.inj h]
    intro kv hkv
    rcases List.mem_append.mp hkv with hbase | hadded
    · obtain ⟨base, hmem, rfl⟩ := List.mem_map.mp hbase
      exact baseEnv_noBlockedKey host base hmem
    · rw [Bool.not_eq_true, List.any_eq_false] at hblocked
      exact Bool.eq_false_of_not_eq_true (hblocked kv (List.mem_of_mem_filter hadded))

section
variable [Runtime] [CaseTable] {host : Host}

theorem RunChecked.approved {params : Dict} {request : Spawn}
    (h : RunChecked host params request) : Approved params request := by
  obtain ⟨⟨plan, hplan⟩, hrunId, henvelope⟩ := of_verifyAuthorization h.authorized
  have hfields := h.consistent
  have hdict : dictField params (py "systemRunPlan") = plan := by
    unfold dictField
    rw [hplan]
  rw [hdict] at hfields
  unfold verifyPlanConsistency at hfields
  simp only [firstError_cons] at hfields
  obtain ⟨hargv, htext, hcwd, hagent, hsession, -⟩ := hfields
  constructor
  · refine ⟨plan, hplan, ?_, of_verifyPlanField htext, of_verifyPlanField hcwd,
      of_verifyPlanField hagent, of_verifyPlanField hsession⟩
    by_contra hne
    rw [if_pos hne] at hargv
    cases hargv
  · exact get?_of_getD nofun (list_of_validateArgv h.argv)
  · exact hrunId
  · exact henvelope
  · exact noBlockedKey_of_mergeEnv h.env

/-- Every process that a request asks for is the approved one. -/
theorem system_run_executes_approved (host : Host) (params : Dict)
    (events : List (Event fun _ : Spawn => Spawned)) (result : Result)
    (hrun : Prog.Path (handleSystemRun host params) events result) :
    ∀ event ∈ events, Approved params event.1 := by
  refine Prog.Asks.path ?_ hrun
  unfold handleSystemRun
  cases hplan : planRun host params with
  | error stop =>
    cases stop with
    | refused response => trivial
    | raised exc => trivial
  | ok request => exact ⟨(planRun_eq_ok.mp hplan).approved, fun _ => trivial⟩

end

/-- A node with one allowed root and no links. -/
def plainHost : Host where
  roots := [py "/config"]
  resolve path := if startsWith path (py "/") then some path else none
  isDir _ := some true
  environ := [(py "PATH", py "/bin")]
  resolve_absolute := by
    intro path resolved h
    by_cases habsolute : startsWith path (py "/") = true
    · rw [if_pos habsolute] at h
      rw [← Option.some.inj h]
      exact habsolute
    · rw [if_neg habsolute] at h
      cases h
  resolve_canonical := by
    intro path resolved h _
    by_cases habsolute : startsWith path (py "/") = true
    · rw [if_pos habsolute] at h
      rw [← Option.some.inj h, if_pos habsolute]
    · rw [if_neg habsolute] at h
      cases h

def samplePlan : Dict :=
  [(py "argv", .list [.str (py "ls"), .str (py "a b")]), (py "cwd", .str (py "/config")),
    (py "commandText", .str (py "ls \"a b\"")), (py "agentId", .null), (py "sessionKey", .null)]

def sampleRun : Dict :=
  [(py "command", .list [.str (py "ls"), .str (py "a b")]), (py "cwd", .str (py "/config")),
    (py "systemRunPlan", .dict samplePlan), (py "runId", .str (py "run-1")),
    (py "approved", .bool true)]

def sampleSpawn : Spawn :=
  ⟨[py "ls", py "a b"], some (py "/config"), [(py "PATH", py "/bin")], 30000⟩

theorem system_run_executes_approved_ls :
    @Approved ⟨fun c => [c]⟩ sampleRun sampleSpawn := by
  let : Runtime := Runtime.ofTable []
  let : CaseTable := ⟨fun c => [c]⟩
  have hplan : planRun plainHost sampleRun = .ok sampleSpawn := rfl
  have hrun : Prog.Path (handleSystemRun plainHost sampleRun) [⟨sampleSpawn, .fileNotFound⟩]
      (spawnReply sampleSpawn .fileNotFound) := by
    unfold handleSystemRun
    rw [hplan]
    exact .call _ _ _ (.ret _)
  exact system_run_executes_approved plainHost sampleRun [⟨sampleSpawn, .fileNotFound⟩]
    (spawnReply sampleSpawn .fileNotFound) hrun ⟨sampleSpawn, .fileNotFound⟩ (.head _)

/-! ## The reply to a preparation -/

/-- The response of a check that fails has `P`. -/
def RefusesWith (P : Json → Prop) {α : Type} (checked : Checked α) : Prop :=
  ∀ response, checked = .error (.refused response) → P response

section
variable {P : Json → Prop} {α β : Type}

theorem refusesWith_bind {checked : Checked α} {next : α → Checked β} (h : RefusesWith P checked)
    (hnext : ∀ value, RefusesWith P (next value)) : RefusesWith P (checked >>= next) := by
  cases checked with
  | error stop =>
    intro response hstop
    apply h response
    rw [← Except.error.inj hstop]
  | ok value => exact hnext value

theorem refusesWith_ok (value : α) : RefusesWith P (.ok value : Checked α) := nofun

theorem refusesWith_refuse {found : Option Json} (h : ∀ response ∈ found, P response) :
    RefusesWith P (refuse found) := by
  cases found with
  | none => exact refusesWith_ok ()
  | some response =>
    intro response' hstop
    cases hstop
    exact h response rfl

theorem refusesWith_refuseIf {c : Prop} [Decidable c] {response : Json} (h : P response) :
    RefusesWith P (refuseIf c response) := by
  unfold refuseIf
  split
  · intro response' hstop
    cases hstop
    exact h
  · exact refusesWith_ok ()

theorem refusesWith_orRefuse {checked : Except Json α}
    (h : ∀ response, checked = .error response → P response) : RefusesWith P (orRefuse checked) := by
  cases checked with
  | ok value => exact refusesWith_ok value
  | error response =>
    intro response' hstop
    cases hstop
    exact h response rfl

theorem refusesWith_orRaise {exc : Exc} {found : Option α} : RefusesWith P (orRaise exc found) := by
  cases found with
  | some value => exact refusesWith_ok value
  | none => nofun

theorem refusesWith_raised {checked : Except Exc α} : RefusesWith P (checked.mapError .raised) := by
  cases checked with
  | ok value => exact refusesWith_ok value
  | error exc => nofun

end

/-- The response offers no plan. -/
def Planless (response : Json) : Prop :=
  ∀ fields : Dict, response = .dict fields → fields.get? (py "plan") = none

theorem planless_error (code : String) (message : PyStr) : Planless (error code message) := by
  intro fields hfields
  rw [← Json.dict.inj hfields]
  simp [Dict.get?_cons]

theorem planless_invalid {message : PyStr} {response : Json} (h : invalid message = some response) :
    Planless response := by
  cases h
  exact planless_error _ _

theorem planless_validateArgv {value response : Json} (h : validateArgv value = .error response) :
    Planless response := by
  unfold validateArgv at h
  split at h
  · cases h
    exact planless_error _ _
  · split at h
    · cases h
      exact planless_error _ _
    · cases h
      exact planless_error _ _
    · dsimp only at h
      split_ifs at h
      all_goals
        cases h
        exact planless_error _ _
  · cases h
    exact planless_error _ _

theorem planless_resolveCommandText {argv : List PyStr} {raw response : Json}
    (h : resolveCommandText argv raw = .error response) : Planless response := by
  unfold resolveCommandText at h
  extract_lets commandText payload preview bind at h
  have hbind : ∀ {raw : PyStr}, bind raw = .error response → Planless response := by
    intro raw hraw
    change (if raw = [] then Except.ok (commandText, preview)
      else if raw ≠ commandText ∧ some raw ≠ payload then _ else _) = _ at hraw
    split_ifs at hraw
    cases hraw
    intro fields hfields
    rw [← Json.dict.inj hfields]
    simp [Dict.get?_cons]
  cases raw with
  | null | str s => exact hbind h
  | bool _ | int _ | float _ | list _ | dict _ =>
    cases h
    exact planless_error _ _

theorem planless_validateEnv {value response : Json} (h : validateEnv value = some response) :
    Planless response := by
  cases value with
  | null => cases h
  | dict entries =>
    unfold validateEnv at h
    dsimp only at h
    split at h
    · cases h
    · exact planless_invalid h
  | bool _ | int _ | float _ | str _ | list _ => exact planless_invalid h

theorem planless_identifier {field : PyStr} {value response : Json}
    (h : validateOptionalIdentifier field value = some response) : Planless response := by
  cases value with
  | null => cases h
  | str s =>
    unfold validateOptionalIdentifier at h
    dsimp only at h
    split at h
    · exact planless_invalid h
    · cases h
  | bool _ | int _ | float _ | list _ | dict _ => exact planless_invalid h

section
variable [Runtime] {host : Host}

theorem planless_checkCwd (value : Json) : RefusesWith Planless (checkCwd host value) := by
  cases value with
  | null => exact refusesWith_ok none
  | str cwd =>
    unfold checkCwd
    dsimp only
    split
    · intro response hstop
      cases hstop
      exact planless_error _ _
    · have hvalid : RefusesWith Planless (validateCwd host cwd) := by
        unfold validateCwd
        refine refusesWith_bind (refusesWith_refuseIf (planless_error _ _)) fun _ => ?_
        refine refusesWith_bind (refusesWith_refuseIf (planless_error _ _)) fun _ => ?_
        refine refusesWith_bind refusesWith_orRaise fun _ => ?_
        refine refusesWith_bind (refusesWith_refuseIf (planless_error _ _)) fun _ => ?_
        refine refusesWith_bind refusesWith_orRaise fun _ => ?_
        exact refusesWith_bind (refusesWith_refuseIf (planless_error _ _)) fun _ => refusesWith_ok _
      cases hchecked : validateCwd host cwd with
      | ok resolved => exact refusesWith_ok _
      | error stop =>
        intro response hstop
        cases hstop
        exact hvalid response hchecked
  | bool _ | int _ | float _ | list _ | dict _ =>
    intro response hstop
    cases hstop
    exact planless_error _ _

/-- No refusal of a preparation has a plan. -/
theorem planless_prepare (budget : Nat) (stored : ReadOutcome) (params : Dict) :
    RefusesWith Planless (prepare host budget stored params) := by
  unfold prepare
  refine refusesWith_bind (refusesWith_orRefuse fun _ => planless_validateArgv) fun argv => ?_
  refine refusesWith_bind (refusesWith_orRefuse fun _ => planless_resolveCommandText) fun _ => ?_
  refine refusesWith_bind (refusesWith_refuse fun _ => planless_validateEnv) fun _ => ?_
  refine refusesWith_bind (planless_checkCwd _) fun cwd => ?_
  refine refusesWith_bind (refusesWith_refuse fun _ => planless_identifier) fun _ => ?_
  refine refusesWith_bind (refusesWith_refuse fun _ => planless_identifier) fun _ => ?_
  refine refusesWith_bind refusesWith_raised fun _ => ?_
  exact refusesWith_bind refusesWith_raised fun _ => refusesWith_ok _

/-- The params are accepted with a plan. -/
def Prepares (host : Host) (budget : Nat) (stored : ReadOutcome) (params plan : Dict) : Prop :=
  ∃ response : Dict, handleSystemRunPrepare host budget stored params = .ok (.dict response) ∧
    response.get? (py "plan") = some (.dict plan)

theorem prepares_iff {budget : Nat} {stored : ReadOutcome} {params plan : Dict} :
    Prepares host budget stored params plan ↔ prepare host budget stored params = .ok plan := by
  unfold Prepares handleSystemRunPrepare
  constructor
  · rintro ⟨response, hreply, hplan⟩
    cases hprepare : prepare host budget stored params with
    | ok made =>
      rw [hprepare] at hreply
      rw [← Json.dict.inj (Except.ok.inj hreply), List.map_cons, Dict.get?_cons, if_pos rfl] at hplan
      rw [Json.dict.inj (Option.some.inj hplan)]
    | error stop =>
      rw [hprepare] at hreply
      cases stop with
      | refused refusal =>
        have hnone := planless_prepare budget stored params refusal hprepare response
          (Except.ok.inj hreply)
        rw [hplan] at hnone
        cases hnone
      | raised exc => cases hreply
  · intro hprepare
    rw [hprepare]
    refine ⟨_, rfl, ?_⟩
    rw [List.map_cons, Dict.get?_cons, if_pos rfl]

end

/-! ## A prepared plan comes back -/

/-- The request of a Gateway that forwards an approved plan unchanged. -/
def forward (plan : Dict) (runId : PyStr) : Dict :=
  [(py "command", plan.getD (py "argv") .null), (py "rawCommand", plan.getD (py "commandText") .null),
    (py "cwd", plan.getD (py "cwd") .null), (py "agentId", plan.getD (py "agentId") .null),
    (py "sessionKey", plan.getD (py "sessionKey") .null), (py "systemRunPlan", .dict plan),
    (py "approved", .bool true), (py "runId", .str runId)]

/-- What a prepared plan says. -/
structure Prepared [Runtime] (host : Host) (plan : Dict) (argv : List PyStr) : Prop where
  valid : validateArgv (.list (argv.map .str)) = .ok argv
  fields : ∃ cwd preview agentId sessionKey policy,
    plan = [(py "argv", .list (argv.map .str)), (py "cwd", textOrNull cwd),
      (py "commandText", .str (formatExecCommand argv)), (py "commandPreview", preview),
      (py "agentId", agentId), (py "sessionKey", sessionKey), (py "policySnapshot", policy)] ∧
    (∀ resolved ∈ cwd, ∃ path, validateCwd host path = .ok resolved) ∧
    validateOptionalIdentifier (py "agentId") agentId = none ∧
    validateOptionalIdentifier (py "sessionKey") sessionKey = none

section
variable [Runtime] {host : Host}

theorem checkCwd_eq_ok {value : Json} {cwd : Option PyStr} (h : checkCwd host value = .ok cwd) :
    ∀ resolved ∈ cwd, ∃ path, validateCwd host path = .ok resolved := by
  intro resolved hresolved
  cases value with
  | null =>
    rw [← Except.ok.inj h] at hresolved
    cases hresolved
  | str path =>
    change (if strip path = [] then _ else (validateCwd host path).map some) = _ at h
    by_cases hblank : strip path = []
    · rw [if_pos hblank] at h
      cases h
    · rw [if_neg hblank] at h
      cases hvalid : validateCwd host path with
      | error stop =>
        rw [hvalid] at h
        cases h
      | ok found =>
        rw [hvalid] at h
        rw [← Except.ok.inj h, Option.mem_some_iff] at hresolved
        exact ⟨path, hresolved ▸ hvalid⟩
  | bool _ | int _ | float _ | list _ | dict _ => cases h

theorem prepared_of_prepare {budget : Nat} {stored : ReadOutcome} {params plan : Dict}
    (h : prepare host budget stored params = .ok plan) : ∃ argv, Prepared host plan argv := by
  unfold prepare at h
  simp only [checked_bind, orRefuse_eq_ok, refuse_eq_ok] at h
  obtain ⟨argv, hargv, ⟨text, preview⟩, htext, _, -, cwd, hcwd, _, hagent, _, hsession, ⟨document, _⟩,
    -, policy, -, hplan⟩ := h
  have hfst := resolveCommandText_fst htext
  change text = _ at hfst
  refine ⟨argv, ?_, cwd, textOrNull preview, params.getD (py "agentId") .null,
    params.getD (py "sessionKey") .null, .dict policy, ?_, checkCwd_eq_ok hcwd, hagent, hsession⟩
  · rw [← list_of_validateArgv hargv]
    exact hargv
  · rw [← Except.ok.inj hplan, hfst]

/-- A resolved directory is accepted as it is. -/
theorem validateCwd_resolved {path resolved : PyStr} (h : validateCwd host path = .ok resolved) :
    startsWith resolved (py "/") = true ∧ validateCwd host resolved = .ok resolved := by
  unfold validateCwd at h
  simp only [checked_bind, refuseIf_eq_ok, orRaise_eq_ok, Bool.not_eq_false] at h
  obtain ⟨_, hroots, _, -, found, hresolve, _, hbelow, directory, hdir, _, hdirectory, hfound⟩ := h
  rw [Except.ok.inj hfound] at hresolve hbelow hdir
  rw [hdirectory] at hdir
  have habsolute := host.resolve_absolute hresolve
  refine ⟨habsolute, ?_⟩
  unfold validateCwd
  simp only [checked_bind, refuseIf_eq_ok, orRaise_eq_ok, Bool.not_eq_false]
  exact ⟨(), hroots, (), habsolute, resolved, host.resolve_canonical hresolve hdir, (), hbelow, true,
    hdir, (), rfl, rfl⟩

end

theorem strip_ne_nil {s : PyStr} {c : CodePoint} (hmem : c ∈ s) (hc : isSpace c = false) :
    strip s ≠ [] := by
  intro h
  unfold strip at h
  rw [List.rdropWhile_eq_nil_iff] at h
  have hdrop : c ∈ s.dropWhile isSpace := by
    rw [← List.takeWhile_append_dropWhile (p := isSpace) (l := s)] at hmem
    rcases List.mem_append.mp hmem with htake | hdrop
    · rw [List.mem_takeWhile_imp htake] at hc
      cases hc
    · exact hdrop
  rw [h c hdrop] at hc
  cases hc

theorem updateEnv_nil (base : Env) : updateEnv base [] = base := by
  unfold updateEnv
  simp

/-- The approval text comes back as it was prepared when `str.strip` leaves it alone. -/
theorem resolveCommandText_text {argv : List PyStr}
    (htext : strip (formatExecCommand argv) = formatExecCommand argv ∨
      strip (formatExecCommand argv) = []) :
    ∃ preview, resolveCommandText argv (.str (formatExecCommand argv)) =
      .ok (formatExecCommand argv, preview) := by
  unfold resolveCommandText
  extract_lets commandText payload preview bind
  refine ⟨preview, ?_⟩
  show (if strip commandText = [] then Except.ok (commandText, preview)
    else if strip commandText ≠ commandText ∧ some (strip commandText) ≠ payload then _ else _) = _
  by_cases hnil : strip commandText = []
  · rw [if_pos hnil]
  · rcases htext with hsame | hblank
    · rw [if_neg hnil, if_neg (fun h => h.1 hsame)]
    · exact absurd hblank hnil

section
variable [Runtime] {host : Host}

theorem checkCwd_textOrNull {cwd : Option PyStr}
    (h : ∀ resolved ∈ cwd, ∃ path, validateCwd host path = .ok resolved) :
    checkCwd host (textOrNull cwd) = .ok cwd := by
  cases cwd with
  | none => rfl
  | some resolved =>
    obtain ⟨path, hpath⟩ := h resolved rfl
    obtain ⟨habsolute, hvalid⟩ := validateCwd_resolved hpath
    have hslash : (47 : CodePoint) ∈ resolved := by
      unfold startsWith at habsolute
      rw [List.isPrefixOf_iff_prefix] at habsolute
      exact habsolute.subset (.head _)
    show (if strip resolved = [] then _ else (validateCwd host resolved).map some) = _
    rw [if_neg (strip_ne_nil hslash (by decide)), hvalid]
    rfl

omit [Runtime] in
theorem verifyPlanField_same {plan : Dict} {field : PyStr} {forwarded : Json}
    (h : plan.get? field = some forwarded) : verifyPlanField plan field forwarded = none := by
  unfold verifyPlanField
  rw [h]
  exact if_neg (not_not_intro rfl)

variable [CaseTable]

/-- A prepared plan passes every check when its arguments and the node's own variables fit a
process. -/
theorem runChecked_forward {plan : Dict} {argv : List PyStr} {runId : PyStr}
    (hplan : Prepared host plan argv) (hrunId : strip runId ≠ [])
    (htext : strip (formatExecCommand argv) = formatExecCommand argv ∨
      strip (formatExecCommand argv) = [])
    (hencodable : isUtf8Encodable argv = true) (hsize : encodedSize argv ≤ maxArgvBytes)
    (henvText : isUtf8Encodable ((baseEnv host).map fun kv => kv.1 ++ py "=" ++ kv.2) = true)
    (henvSize : encodedSize ((baseEnv host).map fun kv => kv.1 ++ py "=" ++ kv.2) ≤ maxEnvBytes) :
    ∃ cwd, RunChecked host (forward plan runId)
      ⟨argv, cwd, baseEnv host, min defaultTimeoutMs (maxTimeoutMs host)⟩ := by
  obtain ⟨cwd, preview, agentId, sessionKey, policy, rfl, hcwd, hagent, hsession⟩ := hplan.fields
  refine ⟨cwd, ?_⟩
  constructor
  · exact hplan.valid
  · unfold verifyAuthorization
    show (if decide (strip runId = []) = true then _ else _) = _
    rw [if_neg (by rw [decide_eq_true_eq]; exact hrunId)]
    exact if_neg (not_not_intro (.inl rfl))
  · exact resolveCommandText_text htext
  · rfl
  · exact checkCwd_textOrNull hcwd
  · have hrun : validateOptionalIdentifier (py "runId") (.str runId) = none := if_neg hrunId
    simp only [List.forall_mem_cons]
    exact ⟨hagent, hsession, rfl, hrun, rfl, List.forall_mem_nil _⟩
  · unfold verifyPlanConsistency
    simp only [firstError_cons]
    refine ⟨if_neg (not_not_intro rfl), verifyPlanField_same rfl, verifyPlanField_same rfl,
      verifyPlanField_same rfl, verifyPlanField_same rfl, rfl⟩
  · exact hencodable
  · exact hsize
  · show (if _ then _ else Except.ok (updateEnv (baseEnv host) [])) = _
    rw [updateEnv_nil]
    rfl
  · exact henvText
  · exact henvSize
  · rfl

/-- A prepared plan is accepted up to the spawn when its arguments and the node's own variables fit
a process. -/
theorem prepared_plan_accepted (host : Host) (budget : Nat) (stored : ReadOutcome)
    (params plan : Dict) (argv : List PyStr) (runId : PyStr)
    (hprepared : Prepares host budget stored params plan)
    (hargv : plan.get? (py "argv") = some (.list (argv.map .str)))
    (hrunId : strip runId ≠ [])
    (htext : strip (formatExecCommand argv) = formatExecCommand argv ∨
      strip (formatExecCommand argv) = [])
    (hencodable : isUtf8Encodable argv = true) (hsize : encodedSize argv ≤ maxArgvBytes)
    (henvText : isUtf8Encodable ((baseEnv host).map fun kv => kv.1 ++ py "=" ++ kv.2) = true)
    (henvSize : encodedSize ((baseEnv host).map fun kv => kv.1 ++ py "=" ++ kv.2) ≤ maxEnvBytes) :
    ∃ request next, handleSystemRun host (forward plan runId) = .call request next ∧
      request.argv = argv := by
  obtain ⟨argv', hplan⟩ := prepared_of_prepare (prepares_iff.mp hprepared)
  have hsame : argv' = argv := by
    obtain ⟨cwd, preview, agentId, sessionKey, policy, hfields, -⟩ := hplan.fields
    rw [hfields] at hargv
    change some (Json.list (argv'.map .str)) = _ at hargv
    rw [Option.some.injEq, Json.list.injEq] at hargv
    exact List.map_injective_iff.mpr (fun _ _ => Json.str.inj) hargv
  rw [hsame] at hplan
  obtain ⟨cwd, hchecked⟩ :=
    runChecked_forward hplan hrunId htext hencodable hsize henvText henvSize
  unfold handleSystemRun
  rw [planRun_eq_ok.mpr hchecked]
  exact ⟨_, _, rfl, rfl⟩

end

/-- The plan of `ls "a b"` in `/config`. -/
theorem prepared_plan_accepted_ls :
    let _ : Runtime := Runtime.ofTable []
    let _ : CaseTable := ⟨fun c => [c]⟩
    ∃ plan request next, handleSystemRun plainHost (forward plan (py "run-1")) =
      .call request next ∧ request.argv = [py "ls", py "a b"] := by
  intro runtime table
  have hprepared : ∃ plan, Prepares plainHost 50 .notFound
      [(py "command", .list [.str (py "ls"), .str (py "a b")]), (py "cwd", .str (py "/config"))] plan ∧
        plan.get? (py "argv") = some (.list [.str (py "ls"), .str (py "a b")]) :=
    ⟨_, ⟨_, rfl, rfl⟩, rfl⟩
  obtain ⟨plan, hplan, hargv⟩ := hprepared
  exact ⟨plan, prepared_plan_accepted plainHost 50 .notFound
    [(py "command", .list [.str (py "ls"), .str (py "a b")]), (py "cwd", .str (py "/config"))] plan
    [py "ls", py "a b"] (py "run-1") hplan hargv (by decide) (.inl (by decide)) (by decide)
    (by decide) (by decide) (by decide)⟩

/-- A lone surrogate is prepared and not executed. -/
theorem surrogate_prepared_refused :
    ¬ ∀ (_ : Runtime) (_ : CaseTable) (host : Host) (budget : Nat) (stored : ReadOutcome)
      (params plan : Dict) (runId : PyStr), Prepares host budget stored params plan →
      strip runId ≠ [] → ∃ request next,
        handleSystemRun host (forward plan runId) = .call request next := by
  intro h
  have hprepared : ∃ plan, @Prepares (Runtime.ofTable []) plainHost 50 .notFound
      [(py "command", .list [.str [0xD800]])] plan ∧
        @planRun (Runtime.ofTable []) ⟨fun c => [c]⟩ plainHost (forward plan (py "run-1")) =
          .error (.refused (error "INVALID_PARAM"
            (py "command contains a value that cannot be UTF-8 encoded"))) :=
    ⟨_, ⟨_, rfl, rfl⟩, rfl⟩
  obtain ⟨plan, hplan, hrefused⟩ := hprepared
  obtain ⟨request, next, hcall⟩ := h (Runtime.ofTable []) ⟨fun c => [c]⟩ plainHost 50 .notFound
    [(py "command", .list [.str [0xD800]])] plan (py "run-1") hplan (by decide)
  unfold handleSystemRun at hcall
  rw [hrefused] at hcall
  cases hcall

end HassNode.ExecApprovals
