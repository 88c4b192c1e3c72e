import HassNode.Dispatcher
import HassNode.MutationGate

/-!
# The household gate

Which Home Assistant services a dispatched call can post.  A handler that is not behind the
approval gate posts at most the service that the effect policy judged (`PostsJudged`); a gated one
posts at most the service of its own, after the gate (`gated_posts`).
-/

namespace HassNode.HouseholdGate

open Py Interaction ConfigMutation HaClient Commands Authz HaConfig HaLifecycle HaServices HaReads
  EffectPolicy Dispatcher MutationGate

/-- The read-only service of `ha.calendar_get_events`. -/
def calendarService : PyStr × PyStr := (py "calendar", py "get_events")

/-- The services that a command outside the approval gate may post. -/
def judgedServices (command : PyStr) (params : Dict) : List (PyStr × PyStr) :=
  match serviceForCommand command params with
  | some service => [partitionDot service]
  | none => if command = py "ha.calendar_get_events" then [calendarService] else []

def PostsJudged (command : PyStr) (handler : Handler) : Prop :=
  ∀ params, Prog.Asks (Op.IsRequest (CallsOnly (judgedServices command params))) (handler params)

/-- A handler that posts no service at all. -/
def Silent (handler : Handler) : Prop :=
  ∀ params, Prog.Asks (Op.IsRequest (CallsOnly [])) (handler params)

theorem callsOnly_mono {services more : List (PyStr × PyStr)} (h : ∀ s ∈ services, s ∈ more) :
    ∀ op, Op.IsRequest (CallsOnly services) op → Op.IsRequest (CallsOnly more) op := by
  intro op hop
  cases op with
  | consume command action params => exact hop
  | request r =>
    cases r with
    | post path body => exact fun service hposted => h service (hop service hposted)
    | get path => trivial
    | delete path => trivial
    | ws frame => trivial
    | supervisorGet path => trivial
    | supervisorGetText path => trivial
    | supervisorPost path => trivial

theorem Silent.postsJudged {handler : Handler} (h : Silent handler) (command : PyStr) :
    PostsJudged command handler :=
  fun params => (h params).mono (callsOnly_mono fun _ hs => absurd hs List.not_mem_nil)

section
variable [Runtime]

/-! ## Handlers that post no service -/

theorem listStates_silent : Silent handleHaListStates := by
  intro params
  apply asks_withFilters
  apply asks_request trivial
  intro value
  cases value with
  | list raw =>
    apply asks_orRaise
    intro states
    apply asks_orRaise
    intro matching
    exact asks_respond _
  | null | bool _ | int _ | float _ | str _ | dict _ => exact asks_respond _

theorem getState_silent : Silent handleHaGetState := by
  intro params
  apply asks_withKeys
  apply asks_ite (asks_respond _)
  apply asks_orRaise
  intro encoded
  cases encoded with
  | none => exact asks_respond _
  | some encoded => exact asks_readDict trivial

theorem logbook_silent : Silent handleHaLogbook := by
  intro params
  apply asks_withFilters
  apply asks_periodPath
  intro path
  apply asks_orRaise
  intro endPart
  apply asks_orRaise
  intro entityPart
  exact asks_readList trivial

theorem history_silent : Silent handleHaHistory := by
  intro params
  apply asks_withFilters
  apply asks_periodPath
  intro path
  apply asks_orRaise
  intro endPart
  apply asks_orReturn
  intro ids _
  apply asks_orRaise
  intro idPart
  apply asks_orReturn
  intro flagParts _
  apply asks_request trivial
  intro value
  cases value with
  | list items =>
    cases items with
    | nil =>
      cases ids with
      | none => exact asks_respond _
      | some ids =>
        apply asks_orRaise
        intro paths
        apply asks_probeMissing (fun _ _ => trivial)
        intro missing
        exact asks_ite (asks_respond _) (asks_respond _)
    | cons item rest => exact asks_respond _
  | null | bool _ | int _ | float _ | str _ | dict _ => exact asks_respond _

theorem listAutomations_silent : Silent handleHaListAutomations := by
  intro params
  apply asks_withKeys
  cases params.getD (py "include_traces") (.bool false) with
  | bool includeTraces =>
    apply asks_orReturn
    intro pattern _
    apply asks_orReturn
    intro wanted _
    apply asks_request trivial
    intro value
    cases value with
    | list raw => exact asks_ite (asks_withTraces fun _ => trivial) (asks_respond _)
    | null | bool _ | int _ | float _ | str _ | dict _ => exact asks_respond _
  | null | int _ | float _ | str _ | list _ | dict _ => exact asks_respond _

omit [Runtime] in
theorem checkConfig_silent : Silent handleHaCheckConfig := by
  intro params
  apply asks_withKeys
  have hpost : CallsOnly [] (.post (py "/api/config/core/check_config") none) := callsOnly_post rfl
  exact asks_readDict hpost

omit [Runtime] in
theorem coreLogs_silent : Silent handleHaCoreLogs := by
  intro params
  apply asks_withKeys
  cases params.getD (py "lines") (.int 200) with
  | int raw => exact asks_readText trivial
  | null | bool _ | float _ | str _ | list _ | dict _ => exact asks_respond _

theorem addonLogs_silent : Silent handleHaAddonLogs := by
  intro params
  apply asks_withKeys
  apply asks_orReturn
  intro slug _
  apply asks_orRaise
  intro lines
  cases lines with
  | none => exact asks_respond _
  | some raw => exact asks_readText trivial

theorem addonText_silent (document : String) : Silent (handleAddonText document) := by
  intro params
  apply asks_withKeys
  apply asks_orReturn
  intro slug _
  exact asks_readText trivial

theorem addonData_silent (endpoint : String) (fields : List String) :
    Silent (handleAddonData endpoint fields) := by
  intro params
  apply asks_withKeys
  apply asks_orReturn
  intro slug _
  apply asks_request trivial
  intro raw
  apply asks_orReturn
  intro data _
  exact asks_respond _

omit [Runtime] in
theorem listAddons_silent : Silent handleHaListAddons := by
  intro params
  apply asks_withKeys
  apply asks_request trivial
  intro raw
  apply asks_orReturn
  intro data _
  split
  · exact asks_respond _
  · exact asks_respond _

omit [Runtime] in
theorem supervisorInfo_silent : Silent handleHaSupervisorInfo := by
  intro params
  apply asks_withKeys
  constructor
  · trivial
  · intro ans
    cases ans with
    | ok raw =>
      apply asks_orReturn
      intro data _
      exact asks_respond _
    | error exc => cases exc <;> trivial

omit [Runtime] in
theorem list_silent {names : List PyStr} {r : Request} {what : String}
    {shape : Dict → List Json → Json} (hr : CallsOnly [] r) :
    Silent fun params => withFilters names [] params (readList r what (shape params)) :=
  fun _ => asks_withFilters (asks_readList hr)

/-! ## Handlers that post the judged service -/

theorem callService_postsJudged : PostsJudged (py "ha.call_service") handleHaCallService := by
  intro params
  unfold handleHaCallService
  split
  · exact asks_respond _
  apply asks_orReturn
  rintro ⟨domain, service⟩ hcalled
  have hjudged := requireService_judged hcalled
  have hdomain := slugs_of_isServiceName hjudged.2.1
  apply asks_orReturn
  intro target _
  apply asks_orReturn
  intro data _
  apply asks_ite (asks_respond _)
  split
  · exact asks_respond _
  split
  · exact asks_respond _
  have hservices : judgedServices (py "ha.call_service") params = [(domain, service)] := by
    unfold judgedServices
    rw [hjudged.1]
    exact congrArg (fun pair => [pair]) (partitionDot_joined hdomain)
  apply asks_request
  · rw [hservices]
    generalize bodyOrNone _ = body
    exact callsOnly_service body hdomain (slugs_of_isServiceName hjudged.2.2)
  · intro value
    cases value with
    | list changed => exact asks_withObservedStates fun _ => trivial
    | null | bool _ | int _ | float _ | str _ | dict _ => exact asks_respond _

omit [Runtime] in
theorem light_postsJudged {command service : PyStr} (dataKeys : List PyStr)
    (hjudged : ∀ params, judgedServices command params = [(py "light", service)])
    (hservice : service.all isSlugChar = true) :
    PostsJudged command (handleLight service dataKeys) := by
  intro params
  unfold handleLight
  split
  · exact asks_respond _
  apply asks_orReturn
  intro target _
  apply asks_ite (asks_respond _)
  apply asks_request
  · rw [hjudged]
    generalize bodyOrNone _ = body
    exact callsOnly_service body (by decide) hservice
  · intro value
    cases value <;> exact asks_withObservedStates fun _ => trivial

omit [Runtime] in
theorem calendar_postsJudged :
    PostsJudged (py "ha.calendar_get_events") handleHaCalendarGetEvents := by
  intro params
  unfold handleHaCalendarGetEvents
  split
  · exact asks_respond _
  apply asks_orReturn
  intro ids _
  apply asks_orReturn
  intro startTime _
  apply asks_orReturn
  intro endTime _
  apply asks_request
  · intro service hposted
    -- the query is no part of the service
    have hpath : postedService (py "/api/services/calendar/get_events?return_response") =
        some calendarService := by decide
    rw [hpath, Option.some.injEq] at hposted
    rw [← hposted]
    exact .head _
  · intro value
    cases value <;> exact asks_respond _

/-! ## The registry -/

/-- A handler of the registry posts what the policy judged, or is behind the approval gate. -/
def Governed (denylist : List PyStr) (entry : PyStr × CommandHandler) : Prop :=
  match entry.2 with
  | .node => True
  | .ha handler => PostsJudged entry.1 handler ∨
      ∃ c ∈ gatedCommands denylist, c.name = entry.1 ∧ c.handler = handler

theorem governed_node (denylist : List PyStr) (command : PyStr) :
    Governed denylist (command, .node) := trivial

theorem governed_judged {denylist : List PyStr} {command : PyStr} {handler : Handler}
    (h : PostsJudged command handler) : Governed denylist (command, .ha handler) := .inl h

theorem governed_silent {denylist : List PyStr} {command : PyStr} {handler : Handler}
    (h : Silent handler) : Governed denylist (command, .ha handler) := .inl (h.postsJudged command)

theorem governed_gated {denylist : List PyStr} (c : GatedCommand) (h : c ∈ gatedCommands denylist) :
    Governed denylist (c.name, .ha c.handler) := .inr ⟨c, h, rfl, rfl⟩

theorem registry_governed (denylist : List PyStr) :
    ∀ entry ∈ registry denylist, Governed denylist entry := by
  have hgated : ∀ c ∈ gatedCommands denylist, Governed denylist (c.name, .ha c.handler) :=
    governed_gated
  simp only [gatedCommands, List.forall_mem_cons] at hgated
  obtain ⟨automation, script, scene, helpers, area, device, entity, entries, lovelace, reload,
    update, start, stop, restart, addonUpdate, -⟩ := hgated
  simp only [registry, List.forall_mem_cons, governed_node, true_and]
  exact ⟨governed_silent listStates_silent, governed_silent getState_silent,
    governed_judged callService_postsJudged, governed_silent fun _ => asks_withKeys (asks_readList trivial),
    governed_silent (list_silent trivial), governed_silent (list_silent trivial),
    governed_silent fun _ => asks_withKeys (asks_readDict trivial),
    governed_silent fun _ => asks_withKeys (asks_readList trivial),
    governed_silent (list_silent trivial), governed_silent coreLogs_silent,
    governed_judged calendar_postsJudged, governed_silent (list_silent trivial),
    governed_silent logbook_silent, governed_silent history_silent, reload,
    governed_judged (light_postsJudged _ (fun _ => rfl) (by decide)),
    governed_judged (light_postsJudged _ (fun _ => rfl) (by decide)),
    governed_silent listAutomations_silent, governed_silent checkConfig_silent,
    governed_silent addonLogs_silent, governed_silent listAddons_silent,
    governed_silent (addonData_silent _ _), governed_silent (addonData_silent _ _),
    governed_silent (addonText_silent _), governed_silent (addonText_silent _),
    governed_silent supervisorInfo_silent, start, stop, restart, addonUpdate, update, lovelace,
    automation, script, scene, helpers, area, device, entity, entries, List.forall_mem_nil _⟩

/-! ## What a run posts -/

/-- The event is a POST that calls the service. -/
def Posts (e : Event Ans) (service : PyStr × PyStr) : Prop :=
  ∃ path body, e.1 = .request (.post path body) ∧ postedService path = some service

omit [Runtime] in
theorem mem_of_callsOnly {services : List (PyStr × PyStr)} {e : Event Ans} {service : PyStr × PyStr}
    (h : Op.IsRequest (CallsOnly services) e.1) (hposts : Posts e service) : service ∈ services := by
  cases hposts with
  | intro path hposts =>
    cases hposts with
    | intro body hposts =>
      rw [hposts.1] at h
      exact h service hposts.2

omit [Runtime] in
theorem not_posts_of_isRead {e : Event Ans} {service : PyStr × PyStr}
    (h : Op.IsRequest IsRead e.1) : ¬ Posts e service := by
  intro hposts
  cases hposts with
  | intro path hposts =>
    cases hposts with
    | intro body hposts =>
      rw [hposts.1] at h
      exact h

omit [Runtime] in
theorem not_posts_gateEvent {command action : PyStr} {params : Dict} {verdict : Option Json}
    {service : PyStr × PyStr} : ¬ Posts (gateEvent command action params verdict) service := by
  intro hposts
  cases hposts with
  | intro path hposts =>
    cases hposts with
    | intro body hposts => cases hposts.1

/-- A gated command posts a service of its own only, once its gate has let it through. -/
theorem gated_posts {ω : Type} {denylist : List PyStr} {c : GatedCommand}
    (hc : c ∈ gatedCommands denylist) (env : Environment ω) (params : Dict) (s : UsedIds × ω)
    {e : Event Ans} {service : PyStr × PyStr}
    (he : e ∈ (Prog.exec env.answer (c.handler params) s).2.1) (hposts : Posts e service) :
    service ∈ c.services ∧ (Prog.exec env.answer (c.handler params) s).2.1.head? =
      some (gateEvent c.name (strippedAction params) params none) := by
  cases gatedCommands_gated denylist c hc with
  | intro body h =>
    have hshape := h.2 params
    generalize c.handler params = p at he hshape ⊢
    cases hshape with
    | refused response => cases he
    | reading haction hasks => exact absurd hposts (not_posts_of_isRead (hasks.of_mem_exec he))
    | gated =>
      cases hverdict : (consumeApprovalMarker env.caller (env.now s.2) s.1 c.name
          (strippedAction params) params).refusal with
      | some denied =>
        rw [exec_gate_denied env _ hverdict, List.mem_singleton] at he
        rw [he] at hposts
        exact absurd hposts not_posts_gateEvent
      | none =>
        rw [exec_gate_approved env _ hverdict] at he ⊢
        rcases List.mem_cons.mp he with rfl | he
        · exact absurd hposts not_posts_gateEvent
        · exact ⟨mem_of_callsOnly ((h.1 _ _).of_mem_exec he) hposts, rfl⟩

/-! ## The gate -/

/-- The deny-class services that have a dedicated command behind the approval gate. -/
def approvedServices : List (PyStr × PyStr × PyStr) :=
  [(py "ha.reload_config", reloadService), (py "ha.update_install", updateService)]

/-- The commands that post a fixed service of their own, and the service. -/
def ownServices : List (PyStr × PyStr × PyStr) :=
  (py "ha.calendar_get_events", calendarService) :: approvedServices

theorem approved_of_mem {denylist : List PyStr} : ∀ c ∈ gatedCommands denylist,
    c.name ∉ userAllowedCommands ∧ ∀ service ∈ c.services, (c.name, service) ∈ approvedServices := by
  simp only [gatedCommands, List.forall_mem_cons]
  simp [reloadService, updateService, approvedServices, userAllowedCommands]

omit [Runtime] in
theorem serviceForCommand_own : ∀ own ∈ ownServices, ∀ params,
    serviceForCommand own.1 params = none := by
  simp only [ownServices, approvedServices, List.forall_mem_cons]
  exact ⟨fun _ => rfl, fun _ => rfl, fun _ => rfl, List.forall_mem_nil _⟩

omit [Runtime] in
/-- A judged service is the pair of its two halves. -/
theorem join_judged {command : PyStr} {params : Dict} {service : PyStr}
    (h : serviceForCommand command params = some service) :
    service = (partitionDot service).1 ++ py "." ++ (partitionDot service).2 := by
  unfold serviceForCommand at h
  split at h
  · rename_i wrapped hwrapped
    have hmem := mem_of_lookup hwrapped
    simp only [wrapperServices, List.mem_cons, List.not_mem_nil, or_false, Prod.mk.injEq] at hmem
    cases h
    rcases hmem with ⟨-, rfl⟩ | ⟨-, rfl⟩ <;> rfl
  · split at h
    · cases h
    · simp only at h
      split at h
      · rename_i hnames
        rw [Bool.and_eq_true] at hnames
        cases h
        rw [partitionDot_joined (slugs_of_isServiceName hnames.1)]
      · cases h

/-- What the three checks come to for one posted service. -/
structure Permitted (caller : Caller) (command : PyStr) (params : Dict) (approved : Prop)
    (domain service : PyStr) : Prop where
  user : caller.role = .user → command ∈ userAllowedCommands ∧
    (allowedPair domain service = true ∨
      (command = py "ha.calendar_get_events" ∧ (domain, service) = calendarService))
  notDenied : caller.role ≠ .operator → interimServiceDenial domain service = none ∨
    ((command, domain, service) ∈ approvedServices ∧ approved)
  judged : serviceForCommand command params = some (domain ++ py "." ++ service) ∨
    (serviceForCommand command params = none ∧ (command, domain, service) ∈ ownServices)

omit [Runtime] in
theorem permitted_of_judged {caller : Caller} {command : PyStr} {params : Dict} {approved : Prop}
    {domain service : PyStr} (hpassed : Passed caller command params)
    (hmem : (domain, service) ∈ judgedServices command params) :
    Permitted caller command params approved domain service := by
  unfold judgedServices at hmem
  cases hjudged : serviceForCommand command params with
  | some judged =>
    simp only [hjudged, List.mem_singleton] at hmem
    constructor
    · intro hrole
      have hallowed := hpassed.allowed (by rw [hrole]; decide) judged hjudged
      unfold serviceAllowed at hallowed
      simp only [← hmem] at hallowed
      exact ⟨hpassed.userAllowed hrole, .inl hallowed⟩
    · intro _
      have hdenied := hpassed.notDenied judged hjudged
      unfold deniedService at hdenied
      simp only [← hmem, Option.isSome_eq_false_iff, Option.isNone_iff_eq_none] at hdenied
      exact .inl hdenied
    · left
      rw [hjudged]
      have hjoin := join_judged hjudged
      rw [← hmem] at hjoin
      exact congrArg some hjoin
  | none =>
    simp only [hjudged] at hmem
    by_cases hcalendar : command = py "ha.calendar_get_events"
    · rw [if_pos hcalendar, List.mem_singleton] at hmem
      constructor
      · exact fun hrole => ⟨hpassed.userAllowed hrole, .inr ⟨hcalendar, hmem⟩⟩
      · intro _
        cases hmem
        exact .inl (by decide)
      · rw [hcalendar, hmem]
        exact .inr ⟨rfl, .head _⟩
    · rw [if_neg hcalendar] at hmem
      cases hmem

/-- Whatever the spelling of the params: the service that a dispatched call posts is the one that
the policy judged; a household user posts allowed services only, and no caller but an operator posts
a denied one, unless by the command that is dedicated to it and approved. -/
theorem household_gate {ω : Type} (env : Environment ω) (node : NodeCommands ω)
    (denylist : List PyStr) (caller : Caller) (command : PyStr) (params : Dict) (s : UsedIds × ω) :
    let events := (dispatchUnmasked env node denylist caller command params s).2.1
    ∀ e ∈ events, ∀ domain service, Posts e (domain, service) →
      Permitted caller command params
        (events.head? = some (gateEvent command (strippedAction params) params none))
        domain service := by
  intro events e he domain service hposts
  obtain ⟨handler, hmem, hpassed, hrun⟩ := reached_of_mem he
  have hevents : events = (Prog.exec (Environment.answer { env with caller := some caller })
      (handler params) s).2.1 := congrArg (fun run => run.2.1) hrun
  rw [hevents] at he ⊢
  rcases registry_governed denylist _ hmem with hjudged | ⟨c, hc, hname, hhandler⟩
  · exact permitted_of_judged hpassed (mem_of_callsOnly ((hjudged params).of_mem_exec he) hposts)
  · subst hname hhandler
    have hgated := gated_posts hc { env with caller := some caller } params s he hposts
    have happroved := (approved_of_mem c hc).2 _ hgated.1
    have hown : (c.name, domain, service) ∈ ownServices := .tail _ happroved
    constructor
    · exact fun hrole => absurd (hpassed.userAllowed hrole) (approved_of_mem c hc).1
    · exact fun _ => .inr ⟨happroved, hgated.2⟩
    · exact .inr ⟨serviceForCommand_own _ hown params, hown⟩

end

def hacsParams : Dict := [(py "entity_id", .str (py "update.hacs"))]

def hacsMarker : Marker := ⟨py "m3", 1060, py "5b824119500bbf3e7b16987c8ce5196bd1399870c281c3defd74f8a65b40608c"⟩

/-- An approved installation of one update. -/
def installHacs : Dict :=
  hacsParams ++ [(approvalParam, obj [("id", .str hacsMarker.id), ("exp", .int hacsMarker.exp),
    ("bind", .str hacsMarker.bind)])]

@[reducible] def hacsRuntime : Runtime :=
  Runtime.ofTable [(approvalText (py "ha.update_install") [] hacsParams, hacsMarker.bind)]

def haAdmin : Caller := ⟨.admin, py "u1", []⟩

def idleNode : NodeCommands Unit := fun _ _ _ s => (.ok .null, s)

/-- The requests among the events, in their order. -/
def requestOf (e : Event Ans) : Option Request :=
  match e.1 with
  | .request r => some r
  | .consume _ _ _ => none

theorem posts_of_requestOf {events : List (Event Ans)} {path : PyStr} {body : Option Dict}
    {service : PyStr × PyStr} (h : some (.post path body) ∈ events.map requestOf)
    (hpath : postedService path = some service) : ∃ e ∈ events, Posts e service := by
  cases List.mem_map.mp h with
  | intro e he =>
    refine ⟨e, he.1, path, body, ?_, hpath⟩
    have hrequest := he.2
    unfold requestOf at hrequest
    split at hrequest
    · rename_i r hr
      rw [hr, Option.some.inj hrequest]
    · cases hrequest

/-- A household member turns on a light. -/
theorem household_gate_light :
    let _ := Runtime.ofTable []
    let caller : Caller := ⟨.user, py "u2", []⟩
    let params : Dict := [(py "entity_id", .str (py "light.kitchen"))]
    let events := (dispatchUnmasked nullWorld idleNode [] caller (py "ha.light_turn_on") params
      ([], ())).2.1
    ∃ e ∈ events, Posts e (py "light", py "turn_on") ∧
      Permitted caller (py "ha.light_turn_on") params (events.head? =
        some (gateEvent (py "ha.light_turn_on") (strippedAction params) params none))
        (py "light") (py "turn_on") := by
  intro _ caller params events
  have hposted : some (.post (py "/api/services/light/turn_on") (some params)) ∈
      events.map requestOf := by decide
  have hpath : postedService (py "/api/services/light/turn_on") = some (py "light", py "turn_on") := by
    decide
  cases posts_of_requestOf hposted hpath with
  | intro e he =>
    exact ⟨e, he.1, he.2, household_gate nullWorld idleNode [] caller (py "ha.light_turn_on") params
      ([], ()) e he.1 _ _ he.2⟩

/-- The POST of an admin's approved update is of the deny class. -/
theorem update_posted_denied :
    let _ := hacsRuntime
    let events := (dispatchUnmasked nullWorld idleNode [] haAdmin (py "ha.update_install")
      installHacs ([], ())).2.1
    (∃ e ∈ events, Posts e (py "update", py "install")) ∧ haAdmin.role ≠ .operator ∧
      interimServiceDenial (py "update") (py "install") ≠ none := by
  intro _ events
  have hposted : some (.post (py "/api/services/update/install") (some hacsParams)) ∈
      events.map requestOf := by decide
  exact ⟨posts_of_requestOf hposted (by decide), by decide, by decide⟩

end HassNode.HouseholdGate
