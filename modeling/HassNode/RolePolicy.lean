import HassNode.EffectPolicy

/-!
# Forbidden sets of the roles

The part of `authz.py` that patches a forbidden set for each role of a turn and prints the services
that stay callable, with its relation to the effect policy.
-/

namespace HassNode.Authz

open Py HaClient Commands HaServices EffectPolicy

/-- `Role`: the principals of a turn. -/
inductive Role where
  | user | admin | superAdmin
deriving DecidableEq

def Role.toCaller : Role → CallerRole
  | .user => .user
  | .admin => .admin
  | .superAdmin => .superAdmin

structure ForbiddenCommandPatch where
  add : List PyStr
  remove : List PyStr

/-- `IdentityConfig`, as far as it patches the forbidden sets. -/
structure IdentityConfig where
  forbiddenCommands : Role → Option ForbiddenCommandPatch

/-- `USER_FORBIDDEN_COMMANDS`. -/
def userForbiddenCommands : List PyStr :=
  [py "fs.write", py "fs.delete", py "fs.move", py "fs.restore", py "fs.patch", py "system.run",
   py "system.run.prepare", py "system.execApprovals.get", py "system.execApprovals.set",
   py "ha.reload_config", py "ha.addon_start", py "ha.addon_stop", py "ha.addon_restart",
   py "ha.addon_update", py "ha.update_install", py "ha.config.lovelace",
   py "ha.config.automation", py "ha.config.script", py "ha.config.scene", py "ha.config.helpers",
   py "ha.config.area_registry", py "ha.config.device_registry", py "ha.config.entity_registry",
   py "ha.config.config_entries"]

/-- `_USER_SERVICE_WILDCARD`. -/
def userServiceWildcard : PyStr := py "ha.call_service:*"

def userNonRemovable : List PyStr := userServiceWildcard :: userForbiddenCommands

/-- The globs of the administrators' default set. -/
def adminServiceGlobs : List PyStr :=
  [py "shell_command.*", py "python_script.*", py "command_line.*", py "homeassistant.stop"]

/-- `_DEFAULT_FORBIDDEN`. -/
def defaultForbidden : Role → List PyStr
  | .user => userNonRemovable
  | .admin =>
    [py "fs.write", py "fs.delete", py "fs.move", py "fs.restore", py "fs.patch",
      py "system.run"] ++ adminServiceGlobs.map (callServicePrefix ++ ·)
  | .superAdmin => []

/-- `_inherited_service_prohibitions`. -/
def inheritedServiceProhibitions (identity : IdentityConfig) (role : Role) : List PyStr :=
  let adminRoles := if role = .user then [Role.admin, Role.superAdmin] else [Role.superAdmin]
  adminRoles.flatMap fun adminRole =>
    match identity.forbiddenCommands adminRole with
    | none => []
    | some patch => patch.add.filter fun e => startsWith e callServicePrefix

/-- The entries that the role's own patch leaves; the household's own entries stay. -/
def patchedForbidden (identity : IdentityConfig) (role : Role) : List PyStr :=
  match identity.forbiddenCommands role with
  | none => defaultForbidden role
  | some patch =>
    let removable :=
      if role = .user then patch.remove.filter (· ∉ userNonRemovable) else patch.remove
    (defaultForbidden role ++ patch.add).filter (· ∉ removable)

/-- `forbidden_for_role`. -/
def forbiddenForRole (identity : IdentityConfig) (role : Role) : List PyStr :=
  let forbidden :=
    if role ≠ .superAdmin then
      patchedForbidden identity role ++ inheritedServiceProhibitions identity role
    else patchedForbidden identity role
  sortedStr forbidden.dedup

/-- `Caller.from_turn`. -/
def turnCaller (identity : IdentityConfig) (role : Role) (actorId : PyStr) : Caller :=
  ⟨role.toCaller, actorId, forbiddenForRole identity role⟩

/-! ## The printed exception -/

/-- The table entries that the forbidden set leaves callable. -/
def callableServices (forbidden : List PyStr) : List PyStr :=
  householdAllowedServices.flatMap fun (domain, names) =>
    ((sortedStr names).filter fun name =>
      !isForbidden forbidden (py "ha.call_service")
        [(py "domain", .str domain), (py "service", .str name)]).map (domain ++ py "." ++ ·)

def exceptionOpening : PyStr :=
  py "Exception: because the forbidden list includes ha.call_service:*, the only " ++
    py "services that may still be called are: "

def exceptionClosing : PyStr :=
  py ". Locks and " ++ py "alarms may require a code: pass along only a code the user actually " ++
    py "supplied, and never guess or invent one.\n\n"

/-- `_service_exception`. -/
def serviceException (forbidden : List PyStr) : PyStr :=
  if userServiceWildcard ∉ forbidden then []
  else
    let parts := callableServices forbidden
    let listed := if parts = [] then py "none" else joinWith (py ", ") parts
    exceptionOpening ++ listed ++ exceptionClosing

/-! ## The table -/

/-- The canonical names of the table. -/
def householdServices : List PyStr :=
  householdAllowedServices.flatMap fun (domain, names) => names.map (domain ++ py "." ++ ·)

theorem mem_householdServices {domain name : PyStr} (h : allowedPair domain name = true) :
    domain ++ py "." ++ name ∈ householdServices := by
  unfold allowedPair at h
  cases hnames : householdAllowedServices.lookup domain with
  | none =>
    rw [hnames] at h
    exact absurd h Bool.false_ne_true
  | some names =>
    rw [hnames] at h
    apply List.mem_flatMap.mpr
    exact ⟨(domain, names), mem_of_lookup hnames,
      List.mem_map_of_mem (List.contains_iff_mem.mp h)⟩

/-- No service of the table is in the deny class or matches a default glob of the administrators. -/
theorem householdServices_open :
    householdServices.all (fun service => !deniedService service &&
      adminServiceGlobs.all fun glob => !fnmatchcase service glob) = true := by
  decide +kernel

theorem deniedService_of_allowed {domain name : PyStr} (h : allowedPair domain name = true) :
    deniedService (domain ++ py "." ++ name) = false := by
  have hopen := List.all_eq_true.mp householdServices_open _ (mem_householdServices h)
  rw [Bool.and_eq_true, Bool.not_eq_true'] at hopen
  exact hopen.1

theorem adminGlob_of_allowed {domain name glob : PyStr} (h : allowedPair domain name = true)
    (hglob : glob ∈ adminServiceGlobs) : fnmatchcase (domain ++ py "." ++ name) glob = false := by
  have hopen := List.all_eq_true.mp householdServices_open _ (mem_householdServices h)
  rw [Bool.and_eq_true] at hopen
  have hnot := List.all_eq_true.mp hopen.2 glob hglob
  rwa [Bool.not_eq_true'] at hnot

/-- The service of a command is well formed, so its name splits where it was joined. -/
theorem parts_of_serviceForCommand {command service : PyStr} {params : Dict}
    (h : serviceForCommand command params = some service) :
    ∃ domain name, service = domain ++ py "." ++ name ∧
      partitionDot service = (domain, name) := by
  unfold serviceForCommand at h
  cases hwrapper : wrapperServices.lookup command with
  | some fixed =>
    rw [hwrapper] at h
    cases h
    have hmem := mem_of_lookup hwrapper
    cases hmem with
    | head => exact ⟨py "light", py "turn_on", rfl, by decide⟩
    | tail _ hmem =>
      cases hmem with
      | head => exact ⟨py "light", py "turn_off", rfl, by decide⟩
      | tail _ hmem => exact absurd hmem List.not_mem_nil
  | none =>
    rw [hwrapper] at h
    change (if command ≠ py "ha.call_service" then none else _) = some service at h
    by_cases hcommand : command ≠ py "ha.call_service"
    · rw [if_pos hcommand] at h
      cases h
    · rw [if_neg hcommand] at h
      by_cases hnames : (isServiceName (strippedText params (py "domain")) &&
          isServiceName (strippedText params (py "service"))) = true
      · rw [if_pos hnames, Option.some.injEq] at h
        rw [Bool.and_eq_true] at hnames
        rw [← h]
        exact ⟨_, _, rfl, partitionDot_joined (slugs_of_isServiceName hnames.1)⟩
      · rw [if_neg hnames] at h
        cases h

/-! ## What blocks a call -/

def CallsService (command : PyStr) : Prop :=
  command = py "ha.call_service" ∨ (wrapperServices.lookup command).isSome = true

/-- A service entry against the service of a call; a malformed name is blocked by any entry. -/
def GlobBlocks (glob : PyStr) : Option PyStr → Prop
  | none => True
  | some service =>
    if glob = py "*" then serviceAllowed service = false else fnmatchcase service glob = true

theorem globBlocks_some {glob service : PyStr} : GlobBlocks glob (some service) ↔
    (if glob = py "*" then !serviceAllowed service else fnmatchcase service glob) = true := by
  show (if glob = py "*" then _ else _) ↔ _
  by_cases hstar : glob = py "*"
  · rw [if_pos hstar, if_pos hstar, Bool.not_eq_true']
  · rw [if_neg hstar, if_neg hstar]

theorem startsWith_iff {s pre : PyStr} : startsWith s pre = true ↔ ∃ rest, s = pre ++ rest := by
  unfold startsWith
  rw [List.isPrefixOf_iff_prefix]
  constructor
  · rintro ⟨rest, h⟩
    exact ⟨rest, h.symm⟩
  · rintro ⟨rest, h⟩
    exact ⟨rest, h.symm⟩

/-- The globs of the service entries. -/
theorem mem_globs {forbidden : List PyStr} {glob : PyStr} :
    glob ∈ (forbidden.filter fun e => startsWith e callServicePrefix).map
        (fun e => e.drop callServicePrefix.length) ↔
      callServicePrefix ++ glob ∈ forbidden := by
  rw [List.mem_map]
  constructor
  · rintro ⟨e, he, hdrop⟩
    rw [List.mem_filter, startsWith_iff] at he
    cases he.2 with
    | intro rest hrest =>
      rw [hrest, List.drop_left] at hdrop
      rw [← hdrop, ← hrest]
      exact he.1
  · intro hmem
    refine ⟨callServicePrefix ++ glob, ?_, List.drop_left⟩
    exact List.mem_filter.mpr ⟨hmem, startsWith_iff.mpr ⟨glob, rfl⟩⟩

theorem isForbidden_iff {forbidden : List PyStr} {command : PyStr} {params : Dict} :
    isForbidden forbidden command params = true ↔
      command ∈ forbidden ∨ CallsService command ∧
        ∃ glob, callServicePrefix ++ glob ∈ forbidden ∧
          GlobBlocks glob (serviceForCommand command params) := by
  unfold isForbidden
  by_cases hname : command ∈ forbidden
  · rw [if_pos hname]
    exact iff_of_true rfl (.inl hname)
  rw [if_neg hname, or_iff_right hname]
  -- a command that calls no service is only forbidden by its name
  by_cases hother : command ≠ py "ha.call_service" ∧ (wrapperServices.lookup command).isNone
  · rw [if_pos hother]
    refine iff_of_false Bool.false_ne_true ?_
    rintro ⟨hcall | hwrapper, -⟩
    · exact hother.1 hcall
    · rw [Option.isNone_iff_eq_none] at hother
      rw [hother.2] at hwrapper
      exact Bool.false_ne_true hwrapper
  have hcalls : CallsService command := by
    by_contra hnot
    refine hother ⟨fun hcall => hnot (.inl hcall), ?_⟩
    rw [Option.isNone_iff_eq_none, ← Option.not_isSome_iff_eq_none]
    exact fun hwrapper => hnot (.inr hwrapper)
  rw [if_neg hother]
  extract_lets patterns
  rw [and_iff_right hcalls]
  by_cases hnone : patterns = []
  · rw [if_pos hnone]
    refine iff_of_false Bool.false_ne_true ?_
    rintro ⟨glob, hglob, -⟩
    have hmem : glob ∈ patterns := mem_globs.mpr hglob
    rw [hnone] at hmem
    exact List.not_mem_nil hmem
  rw [if_neg hnone]
  cases hservice : serviceForCommand command params with
  -- a call whose service cannot be told is forbidden by any glob at all
  | none =>
    refine iff_of_true rfl ?_
    cases List.exists_mem_of_ne_nil patterns hnone with
    | intro glob hglob => exact ⟨glob, mem_globs.mp hglob, trivial⟩
  | some service =>
    show (patterns.any fun pattern => _) = true ↔ _
    rw [List.any_eq_true]
    constructor
    · rintro ⟨glob, hglob, hblocks⟩
      exact ⟨glob, mem_globs.mp hglob, globBlocks_some.mpr hblocks⟩
    · rintro ⟨glob, hglob, hblocks⟩
      exact ⟨glob, mem_globs.mpr hglob, globBlocks_some.mp hblocks⟩

/-! ## Privilege -/

/-- Whether the gate refuses the call of a turn. -/
def refused (identity : IdentityConfig) (role : Role) (actorId command : PyStr) (params : Dict) :
    Bool :=
  (check (turnCaller identity role actorId) command params).isSome

theorem refused_eq_false_iff {identity : IdentityConfig} {role : Role} {actorId command : PyStr}
    {params : Dict} :
    refused identity role actorId command params = false ↔
      (∀ service, serviceForCommand command params = some service →
        deniedService service = false ∧ serviceAllowed service = true) ∧
      (role = .user → command ∈ userAllowedCommands) ∧
      isForbidden (forbiddenForRole identity role) command params = false ∧
      (command = py "ha.call_service" → serviceForCommand command params ≠ none) := by
  have hrole : (turnCaller identity role actorId).role ≠ .operator := by
    show role.toCaller ≠ .operator
    cases role <;> decide
  have huser : (turnCaller identity role actorId).role = .user ↔ role = .user := by
    show role.toCaller = .user ↔ _
    cases role <;> decide
  unfold refused
  rw [← Bool.not_eq_true, Option.not_isSome_iff_eq_none, check_eq_none_iff hrole, huser]
  rfl

theorem mem_forbiddenForRole {identity : IdentityConfig} {role : Role} {e : PyStr} :
    e ∈ forbiddenForRole identity role ↔
      e ∈ patchedForbidden identity role ∨
        role ≠ .superAdmin ∧ e ∈ inheritedServiceProhibitions identity role := by
  unfold forbiddenForRole
  rw [mem_sortedStr, List.mem_dedup]
  by_cases hrole : role ≠ .superAdmin
  · rw [if_pos hrole, List.mem_append, and_iff_right hrole]
  · rw [if_neg hrole, or_iff_left (fun h => hrole h.1)]

theorem added_of_patched {identity : IdentityConfig} {role : Role} {e : PyStr}
    (h : e ∈ patchedForbidden identity role) :
    e ∈ defaultForbidden role ∨
      ∃ patch, identity.forbiddenCommands role = some patch ∧ e ∈ patch.add := by
  unfold patchedForbidden at h
  cases hpatch : identity.forbiddenCommands role with
  | none =>
    rw [hpatch] at h
    exact .inl h
  | some patch =>
    rw [hpatch] at h
    rcases List.mem_append.mp (List.mem_of_mem_filter h) with hdefault | hadd
    · exact .inl hdefault
    · exact .inr ⟨patch, rfl, hadd⟩

/-- Service entries of a more privileged role's patch are inherited. -/
theorem inherited_of_added {identity : IdentityConfig} {hi lo : Role} {glob : PyStr}
    {patch : ForbiddenCommandPatch} (hpatch : identity.forbiddenCommands hi = some patch)
    (hadd : callServicePrefix ++ glob ∈ patch.add)
    (hhi : hi = .superAdmin ∨ hi = .admin ∧ lo = .user) :
    callServicePrefix ++ glob ∈ inheritedServiceProhibitions identity lo := by
  unfold inheritedServiceProhibitions
  apply List.mem_flatMap.mpr
  refine ⟨hi, ?_, ?_⟩
  · by_cases hlo : lo = .user
    · rw [if_pos hlo]
      rcases hhi with rfl | ⟨rfl, -⟩
      · exact .tail _ (.head _)
      · exact .head _
    · rw [if_neg hlo]
      rcases hhi with rfl | ⟨-, hlo'⟩
      · exact .head _
      · exact absurd hlo' hlo
  · rw [hpatch]
    exact List.mem_filter.mpr ⟨hadd, startsWith_iff.mpr ⟨glob, rfl⟩⟩

theorem adminGlob_of_default {glob : PyStr}
    (h : callServicePrefix ++ glob ∈ defaultForbidden .admin) : glob ∈ adminServiceGlobs := by
  rcases List.mem_append.mp h with hname | hglob
  · -- the commands of the default set are no service entries
    have hnames : ([py "fs.write", py "fs.delete", py "fs.move", py "fs.restore", py "fs.patch",
        py "system.run"].all fun e => !startsWith e callServicePrefix) = true := by decide
    have hnot := List.all_eq_true.mp hnames _ hname
    rw [startsWith_iff.mpr ⟨glob, rfl⟩] at hnot
    exact absurd hnot Bool.false_ne_true
  · cases List.mem_map.mp hglob with
    | intro g hg =>
      rw [← List.append_cancel_left hg.2]
      exact hg.1

/-- The next role down. -/
inductive Below : Role → Role → Prop where
  | admin : Below .superAdmin .admin
  | user : Below .admin .user

/-- Every service entry passes down, but for the administrators' defaults. -/
theorem globs_pass_down {identity : IdentityConfig} {hi lo : Role} (hbelow : Below hi lo)
    {glob : PyStr} (h : callServicePrefix ++ glob ∈ forbiddenForRole identity hi) :
    callServicePrefix ++ glob ∈ forbiddenForRole identity lo ∨ glob ∈ adminServiceGlobs := by
  cases hbelow with
  | admin =>
    rcases mem_forbiddenForRole.mp h with hpatched | ⟨hno, -⟩
    · rcases added_of_patched hpatched with hdefault | ⟨patch, hpatch, hadd⟩
      · exact absurd hdefault List.not_mem_nil
      · exact .inl (mem_forbiddenForRole.mpr (.inr ⟨by decide,
          inherited_of_added hpatch hadd (.inl rfl)⟩))
    · exact absurd rfl hno
  | user =>
    rcases mem_forbiddenForRole.mp h with hpatched | ⟨-, hinherited⟩
    · rcases added_of_patched hpatched with hdefault | ⟨patch, hpatch, hadd⟩
      · exact .inr (adminGlob_of_default hdefault)
      · exact .inl (mem_forbiddenForRole.mpr (.inr ⟨by decide,
          inherited_of_added hpatch hadd (.inr ⟨rfl, rfl⟩)⟩))
    · -- what the administrators inherit, the household inherits too
      refine .inl (mem_forbiddenForRole.mpr (.inr ⟨by decide, ?_⟩))
      cases List.mem_flatMap.mp hinherited with
      | intro role hrole =>
        rw [List.mem_singleton.mp hrole.1] at hrole
        exact List.mem_flatMap.mpr ⟨.superAdmin, .tail _ (.head _), hrole.2⟩

/-- The administrators' default globs refuse nothing of the table. -/
theorem not_globBlocks_default {command glob : PyStr} {params : Dict}
    (hcalls : CallsService command) (hglob : glob ∈ adminServiceGlobs)
    (hopen : ∀ service, serviceForCommand command params = some service →
      serviceAllowed service = true)
    (hformed : command = py "ha.call_service" → serviceForCommand command params ≠ none) :
    ¬ GlobBlocks glob (serviceForCommand command params) := by
  intro hblocks
  cases hservice : serviceForCommand command params with
  | none =>
    rcases hcalls with hcall | hwrapper
    · exact hformed hcall hservice
    · cases Option.isSome_iff_exists.mp hwrapper with
      | intro fixed hfixed =>
        unfold serviceForCommand at hservice
        rw [hfixed] at hservice
        cases hservice
  | some service =>
    have hstar : glob ≠ py "*" := by
      rintro rfl
      exact absurd hglob (by decide)
    rw [hservice, globBlocks_some, if_neg hstar] at hblocks
    cases parts_of_serviceForCommand hservice with
    | intro domain hparts =>
      cases hparts with
      | intro name hparts =>
        have hallowed : allowedPair domain name = true := by
          have h := hopen service hservice
          unfold serviceAllowed at h
          rwa [hparts.2] at h
        rw [hparts.1, adminGlob_of_allowed hallowed hglob] at hblocks
        exact Bool.false_ne_true hblocks

/-- The call is refused on account of the service that it names: one of the deny class or outside of the
table, a malformed name, or one that a service entry of the role blocks. -/
def ServiceRefused (identity : IdentityConfig) (role : Role) (command : PyStr) (params : Dict) : Prop :=
  (∃ service, serviceForCommand command params = some service ∧
    (deniedService service = true ∨ serviceAllowed service = false)) ∨
  (command = py "ha.call_service" ∧ serviceForCommand command params = none) ∨
  CallsService command ∧ ∃ glob, callServicePrefix ++ glob ∈ forbiddenForRole identity role ∧
    GlobBlocks glob (serviceForCommand command params)

section
variable {identity : IdentityConfig} {hi lo : Role} {actorId actorId' command : PyStr} {params : Dict}

/-- Above the household a call is refused for its command or for its service. -/
theorem refused_cases (hhi : hi ≠ .user) (h : refused identity hi actorId command params = true) :
    command ∈ forbiddenForRole identity hi ∨ ServiceRefused identity hi command params := by
  by_contra hno
  rw [not_or] at hno
  have hnot : refused identity hi actorId command params = false := by
    rw [refused_eq_false_iff]
    refine ⟨fun service hservice => ?_, fun huser => absurd huser hhi, ?_, fun hcall hnone => ?_⟩
    · constructor
      · rw [← Bool.not_eq_true]
        exact fun hdenied => hno.2 (.inl ⟨service, hservice, .inl hdenied⟩)
      · rw [← Bool.not_eq_false]
        exact fun hunlisted => hno.2 (.inl ⟨service, hservice, .inr hunlisted⟩)
    · apply Bool.eq_false_of_not_eq_true
      intro hblocked
      rcases isForbidden_iff.mp hblocked with hname | hglob
      · exact hno.1 hname
      · exact hno.2 (.inr (.inr hglob))
    · exact hno.2 (.inr (.inl ⟨hcall, hnone⟩))
  rw [hnot] at h
  exact Bool.false_ne_true h

/-- What is refused on account of a service is refused to the next role down. -/
theorem serviceRefused_passes_down (hbelow : Below hi lo)
    (h : ServiceRefused identity hi command params) :
    refused identity lo actorId command params = true := by
  by_contra hpermitted
  rw [Bool.not_eq_true, refused_eq_false_iff] at hpermitted
  obtain ⟨hopen, -, hforbidden, hformed⟩ := hpermitted
  rcases h with ⟨service, hservice, hrefused⟩ | ⟨hcall, hnone⟩ | ⟨hcalls, glob, hglob, hblocks⟩
  · have hallowed := hopen service hservice
    rcases hrefused with hdenied | hunlisted
    · exact Bool.false_ne_true (hallowed.1.symm.trans hdenied)
    · exact Bool.false_ne_true (hunlisted.symm.trans hallowed.2)
  · exact hformed hcall hnone
  · rw [← Bool.not_eq_true, isForbidden_iff] at hforbidden
    rcases globs_pass_down hbelow hglob with hlo | hdefault
    · exact hforbidden (.inr ⟨hcalls, glob, hlo, hblocks⟩)
    · exact not_globBlocks_default hcalls hdefault (fun s hs => (hopen s hs).2) hformed hblocks

/-- A refusal passes to the next role down unless the command itself is an entry of the more
privileged role alone. -/
theorem refused_passes_down (hbelow : Below hi lo)
    (hentry : command ∈ forbiddenForRole identity hi → command ∈ forbiddenForRole identity lo)
    (hrefused : refused identity hi actorId command params = true) :
    refused identity lo actorId' command params = true := by
  have hhi : hi ≠ .user := by
    rintro rfl
    cases hbelow
  rcases refused_cases hhi hrefused with hname | hservice
  · by_contra hpermitted
    rw [Bool.not_eq_true, refused_eq_false_iff] at hpermitted
    have hblocked : isForbidden (forbiddenForRole identity lo) command params = true :=
      isForbidden_iff.mpr (.inl (hentry hname))
    rw [hpermitted.2.2.1] at hblocked
    exact Bool.false_ne_true hblocked
  · exact serviceRefused_passes_down hbelow hservice

end

/-- Privilege never inverts, but for a command that is itself an entry of the more privileged
role's set and not of the other's: only service entries are inherited, and a household member
reaches the allowed commands alone.  What is refused on account of a service always passes down. -/
theorem privilege_never_inverts (identity : IdentityConfig)
    (superAdminId adminId userId command : PyStr) (params : Dict) :
    (refused identity .superAdmin superAdminId command params = true →
      refused identity .admin adminId command params = true ∨
        command ∈ forbiddenForRole identity .superAdmin ∧
          command ∉ forbiddenForRole identity .admin) ∧
    (refused identity .admin adminId command params = true →
      refused identity .user userId command params = true ∨
        command ∈ userAllowedCommands ∧ command ∈ forbiddenForRole identity .admin ∧
          command ∉ forbiddenForRole identity .user) ∧
    (ServiceRefused identity .superAdmin command params →
      refused identity .admin adminId command params = true) ∧
    (ServiceRefused identity .admin command params →
      refused identity .user userId command params = true) := by
  refine ⟨?_, ?_, serviceRefused_passes_down .admin, serviceRefused_passes_down .user⟩
  · intro h
    rw [or_iff_not_imp_right]
    intro hentry
    apply refused_passes_down .admin _ h
    exact fun hhi => by_contra fun hlo => hentry ⟨hhi, hlo⟩
  · intro h
    rw [or_iff_not_imp_right]
    intro hentry
    by_cases hallowed : command ∈ userAllowedCommands
    · apply refused_passes_down .user _ h
      exact fun hhi => by_contra fun hlo => hentry ⟨hallowed, hhi, hlo⟩
    · by_contra hpermitted
      rw [Bool.not_eq_true, refused_eq_false_iff] at hpermitted
      exact hallowed (hpermitted.2.1 rfl)

/-- `fs.read` added for the super administrators alone: an administrator may still read. -/
theorem super_admin_read_refused :
    ¬ ∀ (identity : IdentityConfig) (superAdminId adminId userId command : PyStr) (params : Dict),
      (refused identity .superAdmin superAdminId command params = true →
        refused identity .admin adminId command params = true) ∧
      (refused identity .admin adminId command params = true →
        refused identity .user userId command params = true) := by
  intro h
  have hinverted := (h ⟨fun role => if role = .superAdmin then some ⟨[py "fs.read"], []⟩ else none⟩
    (py "owner") (py "parent") (py "kid") (py "fs.read") []).1
  exact absurd (hinverted (by decide)) (by decide)

/-! ## The printed rule -/

/-- The services that a reader finds in the exception sentence: what stands between the fixed parts,
cut at the commas. -/
def listedServices (sentence : PyStr) : List PyStr :=
  let listed := (sentence.drop exceptionOpening.length).take
    (sentence.length - exceptionOpening.length - exceptionClosing.length)
  (listed.splitOn 44).map fun item => item.dropWhile (· = 32)

theorem joinWith_comma (first : PyStr) (rest : List PyStr) :
    joinWith (py ", ") (first :: rest) = [44].intercalate (first :: rest.map (32 :: ·)) := by
  induction rest generalizing first with
  | nil => rfl
  | cons second rest ih =>
    show (py ", ").intercalate (first :: second :: rest) =
      [44].intercalate (first :: (32 :: second) :: rest.map (32 :: ·))
    have htail := ih second
    unfold joinWith at htail
    rw [List.intercalate_cons_cons, htail, List.intercalate_cons_cons]
    cases rest with
    | nil => simp [py, ofChar]
    | cons third rest =>
      rw [List.map_cons, List.intercalate_cons_cons, List.intercalate_cons_cons]
      simp [py, ofChar]

/-- Items without a comma and a leading space are read back. -/
theorem items_of_joined {first : PyStr} {rest : List PyStr}
    (hcomma : ∀ item ∈ first :: rest, (44 : CodePoint) ∉ item)
    (hspace : ∀ item ∈ first :: rest, item.head? ≠ some 32) :
    ((joinWith (py ", ") (first :: rest)).splitOn 44).map (fun item => item.dropWhile (· = 32)) =
      first :: rest := by
  have hdrop : ∀ item ∈ first :: rest, item.dropWhile (· = 32) = item := by
    intro item hitem
    have hhead := hspace item hitem
    cases item with
    | nil => rfl
    | cons c item =>
      apply List.dropWhile_cons_of_neg
      rw [decide_eq_true_eq]
      exact fun hc => hhead (congrArg some hc)
  have hsplit : ∀ item ∈ first :: rest.map (32 :: ·), (44 : CodePoint) ∉ item := by
    intro item hitem
    rcases List.mem_cons.mp hitem with rfl | hitem
    · exact hcomma _ (.head _)
    · cases List.mem_map.mp hitem with
      | intro tail htail =>
        rw [← htail.2, List.mem_cons, not_or]
        exact ⟨by decide, hcomma tail (.tail _ htail.1)⟩
  rw [joinWith_comma, List.splitOn_intercalate 44 hsplit (List.cons_ne_nil _ _), List.map_cons,
    List.map_map, hdrop first (.head _)]
  congr 1
  rw [← List.map_id rest, List.map_map]
  apply List.map_congr_left
  intro item hitem
  exact hdrop item (.tail _ hitem)

theorem listedServices_of_exception {listed : PyStr} :
    listedServices (exceptionOpening ++ listed ++ exceptionClosing) =
      (listed.splitOn 44).map fun item => item.dropWhile (· = 32) := by
  unfold listedServices
  have hlength : (exceptionOpening ++ listed ++ exceptionClosing).length -
      exceptionOpening.length - exceptionClosing.length = listed.length := by
    rw [List.length_append, List.length_append]
    omega
  rw [hlength, List.append_assoc, List.drop_left, List.take_left]

/-- The names of the table: each is a canonical service, listed in one way. -/
theorem householdServices_canonical :
    householdAllowedServices.all (fun entry => entry.2.all fun name =>
      isServiceName entry.1 && isServiceName name && allowedPair entry.1 name &&
        !(entry.1 ++ py "." ++ name).contains 44 &&
        (entry.1 ++ py "." ++ name).head? != some 32) = true := by
  decide +kernel

theorem strip_slugs {value : PyStr} (h : value.all isSlugChar = true) : strip value = value := by
  have hspace : ∀ c ∈ value, isSpace c = false := by
    intro c hc
    have hslug := List.all_eq_true.mp h c hc
    simp only [isSlugChar, isSpace, Bool.or_eq_true, Bool.and_eq_true, decide_eq_true_eq,
      Fin.ext_iff, Bool.or_eq_false_iff, Bool.and_eq_false_iff, decide_eq_false_iff_not,
      beq_eq_false_iff_ne] at hslug ⊢
    omega
  exact strip_eq_self (fun _ => hspace _ (List.get_mem _ _)) fun hne =>
    hspace _ (List.getLast_mem hne)

/-- The forbidden set sees only the service of a call. -/
theorem isForbidden_congr {forbidden : List PyStr} {command : PyStr} {params params' : Dict}
    (h : serviceForCommand command params = serviceForCommand command params') :
    isForbidden forbidden command params = isForbidden forbidden command params' := by
  unfold isForbidden
  rw [h]

theorem serviceForCommand_named {domain name : PyStr} {params : Dict}
    (hdomain : isServiceName domain = true) (hname : isServiceName name = true)
    (hparams : strippedText params (py "domain") = domain ∧
      strippedText params (py "service") = name) :
    serviceForCommand (py "ha.call_service") params = some (domain ++ py "." ++ name) := by
  rw [serviceForCommand_call, hparams.1, hparams.2, hdomain, hname]
  rfl

theorem callParams_named {domain name : PyStr} (hdomain : isServiceName domain = true)
    (hname : isServiceName name = true) :
    serviceForCommand (py "ha.call_service")
        [(py "domain", .str domain), (py "service", .str name)] =
      some (domain ++ py "." ++ name) :=
  serviceForCommand_named hdomain hname
    ⟨strip_slugs (slugs_of_isServiceName hdomain), strip_slugs (slugs_of_isServiceName hname)⟩

/-- The printed services are the table entries that the forbidden set leaves. -/
theorem mem_callableServices {forbidden : List PyStr} {domain name : PyStr} {params : Dict}
    (hservice : serviceForCommand (py "ha.call_service") params = some (domain ++ py "." ++ name))
    (hdomain : isServiceName domain = true) :
    domain ++ py "." ++ name ∈ callableServices forbidden ↔
      allowedPair domain name = true ∧
        isForbidden forbidden (py "ha.call_service") params = false := by
  unfold callableServices
  rw [List.mem_flatMap]
  constructor
  · rintro ⟨⟨entryDomain, names⟩, hentry, hmem⟩
    obtain ⟨entryName, hfilter, hjoined⟩ := List.mem_map.mp hmem
    rw [List.mem_filter, mem_sortedStr] at hfilter
    -- the names of the table are canonical, so the printed text splits at one dot only
    have hcanonical := List.all_eq_true.mp
      (List.all_eq_true.mp householdServices_canonical _ hentry) _ hfilter.1
    simp only [Bool.and_eq_true] at hcanonical
    obtain ⟨⟨⟨⟨hentryDomain, hentryName⟩, hallowed⟩, -⟩, -⟩ := hcanonical
    have hsplit := congrArg partitionDot hjoined
    rw [partitionDot_joined (slugs_of_isServiceName hentryDomain),
      partitionDot_joined (slugs_of_isServiceName hdomain), Prod.mk.injEq] at hsplit
    rw [hsplit.1] at hallowed hfilter hentryDomain
    rw [hsplit.2] at hallowed hfilter hentryName
    refine ⟨hallowed, ?_⟩
    have hopen := hfilter.2
    rw [Bool.not_eq_true'] at hopen
    rw [isForbidden_congr (hservice.trans (callParams_named hentryDomain hentryName).symm)]
    exact hopen
  · rintro ⟨hallowed, hopen⟩
    unfold allowedPair at hallowed
    cases hnames : householdAllowedServices.lookup domain with
    | none =>
      rw [hnames] at hallowed
      exact absurd hallowed Bool.false_ne_true
    | some names =>
      rw [hnames] at hallowed
      have hentry := mem_of_lookup hnames
      have hmem : name ∈ names := List.contains_iff_mem.mp hallowed
      have hcanonical := List.all_eq_true.mp
        (List.all_eq_true.mp householdServices_canonical _ hentry) _ hmem
      simp only [Bool.and_eq_true] at hcanonical
      refine ⟨(domain, names), hentry, List.mem_map_of_mem ?_⟩
      rw [List.mem_filter, mem_sortedStr]
      refine ⟨hmem, ?_⟩
      rw [Bool.not_eq_true', ← isForbidden_congr
        (hservice.trans (callParams_named hdomain hcanonical.1.1.1.2).symm)]
      exact hopen

theorem callableServices_subset {forbidden : List PyStr} {service : PyStr}
    (h : service ∈ callableServices forbidden) :
    (44 : CodePoint) ∉ service ∧ service.head? ≠ some 32 := by
  obtain ⟨⟨domain, names⟩, hentry, hmem⟩ := List.mem_flatMap.mp h
  obtain ⟨name, hfilter, rfl⟩ := List.mem_map.mp hmem
  rw [List.mem_filter, mem_sortedStr] at hfilter
  have hcanonical := List.all_eq_true.mp
    (List.all_eq_true.mp householdServices_canonical _ hentry) _ hfilter.1
  simp only [Bool.and_eq_true, Bool.not_eq_true', bne_iff_ne] at hcanonical
  refine ⟨?_, hcanonical.2⟩
  rw [← List.contains_iff_mem, hcanonical.1.2]
  exact Bool.false_ne_true

/-- The sentence lists exactly the callable services. -/
theorem mem_listedServices {forbidden : List PyStr} {domain name : PyStr}
    (hwildcard : userServiceWildcard ∈ forbidden) :
    domain ++ py "." ++ name ∈ listedServices (serviceException forbidden) ↔
      domain ++ py "." ++ name ∈ callableServices forbidden := by
  unfold serviceException
  rw [if_neg (not_not_intro hwildcard)]
  extract_lets parts listed
  rw [listedServices_of_exception]
  cases hparts : parts with
  | nil =>
    have hnone : listed = py "none" := if_pos hparts
    have hdot : (46 : CodePoint) ∈ domain ++ py "." ++ name :=
      List.mem_append_left _ (List.mem_append_right _ (.head _))
    have hempty : callableServices forbidden = [] := hparts
    rw [hnone, hempty]
    refine iff_of_false ?_ List.not_mem_nil
    intro hmem
    have hword : (((py "none").splitOn 44).map fun item => item.dropWhile (· = 32)) =
        [py "none"] := by decide
    rw [hword, List.mem_singleton] at hmem
    rw [hmem] at hdot
    exact absurd hdot (by decide)
  | cons first rest =>
    have hne : parts ≠ [] := by
      rw [hparts]
      exact List.cons_ne_nil _ _
    have hlisted : listed = joinWith (py ", ") (first :: rest) := by
      show (if parts = [] then _ else _) = _
      rw [if_neg hne, hparts]
    have hmem : ∀ item ∈ first :: rest, item ∈ callableServices forbidden := by
      rw [← hparts]
      exact fun item hitem => hitem
    rw [hlisted, items_of_joined (fun item hitem => (callableServices_subset (hmem item hitem)).1)
      fun item hitem => (callableServices_subset (hmem item hitem)).2, ← hparts]

/-- The printed rule is the enforced one. -/
theorem printed_rule_iff_enforced (identity : IdentityConfig) (role : Role) (actorId : PyStr)
    (domain name : PyStr) (params : Dict)
    (hwildcard : userServiceWildcard ∈ forbiddenForRole identity role)
    (hdomain : isServiceName domain = true) (hname : isServiceName name = true)
    (hparams : strippedText params (py "domain") = domain ∧
      strippedText params (py "service") = name) :
    domain ++ py "." ++ name ∈ listedServices (serviceException (forbiddenForRole identity role)) ↔
      check (turnCaller identity role actorId) (py "ha.call_service") params = none := by
  have hservice := serviceForCommand_named hdomain hname hparams
  have hallowed : serviceAllowed (domain ++ py "." ++ name) = allowedPair domain name := by
    unfold serviceAllowed
    rw [partitionDot_joined (slugs_of_isServiceName hdomain)]
  have hcheck : check (turnCaller identity role actorId) (py "ha.call_service") params = none ↔
      refused identity role actorId (py "ha.call_service") params = false := by
    unfold refused
    rw [← Bool.not_eq_true, Option.not_isSome_iff_eq_none]
  rw [mem_listedServices hwildcard, mem_callableServices hservice hdomain, hcheck,
    refused_eq_false_iff]
  constructor
  · rintro ⟨htable, hopen⟩
    refine ⟨?_, fun _ => by decide, hopen, fun _ => ?_⟩
    · intro service hs
      rw [hservice, Option.some.injEq] at hs
      rw [← hs, hallowed]
      exact ⟨deniedService_of_allowed htable, htable⟩
    · rw [hservice]
      exact Option.some_ne_none _
  · rintro ⟨hservices, -, hopen, -⟩
    refine ⟨?_, hopen⟩
    rw [← hallowed]
    exact (hservices _ hservice).2

/-- The household's own set: unlocking is listed and permitted. -/
theorem printed_rule_iff_enforced_unlock :
    py "lock.unlock" ∈ listedServices (serviceException
        (forbiddenForRole ⟨fun _ => none⟩ .user)) ↔
      check (turnCaller ⟨fun _ => none⟩ .user (py "kid")) (py "ha.call_service")
        [(py "domain", .str (py "lock")), (py "service", .str (py "unlock"))] = none :=
  printed_rule_iff_enforced ⟨fun _ => none⟩ .user (py "kid") (py "lock") (py "unlock")
    [(py "domain", .str (py "lock")), (py "service", .str (py "unlock"))]
    (by decide +kernel) (by decide) (by decide) (by decide)

end HassNode.Authz
