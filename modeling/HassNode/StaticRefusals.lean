import HassNode.Commands.FsMutations
import HassNode.Dispatcher

/-!
# The node's refusals on static grounds

Which errors tell of an unknown parameter, of a path in `.storage` or of an add-on slug that the static
policy refuses, and which handlers can give one before they do anything: for each gated command, what a
static refusal says about the params.
-/

namespace HassNode.PreflightMirror

open Py Interaction ConfigMutation Commands
open HaClient (error)

/-! ## Responses -/

def responseField (name : String) : Json → Option Json
  | .dict entries => Dict.get? entries (py name)
  | _ => none

def IsError (response : Json) : Prop := responseField "ok" response = some (.bool false)

/-- The code and the text of an unknown parameter, of `.storage`, and of the slug policy. -/
def staticGround (code message : PyStr) : Bool :=
  (code = py "INVALID_PARAM" &&
      (startsWith message (py "unknown parameter(s): ") ||
        startsWith message (py "invalid addon slug: "))) ||
    code = py "STORAGE_READONLY" ||
    (code = py "MISSING_PARAM" && message = py "slug is required") ||
    (code = py "PERMISSION_DENIED" && startsWith message (py "addon lifecycle denied for "))

def StaticRefusal (response : Json) : Prop :=
  ∃ code message, responseField "error" response = some (.str code) ∧
    responseField "message" response = some (.str message) ∧ staticGround code message = true

theorem isError_error (code : String) (message : PyStr) : IsError (error code message) := by
  simp [IsError, responseField, error, obj, Dict.get?_cons]

theorem staticRefusal_error {code : String} {message : PyStr} :
    StaticRefusal (error code message) ↔ staticGround (py code) message = true := by
  unfold StaticRefusal
  simp [responseField, error, obj, Dict.get?_cons]

theorem responseField_tooLarge (code : String) (what : PyStr) (limit : Nat) {name : String}
    (h : name ≠ "limit") : responseField name (FsMutations.tooLarge code what limit) =
      responseField name (error code (what ++ py " bytes; limit is " ++ natStr limit)) := by
  show Dict.get? (Dict.update _ [_]) (py name) = _
  rw [Dict.get?_update, List.reverse_singleton, Dict.get?_cons, if_neg (by simpa using h)]
  rfl

theorem isError_tooLarge (code : String) (what : PyStr) (limit : Nat) :
    IsError (FsMutations.tooLarge code what limit) := by
  rw [IsError, responseField_tooLarge _ _ _ (by decide)]
  exact isError_error _ _

theorem tooLarge_not_static {code : String} {what : PyStr} {limit : Nat}
    (h : code ∉ ["INVALID_PARAM", "STORAGE_READONLY", "MISSING_PARAM", "PERMISSION_DENIED"]) :
    ¬ StaticRefusal (FsMutations.tooLarge code what limit) := by
  unfold StaticRefusal
  rw [responseField_tooLarge _ _ _ (by decide), responseField_tooLarge _ _ _ (by decide)]
  change ¬ StaticRefusal _
  rw [staticRefusal_error]
  simp only [List.mem_cons, List.not_mem_nil, or_false, not_or] at h
  simp [staticGround, h]

theorem not_static_invalid {message : PyStr}
    (hunknown : startsWith message (py "unknown parameter(s): ") = false)
    (hslug : startsWith message (py "invalid addon slug: ") = false) :
    ¬ StaticRefusal (error "INVALID_PARAM" message) := by
  rw [staticRefusal_error]
  simp [staticGround, hunknown, hslug]

theorem not_static_missing {message : PyStr} (h : message ≠ py "slug is required") :
    ¬ StaticRefusal (error "MISSING_PARAM" message) := by
  rw [staticRefusal_error]
  simp [staticGround, h]

theorem not_static_name {name : PyStr} (h : name ≠ py "slug") :
    ¬ StaticRefusal (error "MISSING_PARAM" (name ++ py " is required")) := by
  apply not_static_missing
  intro heq
  exact h (List.append_cancel_right (heq : _ = py "slug" ++ py " is required"))

/-- A longer text than that of a missing slug. -/
theorem not_static_required {name tail : PyStr} (h : (py "slug is required").length < tail.length) :
    ¬ StaticRefusal (error "MISSING_PARAM" (name ++ tail)) := by
  apply not_static_missing
  intro heq
  have hlength := congrArg List.length heq
  rw [List.length_append] at hlength
  omega

/-! ## The approval gate -/

def approvalCodes : List String := ["PROPOSAL_REQUIRED", "APPROVAL_INVALID"]

def ApprovalRefusal (denied : Json) : Prop :=
  ∃ code ∈ approvalCodes, ∃ message, denied = error code message

theorem ApprovalRefusal.isError {denied : Json} (h : ApprovalRefusal denied) : IsError denied := by
  obtain ⟨code, -, message, rfl⟩ := h
  exact isError_error code message

theorem ApprovalRefusal.not_static {denied : Json} (h : ApprovalRefusal denied) :
    ¬ StaticRefusal denied := by
  obtain ⟨code, hcode, message, rfl⟩ := h
  rw [staticRefusal_error]
  rcases List.mem_pair.mp hcode with rfl | rfl
  · simp [staticGround]
  · simp [staticGround]

/-- What the gate answers when it refuses. -/
theorem consume_refusal [Runtime] {caller : Option Caller} {now : ℚ} {used : UsedIds}
    {command action : PyStr} {params : Dict} {denied : Json}
    (h : (consumeApprovalMarker caller now used command action params).refusal = some denied) :
    ApprovalRefusal denied := by
  have hinvalid : ∀ message, ApprovalRefusal (refusal "APPROVAL_INVALID" message) := fun message =>
    ⟨"APPROVAL_INVALID", by decide, py message, rfl⟩
  unfold consumeApprovalMarker at h
  split at h
  · split_ifs at h
    cases h
    exact ⟨"PROPOSAL_REQUIRED", by decide, _, rfl⟩
  · dsimp only at h
    split at h
    · cases h
      exact hinvalid _
    · split_ifs at h
      · cases h
        exact hinvalid _
      · cases h
        exact hinvalid _
      · cases h
        exact hinvalid _

/-- The answers of the gate; nothing else is asked. -/
def Settled : (op : HaClient.Op) → HaClient.Ans op → Prop
  | .consume _ _ _, answer => ∀ denied, answer = some denied → ApprovalRefusal denied
  | .request _, _ => False

def FileSettled : (op : FsMutations.Op) → FsMutations.Ans op → Prop
  | .consume _ _ _, answer => ∀ denied, answer = some denied → ApprovalRefusal denied
  | .file _, _ => False

def IsApproval : HaClient.Op → Prop
  | .consume _ _ _ => True
  | .request _ => False

def IsFileApproval : FsMutations.Op → Prop
  | .consume _ _ _ => True
  | .file _ => False

/-- A static refusal has its ground in `T`. -/
def Explained {ε : Type} (T : Prop) (result : Except ε Json) : Prop :=
  ∀ response, result = .ok response → StaticRefusal response → T

theorem explained_ok {ε : Type} {T : Prop} {response : Json} (h : StaticRefusal response → T) :
    Explained (ε := ε) T (.ok response) := by
  intro other heq
  cases heq
  exact h

theorem explained_error {ε : Type} {T : Prop} (exc : ε) : Explained T (.error exc) := by
  intro response heq
  cases heq

/-- An error response, or an exception where `raised` holds. -/
def Refused {ε : Type} (raised : Prop) : Except ε Json → Prop
  | .ok response => IsError response
  | .error _ => raised

/-! ## Keys -/

/-- A name whose message is of no other kind than its own. -/
def plainName (name : PyStr) : Bool :=
  name.all (· ≠ 32) && name ≠ py "unknown" && name ≠ py "invalid"

theorem startsWith_words (first : PyStr) {second name tail : PyStr} (hfirst : first.all (· ≠ 32) = true)
    (hname : name.all (· ≠ 32) = true) (hne : name ≠ first) :
    startsWith (name ++ 32 :: tail) (first ++ 32 :: second) = false := by
  rw [Bool.eq_false_iff]
  intro hstarts
  obtain ⟨rest, hrest⟩ := List.isPrefixOf_iff_prefix.mp hstarts
  have hword : ∀ {word : PyStr} (more : PyStr), word.all (· ≠ 32) = true →
      (word ++ 32 :: more).takeWhile (· ≠ 32) = word := by
    intro word more hword
    rw [List.takeWhile_append_of_pos (List.all_eq_true.mp hword)]
    simp
  apply hne
  rw [← hword tail hname, ← hrest, List.append_assoc, List.cons_append, hword _ hfirst]

theorem not_static_null {name : PyStr} (h : plainName name = true) :
    ¬ StaticRefusal (error "INVALID_PARAM" (name ++ py " must not be null; omit it instead")) := by
  simp only [plainName, Bool.and_eq_true, decide_eq_true_eq] at h
  apply not_static_invalid
  · exact startsWith_words (py "unknown") (by decide) h.1.1 h.1.2
  · exact startsWith_words (py "invalid") (by decide) h.1.1 h.2

/-- The two errors of the key check. -/
theorem strictKeysError_cases {params : Dict} {allowed nullable : List PyStr} {invalid : Json}
    (h : strictKeysError params allowed nullable = some invalid) :
    (∃ message, invalid = error "INVALID_PARAM" message) ∧
      ((∃ key ∈ params.keys, key ∉ allowed) ∨ ∃ name ∈ allowed,
        invalid = error "INVALID_PARAM" (name ++ py " must not be null; omit it instead")) := by
  unfold strictKeysError at h
  dsimp only at h
  split_ifs at h with hunknown
  · cases h
    refine ⟨⟨_, rfl⟩, .inl ?_⟩
    obtain ⟨key, hkey⟩ := List.exists_mem_of_ne_nil _ hunknown
    rw [mem_sortedStr, List.mem_filter] at hkey
    exact ⟨key, List.mem_dedup.mp hkey.1, of_decide_eq_true hkey.2⟩
  · split at h
    · rename_i name hname
      cases h
      have hmem := mem_sortedStr.mp (List.mem_of_find?_eq_some hname)
      exact ⟨⟨_, rfl⟩, .inr ⟨name, (List.mem_filter.mp hmem).1, rfl⟩⟩
    · cases h

/-- An unknown key is refused. -/
theorem strictKeysError_unknown {params : Dict} {allowed : List PyStr} {key : PyStr}
    (nullable : List PyStr) (hkey : key ∈ params.keys) (hunknown : key ∉ allowed) :
    ∃ invalid, strictKeysError params allowed nullable = some invalid ∧ IsError invalid := by
  cases h : strictKeysError params allowed nullable with
  | none => exact absurd (keys_of_strictKeysError h key hkey) hunknown
  | some invalid =>
    obtain ⟨⟨message, rfl⟩, -⟩ := strictKeysError_cases h
    exact ⟨_, rfl, isError_error _ _⟩

/-- A static refusal of the key check names an unknown key. -/
theorem explained_strictKeysError {params : Dict} {allowed nullable : List PyStr} {invalid : Json}
    {T : Prop} (h : strictKeysError params allowed nullable = some invalid)
    (hplain : ∀ name ∈ allowed, plainName name = true)
    (hT : (∃ key ∈ params.keys, key ∉ allowed) → T) (hstatic : StaticRefusal invalid) : T := by
  rcases (strictKeysError_cases h).2 with hunknown | ⟨name, hname, rfl⟩
  · exact hT hunknown
  · exact absurd hstatic (not_static_null (hplain name hname))

/-! ## Handlers of Home Assistant commands -/

section
open HaClient HaConfig HaLifecycle

/-- What a program says on static grounds before it sends anything has its ground in `T`. -/
abbrev Quiet (T : Prop) (p : HaClient.Program) : Prop := Prog.Ends Settled (Explained T) p

variable {T : Prop}

theorem quiet_respond {response : Json} (h : ¬ StaticRefusal response) :
    Quiet T (HaClient.respond response) := explained_ok fun hstatic => absurd hstatic h

theorem quiet_request (r : Request) (k : Json → HaClient.Program) : Quiet T (request r k) :=
  fun _ hsent => hsent.elim

theorem quiet_requestOrTimeout (r : Request) (onTimeout : Json) (k : Json → HaClient.Program) :
    Quiet T (requestOrTimeout r onTimeout k) := fun _ hsent => hsent.elim

theorem quiet_gate {command action : PyStr} {params : Dict} {k : Dict → HaClient.Program}
    (hk : ∀ p, Quiet T (k p)) : Quiet T (gate command action params k) := by
  intro answer hanswer
  cases answer with
  | none => exact hk _
  | some denied => exact quiet_respond (hanswer denied rfl).not_static

theorem quiet_orReturn {α : Type} {checked : Except Json α} {k : α → HaClient.Program}
    (hchecked : ∀ response, checked = .error response → ¬ StaticRefusal response)
    (hk : ∀ value, Quiet T (k value)) : Quiet T (orReturn checked k) := by
  cases checked with
  | error response => exact quiet_respond (hchecked response rfl)
  | ok value => exact hk value

theorem quiet_wsCall (msgType : PyStr) (payload : Dict) (k : Json → HaClient.Program) :
    Quiet T (wsCall msgType payload k) := quiet_request _ k

theorem quiet_listFrame (msgType : PyStr) (shape : List Json → Json) :
    Quiet T (listFrame msgType shape) := quiet_request _ _

/-! ### Checks of values -/

theorem requireText_not_static {name : PyStr} {params : Dict} {response : Json}
    (h : requireText name params = .error response) : ¬ StaticRefusal response := by
  unfold requireText at h
  dsimp only at h
  split at h
  · split_ifs at h
    cases h
    exact not_static_required (by decide)
  · cases h
    exact not_static_required (by decide)

theorem requireDict_not_static {name : PyStr} {params : Dict} {response : Json}
    (h : requireDict name params = .error response) : ¬ StaticRefusal response := by
  unfold requireDict at h
  split at h
  · cases h
  · cases h
    exact not_static_required (by decide)

theorem requireId_not_static {params : Dict} {response : Json}
    (h : requireId params = .error response) : ¬ StaticRefusal response := by
  unfold requireId at h
  split at h
  · rename_i other hother
    cases h
    exact requireText_not_static hother
  · split_ifs at h
    cases h
    exact not_static_invalid (by decide) (by decide)

theorem requireHelperType_not_static [Runtime] {params : Dict} {response : Json}
    (h : Helpers.requireHelperType params = .error response) : ¬ StaticRefusal response := by
  unfold Helpers.requireHelperType at h
  split at h
  · rename_i other hother
    cases h
    exact requireText_not_static hother
  · split_ifs at h
    cases h
    exact not_static_invalid rfl rfl

theorem requireDeviceId_not_static {params : Dict} {response : Json}
    (h : DeviceRegistry.requireDeviceId params = .error response) : ¬ StaticRefusal response := by
  have hmissing : ¬ StaticRefusal
      (error "MISSING_PARAM" (py "device_id must be a non-empty string")) :=
    not_static_missing (by decide)
  unfold DeviceRegistry.requireDeviceId at h
  dsimp only at h
  split at h
  · split_ifs at h
    cases h
    exact hmissing
  · cases h
    exact hmissing

theorem optionalUrlPath_not_static {params : Dict} {response : Json}
    (h : Lovelace.optionalUrlPath params = .error response) : ¬ StaticRefusal response := by
  unfold Lovelace.optionalUrlPath at h
  split at h
  · cases h
  · cases h
  · cases h
  · cases h
    exact not_static_invalid (by decide) (by decide)

theorem requireField_not_static {name : PyStr} {params : Dict} {response : Json}
    (hname : name ≠ py "slug") (h : Lovelace.requireField name params = .error response) :
    ¬ StaticRefusal response := by
  have hmissing := not_static_name hname
  unfold Lovelace.requireField at h
  dsimp only at h
  split at h
  · split_ifs at h
    cases h
    exact hmissing
  · cases h
    exact hmissing

/-! ### The configuration commands -/

section
variable [Runtime]

/-- The prologue: the static refusals are those of the key check. -/
theorem quiet_withAction {actions nullable : List PyStr} {keysOf : PyStr → List PyStr}
    {params : Dict} {run : PyStr → HaClient.Program}
    (hplain : strippedAction params ∈ actions →
      ∀ name ∈ keysOf (strippedAction params), plainName name = true)
    (hT : strippedAction params ∈ actions →
      (∃ key ∈ params.keys, key ∉ keysOf (strippedAction params)) → T)
    (hrun : Quiet T (run (strippedAction params))) :
    Quiet T (withAction actions keysOf nullable params run) := by
  unfold withAction
  unfold strippedAction at hplain hT hrun
  split
  · rename_i raw hraw
    simp only [hraw] at hplain hT hrun
    dsimp only
    split_ifs with hblank hknown
    · exact quiet_respond (not_static_invalid (by decide) (by decide))
    · split
      · rename_i invalid hinvalid
        exact explained_ok (explained_strictKeysError hinvalid (hplain hknown) (hT hknown))
      · exact hrun
    · apply quiet_respond
      apply not_static_invalid
      · rfl
      · rfl
  · exact quiet_respond (not_static_invalid (by decide) (by decide))

/-- The prologue of a handler with a table of keys. -/
theorem quiet_table {actions nullable : List PyStr} {table : List (PyStr × List PyStr)}
    {params : Dict} {run : PyStr → HaClient.Program}
    (hplain : ∀ action ∈ actions, ∀ name ∈ keysIn table action, plainName name = true)
    (hT : strippedAction params ∈ actions →
      (∃ key ∈ params.keys, key ∉ keysIn table (strippedAction params)) → T)
    (hrun : Quiet T (run (strippedAction params))) :
    Quiet T (withAction actions (keysIn table) nullable params run) :=
  quiet_withAction (hplain _) hT hrun

/-- An unknown action or an unknown key is refused in the prologue. -/
theorem withAction_refuses {actions nullable : List PyStr} {keysOf : PyStr → List PyStr}
    {params : Dict} {run : PyStr → HaClient.Program}
    (h : strippedAction params ∈ actions →
      ∃ key ∈ params.keys, key ∉ keysOf (strippedAction params)) :
    ∃ response, withAction actions keysOf nullable params run = HaClient.respond response ∧
      IsError response := by
  unfold withAction
  unfold strippedAction at h
  split
  · rename_i raw hraw
    simp only [hraw] at h
    dsimp only
    split_ifs with hblank hknown
    · exact ⟨_, rfl, isError_error _ _⟩
    · obtain ⟨key, hkey, hunknown⟩ := h hknown
      obtain ⟨invalid, hinvalid, herror⟩ := strictKeysError_unknown nullable hkey hunknown
      rw [hinvalid]
      exact ⟨invalid, rfl, herror⟩
    · exact ⟨_, rfl, isError_error _ _⟩
  · exact ⟨_, rfl, isError_error _ _⟩

theorem quiet_rest (command kind : PyStr) {params : Dict}
    (hT : strippedAction params ∈ restActions →
      (∃ key ∈ params.keys, key ∉ keysIn restActionKeys (strippedAction params)) → T) :
    Quiet T (handleRest command kind params) := by
  apply quiet_table (by decide) hT
  apply Prog.Ends.ite
  · exact quiet_orReturn (fun _ => requireId_not_static) fun _ => quiet_request _ _
  · apply Prog.Ends.ite
    · apply quiet_gate
      intro p
      apply quiet_orReturn fun _ => requireId_not_static
      intro id
      exact quiet_orReturn (fun _ => requireDict_not_static) fun _ => quiet_request _ _
    · apply quiet_gate
      intro p
      exact quiet_orReturn (fun _ => requireId_not_static) fun _ => quiet_request _ _

theorem quiet_helpers {params : Dict}
    (hplain : strippedAction params ∈ Helpers.actions →
      ∀ name ∈ Helpers.allowedKeys params (strippedAction params), plainName name = true)
    (hT : strippedAction params ∈ Helpers.actions →
      (∃ key ∈ params.keys, key ∉ Helpers.allowedKeys params (strippedAction params)) → T) :
    Quiet T (handleHaConfigHelpers params) := by
  apply quiet_withAction hplain hT
  apply Prog.Ends.ite
  · exact quiet_orReturn (fun _ => requireHelperType_not_static) fun _ => quiet_listFrame _ _
  apply Prog.Ends.ite
  · apply quiet_gate
    intro p
    apply quiet_orReturn fun _ => requireHelperType_not_static
    intro ht
    exact quiet_orReturn (fun _ => requireDict_not_static) fun _ => quiet_wsCall _ _ _
  apply Prog.Ends.ite
  · apply quiet_gate
    intro p
    apply quiet_orReturn fun _ => requireHelperType_not_static
    intro ht
    apply quiet_orReturn fun _ => requireText_not_static
    intro itemId
    apply quiet_orReturn fun _ => requireDict_not_static
    intro attrs
    apply Prog.Ends.ite
    · exact quiet_respond (not_static_invalid rfl rfl)
    · exact quiet_wsCall _ _ _
  · apply quiet_gate
    intro p
    apply quiet_orReturn fun _ => requireHelperType_not_static
    intro ht
    exact quiet_orReturn (fun _ => requireText_not_static) fun _ => quiet_wsCall _ _ _

theorem quiet_areaRegistry {params : Dict}
    (hT : strippedAction params ∈ AreaRegistry.actions →
      (∃ key ∈ params.keys, key ∉ keysIn AreaRegistry.actionKeys (strippedAction params)) → T) :
    Quiet T (handleHaConfigAreaRegistry params) := by
  apply quiet_table (by decide) hT
  apply Prog.Ends.ite
  · exact quiet_listFrame _ _
  apply quiet_gate
  intro p
  unfold AreaRegistry.approved
  apply Prog.Ends.ite
  · exact quiet_orReturn (fun _ => requireText_not_static) fun _ => quiet_wsCall _ _ _
  apply Prog.Ends.ite
  · apply quiet_orReturn fun _ => requireText_not_static
    intro areaId
    exact quiet_orReturn (fun _ => requireDict_not_static) fun _ => quiet_wsCall _ _ _
  · exact quiet_orReturn (fun _ => requireText_not_static) fun _ => quiet_wsCall _ _ _

theorem quiet_deviceRegistry {params : Dict} (hlist : strippedAction params ≠ py "list")
    (hT : strippedAction params ∈ DeviceRegistry.actions →
      (∃ key ∈ params.keys, key ∉ keysIn DeviceRegistry.actionKeys (strippedAction params)) → T) :
    Quiet T (handleHaConfigDeviceRegistry params) := by
  apply quiet_table (by decide) hT
  rw [if_neg hlist]
  apply quiet_gate
  intro p
  apply quiet_orReturn fun _ => requireDeviceId_not_static
  intro deviceId
  exact quiet_orReturn (fun _ => requireDict_not_static) fun _ => quiet_wsCall _ _ _

theorem quiet_entityRegistry {params : Dict} (hlist : strippedAction params ≠ py "list")
    (hT : strippedAction params ∈ EntityRegistry.actions →
      (∃ key ∈ params.keys, key ∉ keysIn EntityRegistry.actionKeys (strippedAction params)) → T) :
    Quiet T (handleHaConfigEntityRegistry params) := by
  apply quiet_table (by decide) hT
  rw [if_neg hlist]
  apply Prog.Ends.ite
  · apply quiet_gate
    intro p
    apply Prog.Ends.ite
    · apply quiet_orReturn fun _ => requireText_not_static
      intro entityId
      exact quiet_orReturn (fun _ => requireDict_not_static) fun _ => quiet_wsCall _ _ _
    · exact quiet_orReturn (fun _ => requireText_not_static) fun _ => quiet_wsCall _ _ _
  · exact quiet_orReturn (fun _ => requireText_not_static) fun _ => quiet_wsCall _ _ _

theorem quiet_configEntries {params : Dict}
    (hT : strippedAction params ∈ ConfigEntries.actions →
      (∃ key ∈ params.keys, key ∉ keysIn ConfigEntries.actionKeys (strippedAction params)) → T) :
    Quiet T (handleHaConfigConfigEntries params) := by
  apply quiet_table (by decide) hT
  apply Prog.Ends.ite
  · apply quiet_gate
    intro p
    exact quiet_orReturn (fun _ => requireText_not_static) fun _ => quiet_wsCall _ _ _
  · exact quiet_orReturn (fun _ => requireText_not_static) fun _ => quiet_wsCall _ _ _

theorem quiet_lovelace {params : Dict}
    (hT : strippedAction params ∈ Lovelace.actions →
      (∃ key ∈ params.keys, key ∉ keysIn Lovelace.actionKeys (strippedAction params)) → T) :
    Quiet T (handleHaConfigLovelace params) := by
  apply quiet_table (by decide) hT
  apply Prog.Ends.ite
  · exact quiet_orReturn (fun _ => optionalUrlPath_not_static) fun _ => quiet_wsCall _ _ _
  apply Prog.Ends.ite
  · apply quiet_gate
    intro p
    apply quiet_orReturn fun _ => requireDict_not_static
    intro config
    exact quiet_orReturn (fun _ => optionalUrlPath_not_static) fun _ => quiet_wsCall _ _ _
  apply Prog.Ends.ite
  · exact quiet_listFrame _ _
  apply Prog.Ends.ite
  · exact quiet_listFrame _ _
  apply quiet_gate
  intro p
  apply quiet_orReturn fun _ => requireField_not_static (by decide)
  intro url
  apply quiet_orReturn fun _ => requireField_not_static (by decide)
  intro resType
  apply Prog.Ends.ite
  · exact quiet_respond (not_static_invalid rfl rfl)
  · exact quiet_wsCall _ _ _

/-! ### The commands of `ha.py` -/

theorem quiet_reloadConfig {params : Dict}
    (hT : (∃ key ∈ params.keys, key ∉ reloadConfigKeys) → T) :
    Quiet T (handleHaReloadConfig params) := by
  unfold handleHaReloadConfig
  split
  · rename_i invalid hinvalid
    exact explained_ok (explained_strictKeysError hinvalid (by decide) hT)
  · split
    · rename_i invalid hinvalid
      apply quiet_respond
      unfold reloadDomainError at hinvalid
      dsimp only at hinvalid
      split at hinvalid
      · cases hinvalid
      · cases hinvalid
      · split_ifs at hinvalid
        cases hinvalid
        rw [staticRefusal_error]
        simp [staticGround]
      · cases hinvalid
        exact not_static_invalid (by decide) (by decide)
    · exact quiet_gate fun _ => quiet_request _ _

theorem updateInstallData_not_static {params : Dict} {response : Json}
    (h : updateInstallData params = .error response) : ¬ StaticRefusal response := by
  unfold updateInstallData at h
  dsimp only at h
  split_ifs at h
  · cases h
    exact not_static_missing (by decide)
  · split at h
    · cases h
    · cases h
    · cases h
    · cases h
      exact not_static_invalid (by decide) (by decide)
  · cases h
    exact not_static_invalid rfl rfl

theorem quiet_updateInstall {params : Dict}
    (hT : (∃ key ∈ params.keys, key ∉ updateInstallKeys) → T) :
    Quiet T (handleHaUpdateInstall params) := by
  unfold handleHaUpdateInstall
  split
  · rename_i invalid hinvalid
    exact explained_ok (explained_strictKeysError hinvalid (by decide) hT)
  · apply quiet_orReturn fun _ => updateInstallData_not_static
    intro data
    exact quiet_gate fun _ => quiet_requestOrTimeout _ _ _

/-- The slug policy answers before the key check. -/
theorem quiet_lifecycle (command action : PyStr) (desired : Option PyStr) {denylist : List PyStr}
    {params : Dict} (hslug : (∃ response, lifecycleSlug denylist params = .error response) → T)
    (hT : (∃ key ∈ params.keys, key ∉ lifecycleKeys) → T) :
    Quiet T (handleAddonLifecycle command action desired denylist params) := by
  unfold handleAddonLifecycle
  cases hchecked : lifecycleSlug denylist params with
  | error response => exact explained_ok fun _ => hslug ⟨response, hchecked⟩
  | ok slug =>
    dsimp only [orReturn]
    split
    · rename_i invalid hinvalid
      exact explained_ok (explained_strictKeysError hinvalid (by decide) hT)
    · exact quiet_gate fun _ => quiet_request _ _

end

end

/-! ## Handlers of file commands -/

section
open FsMutations

/-- What a program says on static grounds before it touches a file has its ground in `T`. -/
abbrev FileQuiet (T : Prop) (p : FsMutations.Program) : Prop :=
  Prog.Ends FileSettled (Explained T) p

/-- The program touches no file and ends in an error, or raises where `raised` holds. -/
structure Refuses (raised : Prop) (p : FsMutations.Program) : Prop where
  asks : Prog.Asks IsFileApproval p
  ends : Prog.Ends FileSettled (Refused raised) p

/-- An approval check that has not refused. -/
def Passed (result : Checked) : Prop := ∀ denied, result ≠ some (some denied)

theorem passed_none : Passed none := nofun

variable {T raised : Prop}

theorem fileQuiet_respond {response : Json} (h : ¬ StaticRefusal response) :
    FileQuiet T (FsMutations.respond response) := explained_ok fun hstatic => absurd hstatic h

theorem fileQuiet_required {name : String} (h : py name ≠ py "slug") :
    FileQuiet T (required name) := fileQuiet_respond (not_static_name h)

theorem fileQuiet_attempt (op : FileOp) (caught : FsMutations.Exc → Option FsMutations.Program)
    (k : op.Value → FsMutations.Program) : FileQuiet T (attempt op caught k) :=
  fun _ hsent => hsent.elim

theorem fileQuiet_withKeys {allowed : List PyStr} {params : Dict} {k : FsMutations.Program}
    (hplain : ∀ name ∈ allowed, plainName name = true)
    (hT : (∃ key ∈ params.keys, key ∉ allowed) → T) (hk : FileQuiet T k) :
    FileQuiet T (FsMutations.withKeys allowed params k) := by
  unfold FsMutations.withKeys
  split
  · rename_i invalid hinvalid
    exact explained_ok (explained_strictKeysError hinvalid hplain hT)
  · exact hk

theorem refuses_respond {response : Json} (h : IsError response) :
    Refuses raised (FsMutations.respond response) := ⟨trivial, h⟩

theorem refuses_required (name : String) : Refuses raised (required name) :=
  refuses_respond (isError_error _ _)

theorem refuses_unknown {allowed : List PyStr} {params : Dict} {key : PyStr}
    (hkey : key ∈ params.keys) (hunknown : key ∉ allowed) (k : FsMutations.Program) :
    Refuses raised (FsMutations.withKeys allowed params k) := by
  obtain ⟨invalid, hinvalid, herror⟩ := strictKeysError_unknown [] hkey hunknown
  unfold FsMutations.withKeys
  rw [hinvalid]
  exact refuses_respond herror

theorem refuses_ite {c : Prop} [Decidable c] {p q : FsMutations.Program} (hp : Refuses raised p)
    (hq : Refuses raised q) : Refuses raised (if c then p else q) := by
  by_cases hc : c
  · rw [if_pos hc]
    exact hp
  · rw [if_neg hc]
    exact hq

theorem refuses_withKeys {allowed : List PyStr} {params : Dict} {k : FsMutations.Program}
    (hk : Refuses raised k) : Refuses raised (FsMutations.withKeys allowed params k) := by
  unfold FsMutations.withKeys
  split
  · rename_i invalid hinvalid
    obtain ⟨⟨message, rfl⟩, -⟩ := strictKeysError_cases hinvalid
    exact refuses_respond (isError_error _ _)
  · exact hk

/-- A check that has not refused either goes on or asks the gate. -/
theorem unlessDenied_cases (command : PyStr) (params : Dict) (needed : Bool) {result : Checked}
    (k : Checked → FsMutations.Program) (hresult : Passed result) :
    unlessDenied command params needed result k = k result ∨
      unlessDenied command params needed result k = .call (.consume command [] params) fun
        | some denied => FsMutations.respond denied
        | none => k (some none) := by
  unfold unlessDenied
  cases needed with
  | false => exact .inl rfl
  | true =>
    cases result with
    | none =>
      right
      show Prog.call _ _ = _
      congr 1
      funext answer
      cases answer with
      | none => rfl
      | some denied => rfl
    | some answer =>
      cases answer with
      | none => exact .inl rfl
      | some denied => exact absurd rfl (hresult denied)

theorem fileQuiet_unlessDenied {command : PyStr} {params : Dict} {needed : Bool} {result : Checked}
    {k : Checked → FsMutations.Program} (hresult : Passed result)
    (hk : ∀ result, Passed result → FileQuiet T (k result)) :
    FileQuiet T (unlessDenied command params needed result k) := by
  rcases unlessDenied_cases command params needed k hresult with hon | hasked
  · rw [hon]
    exact hk result hresult
  · rw [hasked]
    intro answer hanswer
    cases answer with
    | none => exact hk (some none) nofun
    | some denied => exact fileQuiet_respond (hanswer denied rfl).not_static

theorem refuses_unlessDenied {command : PyStr} {params : Dict} {needed : Bool} {result : Checked}
    {k : Checked → FsMutations.Program} (hresult : Passed result)
    (hk : ∀ result, Passed result → Refuses raised (k result)) :
    Refuses raised (unlessDenied command params needed result k) := by
  rcases unlessDenied_cases command params needed k hresult with hon | hasked
  · rw [hon]
    exact hk result hresult
  · rw [hasked]
    have hrest := hk (some none) nofun
    constructor
    · refine ⟨trivial, fun answer => ?_⟩
      cases answer with
      | none => exact hrest.asks
      | some denied => trivial
    · intro answer hanswer
      cases answer with
      | none => exact hrest.ends
      | some denied => exact (hanswer denied rfl).isError

theorem fileQuiet_writePreflight {command path : PyStr} {params : Dict} {agentBridge : Bool}
    {result : Checked} {k : Checked → FsMutations.Program} (hresult : Passed result)
    (hT : isStorage path = true → T) (hk : ∀ result, Passed result → FileQuiet T (k result)) :
    FileQuiet T (writePreflight command params path agentBridge result k) := by
  unfold writePreflight
  split_ifs with hstorage
  · exact explained_ok fun _ => hT hstorage
  · exact fileQuiet_unlessDenied hresult hk

theorem refuses_storage {command path : PyStr} {params : Dict} {agentBridge : Bool}
    {result : Checked} {k : Checked → FsMutations.Program} (h : isStorage path = true) :
    Refuses raised (writePreflight command params path agentBridge result k) := by
  unfold writePreflight
  rw [if_pos h]
  exact refuses_respond (isError_error _ _)

theorem refuses_writePreflight {command path : PyStr} {params : Dict} {agentBridge : Bool}
    {result : Checked} {k : Checked → FsMutations.Program} (hresult : Passed result)
    (hk : ∀ result, Passed result → Refuses raised (k result)) :
    Refuses raised (writePreflight command params path agentBridge result k) := by
  unfold writePreflight
  split_ifs
  · exact refuses_respond (isError_error _ _)
  · exact refuses_unlessDenied hresult hk

/-! ### The commands -/

variable [Runtime] {params : Dict}

theorem fileQuiet_resolveTarget (command path : PyStr) (result : Checked)
    (k : PurePath → Checked → FsMutations.Program) :
    FileQuiet T (resolveTarget command params path result k) := fileQuiet_attempt _ _ _

theorem fileQuiet_write [BackupStore.Digest]
    (hkeys : (∃ key ∈ params.keys, key ∉ writeKeys) → T)
    (hstorage : isStorage (textOr params "path" "") = true → T) :
    FileQuiet T (handleFsWrite params) := by
  apply fileQuiet_withKeys (by decide) hkeys
  apply Prog.Ends.ite
  · exact fileQuiet_required (by decide)
  · split
    · exact fileQuiet_required (by decide)
    · exact fileQuiet_writePreflight passed_none hstorage fun _ _ => fileQuiet_resolveTarget _ _ _ _

theorem fileQuiet_restore (hkeys : (∃ key ∈ params.keys, key ∉ restoreKeys) → T)
    (hstorage : isStorage (textOr params "path" "") = true → T) :
    FileQuiet T (handleFsRestore params) := by
  apply fileQuiet_withKeys (by decide) hkeys
  apply Prog.Ends.ite
  · exact fileQuiet_required (by decide)
  · exact fileQuiet_writePreflight passed_none hstorage fun _ _ => fileQuiet_resolveTarget _ _ _ _

theorem fileQuiet_patch [BackupStore.Digest]
    (hkeys : (∃ key ∈ params.keys, key ∉ patchKeys) → T)
    (hstorage : isStorage (textOr params "path" "") = true → T) :
    FileQuiet T (handleFsPatch params) := by
  apply fileQuiet_withKeys (by decide) hkeys
  apply Prog.Ends.ite (fileQuiet_required (by decide))
  apply Prog.Ends.ite
  · exact fileQuiet_required (by decide)
  · split
    · exact explained_error _
    · apply Prog.Ends.ite
      · exact fileQuiet_respond (tooLarge_not_static (by decide))
      · exact fileQuiet_writePreflight passed_none hstorage fun _ _ =>
          fileQuiet_resolveTarget _ _ _ _

theorem fileQuiet_move (hkeys : (∃ key ∈ params.keys, key ∉ moveKeys) → T)
    (hsrc : isStorage (textOr params "src" "") = true → T)
    (hdst : isStorage (textOr params "dst" "") = true → T) :
    FileQuiet T (handleFsMove params) := by
  apply fileQuiet_withKeys (by decide) hkeys
  apply Prog.Ends.ite (fileQuiet_required (by decide))
  apply Prog.Ends.ite
  · exact fileQuiet_required (by decide)
  · apply fileQuiet_writePreflight passed_none hsrc
    intro result hresult
    exact fileQuiet_writePreflight hresult hdst fun _ _ => fileQuiet_resolveTarget _ _ _ _

theorem fileQuiet_delete (hkeys : (∃ key ∈ params.keys, key ∉ deleteKeys) → T)
    (hstorage : isStorage (textOr params "path" "") = true → T) :
    FileQuiet T (handleFsDelete params) := by
  apply fileQuiet_withKeys (by decide) hkeys
  apply Prog.Ends.ite
  · exact fileQuiet_required (by decide)
  · exact fileQuiet_writePreflight passed_none hstorage fun _ _ => fileQuiet_resolveTarget _ _ _ _

theorem refuses_write [BackupStore.Digest] (h : isStorage (textOr params "path" "") = true) :
    Refuses raised (handleFsWrite params) := by
  apply refuses_withKeys
  apply refuses_ite
  · exact refuses_required _
  · split
    · exact refuses_required _
    · exact refuses_storage h

theorem refuses_restore (h : isStorage (textOr params "path" "") = true) :
    Refuses raised (handleFsRestore params) := by
  apply refuses_withKeys
  apply refuses_ite
  · exact refuses_required _
  · exact refuses_storage h

/-- The patch is encoded before its path is judged. -/
theorem refuses_patch [BackupStore.Digest]
    (hraised : encodeUtf8 (textOr params "patch" "") = none → raised)
    (h : isStorage (textOr params "path" "") = true) : Refuses raised (handleFsPatch params) := by
  apply refuses_withKeys
  apply refuses_ite (refuses_required _)
  apply refuses_ite
  · exact refuses_required _
  · split
    · rename_i hencode
      exact ⟨trivial, hraised hencode⟩
    · apply refuses_ite
      · exact refuses_respond (isError_tooLarge _ _ _)
      · exact refuses_storage h

/-- Either end of a move is judged before anything is resolved. -/
theorem refuses_move
    (h : isStorage (textOr params "src" "") = true ∨ isStorage (textOr params "dst" "") = true) :
    Refuses raised (handleFsMove params) := by
  apply refuses_withKeys
  apply refuses_ite (refuses_required _)
  apply refuses_ite
  · exact refuses_required _
  · rcases h with hsrc | hdst
    · exact refuses_storage hsrc
    · apply refuses_writePreflight passed_none
      intro result hresult
      exact refuses_storage hdst

theorem refuses_delete (h : isStorage (textOr params "path" "") = true) :
    Refuses raised (handleFsDelete params) := by
  apply refuses_withKeys
  apply refuses_ite
  · exact refuses_required _
  · exact refuses_storage h

end

end HassNode.PreflightMirror
