import HassNode.ApprovalAgreement
import HassNode.ApprovalHook
import HassNode.CanonicalInjective

/-!
# What the hook hands on

A call of the `nodes` tool reaches the node with no marker and no caller hint of the model's making:
`nodes_call_trusted` says where either comes from, and that a marker goes without a prompt only under
a grant that was given for the same session, command and action.
-/

namespace HassNode.NodeApproval

open Py Js Printer ConfigMutation

/-! ## Grants -/

/-- The code points of a key. -/
def keyText (sessionKey command action : JsStr) : PyStr :=
  91 :: (esString (decode sessionKey) ++ (44 :: (esString (decode command) ++
    (44 :: (esString (decode action) ++ [93])))))

theorem encodes_keyOf (sessionKey command action : JsStr) :
    Encodes (keyOf sessionKey command action) (keyText sessionKey command action) := by
  have hitems : Encodes ((js ",").intercalate ([sessionKey, command, action].map quoteJSONString))
      ((py ",").intercalate ([sessionKey, command, action].map fun s => esString (decode s))) :=
    Encodes.intercalate (Encodes.js ",") fun s _ => encodes_quoteJSONString s
  have hall := ((Encodes.js "[").append hitems).append (Encodes.js "]")
  have htext : keyText sessionKey command action = py "[" ++
      (py ",").intercalate ([sessionKey, command, action].map fun s => esString (decode s)) ++
        py "]" := by
    simp [keyText, List.intercalate, List.intersperse, show py "[" = [91] from rfl,
      show py "," = [44] from rfl, show py "]" = [93] from rfl]
  rw [htext]
  exact hall

/-- A quoted text at the head of an equation. -/
theorem esString_cancel {s t : PyStr} {rest other : PyStr}
    (h : esString s ++ rest = esString t ++ other) : s = t ∧ rest = other :=
  esString_agree (fun _ => True) s t rest other (fun _ _ => trivial) (fun _ _ => trivial) h

/-- Different grants have different keys. -/
theorem keyOf_injective {s c a s' c' a' : JsStr} (h : keyOf s c a = keyOf s' c' a') :
    s = s' ∧ c = c' ∧ a = a' := by
  have htext : keyText s c a = keyText s' c' a' := by
    rw [← (encodes_keyOf s c a).decode_eq, h, (encodes_keyOf s' c' a').decode_eq]
  unfold keyText at htext
  have hsession := esString_cancel (List.cons.inj htext).2
  have hcommand := esString_cancel (List.cons.inj hsession.2).2
  have haction := esString_cancel (List.cons.inj hcommand.2).2
  exact ⟨decode_injective hsession.1, decode_injective hcommand.1, decode_injective haction.1⟩

/-- What happens to a store between its creation and a call of the hook. -/
inductive GrantEvent where
  | granted (sessionKey command action : JsStr) (nowMs : Int)
  | asked (sessionKey command action : JsStr) (nowMs : Int)
  | sessionEnded (sessionKey : JsStr)

namespace GrantStore

def after (store : GrantStore) : GrantEvent → GrantStore
  | .granted sessionKey command action nowMs => store.grant sessionKey command action nowMs
  | .asked sessionKey command action nowMs => (store.has sessionKey command action nowMs).2
  | .sessionEnded sessionKey => store.revokeSession sessionKey

/-- The store of a plugin that was started empty. -/
def of (events : List GrantEvent) : GrantStore := events.foldl after ∅

/-- Every entry of the store comes from a grant. -/
def Granted (events : List GrantEvent) (store : GrantStore) : Prop :=
  ∀ key expiresAt, store.lookup key = some expiresAt → ∃ sessionKey command action nowMs,
    .granted sessionKey command action nowMs ∈ events ∧ key = keyOf sessionKey command action ∧
      expiresAt = nowMs + grantTtlMs

theorem Granted.of_lookup {events : List GrantEvent} {store store' : GrantStore}
    (h : Granted events store)
    (hlookup : ∀ key expiresAt, store'.lookup key = some expiresAt →
      store.lookup key = some expiresAt) : Granted events store' :=
  fun key expiresAt hkey => h key expiresAt (hlookup key expiresAt hkey)

theorem has_lookup {store : GrantStore} {sessionKey command action : JsStr} {nowMs : Int}
    {key : JsStr} {expiresAt : Int}
    (h : (store.has sessionKey command action nowMs).2.lookup key = some expiresAt) :
    store.lookup key = some expiresAt := by
  unfold has at h
  split at h
  · exact h
  · split at h
    · have herased : AList.lookup key (store.erase (keyOf sessionKey command action)) =
          some expiresAt := h
      rw [OrderedDict.lookup_erase_eq] at herased
      split at herased
      · cases herased
      · exact herased
    · exact h

theorem revokeSession_lookup {store : GrantStore} {sessionKey key : JsStr} {expiresAt : Int}
    (h : (store.revokeSession sessionKey).lookup key = some expiresAt) :
    store.lookup key = some expiresAt := by
  rw [← Option.mem_def, AList.mem_lookup_iff] at h ⊢
  exact (List.mem_filter.mp h).1

/-- One event keeps every entry that of a grant. -/
theorem Granted.after {events : List GrantEvent} {store : GrantStore} (h : Granted events store)
    {event : GrantEvent} (hmem : event ∈ events) : Granted events (store.after event) := by
  cases event with
  | granted sessionKey command action nowMs =>
    intro key expiresAt hkey
    have hset : (store.set (keyOf sessionKey command action) (nowMs + grantTtlMs)).lookup key =
        some expiresAt := hkey
    rw [OrderedDict.lookup_set] at hset
    split at hset
    · rename_i heq
      cases hset
      exact ⟨sessionKey, command, action, nowMs, hmem, heq, rfl⟩
    · exact h key expiresAt hset
  | asked sessionKey command action nowMs => exact h.of_lookup fun _ _ hkey => has_lookup hkey
  | sessionEnded sessionKey => exact h.of_lookup fun _ _ hkey => revokeSession_lookup hkey

theorem granted_foldl {events : List GrantEvent} (past : List GrantEvent) {store : GrantStore}
    (h : Granted events store) (hpast : ∀ event ∈ past, event ∈ events) :
    Granted events (past.foldl GrantStore.after store) := by
  induction past generalizing store with
  | nil => exact h
  | cons event past ih =>
    rw [List.forall_mem_cons] at hpast
    exact ih (h.after hpast.1) hpast.2

/-- Every entry of a store of the plugin comes from a grant. -/
theorem granted_of (events : List GrantEvent) : Granted events (of events) :=
  granted_foldl events (fun _ _ h => by cases h) fun _ h => h

/-- A store that has a grant was given it less than its time to live ago. -/
theorem has_granted {events : List GrantEvent} {sessionKey command action : JsStr} {nowMs : Int}
    (h : ((of events).has sessionKey command action nowMs).1 = true) :
    ∃ grantedAt, .granted sessionKey command action grantedAt ∈ events ∧
      nowMs < grantedAt + grantTtlMs := by
  unfold has at h
  split at h
  · cases h
  · rename_i expiresAt hlookup
    split at h
    · cases h
    · rename_i hlive
      obtain ⟨s, c, a, grantedAt, hmem, hkey, rfl⟩ := granted_of events _ _ hlookup
      obtain ⟨rfl, rfl, rfl⟩ := keyOf_injective hkey
      exact ⟨grantedAt, hmem, not_le.mp hlive⟩

end GrantStore

/-! ## The params that are handed on -/

section
variable [JsRuntime]

/-- The params of a `nodes` call that the hook hands on, and the prompt they wait for. -/
def HookResult.handedOn (inner : JsObject) : HookResult → Option (JsObject × Option ApprovalRequest)
  | .untouched => some (inner, none)
  | .block _ => none
  | .params out request => some (out, request)
  | .toolParams _ _ => none

omit [JsRuntime] in
/-- Nothing reserved is left in clean params. -/
theorem lookup_cleaned {inner : JsObject} {key : JsStr}
    (hkey : key = approvalParam ∨ key = callerParam) : (cleaned inner).lookup key = none := by
  rw [List.lookup_eq_none_iff]
  intro kv hkv
  have hclean := of_decide_eq_true (List.mem_filter.mp hkv).2
  rw [bne_iff_ne]
  rintro rfl
  rcases hkey with h | h
  · exact hclean.1 h
  · exact hclean.2 h

omit [JsRuntime] in
theorem cleaned_cleaned (inner : JsObject) : cleaned (cleaned inner) = cleaned inner := by
  simp [cleaned]

omit [JsRuntime] in
theorem cleaned_hinted (inner : JsObject) (sessionKey : Option JsStr) :
    cleaned (hinted (cleaned inner) sessionKey) = cleaned inner := by
  cases sessionKey with
  | none => exact cleaned_cleaned inner
  | some key =>
    show (cleaned inner ++ [(callerParam, _)]).filter _ = _
    rw [List.filter_append]
    have hown : cleaned (cleaned inner) = cleaned inner := cleaned_cleaned inner
    unfold cleaned at hown ⊢
    rw [hown]
    simp

/-- What may be handed on in a call whose clean params are `clean`: at most a hint of the host and a
marker of this call. -/
structure Trusted [Runtime] (command : JsStr) (clean : JsObject) (draw : Draw)
    (sessionKey : Option JsValue) (out : JsObject) : Prop where
  /-- The model's own params are handed on unchanged. -/
  clean : cleaned out = clean
  /-- A marker is the one that this call of the hook made for what is handed on. -/
  marker : ∀ marker, out.lookup approvalParam = some marker →
    marker = newMarker command (actionOf (cleaned out)) (cleaned out) draw
  /-- A hint names the session of the host. -/
  hint : ∀ hint, out.lookup callerParam = some hint → ∃ key,
    normalizeAssistSessionKey sessionKey = some key ∧ hint = .obj [(js "sessionKey", .str key)]

variable [Runtime] {command : JsStr} {inner : JsObject} {draw : Draw} {sessionKey : Option JsValue}

omit [JsRuntime] [Runtime] in
theorem lookup_hinted_approval (inner : JsObject) (key : Option JsStr) :
    (hinted (cleaned inner) key).lookup approvalParam = none := by
  cases key with
  | none => exact lookup_cleaned (.inl rfl)
  | some key =>
    rw [hinted, List.lookup_append, lookup_cleaned (.inl rfl)]
    rfl

omit [JsRuntime] [Runtime] in
theorem lookup_hinted_caller (inner : JsObject) (key : Option JsStr) :
    (hinted (cleaned inner) key).lookup callerParam =
      key.map fun key => .obj [(js "sessionKey", .str key)] := by
  cases key with
  | none => exact lookup_cleaned (.inr rfl)
  | some key =>
    rw [hinted, List.lookup_append, lookup_cleaned (.inr rfl)]
    rfl

omit [JsRuntime] in
theorem trusted_cleaned : Trusted command (cleaned inner) draw sessionKey (cleaned inner) where
  clean := cleaned_cleaned inner
  marker marker h := by
    rw [lookup_cleaned (.inl rfl)] at h
    cases h
  hint hint h := by
    rw [lookup_cleaned (.inr rfl)] at h
    cases h

omit [JsRuntime] in
/-- Params without reserved fields of their own need no rewriting. -/
theorem trusted_untouched (happroval : inner.lookup approvalParam = none)
    (hcaller : inner.lookup callerParam = none) :
    Trusted command (cleaned inner) draw sessionKey inner where
  clean := rfl
  marker marker h := by
    rw [happroval] at h
    cases h
  hint hint h := by
    rw [hcaller] at h
    cases h

omit [JsRuntime] in
theorem trusted_hinted : Trusted command (cleaned inner) draw sessionKey
    (hinted (cleaned inner) (normalizeAssistSessionKey sessionKey)) where
  clean := cleaned_hinted inner _
  marker marker h := by
    rw [lookup_hinted_approval] at h
    cases h
  hint hint h := by
    rw [lookup_hinted_caller, Option.map_eq_some_iff] at h
    obtain ⟨key, hkey, rfl⟩ := h
    exact ⟨key, hkey, rfl⟩

omit [JsRuntime] in
theorem trusted_approved : Trusted command (cleaned inner) draw sessionKey
    (hinted (cleaned inner) (normalizeAssistSessionKey sessionKey) ++
      [(approvalParam, newMarker command (actionOf (cleaned inner)) (cleaned inner) draw)]) := by
  have hclean : cleaned (hinted (cleaned inner) (normalizeAssistSessionKey sessionKey) ++
      [(approvalParam, newMarker command (actionOf (cleaned inner)) (cleaned inner) draw)]) =
      cleaned inner := by
    have hown := cleaned_hinted inner (normalizeAssistSessionKey sessionKey)
    unfold cleaned at hown ⊢
    rw [List.filter_append, hown]
    simp
  refine ⟨hclean, fun marker h => ?_, fun hint h => ?_⟩
  · rw [List.lookup_append, lookup_hinted_approval] at h
    rw [hclean]
    exact (Option.some.inj h).symm
  · have hother : List.lookup callerParam [(approvalParam,
        newMarker command (actionOf (cleaned inner)) (cleaned inner) draw)] = none := rfl
    rw [List.lookup_append, hother, Option.or_none] at h
    rw [lookup_hinted_caller, Option.map_eq_some_iff] at h
    obtain ⟨key, hkey, rfl⟩ := h
    exact ⟨key, hkey, rfl⟩

/-- The store holds an unexpired grant for the session, command and action of the call, and it was
given less than its time to live ago. -/
def Covered (events : List GrantEvent) (command : JsStr) (draw : Draw)
    (sessionKey : Option JsValue) (out : JsObject) : Prop :=
  ∃ key, grantSessionKey sessionKey = some key ∧
    ((GrantStore.of events).has key command (actionOf (cleaned out)) draw.checkedAtMs).1 = true ∧
      ∃ grantedAt, .granted key command (actionOf (cleaned out)) grantedAt ∈ events ∧
        draw.checkedAtMs < grantedAt + grantTtlMs

/-- A request that is resolved gives no grant but one for the session, command and action of its call,
and only by a decision that it offers. -/
def Grants (command : JsStr) (sessionKey : Option JsValue) (out : JsObject)
    (request : ApprovalRequest) : Prop :=
  ∀ decision nowMs (store : GrantStore), request.onResolution decision nowMs store = store ∨
    decision ∈ request.allowedDecisions ∧ ∃ key, grantSessionKey sessionKey = some key ∧
      request.onResolution decision nowMs store =
        store.after (.granted key command (actionOf (cleaned out)) nowMs)

omit [JsRuntime] [Runtime] in
theorem grantScope_eq_some {action : JsStr} {scope : GrantScope}
    (h : grantScope sessionKey command action = some scope) :
    grantSessionKey sessionKey = some scope.sessionKey ∧ command = scope.command ∧
      action = scope.action := by
  unfold grantScope at h
  split at h
  · cases h
  · rename_i key hkey
    split at h
    · cases h
      exact ⟨hkey, rfl, rfl⟩
    · cases h

omit [JsRuntime] [Runtime] in
theorem approvalRequest_grants {title description : JsStr} {action : JsStr} {out : JsObject}
    (haction : actionOf (cleaned out) = action) : Grants command sessionKey out
      (approvalRequest title description (grantScope sessionKey command action)) := by
  intro decision nowMs store
  cases hscope : grantScope sessionKey command action with
  | none => exact .inl rfl
  | some scope =>
    obtain ⟨hkey, rfl, rfl⟩ := grantScope_eq_some hscope
    by_cases halways : decision = js "allow-always"
    · subst halways
      refine .inr ⟨by simp [approvalRequest, ApprovalRequest.allowedDecisions], _, hkey, ?_⟩
      rw [haction]
      rfl
    · exact .inl (if_neg halways)

/-- What the gated part of the hook hands on. -/
theorem gatedCall_trusted (events : List GrantEvent) (raw : JsStr) {out : JsObject}
    {request : Option ApprovalRequest}
    (h : (gatedCall raw (cleaned inner) command (actionOf (cleaned inner)) draw sessionKey
      (GrantStore.of events)).1.handedOn inner = some (out, request)) :
    Trusted command (cleaned inner) draw sessionKey out ∧
      ((out.lookup approvalParam).isSome → request = none →
        Covered events command draw sessionKey out) ∧
      ∀ asked, request = some asked → Grants command sessionKey out asked := by
  unfold gatedCall at h
  split at h
  · cases h
  · split at h
    · cases h
    · dsimp only at h
      split at h
      · cases h
        refine ⟨trusted_hinted, fun hmarker => ?_, fun asked hasked => by cases hasked⟩
        rw [lookup_hinted_approval] at hmarker
        cases hmarker
      · cases hscope : grantScope sessionKey command (actionOf (cleaned inner)) with
        | none =>
          rw [hscope] at h
          cases h
          refine ⟨trusted_approved, fun _ hnone => absurd hnone (Option.some_ne_none _),
            fun asked hasked => ?_⟩
          cases hasked
          rw [← hscope]
          exact approvalRequest_grants (congrArg actionOf trusted_approved.clean)
        | some scope =>
          rw [hscope] at h
          cases h
          refine ⟨trusted_approved, fun _ hnone => ?_, fun asked hasked => ?_⟩
          · have hheld : ((GrantStore.of events).has scope.sessionKey scope.command scope.action
                draw.checkedAtMs).1 = true := by
              by_contra hno
              rw [if_neg hno] at hnone
              cases hnone
            obtain ⟨hkey, rfl, haction⟩ := grantScope_eq_some hscope
            refine ⟨scope.sessionKey, hkey, ?_⟩
            rw [trusted_approved.clean, haction]
            exact ⟨hheld, GrantStore.has_granted hheld⟩
          · split at hasked
            · cases hasked
            · cases hasked
              rw [← hscope]
              exact approvalRequest_grants (congrArg actionOf trusted_approved.clean)

/-- Of every call of the `nodes` tool whose params parse, the hook hands on the model's own params,
at most with the host's session key as a hint and a marker of this very call; the marker goes
without a prompt only under a grant; and a prompt gives no other grant than the one it asks for. -/
theorem nodes_call_trusted (events : List GrantEvent) (params : JsObject) (draw : Draw)
    (sessionKey : Option JsValue) {raw : JsStr} {inner : JsObject}
    (hinvoke : normalized (params.lookup (js "action")) = js "invoke")
    (hparse : parseInnerParams (params.lookup (js "invokeParamsJson")) = some (raw, inner))
    (out : JsObject) (request : Option ApprovalRequest)
    (hout : (beforeToolCall (js "nodes") params draw sessionKey
      (GrantStore.of events)).1.handedOn inner = some (out, request)) :
    Trusted (normalized (params.lookup (js "invokeCommand"))) (cleaned inner) draw sessionKey out ∧
      ((out.lookup approvalParam).isSome → request = none → Covered events
        (normalized (params.lookup (js "invokeCommand"))) draw sessionKey out) ∧
      ∀ asked, request = some asked →
        Grants (normalized (params.lookup (js "invokeCommand"))) sessionKey out asked := by
  have htool : adminToolCommands.lookup (js "nodes") = none := rfl
  unfold beforeToolCall nodesCall at hout
  rw [htool] at hout
  dsimp only at hout
  rw [if_pos rfl, if_neg (not_not_intro hinvoke), hparse] at hout
  dsimp only at hout
  split at hout
  · exact gatedCall_trusted events raw hout
  · split at hout
    · rename_i hreserved
      cases hout
      rw [Option.isNone_iff_eq_none, Option.isNone_iff_eq_none] at hreserved
      refine ⟨trusted_untouched hreserved.1 hreserved.2, fun hmarker => ?_,
        fun asked hasked => by cases hasked⟩
      rw [hreserved.1] at hmarker
      cases hmarker
    · cases hout
      refine ⟨trusted_cleaned, fun hmarker => ?_, fun asked hasked => by cases hasked⟩
      rw [lookup_cleaned (.inl rfl)] at hmarker
      cases hmarker

end

/-! ## One call -/

/-- Case mapping of ASCII letters, and `JSON.parse` of one text without numbers. -/
@[reducible] def sampleJsRuntime (text : JsStr) (value : JsValue) : JsRuntime where
  lower s := s.map foldAscii
  upper s := s.map fun u => if 97 ≤ u.val ∧ u.val ≤ 122 then unit (u.val - 32) else u
  parse s := if s = text then some value else none
  numbers _ := []

/-- The object `{"path":"/config/a","_openclaw_approval":"x"}`, with a planted marker. -/
def plantedParams : JsObject := [(js "path", .str (js "/config/a")), (approvalParam, .str (js "x"))]

def plantedCall : JsObject :=
  [(js "action", .str (js "invoke")), (js "invokeCommand", .str (js "fs.patch")),
    (js "invokeParamsJson", .str (stringify (.obj plantedParams)))]

/-- A planted marker is replaced, and the fresh one goes without a prompt under a grant. -/
theorem planted_call_trusted : ∃ out,
    @Trusted (.ofTable []) (js "fs.patch") (cleaned plantedParams) ⟨js "u", 0, 1⟩
        (some (.str (js "s"))) out ∧
      (out.lookup approvalParam).isSome ∧
      Covered [.granted (js "s") (js "fs.patch") (js "") 0, .sessionEnded (js "t")] (js "fs.patch")
        ⟨js "u", 0, 1⟩ (some (.str (js "s"))) out := by
  have htrusted := @nodes_call_trusted
    (sampleJsRuntime (stringify (.obj plantedParams)) (.obj plantedParams)) (.ofTable [])
    [.granted (js "s") (js "fs.patch") (js "") 0, .sessionEnded (js "t")] plantedCall ⟨js "u", 0, 1⟩ (some (.str (js "s")))
    (stringify (.obj plantedParams)) plantedParams (by decide) rfl _ none rfl
  exact ⟨_, htrusted.1, rfl, htrusted.2.1 rfl rfl⟩

end HassNode.NodeApproval
