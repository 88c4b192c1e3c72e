import HassNode.ChatRelay
import HassNode.JsonLayout
import HassNode.MaskedOutcome
import HassNode.ParamsShape

/-!
# Every invoke is answered

`_handle_invoke` of `gateway_ws.py` from the payload of a `node.invoke.request` to what it hands to
the socket, and the drain of the pending invokes over it.  An invoke is answered by exactly one
`node.invoke.result` unless an exception that no handler awaits leaves the decoding of the params or
the printing of the result; `invoke_answered` says when.
-/

namespace HassNode.GatewayWs

open Py HaClient Authz EffectPolicy Dispatcher ChatRelay Indent.Layout

section
variable [Runtime]

/-! ## The params -/

/-- How `_decode_invoke_params` ends without params. -/
inductive ParamsFailure where
  | refused (code : PyStr)   -- `InvalidInvokeParamsError` with its code
  | raised (exc : Exc)       -- any other exception

/-- `_MAX_PARAMS_JSON_BYTES`. -/
def maxParamsJsonBytes : Nat := 512 * 1024

def invalidParams : ParamsFailure := .refused (py "INVALID_PARAMS")

def requestTooLarge : ParamsFailure := .refused (py "REQUEST_TOO_LARGE")

/-- What `_decode_invoke_params` makes of the outcome of `json.loads`. -/
def decodedParams : Except LoadError Json → Except ParamsFailure Dict
  | .error .recursion => .error requestTooLarge
  | .error .decode => .error invalidParams
  -- a plain `ValueError`, which is no `JSONDecodeError`
  | .error .intDigits => .error (.raised (.other (py "ValueError")))
  | .error .fuel => .error invalidParams
  | .ok (.dict params) =>
    match checkParamsShape (memberCount (.dict params) + 2) (.dict params) with
    | some (.ok ()) => .ok params
    | _ => .error requestTooLarge
  | .ok _ => .error invalidParams

/-- `_decode_invoke_params`, where `json.loads` has room for `room` nested containers. -/
def decodeInvokeParams (room : Nat) (payload : Dict) : Except ParamsFailure Dict :=
  match payload.get? (py "paramsJSON") with
  | some (.str (c :: rest)) =>
    match encodeUtf8 (c :: rest) with
    | none => .error (.raised (.other (py "UnicodeEncodeError")))
    | some raw =>
      if maxParamsJsonBytes < raw.length then .error requestTooLarge
      else decodedParams (loads room (c :: rest))
  | _ => .error invalidParams

/-! ## The caller -/

/-- `CallerRefusedError`. -/
structure CallerRefused where
  code : PyStr
  message : PyStr

/-- `_CALLER_PARAM`. -/
def callerParam : PyStr := py "_openclaw_caller"

/-- The session key that a hint carries. -/
def hintedSession : Json → Option PyStr
  | .dict hint =>
    match Dict.get? hint (py "sessionKey") with
    | some (.str sessionKey) => if strip sessionKey = [] then none else some sessionKey
    | _ => none
  | _ => none

/-- `_pop_caller_hint`: the session key, and the params without the hint. -/
def popCallerHint (params : Dict) : Except CallerRefused (Option PyStr × Dict) :=
  match params.get? callerParam with
  | none => .ok (none, params)
  | some hint =>
    match hintedSession hint with
    | none => .error ⟨py "INVALID_PARAMS", py "Malformed invoke params"⟩
    | some sessionKey => .ok (some sessionKey, params.pop callerParam)

/-- `_INVOKE_CALLER`. -/
def invokeCaller : Caller := { role := .operator, actorId := py "gateway-invoke" }

section
variable [CaseMap]

/-- `_resolve_invoke_caller`: the caller, and the params that the handler is given. -/
def resolveInvokeCaller (relay : Option Relay) (now : Int) (params : Dict) :
    Except CallerRefused (Caller × Dict) :=
  match popCallerHint params with
  | .error refusal => .error refusal
  | .ok (none, params) => .ok (invokeCaller, params)
  | .ok (some sessionKey, params) =>
    match relay.bind fun r => r.activeCaller sessionKey with
    | some caller => .ok (caller, params)
    | none =>
      if relay.any fun r => r.recentlyEnded sessionKey now then
        .error ⟨py "REQUEST_EXPIRED",
          py "That request expired because the Assist turn has ended. Ask again."⟩
      else .error ⟨py "PERMISSION_DENIED", py "No active Assist turn for caller"⟩

end

/-! ## One invoke -/

/-- What the interpreter, the relay and the dispatched handler supply while one invoke is handled. -/
structure InvokeEnv where
  /-- Nested containers that `json.loads` has room for. -/
  loadsRoom : Nat
  /-- Nested containers that `scrub_codes` has room for. -/
  walkRoom : Nat
  /-- Nested containers that `json.dumps` has room for. -/
  dumpsRoom : Nat
  three_le : 3 ≤ dumpsRoom
  relay : Option Relay
  now : Int
  denylist : List PyStr
  /-- What the registered handler does when it is called. -/
  run : Except Failure Json
  /-- `str(uuid.uuid4())` of the first and of the second frame. -/
  frameId : PyStr
  secondId : PyStr
  frameId_length : frameId.length = 36
  secondId_length : secondId.length = 36
  /-- What `ws.send` raises. -/
  sendError : Option Exc

/-- What a call handed to `ws.send`, in UTF-8, and what it raised. -/
structure SocketRun where
  sent : List (List Nat)
  raised : Option Exc

/-- `await ws.send(...)` of a text that `json.dumps` wrote, or the exception it raised instead. -/
def SocketRun.send (sendError : Option Exc) : Except Exc (List Nat) → SocketRun
  | .error exc => ⟨[], some exc⟩
  | .ok raw => ⟨[raw], sendError⟩

namespace InvokeEnv
variable (env : InvokeEnv)

/-- `dispatch_async`, whose `scrub_codes` recurses over what the handler returned. -/
def dispatched (caller : Caller) (command : PyStr) (params : Dict) : Except Failure Json :=
  match dispatchAsync env.denylist caller command params env.run, check caller command params,
    env.run with
  | .ok scrubbed, none, .ok result =>
    if env.walkRoom < nesting result then .error (.raised (.other (py "RecursionError")))
    else .ok scrubbed
  | outcome, _, _ => outcome

/-- `json.dumps` of a `node.invoke.result`. -/
def printed (frameId : PyStr) (response : Dict) : Except Exc (List Nat) :=
  encodeFrame env.dumpsRoom (makeReq frameId "node.invoke.result" response)

/-- `_send_invoke_result`. -/
def sendInvokeResult (base response : Dict) : SocketRun :=
  match env.printed env.frameId response with
  | .error exc => ⟨[], some exc⟩
  | .ok raw =>
    .send env.sendError
      (if maxInvokeResultBytes < raw.length then env.printed env.secondId (tooLarge base)
        else .ok raw)

end InvokeEnv

/-- `str(payload.get(key, ""))`. -/
def fieldText (payload : Dict) (key : PyStr) : PyStr := strOf (payload.getD key (.str []))

def invokeIdOf (payload : Dict) : PyStr := fieldText payload (py "id")

def nodeIdOf (payload : Dict) : PyStr := fieldText payload (py "nodeId")

def commandOf (payload : Dict) : PyStr := fieldText payload (py "command")

/-- `base`. -/
def baseFor (payload : Dict) : Dict := baseOf (invokeIdOf payload) (nodeIdOf payload)

section
variable [CaseMap]

/-- `_handle_invoke`. -/
def handleInvoke (env : InvokeEnv) (payload : Dict) : SocketRun :=
  let base := baseFor payload
  match decodeInvokeParams env.loadsRoom payload with
  | .error (.raised exc) => ⟨[], some exc⟩
  | .error (.refused code) =>
    env.sendInvokeResult base (failedResult base code (py "Malformed invoke params"))
  | .ok params =>
    match resolveInvokeCaller env.relay env.now params with
    -- the refusal of a caller is sent without a look at its size
    | .error refusal =>
      .send env.sendError
        (env.printed env.frameId (failedResult base refusal.code refusal.message))
    | .ok (caller, params) =>
      env.sendInvokeResult base (resultOf base (env.dispatched caller (commandOf payload) params))

end

/-- A frame is a `node.invoke.result` within the budget that carries the ids of the invoke and of its
node. -/
structure Answers (invokeId nodeId : PyStr) (raw : List Nat) : Prop where
  result : ∃ (room : Nat) (frameId : PyStr) (response : Dict),
    encodeFrame room (makeReq frameId "node.invoke.result" response) = .ok raw ∧
      response.get? (py "id") = some (.str invokeId) ∧
      response.get? (py "nodeId") = some (.str nodeId)
  fits : raw.length ≤ maxInvokeResultBytes

/-- One result of the invoke is handed to the socket, and only the socket raises. -/
def AnsweredOnce (sendError : Option Exc) (payload : Dict) (run : SocketRun) : Prop :=
  ∃ raw, run = ⟨[raw], sendError⟩ ∧ Answers (invokeIdOf payload) (nodeIdOf payload) raw

/-- `paramsJSON` can be encoded and, unless it is too long, is read without meeting an integer of
more than 4300 digits. -/
def Readable (room : Nat) (payload : Dict) : Prop :=
  ∀ text, payload.get? (py "paramsJSON") = some (.str text) → text ≠ [] →
    ∃ raw, encodeUtf8 text = some raw ∧
      (raw.length ≤ maxParamsJsonBytes → loads room text ≠ .error .intDigits)

/-- The call is handed to its handler, with these codes in its params. -/
def Handed [CaseMap] (env : InvokeEnv) (payload : Dict) (codes : List Json) : Prop :=
  ∃ decoded caller params, decodeInvokeParams env.loadsRoom payload = .ok decoded ∧
    resolveInvokeCaller env.relay env.now decoded = .ok (caller, params) ∧
    collectCodes (.dict params) = .ok codes ∧
    (registry env.denylist).lookup (commandOf payload) ≠ none ∧
    check caller (commandOf payload) params = none

/-- What the masking leaves of the handler's result can be printed. -/
def Writable [CaseMap] (env : InvokeEnv) (payload : Dict) : Prop :=
  ∀ codes result, Handed env payload codes → env.run = .ok (.dict result) →
    nesting (.dict result) ≤ env.walkRoom →
    dumpsError (env.dumpsRoom - 2) (scrubCodes codes (.dict result)) = none

/-! ## Frames -/

section
variable {room : Nat} {frameId invokeId nodeId : PyStr}

omit [Runtime] in
/-- A frame can be printed when the values of its params can. -/
theorem dumpsError_makeReq (hroom : 2 ≤ room) (frameId : PyStr) (method : String) (params : Dict) :
    dumpsError room (makeReq frameId method params) = none ↔
      ∀ kv ∈ params, dumpsError (room - 2) kv.2 = none := by
  have hframe : room ≠ 0 := by omega
  have hparams : room - 1 ≠ 0 := by omega
  rw [makeReq, obj, dumpsError, if_neg hframe, dumpsErrorDict_iff]
  simp only [List.map_cons, List.map_nil, List.forall_mem_cons, List.not_mem_nil, false_implies,
    implies_true, and_true, dumpsError, true_and, if_neg hparams, dumpsErrorDict_iff]
  rw [Nat.sub_sub]

omit [Runtime] in
theorem dumpsError_base : ∀ kv ∈ baseOf invokeId nodeId, dumpsError room kv.2 = none := by
  simp [baseOf, dumpsError]

omit [Runtime] in
theorem dumpsError_errorObject (hroom : room ≠ 0) (code message : PyStr) :
    dumpsError room (errorObject code message) = none := by
  rw [errorObject, obj, dumpsError, if_neg hroom, dumpsErrorDict_iff]
  simp [dumpsError]

omit [Runtime] in
theorem dumpsError_failedResult (hroom : room ≠ 0) (code message : PyStr) :
    ∀ kv ∈ failedResult (baseOf invokeId nodeId) code message, dumpsError room kv.2 = none := by
  rw [failedResult, List.forall_mem_append]
  refine ⟨dumpsError_base, ?_⟩
  simp [dumpsError, dumpsError_errorObject hroom]

omit [Runtime] in
/-- Only the payload of a result can fail to print. -/
theorem dumpsError_resultOf (hroom : room ≠ 0) (outcome : Except Failure Json) :
    (∀ kv ∈ resultOf (baseOf invokeId nodeId) outcome, dumpsError room kv.2 = none) ↔
      ∀ result, outcome = .ok (.dict result) → dumpsError room (.dict result) = none := by
  unfold resultOf
  split
  · rename_i result
    have herror := dumpsError_errorObject hroom
      (textOr (Dict.get? result (py "error")) (py "COMMAND_ERROR"))
      (textOr (Dict.get? result (py "message")) (py "Node command failed"))
    have hresponse : ∀ succeeded : Bool, (∀ kv ∈ baseOf invokeId nodeId ++
          [(py "ok", .bool succeeded), (py "payload", .dict result)],
        dumpsError room kv.2 = none) ↔ dumpsError room (.dict result) = none := by
      intro succeeded
      rw [List.forall_mem_append, and_iff_right dumpsError_base]
      simp [dumpsError]
    dsimp only
    split
    · rw [hresponse]
      simp
    · rw [List.forall_mem_append, hresponse]
      simp [herror]
  · rename_i value hvalue
    refine iff_of_true (dumpsError_failedResult hroom _ _) fun result heq => ?_
    exact absurd (Except.ok.inj heq) (hvalue result)
  · exact iff_of_true (dumpsError_failedResult hroom _ _) fun result heq => by cases heq
  · exact iff_of_true (dumpsError_failedResult hroom _ _) fun result heq => by cases heq

omit [Runtime] in
/-- What begins with the ids of its invoke carries them. -/
theorem get?_ids (rest : Dict) :
    Dict.get? (baseOf invokeId nodeId ++ rest) (py "id") = some (.str invokeId) ∧
      Dict.get? (baseOf invokeId nodeId ++ rest) (py "nodeId") = some (.str nodeId) := by
  have hother : py "nodeId" ≠ py "id" := by decide
  rw [Dict.get?_append, Dict.get?_append, baseOf, Dict.get?_cons, if_pos rfl, Option.some_or,
    Dict.get?_cons, if_neg hother, Dict.get?_cons, if_pos rfl, Option.some_or]
  exact ⟨rfl, rfl⟩

omit [Runtime] in
theorem resultOf_eq_append (invokeId nodeId : PyStr) (outcome : Except Failure Json) :
    ∃ rest, resultOf (baseOf invokeId nodeId) outcome = baseOf invokeId nodeId ++ rest := by
  unfold resultOf
  split
  · dsimp only
    split
    · exact ⟨_, rfl⟩
    · exact ⟨_, List.append_assoc _ _ _⟩
  · exact ⟨_, rfl⟩
  · exact ⟨_, rfl⟩
  · exact ⟨_, rfl⟩

omit [Runtime] in
theorem length_failedFrame (frameId invokeId nodeId code message : PyStr) :
    (dumpsText (makeReq frameId "node.invoke.result"
      (failedResult (baseOf invokeId nodeId) code message))).length ≤
        12 * (frameId.length + invokeId.length + nodeId.length + code.length + message.length) +
          1000 := by
  have hname : ∀ name ∈ [py "type", py "req", py "id", py "method", py "node.invoke.result",
      py "params", py "nodeId", py "ok", py "error", py "code", py "message"],
      (dumpsStr name).length ≤ 40 := by decide
  simp only [List.forall_mem_cons] at hname
  obtain ⟨htype, hreq, hid, hmethod, hresult, hparams, hnode, hok, herror, hcode, hmessage, -⟩ :=
    hname
  have hframe := length_dumpsStr frameId
  have hinvoke := length_dumpsStr invokeId
  have hnodeId := length_dumpsStr nodeId
  have hcodeText := length_dumpsStr code
  have hmessageText := length_dumpsStr message
  have hcolon : (py ": ").length = 2 := rfl
  have hcomma : (py ", ").length = 2 := rfl
  have hopen : (py "\x7b").length = 1 := rfl
  have hclose : (py "\x7d").length = 1 := rfl
  have hfalse : (py "false").length = 5 := rfl
  simp only [makeReq, obj, errorObject, failedResult, baseOf, dumpsText,
    dumpsMembers, joinWith, List.map_cons, List.map_nil, List.cons_append, List.nil_append,
    List.intercalate_cons_cons, List.intercalate_singleton, List.length_append, Bool.false_eq_true,
    if_false]
  omega

end

/-! ## What each part of the call does -/

/-- The decoding lets an exception out exactly when the text is not readable. -/
theorem readable_iff {room : Nat} {payload : Dict} :
    Readable room payload ↔ ∀ exc, decodeInvokeParams room payload ≠ .error (.raised exc) := by
  unfold Readable decodeInvokeParams
  split
  · rename_i c rest htext
    simp only [htext, Option.some.injEq, Json.str.injEq, forall_eq', ne_eq, List.cons_ne_nil,
      not_false_eq_true, forall_const]
    cases hencoded : encodeUtf8 (c :: rest) with
    | none => simp
    | some raw =>
      simp only [Option.some.injEq, exists_eq_left']
      split
      · rename_i hlong
        exact iff_of_true (fun hle => absurd hle (by omega)) nofun
      · rename_i hshort
        rw [forall_prop_of_true (by omega)]
        unfold decodedParams
        cases hloads : loads room (c :: rest) with
        | error err => cases err <;> simp [invalidParams, requestTooLarge]
        | ok value =>
          refine iff_of_true nofun ?_
          cases value with
          | dict params =>
            dsimp only
            split <;> simp [requestTooLarge]
          | _ => exact nofun
  · rename_i hother
    refine iff_of_true (fun text htext hne => ?_) nofun
    obtain ⟨c, rest, rfl⟩ := List.exists_cons_of_ne_nil hne
    exact absurd htext (hother c rest)

/-- The masking keeps a dictionary a dictionary. -/
theorem dict_of_scrubCodes {codes : List Json} {value : Json} {entries : Dict}
    (h : scrubCodes codes value = .dict entries) : ∃ result, value = .dict result := by
  unfold scrubCodes at h
  cases value with
  | dict result => exact ⟨result, rfl⟩
  | int i =>
    rw [walk] at h
    split at h <;> cases h
  | float x =>
    rw [walk] at h
    split at h <;> cases h
  | _ => cases h

/-- A refusal of the policy is printable, masked or not. -/
theorem dumpsError_refusal {room : Nat} (hroom : room ≠ 0) (codes : List Json) (code : String)
    (message : PyStr) : dumpsError room (scrubCodes codes (error code message)) = none := by
  have hvalue : ∀ v ∈ [Json.bool false, .str (py code), .str message], ∀ forms mask room',
      dumpsError room' (walk codes forms mask v) = none := by
    simp [walk, dumpsError]
  show dumpsError room (.dict (Dict.update [] (walkMembers codes _ _ _))) = none
  rw [dumpsError, if_neg hroom, dumpsErrorDict_iff]
  intro kv hkv
  rcases Dict.mem_update hkv with hnil | hmem
  · cases hnil
  · rw [walkMembers_eq_map] at hmem
    obtain ⟨entry, hentry, rfl⟩ := List.mem_map.mp hmem
    apply hvalue
    exact List.mem_map_of_mem (f := Prod.snd) hentry

section
variable {env : InvokeEnv} {payload : Dict}

/-- A dictionary that leaves the dispatcher is a masked refusal or the masked result of the handler
that was called. -/
theorem dispatched_dict {caller : Caller} {command : PyStr} {params entries : Dict}
    (h : env.dispatched caller command params = .ok (.dict entries)) :
    ∃ codes, collectCodes (.dict params) = .ok codes ∧
      ((∃ code message, .dict entries = scrubCodes codes (error code message)) ∨
        ∃ result, (registry env.denylist).lookup command ≠ none ∧
          check caller command params = none ∧ env.run = .ok (.dict result) ∧
          nesting (.dict result) ≤ env.walkRoom ∧
          .dict entries = scrubCodes codes (.dict result)) := by
  unfold InvokeEnv.dispatched dispatchAsync at h
  cases hcodes : collectCodes (.dict params) with
  | error exc =>
    rw [hcodes] at h
    cases h
  | ok codes =>
  refine ⟨codes, rfl, ?_⟩
  cases hlookup : (registry env.denylist).lookup command with
  | none =>
    rw [hcodes, hlookup] at h
    cases h
  | some registered =>
  cases hcheck : check caller command params with
  | some refusal =>
    left
    obtain ⟨code, message, rfl⟩ := refusal_of_check hcheck
    rw [hcodes, hlookup, hcheck] at h
    exact ⟨code, message, (Except.ok.inj h).symm⟩
  | none =>
  right
  cases hrun : env.run with
  | error failure =>
    rw [hcodes, hlookup, hcheck, hrun] at h
    dsimp only at h
    split_ifs at h
  | ok value =>
    rw [hcodes, hlookup, hcheck, hrun] at h
    dsimp only at h
    split_ifs at h with hdeep
    have hscrubbed := Except.ok.inj h
    obtain ⟨result, rfl⟩ := dict_of_scrubCodes hscrubbed
    exact ⟨result, by simp, rfl, rfl, by omega, hscrubbed.symm⟩

/-- The handler that a call is handed to decides what leaves the dispatcher. -/
theorem dispatched_handed {caller : Caller} {command : PyStr} {params result : Dict}
    {codes : List Json} (hcodes : collectCodes (.dict params) = .ok codes)
    (hlookup : (registry env.denylist).lookup command ≠ none)
    (hcheck : check caller command params = none) (hrun : env.run = .ok (.dict result))
    (hdepth : nesting (.dict result) ≤ env.walkRoom) :
    env.dispatched caller command params = .ok (scrubCodes codes (.dict result)) := by
  obtain ⟨registered, hregistered⟩ := Option.ne_none_iff_exists'.mp hlookup
  unfold InvokeEnv.dispatched dispatchAsync
  rw [hcodes, hregistered, hcheck, hrun]
  exact if_neg (by omega)

end

/-! ## One answer -/

section
variable {env : InvokeEnv} {payload : Dict}

/-- The ids of a result leave room for what the node says in it. -/
def ShortIds (payload : Dict) : Prop :=
  (invokeIdOf payload).length + (nodeIdOf payload).length ≤ 1000000

omit [Runtime] in
theorem printed_of_room (env : InvokeEnv) (frameId : PyStr) {response : Dict}
    (h : ∀ kv ∈ response, dumpsError (env.dumpsRoom - 2) kv.2 = none) :
    env.printed frameId response =
      .ok ((dumpsText (makeReq frameId "node.invoke.result" response)).map Fin.val) := by
  have hroom := env.three_le
  apply encodeFrame_of_room
  exact (dumpsError_makeReq (by omega) _ _ _).mpr h

theorem answers_of_printed {frameId : PyStr} {response : Dict} {raw : List Nat}
    (h : env.printed frameId response = .ok raw)
    (hids : ∃ rest, response = baseFor payload ++ rest) (hfits : raw.length ≤ maxInvokeResultBytes) :
    Answers (invokeIdOf payload) (nodeIdOf payload) raw := by
  have ⟨rest, hresponse⟩ := hids
  exact ⟨⟨_, frameId, response, h, hresponse ▸ get?_ids rest⟩, hfits⟩

theorem dumpsError_failed (env : InvokeEnv) (payload : Dict) (code message : PyStr) :
    ∀ kv ∈ failedResult (baseFor payload) code message,
      dumpsError (env.dumpsRoom - 2) kv.2 = none := by
  have hroom := env.three_le
  exact dumpsError_failedResult (by omega) code message

/-- A result that the node makes itself is printed and fits. -/
theorem failed_answers (env : InvokeEnv) (hshort : ShortIds payload) {frameId : PyStr}
    (hframe : frameId.length = 36) {code message : PyStr}
    (htexts : code.length + message.length ≤ 1000) :
    ∃ raw, env.printed frameId (failedResult (baseFor payload) code message) = .ok raw ∧
      Answers (invokeIdOf payload) (nodeIdOf payload) raw := by
  have hprinted := printed_of_room env frameId (dumpsError_failed env payload code message)
  refine ⟨_, hprinted, answers_of_printed hprinted ⟨_, rfl⟩ ?_⟩
  have hlength : (dumpsText (makeReq frameId "node.invoke.result"
      (failedResult (baseFor payload) code message))).length ≤ _ :=
    length_failedFrame frameId (invokeIdOf payload) (nodeIdOf payload) code message
  unfold ShortIds at hshort
  rw [List.length_map]
  unfold maxInvokeResultBytes
  omega

/-- A run that sends nothing answers nothing. -/
theorem not_answered_nil {sendError : Option Exc} {payload : Dict} {raised : Option Exc} :
    ¬ AnsweredOnce sendError payload ⟨[], raised⟩ := by
  rintro ⟨raw, hrun, -⟩
  simp at hrun

/-- `_send_invoke_result` answers when the result can be printed. -/
theorem sendInvokeResult_answered (hshort : ShortIds payload) {response : Dict}
    (hids : ∃ rest, response = baseFor payload ++ rest)
    (hprint : ∀ kv ∈ response, dumpsError (env.dumpsRoom - 2) kv.2 = none) :
    AnsweredOnce env.sendError payload (env.sendInvokeResult (baseFor payload) response) := by
  unfold InvokeEnv.sendInvokeResult
  have hprinted := printed_of_room env env.frameId hprint
  rw [hprinted]
  dsimp only
  split
  · have htexts : (py "RESULT_TOO_LARGE").length +
        (py "Command ran but its result exceeds the size limit").length ≤ 1000 := by decide
    obtain ⟨raw, hraw, hanswers⟩ := failed_answers env hshort env.secondId_length htexts
    rw [tooLarge, hraw]
    exact ⟨raw, rfl, hanswers⟩
  · rename_i hfits
    exact ⟨_, rfl, answers_of_printed hprinted hids (by omega)⟩

omit [Runtime] in
/-- The first `json.dumps` stands outside every `try`. -/
theorem sendInvokeResult_lost (base : Dict) {response : Dict}
    (hprint : ¬ ∀ kv ∈ response, dumpsError (env.dumpsRoom - 2) kv.2 = none) :
    ∃ exc, env.sendInvokeResult base response = ⟨[], some exc⟩ := by
  have hroom := env.three_le
  rw [← dumpsError_makeReq (by omega) env.frameId "node.invoke.result"] at hprint
  obtain ⟨err, herr⟩ := Option.ne_none_iff_exists'.mp hprint
  unfold InvokeEnv.sendInvokeResult
  rw [InvokeEnv.printed, encodeFrame_eq, herr]
  exact ⟨_, rfl⟩

section
variable [CaseMap]

omit [Runtime] in
theorem refusal_short {relay : Option Relay} {now : Int} {params : Dict} {refusal : CallerRefused}
    (h : resolveInvokeCaller relay now params = .error refusal) :
    refusal.code.length + refusal.message.length ≤ 1000 := by
  have hmalformed : ∀ {params : Dict} {refusal : CallerRefused},
      popCallerHint params = .error refusal →
        refusal.code.length + refusal.message.length ≤ 1000 := by
    intro params refusal h
    unfold popCallerHint at h
    split at h
    · cases h
    · split at h
      · cases h
        decide
      · cases h
  unfold resolveInvokeCaller at h
  split at h
  · rename_i hrefused
    cases h
    exact hmalformed hrefused
  · cases h
  · split at h
    · cases h
    · split at h <;> cases h <;> decide

/-- What the dispatcher did can be printed exactly when the handler's result can. -/
theorem writable_iff {decoded params : Dict} {caller : Caller}
    (hdecoded : decodeInvokeParams env.loadsRoom payload = .ok decoded)
    (hcaller : resolveInvokeCaller env.relay env.now decoded = .ok (caller, params)) :
    Writable env payload ↔ ∀ result,
      env.dispatched caller (commandOf payload) params = .ok (.dict result) →
        dumpsError (env.dumpsRoom - 2) (.dict result) = none := by
  have hroom := env.three_le
  constructor
  · intro h entries hdispatched
    obtain ⟨codes, hcodes, ⟨code, message, heq⟩ | ⟨result, hlookup, hcheck, hrun, hdepth, heq⟩⟩ :=
      dispatched_dict hdispatched
    · rw [heq]
      exact dumpsError_refusal (by omega) codes code message
    · rw [heq]
      exact h codes result ⟨decoded, caller, params, hdecoded, hcaller, hcodes, hlookup, hcheck⟩
        hrun hdepth
  · rintro h codes result ⟨decoded', caller', params', hdecoded', hcaller', hcodes, hlookup, hcheck⟩
      hrun hdepth
    rw [hdecoded] at hdecoded'
    cases hdecoded'
    rw [hcaller] at hcaller'
    cases hcaller'
    exact h _ (dispatched_handed hcodes hlookup hcheck hrun hdepth)

/-- A call that decodes to no params is handed to no handler. -/
theorem writable_of_error {failure : ParamsFailure}
    (h : decodeInvokeParams env.loadsRoom payload = .error failure) : Writable env payload := by
  rintro codes result ⟨decoded, caller, params, hdecoded, -⟩
  rw [h] at hdecoded
  cases hdecoded

theorem writable_of_refusal {decoded : Dict} {refusal : CallerRefused}
    (hdecoded : decodeInvokeParams env.loadsRoom payload = .ok decoded)
    (hcaller : resolveInvokeCaller env.relay env.now decoded = .error refusal) :
    Writable env payload := by
  rintro codes result ⟨decoded', caller, params, hdecoded', hcaller', -⟩
  rw [hdecoded] at hdecoded'
  cases hdecoded'
  rw [hcaller] at hcaller'
  cases hcaller'

/-- The invoke is answered, or nothing is sent and the exception leaves `_handle_invoke`. -/
theorem handleInvoke_cases (env : InvokeEnv) {payload : Dict} (hshort : ShortIds payload) :
    (Readable env.loadsRoom payload ∧ Writable env payload ∧
        AnsweredOnce env.sendError payload (handleInvoke env payload)) ∨
      (¬ (Readable env.loadsRoom payload ∧ Writable env payload) ∧
        ∃ exc, handleInvoke env payload = ⟨[], some exc⟩) := by
  have hroom := env.three_le
  have hreadable : Readable env.loadsRoom payload ↔ _ := readable_iff
  unfold handleInvoke
  cases hdecoded : decodeInvokeParams env.loadsRoom payload with
  | error failure =>
    cases failure with
    | raised exc =>
      right
      exact ⟨fun h => hreadable.mp h.1 exc hdecoded, exc, rfl⟩
    | refused code =>
      left
      refine ⟨hreadable.mpr (by simp [hdecoded]), writable_of_error hdecoded, ?_⟩
      exact sendInvokeResult_answered hshort ⟨_, rfl⟩ (dumpsError_failed env payload _ _)
  | ok decoded =>
    have hok : Readable env.loadsRoom payload := hreadable.mpr (by simp [hdecoded])
    dsimp only
    cases hcaller : resolveInvokeCaller env.relay env.now decoded with
    | error refusal =>
      left
      refine ⟨hok, writable_of_refusal hdecoded hcaller, ?_⟩
      obtain ⟨raw, hraw, hanswers⟩ := failed_answers env hshort env.frameId_length
        (refusal_short hcaller)
      dsimp only
      rw [hraw]
      exact ⟨raw, rfl, hanswers⟩
    | ok resolved =>
      obtain ⟨caller, params⟩ := resolved
      have hprint : (∀ kv ∈ resultOf (baseFor payload)
            (env.dispatched caller (commandOf payload) params),
          dumpsError (env.dumpsRoom - 2) kv.2 = none) ↔ Writable env payload := by
        rw [writable_iff hdecoded hcaller]
        exact dumpsError_resultOf (by omega) _
      by_cases hwritable : Writable env payload
      · left
        refine ⟨hok, hwritable, ?_⟩
        exact sendInvokeResult_answered hshort (resultOf_eq_append _ _ _) (hprint.mpr hwritable)
      · right
        refine ⟨fun h => hwritable h.2, ?_⟩
        exact sendInvokeResult_lost _ fun h => hwritable (hprint.mp h)

/-- An invoke is answered exactly once if its params are readable and its handler's result is
writable; else it is not answered and `_handle_invoke` raises. -/
theorem invoke_answered (env : InvokeEnv) {payload : Dict} (hshort : ShortIds payload) :
    (AnsweredOnce env.sendError payload (handleInvoke env payload) ↔
        Readable env.loadsRoom payload ∧ Writable env payload) ∧
      (¬ (Readable env.loadsRoom payload ∧ Writable env payload) →
        ∃ exc, handleInvoke env payload = ⟨[], some exc⟩) := by
  rcases handleInvoke_cases env hshort with ⟨hreadable, hwritable, hanswered⟩ | ⟨hnot, exc, hrun⟩
  · exact ⟨iff_of_true hanswered ⟨hreadable, hwritable⟩, fun h => absurd ⟨hreadable, hwritable⟩ h⟩
  · refine ⟨iff_of_false ?_ hnot, fun _ => ⟨exc, hrun⟩⟩
    rw [hrun]
    exact not_answered_nil

/-! ## The drain -/

/-- The invoke id and the payload of a pending action, with `paramsJSON` filled in; nothing for a
malformed one, which is skipped. -/
def pendingInvoke : Json → Option (PyStr × Dict)
  | .dict action =>
    match Dict.get? action (py "id"), Dict.get? action (py "command") with
    | some (.str (i :: actionId)), some (.str (_ :: _)) =>
      if Dict.getD action (py "paramsJSON") .null ∈ [.null, .str []] then
        some (i :: actionId, Dict.set action (py "paramsJSON") (.str (py "\x7b\x7d")))
      else some (i :: actionId, action)
    | _, _ => none
  | _ => none

/-- An element of the pulled list, and what the world supplies while it is handled. -/
structure Pulled where
  action : Json
  env : InvokeEnv
  /-- `str(uuid.uuid4())` of the acknowledgement. -/
  ackId : PyStr
  /-- What `ws.send` raises for the acknowledgement. -/
  ackError : Option Exc
  /-- The frame that is received next; nothing on a timeout and when the connection closes. -/
  reply : Option PyStr

/-- What follows a call when it has not raised. -/
def SocketRun.andThen (run next : SocketRun) : SocketRun :=
  match run.raised with
  | some _ => run
  | none => ⟨run.sent ++ next.sent, next.raised⟩

/-- `json.dumps` of the `node.pending.ack` for an invoke. -/
def Pulled.ackFrame (p : Pulled) (invokeId : PyStr) : Except Exc (List Nat) :=
  encodeFrame p.env.dumpsRoom
    (makeReq p.ackId "node.pending.ack" [(py "ids", .list [.str invokeId])])

/-- What `_ack_pending` raises over the frame that it receives. -/
def Pulled.replyError (p : Pulled) : Option Exc :=
  match p.reply with
  | none => none
  | some text =>
    match loads p.env.loadsRoom text with
    | .ok (.dict _) => none
    | .ok _ => some (.other (py "AttributeError"))
    | .error .recursion => some (.other (py "RecursionError"))
    | .error _ => some (.other (py "ValueError"))

/-- `_ack_pending`. -/
def Pulled.ackPending (p : Pulled) (invokeId : PyStr) : SocketRun :=
  (SocketRun.send p.ackError (p.ackFrame invokeId)).andThen ⟨[], p.replyError⟩

/-- The loop of `_pull_pending` over the pulled actions. -/
def drain : List Pulled → SocketRun
  | [] => ⟨[], none⟩
  | p :: rest =>
    match pendingInvoke p.action with
    | none => drain rest
    | some (invokeId, payload) =>
      (handleInvoke p.env payload).andThen ((p.ackPending invokeId).andThen (drain rest))

/-- Nothing raises over the element: it can be answered, the socket takes the answer and the
acknowledgement, and the frame that follows decodes to an object. -/
def Pulled.Undisturbed (p : Pulled) : Prop :=
  ∀ invokeId payload, pendingInvoke p.action = some (invokeId, payload) →
    (Readable p.env.loadsRoom payload ∧ Writable p.env payload ∧ p.env.sendError = none) ∧
      p.ackError = none ∧ p.replyError = none

/-- The element was skipped, or it was answered and acknowledged. -/
def Pulled.Done (p : Pulled) (sent : List (List Nat)) : Prop :=
  match pendingInvoke p.action with
  | none => sent = []
  | some (invokeId, payload) => ∃ answer ack, sent = [answer, ack] ∧
      Answers invokeId (nodeIdOf payload) answer ∧ p.ackFrame invokeId = .ok ack

omit [Runtime] [CaseMap] in
@[simp] theorem SocketRun.andThen_raised (run next : SocketRun) :
    (run.andThen next).raised = none ↔ run.raised = none ∧ next.raised = none := by
  unfold SocketRun.andThen
  cases hraised : run.raised <;> simp [hraised]

omit [Runtime] [CaseMap] in
theorem SocketRun.andThen_sent {run next : SocketRun} (h : run.raised = none) :
    (run.andThen next).sent = run.sent ++ next.sent := by
  unfold SocketRun.andThen
  rw [h]

omit [Runtime] [CaseMap] in
/-- An acknowledgement can always be printed. -/
theorem Pulled.ackFrame_ok (p : Pulled) (invokeId : PyStr) :
    ∃ raw, p.ackFrame invokeId = .ok raw := by
  have hroom := p.env.three_le
  refine ⟨_, encodeFrame_of_room ((dumpsError_makeReq (by omega) _ _ _).mpr ?_)⟩
  simp [dumpsError, dumpsErrorList]
  omega

omit [CaseMap] in
/-- The payload carries the id that is acknowledged. -/
theorem invokeIdOf_pending {action : Json} {invokeId : PyStr} {payload : Dict}
    (h : pendingInvoke action = some (invokeId, payload)) : invokeIdOf payload = invokeId := by
  unfold pendingInvoke at h
  split at h
  · rename_i action
    split at h
    · rename_i hid _
      split at h
      · cases h
        simp [invokeIdOf, fieldText, Dict.getD, Dict.get?_set, hid, strOf]
      · cases h
        simp [invokeIdOf, fieldText, Dict.getD, hid, strOf]
    · cases h
  · cases h

/-- One element: nothing is raised exactly when it is undisturbed, and then it is done. -/
theorem handled_pending {p : Pulled} {invokeId : PyStr} {payload : Dict}
    (hshort : ShortIds payload) (hpending : pendingInvoke p.action = some (invokeId, payload)) :
    ((handleInvoke p.env payload).raised = none ∧ (p.ackPending invokeId).raised = none ↔
        p.Undisturbed) ∧
      ((handleInvoke p.env payload).raised = none → (p.ackPending invokeId).raised = none →
        p.Done ((handleInvoke p.env payload).sent ++ (p.ackPending invokeId).sent)) := by
  obtain ⟨ack, hack⟩ := p.ackFrame_ok invokeId
  have hacked : p.ackPending invokeId = (SocketRun.mk [ack] p.ackError).andThen ⟨[], p.replyError⟩ := by
    rw [Pulled.ackPending, hack]
    rfl
  have hundisturbed : p.Undisturbed ↔ (Readable p.env.loadsRoom payload ∧ Writable p.env payload ∧
      p.env.sendError = none) ∧ p.ackError = none ∧ p.replyError = none := by
    simp [Pulled.Undisturbed, hpending]
  rw [hundisturbed, hacked, SocketRun.andThen_raised]
  rcases handleInvoke_cases p.env hshort with ⟨hreadable, hwritable, raw, hrun, hanswers⟩ |
    ⟨hnot, exc, hrun⟩
  · rw [hrun]
    refine ⟨by simp [hreadable, hwritable], ?_⟩
    rintro - ⟨hsend, -⟩
    rw [SocketRun.andThen_sent hsend]
    unfold Pulled.Done
    rw [hpending]
    rw [invokeIdOf_pending hpending] at hanswers
    exact ⟨raw, ack, rfl, hanswers, hack⟩
  · rw [hrun]
    refine ⟨iff_of_false (fun h => nomatch h.1) fun h => hnot ⟨h.1.1, h.1.2.1⟩, fun h => nomatch h⟩

/-- Draining raises nothing exactly when no element disturbs it; then every well-formed element has
been answered and acknowledged, in the order of the list. -/
theorem drain_acknowledged {pulled : List Pulled} (hshort : ∀ p ∈ pulled, ∀ invokeId payload,
      pendingInvoke p.action = some (invokeId, payload) → ShortIds payload) :
    ((drain pulled).raised = none ↔ ∀ p ∈ pulled, p.Undisturbed) ∧
      ((drain pulled).raised = none →
        ∃ parts, (drain pulled).sent = parts.flatten ∧ List.Forall₂ Pulled.Done pulled parts) := by
  induction pulled with
  | nil => exact ⟨by simp [drain], fun _ => ⟨[], rfl, .nil⟩⟩
  | cons p rest ih =>
    obtain ⟨hraised, hsent⟩ := ih fun q hq => hshort q (List.mem_cons_of_mem _ hq)
    rw [List.forall_mem_cons, ← hraised, drain]
    cases hpending : pendingInvoke p.action with
    | none =>
      have hundisturbed : p.Undisturbed := by simp [Pulled.Undisturbed, hpending]
      refine ⟨by simp [hundisturbed], fun h => ?_⟩
      obtain ⟨parts, hparts, hall⟩ := hsent h
      refine ⟨[] :: parts, by simpa using hparts, .cons ?_ hall⟩
      simp [Pulled.Done, hpending]
    | some pending =>
      obtain ⟨invokeId, payload⟩ := pending
      obtain ⟨hone, hdone⟩ := handled_pending (hshort p List.mem_cons_self _ _ hpending) hpending
      dsimp only
      rw [SocketRun.andThen_raised, SocketRun.andThen_raised, ← hone]
      refine ⟨and_assoc.symm, fun ⟨hhandled, hacked, hrest⟩ => ?_⟩
      obtain ⟨parts, hparts, hall⟩ := hsent hrest
      refine ⟨_ :: parts, ?_, .cons (hdone hhandled hacked) hall⟩
      rw [SocketRun.andThen_sent hhandled, SocketRun.andThen_sent hacked, hparts, List.flatten_cons,
        List.append_assoc]

end

end

end

/-! ## A ping and a lone surrogate -/

namespace PingSample

scoped instance runtime : Runtime := .ofTable []

scoped instance caseMap : CaseMap := .ascii

/-- A node without a relay, whose handler returns a result. -/
def sampleEnv : InvokeEnv where
  loadsRoom := 10
  walkRoom := 10
  dumpsRoom := 10
  three_le := by decide
  relay := none
  now := 0
  denylist := []
  run := .ok (.dict [(py "ok", .bool true)])
  frameId := List.replicate 36 48
  secondId := List.replicate 36 49
  frameId_length := rfl
  secondId_length := rfl
  sendError := none

def pingPayload (paramsJson : PyStr) : Dict :=
  [(py "id", .str (py "a1")), (py "nodeId", .str (py "n1")), (py "command", .str (py "ping")),
    (py "paramsJSON", .str paramsJson)]

theorem ping_shortIds (paramsJson : PyStr) : ShortIds (pingPayload paramsJson) := by
  show (py "a1").length + (py "n1").length ≤ 1000000
  decide

theorem ping_answerable : Readable sampleEnv.loadsRoom (pingPayload (py "\x7b\x7d")) ∧
    Writable sampleEnv (pingPayload (py "\x7b\x7d")) := by
  have hdecoded : decodeInvokeParams 10 (pingPayload (py "\x7b\x7d")) = .ok [] := rfl
  have hcaller : resolveInvokeCaller none 0 [] = .ok (invokeCaller, []) := rfl
  constructor
  · apply readable_iff.mpr
    intro exc heq
    rw [show sampleEnv.loadsRoom = 10 from rfl, hdecoded] at heq
    cases heq
  · apply (writable_iff hdecoded hcaller).mpr
    intro result hresult
    have hrun : sampleEnv.dispatched invokeCaller (py "ping") [] = .ok (.dict [(py "ok", .bool true)]) := rfl
    rw [show commandOf (pingPayload _) = py "ping" from rfl, hrun] at hresult
    cases hresult
    rfl

/-- A pending ping with these params, whose acknowledgement is replied to. -/
def samplePulled (paramsJson : PyStr) : Pulled where
  action := .dict (pingPayload paramsJson)
  env := sampleEnv
  ackId := List.replicate 36 50
  ackError := none
  reply := some (py "\x7b\x7d")

/-- Two pings with a malformed element between them. -/
def twoPings : List Pulled :=
  [samplePulled (py "\x7b\x7d"), { samplePulled [] with action := .null }, samplePulled (py "\x7b\x7d")]

end PingSample

section
open PingSample

/-- A ping is answered; with a lone surrogate for its params it is not. -/
theorem invoke_answered_ping :
    AnsweredOnce none (pingPayload (py "\x7b\x7d"))
        (handleInvoke sampleEnv (pingPayload (py "\x7b\x7d"))) ∧
      ∃ exc, handleInvoke sampleEnv (pingPayload [0xD800]) = ⟨[], some exc⟩ := by
  constructor
  · exact (invoke_answered sampleEnv (ping_shortIds _)).1.mpr ping_answerable
  · apply (invoke_answered sampleEnv (ping_shortIds _)).2
    rintro ⟨hreadable, -⟩
    obtain ⟨raw, hraw, -⟩ := hreadable [0xD800] rfl (by decide)
    cases hraw

/-- Two pings with a malformed element between them are answered and acknowledged; a lone surrogate
keeps the drain from what stands behind it. -/
theorem drain_acknowledged_pings :
    (drain twoPings).raised = none ∧
      (∃ parts, (drain twoPings).sent = parts.flatten ∧ List.Forall₂ Pulled.Done twoPings parts) ∧
      (drain [samplePulled [0xD800], samplePulled (py "\x7b\x7d")]).raised ≠ none := by
  have hpending : ∀ c paramsJson, pendingInvoke (samplePulled (c :: paramsJson)).action =
      some (py "a1", pingPayload (c :: paramsJson)) := fun _ _ => rfl
  have hshort : ∀ c paramsJson invokeId payload, pendingInvoke (samplePulled (c :: paramsJson)).action =
      some (invokeId, payload) → ShortIds payload := by
    intro c paramsJson invokeId payload heq
    rw [hpending] at heq
    cases heq
    exact ping_shortIds _
  have hmalformed : pendingInvoke .null = none := rfl
  have hpings : ∀ p ∈ twoPings, ∀ invokeId payload,
      pendingInvoke p.action = some (invokeId, payload) → ShortIds payload := by
    simp only [twoPings, List.forall_mem_cons, hmalformed]
    exact ⟨hshort _ _, by simp, hshort _ _, List.forall_mem_nil _⟩
  have hundisturbed : (samplePulled (py "\x7b\x7d")).Undisturbed := by
    intro invokeId payload heq
    cases (hpending _ _).symm.trans heq
    exact ⟨⟨ping_answerable.1, ping_answerable.2, rfl⟩, rfl, rfl⟩
  have hquiet : (drain twoPings).raised = none := by
    apply (drain_acknowledged hpings).1.mpr
    simp only [twoPings, List.forall_mem_cons]
    exact ⟨hundisturbed, by simp [Pulled.Undisturbed, hmalformed], hundisturbed, List.forall_mem_nil _⟩
  refine ⟨hquiet, (drain_acknowledged hpings).2 hquiet, ?_⟩
  intro hnone
  have hall : ∀ p ∈ [samplePulled [0xD800], samplePulled (py "\x7b\x7d")], ∀ invokeId payload,
      pendingInvoke p.action = some (invokeId, payload) → ShortIds payload := by
    simp only [List.forall_mem_cons]
    exact ⟨hshort _ _, hshort _ _, List.forall_mem_nil _⟩
  have hundisturbed := (drain_acknowledged hall).1.mp hnone _ List.mem_cons_self _ _ (hpending _ _)
  obtain ⟨raw, hraw, -⟩ := hundisturbed.1.1 [0xD800] rfl (by decide)
  cases hraw

end

end HassNode.GatewayWs
