import HassNode.Commands.Masking
import HassNode.Dispatcher

/-!
# One invoke

The way of a decoded `node.invoke.request` through `commands/dispatcher.py` and back over
`gateway_ws.py`: `dispatch_async` with its masking, the `node.invoke.result` that `_handle_invoke`
makes of it, and the bound on its size.
-/

namespace HassNode.GatewayWs

open Py HaClient Authz EffectPolicy Dispatcher

/-- What leaves `dispatch_async` instead of a result. -/
inductive Failure where
  | unknownCommand (command : PyStr)   -- `UnknownCommandError`
  | raised (exc : Exc)

section
variable [Runtime]

/-- `dispatch_async`, where `run` is what the registered handler does when it is called. -/
def dispatchAsync (denylist : List PyStr) (caller : Caller) (command : PyStr) (params : Dict)
    (run : Except Failure Json) : Except Failure Json :=
  match collectCodes (.dict params) with
  | .error exc => .error (.raised exc)
  | .ok codes =>
    match (registry denylist).lookup command with
    | none =>
      .error (.unknownCommand (maskText (orderedForms codes) (maskFor (orderedForms codes)) command))
    | some _ =>
      match check caller command params with
      | some refusal => .ok (scrubCodes codes refusal)
      | none =>
        match run with
        | .ok result => .ok (scrubCodes codes result)
        | .error failure =>
          -- detail is withheld as soon as a code is in play
          if codes = [] then .error failure
          else .error (.raised (.other (py "HandlerFailedError")))

end

/-! ## `node.invoke.result` -/

/-- `_MAX_INVOKE_RESULT_BYTES`. -/
def maxInvokeResultBytes : Nat := 24 * 1024 * 1024

/-- `_make_req`. -/
def makeReq (frameId : PyStr) (method : String) (params : Dict) : Json :=
  obj [("type", .str (py "req")), ("id", .str frameId), ("method", .str (py method)),
    ("params", .dict params)]

def baseOf (invokeId nodeId : PyStr) : Dict :=
  [(py "id", .str invokeId), (py "nodeId", .str nodeId)]

def errorObject (code message : PyStr) : Json := obj [("code", .str code), ("message", .str message)]

/-- A result with `ok: False`. -/
def failedResult (base : Dict) (code message : PyStr) : Dict :=
  base ++ [(py "ok", .bool false), (py "error", errorObject code message)]

def textOr (value : Option Json) (default : PyStr) : PyStr :=
  match value with
  | some (.str (c :: rest)) => c :: rest
  | _ => default

/-- The `node.invoke.result` that `_handle_invoke` makes of what the dispatcher did. -/
def resultOf (base : Dict) : Except Failure Json → Dict
  | .ok (.dict result) =>
    let succeeded : Bool := Dict.getD result (py "ok") (.bool true) = .bool true
    let response := base ++ [(py "ok", .bool succeeded), (py "payload", .dict result)]
    if succeeded then response
    else
      response ++ [(py "error", errorObject
        (textOr (Dict.get? result (py "error")) (py "COMMAND_ERROR"))
        (textOr (Dict.get? result (py "message")) (py "Node command failed")))]
  -- `result.get` raises
  | .ok _ => failedResult base (py "COMMAND_ERROR") (py "Internal command error")
  | .error (.unknownCommand command) => failedResult base (py "UNKNOWN_COMMAND") command
  | .error (.raised _) => failedResult base (py "COMMAND_ERROR") (py "Internal command error")

def tooLarge (base : Dict) : Dict :=
  failedResult base (py "RESULT_TOO_LARGE") (py "Command ran but its result exceeds the size limit")

/-- The exception of `json.dumps`. -/
def dumpException : DumpError → Exc
  | .recursion => .other (py "RecursionError")
  | .intDigits => .other (py "ValueError")

/-- `json.dumps(frame).encode()`. -/
def encodeFrame (room : Nat) (frame : Json) : Except Exc (List Nat) :=
  match dumps room frame with
  | .error err => .error (dumpException err)
  | .ok text =>
    match encodeUtf8 text with
    | none => .error (.other (py "UnicodeEncodeError"))
    | some raw => .ok raw

/-- `_send_invoke_result`: the params of the frame that it sends. -/
def boundedResult (room : Nat) (frameId : PyStr) (base response : Dict) : Except Exc Dict :=
  match encodeFrame room (makeReq frameId "node.invoke.result" response) with
  | .error exc => .error exc
  | .ok raw => if maxInvokeResultBytes < raw.length then .ok (tooLarge base) else .ok response

/-- `json.dumps` writes ASCII, so only `json.dumps` itself can fail. -/
theorem encodeFrame_eq (room : Nat) (frame : Json) : encodeFrame room frame =
    match dumpsError room frame with
    | some err => .error (dumpException err)
    | none => .ok ((dumpsText frame).map Fin.val) := by
  unfold encodeFrame dumps
  cases dumpsError room frame with
  | some err => rfl
  | none =>
    simp only
    rw [encodeUtf8_ascii (ascii_dumpsText frame)]

theorem encodeFrame_of_room {room : Nat} {frame : Json} (h : dumpsError room frame = none) :
    encodeFrame room frame = .ok ((dumpsText frame).map Fin.val) := by
  rw [encodeFrame_eq, h]

end HassNode.GatewayWs
