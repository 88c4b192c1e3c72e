import HassNode.Library.Binary64
import HassNode.Py.JsonDump

/-!
# Reconnecting to the gateway

`pairing.py` and the reconnect loop of `gateway_ws.py`: what `_recv_connect_response` makes of the
gateway's answer, the delay that `_next_reconnect_delay` takes from the failure, the instant that
`_format_retry_at_utc` logs, and `GatewayClient.run` around them.
-/

namespace HassNode.Reconnect

open Py

/-! ## Python numbers -/

/-- The decimal number that the digits stand for. -/
def decimalValue (d : ShortDigits) : ℚ :=
  ofDigitStr d.digits * 10 ^ (d.point - d.digits.length)

/-- The value of a float. -/
def binary64 : Double → Binary64
  | .nan => .nan
  | .inf neg => .inf neg
  | .zero _ => .finite 0
  | .dec neg d => .ofRat (if neg then -decimalValue d else decimalValue d)

/-- What an exception handler sees of an exception. -/
inductive Raised where
  | pairing (code message : PyStr) (retryAfterMs : Option Binary64)
  /-- Any other exception, by its `repr`. -/
  | other (text : PyStr)

section
variable [Runtime]

/-- `repr(exc)`; `PairingError.__init__` passes `code: message` on. -/
def Raised.repr : Raised → PyStr
  | .pairing code message _ =>
    py "PairingError(" ++ Py.reprStr (code ++ py ": " ++ message) ++ py ")"
  | .other text => text

/-! ## The connect response -/

/-- `_decode_error_code`. -/
def decodeErrorCode : Json → Option PyStr
  | .dict raw =>
    match Dict.get? raw (py "code") with
    | some (.str code) => some code
    | _ => none
  | _ => none

/-- `repr` of a value, within the interpreter's room for nested containers. -/
def reprWithin (room : Nat) (v : Json) : Except Raised PyStr :=
  match dumpsError room v with
  | some .recursion => .error (.other (py "RecursionError('maximum recursion depth exceeded')"))
  | some .intDigits => .error (.other (py "ValueError('Exceeds the limit (4300 digits)')"))
  | none => .ok (Py.repr v)

/-- `_decode_error_message`. -/
def decodeErrorMessage (room : Nat) : Json → Except Raised PyStr
  | .dict raw =>
    let message := match Dict.get? raw (py "message") with
      | some (.str (c :: rest)) => [c :: rest]
      | _ => []
    let details := Dict.getD raw (py "details") .null
    if truthy details then
      (reprWithin room details).map fun text =>
        joinWith (py " | ") (message ++ [py "details=" ++ text])
    else .ok (joinWith (py " | ") message)
  | .str s => .ok s
  | raw => if truthy raw then reprWithin room raw else .ok []

/-- `float(retry_after_ms)` unless it is negative or no number. -/
def retryMillis : Json → Except Raised (Option Binary64)
  | .bool b => .ok (some (.finite (if b then 1 else 0)))
  | .int i =>
    if i < 0 then .ok none
    else
      match Binary64.ofRat i with
      | .finite q => .ok (some (.finite q))
      | _ => .error (.other (py "OverflowError('int too large to convert to float')"))
  | .float x =>
    match binary64 x with
    | .nan => .ok (some .nan)
    | .inf neg => .ok (if neg then none else some (.inf false))
    | .finite q => .ok (if q < 0 then none else some (.finite q))
  | _ => .ok none

/-- `_decode_error_retry_after_ms`. -/
def decodeErrorRetryAfterMs : Json → Except Raised (Option Binary64)
  | .dict raw =>
    match Dict.getD raw (py "retryAfterMs") .null with
    | .null =>
      match Dict.get? raw (py "details") with
      | some (.dict details) => retryMillis (Dict.getD details (py "retryAfterMs") .null)
      | _ => .ok none
    | retryAfterMs => retryMillis retryAfterMs
  | _ => .ok none

inductive PairingState where
  | unknown
  | pending
  | paired
  | error
deriving DecidableEq

/-- `PairingMachine.on_connect_response` of a refused connection. -/
def onConnectRefused (code : Option PyStr) (message : PyStr) (retryAfterMs : Option Binary64) :
    PairingState × Option Raised :=
  let code := match code with
    | some (c :: rest) => c :: rest
    | _ => py "UNKNOWN_ERROR"
  if code = py "PAIRING_REQUIRED" then (.pending, none)
  else (.error, some (.pairing code message retryAfterMs))

/-- A `GatewayClient`, as far as its reconnect loop reads it. -/
structure Client where
  rateLimitedDelay : ℚ := 0
  pairing : PairingState := .unknown
  deviceToken : PyStr := []
  connected : Bool := false

/-- `auth.deviceToken` of an accepted connection; the attribute error of a payload that is no object. -/
def issuedToken (payload : Json) : Except Raised (Option PyStr) :=
  match payload with
  | .null => .ok none
  | .dict payload =>
    match Dict.getD payload (py "auth") .null with
    | .dict auth =>
      match Dict.get? auth (py "deviceToken") with
      | some (.str (c :: rest)) => .ok (some (c :: rest))
      | _ => .ok none
    | auth => if truthy auth then .error (.other (py "AttributeError('get')")) else .ok none
  | _ => .error (.other (py "AttributeError('get')"))

/-- An accepted connection. -/
def Client.accept (c : Client) (payload : Json) : Client × Option Raised :=
  let paired := { c with pairing := .paired, rateLimitedDelay := 0 }
  match issuedToken payload with
  | .error exc => (paired, some exc)
  | .ok none => (paired, none)
  | .ok (some token) => ({ paired with deviceToken := token }, none)

/-- A refused connection. -/
def Client.refuse (c : Client) (room : Nat) (errorRaw : Json) : Client × Option Raised :=
  match decodeErrorMessage room errorRaw with
  | .error exc => (c, some exc)
  | .ok message =>
    match decodeErrorRetryAfterMs errorRaw with
    | .error exc => (c, some exc)
    | .ok retryAfterMs =>
      let refused := onConnectRefused (decodeErrorCode errorRaw) message retryAfterMs
      ({ c with pairing := refused.1 }, refused.2)

/-- `_recv_connect_response` of a frame that `json.loads` has decoded. -/
def Client.recvConnectResponse (c : Client) (room : Nat) (reqId : PyStr) : Json → Client × Option Raised
  | .dict msg =>
    if Dict.get? msg (py "type") ≠ some (.str (py "res")) then
      (c, some (.other (py "ValueError(\"Expected res frame, got type=" ++
        Py.repr (Dict.getD msg (py "type") .null) ++ py "\")")))
    else if Dict.get? msg (py "id") ≠ some (.str reqId) then
      (c, some (.other (py "ValueError(\"Connect response id mismatch: expected " ++
        Py.reprStr reqId ++ py ", got " ++ Py.repr (Dict.getD msg (py "id") .null) ++ py "\")")))
    else if truthy (Dict.getD msg (py "ok") .null) then
      c.accept (Dict.getD msg (py "payload") .null)
    else c.refuse room (Dict.getD msg (py "error") .null)
  | _ => (c, some (.other (py "AttributeError('get')")))

/-! ## The delay -/

/-- `_RECONNECT_DELAY_S`. -/
def reconnectDelay : ℚ := 5

def rateLimitedBackoffBase : ℚ := 30

def rateLimitedBackoffMax : ℚ := 300

def rateLimitedBackoffFactor : ℚ := 2

def isRateLimited (exc : Raised) : Bool :=
  hasSubstr exc.repr (py "AUTH_RATE_LIMITED") || hasSubstr exc.repr (py "wait_then_retry")

/-- The next delay of a rate-limited node. -/
def Client.backoff (c : Client) : ℚ :=
  if c.rateLimitedDelay ≤ 0 then rateLimitedBackoffBase
  else min (c.rateLimitedDelay * rateLimitedBackoffFactor) rateLimitedBackoffMax

/-- `_next_reconnect_delay`. -/
def Client.nextReconnectDelay (c : Client) : Raised → Client × Binary64
  | .pairing _ _ (some retryAfterMs) =>
    ({ c with rateLimitedDelay := 0 }, retryAfterMs.div 1000)
  | exc =>
    if isRateLimited exc then ({ c with rateLimitedDelay := c.backoff }, .finite c.backoff)
    else ({ c with rateLimitedDelay := 0 }, .finite reconnectDelay)

/-- `datetime.max`, in microseconds since the start of year 1. -/
def maxInstant : Int := 3652059 * 86400 * 1000000 - 1

/-- The microseconds of `timedelta(seconds=q)`: the fraction is scaled in binary64 before it is
rounded. -/
def microseconds (q : ℚ) : Int :=
  ⌊q⌋ * 1000000 + Binary64.halfEven (Binary64.nearest (1000000 * Int.fract q))

/-- `max(0.0, delay_s)`. -/
def atLeastZero : Binary64 → Binary64
  | .nan => .finite 0
  | .inf neg => if neg then .finite 0 else .inf false
  | .finite q => .finite (max 0 q)

/-- `_format_retry_at_utc`, up to the layout of the instant. -/
def formatRetryAtUtc (now : Nat) (delay : Binary64) : Except PyStr Int :=
  match atLeastZero delay with
  | .finite q =>
    if 999999999 * 86400 * 1000000 + 86399999999 < microseconds q then
      .error (py "OverflowError: days out of range")
    else if maxInstant < now + microseconds q then
      .error (py "OverflowError: date value out of range")
    else .ok (now + microseconds q)
  | .inf _ => .error (py "OverflowError: cannot convert float infinity to integer")
  | .nan => .error (py "ValueError: cannot convert float NaN to integer")

/-- `asyncio.sleep`. -/
def sleep : Binary64 → Except PyStr Unit
  | .nan => .error (py "ValueError: Invalid delay: NaN (not a number)")
  | _ => .ok ()

/-! ## The loop -/

structure Config where
  pairingToken : PyStr
  pairFallbackEnabled : Bool

def tokenRefusals : List PyStr :=
  [py "NOT_PAIRED", py "PAIRING_REQUIRED", py "AUTH_TOKEN_MISMATCH", py "token_mismatch"]

/-- `_maybe_drop_invalid_device_token`, without the token file. -/
def Client.dropInvalidDeviceToken (c : Client) (config : Config) (exc : Raised) : Client :=
  if config.pairFallbackEnabled ∧ (tokenRefusals.any fun t => hasSubstr exc.repr t) ∧
      c.deviceToken ≠ [] ∧ c.deviceToken ≠ config.pairingToken then
    { c with deviceToken := config.pairingToken }
  else c

/-- `PairingMachine.on_reconnect`. -/
def Client.onReconnect (c : Client) : Client :=
  if c.pairing ≠ .error then { c with pairing := .unknown } else c

/-- One attempt of `_connect_and_loop`. -/
inductive Attempt where
  /-- An exception before the connect response was decoded. -/
  | failed (text : PyStr)
  /-- The connect response, and what ends the connection when that raises nothing itself: an
  exception of the later steps, or `None` when the event loop returns. -/
  | response (reqId : PyStr) (msg : Json) (after : Option PyStr)

/-- What a round of the loop meets: the stored device token, the attempt, the interpreter's room for
nested containers and the time in microseconds when the attempt has failed. -/
structure Round where
  storedToken : PyStr
  attempt : Attempt
  room : Nat
  now : Nat

/-- `_reload_device_token`. -/
def Client.reloadDeviceToken (c : Client) (stored : PyStr) : Client :=
  if stored ≠ [] then { c with deviceToken := stored } else c

/-- `_connect_and_loop`. -/
def Client.connectAndLoop (c : Client) (room : Nat) : Attempt → Client × Option Raised
  | .failed text => (c, some (.other text))
  | .response reqId msg after =>
    match c.recvConnectResponse room reqId msg with
    | (answered, some exc) => (answered, some exc)
    | (answered, none) => ({ answered with connected := false }, after.map .other)

/-- The handler of `run`; what it raises ends the loop. -/
def Client.handle (c : Client) (config : Config) (now : Nat) (exc : Raised) :
    Except PyStr (Client × Binary64) :=
  match formatRetryAtUtc now (c.nextReconnectDelay exc).2 with
  | .error e => .error e
  | .ok _ =>
    match sleep (c.nextReconnectDelay exc).2 with
    | .error e => .error e
    | .ok _ =>
      .ok ({ (((c.nextReconnectDelay exc).1.dropInvalidDeviceToken config exc).onReconnect) with
          connected := false },
        (c.nextReconnectDelay exc).2)

/-- One round of `run`: the delay that was slept, if the attempt failed. -/
def Client.round (c : Client) (config : Config) (r : Round) :
    Except PyStr (Client × Option Binary64) :=
  match (c.reloadDeviceToken r.storedToken).connectAndLoop r.room r.attempt with
  | (ended, none) => .ok (ended, none)
  | (ended, some exc) => (ended.handle config r.now exc).map fun next => (next.1, some next.2)

/-- `run` over its rounds: the client and the delays, or the exception that ended it. -/
def Client.run (c : Client) (config : Config) :
    List Round → Except PyStr (Client × List (Nat × Binary64))
  | [] => .ok (c, [])
  | r :: rounds =>
    match c.round config r with
    | .error e => .error e
    | .ok (next, delay) =>
      (next.run config rounds).map fun done =>
        (done.1, (delay.map fun d => (r.now, d)).toList ++ done.2)

end

end HassNode.Reconnect
