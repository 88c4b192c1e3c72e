import HassNode.ConfigMutation
import HassNode.Library.Interaction

/-!
# Talking to Home Assistant

`ha_client.py` as the handlers see it: the requests a handler can make, what each can answer, and
the WebSocket frame that a call sends.  A handler is a program over these requests and over the
approval gate of `config_mutation.py`.
-/

namespace HassNode.HaClient

open Py Interaction ConfigMutation

/-- An exception of the client; only `HAClientError` is caught by every handler. -/
inductive Exc where
  | haClientError (code message : PyStr)
  | timeoutError
  | other (name : PyStr)
deriving DecidableEq

abbrev Result := Except Exc Json

inductive Request where
  | get (path : PyStr)
  | post (path : PyStr) (body : Option Dict)
  | delete (path : PyStr)
  | ws (frame : Dict)
  | supervisorGet (path : PyStr)
  | supervisorGetText (path : PyStr)
  | supervisorPost (path : PyStr)
deriving DecidableEq

/-- The request of `ha_ws_call`: an empty payload is not merged. -/
def wsFrame (msgType : PyStr) (payload : Dict) : Dict :=
  let request : Dict := [(py "id", .int 1), (py "type", .str msgType)]
  if payload = [] then request else request.update payload

/-- What a handler does outside itself. -/
inductive Op where
  | consume (command action : PyStr) (params : Dict)
  | request (r : Request)

def Ans : Op → Type
  | .consume _ _ _ => Option Json
  | .request _ => Result

abbrev Program := Prog Op Ans Result

abbrev Handler := Dict → Program

/-- `_error`. -/
def error (code : String) (message : PyStr) : Json :=
  obj [("ok", .bool false), ("error", .str (py code)), ("message", .str message)]

/-- `_to_error`. -/
def toError (code message : PyStr) : Json :=
  obj [("ok", .bool false), ("error", .str code), ("message", .str message)]

def respond (response : Json) : Program := .ret (.ok response)

/-- One request in a `try` that turns `HAClientError` into an error response. -/
def request (r : Request) (k : Json → Program) : Program :=
  .call (.request r) fun
    | .ok value => k value
    | .error (.haClientError code message) => respond (toError code message)
    | .error exc => .ret (.error exc)

/-- A validation step: an error response ends the handler. -/
def orReturn {α : Type} (checked : Except Json α) (k : α → Program) : Program :=
  match checked with
  | .error response => respond response
  | .ok value => k value

/-- `denied = consume_approval_marker(...)`, which pops the marker from the params that the rest
of the handler reads. -/
def gate (command action : PyStr) (params : Dict) (k : Dict → Program) : Program :=
  .call (.consume command action params) fun
    | some denied => respond denied
    | none => k (params.pop approvalParam)

/-! ## What a handler can ask -/

/-- Only requests, no approval. -/
def Op.IsRequest (P : Request → Prop) : Op → Prop
  | .consume _ _ _ => False
  | .request r => P r

section
variable {Q : Op → Prop}

theorem asks_respond (response : Json) : Prog.Asks Q (respond response) := trivial

theorem asks_request {r : Request} {k : Json → Program} (hr : Q (.request r))
    (hk : ∀ value, Prog.Asks Q (k value)) : Prog.Asks Q (request r k) := by
  unfold request
  constructor
  · exact hr
  · intro ans
    cases ans with
    | ok value => exact hk value
    | error exc =>
      cases exc with
      | haClientError code message => trivial
      | timeoutError => trivial
      | other name => trivial

theorem asks_orReturn {α : Type} {checked : Except Json α} {k : α → Program}
    (hk : ∀ value, checked = .ok value → Prog.Asks Q (k value)) :
    Prog.Asks Q (orReturn checked k) := by
  cases checked with
  | error response => trivial
  | ok value => exact hk value rfl

theorem asks_ite {c : Prop} [Decidable c] {p q : Program} (hp : Prog.Asks Q p)
    (hq : Prog.Asks Q q) : Prog.Asks Q (if c then p else q) := by
  by_cases hc : c
  · rw [if_pos hc]
    exact hp
  · rw [if_neg hc]
    exact hq

end

/-! ## Service calls -/

/-- The path of a service call. -/
def servicePath (domain service : PyStr) : PyStr :=
  py "/api/services/" ++ domain ++ py "/" ++ service

/-- The service that a POST to `path` calls: the two segments below `/api/services`, without a
query. -/
def postedService (path : PyStr) : Option (PyStr × PyStr) :=
  if startsWith path (py "/api/services/") then
    let called := (path.drop (py "/api/services/").length).takeWhile (· ≠ 63)
    some (called.takeWhile (· ≠ 47), (called.dropWhile (· ≠ 47)).drop 1)
  else none

/-- A POST of this request calls one of `services`, or no service. -/
def CallsOnly (services : List (PyStr × PyStr)) : Request → Prop
  | .post path _ => ∀ service, postedService path = some service → service ∈ services
  | .get _ | .delete _ | .ws _ | .supervisorGet _ | .supervisorGetText _ | .supervisorPost _ => True

theorem postedService_servicePath {domain service : PyStr} (hdomain : ∀ c ∈ domain, c ≠ 47 ∧ c ≠ 63)
    (hservice : ∀ c ∈ service, c ≠ 63) :
    postedService (servicePath domain service) = some (domain, service) := by
  have hquery : ∀ c ∈ domain ++ 47 :: service, decide (c ≠ 63) = true := by
    intro c hc
    rw [List.mem_append, List.mem_cons] at hc
    apply decide_eq_true
    rcases hc with hc | rfl | hc
    · exact (hdomain c hc).2
    · decide
    · exact hservice c hc
  have hslash : ∀ c ∈ domain, decide (c ≠ 47) = true := fun c hc =>
    decide_eq_true (hdomain c hc).1
  have hpath : servicePath domain service = py "/api/services/" ++ (domain ++ 47 :: service) := by
    unfold servicePath
    rw [List.append_assoc, List.append_assoc]
    rfl
  have hbegins : startsWith (py "/api/services/" ++ (domain ++ 47 :: service))
      (py "/api/services/") = true := List.isPrefixOf_iff_prefix.mpr (List.prefix_append _ _)
  unfold postedService
  simp only [hpath, hbegins, if_true, List.drop_left]
  rw [List.takeWhile_eq_self_iff.mpr hquery, List.takeWhile_append_of_pos hslash,
    List.dropWhile_append_of_pos hslash]
  simp

theorem callsOnly_post {services : List (PyStr × PyStr)} {path : PyStr} {body : Option Dict}
    (h : startsWith path (py "/api/services/") = false) : CallsOnly services (.post path body) := by
  intro service hposted
  unfold postedService at hposted
  rw [h] at hposted
  cases hposted

/-! ## The node's side of a call -/

/-- The world around one call: who makes it, the clock, and what the requests answer. -/
structure Environment (ω : Type) where
  caller : Option Caller
  now : ω → ℚ
  reply : Request → ω → Result × ω

/-- An approval is answered from the table of used ids, a request by the world. -/
def Environment.answer [Runtime] {ω : Type} (env : Environment ω) :
    (op : Op) → UsedIds × ω → Ans op × (UsedIds × ω)
  | .consume command action params, (used, w) =>
    let r := consumeApprovalMarker env.caller (env.now w) used command action params
    (r.refusal, r.used, w)
  | .request r, (used, w) =>
    let (result, w') := env.reply r w
    (result, used, w')

/-- Requests never touch the table of used ids. -/
theorem exec_used [Runtime] {ω : Type} (env : Environment ω) {p : Program}
    (hp : Prog.Asks (Op.IsRequest P) p) (s : UsedIds × ω) :
    (Prog.exec env.answer p s).2.2.1 = s.1 := by
  apply Prog.Asks.exec_frame _ hp
  intro op s hop
  cases op with
  | consume command action params => exact absurd hop id
  | request r => rfl

end HassNode.HaClient
