import HassNode.Py.Text
import Mathlib.Data.Rat.Defs

/-!
# Handing the local API token over

`http_api.py` and `token_store.py`: `GET /v1/bootstrap` serves the generated token once, and
`POST /v1/bootstrap/claim` replaces it.  What a request leaves behind is spread over the runtime, two
marker files and the token file, and each of the writes may fail.
-/

namespace HassNode.Bootstrap

open Py

/-- `secrets.token_urlsafe(32)`: the token of each call in turn. -/
class TokenSource where
  tokenUrlsafe : Nat → PyStr
  length_eq : ∀ n, (tokenUrlsafe n).length = 43

/-! ## Files -/

/-- What stands at the path of a marker. -/
inductive Marker where
  | absent
  | present
  | symlink (target : Bool)
deriving DecidableEq

/-- `path.is_symlink()`. -/
def Marker.isSymlink : Marker → Bool
  | .symlink _ => true
  | _ => false

/-- `path.exists()`, which follows a symlink. -/
def Marker.exists : Marker → Bool
  | .absent => false
  | .present => true
  | .symlink target => target

/-- How a write goes; it can fail before or after the file is opened. -/
inductive Write where
  | done
  | failed (opened : Bool)
deriving DecidableEq

/-- `_write_bootstrap_consumed`: whether it returns, and what it leaves. -/
def writeBootstrapConsumed : Marker → Write → Bool × Marker
  | .symlink target, _ => (false, .symlink target)
  | _, .done => (true, .present)
  | marker, .failed opened => (false, if opened then .present else marker)

/-- What stands at the path of the token. -/
inductive TokenFile where
  | absent
  | file (text : PyStr)
  | symlink
deriving DecidableEq

/-- How a write of the token goes; it can fail before the file is opened, or after some characters. -/
inductive TokenWrite where
  | done
  | unopened
  | cut (written : Nat)
deriving DecidableEq

/-- `_write_token`. -/
def writeToken (token : PyStr) : TokenFile → TokenWrite → Bool × TokenFile
  | .symlink, _ => (false, .symlink)
  | _, .done => (true, .file (token ++ [10]))
  | file, .unopened => (false, file)
  | _, .cut written => (false, .file ((token ++ [10]).take written))

/-! ## The runtime -/

/-- `NodeRuntime`, as far as the two handlers use it. -/
structure NodeRuntime where
  addonMode : Bool
  localApiToken : PyStr
  bootstrapToken : PyStr
  bootstrapClaimToken : PyStr := []
  bootstrapClaimedToken : PyStr := []
deriving DecidableEq

structure Disk where
  consumed : Marker
  claimed : Marker
  localApiToken : TokenFile
deriving DecidableEq

/-- The runtime, its data directory and the number of tokens drawn. -/
structure State where
  runtime : NodeRuntime
  disk : Disk
  drawn : Nat
deriving DecidableEq

/-! ## `GET /v1/bootstrap` -/

/-- One part of a dotted IPv4 address. -/
def octet (part : PyStr) : Option Nat :=
  let digits := part.filterMap digitOf?
  if part = [] ∨ digits.length ≠ part.length ∨ 3 < part.length then none
  else if 1 < part.length ∧ part.head? = some 48 then none
  else if 255 < ofDigitStr digits then none
  else some (ofDigitStr digits)

/-- `_is_supervisor_network`: whether the address lies in `172.30.32.0/23`. -/
def isSupervisorNetwork (remote : Option PyStr) : Bool :=
  match ((remote.getD []).splitOn 46).map octet with
  | [some 172, some 30, some third, some _] => third / 2 = 16
  | _ => false

/-- `BOOTSTRAP_WINDOW_SECONDS`. -/
def bootstrapWindowSeconds : ℚ := 300

inductive GetResponse where
  | notFound
  | expired
  | consumed
  | disabled
  | token (token : PyStr)
deriving DecidableEq

def GetResponse.status : GetResponse → Nat
  | .notFound | .disabled => 404
  | .expired | .consumed => 410
  | .token _ => 200

def errorBody (error detail : PyStr) : Dict :=
  [(py "ok", .bool false), (py "error", .str error), (py "detail", .str detail)]

def GetResponse.body : GetResponse → Option Dict
  | .notFound => none
  | .expired => some (errorBody (py "BOOTSTRAP_EXPIRED")
      (py "Bootstrap window (300s) has closed. Restart the add-on to open a fresh window."))
  | .consumed => some (errorBody (py "BOOTSTRAP_CONSUMED")
      (py "The bootstrap token has already been fetched. " ++
        py "Set reset_bootstrap=true in add-on options and restart to re-open."))
  | .disabled => some (errorBody (py "BOOTSTRAP_DISABLED")
      (py "Bootstrap is only available when local_api_token is not " ++
        py "set explicitly. Configure the integration token manually."))
  | .token value => some [(py "ok", .bool true), (py "token", .str value),
      (py "claim_endpoint", .str (py "/v1/bootstrap/claim"))]

/-- `bootstrap`, `elapsed` seconds after the start. -/
def bootstrap (s : State) (remote : Option PyStr) (elapsed : ℚ) (write : Write) :
    GetResponse × State :=
  if s.runtime.addonMode && !isSupervisorNetwork remote then (.notFound, s)
  else if bootstrapWindowSeconds < elapsed then (.expired, s)
  -- a symlink counts as consumed
  else if s.disk.consumed.isSymlink || s.disk.consumed.exists then (.consumed, s)
  else if s.runtime.bootstrapToken = [] then (.disabled, s)
  else
    let token := s.runtime.bootstrapToken
    -- a failed write of the marker is logged, and the token is cleared all the same
    (.token token,
      { s with
        runtime := { s.runtime with bootstrapToken := [], bootstrapClaimToken := token }
        disk := { s.disk with consumed := (writeBootstrapConsumed s.disk.consumed write).2 } })

/-! ## `POST /v1/bootstrap/claim` -/

inductive ClaimResponse where
  | unauthorized
  | forbidden
  | notConsumed
  | alreadyClaimed
  | rotationFailed
  | token (token : PyStr)
  /-- An exception that the handler does not catch. -/
  | internalError
deriving DecidableEq

def ClaimResponse.status : ClaimResponse → Nat
  | .unauthorized => 401
  | .forbidden => 403
  | .notConsumed | .alreadyClaimed => 409
  | .rotationFailed | .internalError => 500
  | .token _ => 200

def ClaimResponse.body : ClaimResponse → Option Dict
  | .unauthorized => some [(py "ok", .bool false), (py "error", .str (py "UNAUTHORIZED"))]
  | .forbidden => some [(py "ok", .bool false), (py "error", .str (py "FORBIDDEN"))]
  | .notConsumed => some (errorBody (py "BOOTSTRAP_NOT_CONSUMED")
      (py "Fetch /v1/bootstrap before claiming a rotated token."))
  | .alreadyClaimed => some (errorBody (py "BOOTSTRAP_ALREADY_CLAIMED")
      (py "The bootstrap token has already been rotated."))
  | .rotationFailed => some (errorBody (py "BOOTSTRAP_ROTATION_FAILED")
      (py "Could not rotate the local API token."))
  | .token value => some [(py "ok", .bool true), (py "token", .str value)]
  | .internalError => none

/-- No other character has one of the letters of `bearer` as its lower case. -/
def lowerAscii (c : CodePoint) : CodePoint :=
  if h : 65 ≤ c.val ∧ c.val ≤ 90 then ⟨c.val + 32, by omega⟩ else c

/-- The bearer that an `Authorization` header presents. -/
def presentedBearer (authorization : Option PyStr) : Option PyStr :=
  let auth := authorization.getD []
  let scheme := auth.takeWhile (· ≠ 32)
  let presented := (auth.dropWhile (· ≠ 32)).drop 1
  if scheme.map lowerAscii ≠ py "bearer" ∨ presented = [] then none else some presented

/-- `hmac.compare_digest(a.encode("utf-8"), b.encode("utf-8"))`; `none` is `UnicodeEncodeError`. -/
def compareDigest (a b : PyStr) : Option Bool :=
  match encodeUtf8 a, encodeUtf8 b with
  | some x, some y => some (x = y)
  | _, _ => none

variable [TokenSource]

/-- The part of the claim that replaces the token. -/
def rotate (s : State) (tokenWrite : TokenWrite) (write : Write) : ClaimResponse × State :=
  if !s.disk.consumed.exists || s.disk.consumed.isSymlink then (.notConsumed, s)
  else if s.disk.claimed.exists || s.disk.claimed.isSymlink then (.alreadyClaimed, s)
  else
    -- `rotate_local_api_token`
    let token := TokenSource.tokenUrlsafe s.drawn
    let (written, file) := writeToken token s.disk.localApiToken tokenWrite
    let s := { s with disk := { s.disk with localApiToken := file }, drawn := s.drawn + 1 }
    if !written then (.rotationFailed, s)
    else
      -- a failed write of the marker is logged only
      (.token token,
        { s with
          runtime := { s.runtime with localApiToken := token, bootstrapClaimedToken := token }
          disk := { s.disk with claimed := (writeBootstrapConsumed s.disk.claimed write).2 } })

/-- `bootstrap_claim`. -/
def bootstrapClaim (s : State) (authorization : Option PyStr) (tokenWrite : TokenWrite)
    (write : Write) : ClaimResponse × State :=
  match presentedBearer authorization with
  | none => (.unauthorized, s)
  | some presented =>
    let claimToken := s.runtime.bootstrapClaimToken
    match if claimToken = [] then some false else compareDigest presented claimToken with
    | none => (.internalError, s)
    | some true =>
      if s.runtime.bootstrapClaimedToken ≠ [] then (.token s.runtime.bootstrapClaimedToken, s)
      else rotate s tokenWrite write
    | some false =>
      match compareDigest presented s.runtime.localApiToken with
      | none => (.internalError, s)
      | some false => (.forbidden, s)
      | some true => rotate s tokenWrite write

/-! ## Runs -/

inductive Request where
  | get (remote : Option PyStr) (elapsed : ℚ) (write : Write)
  | claim (authorization : Option PyStr) (tokenWrite : TokenWrite) (write : Write)

inductive Response where
  | get (response : GetResponse)
  | claim (response : ClaimResponse)
deriving DecidableEq

/-- The handlers have no suspension, so requests are served one after another. -/
def step (s : State) : Request → Response × State
  | .get remote elapsed write =>
    let (response, s) := bootstrap s remote elapsed write
    (.get response, s)
  | .claim authorization tokenWrite write =>
    let (response, s) := bootstrapClaim s authorization tokenWrite write
    (.claim response, s)

structure Event where
  before : State
  request : Request
  response : Response
  after : State

def run (s : State) : List Request → List Event
  | [] => []
  | request :: requests =>
    let (response, after) := step s request
    ⟨s, request, response, after⟩ :: run after requests

/-- A runtime that has just been started. -/
def start (addonMode : Bool) (localApiToken bootstrapToken : PyStr) (disk : Disk) : State :=
  ⟨{ addonMode, localApiToken, bootstrapToken }, disk, 0⟩

end HassNode.Bootstrap
