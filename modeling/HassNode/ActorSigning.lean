import HassNode.ChatRelay
import HassNode.Py.JsonDump

/-!
# Signed actors

`conversation.py` of the integration and `authz.py` of the node: the integration signs the actor of an
Assist turn together with the turn's fields, and the node verifies the signature of the body that it
receives before it trusts the actor.
-/

namespace HassNode.ActorSigning

open Py ChatRelay

abbrev Bytes := List Nat

/-- `hmac.new(key, message, "sha256").hexdigest()`, which prints hexadecimal digits. -/
class Hmac where
  hexdigest (key message : Bytes) : PyStr
  printable : ∀ key message, Printable (hexdigest key message)
  nonempty : ∀ key message, hexdigest key message ≠ []

inductive ActorError where
  | unicodeEncode
  | dumps (err : DumpError)
  /-- `hmac.compare_digest` takes ASCII strings only. -/
  | compareDigest
deriving DecidableEq

/-- `text.encode("utf-8")`. -/
def encode (text : PyStr) : Except ActorError Bytes :=
  match encodeUtf8 text with
  | none => .error .unicodeEncode
  | some raw => .ok raw

/-- `_ACTOR_SIGNING_KEY_LABEL`, the same in both programs. -/
def actorSigningKeyLabel : Bytes := (py "openclaw-hass-node actor-signing v1").map Fin.val

variable [Hmac]

/-- `derive_actor_signing_secret`, the same in both programs. -/
def deriveActorSigningSecret (apiToken : PyStr) : Except ActorError PyStr :=
  let token := strip apiToken
  if token = [] then .ok []
  else do
    let key ← encode token
    .ok (Hmac.hexdigest key actorSigningKeyLabel)

/-- The HMAC of `json.dumps(payload, sort_keys=True, separators=(",", ":"))`. -/
def hmacJson (secret : PyStr) (payload : Json) : Except ActorError PyStr :=
  -- a payload nests two objects, for which there is always room
  match dumpsCompact 2 payload with
  | .error err => .error (.dumps err)
  | .ok canonical => do
    let key ← encode secret
    let message ← encode canonical
    .ok (Hmac.hexdigest key message)

/-! ## The integration -/

/-- A user of Home Assistant, as far as `_resolve_actor` reads it. -/
structure User where
  id : PyStr
  name : Option PyStr
  isOwner : Bool
  isAdmin : Bool
  systemGenerated : Bool
  localOnly : Bool
  /-- `auth_provider_type` of each credential. -/
  credentials : List PyStr

/-- `ConversationInput`, with the user id of its context. -/
structure ConversationInput where
  text : PyStr
  conversationId : Option PyStr
  language : PyStr
  userId : Option PyStr

def actorDict (userId : PyStr) (isAdmin : Bool) : Dict :=
  [(py "user_id", .str userId), (py "is_admin", .bool isAdmin)]

/-- `_resolve_actor`; `getUser` is `hass.auth.async_get_user`. -/
def resolveActor (getUser : PyStr → Option User) (userInput : ConversationInput) : Option Dict :=
  match userInput.userId with
  | none | some [] => none
  | some userId =>
    match getUser userId with
    | none => none
    | some user =>
      if user.systemGenerated then none
      else if user.localOnly then none
      else if user.credentials ≠ [] ∧ py "homeassistant" ∉ user.credentials then none
      else if strip (user.name.getD []) = [] ∧ !user.isOwner ∧ !user.isAdmin then none
      else some (actorDict user.id user.isAdmin)

/-- The payload that is signed. -/
def signedPayload (ts conversationId : Json) (language text userId : PyStr) (isAdmin : Bool) : Json :=
  obj [("v", .int 1), ("ts", ts), ("conversation_id", conversationId), ("language", .str language),
    ("text", .str text), ("actor", .dict (actorDict userId isAdmin))]

section
variable [Runtime]

/-- `_sign_actor` of the integration. -/
def Assist.signActor (secret : PyStr) (actor : Dict) (text : PyStr) (conversationId : Option PyStr)
    (language : PyStr) (ts : Int) : Except ActorError PyStr :=
  -- `conversation_id` is annotated as `str`, but a new conversation has `None`
  hmacJson secret (signedPayload (.int ts) (conversationId.elim .null .str) language text
    (strOf (actor.getD (py "user_id") (.str []))) (truthy (actor.getD (py "is_admin") .null)))

/-- The request body that `_async_handle_message` posts at the time `now`. -/
def requestBody (userInput : ConversationInput) (actor : Option Dict) (apiToken : PyStr) (now : Int) :
    Except ActorError Dict :=
  let body : Dict := [(py "text", .str userInput.text),
    (py "conversation_id", userInput.conversationId.elim .null .str),
    (py "language", .str userInput.language)]
  match actor with
  | none => .ok body
  | some actor => do
    let body := body.set (py "actor") (.dict actor)
    let secret ← deriveActorSigningSecret apiToken
    if secret = [] then .ok body
    else
      let signature ← Assist.signActor secret actor userInput.text userInput.conversationId
        userInput.language now
      .ok ((body.set (py "actor_ts") (.int now)).set (py "actor_signature") (.str signature))

/-! ## The node -/

inductive BodyError where
  | unicodeDecode
  | loads (err : LoadError)
  | badRequest
deriving DecidableEq

/-- `_json_body`. -/
def jsonBody (budget : Nat) (raw : Bytes) : Except BodyError Dict :=
  match decodeUtf8 raw with
  | none => .error .unicodeDecode
  | some text =>
    match loads budget text with
    | .error err => .error (.loads err)
    | .ok .null => .ok []
    | .ok (.dict body) => .ok body
    | .ok _ => .error .badRequest

/-- `actor_from_payload`. -/
def actorFromPayload : Json → Option Actor
  | .dict raw =>
    match Dict.get? raw (py "user_id") with
    | some (.str userId) =>
      if strip userId = [] then none
      else some ⟨strip userId, truthy (Dict.getD raw (py "is_admin") .null)⟩
    | _ => none
  | _ => none

/-- `str(value)`, within the interpreter's room for nested containers. -/
def strWithin (room : Nat) : Json → Except ActorError PyStr
  | .str s => .ok s
  | v =>
    match dumpsError room v with
    | some err => .error (.dumps err)
    | none => .ok (strOf v)

/-- The value of an instance of `int`, of which a `bool` is one. -/
def intOf : Json → Option Int
  | .int i => some i
  | .bool b => some (if b then 1 else 0)
  | _ => none

/-- `_ACTOR_SIGNATURE_WINDOW_S`. -/
def actorSignatureWindow : Int := 300

omit [Runtime] in
/-- `sign_actor` of the node. -/
def signActor (secret : PyStr) (actor : Actor) (text conversationId language : PyStr) (ts : Json) :
    Except ActorError PyStr :=
  hmacJson secret (signedPayload ts (.str conversationId) language text actor.userId actor.isAdmin)

/-- `hmac.compare_digest(a, b)` of two strings. -/
def compareDigest (a b : PyStr) : Except ActorError Bool :=
  if (a ++ b).all fun c => decide (c.val < 0x80) then .ok (a = b) else .error .compareDigest

/-- `actor_from_signed_body` at the time `now`. -/
def actorFromSignedBody (room : Nat) (body : Dict) (localApiToken : PyStr) (now : Int) :
    Except ActorError (Option Actor) :=
  match actorFromPayload (body.getD (py "actor") .null) with
  | none => .ok none
  | some actor => do
    let signingSecret ← deriveActorSigningSecret localApiToken
    if signingSecret = [] then .ok none
    else
      let tsRaw := body.getD (py "actor_ts") .null
      match intOf tsRaw, body.get? (py "actor_signature") with
      | some ts, some (.str signature) =>
        if signature = [] then .ok none
        else if actorSignatureWindow < |now - ts| then .ok none
        else
          let text ← strWithin room (body.getD (py "text") (.str []))
          let conversationId ← strWithin room (body.getD (py "conversation_id") (.str []))
          let language ← strWithin room (body.getD (py "language") (.str (py "en")))
          let expected ← signActor signingSecret actor text conversationId language tsRaw
          if ← compareDigest signature expected then .ok (some actor) else .ok none
      | _, _ => .ok none

end

end HassNode.ActorSigning
