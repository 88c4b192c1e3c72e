import HassNode.ActorSigning
import HassNode.SurrogatePairs

/-!
# Signed actors round-trip

The node accepts what the integration signs when both read the same fields from the turn, and one
signature is accepted for one reading of a body only.
-/

namespace HassNode.ActorSigning

open Py Py.JsonText ChatRelay Indent Compact Surrogates

/-! ## The signed bytes -/

/-- A field of the payload: no container, and an integer that can be printed. -/
inductive Leaf : Json → Prop
  | null : Leaf .null
  | bool (b : Bool) : Leaf (.bool b)
  | int {i : Int} (h : (natDigits i.natAbs).length ≤ maxStrDigits) : Leaf (.int i)
  | str (s : PyStr) : Leaf (.str s)

theorem Leaf.sortKeys {v : Json} (h : Leaf v) : sortKeys v = v := by
  cases h <;> rfl

theorem Leaf.dumpsError {v : Json} (h : Leaf v) (room : Nat) : dumpsError room v = none := by
  cases h with
  | int h => exact if_neg (Nat.not_lt_of_le h)
  | _ => rfl

theorem Leaf.held [Runtime] {v : Json} (h : Leaf v) : Held v := by
  cases h <;> trivial

theorem Leaf.asciiKeys {v : Json} (h : Leaf v) : AsciiKeys v := by
  cases h <;> trivial

theorem plain_dict [Runtime] {entries : Dict} (hnodup : (entries.map Prod.fst).Nodup)
    (hascii : ∀ key ∈ entries.map Prod.fst, key.all (fun c => decide (c.val < 0x80)) = true)
    (h : ∀ kv ∈ entries, Held kv.2 ∧ AsciiKeys kv.2) :
    Held (.dict entries) ∧ AsciiKeys (.dict entries) :=
  ⟨Json.forall_dict.mpr ⟨hnodup, fun kv hkv => (h kv hkv).1⟩,
    Json.forall_dict.mpr ⟨fun kv hkv => ascii_of_all (hascii kv.1 (List.mem_map_of_mem hkv)),
      fun kv hkv => (h kv hkv).2⟩⟩

/-- The payload as `sort_keys` leaves it. -/
def sortedPayload (ts conversationId : Json) (language text userId : PyStr) (isAdmin : Bool) : Dict :=
  [(py "actor", .dict [(py "is_admin", .bool isAdmin), (py "user_id", .str userId)]),
    (py "conversation_id", conversationId), (py "language", .str language), (py "text", .str text),
    (py "ts", ts), (py "v", .int 1)]

/-- The bytes of the canonical text. -/
def canonical (payload : Json) : Bytes := (compactText (sortKeys payload)).map Fin.val

section
variable {ts conversationId : Json} {language text userId : PyStr} {isAdmin : Bool}

theorem sortKeys_signedPayload (hts : Leaf ts) (hconversation : Leaf conversationId) :
    sortKeys (signedPayload ts conversationId language text userId isAdmin) =
      .dict (sortedPayload ts conversationId language text userId isAdmin) := by
  have hactor : sortKeysDict (actorDict userId isAdmin) = actorDict userId isAdmin := rfl
  unfold signedPayload obj
  simp only [List.map_cons, List.map_nil, sortKeys, sortKeysDict, hactor, hts.sortKeys,
    hconversation.sortKeys]
  rfl

theorem dumpsError_payload (ts conversationId : Json) (language text userId : PyStr) (isAdmin : Bool) :
    dumpsError 2 (signedPayload ts conversationId language text userId isAdmin) =
      (dumpsError 1 ts).or (dumpsError 1 conversationId) := by
  have hone : dumpsError 1 (.int 1) = none := by decide +kernel
  show (dumpsError 1 (.int 1)).or ((dumpsError 1 ts).or ((dumpsError 1 conversationId).or
    (none))) = _
  rw [hone, Option.none_or, Option.or_none]

theorem dumpsError_sortedPayload (hts : Leaf ts) (hconversation : Leaf conversationId) :
    dumpsError 2 (.dict (sortedPayload ts conversationId language text userId isAdmin)) = none := by
  have hone : dumpsError 1 (.int 1) = none := by decide +kernel
  show (dumpsError 1 conversationId).or ((dumpsError 1 ts).or (dumpsError 1 (.int 1))) = none
  rw [hone, hts.dumpsError, hconversation.dumpsError]
  rfl

theorem plain_sortedPayload [Runtime] (hts : Leaf ts) (hconversation : Leaf conversationId)
    (language text userId : PyStr) (isAdmin : Bool) :
    Held (.dict (sortedPayload ts conversationId language text userId isAdmin)) ∧
      AsciiKeys (.dict (sortedPayload ts conversationId language text userId isAdmin)) := by
  apply plain_dict
  · show ([py "actor", py "conversation_id", py "language", py "text", py "ts", py "v"] :
      List PyStr).Nodup
    decide
  · show ∀ key ∈ ([py "actor", py "conversation_id", py "language", py "text", py "ts", py "v"] :
      List PyStr), key.all _ = true
    decide
  · intro kv hkv
    simp only [sortedPayload, List.mem_cons, List.not_mem_nil, or_false] at hkv
    rcases hkv with rfl | rfl | rfl | rfl | rfl | rfl
    · apply plain_dict
      · show ([py "is_admin", py "user_id"] : List PyStr).Nodup
        decide
      · show ∀ key ∈ ([py "is_admin", py "user_id"] : List PyStr), key.all _ = true
        decide
      · intro kv hkv
        simp only [List.mem_cons, List.not_mem_nil, or_false] at hkv
        rcases hkv with rfl | rfl <;> exact ⟨trivial, trivial⟩
    · exact ⟨hconversation.held, hconversation.asciiKeys⟩
    · exact ⟨trivial, trivial⟩
    · exact ⟨trivial, trivial⟩
    · exact ⟨hts.held, hts.asciiKeys⟩
    · exact ⟨trivial, trivial⟩

theorem canonical_eq (hts : Leaf ts) (hconversation : Leaf conversationId) :
    canonical (signedPayload ts conversationId language text userId isAdmin) =
      (compactText (.dict (sortedPayload ts conversationId language text userId isAdmin))).map
        Fin.val := by
  rw [canonical, sortKeys_signedPayload hts hconversation]

theorem Leaf.join {v : Json} (h : Leaf v) : Leaf (joinValue v) := by
  cases h with
  | null => exact .null
  | bool b => exact .bool b
  | int h => exact .int h
  | str s => exact .str (joinPairs s)

theorem joinValue_sortedPayload :
    joinValue (.dict (sortedPayload ts conversationId language text userId isAdmin)) =
      .dict (sortedPayload (joinValue ts) (joinValue conversationId) (joinPairs language)
        (joinPairs text) (joinPairs userId) isAdmin) := rfl

/-- The signed bytes do not change when the pairs of the strings are joined. -/
theorem canonical_join (hts : Leaf ts) (hconversation : Leaf conversationId) :
    canonical (signedPayload (joinValue ts) (joinValue conversationId) (joinPairs language)
      (joinPairs text) (joinPairs userId) isAdmin) =
      canonical (signedPayload ts conversationId language text userId isAdmin) := by
  rw [canonical_eq hts.join hconversation.join, canonical_eq hts hconversation,
    ← joinValue_sortedPayload, compactText_joinValue]

/-- Up to the pairs of their strings, payloads with the same signed bytes have the same fields. -/
theorem canonical_cancel [Runtime] {ts' conversationId' : Json} {language' text' userId' : PyStr}
    {isAdmin' : Bool} (hts : Leaf ts) (hconversation : Leaf conversationId) (hts' : Leaf ts')
    (hconversation' : Leaf conversationId')
    (h : canonical (signedPayload ts conversationId language text userId isAdmin) =
      canonical (signedPayload ts' conversationId' language' text' userId' isAdmin')) :
    joinValue ts = joinValue ts' ∧ joinValue conversationId = joinValue conversationId' ∧
      joinPairs language = joinPairs language' ∧ joinPairs text = joinPairs text' ∧
      joinPairs userId = joinPairs userId' ∧ isAdmin = isAdmin' := by
  rw [canonical_eq hts hconversation, canonical_eq hts' hconversation'] at h
  have htext := List.map_injective_iff.mpr Fin.val_injective h
  have hplain := plain_sortedPayload hts hconversation language text userId isAdmin
  have hplain' := plain_sortedPayload hts' hconversation' language' text' userId' isAdmin'
  have hjoin := joinValue_eq_of_compactText hplain.1 hplain'.1 hplain.2 hplain'.2
    (dumpsError_sortedPayload hts hconversation) (dumpsError_sortedPayload hts' hconversation') htext
  rw [joinValue_sortedPayload, joinValue_sortedPayload] at hjoin
  simp only [sortedPayload, Json.dict.injEq, List.cons.injEq, Prod.mk.injEq, Json.bool.injEq,
    Json.str.injEq, true_and, and_true] at hjoin
  exact ⟨hjoin.2.2.2.2, hjoin.2.1, hjoin.2.2.1, hjoin.2.2.2.1, hjoin.1.2, hjoin.1.1⟩

end

/-! ## Signing -/

section
variable [Hmac]

/-- The key that a token gives, once it is not blank. -/
def keyOf (secret : PyStr) : Bytes := secret.map Fin.val

theorem deriveActorSigningSecret_ok {token secret : PyStr}
    (h : deriveActorSigningSecret token = .ok secret) : Ascii secret := by
  unfold deriveActorSigningSecret at h
  dsimp only at h
  split_ifs at h
  · rw [← Except.ok.inj h]
    exact ascii_nil
  · cases hkey : encode (strip token) with
    | error err =>
      rw [hkey] at h
      cases h
    | ok key =>
      rw [hkey] at h
      rw [← Except.ok.inj h]
      exact (Hmac.printable _ _).ascii

omit [Hmac] in
theorem encode_ascii {s : PyStr} (h : Ascii s) : encode s = .ok (s.map Fin.val) := by
  rw [encode, encodeUtf8_ascii h]

theorem hmacJson_eq {secret : PyStr} (hsecret : Ascii secret) (payload : Json) :
    hmacJson secret payload =
      match dumpsError 2 payload with
      | some err => .error (.dumps err)
      | none => .ok (Hmac.hexdigest (keyOf secret) (canonical payload)) := by
  unfold hmacJson dumpsCompact
  cases dumpsError 2 payload with
  | some err => rfl
  | none =>
    show (encode secret).bind (fun key => (encode (compactText (sortKeys payload))).bind
      fun message => .ok (Hmac.hexdigest key message)) = _
    rw [encode_ascii hsecret, encode_ascii (printable_compactText _).ascii]
    rfl

/-! ## What the node accepts -/

variable [Runtime]

/-- What the node reads of a body. -/
structure Reading where
  actor : Actor
  ts : Json
  text : PyStr
  conversationId : PyStr
  language : PyStr

/-- The payload whose signature the node expects. -/
def Reading.payload (r : Reading) : Json :=
  signedPayload r.ts (.str r.conversationId) r.language r.text r.actor.userId r.actor.isAdmin

structure Reads (room : Nat) (body : Dict) (r : Reading) : Prop where
  actor : actorFromPayload (body.getD (py "actor") .null) = some r.actor
  ts : body.getD (py "actor_ts") .null = r.ts
  text : strWithin room (body.getD (py "text") (.str [])) = .ok r.text
  conversationId : strWithin room (body.getD (py "conversation_id") (.str [])) = .ok r.conversationId
  language : strWithin room (body.getD (py "language") (.str (py "en"))) = .ok r.language

/-- The reading is of the time `now`, and `signature` is its signature under `secret`. -/
structure Signed (secret : PyStr) (now : Int) (r : Reading) (signature : PyStr) : Prop where
  window : ∃ ts, intOf r.ts = some ts ∧ |now - ts| ≤ actorSignatureWindow
  printable : dumpsError 2 r.payload = none
  digest : signature = Hmac.hexdigest (keyOf secret) (canonical r.payload)

omit [Hmac] [Runtime] in
theorem compareDigest_eq {a b : PyStr} (hb : Ascii b) : compareDigest a b = .ok true ↔ a = b := by
  unfold compareDigest
  constructor
  · intro h
    split_ifs at h
    exact of_decide_eq_true (Except.ok.inj h)
  · rintro rfl
    have hall : (a ++ a).all (fun c => decide (c.val < 0x80)) = true :=
      List.all_eq_true.mpr fun c hc => decide_eq_true ((hb.append hb) c hc)
    rw [if_pos hall, decide_eq_true rfl]

omit [Runtime] in
theorem signActor_iff {secret : PyStr} (hsecret : Ascii secret) (r : Reading) {expected : PyStr} :
    signActor secret r.actor r.text r.conversationId r.language r.ts = .ok expected ↔
      dumpsError 2 r.payload = none ∧
        expected = Hmac.hexdigest (keyOf secret) (canonical r.payload) := by
  have hsign : signActor secret r.actor r.text r.conversationId r.language r.ts = _ :=
    hmacJson_eq hsecret r.payload
  rw [hsign]
  cases dumpsError 2 r.payload with
  | some err => exact ⟨fun h => (nomatch h), fun h => (nomatch h.1)⟩
  | none => exact ⟨fun h => ⟨rfl, (Except.ok.inj h).symm⟩, fun h => h.2 ▸ rfl⟩

/-- The node trusts an actor when the signature of its reading is the expected one. -/
theorem actorFromSignedBody_iff {room : Nat} {body : Dict} {token secret : PyStr} {now : Int}
    {actor : Actor} (hsecret : deriveActorSigningSecret token = .ok secret) (hne : secret ≠ []) :
    actorFromSignedBody room body token now = .ok (some actor) ↔
      ∃ r signature, Reads room body r ∧ body.get? (py "actor_signature") = some (.str signature) ∧
        Signed secret now r signature ∧ r.actor = actor := by
  have hascii := deriveActorSigningSecret_ok hsecret
  unfold actorFromSignedBody
  constructor
  -- the checks in the order of the code: actor, secret, timestamp, window, texts, digest
  · intro h
    cases hactor : actorFromPayload (body.getD (py "actor") .null) with
    | none =>
      rw [hactor] at h
      cases h
    | some found =>
      rw [hactor, hsecret] at h
      obtain ⟨_, hsame, h⟩ := bind_ok_iff.mp h
      rw [← Except.ok.inj hsame, if_neg hne] at h
      dsimp only at h
      split at h
      · rename_i ts signature hts hsig
        rcases Decidable.em (signature = []) with hblank | hblank
        · rw [if_pos hblank] at h
          cases h
        rw [if_neg hblank] at h
        rcases Decidable.em (actorSignatureWindow < |now - ts|) with hlate | hwindow
        · rw [if_pos hlate] at h
          cases h
        rw [if_neg hwindow] at h
        obtain ⟨text, htext, h⟩ := bind_ok_iff.mp h
        obtain ⟨conversationId, hconversation, h⟩ := bind_ok_iff.mp h
        obtain ⟨language, hlanguage, h⟩ := bind_ok_iff.mp h
        obtain ⟨expected, hexpected, h⟩ := bind_ok_iff.mp h
        obtain ⟨same, hcompare, h⟩ := bind_ok_iff.mp h
        let r : Reading :=
          ⟨found, body.getD (py "actor_ts") .null, text, conversationId, language⟩
        have hdigest := (signActor_iff hascii r).mp hexpected
        cases same with
        | false => cases h
        | true =>
          rw [hdigest.2] at hcompare
          -- the expected digest is ASCII, so the comparison does not raise
          have heq := (compareDigest_eq (Hmac.printable _ _).ascii).mp hcompare
          cases h
          exact ⟨r, signature, ⟨hactor, rfl, htext, hconversation, hlanguage⟩, hsig,
            ⟨⟨ts, hts, not_lt.mp hwindow⟩, hdigest.1, heq⟩, rfl⟩
      · cases h
  · rintro ⟨r, signature, hreads, hsig, hsigned, rfl⟩
    obtain ⟨ts, hts, hwindow⟩ := hsigned.window
    have hblank : signature ≠ [] := by
      rw [hsigned.digest]
      exact Hmac.nonempty _ _
    have hexpected := (signActor_iff hascii r).mpr ⟨hsigned.printable, rfl⟩
    have hcompare : compareDigest signature
        (Hmac.hexdigest (keyOf secret) (canonical r.payload)) = .ok true :=
      (compareDigest_eq (Hmac.printable _ _).ascii).mpr hsigned.digest
    rw [hreads.actor, hsecret]
    dsimp only [bind, Except.bind]
    rw [if_neg hne, hreads.ts, hts, hsig]
    dsimp only
    rw [if_neg hblank, if_neg (not_lt.mpr hwindow), hreads.text]
    dsimp only
    rw [hreads.conversationId]
    dsimp only
    rw [hreads.language]
    dsimp only
    rw [hexpected]
    dsimp only
    rw [hcompare]
    rfl

/-! ## What the integration sends -/

/-- A body that carries a signed actor. -/
def sentBody (userInput : ConversationInput) (userId : PyStr) (isAdmin : Bool) (ts : Int)
    (signature : PyStr) : Dict :=
  [(py "text", .str userInput.text),
    (py "conversation_id", userInput.conversationId.elim .null .str),
    (py "language", .str userInput.language), (py "actor", .dict (actorDict userId isAdmin)),
    (py "actor_ts", .int ts), (py "actor_signature", .str signature)]

/-- The payload that the integration signs. -/
def sentPayload (userInput : ConversationInput) (userId : PyStr) (isAdmin : Bool) (ts : Int) : Json :=
  signedPayload (.int ts) (userInput.conversationId.elim .null .str) userInput.language
    userInput.text userId isAdmin

omit [Hmac] [Runtime] in
theorem leaf_conversation (conversationId : Option PyStr) : Leaf (conversationId.elim .null .str) := by
  cases conversationId with
  | none => exact .null
  | some s => exact .str s

/-- A signed body is the one that its signing succeeded for. -/
theorem requestBody_signed {userInput : ConversationInput} {userId token : PyStr}
    {isAdmin : Bool} {ts : Int} {body : Dict}
    (h : requestBody userInput (some (actorDict userId isAdmin)) token ts = .ok body)
    (hsigned : body.has (py "actor_signature") = true) :
    ∃ secret, deriveActorSigningSecret token = .ok secret ∧ secret ≠ [] ∧
      dumpsError 2 (sentPayload userInput userId isAdmin ts) = none ∧
      body = sentBody userInput userId isAdmin ts
        (Hmac.hexdigest (keyOf secret) (canonical (sentPayload userInput userId isAdmin ts))) := by
  unfold requestBody at h
  obtain ⟨secret, hsecret, h⟩ := bind_ok_iff.mp h
  rcases Decidable.em (secret = []) with hblank | hne
  · rw [if_pos hblank] at h
    rw [← Except.ok.inj h] at hsigned
    exact absurd (show false = true from hsigned) Bool.false_ne_true
  · rw [if_neg hne] at h
    obtain ⟨signature, hsignature, h⟩ := bind_ok_iff.mp h
    have hsign : Assist.signActor secret (actorDict userId isAdmin) userInput.text
        userInput.conversationId userInput.language ts = _ :=
      hmacJson_eq (deriveActorSigningSecret_ok hsecret) (sentPayload userInput userId isAdmin ts)
    rw [hsign] at hsignature
    cases hroom : dumpsError 2 (sentPayload userInput userId isAdmin ts) with
    | some err =>
      rw [hroom] at hsignature
      cases hsignature
    | none =>
      rw [hroom] at hsignature
      exact ⟨secret, hsecret, hne, rfl, Except.ok.inj hsignature ▸ (Except.ok.inj h).symm⟩

/-- What the session's JSON encoder writes is read back by `json.loads`, with split surrogate pairs
joined. -/
def ReadsBack (encode : Json → Option Bytes) (budget : Nat) : Prop :=
  ∀ v raw, Held v → AsciiKeys v → encode v = some raw →
    ∃ text, decodeUtf8 raw = some text ∧ loads budget text = .ok (joinValue v)

/-- `json.dumps` is such an encoder. -/
def encodeDumps (room : Nat) (v : Json) : Option Bytes :=
  match dumps room v with
  | .error _ => none
  | .ok text => encodeUtf8 text

omit [Hmac] in
theorem readsBack_dumps (room : Nat) : ReadsBack (encodeDumps room) room := by
  intro v raw hheld hkeys hraw
  unfold encodeDumps dumps at hraw
  cases hroom : dumpsError room v with
  | some err =>
    rw [hroom] at hraw
    cases hraw
  | none =>
    rw [hroom] at hraw
    exact ⟨dumpsText v, decodeUtf8_encodeUtf8 hraw, loads_dumpsText_join hheld hkeys hroom⟩

/-! ## Both ends together -/

/-- The strings of the input as they arrive. -/
def joinedInput (userInput : ConversationInput) : ConversationInput :=
  { userInput with
    text := joinPairs userInput.text
    conversationId := userInput.conversationId.map joinPairs
    language := joinPairs userInput.language }

omit [Hmac] [Runtime] in
theorem joinValue_sentBody (userInput : ConversationInput) (userId signature : PyStr) (isAdmin : Bool)
    (ts : Int) : joinValue (.dict (sentBody userInput userId isAdmin ts signature)) =
      .dict (sentBody (joinedInput userInput) (joinPairs userId) isAdmin ts (joinPairs signature)) := by
  obtain ⟨text, conversationId, language, id⟩ := userInput
  cases conversationId <;> rfl

omit [Hmac] in
theorem plain_sentBody (userInput : ConversationInput) (userId signature : PyStr) (isAdmin : Bool)
    (ts : Int) : Held (.dict (sentBody userInput userId isAdmin ts signature)) ∧
      AsciiKeys (.dict (sentBody userInput userId isAdmin ts signature)) := by
  have hactor : Held (.dict (actorDict userId isAdmin)) ∧ AsciiKeys (.dict (actorDict userId isAdmin)) := by
    apply plain_dict
    · show ([py "user_id", py "is_admin"] : List PyStr).Nodup
      decide
    · show ∀ key ∈ ([py "user_id", py "is_admin"] : List PyStr), key.all _ = true
      decide
    · intro kv hkv
      simp only [actorDict, List.mem_cons, List.not_mem_nil, or_false] at hkv
      rcases hkv with rfl | rfl <;> exact ⟨trivial, trivial⟩
  have hconversation := leaf_conversation userInput.conversationId
  apply plain_dict
  · show ([py "text", py "conversation_id", py "language", py "actor", py "actor_ts",
      py "actor_signature"] : List PyStr).Nodup
    decide
  · show ∀ key ∈ ([py "text", py "conversation_id", py "language", py "actor", py "actor_ts",
      py "actor_signature"] : List PyStr), key.all _ = true
    decide
  · intro kv hkv
    simp only [sentBody, List.mem_cons, List.not_mem_nil, or_false] at hkv
    rcases hkv with rfl | rfl | rfl | rfl | rfl | rfl
    · exact ⟨trivial, trivial⟩
    · exact ⟨hconversation.held, hconversation.asciiKeys⟩
    · exact ⟨trivial, trivial⟩
    · exact hactor
    · exact ⟨trivial, trivial⟩
    · exact ⟨trivial, trivial⟩

omit [Hmac] in
/-- The body that the node receives. -/
theorem received_body {encode : Json → Option Bytes} {budget : Nat} (hencode : ReadsBack encode budget)
    {userInput : ConversationInput} {userId signature : PyStr} {isAdmin : Bool} {ts : Int} {raw : Bytes}
    {received : Dict} (hraw : encode (.dict (sentBody userInput userId isAdmin ts signature)) = some raw)
    (hreceived : jsonBody budget raw = .ok received) :
    received = sentBody (joinedInput userInput) (joinPairs userId) isAdmin ts (joinPairs signature) := by
  have hbody := plain_sentBody userInput userId signature isAdmin ts
  obtain ⟨text, hdecode, hloads⟩ := hencode _ raw hbody.1 hbody.2 hraw
  rw [joinValue_sentBody] at hloads
  unfold jsonBody at hreceived
  rw [hdecode] at hreceived
  dsimp only at hreceived
  rw [hloads] at hreceived
  exact (Except.ok.inj hreceived).symm

/-- What the node reads of a body that was sent. -/
def readingOf (userInput : ConversationInput) (userId : PyStr) (isAdmin : Bool) (ts : Int) : Reading :=
  ⟨⟨strip userId, isAdmin⟩, .int ts, userInput.text, userInput.conversationId.getD (py "None"),
    userInput.language⟩

omit [Hmac] in
theorem reads_sentBody {room : Nat} {userInput : ConversationInput} {userId signature : PyStr}
    {isAdmin : Bool} {ts : Int} {r : Reading} :
    Reads room (sentBody userInput userId isAdmin ts signature) r ↔
      strip userId ≠ [] ∧ r = readingOf userInput userId isAdmin ts := by
  have hactor : actorFromPayload ((sentBody userInput userId isAdmin ts signature).getD (py "actor")
      .null) = if strip userId = [] then none else some ⟨strip userId, isAdmin⟩ := rfl
  have hconversation : strWithin room ((sentBody userInput userId isAdmin ts signature).getD
      (py "conversation_id") (.str [])) = .ok (userInput.conversationId.getD (py "None")) := by
    obtain ⟨text, conversationId, language, id⟩ := userInput
    cases conversationId <;> rfl
  constructor
  · intro h
    have hfound := h.actor
    rw [hactor] at hfound
    split_ifs at hfound with hblank
    have hconv := h.conversationId
    rw [hconversation] at hconv
    have htext := h.text
    have hlanguage := h.language
    have hts := h.ts
    constructor
    · exact hblank
    · obtain ⟨actor, ts', text, conversationId, language⟩ := r
      cases hfound
      cases hconv
      cases htext
      cases hlanguage
      cases hts
      rfl
  · rintro ⟨hne, rfl⟩
    constructor
    · rw [hactor, if_neg hne]
      rfl
    · rfl
    · rfl
    · exact hconversation
    · rfl

/-- The signed bytes of the two payloads do not collide under the key of the token. -/
def CollisionFree (token : PyStr) (p q : Json) : Prop :=
  ∀ secret, deriveActorSigningSecret token = .ok secret →
    Hmac.hexdigest (keyOf secret) (canonical p) = Hmac.hexdigest (keyOf secret) (canonical q) →
    canonical p = canonical q

/-- The turns whose actor the node recovers: a conversation id is given, and the user id is not padded
and holds no split surrogate pair. -/
structure Recoverable (userInput : ConversationInput) (userId : PyStr) : Prop where
  conversationId : userInput.conversationId ≠ none
  nonempty : userId ≠ []
  unpadded : strip userId = userId
  unsplit : Unsplit userId

omit [Hmac] [Runtime] in
/-- For a recoverable turn the node expects the bytes that were signed. -/
theorem canonical_readingOf {userInput : ConversationInput} {userId : PyStr} {isAdmin : Bool} {ts : Int}
    (hts : Leaf (.int ts)) (hunpadded : strip userId = userId) (hunsplit : Unsplit userId) :
    canonical (readingOf (joinedInput userInput) userId isAdmin ts).payload =
      canonical (signedPayload (.int ts) (.str (userInput.conversationId.getD (py "None")))
        userInput.language userInput.text userId isAdmin) := by
  have hnone : joinPairs (py "None") = py "None" := by decide
  have hconversation : (userInput.conversationId.map joinPairs).getD (py "None") =
      joinPairs (userInput.conversationId.getD (py "None")) := by
    cases userInput.conversationId with
    | none => exact hnone.symm
    | some s => rfl
  have hjoin : canonical (signedPayload (joinValue (.int ts))
      (joinValue (.str (userInput.conversationId.getD (py "None")))) (joinPairs userInput.language)
      (joinPairs userInput.text) (joinPairs userId) isAdmin) = _ := canonical_join hts (.str _)
  have hint : joinValue (.int ts) = .int ts := rfl
  have hstr : ∀ t, joinValue (.str t) = .str (joinPairs t) := fun _ => rfl
  rw [hint, hstr, joinPairs_of_unsplit hunsplit] at hjoin
  show canonical (signedPayload (.int ts) (.str ((userInput.conversationId.map joinPairs).getD
    (py "None"))) (joinPairs userInput.language) (joinPairs userInput.text) (strip userId) isAdmin) = _
  rw [hconversation, hunpadded]
  exact hjoin

theorem recovers_iff {encode : Json → Option Bytes} {budget room : Nat}
    (hencode : ReadsBack encode budget) {userInput : ConversationInput} {userId token : PyStr}
    {isAdmin : Bool} {ts now : Int} {body received : Dict} {raw : Bytes}
    (hbody : requestBody userInput (some (actorDict userId isAdmin)) token ts = .ok body)
    (hsigned : body.has (py "actor_signature") = true) (hraw : encode (.dict body) = some raw)
    (hreceived : jsonBody budget raw = .ok received) (hwindow : |now - ts| ≤ actorSignatureWindow)
    (hfree : ∀ r, Reads room received r →
      CollisionFree token (sentPayload userInput userId isAdmin ts) r.payload) :
    actorFromSignedBody room received token now = .ok (some ⟨userId, isAdmin⟩) ↔
      Recoverable userInput userId := by
  obtain ⟨secret, hsecret, hne, hroom, rfl⟩ := requestBody_signed hbody hsigned
  have hsignature := noPair_of_ascii (Hmac.printable (keyOf secret)
    (canonical (sentPayload userInput userId isAdmin ts))).ascii
  have hsent := received_body hencode hraw hreceived
  rw [joinPairs_of_unsplit hsignature] at hsent
  subst hsent
  -- the body could be printed, so its timestamp has few digits
  have hts : Leaf (.int ts) := by
    have herror : (dumpsError 1 (.int ts)).or _ = none :=
      (dumpsError_payload _ _ _ _ _ _).symm.trans hroom
    have hint : dumpsError 1 (.int ts) = none := (Option.or_eq_none_iff.mp herror).1
    rw [dumpsError] at hint
    split_ifs at hint with hlong
    exact .int (Nat.le_of_not_lt hlong)
  rw [actorFromSignedBody_iff hsecret hne]
  constructor
  · rintro ⟨r, signature, hreads, hsig, hvalid, hactor⟩
    have hread := reads_sentBody.mp hreads
    have hid : strip (joinPairs userId) = userId := by
      rw [hread.2] at hactor
      exact congrArg Actor.userId hactor
    have hunsplit : Unsplit userId := hid ▸ unsplit_strip (unsplit_joinPairs userId)
    rw [joinPairs_of_unsplit hunsplit] at hid hread
    constructor
    -- without a conversation id the node verifies the text None, where the sender signed null
    · intro hnone
      have hdigest : Hmac.hexdigest (keyOf secret) (canonical (sentPayload userInput userId isAdmin ts)) =
          signature := Json.str.inj (Option.some.inj hsig)
      have hcanonical := hfree r hreads secret hsecret (hdigest.trans hvalid.digest)
      rw [hread.2, canonical_readingOf hts hid hunsplit] at hcanonical
      have hfields := canonical_cancel hts (leaf_conversation userInput.conversationId) hts
        (.str (userInput.conversationId.getD (py "None"))) hcanonical
      rw [hnone] at hfields
      cases hfields.2.1
    · rw [← hid]
      exact hread.1
    · exact hid
    · exact hunsplit
  · intro h
    have hcanonical : canonical (readingOf (joinedInput userInput) userId isAdmin ts).payload = _ :=
      canonical_readingOf hts h.unpadded h.unsplit
    refine ⟨readingOf (joinedInput userInput) userId isAdmin ts, _, ?_, rfl, ?_, ?_⟩
    · rw [joinPairs_of_unsplit h.unsplit]
      apply reads_sentBody.mpr
      rw [h.unpadded]
      exact ⟨h.nonempty, rfl⟩
    · constructor
      · exact ⟨ts, rfl, hwindow⟩
      · show dumpsError 2 (signedPayload (.int ts) (.str _) _ _ _ _) = none
        rw [dumpsError_payload, hts.dumpsError]
        rfl
      · rw [hcanonical]
        obtain ⟨conversationId, hsome⟩ := Option.ne_none_iff_exists'.mp h.conversationId
        unfold sentPayload
        rw [hsome]
        rfl
    · show (⟨strip userId, isAdmin⟩ : Actor) = ⟨userId, isAdmin⟩
      rw [h.unpadded]

/-! ## One signature, one reading -/

/-- An accepted body was checked with a key that the token gives. -/
theorem secret_of_accepted {room : Nat} {body : Dict} {token : PyStr} {now : Int} {actor : Actor}
    (h : actorFromSignedBody room body token now = .ok (some actor)) :
    ∃ secret, deriveActorSigningSecret token = .ok secret ∧ secret ≠ [] := by
  unfold actorFromSignedBody at h
  cases hactor : actorFromPayload (body.getD (py "actor") .null) with
  | none =>
    rw [hactor] at h
    cases h
  | some found =>
    rw [hactor] at h
    obtain ⟨secret, hsecret, h⟩ := bind_ok_iff.mp h
    rcases Decidable.em (secret = []) with hblank | hne
    · rw [if_pos hblank] at h
      cases h
    · exact ⟨secret, hsecret, hne⟩

omit [Hmac] in
theorem unsplit_strWithin {room : Nat} {v : Json} {s : PyStr} (hv : Unpaired v)
    (h : strWithin room v = .ok s) : Unsplit s := by
  have hstr : strOf v = s := by
    cases v with
    | str t => exact Except.ok.inj h
    | _ =>
      unfold strWithin at h
      dsimp only at h
      split at h
      · cases h
      · exact Except.ok.inj h
  exact hstr ▸ unsplit_strOf hv

omit [Hmac] in
theorem unpaired_jsonBody {budget : Nat} {raw : Bytes} {body : Dict}
    (h : jsonBody budget raw = .ok body) : Unpaired (.dict body) := by
  unfold jsonBody at h
  cases hdecode : decodeUtf8 raw with
  | none =>
    rw [hdecode] at h
    cases h
  | some text =>
    rw [hdecode] at h
    dsimp only at h
    cases hloads : loads budget text with
    | error err =>
      rw [hloads] at h
      cases h
    | ok v =>
      rw [hloads] at h
      have hv := unpaired_of_loads (decoded_of_decodeUtf8 hdecode) hloads
      cases v with
      | null =>
        rw [← Except.ok.inj h]
        exact unpaired_dict.mpr nofun
      | dict entries => exact Except.ok.inj h ▸ hv
      | _ => cases h

omit [Hmac] [Runtime] in
theorem unsplit_actor {v : Json} {actor : Actor} (hv : Unpaired v)
    (h : actorFromPayload v = some actor) : Unsplit actor.userId := by
  unfold actorFromPayload at h
  split at h
  · rename_i raw
    split at h
    · rename_i userId hget
      split_ifs at h
      rw [← Option.some.inj h]
      exact unsplit_strip (unpaired_dict.mp hv _ (mem_of_lookup hget)).2
    · cases h
  · cases h

/-- No string of a reading of a received body holds a split pair. -/
structure Reading.Unsplit (r : Reading) : Prop where
  actor : Surrogates.Unsplit r.actor.userId
  text : Surrogates.Unsplit r.text
  conversationId : Surrogates.Unsplit r.conversationId
  language : Surrogates.Unsplit r.language

omit [Hmac] in
theorem Reads.unsplit {budget room : Nat} {raw : Bytes} {body : Dict} {r : Reading}
    (hbody : jsonBody budget raw = .ok body) (h : Reads room body r) : r.Unsplit := by
  have hplain := unpaired_jsonBody hbody
  have hdefault : ∀ s : PyStr, s.all (fun c => decide (c.val < 0x80)) = true → Unpaired (.str s) :=
    fun s hs => noPair_of_ascii (ascii_of_all hs)
  constructor
  · have hnull : Unpaired .null := trivial
    exact unsplit_actor (unpaired_getD hplain hnull) h.actor
  · exact unsplit_strWithin (unpaired_getD hplain (hdefault [] rfl)) h.text
  · exact unsplit_strWithin (unpaired_getD hplain (hdefault [] rfl)) h.conversationId
  · exact unsplit_strWithin (unpaired_getD hplain (hdefault (py "en") (by decide))) h.language

omit [Runtime] in
/-- The timestamp of an accepted reading. -/
theorem Signed.leaf {secret signature : PyStr} {now : Int} {r : Reading}
    (h : Signed secret now r signature) : Leaf r.ts ∧ joinValue r.ts = r.ts := by
  obtain ⟨ts, hts, -⟩ := h.window
  have herror : (dumpsError 1 r.ts).or _ = none := (dumpsError_payload _ _ _ _ _ _).symm.trans h.printable
  have hroom := (Option.or_eq_none_iff.mp herror).1
  cases hr : r.ts with
  | int i =>
    rw [hr, dumpsError] at hroom
    split_ifs at hroom with hlong
    exact ⟨.int (Nat.le_of_not_lt hlong), rfl⟩
  | bool b => exact ⟨.bool b, rfl⟩
  | _ =>
    rw [hr] at hts
    cases hts

/-- Two received bodies with the same signature that are both accepted are read alike. -/
theorem same_reading {budget room₁ room₂ : Nat} {raw₁ raw₂ : Bytes} {body₁ body₂ : Dict} {token : PyStr}
    {now₁ now₂ : Int} {actor₁ actor₂ : Actor} (hbody₁ : jsonBody budget raw₁ = .ok body₁)
    (hbody₂ : jsonBody budget raw₂ = .ok body₂)
    (hsame : body₁.get? (py "actor_signature") = body₂.get? (py "actor_signature"))
    (h₁ : actorFromSignedBody room₁ body₁ token now₁ = .ok (some actor₁))
    (h₂ : actorFromSignedBody room₂ body₂ token now₂ = .ok (some actor₂))
    (hfree : ∀ r₁ r₂, Reads room₁ body₁ r₁ → Reads room₂ body₂ r₂ →
      CollisionFree token r₁.payload r₂.payload) :
    ∃ r, Reads room₁ body₁ r ∧ Reads room₂ body₂ r ∧ r.actor = actor₁ ∧ r.actor = actor₂ := by
  obtain ⟨secret, hsecret, hne⟩ := secret_of_accepted h₁
  obtain ⟨r₁, signature₁, hreads₁, hsig₁, hvalid₁, hactor₁⟩ :=
    (actorFromSignedBody_iff hsecret hne).mp h₁
  obtain ⟨r₂, signature₂, hreads₂, hsig₂, hvalid₂, hactor₂⟩ :=
    (actorFromSignedBody_iff hsecret hne).mp h₂
  have hsignature : signature₁ = signature₂ := by
    rw [hsig₁, hsig₂] at hsame
    exact Json.str.inj (Option.some.inj hsame)
  have hcanonical := hfree r₁ r₂ hreads₁ hreads₂ secret hsecret
    (hvalid₁.digest.symm.trans (hsignature.trans hvalid₂.digest))
  have hfields := canonical_cancel hvalid₁.leaf.1 (.str r₁.conversationId) hvalid₂.leaf.1
    (.str r₂.conversationId) hcanonical
  have hunsplit₁ := hreads₁.unsplit hbody₁
  have hunsplit₂ := hreads₂.unsplit hbody₂
  have hts : r₁.ts = r₂.ts := by
    rw [← hvalid₁.leaf.2, ← hvalid₂.leaf.2]
    exact hfields.1
  have hconversation : r₁.conversationId = r₂.conversationId := by
    have hjoin : joinPairs r₁.conversationId = joinPairs r₂.conversationId := Json.str.inj hfields.2.1
    rwa [joinPairs_of_unsplit hunsplit₁.conversationId,
      joinPairs_of_unsplit hunsplit₂.conversationId] at hjoin
  have hlanguage := hfields.2.2.1
  rw [joinPairs_of_unsplit hunsplit₁.language, joinPairs_of_unsplit hunsplit₂.language] at hlanguage
  have htext := hfields.2.2.2.1
  rw [joinPairs_of_unsplit hunsplit₁.text, joinPairs_of_unsplit hunsplit₂.text] at htext
  have huser := hfields.2.2.2.2.1
  rw [joinPairs_of_unsplit hunsplit₁.actor, joinPairs_of_unsplit hunsplit₂.actor] at huser
  have heq : r₁ = r₂ := by
    obtain ⟨⟨userId₁, isAdmin₁⟩, ts₁, text₁, conversationId₁, language₁⟩ := r₁
    obtain ⟨⟨userId₂, isAdmin₂⟩, ts₂, text₂, conversationId₂, language₂⟩ := r₂
    cases hts
    cases hconversation
    cases hlanguage
    cases htext
    cases huser
    cases hfields.2.2.2.2.2
    rfl
  subst heq
  exact ⟨r₁, hreads₁, hreads₂, hactor₁, hactor₂⟩

/-- The node recovers the actor of a signed turn exactly when the turn is recoverable, and what it accepts
under one signature it reads alike. -/
theorem signature_round_trip (encode : Json → Option Bytes) (budget : Nat)
    (hencode : ReadsBack encode budget) (token : PyStr) :
    (∀ room getUser userInput userId isAdmin ts now body raw received,
      resolveActor getUser userInput = some (actorDict userId isAdmin) →
      requestBody userInput (resolveActor getUser userInput) token ts = .ok body →
      body.has (py "actor_signature") = true → encode (.dict body) = some raw →
      jsonBody budget raw = .ok received → |now - ts| ≤ actorSignatureWindow →
      (∀ r, Reads room received r →
        CollisionFree token (sentPayload userInput userId isAdmin ts) r.payload) →
      (actorFromSignedBody room received token now = .ok (some ⟨userId, isAdmin⟩) ↔
        Recoverable userInput userId)) ∧
    ∀ room₁ room₂ raw₁ raw₂ body₁ body₂ now₁ now₂ actor₁ actor₂,
      jsonBody budget raw₁ = .ok body₁ → jsonBody budget raw₂ = .ok body₂ →
      body₁.get? (py "actor_signature") = body₂.get? (py "actor_signature") →
      actorFromSignedBody room₁ body₁ token now₁ = .ok (some actor₁) →
      actorFromSignedBody room₂ body₂ token now₂ = .ok (some actor₂) →
      (∀ r₁ r₂, Reads room₁ body₁ r₁ → Reads room₂ body₂ r₂ →
        CollisionFree token r₁.payload r₂.payload) →
      ∃ r, Reads room₁ body₁ r ∧ Reads room₂ body₂ r ∧ r.actor = actor₁ ∧ r.actor = actor₂ := by
  constructor
  · intro room getUser userInput userId isAdmin ts now body raw received hresolve hbody hsigned hraw
      hreceived hwindow hfree
    rw [hresolve] at hbody
    exact recovers_iff hencode hbody hsigned hraw hreceived hwindow hfree
  · intro room₁ room₂ raw₁ raw₂ body₁ body₂ now₁ now₂ actor₁ actor₂ hbody₁ hbody₂ hsame h₁ h₂ hfree
    exact same_reading hbody₁ hbody₂ hsame h₁ h₂ hfree

end

/-! ## An administrator's turn -/

def sampleText (conversationId : PyStr) : PyStr :=
  py "\x7b\"actor\":\x7b\"is_admin\":true,\"user_id\":\"admin1\"\x7d,\"conversation_id\":" ++
    conversationId ++ py ",\"language\":\"en\",\"text\":\"hi\",\"ts\":1700000000,\"v\":1\x7d"

def sampleSecret : PyStr :=
  py "88eb2b7264c4e53b66c72a63982b30d320c601695efe1e4ca1e55e31f80bbad5"

/-- The digests of the sample turns, under the token `tok` and the secret derived from it. -/
def sampleDigests : List ((PyStr × PyStr) × PyStr) :=
  [((py "tok", py "openclaw-hass-node actor-signing v1"), sampleSecret),
    ((sampleSecret, sampleText (py "\"c1\"")),
      py "598f9db0f9767c3d0dded25604c6713d07df8e8d78eacd5a3ada77b9cf5800bb"),
    ((sampleSecret, sampleText (py "null")),
      py "e7682b692bd7bcf769a383c8ec04c490f5085017a7d6e383d1d02469c83a959a"),
    ((sampleSecret, sampleText (py "\"None\"")),
      py "17af2cf2ab708908b7f3d7f296df466eb203213f607aed044f44cccb5626aedd")]

@[reducible] def sampleHmac : Hmac where
  hexdigest key message :=
    ((sampleDigests.find? fun e => key = e.1.1.map Fin.val ∧ message = e.1.2.map Fin.val).map
      Prod.snd).getD (List.replicate 64 48)
  printable key message := by
    have hall : ∀ e ∈ sampleDigests,
        e.2.all (fun c => decide (0x20 ≤ c.val ∧ c.val < 0x7F)) = true := by decide +kernel
    cases hfind : sampleDigests.find? _ with
    | none => exact printable_replicate (by decide) 64
    | some e => exact printable_of_all (hall e (List.mem_of_find?_eq_some hfind))
  nonempty key message := by
    have hall : ∀ e ∈ sampleDigests, e.2 ≠ [] := by decide +kernel
    cases hfind : sampleDigests.find? _ with
    | none => exact List.cons_ne_nil _ _
    | some e => exact hall e (List.mem_of_find?_eq_some hfind)

def sampleUser (id : PyStr) : Option User :=
  some ⟨id, some (py "Ada"), false, true, false, false, [py "homeassistant"]⟩

def sampleInput (conversationId : Option PyStr) : ConversationInput :=
  ⟨py "hi", conversationId, py "en", some (py "admin1")⟩

/-- The body of the turn in the conversation `c1`. -/
def sampleBody : Dict :=
  sentBody (sampleInput (some (py "c1"))) (py "admin1") true 1700000000
    (py "598f9db0f9767c3d0dded25604c6713d07df8e8d78eacd5a3ada77b9cf5800bb")

theorem signature_round_trip_sample :
    let _ := Runtime.ofTable []
    let _ := sampleHmac
    actorFromSignedBody 10 sampleBody (py "tok") 1700000300 = .ok (some ⟨py "admin1", true⟩) ∧
      ∃ r, Reads 10 sampleBody r ∧ r.actor = ⟨py "admin1", true⟩ := by
  intro _ _
  have htheorem := signature_round_trip (encodeDumps 10) 10 (readsBack_dumps 10) (py "tok")
  have hraw : encodeDumps 10 (.dict sampleBody) = some ((encodeDumps 10 (.dict sampleBody)).getD []) := by
    decide +kernel
  have hreceived : jsonBody 10 ((encodeDumps 10 (.dict sampleBody)).getD []) = .ok sampleBody := by
    decide +kernel
  have hread : ∀ r, Reads 10 sampleBody r →
      r = readingOf (sampleInput (some (py "c1"))) (py "admin1") true 1700000000 :=
    fun r hr => (reads_sentBody.mp hr).2
  have haccepted : actorFromSignedBody 10 sampleBody (py "tok") 1700000300 =
      .ok (some ⟨py "admin1", true⟩) := by
    apply (htheorem.1 10 sampleUser (sampleInput (some (py "c1"))) (py "admin1") true 1700000000
      1700000300 sampleBody _ sampleBody rfl (by decide +kernel) rfl hraw hreceived (by decide) _).mpr
    · exact ⟨by decide, by decide, by decide, noPair_of_ascii (ascii_of_all (by decide))⟩
    · intro r hr _ _ _
      rw [hread r hr]
      rfl
  constructor
  · exact haccepted
  · obtain ⟨r, hr, -, hactor, -⟩ := htheorem.2 10 10 _ _ sampleBody sampleBody 1700000300 1700000300 _ _
      hreceived hreceived rfl haccepted haccepted (by
        intro r r' hr hr' _ _ _
        rw [hread r hr, hread r' hr'])
    exact ⟨r, hr, hactor⟩

/-- What the node makes of the sample turn, signed and received at the same time. -/
def sampleActor (conversationId : Option PyStr) : Option (Except ActorError (Option (PyStr × Bool))) :=
  let _ := Runtime.ofTable []
  let _ := sampleHmac
  let userInput := sampleInput conversationId
  match requestBody userInput (resolveActor sampleUser userInput) (py "tok") 1700000000 with
  | .error _ => none
  | .ok body => do
    let raw ← encodeDumps 10 (.dict body)
    match jsonBody 10 raw with
    | .error _ => none
    | .ok received => some ((actorFromSignedBody 10 received (py "tok") 1700000000).map
        fun actor => actor.map fun actor => (actor.userId, actor.isAdmin))

/-- Without a conversation id the administrator is not recovered. -/
theorem new_conversation_rejected : sampleActor none = some (.ok none) := by
  decide +kernel

end HassNode.ActorSigning
