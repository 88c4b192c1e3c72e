import HassNode.ChatRelay

/-!
# The body of a turn

`_stream_turn_locked`, `_relay_turn_locked` and `_ensure_session` of `chat_relay.py`, cut at their
suspensions: `openTurn` runs from the start of the body and `resume` from a suspension, each to the
next suspension or to the end of the body.  What the outside does to a suspended turn is a `Signal`.
-/

namespace HassNode.ChatRelay

open Py

/-- How a suspended turn goes on. -/
inductive Signal where
  /-- What it waits for is there; `req` is the next id that `uuid4` draws, and `expired` tells that
  the deadline of the turn has passed. -/
  | ready (req : PyStr) (expired : Bool)
  /-- The time limit of the wait, with the deadline passed or not. -/
  | timeout (expired : Bool)
  /-- `self._send` raised. -/
  | sendFailed (message : PyStr)
  /-- `asyncio.CancelledError`, inside `self._send` or in the wait. -/
  | cancel (sending : Bool)

namespace Relay

section
variable [Runtime]

/-! ## `_ensure_session` -/

/-- `str(payload.get(key, "") or "")`. -/
def textField (payload : Dict) (key : String) : PyStr :=
  match Dict.get? payload (py key) with
  | none => []
  | some v => if truthy v then strOf v else []

/-- The canonical key of a subscribe response. -/
def canonicalOf (sessionKey : PyStr) : Json → PyStr
  | .dict response =>
    match Dict.get? response (py "key") with
    | some (.str key) => if key ≠ [] then key else sessionKey
    | _ => sessionKey
  | _ => sessionKey

/-- The ids of the approvals that a subscribe response replays. -/
def replayedIds : Json → List PyStr
  | .dict response =>
    match Dict.get? response (py "approvalReplay") with
    | some (.dict replay) =>
      match Dict.get? replay (py "approvals") with
      | some (.list approvals) => approvals.filterMap fun
        | .dict a => match Dict.get? a (py "id") with
          | none | some .null => none
          | some id => some (strOf id)
        | _ => none
      | _ => []
    | _ => []
  | _ => []

/-- What `_ensure_session` records of the subscribe response. -/
def registerSession (r : Relay) (sessionKey : PyStr) (response : Json) : Relay :=
  let canonical := canonicalOf sessionKey response
  let pendingIds := (replayedIds response).toFinset
  { r with
    replayPending := if pendingIds ≠ ∅ then r.replayPending.set canonical pendingIds
      else r.replayPending
    canonicalByRaw := r.canonicalByRaw.set sessionKey canonical
    subscribed := insert canonical r.subscribed }

/-- `self._pending.pop(req_id, None)`. -/
def popPending (r : Relay) (req : PyStr) : Relay := { r with pending := r.pending.erase req }

/-- `sessions.messages.subscribe` behind the answered request `req`. -/
def subscribeAfter (r : Relay) (req next : PyStr) (includeApprovals : Bool) : Relay × Halt :=
  ((r.popPending req).newFuture next, .at (.subscribe next r.next includeApprovals))

/-! ## `chat.send` -/

/-- Step 1: the per-turn state behind the pending-run sentinel. -/
def install (r : Relay) (t : Turn) (canonical : PyStr) : Relay :=
  if t.stream then r.installStream canonical t.useToolFrames else r.installReply canonical

/-- `_prepare_pending`, and the canonical key of the request. -/
def prepareSend (r : Relay) (canonical req : PyStr) : Relay :=
  { r.newFuture req with chatSendCanonical := r.chatSendCanonical.set req canonical }

/-- Steps 1 and 2: the per-turn state is installed and `chat.send` goes out. -/
def sendTurn (r : Relay) (t : Turn) (canonical req : PyStr) (expired : Bool) : Relay × Halt :=
  if expired then
    ((r.install t canonical).cleanupPendingTurn canonical t.stream,
      .out (.raised ⟨py "TIMEOUT", py "Turn deadline expired before chat.send"⟩))
  else
    ((r.install t canonical).prepareSend canonical req,
      .at (.send canonical r.next req (r.install t canonical).next))

/-- The body up to its first suspension. -/
def openTurn (r : Relay) (t : Turn) (req : PyStr) (expired : Bool) : Relay × Halt :=
  match r.canonicalByRaw.lookup t.sessionKey with
  | some canonical =>
    if canonical ∈ r.subscribed then r.sendTurn t canonical req expired
    else (r.newFuture req, .at (.create req r.next))
  | none => (r.newFuture req, .at (.create req r.next))

/-- The release of the bookkeeping of one `chat.send`. -/
def releaseSend (r : Relay) (req : PyStr) : Relay :=
  { r.popPending req with chatSendCanonical := r.chatSendCanonical.erase req }

/-- The end of a `chat.send` that was not acknowledged. -/
def failSend (r : Relay) (t : Turn) (canonical req : PyStr) (error : Outcome) : Relay × Halt :=
  ((r.releaseSend req).cleanupPendingTurn canonical t.stream, .out error)

/-- The run id of an acknowledgement. -/
def runIdOf : Json → PyStr
  | .dict ack => textField ack "runId"
  | _ => []

/-! ## The reply -/

/-- `self._reply_events.pop(canonical_key, None)`. -/
def popReply (r : Relay) (canonical : PyStr) : Relay :=
  { r with replyEvents := r.replyEvents.erase canonical }

/-- The terminal text, else the last one as a truncated reply. -/
def capturedText (r : Relay) (canonical : PyStr) : PyStr :=
  let terminal := r.terminalAssistantText.getD canonical []
  if terminal ≠ [] then terminal else r.lastAssistantText.getD canonical []

/-- `relay_turn` after its wait. -/
def replyText (r : Relay) (t : Turn) (canonical runId : PyStr) : Relay × Halt :=
  (r.popReply canonical,
    .out (if r.capturedText canonical ≠ [] then .reply (r.capturedText canonical)
      else .raised ⟨py "NO_REPLY", py "No assistant reply captured for session " ++ t.sessionKey ++
        py " (canonical=" ++ canonical ++ py ", runId=" ++ runId ++ py ")"⟩))

/-- A text behind an open status line starts on a new line. -/
def separated (r : Relay) (canonical item : PyStr) : PyStr :=
  if r.textStatusOpen.getD canonical false ∧ item ≠ [] ∧ ¬ isPlainTextStatusChunk item ∧
    ¬ startsWith item [10] then 10 :: item else item

/-- The stream loop handles an item; past the deadline it only drains. -/
def takeItem (r : Relay) (canonical : PyStr) (consumer : Nat) (loop : Loop) :
    Chunk → Relay × Halt
  | .close => (r.closeStream canonical, .out .closed)
  | .error e => (r.closeStream canonical, .out (.raised e))
  | .frame f => (r, .at (.yield canonical consumer loop (.frame f)))
  | .text item =>
    if loop.expired then (r, .at (.yield canonical consumer loop (.text item)))
    else
      ({ r with
        textHasVisibleOutput := r.textHasVisibleOutput.set canonical true
        textStatusOpen := r.textStatusOpen.set canonical (isPlainTextStatusChunk item) },
        .at (.yield canonical consumer
          { loop with sentKeepaliveCount := 0, hasYieldedUserVisible := true }
          (.text (r.separated canonical item))))

/-- A silent gap: one visible progress line at first, then transport-only keepalives. -/
def keepalive (r : Relay) (t : Turn) (canonical : PyStr) (consumer : Nat) (loop : Loop) :
    Relay × Halt :=
  if loop.sentKeepaliveCount = 0 ∧ ¬ t.useToolFrames ∧ r.activeTool.getD canonical [] = [] then
    (r, .at (.yield canonical consumer
      { loop with sentKeepaliveCount := 1, hasYieldedUserVisible := true }
      (.progress ((if loop.hasYieldedUserVisible then [10] else []) ++ streamProgressDelta))))
  else
    (r, .at (.yield canonical consumer
      { loop with sentKeepaliveCount := loop.sentKeepaliveCount + 1 } .keepalive))

/-- What the loop does first when the consumer comes back: behind its progress line it sets the two
flags of the session.  A generator that is closed at that line never does. -/
def yielded (r : Relay) (canonical : PyStr) : Output → Relay
  | .progress _ =>
    { r with
      textHasVisibleOutput := r.textHasVisibleOutput.set canonical true
      textStatusOpen := r.textStatusOpen.set canonical true }
  | _ => r

omit [Runtime] in
@[simp] theorem yielded_queues (r : Relay) (canonical : PyStr) (output : Output) :
    (r.yielded canonical output).queues = r.queues := by
  cases output <;> rfl

omit [Runtime] in
@[simp] theorem yielded_toRegistry (r : Relay) (canonical : PyStr) (output : Output) :
    (r.yielded canonical output).toRegistry = r.toRegistry := by
  cases output <;> rfl

/-- The top of the stream loop.  An item that is there is taken without a suspension. -/
def loopTop (r : Relay) (canonical : PyStr) (consumer : Nat) (loop : Loop) : Relay × Halt :=
  match r.queues consumer with
  | item :: rest =>
    { r with queues := Function.update r.queues consumer rest }.takeItem canonical consumer loop item
  | [] =>
    if loop.expired then (r.closeStream canonical, .out .closed)
    else (r, .at (.queue canonical consumer loop))

/-- Step 3: the run id of the acknowledgement takes the place of the sentinel. -/
def recordRun (r : Relay) (canonical runId : PyStr) : Relay :=
  { r with
    activeRunId := if runId ≠ [] then r.activeRunId.set canonical runId
      else r.activeRunId.erase canonical }

/-- `relay_turn` after the acknowledgement. -/
def awaitReply (r : Relay) (t : Turn) (canonical : PyStr) (consumer : Nat) (runId : PyStr)
    (expired : Bool) : Relay × Halt :=
  -- the terminal may already be in hand from the same batch
  if r.terminalAssistantText.getD canonical [] ≠ [] then
    (r.popReply canonical, .out (.reply (r.terminalAssistantText.getD canonical [])))
  else if expired ∨ r.events consumer then r.replyText t canonical runId
  else (r, .at (.reply canonical consumer runId))

/-- The turn after the acknowledgement of its `chat.send`. -/
def acknowledged (r : Relay) (t : Turn) (canonical : PyStr) (consumer : Nat) (ack : Json)
    (expired : Bool) : Relay × Halt :=
  if t.stream then
    (r.recordRun canonical (runIdOf ack)).loopTop canonical consumer { expired := expired }
  else (r.recordRun canonical (runIdOf ack)).awaitReply t canonical consumer (runIdOf ack) expired

/-! ## Resumption -/

section
variable [CaseMap]

/-- `exc.code.upper()`. -/
def isBenignCreate (e : RelayError) : Bool :=
  hasSubstr (CaseMap.upper e.code) (py "ALREADY_EXISTS")

def rpcTimeout (method : String) : Outcome :=
  .raised ⟨py "TIMEOUT", py method ++ py " timed out after 10.0s"⟩

/-- The code of a turn from a suspension to the next; `none` when the signal cannot come there. -/
def resume (r : Relay) (t : Turn) : Await → Signal → Option (Relay × Halt)
  | .create req future, .ready next _ =>
    match r.futures future with
    | .waiting => none
    | .result _ => some (r.subscribeAfter req next true)
    | .exception e =>
      if isBenignCreate e then some (r.subscribeAfter req next true)
      else some (r.popPending req, .out (.raised e))
  | .create req _, .timeout _ => some (r.popPending req, .out (rpcTimeout "sessions.create"))
  | .create req _, .sendFailed _ => some (r.popPending req, .out .escaped)
  -- the `except Exception` around `self._send` does not see a `CancelledError`
  | .create req _, .cancel sending =>
    some (if sending then r else r.popPending req, .out .cancelled)
  | .subscribe req future includeApprovals, .ready next expired =>
    match r.futures future with
    | .waiting => none
    | .result response =>
      some (((r.popPending req).registerSession t.sessionKey response).sendTurn t
        (canonicalOf t.sessionKey response) next expired)
    | .exception e =>
      if includeApprovals ∧ CaseMap.upper e.code ∈ approvalOptInRefusals then
        some (r.subscribeAfter req next false)
      else some (r.popPending req, .out (.raised e))
  | .subscribe req _ _, .timeout _ =>
    some (r.popPending req, .out (rpcTimeout "sessions.messages.subscribe"))
  | .subscribe req _ _, .sendFailed _ => some (r.popPending req, .out .escaped)
  | .subscribe req _ _, .cancel sending =>
    some (if sending then r else r.popPending req, .out .cancelled)
  | .send canonical consumer req future, .ready _ expired =>
    match r.futures future with
    | .waiting => none
    | .result ack => some ((r.releaseSend req).acknowledged t canonical consumer ack expired)
    | .exception e => some (r.failSend t canonical req (.raised e))
  | .send canonical _ req _, .timeout _ =>
    some (r.failSend t canonical req (.raised ⟨py "TIMEOUT", py "chat.send timed out"⟩))
  | .send canonical _ req _, .sendFailed message =>
    some (r.failSend t canonical req (.raised ⟨py "RELAY_FAILED", message⟩))
  | .send canonical _ req _, .cancel _ => some (r.failSend t canonical req .cancelled)
  | .queue canonical consumer loop, .ready _ _ =>
    match r.queues consumer with
    | [] => none
    | item :: rest => some ({ r with queues := Function.update r.queues consumer rest }.takeItem
        canonical consumer loop item)
  | .queue canonical consumer loop, .timeout expired =>
    if expired then some (r.closeStream canonical, .out .closed)
    else some (r.keepalive t canonical consumer loop)
  | .queue _ _ _, .sendFailed _ => none
  | .queue canonical _ _, .cancel _ => some (r.closeStream canonical, .out .cancelled)
  | .yield canonical consumer loop output, .ready _ expired =>
    some ((r.yielded canonical output).loopTop canonical consumer
      { loop with expired := loop.expired || expired })
  -- a generator is suspended at a `yield` without a task: it is resumed or abandoned
  | .yield _ _ _ _, _ => none
  | .reply canonical consumer runId, .ready _ _ =>
    if r.events consumer then some (r.replyText t canonical runId) else none
  | .reply canonical _ runId, .timeout _ => some (r.replyText t canonical runId)
  | .reply _ _ _, .sendFailed _ => none
  -- `CancelledError` passes the `pop` of the reply event by
  | .reply _ _ _, .cancel _ => some (r, .out .cancelled)

end

end

end Relay

end HassNode.ChatRelay
