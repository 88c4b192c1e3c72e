import HassNode.Library.OrderedDict
import HassNode.Py.Text
import HassNode.RolePolicy
import Mathlib.Data.Finset.Insert
import Mathlib.Logic.Function.Basic

/-!
# The chat relay

`chat_relay.py`: the dictionaries that the turns of one relay share, and the code of a turn between
two suspensions.  A turn runs without interruption from one `await` or `yield` to the next; `Await`
is where it is suspended, with the local variables that are read afterwards, and `resume` the code
from there to the next suspension.  Objects that outlive their dictionary entry (futures, queues,
events, locks) are numbered.
-/

namespace HassNode.ChatRelay

open Py

/-- A `dict[str, ν]`. -/
abbrev StrDict (ν : Type) := OrderedDict PyStr ν

/-- `ChatRelayError`, without the remedy that only the owner check sets. -/
structure RelayError where
  code : PyStr
  message : PyStr
deriving DecidableEq

inductive Future where
  | waiting
  | result (payload : Json)
  | exception (error : RelayError)

structure ToolProgressFrame where
  phase : PyStr
  name : PyStr
  id : PyStr
  seq : Nat
deriving DecidableEq

/-- An item of a delta queue. -/
inductive Chunk where
  | text (s : PyStr)
  | close
  | error (e : RelayError)
  | frame (f : ToolProgressFrame)
deriving DecidableEq

/-! ## The state of a relay -/

/-- The dictionaries that say which turn an answer, an event or an invoke belongs to. -/
structure Registry where
  pending : StrDict Nat := ∅
  /-- Request id of a `chat.send` to the canonical session key of its turn. -/
  chatSendCanonical : StrDict PyStr := ∅
  canonicalByRaw : StrDict PyStr := ∅
  /-- Principals of the turns in flight, by raw session key. -/
  activeTurns : StrDict Caller := ∅
  endedTurns : StrDict Int := ∅
  subscribed : Finset PyStr := ∅
  replyEvents : StrDict Nat := ∅
  deltaQueues : StrDict Nat := ∅
  activeRunId : StrDict PyStr := ∅
  turnLocks : StrDict Nat := ∅

/-- The dictionaries that say what the current turn of a session has shown, by canonical key. -/
structure Display where
  replayPending : StrDict (Finset PyStr) := ∅
  lastAssistantText : StrDict PyStr := ∅
  terminalAssistantText : StrDict PyStr := ∅
  seenSameRunEvent : StrDict Bool := ∅
  activeTool : StrDict PyStr := ∅
  toolProgressSeq : StrDict Nat := ∅
  activeToolId : StrDict PyStr := ∅
  activeToolSeq : StrDict Nat := ∅
  useToolFrames : StrDict Bool := ∅
  textToolName : StrDict PyStr := ∅
  textToolCount : StrDict Nat := ∅
  startedToolIds : StrDict (Finset PyStr) := ∅
  textHasVisibleOutput : StrDict Bool := ∅
  textStatusOpen : StrDict Bool := ∅

/-- The objects, each by its number, and the request ids that `uuid4` has drawn. -/
structure Objects where
  futures : Nat → Future := fun _ => .waiting
  queues : Nat → List Chunk := fun _ => []
  /-- `Event.is_set()`. -/
  events : Nat → Bool := fun _ => false
  /-- `Lock.locked()`. -/
  locked : Nat → Bool := fun _ => false
  next : Nat := 0
  drawn : List PyStr := []

structure Relay extends Registry, Display, Objects

/-! ## Constants -/

/-- `_PENDING_RUN_ID`. -/
def pendingRunId : PyStr := py "__pending_chat_send_ack__"

def sessionKeyPrefix : PyStr := py "ha-assist:"

/-- `_ENDED_TURN_TTL_S`, in nanoseconds. -/
def endedTurnTtl : Int := 300 * 1000000000

def endedTurnMax : Nat := 256

def streamProgressDelta : PyStr := py "Working on it..."

def approvalWaitingLine : PyStr :=
  py "\n⏸ Approval required, waiting on you (Discord / Control UI)"

def approvalDecisionPrefix : PyStr := py "\nApproval decision: "

def approvalOptInRefusals : List PyStr :=
  [py "FORBIDDEN", py "UNAVAILABLE", py "INVALID_REQUEST"]

/-- `_is_plain_text_status_chunk`. -/
def isPlainTextStatusChunk (text : PyStr) : Bool :=
  text ∈ [streamProgressDelta, approvalWaitingLine] || startsWith text approvalDecisionPrefix ||
    startsWith text (py "\n🔧 Calling ") || startsWith text (py "🔧 Calling ") ||
    startsWith text (py " (x") || text = py " ✓" || startsWith text (py " ✗ ")

/-! ## Turns -/

structure Actor where
  userId : PyStr
  isAdmin : Bool

/-- `TurnAuthz`, as far as the registry and the routing of a turn read it. -/
structure TurnAuthz where
  actor : Option Actor
  role : Authz.Role
  agentId : PyStr
  forbidden : List PyStr

/-- `UNTRUSTED`. -/
def untrusted : Caller :=
  ⟨.user, py "<untrusted>", Authz.forbiddenForRole ⟨fun _ => none⟩ .user⟩

/-- `Caller.from_turn(authz) if authz else UNTRUSTED`. -/
def principalOf : Option TurnAuthz → Caller
  | none => untrusted
  | some authz =>
    ⟨authz.role.toCaller, (authz.actor.map (·.userId)).getD (py "<anonymous>"), authz.forbidden⟩

/-- `_session_key`, after `authz.agent_id if authz is not None and authz.agent_id else None`. -/
def sessionKeyOf (conversationId : PyStr) (authz : Option TurnAuthz) : PyStr :=
  let base := sessionKeyPrefix ++ conversationId
  let agentId := (authz.map (·.agentId)).getD []
  if agentId ≠ [] then py "agent:" ++ agentId ++ py ":" ++ base else base

/-- The local variables of the stream loop; `expired` once the deadline has passed. -/
structure Loop where
  sentKeepaliveCount : Nat := 0
  hasYieldedUserVisible : Bool := false
  expired : Bool := false
deriving DecidableEq

/-- What `stream_turn` yields.  Its progress line is a text like any other for the consumer. -/
inductive Output where
  | text (s : PyStr)
  | progress (s : PyStr)
  | keepalive
  | frame (f : ToolProgressFrame)
deriving DecidableEq

/-- Where the body of a turn is suspended. -/
inductive Await where
  /-- `sessions.create`. -/
  | create (req : PyStr) (future : Nat)
  /-- `sessions.messages.subscribe`, at first with `includeApprovals`. -/
  | subscribe (req : PyStr) (future : Nat) (includeApprovals : Bool)
  /-- `chat.send`: the frame is being sent or its acknowledgement awaited. -/
  | send (canonical : PyStr) (consumer : Nat) (req : PyStr) (future : Nat)
  /-- `queue.get()` of the stream loop. -/
  | queue (canonical : PyStr) (consumer : Nat) (loop : Loop)
  /-- `yield output`: the consumer of the stream has the control. -/
  | yield (canonical : PyStr) (consumer : Nat) (loop : Loop) (output : Output)
  /-- `reply_event.wait()`. -/
  | reply (canonical : PyStr) (consumer : Nat) (runId : PyStr)
deriving DecidableEq

inductive Outcome where
  | reply (text : PyStr)
  | closed
  | raised (error : RelayError)
  /-- An exception of the sender that is not a `ChatRelayError`. -/
  | escaped
  | cancelled
deriving DecidableEq

/-- The end of an uninterrupted piece of a turn's body. -/
inductive Halt where
  | at (a : Await)
  | out (o : Outcome)
deriving DecidableEq

inductive Phase where
  /-- In `_require_resolvable_owner`. -/
  | owner
  | locking (lock : Nat)
  | running (lock : Nat) (a : Await)
  /-- An abandoned stream: the turn has ended, its inner generator waits to be closed. -/
  | closing (canonical : PyStr)
  | ended (outcome : Outcome)
deriving DecidableEq

structure Turn where
  stream : Bool
  sessionKey : PyStr
  principal : Caller
  useToolFrames : Bool
  phase : Phase := .owner

namespace Relay

/-! ## Objects -/

/-- `_pending[req_id] = loop.create_future()` for a fresh request id. -/
def newFuture (r : Relay) (req : PyStr) : Relay :=
  { r with
    pending := r.pending.set req r.next
    futures := Function.update r.futures r.next .waiting
    next := r.next + 1
    drawn := req :: r.drawn }

def putNowait (r : Relay) (queue : Nat) (chunk : Chunk) : Relay :=
  { r with queues := Function.update r.queues queue (r.queues queue ++ [chunk]) }

/-- `_turn_locks.setdefault(session_key, asyncio.Lock())`. -/
def turnLock (r : Relay) (sessionKey : PyStr) : Relay × Nat :=
  match r.turnLocks.lookup sessionKey with
  | some lock => (r, lock)
  | none =>
    -- a lock that was not handed out yet is not locked
    ({ r with turnLocks := r.turnLocks.set sessionKey r.next, next := r.next + 1 }, r.next)

/-! ## The registry of callers -/

section
variable [CaseMap]

/-- `_prune_ended`: entries past the time to live go, then the oldest above the bound. -/
def pruneEnded (ended : StrDict Int) (now : Int) : StrDict Int :=
  let fresh := ended.entries.filter fun e => ¬ endedTurnTtl < now - e.2
  ⟨fresh.drop (fresh.length - endedTurnMax),
    ended.nodupKeys.sublist ((List.drop_sublist _ _).trans List.filter_sublist)⟩

/-- `_record_ended`. -/
def recordEnded (r : Relay) (sessionKey : PyStr) (now : Int) : Relay :=
  let canonical := r.canonicalByRaw.getD sessionKey sessionKey
  { r with
    endedTurns := pruneEnded
      ((r.endedTurns.set (CaseMap.lower sessionKey) now).set (CaseMap.lower canonical) now) now }

/-- `recently_ended`. -/
def recentlyEnded (r : Relay) (sessionKeyHint : PyStr) (now : Int) : Bool :=
  ((pruneEnded r.endedTurns now).lookup (CaseMap.lower (strip sessionKeyHint))).isSome

/-- The normalised hint is the raw or the recorded canonical key of an entry, ignoring case. -/
def hintNames (r : Relay) (hint raw : PyStr) : Bool :=
  hint ∈ [CaseMap.lower raw, CaseMap.lower (r.canonicalByRaw.getD raw raw)]

/-- `active_caller`. -/
def activeCaller (r : Relay) (sessionKeyHint : PyStr) : Option Caller :=
  let hint := CaseMap.lower (strip sessionKeyHint)
  match r.activeTurns.entries.filter fun e => r.hintNames hint e.1 with
  | [e] => some e.2
  | _ => none

/-- Entry of `_active_turn`, under the lock. -/
def enterTurn (r : Relay) (lock : Nat) (sessionKey : PyStr) (principal : Caller) : Relay :=
  { r with
    locked := Function.update r.locked lock true
    activeTurns := r.activeTurns.set sessionKey principal }

/-- The `finally` of `_active_turn`, and the release of the lock. -/
def leaveTurn (r : Relay) (lock : Nat) (sessionKey : PyStr) (now : Int) : Relay :=
  let left := { r with activeTurns := r.activeTurns.erase sessionKey }.recordEnded sessionKey now
  { left with locked := Function.update left.locked lock false }

end

/-! ## The state of one turn -/

/-- `_push_approval_line`. -/
def pushApprovalLine (r : Relay) (key line : PyStr) : Relay :=
  match r.deltaQueues.lookup key with
  | none => r
  | some queue =>
    if r.useToolFrames.getD key false then r
    else
      { r.putNowait queue (.text line) with
        textHasVisibleOutput := r.textHasVisibleOutput.set key true
        textStatusOpen := r.textStatusOpen.set key true }

/-- The per-turn state that both kinds of turn install behind the pending-run sentinel. -/
def clearTurn (r : Relay) (canonical : PyStr) : Relay :=
  { r with
    lastAssistantText := r.lastAssistantText.erase canonical
    terminalAssistantText := r.terminalAssistantText.erase canonical
    activeRunId := r.activeRunId.set canonical pendingRunId
    seenSameRunEvent := r.seenSameRunEvent.set canonical false
    activeTool := r.activeTool.erase canonical }

/-- The state of a new stream, with an empty queue. -/
def newStream (r : Relay) (canonical : PyStr) (useToolFrames : Bool) : Relay :=
  { r with
    toolProgressSeq := r.toolProgressSeq.set canonical 0
    activeToolId := r.activeToolId.erase canonical
    activeToolSeq := r.activeToolSeq.erase canonical
    useToolFrames := r.useToolFrames.set canonical useToolFrames
    textToolName := r.textToolName.erase canonical
    textToolCount := r.textToolCount.erase canonical
    startedToolIds := r.startedToolIds.erase canonical
    textHasVisibleOutput := r.textHasVisibleOutput.set canonical false
    textStatusOpen := r.textStatusOpen.set canonical false
    queues := Function.update r.queues r.next []
    deltaQueues := r.deltaQueues.set canonical r.next
    next := r.next + 1 }

/-- `if self._replay_pending.pop(canonical_key, None): self._push_approval_line(…)`. -/
def showReplayed (r : Relay) (canonical : PyStr) : Relay :=
  if r.replayPending.getD canonical ∅ ≠ ∅ then
    { r with replayPending := r.replayPending.erase canonical }.pushApprovalLine canonical
      approvalWaitingLine
  else { r with replayPending := r.replayPending.erase canonical }

/-- Step 1 of `_stream_turn_locked`. -/
def installStream (r : Relay) (canonical : PyStr) (useToolFrames : Bool) : Relay :=
  ((r.clearTurn canonical).newStream canonical useToolFrames).showReplayed canonical

/-- The reply event of a relay turn. -/
def newReply (r : Relay) (canonical : PyStr) : Relay :=
  { r with
    events := Function.update r.events r.next false
    replyEvents := r.replyEvents.set canonical r.next
    next := r.next + 1 }

/-- Step 1 of `_relay_turn_locked`. -/
def installReply (r : Relay) (canonical : PyStr) : Relay :=
  (r.clearTurn canonical).newReply canonical

/-- `_cleanup_pending_turn`. -/
def cleanupPendingTurn (r : Relay) (canonical : PyStr) (stream : Bool) : Relay :=
  { r with
    deltaQueues := if stream then r.deltaQueues.erase canonical else r.deltaQueues
    replyEvents := if stream then r.replyEvents else r.replyEvents.erase canonical
    activeRunId := if r.activeRunId.lookup canonical = some pendingRunId then
      r.activeRunId.erase canonical else r.activeRunId
    seenSameRunEvent := r.seenSameRunEvent.erase canonical }

/-- The `finally` of the stream loop. -/
def closeStream (r : Relay) (canonical : PyStr) : Relay :=
  { r with
    deltaQueues := r.deltaQueues.erase canonical
    useToolFrames := r.useToolFrames.erase canonical
    toolProgressSeq := r.toolProgressSeq.erase canonical
    activeToolId := r.activeToolId.erase canonical
    activeToolSeq := r.activeToolSeq.erase canonical
    textToolName := r.textToolName.erase canonical
    textToolCount := r.textToolCount.erase canonical
    startedToolIds := r.startedToolIds.erase canonical
    textHasVisibleOutput := r.textHasVisibleOutput.erase canonical
    textStatusOpen := r.textStatusOpen.erase canonical }

end Relay

end HassNode.ChatRelay
