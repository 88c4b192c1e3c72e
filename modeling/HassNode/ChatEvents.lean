import HassNode.ChatTurn
import Mathlib.Data.Finset.Erase

/-!
# Gateway frames

`handle_response`, `handle_event` and `reset` of `chat_relay.py`: what the reader of the connection
does to the relay between two steps of its turns.  An event reaches the registry only to read it; it
changes what a session shows, the items of its queue and the flag of its reply event.
-/

namespace HassNode.ChatRelay

open Py

/-- `_TOOL_BLOCK_TYPES`. -/
def toolBlockTypes : List PyStr :=
  [py "toolCall", py "toolUse", py "functionCall", py "tool_call", py "tool_use",
    py "function_call", py "toolResult", py "tool_result", py "tool_result_error",
    py "function_call_output"]

/-- `text.removeprefix(prefix)`. -/
def removePrefix (text pre : PyStr) : PyStr := if startsWith text pre then text.drop pre.length else text

/-- `_strip_mcp_prefix`. -/
def stripMcpPrefix (name : PyStr) : PyStr :=
  let stripped := removePrefix name (py "mcp__openclaw__")
  if stripped ≠ [] then stripped else name

/-- `_approval_terminal_line`. -/
def approvalTerminalLine (approval : Dict) : PyStr :=
  let status := Dict.get? approval (py "status")
  let outcome :=
    match status, Dict.get? approval (py "decision") with
    | some (.str status), some (.str decision) =>
      if status = py "allowed" ∧ decision ∈ [py "allow-once", py "allow-always"] then
        py "approved (" ++ decision ++ py ")"
      else []
    | _, _ => []
  approvalDecisionPrefix ++
    if outcome ≠ [] then outcome
    else if status = some (.str (py "denied")) then py "denied (deny)"
    else if status = some (.str (py "expired")) then py "timed out"
    else py "approval ended"

/-- The first value of `d.get(k₁) or d.get(k₂) or …` that counts as true. -/
def firstTruthy (d : Dict) (keys : List String) : Option Json :=
  keys.findSome? fun key => (Dict.get? d (py key)).filter truthy

section
variable [Runtime]

/-- `str(d.get(k₁) or d.get(k₂) or … or "")`. -/
def firstText (d : Dict) (keys : List String) : PyStr :=
  match firstTruthy d keys with
  | none => []
  | some v => strOf v

/-- `str(d.get(key, ""))`. -/
def fieldText (d : Dict) (key : String) : PyStr :=
  match Dict.get? d (py key) with
  | none => []
  | some v => strOf v

/-! ## `_extract_text` -/

/-- The text blocks after the last tool block; `none` is the `TypeError` of an unhashable type. -/
def blockText (parts : PyStr) : List Json → Option PyStr
  | [] => some parts
  | .str s :: rest => blockText (parts ++ s) rest
  | .dict block :: rest =>
    match Dict.get? block (py "type") with
    | some (.str kind) =>
      if kind = py "text" then blockText (parts ++ fieldText block "text") rest
      else if kind ∈ toolBlockTypes then blockText [] rest
      else blockText parts rest
    | some (.list _) | some (.dict _) => none
    | _ => blockText parts rest
  | _ :: rest => blockText parts rest

mutual

/-- `_extract_text`. -/
def extractText : Json → Option PyStr
  | .str s => some s
  | .list blocks => blockText [] blocks
  | .dict message =>
    let members := extractMembers message
    match [py "content", py "text", py "message"].findSome? fun key =>
        (members.lookup key).filter (·.1) with
    | none => some []
    | some member => member.2
  | v => some (if truthy v then strOf v else [])

/-- Every member of a message: whether it counts as true, and its text. -/
def extractMembers : List (PyStr × Json) → List (PyStr × Bool × Option PyStr)
  | [] => []
  | (key, v) :: rest => (key, truthy v, extractText v) :: extractMembers rest

end

/-- The text of `payload["message"]` and, where it has none, of the payload itself. -/
def messageText (sessionMessage : Bool) (payload : Dict) : Option PyStr :=
  let message := Dict.getD payload (py "message") (.str [])
  if sessionMessage then do
    let text ← extractText message
    if text ≠ [] then return text
    extractText ((firstTruthy payload ["text", "content"]).getD (.str []))
  else
    match message with
    -- the payload is not asked for its text behind a message object, not even behind an empty one
    | .dict _ => extractText message
    | _ =>
      if truthy message then extractText message
      else extractText (Dict.getD payload (py "text") (.str []))

/-- The role of the payload, else of its message. -/
def messageRole (payload : Dict) : PyStr :=
  let role := fieldText payload "role"
  match Dict.get? payload (py "message") with
  | some (.dict message) => if role ≠ [] then role else fieldText message "role"
  | _ => role

namespace Relay

/-! ## Approval events -/

/-- `self._canonical_by_raw.get(raw) or raw`. -/
def canonicalKey (r : Relay) (raw : PyStr) : PyStr :=
  match r.canonicalByRaw.lookup raw with
  | some canonical => if canonical ≠ [] then canonical else raw
  | none => raw

/-- `_handle_approval_event`. -/
def handleApprovalEvent (r : Relay) (payload : Dict) : Relay :=
  let key := r.canonicalKey (fieldText payload "sessionKey")
  match Dict.get? payload (py "approval") with
  | some (.dict approval) =>
    if Dict.get? payload (py "phase") = some (.str (py "pending")) then
      r.pushApprovalLine key approvalWaitingLine
    else if Dict.get? payload (py "phase") = some (.str (py "terminal")) then
      let replayPending :=
        match r.replayPending.lookup key with
        | none => r.replayPending
        | some replayed =>
          let left := replayed.erase (strOf (Dict.getD approval (py "id") .null))
          if left = ∅ then r.replayPending.erase key else r.replayPending.set key left
      { r with replayPending := replayPending }.pushApprovalLine key (approvalTerminalLine approval)
    else r
  | _ => r

/-! ## Tool events -/

/-- A tool start of a turn with structured frames. -/
def startFrame (r : Relay) (key toolName toolId : PyStr) : Relay :=
  let seq := r.toolProgressSeq.getD key 0 + 1
  let counted : Relay :=
    { r with
      toolProgressSeq := r.toolProgressSeq.set key seq
      activeToolId := r.activeToolId.set key toolId
      activeToolSeq := r.activeToolSeq.set key seq }
  match r.deltaQueues.lookup key with
  | none => counted
  | some queue => counted.putNowait queue (.frame ⟨py "start", toolName, toolId, seq⟩)

/-- A tool start of a plain-text turn: a marker, or a count behind the marker of the same tool. -/
def startMarker (r : Relay) (key toolName : PyStr) : Relay :=
  match r.deltaQueues.lookup key with
  | none => r
  | some queue =>
    if r.textToolName.getD key [] = toolName then
      let count := r.textToolCount.getD key 1 + 1
      { r with textToolCount := r.textToolCount.set key count }.putNowait queue
        (.text (py " (x" ++ natStr count ++ py ")..."))
    else
      let separator : PyStr := if r.textHasVisibleOutput.getD key false then [10] else []
      { r with
        textToolName := r.textToolName.set key toolName
        textToolCount := r.textToolCount.set key 1
        textHasVisibleOutput := r.textHasVisibleOutput.set key true
        textStatusOpen := r.textStatusOpen.set key true }.putNowait queue
          (.text (separator ++ py "🔧 Calling " ++ toolName ++ py "..."))

def startTool (r : Relay) (key : PyStr) (data : Dict) (toolName toolId : PyStr) : Relay :=
  let dedupId := removePrefix (firstText data ["toolCallId", "id", "itemId"]) (py "tool:")
  let started := r.startedToolIds.getD key ∅
  if dedupId ≠ [] ∧ dedupId ∈ started then r
  else
    let active : Relay :=
      { r with
        startedToolIds := if dedupId ≠ [] then r.startedToolIds.set key (insert dedupId started)
          else r.startedToolIds
        activeTool := r.activeTool.set key toolName }
    if r.useToolFrames.getD key false then active.startFrame key toolName toolId
    else active.startMarker key toolName

/-- A tool end of a turn with structured frames; it must match the active tool. -/
def endFrame (r : Relay) (key : PyStr) (toolName : Option PyStr) (toolId : PyStr) : Relay :=
  let activeSeq := r.activeToolSeq.getD key 0
  let activeId := r.activeToolId.getD key []
  let activeName := r.activeTool.getD key []
  let idMatch := toolId ≠ [] ∧ toolId = activeId
  let bothIdless := toolId = [] ∧ activeId = [] ∧ (toolName.getD [] = [] ∨ toolName = some activeName)
  if (idMatch ∨ bothIdless) ∧ activeSeq ≤ r.toolProgressSeq.getD key 0 then
    let cleared : Relay :=
      { r with
        activeTool := r.activeTool.erase key
        activeToolId := r.activeToolId.erase key
        activeToolSeq := r.activeToolSeq.erase key }
    match r.deltaQueues.lookup key with
    | none => cleared
    | some queue =>
      let name := if activeName ≠ [] then activeName else toolName.getD []
      cleared.putNowait queue (.frame ⟨py "end", name, activeId, activeSeq⟩)
  else r

/-- The mark behind a tool that ended or failed, on the plain-text stream. -/
def endMarker (r : Relay) (key mark : PyStr) : Relay :=
  let cleared : Relay := { r with activeTool := r.activeTool.erase key }
  match r.deltaQueues.lookup key with
  | none => cleared
  | some queue =>
    { cleared with
      textHasVisibleOutput := r.textHasVisibleOutput.set key true
      textStatusOpen := r.textStatusOpen.set key true }.putNowait queue (.text mark)

/-- An event of another run, or one without a run before the run has shown itself. -/
def staleTool (r : Relay) (key toolRunId : PyStr) : Bool :=
  match r.activeRunId.lookup key with
  | none => false
  | some activeRun =>
    activeRun ≠ [] ∧ (activeRun = pendingRunId ∨ (toolRunId ≠ [] ∧ toolRunId ≠ activeRun) ∨
      (toolRunId = [] ∧ r.seenSameRunEvent.getD key false = false))

/-- The tool's name; an item may carry it as its title. -/
def toolNameOf (data : Dict) (item : Bool) : Option PyStr :=
  match firstTruthy data (if item then ["name", "title"] else ["name"]) with
  | some (.str name) => some (stripMcpPrefix name)
  | _ => none

/-- A tool event that is not stale, by its phase. -/
def applyToolPhase (r : Relay) (key : PyStr) (data : Dict) (toolName : Option PyStr)
    (phase : PyStr) : Relay :=
  let toolId := firstText data ["id", "toolCallId", "itemId"]
  let useFrames := r.useToolFrames.getD key false
  if phase = py "start" ∧ toolName.getD [] ≠ [] then r.startTool key data (toolName.getD []) toolId
  else if phase = py "end" then
    if useFrames then r.endFrame key toolName toolId else r.endMarker key (py " ✓")
  else if phase = py "error" ∧ ¬ useFrames then
    let reason := firstText data ["error"]
    r.endMarker key (py " ✗ " ++ if reason ≠ [] then reason else py "failed")
  else r

def handleToolEvent (r : Relay) (payload : Dict) (item : Bool) : Relay :=
  let key := r.canonicalKey (fieldText payload "sessionKey")
  match Dict.get? payload (py "data") with
  | some (.dict data) =>
    let unrelated := item ∧ Dict.get? data (py "kind") ≠ some (.str (py "tool")) ∧
      firstTruthy data ["toolCallId"] = none
    if key = [] ∨ unrelated ∨ r.staleTool key (textField payload "runId") then r
    else
      match Dict.get? data (py "phase") with
      | some (.str phase) => r.applyToolPhase key data (toolNameOf data item) phase
      | _ => r
  | _ => r

/-! ## Assistant events -/

/-- The run filter: what does not belong to the run of the current turn. -/
def staleAssistant (r : Relay) (sessionMessage : Bool) (key eventRunId : PyStr) : Bool :=
  match r.activeRunId.lookup key with
  | none => false
  | some activeRun =>
    activeRun ≠ [] ∧
      ((eventRunId ≠ [] ∧ eventRunId ≠ activeRun) ∨
        (¬ sessionMessage ∧ eventRunId = []) ∨
        (activeRun = pendingRunId ∧ eventRunId = []) ∨
        (sessionMessage ∧ eventRunId = [] ∧ r.terminalAssistantText.getD key [] ≠ []) ∨
        (sessionMessage ∧ eventRunId = [] ∧ activeRun ≠ pendingRunId ∧
          (r.deltaQueues.lookup key).isSome ∧ r.seenSameRunEvent.getD key false = false))

/-- A terminal text ends a stream and wakes a relay turn. -/
def captureTerminal (r : Relay) (key text : PyStr) : Relay :=
  let streamed :=
    match r.deltaQueues.lookup key with
    | none => r
    | some queue => (r.putNowait queue (.text text)).putNowait queue .close
  let captured : Relay :=
    { streamed with terminalAssistantText := streamed.terminalAssistantText.set key text }
  match r.replyEvents.lookup key with
  | none => captured
  | some event => { captured with events := Function.update captured.events event true }

/-- An assistant text of a session with a turn in flight that is not stale. -/
def captureText (r : Relay) (key text eventRunId : PyStr) (terminal : Bool) : Relay :=
  let confirmed := eventRunId ≠ [] ∧ r.activeRunId.lookup key = some eventRunId ∧
    eventRunId ≠ pendingRunId
  let captured : Relay :=
    { r with
      seenSameRunEvent := if confirmed then r.seenSameRunEvent.set key true
        else r.seenSameRunEvent
      lastAssistantText := r.lastAssistantText.set key text }
  if terminal then captured.captureTerminal key text else captured

def handleAssistantEvent (r : Relay) (sessionMessage : Bool) (payload : Dict) (text : PyStr) :
    Relay :=
  let key := fieldText payload "sessionKey"
  let eventRunId := textField payload "runId"
  if messageRole payload ≠ py "assistant" ∨ key = [] ∨ text = [] then r
  else if r.replyEvents.lookup key = none ∧ r.deltaQueues.lookup key = none then r
  else if r.staleAssistant sessionMessage key eventRunId then r
  else
    let state := Dict.getD payload (py "state") .null
    let terminal := sessionMessage ∨ state = .str (py "final") ∨ state = .null
    r.captureText key text eventRunId terminal

/-- `handle_event`; `none` is the `TypeError` of `_extract_text`. -/
def handleEvent (r : Relay) (msg : Dict) : Option Relay :=
  match Dict.getD msg (py "payload") (.dict []) with
  | .dict payload =>
    match Dict.getD msg (py "event") (.str []) with
    | .str event =>
      let stream := Dict.get? payload (py "stream")
      if event = py "session.approval" then some (r.handleApprovalEvent payload)
      else if event ∈ [py "agent", py "session.tool"] ∧
          stream ∈ [some (.str (py "tool")), some (.str (py "item"))] then
        some (r.handleToolEvent payload (stream = some (.str (py "item"))))
      else if event = py "session.message" ∨ startsWith event (py "chat") then
        (messageText (event = py "session.message") payload).map
          (r.handleAssistantEvent (event = py "session.message") payload)
      else some r
    | _ => some r
  | _ => some r

/-! ## Responses -/

/-- The error of a `res` frame. -/
def responseError (msg : Dict) : RelayError :=
  match Dict.getD msg (py "error") (.dict []) with
  | .dict error =>
    ⟨strOf (Dict.getD error (py "code") (.str (py "UNKNOWN"))), fieldText error "message"⟩
  | error =>
    let code := if truthy error then strOf error else py "UNKNOWN"
    ⟨code, code⟩

/-- An acknowledgement of `chat.send` replaces the sentinel before the turn resumes. -/
def acknowledgeRun (r : Relay) (req : PyStr) (payload : Json) : Relay :=
  match r.chatSendCanonical.lookup req, payload with
  | some canonical, .dict ack =>
    let runId := textField ack "runId"
    if runId ≠ [] then { r with activeRunId := r.activeRunId.set canonical runId }
    else if r.activeRunId.lookup canonical = some pendingRunId then
      { r with activeRunId := r.activeRunId.erase canonical }
    else r
  | _, _ => r

/-- `handle_response`; `none` when no pending request is answered. -/
def handleResponse (r : Relay) (msg : Dict) : Option Relay :=
  match Dict.get? msg (py "id") with
  | some (.str req) =>
    match r.pending.lookup req with
    | none => none
    | some future =>
      match r.futures future with
      | .waiting =>
        if truthy (Dict.getD msg (py "ok") .null) then
          let payload := (firstTruthy msg ["payload"]).getD (.dict [])
          let acked := r.acknowledgeRun req payload
          some { acked with futures := Function.update acked.futures future (.result payload) }
        else
          some { r with
            futures := Function.update r.futures future (.exception (responseError msg)) }
      | _ => none
  | _ => none

end Relay

end

/-! ## Disconnection -/

def disconnected : RelayError := ⟨py "DISCONNECTED", py "Gateway connection lost"⟩

/-- `if not future.done(): future.set_exception(…)`. -/
def failFuture (futures : Nat → Future) (future : Nat) : Nat → Future :=
  match futures future with
  | .waiting => Function.update futures future (.exception disconnected)
  | _ => futures

/-- `reset`: every dictionary but the two of the caller registry is cleared. -/
def Relay.reset (r : Relay) : Relay :=
  { toRegistry := { activeTurns := r.activeTurns, endedTurns := r.endedTurns }
    toDisplay := {}
    futures := r.pending.values.foldl failFuture r.futures
    queues := r.deltaQueues.values.foldl
      (fun queues q => Function.update queues q (queues q ++ [.error disconnected])) r.queues
    events := r.replyEvents.values.foldl (fun events e => Function.update events e true) r.events
    locked := r.locked
    next := r.next
    drawn := r.drawn }

/-! ## What a frame leaves alone -/

namespace Relay

/-- An event reads the registry; it hands out no object and no request. -/
structure ShowsOnly (r r' : Relay) : Prop where
  registry : r'.toRegistry = r.toRegistry
  locked : r'.locked = r.locked
  futures : r'.futures = r.futures
  next : r'.next = r.next
  drawn : r'.drawn = r.drawn

theorem ShowsOnly.refl (r : Relay) : ShowsOnly r r := ⟨rfl, rfl, rfl, rfl, rfl⟩

theorem ShowsOnly.trans {r r₁ r₂ : Relay} (h₁ : ShowsOnly r r₁) (h₂ : ShowsOnly r₁ r₂) :
    ShowsOnly r r₂ where
  registry := h₂.registry.trans h₁.registry
  locked := h₂.locked.trans h₁.locked
  futures := h₂.futures.trans h₁.futures
  next := h₂.next.trans h₁.next
  drawn := h₂.drawn.trans h₁.drawn

/-- A new display, new items in the queues and new flags on the events. -/
theorem showsOnly_surface (r : Relay) (display : Display) (queues : Nat → List Chunk)
    (events : Nat → Bool) :
    ShowsOnly r { r with toDisplay := display, queues := queues, events := events } :=
  ⟨rfl, rfl, rfl, rfl, rfl⟩

theorem showsOnly_pushApprovalLine (r : Relay) (key line : PyStr) :
    ShowsOnly r (r.pushApprovalLine key line) := by
  unfold pushApprovalLine
  split
  · exact .refl r
  · split
    · exact .refl r
    · exact showsOnly_surface r _ _ _

section
variable [Runtime]

theorem showsOnly_handleApprovalEvent (r : Relay) (payload : Dict) :
    ShowsOnly r (r.handleApprovalEvent payload) := by
  unfold handleApprovalEvent
  dsimp only
  split
  · split
    · exact showsOnly_pushApprovalLine r _ _
    · split
      · exact (showsOnly_surface r _ _ _).trans (showsOnly_pushApprovalLine _ _ _)
      · exact .refl r
  · exact .refl r

omit [Runtime] in
theorem showsOnly_startFrame (r : Relay) (key toolName toolId : PyStr) :
    ShowsOnly r (r.startFrame key toolName toolId) := by
  unfold startFrame
  dsimp only
  split
  · exact showsOnly_surface r _ _ _
  · exact showsOnly_surface r _ _ _

omit [Runtime] in
theorem showsOnly_startMarker (r : Relay) (key toolName : PyStr) :
    ShowsOnly r (r.startMarker key toolName) := by
  unfold startMarker
  split
  · exact .refl r
  · split
    · exact showsOnly_surface r _ _ _
    · exact showsOnly_surface r _ _ _

theorem showsOnly_startTool (r : Relay) (key : PyStr) (data : Dict) (toolName toolId : PyStr) :
    ShowsOnly r (r.startTool key data toolName toolId) := by
  unfold startTool
  dsimp only
  split
  · exact .refl r
  · split
    · exact (showsOnly_surface r _ _ _).trans (showsOnly_startFrame _ _ _ _)
    · exact (showsOnly_surface r _ _ _).trans (showsOnly_startMarker _ _ _)

omit [Runtime] in
theorem showsOnly_endFrame (r : Relay) (key : PyStr) (toolName : Option PyStr) (toolId : PyStr) :
    ShowsOnly r (r.endFrame key toolName toolId) := by
  unfold endFrame
  dsimp only
  split
  · split
    · exact showsOnly_surface r _ _ _
    · exact showsOnly_surface r _ _ _
  · exact .refl r

omit [Runtime] in
theorem showsOnly_endMarker (r : Relay) (key mark : PyStr) :
    ShowsOnly r (r.endMarker key mark) := by
  unfold endMarker
  dsimp only
  split
  · exact showsOnly_surface r _ _ _
  · exact showsOnly_surface r _ _ _

theorem showsOnly_applyToolPhase (r : Relay) (key : PyStr) (data : Dict) (toolName : Option PyStr)
    (phase : PyStr) : ShowsOnly r (r.applyToolPhase key data toolName phase) := by
  unfold applyToolPhase
  dsimp only
  split
  · exact showsOnly_startTool r _ _ _ _
  · split
    · split
      · exact showsOnly_endFrame r _ _ _
      · exact showsOnly_endMarker r _ _
    · split
      · exact showsOnly_endMarker r _ _
      · exact .refl r

theorem showsOnly_handleToolEvent (r : Relay) (payload : Dict) (item : Bool) :
    ShowsOnly r (r.handleToolEvent payload item) := by
  unfold handleToolEvent
  dsimp only
  split
  · split
    · exact .refl r
    · split
      · exact showsOnly_applyToolPhase r _ _ _ _
      · exact .refl r
  · exact .refl r

omit [Runtime] in
theorem showsOnly_captureTerminal (r : Relay) (key text : PyStr) :
    ShowsOnly r (r.captureTerminal key text) := by
  unfold captureTerminal
  cases r.deltaQueues.lookup key with
  | none =>
    dsimp only
    split
    · exact showsOnly_surface r _ _ _
    · exact showsOnly_surface r _ _ _
  | some queue =>
    dsimp only
    split
    · exact showsOnly_surface r _ _ _
    · exact showsOnly_surface r _ _ _

omit [Runtime] in
theorem showsOnly_captureText (r : Relay) (key text eventRunId : PyStr) (terminal : Bool) :
    ShowsOnly r (r.captureText key text eventRunId terminal) := by
  unfold captureText
  dsimp only
  split
  · exact (showsOnly_surface r _ _ _).trans (showsOnly_captureTerminal _ _ _)
  · exact showsOnly_surface r _ _ _

theorem showsOnly_handleAssistantEvent (r : Relay) (sessionMessage : Bool) (payload : Dict)
    (text : PyStr) : ShowsOnly r (r.handleAssistantEvent sessionMessage payload text) := by
  unfold handleAssistantEvent
  dsimp only
  split
  · exact .refl r
  · split
    · exact .refl r
    · split
      · exact .refl r
      · exact showsOnly_captureText r _ _ _ _

theorem handleEvent_showsOnly {r r' : Relay} {msg : Dict} (h : r.handleEvent msg = some r') :
    ShowsOnly r r' := by
  unfold handleEvent at h
  dsimp only at h
  split at h
  · split at h
    · split at h
      · cases h
        exact showsOnly_handleApprovalEvent r _
      · split at h
        · cases h
          exact showsOnly_handleToolEvent r _ _
        · split at h
          · rw [Option.map_eq_some_iff] at h
            obtain ⟨text, -, rfl⟩ := h
            exact showsOnly_handleAssistantEvent r _ _ _
          · cases h
            exact .refl r
    · cases h
      exact .refl r
  · cases h
    exact .refl r

/-- The canonical key of the turn whose `chat.send` a response answers. -/
def answeredKey (r : Relay) (msg : Dict) : Option PyStr :=
  match Dict.get? msg (py "id") with
  | some (.str req) => r.chatSendCanonical.lookup req
  | _ => none

/-- A response settles a future; an acknowledgement of `chat.send` also sets the run of its turn. -/
structure Answers (key : Option PyStr) (r r' : Relay) : Prop where
  display : r'.toDisplay = r.toDisplay
  locked : r'.locked = r.locked
  queues : r'.queues = r.queues
  events : r'.events = r.events
  next : r'.next = r.next
  drawn : r'.drawn = r.drawn
  activeRunId : ∀ other, key ≠ some other →
    r'.activeRunId.lookup other = r.activeRunId.lookup other
  registry : r'.toRegistry = { r.toRegistry with activeRunId := r'.activeRunId }

theorem acknowledgeRun_answers (r : Relay) (req : PyStr) (payload : Json) :
    Answers (r.chatSendCanonical.lookup req) r (r.acknowledgeRun req payload) := by
  have hsame : ∀ key, Answers key r r := fun _ => ⟨rfl, rfl, rfl, rfl, rfl, rfl, fun _ _ => rfl, rfl⟩
  unfold acknowledgeRun
  split
  · rename_i canonical ack hcanonical
    rw [hcanonical]
    dsimp only
    split
    · exact ⟨rfl, rfl, rfl, rfl, rfl, rfl,
        fun other hne => (OrderedDict.lookup_set _ _ _ _).trans
          (if_neg fun heq => hne (congrArg some heq.symm)), rfl⟩
    · split
      · exact ⟨rfl, rfl, rfl, rfl, rfl, rfl,
          fun other hne => (OrderedDict.lookup_erase_eq _ _ _).trans
            (if_neg fun heq => hne (congrArg some heq.symm)), rfl⟩
      · exact hsame _
  · exact hsame _

theorem handleResponse_answers {r r' : Relay} {msg : Dict} (h : r.handleResponse msg = some r') :
    Answers (r.answeredKey msg) r r' := by
  unfold handleResponse at h
  unfold answeredKey
  split at h
  · rename_i req hid
    split at h
    · cases h
    · split at h
      · split at h
        · cases h
          have hack := acknowledgeRun_answers r req ((firstTruthy msg ["payload"]).getD (.dict []))
          exact ⟨hack.display, hack.locked, hack.queues, hack.events, hack.next, hack.drawn,
            hack.activeRunId, hack.registry⟩
        · cases h
          exact ⟨rfl, rfl, rfl, rfl, rfl, rfl, fun _ _ => rfl, rfl⟩
      · cases h
  · cases h

end

end Relay

end HassNode.ChatRelay
