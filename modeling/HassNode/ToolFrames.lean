import HassNode.TurnFlights
import HassNode.Library.SpanLog

/-!
# The tool progress frames of a turn

What a turn that opted into tool progress is sent of its tools.  The relay remembers the number of
starts and the tool that is active, and every frame is bracketed by them, but for one: an end event
without id and name that arrives when no tool is active is passed on as the end of a tool that never
started.
-/

namespace HassNode.ChatRelay

open Py SpanLog

/-- The frames among the items of a queue. -/
def framesOf (items : List Chunk) : List ToolProgressFrame :=
  items.filterMap fun
    | .frame f => some f
    | _ => none

theorem framesOf_append (items others : List Chunk) :
    framesOf (items ++ others) = framesOf items ++ framesOf others := List.filterMap_append

/-- A frame as the start or the end of the span that its id and name label. -/
def ToolProgressFrame.mark (f : ToolProgressFrame) : Mark (PyStr × PyStr) :=
  if f.phase = py "start" then .start (f.id, f.name) f.seq else .finish (f.id, f.name) f.seq

/-- What the relay remembers of the tools of a session. -/
structure ToolState where
  useFrames : Bool
  progress : Nat
  tool : Option PyStr
  toolId : Option PyStr
  toolSeq : Option Nat

namespace Relay

def toolState (r : Relay) (key : PyStr) : ToolState where
  useFrames := r.useToolFrames.getD key false
  progress := r.toolProgressSeq.getD key 0
  tool := r.activeTool.lookup key
  toolId := r.activeToolId.lookup key
  toolSeq := r.activeToolSeq.lookup key

/-- The frames that wait in a queue. -/
def waiting (r : Relay) (queue : Nat) : List ToolProgressFrame := framesOf (r.queues queue)

theorem waiting_putNowait (r : Relay) (queue : Nat) (chunk : Chunk) (q : Nat) :
    (r.putNowait queue chunk).waiting q =
      if q = queue then r.waiting q ++ framesOf [chunk] else r.waiting q := by
  show framesOf (Function.update r.queues queue _ q) = _
  by_cases hq : q = queue
  · subst hq
    rw [Function.update_self, if_pos rfl, framesOf_append]
    rfl
  · rw [Function.update_of_ne hq, if_neg hq]
    rfl

/-- A text, an end or an error is no frame. -/
theorem waiting_putNowait_silent (r : Relay) (queue : Nat) {chunk : Chunk}
    (hchunk : framesOf [chunk] = []) (q : Nat) : (r.putNowait queue chunk).waiting q = r.waiting q := by
  rw [waiting_putNowait, hchunk, List.append_nil, ite_self]

/-- Nothing happens to the tools of any session, nor to the frames of any queue. -/
structure Silent (r r' : Relay) : Prop where
  tools : r'.toolState = r.toolState
  waiting : r'.waiting = r.waiting

theorem Silent.refl (r : Relay) : Silent r r := ⟨rfl, rfl⟩

theorem Silent.trans {r r₁ r₂ : Relay} (h₁ : Silent r r₁) (h₂ : Silent r₁ r₂) : Silent r r₂ :=
  ⟨h₂.tools.trans h₁.tools, h₂.waiting.trans h₁.waiting⟩

theorem silent_putNowait (r : Relay) (queue : Nat) {chunk : Chunk} (hchunk : framesOf [chunk] = []) :
    Silent r (r.putNowait queue chunk) :=
  ⟨rfl, funext fun q => r.waiting_putNowait_silent queue hchunk q⟩

theorem silent_pushApprovalLine (r : Relay) (key line : PyStr) :
    Silent r (r.pushApprovalLine key line) := by
  unfold pushApprovalLine
  split
  · exact .refl r
  · split
    · exact .refl r
    · exact (silent_putNowait r _ rfl).trans ⟨rfl, rfl⟩

section
variable [Runtime]

theorem silent_handleApprovalEvent (r : Relay) (payload : Dict) :
    Silent r (r.handleApprovalEvent payload) := by
  unfold handleApprovalEvent
  dsimp only
  split
  · split
    · exact silent_pushApprovalLine r _ _
    · split
      · refine Silent.trans ?_ (silent_pushApprovalLine _ _ _)
        exact ⟨rfl, rfl⟩
      · exact .refl r
  · exact .refl r

omit [Runtime] in
theorem silent_captureTerminal (r : Relay) (key text : PyStr) :
    Silent r (r.captureTerminal key text) := by
  unfold captureTerminal
  have hstreamed : ∀ queue, Silent r ((r.putNowait queue (.text text)).putNowait queue .close) :=
    fun queue => (silent_putNowait r queue rfl).trans (silent_putNowait _ queue rfl)
  cases r.deltaQueues.lookup key with
  | none =>
    dsimp only
    split <;> exact ⟨rfl, rfl⟩
  | some queue =>
    dsimp only
    split <;> exact (hstreamed queue).trans ⟨rfl, rfl⟩

theorem silent_handleAssistantEvent (r : Relay) (sessionMessage : Bool) (payload : Dict)
    (text : PyStr) : Silent r (r.handleAssistantEvent sessionMessage payload text) := by
  unfold handleAssistantEvent captureText
  dsimp only
  split
  · exact .refl r
  · split
    · exact .refl r
    · split
      · exact .refl r
      · split
        · refine Silent.trans ?_ (silent_captureTerminal _ _ _)
          exact ⟨rfl, rfl⟩
        · exact ⟨rfl, rfl⟩

/-! ## Tool events -/

/-- The session, the data and the kind of a tool event that is not dropped. -/
def toolEvent (r : Relay) (msg : Dict) : Option (PyStr × Dict × Bool) :=
  match Dict.getD msg (py "payload") (.dict []), Dict.getD msg (py "event") (.str []) with
  | .dict payload, .str event =>
    let stream := Dict.get? payload (py "stream")
    let item : Bool := stream = some (.str (py "item"))
    if event ∈ [py "agent", py "session.tool"] ∧
        stream ∈ [some (.str (py "tool")), some (.str (py "item"))] then
      let key := r.canonicalKey (fieldText payload "sessionKey")
      match Dict.get? payload (py "data") with
      | some (.dict data) =>
        let unrelated := item ∧ Dict.get? data (py "kind") ≠ some (.str (py "tool")) ∧
          firstTruthy data ["toolCallId"] = none
        if key = [] ∨ unrelated ∨ r.staleTool key (textField payload "runId") then none
        else some (key, data, item)
      | _ => none
    else none
  | _, _ => none

/-- What a tool event that is not dropped does. -/
def applyTool (r : Relay) (key : PyStr) (data : Dict) (item : Bool) : Relay :=
  match Dict.get? data (py "phase") with
  | some (.str phase) => r.applyToolPhase key data (toolNameOf data item) phase
  | _ => r

/-- An event is a tool event, or the tools do not notice it. -/
theorem handleEvent_tools {r r' : Relay} {msg : Dict} (h : r.handleEvent msg = some r') :
    match r.toolEvent msg with
    | none => Silent r r'
    | some (key, data, item) => r' = r.applyTool key data item := by
  unfold handleEvent at h
  unfold toolEvent
  cases hpayload : Dict.getD msg (py "payload") (.dict []) with
  | dict payload =>
    rw [hpayload] at h
    cases hevent : Dict.getD msg (py "event") (.str []) with
    | str event =>
      rw [hevent] at h
      dsimp only at h ⊢
      by_cases htool : event ∈ [py "agent", py "session.tool"] ∧
          Dict.get? payload (py "stream") ∈ [some (.str (py "tool")), some (.str (py "item"))]
      · have happroval : event ≠ py "session.approval" := by
          rintro rfl
          exact absurd htool.1 (by decide)
        rw [if_neg happroval, if_pos htool] at h
        rw [if_pos htool, ← Option.some.inj h]
        unfold handleToolEvent
        cases Dict.get? payload (py "data") with
        | none => exact .refl r
        | some data =>
          cases data with
          | dict data =>
            dsimp only
            split_ifs with hdropped
            · exact .refl r
            · rfl
          | _ => exact .refl r
      -- approvals and assistant events leave the tools alone
      · rw [if_neg htool]
        split at h
        · rw [← Option.some.inj h]
          exact silent_handleApprovalEvent r payload
        · split at h
          · have ⟨text, _, htext⟩ := Option.map_eq_some_iff.mp h
            rw [← htext]
            exact silent_handleAssistantEvent r _ payload text
          · rw [← Option.some.inj h]
            exact .refl r
    | _ =>
      rw [hevent] at h
      rw [← Option.some.inj h]
      exact .refl r
  | _ =>
    rw [hpayload] at h
    rw [← Option.some.inj h]
    exact .refl r

/-! ## The session of a tool event -/

/-- The tools of the session `key` stay as they are, and so do the frames of the queue. -/
structure Elsewhere (key : PyStr) (queue : Nat) (r r' : Relay) : Prop where
  tools : r'.toolState key = r.toolState key
  waiting : r'.waiting queue = r.waiting queue

variable {r r' : Relay} {key other : PyStr} {q : Nat}

omit [Runtime] in
theorem Elsewhere.refl (r : Relay) : Elsewhere key q r r := ⟨rfl, rfl⟩

omit [Runtime] in
theorem Silent.elsewhere (h : Silent r r') : Elsewhere key q r r' :=
  ⟨congrFun h.tools key, congrFun h.waiting q⟩

omit [Runtime] in
/-- A frame for another queue. -/
theorem elsewhere_putNowait {queue : Nat} (hqueue : queue ≠ q) (chunk : Chunk) :
    Elsewhere key q r (r.putNowait queue chunk) :=
  ⟨rfl, (r.waiting_putNowait queue chunk q).trans (if_neg hqueue.symm)⟩

omit [Runtime] in
theorem Elsewhere.trans {r₁ : Relay} (h₁ : Elsewhere key q r r₁) (h₂ : Elsewhere key q r₁ r') :
    Elsewhere key q r r' :=
  ⟨h₂.tools.trans h₁.tools, h₂.waiting.trans h₁.waiting⟩

omit [Runtime] in
theorem startFrame_elsewhere (hother : key ≠ other) (hqueue : r.deltaQueues.lookup other ≠ some q)
    (toolName toolId : PyStr) : Elsewhere key q r (r.startFrame other toolName toolId) := by
  have hcounted : ∀ seq, Elsewhere key q r
      { r with
        toolProgressSeq := r.toolProgressSeq.set other seq
        activeToolId := r.activeToolId.set other toolId
        activeToolSeq := r.activeToolSeq.set other seq } := by
    intro seq
    exact ⟨by simp only [toolState, OrderedDict.getD, OrderedDict.lookup_set, if_neg hother], rfl⟩
  unfold startFrame
  dsimp only
  split
  · exact hcounted _
  · rename_i queue hlookup
    rw [hlookup] at hqueue
    exact (hcounted _).trans (elsewhere_putNowait (fun heq => hqueue (congrArg some heq)) _)

omit [Runtime] in
theorem silent_startMarker (r : Relay) (key toolName : PyStr) :
    Silent r (r.startMarker key toolName) := by
  unfold startMarker
  split
  · exact .refl r
  · dsimp only
    split
    · refine Silent.trans ?_ (silent_putNowait _ _ rfl)
      exact ⟨rfl, rfl⟩
    · refine Silent.trans ?_ (silent_putNowait _ _ rfl)
      exact ⟨rfl, rfl⟩

theorem startTool_elsewhere (hother : key ≠ other) (hqueue : r.deltaQueues.lookup other ≠ some q)
    (data : Dict) (toolName toolId : PyStr) :
    Elsewhere key q r (r.startTool other data toolName toolId) := by
  unfold startTool
  dsimp only
  split
  · exact .refl r
  · have hactive : ∀ started, Elsewhere key q r
        { r with startedToolIds := started, activeTool := r.activeTool.set other toolName } :=
      fun started =>
        ⟨by simp only [toolState, OrderedDict.getD, OrderedDict.lookup_set, if_neg hother], rfl⟩
    split
    · apply (hactive _).trans
      apply startFrame_elsewhere hother
      exact hqueue
    · exact (hactive _).trans (silent_startMarker _ _ _).elsewhere

omit [Runtime] in
theorem endFrame_elsewhere (hother : key ≠ other) (hqueue : r.deltaQueues.lookup other ≠ some q)
    (toolName : Option PyStr) (toolId : PyStr) :
    Elsewhere key q r (r.endFrame other toolName toolId) := by
  have hcleared : Elsewhere key q r
      { r with
        activeTool := r.activeTool.erase other
        activeToolId := r.activeToolId.erase other
        activeToolSeq := r.activeToolSeq.erase other } :=
    ⟨by simp only [toolState, OrderedDict.getD, OrderedDict.lookup_erase_eq, if_neg hother], rfl⟩
  unfold endFrame
  dsimp only
  split
  · split
    · exact hcleared
    · rename_i queue hlookup
      rw [hlookup] at hqueue
      exact hcleared.trans (elsewhere_putNowait (fun heq => hqueue (congrArg some heq)) _)
  · exact .refl r

omit [Runtime] in
theorem endMarker_elsewhere (hother : key ≠ other) (mark : PyStr) :
    Elsewhere key q r (r.endMarker other mark) := by
  have hcleared : Elsewhere key q r { r with activeTool := r.activeTool.erase other } :=
    ⟨by simp only [toolState, OrderedDict.getD, OrderedDict.lookup_erase_eq, if_neg hother], rfl⟩
  unfold endMarker
  dsimp only
  split
  · exact hcleared
  · refine hcleared.trans (Silent.elsewhere ?_)
    refine Silent.trans ?_ (silent_putNowait _ _ rfl)
    exact ⟨rfl, rfl⟩

/-- A tool event of another session. -/
theorem applyTool_elsewhere (hother : key ≠ other) (hqueue : r.deltaQueues.lookup other ≠ some q)
    (data : Dict) (item : Bool) : Elsewhere key q r (r.applyTool other data item) := by
  unfold applyTool
  split
  · unfold applyToolPhase
    dsimp only
    split
    · exact startTool_elsewhere hother hqueue data _ _
    · split
      · split
        · exact endFrame_elsewhere hother hqueue _ _
        · exact endMarker_elsewhere hother _
      · split
        · exact endMarker_elsewhere hother _
        · exact .refl r
  · exact .refl r

end

/-! ## A session with structured frames -/

end Relay

/-- A session with structured frames that has seen `count` starts, with the id and the name of its
active tool. -/
def ToolState.ofActive (count : Nat) (active : Option (PyStr × PyStr)) : ToolState where
  useFrames := true
  progress := count
  tool := active.map Prod.snd
  toolId := active.map Prod.fst
  toolSeq := active.map fun _ => count

/-- The frames that an event adds; the flag tells the end of a tool that never started. -/
inductive Emits (count : Nat) : Option (PyStr × PyStr) → List ToolProgressFrame → Nat →
    Option (PyStr × PyStr) → Bool → Prop where
  | nothing (active : Option (PyStr × PyStr)) : Emits count active [] count active false
  | start (active : Option (PyStr × PyStr)) (id : PyStr) {name : PyStr} (named : name ≠ []) :
      Emits count active [⟨py "start", name, id, count + 1⟩] (count + 1) (some (id, name)) false
  | finish (id name : PyStr) :
      Emits count (some (id, name)) [⟨py "end", name, id, count⟩] count none false
  | stray : Emits count none [⟨py "end", [], [], 0⟩] count none true

section
variable {count count' : Nat} {active active' : Option (PyStr × PyStr)} {stray : Bool}
  {new : List ToolProgressFrame} {log : List (Mark (PyStr × PyStr))}

theorem Emits.named (h : Emits count active new count' active' stray)
    (hnamed : ∀ label ∈ active, label.2 ≠ []) : ∀ label ∈ active', label.2 ≠ [] := by
  cases h with
  | nothing => exact hnamed
  | start _ id named =>
    intro label hlabel
    rw [← Option.some.inj hlabel]
    exact named
  | finish => exact nofun
  | stray => exact nofun

theorem Emits.tracks (h : Emits count active new count' active' false)
    (hlog : Tracks log count active) : Tracks (log ++ new.map (·.mark)) count' active' := by
  cases h with
  | nothing =>
    rw [List.map_nil, List.append_nil]
    exact hlog
  | start _ id named => exact hlog.start (id, _)
  | finish id name => exact hlog.finish

/-- The end of a tool that never started has the number of no start. -/
theorem Emits.not_wellBracketed (h : Emits count active new count' active' true)
    (hlog : Tracks log count active) : ¬ WellBracketed (log ++ new.map (·.mark)) := by
  cases h with
  | stray => exact not_wellBracketed_stray hlog.zero_notMem []

end

namespace Relay

section
variable [Runtime]

/-- The data of an end event has no id and no name, and no tool of the session is active. -/
def endsNothing (r : Relay) (key : PyStr) (data : Dict) (item : Bool) : Bool :=
  Dict.get? data (py "phase") = some (.str (py "end")) &&
    (firstText data ["id", "toolCallId", "itemId"] = [] && (toolNameOf data item).getD [] = [] &&
      r.activeToolSeq.lookup key = none)

/-- The event ends a tool of the session, none of which is active. -/
def strayEnd (r : Relay) (key : PyStr) (msg : Dict) : Bool :=
  match r.toolEvent msg with
  | none => false
  | some (other, data, item) => other = key && r.endsNothing key data item

/-- The session goes on with structured frames, and the new ones are put in its queue. -/
def Proceeds (key : PyStr) (q : Nat) (count : Nat) (active : Option (PyStr × PyStr)) (stray : Bool)
    (r r' : Relay) : Prop :=
  ∃ new count' active', Emits count active new count' active' stray ∧
    r'.toolState key = .ofActive count' active' ∧ r'.waiting q = r.waiting q ++ new

variable {r r' : Relay} {key : PyStr} {q count : Nat} {active : Option (PyStr × PyStr)}

omit [Runtime] in
theorem Elsewhere.proceeds (h : Elsewhere key q r r')
    (htools : r.toolState key = .ofActive count active) :
    Proceeds key q count active false r r' :=
  ⟨[], count, active, .nothing active, h.tools.trans htools,
    h.waiting.trans (List.append_nil _).symm⟩

theorem startTool_proceeds (htools : r.toolState key = .ofActive count active)
    (hqueue : r.deltaQueues.lookup key = some q) (data : Dict) {toolName : PyStr}
    (hname : toolName ≠ []) (toolId : PyStr) :
    Proceeds key q count active false r (r.startTool key data toolName toolId) := by
  have hframes : r.useToolFrames.getD key false = true := congrArg ToolState.useFrames htools
  have hcount : r.toolProgressSeq.getD key 0 = count := congrArg ToolState.progress htools
  unfold startTool
  dsimp only
  split
  · exact (Elsewhere.refl r).proceeds htools
  · unfold startFrame
    dsimp only
    rw [hqueue, hcount]
    refine ⟨_, _, _, .start active toolId hname, ?_, ?_⟩
    · show ToolState.mk (r.useToolFrames.getD key false)
        ((r.toolProgressSeq.set key (count + 1)).getD key 0) ((r.activeTool.set key toolName).lookup key)
        ((r.activeToolId.set key toolId).lookup key) ((r.activeToolSeq.set key (count + 1)).lookup key) = _
      rw [hframes, OrderedDict.getD]
      simp only [OrderedDict.lookup_set, if_true]
      rfl
    · exact (waiting_putNowait _ _ _ _).trans (if_pos rfl)

omit [Runtime] in
/-- A tool that is active ends when the event names it; where none is, an event without id and name
does as well. -/
theorem endFrame_proceeds (htools : r.toolState key = .ofActive count active)
    (hnamed : ∀ label ∈ active, label.2 ≠ []) (hqueue : r.deltaQueues.lookup key = some q)
    (toolName : Option PyStr) (toolId : PyStr) :
    Proceeds key q count active
      (toolId = [] && toolName.getD [] = [] && r.activeToolSeq.lookup key = none) r
      (r.endFrame key toolName toolId) := by
  have hframes : r.useToolFrames.getD key false = true := congrArg ToolState.useFrames htools
  have hcount : r.toolProgressSeq.getD key 0 = count := congrArg ToolState.progress htools
  have htool : r.activeTool.lookup key = active.map Prod.snd := congrArg ToolState.tool htools
  have hid : r.activeToolId.lookup key = active.map Prod.fst := congrArg ToolState.toolId htools
  have hseq : r.activeToolSeq.lookup key = active.map fun _ => count :=
    congrArg ToolState.toolSeq htools
  have hcleared : { r with
      activeTool := r.activeTool.erase key
      activeToolId := r.activeToolId.erase key
      activeToolSeq := r.activeToolSeq.erase key }.toolState key = .ofActive count none := by
    show ToolState.mk (r.useToolFrames.getD key false) (r.toolProgressSeq.getD key 0) _ _ _ = _
    rw [hframes, hcount]
    simp [ToolState.ofActive]
  unfold endFrame
  dsimp only
  rw [hcount, OrderedDict.getD, OrderedDict.getD, OrderedDict.getD, htool, hid, hseq, hqueue]
  cases active with
  | none =>
    -- without a tool only a bare event gets through, and it ends nothing
    by_cases hbare : toolId = [] ∧ toolName.getD [] = []
    · have hflag : (toolId = [] && toolName.getD [] = [] &&
          (none.map fun _ : PyStr × PyStr => count) = none) = true := by simp [hbare.1, hbare.2]
      rw [hflag, if_pos ⟨Or.inr ⟨hbare.1, rfl, Or.inl hbare.2⟩, Nat.zero_le count⟩]
      refine ⟨_, _, _, .stray, hcleared, ?_⟩
      rw [hbare.2]
      exact (waiting_putNowait _ _ _ _).trans (if_pos rfl)
    · have hflag : (toolId = [] && toolName.getD [] = [] &&
          (none.map fun _ : PyStr × PyStr => count) = none) = false := by simpa using hbare
      rw [hflag, if_neg]
      · exact (Elsewhere.refl r).proceeds htools
      · rintro ⟨⟨hid, hempty⟩ | ⟨hid, -, hempty | hname⟩, -⟩
        · exact hid hempty
        · exact hbare ⟨hid, hempty⟩
        · exact hbare ⟨hid, congrArg (Option.getD · []) hname⟩
  -- with one the frame carries its label and its number
  | some label =>
    have hflag : (toolId = [] && toolName.getD [] = [] &&
        ((some label).map fun _ => count) = none) = false := by simp
    have hname : label.2 ≠ [] := hnamed label rfl
    rw [hflag]
    split
    · refine ⟨_, _, _, .finish label.1 label.2, hcleared, ?_⟩
      have hframe : (if label.2 ≠ [] then label.2 else toolName.getD []) = label.2 := if_pos hname
      refine ((waiting_putNowait _ _ _ _).trans (if_pos rfl)).trans ?_
      show _ ++ [ToolProgressFrame.mk (py "end") (if label.2 ≠ [] then label.2 else toolName.getD [])
        label.1 count] = _
      rw [hframe]
      rfl
    · exact (Elsewhere.refl r).proceeds htools

/-- A tool event of the session. -/
theorem applyTool_proceeds (htools : r.toolState key = .ofActive count active)
    (hnamed : ∀ label ∈ active, label.2 ≠ []) (hqueue : r.deltaQueues.lookup key = some q)
    (data : Dict) (item : Bool) :
    Proceeds key q count active (r.endsNothing key data item) r (r.applyTool key data item) := by
  have hframes : r.useToolFrames.getD key false = true := congrArg ToolState.useFrames htools
  have hsame : Proceeds key q count active false r r := (Elsewhere.refl r).proceeds htools
  unfold applyTool endsNothing
  cases Dict.get? data (py "phase") with
  | none => exact hsame
  | some phase =>
    cases phase with
    | str phase =>
      dsimp only [applyToolPhase]
      by_cases hend : phase = py "end"
      · rw [hend, if_neg fun h => absurd h.1 (by decide), if_pos rfl, if_pos hframes]
        exact endFrame_proceeds htools hnamed hqueue _ _
      · have hflag : decide (some (Json.str phase) = some (.str (py "end"))) = false :=
          decide_eq_false fun h => hend (Json.str.inj (Option.some.inj h))
        rw [hflag, Bool.false_and, if_neg hend]
        by_cases hstart : phase = py "start" ∧ (toolNameOf data item).getD [] ≠ []
        · rw [if_pos hstart]
          exact startTool_proceeds htools hqueue data hstart.2 _
        · rw [if_neg hstart, if_neg fun h => h.2 hframes]
          exact hsame
    | _ => exact hsame

/-! ## The turn's own steps -/

end

end Relay

/-- The turn is suspended behind the installation of its stream. -/
def Await.Streams (key : PyStr) (q : Nat) : Await → Prop
  | .send canonical consumer _ _ | .queue canonical consumer _ | .yield canonical consumer _ _ =>
    canonical = key ∧ consumer = q
  | _ => False

/-- The frame that the consumer of the stream is handed. -/
def Await.yielded : Await → List ToolProgressFrame
  | .yield _ _ _ (.frame f) => [f]
  | _ => []

namespace Relay

/-- The turn takes frames from the front of its queue. -/
structure Takes (q : Nat) (taken : List ToolProgressFrame) (r r' : Relay) : Prop where
  tools : r'.toolState = r.toolState
  queues : r'.deltaQueues = r.deltaQueues
  waiting : r.waiting q = taken ++ r'.waiting q

section
variable {r r' : Relay} {key : PyStr} {q : Nat} {t : Turn} {loop : Loop} {a : Await}

theorem takeItem_takes {item : Chunk} {rest : List Chunk} (hqueue : r.queues q = item :: rest)
    (h : { r with queues := Function.update r.queues q rest }.takeItem key q loop item =
      (r', .at a)) : Takes q a.yielded r r' := by
  have hwaiting : r.waiting q = framesOf [item] ++ framesOf rest := by
    rw [← framesOf_append, waiting, hqueue]
    rfl
  have hrest : ∀ r' : Relay, r'.queues = Function.update r.queues q rest →
      r'.waiting q = framesOf rest := by
    intro r' hqueues
    rw [waiting, hqueues, Function.update_self]
  cases item with
  | close => cases h
  | error e => cases h
  | frame f =>
    cases h
    exact ⟨rfl, rfl, hwaiting.trans (congrArg _ (hrest _ rfl).symm)⟩
  | text item =>
    unfold takeItem at h
    dsimp only at h
    split at h
    · cases h
      exact ⟨rfl, rfl, hwaiting.trans (hrest _ rfl).symm⟩
    · cases h
      exact ⟨rfl, rfl, hwaiting.trans (hrest _ rfl).symm⟩

theorem loopTop_takes (h : r.loopTop key q loop = (r', .at a)) : Takes q a.yielded r r' := by
  unfold loopTop at h
  split at h
  · rename_i item rest hqueue
    exact takeItem_takes hqueue h
  · split at h
    · cases h
    · cases h
      exact ⟨rfl, rfl, rfl⟩

theorem keepalive_takes (h : r.keepalive t key q loop = (r', .at a)) : Takes q a.yielded r r' := by
  unfold keepalive at h
  split at h
  · cases h
    exact ⟨rfl, rfl, rfl⟩
  · cases h
    exact ⟨rfl, rfl, rfl⟩

/-- A piece of a stream that ends at another suspension. -/
theorem resume_takes [Runtime] [CaseMap] {before : Await} {signal : Signal} (hstream : t.stream = true)
    (hbefore : before.Streams key q) (h : r.resume t before signal = some (r', .at a)) :
    Takes q a.yielded r r' := by
  cases before with
  | send canonical consumer req future =>
    obtain ⟨hkey, hq⟩ := hbefore
    subst hkey hq
    cases signal with
    | ready next expired =>
      rw [resume] at h
      split at h
      · cases h
      · unfold acknowledged at h
        rw [if_pos hstream] at h
        have htakes := loopTop_takes (Option.some.inj h)
        exact ⟨htakes.tools, htakes.queues, htakes.waiting⟩
      · cases h
    | _ => cases h
  -- only here an item leaves the queue
  | queue canonical consumer loop =>
    obtain ⟨hkey, hq⟩ := hbefore
    subst hkey hq
    cases signal with
    | ready next expired =>
      rw [resume] at h
      split at h
      · cases h
      · rename_i item rest hqueue
        exact takeItem_takes hqueue (Option.some.inj h)
    | timeout expired =>
      rw [resume] at h
      split at h
      · cases h
      · exact keepalive_takes (Option.some.inj h)
    | _ => cases h
  | yield canonical consumer loop output =>
    obtain ⟨hkey, hq⟩ := hbefore
    subst hkey hq
    cases signal with
    | ready next expired =>
      rw [resume] at h
      have htakes := loopTop_takes (Option.some.inj h)
      cases output with
      | progress text => exact ⟨htakes.tools, htakes.queues, htakes.waiting⟩
      | _ => exact htakes
    | _ => cases h
  | _ => cases hbefore

end

/-! ## The numbers of the queues -/

/-- A queue that a session has is an object that was handed out. -/
def Numbered (r : Relay) : Prop := ∀ key q, r.deltaQueues.lookup key = some q → q < r.next

/-- Sessions keep their queues, lose them or are given new ones. -/
structure HandsOut (r r' : Relay) : Prop where
  next : r.next ≤ r'.next
  queues : ∀ key q, r'.deltaQueues.lookup key = some q →
    r.deltaQueues.lookup key = some q ∨ q < r'.next

section
variable {r r₁ r' : Relay} {t : Turn} {key : PyStr}

theorem HandsOut.numbered (h : HandsOut r r') (hr : Numbered r) : Numbered r' := by
  intro key q hq
  cases h.queues key q hq with
  | inl hbefore => exact lt_of_lt_of_le (hr key q hbefore) h.next
  | inr hnew => exact hnew

theorem HandsOut.of_eq (hqueues : r'.deltaQueues = r.deltaQueues) (hnext : r.next ≤ r'.next) :
    HandsOut r r' :=
  ⟨hnext, fun _ _ hq => .inl (hqueues ▸ hq)⟩

theorem HandsOut.refl (r : Relay) : HandsOut r r := .of_eq rfl (Nat.le_refl _)

theorem HandsOut.trans (h₁ : HandsOut r r₁) (h₂ : HandsOut r₁ r') : HandsOut r r' where
  next := h₁.next.trans h₂.next
  queues key q hq := by
    cases h₂.queues key q hq with
    | inl hbefore =>
      cases h₁.queues key q hbefore with
      | inl hfirst => exact .inl hfirst
      | inr hnew => exact .inr (lt_of_lt_of_le hnew h₂.next)
    | inr hnew => exact .inr hnew

theorem HandsOut.of_erase (hqueues : r'.deltaQueues = r.deltaQueues.erase key)
    (hnext : r.next ≤ r'.next) : HandsOut r r' := by
  refine ⟨hnext, fun other q hq => .inl ?_⟩
  rw [hqueues, OrderedDict.lookup_erase_eq] at hq
  split at hq
  · cases hq
  · exact hq

theorem pushApprovalLine_queues (r : Relay) (key line : PyStr) :
    (r.pushApprovalLine key line).deltaQueues = r.deltaQueues ∧
      (r.pushApprovalLine key line).next = r.next := by
  have h := showsOnly_pushApprovalLine r key line
  exact ⟨congrArg Registry.deltaQueues h.registry, h.next⟩

theorem showReplayed_queues (r : Relay) (canonical : PyStr) :
    (r.showReplayed canonical).deltaQueues = r.deltaQueues ∧
      (r.showReplayed canonical).next = r.next := by
  unfold showReplayed
  split
  · exact pushApprovalLine_queues _ _ _
  · exact ⟨rfl, rfl⟩

theorem sendTurn_handsOut (r : Relay) (t : Turn) (canonical req : PyStr) (expired : Bool) :
    HandsOut r (r.sendTurn t canonical req expired).1 := by
  have hstream : ∀ frames, HandsOut r (r.installStream canonical frames) := by
    intro frames
    have ⟨hqueues, hnext⟩ :=
      showReplayed_queues ((r.clearTurn canonical).newStream canonical frames) canonical
    have hnumber : (r.installStream canonical frames).next = r.next + 1 := hnext
    refine ⟨by omega, fun key q hq => ?_⟩
    have hset : (r.deltaQueues.set canonical r.next).lookup key = some q :=
      (congrArg (AList.lookup key) hqueues).symm.trans hq
    rw [OrderedDict.lookup_set] at hset
    split at hset
    · have hq := Option.some.inj hset
      right
      omega
    · exact .inl hset
  have hinstall : HandsOut r (r.install t canonical) := by
    unfold install
    split
    · exact hstream _
    · exact .of_eq rfl (Nat.le_succ _)
  unfold sendTurn
  split
  · apply hinstall.trans
    cases t.stream with
    | true => exact .of_erase rfl (Nat.le_refl _)
    | false => exact .of_eq rfl (Nat.le_refl _)
  · exact hinstall.trans (.of_eq rfl (Nat.le_succ _))

theorem takeItem_handsOut (r : Relay) (canonical : PyStr) (consumer : Nat) (loop : Loop)
    (item : Chunk) : HandsOut r (r.takeItem canonical consumer loop item).1 := by
  cases item with
  | close => exact .of_erase rfl (Nat.le_refl _)
  | error e => exact .of_erase rfl (Nat.le_refl _)
  | frame f => exact .refl r
  | text item =>
    unfold takeItem
    dsimp only
    split
    · exact .refl r
    · exact .of_eq rfl (Nat.le_refl _)

theorem loopTop_handsOut (r : Relay) (canonical : PyStr) (consumer : Nat) (loop : Loop) :
    HandsOut r (r.loopTop canonical consumer loop).1 := by
  unfold loopTop
  split
  · refine HandsOut.trans ?_ (takeItem_handsOut _ canonical consumer loop _)
    exact .of_eq rfl (Nat.le_refl _)
  · split
    · exact .of_erase rfl (Nat.le_refl _)
    · exact .refl r

theorem failSend_handsOut (r : Relay) (t : Turn) (canonical req : PyStr) (error : Outcome) :
    HandsOut r (r.failSend t canonical req error).1 := by
  unfold failSend cleanupPendingTurn
  cases t.stream with
  | true => exact .of_erase rfl (Nat.le_refl _)
  | false => exact .of_eq rfl (Nat.le_refl _)

section
variable [Runtime]

theorem acknowledged_handsOut (r : Relay) (t : Turn) (canonical : PyStr) (consumer : Nat)
    (ack : Json) (expired : Bool) :
    HandsOut r (r.acknowledged t canonical consumer ack expired).1 := by
  unfold acknowledged
  split
  · refine HandsOut.trans ?_ (loopTop_handsOut (r.recordRun canonical (runIdOf ack)) _ _ _)
    exact .of_eq rfl (Nat.le_refl _)
  · unfold awaitReply
    split
    · exact .of_eq rfl (Nat.le_refl _)
    · split
      · exact .of_eq rfl (Nat.le_refl _)
      · exact .of_eq rfl (Nat.le_refl _)

omit [Runtime] in
theorem openTurn_handsOut (r : Relay) (t : Turn) (req : PyStr) (expired : Bool) :
    HandsOut r (r.openTurn t req expired).1 := by
  unfold openTurn
  split
  · split
    · exact sendTurn_handsOut r t _ req expired
    · exact .of_eq rfl (Nat.le_succ _)
  · exact .of_eq rfl (Nat.le_succ _)

variable [CaseMap]

theorem resume_handsOut {a : Await} {signal : Signal} {result : Relay × Halt}
    (h : r.resume t a signal = some result) : HandsOut r result.1 := by
  have hsame : ∀ r' : Relay, r'.deltaQueues = r.deltaQueues → r'.next = r.next → HandsOut r r' :=
    fun r' hqueues hnext => .of_eq hqueues hnext.ge
  have hdropped : ∀ (sending : Bool) req, HandsOut r (if sending then r else r.popPending req) := by
    intro sending req
    cases sending with
    | true => exact .refl r
    | false => exact hsame _ rfl rfl
  have hasked : ∀ req next includeApprovals,
      HandsOut r (r.subscribeAfter req next includeApprovals).1 :=
    fun _ _ _ => .of_eq rfl (Nat.le_succ _)
  have hclosed : ∀ canonical, HandsOut r (r.closeStream canonical) :=
    fun _ => .of_erase rfl (Nat.le_refl _)
  cases a with
  | create req future =>
    cases signal with
    | ready next expired =>
      rw [resume] at h
      split at h
      · cases h
      · cases h
        exact hasked _ _ _
      · split at h
        · cases h
          exact hasked _ _ _
        · cases h
          exact hsame _ rfl rfl
    | cancel sending =>
      cases h
      exact hdropped sending req
    | _ =>
      cases h
      exact hsame _ rfl rfl
  | subscribe req future includeApprovals =>
    cases signal with
    | ready next expired =>
      rw [resume] at h
      split at h
      · cases h
      · cases h
        refine HandsOut.trans ?_ (sendTurn_handsOut _ t _ _ _)
        exact hsame _ rfl rfl
      · split at h
        · cases h
          exact hasked _ _ _
        · cases h
          exact hsame _ rfl rfl
    | cancel sending =>
      cases h
      exact hdropped sending req
    | _ =>
      cases h
      exact hsame _ rfl rfl
  | send canonical consumer req future =>
    cases signal with
    | ready next expired =>
      rw [resume] at h
      split at h
      · cases h
      · cases h
        refine HandsOut.trans ?_ (acknowledged_handsOut _ t _ _ _ _)
        exact hsame _ rfl rfl
      · cases h
        exact failSend_handsOut r t _ _ _
    | _ =>
      cases h
      exact failSend_handsOut r t _ _ _
  | queue canonical consumer loop =>
    cases signal with
    | ready next expired =>
      rw [resume] at h
      split at h
      · cases h
      · cases h
        refine HandsOut.trans ?_ (takeItem_handsOut _ _ _ _ _)
        exact hsame _ rfl rfl
    | timeout expired =>
      rw [resume] at h
      split at h
      · cases h
        exact hclosed canonical
      · cases h
        unfold keepalive
        split
        · exact .refl r
        · exact .refl r
    | sendFailed message => cases h
    | cancel sending =>
      cases h
      exact hclosed canonical
  | yield canonical consumer loop output =>
    cases signal with
    | ready next expired =>
      cases h
      refine HandsOut.trans ?_ (loopTop_handsOut _ _ _ _)
      cases output with
      | progress text => exact hsame _ rfl rfl
      | _ => exact .refl r
    | _ => cases h
  | reply canonical consumer runId =>
    cases signal with
    | ready next expired =>
      rw [resume] at h
      split at h
      · cases h
        exact hsame _ rfl rfl
      · cases h
    | timeout expired =>
      cases h
      exact hsame _ rfl rfl
    | sendFailed message => cases h
    | cancel sending =>
      cases h
      exact .refl r

end

end

end Relay

section
variable [Runtime] [CaseMap]

/-- In every run, a queue that a session has was handed out. -/
theorem World.Reachable.numbered {ok : World → Label → Prop} {w : World} (h : Reachable ok w) :
    w.relay.Numbered := by
  have hhalt : ∀ (w : World) i t lock now (result : Relay × Halt), result.1.Numbered →
      (w.halt i t lock now result).relay.Numbered := by
    intro w i t lock now result hresult
    obtain ⟨r, a | outcome⟩ := result
    · exact hresult
    · exact hresult
  apply h.invariant
  · exact nofun
  · intro w label w' hw _ hstep
    cases World.step_moved hstep with
    | called t absent idle => exact hw
    | ended outcome turn idle => exact hw
    | contended turn idle =>
      show (w.relay.turnLock _).1.Numbered
      unfold Relay.turnLock
      split
      · exact hw
      · intro key q hq
        exact Nat.lt_succ_of_lt (hw key q hq)
    | entered turn waiting free fresh =>
      exact hhalt _ _ _ _ _ _ ((Relay.openTurn_handsOut _ _ _ _).numbered hw)
    | resumed turn running fresh piece =>
      exact hhalt _ _ _ _ _ _ ((Relay.resume_handsOut piece).numbered hw)
    | abandoned turn running => exact hw
    | @finalised i t canonical turn closing =>
      have hclosed : Relay.HandsOut w.relay (w.relay.closeStream canonical) :=
        .of_erase rfl (Nat.le_refl _)
      exact hclosed.numbered hw
    | answered handled =>
      have hanswers := Relay.handleResponse_answers handled
      have hqueues : _ = w.relay.deltaQueues := (congrArg Registry.deltaQueues hanswers.registry :)
      exact (Relay.HandsOut.of_eq hqueues hanswers.next.ge).numbered hw
    | shown handled =>
      have hshows := Relay.handleEvent_showsOnly handled
      have hqueues : _ = w.relay.deltaQueues := (congrArg Registry.deltaQueues hshows.registry :)
      exact (Relay.HandsOut.of_eq hqueues hshows.next.ge).numbered hw
    | reset => exact nofun

end

/-! ## The frames of a turn -/

namespace Relay

/-- What leaves the tools and the queue of a session to its turn. -/
structure Spares (key : PyStr) (q : Nat) (r r' : Relay) : Prop extends Elsewhere key q r r' where
  queue : r'.deltaQueues.lookup key = r.deltaQueues.lookup key
  owner : ∀ other, r'.deltaQueues.lookup other = some q → r.deltaQueues.lookup other = some q

end Relay

section
variable [Runtime] [CaseMap]

/-- A stream from its `chat.send` on: the frames that it has yielded, and the events of the gateway
that were processed, each with the relay before it. -/
inductive TurnRun (t : Turn) (key : PyStr) (q : Nat) (sent : Relay) :
    List ToolProgressFrame → List (Relay × Dict) → Relay → Prop where
  | sent : TurnRun t key q sent [] [] sent
  | event {yielded : List ToolProgressFrame} {events : List (Relay × Dict)} {r r' : Relay}
      {msg : Dict} (run : TurnRun t key q sent yielded events r)
      (handled : r.handleEvent msg = some r') :
      TurnRun t key q sent yielded (events ++ [(r, msg)]) r'
  | response {yielded : List ToolProgressFrame} {events : List (Relay × Dict)} {r r' : Relay}
      {msg : Dict} (run : TurnRun t key q sent yielded events r)
      (handled : r.handleResponse msg = some r') : TurnRun t key q sent yielded events r'
  | resumed {yielded : List ToolProgressFrame} {events : List (Relay × Dict)} {r r' : Relay}
      {a a' : Await} {signal : Signal} (run : TurnRun t key q sent yielded events r)
      (streams : a.Streams key q) (piece : r.resume t a signal = some (r', .at a')) :
      TurnRun t key q sent (yielded ++ a'.yielded) events r'
  | elsewhere {yielded : List ToolProgressFrame} {events : List (Relay × Dict)} {r r' : Relay}
      (run : TurnRun t key q sent yielded events r) (spares : Relay.Spares key q r r') :
      TurnRun t key q sent yielded events r'

/-- The frames of a stream: those that it has yielded, and those that wait in its queue. -/
def marks (yielded waiting : List ToolProgressFrame) : List (Mark (PyStr × PyStr)) :=
  (yielded ++ waiting).map (·.mark)

/-- A stream with structured frames, with the frames it has been sent. -/
structure Follows (key : PyStr) (q : Nat) (yielded : List ToolProgressFrame) (clean : Prop)
    (r : Relay) (count : Nat) (active : Option (PyStr × PyStr)) : Prop where
  tools : r.toolState key = .ofActive count active
  named : ∀ label ∈ active, label.2 ≠ []
  queue : r.deltaQueues.lookup key = some q
  owner : ∀ other, r.deltaQueues.lookup other = some q → other = key
  tracks : clean → Tracks (marks yielded (r.waiting q)) count active
  broken : ¬ clean → ¬ WellBracketed (marks yielded (r.waiting q))

variable {key : PyStr} {q count : Nat} {yielded : List ToolProgressFrame} {clean : Prop}
  {r r' : Relay} {active : Option (PyStr × PyStr)}

omit [CaseMap] in
theorem Follows.event {msg : Dict} (h : Follows key q yielded clean r count active)
    (handled : r.handleEvent msg = some r') :
    ∃ count' active', Follows key q yielded (clean ∧ r.strayEnd key msg = false) r' count' active' := by
  have hregistry := (Relay.handleEvent_showsOnly handled).registry
  have hqueues : r'.deltaQueues = r.deltaQueues := congrArg Registry.deltaQueues hregistry
  -- the event is about this session, or its queue does not notice it
  have hproceeds : Relay.Proceeds key q count active (r.strayEnd key msg) r r' := by
    have htools := Relay.handleEvent_tools handled
    unfold Relay.strayEnd
    cases htool : r.toolEvent msg with
    | none =>
      rw [htool] at htools
      exact htools.elsewhere.proceeds h.tools
    | some event =>
      obtain ⟨other, data, item⟩ := event
      rw [htool] at htools
      rw [show r' = r.applyTool other data item from htools]
      dsimp only
      by_cases hother : other = key
      · subst hother
        simpa using Relay.applyTool_proceeds h.tools h.named h.queue data item
      · have hflag : (decide (other = key) && r.endsNothing key data item) = false := by simp [hother]
        rw [hflag]
        apply (Relay.applyTool_elsewhere (Ne.symm hother) _ data item).proceeds h.tools
        exact fun hq => hother (h.owner other hq)
  have ⟨new, count', active', hemits, htools, hwaiting⟩ := hproceeds
  have hmarks : marks yielded (r'.waiting q) = marks yielded (r.waiting q) ++ new.map (·.mark) := by
    unfold marks
    rw [hwaiting, ← List.append_assoc, List.map_append]
  refine ⟨count', active', htools, hemits.named h.named, hqueues ▸ h.queue, hqueues ▸ h.owner, ?_, ?_⟩
  · rintro ⟨hclean, hstray⟩
    rw [hmarks]
    exact (hstray ▸ hemits).tracks (h.tracks hclean)
  -- a frame that ends nothing spoils the brackets for good
  · intro hbroken
    rw [hmarks]
    by_cases hclean : clean
    · have hstray : r.strayEnd key msg = true := by
        simpa [hclean] using hbroken
      exact (hstray ▸ hemits).not_wellBracketed (h.tracks hclean)
    · exact fun hbracketed => h.broken hclean hbracketed.of_append

omit [Runtime] [CaseMap] in
theorem Follows.congr {clean' : Prop} (h : Follows key q yielded clean r count active)
    (hclean : clean ↔ clean') : Follows key q yielded clean' r count active :=
  { h with
    tracks := fun hc => h.tracks (hclean.mpr hc)
    broken := fun hc => h.broken fun hc' => hc (hclean.mp hc') }

omit [Runtime] [CaseMap] in
/-- A step that adds no frame: some may pass from the queue to the consumer. -/
theorem Follows.pass {taken : List ToolProgressFrame} (h : Follows key q yielded clean r count active)
    (htools : r'.toolState key = r.toolState key)
    (hqueue : r'.deltaQueues.lookup key = r.deltaQueues.lookup key)
    (howner : ∀ other, r'.deltaQueues.lookup other = some q → r.deltaQueues.lookup other = some q)
    (hwaiting : r.waiting q = taken ++ r'.waiting q) :
    Follows key q (yielded ++ taken) clean r' count active := by
  have hmarks : marks (yielded ++ taken) (r'.waiting q) = marks yielded (r.waiting q) := by
    unfold marks
    rw [hwaiting, List.append_assoc]
  exact
    { tools := htools.trans h.tools
      named := h.named
      queue := hqueue.trans h.queue
      owner := fun other hq => h.owner other (howner other hq)
      tracks := fun hclean => hmarks ▸ h.tracks hclean
      broken := fun hclean => hmarks ▸ h.broken hclean }

omit [CaseMap] in
theorem Follows.response {msg : Dict} (h : Follows key q yielded clean r count active)
    (handled : r.handleResponse msg = some r') : Follows key q yielded clean r' count active := by
  have hanswers := Relay.handleResponse_answers handled
  have hqueues : r'.deltaQueues = r.deltaQueues := (congrArg Registry.deltaQueues hanswers.registry :)
  have htools : r'.toolState = r.toolState := by
    unfold Relay.toolState
    rw [hanswers.display]
  have hwaiting : r.waiting q = [] ++ r'.waiting q := by
    unfold Relay.waiting
    rw [hanswers.queues]
    rfl
  rw [← List.append_nil yielded]
  exact h.pass (congrFun htools key) (by rw [hqueues]) (fun _ hq => hqueues ▸ hq) hwaiting

omit [Runtime] [CaseMap] in
/-- The state that a stream installs, behind its request. -/
theorem follows_sent {t : Turn} (hstream : t.stream = true) (hframes : t.useToolFrames = true)
    (hnumbered : r.Numbered) (key req : PyStr) :
    Follows key r.next [] True (r.sendTurn t key req false).1 0 none := by
  have hinstall : r.install t key = (((r.clearTurn key).newStream key true).showReplayed key) := by
    unfold Relay.install
    rw [if_pos hstream, hframes]
    rfl
  -- a replayed approval is not shown on a stream with structured frames
  have hreplayed : Relay.Silent ((r.clearTurn key).newStream key true) (r.install t key) := by
    rw [hinstall]
    unfold Relay.showReplayed
    split
    · refine Relay.Silent.trans ?_ (Relay.silent_pushApprovalLine _ _ _)
      exact ⟨rfl, rfl⟩
    · exact ⟨rfl, rfl⟩
  have hqueues : (r.sendTurn t key req false).1.deltaQueues = r.deltaQueues.set key r.next := by
    show (r.install t key).deltaQueues = _
    rw [hinstall]
    exact (Relay.showReplayed_queues _ _).1
  have hwaiting : (r.sendTurn t key req false).1.waiting r.next = [] := by
    show (r.install t key).waiting r.next = _
    rw [hreplayed.waiting]
    show framesOf (Function.update r.queues r.next [] r.next) = []
    rw [Function.update_self]
    rfl
  have htools : (r.sendTurn t key req false).1.toolState key = .ofActive 0 none := by
    show (r.install t key).toolState key = _
    rw [hreplayed.tools]
    show ToolState.mk ((r.useToolFrames.set key true).getD key false)
      ((r.toolProgressSeq.set key 0).getD key 0) ((r.activeTool.erase key).lookup key)
      ((r.activeToolId.erase key).lookup key) ((r.activeToolSeq.erase key).lookup key) = _
    simp [OrderedDict.getD, ToolState.ofActive]
  have howner : ∀ other, (r.sendTurn t key req false).1.deltaQueues.lookup other = some r.next →
      other = key := by
    intro other hother
    rw [hqueues, OrderedDict.lookup_set] at hother
    split at hother
    · rename_i heq
      exact heq
    · exact absurd (hnumbered other _ hother) (lt_irrefl _)
  exact
    { tools := htools
      named := fun _ hlabel => absurd hlabel (Option.not_mem_none _)
      queue := by rw [hqueues, OrderedDict.lookup_set, if_pos rfl]
      owner := howner
      tracks := fun _ => by
        rw [hwaiting]
        exact .nil
      broken := fun h => absurd trivial h }

/-- At every moment of a stream. -/
theorem TurnRun.follows {t : Turn} {req : PyStr} {events : List (Relay × Dict)}
    (hstream : t.stream = true) (hframes : t.useToolFrames = true) (hnumbered : r.Numbered)
    (h : TurnRun t key r.next (r.sendTurn t key req false).1 yielded events r') :
    ∃ count active, Follows key r.next yielded (∀ e ∈ events, e.1.strayEnd key e.2 = false) r' count
      active := by
  induction h with
  | sent =>
    have hsent := follows_sent hstream hframes hnumbered key req
    exact ⟨0, none, hsent.congr (by simp)⟩
  | event run handled ih =>
    have ⟨count, active, hfollows⟩ := ih
    have ⟨count', active', hevent⟩ := hfollows.event handled
    refine ⟨count', active', hevent.congr ?_⟩
    rw [List.forall_mem_append, List.forall_mem_singleton]
  | response run handled ih =>
    have ⟨count, active, hfollows⟩ := ih
    exact ⟨count, active, hfollows.response handled⟩
  | resumed run streams piece ih =>
    have ⟨count, active, hfollows⟩ := ih
    have htakes := Relay.resume_takes hstream streams piece
    exact ⟨count, active, hfollows.pass (congrFun htakes.tools key) (by rw [htakes.queues])
      (fun _ hq => htakes.queues ▸ hq) htakes.waiting⟩
  | @elsewhere yielded events r₁ r₂ run spares ih =>
    have ⟨count, active, hfollows⟩ := ih
    rw [← List.append_nil yielded]
    exact ⟨count, active,
      hfollows.pass spares.tools spares.queue spares.owner spares.waiting.symm⟩

/-- The frames of a stream with structured frames are well bracketed exactly when no event ended a
tool without id and name while none was active. -/
theorem tool_frames_iff {t : Turn} {req : PyStr} {events : List (Relay × Dict)}
    (hstream : t.stream = true) (hframes : t.useToolFrames = true) (hnumbered : r.Numbered)
    (h : TurnRun t key r.next (r.sendTurn t key req false).1 yielded events r') :
    WellBracketed (marks yielded (r'.waiting r.next)) ↔
      ∀ e ∈ events, e.1.strayEnd key e.2 = false := by
  have ⟨count, active, hfollows⟩ := h.follows hstream hframes hnumbered
  constructor
  · intro hbracketed
    by_contra hbroken
    exact hfollows.broken hbroken hbracketed
  · exact fun hclean => (hfollows.tracks hclean).wellBracketed

end

/-! ## One stream -/

section
open Sample

/-- A stream with structured frames. -/
def frameTurn : Turn where
  stream := true
  sessionKey := py "ha-assist:c"
  principal := untrusted
  useToolFrames := true

/-- The acknowledgement of a `chat.send`. -/
def runStarted (req runId : PyStr) : Dict :=
  [(py "id", .str req), (py "ok", .bool true), (py "payload", .dict [(py "runId", .str runId)])]

/-- An event of the tool stream. -/
def toolEventMsg (key runId : PyStr) (data : Dict) : Dict :=
  [(py "event", .str (py "agent")), (py "payload", .dict [(py "stream", .str (py "tool")),
    (py "sessionKey", .str key), (py "runId", .str runId), (py "data", .dict data)])]

def toolStart : Dict := [(py "phase", .str (py "start")), (py "name", .str (py "Bash")),
  (py "id", .str (py "t1"))]

def toolEnd : Dict := [(py "phase", .str (py "end")), (py "id", .str (py "t1"))]

/-- An end that names no tool. -/
def bareEnd : Dict := [(py "phase", .str (py "end"))]

/-- The relay of the only stream, behind its `chat.send`. -/
def sentRelay : Relay := (({} : Relay).sendTurn frameTurn (py "k") (py "r0") false).1

/-- The relay behind the acknowledgement. -/
def startedRelay : Relay := (sentRelay.handleResponse (runStarted (py "r0") (py "run1"))).getD {}

theorem started_run : TurnRun frameTurn (py "k") 0 sentRelay [] [] startedRelay := by
  have hstarted : sentRelay.handleResponse (runStarted (py "r0") (py "run1")) = some startedRelay := rfl
  exact .response .sent hstarted

/-- A tool that starts and ends is bracketed. -/
theorem tool_frames_sample : ∃ events r', TurnRun frameTurn (py "k") 0 sentRelay [] events r' ∧
    r'.waiting 0 = [⟨py "start", py "Bash", py "t1", 1⟩, ⟨py "end", py "Bash", py "t1", 1⟩] ∧
    WellBracketed (marks [] (r'.waiting 0)) := by
  have hstart : startedRelay.handleEvent (toolEventMsg (py "k") (py "run1") toolStart) =
      some (startedRelay.applyTool (py "k") toolStart false) := rfl
  have hend : (startedRelay.applyTool (py "k") toolStart false).handleEvent
      (toolEventMsg (py "k") (py "run1") toolEnd) =
      some ((startedRelay.applyTool (py "k") toolStart false).applyTool (py "k") toolEnd false) := rfl
  have hrun := (started_run.event hstart).event hend
  have hnumbered : Relay.Numbered {} := fun _ _ h => by cases h
  refine ⟨_, _, hrun, by decide, ?_⟩
  exact (tool_frames_iff rfl rfl hnumbered hrun).mpr (by decide)

/-- An end without id and name, before any tool has started, is passed on as the end of a tool. -/
theorem stray_end_frame : ∃ r',
    TurnRun frameTurn (py "k") 0 sentRelay []
      [(startedRelay, toolEventMsg (py "k") (py "run1") bareEnd)] r' ∧
    r'.waiting 0 = [⟨py "end", [], [], 0⟩] ∧ ¬ WellBracketed (marks [] (r'.waiting 0)) := by
  have hend : startedRelay.handleEvent (toolEventMsg (py "k") (py "run1") bareEnd) =
      some (startedRelay.applyTool (py "k") bareEnd false) := rfl
  have hwaiting : (startedRelay.applyTool (py "k") bareEnd false).waiting 0 =
      [⟨py "end", [], [], 0⟩] := by decide
  have hstray : (0 : Nat) ∉ starts ([] : List (Mark (PyStr × PyStr))) := List.not_mem_nil
  refine ⟨_, started_run.event hend, hwaiting, ?_⟩
  rw [hwaiting]
  exact not_wellBracketed_stray hstray []

end

end HassNode.ChatRelay
