import HassNode.StatusSeparator
import HassNode.TurnIsolation

/-!
# What a turn hears

The text of a reply comes from assistant events only, and of those from the ones that the run filter
lets through.  `utterance?` reads off a frame what it says and for which session, and
`handleEvent_heard` says what an event does to the texts and to the queues: an utterance that is heard
is captured, and every other event leaves the texts alone and ends no stream.
-/

namespace HassNode.ChatRelay

open Py

/-! ## Utterances -/

/-- What an assistant event says. -/
structure Utterance where
  session : PyStr
  text : PyStr
  runId : PyStr
  sessionMessage : Bool
  terminal : Bool
deriving DecidableEq

section
variable [Runtime]

/-- The utterance of an assistant payload whose text is known. -/
def utteranceOf (sessionMessage : Bool) (payload : Dict) (text : PyStr) : Option Utterance :=
  let session := fieldText payload "sessionKey"
  let state := Dict.getD payload (py "state") .null
  if messageRole payload ≠ py "assistant" ∨ session = [] ∨ text = [] then none
  else some
    { session := session
      text := text
      runId := Relay.textField payload "runId"
      sessionMessage := sessionMessage
      terminal := sessionMessage ∨ state = .str (py "final") ∨ state = .null }

/-- The utterance of a frame; `none` for a tool event, an approval and everything else. -/
def utterance? (msg : Dict) : Option Utterance :=
  match Dict.getD msg (py "payload") (.dict []) with
  | .dict payload =>
    match Dict.getD msg (py "event") (.str []) with
    | .str event =>
      let stream := Dict.get? payload (py "stream")
      if event = py "session.approval" then none
      else if event ∈ [py "agent", py "session.tool"] ∧
          stream ∈ [some (.str (py "tool")), some (.str (py "item"))] then none
      else if event = py "session.message" ∨ startsWith event (py "chat") then
        (messageText (event = py "session.message") payload).bind
          (utteranceOf (event = py "session.message") payload)
      else none
    | _ => none
  | _ => none

theorem utteranceOf_text {sessionMessage : Bool} {payload : Dict} {text : PyStr} {u : Utterance}
    (h : utteranceOf sessionMessage payload text = some u) : u.text ≠ [] := by
  unfold utteranceOf at h
  dsimp only at h
  split at h
  · cases h
  · rename_i hsays
    cases h
    exact fun htext => hsays (.inr (.inr htext))

/-- An utterance says something. -/
theorem utterance_text {msg : Dict} {u : Utterance} (h : utterance? msg = some u) : u.text ≠ [] := by
  unfold utterance? at h
  dsimp only at h
  split at h
  · split at h
    · split_ifs at h
      obtain ⟨text, -, htext⟩ := Option.bind_eq_some_iff.mp h
      exact utteranceOf_text htext
    · cases h
  · cases h

namespace Relay

/-- A turn of the session waits for a reply, and the run filter lets the utterance through. -/
def hears (r : Relay) (u : Utterance) : Bool :=
  ((r.replyEvents.lookup u.session).isSome || (r.deltaQueues.lookup u.session).isSome) &&
    !r.staleAssistant u.sessionMessage u.session u.runId

def hear (r : Relay) (u : Utterance) : Relay :=
  if r.hears u then r.captureText u.session u.text u.runId u.terminal else r

theorem handleAssistantEvent_hear (r : Relay) (sessionMessage : Bool) (payload : Dict)
    (text : PyStr) : r.handleAssistantEvent sessionMessage payload text =
      match utteranceOf sessionMessage payload text with
      | some u => r.hear u
      | none => r := by
  unfold handleAssistantEvent utteranceOf
  dsimp only
  split
  · rfl
  · unfold hear hears
    dsimp only
    split
    · rename_i hnobody
      simp [hnobody.1, hnobody.2]
    · rename_i hsomebody
      have hwaits : ((r.replyEvents.lookup (fieldText payload "sessionKey")).isSome ||
          (r.deltaQueues.lookup (fieldText payload "sessionKey")).isSome) = true := by
        simp only [Bool.or_eq_true, Option.isSome_iff_ne_none, ne_eq]
        tauto
      rw [hwaits, Bool.true_and]
      split
      · rename_i hstale
        simp [hstale]
      · rename_i hfresh
        simp [Bool.eq_false_iff.mpr hfresh]

end Relay

end

/-! ## Events that say nothing -/

namespace Relay

/-- The texts stay, no stream is ended and no reply event is set. -/
structure Mute (r r' : Relay) : Prop where
  last : r'.lastAssistantText = r.lastAssistantText
  terminal : r'.terminalAssistantText = r.terminalAssistantText
  seen : r'.seenSameRunEvent = r.seenSameRunEvent
  items : ∀ q, ∃ items, Chunk.close ∉ items ∧ r'.queues q = r.queues q ++ items
  events : r'.events = r.events

section
variable {r r₁ r' : Relay}

theorem Mute.of_queues (hlast : r'.lastAssistantText = r.lastAssistantText)
    (hterminal : r'.terminalAssistantText = r.terminalAssistantText)
    (hseen : r'.seenSameRunEvent = r.seenSameRunEvent) (hqueues : r'.queues = r.queues)
    (hevents : r'.events = r.events) : Mute r r' :=
  ⟨hlast, hterminal, hseen, fun q => ⟨[], by simp, by simp [hqueues]⟩, hevents⟩

theorem Mute.refl (r : Relay) : Mute r r := .of_queues rfl rfl rfl rfl rfl

/-- One item on the queue of a session, which does not end it. -/
theorem Mute.of_put {queue : Nat} (chunk : Chunk) (hchunk : chunk ≠ .close)
    (hlast : r'.lastAssistantText = r.lastAssistantText)
    (hterminal : r'.terminalAssistantText = r.terminalAssistantText)
    (hseen : r'.seenSameRunEvent = r.seenSameRunEvent)
    (hqueues : r'.queues = Function.update r.queues queue (r.queues queue ++ [chunk]))
    (hevents : r'.events = r.events) : Mute r r' := by
  refine ⟨hlast, hterminal, hseen, fun q => ?_, hevents⟩
  by_cases hq : q = queue
  · subst hq
    exact ⟨[chunk], by simpa using Ne.symm hchunk, by simp [hqueues]⟩
  · exact ⟨[], by simp, by simp [hqueues, hq]⟩

theorem Mute.trans (h₁ : Mute r r₁) (h₂ : Mute r₁ r') : Mute r r' where
  last := h₂.last.trans h₁.last
  terminal := h₂.terminal.trans h₁.terminal
  seen := h₂.seen.trans h₁.seen
  events := h₂.events.trans h₁.events
  items q := by
    obtain ⟨items₁, hclose₁, hitems₁⟩ := h₁.items q
    obtain ⟨items₂, hclose₂, hitems₂⟩ := h₂.items q
    exact ⟨items₁ ++ items₂, by simp [hclose₁, hclose₂], by rw [hitems₂, hitems₁, List.append_assoc]⟩

theorem pushApprovalLine_mute (r : Relay) (key line : PyStr) : Mute r (r.pushApprovalLine key line) := by
  unfold pushApprovalLine
  split
  · exact .refl r
  · split
    · exact .refl r
    · exact .of_put (.text line) (by simp) rfl rfl rfl rfl rfl

theorem startFrame_mute (r : Relay) (key toolName toolId : PyStr) :
    Mute r (r.startFrame key toolName toolId) := by
  unfold startFrame
  dsimp only
  split
  · exact .of_queues rfl rfl rfl rfl rfl
  · exact .of_put (.frame _) (by simp) rfl rfl rfl rfl rfl

theorem startMarker_mute (r : Relay) (key toolName : PyStr) : Mute r (r.startMarker key toolName) := by
  unfold startMarker
  split
  · exact .refl r
  · split <;> exact .of_put (.text _) (by simp) rfl rfl rfl rfl rfl

theorem endFrame_mute (r : Relay) (key : PyStr) (toolName : Option PyStr) (toolId : PyStr) :
    Mute r (r.endFrame key toolName toolId) := by
  unfold endFrame
  dsimp only
  split
  · split
    · exact .of_queues rfl rfl rfl rfl rfl
    · exact .of_put (.frame _) (by simp) rfl rfl rfl rfl rfl
  · exact .refl r

theorem endMarker_mute (r : Relay) (key mark : PyStr) : Mute r (r.endMarker key mark) := by
  unfold endMarker
  dsimp only
  split
  · exact .of_queues rfl rfl rfl rfl rfl
  · exact .of_put (.text mark) (by simp) rfl rfl rfl rfl rfl

section
variable [Runtime]

theorem startTool_mute (r : Relay) (key : PyStr) (data : Dict) (toolName toolId : PyStr) :
    Mute r (r.startTool key data toolName toolId) := by
  unfold startTool
  dsimp only
  split
  · exact .refl r
  · split
    · refine Mute.trans ?_ (startFrame_mute _ key toolName toolId)
      exact .of_queues rfl rfl rfl rfl rfl
    · refine Mute.trans ?_ (startMarker_mute _ key toolName)
      exact .of_queues rfl rfl rfl rfl rfl

theorem applyToolPhase_mute (r : Relay) (key : PyStr) (data : Dict) (toolName : Option PyStr)
    (phase : PyStr) : Mute r (r.applyToolPhase key data toolName phase) := by
  unfold applyToolPhase
  dsimp only
  split
  · exact startTool_mute r _ _ _ _
  · split
    · split
      · exact endFrame_mute r _ _ _
      · exact endMarker_mute r _ _
    · split
      · exact endMarker_mute r _ _
      · exact .refl r

theorem handleToolEvent_mute (r : Relay) (payload : Dict) (item : Bool) :
    Mute r (r.handleToolEvent payload item) := by
  unfold handleToolEvent
  dsimp only
  split
  · split
    · exact .refl r
    · split
      · exact applyToolPhase_mute r _ _ _ _
      · exact .refl r
  · exact .refl r

theorem handleApprovalEvent_mute (r : Relay) (payload : Dict) :
    Mute r (r.handleApprovalEvent payload) := by
  unfold handleApprovalEvent
  dsimp only
  split
  · split
    · exact pushApprovalLine_mute r _ _
    · split
      · refine Mute.trans ?_ (pushApprovalLine_mute _ _ _)
        exact .of_queues rfl rfl rfl rfl rfl
      · exact .refl r
  · exact .refl r

/-! ## Every event -/

/-- An event is an utterance, which is captured when it is heard, or says nothing. -/
theorem handleEvent_heard {msg : Dict} (h : r.handleEvent msg = some r') :
    (∃ u, utterance? msg = some u ∧ r' = r.hear u) ∨ utterance? msg = none ∧ Mute r r' := by
  unfold handleEvent at h
  unfold utterance?
  cases hpayload : Dict.getD msg (py "payload") (.dict []) with
  | dict payload =>
    rw [hpayload] at h
    cases hevent : Dict.getD msg (py "event") (.str []) with
    | str event =>
      rw [hevent] at h
      dsimp only at h ⊢
      by_cases happroval : event = py "session.approval"
      · rw [if_pos happroval] at h
        rw [← Option.some.inj h]
        exact .inr ⟨if_pos happroval, handleApprovalEvent_mute r payload⟩
      · rw [if_neg happroval] at h ⊢
        by_cases htool : event ∈ [py "agent", py "session.tool"] ∧
            Dict.get? payload (py "stream") ∈ [some (.str (py "tool")), some (.str (py "item"))]
        · rw [if_pos htool] at h
          rw [← Option.some.inj h]
          exact .inr ⟨if_pos htool, handleToolEvent_mute r payload _⟩
        · rw [if_neg htool] at h ⊢
          by_cases hassistant : event = py "session.message" ∨ startsWith event (py "chat") = true
          · rw [if_pos hassistant] at h ⊢
            obtain ⟨text, htext, rfl⟩ := Option.map_eq_some_iff.mp h
            rw [htext, Option.bind_some, handleAssistantEvent_hear]
            cases utteranceOf _ payload text with
            | none => exact .inr ⟨rfl, .refl r⟩
            | some u => exact .inl ⟨u, rfl, rfl⟩
          · rw [if_neg hassistant] at h
            rw [← Option.some.inj h]
            exact .inr ⟨if_neg hassistant, .refl r⟩
    | _ =>
      rw [hevent] at h
      rw [← Option.some.inj h]
      exact .inr ⟨rfl, .refl r⟩
  | _ =>
    rw [hpayload] at h
    rw [← Option.some.inj h]
    exact .inr ⟨rfl, .refl r⟩

end

end

end Relay

end HassNode.ChatRelay
