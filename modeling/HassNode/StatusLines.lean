import HassNode.ToolFrames

/-!
# What an event posts on a plain-text stream

The queue of a stream holds status lines, structured frames and at last the reply, which is the text
right before the end of the queue.  An event posts at most one of them, on the stream of its own
session, and every status line that it posts is one that the stream loop recognises.
-/

namespace HassNode.ChatRelay

open Py

/-! ## Status lines -/

theorem startsWith_append (pre s : PyStr) : startsWith (pre ++ s) pre = true :=
  List.isPrefixOf_iff_prefix.mpr (List.prefix_append pre s)

theorem isPlainTextStatusChunk_iff {s : PyStr} : isPlainTextStatusChunk s = true ↔
    s ∈ [streamProgressDelta, approvalWaitingLine, py " ✓"] ∨
      ∃ pre ∈ [approvalDecisionPrefix, py "\n🔧 Calling ", py "🔧 Calling ", py " (x", py " ✗ "],
        startsWith s pre = true := by
  unfold isPlainTextStatusChunk
  simp only [Bool.or_eq_true, decide_eq_true_eq, List.mem_cons, List.not_mem_nil, or_false,
    exists_eq_or_imp, exists_eq_left]
  tauto

/-- The markers, counts and decisions that the relay writes. -/
theorem status_of_start (pre s : PyStr) (h : pre ∈ [approvalDecisionPrefix,
    py "\n🔧 Calling ", py "🔧 Calling ", py " (x", py " ✗ "]) :
    isPlainTextStatusChunk (pre ++ s) = true :=
  isPlainTextStatusChunk_iff.mpr (.inr ⟨pre, h, startsWith_append pre s⟩)

/-! ## Posts -/

/-- What the relay puts on a stream at once. -/
inductive Post where
  | line (text : PyStr)
  | reply (text : PyStr)
  | frame (f : ToolProgressFrame)
  | error (e : RelayError)

namespace Post

def chunks : Post → List Chunk
  | .line text => [.text text]
  | .reply text => [.text text, .close]
  | .frame f => [.frame f]
  | .error e => [.error e]

/-- A status line is recognised, and a reply has a text. -/
def Proper : Post → Prop
  | .line text => isPlainTextStatusChunk text = true
  | .reply text => text ≠ []
  | _ => True

end Post

def chunksOf (posts : List Post) : List Chunk := posts.flatMap Post.chunks

theorem chunksOf_concat (posts : List Post) (post : Post) :
    chunksOf (posts ++ [post]) = chunksOf posts ++ post.chunks := by
  simp [chunksOf]

/-- A text waits that is not right before an end of the queue. -/
def statusWaits : List Chunk → Bool
  | .text _ :: .close :: rest => statusWaits rest
  | .text _ :: _ => true
  | _ :: rest => statusWaits rest
  | [] => false

theorem statusWaits_chunksOf (posts : List Post) :
    statusWaits (chunksOf posts) = true ↔ ∃ text, Post.line text ∈ posts := by
  induction posts with
  | nil => simp [chunksOf, statusWaits]
  | cons post posts ih =>
    cases post with
    | line text =>
      have hwaits : statusWaits (.text text :: chunksOf posts) = true := by
        cases posts with
        | nil => rfl
        | cons next posts => cases next <;> rfl
      exact iff_of_true hwaits ⟨text, List.mem_cons_self⟩
    | _ =>
      refine Iff.trans ?_ (ih.trans ?_)
      · rfl
      · simp

/-! ## The text stream of a session -/

/-- What the relay knows of the text stream of a session. -/
structure TextState where
  queue : Option Nat
  statusOpen : Bool
  toolName : PyStr

/-- A status line opens the stream, unless it counts a tool up; nothing else changes it. -/
def Post.Opens : Post → TextState → TextState → Prop
  | .line _, before, after => after.queue = before.queue ∧
      (after.statusOpen = true ∨ after = before ∧ before.toolName ≠ [])
  | _, before, after => after = before

namespace Relay

def textState (r : Relay) (key : PyStr) : TextState where
  queue := r.deltaQueues.lookup key
  statusOpen := r.textStatusOpen.getD key false
  toolName := r.textToolName.getD key []

/-- The session has the queue, or none any more, and no other session has it. -/
structure Attends (key : PyStr) (q : Nat) (r : Relay) : Prop where
  queue : r.deltaQueues.lookup key = some q ∨ r.deltaQueues.lookup key = none
  owner : ∀ other, r.deltaQueues.lookup other = some q → other = key

/-- What a step does to the stream of a session: at most one post. -/
inductive Posts (key : PyStr) (q : Nat) (r r' : Relay) : Prop where
  | nothing (items : r'.queues q = r.queues q) (text : r'.textState key = r.textState key)
  | posted (post : Post) (proper : post.Proper) (attached : r.deltaQueues.lookup key = some q)
      (items : r'.queues q = r.queues q ++ post.chunks)
      (text : post.Opens (r.textState key) (r'.textState key))

section
variable {r r₁ r' : Relay} {key other : PyStr} {q queue : Nat}

theorem Posts.refl (r : Relay) : Posts key q r r := .nothing rfl rfl

theorem Posts.behind (hitems : r₁.queues q = r.queues q) (htext : r₁.textState key = r.textState key)
    (h : Posts key q r₁ r') : Posts key q r r' := by
  cases h with
  | nothing items text => exact .nothing (items.trans hitems) (text.trans htext)
  | posted post proper attached items text =>
    rw [hitems] at items
    rw [htext] at text
    exact .posted post proper ((congrArg TextState.queue htext).symm.trans attached) items text

/-- A post on the queue of some session. -/
theorem posts_put (hr : Attends key q r) (hqueue : r.deltaQueues.lookup other = some queue)
    (post : Post) (proper : post.Proper)
    (hitems : r'.queues = Function.update r.queues queue (r.queues queue ++ post.chunks))
    (hothers : ∀ k, k ≠ other → r'.textState k = r.textState k)
    (hopens : post.Opens (r.textState other) (r'.textState other)) : Posts key q r r' := by
  by_cases hkey : other = key
  · subst hkey
    obtain rfl : queue = q := by
      rcases hr.queue with hattached | hgone
      · exact Option.some.inj (hqueue.symm.trans hattached)
      · rw [hgone] at hqueue
        cases hqueue
    refine .posted post proper hqueue ?_ hopens
    rw [hitems, Function.update_self]
  · have hne : q ≠ queue := by
      rintro rfl
      exact hkey (hr.owner other hqueue)
    refine .nothing ?_ (hothers key (Ne.symm hkey))
    rw [hitems, Function.update_of_ne hne]

theorem pushApprovalLine_posts (hr : Attends key q r) (other : PyStr) {line : PyStr}
    (hline : isPlainTextStatusChunk line = true) : Posts key q r (r.pushApprovalLine other line) := by
  unfold pushApprovalLine
  split
  · exact .refl r
  · rename_i queue hqueue
    split
    · exact .refl r
    · refine posts_put hr hqueue (.line line) hline rfl ?_ ⟨rfl, .inl ?_⟩
      · intro k hk
        simp [textState, OrderedDict.getD, putNowait, hk]
      · simp [textState, OrderedDict.getD]

/-! ## Tool events -/

theorem startFrame_posts (hr : Attends key q r) (other toolName toolId : PyStr) :
    Posts key q r (r.startFrame other toolName toolId) := by
  unfold startFrame
  dsimp only
  split
  · exact .nothing rfl rfl
  · rename_i queue hqueue
    exact posts_put hr hqueue (.frame _) trivial rfl (fun _ _ => rfl) rfl

/-- A marker opens the stream.  A count stands behind the marker of the same tool. -/
theorem startMarker_posts (hr : Attends key q r) (other : PyStr) {toolName : PyStr}
    (htool : toolName ≠ []) : Posts key q r (r.startMarker other toolName) := by
  unfold startMarker
  split
  · exact .refl r
  · rename_i queue hqueue
    split
    · rename_i hsame
      have hcount : isPlainTextStatusChunk (py " (x" ++
          natStr (r.textToolCount.getD other 1 + 1) ++ py ")...") = true := by
        rw [List.append_assoc]
        exact status_of_start _ _ (by simp)
      refine posts_put hr hqueue (.line _) hcount rfl (fun _ _ => rfl) ⟨rfl, .inr ⟨rfl, ?_⟩⟩
      show r.textToolName.getD other [] ≠ []
      rwa [hsame]
    · have hmarker : isPlainTextStatusChunk ((if r.textHasVisibleOutput.getD other false then [10]
          else []) ++ py "🔧 Calling " ++ toolName ++ py "...") = true := by
        rw [List.append_assoc]
        cases r.textHasVisibleOutput.getD other false with
        | true => exact status_of_start (py "\n🔧 Calling ") _ (by simp)
        | false => exact status_of_start (py "🔧 Calling ") _ (by simp)
      refine posts_put hr hqueue (.line _) hmarker rfl ?_ ⟨rfl, .inl ?_⟩
      · intro k hk
        simp [textState, OrderedDict.getD, putNowait, hk]
      · simp [textState, OrderedDict.getD, putNowait]

theorem startTool_posts (hr : Attends key q r) (other : PyStr) (data : Dict) {toolName : PyStr}
    (htool : toolName ≠ []) (toolId : PyStr) [Runtime] :
    Posts key q r (r.startTool other data toolName toolId) := by
  unfold startTool
  dsimp only
  split
  · exact .refl r
  · split
    · refine Posts.behind ?_ ?_ (startFrame_posts ?_ other toolName toolId)
      · rfl
      · rfl
      · exact ⟨hr.queue, hr.owner⟩
    · refine Posts.behind ?_ ?_ (startMarker_posts ?_ other htool)
      · rfl
      · rfl
      · exact ⟨hr.queue, hr.owner⟩

theorem endFrame_posts (hr : Attends key q r) (other : PyStr) (toolName : Option PyStr)
    (toolId : PyStr) : Posts key q r (r.endFrame other toolName toolId) := by
  unfold endFrame
  dsimp only
  split
  · split
    · exact .nothing rfl rfl
    · rename_i queue hqueue
      exact posts_put hr hqueue (.frame _) trivial rfl (fun _ _ => rfl) rfl
  · exact .refl r

theorem endMarker_posts (hr : Attends key q r) (other : PyStr) {mark : PyStr}
    (hmark : isPlainTextStatusChunk mark = true) : Posts key q r (r.endMarker other mark) := by
  unfold endMarker
  dsimp only
  split
  · exact .nothing rfl rfl
  · rename_i queue hqueue
    refine posts_put hr hqueue (.line mark) hmark rfl ?_ ⟨rfl, .inl ?_⟩
    · intro k hk
      simp [textState, OrderedDict.getD, putNowait, hk]
    · simp [textState, OrderedDict.getD, putNowait]

section
variable [Runtime]

theorem applyToolPhase_posts (hr : Attends key q r) (other : PyStr) (data : Dict)
    (toolName : Option PyStr) (phase : PyStr) :
    Posts key q r (r.applyToolPhase other data toolName phase) := by
  unfold applyToolPhase
  dsimp only
  split
  · rename_i hstart
    exact startTool_posts hr other data hstart.2 _
  · split
    · split
      · exact endFrame_posts hr other toolName _
      · exact endMarker_posts hr other (isPlainTextStatusChunk_iff.mpr (.inl (by simp)))
    · split
      · exact endMarker_posts hr other (status_of_start _ _ (by simp))
      · exact .refl r

theorem handleToolEvent_posts (hr : Attends key q r) (payload : Dict) (item : Bool) :
    Posts key q r (r.handleToolEvent payload item) := by
  unfold handleToolEvent
  dsimp only
  split
  · split
    · exact .refl r
    · split
      · exact applyToolPhase_posts hr _ _ _ _
      · exact .refl r
  · exact .refl r

/-! ## Approval events and replies -/

omit [Runtime] in
theorem status_approvalTerminalLine (approval : Dict) :
    isPlainTextStatusChunk (approvalTerminalLine approval) = true :=
  status_of_start _ _ (by simp)

theorem handleApprovalEvent_posts (hr : Attends key q r) (payload : Dict) :
    Posts key q r (r.handleApprovalEvent payload) := by
  unfold handleApprovalEvent
  dsimp only
  split
  · split
    · exact pushApprovalLine_posts hr _ (isPlainTextStatusChunk_iff.mpr (.inl (by simp)))
    · split
      · refine Posts.behind ?_ ?_ (pushApprovalLine_posts ?_ _ (status_approvalTerminalLine _))
        · rfl
        · rfl
        · exact ⟨hr.queue, hr.owner⟩
      · exact .refl r
  · exact .refl r

omit [Runtime] in
/-- The reply of a turn, right before the end of the queue. -/
theorem captureTerminal_posts (hr : Attends key q r) (other : PyStr) {text : PyStr}
    (htext : text ≠ []) : Posts key q r (r.captureTerminal other text) := by
  unfold captureTerminal
  cases hqueue : r.deltaQueues.lookup other with
  | none =>
    dsimp only
    split <;> exact .nothing rfl rfl
  | some queue =>
    have hitems : ((r.putNowait queue (.text text)).putNowait queue .close).queues =
        Function.update r.queues queue (r.queues queue ++ [.text text, .close]) := by
      show Function.update (Function.update r.queues queue _) queue
        (Function.update r.queues queue _ queue ++ [.close]) = _
      rw [Function.update_self, Function.update_idem, List.append_assoc]
      rfl
    dsimp only
    split <;> exact posts_put hr hqueue (.reply text) htext hitems (fun _ _ => rfl) rfl

theorem handleAssistantEvent_posts (hr : Attends key q r) (sessionMessage : Bool) (payload : Dict)
    (text : PyStr) : Posts key q r (r.handleAssistantEvent sessionMessage payload text) := by
  unfold handleAssistantEvent captureText
  dsimp only
  split
  · exact .refl r
  · rename_i hrelevant
    split
    · exact .refl r
    · split
      · exact .refl r
      · split
        · refine Posts.behind ?_ ?_ (captureTerminal_posts ?_ _ fun h => hrelevant (.inr (.inr h)))
          · rfl
          · rfl
          · exact ⟨hr.queue, hr.owner⟩
        · exact .nothing rfl rfl

/-- An event posts at most one thing on the stream of a session. -/
theorem handleEvent_posts {msg : Dict} (hr : Attends key q r) (h : r.handleEvent msg = some r') :
    Posts key q r r' := by
  unfold handleEvent at h
  dsimp only at h
  split at h
  · split at h
    · split at h
      · cases h
        exact handleApprovalEvent_posts hr _
      · split at h
        · cases h
          exact handleToolEvent_posts hr _ _
        · split at h
          · rw [Option.map_eq_some_iff] at h
            obtain ⟨text, -, rfl⟩ := h
            exact handleAssistantEvent_posts hr _ _ text
          · cases h
            exact .refl r
    · cases h
      exact .refl r
  · cases h
    exact .refl r

end

end

end Relay

end HassNode.ChatRelay
