import HassNode.TurnRelease
import HassNode.Utterances

/-!
# Pieces of a turn, seen by the other turns

What a turn has heard is kept under its canonical key, on its own queue and in the future of its own
request.  `Aside` says that a piece of another turn leaves these alone: it works under its own keys, on
its own queue and with its own requests, and whatever it hands out is new.
-/

namespace HassNode.ChatRelay

open Py

/-- The queue or the reply event of a turn that has installed its state. -/
def Await.consumer? : Await → Option Nat
  | .create .. | .subscribe .. => none
  | .send _ consumer _ _ | .queue _ consumer _ | .yield _ consumer _ _ | .reply _ consumer _ =>
    some consumer

/-- Where a body has ended. -/
def Halt.Ends : Halt → Prop
  | .at _ => False
  | .out _ => True

namespace Relay

/-- What stays when a turn works under the given keys, on the given queue and with the given requests. -/
structure Aside (keys : PyStr → Prop) (consumers : Nat → Prop) (reqs : PyStr → Prop) (r r' : Relay) :
    Prop where
  last : ∀ key, ¬ keys key → r'.lastAssistantText.lookup key = r.lastAssistantText.lookup key
  terminal : ∀ key, ¬ keys key →
    r'.terminalAssistantText.lookup key = r.terminalAssistantText.lookup key
  seen : ∀ key, ¬ keys key → r'.seenSameRunEvent.lookup key = r.seenSameRunEvent.lookup key
  items : ∀ q, ¬ consumers q → q < r.next → r'.queues q = r.queues q
  owner : ∀ key q, r'.deltaQueues.lookup key = some q →
    r.deltaQueues.lookup key = some q ∨ r.next ≤ q ∧ q < r'.next
  events : ∀ e, e < r.next → r'.events e = r.events e
  waiter : ∀ key e, r'.replyEvents.lookup key = some e →
    r.replyEvents.lookup key = some e ∨ r.next ≤ e ∧ e < r'.next
  pending : ∀ req, ¬ reqs req → r'.pending.lookup req = r.pending.lookup req
  issued : ∀ req future, r'.pending.lookup req = some future →
    r.pending.lookup req = some future ∨ r.next ≤ future ∧ future < r'.next
  futures : ∀ future, future < r.next → r'.futures future = r.futures future
  next : r.next ≤ r'.next

section
variable {keys : PyStr → Prop} {consumers : Nat → Prop} {reqs : PyStr → Prop} {r r₁ r' : Relay}
  {canonical req : PyStr}

theorem Aside.refl (r : Relay) : Aside keys consumers reqs r r where
  last _ _ := rfl
  terminal _ _ := rfl
  seen _ _ := rfl
  items _ _ _ := rfl
  owner _ _ h := .inl h
  events _ _ := rfl
  waiter _ _ h := .inl h
  pending _ _ := rfl
  issued _ _ h := .inl h
  futures _ _ := rfl
  next := Nat.le_refl _

theorem Aside.trans (h₁ : Aside keys consumers reqs r r₁) (h₂ : Aside keys consumers reqs r₁ r') :
    Aside keys consumers reqs r r' where
  last key hkey := (h₂.last key hkey).trans (h₁.last key hkey)
  terminal key hkey := (h₂.terminal key hkey).trans (h₁.terminal key hkey)
  seen key hkey := (h₂.seen key hkey).trans (h₁.seen key hkey)
  items q hq hlt := (h₂.items q hq (lt_of_lt_of_le hlt h₁.next)).trans (h₁.items q hq hlt)
  owner key q hq := by
    rcases h₂.owner key q hq with hq | hnew
    · exact (h₁.owner key q hq).imp_right fun hold => ⟨hold.1, lt_of_lt_of_le hold.2 h₂.next⟩
    · exact .inr ⟨h₁.next.trans hnew.1, hnew.2⟩
  events e hlt := (h₂.events e (lt_of_lt_of_le hlt h₁.next)).trans (h₁.events e hlt)
  waiter key e he := by
    rcases h₂.waiter key e he with he | hnew
    · exact (h₁.waiter key e he).imp_right fun hold => ⟨hold.1, lt_of_lt_of_le hold.2 h₂.next⟩
    · exact .inr ⟨h₁.next.trans hnew.1, hnew.2⟩
  pending req hreq := (h₂.pending req hreq).trans (h₁.pending req hreq)
  issued req future hf := by
    rcases h₂.issued req future hf with hf | hnew
    · exact (h₁.issued req future hf).imp_right fun hold =>
        ⟨hold.1, lt_of_lt_of_le hold.2 h₂.next⟩
    · exact .inr ⟨h₁.next.trans hnew.1, hnew.2⟩
  futures future hlt :=
    (h₂.futures future (lt_of_lt_of_le hlt h₁.next)).trans (h₁.futures future hlt)
  next := h₁.next.trans h₂.next

theorem Aside.mono {keys' : PyStr → Prop} {consumers' : Nat → Prop} {reqs' : PyStr → Prop}
    (h : Aside keys consumers reqs r r') (hkeys : ∀ key, keys key → keys' key)
    (hconsumers : ∀ q, consumers q → consumers' q) (hreqs : ∀ req, reqs req → reqs' req) :
    Aside keys' consumers' reqs' r r' :=
  { h with
    last := fun key hkey => h.last key fun hk => hkey (hkeys key hk)
    terminal := fun key hkey => h.terminal key fun hk => hkey (hkeys key hk)
    seen := fun key hkey => h.seen key fun hk => hkey (hkeys key hk)
    items := fun q hq => h.items q fun hk => hq (hconsumers q hk)
    pending := fun req hreq => h.pending req fun hk => hreq (hreqs req hk) }

/-- What goes no further than the displays of tools and the run ids keeps everything. -/
theorem Aside.of_eq (hlast : r'.lastAssistantText = r.lastAssistantText)
    (hterminal : r'.terminalAssistantText = r.terminalAssistantText)
    (hseen : r'.seenSameRunEvent = r.seenSameRunEvent) (hqueues : r'.queues = r.queues)
    (hattached : r'.deltaQueues = r.deltaQueues) (hevents : r'.events = r.events)
    (hwaiting : r'.replyEvents = r.replyEvents) (hpending : r'.pending = r.pending)
    (hfutures : r'.futures = r.futures) (hnext : r.next ≤ r'.next) :
    Aside keys consumers reqs r r' where
  last _ _ := by rw [hlast]
  terminal _ _ := by rw [hterminal]
  seen _ _ := by rw [hseen]
  items _ _ _ := by rw [hqueues]
  owner _ _ h := .inl (hattached ▸ h)
  events _ _ := by rw [hevents]
  waiter _ _ h := .inl (hwaiting ▸ h)
  pending _ _ := by rw [hpending]
  issued _ _ h := .inl (hpending ▸ h)
  futures _ _ := by rw [hfutures]
  next := hnext

theorem newFuture_aside (r : Relay) (hreq : reqs req) :
    Aside keys consumers reqs r (r.newFuture req) where
  last _ _ := rfl
  terminal _ _ := rfl
  seen _ _ := rfl
  items _ _ _ := rfl
  owner _ _ h := .inl h
  events _ _ := rfl
  waiter _ _ h := .inl h
  pending _ hother := lookup_set_of_not hreq hother
  issued other future hf := by
    have hset : (r.pending.set req r.next).lookup other = some future := hf
    rw [OrderedDict.lookup_set] at hset
    split at hset
    · have hnumber := Option.some.inj hset
      have hnext : (r.newFuture req).next = r.next + 1 := rfl
      omega
    · exact .inl hset
  futures future hlt := Function.update_of_ne (by omega) _ _
  next := Nat.le_succ _

theorem popPending_aside (r : Relay) (hreq : reqs req) :
    Aside keys consumers reqs r (r.popPending req) where
  last _ _ := rfl
  terminal _ _ := rfl
  seen _ _ := rfl
  items _ _ _ := rfl
  owner _ _ h := .inl h
  events _ _ := rfl
  waiter _ _ h := .inl h
  pending other hother := by
    apply AList.lookup_erase_ne
    rintro rfl
    exact hother hreq
  issued other future hf := by
    have herase : (r.pending.erase req).lookup other = some future := hf
    rw [OrderedDict.lookup_erase_eq] at herase
    split at herase
    · cases herase
    · exact .inl herase
  futures _ _ := rfl
  next := Nat.le_refl _

theorem releaseSend_aside (r : Relay) (hreq : reqs req) :
    Aside keys consumers reqs r (r.releaseSend req) :=
  (popPending_aside r hreq).trans (.of_eq rfl rfl rfl rfl rfl rfl rfl rfl rfl le_rfl)

theorem recordRun_aside (r : Relay) (canonical runId : PyStr) :
    Aside keys consumers reqs r (r.recordRun canonical runId) :=
  .of_eq rfl rfl rfl rfl rfl rfl rfl rfl rfl le_rfl

theorem popReply_aside (r : Relay) (canonical : PyStr) :
    Aside keys consumers reqs r (r.popReply canonical) where
  last _ _ := rfl
  terminal _ _ := rfl
  seen _ _ := rfl
  items _ _ _ := rfl
  owner _ _ h := .inl h
  events _ _ := rfl
  waiter key e h := by
    have herase : (r.replyEvents.erase canonical).lookup key = some e := h
    rw [OrderedDict.lookup_erase_eq] at herase
    split at herase
    · cases herase
    · exact .inl herase
  pending _ _ := rfl
  issued _ _ h := .inl h
  futures _ _ := rfl
  next := Nat.le_refl _

/-- A session gives its queue up. -/
theorem aside_of_erase (hlast : r'.lastAssistantText = r.lastAssistantText)
    (hterminal : r'.terminalAssistantText = r.terminalAssistantText)
    (hseen : r'.seenSameRunEvent = r.seenSameRunEvent) (hqueues : r'.queues = r.queues)
    (hattached : r'.deltaQueues = r.deltaQueues.erase canonical) (hevents : r'.events = r.events)
    (hwaiting : r'.replyEvents = r.replyEvents) (hpending : r'.pending = r.pending)
    (hfutures : r'.futures = r.futures) (hnext : r'.next = r.next) :
    Aside keys consumers reqs r r' where
  last _ _ := by rw [hlast]
  terminal _ _ := by rw [hterminal]
  seen _ _ := by rw [hseen]
  items _ _ _ := by rw [hqueues]
  owner key q h := by
    rw [hattached, OrderedDict.lookup_erase_eq] at h
    split at h
    · cases h
    · exact .inl h
  events _ _ := by rw [hevents]
  waiter _ _ h := .inl (hwaiting ▸ h)
  pending _ _ := by rw [hpending]
  issued _ _ h := .inl (hpending ▸ h)
  futures _ _ := by rw [hfutures]
  next := hnext.ge

theorem closeStream_aside (r : Relay) (canonical : PyStr) :
    Aside keys consumers reqs r (r.closeStream canonical) :=
  aside_of_erase rfl rfl rfl rfl rfl rfl rfl rfl rfl rfl

theorem cleanupPendingTurn_aside (r : Relay) (hkey : keys canonical) (stream : Bool) :
    Aside keys consumers reqs r (r.cleanupPendingTurn canonical stream) where
  last _ _ := rfl
  terminal _ _ := rfl
  seen _ h := lookup_erase_of_not hkey h
  items _ _ _ := rfl
  owner key q h := by
    cases stream with
    | true =>
      have herase : (r.deltaQueues.erase canonical).lookup key = some q := h
      rw [OrderedDict.lookup_erase_eq] at herase
      split at herase
      · cases herase
      · exact .inl herase
    | false => exact .inl h
  events _ _ := rfl
  waiter key e h := by
    cases stream with
    | true => exact .inl h
    | false =>
      have herase : (r.replyEvents.erase canonical).lookup key = some e := h
      rw [OrderedDict.lookup_erase_eq] at herase
      split at herase
      · cases herase
      · exact .inl herase
  pending _ _ := rfl
  issued _ _ h := .inl h
  futures _ _ := rfl
  next := Nat.le_refl _

/-! ## The state of a new turn -/

theorem clearTurn_aside (r : Relay) (hkey : keys canonical) :
    Aside keys consumers reqs r (r.clearTurn canonical) where
  last _ h := lookup_erase_of_not hkey h
  terminal _ h := lookup_erase_of_not hkey h
  seen _ h := lookup_set_of_not hkey h
  items _ _ _ := rfl
  owner _ _ h := .inl h
  events _ _ := rfl
  waiter _ _ h := .inl h
  pending _ _ := rfl
  issued _ _ h := .inl h
  futures _ _ := rfl
  next := Nat.le_refl _

theorem showReplayed_mute (r : Relay) (canonical : PyStr) : Mute r (r.showReplayed canonical) := by
  unfold showReplayed
  split
  · refine Mute.trans ?_ (pushApprovalLine_mute _ canonical approvalWaitingLine)
    exact .of_queues rfl rfl rfl rfl rfl
  · exact .of_queues rfl rfl rfl rfl rfl

theorem showReplayed_showsOnly (r : Relay) (canonical : PyStr) :
    ShowsOnly r (r.showReplayed canonical) := by
  unfold showReplayed
  split
  · exact (showsOnly_surface _ _ _ _).trans (showsOnly_pushApprovalLine _ _ _)
  · exact showsOnly_surface _ _ _ _

/-- The new queue is another one than all that were handed out, and so is what is put on it. -/
theorem newStream_aside (r : Relay) (canonical : PyStr) (useToolFrames : Bool) :
    Aside keys consumers reqs r ((r.newStream canonical useToolFrames).showReplayed canonical) := by
  have hmute := showReplayed_mute (r.newStream canonical useToolFrames) canonical
  have hshows := showReplayed_showsOnly (r.newStream canonical useToolFrames) canonical
  have hpending : ((r.newStream canonical useToolFrames).showReplayed canonical).pending =
      r.pending := (congrArg Registry.pending hshows.registry :)
  have hattached : ((r.newStream canonical useToolFrames).showReplayed canonical).deltaQueues =
      r.deltaQueues.set canonical r.next := (congrArg Registry.deltaQueues hshows.registry :)
  have hwaiting : ((r.newStream canonical useToolFrames).showReplayed canonical).replyEvents =
      r.replyEvents := (congrArg Registry.replyEvents hshows.registry :)
  have hnext : ((r.newStream canonical useToolFrames).showReplayed canonical).next = r.next + 1 :=
    hshows.next
  have hfutures : ((r.newStream canonical useToolFrames).showReplayed canonical).futures =
      r.futures := hshows.futures
  constructor
  case last => exact fun _ _ => congrArg (AList.lookup _) hmute.last
  case terminal => exact fun _ _ => congrArg (AList.lookup _) hmute.terminal
  case seen => exact fun _ _ => congrArg (AList.lookup _) hmute.seen
  case items =>
    intro q _ hlt
    have hnumber : q ≠ r.next := by omega
    have hq : (r.newStream canonical useToolFrames).queues q = r.queues q :=
      Function.update_of_ne hnumber _ _
    rw [← hq]
    -- the line of a replayed approval goes to the new queue
    unfold showReplayed
    split
    · unfold pushApprovalLine
      split
      · rfl
      · rename_i queue hqueue
        have hset : (r.deltaQueues.set canonical r.next).lookup canonical = some queue := hqueue
        rw [OrderedDict.lookup_set, if_pos rfl, Option.some.injEq] at hset
        split
        · rfl
        · exact Function.update_of_ne (hset ▸ hnumber) _ _
    · rfl
  case owner =>
    intro key q h
    rw [hattached, OrderedDict.lookup_set] at h
    split at h
    · have hnumber := Option.some.inj h
      omega
    · exact .inl h
  case events => exact fun _ _ => congrFun hmute.events _
  case waiter => exact fun _ _ h => .inl (hwaiting ▸ h)
  case pending => exact fun _ _ => congrArg (AList.lookup _) hpending
  case issued => exact fun _ _ h => .inl (hpending ▸ h)
  case futures => exact fun _ _ => congrFun hfutures _
  case next => omega

theorem newReply_aside (r : Relay) (canonical : PyStr) :
    Aside keys consumers reqs r (r.newReply canonical) where
  last _ _ := rfl
  terminal _ _ := rfl
  seen _ _ := rfl
  items _ _ _ := rfl
  owner _ _ h := .inl h
  events e hlt := Function.update_of_ne (by omega) _ _
  waiter key e h := by
    have hset : (r.replyEvents.set canonical r.next).lookup key = some e := h
    rw [OrderedDict.lookup_set] at hset
    split at hset
    · have hnumber := Option.some.inj hset
      have hnext : (r.newReply canonical).next = r.next + 1 := rfl
      omega
    · exact .inl hset
  pending _ _ := rfl
  issued _ _ h := .inl h
  futures _ _ := rfl
  next := Nat.le_succ _

theorem install_aside (r : Relay) (t : Turn) (hkey : keys canonical) :
    Aside keys consumers reqs r (r.install t canonical) := by
  unfold install
  split
  · exact (clearTurn_aside r hkey).trans (newStream_aside _ canonical _)
  · exact (clearTurn_aside r hkey).trans (newReply_aside _ canonical)

theorem sendTurn_aside (r : Relay) (t : Turn) (hkey : keys canonical) (hreq : reqs req)
    (expired : Bool) : Aside keys consumers reqs r (r.sendTurn t canonical req expired).1 := by
  unfold sendTurn
  split
  · exact (install_aside r t hkey).trans (cleanupPendingTurn_aside _ hkey _)
  · refine (install_aside r t hkey).trans ?_
    refine (newFuture_aside _ hreq).trans ?_
    exact .of_eq rfl rfl rfl rfl rfl rfl rfl rfl rfl le_rfl

/-! ## The stream loop -/

/-- The consumer of a queue takes its first item. -/
theorem popped_aside (r : Relay) {consumer : Nat} (hconsumer : consumers consumer)
    (rest : List Chunk) :
    Aside keys consumers reqs r { r with queues := Function.update r.queues consumer rest } where
  last _ _ := rfl
  terminal _ _ := rfl
  seen _ _ := rfl
  items q hq _ := by
    apply Function.update_of_ne
    rintro rfl
    exact hq hconsumer
  owner _ _ h := .inl h
  events _ _ := rfl
  waiter _ _ h := .inl h
  pending _ _ := rfl
  issued _ _ h := .inl h
  futures _ _ := rfl
  next := Nat.le_refl _

theorem takeItem_aside (r : Relay) (canonical : PyStr) (consumer : Nat) (loop : Loop)
    (item : Chunk) : Aside keys consumers reqs r (r.takeItem canonical consumer loop item).1 := by
  cases item with
  | close => exact closeStream_aside r canonical
  | error e => exact closeStream_aside r canonical
  | frame f => exact .refl r
  | text item =>
    unfold takeItem
    dsimp only
    split
    · exact .refl r
    · exact .of_eq rfl rfl rfl rfl rfl rfl rfl rfl rfl le_rfl

theorem keepalive_aside (r : Relay) (t : Turn) (canonical : PyStr) (consumer : Nat) (loop : Loop) :
    Aside keys consumers reqs r (r.keepalive t canonical consumer loop).1 := by
  unfold keepalive
  split
  · exact .refl r
  · exact .refl r

theorem yielded_aside (r : Relay) (canonical : PyStr) (output : Output) :
    Aside keys consumers reqs r (r.yielded canonical output) := by
  cases output with
  | progress line => exact .of_eq rfl rfl rfl rfl rfl rfl rfl rfl rfl le_rfl
  | _ => exact .refl r

theorem loopTop_aside (r : Relay) (canonical : PyStr) {consumer : Nat}
    (hconsumer : consumers consumer) (loop : Loop) :
    Aside keys consumers reqs r (r.loopTop canonical consumer loop).1 := by
  unfold loopTop
  split
  · exact (popped_aside r hconsumer _).trans (takeItem_aside _ canonical consumer loop _)
  · split
    · exact closeStream_aside r canonical
    · exact .refl r

theorem awaitReply_aside (r : Relay) (t : Turn) (canonical : PyStr) (consumer : Nat)
    (runId : PyStr) (expired : Bool) :
    Aside keys consumers reqs r (r.awaitReply t canonical consumer runId expired).1 := by
  unfold awaitReply
  split
  · exact popReply_aside r canonical
  · split
    · exact popReply_aside r canonical
    · exact .refl r

theorem failSend_aside (r : Relay) (t : Turn) (hkey : keys canonical) (hreq : reqs req)
    (error : Outcome) : Aside keys consumers reqs r (r.failSend t canonical req error).1 :=
  (releaseSend_aside r hreq).trans (cleanupPendingTurn_aside _ hkey _)

section
variable [Runtime]

theorem acknowledged_aside (r : Relay) (t : Turn) (canonical : PyStr) {consumer : Nat}
    (hconsumer : consumers consumer) (ack : Json) (expired : Bool) :
    Aside keys consumers reqs r (r.acknowledged t canonical consumer ack expired).1 := by
  unfold acknowledged
  split
  · exact (recordRun_aside r canonical _).trans (loopTop_aside _ canonical hconsumer _)
  · exact (recordRun_aside r canonical _).trans (awaitReply_aside _ t canonical consumer _ expired)

theorem registerSession_aside (r : Relay) (sessionKey : PyStr) (response : Json) :
    Aside keys consumers reqs r (r.registerSession sessionKey response) :=
  .of_eq rfl rfl rfl rfl rfl rfl rfl rfl rfl le_rfl

/-! ## Whole pieces -/

omit [Runtime] in
theorem openTurn_aside (r : Relay) (t : Turn) (req : PyStr) (expired : Bool) :
    Aside (fun key => r.openInstalls t = some key) (fun _ => False) (fun other => other = req) r
      (r.openTurn t req expired).1 := by
  unfold openTurn
  split
  · rename_i canonical hcanonical
    split
    · rename_i hsubscribed
      apply sendTurn_aside
      · simp only [openInstalls, hcanonical, hsubscribed, if_true]
      · rfl
    · exact newFuture_aside r rfl
  · exact newFuture_aside r rfl

variable [CaseMap]

/-- A resumed turn works under its canonical key only when its body ends or when it installs its state
there, on its own queue, and with its old request and the one it draws. -/
theorem resume_aside {t : Turn} {a : Await} {signal : Signal} {result : Relay × Halt}
    (h : r.resume t a signal = some result) :
    Aside (fun key => (a.canonical? = some key ∧ result.2.Ends) ∨ r.installs t a signal = some key)
      (fun q => a.consumer? = some q)
      (fun req => a.request? = some req ∨ signal.req? = some req) r result.1 := by
  cases a with
  -- the first two requests touch nothing but their own entry
  | create req future =>
    cases signal with
    | ready next expired =>
      rw [resume] at h
      split at h
      · cases h
      · rw [← Option.some.inj h]
        exact (popPending_aside r (.inl rfl)).trans (newFuture_aside _ (.inr rfl))
      · split at h
        · rw [← Option.some.inj h]
          exact (popPending_aside r (.inl rfl)).trans (newFuture_aside _ (.inr rfl))
        · rw [← Option.some.inj h]
          exact popPending_aside r (.inl rfl)
    | timeout expired =>
      rw [← Option.some.inj h]
      exact popPending_aside r (.inl rfl)
    | sendFailed message =>
      rw [← Option.some.inj h]
      exact popPending_aside r (.inl rfl)
    -- a cancellation inside the send leaves the request
    | cancel sending =>
      rw [← Option.some.inj h]
      cases sending with
      | true => exact .refl r
      | false => exact popPending_aside r (.inl rfl)
  | subscribe req future includeApprovals =>
    cases signal with
    | ready next expired =>
      rw [resume] at h
      split at h
      · cases h
      · rename_i response hfuture
        rw [← Option.some.inj h]
        refine (popPending_aside r (.inl rfl)).trans ?_
        refine (registerSession_aside _ t.sessionKey response).trans ?_
        apply sendTurn_aside
        -- the turn installs its state here
        · right
          simp only [installs, hfuture]
        · exact .inr rfl
      · split at h
        · rw [← Option.some.inj h]
          exact (popPending_aside r (.inl rfl)).trans (newFuture_aside _ (.inr rfl))
        · rw [← Option.some.inj h]
          exact popPending_aside r (.inl rfl)
    | timeout expired =>
      rw [← Option.some.inj h]
      exact popPending_aside r (.inl rfl)
    | sendFailed message =>
      rw [← Option.some.inj h]
      exact popPending_aside r (.inl rfl)
    | cancel sending =>
      rw [← Option.some.inj h]
      cases sending with
      | true => exact .refl r
      | false => exact popPending_aside r (.inl rfl)
  | send canonical consumer req future =>
    cases signal with
    | ready next expired =>
      rw [resume] at h
      split at h
      · cases h
      · rw [← Option.some.inj h]
        refine (releaseSend_aside r (.inl rfl)).trans (acknowledged_aside _ t canonical ?_ _ expired)
        rfl
      · rw [← Option.some.inj h]
        exact failSend_aside r t (.inl ⟨rfl, trivial⟩) (.inl rfl) _
    | timeout expired =>
      rw [← Option.some.inj h]
      exact failSend_aside r t (.inl ⟨rfl, trivial⟩) (.inl rfl) _
    | sendFailed message =>
      rw [← Option.some.inj h]
      exact failSend_aside r t (.inl ⟨rfl, trivial⟩) (.inl rfl) _
    | cancel sending =>
      rw [← Option.some.inj h]
      exact failSend_aside r t (.inl ⟨rfl, trivial⟩) (.inl rfl) _
  -- a stream works on its own queue, and cleans up when its body ends
  | queue canonical consumer loop =>
    cases signal with
    | ready next expired =>
      rw [resume] at h
      split at h
      · cases h
      · rw [← Option.some.inj h]
        refine (popped_aside r ?_ _).trans (takeItem_aside _ canonical consumer loop _)
        rfl
    | timeout expired =>
      rw [resume] at h
      split at h
      · rw [← Option.some.inj h]
        exact closeStream_aside r canonical
      · rw [← Option.some.inj h]
        exact keepalive_aside r t canonical consumer loop
    | sendFailed message => cases h
    | cancel sending =>
      rw [← Option.some.inj h]
      exact closeStream_aside r canonical
  | yield canonical consumer loop output =>
    cases signal with
    | ready next expired =>
      rw [← Option.some.inj h]
      apply (yielded_aside r canonical output).trans
      apply loopTop_aside
      rfl
    | _ => cases h
  | reply canonical consumer runId =>
    cases signal with
    | ready next expired =>
      rw [resume] at h
      split at h
      · rw [← Option.some.inj h]
        exact popReply_aside r canonical
      · cases h
    | timeout expired =>
      rw [← Option.some.inj h]
      exact popReply_aside r canonical
    | sendFailed message => cases h
    | cancel sending =>
      rw [← Option.some.inj h]
      exact .refl r

end

end

/-! ## Pieces behind the installation -/

section
variable {r r' : Relay} {key req : PyStr} {consumer : Nat} {t : Turn} {loop : Loop} {a a' : Await}

/-- The turn is suspended behind its `chat.send`. -/
structure GoesOn (key : PyStr) (consumer : Nat) (a : Await) : Prop where
  canonical : a.canonical? = some key
  consumer : a.consumer? = some consumer
  request : a.request? = none

theorem takeItem_goesOn {item : Chunk} (h : r.takeItem key consumer loop item = (r', .at a')) :
    GoesOn key consumer a' ∧ r'.toRegistry = r.toRegistry := by
  cases item with
  | close => cases h
  | error e => cases h
  | frame f =>
    cases h
    exact ⟨⟨rfl, rfl, rfl⟩, rfl⟩
  | text item =>
    unfold takeItem at h
    dsimp only at h
    split at h
    · cases h
      exact ⟨⟨rfl, rfl, rfl⟩, rfl⟩
    · cases h
      exact ⟨⟨rfl, rfl, rfl⟩, rfl⟩

theorem loopTop_goesOn (h : r.loopTop key consumer loop = (r', .at a')) :
    GoesOn key consumer a' ∧ r'.toRegistry = r.toRegistry := by
  unfold loopTop at h
  split at h
  · have htaken := takeItem_goesOn h
    exact htaken
  · split at h
    · cases h
    · cases h
      exact ⟨⟨rfl, rfl, rfl⟩, rfl⟩

theorem keepalive_goesOn (h : r.keepalive t key consumer loop = (r', .at a')) :
    GoesOn key consumer a' ∧ r'.toRegistry = r.toRegistry := by
  unfold keepalive at h
  split at h
  · cases h
    exact ⟨⟨rfl, rfl, rfl⟩, rfl⟩
  · cases h
    exact ⟨⟨rfl, rfl, rfl⟩, rfl⟩

/-- A turn that has installed its state has a queue or a reply event. -/
theorem consumer_of_canonical (hkey : a.canonical? = some key) : ∃ q, a.consumer? = some q := by
  cases a with
  | create req future => cases hkey
  | subscribe req future includeApprovals => cases hkey
  | _ => exact ⟨_, rfl⟩

/-- What a stream is suspended in. -/
theorem streams_of_suits (hsuits : a.Suits true) (hkey : a.canonical? = some key)
    (hconsumer : a.consumer? = some consumer) : a.Streams key consumer := by
  cases a with
  | create req future => cases hkey
  | subscribe req future includeApprovals => cases hkey
  | reply canonical consumer' runId => cases hsuits
  | _ => exact ⟨Option.some.inj hkey, Option.some.inj hconsumer⟩

variable [Runtime]

omit [Runtime] in
/-- A turn installs its state once. -/
theorem installs_of_canonical {signal : Signal} (hkey : a.canonical? = some key) :
    r.installs t a signal = none := by
  cases a with
  | create req future => rfl
  | subscribe req future includeApprovals => cases hkey
  | _ => rfl

theorem acknowledged_goesOn {ack : Json} {expired : Bool}
    (h : r.acknowledged t key consumer ack expired = (r', .at a')) :
    GoesOn key consumer a' ∧ r'.toRegistry = (r.recordRun key (runIdOf ack)).toRegistry := by
  unfold acknowledged at h
  split at h
  · have htop := loopTop_goesOn h
    exact htop
  · unfold awaitReply at h
    split at h
    · cases h
    · split at h
      · cases h
      · cases h
        exact ⟨⟨rfl, rfl, rfl⟩, rfl⟩

/-- A turn that has installed its state goes on under its key and on its queue.  Only the
acknowledgement touches the registry. -/
theorem resume_goesOn [CaseMap] {signal : Signal} (hkey : a.canonical? = some key)
    (hconsumer : a.consumer? = some consumer) (h : r.resume t a signal = some (r', .at a')) :
    GoesOn key consumer a' ∧ (a.request? = none ∧ r'.toRegistry = r.toRegistry ∨
      ∃ req future payload, a = .send key consumer req future ∧ r.futures future = .result payload ∧
        r'.toRegistry = ((r.releaseSend req).recordRun key (runIdOf payload)).toRegistry) := by
  cases a with
  | create req future => cases hkey
  | subscribe req future includeApprovals => cases hkey
  | send canonical consumer' req future =>
    cases hkey
    cases hconsumer
    cases signal with
    | ready next expired =>
      rw [resume] at h
      split at h
      · cases h
      · rename_i payload hfuture
        have hacknowledged := acknowledged_goesOn (Option.some.inj h)
        exact ⟨hacknowledged.1, .inr ⟨req, future, payload, rfl, hfuture, hacknowledged.2⟩⟩
      · cases h
    | _ => cases h
  | queue canonical consumer' loop =>
    cases hkey
    cases hconsumer
    cases signal with
    | ready next expired =>
      rw [resume] at h
      split at h
      · cases h
      · have htaken := takeItem_goesOn (Option.some.inj h)
        exact ⟨htaken.1, .inl ⟨rfl, htaken.2⟩⟩
    | timeout expired =>
      rw [resume] at h
      split at h
      · cases h
      · have hkept := keepalive_goesOn (Option.some.inj h)
        exact ⟨hkept.1, .inl ⟨rfl, hkept.2⟩⟩
    | _ => cases h
  | yield canonical consumer' loop output =>
    cases hkey
    cases hconsumer
    cases signal with
    | ready next expired =>
      rw [resume] at h
      have htop := loopTop_goesOn (Option.some.inj h)
      have hregistry := htop.2.trans (yielded_toRegistry r key output)
      exact ⟨htop.1, .inl ⟨rfl, hregistry⟩⟩
    | _ => cases h
  | reply canonical consumer' runId =>
    cases signal with
    | ready next expired =>
      rw [resume] at h
      split at h <;> cases h
    | _ => cases h

/-! ## The next suspension -/

/-- The queue of the next suspension is an old one or a new one, and its request was drawn for it. -/
def Opens (held : Option Nat) (next : Option PyStr) (r : Relay) : Relay × Halt → Prop
  | (r', .at a) => (∀ q, a.consumer? = some q → held = some q ∨ r.next ≤ q ∧ q < r'.next) ∧
      ∀ req, a.request? = some req → next = some req ∧ req ∈ r'.drawn
  | (_, .out _) => True

omit [Runtime] in
theorem opens_request {r r₁ : Relay} (held : Option Nat) (req : PyStr) {a : Await}
    (hconsumer : a.consumer? = none) (hrequest : a.request? = some req) :
    Opens held (some req) r (r₁.newFuture req, .at a) := by
  refine ⟨fun q hq => ?_, fun other hother => ?_⟩
  · rw [hconsumer] at hq
    cases hq
  · rw [hrequest] at hother
    exact ⟨hother, List.mem_cons.mpr (.inl (Option.some.inj hother).symm)⟩

omit [Runtime] in
theorem sendTurn_opens (r r₁ : Relay) (t : Turn) (canonical req : PyStr) (expired : Bool)
    (hnext : r₁.next = r.next) : Opens none (some req) r (r₁.sendTurn t canonical req expired) := by
  unfold sendTurn
  split
  · trivial
  · have hinstall : r₁.next < (r₁.install t canonical).next := by
      unfold install
      split
      · have hshown : (r₁.installStream canonical t.useToolFrames).next = r₁.next + 1 :=
          (showReplayed_queues _ canonical).2
        omega
      · exact Nat.lt_succ_self _
    refine ⟨fun q hq => .inr ?_, fun other hother => ⟨hother, ?_⟩⟩
    · have hnumber : r₁.next = q := Option.some.inj hq
      have hprepared : ((r₁.install t canonical).prepareSend canonical req).next =
          (r₁.install t canonical).next + 1 := rfl
      omega
    · exact List.mem_cons.mpr (.inl (Option.some.inj hother).symm)

omit [Runtime] in
theorem openTurn_opens (r : Relay) (t : Turn) (req : PyStr) (expired : Bool) :
    Opens none (some req) r (r.openTurn t req expired) := by
  unfold openTurn
  split
  · split
    · exact sendTurn_opens r r t _ req expired rfl
    · exact opens_request none req rfl rfl
  · exact opens_request none req rfl rfl

theorem resume_opens [CaseMap] {signal : Signal} {result : Relay × Halt}
    (h : r.resume t a signal = some result) : Opens a.consumer? signal.req? r result := by
  obtain ⟨r', a' | outcome⟩ := result
  · cases hcanonical : a.canonical? with
    | some key =>
      obtain ⟨q, hconsumer⟩ := consumer_of_canonical hcanonical
      have hgoes := (resume_goesOn hcanonical hconsumer h).1
      refine ⟨fun q' hq' => .inl ?_, fun req hreq => ?_⟩
      · rw [hconsumer, ← hgoes.consumer, hq']
      · rw [hgoes.request] at hreq
        cases hreq
    | none =>
      cases a with
      | create req future =>
        cases signal with
        | ready next expired =>
          rw [resume] at h
          split at h
          · cases h
          · rw [← Option.some.inj h]
            exact opens_request none next rfl rfl
          · split at h
            · rw [← Option.some.inj h]
              exact opens_request none next rfl rfl
            · cases h
        | _ => cases h
      | subscribe req future includeApprovals =>
        cases signal with
        | ready next expired =>
          rw [resume] at h
          split at h
          · cases h
          · rw [← Option.some.inj h]
            exact sendTurn_opens r _ t _ next expired rfl
          · split at h
            · rw [← Option.some.inj h]
              exact opens_request none next rfl rfl
            · cases h
        | _ => cases h
      | _ => cases hcanonical
  · trivial

end

end Relay

end HassNode.ChatRelay
