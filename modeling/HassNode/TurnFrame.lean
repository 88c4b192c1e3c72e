import HassNode.ChatWorld

/-!
# What a piece of a turn leaves alone

A turn reads and writes the shared dictionaries under its own keys: its raw session key, the
canonical key it holds or installs its state under, and its request ids.  `Keeps` says that
everything else stays, for one kind of turn; `resume_keeps` and `openTurn_keeps` prove it of every
piece of a turn's body, whatever suspension it starts from.
-/

namespace HassNode.ChatRelay

open Py

/-! ## The keys of a turn -/

namespace Await

/-- The canonical key under which the turn has installed its state. -/
def canonical? : Await → Option PyStr
  | .create .. | .subscribe .. => none
  | .send canonical .. | .queue canonical .. | .yield canonical .. | .reply canonical .. =>
    some canonical

/-- The request id of an unfinished `chat.send`. -/
def sent? : Await → Option PyStr
  | .send _ _ req _ => some req
  | _ => none

/-- Only a stream waits for its queue, only a relay turn for its reply event. -/
def Suits (stream : Bool) : Await → Prop
  | .create .. | .subscribe .. | .send .. => True
  | .queue .. | .yield .. => stream = true
  | .reply .. => stream = false

end Await

namespace Turn

/-- The turn is between entering and leaving `_active_turn`. -/
def await? (t : Turn) : Option Await :=
  match t.phase with
  | .running _ a => some a
  | _ => none

end Turn

/-- The id that a resumption may use. -/
def Signal.req? : Signal → Option PyStr
  | .ready req _ => some req
  | _ => none

namespace Relay

section
variable [Runtime]

/-- The canonical key under which a turn installs its state when its body begins. -/
def openInstalls (r : Relay) (t : Turn) : Option PyStr :=
  match r.canonicalByRaw.lookup t.sessionKey with
  | some canonical => if canonical ∈ r.subscribed then some canonical else none
  | none => none

/-- The canonical key under which a suspended turn installs its state when it goes on. -/
def installs (r : Relay) (t : Turn) : Await → Signal → Option PyStr
  | .subscribe _ future _, .ready _ _ =>
    match r.futures future with
    | .result response => some (canonicalOf t.sessionKey response)
    | _ => none
  | _, _ => none

end

/-! ## The frame -/

/-- What stays when a turn of the given kind works under the given keys and request ids. -/
structure Keeps (stream : Bool) (raws keys reqs : PyStr → Prop) (r r' : Relay) : Prop where
  activeTurns : r'.activeTurns = r.activeTurns
  turnLocks : r'.turnLocks = r.turnLocks
  locked : r'.locked = r.locked
  drawn : r.drawn ⊆ r'.drawn
  subscribed : r.subscribed ⊆ r'.subscribed
  canonicalByRaw : ∀ raw, ¬ raws raw →
    r'.canonicalByRaw.lookup raw = r.canonicalByRaw.lookup raw
  activeRunId : ∀ key, ¬ keys key → r'.activeRunId.lookup key = r.activeRunId.lookup key
  deltaQueues : ∀ key, ¬ (stream = true ∧ keys key) →
    r'.deltaQueues.lookup key = r.deltaQueues.lookup key
  replyEvents : ∀ key, ¬ (stream = false ∧ keys key) →
    r'.replyEvents.lookup key = r.replyEvents.lookup key
  chatSendCanonical : ∀ req, ¬ reqs req →
    r'.chatSendCanonical.lookup req = r.chatSendCanonical.lookup req

section
variable {stream : Bool} {raws keys reqs : PyStr → Prop} {r r₁ r₂ : Relay}

theorem Keeps.refl (r : Relay) : Keeps stream raws keys reqs r r where
  activeTurns := rfl
  turnLocks := rfl
  locked := rfl
  drawn := List.Subset.refl _
  subscribed := Finset.Subset.refl _
  canonicalByRaw := fun _ _ => rfl
  activeRunId := fun _ _ => rfl
  deltaQueues := fun _ _ => rfl
  replyEvents := fun _ _ => rfl
  chatSendCanonical := fun _ _ => rfl

theorem Keeps.trans (h₁ : Keeps stream raws keys reqs r r₁)
    (h₂ : Keeps stream raws keys reqs r₁ r₂) : Keeps stream raws keys reqs r r₂ where
  activeTurns := h₂.activeTurns.trans h₁.activeTurns
  turnLocks := h₂.turnLocks.trans h₁.turnLocks
  locked := h₂.locked.trans h₁.locked
  drawn := List.Subset.trans h₁.drawn h₂.drawn
  subscribed := h₁.subscribed.trans h₂.subscribed
  canonicalByRaw := fun raw h => (h₂.canonicalByRaw raw h).trans (h₁.canonicalByRaw raw h)
  activeRunId := fun key h => (h₂.activeRunId key h).trans (h₁.activeRunId key h)
  deltaQueues := fun key h => (h₂.deltaQueues key h).trans (h₁.deltaQueues key h)
  replyEvents := fun key h => (h₂.replyEvents key h).trans (h₁.replyEvents key h)
  chatSendCanonical := fun req h => (h₂.chatSendCanonical req h).trans (h₁.chatSendCanonical req h)

/-- What only changes the display, the objects and the pending requests keeps everything. -/
theorem Keeps.of_registry (hturns : r₁.activeTurns = r.activeTurns)
    (hlocks : r₁.turnLocks = r.turnLocks) (hlocked : r₁.locked = r.locked)
    (hdrawn : r.drawn ⊆ r₁.drawn) (hsubscribed : r₁.subscribed = r.subscribed)
    (hcanonical : r₁.canonicalByRaw = r.canonicalByRaw)
    (hrun : r₁.activeRunId = r.activeRunId) (hqueues : r₁.deltaQueues = r.deltaQueues)
    (hreplies : r₁.replyEvents = r.replyEvents)
    (hsent : r₁.chatSendCanonical = r.chatSendCanonical) :
    Keeps stream raws keys reqs r r₁ where
  activeTurns := hturns
  turnLocks := hlocks
  locked := hlocked
  drawn := hdrawn
  subscribed := hsubscribed ▸ Finset.Subset.refl _
  canonicalByRaw := fun _ _ => by rw [hcanonical]
  activeRunId := fun _ _ => by rw [hrun]
  deltaQueues := fun _ _ => by rw [hqueues]
  replyEvents := fun _ _ => by rw [hreplies]
  chatSendCanonical := fun _ _ => by rw [hsent]

theorem newFuture_keeps (r : Relay) (req : PyStr) :
    Keeps stream raws keys reqs r (r.newFuture req) :=
  .of_registry rfl rfl rfl (List.subset_cons_self _ _) rfl rfl rfl rfl rfl rfl

theorem popPending_keeps (r : Relay) (req : PyStr) :
    Keeps stream raws keys reqs r (r.popPending req) :=
  .of_registry rfl rfl rfl (List.Subset.refl _) rfl rfl rfl rfl rfl rfl

theorem pushApprovalLine_keeps (r : Relay) (key line : PyStr) :
    Keeps stream raws keys reqs r (r.pushApprovalLine key line) := by
  unfold pushApprovalLine
  split
  · exact .refl r
  · split
    · exact .refl r
    · exact .of_registry rfl rfl rfl (List.Subset.refl _) rfl rfl rfl rfl rfl rfl

variable {canonical : PyStr}

/-- Setting a key changes the lookup of that key only. -/
theorem lookup_set_of_not {ν : Type} {d : StrDict ν} {key other : PyStr} {value : ν}
    {P : PyStr → Prop} (hkey : P key) (hother : ¬ P other) :
    (d.set key value).lookup other = d.lookup other := by
  rw [OrderedDict.lookup_set, if_neg]
  rintro rfl
  exact hother hkey

theorem lookup_erase_of_not {ν : Type} {d : StrDict ν} {key other : PyStr} {P : PyStr → Prop}
    (hkey : P key) (hother : ¬ P other) : AList.lookup other (d.erase key) = d.lookup other := by
  rw [OrderedDict.lookup_erase_eq, if_neg]
  rintro rfl
  exact hother hkey

theorem clearTurn_keeps (r : Relay) (hkey : keys canonical) :
    Keeps stream raws keys reqs r (r.clearTurn canonical) :=
  { Keeps.refl r with activeRunId := fun _ h => lookup_set_of_not hkey h }

theorem newStream_keeps (r : Relay) (hkey : keys canonical) (useToolFrames : Bool) :
    Keeps true raws keys reqs r (r.newStream canonical useToolFrames) :=
  { Keeps.refl r with
    deltaQueues := fun _ h =>
      lookup_set_of_not (P := fun key => true = true ∧ keys key) ⟨rfl, hkey⟩ h }

theorem showReplayed_keeps (r : Relay) :
    Keeps stream raws keys reqs r (r.showReplayed canonical) := by
  have herased : Keeps stream raws keys reqs r
      { r with replayPending := r.replayPending.erase canonical } :=
    .of_registry rfl rfl rfl (List.Subset.refl _) rfl rfl rfl rfl rfl rfl
  unfold showReplayed
  split
  · exact herased.trans (pushApprovalLine_keeps _ _ _)
  · exact herased

theorem newReply_keeps (r : Relay) (hkey : keys canonical) :
    Keeps false raws keys reqs r (r.newReply canonical) :=
  { Keeps.refl r with
    replyEvents := fun _ h =>
      lookup_set_of_not (P := fun key => false = false ∧ keys key) ⟨rfl, hkey⟩ h }

theorem cleanupPendingTurn_keeps (r : Relay) (hkey : keys canonical) :
    Keeps stream raws keys reqs r (r.cleanupPendingTurn canonical stream) where
  activeTurns := rfl
  turnLocks := rfl
  locked := rfl
  drawn := List.Subset.refl _
  subscribed := Finset.Subset.refl _
  canonicalByRaw := fun _ _ => rfl
  chatSendCanonical := fun _ _ => rfl
  activeRunId := fun key h => by
    show AList.lookup key (if r.activeRunId.lookup canonical = some pendingRunId then
      r.activeRunId.erase canonical else r.activeRunId) = r.activeRunId.lookup key
    split
    · exact lookup_erase_of_not hkey h
    · rfl
  deltaQueues := fun key h => by
    unfold cleanupPendingTurn
    cases stream with
    | false => rfl
    | true => exact lookup_erase_of_not (P := fun key => true = true ∧ keys key) ⟨rfl, hkey⟩ h
  replyEvents := fun key h => by
    unfold cleanupPendingTurn
    cases stream with
    | false => exact lookup_erase_of_not (P := fun key => false = false ∧ keys key) ⟨rfl, hkey⟩ h
    | true => rfl

theorem closeStream_keeps (r : Relay) (hkey : keys canonical) :
    Keeps true raws keys reqs r (r.closeStream canonical) :=
  { Keeps.refl r with
    deltaQueues := fun _ h =>
      lookup_erase_of_not (P := fun key => true = true ∧ keys key) ⟨rfl, hkey⟩ h }

theorem popReply_keeps (r : Relay) (hkey : keys canonical) :
    Keeps false raws keys reqs r (r.popReply canonical) :=
  { Keeps.refl r with
    replyEvents := fun _ h =>
      lookup_erase_of_not (P := fun key => false = false ∧ keys key) ⟨rfl, hkey⟩ h }

theorem recordRun_keeps (r : Relay) (hkey : keys canonical) (runId : PyStr) :
    Keeps stream raws keys reqs r (r.recordRun canonical runId) :=
  { Keeps.refl r with
    activeRunId := fun _ h => by
      unfold recordRun
      split
      · exact lookup_set_of_not hkey h
      · exact lookup_erase_of_not hkey h }

theorem releaseSend_keeps (r : Relay) {req : PyStr} (hreq : reqs req) :
    Keeps stream raws keys reqs r (r.releaseSend req) :=
  { (Keeps.refl r : Keeps stream raws keys reqs r r) with
    chatSendCanonical := fun _ h => lookup_erase_of_not hreq h }

theorem registerSession_keeps [Runtime] (r : Relay) {sessionKey : PyStr} (hraw : raws sessionKey)
    (response : Json) :
    Keeps stream raws keys reqs r (r.registerSession sessionKey response) :=
  { (Keeps.refl r : Keeps stream raws keys reqs r r) with
    subscribed := Finset.subset_insert _ _
    canonicalByRaw := fun _ h => lookup_set_of_not hraw h }

/-- Only the queue objects and the display change. -/
theorem shown_keeps (r : Relay) (display : Display) (queues : Nat → List Chunk) :
    Keeps stream raws keys reqs r { r with toDisplay := display, queues := queues } :=
  .of_registry rfl rfl rfl (List.Subset.refl _) rfl rfl rfl rfl rfl rfl

end

/-! ## The pieces of a body -/

section
variable {raws keys reqs : PyStr → Prop} {canonical req : PyStr}

theorem install_keeps (r : Relay) (t : Turn) (hkey : keys canonical) :
    Keeps t.stream raws keys reqs r (r.install t canonical) := by
  unfold install
  cases t.stream with
  | false =>
    show Keeps false raws keys reqs r ((r.clearTurn canonical).newReply canonical)
    exact (clearTurn_keeps r hkey).trans (newReply_keeps _ hkey)
  | true =>
    have hclear : Keeps true raws keys reqs r (r.clearTurn canonical) := clearTurn_keeps r hkey
    exact (hclear.trans (newStream_keeps _ hkey t.useToolFrames)).trans (showReplayed_keeps _)

theorem prepareSend_keeps {stream : Bool} (r : Relay) (canonical : PyStr) (hreq : reqs req) :
    Keeps stream raws keys reqs r (r.prepareSend canonical req) :=
  { (newFuture_keeps r req : Keeps stream raws keys reqs r (r.newFuture req)) with
    chatSendCanonical := fun _ h => lookup_set_of_not hreq h }

theorem sendTurn_keeps (r : Relay) (t : Turn) (hkey : keys canonical) (hreq : reqs req)
    (expired : Bool) : Keeps t.stream raws keys reqs r (r.sendTurn t canonical req expired).1 := by
  unfold sendTurn
  split
  · exact (install_keeps r t hkey).trans (cleanupPendingTurn_keeps _ hkey)
  · exact (install_keeps r t hkey).trans (prepareSend_keeps _ _ hreq)

theorem takeItem_keeps (r : Relay) (hkey : keys canonical) (consumer : Nat) (loop : Loop)
    (item : Chunk) :
    Keeps true raws keys reqs r (r.takeItem canonical consumer loop item).1 := by
  cases item with
  | close => exact closeStream_keeps r hkey
  | error e => exact closeStream_keeps r hkey
  | frame f => exact .refl r
  | text item =>
    simp only [takeItem]
    split
    · exact .refl r
    · exact shown_keeps r _ _

theorem keepalive_keeps (r : Relay) (t : Turn) (consumer : Nat) (loop : Loop) :
    Keeps true raws keys reqs r (r.keepalive t canonical consumer loop).1 := by
  unfold keepalive
  split
  · exact .refl r
  · exact .refl r

theorem yielded_keeps (r : Relay) (canonical : PyStr) (output : Output) :
    Keeps true raws keys reqs r (r.yielded canonical output) := by
  cases output with
  | progress text => exact shown_keeps r _ _
  | _ => exact .refl r

theorem loopTop_keeps (r : Relay) (hkey : keys canonical) (consumer : Nat) (loop : Loop) :
    Keeps true raws keys reqs r (r.loopTop canonical consumer loop).1 := by
  unfold loopTop
  split
  · exact (shown_keeps r _ _).trans (takeItem_keeps _ hkey _ _ _)
  · split
    · exact closeStream_keeps r hkey
    · exact .refl r

theorem replyText_keeps (r : Relay) (t : Turn) (hkey : keys canonical) (runId : PyStr) :
    Keeps false raws keys reqs r (r.replyText t canonical runId).1 :=
  popReply_keeps r hkey

theorem acknowledged_keeps [Runtime] (r : Relay) (t : Turn) (hkey : keys canonical) (consumer : Nat)
    (ack : Json) (expired : Bool) :
    Keeps t.stream raws keys reqs r (r.acknowledged t canonical consumer ack expired).1 := by
  unfold acknowledged
  cases t.stream with
  | false =>
    have hrecorded : Keeps false raws keys reqs r (r.recordRun canonical (runIdOf ack)) :=
      recordRun_keeps r hkey _
    show Keeps false raws keys reqs r
      ((r.recordRun canonical (runIdOf ack)).awaitReply t canonical consumer (runIdOf ack)
        expired).1
    unfold awaitReply
    split
    · exact hrecorded.trans (popReply_keeps _ hkey)
    · split
      · exact hrecorded.trans (replyText_keeps _ t hkey _)
      · exact hrecorded
  | true => exact (recordRun_keeps r hkey _).trans (loopTop_keeps _ hkey _ _)

theorem failSend_keeps (r : Relay) (t : Turn) (hkey : keys canonical) (hreq : reqs req)
    (error : Outcome) : Keeps t.stream raws keys reqs r (r.failSend t canonical req error).1 :=
  (releaseSend_keeps r hreq).trans (cleanupPendingTurn_keeps _ hkey)

end

/-! ## Where a piece ends -/

/-- The turn has left, or is suspended with the given keys. -/
def Holds (stream : Bool) (canonical sent : Option PyStr) : Halt → Prop
  | .at a => a.canonical? = canonical ∧ (a.sent? = none ∨ a.sent? = sent) ∧ a.Suits stream
  | .out _ => True

section
variable {canonical : PyStr} {sent : Option PyStr}

theorem takeItem_holds (r : Relay) (consumer : Nat) (loop : Loop) (item : Chunk) :
    Holds true (some canonical) sent (r.takeItem canonical consumer loop item).2 := by
  cases item with
  | close => trivial
  | error e => trivial
  | frame f => exact ⟨rfl, .inl rfl, rfl⟩
  | text item =>
    simp only [takeItem]
    split
    · exact ⟨rfl, .inl rfl, rfl⟩
    · exact ⟨rfl, .inl rfl, rfl⟩

theorem keepalive_holds (r : Relay) (t : Turn) (consumer : Nat) (loop : Loop) :
    Holds true (some canonical) sent (r.keepalive t canonical consumer loop).2 := by
  unfold keepalive
  split
  · exact ⟨rfl, .inl rfl, rfl⟩
  · exact ⟨rfl, .inl rfl, rfl⟩

theorem loopTop_holds (r : Relay) (consumer : Nat) (loop : Loop) :
    Holds true (some canonical) sent (r.loopTop canonical consumer loop).2 := by
  unfold loopTop
  split
  · exact takeItem_holds _ _ _ _
  · split
    · trivial
    · exact ⟨rfl, .inl rfl, rfl⟩

theorem sendTurn_holds (r : Relay) (t : Turn) (req : PyStr) (expired : Bool) :
    Holds t.stream (some canonical) (some req) (r.sendTurn t canonical req expired).2 := by
  unfold sendTurn
  split
  · trivial
  · exact ⟨rfl, .inr rfl, trivial⟩

theorem acknowledged_holds [Runtime] (r : Relay) (t : Turn) (consumer : Nat) (ack : Json)
    (expired : Bool) :
    Holds t.stream (some canonical) sent (r.acknowledged t canonical consumer ack expired).2 := by
  unfold acknowledged
  cases t.stream with
  | true => exact loopTop_holds _ _ _
  | false =>
    show Holds false (some canonical) sent
      ((r.recordRun canonical (runIdOf ack)).awaitReply t canonical consumer (runIdOf ack)
        expired).2
    unfold awaitReply
    split
    · trivial
    · split
      · trivial
      · exact ⟨rfl, .inl rfl, rfl⟩

end

/-! ## One piece -/

/-- What a piece of turn `t` does that holds the canonical key `held` and the request `sent`, when it
installs its state under `installed` and may draw the id `next`. -/
structure Piece (t : Turn) (held installed sent next : Option PyStr) (r : Relay)
    (result : Relay × Halt) : Prop where
  keeps : Keeps t.stream (fun raw => raw = t.sessionKey ∧ installed ≠ none)
    (fun key => held = some key ∨ installed = some key)
    (fun req => sent = some req ∨ next = some req) r result.1
  holds : Holds t.stream (installed.or held) next result.2
  /-- A turn that installs its state has its canonical key on record. -/
  recorded : ∀ canonical, installed = some canonical →
    result.1.canonicalByRaw.lookup t.sessionKey = some canonical ∧
      canonical ∈ result.1.subscribed
  /-- The request of an earlier `chat.send` is taken off. -/
  released : ∀ req, sent = some req → result.1.chatSendCanonical.lookup req = none
  /-- A new request is entered for the turn that waits for it, or not at all. -/
  requested : ∀ req, next = some req → sent ≠ some req →
    result.1.chatSendCanonical.lookup req = r.chatSendCanonical.lookup req ∨
      ∃ a canonical, result.2 = .at a ∧ a.sent? = some req ∧ a.canonical? = some canonical ∧
        result.1.chatSendCanonical.lookup req = some canonical
  drawn : ∀ a req, result.2 = .at a → a.sent? = some req → req ∈ result.1.drawn

/-- A piece that installs nothing and sends no `chat.send`. -/
theorem Piece.of_keeps {t : Turn} {held sent : Option PyStr} (next : Option PyStr) {r : Relay}
    {result : Relay × Halt}
    (hkeeps : Keeps t.stream (fun _ => False) (fun key => held = some key)
      (fun req => sent = some req) r result.1)
    (hholds : Holds t.stream held none result.2)
    (hreleased : ∀ req, sent = some req → result.1.chatSendCanonical.lookup req = none) :
    Piece t held none sent next r result where
  keeps :=
    { hkeeps with
      canonicalByRaw := fun raw _ => hkeeps.canonicalByRaw raw (fun h => h)
      activeRunId := fun key h => hkeeps.activeRunId key (fun hk => h (.inl hk))
      deltaQueues := fun key h => hkeeps.deltaQueues key (fun hk => h ⟨hk.1, .inl hk.2⟩)
      replyEvents := fun key h => hkeeps.replyEvents key (fun hk => h ⟨hk.1, .inl hk.2⟩)
      chatSendCanonical := fun req h => hkeeps.chatSendCanonical req (fun hreq => h (.inl hreq)) }
  holds := by
    obtain ⟨r', a | outcome⟩ := result
    · exact ⟨hholds.1, .inl (hholds.2.1.elim id id), hholds.2.2⟩
    · trivial
  recorded := fun _ h => by cases h
  released := hreleased
  requested := fun req _ hsent => .inl (hkeeps.chatSendCanonical req hsent)
  drawn := fun a req hat hsent => by
    rw [hat] at hholds
    rw [hholds.2.1.elim id id] at hsent
    cases hsent

/-- What `install` and the request of `chat.send` leave of the sessions. -/
theorem sendTurn_recorded (r : Relay) (t : Turn) (canonical req : PyStr) (expired : Bool) :
    (r.sendTurn t canonical req expired).1.canonicalByRaw.lookup t.sessionKey =
        r.canonicalByRaw.lookup t.sessionKey ∧
      r.subscribed ⊆ (r.sendTurn t canonical req expired).1.subscribed := by
  have hkeeps : Keeps t.stream (fun _ => False) (fun _ => True) (fun _ => True) r
      (r.sendTurn t canonical req expired).1 := sendTurn_keeps r t trivial trivial expired
  exact ⟨hkeeps.canonicalByRaw _ (fun h => h), hkeeps.subscribed⟩

theorem install_chatSendCanonical (r : Relay) (t : Turn) (canonical : PyStr) (req : PyStr) :
    (r.install t canonical).chatSendCanonical.lookup req = r.chatSendCanonical.lookup req := by
  have hkeeps : Keeps t.stream (fun _ => False) (fun _ => True) (fun _ => False) r
      (r.install t canonical) := install_keeps r t trivial
  exact hkeeps.chatSendCanonical req (fun h => h)

/-- The request of `chat.send` is entered under the canonical key, unless the deadline has passed. -/
theorem sendTurn_requested (r : Relay) (t : Turn) (canonical req : PyStr) (expired : Bool) :
    (r.sendTurn t canonical req expired).1.chatSendCanonical.lookup req =
        r.chatSendCanonical.lookup req ∨
      ∃ a key, (r.sendTurn t canonical req expired).2 = .at a ∧ a.sent? = some req ∧
        a.canonical? = some key ∧
          (r.sendTurn t canonical req expired).1.chatSendCanonical.lookup req = some key := by
  unfold sendTurn
  split
  · exact .inl (install_chatSendCanonical r t canonical req)
  · exact .inr ⟨_, canonical, rfl, rfl, rfl, (OrderedDict.lookup_set _ _ _ _).trans (if_pos rfl)⟩

theorem sendTurn_drawn (r : Relay) (t : Turn) (canonical req : PyStr) (expired : Bool) {a : Await}
    {sent : PyStr} (hat : (r.sendTurn t canonical req expired).2 = .at a)
    (hsent : a.sent? = some sent) : sent ∈ (r.sendTurn t canonical req expired).1.drawn := by
  unfold sendTurn at hat ⊢
  split at hat
  · cases hat
  · rename_i hexpired
    rw [if_neg hexpired]
    cases hat
    cases hsent
    exact List.mem_cons_self

/-- The body of a turn up to its first suspension. -/
theorem openTurn_piece (r : Relay) (t : Turn) (req : PyStr) (expired : Bool) :
    Piece t none (r.openInstalls t) none (some req) r (r.openTurn t req expired) := by
  have hcreate : Piece t none none none (some req) r
      (r.newFuture req, .at (.create req r.next)) :=
    .of_keeps _ (newFuture_keeps r req) ⟨rfl, .inl rfl, trivial⟩ (fun _ h => by cases h)
  unfold openTurn openInstalls
  cases hlookup : r.canonicalByRaw.lookup t.sessionKey with
  | none => exact hcreate
  | some canonical =>
    simp only
    by_cases hsubscribed : canonical ∈ r.subscribed
    · have hrecorded := sendTurn_recorded r t canonical req expired
      rw [if_pos hsubscribed, if_pos hsubscribed]
      exact
        { keeps := sendTurn_keeps r t (Or.inr rfl) (Or.inr rfl) expired
          holds := sendTurn_holds r t req expired
          recorded := fun key h => by
            rw [Option.some.injEq] at h
            rw [hrecorded.1, hlookup, h]
            exact ⟨rfl, h ▸ hrecorded.2 hsubscribed⟩
          released := fun _ h => by cases h
          requested := fun next h _ => by
            rw [Option.some.injEq] at h
            exact h ▸ sendTurn_requested r t canonical req expired
          drawn := fun _ _ => sendTurn_drawn r t canonical req expired }
    · rw [if_neg hsubscribed, if_neg hsubscribed]
      exact hcreate

section
variable [Runtime] [CaseMap]

variable {r : Relay} {t : Turn} {signal : Signal} {result : Relay × Halt}

omit [CaseMap] [Runtime] in
/-- A request that ends without an answer. -/
theorem dropped_piece (installed : Option PyStr) (hinstalled : installed = none) (req : PyStr)
    (outcome : Outcome) (sending : Bool) (next : Option PyStr) :
    Piece t none installed none next r
      (if sending then r else r.popPending req, .out outcome) := by
  subst hinstalled
  cases sending with
  | true => exact .of_keeps next (.refl r) trivial (fun _ h => by cases h)
  | false => exact .of_keeps next (popPending_keeps r req) trivial (fun _ h => by cases h)

omit [CaseMap] [Runtime] in
theorem subscribeAfter_piece (r : Relay) (t : Turn) (req next : PyStr) (includeApprovals : Bool) :
    Piece t none none none (some next) r (r.subscribeAfter req next includeApprovals) :=
  .of_keeps _ ((popPending_keeps r req).trans (newFuture_keeps _ next)) ⟨rfl, .inl rfl, trivial⟩
    (fun _ h => by cases h)

theorem create_piece {req : PyStr} {future : Nat}
    (h : r.resume t (.create req future) signal = some result) :
    Piece t none none none signal.req? r result := by
  cases signal with
  | ready next expired =>
    simp only [resume] at h
    split at h
    · cases h
    · cases h
      exact subscribeAfter_piece r t req next true
    · split at h
      · cases h
        exact subscribeAfter_piece r t req next true
      · cases h
        exact dropped_piece none rfl req _ false _
  | timeout expired =>
    cases h
    exact dropped_piece none rfl req _ false _
  | sendFailed message =>
    cases h
    exact dropped_piece none rfl req _ false _
  | cancel sending =>
    cases h
    exact dropped_piece none rfl req _ sending _

/-- The answer to `sessions.messages.subscribe` is where a turn learns its canonical key. -/
theorem subscribe_piece {req : PyStr} {future : Nat} {includeApprovals : Bool}
    (h : r.resume t (.subscribe req future includeApprovals) signal = some result) :
    Piece t none (r.installs t (.subscribe req future includeApprovals) signal) none signal.req? r
      result := by
  cases signal with
  | ready next expired =>
    simp only [resume] at h
    split at h
    · cases h
    · rename_i response hfuture
      cases h
      have hrecorded := sendTurn_recorded ((r.popPending req).registerSession t.sessionKey response)
        t (canonicalOf t.sessionKey response) next expired
      simp only [installs, hfuture]
      exact
        { keeps := ((popPending_keeps r req).trans
            (registerSession_keeps _ ⟨rfl, Option.some_ne_none _⟩ response)).trans
              (sendTurn_keeps _ t (Or.inr rfl) (Or.inr rfl) expired)
          holds := sendTurn_holds _ t next expired
          recorded := fun key hkey => by
            rw [Option.some.injEq] at hkey
            rw [hrecorded.1, ← hkey]
            exact ⟨(OrderedDict.lookup_set _ _ _ _).trans (if_pos rfl),
              hrecorded.2 (Finset.mem_insert_self _ _)⟩
          released := fun _ hsent => by cases hsent
          requested := fun req hreq _ => by
            rw [Signal.req?, Option.some.injEq] at hreq
            exact hreq ▸ sendTurn_requested _ t _ next expired
          drawn := fun _ _ => sendTurn_drawn _ t _ next expired }
    · rename_i e hfuture
      simp only [installs, hfuture]
      split at h
      · cases h
        exact subscribeAfter_piece r t req next false
      · cases h
        exact dropped_piece none rfl req _ false _
  | timeout expired =>
    cases h
    exact dropped_piece _ rfl req _ false _
  | sendFailed message =>
    cases h
    exact dropped_piece _ rfl req _ false _
  | cancel sending =>
    cases h
    exact dropped_piece _ rfl req _ sending _

theorem send_piece {canonical req : PyStr} {consumer future : Nat}
    (h : r.resume t (.send canonical consumer req future) signal = some result) :
    Piece t (some canonical) none (some req) signal.req? r result := by
  have hfail : ∀ (next : Option PyStr) (error : Outcome),
      Piece t (some canonical) none (some req) next r (r.failSend t canonical req error) :=
    fun next error => .of_keeps next
      (failSend_keeps r t (Eq.refl (some canonical)) (Eq.refl (some req)) error) trivial
      (fun other hreq => by
        rw [Option.some.injEq] at hreq
        subst hreq
        exact AList.lookup_erase _ _)
  cases signal with
  | ready next expired =>
    simp only [resume] at h
    split at h
    · cases h
    · cases h
      rename_i ack hfuture
      have hacked : Keeps t.stream (fun _ => False) (fun _ => True) (fun _ => False)
          (r.releaseSend req) ((r.releaseSend req).acknowledged t canonical consumer ack expired).1 :=
        acknowledged_keeps _ t trivial consumer ack expired
      exact .of_keeps _
        ((releaseSend_keeps r (Eq.refl (some req))).trans
          (acknowledged_keeps _ t (Eq.refl (some canonical)) consumer _ expired))
        (acknowledged_holds _ t consumer _ expired)
        (fun other hreq => by
          rw [Option.some.injEq] at hreq
          subst hreq
          rw [hacked.chatSendCanonical _ (fun h => h)]
          exact AList.lookup_erase _ _)
    · cases h
      exact hfail _ _
  | timeout expired =>
    cases h
    exact hfail _ _
  | sendFailed message =>
    cases h
    exact hfail _ _
  | cancel sending =>
    cases h
    exact hfail _ _

theorem queue_piece {canonical : PyStr} {consumer : Nat} {loop : Loop} (hstream : t.stream = true)
    (h : r.resume t (.queue canonical consumer loop) signal = some result) :
    Piece t (some canonical) none none signal.req? r result := by
  have hclose : ∀ (next : Option PyStr) (outcome : Outcome),
      Piece t (some canonical) none none next r (r.closeStream canonical, .out outcome) :=
    fun next outcome => .of_keeps next (hstream ▸ closeStream_keeps r (Eq.refl (some canonical)))
      trivial (fun _ h => by cases h)
  cases signal with
  | ready next expired =>
    simp only [resume] at h
    split at h
    · cases h
    · cases h
      exact .of_keeps _
        (hstream ▸ (shown_keeps r _ _).trans (takeItem_keeps _ (Eq.refl (some canonical)) _ _ _))
        (hstream ▸ takeItem_holds _ _ _ _) (fun _ h => by cases h)
  | timeout expired =>
    simp only [resume] at h
    split at h
    · cases h
      exact hclose _ _
    · cases h
      exact .of_keeps _ (hstream ▸ keepalive_keeps r t _ _) (hstream ▸ keepalive_holds r t _ _)
        (fun _ h => by cases h)
  | sendFailed message => cases h
  | cancel sending =>
    cases h
    exact hclose _ _

theorem yield_piece {canonical : PyStr} {consumer : Nat} {loop : Loop} {output : Output}
    (hstream : t.stream = true)
    (h : r.resume t (.yield canonical consumer loop output) signal = some result) :
    Piece t (some canonical) none none signal.req? r result := by
  cases signal with
  | ready next expired =>
    cases h
    exact .of_keeps _
      (hstream ▸ (yielded_keeps r _ _).trans (loopTop_keeps _ (Eq.refl (some canonical)) _ _))
      (hstream ▸ loopTop_holds _ _ _) (fun _ h => by cases h)
  | timeout expired => cases h
  | sendFailed message => cases h
  | cancel sending => cases h

theorem reply_piece {canonical : PyStr} {consumer : Nat} {runId : PyStr}
    (hstream : t.stream = false)
    (h : r.resume t (.reply canonical consumer runId) signal = some result) :
    Piece t (some canonical) none none signal.req? r result := by
  have hreply : ∀ next : Option PyStr,
      Piece t (some canonical) none none next r (r.replyText t canonical runId) :=
    fun next => .of_keeps next (hstream ▸ replyText_keeps r t (Eq.refl (some canonical)) runId) trivial
      (fun _ h => by cases h)
  cases signal with
  | ready next expired =>
    simp only [resume] at h
    split at h
    · cases h
      exact hreply _
    · cases h
  | timeout expired =>
    cases h
    exact hreply _
  | sendFailed message => cases h
  | cancel sending =>
    cases h
    exact .of_keeps _ (.refl r) trivial (fun _ h => by cases h)

/-- A piece of a turn that was suspended in its body. -/
theorem resume_piece {a : Await} (hsuits : a.Suits t.stream)
    (h : r.resume t a signal = some result) :
    Piece t a.canonical? (r.installs t a signal) a.sent? signal.req? r result := by
  cases a with
  | create req future => exact create_piece h
  | subscribe req future includeApprovals => exact subscribe_piece h
  | send canonical consumer req future => exact send_piece h
  | queue canonical consumer loop => exact queue_piece hsuits h
  | yield canonical consumer loop output => exact yield_piece hsuits h
  | reply canonical consumer runId => exact reply_piece hsuits h

end

end Relay

end HassNode.ChatRelay
