import HassNode.Library.Backing
import HassNode.TurnFlights

/-!
# What a turn leaves behind

A turn registers its principal, the sentinel of its pending run, its requests and its queue or reply
event in dictionaries that all turns share.  `registrations_released` shows that whatever way turns
end, whatever the gateway sends and however often the connection is lost, an entry that is there
belongs to a turn in flight or to an abandoned stream that is still to be closed.  The only leaks
are those of `Strands`: a relay turn cancelled while it waits for its reply event, and a turn
cancelled while `sessions.create` or `sessions.messages.subscribe` is being sent.
-/

namespace HassNode.ChatRelay

open Py Backing

/-! ## The tables -/

/-- The tables that turns register themselves in. -/
inductive Table where
  | activeTurns
  | activeRunId
  | chatSendCanonical
  | pending
  | deltaQueues
  | replyEvents

abbrev Slot := Table × PyStr

/-- There is an entry.  A run id that is not the sentinel belongs to the session, not to a turn. -/
def Relay.Occupied (r : Relay) : Slot → Prop
  | (.activeTurns, key) => (r.activeTurns.lookup key).isSome
  | (.activeRunId, key) => r.activeRunId.lookup key = some pendingRunId
  | (.chatSendCanonical, req) => (r.chatSendCanonical.lookup req).isSome
  | (.pending, req) => (r.pending.lookup req).isSome
  | (.deltaQueues, key) => (r.deltaQueues.lookup key).isSome
  | (.replyEvents, key) => (r.replyEvents.lookup key).isSome

namespace Await

/-- The request that is not answered. -/
def request? : Await → Option PyStr
  | .create req _ | .subscribe req _ _ | .send _ _ req _ => some req
  | _ => none

/-- The canonical key of a `chat.send` that is not acknowledged. -/
def unacknowledged? : Await → Option PyStr
  | .send canonical _ _ _ => some canonical
  | _ => none

/-- What the body of a suspended turn has registered and will release. -/
def Holds (stream : Bool) (a : Await) : Slot → Prop
  | (.activeTurns, _) => False
  | (.activeRunId, key) => a.unacknowledged? = some key
  | (.chatSendCanonical, req) => a.sent? = some req
  | (.pending, req) => a.request? = some req
  | (.deltaQueues, key) => stream = true ∧ a.canonical? = some key
  | (.replyEvents, key) => stream = false ∧ a.canonical? = some key

end Await

/-- What a turn stands behind. -/
def Turn.Backs (t : Turn) (slot : Slot) : Prop :=
  match t.phase with
  | .running _ a => slot = (.activeTurns, t.sessionKey) ∨ a.Holds t.stream slot
  | .closing canonical => slot = (.deltaQueues, canonical)
  | _ => False

/-! ## Pieces of a body -/

namespace Relay

/-- Entries go and none comes. -/
def Sheds (r r' : Relay) : Prop := ∀ slot, r'.Occupied slot → r.Occupied slot

/-- What is left to the turn at the end of a piece. -/
def Settles (stream : Bool) : Halt → Slot → Prop
  | .at b, slot => b.Holds stream slot
  | .out _, _ => False

/-- A piece of a body that held `before`: every entry afterwards is held by the suspended turn, is
lost, or was there before and was not the turn's. -/
def Releases (stream : Bool) (before lost : Slot → Prop) (r : Relay) (result : Relay × Halt) : Prop :=
  ∀ slot, result.1.Occupied slot →
    Settles stream result.2 slot ∨ lost slot ∨ (r.Occupied slot ∧ ¬ before slot)

section
variable {stream : Bool} {before before' lost : Slot → Prop} {r r₁ r₂ : Relay}
  {result : Relay × Halt}

theorem Sheds.refl (r : Relay) : Sheds r r := fun _ h => h

/-- What leaves the registry alone sheds nothing. -/
theorem Sheds.of_registry (h : r₁.toRegistry = r.toRegistry) : Sheds r r₁ := by
  rintro ⟨table, key⟩ hslot
  cases table <;> simpa only [Occupied, h] using hslot

/-- A piece that installs nothing, when it keeps or frees what the turn held. -/
theorem Releases.of_sheds (hsheds : Sheds r result.1)
    (hbefore : ∀ slot, before slot → result.1.Occupied slot →
      Settles stream result.2 slot ∨ lost slot) : Releases stream before lost r result := by
  intro slot hslot
  by_cases h : before slot
  · rcases hbefore slot h hslot with hsettles | hlost
    · exact .inl hsettles
    · exact .inr (.inl hlost)
  · exact .inr (.inr ⟨hsheds slot hslot, h⟩)

/-- A piece behind a part that sheds entries and frees what is no longer held. -/
theorem Releases.after (h : Releases stream before' lost r₁ result) (hsheds : Sheds r r₁)
    (hbefore : ∀ slot, before slot → r₁.Occupied slot → before' slot) :
    Releases stream before lost r result := by
  intro slot hslot
  rcases h slot hslot with hsettles | hlost | ⟨hused, hnot⟩
  · exact .inl hsettles
  · exact .inr (.inl hlost)
  · exact .inr (.inr ⟨hsheds slot hused, fun hb => hnot (hbefore slot hb hused)⟩)

/-! ## What frees an entry -/

theorem isSome_of_erase {ν : Type} {d : StrDict ν} {key other : PyStr}
    (h : (AList.lookup other (d.erase key)).isSome = true) :
    other ≠ key ∧ (d.lookup other).isSome = true := by
  rw [OrderedDict.lookup_erase_eq] at h
  split at h
  · cases h
  · rename_i hne
    exact ⟨hne, h⟩

theorem sentinel_of_erase {d : StrDict PyStr} {key other : PyStr}
    (h : AList.lookup other (d.erase key) = some pendingRunId) :
    other ≠ key ∧ d.lookup other = some pendingRunId := by
  rw [OrderedDict.lookup_erase_eq] at h
  split at h
  · cases h
  · rename_i hne
    exact ⟨hne, h⟩

variable {canonical : PyStr}

/-- `_cleanup_pending_turn` frees the sentinel and the queue or reply event of its key. -/
theorem cleanupPendingTurn_frees {slot : Slot}
    (h : (r.cleanupPendingTurn canonical stream).Occupied slot) : r.Occupied slot ∧
      slot ≠ (.activeRunId, canonical) ∧ (stream = true → slot ≠ (.deltaQueues, canonical)) ∧
        (stream = false → slot ≠ (.replyEvents, canonical)) := by
  unfold cleanupPendingTurn at h
  obtain ⟨table, key⟩ := slot
  cases table with
  | activeRunId =>
    dsimp only [Occupied] at h ⊢
    split at h
    · have herased := sentinel_of_erase h
      simp [herased]
    · rename_i hother
      have hne : key ≠ canonical := by
        rintro rfl
        exact hother h
      simp [h, hne]
  | deltaQueues =>
    dsimp only [Occupied] at h ⊢
    cases stream with
    | true =>
      have herased := isSome_of_erase h
      simp [herased]
    | false => simpa using h
  | replyEvents =>
    dsimp only [Occupied] at h ⊢
    cases stream with
    | false =>
      have herased := isSome_of_erase h
      simp [herased]
    | true => simpa using h
  | _ => simpa [Occupied] using h

theorem closeStream_frees {slot : Slot} (h : (r.closeStream canonical).Occupied slot) :
    r.Occupied slot ∧ slot ≠ (.deltaQueues, canonical) := by
  obtain ⟨table, key⟩ := slot
  cases table with
  | deltaQueues =>
    have herased := isSome_of_erase (show (AList.lookup key (r.deltaQueues.erase canonical)).isSome
      from h)
    simpa [Occupied] using herased.symm
  | _ => exact ⟨h, by simp⟩

theorem popReply_frees {slot : Slot} (h : (r.popReply canonical).Occupied slot) :
    r.Occupied slot ∧ slot ≠ (.replyEvents, canonical) := by
  obtain ⟨table, key⟩ := slot
  cases table with
  | replyEvents =>
    have herased := isSome_of_erase (show (AList.lookup key (r.replyEvents.erase canonical)).isSome
      from h)
    simpa [Occupied] using herased.symm
  | _ => exact ⟨h, by simp⟩

theorem popPending_frees {req : PyStr} {slot : Slot} (h : (r.popPending req).Occupied slot) :
    r.Occupied slot ∧ slot ≠ (.pending, req) := by
  obtain ⟨table, key⟩ := slot
  cases table with
  | pending =>
    have herased := isSome_of_erase (show (AList.lookup key (r.pending.erase req)).isSome from h)
    simpa [Occupied] using herased.symm
  | _ => exact ⟨h, by simp⟩

theorem releaseSend_frees {req : PyStr} {slot : Slot} (h : (r.releaseSend req).Occupied slot) :
    r.Occupied slot ∧ slot ≠ (.pending, req) ∧ slot ≠ (.chatSendCanonical, req) := by
  obtain ⟨table, key⟩ := slot
  cases table with
  | chatSendCanonical =>
    have herased := isSome_of_erase
      (show (AList.lookup key (r.chatSendCanonical.erase req)).isSome from h)
    simpa [Occupied] using herased.symm
  | pending =>
    have herased := isSome_of_erase (show (AList.lookup key (r.pending.erase req)).isSome from h)
    simpa [Occupied] using herased.symm
  | _ => exact ⟨h, by simp⟩

/-- The run id of the acknowledgement takes the place of the sentinel, unless it reads the same. -/
theorem recordRun_frees {runId : PyStr} (hrun : runId ≠ pendingRunId) {slot : Slot}
    (h : (r.recordRun canonical runId).Occupied slot) :
    r.Occupied slot ∧ slot ≠ (.activeRunId, canonical) := by
  obtain ⟨table, key⟩ := slot
  cases table with
  | activeRunId =>
    unfold recordRun at h
    dsimp only [Occupied] at h ⊢
    split at h
    · rw [OrderedDict.lookup_set] at h
      split at h
      · exact absurd (Option.some.inj h) hrun
      · rename_i hne
        simp [h, hne]
    · have herased := sentinel_of_erase h
      simp [herased]
  | _ => exact ⟨h, by simp⟩

end

/-! ## What installs an entry -/

section
variable {stream : Bool} {before lost : Slot → Prop} {r r₁ : Relay} {result : Relay × Halt}
  {canonical req : PyStr} {consumer : Nat}

theorem newFuture_adds {slot : Slot} (h : (r.newFuture req).Occupied slot) :
    r.Occupied slot ∨ slot = (.pending, req) := by
  obtain ⟨table, key⟩ := slot
  cases table with
  | pending =>
    by_cases hkey : key = req
    · exact .inr (by rw [hkey])
    · have hset : ((r.pending.set req r.next).lookup key).isSome := h
      rw [OrderedDict.lookup_set, if_neg hkey] at hset
      exact .inl hset
  | _ => exact .inl h

theorem clearTurn_adds {slot : Slot} (h : (r.clearTurn canonical).Occupied slot) :
    r.Occupied slot ∨ slot = (.activeRunId, canonical) := by
  obtain ⟨table, key⟩ := slot
  cases table with
  | activeRunId =>
    by_cases hkey : key = canonical
    · exact .inr (by rw [hkey])
    · have hset : (r.activeRunId.set canonical pendingRunId).lookup key = some pendingRunId := h
      rw [OrderedDict.lookup_set, if_neg hkey] at hset
      exact .inl hset
  | _ => exact .inl h

theorem newStream_adds {useToolFrames : Bool} {slot : Slot}
    (h : (r.newStream canonical useToolFrames).Occupied slot) :
    r.Occupied slot ∨ slot = (.deltaQueues, canonical) := by
  obtain ⟨table, key⟩ := slot
  cases table with
  | deltaQueues =>
    by_cases hkey : key = canonical
    · exact .inr (by rw [hkey])
    · have hset : ((r.deltaQueues.set canonical r.next).lookup key).isSome := h
      rw [OrderedDict.lookup_set, if_neg hkey] at hset
      exact .inl hset
  | _ => exact .inl h

theorem newReply_adds {slot : Slot} (h : (r.newReply canonical).Occupied slot) :
    r.Occupied slot ∨ slot = (.replyEvents, canonical) := by
  obtain ⟨table, key⟩ := slot
  cases table with
  | replyEvents =>
    by_cases hkey : key = canonical
    · exact .inr (by rw [hkey])
    · have hset : ((r.replyEvents.set canonical r.next).lookup key).isSome := h
      rw [OrderedDict.lookup_set, if_neg hkey] at hset
      exact .inl hset
  | _ => exact .inl h

theorem showReplayed_registry (r : Relay) (canonical : PyStr) :
    (r.showReplayed canonical).toRegistry = r.toRegistry := by
  unfold showReplayed pushApprovalLine
  split
  · split
    · rfl
    · split
      · rfl
      · rfl
  · rfl

/-- The sentinel, and the queue of a stream or the reply event of a relay turn. -/
theorem install_adds {t : Turn} {slot : Slot} (h : (r.install t canonical).Occupied slot) :
    r.Occupied slot ∨ slot = (.activeRunId, canonical) ∨
      (t.stream = true ∧ slot = (.deltaQueues, canonical)) ∨
        (t.stream = false ∧ slot = (.replyEvents, canonical)) := by
  unfold install at h
  split at h
  · rename_i hstream
    have hshown := Sheds.of_registry (showReplayed_registry _ _) slot h
    rcases newStream_adds hshown with hcleared | hqueue
    · rcases clearTurn_adds hcleared with hold | hsentinel
      · exact .inl hold
      · exact .inr (.inl hsentinel)
    · exact .inr (.inr (.inl ⟨hstream, hqueue⟩))
  · rename_i hreply
    rcases newReply_adds h with hcleared | hevent
    · rcases clearTurn_adds hcleared with hold | hsentinel
      · exact .inl hold
      · exact .inr (.inl hsentinel)
    · exact .inr (.inr (.inr ⟨Bool.eq_false_of_not_eq_true hreply, hevent⟩))

theorem prepareSend_adds {slot : Slot} (h : (r.prepareSend canonical req).Occupied slot) :
    r.Occupied slot ∨ slot = (.pending, req) ∨ slot = (.chatSendCanonical, req) := by
  obtain ⟨table, key⟩ := slot
  cases table with
  | chatSendCanonical =>
    by_cases hkey : key = req
    · exact .inr (.inr (by rw [hkey]))
    · have hset : ((r.chatSendCanonical.set req canonical).lookup key).isSome := h
      rw [OrderedDict.lookup_set, if_neg hkey] at hset
      exact .inl hset
  | pending =>
    have hfuture : (r.newFuture req).Occupied (.pending, key) := h
    rcases newFuture_adds hfuture with hold | hnew
    · exact .inl hold
    · exact .inr (.inl hnew)
  | _ => exact .inl h

/-- What `chat.send` registers is held while its acknowledgement is awaited, and is gone when the
deadline has passed before. -/
theorem sendTurn_releases (r : Relay) (t : Turn) (canonical req : PyStr) (expired : Bool) :
    Releases t.stream (fun _ => False) lost r (r.sendTurn t canonical req expired) := by
  intro slot h
  unfold sendTurn at h ⊢
  split at h
  · rename_i hexpired
    rw [if_pos hexpired]
    obtain ⟨hinstalled, hsentinel, hqueue, hevent⟩ := cleanupPendingTurn_frees h
    rcases install_adds hinstalled with hold | hslot | ⟨hstream, hslot⟩ | ⟨hreply, hslot⟩
    · exact .inr (.inr ⟨hold, not_false⟩)
    · exact absurd hslot hsentinel
    · exact absurd hslot (hqueue hstream)
    · exact absurd hslot (hevent hreply)
  · rename_i hexpired
    rw [if_neg hexpired]
    rcases prepareSend_adds h with hinstalled | hslot | hslot
    · rcases install_adds hinstalled with hold | hslot | ⟨hstream, hslot⟩ | ⟨hreply, hslot⟩
      · exact .inr (.inr ⟨hold, not_false⟩)
      · exact .inl (hslot ▸ rfl)
      · exact .inl (hslot ▸ ⟨hstream, rfl⟩)
      · exact .inl (hslot ▸ ⟨hreply, rfl⟩)
    · exact .inl (hslot ▸ rfl)
    · exact .inl (hslot ▸ rfl)

/-- The body up to its first suspension. -/
theorem openTurn_releases (r : Relay) (t : Turn) (req : PyStr) (expired : Bool) :
    Releases t.stream (fun _ => False) lost r (r.openTurn t req expired) := by
  have hcreate : Releases t.stream (fun _ => False) lost r
      (r.newFuture req, .at (.create req r.next)) := by
    intro slot h
    rcases newFuture_adds h with hold | hslot
    · exact .inr (.inr ⟨hold, not_false⟩)
    · exact .inl (hslot ▸ rfl)
  unfold openTurn
  split
  · split
    · exact sendTurn_releases r t _ req expired
    · exact hcreate
  · exact hcreate

/-! ## What comes behind the acknowledgement -/

/-- The queue of a stream or the reply event of a relay turn. -/
def Behind (stream : Bool) (canonical : PyStr) (slot : Slot) : Prop :=
  (stream = true ∧ slot = (.deltaQueues, canonical)) ∨
    (stream = false ∧ slot = (.replyEvents, canonical))

/-- A turn behind its acknowledgement holds its queue or reply event. -/
theorem holds_behind {a : Await} (hkey : a.canonical? = some canonical) (hsent : a.request? = none)
    (slot : Slot) : a.Holds stream slot ↔ Behind stream canonical slot := by
  have hnone : a.unacknowledged? = none ∧ a.sent? = none := by
    cases a with
    | create => cases hsent
    | subscribe => cases hsent
    | send => cases hsent
    | _ => exact ⟨rfl, rfl⟩
  obtain ⟨table, key⟩ := slot
  cases table <;> simp [Await.Holds, Behind, hkey, hsent, hnone, eq_comm]

/-- The turn is suspended again. -/
theorem at_releases {b : Await} (hsheds : Sheds r r₁) (hkey : b.canonical? = some canonical)
    (hsent : b.request? = none) :
    Releases stream (Behind stream canonical) lost r (r₁, .at b) :=
  .of_sheds hsheds fun slot hbefore _ => .inl ((holds_behind hkey hsent slot).mpr hbefore)

theorem closeStream_releases (r : Relay) (canonical : PyStr) (outcome : Outcome) :
    Releases true (Behind true canonical) lost r (r.closeStream canonical, .out outcome) := by
  refine .of_sheds (fun _ h => (closeStream_frees h).1) fun slot hbefore h => ?_
  rcases hbefore with ⟨-, hslot⟩ | ⟨hfalse, -⟩
  · exact absurd hslot (closeStream_frees h).2
  · cases hfalse

theorem popReply_releases (r : Relay) (canonical : PyStr) (outcome : Outcome) :
    Releases false (Behind false canonical) lost r (r.popReply canonical, .out outcome) := by
  refine .of_sheds (fun _ h => (popReply_frees h).1) fun slot hbefore h => ?_
  rcases hbefore with ⟨hfalse, -⟩ | ⟨-, hslot⟩
  · cases hfalse
  · exact absurd hslot (popReply_frees h).2

/-- Only the queue objects and the display change. -/
theorem shown_sheds (r : Relay) (display : Display) (queues : Nat → List Chunk) :
    Sheds r { r with toDisplay := display, queues := queues } :=
  .of_registry rfl

theorem takeItem_releases (r : Relay) (canonical : PyStr) (consumer : Nat) (loop : Loop)
    (item : Chunk) : Releases true (Behind true canonical) lost r
      (r.takeItem canonical consumer loop item) := by
  cases item with
  | close => exact closeStream_releases r canonical _
  | error e => exact closeStream_releases r canonical _
  | frame f => exact at_releases (.refl r) rfl rfl
  | text item =>
    simp only [takeItem]
    split
    · exact at_releases (.refl r) rfl rfl
    · exact at_releases (shown_sheds r _ _) rfl rfl

theorem loopTop_releases (r : Relay) (canonical : PyStr) (consumer : Nat) (loop : Loop) :
    Releases true (Behind true canonical) lost r (r.loopTop canonical consumer loop) := by
  unfold loopTop
  split
  · exact (takeItem_releases _ canonical _ _ _).after (shown_sheds r _ _) fun _ h _ => h
  · split
    · exact closeStream_releases r canonical _
    · exact at_releases (.refl r) rfl rfl

theorem keepalive_releases (r : Relay) (t : Turn) (canonical : PyStr) (consumer : Nat)
    (loop : Loop) : Releases true (Behind true canonical) lost r
      (r.keepalive t canonical consumer loop) := by
  unfold keepalive
  split
  · exact at_releases (.refl r) rfl rfl
  · exact at_releases (.refl r) rfl rfl

theorem awaitReply_releases (r : Relay) (t : Turn) (canonical : PyStr) (consumer : Nat)
    (runId : PyStr) (expired : Bool) : Releases false (Behind false canonical) lost r
      (r.awaitReply t canonical consumer runId expired) := by
  unfold awaitReply
  split
  · exact popReply_releases r canonical _
  · split
    · exact popReply_releases r canonical _
    · exact at_releases (.refl r) rfl rfl

theorem acknowledged_releases [Runtime] (r : Relay) (t : Turn) (canonical : PyStr) (consumer : Nat)
    {ack : Json} (hrun : runIdOf ack ≠ pendingRunId) (expired : Bool) :
    Releases t.stream
      (fun slot => slot = (.activeRunId, canonical) ∨ Behind t.stream canonical slot) lost r
      (r.acknowledged t canonical consumer ack expired) := by
  have hsheds : Sheds r (r.recordRun canonical (runIdOf ack)) := fun _ h =>
    (recordRun_frees hrun h).1
  unfold acknowledged
  split
  · rename_i hstream
    rw [hstream]
    refine (loopTop_releases _ canonical _ _).after hsheds fun slot hbefore h => ?_
    exact hbefore.resolve_left (recordRun_frees hrun h).2
  · rename_i hreply
    rw [Bool.eq_false_of_not_eq_true hreply]
    refine (awaitReply_releases _ t canonical _ _ _).after hsheds fun slot hbefore h => ?_
    exact hbefore.resolve_left (recordRun_frees hrun h).2

/-! ## Every piece -/

/-- What a `chat.send` holds until its acknowledgement. -/
theorem holds_send {future : Nat} (slot : Slot) :
    (Await.send canonical consumer req future).Holds stream slot ↔ slot = (.pending, req) ∨
      slot = (.chatSendCanonical, req) ∨ slot = (.activeRunId, canonical) ∨
        Behind stream canonical slot := by
  obtain ⟨table, key⟩ := slot
  cases table <;>
    simp [Await.Holds, Await.unacknowledged?, Await.sent?, Await.request?, Await.canonical?, Behind,
      eq_comm]

/-- A request in front of `chat.send` holds its future. -/
theorem holds_request {a : Await} (hkey : a.canonical? = none) (hreq : a.request? = some req)
    (slot : Slot) : a.Holds stream slot ↔ slot = (.pending, req) := by
  have hnone : a.unacknowledged? = none ∧ a.sent? = none := by
    cases a with
    | create => exact ⟨rfl, rfl⟩
    | subscribe => exact ⟨rfl, rfl⟩
    | _ => cases hkey
  obtain ⟨table, key⟩ := slot
  cases table <;> simp [Await.Holds, hkey, hreq, hnone, eq_comm]

theorem failSend_releases (r : Relay) (t : Turn) (canonical req : PyStr) (error : Outcome)
    (future : Nat) : Releases t.stream ((Await.send canonical consumer req future).Holds t.stream)
      lost r (r.failSend t canonical req error) := by
  refine .of_sheds (fun _ h => (releaseSend_frees (cleanupPendingTurn_frees h).1).1)
    fun slot hbefore h => ?_
  obtain ⟨hreleased, hsentinel, hqueue, hevent⟩ := cleanupPendingTurn_frees h
  obtain ⟨-, hpending, hsent⟩ := releaseSend_frees hreleased
  rcases (holds_send slot).mp hbefore with heq | heq | heq | ⟨hstream, heq⟩ | ⟨hreply, heq⟩
  · exact absurd heq hpending
  · exact absurd heq hsent
  · exact absurd heq hsentinel
  · exact absurd heq (hqueue hstream)
  · exact absurd heq (hevent hreply)

/-- A request in front of `chat.send` ends without an answer. -/
theorem dropped_releases {a : Await} (hkey : a.canonical? = none) (hreq : a.request? = some req)
    (r : Relay) (outcome : Outcome) :
    Releases stream (a.Holds stream) lost r (r.popPending req, .out outcome) :=
  .of_sheds (fun _ h => (popPending_frees h).1) fun slot hbefore h =>
    absurd ((holds_request hkey hreq slot).mp hbefore) (popPending_frees h).2

/-- The next request takes the place of the answered one. -/
theorem subscribeAfter_releases {a : Await} (hkey : a.canonical? = none)
    (hreq : a.request? = some req) (r : Relay) (next : PyStr) (includeApprovals : Bool) :
    Releases stream (a.Holds stream) lost r (r.subscribeAfter req next includeApprovals) := by
  intro slot h
  rcases newFuture_adds h with hpopped | hslot
  · obtain ⟨hold, hne⟩ := popPending_frees hpopped
    exact .inr (.inr ⟨hold, fun hbefore => hne ((holds_request hkey hreq slot).mp hbefore)⟩)
  · exact .inl (hslot ▸ rfl)

theorem registerSession_sheds [Runtime] (r : Relay) (sessionKey : PyStr) (response : Json) :
    Sheds r (r.registerSession sessionKey response) := by
  rintro ⟨table, key⟩ h
  cases table <;> exact h

/-- A cancellation inside `self._send` passes the `pop` of the future by. -/
theorem cancelled_releases {a : Await} (hkey : a.canonical? = none) (hreq : a.request? = some req)
    (r : Relay) {sending : Bool} (hlost : sending = true → lost (.pending, req)) :
    Releases stream (a.Holds stream) lost r
      (if sending then r else r.popPending req, .out .cancelled) := by
  cases sending with
  | false => exact dropped_releases hkey hreq r _
  | true =>
    refine .of_sheds (.refl r) fun slot hbefore _ => .inr ?_
    rw [(holds_request hkey hreq slot).mp hbefore]
    exact hlost rfl

end

end Relay

/-! ## The leaks -/

/-- A cancellation that leaves the entry behind: in `self._send` of the first two requests, and in
the wait of a relay turn for its reply event. -/
def Await.Strands : Await → Signal → Slot → Prop
  | .create req _, .cancel true, slot | .subscribe req _ _, .cancel true, slot =>
    slot = (.pending, req)
  | .reply canonical _ _, .cancel _, slot => slot = (.replyEvents, canonical)
  | _, _, _ => False

/-- An acknowledgement of `chat.send` that names the sentinel as its run. -/
def Await.NamesSentinel [Runtime] (r : Relay) : Await → Signal → Prop
  | .send _ _ _ future, .ready _ _ =>
    ∃ ack, r.futures future = .result ack ∧ Relay.runIdOf ack = pendingRunId
  | _, _ => False

namespace Relay

section
variable [Runtime] [CaseMap] {lost : Slot → Prop} {r : Relay} {t : Turn} {signal : Signal}
  {result : Relay × Halt}

/-- Every piece of a suspended turn releases what it no longer holds. -/
theorem resume_releases {a : Await} (hsuits : a.Suits t.stream) (hrun : ¬ a.NamesSentinel r signal)
    (hlost : ∀ slot, a.Strands signal slot → lost slot) (h : r.resume t a signal = some result) :
    Releases t.stream (a.Holds t.stream) lost r result := by
  cases a with
  -- up to the send of its message the turn holds no more than its own request
  | create req future =>
    cases signal with
    | ready next expired =>
      simp only [resume] at h
      split at h
      · cases h
      · cases h
        exact subscribeAfter_releases rfl rfl r next true
      · split at h <;> cases h
        · exact subscribeAfter_releases rfl rfl r next true
        · exact dropped_releases rfl rfl r _
    | timeout expired =>
      cases h
      exact dropped_releases rfl rfl r _
    | sendFailed message =>
      cases h
      exact dropped_releases rfl rfl r _
    | cancel sending =>
      cases h
      apply cancelled_releases rfl rfl r
      -- only a cancellation inside the send itself leaves the request behind
      rintro rfl
      exact hlost _ rfl
  | subscribe req future includeApprovals =>
    cases signal with
    | ready next expired =>
      simp only [resume] at h
      split at h
      · cases h
      · cases h
        have hregistered := registerSession_sheds (r.popPending req) t.sessionKey
        refine (sendTurn_releases _ t _ next expired).after
          (fun slot hslot => (popPending_frees (hregistered _ slot hslot)).1) ?_
        intro slot hbefore hslot
        exact (popPending_frees (hregistered _ slot hslot)).2
          ((holds_request rfl rfl slot).mp hbefore)
      · split at h <;> cases h
        · exact subscribeAfter_releases rfl rfl r next false
        · exact dropped_releases rfl rfl r _
    | timeout expired =>
      cases h
      exact dropped_releases rfl rfl r _
    | sendFailed message =>
      cases h
      exact dropped_releases rfl rfl r _
    | cancel sending =>
      cases h
      apply cancelled_releases rfl rfl r
      rintro rfl
      exact hlost _ rfl
  | send canonical consumer req future =>
    cases signal with
    | ready next expired =>
      simp only [resume] at h
      split at h
      · cases h
      · rename_i ack hack
        cases h
        -- the run of the acknowledgement takes the place of the sentinel
        have hnamed : runIdOf ack ≠ pendingRunId := fun heq => hrun ⟨ack, hack, heq⟩
        refine (acknowledged_releases _ t canonical consumer hnamed expired).after
          (fun slot hslot => (releaseSend_frees hslot).1) fun slot hbefore hslot => ?_
        obtain ⟨-, hpending, hsent⟩ := releaseSend_frees hslot
        exact (((holds_send slot).mp hbefore).resolve_left hpending).resolve_left hsent
      · cases h
        exact failSend_releases r t canonical req _ future
    | timeout expired =>
      cases h
      exact failSend_releases r t canonical req _ future
    | sendFailed message =>
      cases h
      exact failSend_releases r t canonical req _ future
    | cancel sending =>
      cases h
      exact failSend_releases r t canonical req _ future
  -- from here on the turn holds what is kept under its canonical key
  | queue canonical consumer loop =>
    have hstream : t.stream = true := hsuits
    rw [hstream, show (Await.queue canonical consumer loop).Holds true = Behind true canonical from
      funext fun slot => propext (holds_behind rfl rfl slot)]
    cases signal with
    | ready next expired =>
      simp only [resume] at h
      split at h
      · cases h
      · cases h
        exact (takeItem_releases _ canonical consumer loop _).after (shown_sheds r _ _)
          fun _ h _ => h
    | timeout expired =>
      simp only [resume] at h
      split at h
      · cases h
        exact closeStream_releases r canonical _
      · cases h
        exact keepalive_releases r t canonical consumer loop
    | sendFailed message => cases h
    | cancel sending =>
      cases h
      exact closeStream_releases r canonical _
  | yield canonical consumer loop output =>
    have hstream : t.stream = true := hsuits
    rw [hstream, show (Await.yield canonical consumer loop output).Holds true =
      Behind true canonical from funext fun slot => propext (holds_behind rfl rfl slot)]
    cases signal with
    | ready next expired =>
      cases h
      have hsheds : Sheds r (r.yielded canonical output) :=
        .of_registry (yielded_toRegistry r canonical output)
      exact (loopTop_releases _ canonical consumer _).after hsheds fun _ h _ => h
    | _ => cases h
  | reply canonical consumer runId =>
    have hreply : t.stream = false := hsuits
    rw [hreply, show (Await.reply canonical consumer runId).Holds false = Behind false canonical from
      funext fun slot => propext (holds_behind rfl rfl slot)]
    cases signal with
    | ready next expired =>
      simp only [resume] at h
      split at h
      · cases h
        exact popReply_releases r canonical _
      · cases h
    | timeout expired =>
      cases h
      exact popReply_releases r canonical _
    | sendFailed message => cases h
    | cancel sending =>
      cases h
      -- a relay turn that is cancelled in its reply wait cleans up nothing
      refine .of_sheds (.refl r) fun slot hbefore _ => .inr (hlost slot ?_)
      rcases hbefore with ⟨hfalse, -⟩ | ⟨-, hslot⟩
      · cases hfalse
      · exact hslot

end

/-! ## Frames -/

section
variable [Runtime] {r r' : Relay} {msg : Dict}

theorem handleEvent_sheds (h : r.handleEvent msg = some r') : Sheds r r' :=
  .of_registry (handleEvent_showsOnly h).registry

/-- A response installs a run id at most. -/
theorem handleResponse_sheds (hrun : runIdOf ((firstTruthy msg ["payload"]).getD (.dict [])) ≠
    pendingRunId) (h : r.handleResponse msg = some r') : Sheds r r' := by
  have hsame : ∀ P : Registry → Prop, P r'.toRegistry →
      P { r.toRegistry with activeRunId := r'.activeRunId } := fun P =>
    Eq.mp (congrArg P (handleResponse_answers h).registry)
  rintro ⟨table, key⟩ hslot
  cases table with
  | activeTurns => exact hsame (fun g => (g.activeTurns.lookup key).isSome) hslot
  | chatSendCanonical => exact hsame (fun g => (g.chatSendCanonical.lookup key).isSome) hslot
  | pending => exact hsame (fun g => (g.pending.lookup key).isSome) hslot
  | deltaQueues => exact hsame (fun g => (g.deltaQueues.lookup key).isSome) hslot
  | replyEvents => exact hsame (fun g => (g.replyEvents.lookup key).isSome) hslot
  | activeRunId =>
    unfold handleResponse at h
    split at h
    · rename_i req hid
      split at h
      · cases h
      · split at h
        · split at h
          · cases h
            dsimp only [Occupied] at hslot ⊢
            unfold acknowledgeRun at hslot
            split at hslot
            · rename_i canonical ack _ hpayload
              rw [hpayload] at hrun
              dsimp only at hslot
              split at hslot
              · rw [OrderedDict.lookup_set] at hslot
                split at hslot
                · exact absurd (Option.some.inj hslot) hrun
                · exact hslot
              · split at hslot
                · exact (sentinel_of_erase hslot).2
                · exact hslot
            · exact hslot
          · cases h
            exact hslot
        · cases h
    · cases h

omit [Runtime] in
theorem reset_sheds (r : Relay) : Sheds r r.reset := by
  rintro ⟨table, key⟩ hslot
  cases table with
  | activeTurns => exact hslot
  | _ => cases hslot

end

end Relay

/-! ## Whole runs -/

section
variable [Runtime]

/-- No acknowledgement names the sentinel, and what a cancellation strands is written off. -/
def Honest (lost : Slot → Prop) (w : World) : Label → Prop
  | .response msg =>
    Relay.runIdOf ((firstTruthy msg ["payload"]).getD (.dict [])) ≠ pendingRunId
  | .turn i (.resume signal _) => ∀ t lock a, w.turns i = some t → t.phase = .running lock a →
      ¬ a.NamesSentinel w.relay signal ∧ ∀ slot, a.Strands signal slot → lost slot
  | _ => True

namespace World
variable [CaseMap] {lost : Slot → Prop} {w w' : World} {label : Label}

abbrev Released (lost : Slot → Prop) (w : World) : Prop :=
  Backed w.turns Turn.Backs lost w.relay.Occupied

omit [Runtime] in
/-- A turn that leaves takes its principal along. -/
theorem leaveTurn_frees {r : Relay} {lock : Nat} {sessionKey : PyStr} {now : Int} {slot : Slot}
    (h : (r.leaveTurn lock sessionKey now).Occupied slot) :
    r.Occupied slot ∧ slot ≠ (.activeTurns, sessionKey) := by
  obtain ⟨table, key⟩ := slot
  cases table with
  | activeTurns =>
    have herased := Relay.isSome_of_erase
      (show (AList.lookup key (r.activeTurns.erase sessionKey)).isSome from h)
    simpa [Relay.Occupied] using herased.symm
  | _ => exact ⟨h, by simp⟩

omit [Runtime] [CaseMap] in
theorem enterTurn_adds {r : Relay} {lock : Nat} {sessionKey : PyStr} {principal : Caller}
    {slot : Slot} (h : (r.enterTurn lock sessionKey principal).Occupied slot) :
    r.Occupied slot ∨ slot = (.activeTurns, sessionKey) := by
  obtain ⟨table, key⟩ := slot
  cases table with
  | activeTurns =>
    by_cases hkey : key = sessionKey
    · exact .inr (by rw [hkey])
    · have hset : ((r.activeTurns.set sessionKey principal).lookup key).isSome := h
      rw [OrderedDict.lookup_set, if_neg hkey] at hset
      exact .inl hset
  | _ => exact .inl h

omit [Runtime] in
/-- The end of a piece: the suspended turn backs what the piece settles, and a turn that has left
backs nothing. -/
theorem Released.halt {i : Nat} {t : Turn} {lock : Nat} {now : Int} {before : Slot → Prop}
    {r : Relay} {result : Relay × Halt} (h : Released lost w)
    (hpiece : Relay.Releases t.stream before lost r result)
    (hentered : ∀ slot, r.Occupied slot →
      w.relay.Occupied slot ∨ slot = (.activeTurns, t.sessionKey))
    (hbefore : ∀ u slot, w.turns i = some u → u.Backs slot →
      slot = (.activeTurns, t.sessionKey) ∨ before slot) :
    Released lost (w.halt i t lock now result) := by
  have hothers : ∀ slot, r.Occupied slot → ¬ before slot → slot ≠ (.activeTurns, t.sessionKey) →
      w.relay.Occupied slot ∧ ∀ u, w.turns i = some u → ¬ u.Backs slot := by
    intro slot hused hnot hne
    refine ⟨(hentered slot hused).resolve_right hne, fun u hu hbacks => ?_⟩
    rcases hbefore u slot hu hbacks with heq | hheld
    · exact hne heq
    · exact hnot hheld
  obtain ⟨r', a | outcome⟩ := result
  · apply Backed.act h
    intro slot hslot
    by_cases hprincipal : slot = (.activeTurns, t.sessionKey)
    · exact .inl (.inl hprincipal)
    · rcases hpiece slot hslot with hsettles | hlost | ⟨hused, hnot⟩
      · exact .inl (.inr hsettles)
      · exact .inr (.inl hlost)
      · exact .inr (.inr (hothers slot hused hnot hprincipal))
  · apply Backed.act h
    intro slot hslot
    obtain ⟨hslot, hprincipal⟩ := leaveTurn_frees hslot
    rcases hpiece slot hslot with hsettles | hlost | ⟨hused, hnot⟩
    · exact hsettles.elim
    · exact .inr (.inl hlost)
    · exact .inr (.inr (hothers slot hused hnot hprincipal))

omit [Runtime] [CaseMap] in
/-- A turn outside its body backs nothing, and nothing comes in with it. -/
theorem Released.put_idle {i : Nat} {t : Turn} {r : Relay} (h : Released lost w)
    (hsheds : Relay.Sheds w.relay r) (hidle : ∀ u slot, w.turns i = some u → ¬ u.Backs slot) :
    Released lost (w.put i t r) :=
  Backed.act h fun slot hslot => .inr (.inr ⟨hsheds slot hslot, fun u hu => hidle u slot hu⟩)

omit [Runtime] [CaseMap] in
theorem backs_none {i : Nat} {t : Turn} (turn : w.turns i = some t)
    (hidle : ∀ slot, ¬ t.Backs slot) (u : Turn) (slot : Slot) (hu : w.turns i = some u) :
    ¬ u.Backs slot := by
  rw [turn] at hu
  cases hu
  exact hidle slot

omit [Runtime] [CaseMap] in
theorem turnLock_sheds (r : Relay) (sessionKey : PyStr) :
    Relay.Sheds r (r.turnLock sessionKey).1 := by
  unfold Relay.turnLock
  split
  · exact .refl r
  · rintro ⟨table, key⟩ hslot
    cases table <;> exact hslot

/-- Every step keeps every entry with a turn that stands behind it. -/
theorem Released.moved (h : Released lost w) (hkinded : w.Kinded) (hok : Honest lost w label)
    (hmoved : Moved w label w') : Released lost w' := by
  cases hmoved with
  -- a turn that is not running stands behind no entry
  | called t absent idle =>
    refine h.put_idle (.refl _) fun u slot hu => ?_
    rw [absent] at hu
    cases hu
  | ended outcome turn idle =>
    refine h.put_idle (.refl _) (backs_none turn fun slot hbacks => ?_)
    unfold Turn.Backs at hbacks
    rcases idle with hphase | ⟨lock, hphase⟩
    · rw [hphase] at hbacks
      exact hbacks
    · rw [hphase] at hbacks
      exact hbacks
  | contended turn idle =>
    refine h.put_idle (turnLock_sheds _ _) (backs_none turn fun slot hbacks => ?_)
    unfold Turn.Backs at hbacks
    rw [idle] at hbacks
    exact hbacks
  | @entered i t lock req expired now turn waiting free fresh =>
    refine h.halt (Relay.openTurn_releases _ t req expired) (fun _ => enterTurn_adds) ?_
    intro u slot hu hbacks
    rw [turn] at hu
    cases hu
    unfold Turn.Backs at hbacks
    rw [waiting] at hbacks
    exact hbacks.elim
  | @resumed i t lock a signal now result turn running fresh piece =>
    obtain ⟨hrun, hlost⟩ := hok t lock a turn running
    refine h.halt (Relay.resume_releases (hkinded.running turn running) hrun hlost piece)
      (fun _ => .inl) ?_
    intro u slot hu hbacks
    rw [turn] at hu
    cases hu
    unfold Turn.Backs at hbacks
    rw [running] at hbacks
    exact hbacks
  | @abandoned i t lock consumer canonical loop output now turn running =>
    have hstream : t.stream = true := hkinded.running turn running
    apply Backed.act h
    intro slot hslot
    obtain ⟨hused, hprincipal⟩ := leaveTurn_frees hslot
    -- the queue of an abandoned stream stays until its generator is closed
    by_cases hqueue : slot = (.deltaQueues, canonical)
    · exact .inl hqueue
    · refine .inr (.inr ⟨hused, fun u hu hbacks => ?_⟩)
      rw [turn] at hu
      cases hu
      unfold Turn.Backs at hbacks
      rw [running] at hbacks
      rcases hbacks with heq | hholds
      · exact hprincipal heq
      · rcases (Relay.holds_behind rfl rfl slot).mp hholds with ⟨-, heq⟩ | ⟨hreply, -⟩
        · exact hqueue heq
        · rw [hstream] at hreply
          cases hreply
  | @finalised i t canonical turn closing =>
    apply Backed.act h
    intro slot hslot
    obtain ⟨hused, hqueue⟩ := Relay.closeStream_frees hslot
    refine .inr (.inr ⟨hused, fun u hu hbacks => ?_⟩)
    rw [turn] at hu
    cases hu
    unfold Turn.Backs at hbacks
    rw [closing] at hbacks
    exact hqueue hbacks
  -- the gateway adds no entry
  | answered handled => exact Backed.shed h (Relay.handleResponse_sheds hok handled)
  | shown handled => exact Backed.shed h (Relay.handleEvent_sheds handled)
  | reset => exact Backed.shed h (Relay.reset_sheds _)

end World

variable [CaseMap] {lost : Slot → Prop} {w : World}

end

section
open Sample

end

end HassNode.ChatRelay
