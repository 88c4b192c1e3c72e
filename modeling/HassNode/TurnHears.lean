import HassNode.HeardReplies

/-!
# A turn in flight and what was heard for it

`Hears` ties the state that the relay keeps for a turn in flight to the utterances heard in its
history.  Each kind of step keeps it: an event, a response, a piece of another turn and a piece of the
turn itself.
-/

namespace HassNode.ChatRelay

open Py

/-! ## Captured texts -/

namespace Relay

section
variable (r : Relay) (key text : PyStr)

theorem captureTerminal_texts :
    (r.captureTerminal key text).lastAssistantText = r.lastAssistantText ∧
    (r.captureTerminal key text).terminalAssistantText = r.terminalAssistantText.set key text ∧
    (r.captureTerminal key text).seenSameRunEvent = r.seenSameRunEvent := by
  cases hqueue : r.deltaQueues.lookup key with
  | none => cases hevent : r.replyEvents.lookup key <;> simp [captureTerminal, hqueue, hevent]
  | some q => cases hevent : r.replyEvents.lookup key <;>
      simp [captureTerminal, putNowait, hqueue, hevent]

theorem captureTerminal_queues (q : Nat) : (r.captureTerminal key text).queues q =
    r.queues q ++ if r.deltaQueues.lookup key = some q then [.text text, .close] else [] := by
  have hqueues : (r.captureTerminal key text).queues =
      (r.deltaQueues.lookup key).elim r.queues fun queue =>
        Function.update r.queues queue (r.queues queue ++ [.text text, .close]) := by
    cases hqueue : r.deltaQueues.lookup key with
    | none => cases hevent : r.replyEvents.lookup key <;> simp [captureTerminal, hqueue, hevent]
    | some queue => cases hevent : r.replyEvents.lookup key <;>
        simp [captureTerminal, putNowait, hqueue, hevent]
  rw [hqueues]
  cases r.deltaQueues.lookup key with
  | none => simp
  | some queue =>
    by_cases hq : queue = q
    · subst hq
      simp
    · simp [hq, Ne.symm hq]

theorem captureTerminal_events (e : Nat) : (r.captureTerminal key text).events e = true ↔
    r.events e = true ∨ r.replyEvents.lookup key = some e := by
  have hevents : (r.captureTerminal key text).events =
      (r.replyEvents.lookup key).elim r.events fun event =>
        Function.update r.events event true := by
    cases hqueue : r.deltaQueues.lookup key <;> cases hevent : r.replyEvents.lookup key <;>
      simp [captureTerminal, putNowait, hqueue, hevent]
  rw [hevents]
  cases r.replyEvents.lookup key with
  | none => simp
  | some event =>
    by_cases he : event = e
    · subst he
      simp
    · simp [he, Ne.symm he]

end

/-- What an utterance leaves behind when it is captured. -/
structure Captures (u : Utterance) (r r' : Relay) : Prop where
  last : r'.lastAssistantText = r.lastAssistantText.set u.session u.text
  terminal : r'.terminalAssistantText =
    if u.terminal then r.terminalAssistantText.set u.session u.text else r.terminalAssistantText
  seen : r'.seenSameRunEvent =
    if u.runId ≠ [] ∧ r.activeRunId.lookup u.session = some u.runId ∧ u.runId ≠ pendingRunId then
      r.seenSameRunEvent.set u.session true else r.seenSameRunEvent
  items : ∀ q, r'.queues q = r.queues q ++
    if u.terminal = true ∧ r.deltaQueues.lookup u.session = some q then [.text u.text, .close] else []
  events : ∀ e, r'.events e = true ↔
    r.events e = true ∨ u.terminal = true ∧ r.replyEvents.lookup u.session = some e
  shows : ShowsOnly r r'

theorem captureText_captures (r : Relay) (u : Utterance) :
    Captures u r (r.captureText u.session u.text u.runId u.terminal) := by
  have hshows := showsOnly_captureText r u.session u.text u.runId u.terminal
  unfold captureText at hshows ⊢
  dsimp only at hshows ⊢
  cases hterminal : u.terminal with
  | false =>
    rw [hterminal] at hshows
    exact ⟨rfl, by simp [hterminal], rfl, by simp [hterminal], by simp [hterminal], hshows⟩
  | true =>
    rw [hterminal, if_pos rfl] at hshows
    rw [if_pos rfl]
    refine ⟨(captureTerminal_texts _ _ _).1, ?_, (captureTerminal_texts _ _ _).2.2, fun q => ?_,
      fun e => ?_, hshows⟩
    · rw [if_pos hterminal]
      exact (captureTerminal_texts _ _ _).2.1
    · rw [captureTerminal_queues]
      simp [hterminal]
    · rw [captureTerminal_events]
      simp [hterminal]

/-! ## The run filter -/

/-- Before the acknowledgement nothing passes. -/
theorem staleAssistant_pending {r : Relay} {u : Utterance}
    (hrun : r.activeRunId.lookup u.session = some pendingRunId) (hreal : u.runId ≠ pendingRunId) :
    r.staleAssistant u.sessionMessage u.session u.runId = true := by
  unfold staleAssistant
  have hnamed : pendingRunId ≠ [] := by decide
  by_cases hid : u.runId = [] <;> simp [hrun, hnamed, hid, hreal]

/-- Behind it only the run itself passes, and a session message without a run. -/
theorem fits_of_hears {r : Relay} {u : Utterance} {run : PyStr} (hnamed : run ≠ [])
    (hrun : r.activeRunId.lookup u.session = some run) (h : r.hears u = true) :
    u.runId = run ∨ (u.runId = [] ∧ u.sessionMessage = true ∧
      ((r.deltaQueues.lookup u.session).isSome = true → run ≠ pendingRunId →
        r.seenSameRunEvent.getD u.session false = true)) := by
  have hfresh : r.staleAssistant u.sessionMessage u.session u.runId = false := by
    unfold hears at h
    simpa using (Bool.and_eq_true_iff.mp h).2
  unfold staleAssistant at hfresh
  rw [hrun] at hfresh
  simp only [decide_eq_false_iff_not, not_and, not_or] at hfresh
  have hpasses := hfresh hnamed
  by_cases hid : u.runId = []
  · have hmessage : u.sessionMessage = true := by
      by_contra hmessage
      exact hpasses.2.1 hmessage hid
    refine .inr ⟨hid, hmessage, fun hqueue hreal => ?_⟩
    rw [← Bool.not_eq_false]
    exact hpasses.2.2.2.2 hmessage hid hreal hqueue
  · left
    by_contra hother
    exact hpasses.1 hid hother

end Relay

/-! ## What a turn has heard -/

/-- The text of the last utterance. -/
def lastText (us : List Utterance) : PyStr := (us.getLast?.map (·.text)).getD []

section
variable [Runtime]

/-- How far the `chat.send` of a turn has got. -/
inductive Stage (key : PyStr) (consumer : Nat) (req : PyStr) (history : List Past) (r : Relay)
    (a : Await) : Prop where
  | waiting (future : Nat) (sending : a = .send key consumer req future)
      (unnamed : ∀ run, ¬ Names req run history) (unheard : heardIn key history = [])
      (active : r.activeRunId.lookup key = some pendingRunId)
      (sent : r.chatSendCanonical.lookup req = some key)
      (unseen : r.seenSameRunEvent.getD key false = false)
      (unanswered : ∀ payload, r.futures future ≠ .result payload)
  | named (run : PyStr) (names : Names req run history)
      (only : ∀ run', Names req run' history → run' = run) (real : run ≠ pendingRunId)
      (active : run ≠ [] → r.activeRunId.lookup key = some run)
      (answered : ∀ future, a = .send key consumer req future →
        ∃ payload, r.futures future = .result payload ∧ Relay.runIdOf payload = run)

/-- A turn in flight, with what was heard for it in its history. -/
structure Hears (stream : Bool) (key : PyStr) (consumer : Nat) (req : PyStr) (history : List Past)
    (lines : List Line) (r : Relay) (a : Await) : Prop where
  last : r.lastAssistantText.getD key [] = lastText (heardIn key history)
  terminal : r.terminalAssistantText.getD key [] = lastText (finalsIn key history)
  seen : r.seenSameRunEvent.getD key false = true → ∀ run, Names req run history → run ≠ [] →
    ∃ v ∈ heardIn key history, v.runId = run
  sound : Sound stream key req history
  stage : Stage key consumer req history r a
  /-- Only the turn waits for its request and its future. -/
  asked : ∀ future, r.pending.lookup req = some future → a = .send key consumer req future
  future : ∀ future, a = .send key consumer req future → future < r.next ∧
    ∀ other, r.pending.lookup other = some future → other = req
  owner : ∀ other, r.deltaQueues.lookup other = some consumer → stream = true ∧ other = key
  waiter : ∀ other, r.replyEvents.lookup other = some consumer → stream = false ∧ other = key
  queue : stream = true → r.deltaQueues.lookup key = some consumer
  shows : stream = true → Shows ((finalsIn key history).map (·.text)) lines (r.queues consumer) a
  woken : stream = false → r.events consumer = true → finalsIn key history ≠ []
  number : consumer < r.next

/-- What a step leaves alone that is not of the turn and that the turn does not hear. -/
structure Spared (stream : Bool) (key : PyStr) (consumer : Nat) (req : PyStr) (a : Await)
    (r r' : Relay) : Prop where
  last : r'.lastAssistantText.lookup key = r.lastAssistantText.lookup key
  terminal : r'.terminalAssistantText.lookup key = r.terminalAssistantText.lookup key
  seen : r'.seenSameRunEvent.lookup key = r.seenSameRunEvent.lookup key
  active : r'.activeRunId.lookup key = r.activeRunId.lookup key
  sent : a.sent? = some req →
    r'.chatSendCanonical.lookup req = r.chatSendCanonical.lookup req
  pending : r'.pending.lookup req = r.pending.lookup req
  issued : ∀ other future, future < r.next → r'.pending.lookup other = some future →
    r.pending.lookup other = some future
  /-- The future of the request is not resolved. -/
  futures : ∀ future, future < r.next → (∀ other, r.pending.lookup other = some future → other = req) →
    r'.futures future = r.futures future
  owner : ∀ other, r'.deltaQueues.lookup other = some consumer →
    r.deltaQueues.lookup other = some consumer
  waiter : ∀ other, r'.replyEvents.lookup other = some consumer →
    r.replyEvents.lookup other = some consumer
  queue : stream = true → r'.deltaQueues.lookup key = r.deltaQueues.lookup key
  items : stream = true → ∃ more, Chunk.close ∉ more ∧ r'.queues consumer = r.queues consumer ++ more
  events : stream = false → r'.events consumer = r.events consumer
  next : r.next ≤ r'.next

section
variable {stream : Bool} {key : PyStr} {consumer : Nat} {req : PyStr} {history : List Past}
  {lines : List Line} {r r' : Relay} {a : Await} {p : Past}

omit [Runtime] in
theorem getD_congr {ν : Type} {d d' : StrDict ν} {key : PyStr} {default : ν}
    (h : d'.lookup key = d.lookup key) : d'.getD key default = d.getD key default := by
  unfold OrderedDict.getD
  rw [h]

theorem Stage.pass (h : Stage key consumer req history r a) (hheard : heard? key p = none)
    (hnamed : named? req p = none) (hspared : Spared stream key consumer req a r r')
    (hfuture : ∀ future, a = .send key consumer req future → future < r.next ∧
      ∀ other, r.pending.lookup other = some future → other = req) :
    Stage key consumer req (history ++ [p]) r' a := by
  have hnames : ∀ run, Names req run (history ++ [p]) ↔ Names req run history := by
    simp [names_concat, hnamed]
  cases h with
  | waiting future sending unnamed unheard active sent unseen unanswered =>
    obtain ⟨hlt, honly⟩ := hfuture future sending
    refine .waiting future sending (fun run => by rw [hnames]; exact unnamed run) ?_ ?_ ?_ ?_ ?_
    · rw [heardIn_silent hheard, unheard]
    · rw [hspared.active, active]
    · rw [hspared.sent (by rw [sending]; rfl), sent]
    · rw [getD_congr hspared.seen, unseen]
    · rwa [hspared.futures future hlt honly]
  | named run names only real active answered =>
    refine .named run ((hnames run).mpr names) (fun run' h' => only run' ((hnames run').mp h')) real
      ?_ ?_
    · rwa [hspared.active]
    · intro future hsend
      obtain ⟨hlt, honly⟩ := hfuture future hsend
      rw [hspared.futures future hlt honly]
      exact answered future hsend

/-- A step that is not of the turn and that the turn does not hear. -/
theorem Hears.pass (h : Hears stream key consumer req history lines r a)
    (hheard : heard? key p = none) (hnamed : named? req p = none)
    (hspared : Spared stream key consumer req a r r') :
    Hears stream key consumer req (history ++ [p]) lines r' a := by
  have hnames : ∀ run, Names req run (history ++ [p]) ↔ Names req run history := by
    simp [names_concat, hnamed]
  constructor
  case last => rw [heardIn_silent hheard, getD_congr hspared.last, h.last]
  case terminal => rw [finalsIn_silent hheard, getD_congr hspared.terminal, h.terminal]
  case seen =>
    rw [getD_congr hspared.seen, heardIn_silent hheard]
    exact fun hseen run hrun => h.seen hseen run ((hnames run).mp hrun)
  case sound => exact h.sound.concat fun u hu => by rw [hheard] at hu; cases hu
  case stage => exact h.stage.pass hheard hnamed hspared h.future
  case asked =>
    rw [hspared.pending]
    exact h.asked
  case future =>
    intro future hsend
    obtain ⟨hlt, honly⟩ := h.future future hsend
    exact ⟨lt_of_lt_of_le hlt hspared.next, fun other hother =>
      honly other (hspared.issued other future hlt hother)⟩
  case owner => exact fun other hother => h.owner other (hspared.owner other hother)
  case waiter => exact fun other hother => h.waiter other (hspared.waiter other hother)
  case queue =>
    intro hstream
    rw [hspared.queue hstream, h.queue hstream]
  case shows =>
    intro hstream
    obtain ⟨more, hopen, hitems⟩ := hspared.items hstream
    rw [finalsIn_silent hheard, hitems]
    exact (h.shows hstream).open hopen
  case woken =>
    intro hreply
    rw [hspared.events hreply, finalsIn_silent hheard]
    exact h.woken hreply
  case number => exact lt_of_lt_of_le h.number hspared.next

/-! ## Events -/

omit [Runtime] in
/-- An utterance for another session. -/
theorem spared_captures {u : Utterance} (h : Relay.Captures u r r') (hsession : u.session ≠ key)
    (howner : ∀ other, r.deltaQueues.lookup other = some consumer → stream = true ∧ other = key)
    (hwaiter : ∀ other, r.replyEvents.lookup other = some consumer → stream = false ∧ other = key) :
    Spared stream key consumer req a r r' := by
  have hregistry := h.shows.registry
  have hpending : r'.pending = r.pending := congrArg Registry.pending hregistry
  have hqueues : r'.deltaQueues = r.deltaQueues := congrArg Registry.deltaQueues hregistry
  have hreplies : r'.replyEvents = r.replyEvents := congrArg Registry.replyEvents hregistry
  have hset : ∀ {ν : Type} (d : StrDict ν) (value : ν), (d.set u.session value).lookup key = d.lookup key :=
    fun d value => by rw [OrderedDict.lookup_set, if_neg (Ne.symm hsession)]
  constructor
  case last => rw [h.last, hset]
  case terminal =>
    rw [h.terminal]
    split
    · exact hset _ _
    · rfl
  case seen =>
    rw [h.seen]
    split
    · exact hset _ _
    · rfl
  case active => exact congrArg (AList.lookup key) (congrArg Registry.activeRunId hregistry :)
  case sent =>
    exact fun _ => congrArg (AList.lookup req) (congrArg Registry.chatSendCanonical hregistry :)
  case pending => rw [hpending]
  case issued => exact fun other future _ hother => hpending ▸ hother
  case futures => exact fun future _ _ => congrFun h.shows.futures future
  case owner => exact fun other hother => hqueues ▸ hother
  case waiter => exact fun other hother => hreplies ▸ hother
  case queue => exact fun _ => by rw [hqueues]
  case items =>
    intro _
    refine ⟨[], by simp, ?_⟩
    rw [h.items, if_neg]
    exact fun hboth => hsession (howner _ hboth.2).2
  case events =>
    intro _
    rw [Bool.eq_iff_iff, h.events]
    exact or_iff_left fun hboth => hsession (hwaiter _ hboth.2).2
  case next => exact h.shows.next.ge

omit [Runtime] in
/-- An event that says nothing. -/
theorem spared_mute (h : Relay.Mute r r') (hshows : Relay.ShowsOnly r r') :
    Spared stream key consumer req a r r' := by
  have hregistry := hshows.registry
  have hpending : r'.pending = r.pending := congrArg Registry.pending hregistry
  have hqueues : r'.deltaQueues = r.deltaQueues := congrArg Registry.deltaQueues hregistry
  have hreplies : r'.replyEvents = r.replyEvents := congrArg Registry.replyEvents hregistry
  constructor
  case last => rw [h.last]
  case terminal => rw [h.terminal]
  case seen => rw [h.seen]
  case active => exact congrArg (AList.lookup key) (congrArg Registry.activeRunId hregistry :)
  case sent =>
    exact fun _ => congrArg (AList.lookup req) (congrArg Registry.chatSendCanonical hregistry :)
  case pending => rw [hpending]
  case issued => exact fun other future _ hother => hpending ▸ hother
  case futures => exact fun future _ _ => congrFun hshows.futures future
  case owner => exact fun other hother => hqueues ▸ hother
  case waiter => exact fun other hother => hreplies ▸ hother
  case queue => exact fun _ => by rw [hqueues]
  case items => exact fun _ => h.items consumer
  case events => exact fun _ => by rw [h.events]
  case next => exact hshows.next.ge

omit [Runtime] in
theorem lastText_concat (us : List Utterance) (u : Utterance) : lastText (us ++ [u]) = u.text := by
  simp [lastText]

/-- The turn hears an utterance. -/
theorem Hears.heard (h : Hears stream key consumer req history lines r a) {u : Utterance}
    (hp : heard? key p = some u) (hsession : u.session = key) (hhears : r.hears u = true)
    (hreal : u.runId ≠ pendingRunId) (hnamed : named? req p = none)
    (hcaptures : Relay.Captures u r r') :
    Hears stream key consumer req (history ++ [p]) lines r' a := by
  subst hsession
  have hregistry := hcaptures.shows.registry
  have hpending : r'.pending = r.pending := congrArg Registry.pending hregistry
  have hqueues : r'.deltaQueues = r.deltaQueues := congrArg Registry.deltaQueues hregistry
  have hreplies : r'.replyEvents = r.replyEvents := congrArg Registry.replyEvents hregistry
  have hactive : r'.activeRunId = r.activeRunId := congrArg Registry.activeRunId hregistry
  have hnames : ∀ run, Names req run (history ++ [p]) ↔ Names req run history := by
    simp [names_concat, hnamed]
  have hheard : heardIn u.session (history ++ [p]) = heardIn u.session history ++ [u] := by
    rw [heardIn_concat, hp]
    rfl
  have hfinals : finalsIn u.session (history ++ [p]) =
      finalsIn u.session history ++ if u.terminal then [u] else [] := by
    rw [finalsIn_concat, hp]
    cases hterminal : u.terminal <;> simp [hterminal]
  cases h.stage with
  | waiting future sending unnamed unheard active sent unseen unanswered =>
    -- the sentinel lets nothing through
    have hstale := Relay.staleAssistant_pending active hreal
    unfold Relay.hears at hhears
    rw [hstale] at hhears
    simp at hhears
  | named run names only real active answered =>
    have hfits : ∀ run', Names req run' history → run' ≠ [] → u.runId = run' ∨ (u.runId = [] ∧
        u.sessionMessage = true ∧ ((r.deltaQueues.lookup u.session).isSome = true →
          r.seenSameRunEvent.getD u.session false = true)) := by
      intro run' hrun' hne
      obtain rfl := only run' hrun'
      refine (Relay.fits_of_hears hne (active hne) hhears).imp_right fun hrest => ?_
      exact ⟨hrest.1, hrest.2.1, fun hqueue => hrest.2.2 hqueue real⟩
    constructor
    case last =>
      rw [hheard, lastText_concat, hcaptures.last]
      simp [OrderedDict.getD]
    case terminal =>
      rw [hfinals, hcaptures.terminal]
      cases u.terminal with
      | true =>
        rw [if_pos rfl, if_pos rfl, lastText_concat]
        simp [OrderedDict.getD]
      | false => simpa using h.terminal
    case seen =>
      intro hseen run' hrun' hne
      rw [hnames] at hrun'
      obtain rfl := only run' hrun'
      rw [hcaptures.seen] at hseen
      split at hseen
      · rename_i hconfirmed
        have hrun : u.runId = run' := Option.some.inj (hconfirmed.2.1.symm.trans (active hne))
        exact ⟨u, by simp [hheard], hrun⟩
      · obtain ⟨v, hv, hrun⟩ := h.seen hseen run' names hne
        exact ⟨v, by simp [hheard, hv], hrun⟩
    case sound =>
      refine h.sound.concat fun v hv => ?_
      obtain rfl : u = v := Option.some.inj (hp.symm.trans hv)
      refine ⟨run, names, fun hne => ?_⟩
      refine (hfits run names hne).imp_right fun hrest => ⟨hrest.1, hrest.2.1, fun hstream => ?_⟩
      have hqueue : (r.deltaQueues.lookup u.session).isSome = true := by
        rw [h.queue hstream]
        rfl
      exact h.seen (hrest.2.2 hqueue) run names hne
    case stage =>
      refine .named run (names.concat p) (fun run' hrun' => only run' ((hnames run').mp hrun')) real
        ?_ ?_
      · rwa [hactive]
      · rwa [hcaptures.shows.futures]
    case asked =>
      rw [hpending]
      exact h.asked
    case future =>
      rw [hpending, hcaptures.shows.next]
      exact h.future
    case owner =>
      rw [hqueues]
      exact h.owner
    case waiter =>
      rw [hreplies]
      exact h.waiter
    case queue =>
      rw [hqueues]
      exact h.queue
    case shows =>
      intro hstream
      rw [hcaptures.items, hfinals, h.queue hstream]
      cases u.terminal with
      | true =>
        have hreply := (h.shows hstream).more [.reply u.text]
        rw [if_pos rfl, List.map_append, if_pos ⟨rfl, rfl⟩]
        exact hreply
      | false => simpa using h.shows hstream
    case woken =>
      intro hreply hevent
      rw [hfinals]
      rcases (hcaptures.events consumer).mp hevent with hbefore | ⟨hterminal, -⟩
      · exact List.append_ne_nil_of_left_ne_nil (h.woken hreply hbefore) _
      · simp [hterminal]
    case number =>
      rw [hcaptures.shows.next]
      exact h.number

/-- No frame carries the sentinel as its run. -/
def Genuine : Label → Prop
  | .response msg => Relay.runIdOf ((firstTruthy msg ["payload"]).getD (.dict [])) ≠ pendingRunId
  | .event msg => ∀ u, utterance? msg = some u → u.runId ≠ pendingRunId
  | _ => True

/-- The turn while an event is handled. -/
theorem Hears.event {msg : Dict} (h : Hears stream key consumer req history lines r a)
    (hreal : Genuine (.event msg)) (handled : r.handleEvent msg = some r') :
    Hears stream key consumer req (history ++ [(r, .event msg)]) lines r' a := by
  rcases Relay.handleEvent_heard handled with ⟨u, hu, rfl⟩ | ⟨hu, hmute⟩
  · unfold Relay.hear
    by_cases hheard : r.hears u = true
    · rw [if_pos hheard]
      by_cases hsession : u.session = key
      · apply h.heard _ hsession hheard (hreal u hu) rfl (Relay.captureText_captures r u)
        simp [heard?, hu, hsession, hheard]
      · apply h.pass _ rfl
        · exact spared_captures (Relay.captureText_captures r u) hsession h.owner h.waiter
        · simp [heard?, hu, hsession]
    · rw [if_neg hheard]
      apply h.pass _ rfl (spared_mute (.refl r) (.refl r))
      simp [heard?, hu, hheard]
  · apply h.pass _ rfl (spared_mute hmute (Relay.handleEvent_showsOnly handled))
    simp [heard?, hu]

/-! ## Responses -/

/-- A response resolves the waiting future of a pending request, behind its acknowledgement. -/
theorem handleResponse_cases {msg : Dict} (h : r.handleResponse msg = some r') :
    ∃ asked future, Dict.get? msg (py "id") = some (.str asked) ∧
      r.pending.lookup asked = some future ∧ (∀ payload, r.futures future ≠ .result payload) ∧
      ((truthy (Dict.getD msg (py "ok") .null) = true ∧ ∃ payload,
          payload = (firstTruthy msg ["payload"]).getD (.dict []) ∧
          r' = { r.acknowledgeRun asked payload with
            futures := Function.update (r.acknowledgeRun asked payload).futures future
              (.result payload) }) ∨
        (truthy (Dict.getD msg (py "ok") .null) = false ∧ ∃ error,
          r' = { r with futures := Function.update r.futures future (.exception error) })) := by
  unfold Relay.handleResponse at h
  split at h
  · rename_i asked hid
    split at h
    · cases h
    · rename_i future hfuture
      split at h
      · rename_i hwaiting
        have hunanswered : ∀ payload, r.futures future ≠ .result payload := by
          intro payload hresult
          rw [hwaiting] at hresult
          cases hresult
        refine ⟨asked, future, hid, hfuture, hunanswered, ?_⟩
        split at h
        · rename_i hok
          exact .inl ⟨hok, _, rfl, (Option.some.inj h).symm⟩
        · rename_i hok
          exact .inr ⟨Bool.eq_false_iff.mpr hok, _, (Option.some.inj h).symm⟩
      · cases h
  · cases h

/-- The answer to another request. -/
theorem spared_answers {msg : Dict} (handled : r.handleResponse msg = some r')
    (hother : Dict.get? msg (py "id") ≠ some (.str req))
    (hactive : r'.activeRunId.lookup key = r.activeRunId.lookup key) :
    Spared stream key consumer req a r r' := by
  have hanswers := Relay.handleResponse_answers handled
  have hpending : r'.pending = r.pending := (congrArg Registry.pending hanswers.registry :)
  have hqueues : r'.deltaQueues = r.deltaQueues := (congrArg Registry.deltaQueues hanswers.registry :)
  have hreplies : r'.replyEvents = r.replyEvents := (congrArg Registry.replyEvents hanswers.registry :)
  have hsent : r'.chatSendCanonical = r.chatSendCanonical :=
    (congrArg Registry.chatSendCanonical hanswers.registry :)
  constructor
  case last => rw [hanswers.display]
  case terminal => rw [hanswers.display]
  case seen => rw [hanswers.display]
  case active => exact hactive
  case sent => exact fun _ => by rw [hsent]
  case pending => rw [hpending]
  case issued => exact fun other future _ h => hpending ▸ h
  case futures =>
    intro future _ honly
    obtain ⟨asked, resolved, hid, hasked, -, hresult⟩ := handleResponse_cases handled
    have hne : future ≠ resolved := by
      rintro rfl
      exact hother (honly asked hasked ▸ hid)
    rcases hresult with ⟨-, payload, -, rfl⟩ | ⟨-, error, rfl⟩
    · have hsame : (r.acknowledgeRun asked payload).futures = r.futures := by
        unfold Relay.acknowledgeRun
        split
        · dsimp only
          split
          · rfl
          · split <;> rfl
        · rfl
      show Function.update (r.acknowledgeRun asked payload).futures resolved _ future = _
      rw [hsame, Function.update_of_ne hne]
    · exact Function.update_of_ne hne _ _
  case owner => exact fun other h => hqueues ▸ h
  case waiter => exact fun other h => hreplies ▸ h
  case queue => exact fun _ => by rw [hqueues]
  case items => exact fun _ => ⟨[], by simp, by simp [hanswers.queues]⟩
  case events => exact fun _ => by rw [hanswers.events]
  case next => exact hanswers.next.ge

theorem acknowledgeRun_active {payload : Json} (hsent : r.chatSendCanonical.lookup req = some key)
    (hrun : Relay.runIdOf payload ≠ []) :
    (r.acknowledgeRun req payload).activeRunId.lookup key = some (Relay.runIdOf payload) := by
  cases payload with
  | dict ack =>
    have hnamed : Relay.textField ack "runId" ≠ [] := hrun
    unfold Relay.acknowledgeRun
    rw [hsent]
    dsimp only
    rw [if_pos hnamed, OrderedDict.lookup_set, if_pos rfl]
    rfl
  | _ => exact absurd rfl hrun

/-- The answer to the request of the turn itself. -/
theorem Hears.answered (h : Hears stream key consumer req history lines r a) {msg : Dict}
    (hreal : Genuine (.response msg)) (hown : Dict.get? msg (py "id") = some (.str req))
    (handled : r.handleResponse msg = some r') :
    Hears stream key consumer req (history ++ [(r, .response msg)]) lines r' a := by
  have hanswers := Relay.handleResponse_answers handled
  have hpending : r'.pending = r.pending := (congrArg Registry.pending hanswers.registry :)
  have hqueues : r'.deltaQueues = r.deltaQueues := (congrArg Registry.deltaQueues hanswers.registry :)
  have hreplies : r'.replyEvents = r.replyEvents := (congrArg Registry.replyEvents hanswers.registry :)
  have hsent : r'.chatSendCanonical = r.chatSendCanonical :=
    (congrArg Registry.chatSendCanonical hanswers.registry :)
  have hsilent : heard? key (r, .response msg) = none := rfl
  obtain ⟨asked, future, hid, hasked, hunanswered, hresult⟩ := handleResponse_cases handled
  obtain rfl : asked = req := by
    rw [hid, Option.some.injEq, Json.str.injEq] at hown
    exact hown
  have hsend := h.asked future hasked
  cases h.stage with
  | waiting future' sending unnamed unheard active sent unseen unanswered =>
    obtain rfl : future' = future := by
      rw [hsend] at sending
      injection sending with _ _ _ hsame
      exact hsame.symm
    have hstage : Stage key consumer asked (history ++ [(r, .response msg)]) r' a := by
      rcases hresult with ⟨hok, payload, rfl, rfl⟩ | ⟨hok, error, rfl⟩
      · have hnamed : named? asked (r, .response msg) =
            some (Relay.runIdOf ((firstTruthy msg ["payload"]).getD (.dict []))) :=
          if_pos ⟨hid, hok⟩
        refine .named _ (names_concat.mpr (.inr hnamed)) ?_ hreal ?_ ?_
        · intro run' hrun'
          rcases names_concat.mp hrun' with hbefore | hlast
          · exact absurd hbefore (unnamed run')
          · rw [hnamed] at hlast
            exact (Option.some.inj hlast).symm
        · exact acknowledgeRun_active sent
        · intro f hf
          obtain rfl : f = future' := by
            rw [hsend] at hf
            injection hf with _ _ _ hsame
            exact hsame.symm
          exact ⟨_, Function.update_self .., rfl⟩
      · have hnamed : named? asked (r, .response msg) = none := by
          apply if_neg
          simp [hok]
        refine .waiting future' sending ?_ ?_ active sent unseen ?_
        · simp [names_concat, hnamed, unnamed]
        · rw [heardIn_silent hsilent, unheard]
        · intro payload
          simp
    constructor
    case last => rw [heardIn_silent hsilent, hanswers.display, h.last]
    case terminal => rw [finalsIn_silent hsilent, hanswers.display, h.terminal]
    case seen =>
      rw [hanswers.display, unseen]
      exact nofun
    case sound => exact h.sound.concat fun u hu => by cases hu
    case stage => exact hstage
    case asked =>
      rw [hpending]
      exact h.asked
    case future =>
      rw [hpending, hanswers.next]
      exact h.future
    case owner =>
      rw [hqueues]
      exact h.owner
    case waiter =>
      rw [hreplies]
      exact h.waiter
    case queue =>
      rw [hqueues]
      exact h.queue
    case shows =>
      rw [finalsIn_silent hsilent, hanswers.queues]
      exact h.shows
    case woken =>
      rw [finalsIn_silent hsilent, hanswers.events]
      exact h.woken
    case number =>
      rw [hanswers.next]
      exact h.number
  | named run names only real active answered =>
    -- the future is resolved already
    obtain ⟨payload, hpayload, -⟩ := answered future hsend
    exact absurd hpayload (hunanswered payload)

/-- The turn while a response is handled. -/
theorem Hears.response (h : Hears stream key consumer req history lines r a) {msg : Dict}
    (hreal : Genuine (.response msg)) (handled : r.handleResponse msg = some r')
    (hactive : Dict.get? msg (py "id") ≠ some (.str req) →
      r'.activeRunId.lookup key = r.activeRunId.lookup key) :
    Hears stream key consumer req (history ++ [(r, .response msg)]) lines r' a := by
  by_cases hown : Dict.get? msg (py "id") = some (.str req)
  · exact h.answered hreal hown handled
  · apply h.pass rfl _ (spared_answers handled hown (hactive hown))
    apply if_neg
    simp [hown]

/-! ## The turn goes on -/

section
variable [CaseMap] {t : Turn} {a' : Await} {signal : Signal} {result : Relay × Halt}

/-- A piece of the turn itself, up to its next suspension. -/
theorem Hears.resumed (h : Hears t.stream key consumer req history lines r a)
    (hsuits : a.Suits t.stream) (hkey : a.canonical? = some key)
    (hconsumer : a.consumer? = some consumer) (hrequest : ∀ other, a.request? = some other → other = req)
    (hfresh : signal.req? ≠ some req) (hp : heard? key p = none) (hnamed : named? req p = none)
    (piece : r.resume t a signal = some (r', .at a')) :
    Hears t.stream key consumer req (history ++ [p]) (lines ++ r.lineOf consumer a signal a') r' a' ∧
      Relay.GoesOn key consumer a' := by
  obtain ⟨hgoes, hregistry⟩ := Relay.resume_goesOn hkey hconsumer piece
  have haside := Relay.resume_aside piece
  have hclear : ¬ ((a.canonical? = some key ∧ Halt.Ends (.at a')) ∨
      r.installs t a signal = some key) := by
    rintro (⟨-, hends⟩ | hinstalls)
    · exact hends
    · rw [Relay.installs_of_canonical hkey] at hinstalls
      cases hinstalls
  have hnames : ∀ run, Names req run (history ++ [p]) ↔ Names req run history := by
    simp [names_concat, hnamed]
  have hunsent : ∀ future, a' ≠ .send key consumer req future := by
    rintro future rfl
    cases hgoes.request
  have hqueues : r'.deltaQueues = r.deltaQueues := by
    rcases hregistry with ⟨-, hsame⟩ | ⟨_, _, _, -, -, hsame⟩
    · exact congrArg Registry.deltaQueues hsame
    · exact (congrArg Registry.deltaQueues hsame :)
  have hreplies : r'.replyEvents = r.replyEvents := by
    rcases hregistry with ⟨-, hsame⟩ | ⟨_, _, _, -, -, hsame⟩
    · exact congrArg Registry.replyEvents hsame
    · exact (congrArg Registry.replyEvents hsame :)
  have hasked : r'.pending.lookup req = none := by
    rcases hregistry with ⟨hsent, hsame⟩ | ⟨other, _, _, rfl, -, hsame⟩
    · rw [show r'.pending = r.pending from congrArg Registry.pending hsame]
      by_contra hsome
      obtain ⟨future, hfuture⟩ := Option.ne_none_iff_exists'.mp hsome
      rw [h.asked future hfuture] at hsent
      cases hsent
    · obtain rfl := hrequest other rfl
      have hpending : r'.pending = r.pending.erase other := congrArg Registry.pending hsame
      rw [hpending, OrderedDict.lookup_erase_eq, if_pos rfl]
  refine ⟨?_, hgoes⟩
  constructor
  case last => rw [heardIn_silent hp, getD_congr (haside.last key hclear), h.last]
  case terminal => rw [finalsIn_silent hp, getD_congr (haside.terminal key hclear), h.terminal]
  case seen =>
    rw [getD_congr (haside.seen key hclear), heardIn_silent hp]
    exact fun hseen run hrun => h.seen hseen run ((hnames run).mp hrun)
  case sound => exact h.sound.concat fun u hu => by rw [hp] at hu; cases hu
  case stage =>
    cases h.stage with
    | waiting future sending unnamed unheard active sent unseen unanswered =>
      rcases hregistry with ⟨hsent, -⟩ | ⟨other, future', payload, hsend, hresult, -⟩
      · rw [sending] at hsent
        cases hsent
      · rw [hsend] at sending
        injection sending with _ _ _ hsame
        exact absurd (hsame ▸ hresult) (unanswered payload)
    | named run names only real active answered =>
      refine .named run ((hnames run).mpr names) (fun run' hrun' => only run' ((hnames run').mp hrun'))
        real (fun hne => ?_) (fun future hfuture => absurd hfuture (hunsent future))
      rcases hregistry with ⟨-, hsame⟩ | ⟨other, future, payload, hsend, hresult, hsame⟩
      · rw [show r'.activeRunId = r.activeRunId from congrArg Registry.activeRunId hsame]
        exact active hne
      · -- the acknowledgement names the run once more
        obtain rfl := hrequest other (by rw [hsend]; rfl)
        obtain ⟨payload', hresult', hrun⟩ := answered future hsend
        obtain rfl : payload = payload' := by
          rw [hresult] at hresult'
          injection hresult'
        have hactive : r'.activeRunId = r.activeRunId.set key (Relay.runIdOf payload) :=
          (congrArg Registry.activeRunId hsame).trans (if_pos (hrun ▸ hne))
        rw [hactive, OrderedDict.lookup_set, if_pos rfl, hrun]
  case asked =>
    intro future hfuture
    rw [hasked] at hfuture
    cases hfuture
  case future => exact fun future hfuture => absurd hfuture (hunsent future)
  case owner =>
    rw [hqueues]
    exact h.owner
  case waiter =>
    rw [hreplies]
    exact h.waiter
  case queue =>
    rw [hqueues]
    exact h.queue
  case shows =>
    intro hstream
    rw [finalsIn_silent hp]
    have hstreams := Relay.streams_of_suits (hstream ▸ hsuits) hkey hconsumer
    exact Relay.resume_shows hstream hstreams (h.shows hstream) piece
  case woken =>
    rw [haside.events consumer h.number, finalsIn_silent hp]
    exact h.woken
  case number => exact lt_of_lt_of_le h.number haside.next

omit [Runtime] [CaseMap] in
theorem takeItem_no_reply {loop : Loop} {item : Chunk} {text : PyStr} :
    (r.takeItem key consumer loop item).2 ≠ .out (.reply text) := by
  cases item with
  | text item =>
    unfold Relay.takeItem
    dsimp only
    split <;> exact nofun
  | _ => exact nofun

omit [Runtime] [CaseMap] in
theorem loopTop_no_reply {loop : Loop} {text : PyStr} :
    (r.loopTop key consumer loop).2 ≠ .out (.reply text) := by
  unfold Relay.loopTop
  split
  · exact takeItem_no_reply
  · split <;> exact nofun

omit [Runtime] [CaseMap] in
theorem replyText_reply {runId text : PyStr}
    (h : r.replyText t key runId = (r', .out (.reply text))) :
    text ≠ [] ∧ text = r.capturedText key := by
  unfold Relay.replyText at h
  have houtcome := (Prod.mk.inj h).2
  split at houtcome
  · rename_i hcaptured
    injection houtcome with houtcome
    injection houtcome with htext
    exact ⟨htext ▸ hcaptured, htext.symm⟩
  · cases houtcome

omit [Runtime] [CaseMap] in
theorem awaitReply_reply {runId text : PyStr} {expired : Bool}
    (h : r.awaitReply t key consumer runId expired = (r', .out (.reply text))) :
    text ≠ [] ∧ text = r.capturedText key := by
  unfold Relay.awaitReply at h
  split at h
  · rename_i hterminal
    cases h
    exact ⟨hterminal, (if_pos hterminal).symm⟩
  · split at h
    · exact replyText_reply h
    · cases h

/-- The reply that a piece of a turn returns. -/
theorem resume_reply {text : PyStr} (hkey : a.canonical? = some key)
    (h : r.resume t a signal = some (r', .out (.reply text))) :
    text ≠ [] ∧ text = r.capturedText key := by
  cases a with
  | create req future => cases hkey
  | subscribe req future includeApprovals => cases hkey
  | send canonical consumer req future =>
    cases hkey
    cases signal with
    | ready next expired =>
      rw [Relay.resume] at h
      split at h
      · cases h
      · have hacknowledged := Option.some.inj h
        unfold Relay.acknowledged at hacknowledged
        split at hacknowledged
        · exact absurd (congrArg Prod.snd hacknowledged) loopTop_no_reply
        · have hreply := awaitReply_reply hacknowledged
          exact hreply
      · cases h
    | _ => cases h
  | queue canonical consumer loop =>
    cases signal with
    | ready next expired =>
      rw [Relay.resume] at h
      split at h
      · cases h
      · exact absurd (congrArg Prod.snd (Option.some.inj h)) takeItem_no_reply
    | timeout expired =>
      rw [Relay.resume] at h
      split at h
      · cases h
      · have hkept := congrArg Prod.snd (Option.some.inj h)
        unfold Relay.keepalive at hkept
        split at hkept <;> cases hkept
    | _ => cases h
  | yield canonical consumer loop output =>
    cases signal with
    | ready next expired =>
      exact absurd (congrArg Prod.snd (Option.some.inj h)) loopTop_no_reply
    | _ => cases h
  | reply canonical consumer runId =>
    cases hkey
    cases signal with
    | ready next expired =>
      rw [Relay.resume] at h
      split at h
      · exact replyText_reply (Option.some.inj h)
      · cases h
    | timeout expired => exact replyText_reply (Option.some.inj h)
    | _ => cases h

end

/-! ## What was heard last -/

theorem text_of_heard {u : Utterance} (h : u ∈ heardIn key history) : u.text ≠ [] := by
  obtain ⟨⟨r, label⟩, -, hp⟩ := List.mem_filterMap.mp h
  cases label with
  | event msg => exact utterance_text (Option.eq_some_of_filter_eq_some hp)
  | _ => cases hp

/-- What a relay turn returns: the last final utterance, else the last one. -/
structure Returns (key : PyStr) (history : List Past) (u : Utterance) : Prop where
  final : finalsIn key history ≠ [] → (finalsIn key history).getLast? = some u
  truncated : finalsIn key history = [] → (heardIn key history).getLast? = some u

theorem Hears.captured (h : Hears stream key consumer req history lines r a)
    (hcaptured : r.capturedText key ≠ []) :
    ∃ u, r.capturedText key = u.text ∧ Returns key history u := by
  unfold Relay.capturedText at hcaptured ⊢
  rw [h.terminal, h.last] at hcaptured ⊢
  cases hfinal : (finalsIn key history).getLast? with
  | none =>
    have hnone := List.getLast?_eq_none_iff.mp hfinal
    have hempty : lastText (finalsIn key history) = [] := by simp [lastText, hfinal]
    rw [hempty] at hcaptured ⊢
    cases hlast : (heardIn key history).getLast? with
    | none => simp [lastText, hlast] at hcaptured
    | some u => exact ⟨u, by simp [lastText, hlast], fun hsome => absurd hnone hsome, fun _ => hlast⟩
  | some u =>
    have hmem : u ∈ heardIn key history := List.mem_of_mem_filter (List.mem_of_getLast? hfinal)
    have htext : lastText (finalsIn key history) = u.text := by simp [lastText, hfinal]
    refine ⟨u, ?_, fun _ => hfinal, fun hnone => ?_⟩
    · rw [htext]
      exact if_pos (text_of_heard hmem)
    · rw [hnone] at hfinal
      cases hfinal

end

end

end HassNode.ChatRelay
