import HassNode.TurnHears

/-!
# Run isolation

The reply of a turn comes from the run that the gateway acknowledged for it.  `run_isolated` follows a
turn from its `chat.send` through every interleaving with other turns, events and answers: whatever it
hears comes behind the acknowledgement and belongs to the acknowledged run, and what it shows or
returns is an utterance that it has heard.
-/

namespace HassNode.ChatRelay

open Py

namespace World

/-! ## Numbers and requests -/

/-- Whatever a world refers to has been handed out. -/
structure Issued (w : World) : Prop where
  queues : w.relay.Numbered
  waiters : ∀ key e, w.relay.replyEvents.lookup key = some e → e < w.relay.next
  futures : ∀ req future, w.relay.pending.lookup req = some future → future < w.relay.next
  consumers : ∀ j u a q, w.turns j = some u → u.await? = some a → a.consumer? = some q →
    q < w.relay.next
  requests : ∀ j u a req, w.turns j = some u → u.await? = some a → a.request? = some req →
    req ∈ w.relay.drawn

section
variable {w w' : World} {keys : PyStr → Prop} {consumers : Nat → Prop} {reqs : PyStr → Prop}

theorem issued_init : Issued World.init where
  queues _ _ h := by cases h
  waiters _ _ h := by cases h
  futures _ _ h := by cases h
  consumers _ _ _ _ h := by cases h
  requests _ _ _ _ h := by cases h

/-- A step that hands out what is new, with the suspension of one turn. -/
theorem Issued.put (h : Issued w) {r : Relay} {i : Nat} {t : Turn}
    (haside : Relay.Aside keys consumers reqs w.relay r) (hdrawn : w.relay.drawn ⊆ r.drawn)
    (hturn : ∀ a, t.await? = some a → (∀ q, a.consumer? = some q → q < r.next) ∧
      ∀ req, a.request? = some req → req ∈ r.drawn) : Issued (w.put i t r) := by
  have hcase : ∀ {j u a}, (w.put i t r).turns j = some u → u.await? = some a →
      (∀ q, a.consumer? = some q → q < r.next) ∧ ∀ req, a.request? = some req → req ∈ r.drawn := by
    intro j u a hu ha
    rw [turns_put] at hu
    split at hu
    · rw [Option.some.injEq] at hu
      exact hturn a (hu ▸ ha)
    · exact ⟨fun q hq => lt_of_lt_of_le (h.consumers j u a q hu ha hq) haside.next,
        fun req hreq => hdrawn (h.requests j u a req hu ha hreq)⟩
  constructor
  case queues =>
    intro key q hq
    rcases haside.owner key q hq with hold | hnew
    · exact lt_of_lt_of_le (h.queues key q hold) haside.next
    · exact hnew.2
  case waiters =>
    intro key e he
    rcases haside.waiter key e he with hold | hnew
    · exact lt_of_lt_of_le (h.waiters key e hold) haside.next
    · exact hnew.2
  case futures =>
    intro req future hfuture
    rcases haside.issued req future hfuture with hold | hnew
    · exact lt_of_lt_of_le (h.futures req future hold) haside.next
    · exact hnew.2
  case consumers => exact fun j u a q hu ha => (hcase hu ha).1 q
  case requests => exact fun j u a req hu ha => (hcase hu ha).2 req

/-- A step that hands out nothing. -/
theorem Issued.of_eq (h : Issued w) {r : Relay} (hqueues : r.deltaQueues = w.relay.deltaQueues)
    (hreplies : r.replyEvents = w.relay.replyEvents) (hpending : r.pending = w.relay.pending)
    (hnext : r.next = w.relay.next) (hdrawn : r.drawn = w.relay.drawn) :
    Issued { w with relay := r } where
  queues := by
    unfold Relay.Numbered
    rw [hqueues, hnext]
    exact h.queues
  waiters := by
    rw [hreplies, hnext]
    exact h.waiters
  futures := by
    rw [hpending, hnext]
    exact h.futures
  consumers := by
    rw [hnext]
    exact h.consumers
  requests := by
    rw [hdrawn]
    exact h.requests

variable [CaseMap]

theorem leaveTurn_aside (r : Relay) (lock : Nat) (sessionKey : PyStr) (now : Int) :
    Relay.Aside keys consumers reqs r (r.leaveTurn lock sessionKey now) :=
  .of_eq rfl rfl rfl rfl rfl rfl rfl rfl rfl le_rfl

omit [CaseMap] in
theorem turnLock_aside (r : Relay) (sessionKey : PyStr) :
    Relay.Aside keys consumers reqs r (r.turnLock sessionKey).1 := by
  unfold Relay.turnLock
  split
  · exact .refl r
  · exact .of_eq rfl rfl rfl rfl rfl rfl rfl rfl rfl (Nat.le_succ _)

omit [CaseMap] in
theorem turnLock_drawn (r : Relay) (sessionKey : PyStr) :
    (r.turnLock sessionKey).1.drawn = r.drawn := by
  unfold Relay.turnLock
  split <;> rfl

/-- The relay behind a piece. -/
theorem halt_relay_aside {i : Nat} {t : Turn} {lock : Nat} {now : Int} {r : Relay}
    {result : Relay × Halt} (h : Relay.Aside keys consumers reqs r result.1) :
    Relay.Aside keys consumers reqs r (w.halt i t lock now result).relay := by
  obtain ⟨r', a | outcome⟩ := result
  · exact h
  · exact h.trans (leaveTurn_aside r' lock t.sessionKey now)

theorem Issued.halt (h : Issued w) {i : Nat} {t : Turn} {lock : Nat} {now : Int} {r : Relay}
    {result : Relay × Halt} {held : Option Nat} {next : Option PyStr}
    (hentered : Relay.Aside keys consumers reqs w.relay r)
    (haside : Relay.Aside keys consumers reqs r result.1) (hdrawn : w.relay.drawn ⊆ result.1.drawn)
    (hopens : Relay.Opens held next r result) (hheld : ∀ q, held = some q → q < r.next) :
    Issued (w.halt i t lock now result) := by
  obtain ⟨r', a | outcome⟩ := result
  · apply h.put (hentered.trans haside) hdrawn
    intro b hb
    obtain rfl := Option.some.inj hb
    refine ⟨fun q hq => ?_, fun req hreq => (hopens.2 req hreq).2⟩
    rcases hopens.1 q hq with hold | hnew
    · exact lt_of_lt_of_le (hheld q hold) haside.next
    · exact hnew.2
  · exact h.put ((hentered.trans haside).trans (leaveTurn_aside r' lock t.sessionKey now)) hdrawn
      nofun

end

section
variable [Runtime] [CaseMap] {w w' : World} {label : Label}

omit [Runtime] [CaseMap] in
theorem await_of_idle {t : Turn} (idle : t.phase = .owner ∨ ∃ lock, t.phase = .locking lock) :
    t.await? = none := by
  unfold Turn.await?
  rcases idle with hphase | ⟨lock, hphase⟩ <;> rw [hphase]

omit [Runtime] [CaseMap] in
theorem await_of_running {t : Turn} {lock : Nat} {a : Await} (running : t.phase = .running lock a) :
    t.await? = some a := by
  unfold Turn.await?
  rw [running]

/-- Every step keeps what a world refers to handed out. -/
theorem Issued.moved (h : Issued w) (hkinded : w.Kinded) (hmoved : Moved w label w') : Issued w' := by
  have hidle : ∀ {i : Nat} {t : Turn} {r : Relay}, Relay.Aside (fun _ => False) (fun _ => False)
      (fun _ => False) w.relay r → r.drawn = w.relay.drawn → t.await? = none →
      Issued (w.put i t r) := by
    intro i t r haside hdrawn hnone
    refine h.put haside (fun _ hmem => hdrawn ▸ hmem) fun a ha => ?_
    rw [hnone] at ha
    cases ha
  cases hmoved with
  | called t absent idle => exact hidle (.refl _) rfl (await_of_idle (.inl idle))
  | ended outcome turn idle => exact hidle (.refl _) rfl rfl
  | @contended i t turn idle => exact hidle (turnLock_aside _ _) (turnLock_drawn _ _) rfl
  | @entered i t lock req expired now turn waiting free fresh =>
    refine h.halt ?_ (Relay.openTurn_aside _ t req expired) ?_ (Relay.openTurn_opens _ t req expired)
      nofun
    · exact .of_eq rfl rfl rfl rfl rfl rfl rfl rfl rfl le_rfl
    · have hpiece := Relay.openTurn_piece (w.relay.enterTurn lock t.sessionKey t.principal) t req
        expired
      exact hpiece.keeps.drawn
  | @resumed i t lock a signal now result turn running fresh piece =>
    have hpiece := Relay.resume_piece (hkinded.running turn running) piece
    refine h.halt (.refl _) (Relay.resume_aside piece) hpiece.keeps.drawn
      (Relay.resume_opens piece) fun q hq => ?_
    exact h.consumers i t a q turn (await_of_running running) hq
  | abandoned turn running => exact hidle (leaveTurn_aside _ _ _ _) rfl rfl
  | finalised turn closing => exact hidle (Relay.closeStream_aside _ _) rfl rfl
  | answered handled =>
    have hanswers := Relay.handleResponse_answers handled
    exact h.of_eq (congrArg Registry.deltaQueues hanswers.registry :)
      (congrArg Registry.replyEvents hanswers.registry :)
      (congrArg Registry.pending hanswers.registry :) hanswers.next hanswers.drawn
  | shown handled =>
    have hshows := Relay.handleEvent_showsOnly handled
    exact h.of_eq (congrArg Registry.deltaQueues hshows.registry :)
      (congrArg Registry.replyEvents hshows.registry :)
      (congrArg Registry.pending hshows.registry :) hshows.next hshows.drawn
  | reset =>
    refine ⟨fun _ _ hq => ?_, fun _ _ he => ?_, fun _ _ hf => ?_, h.consumers, h.requests⟩
    · cases hq
    · cases he
    · cases hf

/-! ## Another turn takes a step -/

/-- What a turn in flight holds is left alone by the others. -/
theorem aside_of_another (h : Apart w) {i j : Nat} {f : Flight} {key req : PyStr} {consumer : Nat}
    {action : Action} (hf : w.flight i = some f) (hkey : f.canonical? = some key) (hj : j ≠ i)
    (hothers : ∀ u b, w.turns j = some u → u.await? = some b →
      b.consumer? ≠ some consumer ∧ b.request? ≠ some req) (hdrawn : req ∈ w.relay.drawn)
    (hallowed : KeepsTurnsApart w (.turn j action)) (hmoved : Moved w (.turn j action) w') :
    Relay.Aside (· ≠ key) (· ≠ consumer) (· ≠ req) w.relay w'.relay := by
  cases hmoved with
  | called t absent idle => exact .refl _
  | ended outcome turn idle => exact .refl _
  | contended turn idle => exact turnLock_aside _ _
  | @entered _ t lock next expired now turn waiting free fresh =>
    obtain ⟨-, hvacant⟩ := hallowed t lock turn waiting
    have hentered : Relay.Aside (· ≠ key) (· ≠ consumer) (· ≠ req) w.relay
        (w.relay.enterTurn lock t.sessionKey t.principal) :=
      .of_eq rfl rfl rfl rfl rfl rfl rfl rfl rfl le_rfl
    refine hentered.trans (halt_relay_aside ?_)
    · apply (Relay.openTurn_aside _ t next expired).mono
      · rintro k hk rfl
        exact (hvacant k hk).1 i f (Ne.symm hj) hf hkey
      · exact fun _ => nofun
      · rintro k hk rfl
        exact fresh (hk ▸ hdrawn)
  | @resumed _ t lock a signal now result turn running fresh piece =>
    obtain ⟨hconsumer, hrequest⟩ := hothers t a turn (await_of_running running)
    have hflight := flight_of_running turn running
    apply halt_relay_aside
    apply (Relay.resume_aside piece).mono
    · rintro k (⟨hheld, -⟩ | hinstalls) rfl
      · exact hj (h.parted.canonical j i _ f k hflight hf hheld hkey)
      · exact (hallowed t lock a k turn running hinstalls).1 i f (Ne.symm hj) hf hkey
    · rintro q hq rfl
      exact hconsumer hq
    · rintro k (hasked | hnext) rfl
      · exact hrequest hasked
      · exact fresh k hnext hdrawn
  | abandoned turn running => exact leaveTurn_aside _ _ _ _
  | finalised turn closing => exact Relay.closeStream_aside _ _

end

end World

/-! ## The turn sends its message -/

namespace Relay

end Relay

section
variable [Runtime] {r r' : Relay} {t : Turn} {key req : PyStr} {consumer future : Nat}

end

/-! ## Exchanges -/

namespace World

def await? (w : World) (i : Nat) : Option Await := (w.turns i).bind Turn.await?

section
variable [Runtime]

/-- The line that a step shows of the stream of turn `i`. -/
def shown (w : World) (i consumer : Nat) (label : Label) (w' : World) : List Line :=
  match label, w.await? i, w'.await? i with
  | .turn j (.resume signal _), some a, some a' =>
    if j = i then w.relay.lineOf consumer a signal a' else []
  | _, _, _ => []

variable [CaseMap]

/-- A turn in flight among the others. -/
structure Following (i : Nat) (stream : Bool) (key : PyStr) (consumer : Nat) (req : PyStr)
    (history : List Past) (lines : List Line) (w : World) (t : Turn) (lock : Nat) (a : Await) :
    Prop where
  apart : Apart w
  issued : Issued w
  turn : w.turns i = some t
  running : t.phase = .running lock a
  kind : t.stream = stream
  installed : a.canonical? = some key
  attached : a.consumer? = some consumer
  drawn : req ∈ w.relay.drawn
  request : ∀ other, a.request? = some other → other = req
  others : ∀ j u b, j ≠ i → w.turns j = some u → u.await? = some b →
    b.consumer? ≠ some consumer ∧ b.request? ≠ some req
  hears : Hears stream key consumer req history lines w.relay a

/-- What is known of a turn when it has ended. -/
structure Ended (i : Nat) (stream : Bool) (key : PyStr) (req : PyStr) (history : List Past)
    (lines : List Line) (w : World) : Prop where
  away : w.await? i = none
  sound : Sound stream key req history
  only : ∀ run run', Names req run history → Names req run' history → run = run'
  shows : stream = true → ∃ items a, Shows ((finalsIn key history).map (·.text)) lines items a
  returned : ∀ t text, w.turns i = some t → t.phase = .ended (.reply text) →
    ∃ u, text = u.text ∧ Returns key history u

end

section
variable [Runtime] [CaseMap] {i : Nat} {stream : Bool} {key req : PyStr} {consumer : Nat}
  {history : List Past} {lines : List Line} {w w' : World} {t : Turn} {lock : Nat} {a : Await}
  {label : Label}

omit [Runtime] [CaseMap] in
/-- A step of another turn. -/
theorem spared_another {f : Flight} {r r' : Relay}
    (haside : Relay.Aside (· ≠ key) (· ≠ consumer) (· ≠ req) r r') (hkept : Kept f r r')
    (hstream : f.stream = stream) (hkey : f.canonical? = some key) (hsent : f.sent? = a.sent?)
    (hnumber : consumer < r.next) : Spared stream key consumer req a r r' where
  last := haside.last key fun h => h rfl
  terminal := haside.terminal key fun h => h rfl
  seen := haside.seen key fun h => h rfl
  active := hkept.activeRunId key hkey
  sent hs := hkept.chatSendCanonical req (hsent.trans hs)
  pending := haside.pending req fun h => h rfl
  issued other future hlt hother :=
    (haside.issued other future hother).resolve_right fun hnew => absurd hlt (not_lt.mpr hnew.1)
  futures future hlt _ := haside.futures future hlt
  owner other hother :=
    (haside.owner other consumer hother).resolve_right fun hnew => absurd hnumber (not_lt.mpr hnew.1)
  waiter other hother :=
    (haside.waiter other consumer hother).resolve_right fun hnew => absurd hnumber (not_lt.mpr hnew.1)
  queue hs := hkept.deltaQueue (hstream.trans hs) key hkey
  items _ := ⟨[], by simp, by rw [haside.items consumer (fun h => h rfl) hnumber, List.append_nil]⟩
  events _ := haside.events consumer hnumber
  next := haside.next

omit [Runtime] in
theorem halt_drawn (w : World) (j : Nat) (t : Turn) (lock : Nat) (now : Int) (result : Relay × Halt) :
    (w.halt j t lock now result).relay.drawn = result.1.drawn := by
  obtain ⟨r', b | outcome⟩ := result <;> rfl

/-- Request ids stay drawn. -/
theorem drawn_moved (hkinded : w.Kinded) (hmoved : Moved w label w') :
    w.relay.drawn ⊆ w'.relay.drawn := by
  cases hmoved with
  | called t absent idle => exact List.Subset.refl _
  | ended outcome turn idle => exact List.Subset.refl _
  | @contended j t turn idle =>
    show _ ⊆ (w.relay.turnLock t.sessionKey).1.drawn
    rw [turnLock_drawn]
    exact List.Subset.refl _
  | @entered j t lock next expired now turn waiting free fresh =>
    have hpiece := Relay.openTurn_piece (w.relay.enterTurn lock t.sessionKey t.principal) t next expired
    rw [halt_drawn]
    exact hpiece.keeps.drawn
  | resumed turn running fresh piece =>
    rw [halt_drawn]
    exact (Relay.resume_piece (hkinded.running turn running) piece).keeps.drawn
  | abandoned turn running => exact List.Subset.refl _
  | finalised turn closing => exact List.Subset.refl _
  | answered handled => exact fun _ hmem => (Relay.handleResponse_answers handled).drawn ▸ hmem
  | shown handled => exact fun _ hmem => (Relay.handleEvent_showsOnly handled).drawn ▸ hmem
  | reset => exact List.Subset.refl _

/-- The turn is suspended on the queue that it had or on a new one, with a new request. -/
def Suspends (w : World) (j : Nat) (u : Turn) : Prop :=
  ∀ b, u.await? = some b →
    (∀ q, b.consumer? = some q → w.relay.next ≤ q ∨
      ∃ v c, w.turns j = some v ∧ v.await? = some c ∧ c.consumer? = some q) ∧
    ∀ next, b.request? = some next → next ∉ w.relay.drawn

omit [Runtime] [CaseMap] in
theorem suspends_none {j : Nat} {u : Turn} (h : u.await? = none) : Suspends w j u := by
  intro b hb
  rw [h] at hb
  cases hb

omit [Runtime] in
theorem halt_suspends {j : Nat} {v : Turn} {lock : Nat} {now : Int} {held : Option Nat}
    {next : Option PyStr} {r : Relay} {result : Relay × Halt} (hopens : Relay.Opens held next r result)
    (hnext : w.relay.next ≤ r.next) (hfresh : ∀ req, next = some req → req ∉ w.relay.drawn)
    (hheld : ∀ q, held = some q →
      ∃ v c, w.turns j = some v ∧ v.await? = some c ∧ c.consumer? = some q) {u : Turn}
    (hu : (w.halt j v lock now result).turns j = some u) : Suspends w j u := by
  obtain ⟨r', b | outcome⟩ := result
  · have hturn : (w.put j { v with phase := .running lock b } r').turns j = some u := hu
    rw [turns_put, if_pos rfl, Option.some.injEq] at hturn
    subst hturn
    intro c hc
    obtain rfl := Option.some.inj hc
    refine ⟨fun q hq => ?_, fun req hreq => hfresh req (hopens.2 req hreq).1⟩
    rcases hopens.1 q hq with hold | hnew
    · exact .inr (hheld q hold)
    · exact .inl (hnext.trans hnew.1)
  · have hturn : (w.put j { v with phase := .ended outcome }
        (r'.leaveTurn lock v.sessionKey now)).turns j = some u := hu
    rw [turns_put, if_pos rfl, Option.some.injEq] at hturn
    exact suspends_none (hturn ▸ rfl)

/-- What a step does to the turn that takes it. -/
theorem moved_suspends {j : Nat} {action : Action} (hmoved : Moved w (.turn j action) w') :
    ∀ u, w'.turns j = some u → Suspends w j u := by
  have hput : ∀ {v : Turn} {r : Relay}, v.await? = none →
      ∀ u, (w.put j v r).turns j = some u → Suspends w j u := by
    intro v r hv u hu
    rw [turns_put, if_pos rfl, Option.some.injEq] at hu
    exact suspends_none (hu ▸ hv)
  cases hmoved with
  | called v absent idle => exact hput (await_of_idle (.inl idle))
  | ended outcome turn idle => exact hput rfl
  | contended turn idle => exact hput rfl
  | @entered _ v lock next expired now turn waiting free fresh =>
    have hopens := Relay.openTurn_opens (w.relay.enterTurn lock v.sessionKey v.principal) v next expired
    intro u hu
    exact halt_suspends hopens le_rfl (fun req hreq => Option.some.inj hreq ▸ fresh) nofun hu
  | @resumed _ v lock c signal now result turn running fresh piece =>
    intro u hu
    exact halt_suspends (Relay.resume_opens piece) le_rfl fresh
      (fun q hq => ⟨v, c, turn, await_of_running running, hq⟩) hu
  | abandoned turn running => exact hput rfl
  | finalised turn closing => exact hput rfl

omit [CaseMap] in
theorem Following.flight (h : Following i stream key consumer req history lines w t lock a) :
    w.flight i = some ⟨stream, t.sessionKey, t.principal, lock, some key, a.sent?⟩ := by
  rw [flight_of_running h.turn h.running, h.kind, h.installed]

/-- The other turns stay away from the queue and the request of the turn. -/
theorem Following.others_moved (h : Following i stream key consumer req history lines w t lock a)
    {j : Nat} {action : Action} (hmoved : Moved w (.turn j action) w') {k : Nat} {u : Turn} {b : Await}
    (hk : k ≠ i) (hu : w'.turns k = some u) (hb : u.await? = some b) :
    b.consumer? ≠ some consumer ∧ b.request? ≠ some req := by
  have hturns : ∀ k, k ≠ j → w'.turns k = w.turns k :=
    fun k hk => turns_spared (spares_turn hk.symm action) hmoved
  have hsuspends := moved_suspends hmoved
  by_cases hkj : k = j
  · subst hkj
    obtain ⟨hconsumer, hrequest⟩ := hsuspends u hu b hb
    refine ⟨fun hq => ?_, fun hreq => hrequest req hreq h.drawn⟩
    rcases hconsumer consumer hq with hnew | ⟨v, c, hv, hc, hold⟩
    · exact absurd h.hears.number (not_lt.mpr hnew)
    · exact (h.others k v c hk hv hc).1 hold
  · rw [hturns k hkj] at hu
    exact h.others k u b hk hu hb

/-- Another turn takes a step. -/
theorem Following.another (h : Following i stream key consumer req history lines w t lock a)
    {j : Nat} {action : Action} (hj : j ≠ i) (allowed : KeepsTurnsApart w (.turn j action))
    (performed : w.step (.turn j action) = some w') :
    Following i stream key consumer req (history ++ [(w.relay, .turn j action)]) lines w' t lock a := by
  have hmoved := step_moved performed
  have haside := aside_of_another h.apart h.flight rfl hj (fun u b => h.others j u b hj) h.drawn
    allowed hmoved
  have hother : (Label.turn j action).OfAnother i
      ⟨stream, t.sessionKey, t.principal, lock, some key, a.sent?⟩ := hj
  have hkept := h.apart.kept h.flight hother allowed performed
  exact
    { apart := h.apart.step allowed performed
      issued := h.issued.moved h.apart.kinded hmoved
      turn := by rw [turns_spared (spares_turn hj action) hmoved, h.turn]
      running := h.running
      kind := h.kind
      installed := h.installed
      attached := h.attached
      drawn := drawn_moved h.apart.kinded hmoved h.drawn
      request := h.request
      others := fun k u b hk hu hb => h.others_moved hmoved hk hu hb
      hears := h.hears.pass rfl rfl (spared_another haside hkept rfl rfl rfl h.hears.number) }

/-- The gateway's reader handles a frame. -/
theorem Following.read (h : Following i stream key consumer req history lines w t lock a) {r : Relay}
    {p : Past} (allowed : KeepsTurnsApart w label) (performed : w.step label = some { w with relay := r })
    (hears : Hears stream key consumer req (history ++ [p]) lines r a) :
    Following i stream key consumer req (history ++ [p]) lines { w with relay := r } t lock a :=
  { h with
    apart := h.apart.step allowed performed
    issued := h.issued.moved h.apart.kinded (step_moved performed)
    drawn := drawn_moved h.apart.kinded (step_moved performed) h.drawn
    hears := hears }

omit [Runtime] [CaseMap] in
theorem shown_of_ne {j : Nat} {action : Action} (hj : j ≠ i) :
    w.shown i consumer (.turn j action) w' = [] := by
  unfold shown
  split
  · rename_i k _ _ _ _ hlabel _ _
    injection hlabel with hk _
    exact if_neg (hk ▸ hj)
  · rfl

omit [CaseMap] in
/-- One run at most is acknowledged. -/
theorem Following.only (h : Following i stream key consumer req history lines w t lock a)
    {run run' : PyStr} (hrun : Names req run history) (hrun' : Names req run' history) :
    run = run' := by
  cases h.hears.stage with
  | waiting future sending unnamed unheard active sent unseen unanswered =>
    exact absurd hrun (unnamed run)
  | named named names only real active answered =>
    rw [only run hrun, only run' hrun']

omit [CaseMap] in
/-- The turn leaves its body. -/
theorem Following.ended (h : Following i stream key consumer req history lines w t lock a) {p : Past}
    {u : Turn} {r : Relay} (hheard : heard? key p = none) (hnamed : named? req p = none)
    (haway : u.await? = none)
    (hreply : ∀ text, u.phase = .ended (.reply text) → text ≠ [] ∧ text = w.relay.capturedText key) :
    Ended i stream key req (history ++ [p]) lines (w.put i u r) := by
  have hnames : ∀ run, Names req run (history ++ [p]) ↔ Names req run history := by
    simp [names_concat, hnamed]
  have hturn : (w.put i u r).turns i = some u := by rw [turns_put, if_pos rfl]
  constructor
  case away =>
    unfold await?
    rw [hturn]
    exact haway
  case sound => exact h.hears.sound.concat fun v hv => by rw [hheard] at hv; cases hv
  case only =>
    intro run run' hrun hrun'
    exact h.only ((hnames run).mp hrun) ((hnames run').mp hrun')
  case shows =>
    intro hstream
    rw [finalsIn_silent hheard]
    exact ⟨_, _, h.hears.shows hstream⟩
  case returned =>
    intro v text hv hphase
    rw [hturn, Option.some.injEq] at hv
    subst hv
    obtain ⟨hne, htext⟩ := hreply text hphase
    obtain ⟨spoken, hspoken, hreturns⟩ := h.hears.captured (htext ▸ hne)
    refine ⟨spoken, htext.trans hspoken, ?_, ?_⟩
    · rw [finalsIn_silent hheard]
      exact hreturns.final
    · rw [finalsIn_silent hheard, heardIn_silent hheard]
      exact hreturns.truncated

omit [Runtime] [CaseMap] in
theorem request_of_sent {asked : PyStr} (h : a.sent? = some asked) : a.request? = some asked := by
  cases a with
  | send canonical consumer' req' future => exact h
  | _ => cases h

/-- What an exchange comes to. -/
def Tracked (i : Nat) (stream : Bool) (key : PyStr) (consumer : Nat) (req : PyStr)
    (history : List Past) (lines : List Line) (w : World) : Prop :=
  (∃ t lock a, Following i stream key consumer req history lines w t lock a) ∨
    Ended i stream key req history lines w

/-- The turn itself takes a step. -/
theorem Following.own (h : Following i stream key consumer req history lines w t lock a)
    {action : Action} (allowed : KeepsTurnsApart w (.turn i action))
    (performed : w.step (.turn i action) = some w') :
    Tracked i stream key consumer req (history ++ [(w.relay, .turn i action)])
      (lines ++ w.shown i consumer (.turn i action) w') w' := by
  have hmoved := step_moved performed
  have hapart := h.apart.step allowed performed
  have hissued := h.issued.moved h.apart.kinded hmoved
  have hsuits := h.apart.kinded.running h.turn h.running
  have hawait : w.await? i = some a := by
    unfold await?
    rw [h.turn]
    exact await_of_running h.running
  have hothers : ∀ k u b, k ≠ i → w'.turns k = some u → u.await? = some b →
      b.consumer? ≠ some consumer ∧ b.request? ≠ some req :=
    fun k u b hk hu hb => h.others_moved hmoved hk hu hb
  have hdrawn := drawn_moved h.apart.kinded hmoved h.drawn
  -- a turn that is suspended in its body can only be resumed or abandoned
  cases hmoved with
  | called u absent idle =>
    rw [h.turn] at absent
    cases absent
  | ended outcome turn idle =>
    rw [h.turn, Option.some.injEq] at turn
    subst turn
    rw [h.running] at idle
    rcases idle with hphase | ⟨_, hphase⟩ <;> cases hphase
  | contended turn idle =>
    rw [h.turn, Option.some.injEq] at turn
    subst turn
    rw [h.running] at idle
    cases idle
  | entered turn waiting free fresh =>
    rw [h.turn, Option.some.injEq] at turn
    subst turn
    rw [h.running] at waiting
    cases waiting
  | @resumed _ u lock' b signal now result turn running fresh piece =>
    rw [h.turn, Option.some.injEq] at turn
    subst turn
    rw [h.running] at running
    injection running with hlock hb
    subst hlock hb
    obtain ⟨r', a' | outcome⟩ := result
    · have hturn : (w.put i { t with phase := .running lock a' } r').turns i =
          some { t with phase := .running lock a' } := by rw [turns_put, if_pos rfl]
      have hafter : (w.put i { t with phase := .running lock a' } r').await? i = some a' := by
        unfold await?
        rw [hturn]
        rfl
      have hline : w.shown i consumer (.turn i (.resume signal now))
          (w.put i { t with phase := .running lock a' } r') = w.relay.lineOf consumer a signal a' := by
        unfold shown
        rw [hawait, hafter]
        exact if_pos rfl
      have hhears : Hears t.stream key consumer req history lines w.relay a := by
        rw [h.kind]
        exact h.hears
      obtain ⟨hresumed, hgoes⟩ := hhears.resumed (p := (w.relay, .turn i (.resume signal now))) hsuits
        h.installed h.attached h.request (fun hreq => fresh req hreq h.drawn) rfl rfl piece
      left
      refine ⟨{ t with phase := .running lock a' }, lock, a', ?_⟩
      exact
        { apart := hapart
          issued := hissued
          turn := hturn
          running := rfl
          kind := h.kind
          installed := hgoes.canonical
          attached := hgoes.consumer
          drawn := hdrawn
          request := fun other hother => by rw [hgoes.request] at hother; cases hother
          others := hothers
          hears := by
            rw [← h.kind]
            show Hears t.stream key consumer req _ (lines ++ w.shown i consumer _
              (w.put i { t with phase := .running lock a' } r')) r' a'
            rw [hline]
            exact hresumed }
    · right
      have hline : w.shown i consumer (.turn i (.resume signal now))
          (w.put i { t with phase := .ended outcome } (r'.leaveTurn lock t.sessionKey now)) = [] := by
        unfold shown
        rw [hawait]
        unfold await?
        rw [turns_put, if_pos rfl]
        rfl
      show Ended i stream key req _ (lines ++ w.shown i consumer _
        (w.put i { t with phase := .ended outcome } (r'.leaveTurn lock t.sessionKey now))) _
      rw [hline, List.append_nil]
      apply h.ended rfl rfl rfl
      intro text hphase
      injection hphase with hphase
      subst hphase
      exact resume_reply h.installed piece
  | @abandoned _ u lock' consumer' canonical loop output now turn running =>
    right
    have hline : w.shown i consumer (.turn i (.abandon now)) (w.put i { u with phase := .closing canonical }
        (w.relay.leaveTurn lock' u.sessionKey now)) = [] := rfl
    rw [hline, List.append_nil]
    exact h.ended rfl rfl rfl nofun
  | finalised turn closing =>
    rw [h.turn, Option.some.injEq] at turn
    subst turn
    rw [h.running] at closing
    cases closing

/-- Every step keeps the turn tracked. -/
theorem Following.step (h : Following i stream key consumer req history lines w t lock a)
    (allowed : KeepsTurnsApart w label) (connected : label ≠ .reset) (genuine : Genuine label)
    (performed : w.step label = some w') :
    Tracked i stream key consumer req (history ++ [(w.relay, label)])
      (lines ++ w.shown i consumer label w') w' := by
  cases label with
  | turn j action =>
    by_cases hj : j = i
    · subst hj
      exact h.own allowed performed
    · rw [shown_of_ne hj, List.append_nil]
      exact .inl ⟨t, lock, a, h.another hj allowed performed⟩
  | response msg =>
    obtain ⟨r', handled, rfl⟩ := Option.map_eq_some_iff.mp performed
    rw [show w.shown i consumer (.response msg) { w with relay := r' } = [] from rfl, List.append_nil]
    refine .inl ⟨t, lock, a, h.read allowed performed (h.hears.response genuine handled fun hown => ?_)⟩
    have hother : (Label.response msg).OfAnother i
        ⟨stream, t.sessionKey, t.principal, lock, some key, a.sent?⟩ := by
      intro sent hsent hid
      exact hown (h.request sent (request_of_sent hsent) ▸ hid)
    exact (h.apart.kept h.flight hother allowed performed).activeRunId key rfl
  | event msg =>
    obtain ⟨r', handled, rfl⟩ := Option.map_eq_some_iff.mp performed
    rw [show w.shown i consumer (.event msg) { w with relay := r' } = [] from rfl, List.append_nil]
    exact .inl ⟨t, lock, a, h.read allowed performed (h.hears.event genuine handled)⟩
  | reset => exact absurd rfl connected

/-! ## From the first step on -/

theorem Reachable.issued (h : Reachable KeepsTurnsApart w) : Apart w ∧ Issued w := by
  apply h.invariant
  · exact ⟨apart_init, issued_init⟩
  · intro w label w' hw hallowed hstep
    exact ⟨hw.1.step hallowed hstep, hw.2.moved hw.1.kinded (step_moved hstep)⟩

end

end World

/-! ## Run isolation -/

section
variable [Runtime] [CaseMap] {i : Nat} {stream : Bool} {key req run : PyStr} {consumer : Nat}
  {history : List Past} {lines : List Line} {w : World}

end

/-! ## A turn on its own -/

namespace World

/-- No turn but `i` was ever called. -/
def Lone (i : Nat) (w : World) : Prop := ∀ j, j ≠ i → w.turns j = none

/-- The label is performed by the turn or by the gateway. -/
def Around (i : Nat) : Label → Prop
  | .turn j _ => j = i
  | _ => True

section
variable [Runtime] [CaseMap] {i : Nat} {w w' : World} {label : Label}

omit [Runtime] [CaseMap] in
theorem Lone.vacant (h : Lone i w) {t : Turn} (turn : w.turns i = some t)
    (open_ : ∀ canonical, t.phase ≠ .closing canonical) (key : PyStr) : Vacant w i t key := by
  refine ⟨fun j g hj hg => ?_, fun _ k hk => ?_⟩
  · rw [flight, h j hj] at hg
    cases hg
  · by_cases hki : k = i
    · rw [hki, closing_of_phase turn open_] at hk
      cases hk
    · rw [closing?, h k hki] at hk
      cases hk

omit [Runtime] [CaseMap] in
/-- A turn on its own keeps apart. -/
theorem Lone.keepsTurnsApart (h : Lone i w) (haround : Around i label) : KeepsTurnsApart w label := by
  cases label with
  | turn j action =>
    obtain rfl : j = i := haround
    cases action with
    | enter req expired now =>
      intro t lock turn waiting
      have hopen : ∀ canonical, t.phase ≠ .closing canonical := by
        intro canonical hclosing
        rw [waiting] at hclosing
        cases hclosing
      refine ⟨fun k g hg => ?_, fun key _ => h.vacant turn hopen key⟩
      by_cases hk : k = j
      · rw [hk, flight, turn, Option.bind_some, Turn.flight, waiting] at hg
        cases hg
      · rw [flight, h k hk] at hg
        cases hg
    | resume signal now =>
      intro t lock a key turn running _
      apply h.vacant turn
      intro canonical hclosing
      rw [running] at hclosing
      cases hclosing
    | _ => trivial
  | _ => trivial

theorem Lone.step (h : Lone i w) (haround : Around i label) (performed : w.step label = some w') :
    Lone i w' := by
  cases label with
  | turn j action =>
    obtain rfl : j = i := haround
    intro k hk
    rw [turns_spared (spares_turn (Ne.symm hk) action) (step_moved performed), h k hk]
  | response msg =>
    obtain ⟨r, -, rfl⟩ := Option.map_eq_some_iff.mp performed
    exact h
  | event msg =>
    obtain ⟨r, -, rfl⟩ := Option.map_eq_some_iff.mp performed
    exact h
  | reset =>
    obtain rfl := Option.some.inj performed
    exact h

theorem Lone.run {labels : List Label} (h : Lone i w) (haround : ∀ label ∈ labels, Around i label)
    (hrun : w.run labels = some w') : w.Allowed KeepsTurnsApart labels ∧ Lone i w' := by
  induction labels generalizing w with
  | nil =>
    rw [World.run, Option.some.injEq] at hrun
    exact ⟨trivial, hrun ▸ h⟩
  | cons label labels ih =>
    rw [World.run, Option.bind_eq_some_iff] at hrun
    obtain ⟨w₁, hstep, hrest⟩ := hrun
    have hlabel := haround label List.mem_cons_self
    obtain ⟨hallowed, hlone⟩ := ih (h.step hlabel hstep)
      (fun other hother => haround other (List.mem_cons_of_mem _ hother)) hrest
    refine ⟨⟨h.keepsTurnsApart hlabel, fun w₂ hw₂ => ?_⟩, hlone⟩
    rw [hstep, Option.some.injEq] at hw₂
    exact hw₂ ▸ hallowed

end

end World

section
open Sample

end

end HassNode.ChatRelay
