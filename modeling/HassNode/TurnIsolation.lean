import HassNode.TurnFlights

/-!
# Turn isolation

Turns share dictionaries that are keyed by the canonical session key, while the lock that serialises
them is keyed by the raw one.  `turns_isolated` shows what it takes for no turn to touch what belongs
to another turn in flight: the locks of one raw key must be one object, no turn may install its state
under a canonical key that another turn still holds, and an abandoned stream must be closed before
the next stream of its session begins.
-/

namespace HassNode.ChatRelay

open Py

/-! ## The property -/

/-- The entries of a turn in flight: its pending run, its delta queue or reply event, its canonical
key and the canonical key of its request. -/
structure Kept (f : Flight) (r r' : Relay) : Prop where
  activeRunId : ∀ key, f.canonical? = some key →
    r'.activeRunId.lookup key = r.activeRunId.lookup key
  deltaQueue : f.stream = true → ∀ key, f.canonical? = some key →
    r'.deltaQueues.lookup key = r.deltaQueues.lookup key
  replyEvent : f.stream = false → ∀ key, f.canonical? = some key →
    r'.replyEvents.lookup key = r.replyEvents.lookup key
  canonicalByRaw : r'.canonicalByRaw.lookup f.sessionKey = r.canonicalByRaw.lookup f.sessionKey
  chatSendCanonical : ∀ req, f.sent? = some req →
    r'.chatSendCanonical.lookup req = r.chatSendCanonical.lookup req

/-- The label is performed by or for another turn than `f`, or is an event. -/
def Label.OfAnother (i : Nat) (f : Flight) : Label → Prop
  | .turn j _ => j ≠ i
  | .response msg => ∀ req, f.sent? = some req → Dict.get? msg (py "id") ≠ some (.str req)
  | .event _ => True
  | .reset => False

/-- Two turns in flight have different raw and different canonical keys. -/
structure Serialised (w : World) : Prop where
  raw : ∀ i j f g, w.flight i = some f → w.flight j = some g → f.sessionKey = g.sessionKey → i = j
  canonical : ∀ i j f g key, w.flight i = some f → w.flight j = some g →
    f.canonical? = some key → g.canonical? = some key → i = j

/-! ## The invariant -/

/-- The requests of `chat.send` belong to the turns that wait for them. -/
structure Sent (flight : Flights) (r : Relay) : Prop where
  drawn : ∀ i f req, flight i = some f → f.sent? = some req → req ∈ r.drawn
  distinct : ∀ i j f g req, flight i = some f → flight j = some g →
    f.sent? = some req → g.sent? = some req → i = j
  owned : ∀ req key, r.chatSendCanonical.lookup req = some key →
    ∃ i f, flight i = some f ∧ f.sent? = some req ∧ f.canonical? = some key

/-- Canonical keys are held by one turn each, and no stream waits behind an abandoned one. -/
structure Parted (flight : Flights) (closing : Nat → Option PyStr) : Prop where
  canonical : ∀ i j f g key, flight i = some f → flight j = some g →
    f.canonical? = some key → g.canonical? = some key → i = j
  closing : ∀ i k f key, flight i = some f → f.stream = true → closing k = some key →
    f.canonical? ≠ some key

/-- No other turn in flight holds the canonical key, and for a stream no abandoned stream of that
key is still to be closed. -/
def Vacant (w : World) (i : Nat) (t : Turn) (key : PyStr) : Prop :=
  (∀ j g, j ≠ i → w.flight j = some g → g.canonical? ≠ some key) ∧
    (t.stream = true → ∀ k, w.closing? k ≠ some key)

section
variable {flight : Flights} {closing : Nat → Option PyStr} {r r' : Relay} {i : Nat} {f g : Flight}

/-- A turn in flight learns a canonical key that is vacant, or keeps what it has. -/
theorem Parted.update (h : Parted flight closing) {known : Option PyStr}
    (hcanonical : g.canonical? = known)
    (hvacant : ∀ key, known = some key → (∀ j u, j ≠ i → flight j = some u →
      u.canonical? ≠ some key) ∧ (g.stream = true → ∀ k, closing k ≠ some key)) :
    Parted (Function.update flight i (some g)) closing where
  canonical j k g₁ g₂ key hj hk h₁ h₂ := by
    rcases update_some_iff.mp hj with ⟨hji, rfl⟩ | ⟨hji, hj⟩
    · rcases update_some_iff.mp hk with ⟨hki, -⟩ | ⟨hki, hk⟩
      · exact hji.trans hki.symm
      · exact absurd h₂ ((hvacant key (hcanonical.symm.trans h₁)).1 k g₂ hki hk)
    · rcases update_some_iff.mp hk with ⟨-, rfl⟩ | ⟨-, hk⟩
      · exact absurd h₁ ((hvacant key (hcanonical.symm.trans h₂)).1 j g₁ hji hj)
      · exact h.canonical j k g₁ g₂ key hj hk h₁ h₂
  closing j k u key hj hstream hk hkey := by
    rcases update_some_iff.mp hj with ⟨-, rfl⟩ | ⟨-, hj⟩
    · exact (hvacant key (hcanonical.symm.trans hkey)).2 hstream k hk
    · exact h.closing j k u key hj hstream hk hkey

/-- What a turn in flight holds is vacant for everyone else. -/
theorem Parted.vacant (h : Parted flight closing) (hf : flight i = some f) {key : PyStr}
    (hkey : f.canonical? = some key) : (∀ j u, j ≠ i → flight j = some u →
      u.canonical? ≠ some key) ∧ (f.stream = true → ∀ k, closing k ≠ some key) :=
  ⟨fun j u hne hu hother => hne (h.canonical j i u f key hu hf hother hkey),
    fun hstream k hk => h.closing i k f key hf hstream hk hkey⟩

theorem Parted.stop (h : Parted flight closing) :
    Parted (Function.update flight i none) closing where
  canonical j k g₁ g₂ key hj hk :=
    h.canonical j k g₁ g₂ key (update_none_iff.mp hj).2 (update_none_iff.mp hk).2
  closing j k u key hj := h.closing j k u key (update_none_iff.mp hj).2

/-- An abandoned stream keeps its key away from other streams, and no turn in flight has it. -/
theorem Parted.abandon (h : Parted flight closing) (hf : flight i = some f) {key : PyStr}
    (hkey : f.canonical? = some key) :
    Parted (Function.update flight i none) (Function.update closing i (some key)) where
  canonical := h.stop.canonical
  closing j k u other hj hstream hk hother := by
    rw [update_none_iff] at hj
    rcases update_some_iff.mp hk with ⟨-, rfl⟩ | ⟨-, hk⟩
    · exact (h.vacant hf hkey).1 j u hj.1 hj.2 hother
    · exact h.closing j k u other hj.2 hstream hk hother

theorem Parted.finalise (h : Parted flight closing) :
    Parted flight (Function.update closing i none) where
  canonical := h.canonical
  closing j k u key hj hstream hk := h.closing j k u key hj hstream (update_none_iff.mp hk).2

/-- A piece of a turn in flight leaves the requests with the turns that wait for them. -/
theorem Sent.piece (h : Sent flight r) (hf : flight i = some f) {t : Turn}
    {installed next : Option PyStr} {held : Option PyStr} {result : Relay × Halt}
    (hpiece : Relay.Piece t held installed f.sent? next r result)
    (hfresh : ∀ req, next = some req → req ∉ r.drawn)
    (hdrawn : ∀ req, g.sent? = some req → req ∈ result.1.drawn)
    (hsent : g.sent? = none ∨ g.sent? = next)
    (hat : ∀ a, result.2 = .at a → g.sent? = a.sent? ∧ g.canonical? = a.canonical?) :
    Sent (Function.update flight i (some g)) result.1 where
  drawn j u req hu hreq := by
    rcases update_some_iff.mp hu with ⟨-, rfl⟩ | ⟨-, hu⟩
    · exact hdrawn req hreq
    · exact hpiece.keeps.drawn (h.drawn j u req hu hreq)
  distinct j k u₁ u₂ req hj hk h₁ h₂ := by
    -- a new request is not among the requests that were drawn
    have hnew : ∀ l u, flight l = some u → u.sent? = some req → g.sent? ≠ some req := by
      intro l u hu hureq hgreq
      rcases hsent with hnone | hnext
      · rw [hnone] at hgreq
        cases hgreq
      · exact hfresh req (hnext.symm.trans hgreq) (h.drawn l u req hu hureq)
    rcases update_some_iff.mp hj with ⟨hji, rfl⟩ | ⟨-, hj⟩
    · rcases update_some_iff.mp hk with ⟨hki, -⟩ | ⟨-, hk⟩
      · exact hji.trans hki.symm
      · exact absurd h₁ (hnew k u₂ hk h₂)
    · rcases update_some_iff.mp hk with ⟨-, rfl⟩ | ⟨-, hk⟩
      · exact absurd h₂ (hnew j u₁ hj h₁)
      · exact h.distinct j k u₁ u₂ req hj hk h₁ h₂
  owned req key hlookup := by
    by_cases hown : f.sent? = some req
    · rw [hpiece.released req hown] at hlookup
      cases hlookup
    -- an entry that was there before belongs to another turn
    have hold : r.chatSendCanonical.lookup req = some key →
        ∃ j u, Function.update flight i (some g) j = some u ∧ u.sent? = some req ∧
          u.canonical? = some key := by
      intro hbefore
      obtain ⟨j, u, hu, hureq, hukey⟩ := h.owned req key hbefore
      have hne : j ≠ i := by
        rintro rfl
        rw [hf, Option.some.injEq] at hu
        exact hown (hu ▸ hureq)
      exact ⟨j, u, (Function.update_of_ne hne _ _).trans hu, hureq, hukey⟩
    by_cases hnext : next = some req
    · rcases hpiece.requested req hnext hown with hsame | ⟨a, canonical, hata, hareq, hakey, hset⟩
      · exact hold (hsame.symm.trans hlookup)
      · rw [hset, Option.some.injEq] at hlookup
        have hg := hat a hata
        exact ⟨i, g, Function.update_self .., hg.1.trans hareq,
          hlookup ▸ hg.2.trans hakey⟩
    · rw [hpiece.keeps.chatSendCanonical req (not_or.mpr ⟨hown, hnext⟩)] at hlookup
      exact hold hlookup

theorem Sent.of_eq (h : Sent flight r) (hdrawn : r'.drawn = r.drawn)
    (hsent : r'.chatSendCanonical = r.chatSendCanonical) : Sent flight r' where
  drawn i f req hf hreq := hdrawn ▸ h.drawn i f req hf hreq
  distinct := h.distinct
  owned req key hlookup := h.owned req key (hsent ▸ hlookup)

/-- A turn in flight without a request enters or leaves. -/
theorem Sent.start (h : Sent flight r) (hidle : flight i = none) (hsent : f.sent? = none) :
    Sent (Function.update flight i (some f)) r where
  drawn j g req hg hreq := by
    rcases update_some_iff.mp hg with ⟨-, rfl⟩ | ⟨-, hg⟩
    · rw [hsent] at hreq
      cases hreq
    · exact h.drawn j g req hg hreq
  distinct j k g₁ g₂ req hj hk h₁ h₂ := by
    rcases update_some_iff.mp hj with ⟨-, rfl⟩ | ⟨-, hj⟩
    · rw [hsent] at h₁
      cases h₁
    · rcases update_some_iff.mp hk with ⟨-, rfl⟩ | ⟨-, hk⟩
      · rw [hsent] at h₂
        cases h₂
      · exact h.distinct j k g₁ g₂ req hj hk h₁ h₂
  owned req key hlookup := by
    obtain ⟨j, g, hg, hreq, hkey⟩ := h.owned req key hlookup
    have hne : j ≠ i := by
      rintro rfl
      rw [hidle] at hg
      cases hg
    exact ⟨j, g, (Function.update_of_ne hne _ _).trans hg, hreq, hkey⟩

theorem Sent.stop (h : Sent flight r) (hf : flight i = some f) (hsent : f.sent? = none) :
    Sent (Function.update flight i none) r where
  drawn j g req hg := h.drawn j g req (update_none_iff.mp hg).2
  distinct j k g₁ g₂ req hj hk :=
    h.distinct j k g₁ g₂ req (update_none_iff.mp hj).2 (update_none_iff.mp hk).2
  owned req key hlookup := by
    obtain ⟨j, g, hg, hreq, hkey⟩ := h.owned req key hlookup
    have hne : j ≠ i := by
      rintro rfl
      rw [hf, Option.some.injEq] at hg
      rw [← hg, hsent] at hreq
      cases hreq
    exact ⟨j, g, (Function.update_of_ne hne _ _).trans hg, hreq, hkey⟩

/-! ## Frames -/

theorem Kept.refl (f : Flight) (r : Relay) : Kept f r r :=
  ⟨fun _ _ => rfl, fun _ _ _ => rfl, fun _ _ _ => rfl, rfl, fun _ _ => rfl⟩

/-- What leaves the five dictionaries alone keeps every entry. -/
theorem Kept.of_eq (f : Flight) (hrun : r'.activeRunId = r.activeRunId)
    (hqueues : r'.deltaQueues = r.deltaQueues) (hreplies : r'.replyEvents = r.replyEvents)
    (hcanonical : r'.canonicalByRaw = r.canonicalByRaw)
    (hsent : r'.chatSendCanonical = r.chatSendCanonical) : Kept f r r' where
  activeRunId _ _ := by rw [hrun]
  deltaQueue _ _ _ := by rw [hqueues]
  replyEvent _ _ _ := by rw [hreplies]
  canonicalByRaw := by rw [hcanonical]
  chatSendCanonical _ _ := by rw [hsent]

/-- A piece of a turn with other keys and requests. -/
theorem Kept.of_piece {t : Turn} {held installed sent next : Option PyStr}
    {result : Relay × Halt} (hpiece : Relay.Piece t held installed sent next r result)
    (hraw : f.sessionKey ≠ t.sessionKey)
    (hkeys : ∀ key, f.canonical? = some key → held ≠ some key ∧ installed ≠ some key)
    (hreqs : ∀ req, f.sent? = some req → sent ≠ some req ∧ next ≠ some req) :
    Kept f r result.1 where
  activeRunId key hkey := hpiece.keeps.activeRunId key (not_or.mpr (hkeys key hkey))
  deltaQueue _ key hkey := hpiece.keeps.deltaQueues key fun h => not_or.mpr (hkeys key hkey) h.2
  replyEvent _ key hkey := hpiece.keeps.replyEvents key fun h => not_or.mpr (hkeys key hkey) h.2
  canonicalByRaw := hpiece.keeps.canonicalByRaw _ fun h => hraw h.1
  chatSendCanonical req hreq := hpiece.keeps.chatSendCanonical req (not_or.mpr (hreqs req hreq))

theorem Kept.halt [CaseMap] {w : World} {j : Nat} {t : Turn} {lock : Nat} {now : Int}
    {result : Relay × Halt} (h : Kept f r result.1) :
    Kept f r (w.halt j t lock now result).relay := by
  obtain ⟨r', a | outcome⟩ := result
  · exact h
  · exact ⟨h.activeRunId, h.deltaQueue, h.replyEvent, h.canonicalByRaw, h.chatSendCanonical⟩

end

/-! ## Every run -/

section
variable [Runtime] [CaseMap]

/-- The steps that keep turns apart.  A turn enters only while no turn in flight holds a second lock
object for its raw key, and a turn installs its state only under a key that is vacant. -/
def KeepsTurnsApart (w : World) : Label → Prop
  | .turn i (.enter _ _ _) => ∀ t lock, w.turns i = some t → t.phase = .locking lock →
      SameLock w.flight t.sessionKey lock ∧
        ∀ key, w.relay.openInstalls t = some key → Vacant w i t key
  | .turn i (.resume signal _) => ∀ t lock a key, w.turns i = some t →
      t.phase = .running lock a → w.relay.installs t a signal = some key → Vacant w i t key
  | _ => True

/-- The invariant of the runs whose steps keep turns apart. -/
structure Apart (w : World) : Prop where
  kinded : w.Kinded
  exclusive : Exclusive w.flight w.relay
  parted : Parted w.flight w.closing?
  sent : Sent w.flight w.relay

omit [Runtime] [CaseMap] in
theorem apart_init : Apart World.init where
  kinded := fun _ _ h => by cases h
  exclusive := ⟨fun _ _ h => (by cases h), fun _ _ _ _ h => (by cases h), fun _ _ _ _ h => (by cases h)⟩
  parted := ⟨fun _ _ _ _ _ h => (by cases h), fun _ _ _ _ h => (by cases h)⟩
  sent := ⟨fun _ _ _ h => (by cases h), fun _ _ _ _ _ h => (by cases h), fun _ _ h => (by cases h)⟩

variable {w w' : World} {label : Label}

omit [Runtime] in
theorem Parted.halt {flight : Flights} {i : Nat} {t : Turn} {lock : Nat} {now : Int} {f : Flight}
    {held installed sent next : Option PyStr} {r : Relay} {result : Relay × Halt}
    (h : Parted flight w.closing?) (hf : flight i = some f) (hstream : f.stream = t.stream)
    (hpiece : Relay.Piece t held installed sent next r result)
    (hcanonical : installed.or held = installed.or f.canonical?)
    (hvacant : ∀ key, installed = some key → (∀ j u, j ≠ i → flight j = some u →
      u.canonical? ≠ some key) ∧ (t.stream = true → ∀ k, w.closing? k ≠ some key))
    (hflight : ∀ g, Function.update w.flight i g = Function.update flight i g) :
    Parted (w.halt i t lock now result).flight w.closing? := by
  obtain ⟨r', a | outcome⟩ := result
  · rw [World.halt_at_flight, hflight]
    apply h.update (hpiece.holds.1.trans hcanonical)
    intro key hkey
    cases hinstalled : installed with
    | none =>
      rw [hinstalled, Option.none_or] at hkey
      exact hstream ▸ h.vacant hf hkey
    | some c =>
      rw [hinstalled, Option.some_or] at hkey
      exact hvacant key (hinstalled.trans hkey)
  · rw [World.halt_out_flight, hflight]
    exact h.stop

omit [Runtime] in
theorem Sent.halt {flight : Flights} {i : Nat} {t : Turn} {lock : Nat} {now : Int} {f : Flight}
    {held installed next : Option PyStr} {r : Relay} {result : Relay × Halt} (h : Sent flight r)
    (hf : flight i = some f) (hpiece : Relay.Piece t held installed f.sent? next r result)
    (hfresh : ∀ req, next = some req → req ∉ r.drawn)
    (hflight : ∀ g, Function.update w.flight i g = Function.update flight i g) :
    Sent (w.halt i t lock now result).flight (w.halt i t lock now result).relay := by
  obtain ⟨r', a | outcome⟩ := result
  · rw [World.halt_at_flight, hflight]
    exact h.piece hf hpiece hfresh (fun req hreq => hpiece.drawn a req rfl hreq) hpiece.holds.2.1
      fun b hb => by
        cases hb
        exact ⟨rfl, rfl⟩
  · rw [World.halt_out_flight, hflight]
    have hended := h.piece (g := { f with sent? := none }) hf hpiece hfresh
      (fun req hreq => by cases hreq) (.inl rfl) (fun a hat => by cases hat)
    have hleft := hended.stop (Function.update_self ..) rfl
    rw [Function.update_idem] at hleft
    exact hleft.of_eq rfl rfl

/-- A turn on its way into its body, seen as a turn in flight that has not learned its key. -/
def entering (t : Turn) (lock : Nat) : Flight :=
  ⟨t.stream, t.sessionKey, t.principal, lock, none, none⟩

theorem Parted.moved (h : Parted w.flight w.closing?) (hkinded : w.Kinded)
    (hmoved : World.Moved w label w') (hallowed : KeepsTurnsApart w label) :
    Parted w'.flight w'.closing? := by
  cases hmoved with
  | called t absent idle =>
    rw [World.flight_put_idle (by rw [World.flight, absent]; rfl) (by rw [Turn.flight, idle]),
      World.closing_put_idle (by rw [World.closing?, absent]; rfl) (by rw [Turn.closing?, idle])]
    exact h
  | @ended i t action outcome turn idle =>
    have hopen : ∀ canonical, t.phase ≠ .closing canonical := by
      intro canonical hclosing
      rcases idle with hphase | ⟨lock, hphase⟩
      · rw [hphase] at hclosing
        cases hclosing
      · rw [hphase] at hclosing
        cases hclosing
    rw [World.flight_put_idle (World.flight_of_idle turn idle) rfl,
      World.closing_put_idle (World.closing_of_phase turn hopen) rfl]
    exact h
  | contended turn idle =>
    rw [World.flight_put_idle (World.flight_of_idle turn (.inl idle)) rfl,
      World.closing_put_idle (World.closing_of_phase turn (by simp [idle])) rfl]
    exact h
  -- a turn enters without a key and may install its state in the same step
  | @entered i t lock req expired now turn waiting free fresh =>
    rw [World.halt_closing _ _ _ (World.closing_of_phase turn (by simp [waiting]))]
    have hstart : Parted (Function.update w.flight i (some (entering t lock))) w.closing? :=
      h.update rfl fun key hkey => by cases hkey
    exact hstart.halt (Function.update_self ..) rfl (Relay.openTurn_piece _ _ _ _) rfl
      (fun key hinstalled => by
        have hvacant := (hallowed t lock turn waiting).2 key hinstalled
        refine ⟨fun j u hne hu => ?_, hvacant.2⟩
        rw [Function.update_of_ne hne] at hu
        exact hvacant.1 j u hne hu)
      fun g => (Function.update_idem ..).symm
  | @resumed i t lock a signal now result turn running fresh piece =>
    rw [World.halt_closing _ _ _ (World.closing_of_phase turn (by simp [running]))]
    exact h.halt (World.flight_of_running turn running) rfl
      (Relay.resume_piece (hkinded.running turn running) piece) rfl
      (fun key hinstalled => hallowed t lock a key turn running hinstalled) fun _ => rfl
  -- an abandoned stream keeps its key until it is closed
  | abandoned turn running =>
    rw [World.flight_put, World.closing_put]
    exact h.abandon (World.flight_of_running turn running) rfl
  | finalised turn closing =>
    rw [World.flight_put_idle (by rw [World.flight_of_turn turn, Turn.flight, closing]) rfl,
      World.closing_put]
    exact h.finalise
  | answered handled => exact h
  | shown handled => exact h
  | reset => exact h

theorem Sent.moved (h : Sent w.flight w.relay) (hkinded : w.Kinded)
    (hmoved : World.Moved w label w') : Sent w'.flight w'.relay := by
  cases hmoved with
  | called t absent idle =>
    rw [World.flight_put_idle (by rw [World.flight, absent]; rfl) (by rw [Turn.flight, idle])]
    exact h
  | ended outcome turn idle =>
    rw [World.flight_put_idle (World.flight_of_idle turn idle) rfl]
    exact h
  | @contended i t turn idle =>
    rw [World.flight_put_idle (World.flight_of_idle turn (.inl idle)) rfl]
    show Sent w.flight (w.relay.turnLock t.sessionKey).1
    unfold Relay.turnLock
    split
    · exact h
    · exact h.of_eq rfl rfl
  | @entered i t lock req expired now turn waiting free fresh =>
    have hstart : Sent (Function.update w.flight i (some (entering t lock)))
        (w.relay.enterTurn lock t.sessionKey t.principal) :=
      (h.start (World.flight_of_idle turn (.inr ⟨lock, waiting⟩)) rfl).of_eq rfl rfl
    exact hstart.halt (Function.update_self ..) (Relay.openTurn_piece _ _ _ _)
      (fun other hother => by
        rw [Option.some.injEq] at hother
        exact hother ▸ fresh)
      fun g => (Function.update_idem ..).symm
  | resumed turn running fresh piece =>
    exact h.halt (World.flight_of_running turn running)
      (Relay.resume_piece (hkinded.running turn running) piece) fresh fun _ => rfl
  | abandoned turn running =>
    rw [World.flight_put]
    exact (h.stop (World.flight_of_running turn running) rfl).of_eq rfl rfl
  | finalised turn closing =>
    rw [World.flight_put_idle (by rw [World.flight_of_turn turn, Turn.flight, closing]) rfl]
    exact h.of_eq rfl rfl
  -- frames of the gateway name requests but draw none
  | answered handled =>
    have hanswers := Relay.handleResponse_answers handled
    exact h.of_eq hanswers.drawn (congrArg Registry.chatSendCanonical hanswers.registry :)
  | shown handled =>
    have hshows := Relay.handleEvent_showsOnly handled
    exact h.of_eq hshows.drawn (congrArg Registry.chatSendCanonical hshows.registry :)
  | reset =>
    exact ⟨h.drawn, h.distinct, fun req key hlookup => by
      rw [show w.relay.reset.chatSendCanonical = ∅ from rfl, AList.lookup_empty] at hlookup
      cases hlookup⟩

/-- One step keeps the turns apart. -/
theorem Apart.step (h : Apart w) (hallowed : KeepsTurnsApart w label)
    (hstep : w.step label = some w') : Apart w' where
  kinded := h.kinded.moved (World.step_moved hstep)
  exclusive := h.exclusive.moved h.kinded (World.step_moved hstep)
    (fun i req expired now t lock hlabel turn waiting => by
      subst hlabel
      exact (hallowed t lock turn waiting).1)
  parted := h.parted.moved h.kinded (World.step_moved hstep) hallowed
  sent := h.sent.moved h.kinded (World.step_moved hstep)

/-- The entries of a turn in flight stay in every step of another turn. -/
theorem Apart.kept (h : Apart w) {i : Nat} {f : Flight} (hf : w.flight i = some f)
    (hother : label.OfAnother i f) (hallowed : KeepsTurnsApart w label)
    (hstep : w.step label = some w') : Kept f w.relay w'.relay := by
  cases World.step_moved hstep with
  | called t absent idle => exact .refl f _
  | ended outcome turn idle => exact .refl f _
  | @contended j t turn idle =>
    show Kept f w.relay (w.relay.turnLock t.sessionKey).1
    unfold Relay.turnLock
    split
    · exact .refl f _
    · exact .of_eq f rfl rfl rfl rfl rfl
  | @entered j t lock req expired now turn waiting free fresh =>
    obtain ⟨hsame, hvacant⟩ := hallowed t lock turn waiting
    have hkept : Kept f (w.relay.enterTurn lock t.sessionKey t.principal)
        ((w.relay.enterTurn lock t.sessionKey t.principal).openTurn t req expired).1 :=
      .of_piece (Relay.openTurn_piece _ _ _ _)
        (h.exclusive.not_key (f := entering t lock) free hsame hf)
        (fun key hkey => ⟨fun hnone => (by cases hnone),
          fun hinstalled => (hvacant key hinstalled).1 i f (Ne.symm hother) hf hkey⟩)
        (fun other hreq => ⟨fun hnone => (by cases hnone), fun hnext => by
          rw [Option.some.injEq] at hnext
          exact fresh (hnext ▸ h.sent.drawn i f other hf hreq)⟩)
    have hentered : Kept f w.relay
        ((w.relay.enterTurn lock t.sessionKey t.principal).openTurn t req expired).1 :=
      ⟨hkept.activeRunId, hkept.deltaQueue, hkept.replyEvent, hkept.canonicalByRaw,
        hkept.chatSendCanonical⟩
    exact hentered.halt
  | @resumed j t lock a signal now result turn running fresh piece =>
    have hj := World.flight_of_running turn running
    have hkept : Kept f w.relay result.1 :=
      .of_piece (Relay.resume_piece (h.kinded.running turn running) piece)
        (fun hraw => hother (h.exclusive.keys j i _ f hj hf hraw.symm))
        (fun key hkey => ⟨fun hheld => hother (h.parted.canonical j i _ f key hj hf hheld hkey),
          fun hinstalled =>
            (hallowed t lock a key turn running hinstalled).1 i f (Ne.symm hother) hf hkey⟩)
        (fun req hreq => ⟨fun hsent => hother (h.sent.distinct j i _ f req hj hf hsent hreq),
          fun hnext => fresh req hnext (h.sent.drawn i f req hf hreq)⟩)
    exact hkept.halt
  | abandoned turn running => exact .of_eq f rfl rfl rfl rfl rfl
  | @finalised j t canonical turn closing =>
    have hkeeps : Relay.Keeps true (fun _ => False) (fun key => key = canonical) (fun _ => False)
        w.relay (w.relay.closeStream canonical) := Relay.closeStream_keeps _ rfl
    have hj : w.closing? j = some canonical := by
      rw [World.closing_of_turn turn, Turn.closing?, closing]
    exact ⟨fun _ _ => rfl, fun hstream key hkey => hkeeps.deltaQueues key fun hh =>
        h.parted.closing i j f canonical hf hstream hj (hkey.trans (congrArg some hh.2)),
      fun _ _ _ => rfl, rfl, fun _ _ => rfl⟩
  | @answered msg r handled =>
    have hanswers := Relay.handleResponse_answers handled
    have hqueues : r.deltaQueues = w.relay.deltaQueues :=
      (congrArg Registry.deltaQueues hanswers.registry :)
    have hreplies : r.replyEvents = w.relay.replyEvents :=
      (congrArg Registry.replyEvents hanswers.registry :)
    have hcanonical : r.canonicalByRaw = w.relay.canonicalByRaw :=
      (congrArg Registry.canonicalByRaw hanswers.registry :)
    have hsent : r.chatSendCanonical = w.relay.chatSendCanonical :=
      (congrArg Registry.chatSendCanonical hanswers.registry :)
    have hkey : ∀ key, f.canonical? = some key → w.relay.answeredKey msg ≠ some key := by
      intro key hkey hanswered
      unfold Relay.answeredKey at hanswered
      split at hanswered
      · rename_i req hid
        obtain ⟨j, g, hg, hreq, hgkey⟩ := h.sent.owned req key hanswered
        -- the request is that of the one turn that holds the key
        obtain rfl := h.parted.canonical j i g f key hg hf hgkey hkey
        rw [hf, Option.some.injEq] at hg
        exact hother req (hg ▸ hreq) hid
      · cases hanswered
    exact ⟨fun key hk => hanswers.activeRunId key (hkey key hk), fun _ _ _ => by rw [hqueues],
      fun _ _ _ => by rw [hreplies], by rw [hcanonical], fun _ _ => by rw [hsent]⟩
  | shown handled =>
    have hregistry := (Relay.handleEvent_showsOnly handled).registry
    exact .of_eq f (congrArg Registry.activeRunId hregistry :)
      (congrArg Registry.deltaQueues hregistry :) (congrArg Registry.replyEvents hregistry :)
      (congrArg Registry.canonicalByRaw hregistry :)
      (congrArg Registry.chatSendCanonical hregistry :)
  | reset => exact absurd hother (fun hh => hh)

/-- Turns are serialised, and no step of another turn touches what a turn in flight owns. -/
structure Isolated (w : World) (ok : World → Label → Prop) : Prop where
  serialised : Serialised w
  untouched : ∀ i f label w', w.flight i = some f → label.OfAnother i f → ok w label →
    w.step label = some w' → Kept f w.relay w'.relay

/-- In every run whose steps keep turns apart, turns of one session are serialised and no turn
installs, overwrites or removes what another turn in flight owns. -/
theorem turns_isolated (h : World.Reachable KeepsTurnsApart w) : Isolated w KeepsTurnsApart := by
  have hapart : Apart w := h.invariant apart_init fun _ _ _ hw hallowed hstep =>
    hw.step hallowed hstep
  exact
    { serialised := ⟨hapart.exclusive.keys, hapart.parted.canonical⟩
      untouched := fun i f label w' hf hother hallowed hstep =>
        hapart.kept hf hother hallowed hstep }

end

/-! ## One run -/

/-- The turn of an agent that the gateway takes for the default one. -/
def mainAuthz : TurnAuthz := ⟨some ⟨py "u2", false⟩, .user, py "main", []⟩

section
open Sample

/-- The steps of the two turns keep them apart. -/
theorem bothSent_allowed : World.init.Allowed KeepsTurnsApart PairSample.bothSent := by
  refine World.allowed_of_prefixes fun n w label hlabel hrun => ?_
  obtain rfl := PairSample.bothAt_of_run hrun
  match n, hlabel with
  | 2, hlabel =>
    cases hlabel
    intro t lock turn waiting
    cases turn
    refine ⟨fun j g hg => ?_, fun key hkey => by cases hkey⟩
    rcases PairSample.bothAt_flight hg with rfl | rfl <;> cases hg
  | 4, hlabel =>
    cases hlabel
    intro t lock a key turn running hkey
    cases turn
    cases running
    cases hkey
  | 6, hlabel =>
    cases hlabel
    intro t lock a key turn running hkey
    refine ⟨fun j g hj hg => ?_, fun _ k hk => ?_⟩
    · rcases PairSample.bothAt_flight hg with rfl | rfl
      · exact absurd rfl hj
      · cases hg
    · rcases PairSample.bothAt_closing hk with rfl | rfl <;> cases hk
  | 9, hlabel =>
    cases hlabel
    intro t lock turn waiting
    cases turn
    -- the turn in flight has another raw key
    have hfirst : ((PairSample.bothAt 9).flight 0).map (·.sessionKey) = some (py "ha-assist:c") := rfl
    refine ⟨fun j g hg hsame => ?_, fun key hkey => by cases hkey⟩
    rcases PairSample.bothAt_flight hg with rfl | rfl
    · rw [hg, Option.map_some, hsame] at hfirst
      exact absurd hfirst (by decide)
    · cases hg
  | 11, hlabel =>
    cases hlabel
    intro t lock a key turn running hkey
    cases turn
    cases running
    cases hkey
  | 13, hlabel =>
    cases hlabel
    intro t lock a key turn running hkey
    cases turn
    cases running
    -- and another canonical key
    have hfirst : ((PairSample.bothAt 13).flight 0).bind (·.canonical?) =
      some (py "agent:main:ha-assist:c") := rfl
    have hsecond : some key = some (py "agent:main:ha-assist:d") := hkey.symm.trans rfl
    refine ⟨fun j g hj hg => ?_, fun _ k hk => ?_⟩
    · rcases PairSample.bothAt_flight hg with rfl | rfl
      · rw [hg, Option.bind_some] at hfirst
        rw [hfirst, hsecond]
        decide
      · exact absurd rfl hj
    · rcases PairSample.bothAt_closing hk with rfl | rfl <;> cases hk
  | 0, hlabel | 1, hlabel | 3, hlabel | 5, hlabel | 7, hlabel | 8, hlabel | 10, hlabel | 12, hlabel =>
    cases hlabel
    trivial
  | n + 14, hlabel => cases hlabel

/-- Two turns in flight with their own canonical keys are isolated. -/
theorem turns_isolated_pair : ∃ w f g, World.init.run PairSample.bothSent = some w ∧
    w.flight 0 = some f ∧ f.canonical? = some (py "agent:main:ha-assist:c") ∧
    w.flight 1 = some g ∧ g.canonical? = some (py "agent:main:ha-assist:d") ∧
    Isolated w KeepsTurnsApart :=
  ⟨PairSample.bothAt 14, _, _, rfl, rfl, rfl, rfl, rfl,
    turns_isolated (World.Reachable.run .init bothSent_allowed rfl)⟩

/-- Two turns with different raw keys and one canonical key, before the second installs its state. -/
def oneSession : World :=
  (World.init.run (sendLabels 0 (py "c") adminAuthz (py "agent:main:ha-assist:c")
      (py "r0", py "r1", py "r2") ++
    (sendLabels 1 (py "c") mainAuthz (py "agent:main:ha-assist:c")
      (py "r3", py "r4", py "r5")).dropLast)).getD World.init

/-- The second turn has installed its state. -/
def sessionTaken : World :=
  (oneSession.step (.turn 1 (.resume (.ready (py "r5") false) 0))).getD World.init

/-- Two raw keys of one gateway session are not serialised: the second turn takes the queue and the
pending run of the first. -/
theorem one_session_shared : ∃ w w' f,
    World.init.run (sendLabels 0 (py "c") adminAuthz (py "agent:main:ha-assist:c")
        (py "r0", py "r1", py "r2") ++
      (sendLabels 1 (py "c") mainAuthz (py "agent:main:ha-assist:c")
        (py "r3", py "r4", py "r5")).dropLast) = some w ∧
    w.step (.turn 1 (.resume (.ready (py "r5") false) 0)) = some w' ∧
    w.flight 0 = some f ∧ ¬ Kept f w.relay w'.relay ∧ ¬ Serialised w' := by
  have hbefore : oneSession.relay.deltaQueues.lookup (py "agent:main:ha-assist:c") = some 3 := rfl
  have hafter : sessionTaken.relay.deltaQueues.lookup (py "agent:main:ha-assist:c") = some 8 := rfl
  refine ⟨oneSession, sessionTaken, _, rfl, rfl, rfl, fun h => ?_, fun h => ?_⟩
  · have hkept := h.deltaQueue rfl (py "agent:main:ha-assist:c") rfl
    rw [hbefore, hafter] at hkept
    cases hkept
  · exact absurd (h.canonical 0 1 _ _ (py "agent:main:ha-assist:c") rfl rfl rfl rfl) (by decide)

end

end HassNode.ChatRelay
