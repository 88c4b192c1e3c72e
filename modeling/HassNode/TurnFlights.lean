import HassNode.TurnFrame

/-!
# Turns in flight

What the registry has to agree with is not where a turn is suspended but which lock, keys and
request it holds.  A `Flight` is that much of a turn between entering and leaving `_active_turn`,
and `Moved` says once what one step of a relay does to its turns and dictionaries.
-/

namespace HassNode.ChatRelay

open Py

/-- A turn in flight, without the place where it is suspended. -/
structure Flight where
  stream : Bool
  sessionKey : PyStr
  principal : Caller
  lock : Nat
  canonical? : Option PyStr
  sent? : Option PyStr

namespace Turn

def flight (t : Turn) : Option Flight :=
  match t.phase with
  | .running lock a =>
    some ⟨t.stream, t.sessionKey, t.principal, lock, a.canonical?, a.sent?⟩
  | _ => none

/-- The canonical key of an abandoned stream that has not been closed. -/
def closing? (t : Turn) : Option PyStr :=
  match t.phase with
  | .closing canonical => some canonical
  | _ => none

/-- A suspended turn waits for what its kind waits for, and only a stream is abandoned. -/
def WellKinded (t : Turn) : Prop :=
  match t.phase with
  | .running _ a => a.Suits t.stream
  | .closing _ => t.stream = true
  | _ => True

end Turn

namespace World

def flight (w : World) (i : Nat) : Option Flight := (w.turns i).bind Turn.flight

def closing? (w : World) (i : Nat) : Option PyStr := (w.turns i).bind Turn.closing?

theorem flight_put (w : World) (i : Nat) (t : Turn) (r : Relay) :
    (w.put i t r).flight = Function.update w.flight i t.flight := by
  funext j
  by_cases h : j = i
  · subst h
    simp [flight, put]
  · simp [flight, put, h]

theorem closing_put (w : World) (i : Nat) (t : Turn) (r : Relay) :
    (w.put i t r).closing? = Function.update w.closing? i t.closing? := by
  funext j
  by_cases h : j = i
  · subst h
    simp [closing?, put]
  · simp [closing?, put, h]

theorem turns_put (w : World) (i j : Nat) (t : Turn) (r : Relay) :
    (w.put i t r).turns j = if j = i then some t else w.turns j := by
  unfold put
  by_cases h : j = i
  · subst h
    simp
  · simp [h]

theorem flight_of_turn {w : World} {i : Nat} {t : Turn} (h : w.turns i = some t) :
    w.flight i = t.flight := by
  simp [flight, h]

theorem closing_of_turn {w : World} {i : Nat} {t : Turn} (h : w.turns i = some t) :
    w.closing? i = t.closing? := by
  simp [closing?, h]

section
variable [Runtime] [CaseMap]

/-! ## What a step does -/

/-- The effect of one step, case by case. -/
inductive Moved (w : World) : Label → World → Prop where
  | called {i : Nat} {stream useToolFrames : Bool} {conversationId : PyStr}
      {authz : Option TurnAuthz} (t : Turn) (absent : w.turns i = none) (idle : t.phase = .owner) :
      Moved w (.turn i (.call stream conversationId authz useToolFrames)) (w.put i t w.relay)
  | ended {i : Nat} {t : Turn} {action : Action} (outcome : Outcome) (turn : w.turns i = some t)
      (idle : t.phase = .owner ∨ ∃ lock, t.phase = .locking lock) :
      Moved w (.turn i action) (w.put i { t with phase := .ended outcome } w.relay)
  | contended {i : Nat} {t : Turn} (turn : w.turns i = some t) (idle : t.phase = .owner) :
      Moved w (.turn i .contend)
        (w.put i { t with phase := .locking (w.relay.turnLock t.sessionKey).2 }
          (w.relay.turnLock t.sessionKey).1)
  | entered {i : Nat} {t : Turn} {lock : Nat} {req : PyStr} {expired : Bool} {now : Int}
      (turn : w.turns i = some t) (waiting : t.phase = .locking lock)
      (free : w.relay.locked lock = false) (fresh : req ∉ w.relay.drawn) :
      Moved w (.turn i (.enter req expired now)) (w.halt i t lock now
        ((w.relay.enterTurn lock t.sessionKey t.principal).openTurn t req expired))
  | resumed {i : Nat} {t : Turn} {lock : Nat} {a : Await} {signal : Signal} {now : Int}
      {result : Relay × Halt} (turn : w.turns i = some t) (running : t.phase = .running lock a)
      (fresh : ∀ req, signal.req? = some req → req ∉ w.relay.drawn)
      (piece : w.relay.resume t a signal = some result) :
      Moved w (.turn i (.resume signal now)) (w.halt i t lock now result)
  | abandoned {i : Nat} {t : Turn} {lock consumer : Nat} {canonical : PyStr} {loop : Loop}
      {output : Output} {now : Int} (turn : w.turns i = some t)
      (running : t.phase = .running lock (.yield canonical consumer loop output)) :
      Moved w (.turn i (.abandon now)) (w.put i { t with phase := .closing canonical }
        (w.relay.leaveTurn lock t.sessionKey now))
  | finalised {i : Nat} {t : Turn} {canonical : PyStr} (turn : w.turns i = some t)
      (closing : t.phase = .closing canonical) :
      Moved w (.turn i .finalise)
        (w.put i { t with phase := .ended .cancelled } (w.relay.closeStream canonical))
  | answered {msg : Dict} {r : Relay} (handled : w.relay.handleResponse msg = some r) :
      Moved w (.response msg) { w with relay := r }
  | shown {msg : Dict} {r : Relay} (handled : w.relay.handleEvent msg = some r) :
      Moved w (.event msg) { w with relay := r }
  | reset : Moved w .reset { w with relay := w.relay.reset }

omit [Runtime] [CaseMap] in
theorem fresh_iff {signal : Signal} {drawn : List PyStr} :
    signal.fresh drawn = true ↔ ∀ req, signal.req? = some req → req ∉ drawn := by
  cases signal with
  | ready req expired => simp [Signal.fresh, Signal.req?]
  | timeout expired => simp [Signal.fresh, Signal.req?]
  | sendFailed message => simp [Signal.fresh, Signal.req?]
  | cancel sending => simp [Signal.fresh, Signal.req?]

theorem act_moved {w w' : World} {i : Nat} {t : Turn} {action : Action}
    (turn : w.turns i = some t) (h : w.act i t action = some w') : Moved w (.turn i action) w' := by
  unfold act at h
  split at h
  · rename_i outcome hphase
    cases h
    exact .ended outcome turn (.inl hphase)
  · rename_i hphase
    cases h
    exact .contended turn hphase
  · rename_i lock hphase
    cases h
    exact .ended .cancelled turn (.inr ⟨lock, hphase⟩)
  · rename_i lock req expired now hphase
    split at h
    · cases h
    · rename_i hguard
      rw [not_or, Bool.not_eq_true] at hguard
      cases h
      exact .entered turn hphase hguard.1 hguard.2
  · rename_i lock a signal now hphase
    split at h
    · rename_i hfresh
      rw [Option.map_eq_some_iff] at h
      obtain ⟨result, hpiece, rfl⟩ := h
      exact .resumed turn hphase (fresh_iff.mp hfresh) hpiece
    · cases h
  · rename_i lock canonical consumer loop output now hphase
    cases h
    exact .abandoned turn hphase
  · rename_i canonical hphase
    cases h
    exact .finalised turn hphase
  · cases h

theorem step_moved {w w' : World} {label : Label} (h : w.step label = some w') :
    Moved w label w' := by
  unfold step at h
  split at h
  · split at h
    · cases h
    · rename_i habsent
      cases h
      exact .called _ habsent rfl
  · rw [Option.bind_eq_some_iff] at h
    obtain ⟨t, turn, hact⟩ := h
    exact act_moved turn hact
  · rw [Option.map_eq_some_iff] at h
    obtain ⟨r, handled, rfl⟩ := h
    exact .answered handled
  · rw [Option.map_eq_some_iff] at h
    obtain ⟨r, handled, rfl⟩ := h
    exact .shown handled
  · cases h
    exact .reset

end

end World

/-! ## Exclusion -/

abbrev Flights := Nat → Option Flight

theorem update_some_iff {α : Type} {table : Nat → Option α} {i j : Nat} {f g : α} :
    Function.update table i (some f) j = some g ↔ (j = i ∧ f = g) ∨ (j ≠ i ∧ table j = some g) := by
  by_cases h : j = i
  · subst h
    simp
  · simp [h]

theorem update_none_iff {α : Type} {table : Nat → Option α} {i j : Nat} {g : α} :
    Function.update table i none j = some g ↔ j ≠ i ∧ table j = some g := by
  by_cases h : j = i
  · subst h
    simp
  · simp [h]

/-- Turns in flight hold their own locks and have different raw session keys. -/
structure Exclusive (flight : Flights) (r : Relay) : Prop where
  locked : ∀ i f, flight i = some f → r.locked f.lock = true
  locks : ∀ i j f g, flight i = some f → flight j = some g → f.lock = g.lock → i = j
  keys : ∀ i j f g, flight i = some f → flight j = some g → f.sessionKey = g.sessionKey → i = j

/-- No turn in flight has the session key under another lock object.  Without a `reset` there is one
lock object for each session key. -/
def SameLock (flight : Flights) (sessionKey : PyStr) (lock : Nat) : Prop :=
  ∀ j g, flight j = some g → g.sessionKey = sessionKey → g.lock = lock

section
variable {flight : Flights} {r r' : Relay} {i : Nat} {f g : Flight}

/-- A lock that is free keeps every other turn with its session key out. -/
theorem Exclusive.not_key (h : Exclusive flight r) (hfree : r.locked f.lock = false)
    (hsame : SameLock flight f.sessionKey f.lock) {j : Nat} (hj : flight j = some g) :
    g.sessionKey ≠ f.sessionKey := by
  intro hkey
  have hlocked := h.locked j g hj
  rw [hsame j g hj hkey, hfree] at hlocked
  cases hlocked

theorem Exclusive.start (h : Exclusive flight r) (hfree : r.locked f.lock = false)
    (hsame : SameLock flight f.sessionKey f.lock)
    (hlocked : r'.locked = Function.update r.locked f.lock true) :
    Exclusive (Function.update flight i (some f)) r' where
  locked j g hj := by
    rw [hlocked]
    rcases update_some_iff.mp hj with ⟨-, rfl⟩ | ⟨-, hj⟩
    · exact Function.update_self ..
    · by_cases hlock : g.lock = f.lock
      · rw [hlock]
        exact Function.update_self ..
      · rw [Function.update_of_ne hlock]
        exact h.locked j g hj
  locks j k g₁ g₂ hj hk heq := by
    rcases update_some_iff.mp hj with ⟨hji, rfl⟩ | ⟨-, hj⟩
    · rcases update_some_iff.mp hk with ⟨hki, -⟩ | ⟨-, hk⟩
      · exact hji.trans hki.symm
      · have hlock := h.locked k g₂ hk
        rw [← heq, hfree] at hlock
        cases hlock
    · rcases update_some_iff.mp hk with ⟨-, rfl⟩ | ⟨-, hk⟩
      · have hlock := h.locked j g₁ hj
        rw [heq, hfree] at hlock
        cases hlock
      · exact h.locks j k g₁ g₂ hj hk heq
  keys j k g₁ g₂ hj hk heq := by
    rcases update_some_iff.mp hj with ⟨hji, rfl⟩ | ⟨-, hj⟩
    · rcases update_some_iff.mp hk with ⟨hki, -⟩ | ⟨-, hk⟩
      · exact hji.trans hki.symm
      · exact absurd heq.symm (h.not_key hfree hsame hk)
    · rcases update_some_iff.mp hk with ⟨-, rfl⟩ | ⟨-, hk⟩
      · exact absurd heq (h.not_key hfree hsame hj)
      · exact h.keys j k g₁ g₂ hj hk heq

/-- A turn in flight goes on with its lock and key. -/
theorem Exclusive.continue (h : Exclusive flight r) (hf : flight i = some f)
    (hlock : g.lock = f.lock) (hkey : g.sessionKey = f.sessionKey) (hlocked : r'.locked = r.locked) :
    Exclusive (Function.update flight i (some g)) r' where
  locked j k hj := by
    rw [hlocked]
    rcases update_some_iff.mp hj with ⟨-, rfl⟩ | ⟨-, hj⟩
    · rw [hlock]
      exact h.locked i f hf
    · exact h.locked j k hj
  locks j k g₁ g₂ hj hk heq := by
    rcases update_some_iff.mp hj with ⟨rfl, rfl⟩ | ⟨-, hother⟩
    · rcases update_some_iff.mp hk with ⟨hki, -⟩ | ⟨-, hk⟩
      · exact hki.symm
      · exact h.locks j k f g₂ hf hk (hlock.symm.trans heq)
    · rcases update_some_iff.mp hk with ⟨rfl, rfl⟩ | ⟨-, hk⟩
      · exact h.locks j k g₁ f hother hf (heq.trans hlock)
      · exact h.locks j k g₁ g₂ hother hk heq
  keys j k g₁ g₂ hj hk heq := by
    rcases update_some_iff.mp hj with ⟨rfl, rfl⟩ | ⟨-, hother⟩
    · rcases update_some_iff.mp hk with ⟨hki, -⟩ | ⟨-, hk⟩
      · exact hki.symm
      · exact h.keys j k f g₂ hf hk (hkey.symm.trans heq)
    · rcases update_some_iff.mp hk with ⟨rfl, rfl⟩ | ⟨-, hk⟩
      · exact h.keys j k g₁ f hother hf (heq.trans hkey)
      · exact h.keys j k g₁ g₂ hother hk heq

/-- A turn that leaves releases its own lock only. -/
theorem Exclusive.stop (h : Exclusive flight r) (hf : flight i = some f)
    (hlocked : r'.locked = Function.update r.locked f.lock false) :
    Exclusive (Function.update flight i none) r' where
  locked j g hj := by
    rw [update_none_iff] at hj
    have hlock : g.lock ≠ f.lock := fun heq => hj.1 (h.locks j i g f hj.2 hf heq)
    rw [hlocked, Function.update_of_ne hlock]
    exact h.locked j g hj.2
  locks j k g₁ g₂ hj hk heq := by
    rw [update_none_iff] at hj hk
    exact h.locks j k g₁ g₂ hj.2 hk.2 heq
  keys j k g₁ g₂ hj hk heq := by
    rw [update_none_iff] at hj hk
    exact h.keys j k g₁ g₂ hj.2 hk.2 heq

theorem Exclusive.of_locked (h : Exclusive flight r) (hlocked : r'.locked = r.locked) :
    Exclusive flight r' where
  locked i f hi := hlocked ▸ h.locked i f hi
  locks := h.locks
  keys := h.keys

end

/-! ## What every step keeps -/

namespace World

variable {w w' : World} {label : Label}

/-- A step that leaves no turn in flight where it was not. -/
theorem flight_put_idle {i : Nat} {t : Turn} {r : Relay} (hbefore : w.flight i = none)
    (hafter : t.flight = none) : (w.put i t r).flight = w.flight := by
  rw [flight_put, hafter, ← hbefore, Function.update_eq_self]

theorem closing_put_idle {i : Nat} {t : Turn} {r : Relay} (hbefore : w.closing? i = none)
    (hafter : t.closing? = none) : (w.put i t r).closing? = w.closing? := by
  rw [closing_put, hafter, ← hbefore, Function.update_eq_self]

theorem closing_of_phase {i : Nat} {t : Turn} (turn : w.turns i = some t)
    (open_ : ∀ canonical, t.phase ≠ .closing canonical) : w.closing? i = none := by
  rw [closing_of_turn turn, Turn.closing?]
  split
  · rename_i canonical hphase
    exact absurd hphase (open_ canonical)
  · rfl

theorem flight_of_idle {i : Nat} {t : Turn} (turn : w.turns i = some t)
    (idle : t.phase = .owner ∨ ∃ lock, t.phase = .locking lock) : w.flight i = none := by
  rw [flight_of_turn turn, Turn.flight]
  rcases idle with h | ⟨lock, h⟩
  · rw [h]
  · rw [h]

theorem flight_of_running {i : Nat} {t : Turn} {lock : Nat} {a : Await}
    (turn : w.turns i = some t) (running : t.phase = .running lock a) : w.flight i =
      some ⟨t.stream, t.sessionKey, t.principal, lock, a.canonical?, a.sent?⟩ := by
  rw [flight_of_turn turn, Turn.flight, running]

/-- Every turn is suspended where its kind can be. -/
def Kinded (w : World) : Prop := ∀ i t, w.turns i = some t → t.WellKinded

theorem Kinded.put (h : Kinded w) {i : Nat} {t : Turn} {r : Relay} (ht : t.WellKinded) :
    Kinded (w.put i t r) := by
  intro j u hu
  rw [turns_put] at hu
  split at hu
  · rw [Option.some.injEq] at hu
    exact hu ▸ ht
  · exact h j u hu

theorem Kinded.running (h : Kinded w) {i : Nat} {t : Turn} {lock : Nat} {a : Await}
    (turn : w.turns i = some t) (running : t.phase = .running lock a) : a.Suits t.stream := by
  have ht := h i t turn
  rw [Turn.WellKinded, running] at ht
  exact ht

section
variable [CaseMap]

theorem halt_at_flight (w : World) (i : Nat) (t : Turn) (lock : Nat) (now : Int) (r : Relay)
    (a : Await) : (w.halt i t lock now (r, .at a)).flight = Function.update w.flight i
      (some ⟨t.stream, t.sessionKey, t.principal, lock, a.canonical?, a.sent?⟩) :=
  flight_put w i _ _

theorem halt_out_flight (w : World) (i : Nat) (t : Turn) (lock : Nat) (now : Int) (r : Relay)
    (outcome : Outcome) :
    (w.halt i t lock now (r, .out outcome)).flight = Function.update w.flight i none :=
  flight_put w i _ _

theorem halt_closing {i : Nat} {t : Turn} (lock : Nat) (now : Int) (result : Relay × Halt)
    (hbefore : w.closing? i = none) : (w.halt i t lock now result).closing? = w.closing? := by
  obtain ⟨r, a | outcome⟩ := result
  · exact closing_put_idle hbefore rfl
  · exact closing_put_idle hbefore rfl

theorem Kinded.halt (h : Kinded w) {i : Nat} {t : Turn} {lock : Nat} {now : Int}
    {held installed sent next : Option PyStr} {r : Relay} {result : Relay × Halt}
    (hpiece : Relay.Piece t held installed sent next r result) :
    Kinded (w.halt i t lock now result) := by
  obtain ⟨r', a | outcome⟩ := result
  · exact h.put hpiece.holds.2.2
  · exact h.put trivial

theorem Kinded.moved [Runtime] (h : Kinded w) (hmoved : Moved w label w') : Kinded w' := by
  cases hmoved with
  | called t absent idle =>
    apply h.put
    rw [Turn.WellKinded, idle]
    trivial
  | ended outcome turn idle => exact h.put trivial
  | contended turn idle => exact h.put trivial
  | entered turn waiting free fresh => exact h.halt (Relay.openTurn_piece _ _ _ _)
  | resumed turn running fresh piece =>
    exact h.halt (Relay.resume_piece (h.running turn running) piece)
  | abandoned turn running => exact h.put (h.running turn running)
  | finalised turn closing => exact h.put trivial
  | answered handled => exact h
  | shown handled => exact h
  | reset => exact h

end

end World

/-! ## The other turns -/

/-- The step is not one of the turn. -/
def Label.Spares (k : Nat) : Label → Prop
  | .turn j _ => j ≠ k
  | _ => True

theorem spares_turn {j k : Nat} (hj : j ≠ k) (action : Action) : Label.Spares k (.turn j action) :=
  hj

theorem sendLabels_spares {i k : Nat} (hk : i ≠ k) (conversationId : PyStr) (authz : TurnAuthz)
    (canonical : PyStr) (reqs : PyStr × PyStr × PyStr) :
    ∀ label ∈ sendLabels i conversationId authz canonical reqs, label.Spares k :=
  List.forall_iff_forall_mem.mp ⟨hk, hk, hk, trivial, hk, trivial, hk⟩

namespace World

section
variable [CaseMap] {w w' : World} {label : Label} {k : Nat}

theorem halt_turns {j : Nat} (hk : k ≠ j) (t : Turn) (lock : Nat) (now : Int)
    (result : Relay × Halt) : (w.halt j t lock now result).turns k = w.turns k := by
  obtain ⟨r, a | outcome⟩ := result <;> exact (turns_put ..).trans (if_neg hk)

theorem turns_spared [Runtime] (hspares : label.Spares k) (hmoved : Moved w label w') :
    w'.turns k = w.turns k := by
  have hput : ∀ {j : Nat} {t : Turn} {r : Relay}, j ≠ k → (w.put j t r).turns k = w.turns k :=
    fun hj => (turns_put ..).trans (if_neg hj.symm)
  cases hmoved with
  | called t absent idle => exact hput hspares
  | ended outcome turn idle => exact hput hspares
  | contended turn idle => exact hput hspares
  | entered turn waiting free fresh => exact halt_turns (Ne.symm hspares) _ _ _ _
  | resumed turn running fresh piece => exact halt_turns (Ne.symm hspares) _ _ _ _
  | abandoned turn running => exact hput hspares
  | finalised turn closing => exact hput hspares
  | answered handled => rfl
  | shown handled => rfl
  | reset => rfl

theorem run_spared [Runtime] {labels : List Label} (hspares : ∀ label ∈ labels, label.Spares k)
    (hrun : w.run labels = some w') : w'.turns k = w.turns k := by
  induction labels generalizing w with
  | nil =>
    rw [World.run, Option.some.injEq] at hrun
    rw [hrun]
  | cons label labels ih =>
    rw [World.run, Option.bind_eq_some_iff] at hrun
    obtain ⟨w₁, hstep, hrest⟩ := hrun
    have hhead := turns_spared (hspares label List.mem_cons_self) (step_moved hstep)
    have htail := ih (fun other hother => hspares other (List.mem_cons_of_mem _ hother)) hrest
    exact htail.trans hhead

end

end World

section
variable [CaseMap] {w : World}

/-- The end of a piece, seen from the flights that its turn is part of. -/
theorem Exclusive.halt {flight : Flights} {r : Relay} {i : Nat} {t : Turn} {lock : Nat} {now : Int}
    {f : Flight} {result : Relay × Halt} (h : Exclusive flight r) (hf : flight i = some f)
    (hlock : f.lock = lock) (hkey : f.sessionKey = t.sessionKey)
    (hlocked : result.1.locked = r.locked)
    (hflight : ∀ g, Function.update w.flight i g = Function.update flight i g) :
    Exclusive (w.halt i t lock now result).flight (w.halt i t lock now result).relay := by
  obtain ⟨r', a | outcome⟩ := result
  · rw [World.halt_at_flight, hflight]
    exact h.continue hf hlock.symm hkey.symm hlocked
  · rw [World.halt_out_flight, hflight]
    apply h.stop hf
    show Function.update r'.locked lock false = Function.update r.locked f.lock false
    rw [show r'.locked = r.locked from hlocked, hlock]

/-- Locks exclude, as long as no turn acquires one while another turn in flight holds a second lock
object for its session key. -/
theorem Exclusive.moved [Runtime] {w' : World} {label : Label} (h : Exclusive w.flight w.relay)
    (hkinded : w.Kinded) (hmoved : World.Moved w label w')
    (hsame : ∀ i req expired now t lock, label = .turn i (.enter req expired now) →
      w.turns i = some t → t.phase = .locking lock → SameLock w.flight t.sessionKey lock) :
    Exclusive w'.flight w'.relay := by
  cases hmoved with
  | called t absent idle =>
    rw [World.flight_put_idle (by rw [World.flight, absent]; rfl) (by rw [Turn.flight, idle])]
    exact h
  | ended outcome turn idle =>
    rw [World.flight_put_idle (World.flight_of_idle turn idle) rfl]
    exact h
  | contended turn idle =>
    rw [World.flight_put_idle (World.flight_of_idle turn (.inl idle)) rfl]
    apply h.of_locked
    unfold Relay.turnLock
    split
    · rfl
    · rfl
  | @entered i t lock req expired now turn waiting free fresh =>
    have hstart : Exclusive (Function.update w.flight i
        (some ⟨t.stream, t.sessionKey, t.principal, lock, none, none⟩))
        (w.relay.enterTurn lock t.sessionKey t.principal) :=
      h.start free (hsame i req expired now t lock rfl turn waiting) rfl
    exact hstart.halt (Function.update_self ..) rfl rfl (Relay.openTurn_piece _ _ _ _).keeps.locked
      fun g => (Function.update_idem ..).symm
  | resumed turn running fresh piece =>
    exact h.halt (World.flight_of_running turn running) rfl rfl
      (Relay.resume_piece (hkinded.running turn running) piece).keeps.locked fun _ => rfl
  | abandoned turn running =>
    rw [World.flight_put]
    exact h.stop (World.flight_of_running turn running) rfl
  | finalised turn closing =>
    rw [World.flight_put_idle (by rw [World.flight_of_turn turn, Turn.flight, closing]) rfl]
    exact h.of_locked rfl
  | answered handled => exact h.of_locked (Relay.handleResponse_answers handled).locked
  | shown handled => exact h.of_locked (Relay.handleEvent_showsOnly handled).locked
  | reset => exact h.of_locked rfl

end

/-! ## Two turns -/

namespace PairSample

open Sample

/-- Two turns of two conversations, up to their `chat.send`. -/
def bothSent : List Label :=
  sendLabels 0 (py "c") adminAuthz (py "agent:main:ha-assist:c") (py "r0", py "r1", py "r2") ++
    sendLabels 1 (py "d") ownerAuthz (py "agent:main:ha-assist:d") (py "r3", py "r4", py "r5")

/-- The world after the first labels. -/
def bothAt (n : Nat) : World := (World.init.run (bothSent.take n)).getD World.init

theorem bothAt_of_run {n : Nat} {w : World} (hrun : World.init.run (bothSent.take n) = some w) :
    bothAt n = w := by
  rw [bothAt, hrun]
  rfl

theorem bothAt_turns (n : Nat) {k : Nat} (hk : 2 ≤ k) : (bothAt n).turns k = none := by
  have hfirst : 0 ≠ k := by omega
  have hsecond : 1 ≠ k := by omega
  have hspares : ∀ label ∈ bothSent, label.Spares k :=
    List.forall_mem_append.mpr
      ⟨sendLabels_spares hfirst _ _ _ _, sendLabels_spares hsecond _ _ _ _⟩
  unfold bothAt
  cases hrun : World.init.run (bothSent.take n) with
  | none => rfl
  | some w =>
    exact World.run_spared (fun label hlabel => hspares label (List.mem_of_mem_take hlabel)) hrun

theorem bothAt_flight {n j : Nat} {g : Flight} (hg : (bothAt n).flight j = some g) :
    j = 0 ∨ j = 1 := by
  by_contra hj
  rw [World.flight, bothAt_turns n (by omega)] at hg
  cases hg

theorem bothAt_closing {n j : Nat} {key : PyStr} (hkey : (bothAt n).closing? j = some key) :
    j = 0 ∨ j = 1 := by
  by_contra hj
  rw [World.closing?, bothAt_turns n (by omega)] at hkey
  cases hkey

end PairSample

end HassNode.ChatRelay
