import HassNode.TurnFlights

/-!
# Caller attribution

`active_caller` resolves the hint of an invoke to the principal of a turn in flight.  It is to name
the one turn whose raw or canonical session key the hint equals ignoring case, or nobody.  After a
`reset` this can fail in two ways: a turn is started under a raw key that a turn in flight still
has, and the canonical key of a turn in flight is no longer on record.  `caller_attributed` shows
that it fails in no other way.
-/

namespace HassNode.ChatRelay

open Py

section
variable [CaseMap]

/-- The hint equals the raw or the canonical session key of the turn, ignoring case. -/
def Flight.Named (f : Flight) (hint : PyStr) : Prop :=
  CaseMap.lower (strip hint) = CaseMap.lower f.sessionKey ∨
    ∃ canonical, f.canonical? = some canonical ∧
      CaseMap.lower (strip hint) = CaseMap.lower canonical

/-- What the registry is to say in one world. -/
structure Attributed (w : World) : Prop where
  /-- A principal is returned for a hint that names one turn in flight, and it is that turn's. -/
  sound : ∀ hint principal, w.relay.activeCaller hint = some principal →
    ∃ i f, w.flight i = some f ∧ f.Named hint ∧ f.principal = principal ∧
      ∀ j g, w.flight j = some g → g.Named hint → j = i
  /-- Every entry is the principal of a turn in flight, so no ended turn has one. -/
  present : ∀ raw principal, w.relay.activeTurns.lookup raw = some principal →
    ∃ i f, w.flight i = some f ∧ f.sessionKey = raw ∧ f.principal = principal
  /-- Every turn in flight has its entry. -/
  registered : ∀ i f, w.flight i = some f →
    w.relay.activeTurns.lookup f.sessionKey = some f.principal

/-! ## The invariant -/

/-- The turn has the key, ignoring case, as its canonical key, but a `reset` took it off the
record. -/
def Flight.Hidden (g : Flight) (r : Relay) (key : PyStr) : Prop :=
  ∃ canonical, g.canonical? = some canonical ∧
    CaseMap.lower canonical ≠ CaseMap.lower g.sessionKey ∧
    r.canonicalByRaw.lookup g.sessionKey = none ∧ CaseMap.lower canonical = CaseMap.lower key

/-- The registry and the turns in flight agree. -/
structure Registered (flight : Flights) (r : Relay) : Prop where
  present : ∀ raw principal, r.activeTurns.lookup raw = some principal →
    ∃ i f, flight i = some f ∧ f.sessionKey = raw ∧ f.principal = principal
  registered : ∀ i f, flight i = some f → r.activeTurns.lookup f.sessionKey = some f.principal
  aliases : ∀ i f canonical, flight i = some f →
    r.canonicalByRaw.lookup f.sessionKey = some canonical → f.canonical? = some canonical
  subscribed : ∀ raw canonical, r.canonicalByRaw.lookup raw = some canonical →
    canonical ∈ r.subscribed
  apart : ∀ i j f g, i ≠ j → flight i = some f → flight j = some g →
    ¬ g.Hidden r f.sessionKey ∧
      ¬ g.Hidden r (r.canonicalByRaw.getD f.sessionKey f.sessionKey)

theorem activeCaller_eq_some {r : Relay} {hint : PyStr} {principal : Caller}
    (h : r.activeCaller hint = some principal) :
    ∃ raw, r.activeTurns.entries.filter
      (fun e => r.hintNames (CaseMap.lower (strip hint)) e.1) = [⟨raw, principal⟩] := by
  unfold Relay.activeCaller at h
  dsimp only at h
  split at h
  · rename_i e hfilter
    rw [Option.some.injEq] at h
    exact ⟨e.1, hfilter.trans (by rw [← h])⟩
  · cases h

theorem hintNames_iff {r : Relay} {hint raw : PyStr} : r.hintNames hint raw = true ↔
    hint = CaseMap.lower raw ∨ hint = CaseMap.lower (r.canonicalByRaw.getD raw raw) := by
  rw [Relay.hintNames, decide_eq_true_eq, List.mem_pair]

/-- The keys of an entry are those of its turn. -/
theorem Registered.named {flight : Flights} {r : Relay} (h : Registered flight r) {i : Nat}
    {f : Flight} {hint : PyStr} (hf : flight i = some f)
    (hmatch : r.hintNames (CaseMap.lower (strip hint)) f.sessionKey = true) : f.Named hint := by
  rcases hintNames_iff.mp hmatch with hraw | hcanonical
  · exact .inl hraw
  · unfold OrderedDict.getD at hcanonical
    cases hlookup : r.canonicalByRaw.lookup f.sessionKey with
    | none =>
      rw [hlookup] at hcanonical
      exact .inl hcanonical
    | some canonical =>
      rw [hlookup] at hcanonical
      exact .inr ⟨canonical, h.aliases i f canonical hf hlookup, hcanonical⟩

/-- A turn that a hint names has its entry among the matches, or its canonical key is hidden. -/
theorem Registered.matches_or_hidden {flight : Flights} {r : Relay} (h : Registered flight r)
    {j : Nat} {g : Flight} {hint : PyStr} (hg : flight j = some g) (hnamed : g.Named hint) :
    r.hintNames (CaseMap.lower (strip hint)) g.sessionKey = true ∨
      ∀ key, CaseMap.lower (strip hint) = CaseMap.lower key → g.Hidden r key := by
  rw [hintNames_iff]
  rcases hnamed with hraw | ⟨canonical, hcanonical, hhint⟩
  · exact .inl (.inl hraw)
  · by_cases hraw : CaseMap.lower canonical = CaseMap.lower g.sessionKey
    · exact .inl (.inl (hhint.trans hraw))
    · cases hlookup : r.canonicalByRaw.lookup g.sessionKey with
      | none =>
        right
        intro key hkey
        exact ⟨canonical, hcanonical, hraw, hlookup, hhint.symm.trans hkey⟩
      | some other =>
        have hother := h.aliases j g other hg hlookup
        rw [hcanonical, Option.some.injEq] at hother
        left
        right
        rw [OrderedDict.getD, hlookup, hhint, hother]
        rfl

theorem attributed_of_registered {w : World} (hex : Exclusive w.flight w.relay)
    (h : Registered w.flight w.relay) : Attributed w where
  present := h.present
  registered := h.registered
  sound hint principal hcaller := by
    obtain ⟨raw, hfilter⟩ := activeCaller_eq_some hcaller
    have hentry := List.mem_singleton_self (⟨raw, principal⟩ : Σ _ : PyStr, Caller)
    rw [← hfilter, List.mem_filter] at hentry
    obtain ⟨i, f, hf, rfl, hprincipal⟩ :=
      h.present raw principal (AList.mem_lookup_iff.mpr hentry.1)
    refine ⟨i, f, hf, h.named hf hentry.2, hprincipal, fun j g hg hnamed => ?_⟩
    rcases h.matches_or_hidden hg hnamed with hmatch | hhidden
    · -- the entry of `g` matches too, so it is the one entry
      have hmem : (⟨g.sessionKey, g.principal⟩ : Σ _ : PyStr, Caller) ∈
          [⟨f.sessionKey, principal⟩] := by
        rw [← hfilter]
        exact List.mem_filter.mpr ⟨AList.mem_lookup_iff.mp (h.registered j g hg), hmatch⟩
      rw [List.mem_singleton, Sigma.mk.injEq] at hmem
      exact hex.keys j i g f hg hf hmem.1
    · by_contra hne
      have hapart := h.apart i j f g (Ne.symm hne) hf hg
      rcases hintNames_iff.mp hentry.2 with hraw | hcanonical
      · exact hapart.1 (hhidden _ hraw)
      · exact hapart.2 (hhidden _ hcanonical)

/-! ## What keeps the invariant -/

variable {flight : Flights} {r r' : Relay} {i : Nat} {f g : Flight}

theorem Flight.Hidden.of_lookup {key : PyStr}
    (hlookup : r'.canonicalByRaw.lookup g.sessionKey = r.canonicalByRaw.lookup g.sessionKey)
    (h : g.Hidden r' key) : g.Hidden r key := by
  obtain ⟨canonical, hcanonical, hraw, hnone, hkey⟩ := h
  exact ⟨canonical, hcanonical, hraw, hlookup.symm.trans hnone, hkey⟩

theorem Registered.of_eq (h : Registered flight r) (hturns : r'.activeTurns = r.activeTurns)
    (hcanonical : r'.canonicalByRaw = r.canonicalByRaw) (hsubscribed : r'.subscribed = r.subscribed) :
    Registered flight r' where
  present raw principal hraw := h.present raw principal (hturns ▸ hraw)
  registered i f hf := hturns ▸ h.registered i f hf
  aliases i f canonical hf hlookup := h.aliases i f canonical hf (hcanonical ▸ hlookup)
  subscribed raw canonical hlookup := hsubscribed ▸ h.subscribed raw canonical (hcanonical ▸ hlookup)
  apart i j f g hne hf hg := by
    have hapart := h.apart i j f g hne hf hg
    rw [hcanonical]
    exact ⟨fun hh => hapart.1 (hh.of_lookup (by rw [hcanonical])),
      fun hh => hapart.2 (hh.of_lookup (by rw [hcanonical]))⟩

/-- A turn enters under a raw key that no turn in flight has. -/
theorem Registered.start (h : Registered flight r) (lock : Nat)
    (hidle : flight i = none)
    (hkeys : ∀ j g, flight j = some g → g.sessionKey ≠ f.sessionKey)
    (hcanonical : ∀ canonical, r.canonicalByRaw.lookup f.sessionKey = some canonical ↔
      f.canonical? = some canonical)
    (hhidden : ∀ j g, flight j = some g → ¬ g.Hidden r f.sessionKey ∧
      ¬ g.Hidden r (r.canonicalByRaw.getD f.sessionKey f.sessionKey)) :
    Registered (Function.update flight i (some f)) (r.enterTurn lock f.sessionKey f.principal) where
  present raw principal hraw := by
    have hset : (r.activeTurns.set f.sessionKey f.principal).lookup raw = some principal := hraw
    rw [OrderedDict.lookup_set] at hset
    split at hset
    · rename_i hkey
      rw [Option.some.injEq] at hset
      exact ⟨i, f, Function.update_self .., hkey.symm, hset⟩
    · obtain ⟨j, g, hg, hkey, hprincipal⟩ := h.present raw principal hset
      have hne : j ≠ i := by
        rintro rfl
        rw [hidle] at hg
        cases hg
      exact ⟨j, g, (Function.update_of_ne hne _ _).trans hg, hkey, hprincipal⟩
  registered j g hg := by
    show (r.activeTurns.set f.sessionKey f.principal).lookup g.sessionKey = some g.principal
    rw [OrderedDict.lookup_set]
    rcases update_some_iff.mp hg with ⟨-, rfl⟩ | ⟨-, hg⟩
    · exact if_pos rfl
    · rw [if_neg (hkeys j g hg)]
      exact h.registered j g hg
  aliases j g canonical hg hlookup := by
    rcases update_some_iff.mp hg with ⟨-, rfl⟩ | ⟨-, hg⟩
    · exact (hcanonical canonical).mp hlookup
    · exact h.aliases j g canonical hg hlookup
  subscribed := h.subscribed
  apart j k g₁ g₂ hne hj hk := by
    rcases update_some_iff.mp hk with ⟨-, rfl⟩ | ⟨-, hk⟩
    · -- the new turn has its canonical key on record, if it has one
      have hnot : ∀ key, ¬ f.Hidden r key := by
        rintro key ⟨canonical, hknown, -, hnone, -⟩
        rw [(hcanonical canonical).mpr hknown] at hnone
        cases hnone
      exact ⟨hnot _, hnot _⟩
    · rcases update_some_iff.mp hj with ⟨-, rfl⟩ | ⟨-, hj⟩
      · exact hhidden k g₂ hk
      · exact h.apart j k g₁ g₂ hne hj hk

/-- A piece of a turn in flight; it may put a canonical key on record. -/
theorem Registered.piece (h : Registered flight r) (hex : Exclusive flight r)
    (hf : flight i = some f) {t : Turn} {held installed sent next : Option PyStr}
    {result : Relay × Halt} (hpiece : Relay.Piece t held installed sent next r result)
    (ht : t.sessionKey = f.sessionKey) (hkey : g.sessionKey = f.sessionKey)
    (hprincipal : g.principal = f.principal) (hcanonical : g.canonical? = installed.or f.canonical?)
    (hhidden : ∀ canonical, installed = some canonical → ∀ j u, j ≠ i → flight j = some u →
      ¬ u.Hidden r canonical) :
    Registered (Function.update flight i (some g)) result.1 := by
  have hraw : ∀ j u, j ≠ i → flight j = some u → u.sessionKey ≠ f.sessionKey :=
    fun j u hne hu heq => hne (hex.keys j i u f hu hf heq)
  have hother : ∀ raw, raw ≠ f.sessionKey →
      result.1.canonicalByRaw.lookup raw = r.canonicalByRaw.lookup raw :=
    fun raw hne => hpiece.keeps.canonicalByRaw raw fun hh => hne (hh.1.trans ht)
  have hnone : installed = none → ∀ raw,
      result.1.canonicalByRaw.lookup raw = r.canonicalByRaw.lookup raw :=
    fun hinstalled raw => hpiece.keeps.canonicalByRaw raw fun hh => hh.2 hinstalled
  have hrecorded : ∀ canonical, installed = some canonical →
      result.1.canonicalByRaw.lookup f.sessionKey = some canonical ∧
        canonical ∈ result.1.subscribed := ht ▸ hpiece.recorded
  exact
    { present := fun raw principal hlookup => by
        rw [hpiece.keeps.activeTurns] at hlookup
        obtain ⟨j, u, hu, huraw, huprincipal⟩ := h.present raw principal hlookup
        by_cases hne : j = i
        · subst hne
          rw [hf, Option.some.injEq] at hu
          subst hu
          exact ⟨j, g, Function.update_self .., hkey.trans huraw, hprincipal.trans huprincipal⟩
        · exact ⟨j, u, (Function.update_of_ne hne _ _).trans hu, huraw, huprincipal⟩
      registered := fun j u hu => by
        rw [hpiece.keeps.activeTurns]
        rcases update_some_iff.mp hu with ⟨-, rfl⟩ | ⟨-, hu⟩
        · rw [hkey, hprincipal]
          exact h.registered i f hf
        · exact h.registered j u hu
      aliases := fun j u canonical hu hlookup => by
        rcases update_some_iff.mp hu with ⟨-, rfl⟩ | ⟨hne, hu⟩
        · rw [hkey] at hlookup
          rw [hcanonical]
          cases hinstalled : installed with
          | none =>
            rw [hnone hinstalled] at hlookup
            exact h.aliases i f canonical hf hlookup
          | some c =>
            rw [(hrecorded c hinstalled).1] at hlookup
            exact hlookup
        · rw [hother _ (hraw j u hne hu)] at hlookup
          exact h.aliases j u canonical hu hlookup
      subscribed := fun raw canonical hlookup => by
        cases hinstalled : installed with
        | none =>
          rw [hnone hinstalled] at hlookup
          exact hpiece.keeps.subscribed (h.subscribed raw canonical hlookup)
        | some c =>
          by_cases hne : raw = f.sessionKey
          · rw [hne, (hrecorded c hinstalled).1, Option.some.injEq] at hlookup
            exact hlookup ▸ (hrecorded c hinstalled).2
          · rw [hother raw hne] at hlookup
            exact hpiece.keeps.subscribed (h.subscribed raw canonical hlookup)
      apart := fun j k g₁ g₂ hne hj hk => by
        rcases update_some_iff.mp hk with ⟨rfl, rfl⟩ | ⟨hki, hu⟩
        · -- the turn itself: it was hidden before, since what it installs is on record
          rcases update_some_iff.mp hj with ⟨hjk, -⟩ | ⟨hjk, hj⟩
          · exact absurd hjk hne
          have hapart := h.apart j k g₁ f hne hj hf
          have hback : ∀ key, g.Hidden result.1 key → f.Hidden r key := by
            rintro key ⟨canonical, hknown, hlower, hlookup, hhint⟩
            rw [hkey] at hlower hlookup
            cases hinstalled : installed with
            | none =>
              rw [hinstalled, Option.none_or] at hcanonical
              rw [hnone hinstalled] at hlookup
              exact ⟨canonical, hcanonical.symm.trans hknown, hlower, hlookup, hhint⟩
            | some c =>
              rw [(hrecorded c hinstalled).1] at hlookup
              cases hlookup
          rw [OrderedDict.getD, hother _ (hraw j g₁ hjk hj)]
          exact ⟨fun hh => hapart.1 (hback _ hh), fun hh => hapart.2 (hback _ hh)⟩
        · have hback : ∀ key, g₂.Hidden result.1 key → g₂.Hidden r key :=
            fun key hh => hh.of_lookup (hother _ (hraw k g₂ hki hu))
          rcases update_some_iff.mp hj with ⟨rfl, rfl⟩ | ⟨hji, hj⟩
          · have hapart := h.apart j k f g₂ hne hf hu
            rw [hkey]
            refine ⟨fun hh => hapart.1 (hback _ hh), fun hh => ?_⟩
            cases hinstalled : installed with
            | none =>
              rw [OrderedDict.getD, hnone hinstalled] at hh
              exact hapart.2 (hback _ hh)
            | some c =>
              rw [OrderedDict.getD, (hrecorded c hinstalled).1] at hh
              exact hhidden c hinstalled k g₂ hki hu (hback _ hh)
          · have hapart := h.apart j k g₁ g₂ hne hj hu
            rw [OrderedDict.getD, hother _ (hraw j g₁ hji hj)]
            exact ⟨fun hh => hapart.1 (hback _ hh), fun hh => hapart.2 (hback _ hh)⟩ }

/-- A turn that leaves takes its own entry along. -/
theorem Registered.stop (h : Registered flight r) (hex : Exclusive flight r)
    (hf : flight i = some f) (now : Int) :
    Registered (Function.update flight i none) (r.leaveTurn f.lock f.sessionKey now) where
  present raw principal hraw := by
    have herased : AList.lookup raw (r.activeTurns.erase f.sessionKey) = some principal := hraw
    rw [OrderedDict.lookup_erase_eq] at herased
    split at herased
    · cases herased
    · rename_i hne
      obtain ⟨j, g, hg, rfl, hprincipal⟩ := h.present raw principal herased
      have hji : j ≠ i := by
        rintro rfl
        rw [hf, Option.some.injEq] at hg
        exact hne (congrArg Flight.sessionKey hg.symm)
      exact ⟨j, g, (Function.update_of_ne hji _ _).trans hg, rfl, hprincipal⟩
  registered j g hg := by
    rw [update_none_iff] at hg
    show AList.lookup g.sessionKey (r.activeTurns.erase f.sessionKey) = some g.principal
    rw [OrderedDict.lookup_erase_eq,
      if_neg fun heq => hg.1 (hex.keys j i g f hg.2 hf heq)]
    exact h.registered j g hg.2
  aliases j g canonical hg := h.aliases j g canonical (update_none_iff.mp hg).2
  subscribed := h.subscribed
  apart j k g₁ g₂ hne hj hk :=
    h.apart j k g₁ g₂ hne (update_none_iff.mp hj).2 (update_none_iff.mp hk).2

/-- A `reset` takes every canonical key off the record. -/
theorem Registered.reset (h : Registered flight r)
    (hkeys : ∀ i j f g canonical, i ≠ j → flight i = some f → flight j = some g →
      g.canonical? = some canonical → CaseMap.lower canonical ≠ CaseMap.lower g.sessionKey →
      CaseMap.lower canonical ≠ CaseMap.lower f.sessionKey) :
    Registered flight r.reset where
  present := h.present
  registered := h.registered
  aliases i f canonical _ hlookup := by
    rw [show r.reset.canonicalByRaw = ∅ from rfl, AList.lookup_empty] at hlookup
    cases hlookup
  subscribed raw canonical hlookup := by
    rw [show r.reset.canonicalByRaw = ∅ from rfl, AList.lookup_empty] at hlookup
    cases hlookup
  apart i j f g hne hf hg := by
    rw [OrderedDict.getD, show r.reset.canonicalByRaw = ∅ from rfl, AList.lookup_empty]
    have hnot : ¬ g.Hidden r.reset f.sessionKey := by
      rintro ⟨canonical, hcanonical, hlower, -, hkey⟩
      exact hkeys i j f g canonical hne hf hg hcanonical hlower hkey
    exact ⟨hnot, hnot⟩

theorem Registered.halt {w : World} {t : Turn} {lock : Nat} {now : Int}
    {held installed sent next : Option PyStr} {result : Relay × Halt} (h : Registered flight r)
    (hex : Exclusive flight r) (hf : flight i = some f)
    (hpiece : Relay.Piece t held installed sent next r result) (hlock : f.lock = lock)
    (hkey : f.sessionKey = t.sessionKey) (hprincipal : f.principal = t.principal)
    (hcanonical : installed.or held = installed.or f.canonical?)
    (hhidden : ∀ canonical, installed = some canonical → ∀ j u, j ≠ i → flight j = some u →
      ¬ u.Hidden r canonical)
    (hflight : ∀ g, Function.update w.flight i g = Function.update flight i g) :
    Registered (w.halt i t lock now result).flight (w.halt i t lock now result).relay := by
  obtain ⟨r', a | outcome⟩ := result
  · rw [World.halt_at_flight, hflight]
    exact h.piece hex hf hpiece hkey.symm hkey.symm hprincipal.symm
      (hpiece.holds.1.trans hcanonical) hhidden
  · -- the turn goes on to the end of its body, and then leaves
    rw [World.halt_out_flight, hflight]
    have hended := h.piece (g := { f with canonical? := installed.or f.canonical? }) hex hf hpiece
      hkey.symm rfl rfl rfl hhidden
    have hexended : Exclusive (Function.update flight i
        (some { f with canonical? := installed.or f.canonical? })) r' :=
      hex.continue hf rfl rfl hpiece.keeps.locked
    have hleft := hended.stop hexended (Function.update_self ..) now
    rw [Function.update_idem] at hleft
    show Registered _ (r'.leaveTurn lock t.sessionKey now)
    rw [← hlock, ← hkey]
    exact hleft

end

/-! ## Every run -/

section
variable [Runtime] [CaseMap]

/-- The steps that keep callers apart.  A turn enters only while no turn in flight holds a second
lock object for its raw key.  And no step puts a key on record, or takes the canonical keys off the
record, when a canonical key that is off the record would then equal, ignoring case, a key on record
of another turn in flight. -/
def KeepsCallersApart (w : World) : Label → Prop
  | .turn i (.enter _ _ _) => ∀ t lock, w.turns i = some t → t.phase = .locking lock →
      SameLock w.flight t.sessionKey lock ∧ ∀ j g, w.flight j = some g →
        ¬ g.Hidden w.relay t.sessionKey ∧
          ¬ g.Hidden w.relay (w.relay.canonicalByRaw.getD t.sessionKey t.sessionKey)
  | .turn i (.resume signal _) => ∀ t lock a canonical, w.turns i = some t →
      t.phase = .running lock a → w.relay.installs t a signal = some canonical →
        ∀ j g, j ≠ i → w.flight j = some g → ¬ g.Hidden w.relay canonical
  | .reset => ∀ i j f g canonical, i ≠ j → w.flight i = some f → w.flight j = some g →
      g.canonical? = some canonical → CaseMap.lower canonical ≠ CaseMap.lower g.sessionKey →
        CaseMap.lower canonical ≠ CaseMap.lower f.sessionKey
  | _ => True

/-- The registry, the locks and the suspended turns of one world are consistent. -/
structure Consistent (w : World) : Prop where
  kinded : w.Kinded
  exclusive : Exclusive w.flight w.relay
  registered : Registered w.flight w.relay

omit [Runtime] in
theorem consistent_init : Consistent World.init where
  kinded := fun _ _ h => by cases h
  exclusive := ⟨fun _ _ h => (by cases h), fun _ _ _ _ h => (by cases h), fun _ _ _ _ h => (by cases h)⟩
  registered :=
    { present := fun _ _ h => by cases h
      registered := fun _ _ h => by cases h
      aliases := fun _ _ _ h => by cases h
      subscribed := fun _ _ h => by cases h
      apart := fun _ _ _ _ _ h => by cases h }

omit [Runtime] [CaseMap] in
/-- A turn learns its canonical key from the record when it enters. -/
theorem openInstalls_iff {r : Relay} {t : Turn}
    (hsubscribed : ∀ raw canonical, r.canonicalByRaw.lookup raw = some canonical →
      canonical ∈ r.subscribed) (canonical : PyStr) :
    r.canonicalByRaw.lookup t.sessionKey = some canonical ↔
      r.openInstalls t = some canonical := by
  unfold Relay.openInstalls
  cases hlookup : r.canonicalByRaw.lookup t.sessionKey with
  | none => simp only
  | some c => simp only [if_pos (hsubscribed _ _ hlookup)]

theorem Registered.moved {w w' : World} {label : Label} (h : Registered w.flight w.relay)
    (hex : Exclusive w.flight w.relay) (hkinded : w.Kinded) (hmoved : World.Moved w label w')
    (hallowed : KeepsCallersApart w label) : Registered w'.flight w'.relay := by
  cases hmoved with
  | called t absent idle =>
    rw [World.flight_put_idle (by rw [World.flight, absent]; rfl) (by rw [Turn.flight, idle])]
    exact h
  | ended outcome turn idle =>
    rw [World.flight_put_idle (World.flight_of_idle turn idle) rfl]
    exact h
  | @contended i t turn idle =>
    rw [World.flight_put_idle (World.flight_of_idle turn (.inl idle)) rfl]
    show Registered w.flight (w.relay.turnLock t.sessionKey).1
    unfold Relay.turnLock
    split
    · exact h
    · exact h.of_eq rfl rfl rfl
  | @entered i t lock req expired now turn waiting free fresh =>
    obtain ⟨hsame, hhidden⟩ := hallowed t lock turn waiting
    have hidle := World.flight_of_idle turn (.inr ⟨lock, waiting⟩)
    have hpiece := Relay.openTurn_piece (w.relay.enterTurn lock t.sessionKey t.principal) t req
      expired
    let f : Flight := ⟨t.stream, t.sessionKey, t.principal, lock, w.relay.openInstalls t, none⟩
    have hkeys : ∀ j g, w.flight j = some g → g.sessionKey ≠ f.sessionKey :=
      fun j g hj => hex.not_key free hsame hj
    have hstart : Registered (Function.update w.flight i (some f))
        (w.relay.enterTurn lock t.sessionKey t.principal) :=
      h.start lock hidle hkeys (openInstalls_iff h.subscribed) hhidden
    have hexstart : Exclusive (Function.update w.flight i (some f))
        (w.relay.enterTurn lock t.sessionKey t.principal) := hex.start free hsame rfl
    exact hstart.halt hexstart (Function.update_self ..) hpiece rfl rfl rfl
      (Option.or_none.trans Option.or_self.symm)
      (fun canonical hinstalled j u hne hu => by
        rw [Function.update_of_ne hne] at hu
        -- the key is on record already, so the condition for entering speaks about it
        have hrecord := (openInstalls_iff h.subscribed canonical).mpr hinstalled
        have hother := (hhidden j u hu).2
        rw [OrderedDict.getD, hrecord] at hother
        exact hother)
      fun g => (Function.update_idem ..).symm
  | @resumed i t lock a signal now result turn running fresh piece =>
    exact h.halt hex (World.flight_of_running turn running)
      (Relay.resume_piece (hkinded.running turn running) piece) rfl rfl rfl rfl
      (fun canonical hinstalled j u hne hu =>
        hallowed t lock a canonical turn running hinstalled j u hne hu)
      fun _ => rfl
  | abandoned turn running =>
    rw [World.flight_put]
    exact h.stop hex (World.flight_of_running turn running) _
  | finalised turn closing =>
    rw [World.flight_put_idle (by rw [World.flight_of_turn turn, Turn.flight, closing]) rfl]
    exact h.of_eq rfl rfl rfl
  | answered handled =>
    have hregistry := (Relay.handleResponse_answers handled).registry
    exact h.of_eq (congrArg Registry.activeTurns hregistry :)
      (congrArg Registry.canonicalByRaw hregistry :) (congrArg Registry.subscribed hregistry :)
  | shown handled =>
    have hregistry := (Relay.handleEvent_showsOnly handled).registry
    exact h.of_eq (congrArg Registry.activeTurns hregistry :)
      (congrArg Registry.canonicalByRaw hregistry :) (congrArg Registry.subscribed hregistry :)
  | reset => exact h.reset hallowed

/-- One step keeps the registry, the locks and the turns consistent. -/
theorem Consistent.step {w w' : World} {label : Label} (h : Consistent w)
    (hallowed : KeepsCallersApart w label) (hstep : w.step label = some w') : Consistent w' where
  kinded := h.kinded.moved (World.step_moved hstep)
  exclusive := h.exclusive.moved h.kinded (World.step_moved hstep)
    (fun i req expired now t lock hlabel turn waiting => by
      subst hlabel
      exact (hallowed t lock turn waiting).1)
  registered := h.registered.moved h.exclusive h.kinded (World.step_moved hstep) hallowed

/-- In every run whose steps keep callers apart, every invoke is attributed to the one turn in
flight that its hint names, and every turn keeps its principal until it ends. -/
theorem caller_attributed {w : World} (h : World.Reachable KeepsCallersApart w) : Attributed w := by
  have hconsistent : Consistent w :=
    h.invariant consistent_init fun _ _ _ hw hallowed hstep => hw.step hallowed hstep
  exact attributed_of_registered hconsistent.exclusive hconsistent.registered

end

/-! ## One run -/

section
open Sample

/-- The steps of the two turns keep their callers apart. -/
theorem bothSent_attributable : World.init.Allowed KeepsCallersApart PairSample.bothSent := by
  refine World.allowed_of_prefixes fun n w label hlabel hrun => ?_
  obtain rfl := PairSample.bothAt_of_run hrun
  -- a canonical key that is on record is not hidden
  have hrecorded : ∀ {n j : Nat} {g : Flight} {raw canonical : PyStr},
      ((PairSample.bothAt n).flight j).map (·.sessionKey) = some raw →
      (PairSample.bothAt n).relay.canonicalByRaw.lookup raw = some canonical →
      (PairSample.bothAt n).flight j = some g →
        ∀ key, ¬ g.Hidden (PairSample.bothAt n).relay key := by
    intro n j g raw canonical hraw hcanonical hg key hhidden
    obtain ⟨_, -, -, hnone, -⟩ := hhidden
    rw [hg, Option.map_some, Option.some.injEq] at hraw
    rw [hraw, hcanonical] at hnone
    cases hnone
  match n, hlabel with
  | 2, hlabel =>
    cases hlabel
    intro t lock turn waiting
    cases turn
    refine ⟨fun j g hg => ?_, fun j g hg => ?_⟩
    · rcases PairSample.bothAt_flight hg with rfl | rfl <;> cases hg
    · rcases PairSample.bothAt_flight hg with rfl | rfl <;> cases hg
  | 4, hlabel =>
    cases hlabel
    intro t lock a canonical turn running hcanonical
    cases turn
    cases running
    cases hcanonical
  | 6, hlabel =>
    cases hlabel
    intro t lock a canonical turn running hcanonical j g hj hg
    rcases PairSample.bothAt_flight hg with rfl | rfl
    · exact absurd rfl hj
    · cases hg
  | 9, hlabel =>
    cases hlabel
    intro t lock turn waiting
    cases turn
    have hfirst : ((PairSample.bothAt 9).flight 0).map (·.sessionKey) = some (py "ha-assist:c") := rfl
    refine ⟨fun j g hg hsame => ?_, fun j g hg => ?_⟩
    · rcases PairSample.bothAt_flight hg with rfl | rfl
      · rw [hg, Option.map_some, hsame] at hfirst
        exact absurd hfirst (by decide)
      · cases hg
    · rcases PairSample.bothAt_flight hg with rfl | rfl
      · exact ⟨hrecorded hfirst rfl hg _, hrecorded hfirst rfl hg _⟩
      · cases hg
  | 11, hlabel =>
    cases hlabel
    intro t lock a canonical turn running hcanonical
    cases turn
    cases running
    cases hcanonical
  | 13, hlabel =>
    cases hlabel
    intro t lock a canonical turn running hcanonical j g hj hg
    rcases PairSample.bothAt_flight hg with rfl | rfl
    · exact hrecorded rfl rfl hg _
    · exact absurd rfl hj
  | 0, hlabel | 1, hlabel | 3, hlabel | 5, hlabel | 7, hlabel | 8, hlabel | 10, hlabel | 12, hlabel =>
    cases hlabel
    trivial
  | n + 14, hlabel => cases hlabel

/-- The gateway is lost while both turns wait. -/
def bothLost : World := ((PairSample.bothAt 14).step .reset).getD World.init

/-- The first turn has ended. -/
def oneLeft : World := (bothLost.step (.turn 0 (.resume (.ready [] false) 0))).getD World.init

/-- Two turns in flight are found under their raw and canonical keys.  Behind a `reset` one of them
ends, and the other is still found. -/
theorem caller_attributed_pair : ∃ w w',
    World.init.run PairSample.bothSent = some w ∧ Attributed w ∧
    w.relay.activeCaller (py "AGENT:main:ha-assist:c") = some (principalOf (some adminAuthz)) ∧
    w.relay.activeCaller (py "ha-assist:d") = some (principalOf (some ownerAuthz)) ∧
    w.run [.reset, .turn 0 (.resume (.ready [] false) 0)] = some w' ∧ Attributed w' ∧
    w'.relay.activeCaller (py "ha-assist:c") = none ∧
    w'.relay.activeCaller (py "ha-assist:d") = some (principalOf (some ownerAuthz)) := by
  have hboth : World.Reachable KeepsCallersApart (PairSample.bothAt 14) :=
    World.Reachable.run .init bothSent_attributable rfl
  -- no canonical key of a turn is the raw key of the other
  have hreset : KeepsCallersApart (PairSample.bothAt 14) .reset := by
    have hfirst : ((PairSample.bothAt 14).flight 0).map (fun f => (f.sessionKey, f.canonical?)) =
      some (py "ha-assist:c", some (py "agent:main:ha-assist:c")) := rfl
    have hsecond : ((PairSample.bothAt 14).flight 1).map (fun f => (f.sessionKey, f.canonical?)) =
      some (py "ha-assist:d", some (py "agent:main:ha-assist:d")) := rfl
    intro i j f g canonical hij hf hg hkey hother hsame
    rcases PairSample.bothAt_flight hf with rfl | rfl <;>
      rcases PairSample.bothAt_flight hg with rfl | rfl
    · exact hij rfl
    · rw [hf, Option.map_some, Option.some.injEq, Prod.mk.injEq] at hfirst
      rw [hg, Option.map_some, Option.some.injEq, Prod.mk.injEq, hkey, Option.some.injEq] at hsecond
      rw [hfirst.1, hsecond.2] at hsame
      exact absurd hsame (by decide)
    · rw [hg, Option.map_some, Option.some.injEq, Prod.mk.injEq, hkey, Option.some.injEq] at hfirst
      rw [hf, Option.map_some, Option.some.injEq, Prod.mk.injEq] at hsecond
      rw [hsecond.1, hfirst.2] at hsame
      exact absurd hsame (by decide)
    · exact hij rfl
  have hresume : KeepsCallersApart bothLost (.turn 0 (.resume (.ready [] false) 0)) := by
    intro t lock a canonical turn running hcanonical
    cases turn
    cases running
    cases hcanonical
  have hlost : World.Reachable KeepsCallersApart bothLost := hboth.next hreset rfl
  have hleft : World.Reachable KeepsCallersApart oneLeft := hlost.next hresume rfl
  exact ⟨PairSample.bothAt 14, oneLeft, rfl, caller_attributed hboth, rfl, rfl, rfl,
    caller_attributed hleft, rfl, rfl⟩

/-- A turn that is started after a `reset` under the raw key of a turn in flight takes its entry. -/
theorem reset_misattributes : ∃ w : World,
    World.init.run (startLabels 0 (py "c") adminAuthz (py "r0") ++
      .reset :: startLabels 1 (py "c") ownerAuthz (py "r1")) = some w ∧
    w.relay.activeCaller (py "ha-assist:c") = some (principalOf (some ownerAuthz)) ∧
    ¬ Attributed w := by
  refine ⟨_, rfl, rfl, fun h => ?_⟩
  have hregistered := h.registered 0 _ rfl
  exact absurd hregistered (by decide)

end

end HassNode.ChatRelay
