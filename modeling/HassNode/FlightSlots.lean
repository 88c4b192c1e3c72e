import HassNode.Library.Interleaving
import HassNode.SingleFlight

/-!
# The slots of a single flight

`Consistent` says which call owns the slot of a source and which calls were displaced from one.  A new
call displaces the owner whose work still runs, and no event touches a call that it is not about.
-/

namespace HassNode.Vision

open Py Interleaving

variable {α ε : Type}

namespace World

/-- Who owns the slot of a source, and who was displaced from it. -/
structure Consistent (w : World α ε) : Prop where
  fresh : ∀ call, w.calls call = none → w.tasks call = none
  owner : ∀ source call, w.flights.inflight.lookup source = some call →
    w.Waits source call ∧ call ∉ w.flights.superseded
  displaced : ∀ call ∈ w.flights.superseded, (∃ source, w.Waits source call) ∧
    (w.tasks call = some (.pending true) ∨ w.tasks call = some (.done .cancelled))
  waiting : ∀ source call, w.Waits source call → source ≠ [] ∧ w.tasks call ≠ none ∧
    (w.running call = true →
      w.flights.inflight.lookup source = some call ∨ call ∈ w.flights.superseded)

theorem lookup_release {flights : SingleFlight} {source other : PyStr} {task call : Nat} :
    (release flights source task).inflight.lookup other = some call ↔
      flights.inflight.lookup other = some call ∧ ¬ (other = source ∧ call = task) := by
  unfold release
  dsimp only
  split
  · rename_i hslot
    rw [OrderedDict.lookup_erase_eq]
    by_cases h : other = source
    · subst h
      simp [hslot, eq_comm]
    · simp [h]
  · rename_i hslot
    refine (and_iff_left_of_imp ?_).symm
    rintro hother ⟨rfl, rfl⟩
    exact hslot hother

/-! ## A call that takes a slot -/

/-- The call that a new call on the source displaces. -/
def Evicts (w : World α ε) (source : PyStr) (previous : Nat) : Prop :=
  w.flights.inflight.lookup source = some previous ∧ w.running previous = true

instance (w : World α ε) (source : PyStr) (previous : Nat) : Decidable (w.Evicts source previous) :=
  inferInstanceAs (Decidable (_ ∧ _))

section
variable {w : World α ε} {source s : PyStr} {call other : Nat}

theorem tasks_register : (w.register source call).tasks other =
    if other = call then some (.pending false) else w.tasks other := by
  simp [register, setTask, setCall, Function.update_apply]

theorem calls_register : (w.register source call).calls other =
    if other = call then some ⟨source, .awaiting false⟩ else w.calls other := by
  simp [register, setTask, setCall, Function.update_apply]

theorem running_register (h : other ≠ call) :
    (w.register source call).running other = w.running other := by
  unfold running
  rw [tasks_register, if_neg h]

/-- Either nothing is displaced, or the call in the slot is. -/
theorem start_cases (hw : w.Consistent) (fresh : w.calls call = none) (keyed : source ≠ []) :
    ((∀ previous, ¬ w.Evicts source previous) ∧ w.start source call = w.register source call) ∨
      ∃ previous, w.Evicts source previous ∧ w.start source call =
        { w.register source call with
          flights.superseded := insert previous w.flights.superseded }.setTask previous
            (.pending true) := by
  unfold start Evicts
  rw [if_neg keyed]
  cases hslot : w.flights.inflight.lookup source with
  | none => exact .inl ⟨by simp, rfl⟩
  | some previous =>
    dsimp only
    have hne := ne_of_fresh fresh (hw.owner source previous hslot).1
    cases hruns : w.running previous with
    | false =>
      refine .inl ⟨?_, ?_⟩
      · rintro other ⟨hother, hrunning⟩
        rw [← Option.some.inj hother, hruns] at hrunning
        cases hrunning
      · rw [running_register hne, hruns, if_neg Bool.false_ne_true]
    | true =>
      refine .inr ⟨previous, ⟨rfl, hruns⟩, ?_⟩
      have hregistered : (w.register source call).running previous = true :=
        (running_register hne).trans hruns
      rw [hregistered, if_pos rfl]
      exact tasks_cancelTask hregistered

theorem calls_start (keyed : source ≠ []) : (w.start source call).calls other =
    if other = call then some ⟨source, .awaiting false⟩ else w.calls other := by
  rw [← calls_register]
  unfold start
  rw [if_neg keyed]
  dsimp only
  split
  · rfl
  · split <;> rfl

theorem waits_start (keyed : source ≠ []) : (w.start source call).Waits s other ↔
    if other = call then s = source else w.Waits s other := by
  unfold Waits
  rw [calls_start keyed]
  by_cases h : other = call
  · simp [h, eq_comm]
  · simp [h]

theorem inflight_start (keyed : source ≠ []) :
    (w.start source call).flights.inflight = w.flights.inflight.set source call := by
  unfold start
  rw [if_neg keyed]
  dsimp only
  split
  · rfl
  · split <;> rfl

theorem lookup_start (keyed : source ≠ []) : (w.start source call).flights.inflight.lookup s =
    if s = source then some call else w.flights.inflight.lookup s := by
  rw [inflight_start keyed]
  exact OrderedDict.lookup_set ..

theorem mem_superseded_start (hw : w.Consistent) (fresh : w.calls call = none)
    (keyed : source ≠ []) : other ∈ (w.start source call).flights.superseded ↔
      other ∈ w.flights.superseded ∨ w.Evicts source other := by
  rcases start_cases hw fresh keyed with ⟨hnone, hstart⟩ | ⟨previous, hevicts, hstart⟩
  · rw [hstart]
    exact (or_iff_left (hnone other)).symm
  · have hother : w.Evicts source other ↔ other = previous := by
      constructor
      · rintro ⟨hslot, -⟩
        exact Option.some.inj (hslot.symm.trans hevicts.1)
      · rintro rfl
        exact hevicts
    rw [hstart, hother, or_comm]
    exact Finset.mem_insert

theorem tasks_start (hw : w.Consistent) (fresh : w.calls call = none) (keyed : source ≠ []) :
    (w.start source call).tasks other =
      if other = call then some (.pending false)
      else if w.Evicts source other then some (.pending true) else w.tasks other := by
  rcases start_cases hw fresh keyed with ⟨hnone, hstart⟩ | ⟨previous, hevicts, hstart⟩
  · rw [hstart, tasks_register, if_neg (hnone other)]
  · rw [hstart]
    show Function.update (w.register source call).tasks previous _ other = _
    have hne := ne_of_fresh fresh (hw.owner source previous hevicts.1).1
    by_cases hother : other = previous
    · subst hother
      rw [Function.update_self, if_neg hne, if_pos hevicts]
    · rw [Function.update_of_ne hother, tasks_register]
      have hnot : ¬ w.Evicts source other := fun h =>
        hother (Option.some.inj (h.1.symm.trans hevicts.1))
      rw [if_neg hnot]

end

/-! ## The slots stay consistent -/

namespace Consistent

variable {w : World α ε}

theorem init : (World.init : World α ε).Consistent where
  fresh _ _ := rfl
  owner source call h := by
    cases h
  displaced call h := absurd h (Finset.notMem_empty call)
  waiting source call h := by
    obtain ⟨mustCancel, hcall⟩ := h
    cases hcall

/-- A call moves to where it waits for its task just if it did before. -/
theorem setCall (hw : w.Consistent) {source : PyStr} {call : Nat} {progress : Progress α ε}
    (h : ∀ s, w.Waits s call ↔ s = source ∧ ∃ mustCancel, progress = .awaiting mustCancel) :
    (w.setCall call source progress).Consistent := by
  have hwaits : ∀ s other, (w.setCall call source progress).Waits s other ↔ w.Waits s other := by
    intro s other
    rw [waits_setCall]
    by_cases hother : other = call
    · rw [if_pos hother, hother, h]
    · rw [if_neg hother]
  refine ⟨?_, ?_, ?_, ?_⟩
  · intro other hother
    apply hw.fresh
    unfold World.setCall at hother
    by_cases hcall : other = call
    · simp [hcall] at hother
    · simpa [hcall] using hother
  · intro s other hslot
    rw [hwaits]
    exact hw.owner s other hslot
  · intro other hother
    simp only [hwaits]
    exact hw.displaced other hother
  · intro s other hother
    exact hw.waiting s other ((hwaits s other).mp hother)

/-- The task of a waiting call is asked to cancel, or ends.  If it was superseded, it ends cancelled. -/
theorem setTask (hw : w.Consistent) {source : PyStr} {call : Nat} (hcall : w.Waits source call)
    (hruns : w.running call = true) {state : AsyncTask α ε}
    (hstate : call ∈ w.flights.superseded → state = .pending true ∨ state = .done .cancelled) :
    (w.setTask call state).Consistent := by
  have htasks : ∀ other, (w.setTask call state).tasks other =
      if other = call then some state else w.tasks other := by
    intro other
    simp [World.setTask, Function.update_apply]
  refine ⟨?_, hw.owner, ?_, ?_⟩
  · intro other hother
    obtain ⟨mustCancel, hfound⟩ := hcall
    have hne : other ≠ call := by
      rintro rfl
      rw [show w.calls other = none from hother] at hfound
      cases hfound
    rw [htasks, if_neg hne]
    exact hw.fresh other hother
  · intro other hother
    refine ⟨(hw.displaced other hother).1, ?_⟩
    rw [htasks]
    by_cases h : other = call
    · subst h
      simpa using hstate hother
    · rw [if_neg h]
      exact (hw.displaced other hother).2
  · intro s other hother
    obtain ⟨hkeyed, htask, hplace⟩ := hw.waiting s other hother
    refine ⟨hkeyed, ?_, ?_⟩
    · rw [htasks]
      split
      · simp
      · exact htask
    · intro hrunning
      apply hplace
      by_cases h : other = call
      · rwa [h]
      · rw [running_iff] at hrunning ⊢
        rwa [htasks, if_neg h] at hrunning

/-- A new call takes the slot of its source. -/
theorem start (hw : w.Consistent) {source : PyStr} {call : Nat} (fresh : w.calls call = none)
    (keyed : source ≠ []) : (w.start source call).Consistent := by
  refine ⟨?_, ?_, ?_, ?_⟩
  · intro other hother
    obtain ⟨hne, hcalls⟩ : other ≠ call ∧ w.calls other = none := by
      rw [calls_start keyed] at hother
      by_cases h : other = call
      · simp [h] at hother
      · exact ⟨h, by rwa [if_neg h] at hother⟩
    rw [tasks_start hw fresh keyed, if_neg hne, if_neg, hw.fresh other hcalls]
    intro hevicts
    exact ne_of_fresh hcalls (hw.owner source other hevicts.1).1 rfl
  -- the slot of the source goes to the new call, the others keep theirs
  · intro s other hslot
    rw [lookup_start keyed] at hslot
    rw [waits_start keyed, mem_superseded_start hw fresh keyed]
    by_cases hs : s = source
    · rw [if_pos hs] at hslot
      rw [← Option.some.inj hslot, if_pos rfl]
      refine ⟨hs, ?_⟩
      rintro (hmem | hevicts)
      · obtain ⟨s', hwaits⟩ := (hw.displaced call hmem).1
        exact ne_of_fresh fresh hwaits rfl
      · exact ne_of_fresh fresh (hw.owner source call hevicts.1).1 rfl
    · rw [if_neg hs] at hslot
      obtain ⟨hwaits, hmem⟩ := hw.owner s other hslot
      rw [if_neg (ne_of_fresh fresh hwaits)]
      refine ⟨hwaits, ?_⟩
      rintro (hmem' | hevicts)
      · exact hmem hmem'
      · exact hs (hwaits.source_eq (hw.owner source other hevicts.1).1)
  · intro other hother
    obtain ⟨s, hwaits, htask⟩ : ∃ s, w.Waits s other ∧ (w.Evicts source other ∨
        w.tasks other = some (.pending true) ∨ w.tasks other = some (.done .cancelled)) := by
      rcases (mem_superseded_start hw fresh keyed).mp hother with hmem | hevicts
      · obtain ⟨⟨s, hwaits⟩, htask⟩ := hw.displaced other hmem
        exact ⟨s, hwaits, .inr htask⟩
      · exact ⟨source, (hw.owner source other hevicts.1).1, .inl hevicts⟩
    have hne := ne_of_fresh fresh hwaits
    rw [tasks_start hw fresh keyed, if_neg hne]
    refine ⟨⟨s, by rwa [waits_start keyed, if_neg hne]⟩, ?_⟩
    split
    · exact .inl rfl
    · rename_i hnot
      exact htask.resolve_left hnot
  -- whoever waits stays in its slot or among the superseded
  · intro s other hother
    rw [waits_start keyed] at hother
    rw [lookup_start keyed, mem_superseded_start hw fresh keyed]
    by_cases h : other = call
    · rw [if_pos h] at hother
      subst hother
      rw [tasks_start hw fresh keyed]
      simp [h, keyed]
    · rw [if_neg h] at hother
      obtain ⟨hkeyed, htask, hplace⟩ := hw.waiting s other hother
      refine ⟨hkeyed, ?_, fun hruns => ?_⟩
      · rw [tasks_start hw fresh keyed, if_neg h]
        split
        · simp
        · exact htask
      by_cases hevicts : w.Evicts source other
      · exact .inr (.inr hevicts)
      · have hbefore : w.running other = true := by
          rw [running_iff] at hruns ⊢
          rwa [tasks_start hw fresh keyed, if_neg h, if_neg hevicts] at hruns
        refine (hplace hbefore).imp (fun hslot => ?_) .inl
        rw [if_neg, hslot]
        rintro rfl
        exact hevicts ⟨hslot, hbefore⟩

/-- `run` ends and gives up its slot. -/
theorem resume [Runtime] (hw : w.Consistent) {source : PyStr} {call : Nat} (hcall : w.Waits source call)
    (outcome : Outcome α ε) : (w.resume source call outcome).Consistent := by
  have hwaits : ∀ s other, (w.resume source call outcome).Waits s other ↔
      other ≠ call ∧ w.Waits s other := by
    intro s other
    refine waits_setCall.trans ?_
    by_cases h : other = call
    · simp [h]
    · rw [if_neg h]
      exact (and_iff_right h).symm
  refine ⟨?_, ?_, ?_, ?_⟩
  · intro other hother
    apply hw.fresh
    by_cases h : other = call
    · simp [World.resume, World.setCall, h] at hother
    · simpa [World.resume, World.setCall, h] using hother
  · intro s other hslot
    obtain ⟨hslot, hne⟩ := lookup_release.mp hslot
    obtain ⟨hother, hmem⟩ := hw.owner s other hslot
    rw [hwaits]
    refine ⟨⟨?_, hother⟩, fun h => hmem (Finset.mem_of_mem_erase h)⟩
    rintro rfl
    exact hne ⟨hother.source_eq hcall, rfl⟩
  · intro other hother
    obtain ⟨hne, hmem⟩ := Finset.mem_erase.mp hother
    obtain ⟨⟨s, hs⟩, htask⟩ := hw.displaced other hmem
    exact ⟨⟨s, (hwaits s other).mpr ⟨hne, hs⟩⟩, htask⟩
  · intro s other hother
    obtain ⟨hne, hother⟩ := (hwaits s other).mp hother
    obtain ⟨hkeyed, htask, hplace⟩ := hw.waiting s other hother
    refine ⟨hkeyed, htask, fun hruns => ?_⟩
    refine (hplace hruns).imp (fun hslot => ?_) fun hmem => Finset.mem_erase.mpr ⟨hne, hmem⟩
    exact lookup_release.mpr ⟨hslot, fun h => hne h.2⟩

end Consistent

section
variable [Runtime] {w w' : World α ε} {e : Event α ε} {source : PyStr} {call : Nat}

theorem Consistent.moved {w w' : World α ε} {e : Event α ε} (hw : w.Consistent)
    (h : Moved w e w') : w'.Consistent := by
  cases h with
  | direct fresh =>
    apply hw.setCall
    intro s
    exact ⟨fun h => absurd rfl (ne_of_fresh fresh h), fun h => by simp at h⟩
  | opened fresh keyed => exact hw.start fresh keyed
  | finishedDirect suspended obeys => exact hw.setCall fun s => by simp [Waits, suspended]
  | finished waits runs obeys =>
    apply hw.setTask waits runs
    intro hmem
    obtain ⟨cancelling, htask⟩ := running_iff.mp runs
    rcases (hw.displaced _ hmem).2 with hpending | hdone
    · exact .inr (congrArg AsyncTask.done (obeys hpending))
    · rw [htask] at hdone
      cases hdone
  | cancelledDirect suspended => exact hw.setCall fun s => by simp [Waits, suspended]
  | cancelled waits runs =>
    rw [tasks_cancelTask runs]
    exact hw.setTask waits runs fun _ => .inl rfl
  | cancelledLate waits settled =>
    apply hw.setCall
    intro s
    exact ⟨fun h => ⟨h.source_eq waits, true, rfl⟩, fun h => h.1 ▸ waits⟩
  | resumed suspended settled => exact hw.resume ⟨_, suspended⟩ _

theorem Consistent.of_run {w w' : World α ε} {es : List (Event α ε)} (hw : w.Consistent)
    (h : Run Step w es w') : w'.Consistent :=
  h.invariant hw fun _ _ _ _ hstep hs => hs.moved hstep.moved

/-! ## What an event leaves alone -/

/-- The event displaces the call. -/
def Displaces (w : World α ε) (e : Event α ε) (call : Nat) : Prop :=
  e.act = .start ∧ e.source ≠ [] ∧ w.Evicts e.source call

/-- Another call stays where it is, and nothing happens to its task unless it is displaced. -/
theorem Moved.others (hw : w.Consistent) (hmoved : Moved w e w') (h : call ≠ e.call) :
    w'.calls call = w.calls call ∧
      (w'.tasks call = w.tasks call ∨
        w.Displaces e call ∧ w'.tasks call = some (.pending true)) ∧
      (call ∈ w'.flights.superseded ↔ call ∈ w.flights.superseded ∨ w.Displaces e call) := by
  have hset : ∀ {source : PyStr} {progress : Progress α ε},
      (w.setCall e.call source progress).calls call = w.calls call :=
    fun {_ _} => calls_setCall.trans (if_neg h)
  have htask : ∀ {state : AsyncTask α ε}, (w.setTask e.call state).tasks call = w.tasks call :=
    fun {_} => Function.update_of_ne h ..
  cases hmoved with
  | direct fresh => exact ⟨hset, .inl rfl, by simp [setCall, Displaces]⟩
  | opened fresh keyed =>
    refine ⟨(calls_start keyed).trans (if_neg h), ?_, ?_⟩
    · rw [tasks_start hw fresh keyed, if_neg h]
      split
      · rename_i hevicts
        exact .inr ⟨⟨rfl, keyed, hevicts⟩, rfl⟩
      · exact .inl rfl
    · rw [mem_superseded_start hw fresh keyed]
      simp [Displaces, keyed]
  | finishedDirect suspended obeys => exact ⟨hset, .inl rfl, by simp [setCall, Displaces]⟩
  | finished waits runs obeys => exact ⟨rfl, .inl htask, by simp [setTask, Displaces]⟩
  | cancelledDirect suspended => exact ⟨hset, .inl rfl, by simp [setCall, Displaces]⟩
  | cancelled waits runs =>
    rw [tasks_cancelTask runs]
    exact ⟨rfl, .inl htask, by simp [setTask, Displaces]⟩
  | cancelledLate waits settled => exact ⟨hset, .inl rfl, by simp [setCall, Displaces]⟩
  | resumed suspended settled =>
    refine ⟨hset, .inl rfl, ?_⟩
    show call ∈ Finset.erase _ _ ↔ _
    simpa [Displaces] using fun _ => h

/-- What happens to a call happens on its source. -/
theorem Moved.source_eq (hmoved : Moved w e w') :
    (∀ s progress, w.calls e.call = some ⟨s, progress⟩ → s = e.source) ∧
      ∃ progress, w'.calls e.call = some ⟨e.source, progress⟩ := by
  have hfound : ∀ {call source progress}, w.calls call = some ⟨source, progress⟩ →
      ∀ s progress', w.calls call = some ⟨s, progress'⟩ → s = source :=
    fun h _ _ h' => (call_inj h' h).1
  cases hmoved with
  | direct fresh => exact ⟨fun s progress h => by simp [fresh] at h, _, calls_setCall_self⟩
  | opened fresh keyed =>
    exact ⟨fun s progress h => by simp [fresh] at h, _, (calls_start keyed).trans (if_pos rfl)⟩
  | finishedDirect suspended obeys => exact ⟨hfound suspended, _, calls_setCall_self⟩
  | finished waits runs obeys =>
    obtain ⟨mustCancel, suspended⟩ := waits
    exact ⟨hfound suspended, _, suspended⟩
  | cancelledDirect suspended => exact ⟨hfound suspended, _, calls_setCall_self⟩
  | cancelled waits runs =>
    obtain ⟨mustCancel, suspended⟩ := waits
    exact ⟨hfound suspended, _, suspended⟩
  | cancelledLate waits settled =>
    obtain ⟨mustCancel, suspended⟩ := waits
    exact ⟨hfound suspended, _, calls_setCall_self⟩
  | resumed suspended settled => exact ⟨hfound suspended, _, calls_setCall_self⟩

/-- The slot of another source stays as it is. -/
theorem Moved.lookup_of_ne (hmoved : Moved w e w') {s : PyStr} (h : s ≠ e.source) :
    w'.flights.inflight.lookup s = w.flights.inflight.lookup s := by
  cases hmoved with
  | opened fresh keyed => exact (lookup_start keyed).trans (if_neg h)
  | resumed suspended settled =>
    show (release _ _ _).inflight.lookup s = _
    apply Option.ext
    intro call
    rw [lookup_release]
    exact and_iff_left fun hboth => h hboth.1
  | _ => rfl

end

end World

end HassNode.Vision
