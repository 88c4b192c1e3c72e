import HassNode.FlightSlots
import Mathlib.Data.Finset.Filter

/-!
# Calls on different sources

`World.restrict` is what one source knows of the world: its slot, its calls and their tasks.  An event
on the source does to it what it does to the whole world, and any other event does nothing.
-/

namespace HassNode.Vision

open Py Interleaving

variable {α ε : Type}

namespace World

/-- The call is one on the source. -/
def On (w : World α ε) (source : PyStr) (call : Nat) : Prop :=
  (w.calls call).map Call.source = some source

instance (w : World α ε) (source : PyStr) : DecidablePred (w.On source) :=
  fun _ => inferInstanceAs (Decidable (_ = _))

/-- The world of the calls on one source. -/
def restrict (w : World α ε) (source : PyStr) : World α ε where
  flights.inflight := w.flights.inflight.only source
  flights.superseded := w.flights.superseded.filter (w.On source)
  tasks call := if w.On source call then w.tasks call else none
  calls call := if w.On source call then w.calls call else none

section
variable {w w' : World α ε} {e : Event α ε} {source : PyStr} {call other : Nat}

theorem on_iff : w.On source call ↔ ∃ progress, w.calls call = some ⟨source, progress⟩ := by
  unfold On
  rw [Option.map_eq_some_iff]
  constructor
  · rintro ⟨⟨s, progress⟩, hcall, rfl⟩
    exact ⟨progress, hcall⟩
  · rintro ⟨progress, hcall⟩
    exact ⟨_, hcall, rfl⟩

theorem Waits.on (h : w.Waits source call) : w.On source call := by
  obtain ⟨mustCancel, hcall⟩ := h
  exact on_iff.mpr ⟨_, hcall⟩

theorem not_on_of_fresh (fresh : w.calls call = none) : ¬ w.On source call := by
  simp [On, fresh]

theorem tasks_restrict (h : w.On source call) : (w.restrict source).tasks call = w.tasks call :=
  if_pos h

theorem calls_restrict (h : w.On source call) : (w.restrict source).calls call = w.calls call :=
  if_pos h

theorem tasks_restrict_of_not (h : ¬ w.On source call) : (w.restrict source).tasks call = none :=
  if_neg h

theorem calls_restrict_of_not (h : ¬ w.On source call) : (w.restrict source).calls call = none :=
  if_neg h

theorem running_restrict (h : w.On source call) :
    (w.restrict source).running call = w.running call := by
  unfold running
  rw [tasks_restrict h]

theorem waits_restrict (h : w.Waits source call) : (w.restrict source).Waits source call := by
  obtain ⟨mustCancel, hcall⟩ := h
  exact ⟨mustCancel, (calls_restrict (on_iff.mpr ⟨_, hcall⟩)).trans hcall⟩

/-! ## Operations of the source -/

theorem on_setCall {s : PyStr} {progress : Progress α ε} :
    (w.setCall call source progress).On s other ↔
      if other = call then source = s else w.On s other := by
  unfold On
  rw [calls_setCall]
  split
  · simp
  · rfl

theorem restrict_setCall (hw : w.Consistent) (h : w.calls call = none ∨ w.On source call)
    {progress : Progress α ε} : (w.setCall call source progress).restrict source =
      (w.restrict source).setCall call source progress := by
  have hon : ∀ other, (w.setCall call source progress).On source other ↔
      other = call ∨ w.On source other := by
    intro other
    rw [on_setCall]
    by_cases hother : other = call
    · simp [hother]
    · simp [hother]
  have hnot : ¬ w.On source call → w.tasks call = none ∧ call ∉ w.flights.superseded := by
    intro hnot
    have fresh := h.resolve_right hnot
    refine ⟨hw.fresh call fresh, fun hmem => ?_⟩
    obtain ⟨s, hwaits⟩ := (hw.displaced call hmem).1
    exact ne_of_fresh fresh hwaits rfl
  apply World.ext
  · apply SingleFlight.ext
    · rfl
    · apply Finset.ext
      intro other
      show other ∈ Finset.filter _ _ ↔ other ∈ Finset.filter _ _
      rw [Finset.mem_filter, Finset.mem_filter, hon]
      refine and_congr_right fun hmem => or_iff_right_of_imp ?_
      rintro rfl
      by_contra hother
      exact (hnot hother).2 hmem
  · funext other
    show (if (w.setCall call source progress).On source other then w.tasks other else none) =
      if w.On source other then w.tasks other else none
    by_cases hother : w.On source other
    · rw [if_pos hother, if_pos ((hon other).mpr (.inr hother))]
    · rw [if_neg hother]
      split
      · rename_i hcall
        rcases (hon other).mp hcall with rfl | hcall
        · exact (hnot hother).1
        · exact absurd hcall hother
      · rfl
  · funext other
    rw [calls_setCall]
    show (if (w.setCall call source progress).On source other then
      (w.setCall call source progress).calls other else none) = _
    rw [calls_setCall]
    by_cases hother : other = call
    · rw [if_pos hother, if_pos hother, if_pos ((hon other).mpr (.inl hother))]
    · rw [if_neg hother, if_neg hother]
      refine if_congr ?_ rfl rfl
      rw [hon, or_iff_right hother]

theorem restrict_setTask (h : w.On source call) {state : AsyncTask α ε} :
    (w.setTask call state).restrict source = (w.restrict source).setTask call state := by
  apply World.ext
  · rfl
  · funext other
    show (if w.On source other then Function.update w.tasks call (some state) other else none) =
      Function.update (w.restrict source).tasks call (some state) other
    by_cases hother : other = call
    · subst hother
      rw [if_pos h, Function.update_self, Function.update_self]
    · rw [Function.update_of_ne hother, Function.update_of_ne hother]
      rfl
  · rfl

theorem restrict_register (hw : w.Consistent) (fresh : w.calls call = none) :
    (w.register source call).restrict source = (w.restrict source).register source call := by
  have hon : ∀ other, (w.register source call).On source other ↔
      other = call ∨ w.On source other := by
    intro other
    refine on_setCall.trans ?_
    by_cases hother : other = call
    · simp [hother]
    · rw [if_neg hother, or_iff_right hother]
      rfl
  apply World.ext
  · apply SingleFlight.ext
    · exact OrderedDict.only_set ..
    · apply Finset.ext
      intro other
      show other ∈ Finset.filter _ _ ↔ other ∈ Finset.filter _ _
      rw [Finset.mem_filter, Finset.mem_filter, hon]
      refine and_congr_right fun hmem => or_iff_right_of_imp ?_
      rintro rfl
      obtain ⟨s, hwaits⟩ := (hw.displaced other hmem).1
      exact absurd rfl (ne_of_fresh fresh hwaits)
  · funext other
    show (if (w.register source call).On source other then (w.register source call).tasks other
      else none) = ((w.restrict source).register source call).tasks other
    rw [tasks_register, tasks_register]
    by_cases hother : other = call
    · rw [if_pos hother, if_pos hother, if_pos ((hon other).mpr (.inl hother))]
    · rw [if_neg hother, if_neg hother]
      refine if_congr ?_ rfl rfl
      rw [hon, or_iff_right hother]
  · funext other
    show (if (w.register source call).On source other then (w.register source call).calls other
      else none) = ((w.restrict source).register source call).calls other
    rw [calls_register, calls_register]
    by_cases hother : other = call
    · rw [if_pos hother, if_pos hother, if_pos ((hon other).mpr (.inl hother))]
    · rw [if_neg hother, if_neg hother]
      refine if_congr ?_ rfl rfl
      rw [hon, or_iff_right hother]

theorem restrict_supersede (h : w.On source call) :
    (w.supersede call).restrict source = (w.restrict source).supersede call := by
  apply World.ext
  · apply SingleFlight.ext
    · rfl
    · apply Finset.ext
      intro other
      show other ∈ Finset.filter (w.On source) (insert call _) ↔ other ∈ insert call (Finset.filter _ _)
      rw [Finset.mem_filter, Finset.mem_insert, Finset.mem_insert, Finset.mem_filter]
      constructor
      · rintro ⟨rfl | hmem, hon⟩
        · exact .inl rfl
        · exact .inr ⟨hmem, hon⟩
      · rintro (rfl | ⟨hmem, hon⟩)
        · exact ⟨.inl rfl, h⟩
        · exact ⟨.inr hmem, hon⟩
  · funext other
    show (if w.On source other then Function.update w.tasks call ((w.tasks call).map .cancel) other
      else none) = Function.update (w.restrict source).tasks call
        (((w.restrict source).tasks call).map .cancel) other
    rw [tasks_restrict h]
    by_cases hother : other = call
    · subst hother
      rw [if_pos h, Function.update_self, Function.update_self]
    · rw [Function.update_of_ne hother, Function.update_of_ne hother]
      rfl
  · rfl

theorem lookup_restrict : (w.restrict source).flights.inflight.lookup source =
    w.flights.inflight.lookup source := OrderedDict.lookup_only ..

theorem restrict_start (hw : w.Consistent) (fresh : w.calls call = none) :
    (w.start source call).restrict source = (w.restrict source).start source call := by
  unfold start
  by_cases hsource : source = []
  · rw [if_pos hsource, if_pos hsource, restrict_setCall hw (.inl fresh)]
  · rw [if_neg hsource, if_neg hsource, lookup_restrict, ← restrict_register hw fresh]
    cases hslot : w.flights.inflight.lookup source with
    | none => rfl
    | some previous =>
      have hwaits := (hw.owner source previous hslot).1
      have hon : (w.register source call).On source previous := by
        refine on_setCall.mpr ?_
        rw [if_neg (ne_of_fresh fresh hwaits)]
        exact hwaits.on
      dsimp only
      rw [running_restrict hon, ← restrict_supersede hon]
      split <;> rfl

section
variable [Runtime]

theorem endingOf_restrict (h : w.On source call) (outcome : Outcome α ε) :
    (w.restrict source).endingOf source call outcome = w.endingOf source call outcome := by
  unfold endingOf
  cases outcome with
  | cancelled =>
    refine if_congr ?_ rfl rfl
    show call ∈ Finset.filter _ _ ↔ _
    rw [Finset.mem_filter, and_iff_left h]
  | _ => rfl

theorem restrict_resume (h : w.On source call) (outcome : Outcome α ε) :
    (w.resume source call outcome).restrict source =
      (w.restrict source).resume source call outcome := by
  have hon : ∀ other, (w.resume source call outcome).On source other ↔ w.On source other := by
    intro other
    refine on_setCall.trans ?_
    split
    · rename_i hother
      simp [hother, h]
    · rfl
  apply World.ext
  · apply SingleFlight.ext
    · show OrderedDict.only (release w.flights source call).inflight source =
        (release (w.restrict source).flights source call).inflight
      unfold release
      dsimp only
      rw [lookup_restrict]
      split
      · exact OrderedDict.only_erase ..
      · rfl
    · apply Finset.ext
      intro other
      show other ∈ Finset.filter ((w.resume source call outcome).On source)
        (w.flights.superseded.erase call) ↔ other ∈ Finset.erase (Finset.filter _ _) call
      rw [Finset.mem_filter, Finset.mem_erase, Finset.mem_erase, Finset.mem_filter, hon, and_assoc]
  · funext other
    exact if_congr (hon other) rfl rfl
  · funext other
    show (if (w.resume source call outcome).On source other then
      (w.setCall call source (.ended (w.endingOf source call outcome))).calls other else none) =
        ((w.restrict source).setCall call source
          (.ended ((w.restrict source).endingOf source call outcome))).calls other
    rw [calls_setCall, calls_setCall, endingOf_restrict h]
    by_cases hother : other = call
    · rw [if_pos hother, if_pos hother, if_pos]
      rw [hon, hother]
      exact h
    · rw [if_neg hother, if_neg hother]
      exact if_congr (hon other) rfl rfl

/-! ## Events -/

/-- An event of the source is one of its world alone. -/
theorem Moved.restrict (hw : w.Consistent) (h : Moved w e w') :
    Moved (w.restrict e.source) e (w'.restrict e.source) := by
  cases h with
  | direct fresh =>
    rw [restrict_setCall hw (.inl fresh)]
    exact .direct (calls_restrict_of_not (not_on_of_fresh fresh))
  | opened fresh keyed =>
    rw [restrict_start hw fresh]
    exact .opened (calls_restrict_of_not (not_on_of_fresh fresh)) keyed
  | finishedDirect suspended obeys =>
    have hon := on_iff.mpr ⟨_, suspended⟩
    rw [restrict_setCall hw (.inr hon)]
    exact .finishedDirect ((calls_restrict hon).trans suspended) obeys
  | finished waits runs obeys =>
    rw [restrict_setTask waits.on]
    refine .finished (waits_restrict waits) ((running_restrict waits.on).trans runs) ?_
    rwa [tasks_restrict waits.on]
  | cancelledDirect suspended =>
    have hon := on_iff.mpr ⟨_, suspended⟩
    rw [restrict_setCall hw (.inr hon)]
    exact .cancelledDirect ((calls_restrict hon).trans suspended)
  | cancelled waits runs =>
    have hruns := (running_restrict waits.on).trans runs
    rw [tasks_cancelTask runs, restrict_setTask waits.on, ← tasks_cancelTask hruns]
    exact .cancelled (waits_restrict waits) hruns
  | cancelledLate waits settled =>
    rw [restrict_setCall hw (.inr waits.on)]
    exact .cancelledLate (waits_restrict waits) ((running_restrict waits.on).trans settled)
  | resumed suspended settled =>
    have hon := on_iff.mpr ⟨_, suspended⟩
    rw [restrict_resume hon]
    exact .resumed ((calls_restrict hon).trans suspended) ((tasks_restrict hon).trans settled)

/-- An event on another source changes nothing. -/
theorem Moved.restrict_of_ne (hw : w.Consistent) (h : Moved w e w') (hsource : source ≠ e.source) :
    w'.restrict source = w.restrict source := by
  obtain ⟨hbefore, progress, hafter⟩ := h.source_eq
  have hself : ¬ w.On source e.call ∧ ¬ w'.On source e.call := by
    rw [on_iff, on_iff]
    constructor
    · rintro ⟨progress', hcall⟩
      exact hsource (hbefore source progress' hcall)
    · rintro ⟨progress', hcall⟩
      exact hsource (call_inj hcall hafter).1
  have hon : ∀ call, w'.On source call ↔ w.On source call := by
    intro call
    by_cases hcall : call = e.call
    · rw [hcall]
      exact iff_of_false hself.2 hself.1
    · unfold On
      rw [(h.others hw hcall).1]
  have hkept : ∀ call, w.On source call → call ≠ e.call ∧ ¬ w.Displaces e call := by
    rintro call hcall
    refine ⟨?_, fun hdisplaces => ?_⟩
    · rintro rfl
      exact hself.1 hcall
    · obtain ⟨progress', hcall⟩ := on_iff.mp hcall
      obtain ⟨mustCancel, hwaits⟩ := (hw.owner _ _ hdisplaces.2.2.1).1
      exact hsource (call_inj hcall hwaits).1
  apply World.ext
  · apply SingleFlight.ext
    · exact OrderedDict.only_congr (h.lookup_of_ne hsource)
    · apply Finset.ext
      intro call
      show call ∈ Finset.filter _ _ ↔ call ∈ Finset.filter _ _
      rw [Finset.mem_filter, Finset.mem_filter, hon]
      refine and_congr_left fun hcall => ?_
      rw [(h.others hw (hkept call hcall).1).2.2, or_iff_left (hkept call hcall).2]
  · funext call
    show (if w'.On source call then w'.tasks call else none) =
      if w.On source call then w.tasks call else none
    by_cases hcall : w.On source call
    · rw [if_pos ((hon call).mpr hcall), if_pos hcall]
      rcases (h.others hw (hkept call hcall).1).2.1 with htask | hdisplaced
      · exact htask
      · exact absurd hdisplaced.1 (hkept call hcall).2
    · rw [if_neg fun h => hcall ((hon call).mp h), if_neg hcall]
  · funext call
    show (if w'.On source call then w'.calls call else none) =
      if w.On source call then w.calls call else none
    by_cases hcall : w.On source call
    · rw [if_pos ((hon call).mpr hcall), if_pos hcall, (h.others hw (hkept call hcall).1).1]
    · rw [if_neg fun h => hcall ((hon call).mp h), if_neg hcall]

/-- The events on one source make a run of their own. -/
theorem run_restrict (hw : w.Consistent) {es : List (Event α ε)} (h : Run Step w es w')
    (source : PyStr) :
    Run Step (w.restrict source) (es.filter fun e => e.source = source) (w'.restrict source) := by
  apply h.project hw
  · intro w e w' hstep hw
    exact hw.moved hstep.moved
  · rintro w e w' hstep hw rfl
    exact (hstep.moved.restrict hw).step
  · intro w e w' hstep hw hsource
    exact hstep.moved.restrict_of_ne hw (Ne.symm hsource)

end

end

end World

end HassNode.Vision
