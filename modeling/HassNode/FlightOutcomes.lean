import HassNode.FlightSources

/-!
# How the calls of a single flight end

A call that is displaced from its slot ends with `SUPERSEDED`, whatever becomes of its caller and of
its work, and no other call does.  The events of one source make a run of their own
(`World.restrict`), which is all that the calls on that source can notice.
-/

namespace HassNode.Vision

open Py Interleaving

variable {α ε : Type}

namespace World

section
variable [Runtime] {w w' : World α ε} {e : Event α ε} {source : PyStr} {call : Nat}

/-! ## Calls that were not replaced -/

/-- The call on the source was not replaced. -/
def Unreplaced (w : World α ε) (source : PyStr) (call : Nat) : Prop :=
  call ∉ w.flights.superseded ∧ ∃ progress, w.calls call = some ⟨source, progress⟩ ∧
    ∀ error, progress ≠ .ended (.replaced error)

/-- Only a new call on the same source replaces a call. -/
theorem Unreplaced.moved (hw : w.Consistent) (h : w.Unreplaced source call) (hmoved : Moved w e w')
    (hnew : e.act = .start → source ≠ [] → e.source ≠ source) : w'.Unreplaced source call := by
  obtain ⟨hmem, progress, hcall, hprogress⟩ := h
  by_cases hsame : call = e.call
  · subst hsame
    cases hmoved with
    | direct fresh =>
      rw [show w.calls _ = none from fresh] at hcall
      cases hcall
    | opened fresh keyed =>
      rw [show w.calls _ = none from fresh] at hcall
      cases hcall
    | finishedDirect suspended obeys =>
      obtain ⟨rfl, -⟩ := call_inj hcall suspended
      exact ⟨hmem, _, calls_setCall_self, by simp⟩
    | finished waits runs obeys => exact ⟨hmem, progress, hcall, hprogress⟩
    | cancelledDirect suspended =>
      obtain ⟨rfl, -⟩ := call_inj hcall suspended
      exact ⟨hmem, _, calls_setCall_self, by simp⟩
    | cancelled waits runs => exact ⟨hmem, progress, hcall, hprogress⟩
    | cancelledLate waits settled =>
      obtain ⟨mustCancel, suspended⟩ := waits
      obtain ⟨rfl, -⟩ := call_inj hcall suspended
      exact ⟨hmem, _, calls_setCall_self, by simp⟩
    | resumed suspended settled =>
      obtain ⟨rfl, -⟩ := call_inj hcall suspended
      refine ⟨fun h => hmem (Finset.mem_of_mem_erase h), _, calls_setCall_self, fun error herror => ?_⟩
      unfold endingOf at herror
      rw [Progress.ended.injEq] at herror
      split at herror
      · rw [if_neg hmem] at herror
        cases herror
      · cases herror
  · obtain ⟨hcalls, -, hsuperseded⟩ := hmoved.others hw hsame
    refine ⟨?_, progress, hcalls.trans hcall, hprogress⟩
    rw [hsuperseded]
    rintro (hbefore | ⟨hstart, hkeyed, hevicts⟩)
    · exact hmem hbefore
    · obtain ⟨mustCancel, hwaits⟩ := (hw.owner _ _ hevicts.1).1
      obtain ⟨rfl, -⟩ := call_inj hcall hwaits
      exact hnew hstart hkeyed rfl

/-! ## Calls that were -/

/-- The call was displaced from the slot of its source, and waits for its work or has ended with
`SUPERSEDED`. -/
def Replaced (w : World α ε) (source : PyStr) (call : Nat) : Prop :=
  (call ∈ w.flights.superseded ∧ w.Waits source call) ∨
    w.calls call = some ⟨source, .ended (.replaced (supersededError source))⟩

theorem endingOf_cancelled (h : call ∈ w.flights.superseded) :
    w.endingOf source call .cancelled = .replaced (supersededError source) := if_pos h

/-- The task of a displaced call was asked to cancel, so that nothing but `SUPERSEDED` can come of
it. -/
theorem Replaced.moved (hw : w.Consistent) (h : w.Replaced source call) (hmoved : Moved w e w') :
    w'.Replaced source call := by
  by_cases hsame : call = e.call
  · subst hsame
    rcases h with ⟨hmem, hwaits⟩ | hended
    · obtain ⟨mustCancel, hcall⟩ := id hwaits
      cases hmoved with
      | direct fresh => exact absurd rfl (ne_of_fresh fresh hwaits)
      | opened fresh keyed => exact absurd rfl (ne_of_fresh fresh hwaits)
      | finishedDirect suspended obeys => cases (call_inj hcall suspended).2
      | finished waits runs obeys => exact .inl ⟨hmem, hwaits⟩
      | cancelledDirect suspended => cases (call_inj hcall suspended).2
      | cancelled waits runs => exact .inl ⟨hmem, hwaits⟩
      | cancelledLate waits settled =>
        refine .inl ⟨hmem, true, ?_⟩
        rw [calls_setCall_self, hwaits.source_eq waits]
      | @resumed s call mustCancel' outcome suspended settled =>
        have houtcome : outcome = .cancelled := by
          rcases (hw.displaced call hmem).2 with htask | htask
          · rw [settled] at htask
            cases htask
          · rw [settled, Option.some.injEq, AsyncTask.done.injEq] at htask
            exact htask
        obtain ⟨rfl, -⟩ := call_inj hcall suspended
        refine .inr (calls_setCall_self.trans ?_)
        rw [houtcome, ite_self, endingOf_cancelled hmem]
    · -- nothing happens to a call that has ended
      cases hmoved with
      | direct fresh => cases hended.symm.trans fresh
      | opened fresh keyed => cases hended.symm.trans fresh
      | finishedDirect suspended obeys => cases (call_inj hended suspended).2
      | finished waits runs obeys => exact .inr hended
      | cancelledDirect suspended => cases (call_inj hended suspended).2
      | cancelled waits runs => exact .inr hended
      | cancelledLate waits settled =>
        obtain ⟨mustCancel, suspended⟩ := waits
        cases (call_inj hended suspended).2
      | resumed suspended settled => cases (call_inj hended suspended).2
  · obtain ⟨hcalls, -, hsuperseded⟩ := hmoved.others hw hsame
    unfold Replaced Waits
    rw [hcalls, hsuperseded]
    exact h.imp_left fun h => ⟨.inl h.1, h.2⟩

/-- A displaced call that has not ended needs nothing but its own work and itself to end. -/
theorem Replaced.ends (hw : w.Consistent) (h : w.Replaced source call) :
    ∃ es w', (∀ e ∈ es, e.call = call ∧ e.act ∈ [.finish .cancelled, .resume]) ∧ Run Step w es w' ∧
      w'.calls call = some ⟨source, .ended (.replaced (supersededError source))⟩ := by
  have hresume : ∀ {w : World α ε}, call ∈ w.flights.superseded → w.Waits source call →
      w.tasks call = some (.done .cancelled) → ∃ w', Step w ⟨source, call, .resume⟩ w' ∧
        w'.calls call = some ⟨source, .ended (.replaced (supersededError source))⟩ := by
    rintro w hmem ⟨mustCancel, hcall⟩ htask
    refine ⟨_, (Moved.resumed hcall htask).step, calls_setCall_self.trans ?_⟩
    rw [ite_self, endingOf_cancelled hmem]
  rcases h with ⟨hmem, hwaits⟩ | hended
  · rcases (hw.displaced call hmem).2 with htask | htask
    · have hruns := running_iff.mpr ⟨true, htask⟩
      have hfinish := (Moved.finished hwaits hruns fun _ => rfl).step
      obtain ⟨w', hstep, hended⟩ := hresume (w := w.setTask call (.done .cancelled)) hmem hwaits
        (Function.update_self ..)
      exact ⟨_, w', by simp, .cons hfinish (.single hstep), hended⟩
    · obtain ⟨w', hstep, hended⟩ := hresume hmem hwaits htask
      exact ⟨_, w', by simp, .single hstep, hended⟩
  · exact ⟨[], w, by simp, .nil w, hended⟩

omit [Runtime] in
/-- A new call displaces every call of its source whose work still runs. -/
theorem replaced_start [Runtime] (hw : w.Consistent) (fresh : w.calls call = none) (keyed : source ≠ [])
    {older : Nat} (hwaits : w.Waits source older) (hruns : w.running older = true) :
    (w.start source call).Replaced source older := by
  refine .inl ⟨?_, ?_⟩
  · rw [mem_superseded_start hw fresh keyed]
    rcases (hw.waiting source older hwaits).2.2 hruns with hslot | hmem
    · exact .inr ⟨hslot, hruns⟩
    · exact .inl hmem
  · rwa [waits_start keyed, if_neg (ne_of_fresh fresh hwaits)]

/-! ## The result that a caller receives -/

/-- The call has received the value, or will. -/
def Delivers (w : World α ε) (source : PyStr) (call : Nat) (value : α) : Prop :=
  (w.Waits source call ∧ w.tasks call = some (.done (.returned value))) ∨
    w.calls call = some ⟨source, .ended (.finished (.returned value))⟩

/-- What `run` returns is what its task did, unless the caller was cancelled. -/
theorem eq_of_endingOf_returned {mustCancel : Bool} {outcome : Outcome α ε} {value : α}
    (h : w.endingOf source call (if mustCancel then .cancelled else outcome) =
      .finished (.returned value)) : .returned value = outcome := by
  have hcancelled : w.endingOf source call .cancelled ≠ .finished (.returned value) := by
    unfold endingOf
    dsimp only
    split <;> simp
  cases mustCancel with
  | true => exact absurd h hcancelled
  | false =>
    cases outcome with
    | returned found => exact (Ending.finished.inj h).symm
    | raised error => exact (Ending.finished.inj h).symm
    | cancelled => exact absurd h hcancelled

/-- A value comes to a call from the end of its own work. -/
theorem Delivers.moved (hw : w.Consistent) {value : α} (hmoved : Moved w e w')
    (h : w'.Delivers source call value) :
    w.Delivers source call value ∨ e = ⟨source, call, .finish (.returned value)⟩ := by
  -- an event of another call can only ask the task of this one to cancel
  by_cases hsame : call = e.call
  · subst hsame
    cases hmoved with
    | direct fresh => simp [Delivers, waits_setCall, calls_setCall] at h
    | opened fresh keyed =>
      simp [Delivers, waits_start keyed, calls_start keyed, tasks_start hw fresh keyed] at h
    | finishedDirect suspended obeys =>
      right
      simp only [Delivers, waits_setCall, calls_setCall, if_true, Option.some.injEq, Call.mk.injEq,
        Progress.ended.injEq, Ending.finished.injEq, reduceCtorEq, exists_false, and_false, false_and,
        false_or] at h
      rw [h.1, h.2]
    -- the only event that puts a value into a task
    | @finished s call outcome waits runs obeys =>
      rcases h with ⟨hwaits, htask⟩ | hended
      · have hdone : outcome = .returned value := by
          simpa [setTask] using htask
        right
        rw [hdone, show source = s from Waits.source_eq hwaits waits]
      · exact .inl (.inr hended)
    | cancelledDirect suspended => simp [Delivers, waits_setCall, calls_setCall] at h
    | cancelled waits runs =>
      rw [tasks_cancelTask runs] at h
      refine .inl (h.imp_left fun h => ?_)
      simp [setTask] at h
    | cancelledLate waits settled =>
      simp only [Delivers, waits_setCall, calls_setCall, if_true] at h
      rcases h with ⟨⟨hsource, -⟩, htask⟩ | hended
      · exact .inl (.inl ⟨hsource ▸ waits, htask⟩)
      · simp at hended
    -- the value was in the task when the caller came back
    | @resumed s call mustCancel outcome suspended settled =>
      rcases h with ⟨⟨mustCancel', hcall⟩, -⟩ | hended
      · cases (call_inj calls_setCall_self hcall).2
      · obtain ⟨rfl, hending⟩ := call_inj calls_setCall_self hended
        refine .inl (.inl ⟨⟨mustCancel, suspended⟩, ?_⟩)
        rw [settled, ← eq_of_endingOf_returned (Progress.ended.inj hending)]
  · obtain ⟨hcalls, htasks, -⟩ := hmoved.others hw hsame
    unfold Delivers Waits at h
    rw [hcalls] at h
    refine .inl (h.imp_left fun h => ⟨h.1, ?_⟩)
    rcases htasks with htasks | ⟨-, htasks⟩
    · exact htasks.symm.trans h.2
    · rw [htasks] at h
      cases h.2

/-! ## Over a whole run -/

/-- What the calls have come to after the events of a run. -/
structure Superseding (es : List (Event α ε)) (w : World α ε) : Prop where
  /-- The call that was started last on a source is not superseded, nor is one without a source, and
  the slot is its own as long as its work runs. -/
  newest : ∀ before source call after, es = before ++ ⟨source, call, .start⟩ :: after →
    (source ≠ [] → ∀ e ∈ after, e.act = .start → e.source ≠ source) →
    w.Unreplaced source call ∧ (w.Waits source call → w.running call = true →
      w.flights.inflight.lookup source = some call)
  /-- A call whose work runs when a newer one starts ends with `SUPERSEDED`: it has not ended in any
  other way, and its work and the call itself are all that it takes. -/
  older : ∀ before source call after w₀ older, es = before ++ ⟨source, call, .start⟩ :: after →
    source ≠ [] → Run Step World.init before w₀ → w₀.Waits source older →
    w₀.running older = true →
    (∀ ending, w.calls older = some ⟨source, .ended ending⟩ →
      ending = .replaced (supersededError source)) ∧
    ∃ rest w', (∀ e ∈ rest, e.call = older ∧ e.act ∈ [.finish .cancelled, .resume]) ∧
      Run Step w rest w' ∧
        w'.calls older = some ⟨source, .ended (.replaced (supersededError source))⟩
  /-- A caller receives what its own work returned. -/
  own : ∀ source call value, w.calls call = some ⟨source, .ended (.finished (.returned value))⟩ →
    ⟨source, call, .finish (.returned value)⟩ ∈ es
  /-- A source sees the run that its own events make. -/
  apart : ∀ source,
    Run Step World.init (es.filter fun e => e.source = source) (w.restrict source)
  /-- Calls that have ended leave nothing behind. -/
  cleared : (∀ call source progress, w.calls call = some ⟨source, progress⟩ →
    ∃ ending, progress = .ended ending) → w.flights = .empty

omit [Runtime] in
theorem restrict_init : (World.init : World α ε).restrict source = World.init := by
  apply World.ext
  · rfl
  · funext call
    exact tasks_restrict_of_not (not_on_of_fresh rfl)
  · funext call
    exact calls_restrict_of_not (not_on_of_fresh rfl)

omit [Runtime] in
/-- Every task of the registry is awaited by its call. -/
theorem Consistent.cleared (hw : w.Consistent)
    (hended : ∀ call source, ¬ w.Waits source call) : w.flights = .empty := by
  apply SingleFlight.ext
  · apply OrderedDict.eq_empty_of_lookup
    intro source
    cases hslot : w.flights.inflight.lookup source with
    | none => rfl
    | some call => exact absurd (hw.owner source call hslot).1 (hended call source)
  · apply Finset.eq_empty_of_forall_notMem
    intro call hmem
    obtain ⟨source, hwaits⟩ := (hw.displaced call hmem).1
    exact hended call source hwaits

theorem moved_start {w' : World α ε} (h : Moved w ⟨source, call, .start⟩ w') :
    w.calls call = none ∧ w' = w.start source call := by
  cases h with
  | direct fresh => exact ⟨fresh, rfl⟩
  | opened fresh keyed => exact ⟨fresh, rfl⟩

omit [Runtime] in
/-- A call that has just started was not replaced. -/
theorem unreplaced_start (hw : w.Consistent) (fresh : w.calls call = none) :
    (w.start source call).Unreplaced source call := by
  have hmem : call ∉ w.flights.superseded := by
    intro hmem
    obtain ⟨s, hwaits⟩ := (hw.displaced call hmem).1
    exact ne_of_fresh fresh hwaits rfl
  by_cases hsource : source = []
  · unfold start
    rw [if_pos hsource]
    exact ⟨hmem, _, calls_setCall_self, by simp⟩
  · refine ⟨?_, _, (calls_start hsource).trans (if_pos rfl), by simp⟩
    rw [mem_superseded_start hw fresh hsource]
    rintro (hbefore | hevicts)
    · exact hmem hbefore
    · exact ne_of_fresh fresh (hw.owner source call hevicts.1).1 rfl

/-- In every run the newest call of a source displaces the others, and no other call notices. -/
theorem single_flight {es : List (Event α ε)} (h : Run Step World.init es w) :
    Superseding es w where
  newest := by
    rintro before source call after rfl hlast
    obtain ⟨w₁, hbefore, hrest⟩ := run_append_iff.mp h
    obtain ⟨w₂, hstart, hafter⟩ := run_cons_iff.mp hrest
    have hw₁ := Consistent.init.of_run hbefore
    obtain ⟨fresh, rfl⟩ := moved_start hstart.moved
    have hkept : w.Consistent ∧ w.Unreplaced source call := by
      apply hafter.invariant ⟨hw₁.moved hstart.moved, unreplaced_start hw₁ fresh⟩
      rintro w e w' he hstep ⟨hw, hcall⟩
      exact ⟨hw.moved hstep.moved, hcall.moved hw hstep.moved fun hact hkeyed => hlast hkeyed e he hact⟩
    refine ⟨hkept.2, fun hwaits hruns => ?_⟩
    exact ((hkept.1.waiting source call hwaits).2.2 hruns).resolve_right hkept.2.1
  older := by
    rintro before source call after w₀ older rfl hkeyed hbefore hwaits hruns
    obtain ⟨w₁, hbefore', hrest⟩ := run_append_iff.mp h
    obtain ⟨w₂, hstart, hafter⟩ := run_cons_iff.mp hrest
    obtain rfl : w₁ = w₀ := hbefore'.unique
      (fun _ _ _ _ h h' => Option.some.inj (h.1.symm.trans h'.1)) hbefore
    have hw₁ := Consistent.init.of_run hbefore
    obtain ⟨fresh, rfl⟩ := moved_start hstart.moved
    have hkept : w.Consistent ∧ w.Replaced source older := by
      apply hafter.invariant ⟨hw₁.moved hstart.moved, replaced_start hw₁ fresh hkeyed hwaits hruns⟩
      rintro w e w' - hstep ⟨hw, hcall⟩
      exact ⟨hw.moved hstep.moved, hcall.moved hw hstep.moved⟩
    refine ⟨fun ending hended => ?_, hkept.2.ends hkept.1⟩
    rcases hkept.2 with ⟨-, mustCancel, hcall⟩ | hcall
    · cases (call_inj hcall hended).2
    · exact (Progress.ended.inj (call_inj hcall hended).2).symm
  own := by
    have hdelivered : w.Consistent ∧ ∀ source call value, w.Delivers source call value →
        ⟨source, call, .finish (.returned value)⟩ ∈ es := by
      apply h.history
      · refine ⟨.init, ?_⟩
        rintro source call value (⟨⟨mustCancel, hcall⟩, -⟩ | hcall) <;> cases hcall
      · rintro es w e w' hstep ⟨hw, hdelivered⟩
        refine ⟨hw.moved hstep.moved, fun source call value hvalue => ?_⟩
        rw [List.mem_append, List.mem_singleton]
        exact (hvalue.moved hw hstep.moved).imp (hdelivered source call value) Eq.symm
    intro source call value hended
    exact hdelivered.2 source call value (.inr hended)
  apart source := by
    have hrun := run_restrict Consistent.init h source
    rwa [restrict_init] at hrun
  cleared hended := by
    apply (Consistent.init.of_run h).cleared
    rintro call source ⟨mustCancel, hcall⟩
    obtain ⟨ending, hprogress⟩ := hended call source _ hcall
    cases hprogress

end

end World

/-! ## Two calls for one camera -/

namespace FlightSample

scoped instance runtime : Runtime := .ofTable []

/-- Another call for the camera comes while the first one waits for its answer. -/
def replacedEvents : List (Event Nat Unit) :=
  [⟨py "cam", 0, .start⟩, ⟨py "cam", 1, .start⟩, ⟨py "cam", 0, .finish .cancelled⟩,
    ⟨py "cam", 0, .resume⟩, ⟨py "cam", 1, .finish (.returned 5)⟩, ⟨py "cam", 1, .resume⟩]

theorem replaced_run : ∃ w, Run World.Step World.init replacedEvents w ∧
    w.calls 0 = some ⟨py "cam", .ended (.replaced (World.supersededError (py "cam")))⟩ ∧
    w.calls 1 = some ⟨py "cam", .ended (.finished (.returned 5))⟩ := by
  refine ⟨_, .cons ⟨rfl, ?_⟩ (.cons ⟨rfl, ?_⟩ (.cons ⟨rfl, ?_⟩ (.cons ⟨rfl, ?_⟩
    (.cons ⟨rfl, ?_⟩ (.single ⟨rfl, ?_⟩))))), rfl, rfl⟩
  · rintro outcome ⟨⟩
  · rintro outcome ⟨⟩
  · rintro outcome ⟨⟩ -
    rfl
  · rintro outcome ⟨⟩
  · rintro outcome ⟨⟩ (hcancelling : some (AsyncTask.pending false) = some (.pending true))
    cases hcancelling
  · rintro outcome ⟨⟩

theorem replaced_superseding : ∃ w, World.Superseding replacedEvents w := by
  obtain ⟨w, hrun, -, -⟩ := replaced_run
  exact ⟨w, World.single_flight hrun⟩

/-- Two calls without a source run side by side.  And the answer for the first call is there, though
the call has not gone on, when another one starts: it keeps the answer. -/
theorem older_not_superseded :
    (∃ w₀ w, Run World.Step (World.init : World Nat Unit) [⟨[], 0, .start⟩] w₀ ∧
      w₀.calls 0 = some ⟨[], .direct false⟩ ∧
      Run World.Step w₀ [⟨[], 1, .start⟩, ⟨[], 0, .finish (.returned 7)⟩] w ∧
      w.calls 0 = some ⟨[], .ended (.finished (.returned 7))⟩) ∧
    ∃ w₀ w, Run World.Step (World.init : World Nat Unit)
        [⟨py "cam", 0, .start⟩, ⟨py "cam", 0, .finish (.returned 7)⟩] w₀ ∧
      w₀.calls 0 = some ⟨py "cam", .awaiting false⟩ ∧
      Run World.Step w₀ [⟨py "cam", 1, .start⟩, ⟨py "cam", 0, .resume⟩] w ∧
      w.calls 0 = some ⟨py "cam", .ended (.finished (.returned 7))⟩ := by
  constructor
  · refine ⟨_, _, .single ⟨rfl, ?_⟩, rfl, .cons ⟨rfl, ?_⟩ (.single ⟨rfl, ?_⟩), rfl⟩
    · rintro outcome ⟨⟩
    · rintro outcome ⟨⟩
    · rintro outcome ⟨⟩ (hcancelling : false = true)
      cases hcancelling
  · refine ⟨_, _, .cons ⟨rfl, ?_⟩ (.single ⟨rfl, ?_⟩), rfl, .cons ⟨rfl, ?_⟩ (.single ⟨rfl, ?_⟩), rfl⟩
    · rintro outcome ⟨⟩
    · rintro outcome ⟨⟩ (hcancelling : some (AsyncTask.pending false) = some (.pending true))
      cases hcancelling
    · rintro outcome ⟨⟩
    · rintro outcome ⟨⟩

end FlightSample

end HassNode.Vision
