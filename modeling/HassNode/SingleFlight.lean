import HassNode.Library.OrderedDict
import HassNode.VisionPrompt
import Mathlib.Data.Finset.Erase
import Mathlib.Data.Finset.Insert
import Mathlib.Logic.Function.Basic

/-!
# The single flight of vision requests

Any number of callers share one `SingleFlight`.  A caller suspends only while it awaits the task that
it made for its work, so every piece of `run` between two suspensions is one event of the `World`, in
which works end and callers are cancelled at any time.  `Moved` says case by case what an event does.
-/

namespace HassNode.Vision

open Py

/-- How an awaited work ends: with its result, an exception or a `CancelledError`. -/
inductive Outcome (α ε : Type) where
  | returned (value : α)
  | raised (error : ε)
  | cancelled

/-- An `asyncio.Task`.  One that was asked to cancel still runs until its work has ended. -/
inductive AsyncTask (α ε : Type) where
  | pending (cancelling : Bool)
  | done (outcome : Outcome α ε)

/-- `task.cancel()`. -/
def AsyncTask.cancel {α ε : Type} : AsyncTask α ε → AsyncTask α ε
  | .pending _ => .pending true
  | .done outcome => .done outcome

/-- How `run` ends: as the work did, or with the error of a call that was replaced. -/
inductive Ending (α ε : Type) where
  | finished (outcome : Outcome α ε)
  | replaced (error : VisionError)

/-- Where a call of `run` is suspended. -/
inductive Progress (α ε : Type) where
  | direct (cancelling : Bool)     -- `return await work()`
  | awaiting (mustCancel : Bool)   -- `return await task`
  | ended (ending : Ending α ε)

structure Call (α ε : Type) where
  source : PyStr
  progress : Progress α ε

/-- A `SingleFlight`: the task in flight of each source, and the tasks that were replaced. -/
@[ext] structure SingleFlight where
  inflight : OrderedDict PyStr Nat
  superseded : Finset Nat

def SingleFlight.empty : SingleFlight := ⟨∅, ∅⟩

/-- The calls so far, by number.  The task that a call makes has the number of the call. -/
@[ext] structure World (α ε : Type) where
  flights : SingleFlight
  tasks : Nat → Option (AsyncTask α ε)
  calls : Nat → Option (Call α ε)

/-- What happens to a call: it starts, its work ends, its caller is cancelled, or it goes on with the
task that it awaited. -/
inductive Act (α ε : Type) where
  | start
  | finish (outcome : Outcome α ε)
  | cancel
  | resume

structure Event (α ε : Type) where
  source : PyStr
  call : Nat
  act : Act α ε

variable {α ε : Type}

/-- No call was made yet. -/
def World.init : World α ε := ⟨.empty, fun _ => none, fun _ => none⟩

namespace World

def setTask (w : World α ε) (task : Nat) (state : AsyncTask α ε) : World α ε :=
  { w with tasks := Function.update w.tasks task (some state) }

def setCall (w : World α ε) (call : Nat) (source : PyStr) (progress : Progress α ε) : World α ε :=
  { w with calls := Function.update w.calls call (some ⟨source, progress⟩) }

def cancelTask (w : World α ε) (task : Nat) : World α ε :=
  { w with tasks := Function.update w.tasks task ((w.tasks task).map .cancel) }

/-- `not task.done()`. -/
def running (w : World α ε) (task : Nat) : Bool :=
  match w.tasks task with
  | some (.pending _) => true
  | _ => false

/-! ## The pieces of `run` -/

/-- `self._superseded.add(previous)` and `previous.cancel()`. -/
def supersede (w : World α ε) (previous : Nat) : World α ε :=
  { w with flights.superseded := insert previous w.flights.superseded }.cancelTask previous

/-- The task of a call takes the slot of its source, and the call waits for it. -/
def register (w : World α ε) (source : PyStr) (task : Nat) : World α ε :=
  let created := w.setTask task (.pending false)
  { created with flights.inflight := w.flights.inflight.set source task }.setCall task source
    (.awaiting false)

/-- `run`, up to where it waits for its work. -/
def start (w : World α ε) (source : PyStr) (task : Nat) : World α ε :=
  if source = [] then w.setCall task source (.direct false)
  else
    let registered := w.register source task
    match w.flights.inflight.lookup source with
    | none => registered
    | some previous => if registered.running previous then registered.supersede previous else registered

/-- The `finally` of `run`. -/
def release (flights : SingleFlight) (source : PyStr) (task : Nat) : SingleFlight where
  inflight :=
    if flights.inflight.lookup source = some task then flights.inflight.erase source
    else flights.inflight
  superseded := flights.superseded.erase task

section
variable [Runtime]

def supersededError (source : PyStr) : VisionError where
  code := py "SUPERSEDED"
  detail := py "replaced for source " ++ Py.reprStr source

/-- How `run` ends when `await task` returns or raises.  The task is done by then, so that
`task.cancel()` does nothing. -/
def endingOf (w : World α ε) (source : PyStr) (task : Nat) : Outcome α ε → Ending α ε
  | .cancelled =>
    if task ∈ w.flights.superseded then .replaced (supersededError source) else .finished .cancelled
  | outcome => .finished outcome

/-- `run`, from where `await task` returns or raises. -/
def resume (w : World α ε) (source : PyStr) (task : Nat) (outcome : Outcome α ε) : World α ε :=
  { w with flights := release w.flights source task }.setCall task source
    (.ended (w.endingOf source task outcome))

/-! ## Steps -/

/-- The work of a call ends. -/
def finish (w : World α ε) (source : PyStr) (call : Nat) (outcome : Outcome α ε) :
    Progress α ε → Option (World α ε)
  | .direct _ => some (w.setCall call source (.ended (.finished outcome)))
  | .awaiting _ => if w.running call then some (w.setTask call (.done outcome)) else none
  | .ended _ => none

/-- The caller is cancelled.  That reaches the task that it awaits, or the caller itself as soon as it
goes on. -/
def cancel (w : World α ε) (source : PyStr) (call : Nat) : Progress α ε → Option (World α ε)
  | .direct _ => some (w.setCall call source (.direct true))
  | .awaiting _ =>
    some (if w.running call then w.cancelTask call else w.setCall call source (.awaiting true))
  | .ended _ => none

/-- The caller goes on after its task is done. -/
def goOn (w : World α ε) (source : PyStr) (call : Nat) : Progress α ε → Option (World α ε)
  | .awaiting mustCancel =>
    match w.tasks call with
    | some (.done outcome) => some (w.resume source call (if mustCancel then .cancelled else outcome))
    | _ => none
  | _ => none

def step (w : World α ε) (e : Event α ε) : Option (World α ε) :=
  match w.calls e.call with
  | none =>
    match e.act with
    | .start => some (w.start e.source e.call)
    | _ => none
  | some call =>
    if call.source = e.source then
      match e.act with
      | .start => none
      | .finish outcome => w.finish e.source e.call outcome call.progress
      | .cancel => w.cancel e.source e.call call.progress
      | .resume => w.goOn e.source e.call call.progress
    else none

/-- The work of the call was asked to cancel. -/
def Cancelling (w : World α ε) (call : Nat) : Prop :=
  match w.calls call with
  | some ⟨_, .direct cancelling⟩ => cancelling = true
  | some ⟨_, .awaiting _⟩ => w.tasks call = some (.pending true)
  | _ => False

/-- A step, of works that do not swallow their cancellation. -/
def Step (w : World α ε) (e : Event α ε) (w' : World α ε) : Prop :=
  w.step e = some w' ∧ ∀ outcome, e.act = .finish outcome → w.Cancelling e.call → outcome = .cancelled

end

/-! ## Where a call is suspended -/

/-- The call is suspended at `await task`. -/
def Waits (w : World α ε) (source : PyStr) (call : Nat) : Prop :=
  ∃ mustCancel, w.calls call = some ⟨source, .awaiting mustCancel⟩

section
variable {w : World α ε} {source s : PyStr} {call other : Nat} {progress progress' : Progress α ε}

theorem running_iff :
    w.running call = true ↔ ∃ cancelling, w.tasks call = some (.pending cancelling) := by
  unfold running
  split
  · rename_i cancelling htask
    simp [htask]
  · rename_i hnot
    simpa using hnot

theorem tasks_cancelTask (h : w.running call = true) :
    w.cancelTask call = w.setTask call (.pending true) := by
  obtain ⟨cancelling, htask⟩ := running_iff.mp h
  unfold cancelTask setTask
  rw [htask]
  rfl

theorem calls_setCall : (w.setCall call source progress).calls other =
    if other = call then some ⟨source, progress⟩ else w.calls other := by
  simp [setCall, Function.update_apply]

theorem calls_setCall_self :
    (w.setCall call source progress).calls call = some ⟨source, progress⟩ :=
  calls_setCall.trans (if_pos rfl)

theorem call_inj (h : w.calls call = some ⟨source, progress⟩)
    (h' : w.calls call = some ⟨s, progress'⟩) : source = s ∧ progress = progress' := by
  rw [h, Option.some.injEq, Call.mk.injEq] at h'
  exact h'

theorem waits_setCall : (w.setCall call source progress).Waits s other ↔
    if other = call then s = source ∧ ∃ mustCancel, progress = .awaiting mustCancel
    else w.Waits s other := by
  unfold Waits
  rw [calls_setCall]
  by_cases h : other = call
  · simp [h, eq_comm]
  · simp [h]

theorem Waits.source_eq (h : w.Waits source call) (h' : w.Waits s call) : source = s := by
  obtain ⟨mustCancel, hcall⟩ := h
  obtain ⟨mustCancel', hcall'⟩ := h'
  exact (call_inj hcall hcall').1

theorem ne_of_fresh (fresh : w.calls call = none) (h : w.Waits source other) : other ≠ call := by
  rintro rfl
  obtain ⟨mustCancel, hcall⟩ := h
  rw [fresh] at hcall
  cases hcall

end

/-! ## What a step does -/

section
variable [Runtime]

/-- The effect of an event, case by case. -/
inductive Moved (w : World α ε) : Event α ε → World α ε → Prop where
  | direct {call : Nat} (fresh : w.calls call = none) :
      Moved w ⟨[], call, .start⟩ (w.setCall call [] (.direct false))
  | opened {source : PyStr} {call : Nat} (fresh : w.calls call = none) (keyed : source ≠ []) :
      Moved w ⟨source, call, .start⟩ (w.start source call)
  | finishedDirect {source : PyStr} {call : Nat} {cancelling : Bool} {outcome : Outcome α ε}
      (suspended : w.calls call = some ⟨source, .direct cancelling⟩)
      (obeys : cancelling = true → outcome = .cancelled) :
      Moved w ⟨source, call, .finish outcome⟩ (w.setCall call source (.ended (.finished outcome)))
  | finished {source : PyStr} {call : Nat} {outcome : Outcome α ε} (waits : w.Waits source call)
      (runs : w.running call = true)
      (obeys : w.tasks call = some (.pending true) → outcome = .cancelled) :
      Moved w ⟨source, call, .finish outcome⟩ (w.setTask call (.done outcome))
  | cancelledDirect {source : PyStr} {call : Nat} {cancelling : Bool}
      (suspended : w.calls call = some ⟨source, .direct cancelling⟩) :
      Moved w ⟨source, call, .cancel⟩ (w.setCall call source (.direct true))
  | cancelled {source : PyStr} {call : Nat} (waits : w.Waits source call)
      (runs : w.running call = true) : Moved w ⟨source, call, .cancel⟩ (w.cancelTask call)
  | cancelledLate {source : PyStr} {call : Nat} (waits : w.Waits source call)
      (settled : w.running call = false) :
      Moved w ⟨source, call, .cancel⟩ (w.setCall call source (.awaiting true))
  | resumed {source : PyStr} {call : Nat} {mustCancel : Bool} {outcome : Outcome α ε}
      (suspended : w.calls call = some ⟨source, .awaiting mustCancel⟩)
      (settled : w.tasks call = some (.done outcome)) :
      Moved w ⟨source, call, .resume⟩
        (w.resume source call (if mustCancel then .cancelled else outcome))

theorem Step.moved {w w' : World α ε} {e : Event α ε} (h : Step w e w') : Moved w e w' := by
  obtain ⟨hstep, hobeys⟩ := h
  obtain ⟨source, call, act⟩ := e
  unfold step at hstep
  dsimp only at hstep hobeys
  -- a call that is not known can only start
  cases hcall : w.calls call with
  | none =>
    rw [hcall] at hstep
    cases act with
    | start =>
      rw [← Option.some.inj hstep]
      by_cases hsource : source = []
      · subst hsource
        exact .direct hcall
      · exact .opened hcall hsource
    | _ => cases hstep
  | some found =>
    obtain ⟨found, progress⟩ := found
    rw [hcall] at hstep
    dsimp only at hstep
    -- every other event has to name the source that the call was made on
    split at hstep
    · rename_i hsource
      subst hsource
      cases act with
      | start => cases hstep
      | finish outcome =>
        cases progress with
        | direct cancelling =>
          rw [← Option.some.inj hstep]
          refine .finishedDirect hcall fun hcancelling => hobeys outcome rfl ?_
          rw [Cancelling, hcall]
          exact hcancelling
        | awaiting mustCancel =>
          unfold finish at hstep
          dsimp only at hstep
          split at hstep
          · rename_i hruns
            rw [← Option.some.inj hstep]
            refine .finished ⟨mustCancel, hcall⟩ hruns fun htask => hobeys outcome rfl ?_
            rw [Cancelling, hcall]
            exact htask
          · cases hstep
        | ended ending => cases hstep
      | cancel =>
        cases progress with
        | direct cancelling =>
          rw [← Option.some.inj hstep]
          exact .cancelledDirect hcall
        | awaiting mustCancel =>
          rw [← Option.some.inj hstep]
          split
          · rename_i hruns
            exact .cancelled ⟨mustCancel, hcall⟩ hruns
          -- the task is done: the cancellation waits for the resumption
          · rename_i hover
            exact .cancelledLate ⟨mustCancel, hcall⟩ (Bool.eq_false_iff.mpr hover)
        | ended ending => cases hstep
      | resume =>
        cases progress with
        | awaiting mustCancel =>
          unfold goOn at hstep
          dsimp only at hstep
          split at hstep
          · rename_i outcome hover
            rw [← Option.some.inj hstep]
            exact .resumed hcall hover
          · cases hstep
        | _ => cases hstep
    · cases hstep

theorem Moved.step {w w' : World α ε} {e : Event α ε} (h : Moved w e w') : Step w e w' := by
  constructor
  · unfold World.step
    cases h with
    | direct fresh =>
      dsimp only
      rw [fresh]
      rfl
    | opened fresh keyed =>
      dsimp only
      rw [fresh]
    | finishedDirect suspended obeys =>
      dsimp only
      rw [suspended]
      exact if_pos rfl
    | finished waits runs obeys =>
      obtain ⟨mustCancel, suspended⟩ := waits
      dsimp only
      rw [suspended]
      exact (if_pos rfl).trans (if_pos runs)
    | cancelledDirect suspended =>
      dsimp only
      rw [suspended]
      exact if_pos rfl
    | cancelled waits runs =>
      obtain ⟨mustCancel, suspended⟩ := waits
      dsimp only
      rw [suspended]
      exact (if_pos rfl).trans (congrArg some (if_pos runs))
    | cancelledLate waits settled =>
      obtain ⟨mustCancel, suspended⟩ := waits
      dsimp only
      rw [suspended]
      exact (if_pos rfl).trans (congrArg some (if_neg (Bool.eq_false_iff.mp settled)))
    | resumed suspended settled =>
      dsimp only
      rw [suspended]
      dsimp only
      rw [if_pos rfl]
      unfold goOn
      dsimp only
      rw [settled]
  -- the work obeys a cancellation when it is the one that ends
  · intro outcome hact hcancelling
    cases h with
    | finishedDirect suspended obeys =>
      cases hact
      rw [Cancelling, suspended] at hcancelling
      exact obeys hcancelling
    | finished waits runs obeys =>
      cases hact
      obtain ⟨mustCancel, suspended⟩ := waits
      rw [Cancelling, suspended] at hcancelling
      exact obeys hcancelling
    | _ => cases hact

end

end World

end HassNode.Vision
