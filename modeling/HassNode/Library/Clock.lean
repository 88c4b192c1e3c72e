import Mathlib.Data.List.Basic

/-!
# Runs under a clock

The events of a run of which some read the clock.  In a run that goes `Forward` up to `now` no reading
is before an earlier one, and none is after `now`.
-/

namespace Clock

variable {ε : Type} (reading : ε → Option Int)

/-- The clock never goes back, up to `now`. -/
def Forward (events : List ε) (now : Int) : Prop :=
  (events.filterMap reading ++ [now]).Pairwise (· ≤ ·)

instance decidableForward (events : List ε) (now : Int) : Decidable (Forward reading events now) :=
  inferInstanceAs (Decidable (List.Pairwise _ _))

variable {reading} {events : List ε} {event : ε} {now : Int}

theorem Forward.le {time : Int} (h : Forward reading events now) (hevent : event ∈ events)
    (htime : reading event = some time) : time ≤ now :=
  (List.pairwise_append.mp h).2.2 time (List.mem_filterMap.mpr ⟨event, hevent, htime⟩) now
    (List.mem_singleton_self _)

theorem Forward.left {later : List ε} (h : Forward reading (events ++ later) now) :
    Forward reading events now := by
  unfold Forward at h ⊢
  rw [List.filterMap_append, List.append_assoc] at h
  exact h.sublist ((List.sublist_append_right _ _).append_left _)

/-- The last event of a run read the clock between what was read before and now. -/
theorem forward_snoc : Forward reading (events ++ [event]) now ↔ Forward reading events now ∧
    ∀ time, reading event = some time → Forward reading events time ∧ time ≤ now := by
  unfold Forward
  cases htime : reading event with
  | none => simp [List.filterMap_append, htime]
  | some time =>
    rw [List.filterMap_append]
    simp only [List.filterMap_cons, htime, List.filterMap_nil, List.pairwise_append,
      List.mem_append, List.mem_singleton, Option.some.injEq]
    constructor
    · rintro ⟨⟨hpast, hsingle, hle⟩, hnow, hall⟩
      refine ⟨⟨hpast, hnow, fun t ht u hu => hall t (.inl ht) u hu⟩, ?_⟩
      rintro _ rfl
      exact ⟨⟨hpast, hsingle, hle⟩, hall _ (.inr rfl) _ rfl⟩
    · rintro ⟨⟨hpast, hnow, hle⟩, hlast⟩
      obtain ⟨⟨_, hsingle, hbefore⟩, hlater⟩ := hlast time rfl
      refine ⟨⟨hpast, hsingle, hbefore⟩, hnow, ?_⟩
      rintro t (ht | rfl) u rfl
      · exact hle t ht _ rfl
      · exact hlater

end Clock
