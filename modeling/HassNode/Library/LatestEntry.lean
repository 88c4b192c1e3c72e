import Mathlib.Data.List.Basic
import Mathlib.Order.Lattice

/-!
# The latest entry of a log

A log is read as of a time by taking the last of its entries that are not after the time.  This is the
greatest of them for every time exactly if the log is `Searchable`: what stands behind the last entry of
a time is later.  A log in the order of its times is searchable, and two searchable logs, one behind the
other, are searchable under a condition on their times.
-/

namespace LatestEntry

variable {ν τ : Type} [LinearOrder τ] (time : ν → τ)

/-- The last entry that is not after `t`. -/
def latest (t : τ) (log : List ν) : Option ν := (log.filter fun v => decide (time v ≤ t)).getLast?

/-- Each entry's time comes again, or everything behind the entry is later. -/
def Searchable : List ν → Prop
  | [] => True
  | v :: rest => ((∃ w ∈ rest, time w = time v) ∨ ∀ w ∈ rest, time v < time w) ∧ Searchable rest

variable {time} {log rest : List ν} {t : τ} {v w : ν}

theorem mem_of_latest (h : latest time t log = some v) : v ∈ log ∧ time v ≤ t := by
  have hmem := List.mem_filter.mp (List.mem_of_getLast? h)
  exact ⟨hmem.1, of_decide_eq_true hmem.2⟩

theorem latest_eq_none : latest time t log = none ↔ ∀ v ∈ log, ¬ time v ≤ t := by
  simp [latest]

/-- The first entry is the latest one only when nothing behind it is early enough. -/
theorem latest_cons (v : ν) (log : List ν) : latest time t (v :: log) =
    (latest time t log).or (if time v ≤ t then some v else none) := by
  unfold latest
  by_cases hv : time v ≤ t
  · rw [List.filter_cons_of_pos (by simpa using hv), List.getLast?_cons, if_pos hv]
    cases (log.filter fun v => decide (time v ≤ t)).getLast? <;> rfl
  · rw [List.filter_cons_of_neg (by simpa using hv), if_neg hv, Option.or_none]

/-- In a searchable log the latest entry is the greatest. -/
theorem le_latest (hlog : Searchable time log) (hv : latest time t log = some v) (hw : w ∈ log)
    (hle : time w ≤ t) : time w ≤ time v := by
  induction log generalizing w with
  | nil => cases hw
  | cons u log ih =>
    rw [latest_cons] at hv
    cases hlatest : latest time t log with
    | none =>
      -- the entry is `u` itself, and so is `w`
      have hnone := latest_eq_none.mp hlatest
      rw [hlatest, Option.none_or] at hv
      rcases List.mem_cons.mp hw with rfl | hw
      · rw [if_pos hle] at hv
        rw [Option.some.inj hv]
      · exact absurd hle (hnone w hw)
    | some x =>
      rw [hlatest, Option.some_or] at hv
      rw [hv] at hlatest
      rcases List.mem_cons.mp hw with rfl | hw
      · rcases hlog.1 with ⟨u', hu', heq⟩ | hlater
        · rw [← heq] at hle ⊢
          exact ih hlog.2 hlatest hu' hle
        · exact (hlater v (mem_of_latest hlatest).1).le
      · exact ih hlog.2 hlatest hw hle

/-- Only in a searchable log is the latest entry at the time of each of its entries from that time. -/
theorem searchable_of_latest
    (h : ∀ w ∈ log, ∀ v, latest time (time w) log = some v → time w ≤ time v) :
    Searchable time log := by
  induction log with
  | nil => trivial
  | cons u log ih =>
    constructor
    · by_contra hno
      rw [not_or] at hno
      have ⟨w, hw, hle⟩ : ∃ w ∈ log, time w ≤ time u := by
        by_contra hnone
        exact hno.2 fun w hw => lt_of_not_ge fun hle => hnone ⟨w, hw, hle⟩
      cases hlatest : latest time (time u) log with
      | none => exact latest_eq_none.mp hlatest w hw hle
      | some x =>
        have hx := mem_of_latest hlatest
        have hxu : latest time (time u) (u :: log) = some x := by rw [latest_cons, hlatest, Option.some_or]
        exact hno.1 ⟨x, hx.1, le_antisymm hx.2 (h u (.head _) x hxu)⟩
    · apply ih
      intro w hw v hv
      apply h w (.tail _ hw) v
      rw [latest_cons, hv, Option.some_or]

theorem searchable_append (hlog : Searchable time log) (hrest : Searchable time rest) :
    Searchable time (log ++ rest) ↔
      ∀ v ∈ log, (∃ w ∈ rest, time w = time v) ∨ ∀ w ∈ rest, time v < time w := by
  induction log with
  | nil => exact ⟨fun _ => nofun, fun _ => hrest⟩
  | cons u log ih =>
    rw [List.cons_append, Searchable, ih hlog.2, List.forall_mem_cons]
    refine and_congr_left fun htail => ?_
    constructor
    · rintro (⟨w, hw, heq⟩ | hlater)
      · rcases List.mem_append.mp hw with hw | hw
        · rw [← heq]
          exact htail w hw
        · exact .inl ⟨w, hw, heq⟩
      · exact .inr fun w hw => hlater w (List.mem_append_right _ hw)
    · rintro (⟨w, hw, heq⟩ | hlater)
      · exact .inl ⟨w, List.mem_append_right _ hw, heq⟩
      · rcases hlog.1 with ⟨w, hw, heq⟩ | hown
        · exact .inl ⟨w, List.mem_append_left _ hw, heq⟩
        · refine .inr fun w hw => ?_
          rcases List.mem_append.mp hw with hw | hw
          · exact hown w hw
          · exact hlater w hw

/-- An entry at the end that is before none of the log. -/
theorem searchable_concat (hlog : Searchable time log) (hv : ∀ w ∈ log, time w ≤ time v) :
    Searchable time (log ++ [v]) := by
  have hone : Searchable time [v] := ⟨.inr fun _ h => absurd h List.not_mem_nil, trivial⟩
  apply (searchable_append hlog hone).mpr
  intro w hw
  rcases (hv w hw).eq_or_lt with heq | hlt
  · exact .inl ⟨v, .head _, heq.symm⟩
  · refine .inr fun x hx => ?_
    rw [List.mem_singleton.mp hx]
    exact hlt

end LatestEntry
