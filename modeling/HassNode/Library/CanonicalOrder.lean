import Mathlib.Data.List.Dedup
import Mathlib.Data.List.Sort

/-!
# Lists put in a canonical order

`canonical` drops the repetitions of a list and sorts what stays by a key.  Sorting is stable, so that
the result does not depend on the order of the list exactly if no two of its members share their key.
-/

namespace CanonicalOrder

variable {α κ : Type} [DecidableEq α] [LinearOrder κ] (key : α → κ)

/-- The first occurrence of each member. -/
def firsts (l : List α) : List α := l.reverse.dedup.reverse

def canonical (l : List α) : List α := (firsts l).insertionSort fun a b => key a ≤ key b

omit [LinearOrder κ] in
@[simp] theorem mem_firsts {l : List α} {a : α} : a ∈ firsts l ↔ a ∈ l := by
  simp [firsts]

theorem nodup_firsts (l : List α) : (firsts l).Nodup := List.nodup_reverse.mpr (List.nodup_dedup _)

/-- The list begins with the first member of the given one. -/
theorem firsts_cons (a : α) (l : List α) : ∃ rest, firsts (a :: l) = a :: rest := by
  have ⟨before, hbefore⟩ := List.suffix_union_right l.reverse [a]
  refine ⟨before.reverse, ?_⟩
  unfold firsts
  rw [List.reverse_cons, List.dedup_append, List.Nodup.dedup (List.nodup_singleton a), ← hbefore,
    List.reverse_append]
  rfl

variable {key} {l m : List α} {a b : α}

@[simp] theorem mem_canonical : a ∈ canonical key l ↔ a ∈ l := by
  simp [canonical]

theorem nodup_canonical : (canonical key l).Nodup :=
  (List.perm_insertionSort _ _).nodup_iff.mpr (nodup_firsts l)

theorem pairwise_canonical : (canonical key l).Pairwise fun a b => key a ≤ key b := by
  have : Std.Total fun a b : α => key a ≤ key b := ⟨fun a b => le_total (key a) (key b)⟩
  have : IsTrans α fun a b => key a ≤ key b := ⟨fun _ _ _ h h' => h.trans h'⟩
  exact List.pairwise_insertionSort _ _

/-- With distinct keys only the members count. -/
theorem canonical_congr (hmem : ∀ a, a ∈ l ↔ a ∈ m)
    (hkey : ∀ a ∈ l, ∀ b ∈ l, key a = key b → a = b) : canonical key l = canonical key m := by
  have hperm : (canonical key l).Perm (canonical key m) := by
    apply (List.perm_ext_iff_of_nodup nodup_canonical nodup_canonical).mpr
    intro a
    rw [mem_canonical, mem_canonical, hmem]
  apply hperm.eq_of_pairwise _ pairwise_canonical pairwise_canonical
  intro a b ha hb hab hba
  rw [mem_canonical] at ha
  rw [mem_canonical, ← hmem] at hb
  exact hkey a ha b hb (le_antisymm hab hba)

/-- Of two members with one key the earlier one stays in front. -/
theorem pair_sublist_canonical (hne : a ≠ b) (hkey : key a = key b) (hb : b ∈ l) :
    [a, b].Sublist (canonical key (a :: l)) := by
  have ⟨rest, hrest⟩ := firsts_cons a l
  have hmem : b ∈ firsts (a :: l) := mem_firsts.mpr (List.mem_cons_of_mem _ hb)
  rw [hrest] at hmem
  have hsub : [a, b].Sublist (firsts (a :: l)) := by
    rw [hrest]
    apply List.Sublist.cons_cons
    exact List.singleton_sublist.mpr ((List.mem_cons.mp hmem).resolve_left hne.symm)
  exact List.pair_sublist_insertionSort hkey.le hsub

omit [DecidableEq α] in
theorem not_pair_sublist_swap {l : List α} (hl : l.Nodup) (hab : [a, b].Sublist l) :
    ¬ [b, a].Sublist l := by
  intro hba
  induction l with
  | nil => cases hab
  | cons c l ih =>
    rw [List.nodup_cons] at hl
    cases hab with
    | cons _ hab =>
      cases hba with
      | cons _ hba => exact ih hl.2 hab hba
      | cons_cons _ hba => exact hl.1 (hab.subset (.tail _ (.head _)))
    | cons_cons _ hab =>
      cases hba with
      | cons _ hba => exact hl.1 (hba.subset (.tail _ (.head _)))
      | cons_cons _ hba => exact hl.1 (List.singleton_sublist.mp hba)

/-- The order shows wherever two members share their key. -/
theorem canonical_ne (hne : a ≠ b) (hkey : key a = key b) (hb : b ∈ l) (ha : a ∈ m) :
    canonical key (a :: l) ≠ canonical key (b :: m) := by
  intro heq
  have hab := pair_sublist_canonical hne hkey hb
  have hba := pair_sublist_canonical hne.symm hkey.symm ha
  rw [← heq] at hba
  exact not_pair_sublist_swap nodup_canonical hab hba

end CanonicalOrder
