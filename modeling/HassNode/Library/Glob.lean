import Mathlib.Data.List.Basic
import Mathlib.Data.List.Infix

/-!
# Globs

The words that a pattern of single-symbol tokens and stars describes, over an arbitrary alphabet, and
what these are for a pattern with one literal part.  Where a separator occurs once in a word, a literal
part that holds the separator can stand in one place only.
-/

namespace Glob

variable {α : Type}

inductive Token (α : Type) where
  | one (accepts : α → Prop)
  | star

/-- The token of a literal symbol. -/
def lit (a : α) : Token α := .one (· = a)

/-- The words that a pattern describes. -/
def Matches : List (Token α) → List α → Prop
  | [], s => s = []
  | .one accepts :: p, s => ∃ a t, s = a :: t ∧ accepts a ∧ Matches p t
  | .star :: p, s => ∃ u t, s = u ++ t ∧ Matches p t

/-! ## Patterns with one literal part -/

theorem matches_lits_append (xs : List α) (p : List (Token α)) (s : List α) :
    Matches (xs.map lit ++ p) s ↔ ∃ t, s = xs ++ t ∧ Matches p t := by
  induction xs generalizing s with
  | nil => simp
  | cons x xs ih =>
    rw [List.map_cons, List.cons_append, lit, Matches]
    constructor
    · rintro ⟨a, s', rfl, rfl, hs⟩
      obtain ⟨t, rfl, ht⟩ := (ih s').mp hs
      exact ⟨t, rfl, ht⟩
    · rintro ⟨t, rfl, ht⟩
      exact ⟨x, xs ++ t, rfl, rfl, (ih _).mpr ⟨t, rfl, ht⟩⟩

theorem matches_lits (xs s : List α) : Matches (xs.map lit) s ↔ s = xs := by
  have h := matches_lits_append xs [] s
  simpa [Matches] using h

theorem matches_star (s : List α) : Matches [.star] s := ⟨s, [], (List.append_nil s).symm, rfl⟩

theorem matches_stem (xs s : List α) : Matches (xs.map lit ++ [.star]) s ↔ xs <+: s := by
  rw [matches_lits_append]
  constructor
  · rintro ⟨t, rfl, -⟩
    exact List.prefix_append xs t
  · rintro ⟨t, rfl⟩
    exact ⟨t, rfl, matches_star t⟩

theorem matches_tail (xs s : List α) : Matches (.star :: xs.map lit) s ↔ xs <:+ s := by
  simp only [Matches, matches_lits]
  constructor
  · rintro ⟨u, t, rfl, rfl⟩
    exact List.suffix_append u t
  · rintro ⟨u, rfl⟩
    exact ⟨u, xs, rfl, rfl⟩

theorem matches_within (xs s : List α) :
    Matches (.star :: (xs.map lit ++ [.star])) s ↔ xs <:+: s := by
  simp only [Matches, matches_stem]
  constructor
  · rintro ⟨u, t, rfl, ⟨v, rfl⟩⟩
    exact ⟨u, v, by rw [List.append_assoc]⟩
  · rintro ⟨u, v, rfl⟩
    exact ⟨u, xs ++ v, List.append_assoc u xs v, List.prefix_append xs v⟩

/-! ## Words with one separator -/

section
variable {sep : α} {front behind : List α} (hfront : sep ∉ front) (hbehind : sep ∉ behind)
include hfront hbehind

theorem stem_joined_iff (xs : List α) : xs ++ [sep] <+: front ++ sep :: behind ↔ xs = front := by
  constructor
  · rintro ⟨t, ht⟩
    rw [List.append_assoc, List.singleton_append] at ht
    exact ((List.append_cons_inj_of_notMem hfront hbehind).mp ht.symm).1.symm
  · rintro rfl
    exact ⟨behind, by simp⟩

theorem tail_joined_iff (xs : List α) : sep :: xs <:+ front ++ sep :: behind ↔ xs = behind := by
  constructor
  · rintro ⟨u, hu⟩
    exact ((List.append_cons_inj_of_notMem hfront hbehind).mp hu.symm).2.2.symm
  · rintro rfl
    exact List.suffix_append front _

theorem within_joined_iff (xs : List α) : sep :: xs <:+: front ++ sep :: behind ↔ xs <+: behind := by
  constructor
  · rintro ⟨u, v, huv⟩
    rw [List.append_assoc, List.cons_append] at huv
    have hsplit := (List.append_cons_inj_of_notMem hfront hbehind).mp huv.symm
    exact ⟨v, hsplit.2.2.symm⟩
  · rintro ⟨v, rfl⟩
    exact ⟨front, v, by simp⟩

end

end Glob
