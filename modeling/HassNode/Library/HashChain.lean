import Mathlib.Data.List.Basic

/-!
# Logs whose entries name the one before

Each entry carries its own digest and that of its predecessor.  A chain grows by an entry that names its
tip; two chains that both begin anew do not make one.
-/

namespace HashChain

variable {ν κ : Type} (digest : ν → κ) (prev : ν → Option κ)

/-- The digest that the next entry names. -/
def tip (start : Option κ) (log : List ν) : Option κ := (log.getLast?.map digest).or start

/-- The first entry names `start` and every other one its predecessor. -/
def Linked (start : Option κ) : List ν → Prop
  | [] => True
  | entry :: rest => prev entry = start ∧ Linked (some (digest entry)) rest

instance decidableLinked [DecidableEq κ] :
    ∀ (start : Option κ) (log : List ν), Decidable (Linked digest prev start log)
  | _, [] => inferInstanceAs (Decidable True)
  | _, entry :: rest =>
    have := decidableLinked (some (digest entry)) rest
    inferInstanceAs (Decidable (_ ∧ _))

variable {digest prev} {start : Option κ} {log rest : List ν}

theorem tip_cons (entry : ν) (log : List ν) :
    tip digest start (entry :: log) = tip digest (some (digest entry)) log := by
  unfold tip
  rw [List.getLast?_cons]
  cases log.getLast? <;> rfl

theorem linked_append : Linked digest prev start (log ++ rest) ↔
    Linked digest prev start log ∧ Linked digest prev (tip digest start log) rest := by
  induction log generalizing start with
  | nil => exact (and_iff_right trivial).symm
  | cons entry log ih =>
    rw [List.cons_append, Linked, Linked, ih, tip_cons]
    exact and_assoc.symm

/-- An entry at the end. -/
theorem linked_concat {entry : ν} : Linked digest prev start (log ++ [entry]) ↔
    Linked digest prev start log ∧ prev entry = tip digest start log := by
  rw [linked_append, Linked]
  exact and_congr_right fun _ => and_iff_left trivial

theorem tip_ne_none (hlog : log ≠ []) : tip digest start log ≠ none := by
  unfold tip
  rw [List.getLast?_eq_some_getLast hlog]
  exact nofun

/-- A chain put after another one is the one that names its tip. -/
theorem linked_joined (hlog : Linked digest prev none log) (hrest : Linked digest prev none rest) :
    Linked digest prev none (log ++ rest) ↔ log = [] ∨ rest = [] := by
  rw [linked_append, and_iff_right hlog]
  constructor
  · intro hjoin
    cases rest with
    | nil => exact .inr rfl
    | cons entry rest =>
      by_contra hfull
      rw [not_or] at hfull
      exact tip_ne_none hfull.1 (hjoin.1.symm.trans hrest.1)
  · rintro (rfl | rfl)
    · exact hrest
    · trivial

end HashChain
