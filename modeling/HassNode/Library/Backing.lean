import Mathlib.Logic.Function.Basic

/-!
# Entries that somebody stands behind

Parties come and go, and tables that they share hold slots.  `Backed` says that every slot in use is
backed by a party of the present, or has been written off.  One party that acts keeps it when each
slot in use afterwards is backed by what the party has become, is written off, or was in use before
without the party (`Backed.act`).  Nothing is left in use but what was written off once no party
backs anything (`Backed.vacant`).
-/

namespace Backing

variable {α κ : Type} {parties : Nat → Option α} {backs : α → κ → Prop} {lost used used' : κ → Prop}

def Backed (parties : Nat → Option α) (backs : α → κ → Prop) (lost used : κ → Prop) : Prop :=
  ∀ slot, used slot → (∃ i a, parties i = some a ∧ backs a slot) ∨ lost slot

/-- Slots are only freed. -/
theorem Backed.shed (h : Backed parties backs lost used) (hused : ∀ slot, used' slot → used slot) :
    Backed parties backs lost used' :=
  fun slot hslot => h slot (hused slot hslot)

/-- One party acts. -/
theorem Backed.act (h : Backed parties backs lost used) {i : Nat} {a : α}
    (hact : ∀ slot, used' slot → backs a slot ∨ lost slot ∨
      (used slot ∧ ∀ before, parties i = some before → ¬ backs before slot)) :
    Backed (Function.update parties i (some a)) backs lost used' := by
  intro slot hslot
  rcases hact slot hslot with hbacks | hlost | ⟨hused, hnot⟩
  · exact .inl ⟨i, a, Function.update_self .., hbacks⟩
  · exact .inr hlost
  · rcases h slot hused with ⟨j, b, hb, hbacks⟩ | hlost
    · have hne : j ≠ i := by
        rintro rfl
        exact hnot b hb hbacks
      exact .inl ⟨j, b, (Function.update_of_ne hne _ _).trans hb, hbacks⟩
    · exact .inr hlost

/-- With no party behind any slot, only what was written off is in use. -/
theorem Backed.vacant (h : Backed parties backs lost used)
    (hnone : ∀ i a slot, parties i = some a → ¬ backs a slot) {slot : κ} (hslot : used slot) :
    lost slot := by
  rcases h slot hslot with ⟨i, a, ha, hbacks⟩ | hlost
  · exact absurd hbacks (hnone i a slot ha)
  · exact hlost

end Backing
