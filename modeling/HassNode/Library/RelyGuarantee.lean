import HassNode.Library.Interaction
import Mathlib.Logic.Relation

/-!
# Interaction programs over a shared state

The operations of a program act on a state.  `Runs` is a run of one program that has the state to
itself, and `Wp` the condition under which every such run ends well.  `Step` interleaves a pool of
programs over one state: what holds there is shown for each program alone, against every change that
the others are allowed (`Safe`), and put together by `Safe.of_reaches`.
-/

namespace Interaction

variable {Op : Type} {Ans : Op → Type} {ι σ α : Type}

/-- The state before an operation, its answer and the state after it. -/
abbrev Effect (Ans : Op → Type) (σ : Type) := (op : Op) → σ → Ans op → σ → Prop

namespace Prog

/-! ## One program alone -/

/-- `Runs R p s a s'`: from `s` the program `p` ends with `a` in `s'`. -/
inductive Runs (R : Effect Ans σ) : Prog Op Ans α → σ → α → σ → Prop where
  | ret (a : α) (s : σ) : Runs R (.ret a) s a s
  | call {op : Op} {next : Ans op → Prog Op Ans α} {ans : Ans op} {s s₁ s' : σ} {a : α}
      (effect : R op s ans s₁) (rest : Runs R (next ans) s₁ a s') : Runs R (.call op next) s a s'

/-- Every run from `s` ends in `post`. -/
def Wp (R : Effect Ans σ) (post : α → σ → Prop) : Prog Op Ans α → σ → Prop
  | .ret a, s => post a s
  | .call op next, s => ∀ ans s₁, R op s ans s₁ → Wp R post (next ans) s₁

theorem Runs.post {R : Effect Ans σ} {post : α → σ → Prop} {p : Prog Op Ans α} {s s' : σ} {a : α}
    (h : Runs R p s a s') (hwp : Wp R post p s) : post a s' := by
  induction h with
  | ret a s => exact hwp
  | call effect _ ih => exact ih (hwp _ _ effect)

/-! ## A pool of programs -/

/-- The programs of the parties, each as far as it has come, and the state they share. -/
structure Pool (Op : Type) (Ans : Op → Type) (ι σ α : Type) where
  prog : ι → Prog Op Ans α
  state : σ

/-- One party performs its next operation. -/
inductive Step [DecidableEq ι] (R : ι → Effect Ans σ) :
    Pool Op Ans ι σ α → Pool Op Ans ι σ α → Prop where
  | perform {c : Pool Op Ans ι σ α} (i : ι) {op : Op} {next : Ans op → Prog Op Ans α} {ans : Ans op}
      {s' : σ} (turn : c.prog i = .call op next) (effect : R i op c.state ans s') :
      Step R c ⟨Function.update c.prog i (next ans), s'⟩

abbrev Reaches [DecidableEq ι] (R : ι → Effect Ans σ) :
    Pool Op Ans ι σ α → Pool Op Ans ι σ α → Prop :=
  Relation.ReflTransGen (Step R)

theorem Reaches.mono [DecidableEq ι] {R R' : ι → Effect Ans σ}
    (hR : ∀ i op s ans s', R i op s ans s' → R' i op s ans s') {c c' : Pool Op Ans ι σ α}
    (h : Reaches R c c') : Reaches R' c c' := by
  have hstep : ∀ {c₁ c₂ : Pool Op Ans ι σ α}, Step R c₁ c₂ → Step R' c₁ c₂ := by
    intro c₁ c₂ hstep
    cases hstep with
    | perform i turn effect => exact .perform i turn (hR _ _ _ _ _ effect)
  induction h with
  | refl => exact .refl
  | tail _ hlast ih => exact .tail ih (hstep hlast)

/-- A party that runs to its end while the others wait. -/
theorem Runs.reaches [DecidableEq ι] {R : ι → Effect Ans σ} {i : ι} {p : Prog Op Ans α} {s s' : σ}
    {a : α} (h : Runs (R i) p s a s') {c : Pool Op Ans ι σ α} (hprog : c.prog i = p)
    (hstate : c.state = s) : Reaches R c ⟨Function.update c.prog i (.ret a), s'⟩ := by
  induction h generalizing c with
  | ret a s =>
    rw [← hprog, Function.update_eq_self, ← hstate]
  | call effect _ ih =>
    rw [← hstate] at effect
    have hrest := ih (c := ⟨Function.update c.prog i _, _⟩) (Function.update_self ..) rfl
    simp only [Function.update_idem] at hrest
    exact .head (.perform i hprog effect) hrest

/-! ## Rely and guarantee -/

/-- Whatever the others do within `rely`, each operation of the program stays within `guar`, and its
result satisfies `post` from then on. -/
def Safe (R : Effect Ans σ) (rely guar : σ → σ → Prop) (post : α → σ → Prop) :
    Prog Op Ans α → σ → Prop
  | .ret a, s => ∀ s₁, Relation.ReflTransGen rely s s₁ → post a s₁
  | .call op next, s => ∀ s₁, Relation.ReflTransGen rely s s₁ → ∀ ans s₂, R op s₁ ans s₂ →
      guar s₁ s₂ ∧ Safe R rely guar post (next ans) s₂

section
variable {R : Effect Ans σ} {rely guar : σ → σ → Prop} {post : α → σ → Prop}

theorem Safe.mono {p : Prog Op Ans α} {s s' : σ} (h : Safe R rely guar post p s)
    (hrely : rely s s') : Safe R rely guar post p s' := by
  cases p with
  | ret a => exact fun s₁ hs => h s₁ (.head hrely hs)
  | call op next => exact fun s₁ hs => h s₁ (.head hrely hs)

theorem stable_closure {P : σ → Prop} (hstable : ∀ s s', rely s s' → P s → P s') {s s' : σ}
    (h : Relation.ReflTransGen rely s s') (hP : P s) : P s' := by
  induction h with
  | refl => exact hP
  | tail _ hstep ih => exact hstable _ _ hstep ih

/-- The assertion `P` holds until the program performs its next operation. -/
theorem safe_call {P : σ → Prop} (hstable : ∀ s s', rely s s' → P s → P s') {op : Op}
    {next : Ans op → Prog Op Ans α} {s : σ} (hP : P s)
    (hstep : ∀ s₁ ans s₂, P s₁ → R op s₁ ans s₂ →
      guar s₁ s₂ ∧ Safe R rely guar post (next ans) s₂) :
    Safe R rely guar post (.call op next) s := by
  intro s₁ hs ans s₂ heffect
  exact hstep s₁ ans s₂ (stable_closure hstable hs hP) heffect

theorem safe_ret {P : σ → Prop} (hstable : ∀ s s', rely s s' → P s → P s') {a : α} {s : σ}
    (hP : P s) (hpost : ∀ s₁, P s₁ → post a s₁) :
    Safe R rely guar post (.ret a : Prog Op Ans α) s := by
  intro s₁ hs
  exact hpost s₁ (stable_closure hstable hs hP)

end

section
variable [DecidableEq ι] {R : ι → Effect Ans σ} {rely guar : ι → σ → σ → Prop}
  {post : ι → α → σ → Prop} {c c' : Pool Op Ans ι σ α}

def AllSafe (R : ι → Effect Ans σ) (rely guar : ι → σ → σ → Prop) (post : ι → α → σ → Prop)
    (c : Pool Op Ans ι σ α) : Prop :=
  ∀ i, Safe (R i) (rely i) (guar i) (post i) (c.prog i) c.state

/-- One step keeps every party safe and is one that its party guarantees. -/
theorem AllSafe.step (hcompat : ∀ i j, i ≠ j → ∀ s s', guar i s s' → rely j s s')
    (hsafe : AllSafe R rely guar post c) (h : Step R c c') :
    (∃ i, guar i c.state c'.state) ∧ AllSafe R rely guar post c' := by
  cases h with
  | perform i turn effect =>
    have hi := hsafe i
    rw [turn] at hi
    have hnext := hi _ .refl _ _ effect
    refine ⟨⟨i, hnext.1⟩, fun j => ?_⟩
    show Safe (R j) (rely j) (guar j) (post j) (Function.update c.prog i _ j) _
    by_cases hj : j = i
    · rw [hj, Function.update_self]
      exact hnext.2
    · rw [Function.update_of_ne hj]
      exact (hsafe j).mono (hcompat i j (Ne.symm hj) _ _ hnext.1)

/-- What the guarantees keep holds in every configuration reached, and every party is still safe
there. -/
theorem AllSafe.of_reaches {Inv : σ → Prop}
    (hcompat : ∀ i j, i ≠ j → ∀ s s', guar i s s' → rely j s s')
    (hinv : ∀ i s s', guar i s s' → Inv s → Inv s')
    (hsafe : AllSafe R rely guar post c) (h₀ : Inv c.state) (h : Reaches R c c') :
    Inv c'.state ∧ AllSafe R rely guar post c' := by
  induction h with
  | refl => exact ⟨h₀, hsafe⟩
  | tail _ hstep ih =>
    have hnext := ih.2.step hcompat hstep
    obtain ⟨i, hguar⟩ := hnext.1
    exact ⟨hinv i _ _ hguar ih.1, hnext.2⟩

omit [DecidableEq ι] in
/-- A party that has ended satisfies its postcondition. -/
theorem AllSafe.post_of_ret {i : ι} {a : α} (hsafe : AllSafe R rely guar post c)
    (hret : c.prog i = .ret a) : post i a c.state := by
  have hi := hsafe i
  rw [hret] at hi
  exact hi _ .refl

end

end Prog

end Interaction
