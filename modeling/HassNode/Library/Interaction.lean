import Mathlib.Data.List.Basic

/-!
# Interaction programs

A `Prog Op Ans α` performs operations of a signature `Op`, learns the answer of each from its
environment, and ends with a value of type `α`.  A run is the list of the operations it performed,
each with its answer; `Path` is the set of all runs, whatever the environment answers, and `exec`
is the run against one environment with a state.  Facts about what a program may ask (`Asks`) and
how it ends under answers that are allowed (`Ends`) are proved on the syntax and then hold of every run.
-/

namespace Interaction

/-- A program over the operations `Op`, where `op` is answered by a value of type `Ans op`. -/
inductive Prog (Op : Type) (Ans : Op → Type) (α : Type) where
  | ret (value : α)
  | call (op : Op) (next : Ans op → Prog Op Ans α)

/-- One operation with the answer it received. -/
abbrev Event {Op : Type} (Ans : Op → Type) := (op : Op) × Ans op

variable {Op : Type} {Ans : Op → Type} {α β γ σ : Type}

namespace Prog

def bind : Prog Op Ans α → (α → Prog Op Ans β) → Prog Op Ans β
  | .ret a, f => f a
  | .call op next, f => .call op fun ans => bind (next ans) f

instance : Monad (Prog Op Ans) where
  pure := .ret
  bind := bind

@[simp] theorem ret_bind (a : α) (f : α → Prog Op Ans β) : (Prog.ret a >>= f) = f a := rfl

@[simp] theorem call_bind (op : Op) (next : Ans op → Prog Op Ans α) (f : α → Prog Op Ans β) :
    (Prog.call op next >>= f) = .call op fun ans => next ans >>= f := rfl

/-! ## Runs -/

/-- `Path p events a`: against some environment `p` performs `events` and ends with `a`. -/
inductive Path : Prog Op Ans α → List (Event Ans) → α → Prop where
  | ret (a : α) : Path (.ret a) [] a
  | call (op : Op) (next : Ans op → Prog Op Ans α) (ans : Ans op) {events : List (Event Ans)}
      {a : α} (rest : Path (next ans) events a) : Path (.call op next) (⟨op, ans⟩ :: events) a

theorem path_ret_iff {a b : α} {events : List (Event Ans)} :
    Path (.ret a : Prog Op Ans α) events b ↔ events = [] ∧ b = a := by
  constructor
  · rintro ⟨⟩
    exact ⟨rfl, rfl⟩
  · rintro ⟨rfl, rfl⟩
    exact .ret b

theorem path_call_iff {op : Op} {next : Ans op → Prog Op Ans α} {events : List (Event Ans)}
    {a : α} : Path (.call op next) events a ↔
      ∃ ans rest, events = ⟨op, ans⟩ :: rest ∧ Path (next ans) rest a := by
  constructor
  · rintro (_ | ⟨_, _, ans, rest⟩)
    exact ⟨ans, _, rfl, rest⟩
  · rintro ⟨ans, rest, rfl, h⟩
    exact .call op next ans h

/-- A run of a sequence is a run of the first program followed by a run of the second. -/
theorem path_bind_iff {p : Prog Op Ans α} {f : α → Prog Op Ans β} {events : List (Event Ans)}
    {b : β} : Path (p >>= f) events b ↔
      ∃ before a after, events = before ++ after ∧ Path p before a ∧ Path (f a) after b := by
  induction p generalizing events with
  | ret a =>
    rw [ret_bind]
    constructor
    · intro h
      exact ⟨[], a, events, rfl, .ret a, h⟩
    · rintro ⟨before, a', after, rfl, hp, hf⟩
      obtain ⟨rfl, rfl⟩ := path_ret_iff.mp hp
      exact hf
  | call op next ih =>
    rw [call_bind, path_call_iff]
    constructor
    · rintro ⟨ans, rest, rfl, h⟩
      obtain ⟨before, a, after, rfl, hp, hf⟩ := (ih ans).mp h
      exact ⟨⟨op, ans⟩ :: before, a, after, rfl, .call op next ans hp, hf⟩
    · rintro ⟨before, a, after, rfl, hp, hf⟩
      obtain ⟨ans, rest, rfl, hrest⟩ := path_call_iff.mp hp
      exact ⟨ans, rest ++ after, rfl, (ih ans).mpr ⟨rest, a, after, rfl, hrest, hf⟩⟩

/-! ## What a program may ask -/

/-- Every operation that `p` can perform satisfies `P`. -/
def Asks (P : Op → Prop) : Prog Op Ans α → Prop
  | .ret _ => True
  | .call op next => P op ∧ ∀ ans, Asks P (next ans)

theorem Asks.mono {P Q : Op → Prop} (h : ∀ op, P op → Q op) {p : Prog Op Ans α}
    (hp : Asks P p) : Asks Q p := by
  induction p with
  | ret a => trivial
  | call op next ih => exact ⟨h op hp.1, fun ans => ih ans (hp.2 ans)⟩

/-- What holds of every operation of the syntax holds of every event of a run. -/
theorem Asks.path {P : Op → Prop} {p : Prog Op Ans α} (hp : Asks P p)
    {events : List (Event Ans)} {a : α} (h : Path p events a) :
    ∀ e ∈ events, P e.1 := by
  induction h with
  | ret => intro e he; cases he
  | call op next ans rest ih =>
    intro e he
    rcases List.mem_cons.mp he with rfl | he
    · exact hp.1
    · exact ih (hp.2 ans) e he

/-! ## How a program ends -/

/-- In every run whose answers `R` allows, `p` ends with a value in `Q`. -/
def Ends (R : (op : Op) → Ans op → Prop) (Q : α → Prop) : Prog Op Ans α → Prop
  | .ret a => Q a
  | .call op next => ∀ ans, R op ans → Ends R Q (next ans)

/-- What holds of the ends of the syntax holds of the end of every allowed run. -/
theorem Ends.path {R : (op : Op) → Ans op → Prop} {Q : α → Prop} {p : Prog Op Ans α}
    (hp : Ends R Q p) {events : List (Event Ans)} {a : α} (h : Path p events a)
    (hallowed : ∀ e ∈ events, R e.1 e.2) : Q a := by
  induction h with
  | ret a => exact hp
  | call op next ans rest ih =>
    rw [List.forall_mem_cons] at hallowed
    exact ih (hp ans hallowed.1) hallowed.2

theorem Ends.ite {R : (op : Op) → Ans op → Prop} {Q : α → Prop} {c : Prop} [Decidable c]
    {p q : Prog Op Ans α} (hp : Ends R Q p) (hq : Ends R Q q) :
    Ends R Q (if c then p else q) := by
  by_cases hc : c
  · rw [if_pos hc]
    exact hp
  · rw [if_neg hc]
    exact hq

/-! ## Execution against a stateful environment -/

/-- Run `p` against an environment with state `σ`, collecting its events. -/
def exec (answer : (op : Op) → σ → Ans op × σ) : Prog Op Ans α → σ → α × List (Event Ans) × σ
  | .ret a, s => (a, [], s)
  | .call op next, s =>
    let (ans, s') := answer op s
    let (a, events, s'') := exec answer (next ans) s'
    (a, ⟨op, ans⟩ :: events, s'')

theorem exec_call {answer : (op : Op) → σ → Ans op × σ} {op : Op} {ans : Ans op} {s s' : σ}
    (h : answer op s = (ans, s')) (next : Ans op → Prog Op Ans α) :
    exec answer (.call op next) s = ((exec answer (next ans) s').1,
      ⟨op, ans⟩ :: (exec answer (next ans) s').2.1, (exec answer (next ans) s').2.2) := by
  rw [exec, h]

/-- Every execution is a run. -/
theorem exec_path (answer : (op : Op) → σ → Ans op × σ) (p : Prog Op Ans α) (s : σ) :
    Path p (exec answer p s).2.1 (exec answer p s).1 := by
  induction p generalizing s with
  | ret a => exact .ret a
  | call op next ih => exact .call op next _ (ih (answer op s).1 (answer op s).2)

/-- What the environment answers in every state it answers in an execution. -/
theorem answers_exec {R : (op : Op) → Ans op → Prop} {answer : (op : Op) → σ → Ans op × σ}
    (hanswer : ∀ op s, R op (answer op s).1) (p : Prog Op Ans α) (s : σ) :
    ∀ e ∈ (exec answer p s).2.1, R e.1 e.2 := by
  induction p generalizing s with
  | ret a => exact fun e he => absurd he List.not_mem_nil
  | call op next ih =>
    intro e he
    rcases List.mem_cons.mp he with rfl | he
    · exact hanswer op s
    · exact ih (answer op s).1 (answer op s).2 e he

/-- A program that asks only what satisfies `P`, of an environment whose answers to `P` are allowed,
ends as allowed. -/
theorem Ends.of_exec {P : Op → Prop} {R : (op : Op) → Ans op → Prop} {Q : α → Prop}
    {answer : (op : Op) → σ → Ans op × σ} (hanswer : ∀ op s, P op → R op (answer op s).1)
    {p : Prog Op Ans α} (hp : Ends R Q p) (s : σ) (hops : ∀ e ∈ (exec answer p s).2.1, P e.1) :
    Q (exec answer p s).1 := by
  have hanswered : ∀ e ∈ (exec answer p s).2.1, P e.1 → R e.1 e.2 :=
    answers_exec (R := fun op ans => P op → R op ans) hanswer p s
  exact hp.path (exec_path answer p s) fun e he => hanswered e he (hops e he)

theorem Asks.of_mem_exec {P : Op → Prop} {answer : (op : Op) → σ → Ans op × σ} {p : Prog Op Ans α}
    (hp : Asks P p) {s : σ} {e : Event Ans} (he : e ∈ (exec answer p s).2.1) : P e.1 :=
  hp.path (exec_path answer p s) e he

/-- State that the operations satisfying `P` leave alone is left alone by a program that asks
only such operations. -/
theorem Asks.exec_frame {τ : Type} {answer : (op : Op) → σ → Ans op × σ} {P : Op → Prop}
    {view : σ → τ} (hstep : ∀ op s, P op → view (answer op s).2 = view s) {p : Prog Op Ans α}
    (hp : Asks P p) (s : σ) : view (exec answer p s).2.2 = view s := by
  induction p generalizing s with
  | ret a => rfl
  | call op next ih =>
    calc view (exec answer (.call op next) s).2.2
        = view (answer op s).2 := ih _ (hp.2 _) _
      _ = view s := hstep op s hp.1

end Prog

end Interaction
