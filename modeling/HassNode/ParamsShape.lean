import HassNode.Py.Value

/-!
# The shape of invoke params

`_check_params_shape` of `gateway_ws.py` walks the decoded params with a stack of its own.  The walk
ends, and accepts exactly the values whose containers are not nested too deep and have not too many
members, counted by recursion on the value.
-/

namespace HassNode.GatewayWs

open Py

def maxParamsDepth : Nat := 64

def maxParamsMembers : Nat := 4096

/-! ## The walk -/

/-- The values of a dict and the items of a list; nothing else is a container. -/
def childrenOf : Json → Option (List Json)
  | .dict entries => some (entries.map Prod.snd)
  | .list items => some items
  | _ => none

/-- The loop, with the top of the stack at the head of the list; `none` while it has not ended. -/
def shapeLoop : Nat → Nat → List (Json × Nat) → Option (Except PyStr Unit)
  | 0, _, _ => none
  | _ + 1, _, [] => some (.ok ())
  | fuel + 1, members, (node, depth) :: stack =>
    match childrenOf node with
    | none => shapeLoop fuel members stack
    | some children =>
      if maxParamsDepth < depth then some (.error (py "paramsJSON nesting exceeds limit"))
      else
        let members := members + children.length
        if maxParamsMembers < members then
          some (.error (py "paramsJSON member count exceeds limit"))
        else
          shapeLoop fuel members ((children.map fun child => (child, depth + 1)).reverse ++ stack)

/-- `_check_params_shape`, in `fuel` turns of its loop at most. -/
def checkParamsShape (fuel : Nat) (decoded : Json) : Option (Except PyStr Unit) :=
  shapeLoop fuel 0 [(decoded, 1)]

/-! ## Nesting and members -/

mutual

/-- How deep the containers of a value are nested. -/
def nesting : Json → Nat
  | .dict entries => nestingDict entries + 1
  | .list items => nestingList items + 1
  | _ => 0

def nestingList : List Json → Nat
  | [] => 0
  | v :: rest => max (nesting v) (nestingList rest)

def nestingDict : List (PyStr × Json) → Nat
  | [] => 0
  | (_, v) :: rest => max (nesting v) (nestingDict rest)

end

mutual

/-- The members of all containers of a value. -/
def memberCount : Json → Nat
  | .dict entries => entries.length + memberCountDict entries
  | .list items => items.length + memberCountList items
  | _ => 0

def memberCountList : List Json → Nat
  | [] => 0
  | v :: rest => memberCount v + memberCountList rest

def memberCountDict : List (PyStr × Json) → Nat
  | [] => 0
  | (_, v) :: rest => memberCount v + memberCountDict rest

end

theorem nestingDict_eq (entries : Dict) : nestingDict entries = nestingList (entries.map Prod.snd) := by
  induction entries with
  | nil => rfl
  | cons kv rest ih => rw [nestingDict, List.map_cons, nestingList, ih]

theorem memberCountDict_eq (entries : Dict) :
    memberCountDict entries = memberCountList (entries.map Prod.snd) := by
  induction entries with
  | nil => rfl
  | cons kv rest ih => rw [memberCountDict, List.map_cons, memberCountList, ih]

theorem nestingList_le_iff (items : List Json) (n : Nat) :
    nestingList items ≤ n ↔ ∀ v ∈ items, nesting v ≤ n := by
  induction items with
  | nil => simp [nestingList]
  | cons v rest ih => rw [nestingList, Nat.max_le, ih, List.forall_mem_cons]

theorem memberCountList_eq (items : List Json) :
    memberCountList items = (items.map memberCount).sum := by
  induction items with
  | nil => rfl
  | cons v rest ih => rw [memberCountList, List.map_cons, List.sum_cons, ih]

theorem leaf_of_childrenOf {node : Json} (h : childrenOf node = none) :
    nesting node = 0 ∧ memberCount node = 0 := by
  cases node with
  | list items => cases h
  | dict entries => cases h
  | _ => exact ⟨rfl, rfl⟩

/-- A container lies around its children and counts them. -/
theorem container_of_childrenOf {node : Json} {children : List Json}
    (h : childrenOf node = some children) : nesting node = nestingList children + 1 ∧
      memberCount node = children.length + (children.map memberCount).sum := by
  cases node with
  | list items =>
    cases h
    exact ⟨rfl, by rw [memberCount, memberCountList_eq]⟩
  | dict entries =>
    cases h
    exact ⟨by rw [nesting, nestingDict_eq],
      by rw [memberCount, memberCountDict_eq, memberCountList_eq, List.length_map]⟩
  | _ => cases h

/-! ## The stack -/

/-- The members that are still to be met. -/
def pending (stack : List (Json × Nat)) : Nat := (stack.map fun entry => memberCount entry.1).sum

/-- No container on the stack leads below the limit. -/
def Shallow (stack : List (Json × Nat)) : Prop :=
  ∀ entry ∈ stack, entry.2 + nesting entry.1 ≤ maxParamsDepth + 1

theorem pending_cons (entry : Json × Nat) (stack : List (Json × Nat)) :
    pending (entry :: stack) = memberCount entry.1 + pending stack := by
  simp [pending]

theorem pending_pushed (children : List Json) (depth : Nat) (stack : List (Json × Nat)) :
    pending ((children.map fun child => (child, depth)).reverse ++ stack) =
      (children.map memberCount).sum + pending stack := by
  simp [pending, List.map_reverse, List.sum_reverse, Function.comp_def]

theorem shallow_cons (entry : Json × Nat) (stack : List (Json × Nat)) :
    Shallow (entry :: stack) ↔ entry.2 + nesting entry.1 ≤ maxParamsDepth + 1 ∧ Shallow stack :=
  List.forall_mem_cons

/-- The children of a container within the limit are shallow when the container is. -/
theorem shallow_pushed {children : List Json} {depth : Nat} (stack : List (Json × Nat))
    (hdepth : depth ≤ maxParamsDepth) :
    Shallow ((children.map fun child => (child, depth + 1)).reverse ++ stack) ↔
      depth + (nestingList children + 1) ≤ maxParamsDepth + 1 ∧ Shallow stack := by
  have hchildren : depth + (nestingList children + 1) ≤ maxParamsDepth + 1 ↔
      ∀ child ∈ children, depth + 1 + nesting child ≤ maxParamsDepth + 1 := by
    have hle := nestingList_le_iff children (maxParamsDepth - depth)
    constructor
    · intro h child hchild
      have hbound := hle.mp (by omega) child hchild
      omega
    · intro h
      have hbound := hle.mpr fun child hchild => by
        have hone := h child hchild
        omega
      omega
  rw [hchildren]
  simp only [Shallow, List.mem_append, List.mem_reverse, List.mem_map]
  constructor
  · intro h
    exact ⟨fun child hchild => h _ (.inl ⟨child, hchild, rfl⟩), fun entry hentry => h _ (.inr hentry)⟩
  · rintro ⟨hnew, hold⟩ entry (⟨child, hchild, rfl⟩ | hentry)
    · exact hnew child hchild
    · exact hold entry hentry

/-- The loop ends in a turn for each value on the stack and below, and accepts what the recursive
counts accept.  No entry of the stack lies more than one level below the limit. -/
theorem shapeLoop_exact (fuel : Nat) : ∀ (members : Nat) (stack : List (Json × Nat)),
    pending stack + stack.length < fuel → members ≤ maxParamsMembers →
    (∀ entry ∈ stack, entry.2 ≤ maxParamsDepth + 1) →
    ∃ verdict, (∀ more, shapeLoop (fuel + more) members stack = some verdict) ∧
      (verdict = .ok () ↔ Shallow stack ∧ members + pending stack ≤ maxParamsMembers) := by
  -- one turn takes the top entry and pushes its children, so what is pending shrinks by one
  induction fuel with
  | zero =>
    intro members stack hfuel
    omega
  | succ fuel ih =>
    intro members stack hfuel hmembers hlevels
    cases stack with
    | nil =>
      refine ⟨.ok (), fun more => by rw [Nat.add_right_comm, shapeLoop], ?_⟩
      simpa [Shallow, pending] using hmembers
    | cons entry stack =>
      obtain ⟨node, depth⟩ := entry
      rw [pending_cons, List.length_cons] at hfuel
      rw [pending_cons, shallow_cons]
      dsimp only at hfuel ⊢
      have hlevel : depth ≤ maxParamsDepth + 1 := hlevels _ List.mem_cons_self
      have hbelow := fun entry hentry => hlevels entry (List.mem_cons_of_mem _ hentry)
      cases hchildren : childrenOf node with
      | none =>
        obtain ⟨hnesting, hcount⟩ := leaf_of_childrenOf hchildren
        obtain ⟨verdict, hrun, hverdict⟩ := ih members stack (by omega) hmembers hbelow
        refine ⟨verdict, fun more => ?_, ?_⟩
        · rw [Nat.add_right_comm, shapeLoop, hchildren]
          exact hrun more
        · rw [hverdict, hnesting, hcount, Nat.zero_add, and_iff_right (show depth + 0 ≤ _ from hlevel)]
      | some children =>
        obtain ⟨hnesting, hcount⟩ := container_of_childrenOf hchildren
        by_cases hdeep : maxParamsDepth < depth
        · refine ⟨_, fun more => by rw [Nat.add_right_comm, shapeLoop, hchildren]; exact if_pos hdeep, ?_⟩
          simp only [hnesting, reduceCtorEq, false_iff]
          omega
        -- the count is checked before the children are pushed
        · by_cases hwide : maxParamsMembers < members + children.length
          · refine ⟨.error (py "paramsJSON member count exceeds limit"), fun more => ?_, ?_⟩
            · rw [Nat.add_right_comm, shapeLoop, hchildren]
              simp only [if_neg hdeep, if_pos hwide]
            · simp only [hcount, reduceCtorEq, false_iff]
              omega
          · obtain ⟨verdict, hrun, hverdict⟩ := ih (members + children.length)
              ((children.map fun child => (child, depth + 1)).reverse ++ stack)
              (by
                rw [pending_pushed, List.length_append, List.length_reverse, List.length_map]
                omega)
              (by omega)
              (by
                intro entry hentry
                rcases List.mem_append.mp hentry with hnew | hold
                · obtain ⟨child, -, rfl⟩ := List.mem_map.mp (List.mem_reverse.mp hnew)
                  simp only
                  omega
                · exact hbelow entry hold)
            rw [pending_pushed, shallow_pushed stack (by omega)] at hverdict
            refine ⟨verdict, fun more => ?_, ?_⟩
            · rw [Nat.add_right_comm, shapeLoop, hchildren]
              simp only [if_neg hdeep, if_neg hwide]
              exact hrun more
            · rw [hverdict, hnesting, hcount]
              simp only [Nat.add_assoc]

/-- `_check_params_shape` ends on every value, in a turn for the value and for each of its members and
one more, and accepts exactly the values within both limits. -/
theorem params_shape_exact (decoded : Json) :
    ∃ verdict, (∀ more, checkParamsShape (memberCount decoded + 2 + more) decoded = some verdict) ∧
      (verdict = .ok () ↔
        nesting decoded ≤ maxParamsDepth ∧ memberCount decoded ≤ maxParamsMembers) := by
  obtain ⟨verdict, hrun, hverdict⟩ := shapeLoop_exact (memberCount decoded + 2) 0 [(decoded, 1)]
    (by simp [pending]) (by simp [maxParamsMembers]) (by simp [maxParamsDepth])
  refine ⟨verdict, hrun, ?_⟩
  rw [hverdict]
  simp [Shallow, pending]
  omega

end HassNode.GatewayWs
