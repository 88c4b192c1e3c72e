import Mathlib.Data.List.Basic

/-!
# Directory trees and how a kernel walks them

A tree gives each object its kind.  `openAt` takes one component below a directory and never follows
a symbolic link there (`openat` with `O_NOFOLLOW`); `openBeneath` takes a whole path and refuses every
symbolic link and every way out of the directory it starts in (`openat2` with `RESOLVE_BENEATH` and
`RESOLVE_NO_SYMLINKS`).  `Descends` says what both are for.
-/

namespace DirTree

inductive Errno
  | accessDenied
  | crossDevice
  | loop
  | nameTooLong
  | noEntry
  | noSyscall
  | notDirectory
  | other (code : Nat)
  deriving DecidableEq, Repr

/-- A component of a path. -/
inductive Step (Name : Type)
  | here
  | up
  | down (name : Name)

inductive Node (Name Ino Data : Type)
  | directory (parent : Ino) (searchable : Bool) (entries : Name → Option Ino)
  | file (data : Data)
  | symlink (target : Data)
  | special

structure Tree (Name Ino Data : Type) where
  node : Ino → Node Name Ino Data
  /-- Names longer than the file system stores. -/
  tooLong : Name → Bool
  /-- Why an object cannot be opened for reading. -/
  refusal : Ino → Option Errno

/-- What `open` is asked for: a directory and nothing else, a handle that only names the object. -/
structure Flags where
  directory : Bool
  path : Bool
  deriving DecidableEq

namespace Tree

variable {Name Ino Data : Type} (t : Tree Name Ino Data)

def isDirectory (i : Ino) : Bool :=
  match t.node i with
  | .directory .. => true
  | _ => false

def isSymlink (i : Ino) : Bool :=
  match t.node i with
  | .symlink _ => true
  | _ => false

/-- The object that one component names in `dir`. -/
def child (dir : Ino) (step : Step Name) : Except Errno Ino :=
  match t.node dir with
  | .directory parent searchable entries =>
    if searchable = false then .error .accessDenied
    else
      match step with
      | .here => .ok dir
      | .up => .ok parent
      | .down name =>
        if t.tooLong name then .error .nameTooLong
        else
          match entries name with
          | none => .error .noEntry
          | some i => .ok i
  | _ => .error .notDirectory

/-- The last step of `open` with `O_NOFOLLOW`: a link can only be named, never opened. -/
def openNode (i : Ino) (flags : Flags) : Except Errno Ino :=
  if flags.directory && !t.isDirectory i then .error .notDirectory
  else if flags.path then .ok i
  else if t.isSymlink i then .error .loop
  else
    match t.refusal i with
    | some e => .error e
    | none => .ok i

/-- `openat(dir, step, flags | O_NOFOLLOW)`. -/
def openAt (dir : Ino) (step : Step Name) (flags : Flags) : Except Errno Ino := do
  t.openNode (← t.child dir step) flags

/-- The walk of `openat2`; `above` holds the directories from the starting one down to the parent. -/
def walkBeneath : List Ino → Ino → List (Step Name) → Except Errno Ino
  | _, dir, [] => .ok dir
  | above, dir, .up :: steps => do
    let _ ← t.child dir .up
    match above with
    | [] => .error .crossDevice
    | parent :: above => walkBeneath above parent steps
  | above, dir, .here :: steps => do
    let dir ← t.child dir .here
    walkBeneath above dir steps
  | above, dir, .down name :: steps => do
    let i ← t.child dir (.down name)
    if t.isSymlink i then .error .loop else walkBeneath (dir :: above) i steps

/-- `openat2` with `RESOLVE_BENEATH | RESOLVE_NO_SYMLINKS`. -/
def openBeneath (dir : Ino) (steps : List (Step Name)) (flags : Flags) : Except Errno Ino := do
  t.openNode (← t.walkBeneath [] dir steps) flags

/-! ## What a walk reaches -/

/-- `dir` is a directory that may be searched and has an entry `name` for `i`. -/
def Entry (dir : Ino) (name : Name) (i : Ino) : Prop :=
  ∃ parent entries, t.node dir = .directory parent true entries ∧ entries name = some i ∧
    t.tooLong name = false

/-- `i` is reached from `dir` by the entries `names`, through no symbolic link and ending at none. -/
inductive Descends : Ino → List Name → Ino → Prop
  | here (dir : Ino) : Descends dir [] dir
  | down {dir i j : Ino} {name : Name} {names : List Name} : t.Entry dir name i →
      t.isSymlink i = false → Descends i names j → Descends dir (name :: names) j

variable {t}

theorem child_down_iff {dir i : Ino} {name : Name} :
    t.child dir (.down name) = .ok i ↔ t.Entry dir name i := by
  unfold child Entry
  split
  · rename_i parent searchable entries hnode
    rw [hnode]
    cases searchable with
    | false => simp
    | true =>
      cases htoo : t.tooLong name <;> cases hentry : entries name <;> simp [htoo, hentry]
  · rename_i hnode
    constructor
    · intro h
      cases h
    · intro h
      exact absurd h.choose_spec.choose_spec.1 (hnode _ _ _)

theorem Entry.isDirectory {dir i : Ino} {name : Name} (h : t.Entry dir name i) :
    t.isDirectory dir = true := by
  obtain ⟨parent, entries, hnode, -, -⟩ := h
  simp only [Tree.isDirectory, hnode]

theorem isSymlink_of_isDirectory {i : Ino} (h : t.isDirectory i = true) : t.isSymlink i = false := by
  unfold Tree.isDirectory at h
  unfold Tree.isSymlink
  split at h
  · rename_i hnode
    rw [hnode]
  · cases h

theorem Descends.cons_iff {dir j : Ino} {name : Name} {names : List Name} :
    t.Descends dir (name :: names) j ↔
      ∃ i, t.Entry dir name i ∧ t.isSymlink i = false ∧ t.Descends i names j := by
  constructor
  · intro h
    cases h with
    | down hentry hlink hrest => exact ⟨_, hentry, hlink, hrest⟩
  · intro ⟨i, hentry, hlink, hrest⟩
    exact .down hentry hlink hrest

@[simp] theorem Descends.nil_iff {dir j : Ino} : t.Descends dir [] j ↔ j = dir := by
  constructor
  · intro h
    cases h
    rfl
  · intro h
    exact h ▸ .here j

/-- What is passed on the way down is a directory. -/
theorem Descends.directory_of_cons {dir j : Ino} {name : Name} {names : List Name}
    (h : t.Descends dir (name :: names) j) : t.isDirectory dir = true := by
  obtain ⟨i, hentry, -, -⟩ := Descends.cons_iff.mp h
  exact hentry.isDirectory

/-- An object reached from a directory is no symbolic link. -/
theorem Descends.not_symlink {dir j : Ino} {names : List Name} (h : t.Descends dir names j)
    (hdir : t.isSymlink dir = false) : t.isSymlink j = false := by
  induction h with
  | here dir => exact hdir
  | down _ hlink _ ih => exact ih hlink

/-! ## The two kinds of opening -/

theorem openNode_ok {i j : Ino} {flags : Flags} (h : t.openNode i flags = .ok j) : j = i := by
  unfold openNode at h
  split_ifs at h
  · exact (Except.ok.inj h).symm
  · split at h
    · cases h
    · exact (Except.ok.inj h).symm

/-- The handle that a step of a component-wise walk needs exists exactly for directories. -/
theorem openNode_directory_path {i j : Ino} :
    t.openNode i ⟨true, true⟩ = .ok j ↔ j = i ∧ t.isDirectory i = true := by
  unfold openNode
  cases t.isDirectory i <;> simp [eq_comm]

theorem openAt_down_iff {dir i : Ino} {name : Name} {flags : Flags} :
    t.openAt dir (.down name) flags = .ok i ↔ t.Entry dir name i ∧ t.openNode i flags = .ok i := by
  rw [← child_down_iff]
  show (t.child dir (.down name)).bind (fun j => t.openNode j flags) = .ok i ↔ _
  cases t.child dir (.down name) with
  | error e =>
    constructor
    · intro h
      cases h
    · intro h
      cases h.1
  | ok j =>
    show t.openNode j flags = .ok i ↔ _
    constructor
    · intro h
      have hij := openNode_ok h
      subst hij
      exact ⟨rfl, h⟩
    · intro ⟨hi, h⟩
      cases hi
      exact h

theorem walkBeneath_down_iff {above : List Ino} {dir j : Ino} {names : List Name} :
    t.walkBeneath above dir (names.map .down) = .ok j ↔ t.Descends dir names j := by
  induction names generalizing above dir with
  | nil =>
    show Except.ok dir = .ok j ↔ _
    rw [Descends.nil_iff, Except.ok.injEq, eq_comm]
  | cons name names ih =>
    rw [Descends.cons_iff]
    show (t.child dir (.down name)).bind (fun i =>
      if t.isSymlink i then .error .loop
      else t.walkBeneath (dir :: above) i (names.map .down)) = .ok j ↔ _
    cases hchild : t.child dir (.down name) with
    | error e =>
      constructor
      · intro h
        cases h
      · intro ⟨i, hentry, _⟩
        rw [child_down_iff.mpr hentry] at hchild
        cases hchild
    | ok i =>
      have hentry := child_down_iff.mp hchild
      have honly : ∀ k, t.Entry dir name k → k = i := by
        intro k hk
        exact Except.ok.inj ((child_down_iff.mpr hk).symm.trans hchild)
      show (if t.isSymlink i then .error .loop
        else t.walkBeneath (dir :: above) i (names.map .down)) = .ok j ↔ _
      cases hlink : t.isSymlink i with
      | true =>
        constructor
        · intro h
          cases h
        · intro ⟨k, hk, hklink, _⟩
          rw [honly k hk, hlink] at hklink
          cases hklink
      | false =>
        show t.walkBeneath (dir :: above) i (names.map .down) = .ok j ↔ _
        rw [ih]
        constructor
        · intro h
          exact ⟨i, hentry, hlink, h⟩
        · intro ⟨k, hk, _, hrest⟩
          exact honly k hk ▸ hrest

/-- `openat2` over plain names opens exactly what descending them reaches. -/
theorem openBeneath_down_iff {dir j : Ino} {names : List Name} {flags : Flags} :
    t.openBeneath dir (names.map .down) flags = .ok j ↔
      t.Descends dir names j ∧ t.openNode j flags = .ok j := by
  show (t.walkBeneath [] dir (names.map .down)).bind (fun i => t.openNode i flags) = .ok j ↔ _
  have hwalk : t.walkBeneath [] dir (names.map .down) = .ok j ↔ t.Descends dir names j :=
    walkBeneath_down_iff
  rw [← hwalk]
  cases t.walkBeneath [] dir (names.map .down) with
  | error e =>
    constructor
    · intro h
      cases h
    · intro h
      cases h.1
  | ok i =>
    show t.openNode i flags = .ok j ↔ _
    constructor
    · intro h
      have hij := openNode_ok h
      subst hij
      exact ⟨rfl, h⟩
    · intro ⟨hi, h⟩
      cases hi
      exact h

end Tree

end DirTree
