import HassNode.Library.DirTree
import Mathlib.Logic.Function.Basic

/-!
# Disks whose objects are known by one path

A `Disk` gives each real path its node, so that no object has two names.  `Resolves` follows symbolic
links the way a path lookup does; what it reaches is `Straight`, and a straight path resolves to itself.
`Disk.tree` is the disk as a `DirTree.Tree`, whose walks without links agree with the lookup.
-/

namespace PathDisk

open DirTree

inductive Node (Name Data : Type)
  | directory (searchable : Bool)
  | file (data : Data)
  /-- A link with an absolute or a relative target. -/
  | symlink (absolute : Bool) (target : List (Step Name))
  | special

structure Disk (Name Data : Type) where
  node : List Name → Option (Node Name Data)
  /-- What is there is in a directory. -/
  parent : ∀ dir name, node (dir ++ [name]) ≠ none → ∃ searchable, node dir = some (.directory searchable)
  /-- Names longer than the file system stores. -/
  tooLong : Name → Bool
  /-- Why an object that is there cannot be opened for reading. -/
  refusal : List Name → Option Errno
  refusal_ne : ∀ i, refusal i ≠ some .noEntry

namespace Disk

variable {Name Data : Type} (d : Disk Name Data)

def IsDirectory (i : List Name) : Prop := ∃ searchable, d.node i = some (.directory searchable)

/-- `lstat` finds a link `name` in `dir`: whether its target is absolute, and the target. -/
def link? (dir : List Name) (name : Name) : Option (Bool × List (Step Name)) :=
  match d.node dir with
  | some (.directory true) =>
    if d.tooLong name then none
    else
      match d.node (dir ++ [name]) with
      | some (.symlink absolute target) => some (absolute, target)
      | _ => none
  | _ => none

/-- The steps lead from `dir` to `i` when links are followed; below a missing object they are taken as
they are written. -/
inductive Resolves : List Name → List (Step Name) → List Name → Prop
  | done (dir : List Name) : Resolves dir [] dir
  | here {dir i : List Name} {steps : List (Step Name)} (rest : Resolves dir steps i) :
      Resolves dir (.here :: steps) i
  | up {dir i : List Name} {steps : List (Step Name)} (rest : Resolves dir.dropLast steps i) :
      Resolves dir (.up :: steps) i
  | down {dir i : List Name} {name : Name} {steps : List (Step Name)} (plain : d.link? dir name = none)
      (rest : Resolves (dir ++ [name]) steps i) : Resolves dir (.down name :: steps) i
  | link {dir i : List Name} {name : Name} {steps target : List (Step Name)} {absolute : Bool}
      (found : d.link? dir name = some (absolute, target))
      (rest : Resolves (if absolute then [] else dir) (target ++ steps) i) :
      Resolves dir (.down name :: steps) i

/-- No component of the path is a link. -/
def Straight (i : List Name) : Prop :=
  ∀ dir name more, i = dir ++ name :: more → d.link? dir name = none

/-- The disk for a component-wise walk, which does not read links. -/
def tree [Inhabited Data] : Tree Name (List Name) Data where
  node i :=
    match d.node i with
    | some (.directory searchable) =>
      .directory i.dropLast searchable fun name =>
        if (d.node (i ++ [name])).isSome then some (i ++ [name]) else none
    | some (.file data) => .file data
    | some (.symlink _ _) => .symlink default
    | _ => .special
  tooLong := d.tooLong
  refusal := d.refusal

variable {d} {dir i j : List Name} {steps more : List (Step Name)} {name : Name}

/-! ## Lookups -/

/-- Nothing lies below what is not there. -/
theorem node_append_eq_none (h : d.node i = none) (j : List Name) : d.node (i ++ j) = none := by
  induction j generalizing i with
  | nil => rwa [List.append_nil]
  | cons name j ih =>
    rw [List.append_cons]
    apply ih
    by_contra hnode
    obtain ⟨searchable, hparent⟩ := d.parent i name hnode
    rw [h] at hparent
    cases hparent

/-- Only directories have something below them. -/
theorem isDirectory_of_append (h : d.node (i ++ name :: j) ≠ none) : d.IsDirectory i := by
  apply d.parent i name
  intro hnone
  rw [List.append_cons] at h
  exact h (node_append_eq_none hnone j)

theorem Resolves.unique (hi : d.Resolves dir steps i) (hj : d.Resolves dir steps j) : i = j := by
  induction hi with
  | done dir =>
    cases hj
    rfl
  | here _ ih =>
    cases hj with
    | here rest => exact ih rest
  | up _ ih =>
    cases hj with
    | up rest => exact ih rest
  | down plain _ ih =>
    cases hj with
    | down _ rest => exact ih rest
    | link found rest =>
      rw [plain] at found
      cases found
  | link found _ ih =>
    cases hj with
    | down plain rest =>
      rw [plain] at found
      cases found
    | link found' rest =>
      rw [found, Option.some.injEq, Prod.mk.injEq] at found'
      obtain ⟨rfl, rfl⟩ := found'
      exact ih rest

theorem Straight.nil : d.Straight [] := by
  intro dir name more h
  exact absurd h.symm (List.append_ne_nil_of_right_ne_nil _ (List.cons_ne_nil _ _))

theorem Straight.of_append (h : d.Straight (i ++ j)) : d.Straight i := by
  rintro dir name more rfl
  exact h dir name (more ++ j) (by rw [List.append_assoc, List.cons_append])

theorem Straight.dropLast (h : d.Straight i) : d.Straight i.dropLast := by
  rcases List.eq_nil_or_concat i with rfl | ⟨init, last, rfl⟩
  · exact h
  · simp only [List.concat_eq_append, List.dropLast_concat] at h ⊢
    exact h.of_append

theorem Straight.concat (h : d.Straight dir) (plain : d.link? dir name = none) :
    d.Straight (dir ++ [name]) := by
  intro dir' name' more heq
  rcases List.eq_nil_or_concat more with rfl | ⟨init, last, rfl⟩
  · obtain ⟨rfl, hlast⟩ := List.append_inj' heq rfl
    rw [List.cons.injEq] at hlast
    exact hlast.1 ▸ plain
  · rw [List.concat_eq_append, ← List.cons_append, ← List.append_assoc] at heq
    obtain ⟨rfl, -⟩ := List.append_inj' heq rfl
    exact h dir' name' init rfl

/-- What a lookup reaches has no link on its way. -/
theorem Resolves.straight (h : d.Resolves dir steps i) (hdir : d.Straight dir) : d.Straight i := by
  induction h with
  | done dir => exact hdir
  | here _ ih => exact ih hdir
  | up _ ih => exact ih hdir.dropLast
  | down plain _ ih => exact ih (hdir.concat plain)
  | @link dir _ _ _ _ absolute _ _ ih =>
    apply ih
    cases absolute with
    | true => exact .nil
    | false => exact hdir

/-- A path without links leads to itself. -/
theorem Straight.resolves {names : List Name} (h : d.Straight (dir ++ names)) :
    d.Resolves dir (names.map .down) (dir ++ names) := by
  induction names generalizing dir with
  | nil =>
    rw [List.append_nil]
    exact .done dir
  | cons name names ih =>
    rw [List.append_cons] at h ⊢
    exact .down (h dir name names (by rw [List.append_assoc, List.singleton_append])) (ih h)

theorem link?_of_missing (h : d.node (dir ++ [name]) = none) : d.link? dir name = none := by
  unfold link?
  split
  · split_ifs
    · rfl
    · rw [h]
  · rfl

theorem node_of_link? {absolute : Bool} (h : d.link? dir name = some (absolute, more)) :
    d.node (dir ++ [name]) = some (.symlink absolute more) := by
  unfold link? at h
  split at h
  · split_ifs at h
    split at h
    · rename_i hnode
      rw [Option.some.injEq, Prod.mk.injEq] at h
      rw [hnode, h.1, h.2]
    · cases h
  · cases h

/-! ## Walks without links -/

section
variable [Inhabited Data]

theorem isDirectory_tree : d.tree.isDirectory i = true ↔ d.IsDirectory i := by
  unfold Tree.isDirectory tree IsDirectory
  dsimp only
  cases hnode : d.node i with
  | none => simp
  | some node => cases node <;> simp

theorem isSymlink_tree : d.tree.isSymlink i = true ↔
    ∃ absolute target, d.node i = some (.symlink absolute target) := by
  unfold Tree.isSymlink tree
  dsimp only
  cases hnode : d.node i with
  | none => simp
  | some node => cases node <;> simp

theorem entry_tree_iff : d.tree.Entry dir name j ↔
    d.node dir = some (.directory true) ∧ d.tooLong name = false ∧ j = dir ++ [name] ∧
      (d.node (dir ++ [name])).isSome = true := by
  unfold Tree.Entry tree
  dsimp only
  cases hnode : d.node dir with
  | none => simp
  | some node =>
    cases node with
    | directory searchable =>
      constructor
      · rintro ⟨parent, entries, hdirectory, hentry, hlong⟩
        injection hdirectory with _ hsearchable hentries
        subst hsearchable hentries
        dsimp only at hentry
        split at hentry
        · rename_i hsome
          exact ⟨rfl, hlong, (Option.some.inj hentry).symm, hsome⟩
        · cases hentry
      · rintro ⟨hdirectory, hlong, rfl, hsome⟩
        injection hdirectory with hdirectory
        injection hdirectory with hsearchable
        subst hsearchable
        exact ⟨_, _, rfl, if_pos hsome, hlong⟩
    | _ => simp

/-- An entry that is no link is where its name leads. -/
theorem link?_of_entry (hentry : d.tree.Entry dir name j)
    (hplain : d.tree.isSymlink j = false) : d.link? dir name = none := by
  obtain ⟨hdir, hlong, rfl, -⟩ := entry_tree_iff.mp hentry
  unfold link?
  rw [hdir]
  dsimp only
  rw [if_neg (Bool.eq_false_iff.mp hlong)]
  split
  · rename_i absolute target hnode
    rw [isSymlink_tree.mpr ⟨absolute, target, hnode⟩] at hplain
    cases hplain
  · rfl

/-- What a lookup in a directory does not find is not there. -/
theorem node_eq_none_of_child (h : d.tree.child dir (.down name) = .error .noEntry) :
    d.node (dir ++ [name]) = none := by
  by_contra hnode
  obtain ⟨searchable, hdir⟩ := d.parent dir name hnode
  have htree : d.tree.node dir = .directory dir.dropLast searchable fun name =>
      if (d.node (dir ++ [name])).isSome then some (dir ++ [name]) else none := by
    simp only [tree, hdir]
  unfold Tree.child at h
  rw [htree] at h
  dsimp only at h
  rw [if_pos (Option.isSome_iff_ne_none.mpr hnode)] at h
  split_ifs at h <;> cases h

/-- What is found can be missing no more. -/
theorem openNode_tree_ne {flags : Flags} : d.tree.openNode i flags ≠ .error .noEntry := by
  unfold Tree.openNode
  intro h
  split_ifs at h
  · cases h
  · cases h
  · split at h
    · rename_i e hrefusal
      injection h with h
      exact d.refusal_ne i (h ▸ hrefusal)
    · cases h

theorem openAt_tree_ok {flags : Flags} (h : d.tree.openAt dir (.down name) flags = .ok j) :
    j = dir ++ [name] := by
  obtain ⟨hentry, -⟩ := Tree.openAt_down_iff.mp h
  exact (entry_tree_iff.mp hentry).2.2.1

theorem openAt_here_ne {flags : Flags} : d.tree.openAt dir .here flags ≠ .error .noEntry := by
  intro h
  cases hchild : d.tree.child dir .here with
  | error e =>
    rw [Tree.openAt, hchild] at h
    obtain rfl := Except.error.inj h
    unfold Tree.child at hchild
    split at hchild
    · split_ifs at hchild
      cases hchild
    · cases hchild
  | ok i =>
    rw [Tree.openAt, hchild] at h
    exact openNode_tree_ne h

/-- What cannot be opened because it is missing is not there. -/
theorem node_eq_none_of_openAt {flags : Flags}
    (h : d.tree.openAt dir (.down name) flags = .error .noEntry) : d.node (dir ++ [name]) = none := by
  cases hchild : d.tree.child dir (.down name) with
  | error e =>
    rw [Tree.openAt, hchild] at h
    obtain rfl := Except.error.inj h
    exact node_eq_none_of_child hchild
  | ok i =>
    rw [Tree.openAt, hchild] at h
    exact absurd h openNode_tree_ne

/-- Where a walk without links leads. -/
theorem descends_tree {names : List Name} (h : d.tree.Descends dir names j) :
    j = dir ++ names ∧ d.Resolves dir (names.map .down) j := by
  induction h with
  | here dir => exact ⟨(List.append_nil dir).symm, .done dir⟩
  | @down dir i j name names hentry hplain _ ih =>
    obtain ⟨rfl, hrest⟩ := ih
    obtain rfl := (entry_tree_iff.mp hentry).2.2.1
    exact ⟨List.append_assoc _ _ _, .down (link?_of_entry hentry hplain) hrest⟩

end

/-! ## Changes -/

/-- The nodes with another one at one path. -/
def put [DecidableEq Name] (d : Disk Name Data) (i : List Name) (node : Option (Node Name Data)) :
    List Name → Option (Node Name Data) :=
  Function.update d.node i node

/-- The nodes after a rename: what was at and below `src` is at and below `dst`. -/
def move [DecidableEq Name] (d : Disk Name Data) (src dst p : List Name) : Option (Node Name Data) :=
  if src = dst then d.node p
  else if dst <+: p then d.node (src ++ p.drop dst.length)
  else if src <+: p then none
  else d.node p

/-! ## Listings -/

/-- Everything listed is in a directory that is listed. -/
def closed [BEq Name] (entries : List (List Name × Node Name Data)) : Bool :=
  entries.all fun e => e.1.isEmpty ||
    match List.lookup e.1.dropLast entries with
    | some (.directory _) => true
    | _ => false

theorem parent_of_closed [BEq Name] [LawfulBEq Name] {entries : List (List Name × Node Name Data)}
    (hclosed : closed entries = true) (hnode : List.lookup (dir ++ [name]) entries ≠ none) :
    ∃ searchable, List.lookup dir entries = some (.directory searchable) := by
  obtain ⟨node, hlookup⟩ := Option.ne_none_iff_exists'.mp hnode
  obtain ⟨before, after, rfl, -⟩ := List.lookup_eq_some_iff.mp hlookup
  have hentry := List.all_eq_true.mp hclosed _
    (List.mem_append_right before List.mem_cons_self)
  rw [Bool.or_eq_true, List.dropLast_concat] at hentry
  rcases hentry with hempty | hdirectory
  · simp at hempty
  · split at hdirectory
    · rename_i searchable hdir
      exact ⟨searchable, hdir⟩
    · cases hdirectory

/-- A disk from its listing. -/
def ofEntries [BEq Name] [LawfulBEq Name] (entries : List (List Name × Node Name Data))
    (hclosed : closed entries = true) : Disk Name Data where
  node i := List.lookup i entries
  parent _ _ := parent_of_closed hclosed
  tooLong _ := false
  refusal _ := none
  refusal_ne _ h := by cases h

/-- A disk without links is straight everywhere. -/
theorem straight_of_no_links (h : ∀ i absolute target, d.node i ≠ some (.symlink absolute target)) :
    d.Straight i := by
  intro dir name more _
  cases hlink : d.link? dir name with
  | none => rfl
  | some target => exact absurd (node_of_link? hlink) (h _ _ _)

end Disk

end PathDisk
