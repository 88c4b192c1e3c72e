import HassNode.Commands.FsMutations
import HassNode.Library.PathDisk
import HassNode.Library.RelyGuarantee
import HassNode.SafeFdContainment

/-!
# The host of the file commands

What the calls of a file command do to the disk, to the backup store and to the used approval markers.
`safe_path.py` and `safe_fd.py` see the disk as the kernel shows it; the files of the store and of the
trash lie on the same disk, in places of their own.
-/

namespace HassNode.FsMutations

open Py DirTree PathDisk Interaction SafeFd ConfigMutation
open BackupStore (Version Selector Digest Store StoreError ResolveError IsoFormat)

abbrev FileDisk := Disk Bytes Bytes

/-- The names on the disk of path components. -/
abbrev Encoded (parts : List PyStr) (names : List Bytes) : Prop :=
  List.Forall₂ (fun part name => fsencode part = some name) parts names

/-- The object that a path leads to when links are followed, as `os.path.realpath` follows them. -/
def Leads (d : FileDisk) (path : PurePath) (i : List Bytes) : Prop :=
  ∃ names, Encoded path.tail names ∧ d.Resolves [] (names.map stepOf) i

/-- `path.parent`. -/
def parentOf (path : PurePath) : PurePath :=
  ⟨path.anchor, path.tail.dropLast, fun c hc => path.proper c (List.dropLast_subset _ hc)⟩

structure Host where
  /-- `allowed_roots_for_env()`. -/
  roots : List PurePath
  /-- `CURRENT_CALLER`. -/
  caller : Option Caller
  sysOpenat2 : Option Nat
  machine : PyStr
  hasOpenat2 : Bool
  /-- `_open_root`, which follows links. -/
  openRoot : FileDisk → PurePath → Except OpenError (List Bytes)
  openRoot_ok : ∀ {d : FileDisk} {root : PurePath} {i : List Bytes}, openRoot d root = .ok i →
    Leads d root i ∧ d.IsDirectory i
  openRoot_missing : ∀ {d : FileDisk} {root : PurePath} {i : List Bytes},
    openRoot d root = .error (.os .noEntry) → Leads d root i → d.node i = none
  /-- What belongs to the backup store on the disk. -/
  storePlace : List Bytes → Prop
  /-- What belongs to the trash. -/
  trashPlace : List Bytes → Prop
  /-- The depth of nested JSON that the recursion limit leaves room for. -/
  room : Nat

structure World where
  disk : FileDisk
  store : Store
  /-- `_USED_IDS`. -/
  used : UsedIds
  /-- What the approval gate has answered, when it was asked. -/
  verdict : Option (Option Json)

namespace Host

variable (h : Host)

/-- The disk as `safe_fd.py` sees it. -/
def kernel (d : FileDisk) : Kernel (List Bytes) where
  tree := d.tree
  openRoot := h.openRoot d
  openRoot_directory := fun hopen => Disk.isDirectory_tree.mpr (h.openRoot_ok hopen).2
  sysOpenat2 := h.sysOpenat2
  machine := h.machine
  hasOpenat2 := h.hasOpenat2

/-! ## `safe_path.py` and `safe_fd.py` -/

/-- `resolve_safe` returns the real path, where it is one of an allowed root. -/
def ResolvesSafe (d : FileDisk) (path : PyStr) (resolved : PurePath) : Prop :=
  path.head? = some 47 ∧ resolved.anchor = .root ∧ py ".." ∉ resolved.tail ∧
    (∀ i, Leads d (PurePath.parse path) i → Encoded resolved.tail i) ∧
    ∃ root ∈ h.roots, resolved.isRelativeTo root = true

/-- `open_safe_parent_dir`, and the name that it returns as the kernel takes it. -/
def ParentDir (d : FileDisk) (path : PyStr) (dir : List Bytes) (name : Bytes) : Prop :=
  let p := PurePath.parse path
  p.name ≠ [] ∧ p.name ≠ py ".." ∧ fsencode p.name = some name ∧
    (h.kernel d).openSafeFd (parentOf p).str h.roots true = .ok dir

/-- `read_bytes_safe`. -/
def ReadsBytes (d : FileDisk) (path : PyStr) (missingOk : Bool) : Except Exc Bytes → Prop
  | .ok data =>
    (∃ i, (h.kernel d).openSafeFd path h.roots false = .ok i ∧
      (d.node i = some (.file data) ∨ d.node i = some .special)) ∨
    (missingOk = true ∧ data = [] ∧
      (h.kernel d).openSafeFd path h.roots false = .error (.os .noEntry))
  | .error (.fileNotFound _) =>
    missingOk = false ∧ (h.kernel d).openSafeFd path h.roots false = .error (.os .noEntry)
  | .error _ => True

/-- A name that `atomic_write_safe` draws for its temporary file. -/
def Temporary (name : Bytes) : Prop := (py ".oc_write.").map Fin.val <+: name

/-- `atomic_write_safe`.  Where it fails, its temporary file can stay behind. -/
def WritesAtomically (d : FileDisk) (path : PyStr) (data : Bytes) (d' : FileDisk) :
    Except Exc Unit → Prop
  | .ok () => ∃ dir name, h.ParentDir d path dir name ∧
      ¬ d.IsDirectory (dir ++ [name]) ∧ d'.node = d.put (dir ++ [name]) (some (.file data))
  | .error _ => d'.node = d.node ∨ ∃ dir name tmp part, h.ParentDir d path dir name ∧ Temporary tmp ∧
      d.node (dir ++ [tmp]) = none ∧ d'.node = d.put (dir ++ [tmp]) (some (.file part))

/-- `replace_safe`.  A directory replaces only a directory, and nothing else replaces one. -/
def Replaces (d : FileDisk) (src dst : PyStr) (d' : FileDisk) : Except Exc Unit → Prop
  | .ok () => ∃ srcDir srcName dstDir dstName, h.ParentDir d src srcDir srcName ∧
      h.ParentDir d dst dstDir dstName ∧ d.node (srcDir ++ [srcName]) ≠ none ∧
      (d.node (dstDir ++ [dstName]) ≠ none →
        (d.IsDirectory (srcDir ++ [srcName]) ↔ d.IsDirectory (dstDir ++ [dstName]))) ∧
      d'.node = d.move (srcDir ++ [srcName]) (dstDir ++ [dstName])
  | .error _ => d'.node = d.node

/-! ## The store and the trash -/

/-- Of the disk only what lies in the place changes. -/
structure Within (place : List Bytes → Prop) (w w' : World) : Prop where
  used : w'.used = w.used
  verdict : w'.verdict = w.verdict
  own : ∀ i, ¬ place i → w'.disk.node i = w.disk.node i

/-- The store changes files and directories of its own, and never a link. -/
structure Housekeeps (place : List Bytes → Prop) (w w' : World) : Prop extends Within place w w' where
  links : ∀ dir name, w'.disk.link? dir name = w.disk.link? dir name
  /-- What is there and no directory becomes none. -/
  kind : ∀ i, w.disk.node i ≠ none → w'.disk.IsDirectory i → w.disk.IsDirectory i

/-- `_trash_file`: what the path names goes, and the trash changes. -/
def Trashes (d : FileDisk) (path : PurePath) (d' : FileDisk) : Prop :=
  ∃ dir name, Leads d (parentOf path) dir ∧ fsencode path.name = some name ∧
    ∀ i, ¬ h.trashPlace i → d'.node i = d.node i ∨ (dir ++ [name] <+: i ∧ d'.node i = none)

/-! ## Operations -/

/-- Nothing but the disk changes; the store stays as long as no place of its own is touched. -/
structure OnlyDisk (w w' : World) : Prop where
  used : w'.used = w.used
  verdict : w'.verdict = w.verdict
  store : (∀ i, h.storePlace i → w'.disk.node i = w.disk.node i) → w'.store = w.store

section
variable [Runtime] [Digest] [IsoFormat]

/-- What a call answers and leaves behind.  Any call can raise, whatever the store alone would answer;
one that raises can have done its work in part. -/
def fileEffect : (op : FileOp) → World → Except Exc op.Value → World → Prop
  | .resolveSafe path, w, ans, w' =>
    w' = w ∧ ∀ resolved, ans = .ok resolved → h.ResolvesSafe w.disk path resolved
  | .exists_ path, w, ans, w' =>
    w' = w ∧ ∀ found i, ans = .ok found → Encoded path.tail i → w.disk.Straight i →
      (found = true ↔ w.disk.tree.Descends [] i i)
  | .readBytesSafe path missingOk, w, ans, w' => w' = w ∧ h.ReadsBytes w.disk path missingOk ans
  | .atomicWriteSafe path data, w, ans, w' =>
    h.OnlyDisk w w' ∧
      h.WritesAtomically w.disk path data w'.disk ans
  | .replaceSafe src dst, w, ans, w' =>
    h.OnlyDisk w w' ∧ h.Replaces w.disk src dst w'.disk ans
  | .getStore, w, _, w' => Housekeeps h.storePlace w w' ∧ w'.store = w.store
  | .capture path priorBytes proposalId op actor, w, ans, w' =>
    Housekeeps h.storePlace w w' ∧ ∀ version, ans = .ok version → ∃ now,
      w.store.capture h.room path priorBytes proposalId op actor now = (w'.store, .ok version)
  | .resolveVersion path sel, w, ans, w' =>
    w' = w ∧ ∀ version, ans = .ok version → w.store.resolveVersion h.room path sel = .ok version
  | .fetchObject sha256, w, ans, w' =>
    w' = w ∧ ∀ raw, ans = .ok raw → w.store.fetchObject sha256 = .ok raw
  | .renameHistory src dst, w, ans, w' =>
    Housekeeps h.storePlace w w' ∧ ∀ moved, ans = .ok moved →
      w.store.renameHistory src dst = (w'.store, .ok moved)
  | .trashFile path, w, _, w' =>
    h.OnlyDisk w w' ∧ h.Trashes w.disk path w'.disk
  | .purgeTrashEntriesFor _, w, _, w' => Within h.trashPlace w w' ∧ w'.store = w.store

/-- The calls of a handler, and the approval gate. -/
def effect : Effect Ans World
  | .consume command action params, w, ans, w' => ∃ now,
    let r := consumeApprovalMarker h.caller now w.used command action params
    ans = r.refusal ∧ w' = { w with used := r.used, verdict := some r.refusal }
  | .file op, w, ans, w' => h.fileEffect op w ans w'

end

end Host

end HassNode.FsMutations
