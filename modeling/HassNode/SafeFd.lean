import HassNode.Library.DirTree
import HassNode.Py.PurePath

/-!
# `safe_fd.py`: opening beneath the allowed roots

`open_safe_fd` matches a path against the allowed roots and opens what lies below the longest one,
through `openat2` where the kernel has it and component by component where that fails.
-/

namespace HassNode.SafeFd

open Py DirTree

abbrev Bytes := List Nat

inductive OpenError
  | noAllowedRoots
  | outOfBounds (path : PyStr) (resolved : Option PyStr)
  | os (errno : Errno)
  | unicodeEncode
  deriving DecidableEq

/-! ## The kernel -/

/-- What `os.fsencode` makes of a character, a byte smuggled in as a surrogate included. -/
def fsChar (c : CodePoint) : Option Bytes :=
  if 0xDC80 ≤ c.val ∧ c.val ≤ 0xDCFF then some [c.val - 0xDC00]
  else if unencodable c then none
  else some (utf8Char c)

/-- `os.fsencode`. -/
def fsencode : PyStr → Option Bytes
  | [] => some []
  | c :: s => do return (← fsChar c) ++ (← fsencode s)

def stepOf (name : Bytes) : Step Bytes :=
  if name = [] ∨ name = [46] then .here
  else if name = [46, 46] then .up
  else .down name

/-- `PATH_MAX`, its terminating zero included. -/
def pathMax : Nat := 4096

structure Kernel (Ino : Type) where
  tree : Tree Bytes Ino Bytes
  /-- `os.open(root, O_PATH | O_DIRECTORY | O_CLOEXEC)`. -/
  openRoot : PurePath → Except OpenError Ino
  openRoot_directory : ∀ {root : PurePath} {i : Ino}, openRoot root = .ok i →
    tree.isDirectory i = true
  /-- `getattr(os, "SYS_openat2", None)`. -/
  sysOpenat2 : Option Nat
  /-- `platform.machine().lower()`. -/
  machine : PyStr
  hasOpenat2 : Bool

variable {Ino : Type}

/-- The system call with `RESOLVE_BENEATH | RESOLVE_NO_SYMLINKS | RESOLVE_NO_MAGICLINKS`. -/
def Kernel.openat2 (k : Kernel Ino) (dir : Ino) (rel : Bytes) (flags : Flags) : Except Errno Ino :=
  if k.hasOpenat2 = false then .error .noSyscall
  else if rel = [] then .error .noEntry
  else if pathMax ≤ rel.length then .error .nameTooLong
  else if rel.head? = some 47 then .error .crossDevice
  else k.tree.openBeneath dir ((rel.splitOn 47).map stepOf) flags

/-! ## The source -/

/-- `_SYS_OPENAT2_BY_ARCH`. -/
def sysOpenat2ByArch : List (PyStr × Nat) :=
  [(py "x86_64", 437), (py "amd64", 437), (py "aarch64", 437), (py "arm64", 437),
    (py "armv7l", 437), (py "armv7", 437)]

/-- `_sys_openat2`. -/
def Kernel.syscallNumber (k : Kernel Ino) : Option Nat :=
  match k.sysOpenat2 with
  | some number => some number
  | none => sysOpenat2ByArch.lookup k.machine

def matchingRoots (path : PyStr) (raw : PurePath) :
    List PurePath → Except OpenError (List (PurePath × List PyStr))
  | [] => .ok []
  | root :: roots =>
    match raw.relativeTo root with
    | none => matchingRoots path raw roots
    | some parts =>
      if py ".." ∈ parts then .error (.outOfBounds path (some raw.str))
      else do return (root, parts) :: (← matchingRoots path raw roots)

/-- `max(matches, key=…)`: of several longest roots the first. -/
def longest : PurePath × List PyStr → List (PurePath × List PyStr) → PurePath × List PyStr
  | best, [] => best
  | best, m :: ms => longest (if best.1.parts.length < m.1.parts.length then m else best) ms

/-- `_relative_to_root`. -/
def relativeToRoot (path : PyStr) (roots : List PurePath) :
    Except OpenError (PurePath × List PyStr) :=
  let raw := PurePath.parse path
  if roots = [] then .error .noAllowedRoots
  else if path = [] ∨ raw.isAbsolute = false then .error (.outOfBounds path none)
  else
    match matchingRoots path raw roots with
    | .error e => .error e
    | .ok [] => .error (.outOfBounds path (some raw.str))
    | .ok (m :: ms) => .ok (longest m ms)

/-- `_final_flags`. -/
def finalFlags (dirFdOnly : Bool) : Flags := ⟨dirFdOnly, false⟩

/-- `_openat2_beneath`. -/
def Kernel.openat2Beneath (k : Kernel Ino) (rootFd : Ino) (relParts : List PyStr) (path : PyStr)
    (flags : Flags) : Except OpenError Ino :=
  match k.syscallNumber with
  | none => .error (.os .noSyscall)
  | some _ =>
    match encodeUtf8 (if relParts = [] then py "." else joinWith (py "/") relParts) with
    | none => .error .unicodeEncode
    | some rel =>
      match k.openat2 rootFd rel flags with
      | .ok fd => .ok fd
      | .error e =>
        if e = .loop ∨ e = .crossDevice then .error (.outOfBounds path none) else .error (.os e)

/-- The loop of `_fallback_openat`. -/
def Kernel.fallbackWalk (k : Kernel Ino) (path : PyStr) (flags : Flags) :
    Ino → List PyStr → Except OpenError Ino
  | current, [] => .ok current
  | current, part :: rest =>
    match fsencode part with
    | none => .error .unicodeEncode
    | some name =>
      match k.tree.openAt current (stepOf name) (if rest = [] then flags else ⟨true, true⟩) with
      | .error e => if e = .loop then .error (.outOfBounds path none) else .error (.os e)
      | .ok nextFd =>
        if k.tree.isSymlink nextFd then .error (.outOfBounds path none)
        else fallbackWalk k path flags nextFd rest

/-- `_fallback_openat`. -/
def Kernel.fallbackOpenat (k : Kernel Ino) (rootFd : Ino) (relParts : List PyStr) (path : PyStr)
    (flags : Flags) : Except OpenError Ino :=
  if relParts = [] then
    match k.tree.openAt rootFd .here flags with
    | .error e => .error (.os e)
    | .ok fd => .ok fd
  else k.fallbackWalk path flags rootFd relParts

/-- `open_safe_fd`. -/
def Kernel.openSafeFd (k : Kernel Ino) (path : PyStr) (roots : List PurePath) (dirFdOnly : Bool) :
    Except OpenError Ino :=
  if 0 ∈ path then .error (.outOfBounds path none)
  else do
    let (root, relParts) ← relativeToRoot path roots
    let rootFd ← k.openRoot root
    match k.openat2Beneath rootFd relParts path (finalFlags dirFdOnly) with
    | .error (.os _) => k.fallbackOpenat rootFd relParts path (finalFlags dirFdOnly)
    | result => result

end HassNode.SafeFd
