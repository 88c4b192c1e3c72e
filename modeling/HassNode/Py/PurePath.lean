import HassNode.Py.Text

/-!
# `pathlib.PurePosixPath`

A path is its anchor and the components after it.  Repeated slashes, `.` components and a trailing
slash leave no trace; two leading slashes are an anchor of their own, three or more are one.
-/

namespace Py

inductive Anchor
  | relative
  | root
  | doubleRoot
  deriving DecidableEq, Repr

def Anchor.text : Anchor → PyStr
  | .relative => []
  | .root => py "/"
  | .doubleRoot => py "//"

/-- What a component of a parsed path can be. -/
def Component (c : PyStr) : Prop := c ≠ [] ∧ c ≠ py "." ∧ 47 ∉ c

structure PurePath where
  anchor : Anchor
  tail : List PyStr
  proper : ∀ c ∈ tail, Component c
  deriving DecidableEq

namespace PurePath

/-- `posixpath.splitroot`. -/
def splitroot (p : PyStr) : Anchor × PyStr :=
  if p.head? ≠ some 47 then (.relative, p)
  else if p.tail.head? ≠ some 47 then (.root, p.tail)
  else if p.tail.tail.head? = some 47 then (.root, p.tail)
  else (.doubleRoot, p.tail.tail)

theorem not_mem_of_mem_splitOn {sep : CodePoint} {s part : PyStr} (h : part ∈ s.splitOn sep) :
    sep ∉ part := by
  induction s generalizing part with
  | nil =>
    rw [List.splitOn_nil, List.mem_singleton] at h
    rw [h]
    exact List.not_mem_nil
  | cons c s ih =>
    rw [List.splitOn_cons_eq_if_modifyHead] at h
    by_cases hc : (c == sep) = true
    · rw [if_pos hc] at h
      rcases List.mem_cons.mp h with hnil | hrest
      · rw [hnil]
        exact List.not_mem_nil
      · exact ih hrest
    · rw [if_neg hc] at h
      have hne : sep ≠ c := fun heq => hc (by rw [heq]; exact beq_self_eq_true c)
      cases hsplit : s.splitOn sep with
      | nil => exact absurd hsplit (List.splitOn_ne_nil sep s)
      | cons first rest =>
        rw [hsplit] at h ih
        rcases List.mem_cons.mp h with hfirst | hrest
        · rw [hfirst, List.mem_cons, not_or]
          exact ⟨hne, ih List.mem_cons_self⟩
        · exact ih (List.mem_cons_of_mem _ hrest)

def components (rel : PyStr) : List PyStr :=
  (rel.splitOn 47).filter fun c => c ≠ [] ∧ c ≠ py "."

theorem component_of_mem {rel c : PyStr} (h : c ∈ components rel) : Component c := by
  obtain ⟨hmem, hc⟩ := List.mem_filter.mp h
  have hproper := of_decide_eq_true hc
  exact ⟨hproper.1, hproper.2, not_mem_of_mem_splitOn hmem⟩

/-- `Path(p)`. -/
def parse (p : PyStr) : PurePath :=
  ⟨(splitroot p).1, components (splitroot p).2, fun _ => component_of_mem⟩

/-- `path.is_absolute()`. -/
def isAbsolute (path : PurePath) : Bool := path.anchor ≠ .relative

/-- `path.parts`. -/
def parts (path : PurePath) : List PyStr :=
  match path.anchor with
  | .relative => path.tail
  | anchor => anchor.text :: path.tail

/-- `str(path)`. -/
def str (path : PurePath) : PyStr :=
  if path.anchor = .relative ∧ path.tail = [] then py "."
  else path.anchor.text ++ joinWith (py "/") path.tail

/-- `path` is `other` or has it among its parents. -/
def isRelativeTo (path other : PurePath) : Bool :=
  path.anchor = other.anchor && other.tail.isPrefixOf path.tail

/-- `path.relative_to(other).parts`; `none` is the `ValueError`. -/
def relativeTo (path other : PurePath) : Option (List PyStr) :=
  if path.isRelativeTo other then some (path.tail.drop other.tail.length) else none

theorem relativeTo_eq_some {path other : PurePath} {rest : List PyStr} :
    path.relativeTo other = some rest ↔
      path.anchor = other.anchor ∧ path.tail = other.tail ++ rest := by
  unfold relativeTo isRelativeTo
  rw [Option.ite_none_right_eq_some, Bool.and_eq_true, decide_eq_true_eq, List.isPrefixOf_iff_prefix]
  constructor
  · intro ⟨⟨hanchor, hbegins⟩, hrest⟩
    obtain ⟨more, hmore⟩ := hbegins
    rw [← hmore, List.drop_left, Option.some.injEq] at hrest
    exact ⟨hanchor, by rw [← hmore, hrest]⟩
  · intro ⟨hanchor, htail⟩
    rw [htail, List.drop_left]
    exact ⟨⟨hanchor, List.prefix_append _ _⟩, rfl⟩

theorem component_of_relativeTo {path other : PurePath} {rest : List PyStr}
    (h : path.relativeTo other = some rest) {c : PyStr} (hc : c ∈ rest) : Component c := by
  apply path.proper
  rw [(relativeTo_eq_some.mp h).2]
  exact List.mem_append_right _ hc

/-- `path.name`. -/
def name (path : PurePath) : PyStr := path.tail.getLast?.getD []

end PurePath

/-! ## `os.path` -/

/-- `os.path.basename`. -/
def basename (p : PyStr) : PyStr := (p.splitOn 47).getLast?.getD []

/-- What `normpath` has of the components before `comp`, and `comp`. -/
def normStep (rooted : Bool) (comps : List PyStr) (comp : PyStr) : List PyStr :=
  if comp ≠ py ".." ∨ (rooted = false ∧ comps = []) ∨ comps.getLast? = some (py "..") then comps ++ [comp]
  else comps.dropLast

/-- `os.path.normpath`. -/
def normpath (p : PyStr) : PyStr :=
  let path := PurePath.parse p
  let comps := path.tail.foldl (normStep path.isAbsolute) []
  if path.anchor = .relative ∧ comps = [] then py "." else path.anchor.text ++ joinWith (py "/") comps

/-- `os.path.join(a, b)`. -/
def joinPath (a b : PyStr) : PyStr :=
  if b.head? = some 47 then b
  else if a = [] ∨ a.getLast? = some 47 then a ++ b
  else a ++ py "/" ++ b

/-- `os.path.abspath`, in the working directory `cwd`. -/
def abspath (cwd p : PyStr) : PyStr := normpath (if p.head? = some 47 then p else joinPath cwd p)

/-- A path as `Path.resolve()` leaves it. -/
structure RealPath where
  path : PurePath
  isRoot : path.anchor = .root
  noParent : py ".." ∉ path.tail
  deriving DecidableEq

namespace RealPath

variable (p : RealPath)

/-- `str(path)`. -/
def str : PyStr := p.path.str

theorem str_eq : p.str = 47 :: joinWith (py "/") p.path.tail := by
  rw [str, PurePath.str, p.isRoot]
  rfl

theorem splitOn_join {tail : List PyStr} (hproper : ∀ c ∈ tail, Component c) (hne : tail ≠ []) :
    (joinWith (py "/") tail).splitOn 47 = tail :=
  List.splitOn_intercalate _ (fun c hc => (hproper c hc).2.2) hne

theorem components_join {tail : List PyStr} (hproper : ∀ c ∈ tail, Component c) :
    PurePath.components (joinWith (py "/") tail) = tail := by
  by_cases htail : tail = []
  · rw [htail]
    rfl
  · unfold PurePath.components
    rw [splitOn_join hproper htail, List.filter_eq_self]
    intro c hc
    exact decide_eq_true ⟨(hproper c hc).1, (hproper c hc).2.1⟩

theorem head_join {tail : List PyStr} (hproper : ∀ c ∈ tail, Component c) :
    (joinWith (py "/") tail).head? ≠ some 47 := by
  cases tail with
  | nil => nofun
  | cons first rest =>
    obtain ⟨hne, -, hslash⟩ := hproper first List.mem_cons_self
    cases first with
    | nil => exact absurd rfl hne
    | cons c text =>
      have hhead : (joinWith (py "/") ((c :: text) :: rest)).head? = some c := by
        cases rest with
        | nil => simp [joinWith, List.intercalate]
        | cons second rest => simp [joinWith, List.intercalate]
      rw [hhead]
      intro heq
      exact hslash (Option.some.inj heq ▸ List.mem_cons_self)

theorem basename_str : basename p.str = p.path.name := by
  unfold basename PurePath.name
  rw [str_eq, List.splitOn_cons_eq_if_modifyHead, if_pos (beq_self_eq_true _)]
  by_cases htail : p.path.tail = []
  · rw [htail]
    rfl
  · rw [splitOn_join p.path.proper htail, List.getLast?_cons, List.getLast?_eq_some_getLast htail]
    rfl

end RealPath

end Py
