import Mathlib.Data.List.Basic
import Mathlib.Logic.Function.Basic

/-!
# Append-only logs kept in files

Each key has a history, a list that grows at its end; a history can be moved to another key, where it
goes before what that key has.  `Represents` says that files keep the histories: a file for each key
with a history, in it the lines of the entries one after the other.
-/

namespace LogIndex

variable {κ φ ν β : Type} [DecidableEq κ] [DecidableEq φ]

abbrev Histories (κ ν : Type) := κ → List ν

def append (h : Histories κ ν) (key : κ) (entry : ν) : Histories κ ν :=
  Function.update h key (h key ++ [entry])

/-- The history of `src` goes before that of `dst` and leaves nothing behind. -/
def rename (h : Histories κ ν) (src dst : κ) : Histories κ ν :=
  Function.update (Function.update h dst (h src ++ h dst)) src []

@[simp] theorem append_self (h : Histories κ ν) (key : κ) (entry : ν) :
    append h key entry key = h key ++ [entry] := Function.update_self ..

theorem append_of_ne (h : Histories κ ν) {key other : κ} (entry : ν) (hne : other ≠ key) :
    append h key entry other = h other := Function.update_of_ne hne ..

@[simp] theorem rename_src (h : Histories κ ν) (src dst : κ) : rename h src dst src = [] :=
  Function.update_self ..

theorem rename_dst (h : Histories κ ν) {src dst : κ} (hne : src ≠ dst) :
    rename h src dst dst = h src ++ h dst := by
  rw [rename, Function.update_of_ne hne.symm, Function.update_self]

theorem rename_of_ne (h : Histories κ ν) {src dst other : κ} (hsrc : other ≠ src) (hdst : other ≠ dst) :
    rename h src dst other = h other := by
  rw [rename, Function.update_of_ne hsrc, Function.update_of_ne hdst]

/-- Moving an empty history changes nothing. -/
theorem rename_empty {h : Histories κ ν} {src dst : κ} (hnil : h src = []) : rename h src dst = h := by
  funext key
  by_cases hsrc : key = src
  · rw [hsrc, rename_src, hnil]
  · by_cases hdst : key = dst
    · subst hdst
      rw [rename_dst h (Ne.symm hsrc), hnil, List.nil_append]
    · exact rename_of_ne h hsrc hdst

/-- Every entry of a history after a step was there before or is the new one. -/
theorem mem_append {h : Histories κ ν} {key other : κ} {entry e : ν}
    (he : e ∈ append h key entry other) : (∃ k, e ∈ h k) ∨ e = entry := by
  by_cases hkey : other = key
  · subst hkey
    rw [append_self] at he
    rcases List.mem_append.mp he with he | he
    · exact .inl ⟨other, he⟩
    · exact .inr (List.mem_singleton.mp he)
  · rw [append_of_ne h entry hkey] at he
    exact .inl ⟨other, he⟩

theorem mem_rename {h : Histories κ ν} {src dst other : κ} {e : ν} (he : e ∈ rename h src dst other) :
    ∃ k, e ∈ h k := by
  by_cases hsrc : other = src
  · rw [hsrc, rename_src] at he
    cases he
  · by_cases hdst : other = dst
    · subst hdst
      rw [rename_dst h (Ne.symm hsrc)] at he
      rcases List.mem_append.mp he with he | he
      · exact ⟨src, he⟩
      · exact ⟨other, he⟩
    · rw [rename_of_ne h hsrc hdst] at he
      exact ⟨other, he⟩

/-! ## Files -/

/-- Which file a key has, if it can have one. -/
structure Naming (κ φ : Type) where
  name : κ → Option φ
  injective : ∀ {k l : κ} {f : φ}, name k = some f → name l = some f → k = l

variable (N : Naming κ φ) (line : ν → List β)

/-- What is in the file of a history. -/
def contents (entries : List ν) : Option (List β) :=
  if entries.isEmpty then none else some (entries.flatMap line)

structure Represents (files : φ → Option (List β)) (h : Histories κ ν) : Prop where
  file : ∀ {k : κ} {f : φ}, N.name k = some f → files f = contents line (h k)
  unnamed : ∀ {k : κ}, N.name k = none → h k = []

variable {N line}

omit [DecidableEq κ] [DecidableEq φ] in
theorem Represents.empty : Represents N line (fun _ => none) fun _ => [] :=
  ⟨fun _ => rfl, fun _ => rfl⟩

omit [DecidableEq κ] [DecidableEq φ] in
theorem contents_getD (entries : List ν) : (contents line entries).getD [] = entries.flatMap line := by
  cases entries <;> rfl

/-- A line at the end of a file. -/
theorem Represents.append {files : φ → Option (List β)} {h : Histories κ ν}
    (hrep : Represents N line files h) {k : κ} {f : φ} (hf : N.name k = some f) (entry : ν) :
    Represents N line (Function.update files f (some ((files f).getD [] ++ line entry)))
      (LogIndex.append h k entry) := by
  constructor
  · intro l g hg
    by_cases hkey : l = k
    · subst hkey
      have hfg : g = f := Option.some.inj (hg.symm.trans hf)
      subst hfg
      rw [Function.update_self, append_self, hrep.file hf, contents_getD]
      unfold contents
      rw [if_neg (by simp), List.flatMap_append, List.flatMap_singleton]
    · have hfg : g ≠ f := fun heq => hkey (N.injective (heq ▸ hg) hf)
      rw [Function.update_of_ne hfg, append_of_ne h entry hkey]
      exact hrep.file hg
  · intro l hl
    have hkey : l ≠ k := by
      intro heq
      rw [heq, hf] at hl
      cases hl
    rw [append_of_ne h entry hkey]
    exact hrep.unnamed hl

/-- A file put before another one and removed; a file that is moved onto itself is gone. -/
theorem Represents.rename {files : φ → Option (List β)} {h : Histories κ ν}
    (hrep : Represents N line files h) {src dst : κ} {fs fd : φ} (hs : N.name src = some fs)
    (hd : N.name dst = some fd) {raw : List β} (hraw : files fs = some raw) :
    Represents N line
      (Function.update (Function.update files fd (some (raw ++ (files fd).getD []))) fs none)
      (LogIndex.rename h src dst) := by
  have hfull : h src ≠ [] ∧ raw = (h src).flatMap line := by
    have hfile := hrep.file hs
    rw [hraw] at hfile
    unfold contents at hfile
    by_cases hnil : (h src).isEmpty = true
    · rw [if_pos hnil] at hfile
      cases hfile
    · rw [if_neg hnil] at hfile
      exact ⟨fun h0 => hnil (by rw [h0]; rfl), Option.some.inj hfile⟩
  constructor
  · intro l g hg
    by_cases hsrc : l = src
    · subst hsrc
      have hgs : g = fs := Option.some.inj (hg.symm.trans hs)
      rw [hgs, Function.update_self, rename_src]
      rfl
    · have hgs : g ≠ fs := fun heq => hsrc (N.injective (heq ▸ hg) hs)
      rw [Function.update_of_ne hgs]
      by_cases hdst : l = dst
      · subst hdst
        have hgd : g = fd := Option.some.inj (hg.symm.trans hd)
        rw [hgd, Function.update_self, rename_dst h (Ne.symm hsrc), hrep.file hd, contents_getD,
          hfull.2]
        unfold contents
        rw [if_neg (by simp [hfull.1]), List.flatMap_append]
      · have hgd : g ≠ fd := fun heq => hdst (N.injective (heq ▸ hg) hd)
        rw [Function.update_of_ne hgd, rename_of_ne h hsrc hdst]
        exact hrep.file hg
  · intro l hl
    have hsrc : l ≠ src := by
      intro heq
      rw [heq, hs] at hl
      cases hl
    have hdst : l ≠ dst := by
      intro heq
      rw [heq, hd] at hl
      cases hl
    rw [rename_of_ne h hsrc hdst]
    exact hrep.unnamed hl

end LogIndex
