import Mathlib.Data.Finmap

/-!
# Dictionaries that keep their insertion order

`OrderedDict κ ν` is an association list with distinct keys.  `set` leaves a key that is present
where it is and puts a new one at the end, so `entries` lists the keys by the time they came in;
`AList.erase` removes a key.  A lookup after either is decided by comparing the two keys.
-/

/-- A dictionary from `κ` to `ν` in insertion order. -/
abbrev OrderedDict (κ ν : Type) := AList fun _ : κ => ν

namespace OrderedDict

variable {κ ν : Type} [DecidableEq κ]

/-- The entries after `d[key] = value`. -/
def setEntries (key : κ) (value : ν) (entries : List (Σ _ : κ, ν)) : List (Σ _ : κ, ν) :=
  if key ∈ entries.keys then entries.map fun e => if e.1 = key then ⟨key, value⟩ else e
  else entries ++ [⟨key, value⟩]

theorem keys_setEntries (key : κ) (value : ν) (entries : List (Σ _ : κ, ν)) :
    (setEntries key value entries).keys =
      if key ∈ entries.keys then entries.keys else entries.keys ++ [key] := by
  unfold setEntries
  split
  · show (entries.map _).map Sigma.fst = entries.map Sigma.fst
    rw [List.map_map]
    apply List.map_congr_left
    intro e _
    by_cases he : e.1 = key
    · simp [he]
    · simp [he]
  · show (entries ++ [_]).map Sigma.fst = entries.map Sigma.fst ++ [key]
    rw [List.map_append]
    rfl

theorem nodupKeys_setEntries (key : κ) (value : ν) {entries : List (Σ _ : κ, ν)}
    (h : entries.NodupKeys) : (setEntries key value entries).NodupKeys := by
  show (setEntries key value entries).keys.Nodup
  rw [keys_setEntries]
  split
  · exact h
  · rename_i hkey
    apply List.Nodup.append h (List.nodup_singleton key)
    intro k hmem hsingle
    exact hkey (List.mem_singleton.mp hsingle ▸ hmem)

/-- `d[key] = value`. -/
def set (d : OrderedDict κ ν) (key : κ) (value : ν) : OrderedDict κ ν :=
  ⟨setEntries key value d.entries, nodupKeys_setEntries key value d.nodupKeys⟩

theorem dlookup_setEntries (key other : κ) (value : ν) {entries : List (Σ _ : κ, ν)}
    (h : entries.NodupKeys) : (setEntries key value entries).dlookup other =
      if other = key then some value else entries.dlookup other := by
  have hset := nodupKeys_setEntries key value h
  apply Option.ext
  intro v
  rw [← Option.mem_def, List.mem_dlookup_iff hset]
  unfold setEntries
  by_cases hkey : key ∈ entries.keys
  · rw [if_pos hkey, List.mem_map]
    constructor
    · rintro ⟨e, hmem, he⟩
      by_cases hek : e.1 = key
      · rw [if_pos hek, Sigma.mk.injEq] at he
        rw [if_pos he.1.symm]
        exact congrArg some (eq_of_heq he.2)
      · rw [if_neg hek] at he
        subst he
        rw [if_neg hek]
        exact List.mem_dlookup h hmem
    · intro hv
      by_cases hother : other = key
      · rw [if_pos hother, Option.some.injEq] at hv
        cases List.exists_of_mem_keys hkey with
        | intro w hmem => exact ⟨⟨key, w⟩, hmem, by rw [if_pos rfl, hother, hv]⟩
      · rw [if_neg hother] at hv
        exact ⟨⟨other, v⟩, List.of_mem_dlookup hv, if_neg hother⟩
  · rw [if_neg hkey, List.mem_append, List.mem_singleton, Sigma.mk.injEq]
    constructor
    · rintro (hmem | ⟨hother, hv⟩)
      · have hne : other ≠ key := fun heq => hkey (heq ▸ List.mem_keys_of_mem hmem)
        rw [if_neg hne]
        exact List.mem_dlookup h hmem
      · rw [if_pos hother]
        exact congrArg some (eq_of_heq hv).symm
    · intro hv
      by_cases hother : other = key
      · rw [if_pos hother, Option.some.injEq] at hv
        exact Or.inr ⟨hother, heq_of_eq hv.symm⟩
      · rw [if_neg hother] at hv
        exact Or.inl (List.of_mem_dlookup hv)

@[simp] theorem lookup_set (d : OrderedDict κ ν) (key other : κ) (value : ν) :
    (d.set key value).lookup other = if other = key then some value else d.lookup other :=
  dlookup_setEntries key other value d.nodupKeys

@[simp] theorem lookup_erase_eq (d : OrderedDict κ ν) (key other : κ) :
    AList.lookup other (d.erase key) = if other = key then none else d.lookup other := by
  by_cases h : other = key
  · rw [if_pos h, h, AList.lookup_erase]
  · rw [if_neg h, AList.lookup_erase_ne h]

/-- `d.get(key, default)`. -/
def getD (d : OrderedDict κ ν) (key : κ) (default : ν) : ν := (d.lookup key).getD default

/-- `list(d.values())`. -/
def values (d : OrderedDict κ ν) : List ν := d.entries.map Sigma.snd

/-! ## The entry of one key -/

/-- What a dictionary holds for one key. -/
def only (d : OrderedDict κ ν) (key : κ) : OrderedDict κ ν :=
  match d.lookup key with
  | none => ∅
  | some value => .singleton key value

variable {d d' : OrderedDict κ ν} {key : κ}

theorem only_congr (h : d.lookup key = d'.lookup key) : d.only key = d'.only key := by
  unfold only
  rw [h]

theorem lookup_only (d : OrderedDict κ ν) (key : κ) : (d.only key).lookup key = d.lookup key := by
  unfold only
  cases h : d.lookup key with
  | none => exact AList.lookup_empty key
  | some value => simp [AList.singleton, AList.lookup]

theorem only_set (d : OrderedDict κ ν) (key : κ) (value : ν) :
    (d.set key value).only key = (d.only key).set key value := by
  apply AList.ext
  unfold only
  rw [lookup_set, if_pos rfl]
  cases h : d.lookup key with
  | none => simp [set, setEntries, AList.singleton]
  | some found => simp [set, setEntries, AList.singleton]

theorem only_erase (d : OrderedDict κ ν) (key : κ) :
    OrderedDict.only (d.erase key) key = (d.only key).erase key := by
  apply AList.ext
  unfold only
  rw [lookup_erase_eq, if_pos rfl]
  cases h : d.lookup key with
  | none => rfl
  | some found => simp [AList.singleton, AList.erase]

/-- A dictionary without any key is empty. -/
theorem eq_empty_of_lookup (h : ∀ key, d.lookup key = none) : d = ∅ := by
  apply AList.ext
  show d.entries = []
  rw [List.eq_nil_iff_forall_not_mem]
  intro e he
  have hkey : e.1 ∈ d := AList.mem_keys.mpr (List.mem_keys_of_mem he)
  exact AList.lookup_eq_none.mp (h e.1) hkey

end OrderedDict
