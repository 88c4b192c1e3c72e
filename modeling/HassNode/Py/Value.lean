import HassNode.Py.Str

/-!
# Python values that JSON can hold

`Json` is what `json.loads` builds: `None`, `bool`, `int`, `float`, `str`, `list` and `dict`.  A
finite `float` is given by its shortest round-trip digits, which determine it.  `Runtime` collects
what the interpreter supplies and the sources rely on: the table behind `str.isprintable`, the
rounding of a decimal to binary64, and SHA-256.
-/

namespace Py

/-! ## Exceptions -/

theorem bind_ok_iff {ε α β : Type} {x : Except ε α} {f : α → Except ε β} {b : β} :
    x >>= f = .ok b ↔ ∃ a, x = .ok a ∧ f a = .ok b := by
  cases x with
  | error err => exact ⟨fun h => (nomatch h), fun ⟨_, h, _⟩ => (nomatch h)⟩
  | ok a => exact ⟨fun h => ⟨a, rfl, h⟩, fun ⟨_, h, hf⟩ => Except.ok.inj h ▸ hf⟩

/-! ## Floats -/

/-- Decimal digits `d₁ … dₖ` of the number `0.d₁…dₖ · 10 ^ point`, without redundant zeros. -/
@[ext] structure ShortDigits where
  digits : List (Fin 10)
  point : Int
  ne_nil : digits ≠ []
  head_ne : digits.head? ≠ some 0
  last_ne : digits.getLast? ≠ some 0
deriving DecidableEq

inductive Double where
  | nan
  | inf (neg : Bool)
  | zero (neg : Bool)
  | dec (neg : Bool) (d : ShortDigits)
deriving DecidableEq

/-- What the Python runtime provides and no source file defines. -/
class Runtime where
  /-- `str.isprintable` on one code point. -/
  isPrintable : CodePoint → Bool
  /-- `unicodedata.decimal` of one code point. -/
  decimalValue : CodePoint → Option (Fin 10)
  /-- The digit strings that are the shortest round-trip digits of some binary64 number. -/
  IsDouble : ShortDigits → Prop
  /-- The binary64 number nearest to a positive decimal. -/
  nearest : ShortDigits → Double
  /-- Shortest digits read back as the number they were printed from. -/
  nearest_short : ∀ d, IsDouble d → nearest d = .dec false d
  /-- `hashlib.sha256(text.encode("utf-8")).hexdigest()`. -/
  sha256 : PyStr → PyStr

/-- A runtime that prints ASCII, reads decimals of at most fifteen digits, which are all doubles,
and knows the SHA-256 of the listed texts. -/
@[reducible] def Runtime.ofTable (digests : List (PyStr × PyStr)) : Runtime where
  isPrintable c := 32 ≤ c.val && c.val < 127
  decimalValue := digitOf?
  IsDouble d := d.digits.length ≤ 15 ∧ -300 ≤ d.point ∧ d.point ≤ 300
  nearest d := .dec false d
  nearest_short _ _ := rfl
  sha256 text := (digests.lookup text).getD []

namespace ShortDigits

/-- The number `0.d₁d₂… · 10 ^ point` without redundant zeros, `none` for zero. -/
def ofDigits? (ds : List (Fin 10)) (point : Int) : Option ShortDigits :=
  let body := (ds.dropWhile (· = 0)).rdropWhile (· = 0)
  if h : body = [] then none
  else some
    { digits := body
      point := point - (ds.takeWhile (· = 0)).length
      ne_nil := h
      head_ne := by
        have hne : ds.dropWhile (fun d => decide (d = 0)) ≠ [] := by
          intro hnil
          exact h (by simp [body, hnil])
        have hhead := List.head?_dropWhile_not (fun d : Fin 10 => decide (d = 0)) ds
        obtain ⟨tail, htail⟩ := List.rdropWhile_prefix (fun d : Fin 10 => decide (d = 0))
          (ds.dropWhile fun d => decide (d = 0))
        intro hzero
        rw [← htail, List.head?_append_of_ne_nil _ h, hzero] at hhead
        simp at hhead
      last_ne := by
        intro hzero
        refine List.rdropWhile_last_not (fun d : Fin 10 => decide (d = 0)) _ h ?_
        rw [List.getLast?_eq_some_getLast h, Option.some.injEq] at hzero
        simpa using hzero }

end ShortDigits

def Double.withSign (neg : Bool) : Double → Double
  | .nan => .nan
  | .inf _ => .inf neg
  | .zero _ => .zero neg
  | .dec _ d => .dec neg d

/-- `float(text)` of a decimal with digits `ds` of which `point` stand before the point. -/
def Double.ofDecimal [Runtime] (neg : Bool) (ds : List (Fin 10)) (point : Int) : Double :=
  match ShortDigits.ofDigits? ds point with
  | none => .zero neg
  | some d => (Runtime.nearest d).withSign neg

/-! ## Values -/

inductive Json where
  | null
  | bool (b : Bool)
  | int (i : Int)
  | float (x : Double)
  | str (s : PyStr)
  | list (items : List Json)
  | dict (entries : List (PyStr × Json))
deriving Inhabited

/-- A `dict` with string keys, in insertion order. -/
abbrev Dict := List (PyStr × Json)

theorem Json.induction {motive : Json → Prop} (null : motive .null) (bool : ∀ b, motive (.bool b))
    (int : ∀ i, motive (.int i)) (float : ∀ x, motive (.float x)) (str : ∀ s, motive (.str s))
    (list : ∀ items : List Json, (∀ v ∈ items, motive v) → motive (.list items))
    (dict : ∀ entries : Dict, (∀ kv ∈ entries, motive kv.2) → motive (.dict entries)) :
    ∀ v, motive v := by
  intro v
  refine Json.rec (motive_1 := motive) (motive_2 := fun items => ∀ v ∈ items, motive v)
    (motive_3 := fun entries => ∀ kv ∈ entries, motive kv.2) (motive_4 := fun kv => motive kv.2)
    null bool int float str list dict ?_ ?_ ?_ ?_ ?_ v
  · intro v hv; cases hv
  · intro v vs hv hvs w hw
    rcases List.mem_cons.mp hw with rfl | hw
    · exact hv
    · exact hvs w hw
  · intro kv hkv; cases hkv
  · intro kv rest hkv hrest w hw
    rcases List.mem_cons.mp hw with rfl | hw
    · exact hkv
    · exact hrest w hw
  · intro k v hv; exact hv

mutual

def Json.decEq : (a b : Json) → Decidable (a = b)
  | .null, .null => isTrue rfl
  | .bool a, .bool b => decidable_of_iff (a = b) ⟨congrArg _, Json.bool.inj⟩
  | .int a, .int b => decidable_of_iff (a = b) ⟨congrArg _, Json.int.inj⟩
  | .float a, .float b => decidable_of_iff (a = b) ⟨congrArg _, Json.float.inj⟩
  | .str a, .str b => decidable_of_iff (a = b) ⟨congrArg _, Json.str.inj⟩
  | .list a, .list b => @decidable_of_iff _ (a = b) ⟨congrArg _, Json.list.inj⟩ (Json.decEqList a b)
  | .dict a, .dict b => @decidable_of_iff _ (a = b) ⟨congrArg _, Json.dict.inj⟩ (Json.decEqDict a b)
  | .null, .bool _ | .null, .int _ | .null, .float _ | .null, .str _ | .null, .list _
  | .null, .dict _ | .bool _, .null | .bool _, .int _ | .bool _, .float _ | .bool _, .str _
  | .bool _, .list _ | .bool _, .dict _ | .int _, .null | .int _, .bool _ | .int _, .float _
  | .int _, .str _ | .int _, .list _ | .int _, .dict _ | .float _, .null | .float _, .bool _
  | .float _, .int _ | .float _, .str _ | .float _, .list _ | .float _, .dict _ | .str _, .null
  | .str _, .bool _ | .str _, .int _ | .str _, .float _ | .str _, .list _ | .str _, .dict _
  | .list _, .null | .list _, .bool _ | .list _, .int _ | .list _, .float _ | .list _, .str _
  | .list _, .dict _ | .dict _, .null | .dict _, .bool _ | .dict _, .int _ | .dict _, .float _
  | .dict _, .str _ | .dict _, .list _ => isFalse nofun

def Json.decEqList : (a b : List Json) → Decidable (a = b)
  | [], [] => isTrue rfl
  | [], _ :: _ | _ :: _, [] => isFalse nofun
  | a :: as, b :: bs =>
    @decidable_of_iff _ (a = b ∧ as = bs) (by simp)
      (@instDecidableAnd _ _ (Json.decEq a b) (Json.decEqList as bs))

def Json.decEqDict : (a b : List (PyStr × Json)) → Decidable (a = b)
  | [], [] => isTrue rfl
  | [], _ :: _ | _ :: _, [] => isFalse nofun
  | (k, a) :: as, (l, b) :: bs =>
    @decidable_of_iff _ (k = l ∧ a = b ∧ as = bs) (by simp [and_assoc])
      (@instDecidableAnd _ _ inferInstance
        (@instDecidableAnd _ _ (Json.decEq a b) (Json.decEqDict as bs)))

end

instance : DecidableEq Json := Json.decEq

-- membership in a list of optional values is read through this one
instance lawfulBEq_optionJson : LawfulBEq (Option Json) := inferInstance

namespace Dict

/-- `d.get(key)`, distinguishing an absent key from an explicit `None`. -/
def get? (d : Dict) (key : PyStr) : Option Json := d.lookup key

/-- `key in d`. -/
def has (d : Dict) (key : PyStr) : Bool := (d.get? key).isSome

/-- `d.get(key, default)`. -/
def getD (d : Dict) (key : PyStr) (default : Json) : Json := (d.get? key).getD default

def keys (d : Dict) : List PyStr := d.map Prod.fst

/-- `d.pop(key, None)`, keeping what is left. -/
def pop (d : Dict) (key : PyStr) : Dict := d.filter fun kv => kv.1 ≠ key

/-- `d[key] = value`: an existing key keeps its place. -/
def set (d : Dict) (key : PyStr) (value : Json) : Dict :=
  if d.has key then d.map fun kv => if kv.1 = key then (key, value) else kv else d ++ [(key, value)]

/-- `d.update(e)`. -/
def update (d e : Dict) : Dict := e.foldl (fun acc kv => acc.set kv.1 kv.2) d

theorem get?_cons (k key : PyStr) (v : Json) (d : Dict) :
    get? ((k, v) :: d) key = if key = k then some v else get? d key := by
  by_cases h : key = k
  · subst h
    rw [if_pos rfl]
    exact List.lookup_cons_self
  · rw [if_neg h]
    simp only [get?, List.lookup_cons]
    rw [show (key == k) = false from beq_eq_false_iff_ne.mpr h]

@[simp] theorem get?_nil (key : PyStr) : get? [] key = none := rfl

theorem get?_append (d e : Dict) (key : PyStr) :
    get? (d ++ e) key = (get? d key).or (get? e key) := List.lookup_append

theorem get?_map_set (d : Dict) (key other : PyStr) (value : Json) :
    get? (d.map fun kv => if kv.1 = key then (key, value) else kv) other =
      if other = key ∧ d.has key then some value else get? d other := by
  induction d with
  | nil => simp [has]
  | cons kv d ih =>
    obtain ⟨k, v⟩ := kv
    rw [List.map_cons]
    by_cases hk : k = key
    · subst hk
      by_cases ho : other = k
      · subst ho
        simp [get?_cons, has]
      · rw [if_pos rfl, get?_cons, if_neg ho, ih, get?_cons, if_neg ho, if_neg (fun h => ho h.1),
          if_neg (fun h => ho h.1)]
    · rw [if_neg hk, get?_cons, ih, get?_cons]
      by_cases ho : other = key
      · subst ho
        simp [has, get?_cons, Ne.symm hk]
      · simp [ho]

@[simp] theorem get?_set (d : Dict) (key other : PyStr) (value : Json) :
    (d.set key value).get? other = if other = key then some value else d.get? other := by
  unfold set
  by_cases hk : d.has key
  · rw [if_pos hk, get?_map_set]
    simp [hk]
  · rw [if_neg hk, get?_append, get?_cons, get?_nil]
    have hnone : d.get? key = none := by simpa [has] using hk
    by_cases ho : other = key
    · subst ho
      simp [hnone]
    · simp [ho]

/-- Looking up in `d.update(e)`: the last binding of `e` wins, then `d`. -/
theorem get?_update (d e : Dict) (key : PyStr) :
    (d.update e).get? key = (get? e.reverse key).or (d.get? key) := by
  induction e generalizing d with
  | nil => simp [update]
  | cons kv e ih =>
    obtain ⟨k, v⟩ := kv
    calc (d.update ((k, v) :: e)).get? key
        = ((d.set k v).update e).get? key := rfl
      _ = (get? e.reverse key).or ((d.set k v).get? key) := ih _
      _ = (get? ((k, v) :: e).reverse key).or (d.get? key) := by
        rw [List.reverse_cons, get?_append, get?_set, get?_cons, get?_nil, Option.or_assoc]
        by_cases hk : key = k <;> simp [hk]

theorem get?_pop (d : Dict) (key other : PyStr) :
    (d.pop key).get? other = if other = key then none else d.get? other := by
  induction d with
  | nil => simp [pop]
  | cons kv d ih =>
    obtain ⟨k, v⟩ := kv
    have hih : get? (d.filter fun kv => kv.1 ≠ key) other =
        if other = key then none else get? d other := ih
    unfold pop
    rw [List.filter_cons]
    by_cases hk : k = key
    · subst hk
      simp only [ne_eq, not_true_eq_false, decide_false, Bool.false_eq_true, if_false]
      rw [hih, get?_cons]
      by_cases ho : other = k <;> simp [ho]
    · simp only [ne_eq, hk, not_false_eq_true, decide_true, if_true]
      rw [get?_cons, hih, get?_cons]
      by_cases ho : other = k
      · subst ho
        simp [hk]
      · simp [ho]

@[simp] theorem get?_pop_self (d : Dict) (key : PyStr) : (d.pop key).get? key = none := by
  simp [get?_pop]

theorem mem_keys_pop {d : Dict} {key k : PyStr} : k ∈ (d.pop key).keys ↔ k ∈ d.keys ∧ k ≠ key := by
  simp only [keys, pop, List.mem_map, List.mem_filter, decide_eq_true_eq, ne_eq]
  constructor
  · rintro ⟨kv, ⟨hm, hne⟩, rfl⟩
    exact ⟨⟨kv, hm, rfl⟩, hne⟩
  · rintro ⟨⟨kv, hm, rfl⟩, hne⟩
    exact ⟨kv, ⟨hm, hne⟩, rfl⟩

theorem get?_of_mem {d : Dict} (hd : (keys d).Nodup) {key : PyStr} {v : Json} (h : (key, v) ∈ d) :
    get? d key = some v := by
  induction d with
  | nil => cases h
  | cons kv d ih =>
    obtain ⟨k, w⟩ := kv
    rw [keys, List.map_cons, List.nodup_cons] at hd
    rw [get?_cons]
    rcases List.mem_cons.mp h with heq | h
    · rw [Prod.mk.injEq] at heq
      rw [if_pos heq.1, heq.2]
    · have hne : key ≠ k := by
        intro hk
        exact hd.1 (List.mem_map.mpr ⟨(key, v), h, hk⟩)
      rw [if_neg hne, ih hd.2 h]

theorem mem_of_get? {d : Dict} {key : PyStr} {v : Json} (h : get? d key = some v) : (key, v) ∈ d := by
  obtain ⟨front, back, rfl, _⟩ := List.lookup_eq_some_iff.mp h
  exact List.mem_append_right _ List.mem_cons_self

theorem has_iff_mem_keys {d : Dict} {key : PyStr} : d.has key = true ↔ key ∈ d.keys := by
  induction d with
  | nil => simp [has, keys]
  | cons kv d ih =>
    obtain ⟨k, v⟩ := kv
    have hih : (get? d key).isSome = true ↔ key ∈ d.map Prod.fst := ih
    unfold has keys
    rw [get?_cons, List.map_cons, List.mem_cons]
    by_cases hk : key = k
    · simp [hk]
    · simp [hk, hih]

/-- The later of two bindings stays, in the place of the first. -/
theorem set_set (d : Dict) (key : PyStr) (value other : Json) :
    (d.set key value).set key other = d.set key other := by
  have hset : (d.set key value).has key = true := by
    rw [has, get?_set, if_pos rfl]
    rfl
  rw [set.eq_def (d.set key value), if_pos hset]
  unfold set
  by_cases hk : d.has key
  · rw [if_pos hk, if_pos hk, List.map_map]
    apply List.map_congr_left
    intro kv _
    by_cases hkv : kv.1 = key
    · simp [hkv]
    · simp [hkv]
  · have hother : d.map (fun kv => if kv.1 = key then (key, other) else kv) = d.map id := by
      apply List.map_congr_left
      intro kv hkv
      have hne : kv.1 ≠ key := by
        intro heq
        exact hk (has_iff_mem_keys.mpr (heq ▸ List.mem_map_of_mem hkv))
      exact if_neg hne
    rw [List.map_id] at hother
    rw [if_neg hk, if_neg hk, List.map_append, hother]
    simp

theorem pop_set (d : Dict) (key : PyStr) (value : Json) : (d.set key value).pop key = d.pop key := by
  have hmap : ∀ e : Dict, pop (e.map fun kv => if kv.1 = key then (key, value) else kv) key =
      pop e key := by
    intro e
    induction e with
    | nil => rfl
    | cons kv e ih =>
      simp only [pop, ne_eq, decide_not] at ih ⊢
      by_cases hkv : kv.1 = key
      · simp [hkv, ih]
      · simp [hkv, ih]
  unfold set
  split
  · exact hmap d
  · simp [pop]

theorem keys_set (d : Dict) (key : PyStr) (value : Json) :
    (d.set key value).keys = if key ∈ d.keys then d.keys else d.keys ++ [key] := by
  unfold set
  by_cases hk : d.has key
  · rw [if_pos hk, if_pos (has_iff_mem_keys.mp hk), keys, keys, List.map_map]
    apply List.map_congr_left
    intro kv _
    by_cases hkv : kv.1 = key
    · simp [hkv]
    · simp [hkv]
  · rw [if_neg hk, if_neg (fun hmem => hk (has_iff_mem_keys.mpr hmem)), keys, keys, List.map_append]
    rfl

theorem nodup_keys_set {d : Dict} (hd : d.keys.Nodup) (key : PyStr) (value : Json) :
    (d.set key value).keys.Nodup := by
  rw [keys_set]
  by_cases hk : key ∈ d.keys
  · rw [if_pos hk]
    exact hd
  · rw [if_neg hk]
    apply List.Nodup.append hd (List.nodup_singleton key)
    intro k hmem hkey
    rw [List.mem_singleton] at hkey
    exact hk (hkey ▸ hmem)

theorem nodup_keys_update {d : Dict} (hd : d.keys.Nodup) (e : Dict) :
    (d.update e).keys.Nodup := by
  induction e generalizing d with
  | nil => exact hd
  | cons kv e ih => exact ih (nodup_keys_set hd kv.1 kv.2)

/-- What an update binds was bound before or is bound by it. -/
theorem mem_update {d e : Dict} {kv : PyStr × Json} (h : kv ∈ d.update e) : kv ∈ d ∨ kv ∈ e := by
  induction e generalizing d with
  | nil => exact .inl h
  | cons entry e ih =>
    rcases ih (d := d.set entry.1 entry.2) h with hset | hrest
    · unfold set at hset
      split at hset
      · rcases List.mem_map.mp hset with ⟨other, hother, heq⟩
        split at heq
        · exact .inr (heq ▸ .head _)
        · exact .inl (heq ▸ hother)
      · rcases List.mem_append.mp hset with hold | hnew
        · exact .inl hold
        · exact .inr (List.mem_singleton.mp hnew ▸ .head _)
    · exact .inr (.tail _ hrest)

/-- With distinct keys the first binding is the last one. -/
theorem get?_reverse {d : Dict} (hd : d.keys.Nodup) (key : PyStr) :
    get? d.reverse key = get? d key := by
  induction d with
  | nil => rfl
  | cons kv d ih =>
    rw [keys, List.map_cons, List.nodup_cons] at hd
    rw [List.reverse_cons, get?_append, ih hd.2, get?_cons, get?_cons, get?_nil]
    by_cases hk : key = kv.1
    · have habsent : get? d key = none := by
        cases hget : get? d key with
        | none => rfl
        | some v =>
          have hmem : key ∈ keys d := has_iff_mem_keys.mp (by rw [has, hget]; rfl)
          exact absurd (hk ▸ hmem) hd.1
      rw [if_pos hk, if_pos hk, habsent, Option.none_or]
    · rw [if_neg hk, if_neg hk, Option.or_none]

theorem set_of_not_mem {d : Dict} {key : PyStr} (h : key ∉ d.keys) (v : Json) :
    d.set key v = d ++ [(key, v)] := by
  rw [← has_iff_mem_keys] at h
  rw [set, if_neg h]

/-- Binding distinct keys one after the other. -/
theorem update_append {d e : Dict} (h : (keys (d ++ e)).Nodup) : d.update e = d ++ e := by
  induction e generalizing d with
  | nil => simp [update]
  | cons kv e ih =>
    have hnew : kv.1 ∉ keys d := by
      intro hmem
      simp only [keys, List.map_append, List.map_cons, List.nodup_append] at h
      exact h.2.2 _ hmem _ (.head _) rfl
    show update (d.set kv.1 kv.2) e = _
    rw [set_of_not_mem hnew, ih]
    · simp
    · simpa using h

theorem update_nil_of_nodup {e : Dict} (h : (keys e).Nodup) : update [] e = e :=
  update_append (d := []) h

end Dict

/-! ## Predicates on every part of a value -/

mutual

def Json.Forall (P : Json → Prop) : Json → Prop
  | .list items => P (.list items) ∧ Json.ForallList P items
  | .dict entries => P (.dict entries) ∧ Json.ForallDict P entries
  | v => P v

def Json.ForallList (P : Json → Prop) : List Json → Prop
  | [] => True
  | v :: rest => v.Forall P ∧ Json.ForallList P rest

def Json.ForallDict (P : Json → Prop) : List (PyStr × Json) → Prop
  | [] => True
  | (_, v) :: rest => v.Forall P ∧ Json.ForallDict P rest

end

theorem Json.forallList_iff {P : Json → Prop} {items : List Json} :
    Json.ForallList P items ↔ ∀ v ∈ items, v.Forall P := by
  induction items with
  | nil => simp [Json.ForallList]
  | cons v rest ih => simp [Json.ForallList, ih]

theorem Json.forallDict_iff {P : Json → Prop} {entries : Dict} :
    Json.ForallDict P entries ↔ ∀ kv ∈ entries, kv.2.Forall P := by
  induction entries with
  | nil => simp [Json.ForallDict]
  | cons kv rest ih => simp [Json.ForallDict, ih]

@[simp] theorem Json.forall_list {P : Json → Prop} {items : List Json} :
    (Json.list items).Forall P ↔ P (.list items) ∧ ∀ v ∈ items, v.Forall P := by
  rw [Json.Forall, Json.forallList_iff]

@[simp] theorem Json.forall_dict {P : Json → Prop} {entries : Dict} :
    (Json.dict entries).Forall P ↔ P (.dict entries) ∧ ∀ kv ∈ entries, kv.2.Forall P := by
  rw [Json.Forall, Json.forallDict_iff]

/-- Every object has distinct keys, as every `dict` has. -/
def Json.DistinctKeys (v : Json) : Prop :=
  v.Forall fun
    | .dict entries => (Dict.keys entries).Nodup
    | _ => True

/-! ## Equality up to the order of keys -/

mutual

/-- Python's `==` between values of the same types: two dictionaries are equal when they have as
many keys and every key of the first has an equal value in the second. -/
def Json.same : Json → Json → Bool
  | .null, .null => true
  | .bool a, .bool b => a = b
  | .int i, .int j => i = j
  | .float x, .float y => x = y
  | .str s, .str t => s = t
  | .list items, .list others => Json.sameList items others
  | .dict entries, .dict others => entries.length = others.length && Json.sameDict entries others
  | _, _ => false

def Json.sameList : List Json → List Json → Bool
  | [], [] => true
  | v :: rest, w :: others => v.same w && Json.sameList rest others
  | _, _ => false

def Json.sameDict : List (PyStr × Json) → Dict → Bool
  | [], _ => true
  | (k, v) :: rest, others =>
    (match Dict.get? others k with
      | some w => v.same w
      | none => false) && Json.sameDict rest others

end

theorem Json.sameList_of_forall₂ {items others : List Json}
    (h : List.Forall₂ (fun v w => v.same w = true) items others) :
    Json.sameList items others = true := by
  induction h with
  | nil => rfl
  | cons hvw _ ih => rw [Json.sameList, hvw, ih, Bool.and_self]

theorem Json.sameDict_iff {entries others : Dict} :
    Json.sameDict entries others = true ↔
      ∀ kv ∈ entries, ∃ w, Dict.get? others kv.1 = some w ∧ kv.2.same w = true := by
  induction entries with
  | nil => simp [Json.sameDict]
  | cons kv rest ih =>
    rw [Json.sameDict, Bool.and_eq_true, ih, List.forall_mem_cons]
    refine and_congr ?_ Iff.rfl
    cases Dict.get? others kv.1 with
    | none => simp
    | some w => simp

/-- A JSON object written in the source. -/
def obj (entries : List (String × Json)) : Json := .dict (entries.map fun kv => (py kv.1, kv.2))

/-! ## `repr` and `str` -/

def hexDigit (n : Nat) : CodePoint :=
  if h : n < 10 then ⟨48 + n, by omega⟩ else ⟨97 + (n - 10) % 6, by omega⟩

/-- The low `width` hexadecimal digits of `n`, lower case. -/
def hexDigits (width n : Nat) : PyStr :=
  (List.range width).reverse.map fun i => hexDigit (n / 16 ^ i % 16)

theorem hexDigit_inj {m n : Nat} (hm : m < 16) (hn : n < 16) (h : hexDigit m = hexDigit n) :
    m = n := by
  have hv : (hexDigit m).val = (hexDigit n).val := congrArg Fin.val h
  unfold hexDigit at hv
  split at hv <;> split at hv <;> simp only at hv <;> omega

theorem hexDigits_four (n : Nat) : hexDigits 4 n =
    [hexDigit (n / 4096 % 16), hexDigit (n / 256 % 16), hexDigit (n / 16 % 16),
      hexDigit (n % 16)] := by
  simp [hexDigits, List.range_succ]

section
variable [Runtime]

/-- `repr` of one character of a string quoted with `quote`. -/
def reprChar (quote c : CodePoint) : PyStr :=
  if c = quote ∨ c = 92 then [92, c]
  else if c = 9 then py "\\t"
  else if c = 10 then py "\\n"
  else if c = 13 then py "\\r"
  else if Runtime.isPrintable c then [c]
  else if c.val < 0x100 then py "\\x" ++ hexDigits 2 c.val
  else if c.val < 0x10000 then py "\\u" ++ hexDigits 4 c.val
  else py "\\U" ++ hexDigits 8 c.val

/-- `repr(s)`: single quotes unless the text has some and no double quotes. -/
def reprStr (s : PyStr) : PyStr :=
  let quote : CodePoint := if s.contains 39 && !s.contains 34 then 34 else 39
  [quote] ++ s.flatMap (reprChar quote) ++ [quote]

end

/-- `repr` of the positive float with shortest digits `d`. -/
def reprDigits (d : ShortDigits) : PyStr :=
  let k : Int := d.digits.length
  let n := d.point
  if n ≤ -4 ∨ 16 < n then
    let tail := if d.digits.length = 1 then [] else py "." ++ digitStr (d.digits.drop 1)
    let e := (n - 1).natAbs
    digitStr (d.digits.take 1) ++ tail ++ py "e" ++ (if n - 1 < 0 then py "-" else py "+") ++
      (if e < 10 then py "0" else []) ++ natStr e
  else if n ≤ 0 then py "0." ++ List.replicate n.natAbs 48 ++ digitStr d.digits
  else if k ≤ n then digitStr d.digits ++ List.replicate (n - k).toNat 48 ++ py ".0"
  else digitStr (d.digits.take n.toNat) ++ py "." ++ digitStr (d.digits.drop n.toNat)

/-- `repr(x)` of a float. -/
def reprFloat : Double → PyStr
  | .nan => py "nan"
  | .inf neg => if neg then py "-inf" else py "inf"
  | .zero neg => if neg then py "-0.0" else py "0.0"
  | .dec neg d => (if neg then py "-" else []) ++ reprDigits d

section
variable [Runtime]

mutual

/-- `repr(value)`. -/
def repr : Json → PyStr
  | .null => py "None"
  | .bool b => if b then py "True" else py "False"
  | .int i => intStr i
  | .float x => reprFloat x
  | .str s => reprStr s
  | .list items => py "[" ++ joinWith (py ", ") (reprList items) ++ py "]"
  | .dict entries => py "\x7b" ++ joinWith (py ", ") (reprDict entries) ++ py "\x7d"

def reprList : List Json → List PyStr
  | [] => []
  | v :: rest => repr v :: reprList rest

def reprDict : List (PyStr × Json) → List PyStr
  | [] => []
  | (k, v) :: rest => (reprStr k ++ py ": " ++ repr v) :: reprDict rest

end

/-- `str(value)`. -/
def strOf : Json → PyStr
  | .str s => s
  | v => repr v

/-- `bool(value)`. -/
def truthy : Json → Bool
  | .null => false
  | .bool b => b
  | .int i => i ≠ 0
  | .float (.zero _) => false
  | .float _ => true
  | .str s => s ≠ []
  | .list items => items ≠ []
  | .dict entries => entries ≠ []

end

end Py
