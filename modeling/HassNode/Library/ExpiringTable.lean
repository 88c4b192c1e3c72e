import HassNode.Library.OrderedDict
import Mathlib.Data.Finset.Card
import Mathlib.Data.List.DropRight

/-!
# Bounded tables of last times

A table keeps for each key the time at which it was seen last.  `prune` drops what is older than a time
to live and then, from the front, what is above a bound.  The log of all sightings says what such a
table should hold: `Newest` are the sightings that fewer than `bound` other keys came after.  A table
tracks its log exactly as long as what it evicts was seen before what it keeps.
-/

namespace ExpiringTable

variable {κ : Type} [DecidableEq κ] (ttl : Int) (bound : Nat)

/-! ## The log -/

/-- The time of the last sighting of `key`. -/
def lastTime (log : List (κ × Int)) (key : κ) : Option Int := log.reverse.lookup key

/-- The keys of a log in the order of their last sightings. -/
def lastOrder (log : List (κ × Int)) : List κ := (log.map Prod.fst).dedup

/-- The last sighting of `key` was at `time`, and fewer than `bound` other keys came after it. -/
def Newest (log : List (κ × Int)) (key : κ) (time : Int) : Prop :=
  ∃ before later, log = before ++ (key, time) :: later ∧ key ∉ later.map Prod.fst ∧
    (later.map Prod.fst).toFinset.card < bound

variable {ttl bound} {log : List (κ × Int)} {key : κ} {time now : Int}

theorem nodup_lastOrder (log : List (κ × Int)) : (lastOrder log).Nodup := List.nodup_dedup _

theorem lastTime_snoc (log : List (κ × Int)) (key other : κ) (time : Int) :
    lastTime (log ++ [(key, time)]) other = if other = key then some time else lastTime log other := by
  unfold lastTime
  rw [List.reverse_append]
  show List.lookup other ((key, time) :: log.reverse) = _
  by_cases h : other = key
  · simp [h]
  · have hne : (other == key) = false := beq_false_of_ne h
    simp [List.lookup_cons, hne, h]

theorem lastTime_of_split {before later : List (κ × Int)} (hlater : key ∉ later.map Prod.fst) :
    lastTime (before ++ (key, time) :: later) key = some time := by
  have hnone : later.reverse.lookup key = none := by
    rw [List.lookup_eq_none_iff]
    intro sighting hmem
    rw [bne_iff_ne]
    rintro rfl
    exact hlater (List.mem_map_of_mem (List.mem_reverse.mp hmem))
  unfold lastTime
  rw [List.reverse_append, List.reverse_cons, List.append_assoc, List.lookup_append, hnone]
  simp

theorem exists_split (h : lastTime log key = some time) : ∃ before later,
    log = before ++ (key, time) :: later ∧ key ∉ later.map Prod.fst := by
  induction log using List.reverseRecOn with
  | nil => cases h
  | append_singleton log sighting ih =>
    rw [lastTime_snoc] at h
    split at h
    · rename_i heq
      cases h
      exact ⟨log, [], by rw [heq], List.not_mem_nil⟩
    · rename_i hne
      obtain ⟨before, later, rfl, hlater⟩ := ih h
      refine ⟨before, later ++ [sighting], by simp, ?_⟩
      rw [List.map_append, List.mem_append, not_or]
      exact ⟨hlater, fun hlast => hne (List.mem_singleton.mp hlast)⟩

/-- Behind its last sighting a key is followed by the keys that came later. -/
theorem lastOrder_split (before : List (κ × Int)) (time : Int) {later : List (κ × Int)}
    (hlater : key ∉ later.map Prod.fst) :
    ∃ front, lastOrder (before ++ (key, time) :: later) = front ++ key :: lastOrder later := by
  unfold lastOrder
  rw [List.map_append, List.dedup_append, List.map_cons, List.dedup_cons_of_notMem hlater]
  obtain ⟨front, hfront⟩ := List.suffix_union_right (before.map Prod.fst)
    (key :: (later.map Prod.fst).dedup)
  exact ⟨front, hfront.symm⟩

theorem mem_lastOrder (h : lastTime log key = some time) : key ∈ lastOrder log := by
  obtain ⟨before, later, rfl, _⟩ := exists_split h
  simp [lastOrder]

theorem exists_lastTime (h : key ∈ lastOrder log) : ∃ time, lastTime log key = some time := by
  have hmem : key ∈ log.map Prod.fst := List.mem_dedup.mp h
  rw [List.mem_map] at hmem
  obtain ⟨sighting, hsighting, rfl⟩ := hmem
  apply Option.ne_none_iff_exists'.mp
  intro hnone
  unfold lastTime at hnone
  rw [List.lookup_eq_none_iff] at hnone
  simpa using hnone sighting (List.mem_reverse.mpr hsighting)

/-- The newest keys are the last ones in the order of last sightings. -/
theorem newest_iff : Newest bound log key time ↔ lastTime log key = some time ∧
    (lastOrder log).length - bound ≤ (lastOrder log).idxOf key := by
  have hplace : ∀ before later : List (κ × Int), key ∉ later.map Prod.fst →
      ((lastOrder (before ++ (key, time) :: later)).length - bound ≤
          (lastOrder (before ++ (key, time) :: later)).idxOf key ↔
        (later.map Prod.fst).toFinset.card < bound) := by
    intro before later hlater
    obtain ⟨front, hfront⟩ := lastOrder_split before time hlater
    have hnodup := nodup_lastOrder (before ++ (key, time) :: later)
    rw [hfront] at hnodup ⊢
    have hnotMem : key ∉ front := fun hmem =>
      (List.nodup_append.mp hnodup).2.2 key hmem key List.mem_cons_self rfl
    rw [List.idxOf_append_of_notMem hnotMem, List.idxOf_cons_self, List.length_append,
      List.length_cons, List.card_toFinset]
    unfold lastOrder
    omega
  constructor
  · rintro ⟨before, later, rfl, hlater, hcard⟩
    exact ⟨lastTime_of_split hlater, (hplace before later hlater).mpr hcard⟩
  · rintro ⟨htime, hindex⟩
    obtain ⟨before, later, rfl, hlater⟩ := exists_split htime
    exact ⟨before, later, rfl, hlater, (hplace before later hlater).mp hindex⟩

/-- A later place in the order is a later time. -/
theorem time_le_of_idxOf_lt {other : κ} {otherTime : Int}
    (hlog : (log.map Prod.snd).Pairwise (· ≤ ·)) (hkey : lastTime log key = some time)
    (hother : lastTime log other = some otherTime)
    (hlt : (lastOrder log).idxOf key < (lastOrder log).idxOf other) : time ≤ otherTime := by
  obtain ⟨before, later, rfl, hlater⟩ := exists_split hkey
  obtain ⟨front, hfront⟩ := lastOrder_split before time hlater
  have hbehind : other ∈ lastOrder later := by
    have hmem := mem_lastOrder hother
    rw [hfront] at hmem hlt
    have hnotMem : other ∉ front := by
      intro hin
      have hle := List.idxOf_lt_length_of_mem hin
      have hnodup := nodup_lastOrder (before ++ (key, time) :: later)
      rw [hfront] at hnodup
      have hkeyFront : key ∉ front := fun hmem =>
        (List.nodup_append.mp hnodup).2.2 key hmem key List.mem_cons_self rfl
      rw [List.idxOf_append_of_mem hin, List.idxOf_append_of_notMem hkeyFront] at hlt
      omega
    rw [List.mem_append, List.mem_cons] at hmem
    rcases hmem with hin | rfl | hin
    · exact absurd hin hnotMem
    · omega
    · exact hin
  -- The last sighting of `other` is one of those behind the last one of `key`.
  have hmem : (other, otherTime) ∈ later := by
    obtain ⟨t, hlast⟩ := exists_lastTime hbehind
    obtain ⟨b, l, hsplitLater, hl⟩ := exists_split hlast
    have hwhole : lastTime (before ++ (key, time) :: later) other = some t := by
      rw [hsplitLater, ← List.cons_append, ← List.append_assoc]
      exact lastTime_of_split hl
    rw [hother, Option.some.injEq] at hwhole
    rw [hwhole, hsplitLater]
    exact List.mem_append_right _ List.mem_cons_self
  rw [List.map_append, List.map_cons] at hlog
  exact List.rel_of_pairwise_cons (List.pairwise_append.mp hlog).2.1
    (List.mem_map_of_mem (f := Prod.snd) hmem)

/-! ## The table -/

variable (ttl bound)

/-- The entries that are not older than the time to live. -/
def fresh (table : OrderedDict κ Int) (now : Int) : List (Σ _ : κ, Int) :=
  table.entries.filter fun e => ¬ ttl < now - e.2

def evicted (table : OrderedDict κ Int) (now : Int) : List (Σ _ : κ, Int) :=
  (fresh ttl table now).take ((fresh ttl table now).length - bound)

def kept (table : OrderedDict κ Int) (now : Int) : List (Σ _ : κ, Int) :=
  (fresh ttl table now).drop ((fresh ttl table now).length - bound)

omit [DecidableEq κ] in
theorem nodupKeys_kept (table : OrderedDict κ Int) (now : Int) :
    (kept ttl bound table now).NodupKeys :=
  table.nodupKeys.sublist ((List.drop_sublist _ _).trans List.filter_sublist)

def prune (table : OrderedDict κ Int) (now : Int) : OrderedDict κ Int :=
  ⟨kept ttl bound table now, nodupKeys_kept ttl bound table now⟩

/-- What is evicted was seen before what is kept. -/
def EvictsOldest (table : OrderedDict κ Int) (log : List (κ × Int)) (now : Int) : Prop :=
  ∀ e ∈ evicted ttl bound table now, ∀ e' ∈ kept ttl bound table now,
    (lastOrder log).idxOf e.1 < (lastOrder log).idxOf e'.1

/-- In this order of keys, one that `bound` or more follow was seen before every one that fewer follow. -/
def FrontOldest (order : List κ) (log : List (κ × Int)) : Prop :=
  ∀ x ∈ order, ∀ y ∈ order, order.idxOf x + bound < order.length →
    order.length ≤ order.idxOf y + bound → (lastOrder log).idxOf x < (lastOrder log).idxOf y

/-- A key goes behind those that are there. -/
def place (order : List κ) (key : κ) : List κ := if key ∈ order then order else order ++ [key]

/-- The keys of a table that are live or recorded now, in the order of the table, and behind them the
recorded ones that it does not have. -/
def recordOrder (table : OrderedDict κ Int) (keys : List κ) (now : Int) : List κ :=
  keys.foldl place ((table.entries.filter fun e => e.1 ∈ keys ∨ ¬ ttl < now - e.2).map Sigma.fst)

/-- The table has the times of its keys, and the keys that count at `now`. -/
structure Covers (table : OrderedDict κ Int) (log : List (κ × Int)) (now : Int) : Prop where
  sound : ∀ key time, table.lookup key = some time → lastTime log key = some time
  complete : ∀ key time, Newest bound log key time → now - time ≤ ttl →
    table.lookup key = some time

/-- The table has just the keys that count. -/
structure Tracks (table : OrderedDict κ Int) (log : List (κ × Int)) (now : Int) : Prop where
  lookup_iff : ∀ key time, table.lookup key = some time ↔
    Newest bound log key time ∧ now - time ≤ ttl
  length_le : table.entries.length ≤ bound

variable {ttl bound} {table : OrderedDict κ Int}

theorem Covers.empty : Covers ttl bound (∅ : OrderedDict κ Int) [] now where
  sound key time h := by cases h
  complete key time h := by
    obtain ⟨before, later, hlog, _⟩ := h
    simp at hlog

theorem Covers.mono {past : Int} (h : Covers ttl bound table log past) (hpast : past ≤ now) :
    Covers ttl bound table log now where
  sound := h.sound
  complete key time hnewest hlive := h.complete key time hnewest (by omega)

theorem Tracks.covers (h : Tracks ttl bound table log now) : Covers ttl bound table log now where
  sound key time hlookup := (newest_iff.mp ((h.lookup_iff key time).mp hlookup).1).1
  complete key time hnewest hlive := (h.lookup_iff key time).mpr ⟨hnewest, hlive⟩

/-- Without the other key's last sighting, what was seen before is still the newest. -/
theorem Newest.of_snoc {other : κ} (h : Newest bound (log ++ [(other, now)]) key time)
    (hne : key ≠ other) : Newest bound log key time := by
  obtain ⟨before, later, hlog, hlater, hcard⟩ := h
  cases List.eq_nil_or_concat later with
  | inl hnil =>
    subst hnil
    have hlast := (List.append_inj' hlog rfl).2
    exact absurd (congrArg Prod.fst (List.cons.inj hlast).1).symm hne
  | inr hsnoc =>
    obtain ⟨later, last, rfl⟩ := hsnoc
    rw [List.concat_eq_append, ← List.cons_append, ← List.append_assoc] at hlog
    rw [List.concat_eq_append, List.map_append] at hlater hcard
    refine ⟨before, later, (List.append_inj' hlog rfl).1,
      fun hmem => hlater (List.mem_append_left _ hmem), lt_of_le_of_lt ?_ hcard⟩
    apply Finset.card_le_card
    rw [List.toFinset_append]
    exact Finset.subset_union_left

/-- A sighting is recorded. -/
theorem Covers.set (h : Covers ttl bound table log now) (key : κ) :
    Covers ttl bound (table.set key now) (log ++ [(key, now)]) now where
  sound other time hlookup := by
    rw [OrderedDict.lookup_set] at hlookup
    rw [lastTime_snoc]
    by_cases hother : other = key
    · rw [if_pos hother] at hlookup ⊢
      exact hlookup
    · rw [if_neg hother] at hlookup ⊢
      exact h.sound other time hlookup
  complete other time hnewest hlive := by
    rw [OrderedDict.lookup_set]
    by_cases hother : other = key
    · have htime := (newest_iff.mp hnewest).1
      rw [lastTime_snoc, if_pos hother] at htime
      rw [if_pos hother]
      exact htime
    · rw [if_neg hother]
      exact h.complete other time (hnewest.of_snoc hother) hlive

theorem mem_fresh {e : Σ _ : κ, Int} :
    e ∈ fresh ttl table now ↔ table.lookup e.1 = some e.2 ∧ now - e.2 ≤ ttl := by
  unfold fresh
  rw [List.mem_filter, ← Option.mem_def, AList.mem_lookup_iff]
  simp

theorem lookup_prune : (prune ttl bound table now).lookup key = some time ↔
    (⟨key, time⟩ : Σ _ : κ, Int) ∈ kept ttl bound table now := by
  rw [← Option.mem_def, AList.mem_lookup_iff]
  exact Iff.rfl

omit [DecidableEq κ] in
theorem length_kept_le : (kept ttl bound table now).length ≤ bound := by
  unfold kept
  rw [List.length_drop]
  omega

omit [DecidableEq κ] in
/-- When something is evicted, the table is left full. -/
theorem length_kept_of_evicted {e : Σ _ : κ, Int} (h : e ∈ evicted ttl bound table now) :
    (kept ttl bound table now).length = bound := by
  have hlength : 0 < (evicted ttl bound table now).length := List.length_pos_of_mem h
  unfold evicted at hlength
  rw [List.length_take] at hlength
  unfold kept
  rw [List.length_drop]
  omega

omit [DecidableEq κ] in
theorem nodup_keys_kept (table : OrderedDict κ Int) (now : Int) :
    ((kept ttl bound table now).map Sigma.fst).Nodup := nodupKeys_kept ttl bound table now

omit [DecidableEq κ] in
theorem mem_evicted_or_kept {e : Σ _ : κ, Int} (h : e ∈ fresh ttl table now) :
    e ∈ evicted ttl bound table now ∨ e ∈ kept ttl bound table now := by
  unfold evicted kept
  rw [← List.mem_append, List.take_append_drop]
  exact h

/-- The keys behind place `n` of an order. -/
theorem mem_drop_iff_idxOf {order : List κ} (hnodup : order.Nodup) (hmem : key ∈ order) (n : Nat) :
    key ∈ order.drop n ↔ n ≤ order.idxOf key := by
  have hsplit := hnodup
  rw [← List.take_append_drop n order, List.nodup_append] at hsplit
  rw [← not_lt, ← List.mem_take_iff_idxOf_lt hmem]
  constructor
  · intro hdrop htake
    exact hsplit.2.2 key htake key hdrop rfl
  · intro htake
    rw [← List.take_append_drop n order, List.mem_append] at hmem
    exact hmem.resolve_left htake

section
variable (hcovers : Covers ttl bound table log now)
  (holdest : EvictsOldest ttl bound table log now)

include hcovers holdest

/-- What counts is kept. -/
theorem kept_of_newest (hnewest : Newest bound log key time) (hlive : now - time ≤ ttl) :
    (⟨key, time⟩ : Σ _ : κ, Int) ∈ kept ttl bound table now := by
  have hfresh : (⟨key, time⟩ : Σ _ : κ, Int) ∈ fresh ttl table now :=
    mem_fresh.mpr ⟨hcovers.complete key time hnewest hlive, hlive⟩
  apply (mem_evicted_or_kept hfresh).resolve_left
  intro hevicted
  -- The full table would have to fit behind one of the last `bound` places.
  have hindex := (newest_iff.mp hnewest).2
  have hsubset : (kept ttl bound table now).map Sigma.fst ⊆
      (lastOrder log).drop ((lastOrder log).idxOf key + 1) := by
    intro other hother
    rw [List.mem_map] at hother
    obtain ⟨e, he, rfl⟩ := hother
    have hmem := mem_lastOrder (hcovers.sound _ _ (mem_fresh.mp (List.mem_of_mem_drop he)).1)
    exact (mem_drop_iff_idxOf (nodup_lastOrder log) hmem _).mpr (holdest _ hevicted e he)
  have hlength := (nodup_keys_kept table now).length_le_of_subset hsubset
  rw [List.length_map, length_kept_of_evicted hevicted, List.length_drop] at hlength
  have hlt := List.idxOf_lt_length_of_mem (mem_lastOrder (newest_iff.mp hnewest).1)
  omega

/-- What is kept counts. -/
theorem newest_of_kept (hlog : (log.map Prod.snd).Pairwise (· ≤ ·))
    (hkept : (⟨key, time⟩ : Σ _ : κ, Int) ∈ kept ttl bound table now) :
    Newest bound log key time ∧ now - time ≤ ttl := by
  have hfresh := mem_fresh.mp (List.mem_of_mem_drop hkept)
  have hlookup : table.lookup key = some time := hfresh.1
  have hlive : now - time ≤ ttl := hfresh.2
  have htime := hcovers.sound key time hlookup
  refine ⟨newest_iff.mpr ⟨htime, ?_⟩, hlive⟩
  by_contra hearly
  rw [not_le] at hearly
  -- The last `bound` keys are all kept, and `key` besides them is one too many.
  have hsubset : key :: (lastOrder log).drop ((lastOrder log).length - bound) ⊆
      (kept ttl bound table now).map Sigma.fst := by
    intro other hother
    rcases List.mem_cons.mp hother with rfl | hother
    · exact List.mem_map_of_mem (f := Sigma.fst) hkept
    · have hmem := List.mem_of_mem_drop hother
      have hindex := (mem_drop_iff_idxOf (nodup_lastOrder log) hmem _).mp hother
      obtain ⟨otherTime, hlast⟩ := exists_lastTime hmem
      have hle : time ≤ otherTime := time_le_of_idxOf_lt hlog htime hlast (by omega)
      exact List.mem_map_of_mem (f := Sigma.fst)
        (kept_of_newest hcovers holdest (newest_iff.mpr ⟨hlast, hindex⟩) (by omega))
  have hnodup : (key :: (lastOrder log).drop ((lastOrder log).length - bound)).Nodup := by
    rw [List.nodup_cons]
    refine ⟨fun hmem => ?_, (nodup_lastOrder log).sublist (List.drop_sublist _ _)⟩
    have := (mem_drop_iff_idxOf (nodup_lastOrder log) (mem_lastOrder htime) _).mp hmem
    omega
  have hlength := hnodup.length_le_of_subset hsubset
  rw [List.length_cons, List.length_drop, List.length_map] at hlength
  have hbound : (kept ttl bound table now).length ≤ bound := length_kept_le
  omega

/-- Pruning that evicts the oldest leaves a table that tracks its log. -/
theorem Covers.prune (hlog : (log.map Prod.snd).Pairwise (· ≤ ·)) :
    Tracks ttl bound (prune ttl bound table now) log now where
  lookup_iff key time := by
    rw [lookup_prune]
    constructor
    · exact newest_of_kept hcovers holdest hlog
    · rintro ⟨hnewest, hlive⟩
      exact kept_of_newest hcovers holdest hnewest hlive
  length_le := length_kept_le

end

/-! ## What must not be evicted -/

omit [DecidableEq κ] in
theorem nodup_keys_fresh (ttl : Int) (table : OrderedDict κ Int) (now : Int) :
    ((fresh ttl table now).map Sigma.fst).Nodup := table.nodupKeys.sublist List.filter_sublist

theorem evictsOldest_iff : EvictsOldest ttl bound table log now ↔
    FrontOldest bound ((fresh ttl table now).map Sigma.fst) log := by
  have hnodup := nodup_keys_fresh ttl table now
  -- what goes is the front of the fresh keys, what stays the last of them
  have hevicted : ∀ {x}, x ∈ (evicted ttl bound table now).map Sigma.fst ↔
      x ∈ (fresh ttl table now).map Sigma.fst ∧
        ((fresh ttl table now).map Sigma.fst).idxOf x + bound < ((fresh ttl table now).map Sigma.fst).length := by
    intro x
    unfold evicted
    rw [List.map_take, ← List.length_map (f := Sigma.fst)]
    constructor
    · intro hx
      have hmem := List.mem_of_mem_take hx
      have hlt := (List.mem_take_iff_idxOf_lt hmem).mp hx
      exact ⟨hmem, by omega⟩
    · rintro ⟨hmem, hlt⟩
      exact (List.mem_take_iff_idxOf_lt hmem).mpr (by omega)
  have hkept : ∀ {y}, y ∈ (kept ttl bound table now).map Sigma.fst ↔
      y ∈ (fresh ttl table now).map Sigma.fst ∧
        ((fresh ttl table now).map Sigma.fst).length ≤ ((fresh ttl table now).map Sigma.fst).idxOf y + bound := by
    intro y
    unfold kept
    rw [List.map_drop, ← List.length_map (f := Sigma.fst)]
    constructor
    · intro hy
      have hmem := List.mem_of_mem_drop hy
      have hle := (mem_drop_iff_idxOf hnodup hmem _).mp hy
      exact ⟨hmem, by omega⟩
    · rintro ⟨hmem, hle⟩
      exact (mem_drop_iff_idxOf hnodup hmem _).mpr (by omega)
  constructor
  · intro holdest x hx y hy hfollowed hnear
    obtain ⟨e, he, rfl⟩ := List.mem_map.mp (hevicted.mpr ⟨hx, hfollowed⟩)
    obtain ⟨e', he', rfl⟩ := List.mem_map.mp (hkept.mpr ⟨hy, hnear⟩)
    exact holdest e he e' he'
  · intro hfront e he e' he'
    obtain ⟨hx, hfollowed⟩ := hevicted.mp (List.mem_map_of_mem he)
    obtain ⟨hy, hnear⟩ := hkept.mp (List.mem_map_of_mem he')
    exact hfront _ hx _ hy hfollowed hnear

/-- One of the recorded keys. -/
theorem map_fst_filter_setEntries (httl : 0 ≤ ttl) (key : κ) (keys : List κ)
    (entries : List (Σ _ : κ, Int)) :
    ((OrderedDict.setEntries key now entries).filter fun e => e.1 ∈ keys ∨ ¬ ttl < now - e.2).map Sigma.fst =
      place ((entries.filter fun e => e.1 ∈ key :: keys ∨ ¬ ttl < now - e.2).map Sigma.fst) key := by
  have hmem : key ∈ (entries.filter fun e => e.1 ∈ key :: keys ∨ ¬ ttl < now - e.2).map Sigma.fst ↔
      key ∈ entries.keys := by
    show _ ↔ key ∈ List.map _ _
    simp only [List.mem_map, List.mem_filter]
    constructor
    · rintro ⟨e, ⟨he, -⟩, heq⟩
      exact ⟨e, he, heq⟩
    · rintro ⟨e, he, heq⟩
      exact ⟨e, ⟨he, by simp [heq]⟩, heq⟩
  have hlive : ¬ ttl < now - now := by omega
  rw [OrderedDict.setEntries, place, if_congr hmem rfl rfl]
  -- a key that is there keeps its place, another one comes last
  split
  · rw [List.filter_map, List.map_map]
    have hfilter : entries.filter ((fun e : Σ _ : κ, Int => decide (e.1 ∈ keys ∨ ¬ ttl < now - e.2)) ∘
        fun e => if e.1 = key then ⟨key, now⟩ else e) =
          entries.filter fun e => e.1 ∈ key :: keys ∨ ¬ ttl < now - e.2 := by
      apply List.filter_congr
      intro e _
      by_cases hkey : e.1 = key
      · simp [hkey, httl]
      · simp [hkey]
    rw [hfilter]
    apply List.map_congr_left
    intro e _
    by_cases hkey : e.1 = key
    · simp [hkey]
    · simp [hkey]
  · rename_i hnone
    rw [List.filter_append, List.map_append]
    congr 1
    · apply congrArg
      apply List.filter_congr
      intro e he
      have hkey : e.1 ≠ key := fun heq => hnone (heq ▸ List.mem_map_of_mem he)
      simp [hkey]
    · have hlast : (decide (key ∈ keys ∨ ¬ ttl < now - now)) = true := decide_eq_true (.inr hlive)
      rw [List.filter_singleton]
      simp only [hlast, if_true]
      rfl

theorem keys_fresh_record (httl : 0 ≤ ttl) (table : OrderedDict κ Int) (keys : List κ) :
    (fresh ttl (keys.foldl (fun table key => table.set key now) table) now).map Sigma.fst =
      recordOrder ttl table keys now := by
  induction keys generalizing table with
  | nil =>
    unfold fresh recordOrder
    simp
  | cons key keys ih =>
    rw [List.foldl_cons, ih]
    unfold recordOrder
    rw [List.foldl_cons]
    apply congrArg (List.foldl _ · keys)
    exact map_fst_filter_setEntries httl key keys table.entries

/-- A table within its bound has nothing to evict. -/
theorem evictsOldest_of_length_le (h : table.entries.length ≤ bound) :
    EvictsOldest ttl bound table log now := by
  have hfresh : (fresh ttl table now).length ≤ table.entries.length := List.length_filter_le _ _
  have hnone : evicted ttl bound table now = [] := by
    unfold evicted
    rw [Nat.sub_eq_zero_of_le (hfresh.trans h), List.take_zero]
  intro e he
  rw [hnone] at he
  cases he

end ExpiringTable
