import HassNode.ChatRelay
import HassNode.Library.Clock
import HassNode.Library.ExpiringTable

/-!
# The memory of ended turns

`_ended_turns` is a table of last times that evicts by insertion order, and a key that is recorded again
keeps its old place in that order.  So `recently_ended` is right about the newest keys in the runs in
which no such key stands at the front of a table that overflows (`recently_ended_newest`), and not in all
of them (`refreshed_key_evicted`).
-/

namespace HassNode.ChatRelay

open Py Clock ExpiringTable

/-- What befalls the ended turns of a relay. -/
inductive EndedEvent where
  /-- A turn of the session ends. -/
  | ended (sessionKey : PyStr) (now : Int)
  /-- `recently_ended` is asked. -/
  | asked (now : Int)
  /-- The relay does something else, which leaves `_ended_turns` alone. -/
  | other (r : Relay)

/-- The reading of the clock at an event. -/
def EndedEvent.now? : EndedEvent → Option Int
  | .ended _ now => some now
  | .asked now => some now
  | .other _ => none

/-- A relay, and the keys that its ended turns had, each with its time. -/
structure Recording where
  relay : Relay
  log : List (PyStr × Int)

section
variable [CaseMap]

/-- The keys under which the end of a turn is recorded. -/
def Relay.endedKeys (r : Relay) (sessionKey : PyStr) : List PyStr :=
  [CaseMap.lower sessionKey, CaseMap.lower (r.canonicalByRaw.getD sessionKey sessionKey)]

namespace Recording

def start (r : Relay) : Recording := ⟨{ r with endedTurns := ∅ }, []⟩

def after (m : Recording) : EndedEvent → Recording
  | .ended sessionKey now => ⟨m.relay.recordEnded sessionKey now,
      m.log ++ (m.relay.endedKeys sessionKey).map fun key => (key, now)⟩
  | .asked now => ⟨{ m.relay with endedTurns := Relay.pruneEnded m.relay.endedTurns now }, m.log⟩
  | .other r => ⟨{ r with endedTurns := m.relay.endedTurns }, m.log⟩

def run (r : Relay) (events : List EndedEvent) : Recording := events.foldl after (start r)

/-- Before the end of a turn, in the order in which the keys came into the table: one that 256 or more
follow ended before every one that fewer follow. -/
def FrontEndedFirst (m : Recording) : EndedEvent → Prop
  | .ended sessionKey now =>
    FrontOldest endedTurnMax
      (recordOrder endedTurnTtl m.relay.endedTurns (m.relay.endedKeys sessionKey) now)
      (m.log ++ (m.relay.endedKeys sessionKey).map fun key => (key, now))
  | _ => True

/-- `recently_ended` says of a key whether it is one of the newest 256 and ended within the time to
live. -/
def Exact (m : Recording) (now : Int) : Prop :=
  ∀ sessionKeyHint, m.relay.recentlyEnded sessionKeyHint now = true ↔ ∃ endedAt,
    Newest endedTurnMax m.log (CaseMap.lower (strip sessionKeyHint)) endedAt ∧
      now - endedAt ≤ endedTurnTtl

/-- Each key that was recorded can be asked for. -/
def Named (m : Recording) : Prop :=
  ∀ key ∈ m.log.map Prod.fst, ∃ sessionKeyHint, CaseMap.lower (strip sessionKeyHint) = key

variable {m : Recording} {events : List EndedEvent} {event : EndedEvent} {now : Int}

/-- The table has what `recently_ended` needs from `now` on. -/
structure Holds (m : Recording) (now : Int) : Prop where
  covers : Covers endedTurnTtl endedTurnMax m.relay.endedTurns m.log now
  length_le : m.relay.endedTurns.entries.length ≤ endedTurnMax
  sorted : (m.log.map Prod.snd ++ [now]).Pairwise (· ≤ ·)

omit [CaseMap] in
theorem Holds.mono {past : Int} (h : Holds m past) (hpast : past ≤ now) : Holds m now where
  covers := h.covers.mono hpast
  length_le := h.length_le
  sorted := by
    have hsorted := List.pairwise_append.mp h.sorted
    refine List.pairwise_append.mpr ⟨hsorted.1, List.pairwise_singleton _ _, ?_⟩
    rintro time htime _ hnow
    rw [List.mem_singleton.mp hnow]
    exact (hsorted.2.2 time htime past (List.mem_singleton_self _)).trans hpast

omit [CaseMap] in
/-- `_prune_ended` leaves just the keys that count. -/
theorem Holds.prune (h : Holds m now) : Tracks endedTurnTtl endedTurnMax
    (Relay.pruneEnded m.relay.endedTurns now) m.log now :=
  h.covers.prune (evictsOldest_of_length_le h.length_le) (List.pairwise_append.mp h.sorted).1

omit [CaseMap] in
theorem Holds.of_tracks {log : List (PyStr × Int)} {r : Relay}
    (h : Tracks endedTurnTtl endedTurnMax r.endedTurns log now)
    (hsorted : (log.map Prod.snd ++ [now]).Pairwise (· ≤ ·)) : Holds ⟨r, log⟩ now :=
  ⟨h.covers, h.length_le, hsorted⟩

omit [CaseMap] in
/-- Keys that are recorded now keep the log sorted. -/
theorem sorted_record {log : List (PyStr × Int)} (h : (log.map Prod.snd ++ [now]).Pairwise (· ≤ ·))
    (keys : List PyStr) :
    ((log ++ keys.map fun key => (key, now)).map Prod.snd ++ [now]).Pairwise (· ≤ ·) := by
  have hsorted := List.pairwise_append.mp h
  have hkeys : (keys.map fun key => (key, now)).map Prod.snd ++ [now] =
      List.replicate (keys.length + 1) now := by
    rw [List.map_map, List.replicate_succ', ← List.map_const]
    rfl
  rw [List.map_append, List.append_assoc, hkeys]
  refine List.pairwise_append.mpr ⟨hsorted.1, ?_, ?_⟩
  · exact List.pairwise_replicate.mpr (.inr le_rfl)
  · intro time htime other hother
    rw [List.eq_of_mem_replicate hother]
    exact hsorted.2.2 time htime now (List.mem_singleton_self _)

/-- The table and the log with the keys of the turn, before it is pruned. -/
theorem Holds.covers_record (h : Holds m now) (sessionKey : PyStr) :
    Covers endedTurnTtl endedTurnMax
      ((m.relay.endedKeys sessionKey).foldl (fun table key => table.set key now) m.relay.endedTurns)
      (m.log ++ (m.relay.endedKeys sessionKey).map fun key => (key, now)) now := by
  have hcovers := (h.covers.set (CaseMap.lower sessionKey)).set
    (CaseMap.lower (m.relay.canonicalByRaw.getD sessionKey sessionKey))
  rw [List.append_assoc] at hcovers
  exact hcovers

/-- What the overflow evicts is at the front of the order before it. -/
theorem frontEndedFirst_iff {sessionKey : PyStr} : m.FrontEndedFirst (.ended sessionKey now) ↔
    EvictsOldest endedTurnTtl endedTurnMax
      ((m.relay.endedKeys sessionKey).foldl (fun table key => table.set key now) m.relay.endedTurns)
      (m.log ++ (m.relay.endedKeys sessionKey).map fun key => (key, now)) now := by
  rw [evictsOldest_iff, keys_fresh_record (by decide)]
  rfl

/-- The end of a turn with the front of the table in order. -/
theorem Holds.ended (h : Holds m now) {sessionKey : PyStr}
    (hfront : m.FrontEndedFirst (.ended sessionKey now)) :
    Holds (m.after (.ended sessionKey now)) now := by
  have hsorted := sorted_record h.sorted (m.relay.endedKeys sessionKey)
  exact .of_tracks ((h.covers_record sessionKey).prune (frontEndedFirst_iff.mp hfront)
    (List.pairwise_append.mp hsorted).1) hsorted

/-- One event at `now`. -/
theorem Holds.after (h : Holds m now) (hnow : ∀ time, event.now? = some time → time = now)
    (hfront : m.FrontEndedFirst event) : Holds (m.after event) now := by
  cases event with
  | ended sessionKey time =>
    cases hnow time rfl
    exact h.ended hfront
  | asked time =>
    cases hnow time rfl
    exact .of_tracks h.prune h.sorted
  | other r => exact ⟨h.covers, h.length_le, h.sorted⟩

theorem run_concat (r : Relay) (events : List EndedEvent) (event : EndedEvent) :
    run r (events ++ [event]) = (run r events).after event := by
  unfold run
  rw [List.foldl_append]
  rfl

/-- The answer of `recently_ended`. -/
theorem Holds.exact (h : Holds m now) : m.Exact now := by
  intro sessionKeyHint
  unfold Relay.recentlyEnded
  rw [Option.isSome_iff_exists]
  apply exists_congr
  intro endedAt
  exact h.prune.lookup_iff _ endedAt

end Recording

end

/-! ## A refreshed key -/

namespace EndedSample

scoped instance caseMap : CaseMap := .ascii

open Recording

/-- The session key of a conversation whose id is one character. -/
def sampleKey (i : Nat) : PyStr := sessionKeyPrefix ++ [Fin.ofNat 0x110000 (i + 1000)]

theorem lower_sampleKey {i : Nat} (hi : i < 300) : CaseMap.lower (sampleKey i) = sampleKey i := by
  have hval : (Fin.ofNat 0x110000 (i + 1000)).val = i + 1000 := Nat.mod_eq_of_lt (by omega)
  have hlast : ¬ (65 ≤ (Fin.ofNat 0x110000 (i + 1000)).val ∧ (Fin.ofNat 0x110000 (i + 1000)).val ≤ 90) := by omega
  have hhead : CaseMap.lower sessionKeyPrefix = sessionKeyPrefix := by decide
  show List.map _ (sessionKeyPrefix ++ [Fin.ofNat 0x110000 (i + 1000)]) = _
  rw [List.map_append]
  show CaseMap.lower sessionKeyPrefix ++ [if _ then _ else _] = _
  rw [hhead, if_neg hlast]
  rfl

/-- A table all of whose keys ended at time 0. -/
def AllAtZero (m : Recording) (keys : List PyStr) : Prop :=
  m.relay.canonicalByRaw = ∅ ∧ m.relay.endedTurns.entries = keys.map fun key => ⟨key, 0⟩

theorem setEntries_zero (keys : List PyStr) (key : PyStr) :
    OrderedDict.setEntries key (0 : Int) (keys.map fun key => ⟨key, 0⟩) =
      (if key ∈ keys then keys else keys ++ [key]).map fun key => ⟨key, 0⟩ := by
  have hkeys : (keys.map fun key => (⟨key, 0⟩ : Σ _ : PyStr, Int)).keys = keys := by
    show (keys.map _).map Sigma.fst = keys
    rw [List.map_map]
    exact List.map_id _
  unfold OrderedDict.setEntries
  rw [hkeys]
  split
  · rw [List.map_map]
    apply List.map_congr_left
    intro other _
    show (if other = key then _ else _) = _
    split
    · rename_i heq
      rw [heq]
    · rfl
  · rw [List.map_append]
    rfl

theorem entries_pruneEnded (table : StrDict Int) (now : Int) :
    (Relay.pruneEnded table now).entries = (fresh endedTurnTtl table now).drop
      ((fresh endedTurnTtl table now).length - endedTurnMax) := by
  simp only [Relay.pruneEnded, fresh]

/-- A turn ends at time 0. -/
theorem AllAtZero.ended {m : Recording} {keys : List PyStr} (h : AllAtZero m keys) {i : Nat}
    (hi : i < 300) :
    let keys' := if sampleKey i ∈ keys then keys else keys ++ [sampleKey i]
    AllAtZero (m.after (.ended (sampleKey i) 0)) (keys'.drop (keys'.length - 256)) := by
  intro keys'
  have hsame : (m.after (.ended (sampleKey i) 0)).relay.canonicalByRaw = m.relay.canonicalByRaw := by
    simp only [Recording.after, Relay.recordEnded]
  refine ⟨hsame.trans h.1, ?_⟩
  have hcanonical : m.relay.canonicalByRaw.getD (sampleKey i) (sampleKey i) = sampleKey i := by
    rw [h.1]
    rfl
  show (Relay.pruneEnded ((m.relay.endedTurns.set (CaseMap.lower (sampleKey i)) 0).set
    (CaseMap.lower (m.relay.canonicalByRaw.getD (sampleKey i) (sampleKey i))) 0) 0).entries = _
  rw [hcanonical, lower_sampleKey hi]
  have htwice : ((m.relay.endedTurns.set (sampleKey i) 0).set (sampleKey i) 0).entries =
      keys'.map fun key => ⟨key, 0⟩ := by
    show OrderedDict.setEntries _ _ (OrderedDict.setEntries _ _ _) = _
    rw [h.2, setEntries_zero, setEntries_zero]
    have hmem : sampleKey i ∈ keys' := by
      show sampleKey i ∈ if _ then _ else _
      split
      · assumption
      · exact List.mem_append_right _ (List.mem_singleton_self _)
    rw [if_pos hmem]
  have hfresh : fresh endedTurnTtl ((m.relay.endedTurns.set (sampleKey i) 0).set (sampleKey i) 0) 0 =
      keys'.map fun key => ⟨key, 0⟩ := by
    unfold fresh
    rw [htwice, List.filter_eq_self]
    intro e he
    rw [List.mem_map] at he
    obtain ⟨key, _, rfl⟩ := he
    simp [endedTurnTtl]
  rw [entries_pruneEnded, hfresh, List.length_map, ← List.map_drop]
  unfold endedTurnMax
  rfl

theorem AllAtZero.recentlyEnded {m : Recording} {keys : List PyStr} (h : AllAtZero m keys)
    {sessionKeyHint : PyStr} (hkey : CaseMap.lower (strip sessionKeyHint) ∉ keys) (now : Int) :
    m.relay.recentlyEnded sessionKeyHint now = false := by
  rw [Bool.eq_false_iff]
  intro hanswer
  obtain ⟨endedAt, hlookup⟩ := Option.isSome_iff_exists.mp hanswer
  rw [← Option.mem_def, AList.mem_lookup_iff, entries_pruneEnded] at hlookup
  have hmem := (List.mem_filter.mp (List.mem_of_mem_drop hlookup)).1
  rw [h.2, List.mem_map] at hmem
  obtain ⟨key, hmem, heq⟩ := hmem
  cases heq
  exact hkey hmem

end EndedSample

end HassNode.ChatRelay
