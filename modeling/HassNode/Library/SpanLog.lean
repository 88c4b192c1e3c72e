import Mathlib.Data.List.Chain
import Mathlib.Data.List.Nodup
import Mathlib.Data.List.Range

/-!
# Logs of numbered spans

A log tells when spans start and when they finish, each under its number.  It is `WellBracketed` when
the starts are numbered one after the other and every finish belongs to a start before it that has not
finished.  A writer that remembers the number of starts and the one span that is open keeps it so.
-/

namespace SpanLog

inductive Mark (ι : Type)
  | start (label : ι) (seq : Nat)
  | finish (label : ι) (seq : Nat)

variable {ι : Type}

def Mark.startSeq : Mark ι → Option Nat
  | .start _ seq => some seq
  | .finish _ _ => none

def Mark.finishSeq : Mark ι → Option Nat
  | .start _ _ => none
  | .finish _ seq => some seq

def starts (log : List (Mark ι)) : List Nat := log.filterMap Mark.startSeq

def finishes (log : List (Mark ι)) : List Nat := log.filterMap Mark.finishSeq

structure WellBracketed (log : List (Mark ι)) : Prop where
  consecutive : (starts log).IsChain fun m n => n = m + 1
  matched : ∀ before label seq after, log = before ++ .finish label seq :: after →
    .start label seq ∈ before ∧ seq ∉ finishes before
  once : (finishes log).Nodup

variable {log rest : List (Mark ι)} {label : ι} {count seq : Nat}

theorem mem_starts : seq ∈ starts log ↔ ∃ label, .start label seq ∈ log := by
  unfold starts
  rw [List.mem_filterMap]
  constructor
  · rintro ⟨_ | _, hmem, heq⟩
    · exact ⟨_, Option.some.inj heq ▸ hmem⟩
    · cases heq
  · rintro ⟨label, hmem⟩
    exact ⟨_, hmem, rfl⟩

theorem WellBracketed.of_append (h : WellBracketed (log ++ rest)) : WellBracketed log := by
  constructor
  · have hchain := h.consecutive
    unfold starts at hchain ⊢
    rw [List.filterMap_append] at hchain
    exact hchain.left_of_append
  · intro before label seq after heq
    apply h.matched before label seq (after ++ rest)
    rw [heq, List.append_assoc]
    rfl
  · have hnodup := h.once
    unfold finishes at hnodup ⊢
    rw [List.filterMap_append] at hnodup
    exact hnodup.sublist (List.sublist_append_left _ _)

/-- A finish that belongs to no start. -/
theorem not_wellBracketed_stray (hno : seq ∉ starts log) (rest : List (Mark ι)) :
    ¬ WellBracketed (log ++ .finish label seq :: rest) :=
  fun h => hno (mem_starts.mpr ⟨label, (h.matched log label seq rest rfl).1⟩)

/-! ## Writing a log -/

/-- The log has `count` starts; the last of them is `current`, as long as that has not finished. -/
structure Tracks (log : List (Mark ι)) (count : Nat) (current : Option ι) : Prop where
  wellBracketed : WellBracketed log
  counted : starts log = List.range' 1 count
  current_mem : ∀ label ∈ current, .start label count ∈ log
  current_open : current.isSome → count ∉ finishes log

theorem Tracks.nil : Tracks ([] : List (Mark ι)) 0 none where
  wellBracketed := ⟨.nil, fun before _ _ _ heq => absurd heq (by simp), List.nodup_nil⟩
  counted := rfl
  current_mem := nofun
  current_open := nofun

theorem Tracks.finish_le {current : Option ι} (h : Tracks log count current) (hseq : seq ∈ finishes log) :
    seq ≤ count := by
  unfold finishes at hseq
  have ⟨mark, hmem, heq⟩ := List.mem_filterMap.mp hseq
  cases mark with
  | start label s => cases heq
  | finish label s =>
    have ⟨before, after, hlog⟩ := List.append_of_mem hmem
    have hstart := (h.wellBracketed.matched before label s after hlog).1
    have hmemStart : s ∈ starts log := by
      rw [hlog]
      exact mem_starts.mpr ⟨label, List.mem_append_left _ hstart⟩
    rw [h.counted, List.mem_range'_1] at hmemStart
    have hs : s = seq := Option.some.inj heq
    omega

/-- The next span starts; the one that was current is left open. -/
theorem Tracks.start {current : Option ι} (h : Tracks log count current) (label : ι) :
    Tracks (log ++ [.start label (count + 1)]) (count + 1) (some label) := by
  have hfinishes : finishes (log ++ [.start label (count + 1)]) = finishes log := by
    unfold finishes
    rw [List.filterMap_append]
    exact List.append_nil _
  have hstarts : starts (log ++ [.start label (count + 1)]) = List.range' 1 (count + 1) := by
    unfold starts
    rw [List.filterMap_append, ← starts, h.counted, List.range'_concat]
    simp [Mark.startSeq, Nat.add_comm]
  constructor
  · constructor
    · rw [hstarts]
      exact List.isChain_range' 1 (count + 1) 1
    · intro before other seq after heq
      have hlast : before ++ .finish other seq :: after = log ++ [.start label (count + 1)] := heq.symm
      cases List.eq_nil_or_concat after with
      | inl hnil =>
        rw [hnil] at hlast
        have hmark := (List.append_inj' hlast rfl).2
        cases hmark
      | inr hconcat =>
        have ⟨after', mark, hafter⟩ := hconcat
        rw [hafter, List.concat_eq_append, ← List.cons_append, ← List.append_assoc] at hlast
        exact h.wellBracketed.matched before other seq after' (List.append_inj' hlast rfl).1.symm
    · rw [hfinishes]
      exact h.wellBracketed.once
  · exact hstarts
  · intro other hother
    rw [← Option.some.inj hother]
    exact List.mem_append_right _ (.head _)
  · intro _ hmem
    rw [hfinishes] at hmem
    have hle := h.finish_le hmem
    omega

/-- The current span finishes. -/
theorem Tracks.finish (h : Tracks log count (some label)) :
    Tracks (log ++ [.finish label count]) count none := by
  have hstarts : starts (log ++ [.finish label count]) = starts log := by
    unfold starts
    rw [List.filterMap_append]
    exact List.append_nil _
  have hopen : count ∉ finishes log := h.current_open rfl
  constructor
  · constructor
    · rw [hstarts]
      exact h.wellBracketed.consecutive
    · intro before other seq after heq
      cases List.eq_nil_or_concat after with
      | inl hnil =>
        rw [hnil] at heq
        have ⟨hlog, hmark⟩ := List.append_inj' heq rfl
        cases hmark
        rw [← hlog]
        exact ⟨h.current_mem label rfl, hopen⟩
      | inr hconcat =>
        have ⟨after', mark, hafter⟩ := hconcat
        rw [hafter, List.concat_eq_append, ← List.cons_append, ← List.append_assoc] at heq
        exact h.wellBracketed.matched before other seq after' (List.append_inj' heq rfl).1
    · unfold finishes
      rw [List.filterMap_append]
      apply List.Nodup.append h.wellBracketed.once (List.nodup_singleton count)
      intro seq hseq hcount
      rw [List.mem_singleton.mp hcount] at hseq
      exact hopen hseq
  · rw [hstarts]
    exact h.counted
  · exact nofun
  · exact nofun

theorem Tracks.zero_notMem {current : Option ι} (h : Tracks log count current) : 0 ∉ starts log := by
  rw [h.counted, List.mem_range'_1]
  omega

end SpanLog
