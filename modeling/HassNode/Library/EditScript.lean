import Mathlib.Data.List.Basic
import Mathlib.Data.List.TakeDrop

/-!
# Edit scripts

An edit script goes through the lines of one text and tells which are kept and which deleted, and
where lines are inserted.  A hunk is a part of a script with the number of source lines before it;
hunks that fit onto a text, in order and without overlap, make a script of the whole text.
-/

namespace EditScript

variable {α β : Type}

inductive Edit (α : Type) where
  | keep (line : α)
  | delete (line : α)
  | insert (line : α)
deriving DecidableEq

namespace Edit

def line : Edit α → α
  | .keep line | .delete line | .insert line => line

def old? : Edit α → Option α
  | .keep line | .delete line => some line
  | .insert _ => none

def new? : Edit α → Option α
  | .keep line | .insert line => some line
  | .delete _ => none

def kept? : Edit α → Option α
  | .keep line => some line
  | _ => none

def deleted? : Edit α → Option α
  | .delete line => some line
  | _ => none

def inserted? : Edit α → Option α
  | .insert line => some line
  | _ => none

def map (f : α → β) : Edit α → Edit β
  | .keep line => .keep (f line)
  | .delete line => .delete (f line)
  | .insert line => .insert (f line)

theorem old?_map (f : α → β) (e : Edit α) : (e.map f).old? = e.old?.map f := by
  cases e with
  | keep line => rfl
  | delete line => rfl
  | insert line => rfl

theorem new?_map (f : α → β) (e : Edit α) : (e.map f).new? = e.new?.map f := by
  cases e with
  | keep line => rfl
  | delete line => rfl
  | insert line => rfl

end Edit

/-- The lines that a script goes through. -/
def source (edits : List (Edit α)) : List α := edits.filterMap Edit.old?

/-- The lines that a script leaves. -/
def target (edits : List (Edit α)) : List α := edits.filterMap Edit.new?

/-- The lines that a script keeps. -/
def kept (edits : List (Edit α)) : List α := edits.filterMap Edit.kept?

def deleted (edits : List (Edit α)) : List α := edits.filterMap Edit.deleted?

def inserted (edits : List (Edit α)) : List α := edits.filterMap Edit.inserted?

@[simp] theorem source_nil : source ([] : List (Edit α)) = [] := rfl

@[simp] theorem target_nil : target ([] : List (Edit α)) = [] := rfl

section
variable (line : α) (edits others : List (Edit α))

@[simp] theorem source_keep : source (.keep line :: edits) = line :: source edits := rfl

@[simp] theorem source_delete : source (.delete line :: edits) = line :: source edits := rfl

@[simp] theorem source_insert : source (.insert line :: edits) = source edits := rfl

@[simp] theorem target_keep : target (.keep line :: edits) = line :: target edits := rfl

@[simp] theorem target_delete : target (.delete line :: edits) = target edits := rfl

@[simp] theorem target_insert : target (.insert line :: edits) = line :: target edits := rfl

@[simp] theorem source_append : source (edits ++ others) = source edits ++ source others :=
  List.filterMap_append

@[simp] theorem target_append : target (edits ++ others) = target edits ++ target others :=
  List.filterMap_append

end

@[simp] theorem source_map_keep (lines : List α) : source (lines.map Edit.keep) = lines := by
  induction lines with
  | nil => rfl
  | cons line lines ih => rw [List.map_cons, source_keep, ih]

@[simp] theorem target_map_keep (lines : List α) : target (lines.map Edit.keep) = lines := by
  induction lines with
  | nil => rfl
  | cons line lines ih => rw [List.map_cons, target_keep, ih]

theorem source_map (f : α → β) (edits : List (Edit α)) :
    source (edits.map (Edit.map f)) = (source edits).map f := by
  unfold source
  rw [List.filterMap_map, List.map_filterMap]
  exact congrArg (List.filterMap · edits) (funext fun e => e.old?_map f)

theorem target_map (f : α → β) (edits : List (Edit α)) :
    target (edits.map (Edit.map f)) = (target edits).map f := by
  unfold target
  rw [List.filterMap_map, List.map_filterMap]
  exact congrArg (List.filterMap · edits) (funext fun e => e.new?_map f)

/-- Every line of a script is gone through or left. -/
theorem line_mem {edits : List (Edit α)} {e : Edit α} (h : e ∈ edits) :
    e.line ∈ source edits ∨ e.line ∈ target edits := by
  cases e with
  | keep line => exact .inl (List.mem_filterMap.mpr ⟨_, h, rfl⟩)
  | delete line => exact .inl (List.mem_filterMap.mpr ⟨_, h, rfl⟩)
  | insert line => exact .inr (List.mem_filterMap.mpr ⟨_, h, rfl⟩)

theorem exists_of_mem_source {edits : List (Edit α)} {line : α} (h : line ∈ source edits) :
    ∃ e ∈ edits, e.line = line := by
  have ⟨e, he, hold⟩ := List.mem_filterMap.mp h
  refine ⟨e, he, ?_⟩
  cases e with
  | keep other => exact Option.some.inj hold
  | delete other => exact Option.some.inj hold
  | insert other => cases hold

theorem exists_of_mem_target {edits : List (Edit α)} {line : α} (h : line ∈ target edits) :
    ∃ e ∈ edits, e.line = line := by
  have ⟨e, he, hnew⟩ := List.mem_filterMap.mp h
  refine ⟨e, he, ?_⟩
  cases e with
  | keep other => exact Option.some.inj hnew
  | delete other => cases hnew
  | insert other => exact Option.some.inj hnew

/-- A script goes through what it keeps and what it deletes. -/
theorem length_source (edits : List (Edit α)) :
    (source edits).length = (kept edits).length + (deleted edits).length := by
  induction edits with
  | nil => rfl
  | cons e edits ih =>
    cases e with
    | keep line =>
      show (source edits).length + 1 = (kept edits).length + 1 + (deleted edits).length
      omega
    | delete line =>
      show (source edits).length + 1 = (kept edits).length + ((deleted edits).length + 1)
      omega
    | insert line => exact ih

/-- A script leaves what it keeps and what it inserts. -/
theorem length_target (edits : List (Edit α)) :
    (target edits).length = (kept edits).length + (inserted edits).length := by
  induction edits with
  | nil => rfl
  | cons e edits ih =>
    cases e with
    | keep line =>
      show (target edits).length + 1 = (kept edits).length + 1 + (inserted edits).length
      omega
    | delete line => exact ih
    | insert line =>
      show (target edits).length + 1 = (kept edits).length + ((inserted edits).length + 1)
      omega

/-- What a script keeps, it leaves in the order of the source. -/
theorem kept_sublist_target (edits : List (Edit α)) : (kept edits).Sublist (target edits) := by
  induction edits with
  | nil => exact .slnil
  | cons e edits ih =>
    cases e with
    | keep line => exact ih.cons_cons line
    | delete line => exact ih
    | insert line => exact ih.cons line

/-! ## Hunks -/

structure Hunk (α : Type) where
  /-- The number of source lines before the hunk. -/
  start : Nat
  edits : List (Edit α)
deriving DecidableEq

/-- The hunks lie behind each other from the line `cursor` on, and each goes through the lines that
stand there. -/
def Fits (lines : List α) : Nat → List (Hunk α) → Prop
  | _, [] => True
  | cursor, h :: hunks =>
    cursor ≤ h.start ∧ h.start ≤ lines.length ∧ source h.edits <+: lines.drop h.start ∧
      Fits lines (h.start + (source h.edits).length) hunks

/-- The script of the whole text from the line `cursor` on. -/
def script (lines : List α) : Nat → List (Hunk α) → List (Edit α)
  | cursor, [] => (lines.drop cursor).map Edit.keep
  | cursor, h :: hunks =>
    ((lines.take h.start).drop cursor).map Edit.keep ++ h.edits ++
      script lines (h.start + (source h.edits).length) hunks

theorem drop_of_begins {lines part : List α} {n : Nat} (h : part <+: lines.drop n) :
    lines.drop n = part ++ lines.drop (n + part.length) := by
  have ⟨rest, hrest⟩ := h
  rw [← List.drop_drop, ← hrest, List.drop_left]

theorem drop_eq_gap {lines : List α} {m n : Nat} (hmn : m ≤ n) :
    lines.drop m = (lines.take n).drop m ++ lines.drop n := by
  have hlines : lines.drop m = (lines.take n ++ lines.drop n).drop m := by
    rw [List.take_append_drop]
  rw [hlines]
  by_cases hlen : n ≤ lines.length
  · rw [List.drop_append_of_le_length]
    rw [List.length_take]
    omega
  · have hrest : lines.drop n = [] := List.drop_eq_nil_of_le (by omega)
    rw [hrest, List.append_nil, List.append_nil]

/-- Hunks that fit go through every line once. -/
theorem source_script {lines : List α} {cursor : Nat} {hunks : List (Hunk α)}
    (h : Fits lines cursor hunks) : source (script lines cursor hunks) = lines.drop cursor := by
  induction hunks generalizing cursor with
  | nil => exact source_map_keep _
  | cons hunk hunks ih =>
    have ⟨hstart, _, hbegins, hrest⟩ := h
    rw [script, source_append, source_append, source_map_keep, ih hrest, List.append_assoc,
      ← drop_of_begins hbegins, ← drop_eq_gap hstart]

/-- An edit of the whole text keeps a line, or is in a hunk. -/
theorem mem_script {lines : List α} {cursor : Nat} {hunks : List (Hunk α)} {e : Edit α}
    (h : e ∈ script lines cursor hunks) :
    (∃ line ∈ lines, e = .keep line) ∨ ∃ hunk ∈ hunks, e ∈ hunk.edits := by
  induction hunks generalizing cursor with
  | nil =>
    have ⟨line, hline, he⟩ := List.mem_map.mp h
    exact .inl ⟨line, List.mem_of_mem_drop hline, he.symm⟩
  | cons hunk hunks ih =>
    cases List.mem_append.mp h with
    | inl hfirst =>
      cases List.mem_append.mp hfirst with
      | inl hgap =>
        have ⟨line, hline, he⟩ := List.mem_map.mp hgap
        exact .inl ⟨line, List.mem_of_mem_take (List.mem_of_mem_drop hline), he.symm⟩
      | inr hhunk => exact .inr ⟨hunk, .head _, hhunk⟩
    | inr hrest =>
      cases ih hrest with
      | inl hkeep => exact .inl hkeep
      | inr hlater =>
        have ⟨later, hmem, he⟩ := hlater
        exact .inr ⟨later, .tail _ hmem, he⟩

/-! ## How far hunks reach -/

/-- The line behind the last hunk. -/
def reach : Nat → List (Hunk α) → Nat
  | cursor, [] => cursor
  | _, h :: hunks => reach (h.start + (source h.edits).length) hunks

/-- The script from the line `cursor` on, up to the end of the last hunk. -/
def front (lines : List α) : Nat → List (Hunk α) → List (Edit α)
  | _, [] => []
  | cursor, h :: hunks =>
    ((lines.take h.start).drop cursor).map Edit.keep ++ h.edits ++
      front lines (h.start + (source h.edits).length) hunks

theorem script_eq_front (lines : List α) (cursor : Nat) (hunks : List (Hunk α)) :
    script lines cursor hunks =
      front lines cursor hunks ++ (lines.drop (reach cursor hunks)).map Edit.keep := by
  induction hunks generalizing cursor with
  | nil => rfl
  | cons h hunks ih => rw [script, front, reach, ih, List.append_assoc _ _ (List.map _ _)]

theorem source_front {lines : List α} {cursor : Nat} {hunks : List (Hunk α)}
    (h : Fits lines cursor hunks) :
    source (front lines cursor hunks) ++ lines.drop (reach cursor hunks) = lines.drop cursor := by
  have hsource := source_script h
  rw [script_eq_front, source_append, source_map_keep] at hsource
  exact hsource

theorem mem_front_of_mem {lines : List α} {cursor : Nat} {hunks : List (Hunk α)} {hunk : Hunk α}
    (h : hunk ∈ hunks) {e : Edit α} (he : e ∈ hunk.edits) : e ∈ front lines cursor hunks := by
  induction hunks generalizing cursor with
  | nil => cases h
  | cons first hunks ih =>
    cases List.mem_cons.mp h with
    | inl heq => exact List.mem_append_left _ (List.mem_append_right _ (heq ▸ he))
    | inr hrest => exact List.mem_append_right _ (ih hrest)

section
variable {lines : List α} {cursor : Nat} {h : Hunk α} {hunks : List (Hunk α)}

theorem front_ne_nil (hne : hunks ≠ []) (hedits : ∀ hunk ∈ hunks, hunk.edits ≠ []) :
    front lines cursor hunks ≠ [] := by
  cases hunks with
  | nil => exact absurd rfl hne
  | cons hunk hunks =>
    have hhunk := hedits hunk (.head _)
    simp [front, hhunk]

/-- The last edit of hunks is in the last hunk. -/
theorem dropLast_front (hedits : h.edits ≠ []) : (front lines cursor (h :: hunks)).dropLast =
    ((lines.take h.start).drop cursor).map Edit.keep ++
      (h.edits ++ front lines (h.start + (source h.edits).length) hunks).dropLast := by
  have hne : h.edits ++ front lines (h.start + (source h.edits).length) hunks ≠ [] :=
    List.append_ne_nil_of_left_ne_nil hedits _
  rw [front, List.append_assoc, List.dropLast_append_of_ne_nil hne]

theorem mem_dropLast_front (hedits : h.edits ≠ []) {e : Edit α}
    (he : e ∈ (front lines (h.start + (source h.edits).length) hunks).dropLast) :
    e ∈ (front lines cursor (h :: hunks)).dropLast := by
  have hne : front lines (h.start + (source h.edits).length) hunks ≠ [] := by
    intro hnil
    rw [hnil] at he
    cases he
  rw [dropLast_front hedits, List.dropLast_append_of_ne_nil hne]
  exact List.mem_append_right _ (List.mem_append_right _ he)

end

/-- A hunk in front of the first line that goes through none. -/
def Hunk.Idle (h : Hunk α) : Prop := h.start = 0 ∧ source h.edits = []

theorem fits_idle (lines : List α) {idle : List (Hunk α)} (hunks : List (Hunk α))
    (h : ∀ hunk ∈ idle, hunk.Idle) :
    (Fits lines 0 (idle ++ hunks) ↔ Fits lines 0 hunks) ∧
      script lines 0 (idle ++ hunks) = idle.flatMap Hunk.edits ++ script lines 0 hunks := by
  induction idle with
  | nil => exact ⟨Iff.rfl, rfl⟩
  | cons hunk idle ih =>
    have ⟨⟨hstart, hsource⟩, hrest⟩ := List.forall_mem_cons.mp h
    have ⟨hfits, hscript⟩ := ih hrest
    rw [List.cons_append, Fits, script, hstart, hsource, List.length_nil, hfits, hscript]
    constructor
    · exact ⟨fun hall => hall.2.2.2, fun hall => ⟨Nat.le_refl 0, Nat.zero_le _, List.nil_prefix, hall⟩⟩
    · simp

/-! ## Scripts in parts -/

/-- Lines outside of hunks, with the hunk behind them. -/
structure Stretch (α : Type) where
  gap : List α
  edits : List (Edit α)

/-- The whole script of parts and the lines behind them. -/
def whole : List (Stretch α) → List α → List (Edit α)
  | [], tail => tail.map Edit.keep
  | part :: parts, tail => part.gap.map Edit.keep ++ part.edits ++ whole parts tail

/-- The hunks of parts, from the line `cursor` on. -/
def place : Nat → List (Stretch α) → List (Hunk α)
  | _, [] => []
  | cursor, part :: parts =>
    ⟨cursor + part.gap.length, part.edits⟩ ::
      place (cursor + part.gap.length + (source part.edits).length) parts

/-- A script in parts is the script of its hunks. -/
theorem fits_place {lines tail : List α} {cursor : Nat} {parts : List (Stretch α)}
    (hlines : lines.drop cursor = source (whole parts tail)) (hcursor : cursor ≤ lines.length) :
    Fits lines cursor (place cursor parts) ∧
      script lines cursor (place cursor parts) = whole parts tail := by
  induction parts generalizing cursor with
  | nil =>
    rw [whole, source_map_keep] at hlines
    exact ⟨trivial, congrArg _ hlines⟩
  | cons part parts ih =>
    rw [whole, source_append, source_append, source_map_keep, List.append_assoc] at hlines
    have hstart : lines.drop (cursor + part.gap.length) =
        source part.edits ++ source (whole parts tail) := by
      rw [← List.drop_drop, hlines, List.drop_left]
    have hrest : lines.drop (cursor + part.gap.length + (source part.edits).length) =
        source (whole parts tail) := by
      rw [← List.drop_drop, hstart, List.drop_left]
    have hlength := congrArg List.length hlines
    rw [List.length_drop, List.length_append, List.length_append] at hlength
    have hgap : (lines.take (cursor + part.gap.length)).drop cursor = part.gap := by
      rw [List.drop_take, hlines, Nat.add_sub_cancel_left, List.take_left]
    have ⟨hfits, hscript⟩ := ih hrest (by omega)
    constructor
    · exact ⟨Nat.le_add_right _ _, by show cursor + part.gap.length ≤ _; omega, ⟨_, hstart.symm⟩, hfits⟩
    · rw [place, script, hgap, hscript, whole]

end EditScript
