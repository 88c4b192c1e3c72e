import Mathlib.Algebra.GroupWithZero.Nat
import Mathlib.Data.List.Basic

/-!
# Lines with their ends

`splitAfter` cuts a text behind each separator.  `Lines` says which lists of pieces are the lines of
a text: the separator stands at the end of every piece and nowhere else, only the last piece may lack
it, and no piece is empty.
-/

namespace TextLines

variable {α : Type} [DecidableEq α] {sep : α} {piece text : List α} {pieces : List (List α)}

def splitAfter (sep : α) : List α → List (List α)
  | [] => []
  | c :: rest =>
    if c = sep then [c] :: splitAfter sep rest
    else
      match splitAfter sep rest with
      | [] => [[c]]
      | line :: lines => (c :: line) :: lines

omit [DecidableEq α] in
/-- The piece ends with its only separator. -/
def Closed (sep : α) (piece : List α) : Prop := ∃ body, sep ∉ body ∧ piece = body ++ [sep]

def Lines (sep : α) : List (List α) → Prop
  | [] => True
  | [piece] => Closed sep piece ∨ (piece ≠ [] ∧ sep ∉ piece)
  | piece :: rest => Closed sep piece ∧ Lines sep rest

omit [DecidableEq α] in
theorem lines_cons_closed (h : Closed sep piece) : Lines sep (piece :: pieces) ↔ Lines sep pieces := by
  cases pieces with
  | nil => exact ⟨fun _ => trivial, fun _ => .inl h⟩
  | cons next rest => exact ⟨fun hlines => hlines.2, fun hlines => ⟨h, hlines⟩⟩

omit [DecidableEq α] in
theorem not_closed (h : sep ∉ piece) : ¬ Closed sep piece := by
  rintro ⟨body, _, rfl⟩
  exact h (List.mem_append_right _ (List.mem_singleton_self sep))

omit [DecidableEq α] in
theorem lines_cons_open (h : sep ∉ piece) :
    Lines sep (piece :: pieces) ↔ piece ≠ [] ∧ pieces = [] := by
  cases pieces with
  | nil => exact ⟨fun hlines => ⟨(hlines.resolve_left (not_closed h)).1, rfl⟩, fun hne => .inr ⟨hne.1, h⟩⟩
  | cons next rest => exact ⟨fun hlines => absurd hlines.1 (not_closed h), fun hne => nomatch hne.2⟩

omit [DecidableEq α] in
theorem lines_append_closed {others : List (List α)} (h : ∀ piece ∈ pieces, Closed sep piece) :
    Lines sep (pieces ++ others) ↔ Lines sep others := by
  induction pieces with
  | nil => exact Iff.rfl
  | cons piece pieces ih =>
    obtain ⟨hpiece, hpieces⟩ := List.forall_mem_cons.mp h
    rw [List.cons_append, lines_cons_closed hpiece, ih hpieces]

theorem splitAfter_closed (h : Closed sep piece) (rest : List α) :
    splitAfter sep (piece ++ rest) = piece :: splitAfter sep rest := by
  have ⟨body, hbody, hpiece⟩ := h
  subst hpiece
  clear h
  induction body with
  | nil => rw [List.nil_append, List.singleton_append, splitAfter, if_pos rfl]
  | cons c body ih =>
    have hc : c ≠ sep := fun heq => hbody (heq ▸ .head _)
    rw [List.cons_append, List.cons_append, splitAfter, if_neg hc,
      ih fun hmem => hbody (.tail _ hmem)]

theorem splitAfter_eq_nil : splitAfter sep text = [] ↔ text = [] := by
  cases text with
  | nil => exact ⟨fun _ => rfl, fun _ => rfl⟩
  | cons c rest =>
    unfold splitAfter
    split
    · exact ⟨nofun, nofun⟩
    · split
      · exact ⟨nofun, nofun⟩
      · exact ⟨nofun, nofun⟩

/-- A piece without separator is glued to the line behind it. -/
theorem splitAfter_open (h : sep ∉ piece) (hpiece : piece ≠ []) (rest : List α) :
    splitAfter sep (piece ++ rest) =
      match splitAfter sep rest with
      | [] => [piece]
      | line :: lines => (piece ++ line) :: lines := by
  induction piece with
  | nil => exact absurd rfl hpiece
  | cons c body ih =>
    have hc : c ≠ sep := fun heq => h (heq ▸ .head _)
    rw [List.cons_append, splitAfter, if_neg hc]
    by_cases hbody : body = []
    · rw [hbody, List.nil_append]
      rfl
    · rw [ih (fun hmem => h (.tail _ hmem)) hbody]
      cases splitAfter sep rest with
      | nil => rfl
      | cons line lines => rfl

theorem flatten_splitAfter (sep : α) (text : List α) : (splitAfter sep text).flatten = text := by
  induction text with
  | nil => rfl
  | cons c rest ih =>
    unfold splitAfter
    split
    · rw [List.flatten_cons, ih, List.singleton_append]
    · split
      · rename_i hrest
        rw [hrest] at ih
        rw [← ih]
        rfl
      · rename_i line lines hrest
        rw [hrest] at ih
        rw [List.flatten_cons, List.cons_append, ← List.flatten_cons, ih]

theorem splitAfter_flatten (h : Lines sep pieces) : splitAfter sep pieces.flatten = pieces := by
  induction pieces with
  | nil => rfl
  | cons piece rest ih =>
    by_cases hclosed : Closed sep piece
    · rw [List.flatten_cons, splitAfter_closed hclosed, ih ((lines_cons_closed hclosed).mp h)]
    · cases rest with
      | nil =>
        have ⟨hne, hopen⟩ := h.resolve_left hclosed
        rw [List.flatten_cons, splitAfter_open hopen hne]
        rfl
      | cons next rest => exact absurd h.1 hclosed

theorem lines_splitAfter (sep : α) (text : List α) : Lines sep (splitAfter sep text) := by
  induction text with
  | nil => trivial
  | cons c rest ih =>
    unfold splitAfter
    split
    · rename_i hc
      exact (lines_cons_closed ⟨[], List.not_mem_nil, by rw [hc]; rfl⟩).mpr ih
    · rename_i hc
      have hnew : ∀ body : List α, sep ∉ body → sep ∉ c :: body := fun body hbody hmem =>
        (List.mem_cons.mp hmem).elim (fun heq => hc heq.symm) hbody
      split
      · exact .inr ⟨nofun, hnew [] List.not_mem_nil⟩
      · rename_i line lines hrest
        rw [hrest] at ih
        by_cases hline : Closed sep line
        · have ⟨body, hbody, heq⟩ := hline
          have hclosed : Closed sep (c :: line) := ⟨c :: body, hnew body hbody, by rw [heq]; rfl⟩
          exact (lines_cons_closed hclosed).mpr ((lines_cons_closed hline).mp ih)
        · cases lines with
          | nil => exact .inr ⟨nofun, hnew line (ih.resolve_left hline).2⟩
          | cons next lines => exact absurd ih.1 hline

/-- Pieces with at most one separator, at their end, are the lines of the text that they make
exactly when the text has as many lines as there are pieces. -/
theorem length_splitAfter_iff (h : ∀ piece ∈ pieces, Closed sep piece ∨ sep ∉ piece) :
    (splitAfter sep pieces.flatten).length = pieces.length ↔ Lines sep pieces := by
  -- there are never more lines than pieces
  have hle : ∀ pieces : List (List α), (∀ piece ∈ pieces, Closed sep piece ∨ sep ∉ piece) →
      (splitAfter sep pieces.flatten).length ≤ pieces.length := by
    intro pieces h
    induction pieces with
    | nil => exact Nat.le_refl 0
    | cons piece rest ih =>
      have hrest := ih fun p hp => h p (.tail _ hp)
      rw [List.flatten_cons, List.length_cons]
      cases h piece (.head _) with
      | inl hclosed =>
        rw [splitAfter_closed hclosed, List.length_cons]
        omega
      | inr hopen =>
        by_cases hne : piece = []
        · rw [hne, List.nil_append]
          omega
        · rw [splitAfter_open hopen hne]
          split
          · rw [List.length_singleton]
            omega
          · rename_i line lines hlines
            rw [hlines] at hrest
            rw [List.length_cons] at hrest ⊢
            omega
  refine ⟨fun heq => ?_, fun hlines => by rw [splitAfter_flatten hlines]⟩
  induction pieces with
  | nil => trivial
  | cons piece rest ih =>
    have hrest := hle rest fun p hp => h p (.tail _ hp)
    rw [List.flatten_cons, List.length_cons] at heq
    cases h piece (.head _) with
    | inl hclosed =>
      rw [splitAfter_closed hclosed, List.length_cons] at heq
      exact (lines_cons_closed hclosed).mpr (ih (fun p hp => h p (.tail _ hp)) (by omega))
    | inr hopen =>
      rw [lines_cons_open hopen]
      by_cases hne : piece = []
      · rw [hne, List.nil_append] at heq
        omega
      · rw [splitAfter_open hopen hne] at heq
        split at heq
        · rw [List.length_singleton] at heq
          exact ⟨hne, List.length_eq_zero_iff.mp (by omega)⟩
        · rename_i line lines hlines
          rw [hlines] at hrest
          rw [List.length_cons] at hrest heq
          omega

/-! ## Texts behind each other -/

theorem splitAfter_append_closed (h : ∀ piece ∈ pieces, Closed sep piece) (rest : List α) :
    splitAfter sep (pieces.flatten ++ rest) = pieces ++ splitAfter sep rest := by
  induction pieces with
  | nil => rfl
  | cons piece pieces ih =>
    have ⟨hpiece, hpieces⟩ := List.forall_mem_cons.mp h
    rw [List.flatten_cons, List.append_assoc, splitAfter_closed hpiece, ih hpieces, List.cons_append]

omit [DecidableEq α] in
theorem closed_or_open_of_lines (h : Lines sep pieces) :
    ∀ piece ∈ pieces, Closed sep piece ∨ piece ≠ [] ∧ sep ∉ piece := by
  induction pieces with
  | nil => exact nofun
  | cons piece rest ih =>
    by_cases hclosed : Closed sep piece
    · exact List.forall_mem_cons.mpr ⟨.inl hclosed, ih ((lines_cons_closed hclosed).mp h)⟩
    · cases rest with
      | nil => exact List.forall_mem_singleton.mpr h
      | cons next rest => exact absurd h.1 hclosed

omit [DecidableEq α] in
theorem ne_nil_of_lines (h : Lines sep pieces) : ∀ piece ∈ pieces, piece ≠ [] := by
  intro piece hpiece
  cases closed_or_open_of_lines h piece hpiece with
  | inl hclosed =>
    have ⟨body, _, heq⟩ := hclosed
    simp [heq]
  | inr hopen => exact hopen.1

omit [DecidableEq α] in
theorem closed_of_getLast? (h : Lines sep pieces) (hlast : pieces.flatten.getLast? = some sep) :
    ∀ piece ∈ pieces, Closed sep piece := by
  induction pieces with
  | nil => exact nofun
  | cons piece rest ih =>
    by_cases hclosed : Closed sep piece
    · have hrest := (lines_cons_closed hclosed).mp h
      cases rest with
      | nil => exact List.forall_mem_singleton.mpr hclosed
      | cons next rest =>
        have hne : (next :: rest).flatten ≠ [] := fun hnil =>
          ne_nil_of_lines hrest next (.head _) (List.append_eq_nil_iff.mp hnil).1
        rw [List.flatten_cons, List.getLast?_append_of_ne_nil _ hne] at hlast
        exact List.forall_mem_cons.mpr ⟨hclosed, ih hrest hlast⟩
    · cases rest with
      | nil =>
        have ⟨_, hopen⟩ := h.resolve_left hclosed
        rw [List.flatten_singleton] at hlast
        exact absurd (List.mem_of_getLast? hlast) hopen
      | cons next rest => exact absurd h.1 hclosed

/-- A text that ends with its separator does not touch the lines behind it. -/
theorem splitAfter_append (h : text.getLast? = some sep) (rest : List α) :
    splitAfter sep (text ++ rest) = splitAfter sep text ++ splitAfter sep rest := by
  have hflatten := flatten_splitAfter sep text
  have hclosed : ∀ line ∈ splitAfter sep text, Closed sep line := by
    apply closed_of_getLast? (lines_splitAfter sep text)
    rw [hflatten]
    exact h
  conv_lhs => rw [← hflatten]
  exact splitAfter_append_closed hclosed rest

/-- The lines begin like some of the pieces, in their order. -/
theorem heads_splitAfter (h : ∀ piece ∈ pieces, Closed sep piece ∨ piece ≠ [] ∧ sep ∉ piece) :
    ((splitAfter sep pieces.flatten).map List.head?).Sublist (pieces.map List.head?) := by
  induction pieces with
  | nil => exact .slnil
  | cons piece rest ih =>
    have ⟨hpiece, hrest⟩ := List.forall_mem_cons.mp h
    have hbehind := ih hrest
    rw [List.flatten_cons, List.map_cons]
    cases hpiece with
    | inl hclosed =>
      rw [splitAfter_closed hclosed]
      exact hbehind.cons_cons _
    | inr hopen =>
      rw [splitAfter_open hopen.2 hopen.1]
      split
      · exact (List.nil_sublist _).cons_cons _
      · rename_i line lines hlines
        rw [hlines] at hbehind
        rw [List.map_cons, List.head?_append_of_ne_nil piece hopen.1]
        exact ((List.sublist_cons_self _ _).trans hbehind).cons_cons _

omit [DecidableEq α] in
/-- A part of a list that weighs as much as the list is the list. -/
theorem eq_of_sublist_of_weights {part whole : List α} {w : α → Nat} (h : part.Sublist whole)
    (hw : ∀ x ∈ whole, 0 < w x) (hsum : (whole.map w).sum ≤ (part.map w).sum) : part = whole := by
  have hboth : (part.map w).sum ≤ (whole.map w).sum ∧
      ((whole.map w).sum ≤ (part.map w).sum → part = whole) := by
    clear hsum
    induction h with
    | slnil => exact ⟨Nat.le_refl 0, fun _ => rfl⟩
    | cons x _ ih =>
      obtain ⟨hx, hrest⟩ := List.forall_mem_cons.mp hw
      obtain ⟨hle, -⟩ := ih hrest
      rw [List.map_cons, List.sum_cons]
      exact ⟨by omega, fun hsum => absurd hsum (by omega)⟩
    | cons_cons x _ ih =>
      obtain ⟨hle, heq⟩ := ih (List.forall_mem_cons.mp hw).2
      rw [List.map_cons, List.map_cons, List.sum_cons, List.sum_cons]
      exact ⟨by omega, fun hsum => by rw [heq (by omega)]⟩
  exact hboth.2 hsum

omit [DecidableEq α] in
theorem closed_of_mem_dropLast (h : Lines sep pieces) : ∀ piece ∈ pieces.dropLast, Closed sep piece := by
  induction pieces with
  | nil => exact nofun
  | cons piece rest ih =>
    cases rest with
    | nil => exact nofun
    | cons next rest => exact List.forall_mem_cons.mpr ⟨h.1, ih h.2⟩

/-! ## Lines without their ends -/

/-- The line without the separator at its end. -/
def chomp (sep : α) (line : List α) : List α :=
  if line.getLast? = some sep then line.dropLast else line

theorem chomp_closed (h : Closed sep piece) : chomp sep piece ++ [sep] = piece := by
  have ⟨body, _, heq⟩ := h
  rw [chomp, heq, List.getLast?_concat, if_pos rfl, List.dropLast_concat]

theorem chomp_open (h : sep ∉ piece) : chomp sep piece = piece :=
  if_neg fun hlast => h (List.mem_of_getLast? hlast)

theorem not_mem_chomp (h : Closed sep piece ∨ sep ∉ piece) : sep ∉ chomp sep piece := by
  cases h with
  | inl hclosed =>
    have ⟨body, hbody, heq⟩ := hclosed
    rw [chomp, heq, List.getLast?_concat, if_pos rfl, List.dropLast_concat]
    exact hbody
  | inr hopen =>
    rw [chomp_open hopen]
    exact hopen

theorem chomp_concat (body : List α) : chomp sep (body ++ [sep]) = body := by
  rw [chomp, List.getLast?_concat, if_pos rfl, List.dropLast_concat]

theorem chomp_cons (c : α) (h : text ≠ []) : chomp sep (c :: text) = c :: chomp sep text := by
  unfold chomp
  rw [List.getLast?_cons_of_ne_nil h]
  split
  · exact List.dropLast_cons_of_ne_nil h
  · rfl

theorem head?_chomp {c : α} (hc : c ≠ sep) (h : text.head? = some c) :
    (chomp sep text).head? = some c := by
  cases text with
  | nil => cases h
  | cons first rest =>
    by_cases hrest : rest = []
    · rw [hrest, chomp_open]
      · exact hrest ▸ h
      · intro hmem
        rw [List.mem_singleton] at hmem
        exact hc (hmem ▸ (Option.some.inj h).symm)
    · rw [chomp_cons _ hrest]
      exact h

/-- `split` leaves an empty piece behind a last separator. -/
theorem splitOn_eq_chomp (sep : α) (text : List α) :
    text.splitOn sep = (splitAfter sep text).map (chomp sep) ++
      if text = [] ∨ text.getLast? = some sep then [[]] else [] := by
  induction text with
  | nil =>
    rw [List.splitOn_nil, if_pos (.inl rfl)]
    rfl
  | cons c rest ih =>
    rw [List.splitOn_cons_eq_if_modifyHead, splitAfter]
    by_cases hc : c = sep
    · have hend : (c :: rest = [] ∨ (c :: rest).getLast? = some sep) ↔
          (rest = [] ∨ rest.getLast? = some sep) := by
        by_cases hrest : rest = []
        · simp [hrest, hc]
        · simp [List.getLast?_cons_of_ne_nil hrest, hrest]
      rw [if_pos (beq_iff_eq.mpr hc), if_pos hc, ih, List.map_cons, List.cons_append, hc]
      simp only [hc] at hend
      rw [show chomp sep [sep] = [] from chomp_concat []]
      simp only [hend]
    · rw [if_neg (fun h => hc (beq_iff_eq.mp h)), if_neg hc]
      by_cases hrest : rest = []
      · have hone : chomp sep [c] = [c] := chomp_open fun hmem => hc (List.mem_singleton.mp hmem).symm
        rw [hrest, List.splitOn_nil]
        simp [splitAfter, hone, hc]
      · have hsplit : splitAfter sep rest ≠ [] := fun hnil => hrest (splitAfter_eq_nil.mp hnil)
        have hlines := ne_nil_of_lines (lines_splitAfter sep rest)
        cases hlist : splitAfter sep rest with
        | nil => exact absurd hlist hsplit
        | cons line lines =>
          have hne : line ≠ [] := hlines line (hlist ▸ .head _)
          rw [ih, hlist, List.map_cons, List.cons_append, List.modifyHead_cons]
          dsimp only
          rw [List.map_cons, List.cons_append, chomp_cons c hne, List.getLast?_cons_of_ne_nil hrest]
          simp [hrest]

end TextLines
