import Mathlib.Data.List.Infix

/-!
# Removing marked words

Every word of a language that a finder meets in a text is replaced by a mark, from left to right.  A
word can come back only through the mark, and a mark whose ends belong to no word keeps its neighbours
apart: no word of the language is left.
-/

namespace MarkerRemoval

variable {α : Type}

/-- The finder meets a word exactly where one starts, and tells its length. -/
structure Finds (word : List α → Prop) (find? : List α → Option Nat) : Prop where
  sound : ∀ {text n}, find? text = some n → ∃ w rest, text = w ++ rest ∧ w.length = n ∧ word w
  complete : ∀ {w}, word w → ∀ rest, ∃ n, find? (w ++ rest) = some n
  ne_nil : ∀ {w}, word w → w ≠ []

/-- One pass over the text; the first number counts the characters of a word still to be left out. -/
def replace (find? : List α → Option Nat) (mark : List α) : Nat → List α → List α
  | _, [] => []
  | skip + 1, _ :: rest => replace find? mark skip rest
  | 0, c :: rest =>
    match find? (c :: rest) with
    | some n => mark ++ replace find? mark (n - 1) rest
    | none => c :: replace find? mark 0 rest

/-- No word of the language is a part of the text. -/
def Free (word : List α → Prop) (text : List α) : Prop := ∀ w, word w → ¬ w <:+: text

/-- A text and what is left of it when every word is replaced by the mark, from left to right. -/
inductive Removes (word : List α → Prop) (mark : List α) : List α → List α → Prop
  | nil : Removes word mark [] []
  | keep {c : α} {text left : List α} :
      (∀ w, word w → ¬ w <+: c :: text) → Removes word mark text left →
        Removes word mark (c :: text) (c :: left)
  | mark {w text left : List α} :
      word w → Removes word mark text left → Removes word mark (w ++ text) (mark ++ left)

/-! ## Barriers -/

/-- A word without the character `c` lies on one side of it. -/
theorem apart {before after pre w post : List α} {c : α} (hc : c ∉ w)
    (h : before ++ c :: after = pre ++ w ++ post) :
    (∃ post', before = pre ++ w ++ post') ∨
      ∃ pre', pre = before ++ c :: pre' ∧ after = pre' ++ w ++ post := by
  rcases List.append_eq_append_iff.mp h with ⟨mid, hleft, hright⟩ | ⟨post', hbefore, -⟩
  · cases mid with
    | nil => exact .inl ⟨[], by simpa using hleft.symm⟩
    | cons d mid =>
      simp only [List.cons_append, List.cons.injEq] at hright
      -- `pre ++ w` reaches past the character, so `pre` does
      rcases List.append_eq_append_iff.mp hleft.symm with ⟨pre', hpre, hmid⟩ | ⟨w', hbefore, hw⟩
      · cases pre' with
        | nil =>
          rw [List.nil_append] at hmid
          exact absurd (by rw [← hmid, hright.1]; exact .head _) hc
        | cons e pre' =>
          simp only [List.cons_append, List.cons.injEq] at hmid
          exact .inr ⟨pre', by rw [hpre, ← hmid.1, hright.1], by rw [hright.2, hmid.2]⟩
      · exact absurd (by simp [hw, hright.1]) hc
  · exact .inl ⟨post', hbefore⟩

theorem infix_apart {before after w : List α} {c : α} (hc : c ∉ w)
    (h : w <:+: before ++ c :: after) : w <:+: before ∨ w <:+: after := by
  have ⟨pre, post, heq⟩ := h
  rcases apart hc heq.symm with ⟨post', hbefore⟩ | ⟨pre', -, hafter⟩
  · exact .inl ⟨pre, post', hbefore.symm⟩
  · exact .inr ⟨pre', post, hafter.symm⟩

/-! ## What is left -/

variable {word : List α → Prop} {find? : List α → Option Nat} {mark : List α}

theorem replace_none {c : α} {rest : List α} (h : find? (c :: rest) = none) :
    replace find? mark 0 (c :: rest) = c :: replace find? mark 0 rest := by
  rw [replace, h]

theorem replace_some {c : α} {rest : List α} {n : Nat} (h : find? (c :: rest) = some n) :
    replace find? mark 0 (c :: rest) = mark ++ replace find? mark (n - 1) rest := by
  rw [replace, h]

theorem replace_drop (skip : Nat) (text : List α) :
    replace find? mark skip text = replace find? mark 0 (text.drop skip) := by
  induction text generalizing skip with
  | nil =>
    rw [List.drop_nil]
    cases skip with
    | zero => rfl
    | succ skip => rfl
  | cons c rest ih =>
    cases skip with
    | zero => rfl
    | succ skip => exact ih skip

/-- The pass replaces the words and nothing else. -/
theorem removes_replace (hfinds : Finds word find?) (text : List α) :
    Removes word mark text (replace find? mark 0 text) := by
  induction hlength : text.length using Nat.strong_induction_on generalizing text with
  | h length ih =>
    cases text with
    | nil => exact .nil
    | cons c rest =>
      cases hfind : find? (c :: rest) with
      -- no word begins here, as the search finds every one
      | none =>
        rw [replace_none hfind]
        have hshorter : rest.length < length := hlength ▸ Nat.lt_succ_self _
        refine .keep (fun w hw hbegins => ?_) (ih _ hshorter rest rfl)
        have ⟨rest', heq⟩ := hbegins
        have ⟨n, hn⟩ := hfinds.complete hw rest'
        rw [heq, hfind] at hn
        cases hn
      | some n =>
        obtain ⟨w, rest', htext, hn, hw⟩ := hfinds.sound hfind
        cases w with
        | nil => exact absurd rfl (hfinds.ne_nil hw)
        | cons d w =>
          rw [List.cons_append, List.cons.injEq] at htext
          obtain ⟨rfl, rfl⟩ := htext
          have hskip : (w ++ rest').drop (n - 1) = rest' := by
            rw [← hn, List.length_cons, Nat.add_sub_cancel, List.drop_left]
          rw [replace_some hfind, replace_drop, hskip, ← List.cons_append]
          refine .mark hw (ih rest'.length ?_ rest' rfl)
          rw [← hlength, List.length_cons, List.length_append]
          omega

/-- Up to the first mark the text stays as it is. -/
theorem prefix_of_prefix_replace {first : α} {tail w : List α} (hfirst : first ∉ w)
    {text : List α} (h : w <+: replace find? (first :: tail) 0 text) : w <+: text := by
  induction text generalizing w with
  | nil => exact h
  | cons c rest ih =>
    cases w with
    | nil => exact List.nil_prefix
    | cons d w =>
      cases hfind : find? (c :: rest) with
      | some n =>
        rw [replace_some hfind, List.cons_append, List.cons_prefix_cons] at h
        exact absurd (h.1 ▸ .head _) hfirst
      | none =>
        rw [replace_none hfind, List.cons_prefix_cons] at h
        rw [List.cons_prefix_cons]
        exact ⟨h.1, ih (fun hmem => hfirst (.tail _ hmem)) h.2⟩

/-- A mark between two characters that belong to no word leaves no word behind. -/
theorem free_replace (hfinds : Finds word find?) {first last : α} {inner : List α}
    (hfirst : ∀ w, word w → first ∉ w) (hlast : ∀ w, word w → last ∉ w)
    (hinner : Free word inner) (text : List α) (skip : Nat) :
    Free word (replace find? (first :: (inner ++ [last])) skip text) := by
  induction text generalizing skip with
  | nil =>
    intro w hw hin
    cases skip <;> exact hfinds.ne_nil hw (List.infix_nil.mp hin)
  | cons c rest ih =>
    cases skip with
    | succ skip => exact ih skip
    | zero =>
    intro w hw hin
    cases hfind : find? (c :: rest) with
    | none =>
      rw [replace_none hfind] at hin
      rcases List.infix_cons_iff.mp hin with hbegins | hrest
      · -- a word at the front would have been met in the text itself
        rw [← replace_none hfind] at hbegins
        have ⟨rest', heq⟩ := prefix_of_prefix_replace (hfirst w hw) hbegins
        have ⟨n, hn⟩ := hfinds.complete hw rest'
        rw [heq, hfind] at hn
        cases hn
      · exact ih 0 w hw hrest
    | some n =>
      rw [replace_some hfind, List.cons_append, List.append_assoc, List.singleton_append] at hin
      have hafter : w <:+: inner ++ last :: replace find? (first :: (inner ++ [last])) (n - 1) rest := by
        have hwhole : w <:+: [] ++ first :: _ := hin
        rcases infix_apart (hfirst w hw) hwhole with hnil | hafter
        · exact absurd (List.infix_nil.mp hnil) (hfinds.ne_nil hw)
        · exact hafter
      rcases infix_apart (hlast w hw) hafter with hmark | hrest
      · exact hinner w hw hmark
      · exact ih (n - 1) w hw hrest

/-- A text in which the finder meets nothing has no word. -/
theorem free_of_find (hfinds : Finds word find?) {text : List α}
    (h : ∀ tail ∈ text.tails, find? tail = none) : Free word text := by
  intro w hw hin
  have ⟨tail, hbegins, hsuffix⟩ := List.infix_iff_prefix_suffix.mp hin
  have ⟨rest, heq⟩ := hbegins
  have ⟨n, hn⟩ := hfinds.complete hw rest
  rw [heq, h tail ((List.mem_tails tail text).mpr hsuffix)] at hn
  cases hn

end MarkerRemoval
