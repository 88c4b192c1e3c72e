import Mathlib.Algebra.Group.Nat.Defs
import Mathlib.Data.List.Infix

/-!
# Repeated masking

Every occurrence of some forms in a text is replaced by a mask, from left to right and the first
form of the list that fits winning.  A mask can join its neighbours to a new occurrence, so the
replacement is repeated; a text that never gets clean is dropped.
-/

namespace Redaction

variable {α : Type} [DecidableEq α]

/-- Some form is a part of the text. -/
def occurs (forms : List (List α)) (text : List α) : Bool :=
  forms.any fun form => text.tails.any fun tail => form.isPrefixOf tail

theorem occurs_iff {forms : List (List α)} {text : List α} :
    occurs forms text = true ↔ ∃ form ∈ forms, form <:+: text := by
  unfold occurs
  rw [List.any_eq_true]
  refine exists_congr fun form => and_congr_right fun _ => ?_
  rw [List.any_eq_true, List.infix_iff_prefix_suffix]
  simp only [List.mem_tails, List.isPrefixOf_iff_prefix]
  exact exists_congr fun tail => and_comm

variable (forms : List (List α)) (mask : List α)

/-- One pass over the text; the first number counts the characters of a form still to be left out. -/
def substitute : Nat → List α → List α
  | _, [] => []
  | skip + 1, _ :: rest => substitute skip rest
  | 0, c :: rest =>
    match forms.find? fun form => form.isPrefixOf (c :: rest) with
    | some form => mask ++ substitute (form.length - 1) rest
    | none => c :: substitute 0 rest

/-- At most so many passes, until the text is clean. -/
def passes : Nat → List α → List α
  | 0, _ => []
  | n + 1, text =>
    if occurs forms (substitute forms mask 0 text) then passes n (substitute forms mask 0 text)
    else substitute forms mask 0 text

variable {forms mask}

theorem substitute_none {c : α} {rest : List α}
    (h : (forms.find? fun form => form.isPrefixOf (c :: rest)) = none) :
    substitute forms mask 0 (c :: rest) = c :: substitute forms mask 0 rest := by
  rw [substitute, h]

theorem substitute_some {c : α} {rest form : List α}
    (h : (forms.find? fun form => form.isPrefixOf (c :: rest)) = some form) :
    substitute forms mask 0 (c :: rest) = mask ++ substitute forms mask (form.length - 1) rest := by
  rw [substitute, h]

/-- Skipping over exactly a prefix. -/
theorem substitute_skip (before rest : List α) :
    substitute forms mask before.length (before ++ rest) = substitute forms mask 0 rest := by
  induction before with
  | nil => rfl
  | cons c before ih =>
    show substitute forms mask before.length (before ++ rest) = _
    exact ih

/-- A clean text stays as it is. -/
theorem substitute_clean {text : List α} (h : occurs forms text = false) :
    substitute forms mask 0 text = text := by
  induction text with
  | nil => rfl
  | cons c rest ih =>
    have hnone : (forms.find? fun form => form.isPrefixOf (c :: rest)) = none := by
      refine List.find?_eq_none.mpr fun form hform hbegins => ?_
      have hoccurs : occurs forms (c :: rest) = true :=
        occurs_iff.mpr ⟨form, hform, (List.isPrefixOf_iff_prefix.mp hbegins).isInfix⟩
      rw [h] at hoccurs
      cases hoccurs
    have hrest : occurs forms rest = false := by
      by_contra hoccurs
      obtain ⟨form, hform, hin⟩ := occurs_iff.mp (Bool.of_not_eq_false hoccurs)
      have htext : occurs forms (c :: rest) = true :=
        occurs_iff.mpr ⟨form, hform, hin.trans (List.suffix_cons c rest).isInfix⟩
      rw [h] at htext
      cases htext
    rw [substitute_none hnone, ih hrest]

/-- Where a form occurs, the mask is put. -/
theorem mask_infix_substitute {text : List α} (hne : [] ∉ forms) (h : occurs forms text = true) :
    mask <:+: substitute forms mask 0 text := by
  induction text with
  | nil =>
    obtain ⟨form, hform, hin⟩ := occurs_iff.mp h
    exact absurd (List.infix_nil.mp hin ▸ hform) hne
  | cons c rest ih =>
    cases hfind : forms.find? fun form => form.isPrefixOf (c :: rest) with
    | some form =>
      rw [substitute_some hfind]
      exact (List.prefix_append mask _).isInfix
    | none =>
      rw [substitute_none hfind]
      have hrest : occurs forms rest = true := by
        obtain ⟨form, hform, hin⟩ := occurs_iff.mp h
        rcases List.infix_cons_iff.mp hin with hbegins | hin
        · exact absurd (List.isPrefixOf_iff_prefix.mpr hbegins) (List.find?_eq_none.mp hfind form hform)
        · exact occurs_iff.mpr ⟨form, hform, hin⟩
      exact (ih hrest).trans (List.suffix_cons c _).isInfix

/-- What is left is clean or nothing. -/
theorem passes_clean (n : Nat) (text : List α) :
    passes forms mask n text = [] ∨ occurs forms (passes forms mask n text) = false := by
  induction n generalizing text with
  | zero => exact .inl rfl
  | succ n ih =>
    rw [passes]
    by_cases h : occurs forms (substitute forms mask 0 text) = true
    · rw [if_pos h]
      exact ih _
    · rw [if_neg h]
      exact .inr (Bool.of_not_eq_true h)

theorem passes_of_clean {n : Nat} {text : List α} (h : occurs forms text = false) :
    passes forms mask (n + 1) text = text := by
  rw [passes, substitute_clean h, if_neg (by rw [h]; decide)]

/-- A text that was not clean shows the mask, or is gone. -/
theorem mask_infix_passes {n : Nat} {text : List α} (hne : [] ∉ forms)
    (h : occurs forms text = true) :
    passes forms mask n text = [] ∨ mask <:+: passes forms mask n text := by
  induction n generalizing text with
  | zero => exact .inl rfl
  | succ n ih =>
    rw [passes]
    by_cases hagain : occurs forms (substitute forms mask 0 text) = true
    · rw [if_pos hagain]
      exact ih hagain
    · rw [if_neg hagain]
      exact .inr (mask_infix_substitute hne h)

/-- The first form in front of a clean text is all that is replaced. -/
theorem passes_prefixed {form text : List α} {rest : List (List α)} {n : Nat}
    (hforms : forms = form :: rest) (hne : form ≠ []) (hclean : occurs forms text = false) :
    passes forms [] (n + 1) (form ++ text) = text := by
  obtain ⟨c, tail, rfl⟩ := List.exists_cons_of_ne_nil hne
  have hfind : (forms.find? fun f => f.isPrefixOf (c :: (tail ++ text))) = some (c :: tail) := by
    rw [hforms, List.find?_cons_of_pos]
    exact List.isPrefixOf_iff_prefix.mpr (List.prefix_append (c :: tail) text)
  have hsub : substitute forms [] 0 (c :: (tail ++ text)) = text := by
    rw [substitute_some hfind, List.nil_append]
    show substitute forms [] tail.length (tail ++ text) = text
    rw [substitute_skip, substitute_clean hclean]
  show passes forms [] (n + 1) (c :: (tail ++ text)) = text
  rw [passes, hsub, if_neg (by rw [hclean]; decide)]

/-! ## Length -/

/-- Replacing forms of at least `width` characters by a mask that is `k` times as long at most. -/
theorem length_substitute (k width : Nat) (hk : 1 ≤ k) (hwidth : 1 ≤ width)
    (hmask : mask.length ≤ k * width) (text : List α) (skip : Nat)
    (hforms : ∀ form ∈ forms, form <:+: text → width ≤ form.length) :
    (substitute forms mask skip text).length ≤ k * (text.length - skip) := by
  induction text generalizing skip with
  | nil => simp [substitute]
  | cons c rest ih =>
    have hrest : ∀ form ∈ forms, form <:+: rest → width ≤ form.length := fun form hform hin =>
      hforms form hform (hin.trans (List.suffix_cons c rest).isInfix)
    cases skip with
    | succ skip =>
      have hlen := ih skip hrest
      rw [substitute, List.length_cons, show rest.length + 1 - (skip + 1) = rest.length - skip by omega]
      exact hlen
    | zero =>
    cases hfind : forms.find? fun form => form.isPrefixOf (c :: rest) with
    | none =>
      have hlen := ih 0 hrest
      have hmul : k * (rest.length + 1) = k * rest.length + k := Nat.mul_succ k _
      rw [substitute_none hfind, List.length_cons, List.length_cons, Nat.sub_zero]
      rw [Nat.sub_zero] at hlen
      omega
    | some form =>
      have hbegins := List.isPrefixOf_iff_prefix.mp
        (List.find?_some (p := fun form : List α => form.isPrefixOf (c :: rest)) hfind)
      have hlong := hforms form (List.mem_of_find?_eq_some hfind) hbegins.isInfix
      have hfits : form.length ≤ rest.length + 1 := hbegins.length_le
      have hlen := ih (form.length - 1) hrest
      have hmul : k * width ≤ k * form.length := Nat.mul_le_mul_left k hlong
      have hsplit : k * (rest.length + 1) = k * form.length + k * (rest.length - (form.length - 1)) := by
        rw [← Nat.mul_add]
        congr 1
        omega
      rw [substitute_some hfind, List.length_append, List.length_cons, Nat.sub_zero]
      omega

/-- No character that is left is itself a form. -/
theorem single_not_mem (hmask : occurs forms mask = false) (text : List α) (skip : Nat) :
    ∀ c ∈ substitute forms mask skip text, [c] ∉ forms := by
  have hmaskChars : ∀ c ∈ mask, [c] ∉ forms := by
    intro c hc hform
    have hoccurs : occurs forms mask = true :=
      occurs_iff.mpr ⟨[c], hform, (List.singleton_infix_iff c _).mpr hc⟩
    rw [hmask] at hoccurs
    cases hoccurs
  induction text generalizing skip with
  | nil => exact fun c hc => absurd hc List.not_mem_nil
  | cons d rest ih =>
    cases skip with
    | succ skip =>
      show ∀ c ∈ substitute forms mask skip rest, [c] ∉ forms
      exact ih skip
    | zero =>
    intro c hc
    cases hfind : forms.find? fun form => form.isPrefixOf (d :: rest) with
    | none =>
      rw [substitute_none hfind] at hc
      rcases List.mem_cons.mp hc with rfl | hc
      · intro hform
        exact List.find?_eq_none.mp hfind [c] hform
          (List.isPrefixOf_iff_prefix.mpr (List.prefix_append [c] rest))
      · exact ih 0 c hc
    | some form =>
      rw [substitute_some hfind] at hc
      rcases List.mem_append.mp hc with hc | hc
      · exact hmaskChars c hc
      · exact ih _ c hc

/-- After the first pass every form that occurs has two characters at least. -/
theorem length_passes (k : Nat) (hk : 1 ≤ k) (hlen : mask.length ≤ k * 2) (hne : [] ∉ forms)
    (hmask : occurs forms mask = false) (n : Nat) {text : List α} (hsingle : ∀ c ∈ text, [c] ∉ forms) :
    (passes forms mask n text).length ≤ k ^ n * text.length := by
  induction n generalizing text with
  | zero => simp [passes]
  | succ n ih =>
    have hwide : ∀ form ∈ forms, form <:+: text → 2 ≤ form.length := by
      intro form hform hin
      rcases form with _ | ⟨c, _ | ⟨d, rest⟩⟩
      · exact absurd hform hne
      · exact absurd hform (hsingle c ((List.singleton_infix_iff c _).mp hin))
      · simp
    have hpass := length_substitute k 2 hk (by decide) hlen text 0 hwide
    rw [Nat.sub_zero] at hpass
    have hpower : 1 ≤ k ^ n := Nat.one_le_pow n k hk
    have htotal : k ^ n * (substitute forms mask 0 text).length ≤ k ^ (n + 1) * text.length := by
      rw [Nat.pow_succ, Nat.mul_assoc]
      exact Nat.mul_le_mul_left _ hpass
    rw [passes]
    split
    · exact (ih (single_not_mem hmask text 0)).trans htotal
    · exact (Nat.le_mul_of_pos_left _ hpower).trans htotal

end Redaction
