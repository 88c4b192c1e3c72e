import HassNode.JsonLayout

/-!
# `json.loads` reads what `json.dumps` indents

A value that was written with an indent and encoded is read back as it was.
-/

namespace HassNode.Indent

open Py Py.JsonText ConfigMutation NodeApproval

/-! ## Strings -/

theorem indentChar_eq_esChar {c : CodePoint} (h : unencodable c = false) :
    indentChar c = esChar c := by
  have hlookup : asciiEscapes.lookup c = esEscapes.lookup c := by
    by_cases h92 : c = 92
    · rw [h92]
      rfl
    by_cases h34 : c = 34
    · rw [h34]
      rfl
    simp only [asciiEscapes, esEscapes, List.lookup_cons, beq_eq_false_iff_ne.mpr h92,
      beq_eq_false_iff_ne.mpr h34]
  unfold indentChar esChar
  rw [hlookup]
  cases esEscapes.lookup c with
  | some escape => rfl
  | none =>
    have hplain : ¬ (0xD800 ≤ c.val ∧ c.val ≤ 0xDFFF) := by
      simp only [unencodable, Bool.and_eq_false_iff, decide_eq_false_iff_not] at h
      omega
    simp only [or_iff_left hplain]

theorem indentChars_eq {s : PyStr} (h : ∀ c ∈ s, unencodable c = false) :
    s.flatMap indentChar = s.flatMap esChar := by
  induction s with
  | nil => rfl
  | cons c s ih =>
    rw [List.flatMap_cons, List.flatMap_cons, indentChar_eq_esChar (h c (.head _)),
      ih fun d hd => h d (.tail _ hd)]

theorem length_le_indentChars (s : PyStr) : s.length ≤ (s.flatMap indentChar).length := by
  induction s with
  | nil => exact Nat.le_refl 0
  | cons c s ih =>
    have hpos : 0 < (indentChar c).length := by
      unfold indentChar
      cases hfound : asciiEscapes.lookup c with
      | some escape =>
        have hfull : ∀ kv ∈ asciiEscapes, 0 < kv.2.length := by decide
        exact hfull (c, escape) (mem_of_lookup hfound)
      | none =>
        dsimp only
        split_ifs
        · rw [List.length_append]
          exact Nat.lt_of_lt_of_le (by decide : 0 < (py "\\u").length) (Nat.le_add_right _ _)
        · exact Nat.one_pos
    rw [List.flatMap_cons, List.length_append, List.length_cons]
    omega

/-- A text that was printed with its surrogates raw has none when it can be encoded. -/
theorem encodable_of_indentStr {s : PyStr} (h : ∀ c ∈ indentStr s, unencodable c = false) :
    ∀ c ∈ s, unencodable c = false := by
  intro c hc
  by_contra hsurrogate
  have hchar : indentChar c = [c] := by
    unfold indentChar
    have hval : 0xD800 ≤ c.val := by
      simp only [unencodable, Bool.not_eq_false, Bool.and_eq_true, decide_eq_true_eq] at hsurrogate
      exact hsurrogate.1
    have hnone : asciiEscapes.lookup c = none := by
      cases hfound : asciiEscapes.lookup c with
      | none => rfl
      | some escape =>
        have hsmall : ∀ kv ∈ asciiEscapes, kv.1.val < 0x80 := by decide
        have hlt : c.val < 0x80 := hsmall (c, escape) (mem_of_lookup hfound)
        omega
    rw [hnone]
    exact if_neg (by omega)
  refine hsurrogate (h c (.tail _ (List.mem_append_left _ (List.mem_flatMap.mpr ⟨c, hc, ?_⟩))))
  rw [hchar]
  exact .head _

/-! ## The layout -/

theorem skipWs_newline (level : Nat) (s : PyStr) : skipWs (newline level ++ s) = skipWs s := by
  have hspaces : ∀ n, skipWs (List.replicate n 32 ++ s) = skipWs s := by
    intro n
    induction n with
    | zero => rfl
    | succ n ih =>
      rw [List.replicate_succ, List.cons_append]
      exact (List.dropWhile_cons_of_pos (by decide)).trans ih
  unfold newline
  rw [List.cons_append]
  exact (List.dropWhile_cons_of_pos (by decide)).trans (hspaces _)

def indentLayout : Layout where
  body s := s.flatMap indentChar
  Readable s := ∀ c ∈ s, unencodable c = false
  length_le := length_le_indentChars
  scan := by
    intro s h rest fuel hfuel
    rw [indentChars_eq h]
    exact scanString_esChars (noPair_of_encodable h) rest hfuel
  afterOpen := newline
  afterComma := newline
  beforeClose := newline
  afterColon := [32]
  skip_open := skipWs_newline
  skip_comma := skipWs_newline
  skip_close := skipWs_newline
  skip_colon s := List.dropWhile_cons_of_pos (by decide)
  close_head level c hc := (Option.some.inj hc).symm

theorem indentText_eq (v : Json) : ∀ level, indentText level v = indentLayout.text level v := by
  induction v using Json.induction with
  | null => exact fun _ => rfl
  | bool b => exact fun _ => rfl
  | int i => exact fun _ => rfl
  | float x => exact fun _ => rfl
  | str s => exact fun _ => rfl
  | list items ih =>
    have hitems : ∀ us : List Json, us ⊆ items → ∀ level,
        indentItems level us = indentLayout.items level us := by
      intro us
      induction us with
      | nil => exact fun _ _ => rfl
      | cons u us ihu =>
        intro hsub level
        rw [indentItems, Layout.items, ih u (hsub (.head _)) level,
          ihu (fun w hw => hsub (.tail _ hw)) level]
        rfl
    intro level
    cases items with
    | nil => rfl
    | cons w items =>
      rw [indentText, Layout.text, ih w (.head _), hitems items (List.subset_cons_self _ _)]
      rfl
  | dict entries ih =>
    have hmembers : ∀ es : Dict, es ⊆ entries → ∀ level,
        indentMembers level es = indentLayout.members level es := by
      intro es
      induction es with
      | nil => exact fun _ _ => rfl
      | cons kw es ihe =>
        intro hsub level
        rw [indentMembers, Layout.members, ih kw (hsub (.head _)) level,
          ihe (fun w hw => hsub (.tail _ hw)) level]
        rfl
    intro level
    cases entries with
    | nil => rfl
    | cons kv entries =>
      rw [indentText, Layout.text, ih kv (.head _), hmembers entries (List.subset_cons_self _ _)]
      rfl

/-! ## Values -/

/-- A member of an object, as far as its value. -/
def memberText (level : Nat) (kv : PyStr × Json) : PyStr :=
  indentStr kv.1 ++ (py ": " ++ indentText level kv.2)

/-- The text of an item is a part of the text of its list. -/
theorem subset_items {level : Nat} {w : Json} {items : List Json} (h : w ∈ items) :
    indentText level w ⊆ indentItems level items := by
  induction h with
  | head rest =>
    intro c hc
    exact .tail _ (List.mem_append_right _ (List.mem_append_left _ hc))
  | tail v _ ih =>
    intro c hc
    exact .tail _ (List.mem_append_right _ (List.mem_append_right _ (ih hc)))

theorem subset_members {level : Nat} {kw : PyStr × Json} {entries : Dict} (h : kw ∈ entries) :
    memberText level kw ⊆ indentMembers level entries := by
  induction h with
  | head rest =>
    intro c hc
    have hshape : indentMembers level (kw :: rest) =
        44 :: (newline level ++ (memberText level kw ++ indentMembers level rest)) := by
      simp only [indentMembers, memberText, List.append_assoc]
    rw [hshape]
    exact .tail _ (List.mem_append_right _ (List.mem_append_left _ hc))
  | tail kv _ ih =>
    intro c hc
    exact .tail _ (List.mem_append_right _ (List.mem_append_right _
      (List.mem_append_right _ (List.mem_append_right _ (ih hc)))))

/-- A text that can be encoded was made of strings that can. -/
theorem readable_of_text (v : Json) : ∀ level, (∀ c ∈ indentText level v, unencodable c = false) →
    indentLayout.ReadableText v := by
  induction v using Json.induction with
  | null => exact fun _ _ => trivial
  | bool b => exact fun _ _ => trivial
  | int i => exact fun _ _ => trivial
  | float x => exact fun _ _ => trivial
  | str s => exact fun _ htext => encodable_of_indentStr htext
  | list items ih =>
    intro level htext
    refine Json.forall_list.mpr ⟨trivial, fun u hu => ih u hu (level + 1) fun c hc => htext c ?_⟩
    cases items with
    | nil => cases hu
    | cons w items =>
      have hbody : indentText level (.list (w :: items)) = 91 :: (newline (level + 1) ++
          (indentText (level + 1) w ++ (indentItems (level + 1) items ++ (newline level ++ [93])))) :=
        rfl
      rw [hbody]
      refine .tail _ (List.mem_append_right _ ?_)
      rcases List.mem_cons.mp hu with rfl | hu
      · exact List.mem_append_left _ hc
      · exact List.mem_append_right _ (List.mem_append_left _ (subset_items hu hc))
  | dict entries ih =>
    intro level htext
    have hmember : ∀ kw ∈ entries, ∀ c ∈ memberText (level + 1) kw, unencodable c = false := by
      intro kw hkw c hc
      refine htext c ?_
      cases entries with
      | nil => cases hkw
      | cons kv entries =>
        have hbody : indentText level (.dict (kv :: entries)) =
            123 :: (newline (level + 1) ++ (memberText (level + 1) kv ++
              (indentMembers (level + 1) entries ++ (newline level ++ [125])))) := by
          simp only [indentText, memberText, List.append_assoc]
        rw [hbody]
        refine .tail _ (List.mem_append_right _ ?_)
        rcases List.mem_cons.mp hkw with rfl | hkw
        · exact List.mem_append_left _ hc
        · exact List.mem_append_right _ (List.mem_append_left _ (subset_members hkw hc))
    refine Json.forall_dict.mpr ⟨?_, ?_⟩
    · intro kw hkw
      exact encodable_of_indentStr fun c hc => hmember kw hkw c (List.mem_append_left _ hc)
    · intro kw hkw
      exact ih kw hkw (level + 1) fun c hc =>
        hmember kw hkw c (List.mem_append_right _ (List.mem_append_right _ hc))

/-- `json.loads` of an indented document with a newline at its end. -/
theorem loads_indentText [Runtime] {v : Json} (hheld : Held v) {budget : Nat}
    (hroom : dumpsError budget v = none)
    (htext : ∀ c ∈ indentText 0 v, unencodable c = false) :
    loads budget (indentText 0 v ++ [10]) = .ok v := by
  have hstops : NumberText.StopsNumber [10] := by
    intro c hc
    exact .inr (.inr (.inr (Option.some.inj hc).symm))
  rw [indentText_eq v 0]
  exact Layout.loads_text hheld hroom (readable_of_text v 0 htext) hstops rfl

end HassNode.Indent
