import HassNode.Canonical

/-!
# The bound text determines the call

Two calls whose parameters hold integer numbers only and that bind the same text have the same
command, the same action and equal parameters once the reserved fields are removed.  Every part of
the text is shown to agree (`Printer.Agree`) with any other part that starts alike.
-/

namespace HassNode.ConfigMutation

open Py Printer

/-- No number of the value is a float. -/
def IntegerNumbers (v : Json) : Prop :=
  v.Forall fun
    | .float _ => False
    | _ => True

/-- What follows a value inside the canonical text of another one. -/
def Follows (c : CodePoint) : Prop := c = 44 ∨ c = 93 ∨ c = 125

/-! ## Strings -/

theorem hexDigits_four_inj {m n : Nat} {s t : PyStr} (hm : m < 0x10000) (hn : n < 0x10000)
    (h : hexDigits 4 m ++ s = hexDigits 4 n ++ t) : m = n ∧ s = t := by
  simp only [hexDigits_four, List.cons_append, List.nil_append, List.cons.injEq] at h
  obtain ⟨h3, h2, h1, h0, hst⟩ := h
  have e3 := hexDigit_inj (by omega) (by omega) h3
  have e2 := hexDigit_inj (by omega) (by omega) h2
  have e1 := hexDigit_inj (by omega) (by omega) h1
  have e0 := hexDigit_inj (by omega) (by omega) h0
  exact ⟨by omega, hst⟩

theorem esChar_prefixFree : PrefixFree esChar := by
  intro a b s t h
  rcases esChar_cases a with ⟨ha, ha1, ha2, -⟩ | ⟨e, ha, he, hea⟩ | ⟨ha, hav⟩ <;>
    rcases esChar_cases b with ⟨hb, hb1, hb2, -⟩ | ⟨f, hb, hf, hfb⟩ | ⟨hb, hbv⟩ <;>
    rw [ha, hb] at h <;>
    simp only [List.cons_append, List.nil_append, List.cons.injEq, true_and] at h
  · exact h
  · exact absurd h.1 ha2
  · exact absurd h.1 ha2
  · exact absurd h.1.symm hb2
  · obtain ⟨rfl, hst⟩ := h
    rw [hea, Option.some.injEq] at hfb
    exact ⟨hfb, hst⟩
  · exact absurd h.1 he
  · exact absurd h.1.symm hb2
  · exact absurd h.1.symm hf
  · have hval := hexDigits_four_inj hav hbv h
    exact ⟨Fin.ext hval.1, hval.2⟩

theorem esChar_ne_quote (c : CodePoint) (s t : PyStr) : esChar c ++ s ≠ 34 :: t := by
  intro h
  rcases esChar_cases c with ⟨hc, h1, _⟩ | ⟨e, hc, _⟩ | ⟨hc, _⟩ <;>
    rw [hc] at h <;>
    simp only [List.cons_append, List.nil_append, List.cons.injEq] at h
  · exact h1 h.1
  · exact absurd h.1 (by decide)
  · exact absurd h.1 (by decide)

theorem esString_agree (D : CodePoint → Prop) (s t : PyStr) :
    Agree D (s = t) (esString s) (esString t) :=
  (agree_codes esChar_prefixFree esChar_ne_quote D s t).cons 34

/-! ## Integers -/

/-- A character of a printed integer. -/
def isIntChar (c : CodePoint) : Bool := c = 45 || (digitOf? c).isSome

theorem intStr_isIntChar (i : Int) : ∀ c ∈ intStr i, isIntChar c = true := by
  intro c hc
  obtain ⟨ds, -, hds, -⟩ := natStr_eq i.natAbs
  rw [intStr, List.mem_append, hds] at hc
  rcases hc with hc | hc
  · by_cases hi : i < 0
    · rw [if_pos hi, List.mem_singleton] at hc
      subst hc
      decide
    · rw [if_neg hi] at hc
      cases hc
  · obtain ⟨d, -, rfl⟩ := List.mem_map.mp hc
    simp [isIntChar, digitOf?_digit]

theorem follows_not_isIntChar (c : CodePoint) (hc : Follows c) : isIntChar c = false := by
  rcases hc with rfl | rfl | rfl <;> decide

theorem intStr_agree (i j : Int) : Agree Follows (i = j) (intStr i) (intStr j) :=
  ((agree_run (intStr_isIntChar i) (intStr_isIntChar j)).mono follows_not_isIntChar).imp intStr_inj

/-! ## Values -/

/-- The kind of value that starts with a symbol. -/
def headKind (c : CodePoint) : Nat :=
  if c = 123 then 6 else if c = 91 then 5 else if c = 34 then 4 else if c = 110 then 0
  else if c = 116 ∨ c = 102 then 1 else 2

def kind : Json → Nat
  | .null => 0
  | .bool _ => 1
  | .int _ => 2
  | .float _ => 3
  | .str _ => 4
  | .list _ => 5
  | .dict _ => 6

theorem headKind_digit (d : Fin 10) : headKind (digit d) = 2 := by
  revert d
  decide

theorem canonical_head (v : Json) (hv : IntegerNumbers v) :
    ∃ c rest, canonical v = c :: rest ∧ headKind c = kind v := by
  cases v with
  | null => exact ⟨_, _, rfl, by decide⟩
  | bool b =>
    cases b with
    | false => exact ⟨_, _, rfl, by decide⟩
    | true => exact ⟨_, _, rfl, by decide⟩
  | int i =>
    obtain ⟨d, r, hd⟩ := natStr_head i.natAbs
    by_cases hi : i < 0
    · exact ⟨45, natStr i.natAbs, by rw [canonical, intStr, if_pos hi]; rfl, rfl⟩
    · exact ⟨digit d, r, by rw [canonical, intStr, if_neg hi, hd]; rfl, headKind_digit d⟩
  | float x => exact hv.elim
  | str s => exact ⟨_, _, rfl, rfl⟩
  | list items => exact ⟨_, _, rfl, rfl⟩
  | dict entries => exact ⟨_, _, rfl, rfl⟩

/-- Values of different kinds start differently. -/
theorem agree_of_kind_ne {v w : Json} (hv : IntegerNumbers v) (hw : IntegerNumbers w)
    (h : kind v ≠ kind w) (R : Prop) : Agree Follows R (canonical v) (canonical w) := by
  obtain ⟨c, r, hc, hck⟩ := canonical_head v hv
  obtain ⟨c', r', hc', hck'⟩ := canonical_head w hw
  rw [hc, hc']
  exact Agree.of_head_ne fun heq => h (by rw [← hck, ← hck', heq])

theorem canonical_not_close (v : Json) (hv : IntegerNumbers v) :
    ∃ c rest, canonical v = c :: rest ∧ c ≠ 93 := by
  obtain ⟨c, r, hc, hck⟩ := canonical_head v hv
  refine ⟨c, r, hc, ?_⟩
  rintro rfl
  cases v with
  | float x => exact hv.elim
  | int i =>
    have hall := intStr_isIntChar i 93 (by rw [show intStr i = 93 :: r from hc]; exact .head _)
    exact absurd hall (by decide)
  | _ => exact absurd hck (by simp only [kind]; decide)

theorem exists_of_forall₂ {α β : Type} {R : α → β → Prop} {as : List α} {bs : List β}
    (h : List.Forall₂ R as bs) {a : α} (ha : a ∈ as) : ∃ b ∈ bs, R a b := by
  induction h with
  | nil => cases ha
  | cons hab _ ih =>
    rcases List.mem_cons.mp ha with rfl | ha
    · exact ⟨_, .head _, hab⟩
    · obtain ⟨b, hb, hR⟩ := ih ha
      exact ⟨b, .tail _ hb, hR⟩

theorem same_dict {entries others : Dict} (hothers : (Dict.keys others).Nodup)
    (h : List.Forall₂ (fun kv kw => kv.1 = kw.1 ∧ kv.2.same kw.2 = true)
      (sortedEntries entries) (sortedEntries others)) :
    (Json.dict entries).same (.dict others) = true := by
  have hlen : entries.length = others.length := by
    have hsorted := h.length_eq
    rwa [sortedEntries, sortedEntries, List.length_insertionSort, List.length_insertionSort]
      at hsorted
  rw [Json.same, decide_eq_true hlen, Bool.true_and, Json.sameDict_iff]
  intro kv hkv
  obtain ⟨kw, hkw, hkey, hsame⟩ := exists_of_forall₂ h (mem_sortedEntries.mpr hkv)
  rw [mem_sortedEntries] at hkw
  exact ⟨kw.2, hkey ▸ Dict.get?_of_mem hothers hkw, hsame⟩

/-- Canonical texts that start alike are texts of equal values. -/
theorem canonical_agree (v : Json) : ∀ w, IntegerNumbers v → IntegerNumbers w →
    w.DistinctKeys → Agree Follows (v.same w = true) (canonical v) (canonical w) := by
  -- values of different kinds start differently; within a kind the texts are compared part by part
  induction v using Json.induction with
  | null =>
    intro w hv hw _
    cases w with
    | null => exact (Agree.refl _).imp fun _ => rfl
    | _ => exact agree_of_kind_ne hv hw (by simp [kind]) _
  | bool a =>
    intro w hv hw _
    cases w with
    | bool b =>
      cases a <;> cases b
      · exact (Agree.refl _).imp fun _ => rfl
      · exact Agree.of_head_ne (by decide)
      · exact Agree.of_head_ne (by decide)
      · exact (Agree.refl _).imp fun _ => rfl
    | _ => exact agree_of_kind_ne hv hw (by simp [kind]) _
  | int i =>
    intro w hv hw _
    cases w with
    | int j => exact (intStr_agree i j).imp fun h => by simpa [Json.same] using h
    | _ => exact agree_of_kind_ne hv hw (by simp [kind]) _
  | float x => exact fun w hv => hv.elim
  | str s =>
    intro w hv hw _
    cases w with
    | str t => exact (esString_agree Follows s t).imp fun h => by simpa [Json.same] using h
    | _ => exact agree_of_kind_ne hv hw (by simp [kind]) _
  | list items ih =>
    intro w hv hw hdist
    cases w with
    | list others =>
      have hitems := (Json.forall_list.mp hv).2
      have hothers := (Json.forall_list.mp hw).2
      have hkeys := (Json.forall_list.mp hdist).2
      rw [canonical, canonical, canonicalList_eq_map, canonicalList_eq_map]
      refine Agree.cons 91 ((agree_sepBy (by decide) (.inl rfl) (.inr (.inl rfl)) Follows items
        others (fun a ha b hb => ih a ha b (hitems a ha) (hothers b hb) (hkeys b hb))
        (fun a ha => canonical_not_close a (hitems a ha))
        (fun b hb => canonical_not_close b (hothers b hb))).imp ?_)
      exact Json.sameList_of_forall₂
    | _ => exact agree_of_kind_ne hv hw (by simp [kind]) _
  | dict entries ih =>
    intro w hv hw hdist
    cases w with
    | dict others =>
      have hentries := (Json.forall_dict.mp hv).2
      have hothers := (Json.forall_dict.mp hw).2
      have hkeys := Json.forall_dict.mp hdist
      -- a member is its key, the colon and its value
      have hmember : ∀ kv ∈ sortedEntries entries, ∀ kw ∈ sortedEntries others,
          Agree Follows (kv.1 = kw.1 ∧ kv.2.same kw.2 = true) (member kv) (member kw) := by
        intro kv hkv kw hkw
        rw [mem_sortedEntries] at hkv hkw
        have hvalue := ih kv hkv kw.2 (hentries kv hkv) (hothers kw hkw) (hkeys.2 kw hkw)
        have hany : ∀ s : PyStr, EndsAt (fun _ => True) s := fun s c _ => trivial
        exact (esString_agree (fun _ => True) kv.1 kw.1).append (fun _ _ => hany _)
          (fun _ _ => hany _) (hvalue.cons 58)
      have hquote : ∀ kv : PyStr × Json, ∃ c rest, member kv = c :: rest ∧ c ≠ 125 :=
        fun kv => ⟨34, _, rfl, by decide⟩
      rw [canonical, canonical, canonicalMembers_eq, canonicalMembers_eq]
      refine Agree.cons 123 ((agree_sepBy (by decide) (.inl rfl) (.inr (.inr rfl)) Follows
        (sortedEntries entries) (sortedEntries others) hmember (fun kv _ => hquote kv)
        (fun kv _ => hquote kv)).imp ?_)
      exact same_dict hkeys.1
    | _ => exact agree_of_kind_ne hv hw (by simp [kind]) _

/-! ## Calls -/

/-- The command, the action and the parameters without their reserved fields are the same. -/
def SameCall (command action : PyStr) (params : Dict) (command' action' : PyStr)
    (params' : Dict) : Prop :=
  command = command' ∧ action = action' ∧
    (Json.dict (unreserved params)).same (.dict (unreserved params')) = true

theorem integerNumbers_unreserved {params : Dict} (h : IntegerNumbers (.dict params)) :
    IntegerNumbers (.dict (unreserved params)) := by
  have hall := (Json.forall_dict.mp h).2
  exact Json.forall_dict.mpr ⟨trivial, fun kv hkv => hall kv (List.mem_of_mem_filter hkv)⟩

theorem distinctKeys_unreserved {params : Dict} (h : (Json.dict params).DistinctKeys) :
    (Json.dict (unreserved params)).DistinctKeys := by
  have hall := Json.forall_dict.mp h
  refine Json.forall_dict.mpr ⟨?_, fun kv hkv => hall.2 kv (List.mem_of_mem_filter hkv)⟩
  exact hall.1.sublist (List.filter_sublist.map Prod.fst)

theorem sameCall_of_text {command action command' action' : PyStr} {params params' : Dict}
    (hint : IntegerNumbers (.dict params)) (hint' : IntegerNumbers (.dict params'))
    (hkeys' : (Json.dict params').DistinctKeys)
    (h : approvalText command action params = approvalText command' action' params') :
    SameCall command action params command' action' params' := by
  have hnumbers : ∀ {c a : PyStr} {p : Dict}, IntegerNumbers (.dict p) →
      IntegerNumbers (obj [("command", .str c), ("action", .str a),
        ("params", .dict (unreserved p))]) := by
    intro c a p hp
    have hp' := integerNumbers_unreserved hp
    simpa [IntegerNumbers, obj, Json.Forall] using hp'
  have hdistinct : (obj [("command", .str command'), ("action", .str action'),
      ("params", .dict (unreserved params'))]).DistinctKeys := by
    have hp' := distinctKeys_unreserved hkeys'
    simpa [Json.DistinctKeys, obj, Json.Forall, Dict.keys] using hp'
  have hsame := (canonical_agree _ _ (hnumbers hint) (hnumbers hint') hdistinct).of_eq h
  simpa [obj, Json.same, Json.sameDict, Dict.get?_cons, SameCall] using hsame

/-- Calls that bind the same text, or the same digest when the two texts do not collide under
SHA-256, are the same call. -/
theorem approvalBind_injective [Runtime] (command action command' action' : PyStr)
    (params params' : Dict)
    (hint : IntegerNumbers (.dict params)) (hint' : IntegerNumbers (.dict params'))
    (hkeys' : (Json.dict params').DistinctKeys) :
    (approvalText command action params = approvalText command' action' params' →
      SameCall command action params command' action' params') ∧
    ((Runtime.sha256 (approvalText command action params) =
        Runtime.sha256 (approvalText command' action' params') →
        approvalText command action params = approvalText command' action' params') →
      approvalBind command action params = approvalBind command' action' params' →
      SameCall command action params command' action' params') := by
  have htext : approvalText command action params = approvalText command' action' params' →
      SameCall command action params command' action' params' :=
    sameCall_of_text hint hint' hkeys'
  exact ⟨htext, fun hcollision hbind => htext (hcollision hbind)⟩

/-- Parameters that differ in the order of keys and in a reserved field. -/
theorem approvalBind_injective_helper :
    let params : Dict := [(py "name", .str (py "Door")), (py "count", .int (-3))]
    let params' : Dict := [(py "count", .int (-3)), (py "_openclaw_caller", .null),
      (py "name", .str (py "Door"))]
    SameCall (py "ha.config.helpers") (py "create") params (py "ha.config.helpers") (py "create")
      params' := by
  intro params params'
  have htext : approvalText (py "ha.config.helpers") (py "create") params =
      approvalText (py "ha.config.helpers") (py "create") params' := by decide
  have hint : IntegerNumbers (.dict params) := by simp [params, IntegerNumbers, Json.Forall, Json.ForallDict]
  have hint' : IntegerNumbers (.dict params') := by simp [params', IntegerNumbers, Json.Forall, Json.ForallDict]
  have hkeys' : (Json.dict params').DistinctKeys := by
    simp [params', Json.DistinctKeys, Json.Forall, Json.ForallDict, Dict.keys]
  have _ : Runtime := Runtime.ofTable []
  exact (approvalBind_injective (py "ha.config.helpers") (py "create") (py "ha.config.helpers")
    (py "create") params params' hint hint' hkeys').1 htext

end HassNode.ConfigMutation
