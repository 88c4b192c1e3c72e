import HassNode.CompactRoundTrip

/-!
# Split surrogate pairs

The escapes of `json.dumps` do not tell a character past the first plane from its two surrogates, so
JSON carries a string up to the joining of such pairs; and a string that was read from JSON holds none.
-/

namespace HassNode.Surrogates

open Py Py.JsonText Js NodeApproval Indent Compact

abbrev Unsplit (s : PyStr) : Prop := s.IsChain NoPair

/-! ## Joining -/

/-- The character of two surrogates. -/
def joined (c d : CodePoint) : CodePoint :=
  ofNat (0x10000 + (c.val - 0xD800) * 1024 + (d.val - 0xDC00))

/-- Every high surrogate that stands before a low one is joined with it. -/
def joinPairs : PyStr → PyStr
  | c :: d :: rest =>
    if isHigh c.val && isLow d.val then joined c d :: joinPairs rest else c :: joinPairs (d :: rest)
  | s => s

theorem isHigh_iff {n : Nat} : isHigh n = true ↔ 0xD800 ≤ n ∧ n ≤ 0xDBFF := by
  simp [isHigh]

theorem isLow_iff {n : Nat} : isLow n = true ↔ 0xDC00 ≤ n ∧ n ≤ 0xDFFF := by
  simp [isLow]

theorem joined_val {c d : CodePoint} (hc : isHigh c.val = true) (hd : isLow d.val = true) :
    (joined c d).val = 0x10000 + (c.val - 0xD800) * 1024 + (d.val - 0xDC00) := by
  rw [isHigh_iff] at hc
  rw [isLow_iff] at hd
  show (0x10000 + (c.val - 0xD800) * 1024 + (d.val - 0xDC00)) % 0x110000 = _
  omega

theorem unescape_lt {e c : CodePoint} (h : unescape? e = some c) : c.val < 0x80 := by
  have hmem := mem_of_lookup h
  simp only [List.mem_cons, Prod.mk.injEq, List.not_mem_nil, or_false] at hmem
  rcases hmem with ⟨-, rfl⟩ | ⟨-, rfl⟩ | ⟨-, rfl⟩ | ⟨-, rfl⟩ | ⟨-, rfl⟩ | ⟨-, rfl⟩ | ⟨-, rfl⟩ | ⟨-, rfl⟩ <;>
    decide

/-- A surrogate is printed as an escape. -/
theorem dumpsChar_surrogate {c : CodePoint} (hc : isHigh c.val = true ∨ isLow c.val = true) :
    dumpsChar c = 92 :: 117 :: hexDigits 4 c.val := by
  rw [isHigh_iff, isLow_iff] at hc
  rcases dumpsChar_cases c with ⟨-, -, -, -, hle⟩ | ⟨e, -, -, -, -, hunescape⟩ | ⟨heq, -⟩ | ⟨-, hge⟩
  · omega
  · have hlt := unescape_lt hunescape
    omega
  · exact heq
  · omega

/-- The two halves are printed as the character that they make. -/
theorem dumpsChar_joined {c d : CodePoint} (hc : isHigh c.val = true) (hd : isLow d.val = true) :
    dumpsChar (joined c d) = dumpsChar c ++ dumpsChar d := by
  have hval := joined_val hc hd
  rw [dumpsChar_surrogate (.inl hc), dumpsChar_surrogate (.inr hd)]
  rw [isHigh_iff] at hc
  rw [isLow_iff] at hd
  have hhigh : 0xD800 + ((joined c d).val - 0x10000) / 1024 % 1024 = c.val := by omega
  have hlow : 0xDC00 + ((joined c d).val - 0x10000) % 1024 = d.val := by omega
  rcases dumpsChar_cases (joined c d) with ⟨-, -, -, -, hle⟩ | ⟨e, -, -, -, -, hunescape⟩ |
    ⟨-, hlt⟩ | ⟨heq, -⟩
  · omega
  · have hlt := unescape_lt hunescape
    omega
  · omega
  · rw [heq, hhigh, hlow]
    rfl

theorem dumpsStr_joinPairs (s : PyStr) : dumpsStr (joinPairs s) = dumpsStr s := by
  have hchars : (joinPairs s).flatMap dumpsChar = s.flatMap dumpsChar := by
    fun_induction joinPairs s with
    | case1 c d rest hpair ih =>
      rw [Bool.and_eq_true] at hpair
      rw [List.flatMap_cons, List.flatMap_cons, List.flatMap_cons, ih,
        dumpsChar_joined hpair.1 hpair.2, List.append_assoc]
    | case2 c d rest hpair ih => rw [List.flatMap_cons, ih, ← List.flatMap_cons]
    | case3 s hs => rfl
  rw [dumpsStr, hchars]
  rfl

theorem joinPairs_head {c : CodePoint} {rest : PyStr} :
    ∀ d ∈ (joinPairs (c :: rest)).head?, isLow d.val = true → d = c := by
  intro d hd hlow
  cases rest with
  | nil => exact (Option.some.inj hd).symm
  | cons e rest =>
    rw [joinPairs] at hd
    by_cases hpair : (isHigh c.val && isLow e.val) = true
    · rw [if_pos hpair] at hd
      rw [Bool.and_eq_true] at hpair
      have hval := joined_val hpair.1 hpair.2
      rw [← Option.some.inj hd, isLow_iff] at hlow
      omega
    · rw [if_neg hpair] at hd
      exact (Option.some.inj hd).symm

theorem unsplit_joinPairs (s : PyStr) : Unsplit (joinPairs s) := by
  fun_induction joinPairs s with
  | case1 c d rest hpair ih =>
    rw [Bool.and_eq_true] at hpair
    have hval := joined_val hpair.1 hpair.2
    apply List.isChain_cons.mpr
    constructor
    · intro e _ hnext
      rw [isHigh_iff] at hnext
      omega
    · exact ih
  | case2 c d rest hpair ih =>
    apply List.isChain_cons.mpr
    constructor
    · intro e he hnext
      have heq := joinPairs_head e he hnext.2
      rw [heq] at hnext
      exact hpair (Bool.and_eq_true _ _ ▸ hnext)
    · exact ih
  | case3 s hs =>
    cases s with
    | nil => exact .nil
    | cons c rest =>
      cases rest with
      | nil => exact .singleton c
      | cons d rest => exact absurd rfl (hs c d rest)

theorem unsplit_strip {s : PyStr} (h : Unsplit s) : Unsplit (strip s) := by
  have hinfix : Py.strip s <:+: s :=
    (List.rdropWhile_prefix _ _).isInfix.trans (List.dropWhile_suffix _).isInfix
  exact List.IsChain.infix h hinfix

theorem joinPairs_of_unsplit {s : PyStr} (h : Unsplit s) : joinPairs s = s := by
  fun_induction joinPairs s with
  | case1 c d rest hpair ih =>
    have hno := (List.isChain_cons_cons.mp h).1
    rw [Bool.and_eq_true] at hpair
    exact absurd hpair hno
  | case2 c d rest hpair ih => rw [ih (List.isChain_cons_cons.mp h).2]
  | case3 s hs => rfl

/-! ## Values -/

mutual

/-- The value with the pairs of its strings joined; keys stay. -/
def joinValue : Json → Json
  | .str s => .str (joinPairs s)
  | .list items => .list (joinValues items)
  | .dict entries => .dict (joinEntries entries)
  | v => v

def joinValues : List Json → List Json
  | [] => []
  | v :: rest => joinValue v :: joinValues rest

def joinEntries : List (PyStr × Json) → List (PyStr × Json)
  | [] => []
  | (k, v) :: rest => (k, joinValue v) :: joinEntries rest

end

theorem joinValues_eq_map (items : List Json) : joinValues items = items.map joinValue := by
  induction items with
  | nil => rfl
  | cons v items ih => rw [joinValues, ih, List.map_cons]

theorem joinEntries_eq_map (entries : Dict) :
    joinEntries entries = entries.map fun kv => (kv.1, joinValue kv.2) := by
  induction entries with
  | nil => rfl
  | cons kv entries ih => rw [joinEntries, ih, List.map_cons]

/-- A layout with ASCII escapes prints the joined value alike. -/
theorem text_joinValue {L : Layout} (hbody : L.body = compactLayout.body) (v : Json) :
    ∀ level, L.text level (joinValue v) = L.text level v := by
  have hstr : ∀ s, L.str (joinPairs s) = L.str s := by
    intro s
    unfold Layout.str
    rw [hbody]
    exact dumpsStr_joinPairs s
  induction v using Json.induction with
  | null => exact fun _ => rfl
  | bool b => exact fun _ => rfl
  | int i => exact fun _ => rfl
  | float x => exact fun _ => rfl
  | str s => exact fun _ => hstr s
  | list items ih =>
    have hitems : ∀ us : List Json, us ⊆ items → ∀ level,
        L.items level (joinValues us) = L.items level us := by
      intro us
      induction us with
      | nil => exact fun _ _ => rfl
      | cons u us ihu =>
        intro hsub level
        rw [joinValues, Layout.items, Layout.items, ih u (hsub (.head _)) level,
          ihu (fun w hw => hsub (.tail _ hw)) level]
    intro level
    cases items with
    | nil => rfl
    | cons v items =>
      rw [joinValue, joinValues, Layout.text, Layout.text, ih v (.head _) (level + 1),
        hitems items (List.subset_cons_self _ _) (level + 1)]
  | dict entries ih =>
    have hmembers : ∀ es : Dict, es ⊆ entries → ∀ level,
        L.members level (joinEntries es) = L.members level es := by
      intro es
      induction es with
      | nil => exact fun _ _ => rfl
      | cons kv es ihe =>
        intro hsub level
        rw [joinEntries, Layout.members, Layout.members, ih kv (hsub (.head _)) level,
          ihe (fun w hw => hsub (.tail _ hw)) level]
    intro level
    cases entries with
    | nil => rfl
    | cons kv entries =>
      rw [joinValue, joinEntries, Layout.text, Layout.text, ih kv (.head _) (level + 1),
        hmembers entries (List.subset_cons_self _ _) (level + 1)]

theorem compactText_joinValue (v : Json) : compactText (joinValue v) = compactText v := by
  rw [inline_compactText.text_eq _ 0, inline_compactText.text_eq v 0]
  exact text_joinValue rfl v 0

theorem dumpsText_joinValue (v : Json) : dumpsText (joinValue v) = dumpsText v := by
  have hbody : spacedLayout.body = compactLayout.body := rfl
  rw [inline_dumpsText.text_eq _ 0, inline_dumpsText.text_eq v 0]
  exact text_joinValue hbody v 0

/-- Every key of the value is ASCII. -/
def AsciiKeys (v : Json) : Prop :=
  v.Forall fun
    | .dict entries => ∀ kv ∈ entries, Ascii kv.1
    | _ => True

theorem unpaired_joinValue (v : Json) (h : AsciiKeys v) : Unpaired (joinValue v) := by
  induction v using Json.induction with
  | str s => exact unsplit_joinPairs s
  | list items ih =>
    rw [joinValue, joinValues_eq_map]
    apply Json.forall_list.mpr
    constructor
    · trivial
    · intro w hw
      obtain ⟨v, hv, rfl⟩ := List.mem_map.mp hw
      exact ih v hv ((Json.forall_list.mp h).2 v hv)
  | dict entries ih =>
    have hkeys := Json.forall_dict.mp h
    rw [joinValue, joinEntries_eq_map]
    apply Json.forall_dict.mpr
    constructor
    · intro kw hkw
      obtain ⟨kv, hkv, rfl⟩ := List.mem_map.mp hkw
      exact noPair_of_ascii (hkeys.1 kv hkv)
    · intro kw hkw
      obtain ⟨kv, hkv, rfl⟩ := List.mem_map.mp hkw
      exact ih kv hkv (hkeys.2 kv hkv)
  | _ => trivial

theorem held_joinValue [Runtime] (v : Json) (h : Held v) : Held (joinValue v) := by
  induction v using Json.induction with
  | float x => exact h
  | list items ih =>
    rw [joinValue, joinValues_eq_map]
    apply Json.forall_list.mpr
    constructor
    · trivial
    · intro w hw
      obtain ⟨v, hv, rfl⟩ := List.mem_map.mp hw
      exact ih v hv ((Json.forall_list.mp h).2 v hv)
  | dict entries ih =>
    have hkeys := Json.forall_dict.mp h
    rw [joinValue, joinEntries_eq_map]
    apply Json.forall_dict.mpr
    constructor
    · show ((entries.map fun kv => (kv.1, joinValue kv.2)).map Prod.fst).Nodup
      rw [List.map_map]
      exact hkeys.1
    · intro kw hkw
      obtain ⟨kv, hkv, rfl⟩ := List.mem_map.mp hkw
      exact ih kv hkv (hkeys.2 kv hkv)
  | _ => trivial

theorem dumpsError_joinValue (v : Json) : ∀ room, dumpsError room (joinValue v) = dumpsError room v := by
  induction v using Json.induction with
  | list items ih =>
    have hitems : ∀ us : List Json, us ⊆ items → ∀ room,
        dumpsErrorList room (joinValues us) = dumpsErrorList room us := by
      intro us
      induction us with
      | nil => exact fun _ _ => rfl
      | cons u us ihu =>
        intro hsub room
        rw [joinValues, dumpsErrorList, dumpsErrorList, ih u (hsub (.head _)),
          ihu (fun w hw => hsub (.tail _ hw))]
    intro room
    rw [joinValue, dumpsError, dumpsError, hitems items (List.Subset.refl _)]
  | dict entries ih =>
    have hentries : ∀ es : Dict, es ⊆ entries → ∀ room,
        dumpsErrorDict room (joinEntries es) = dumpsErrorDict room es := by
      intro es
      induction es with
      | nil => exact fun _ _ => rfl
      | cons kv es ihe =>
        intro hsub room
        rw [joinEntries, dumpsErrorDict, dumpsErrorDict, ih kv (hsub (.head _)),
          ihe (fun w hw => hsub (.tail _ hw))]
    intro room
    rw [joinValue, dumpsError, dumpsError, hentries entries (List.Subset.refl _)]
  | _ => exact fun _ => rfl

/-- `json.loads(json.dumps(v))` joins the pairs of the strings. -/
theorem loads_dumpsText_join [Runtime] {v : Json} (hheld : Held v) (hkeys : AsciiKeys v) {budget : Nat}
    (hroom : dumpsError budget v = none) : loads budget (dumpsText v) = .ok (joinValue v) := by
  rw [← dumpsText_joinValue v]
  exact loads_dumpsText (held_joinValue v hheld) ((dumpsError_joinValue v budget).trans hroom)
    (unpaired_joinValue v hkeys)

/-- Values that print alike are the same up to the pairs of their strings. -/
theorem joinValue_eq_of_compactText [Runtime] {v w : Json} (hv : Held v) (hw : Held w)
    (hkeysV : AsciiKeys v) (hkeysW : AsciiKeys w) {budget : Nat} (hroomV : dumpsError budget v = none)
    (hroomW : dumpsError budget w = none) (h : compactText v = compactText w) :
    joinValue v = joinValue w := by
  have hreadV := loads_compactText (held_joinValue v hv) ((dumpsError_joinValue v budget).trans hroomV)
    (unpaired_joinValue v hkeysV) (.inl rfl)
  have hreadW := loads_compactText (held_joinValue w hw) ((dumpsError_joinValue w budget).trans hroomW)
    (unpaired_joinValue w hkeysW) (.inl rfl)
  rw [compactText_joinValue, h] at hreadV
  rw [compactText_joinValue, hreadV, Except.ok.injEq] at hreadW
  exact hreadW

/-! ## What is read holds no split pair

The text is decoded from bytes, so a surrogate comes from an escape only. -/

abbrev Decoded (s : PyStr) : Prop := ∀ c ∈ s, unencodable c = false

theorem Decoded.suffix {s t : PyStr} (hs : Decoded s) (h : t <:+ s) : Decoded t :=
  fun c hc => hs c (h.subset hc)

theorem decodeChar_encodable {raw rest : List Nat} {c : CodePoint}
    (h : decodeChar raw = some (c, rest)) : unencodable c = false := by
  have hval : ∀ n, n < 0x110000 → ¬ (0xD800 ≤ n ∧ n < 0xE000) →
      unencodable (Fin.ofNat 0x110000 n) = false := by
    intro n hlt hn
    have hmod : (Fin.ofNat 0x110000 n).val = n := Nat.mod_eq_of_lt hlt
    rw [unencodable, hmod, Bool.and_eq_false_iff, decide_eq_false_iff_not, decide_eq_false_iff_not]
    omega
  cases raw with
  | nil => cases h
  | cons b tail =>
    unfold decodeChar at h
    dsimp only at h
    split_ifs at h with hone htwo hthree hfour
    · rw [← (Prod.mk.inj (Option.some.inj h)).1]
      exact hval b (by omega) (by omega)
    · split at h
      · split_ifs at h with hcont
        simp only [isContinuation, Bool.and_eq_true, decide_eq_true_eq] at hcont
        rw [← (Prod.mk.inj (Option.some.inj h)).1]
        exact hval _ (by omega) (by omega)
      · cases h
    · split at h
      · split_ifs at h with hcont
        rw [← (Prod.mk.inj (Option.some.inj h)).1]
        simp only [isContinuation, Bool.and_eq_true, decide_eq_true_eq] at hcont
        exact hval _ (by omega) hcont.2.2.2
      · cases h
    · split at h
      · split_ifs at h with hcont
        rw [← (Prod.mk.inj (Option.some.inj h)).1]
        exact hval _ hcont.2.2.2.2 (by omega)
      · cases h

theorem decoded_of_decodeUtf8 {raw : List Nat} {text : PyStr} (h : decodeUtf8 raw = some text) :
    Decoded text := by
  unfold decodeUtf8 at h
  generalize raw.length = fuel at h
  induction fuel generalizing raw text with
  | zero =>
    cases raw with
    | nil =>
      rw [← Option.some.inj h]
      exact nofun
    | cons b raw => cases h
  | succ fuel ih =>
    cases raw with
    | nil =>
      rw [← Option.some.inj h]
      exact nofun
    | cons b raw =>
      obtain ⟨read, hread, h⟩ := Option.bind_eq_some_iff.mp h
      obtain ⟨tail, htail, h⟩ := Option.bind_eq_some_iff.mp h
      rw [← Option.some.inj h]
      intro c hc
      rcases List.mem_cons.mp hc with rfl | hc
      · exact decodeChar_encodable hread
      · exact ih htail c hc

theorem not_surrogate {c : CodePoint} (h : unencodable c = false) :
    isHigh c.val = false ∧ isLow c.val = false := by
  have hc : ¬ (0xD800 ≤ c.val ∧ c.val < 0xE000) := by
    intro hrange
    rw [unencodable, Bool.and_eq_false_iff, decide_eq_false_iff_not, decide_eq_false_iff_not] at h
    omega
  rw [Bool.eq_false_iff, Bool.eq_false_iff, ne_eq, ne_eq, isHigh_iff, isLow_iff]
  omega

theorem hexVal?_lt {c : CodePoint} {n : Nat} (h : hexVal? c = some n) : n < 16 := by
  unfold hexVal? at h
  split_ifs at h <;> rw [Option.some.injEq] at h <;> omega

theorem hex4_some {s rest : PyStr} {n : Nat} (h : hex4 s = some (n, rest)) :
    n < 0x10000 ∧ rest <:+ s := by
  match s, h with
  | a :: b :: c :: d :: tail, h =>
    rw [hex4] at h
    split at h
    · rename_i i j k l ha hb hc hd
      have hi := hexVal?_lt ha
      have hj := hexVal?_lt hb
      have hk := hexVal?_lt hc
      have hl := hexVal?_lt hd
      rw [Option.some.injEq, Prod.mk.injEq] at h
      constructor
      · omega
      · rw [← h.2]
        exact ⟨[a, b, c, d], rfl⟩
    · cases h

/-- An escaped surrogate that stands alone, and what follows it. -/
structure Lone (s : PyStr) (c : CodePoint) (rest : PyStr) : Prop where
  escape : ∃ t, s = 117 :: t ∧ hex4 t = some (c.val, rest)
  next : isHigh c.val = true → startsWith rest [92, 117] = true →
    ∀ l after, hex4 (rest.drop 2) = some (l, after) → isLow l = false

theorem scanEscape_some {s rest : PyStr} {c : CodePoint} (h : scanEscape s = some (c, rest)) :
    rest <:+ s ∧ (isHigh c.val = false ∧ isLow c.val = false ∨ Lone s c rest) := by
  cases s with
  | nil => cases h
  | cons e tail =>
    rw [scanEscape] at h
    by_cases hu : e = 117
    · rw [if_pos hu] at h
      cases hhex : hex4 tail with
      | none =>
        rw [hhex] at h
        cases h
      | some found =>
        have hfound := hex4_some hhex
        have hval : (ofNat found.1).val = found.1 := Nat.mod_eq_of_lt (by omega)
        have hlone : some (ofNat found.1, found.2) = some (c, rest) →
            hex4 tail = some (c.val, rest) := by
          intro heq
          rw [Option.some.injEq, Prod.mk.injEq] at heq
          rw [hhex, ← heq.1, ← heq.2, hval]
        rw [hhex] at h
        dsimp only at h
        -- a high surrogate with another escape behind it
        by_cases hnext : (isHigh found.1 && startsWith found.2 [92, 117]) = true
        · rw [if_pos hnext] at h
          cases hsecond : hex4 (found.2.drop 2) with
          | none =>
            rw [hsecond] at h
            cases h
          | some second =>
            rw [hsecond] at h
            dsimp only at h
            by_cases hlow : isLow second.1 = true
            -- the pair is joined and lies beyond the plane
            · rw [if_pos hlow, Option.some.injEq, Prod.mk.injEq] at h
              have hsuffix := (hex4_some hsecond).2
              rw [Bool.and_eq_true, isHigh_iff] at hnext
              rw [isLow_iff] at hlow
              have hjoined : c.val = 0x10000 + (found.1 - 0xD800) * 1024 + (second.1 - 0xDC00) := by
                rw [← h.1]
                show _ % 0x110000 = _
                omega
              constructor
              · rw [← h.2]
                exact (hsuffix.trans (List.drop_suffix _ _)).trans
                  (hfound.2.trans (List.suffix_cons _ _))
              · left
                rw [Bool.eq_false_iff, Bool.eq_false_iff, ne_eq, ne_eq, isHigh_iff, isLow_iff]
                omega
            -- the second escape is no low surrogate, so the first stays alone
            · rw [if_neg hlow] at h
              have hhex' := hlone h
              rw [Option.some.injEq, Prod.mk.injEq] at h
              constructor
              · rw [← h.2]
                exact hfound.2.trans (List.suffix_cons _ _)
              · right
                constructor
                · exact ⟨tail, hu ▸ rfl, hhex'⟩
                · intro _ _ l after hl
                  rw [← h.2, hsecond, Option.some.injEq] at hl
                  rw [hl] at hlow
                  exact eq_false_of_ne_true hlow
        · rw [if_neg hnext] at h
          have hhex' := hlone h
          rw [Option.some.injEq, Prod.mk.injEq] at h
          constructor
          · rw [← h.2]
            exact hfound.2.trans (List.suffix_cons _ _)
          · right
            constructor
            · exact ⟨tail, hu ▸ rfl, hhex'⟩
            · intro hhigh hstart
              rw [← h.1, hval] at hhigh
              rw [← h.2] at hstart
              exact absurd (Bool.and_eq_true _ _ ▸ ⟨hhigh, hstart⟩) hnext
    -- the one letter escapes are ASCII
    · rw [if_neg hu, Option.map_eq_some_iff] at h
      obtain ⟨d, hd, heq⟩ := h
      rw [Prod.mk.injEq] at heq
      have hlt := unescape_lt hd
      rw [heq.1] at hlt
      constructor
      · rw [← heq.2]
        exact List.suffix_cons _ _
      · left
        rw [Bool.eq_false_iff, Bool.eq_false_iff, ne_eq, ne_eq, isHigh_iff, isLow_iff]
        omega

/-- The string that was read, and whether its first character is a low surrogate of the text. -/
structure ReadString (s t rest : PyStr) : Prop where
  suffix : rest <:+ s
  unsplit : Unsplit t
  first : ∀ c ∈ t.head?, isLow c.val = true →
    startsWith s [92, 117] = true ∧ ∃ after, hex4 (s.drop 2) = some (c.val, after)

theorem scanString_read {fuel : Nat} {s t rest : PyStr} (hs : Decoded s)
    (h : scanString fuel s = .ok (t, rest)) : ReadString s t rest := by
  induction fuel generalizing s t rest with
  | zero => cases h
  | succ fuel ih =>
    cases s with
    | nil => cases h
    | cons c tail =>
      have htail : Decoded tail := hs.suffix (List.suffix_cons _ _)
      rw [scanString] at h
      -- the closing quote
      by_cases hquote : c = 34
      · rw [if_pos hquote, Except.ok.injEq, Prod.mk.injEq] at h
        constructor
        · rw [← h.2]
          exact List.suffix_cons _ _
        · rw [← h.1]
          exact .nil
        · intro d hd
          rw [← h.1] at hd
          cases hd
      rw [if_neg hquote] at h
      -- an escape, which alone can yield a surrogate
      by_cases hslash : c = 92
      · rw [if_pos hslash] at h
        cases hescape : scanEscape tail with
        | none =>
          rw [hescape] at h
          cases h
        | some found =>
          rw [hescape] at h
          dsimp only at h
          have hfound := scanEscape_some hescape
          cases hnext : scanString fuel found.2 with
          | error err =>
            rw [hnext] at h
            cases h
          | ok read =>
            rw [hnext, Except.ok.injEq, Prod.mk.injEq] at h
            have hread := ih (htail.suffix hfound.1) hnext
            constructor
            · rw [← h.2]
              exact hread.suffix.trans (hfound.1.trans (List.suffix_cons _ _))
            · rw [← h.1]
              apply List.isChain_cons.mpr
              constructor
              · intro d hd hpair
                rcases hfound.2 with hnone | hlone
                · rw [hnone.1] at hpair
                  exact absurd hpair.1 Bool.false_ne_true
                · have hfirst := hread.first d hd hpair.2
                  obtain ⟨after, hafter⟩ := hfirst.2
                  -- a high one before a low one would have been joined
                  have hlow := hlone.next hpair.1 hfirst.1 _ _ hafter
                  rw [hlow] at hpair
                  exact absurd hpair.2 Bool.false_ne_true
              · exact hread.unsplit
            · intro d hd hlow
              rw [← h.1, List.head?_cons, Option.mem_some_iff] at hd
              rw [← hd] at hlow
              rcases hfound.2 with hnone | hlone
              · rw [hnone.2] at hlow
                exact absurd hlow Bool.false_ne_true
              · obtain ⟨t, ht, hhex⟩ := hlone.escape
                rw [hslash, ht, ← hd]
                exact ⟨rfl, found.2, hhex⟩
      rw [if_neg hslash] at h
      by_cases hcontrol : c.val < 0x20
      · rw [if_pos hcontrol] at h
        cases h
      rw [if_neg hcontrol] at h
      -- any other character was decoded from UTF-8, so it is no surrogate
      have hc := not_surrogate (hs c (.head _))
      cases hnext : scanString fuel tail with
      | error err =>
        rw [hnext] at h
        cases h
      | ok read =>
        rw [hnext, Except.ok.injEq, Prod.mk.injEq] at h
        have hread := ih htail hnext
        constructor
        · rw [← h.2]
          exact hread.suffix.trans (List.suffix_cons _ _)
        · rw [← h.1]
          apply List.isChain_cons.mpr
          constructor
          · intro d _ hpair
            rw [hc.1] at hpair
            exact absurd hpair.1 Bool.false_ne_true
          · exact hread.unsplit
        · intro d hd hlow
          rw [← h.1, List.head?_cons, Option.mem_some_iff] at hd
          rw [← hd, hc.2] at hlow
          exact absurd hlow Bool.false_ne_true

/-- A scanner that succeeds leaves a suffix of its text and a value without split pairs. -/
def Yields (s : PyStr) (r : Except LoadError (Json × PyStr)) : Prop :=
  ∀ v rest, r = .ok (v, rest) → Unpaired v ∧ rest <:+ s

theorem yields_error {s : PyStr} {err : LoadError} : Yields s (.error err) :=
  fun _ _ h => nomatch h

theorem yields_ok {s rest : PyStr} {v : Json} (hv : Unpaired v) (hrest : rest <:+ s) :
    Yields s (.ok (v, rest)) := by
  intro w after h
  rw [Except.ok.injEq, Prod.mk.injEq] at h
  exact ⟨h.1 ▸ hv, h.2 ▸ hrest⟩

theorem Yields.mono {s t : PyStr} {r : Except LoadError (Json × PyStr)} (h : Yields s r)
    (hst : s <:+ t) : Yields t r :=
  fun v rest hr => ⟨(h v rest hr).1, (h v rest hr).2.trans hst⟩

theorem unpaired_int (i : Int) : Unpaired (.int i) := trivial

theorem unpaired_float (x : Double) : Unpaired (.float x) := trivial

theorem unpaired_list {items : List Json} : Unpaired (.list items) ↔ ∀ v ∈ items, Unpaired v := by
  unfold Unpaired Layout.ReadableText
  rw [Json.forall_list]
  exact ⟨fun h => h.2, fun h => ⟨trivial, h⟩⟩

theorem unpaired_dict {entries : Dict} :
    Unpaired (.dict entries) ↔ ∀ kv ∈ entries, Unsplit kv.1 ∧ Unpaired kv.2 := by
  unfold Unpaired Layout.ReadableText
  rw [Json.forall_dict]
  exact ⟨fun h kv hkv => ⟨h.1 kv hkv, h.2 kv hkv⟩,
    fun h => ⟨fun kv hkv => (h kv hkv).1, fun kv hkv => (h kv hkv).2⟩⟩

theorem unpaired_getD {entries : Dict} {key : PyStr} {default : Json} (h : Unpaired (.dict entries))
    (hdefault : Unpaired default) : Unpaired (entries.getD key default) := by
  unfold Dict.getD Dict.get?
  cases hget : entries.lookup key with
  | none => exact hdefault
  | some v => exact (unpaired_dict.mp h _ (mem_of_lookup hget)).2

theorem suffix_skipWs (s : PyStr) : skipWs s <:+ s := List.dropWhile_suffix _

theorem suffix_takeDigits (s : PyStr) : (takeDigits s).2 <:+ s := List.dropWhile_suffix _

theorem suffix_scanExponent {s rest : PyStr} {e : Int} (h : scanExponent s = some (e, rest)) :
    rest <:+ s := by
  cases s with
  | nil => cases h
  | cons c tail =>
    rw [scanExponent] at h
    by_cases he : c = 101 ∨ c = 69
    · rw [if_pos he] at h
      extract_lets neg signed body at h
      have hbody : body <:+ tail := by
        show (if signed then tail.tail else tail) <:+ tail
        by_cases hsigned : signed
        · rw [if_pos hsigned]
          exact List.tail_suffix tail
        · rw [if_neg hsigned]
      by_cases hdigit : startsWithDigit body = true
      · rw [if_pos hdigit] at h
        have hrest : (takeDigits body).2 = rest := congrArg Prod.snd (Option.some.inj h)
        rw [← hrest]
        exact (suffix_takeDigits body).trans (hbody.trans (List.suffix_cons _ _))
      · rw [if_neg hdigit] at h
        cases h
    · rw [if_neg he] at h
      cases h

theorem forall_set {P : PyStr → Json → Prop} {d : Dict} {key : PyStr} {v : Json} (hv : P key v)
    (hd : ∀ kv ∈ d, P kv.1 kv.2) : ∀ kv ∈ d.set key v, P kv.1 kv.2 := by
  intro kv hkv
  unfold Dict.set at hkv
  split at hkv
  · obtain ⟨old, hold, heq⟩ := List.mem_map.mp hkv
    split at heq
    · rw [← heq]
      exact hv
    · rw [← heq]
      exact hd old hold
  · rcases List.mem_append.mp hkv with hold | hnew
    · exact hd kv hold
    · rw [List.mem_singleton.mp hnew]
      exact hv

section
variable [Runtime]

theorem yields_scanUnsigned (neg : Bool) (s : PyStr) : Yields s (scanUnsigned neg s) := by
  unfold scanUnsigned
  by_cases hdigit : startsWithDigit s = true
  · rw [if_pos hdigit]
    generalize hwhole : (if s.head? = some 48 then ([0], s.tail) else takeDigits s) = parts
    have hparts : parts.2 <:+ s := by
      rw [← hwhole]
      split
      · exact List.tail_suffix s
      · exact suffix_takeDigits s
    generalize hfrac : (if parts.2.head? = some 46 ∧ startsWithDigit parts.2.tail = true then
      ((takeDigits parts.2.tail).1, (takeDigits parts.2.tail).2) else ([], parts.2)) = fraction
    have hfraction : fraction.2 <:+ s := by
      rw [← hfrac]
      split
      · exact (suffix_takeDigits _).trans ((List.tail_suffix _).trans hparts)
      · exact hparts
    cases parts with
    | mk whole rest =>
      simp only [hfrac]
      cases fraction with
      | mk frac after =>
        simp only at hfraction ⊢
        cases hexp : scanExponent after with
        | some read => exact yields_ok (unpaired_float _) ((suffix_scanExponent hexp).trans hfraction)
        | none =>
          by_cases hpoint : frac ≠ []
          · simp only [if_pos hpoint]
            exact yields_ok (unpaired_float _) hfraction
          · simp only [if_neg hpoint]
            by_cases hlong : maxStrDigits < whole.length
            · rw [if_pos hlong]
              exact yields_error
            · rw [if_neg hlong]
              exact yields_ok (unpaired_int _) hfraction
  · rw [if_neg hdigit]
    exact yields_error

theorem yields_scanNumber (s : PyStr) : Yields s (scanNumber s) := by
  unfold scanNumber
  split
  · exact (yields_scanUnsigned true s.tail).mono (List.tail_suffix s)
  · exact yields_scanUnsigned false s

theorem yields_scanOnce {fuel : Nat}
    (hitems : ∀ budget s, Decoded s → Yields s (scanItems fuel budget [] s))
    (hmembers : ∀ budget s, Decoded s → Yields s (scanMembers fuel budget [] s))
    (budget : Nat) {s : PyStr} (hs : Decoded s) : Yields s (scanOnce (fuel + 1) budget s) := by
  cases s with
  | nil => exact yields_error
  | cons c rest =>
    have hrest : Decoded rest := hs.suffix (List.suffix_cons _ _)
    have hws : skipWs rest <:+ c :: rest := (suffix_skipWs rest).trans (List.suffix_cons _ _)
    have htail : (skipWs rest).tail <:+ c :: rest := (List.tail_suffix _).trans hws
    rw [scanOnce]
    by_cases hquote : c = 34
    · rw [if_pos hquote]
      cases hscan : scanString (rest.length + 1) rest with
      | error err => exact yields_error
      | ok read =>
        have hread := scanString_read hrest hscan
        exact yields_ok hread.unsplit (hread.suffix.trans (List.suffix_cons _ _))
    rw [if_neg hquote]
    by_cases hbrace : c = 123
    · rw [if_pos hbrace]
      by_cases hbudget : budget = 0
      · rw [if_pos hbudget]
        exact yields_error
      rw [if_neg hbudget]
      by_cases hempty : (skipWs rest).head? = some 125
      · rw [if_pos hempty]
        exact yields_ok (unpaired_dict.mpr fun _ h => absurd h List.not_mem_nil) htail
      · rw [if_neg hempty]
        exact (hmembers _ _ (hs.suffix hws)).mono hws
    rw [if_neg hbrace]
    by_cases hbracket : c = 91
    · rw [if_pos hbracket]
      by_cases hbudget : budget = 0
      · rw [if_pos hbudget]
        exact yields_error
      rw [if_neg hbudget]
      by_cases hempty : (skipWs rest).head? = some 93
      · rw [if_pos hempty]
        exact yields_ok (unpaired_list.mpr fun _ h => absurd h List.not_mem_nil) htail
      · rw [if_neg hempty]
        exact (hitems _ _ (hs.suffix hws)).mono hws
    rw [if_neg hbracket]
    cases hfind : constants.find? fun kv => startsWith (c :: rest) kv.1 with
    | none => exact yields_scanNumber _
    | some entry =>
      have hmem := List.mem_of_find?_eq_some hfind
      have hleaf : Unpaired entry.2 := by
        simp only [constants, List.mem_cons, List.not_mem_nil, or_false] at hmem
        rcases hmem with rfl | rfl | rfl | rfl | rfl | rfl <;> trivial
      exact yields_ok hleaf (List.drop_suffix _ _)

theorem yields_scanItems {fuel : Nat}
    (honce : ∀ budget s, Decoded s → Yields s (scanOnce fuel budget s))
    (hitems : ∀ budget acc s, Decoded s → (∀ v ∈ acc, Unpaired v) →
      Yields s (scanItems fuel budget acc s))
    (budget : Nat) {acc : List Json} {s : PyStr} (hs : Decoded s) (hacc : ∀ v ∈ acc, Unpaired v) :
    Yields s (scanItems (fuel + 1) budget acc s) := by
  rw [scanItems]
  cases hscan : scanOnce fuel budget s with
  | error err => exact yields_error
  | ok value =>
    have hvalue := honce budget s hs value.1 value.2 hscan
    have hsnoc : ∀ v ∈ acc ++ [value.1], Unpaired v := by
      intro v hv
      rcases List.mem_append.mp hv with hold | hnew
      · exact hacc v hold
      · rw [List.mem_singleton.mp hnew]
        exact hvalue.1
    have hws := (suffix_skipWs value.2).trans hvalue.2
    simp only
    cases hrest : skipWs value.2 with
    | nil => exact yields_error
    | cons c rest =>
      rw [hrest] at hws
      have htail : rest <:+ s := (List.suffix_cons _ _).trans hws
      by_cases hclose : c = 93
      · simp only [if_pos hclose]
        exact yields_ok (unpaired_list.mpr hsnoc) htail
      simp only [if_neg hclose]
      by_cases hcomma : c = 44
      · rw [if_pos hcomma]
        have hnext := (suffix_skipWs rest).trans htail
        exact (hitems _ _ _ (hs.suffix hnext) hsnoc).mono hnext
      · rw [if_neg hcomma]
        exact yields_error

theorem yields_scanMembers {fuel : Nat}
    (honce : ∀ budget s, Decoded s → Yields s (scanOnce fuel budget s))
    (hmembers : ∀ budget acc s, Decoded s → (∀ kv ∈ acc, Unsplit kv.1 ∧ Unpaired kv.2) →
      Yields s (scanMembers fuel budget acc s))
    (budget : Nat) {acc : Dict} {s : PyStr} (hs : Decoded s)
    (hacc : ∀ kv ∈ acc, Unsplit kv.1 ∧ Unpaired kv.2) :
    Yields s (scanMembers (fuel + 1) budget acc s) := by
  rw [scanMembers]
  by_cases hquote : s.head? ≠ some 34
  · rw [if_pos hquote]
    exact yields_error
  rw [if_neg hquote]
  cases hscan : scanString s.length s.tail with
  | error err => exact yields_error
  | ok key =>
    have hkey := scanString_read (hs.suffix (List.tail_suffix s)) hscan
    have hcolon : (skipWs key.2).tail <:+ s :=
      (List.tail_suffix _).trans ((suffix_skipWs key.2).trans (hkey.suffix.trans (List.tail_suffix s)))
    have hstart := (suffix_skipWs (skipWs key.2).tail).trans hcolon
    simp only
    by_cases hhead : (skipWs key.2).head? ≠ some 58
    · rw [if_pos hhead]
      exact yields_error
    rw [if_neg hhead]
    cases hscan' : scanOnce fuel budget (skipWs (skipWs key.2).tail) with
    | error err => exact yields_error
    | ok value =>
      have hvalue := honce budget _ (hs.suffix hstart) value.1 value.2 hscan'
      have hset := forall_set (P := fun k v => Unsplit k ∧ Unpaired v) ⟨hkey.unsplit, hvalue.1⟩ hacc
      have hws := (suffix_skipWs value.2).trans (hvalue.2.trans hstart)
      simp only
      cases hrest : skipWs value.2 with
      | nil => exact yields_error
      | cons c rest =>
        rw [hrest] at hws
        have htail : rest <:+ s := (List.suffix_cons _ _).trans hws
        by_cases hclose : c = 125
        · simp only [if_pos hclose]
          exact yields_ok (unpaired_dict.mpr hset) htail
        simp only [if_neg hclose]
        by_cases hcomma : c = 44
        · rw [if_pos hcomma]
          have hnext := (suffix_skipWs rest).trans htail
          exact (hmembers _ _ _ (hs.suffix hnext) hset).mono hnext
        · rw [if_neg hcomma]
          exact yields_error

/-- The three scanners of values, by induction on the fuel that they share. -/
theorem yields_scan (fuel : Nat) :
    (∀ budget s, Decoded s → Yields s (scanOnce fuel budget s)) ∧
    (∀ budget acc s, Decoded s → (∀ v ∈ acc, Unpaired v) →
      Yields s (scanItems fuel budget acc s)) ∧
    (∀ budget acc s, Decoded s → (∀ kv ∈ acc, Unsplit kv.1 ∧ Unpaired kv.2) →
      Yields s (scanMembers fuel budget acc s)) := by
  induction fuel with
  | zero => exact ⟨fun _ _ _ => yields_error, fun _ _ _ _ _ => yields_error,
      fun _ _ _ _ _ => yields_error⟩
  | succ fuel ih =>
    constructor
    · intro budget s hs
      exact yields_scanOnce (fun budget s hs => ih.2.1 budget [] s hs nofun)
        (fun budget s hs => ih.2.2 budget [] s hs nofun) budget hs
    constructor
    · intro budget acc s hs hacc
      exact yields_scanItems ih.1 ih.2.1 budget hs hacc
    · intro budget acc s hs hacc
      exact yields_scanMembers ih.1 ih.2.2 budget hs hacc

/-- `json.loads` builds no string that holds a split pair. -/
theorem unpaired_of_loads {budget : Nat} {text : PyStr} {v : Json} (htext : Decoded text)
    (h : loads budget text = .ok v) : Unpaired v := by
  unfold loads at h
  split_ifs at h
  split at h
  · cases h
  · rename_i w rest hscan
    split_ifs at h
    rw [← Except.ok.inj h]
    exact ((yields_scan _).1 budget _ (htext.suffix (suffix_skipWs text)) w rest hscan).1

end

/-! ## `str` of what was read -/

/-- A text that forms no pair with its neighbours either. -/
structure Framed (s : PyStr) : Prop where
  unsplit : Unsplit s
  first : ∀ c ∈ s.head?, isLow c.val = false
  last : ∀ c ∈ s.getLast?, isHigh c.val = false

theorem not_surrogate_of_ascii {c : CodePoint} (h : c.val < 0x80) :
    isHigh c.val = false ∧ isLow c.val = false := by
  rw [Bool.eq_false_iff, Bool.eq_false_iff, ne_eq, ne_eq, isHigh_iff, isLow_iff]
  omega

theorem framed_of_ascii {s : PyStr} (h : Ascii s) : Framed s where
  unsplit := noPair_of_ascii h
  first c hc := (not_surrogate_of_ascii (h c (List.mem_of_mem_head? hc))).2
  last c hc := (not_surrogate_of_ascii (h c (List.mem_of_mem_getLast? hc))).1

theorem Framed.append {s t : PyStr} (hs : Framed s) (ht : Framed t) : Framed (s ++ t) := by
  constructor
  · apply List.isChain_append.mpr
    constructor
    · exact hs.unsplit
    constructor
    · exact ht.unsplit
    · intro c hc d hd hpair
      rw [hs.last c hc] at hpair
      exact absurd hpair.1 Bool.false_ne_true
  · intro c hc
    cases s with
    | nil => exact ht.first c hc
    | cons d s => exact hs.first c hc
  · intro c hc
    rw [List.getLast?_append, Option.mem_def, Option.or_eq_some_iff] at hc
    rcases hc with hlast | hlast
    · exact ht.last c hlast
    · exact hs.last c hlast.2

theorem framed_flatMap {α : Type} {items : List α} {f : α → PyStr} (h : ∀ a ∈ items, Framed (f a)) :
    Framed (items.flatMap f) := by
  induction items with
  | nil => exact framed_of_ascii ascii_nil
  | cons a items ih =>
    rw [List.flatMap_cons]
    exact (h a (.head _)).append (ih fun b hb => h b (.tail _ hb))

theorem framed_joinWith {sep : PyStr} (hsep : Ascii sep) {parts : List PyStr}
    (h : ∀ part ∈ parts, Framed part) : Framed (joinWith sep parts) := by
  cases parts with
  | nil => exact framed_of_ascii ascii_nil
  | cons part parts =>
    rw [joinWith_cons]
    apply (h part (.head _)).append
    apply framed_flatMap
    intro next hnext
    exact (framed_of_ascii hsep).append (h next (.tail _ hnext))

/-- Characters that are kept, or replaced by ASCII, form no new pair. -/
theorem unsplit_flatMap {f : CodePoint → PyStr} (hf : ∀ c, f c = [c] ∨ Ascii (f c) ∧ f c ≠ [])
    {s : PyStr} (h : Unsplit s) : Unsplit (s.flatMap f) ∧
      ∀ d ∈ (s.flatMap f).head?, isLow d.val = true → s.head? = some d := by
  induction s with
  | nil => exact ⟨.nil, nofun⟩
  | cons c s ih =>
    have hrest := ih (List.IsChain.tail h)
    rw [List.flatMap_cons]
    rcases hf c with hkeep | ⟨hascii, hne⟩
    · rw [hkeep, List.singleton_append]
      constructor
      · apply List.isChain_cons.mpr
        constructor
        · intro d hd hpair
          exact (List.isChain_cons.mp h).1 d (hrest.2 d hd hpair.2) hpair
        · exact hrest.1
      · exact fun d hd _ => hd
    · have hframed := framed_of_ascii hascii
      constructor
      · apply List.isChain_append.mpr
        constructor
        · exact hframed.unsplit
        constructor
        · exact hrest.1
        · intro e he d hd hpair
          rw [hframed.last e he] at hpair
          exact absurd hpair.1 Bool.false_ne_true
      · intro d hd hlow
        rw [List.head?_append_of_ne_nil _ hne] at hd
        rw [hframed.first d hd] at hlow
        exact absurd hlow Bool.false_ne_true

section
variable [Runtime]

theorem reprChar_kept {quote : CodePoint} (hquote : quote.val < 0x80) (c : CodePoint) :
    reprChar quote c = [c] ∨ Ascii (reprChar quote c) ∧ reprChar quote c ≠ [] := by
  have hescape : ∀ (start : PyStr) (width : Nat), Ascii start → start ≠ [] →
      Ascii (start ++ hexDigits width c.val) ∧ start ++ hexDigits width c.val ≠ [] := by
    intro start width hstart hne
    exact ⟨hstart.append (hexDigits_ascii width c.val), List.append_ne_nil_of_left_ne_nil hne _⟩
  unfold reprChar
  by_cases hslash : c = quote ∨ c = 92
  · right
    rw [if_pos hslash]
    constructor
    · intro d hd
      rcases List.mem_cons.mp hd with rfl | hd
      · exact (by decide : (92 : CodePoint).val < 0x80)
      · rw [List.mem_singleton.mp hd]
        rcases hslash with rfl | rfl
        · exact hquote
        · exact (by decide : (92 : CodePoint).val < 0x80)
    · exact List.cons_ne_nil _ _
  rw [if_neg hslash]
  split
  · exact .inr ⟨ascii_of_all (by decide), by decide⟩
  split
  · exact .inr ⟨ascii_of_all (by decide), by decide⟩
  split
  · exact .inr ⟨ascii_of_all (by decide), by decide⟩
  split
  · exact .inl rfl
  split
  · exact .inr (hescape _ 2 (ascii_of_all (by decide)) (by decide))
  split
  · exact .inr (hescape _ 4 (ascii_of_all (by decide)) (by decide))
  · exact .inr (hescape _ 8 (ascii_of_all (by decide)) (by decide))

theorem framed_reprStr {s : PyStr} (h : Unsplit s) : Framed (Py.reprStr s) := by
  unfold Py.reprStr
  generalize hq : (if s.contains 39 && !s.contains 34 then 34 else 39 : CodePoint) = quote
  have hquote : quote.val < 0x80 := by
    rw [← hq]
    split <;> decide
  have hmark : Framed [quote] := framed_of_ascii fun c hc => List.mem_singleton.mp hc ▸ hquote
  have hbody := (unsplit_flatMap (reprChar_kept hquote) h).1
  have hleft : Unsplit ([quote] ++ s.flatMap (reprChar quote)) := by
    apply List.isChain_append.mpr
    constructor
    · exact hmark.unsplit
    constructor
    · exact hbody
    · intro c hc d _ hpair
      rw [hmark.last c hc] at hpair
      exact absurd hpair.1 Bool.false_ne_true
  constructor
  · apply List.isChain_append.mpr
    constructor
    · exact hleft
    constructor
    · exact hmark.unsplit
    · intro c _ d hd hpair
      rw [hmark.first d hd] at hpair
      exact absurd hpair.2 Bool.false_ne_true
  · exact hmark.first
  · intro c hc
    rw [List.getLast?_append, List.getLast?_singleton, Option.some_or] at hc
    exact hmark.last c hc

theorem reprList_eq_map (items : List Json) : reprList items = items.map Py.repr := by
  induction items with
  | nil => rfl
  | cons v items ih => rw [reprList, ih, List.map_cons]

theorem reprDict_eq_map (entries : Dict) : reprDict entries =
    entries.map fun kv => Py.reprStr kv.1 ++ py ": " ++ Py.repr kv.2 := by
  induction entries with
  | nil => rfl
  | cons kv entries ih => rw [reprDict, ih, List.map_cons]

theorem framed_repr (v : Json) (h : Unpaired v) : Framed (Py.repr v) := by
  induction v using Json.induction with
  | null =>
    rw [Py.repr]
    exact framed_of_ascii (ascii_of_all (by decide))
  | bool b =>
    rw [Py.repr]
    cases b <;> exact framed_of_ascii (ascii_of_all (by decide))
  | int i => exact framed_of_ascii (printable_intStr i).ascii
  | float x => exact framed_of_ascii (printable_reprFloat x).ascii
  | str s => exact framed_reprStr h
  | list items ih =>
    rw [Py.repr, reprList_eq_map]
    apply ((framed_of_ascii (ascii_of_all (by decide))).append _).append
      (framed_of_ascii (ascii_of_all (by decide)))
    apply framed_joinWith (ascii_of_all (by decide))
    intro part hpart
    obtain ⟨v, hv, rfl⟩ := List.mem_map.mp hpart
    exact ih v hv (unpaired_list.mp h v hv)
  | dict entries ih =>
    rw [Py.repr, reprDict_eq_map]
    apply ((framed_of_ascii (ascii_of_all (by decide))).append _).append
      (framed_of_ascii (ascii_of_all (by decide)))
    apply framed_joinWith (ascii_of_all (by decide))
    intro part hpart
    obtain ⟨kv, hkv, rfl⟩ := List.mem_map.mp hpart
    have hentry := unpaired_dict.mp h kv hkv
    exact ((framed_reprStr hentry.1).append (framed_of_ascii (ascii_of_all (by decide)))).append
      (ih kv hkv hentry.2)

/-- `str` of a value without split pairs has none. -/
theorem unsplit_strOf {v : Json} (h : Unpaired v) : Unsplit (strOf v) := by
  cases v with
  | str s => exact h
  | _ => exact (framed_repr _ h).unsplit

end

end HassNode.Surrogates
