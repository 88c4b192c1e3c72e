import HassNode.JsonLayout

/-!
# `json.loads` reads what `json.dumps` prints compactly

A value that was written without white space and with ASCII escapes is read back as it was, unless one
of its strings holds the two halves of a surrogate pair: those are read as one character.
-/

namespace HassNode.Compact

open Py Py.JsonText Js NodeApproval Indent

/-! ## Characters -/

/-- A character is printed as itself, as a two-character escape, as one `\uXXXX` or as two. -/
theorem dumpsChar_cases (c : CodePoint) :
    (dumpsChar c = [c] ∧ c ≠ 34 ∧ c ≠ 92 ∧ 0x20 ≤ c.val ∧ c.val ≤ 0x7E) ∨
    (∃ e, dumpsChar c = [92, e] ∧ e ≠ 117 ∧ 0x20 ≤ e.val ∧ e.val ≤ 0x7E ∧ unescape? e = some c) ∨
    (dumpsChar c = 92 :: 117 :: hexDigits 4 c.val ∧ c.val < 0x10000) ∨
    (dumpsChar c = 92 :: 117 :: (hexDigits 4 (0xD800 + (c.val - 0x10000) / 1024 % 1024) ++
      92 :: 117 :: hexDigits 4 (0xDC00 + (c.val - 0x10000) % 1024)) ∧ 0x10000 ≤ c.val) := by
  by_cases hmem : c ∈ asciiEscapes.map Prod.fst
  · right; left
    simp only [asciiEscapes, List.map_cons, List.map_nil, List.mem_cons, List.not_mem_nil,
      or_false] at hmem
    rcases hmem with rfl | rfl | rfl | rfl | rfl | rfl | rfl
    · exact ⟨92, by decide⟩
    · exact ⟨34, by decide⟩
    · exact ⟨98, by decide⟩
    · exact ⟨102, by decide⟩
    · exact ⟨110, by decide⟩
    · exact ⟨114, by decide⟩
    · exact ⟨116, by decide⟩
  · have hnone : asciiEscapes.lookup c = none := by
      rw [List.lookup_eq_none_iff]
      intro kv hkv
      have hne : c ≠ kv.1 := fun heq => hmem (heq ▸ List.mem_map_of_mem hkv)
      simpa using hne
    unfold dumpsChar
    rw [hnone]
    by_cases hplain : 0x20 ≤ c.val ∧ c.val ≤ 0x7E
    · left
      have hquote : c ≠ 34 := by
        rintro rfl
        exact hmem (by decide)
      have hbackslash : c ≠ 92 := by
        rintro rfl
        exact hmem (by decide)
      exact ⟨if_pos hplain, hquote, hbackslash, hplain⟩
    · right; right
      by_cases hfirst : c.val < 0x10000
      · left
        exact ⟨(if_neg hplain).trans (if_pos hfirst), hfirst⟩
      · right
        exact ⟨(if_neg hplain).trans (if_neg hfirst), Nat.le_of_not_lt hfirst⟩

theorem length_dumpsChar_pos (c : CodePoint) : 0 < (dumpsChar c).length := by
  rcases dumpsChar_cases c with ⟨hc, -⟩ | ⟨e, hc, -⟩ | ⟨hc, -⟩ | ⟨hc, -⟩ <;> rw [hc] <;> simp

theorem length_le_dumpsChars (s : PyStr) : s.length ≤ (s.flatMap dumpsChar).length := by
  induction s with
  | nil => exact Nat.le_refl 0
  | cons c s ih =>
    have hpos := length_dumpsChar_pos c
    rw [List.flatMap_cons, List.length_append, List.length_cons]
    omega

/-- One escape, with no low surrogate after it when it is a high one. -/
theorem scanEscape_unit {n : Nat} (hn : n < 0x10000) {s : PyStr}
    (hs : isHigh n = true → startsWith s [92, 117] = false ∨
      ∃ m rest, s = 92 :: 117 :: (hexDigits 4 m ++ rest) ∧ m < 0x10000 ∧ isLow m = false) :
    scanEscape (117 :: (hexDigits 4 n ++ s)) = some (ofNat n, s) := by
  rw [scanEscape, if_pos rfl, hex4_hexDigits hn]
  simp only
  by_cases hhigh : isHigh n = true
  · rcases hs hhigh with hstart | ⟨m, rest, rfl, hm, hlow⟩
    · simp only [hstart, Bool.and_false, Bool.false_eq_true, if_false]
    · have hstart : startsWith (92 :: 117 :: (hexDigits 4 m ++ rest)) [92, 117] = true := by
        simp [startsWith]
      have hdrop : hex4 ((92 :: 117 :: (hexDigits 4 m ++ rest)).drop 2) = some (m, rest) :=
        hex4_hexDigits hm rest
      have hnot : ¬ isLow m = true := Bool.eq_false_iff.mp hlow
      simp only [hhigh, hstart, Bool.and_self, if_true, hdrop, if_neg hnot]
  · simp only [eq_false_of_ne_true hhigh, Bool.false_and, Bool.false_eq_true, if_false]

/-- The two escapes of an astral character. -/
theorem scanEscape_pair {c : CodePoint} (hc : 0x10000 ≤ c.val) (s : PyStr) :
    scanEscape (117 :: (hexDigits 4 (0xD800 + (c.val - 0x10000) / 1024 % 1024) ++
      92 :: 117 :: (hexDigits 4 (0xDC00 + (c.val - 0x10000) % 1024) ++ s))) = some (c, s) := by
  have hlt := c.isLt
  have hhigh : isHigh (0xD800 + (c.val - 0x10000) / 1024 % 1024) = true := by
    simp only [isHigh, Bool.and_eq_true, decide_eq_true_eq]
    omega
  have hlow : isLow (0xDC00 + (c.val - 0x10000) % 1024) = true := by
    simp only [isLow, Bool.and_eq_true, decide_eq_true_eq]
    omega
  have hstart : startsWith (92 :: 117 :: (hexDigits 4 (0xDC00 + (c.val - 0x10000) % 1024) ++ s))
      [92, 117] = true := by
    simp [startsWith]
  have hdrop : hex4 ((92 :: 117 :: (hexDigits 4 (0xDC00 + (c.val - 0x10000) % 1024) ++ s)).drop 2) =
      some (0xDC00 + (c.val - 0x10000) % 1024, s) := hex4_hexDigits (by omega) s
  have hvalue : 0x10000 + (0xD800 + (c.val - 0x10000) / 1024 % 1024 - 0xD800) * 1024 +
      (0xDC00 + (c.val - 0x10000) % 1024 - 0xDC00) = c.val := by
    omega
  rw [scanEscape, if_pos rfl, hex4_hexDigits (by omega)]
  simp only [hhigh, hstart, Bool.and_self, if_true, hdrop, hlow, hvalue]
  rw [ofNat_eq rfl]

/-- What a string goes on with, as an escape before it sees it. -/
theorem dumpsChars_start {c : CodePoint} {t : PyStr} (hpair : (c :: t).IsChain NoPair) (rest : PyStr)
    (hhigh : isHigh c.val = true) :
    startsWith (t.flatMap dumpsChar ++ 34 :: rest) [92, 117] = false ∨
      ∃ m more, t.flatMap dumpsChar ++ 34 :: rest = 92 :: 117 :: (hexDigits 4 m ++ more) ∧
        m < 0x10000 ∧ isLow m = false := by
  cases t with
  | nil => exact .inl rfl
  | cons d t =>
    have hnext : isLow d.val = false := by
      rw [Bool.eq_false_iff]
      exact fun hlow => (List.isChain_cons.mp hpair).1 d rfl ⟨hhigh, hlow⟩
    rw [List.flatMap_cons, List.append_assoc]
    rcases dumpsChar_cases d with ⟨hd, -, h92, -⟩ | ⟨e, hd, he, -⟩ | ⟨hd, hdv⟩ | ⟨hd, hdv⟩
    · left
      rw [hd]
      simp [startsWith, List.isPrefixOf, Ne.symm h92]
    · left
      rw [hd]
      simp [startsWith, List.isPrefixOf, Ne.symm he]
    · right
      refine ⟨d.val, t.flatMap dumpsChar ++ 34 :: rest, ?_, hdv, hnext⟩
      rw [hd]
      rfl
    · right
      have hlt := d.isLt
      refine ⟨0xD800 + (d.val - 0x10000) / 1024 % 1024, 92 :: 117 ::
        (hexDigits 4 (0xDC00 + (d.val - 0x10000) % 1024) ++ (t.flatMap dumpsChar ++ 34 :: rest)),
        ?_, by omega, ?_⟩
      · rw [hd]
        simp only [List.cons_append, List.append_assoc]
      · simp only [isLow, Bool.and_eq_false_iff, decide_eq_false_iff_not]
        omega

/-- `scanstring` reads back what `py_encode_basestring_ascii` prints. -/
theorem scanString_dumpsChars {t : PyStr} (hpair : t.IsChain NoPair) (rest : PyStr) {fuel : Nat}
    (hfuel : t.length < fuel) :
    scanString fuel (t.flatMap dumpsChar ++ 34 :: rest) = .ok (t, rest) := by
  induction t generalizing fuel with
  | nil =>
    obtain ⟨f, rfl⟩ := Nat.exists_eq_succ_of_ne_zero (by omega : fuel ≠ 0)
    exact if_pos rfl
  | cons c t ih =>
    obtain ⟨f, rfl⟩ := Nat.exists_eq_succ_of_ne_zero (by omega : fuel ≠ 0)
    have hlen : t.length < f := by
      rw [List.length_cons] at hfuel
      omega
    have hrest := ih hpair.of_cons hlen
    rw [List.flatMap_cons, List.append_assoc]
    rcases dumpsChar_cases c with ⟨hc, h34, h92, h20, -⟩ | ⟨e, hc, he, -, -, hesc⟩ | ⟨hc, hcv⟩ | ⟨hc, hcv⟩
    · rw [hc, List.singleton_append, scanString, if_neg h34, if_neg h92, if_neg (by omega), hrest]
    · have hescape : scanEscape (e :: (t.flatMap dumpsChar ++ 34 :: rest)) =
          some (c, t.flatMap dumpsChar ++ 34 :: rest) := by
        rw [scanEscape, if_neg he, hesc]
        rfl
      rw [hc, List.cons_append, List.singleton_append, scanString, if_neg (by decide), if_pos rfl,
        hescape]
      simp only [hrest]
    · have hescape := scanEscape_unit hcv (dumpsChars_start hpair rest)
      rw [ofNat_eq rfl] at hescape
      rw [hc, List.cons_append, List.cons_append, scanString, if_neg (by decide), if_pos rfl,
        hescape]
      simp only [hrest]
    · have hescape := scanEscape_pair hcv (t.flatMap dumpsChar ++ 34 :: rest)
      rw [hc, List.cons_append, List.cons_append, List.append_assoc, List.cons_append,
        List.cons_append, scanString, if_neg (by decide), if_pos rfl, hescape]
      simp only [hrest]

/-! ## The layout -/

def compactLayout : Layout where
  body s := s.flatMap dumpsChar
  Readable s := s.IsChain NoPair
  length_le := length_le_dumpsChars
  scan h rest _ hfuel := scanString_dumpsChars h rest hfuel
  afterOpen _ := []
  afterComma _ := []
  beforeClose _ := []
  afterColon := []
  skip_open _ _ := rfl
  skip_comma _ _ := rfl
  skip_close _ _ := rfl
  skip_colon _ := rfl
  close_head _ _ hc := nomatch hc

theorem joinWith_cons (sep first : PyStr) (rest : List PyStr) :
    joinWith sep (first :: rest) = first ++ rest.flatMap fun part => sep ++ part := by
  induction rest generalizing first with
  | nil => simp [joinWith]
  | cons next rest ih =>
    rw [joinWith, List.intercalate_cons_cons, ← joinWith, ih, List.flatMap_cons]
    simp only [List.append_assoc]

/-- What a printer on one line must do for its text to be that of a layout. -/
structure Inline (L : Layout) (gap : PyStr) (print : Json → PyStr) : Prop where
  afterOpen : ∀ level, L.afterOpen level = []
  beforeClose : ∀ level, L.beforeClose level = []
  afterComma : ∀ level, L.afterComma level = gap
  leaf : ∀ v level, (∀ items, v ≠ .list items) → (∀ entries, v ≠ .dict entries) →
    print v = L.text level v
  list : ∀ items, print (.list items) =
    py "[" ++ joinWith (44 :: gap) (items.map print) ++ py "]"
  dict : ∀ entries, print (.dict entries) =
    py "\x7b" ++ joinWith (44 :: gap) (entries.map fun kv =>
      L.str kv.1 ++ 58 :: L.afterColon ++ print kv.2) ++ py "\x7d"

theorem Inline.text_eq {L : Layout} {gap : PyStr} {print : Json → PyStr} (h : Inline L gap print)
    (v : Json) : ∀ level, print v = L.text level v := by
  induction v using Json.induction with
  | null => exact fun level => h.leaf _ level nofun nofun
  | bool b => exact fun level => h.leaf _ level nofun nofun
  | int i => exact fun level => h.leaf _ level nofun nofun
  | float x => exact fun level => h.leaf _ level nofun nofun
  | str s => exact fun level => h.leaf _ level nofun nofun
  | list items ih =>
    have hitems : ∀ us : List Json, us ⊆ items → ∀ level,
        ((us.map print).flatMap fun part => 44 :: gap ++ part) = L.items level us := by
      intro us
      induction us with
      | nil => exact fun _ _ => rfl
      | cons u us ihu =>
        intro hsub level
        rw [List.map_cons, List.flatMap_cons, Layout.items, ih u (hsub (.head _)) level,
          ihu (fun w hw => hsub (.tail _ hw)) level, h.afterComma level]
        simp only [List.append_assoc, List.cons_append]
    intro level
    cases items with
    | nil => exact (h.list []).trans rfl
    | cons w items =>
      rw [h.list, List.map_cons, joinWith_cons, hitems items (List.subset_cons_self _ _) (level + 1),
        Layout.text, ih w (.head _) (level + 1), h.afterOpen, h.beforeClose]
      simp only [List.append_assoc]
      rfl
  | dict entries ih =>
    have hmembers : ∀ es : Dict, es ⊆ entries → ∀ level,
        ((es.map fun kv => L.str kv.1 ++ 58 :: L.afterColon ++ print kv.2).flatMap
          fun part => 44 :: gap ++ part) = L.members level es := by
      intro es
      induction es with
      | nil => exact fun _ _ => rfl
      | cons kw es ihe =>
        intro hsub level
        rw [List.map_cons, List.flatMap_cons, Layout.members, ih kw (hsub (.head _)) level,
          ihe (fun w hw => hsub (.tail _ hw)) level, h.afterComma level]
        simp only [List.append_assoc, List.cons_append]
    intro level
    cases entries with
    | nil => exact (h.dict []).trans rfl
    | cons kv entries =>
      rw [h.dict, List.map_cons, joinWith_cons,
        hmembers entries (List.subset_cons_self _ _) (level + 1), Layout.text,
        ih kv (.head _) (level + 1), h.afterOpen, h.beforeClose]
      simp only [List.append_assoc, List.cons_append]
      rfl

theorem inline_compactText : Inline compactLayout [] compactText where
  afterOpen _ := rfl
  beforeClose _ := rfl
  afterComma _ := rfl
  leaf v _ hlist hdict := by
    cases v with
    | list items => exact absurd rfl (hlist items)
    | dict entries => exact absurd rfl (hdict entries)
    | _ => rfl
  list items := by
    rw [compactText, compactTexts_eq_map]
    rfl
  dict entries := by
    rw [compactText, compactMembers_eq_map]
    rfl

/-- Every string of the value is free of split surrogate pairs. -/
abbrev Unpaired (v : Json) : Prop := compactLayout.ReadableText v

/-- `json.loads` of a compact text, alone or as a line. -/
theorem loads_compactText [Runtime] {v : Json} (hheld : Held v) {budget : Nat}
    (hroom : dumpsError budget v = none) (htext : Unpaired v) {rest : PyStr}
    (hrest : rest = [] ∨ rest = [10]) : loads budget (compactText v ++ rest) = .ok v := by
  have hstops : NumberText.StopsNumber rest ∧ skipWs rest = [] := by
    rcases hrest with rfl | rfl
    · exact ⟨fun c hc => (nomatch hc), rfl⟩
    · exact ⟨fun c hc => .inr (.inr (.inr (Option.some.inj hc).symm)), rfl⟩
  rw [inline_compactText.text_eq v 0]
  exact Layout.loads_text hheld hroom htext hstops.1 hstops.2

/-! ## The default separators -/

def spacedLayout : Layout :=
  { compactLayout with
    afterComma := fun _ => [32]
    afterColon := [32]
    skip_comma := fun _ _ => rfl
    skip_colon := fun _ => rfl }

theorem inline_dumpsText : Inline spacedLayout [32] dumpsText where
  afterOpen _ := rfl
  beforeClose _ := rfl
  afterComma _ := rfl
  leaf v _ hlist hdict := by
    cases v with
    | list items => exact absurd rfl (hlist items)
    | dict entries => exact absurd rfl (hdict entries)
    | _ => rfl
  list items := by
    rw [dumpsText, dumpsTexts_eq_map]
    rfl
  dict entries := by
    rw [dumpsText, dumpsMembers_eq_map]
    rfl

/-- `json.loads` of the text of `json.dumps`. -/
theorem loads_dumpsText [Runtime] {v : Json} (hheld : Held v) {budget : Nat}
    (hroom : dumpsError budget v = none) (htext : Unpaired v) :
    loads budget (dumpsText v) = .ok v := by
  have hreadable : spacedLayout.ReadableText v := htext
  have hstops : NumberText.StopsNumber [] := fun c hc => nomatch hc
  have hloads : loads budget (spacedLayout.text 0 v ++ []) = .ok v :=
    Layout.loads_text hheld hroom hreadable hstops rfl
  rwa [List.append_nil, ← inline_dumpsText.text_eq v 0] at hloads

end HassNode.Compact
