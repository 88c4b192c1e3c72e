import HassNode.ApprovalAgreement

/-!
# `json.loads` reads `JSON.stringify`

The node reads the text of a serialised value back as `received`, unless the value nests deeper than
the interpreter's recursion budget.
-/

namespace HassNode.NodeApproval

open Py Py.JsonText Js ConfigMutation NumberText Printer

/-! ## Strings -/

theorem hexVal?_hexDigit {n : Nat} (h : n < 16) : hexVal? (hexDigit n) = some n := by
  have hall : ∀ m : Fin 16, hexVal? (hexDigit m.val) = some m.val := by decide
  exact hall ⟨n, h⟩

theorem hex4_hexDigits {n : Nat} (h : n < 0x10000) (rest : PyStr) :
    hex4 (hexDigits 4 n ++ rest) = some (n, rest) := by
  have hval : 4096 * (n / 4096 % 16) + 256 * (n / 256 % 16) + 16 * (n / 16 % 16) + n % 16 = n := by
    omega
  rw [hexDigits_four]
  simp only [List.cons_append, List.nil_append, hex4, hexVal?_hexDigit (Nat.mod_lt _ (by decide)),
    hval]

/-- Two neighbours that are not an escaped surrogate pair. -/
def NoPair (a b : CodePoint) : Prop := ¬ (isHigh a.val = true ∧ isLow b.val = true)

/-- An escape is read alone when no low surrogate follows a high one. -/
theorem scanEscape_hex {c : CodePoint} (hc : c.val < 0x10000) {t : PyStr}
    (hpair : (c :: t).IsChain NoPair) (rest : PyStr) :
    scanEscape (117 :: (hexDigits 4 c.val ++ (t.flatMap esChar ++ 34 :: rest))) =
      some (c, t.flatMap esChar ++ 34 :: rest) := by
  have hself : ofNat c.val = c := ofNat_eq rfl
  rw [scanEscape, if_pos rfl, hex4_hexDigits hc]
  simp only [hself]
  cases t with
  | nil =>
    have hquote : startsWith ([].flatMap esChar ++ 34 :: rest) [92, 117] = false := rfl
    simp only [hquote, Bool.and_false, Bool.false_eq_true, if_false]
  | cons d t =>
    by_cases hhigh : isHigh c.val = true
    · have hlow : isLow d.val ≠ true := fun hlow => (List.isChain_cons.mp hpair).1 d rfl ⟨hhigh, hlow⟩
      rw [List.flatMap_cons, List.append_assoc]
      rcases esChar_cases d with ⟨hd, -, h92, -⟩ | ⟨e, hd, he, -⟩ | ⟨hd, hdv⟩
      · have hstart : startsWith (esChar d ++ (t.flatMap esChar ++ 34 :: rest)) [92, 117] = false := by
          rw [hd]
          simp [startsWith, List.isPrefixOf, Ne.symm h92]
        simp only [hstart, Bool.and_false, Bool.false_eq_true, if_false]
      · have hstart : startsWith (esChar d ++ (t.flatMap esChar ++ 34 :: rest)) [92, 117] = false := by
          rw [hd]
          simp [startsWith, List.isPrefixOf, Ne.symm he]
        simp only [hstart, Bool.and_false, Bool.false_eq_true, if_false]
      · have hstart : startsWith (esChar d ++ (t.flatMap esChar ++ 34 :: rest)) [92, 117] = true := by
          rw [hd]
          simp [startsWith]
        have hdrop : hex4 ((esChar d ++ (t.flatMap esChar ++ 34 :: rest)).drop 2) =
            some (d.val, t.flatMap esChar ++ 34 :: rest) := by
          rw [hd]
          exact hex4_hexDigits hdv _
        simp only [hhigh, hstart, Bool.and_self, if_true, hdrop, if_neg hlow]
    · simp only [eq_false_of_ne_true hhigh, Bool.false_and, Bool.false_eq_true, if_false]

theorem length_le_esChars (t : PyStr) : t.length ≤ (t.flatMap esChar).length := by
  induction t with
  | nil => exact Nat.le_refl 0
  | cons c t ih =>
    have hpos : 0 < (esChar c).length := by
      rcases esChar_cases c with ⟨hc, -⟩ | ⟨e, hc, -⟩ | ⟨hc, -⟩ <;> rw [hc] <;> simp
    rw [List.flatMap_cons, List.length_append, List.length_cons]
    omega

/-- `scanstring` reads back what `_es_string` prints. -/
theorem scanString_esChars {t : PyStr} (hpair : t.IsChain NoPair) (rest : PyStr) {fuel : Nat}
    (hfuel : t.length < fuel) :
    scanString fuel (t.flatMap esChar ++ 34 :: rest) = .ok (t, rest) := by
  induction t generalizing fuel with
  | nil =>
    obtain ⟨f, rfl⟩ := Nat.exists_eq_succ_of_ne_zero (by omega : fuel ≠ 0)
    exact if_pos rfl
  | cons c t ih =>
    obtain ⟨f, rfl⟩ := Nat.exists_eq_succ_of_ne_zero (by omega : fuel ≠ 0)
    have hlen : t.length < f := by
      rw [List.length_cons] at hfuel
      omega
    have hrest := ih hpair.of_cons hlen
    rw [List.flatMap_cons, List.append_assoc]
    rcases esChar_cases c with ⟨hc, h34, h92, h20, -⟩ | ⟨e, hc, he, hesc⟩ | ⟨hc, hcv⟩
    · rw [hc, List.singleton_append, scanString, if_neg h34, if_neg h92, if_neg (by omega), hrest]
    · have hescape : scanEscape (e :: (t.flatMap esChar ++ 34 :: rest)) =
          some (c, t.flatMap esChar ++ 34 :: rest) := by
        rw [scanEscape, if_neg he, hesc]
        rfl
      rw [hc, List.cons_append, List.singleton_append, scanString, if_neg (by decide), if_pos rfl,
        hescape]
      simp only [hrest]
    · have hescape := scanEscape_hex hcv hpair rest
      rw [hc, List.cons_append, List.cons_append, scanString, if_neg (by decide), if_pos rfl,
        hescape]
      simp only [hrest]

/-! ## The text of a value -/

/-- The text the node reads. -/
def textOf (v : JsValue) : PyStr := decode (stringify v)

def memberText (kv : JsStr × JsValue) : PyStr := esString (decode kv.1) ++ (58 :: textOf kv.2)

theorem stringifyItems_eq_map (items : List JsValue) :
    stringifyItems items = items.map stringify := by
  induction items with
  | nil => rfl
  | cons v rest ih => rw [stringifyItems, ih, List.map_cons]

theorem stringifyEntries_eq_map (entries : JsObject) : stringifyEntries entries =
    entries.map fun kv => quoteJSONString kv.1 ++ js ":" ++ stringify kv.2 := by
  induction entries with
  | nil => rfl
  | cons kv rest ih => rw [stringifyEntries, ih, List.map_cons]

theorem encodes_arr {items : List JsValue} (h : ∀ v ∈ items, Encodes (stringify v) (textOf v)) :
    Encodes (stringify (.arr items)) (91 :: ([44].intercalate (items.map textOf) ++ [93])) := by
  have hitems := Encodes.intercalate (Encodes.js ",") h
  have hall := (Encodes.js "[").append (hitems.append (Encodes.js "]"))
  rw [stringify, stringifyItems_eq_map, List.append_assoc]
  exact hall

theorem encodes_obj {entries : JsObject}
    (h : ∀ kv ∈ entries, Encodes (stringify kv.2) (textOf kv.2)) :
    Encodes (stringify (.obj entries)) (123 :: ([44].intercalate (entries.map memberText) ++ [125])) := by
  have hmember : ∀ kv ∈ entries,
      Encodes (quoteJSONString kv.1 ++ js ":" ++ stringify kv.2) (memberText kv) := by
    intro kv hkv
    rw [List.append_assoc]
    exact (encodes_quoteJSONString kv.1).append ((Encodes.js ":").append (h kv hkv))
  have hmembers := Encodes.intercalate (Encodes.js ",") hmember
  have hall := (Encodes.js "\x7b").append (hmembers.append (Encodes.js "\x7d"))
  rw [stringify, stringifyEntries_eq_map, List.append_assoc]
  exact hall

/-- `JSON.stringify` produces well-formed text. -/
theorem encodes_stringify (v : JsValue) : Encodes (stringify v) (textOf v) := by
  have hof : ∀ {s : JsStr} {t : PyStr}, Encodes s t → Encodes s (decode s) :=
    fun h => h.decode_eq ▸ h
  induction v using JsValue.induction with
  | null => exact hof (Encodes.js "null")
  | bool b =>
    cases b with
    | true => exact hof (Encodes.js "true")
    | false => exact hof (Encodes.js "false")
  | num x => exact hof (encodes_number x)
  | str s => exact hof (encodes_quoteJSONString s)
  | arr items ih => exact hof (encodes_arr ih)
  | obj entries ih => exact hof (encodes_obj ih)

theorem textOf_str (s : JsStr) : textOf (.str s) = esString (decode s) :=
  (encodes_quoteJSONString s).decode_eq

theorem textOf_num (x : Double) : textOf (.num x) = canonical (receivedNumber x) :=
  (encodes_number x).decode_eq

theorem textOf_arr (items : List JsValue) :
    textOf (.arr items) = 91 :: ([44].intercalate (items.map textOf) ++ [93]) :=
  (encodes_arr fun v _ => encodes_stringify v).decode_eq

theorem textOf_obj (entries : JsObject) :
    textOf (.obj entries) = 123 :: ([44].intercalate (entries.map memberText) ++ [125]) :=
  (encodes_obj fun kv _ => encodes_stringify kv.2).decode_eq

/-! ## Atoms -/

theorem take_of_startsWith {p s name : PyStr} (h : startsWith (p ++ s) name = true)
    (hlen : p.length ≤ name.length) : name.take p.length = p := by
  have hpre : name <+: p ++ s := List.isPrefixOf_iff_prefix.mp h
  have hp : p <+: name := List.prefix_of_prefix_length_le (List.prefix_append p s) hpre hlen
  exact (List.prefix_iff_eq_take.mp hp).symm

theorem find_constants {p s : PyStr} (hlen : p.length ≤ 2)
    (hp : ∀ kv ∈ constants, kv.1.take p.length ≠ p) :
    (constants.find? fun kv => startsWith (p ++ s) kv.1) = none := by
  have hlong : ∀ kv ∈ constants, 2 ≤ kv.1.length := by decide
  rw [List.find?_eq_none]
  intro kv hkv h
  exact hp kv hkv (take_of_startsWith h (hlen.trans (hlong kv hkv)))

theorem scanOnce_atom [Runtime] {c : CodePoint} (h34 : c ≠ 34) (h123 : c ≠ 123) (h91 : c ≠ 91)
    (fuel budget : Nat) (rest : PyStr) : scanOnce (fuel + 1) budget (c :: rest) =
      match constants.find? fun kv => startsWith (c :: rest) kv.1 with
      | some (name, v) => .ok (v, (c :: rest).drop name.length)
      | none => scanNumber (c :: rest) := by
  rw [scanOnce]
  exact (if_neg h34).trans ((if_neg h123).trans (if_neg h91))

theorem digit_ne (d : Fin 10) : digit d ≠ 34 ∧ digit d ≠ 123 ∧ digit d ≠ 91 := by
  revert d
  decide

theorem scanOnce_digits [Runtime] (fuel budget : Nat) (d : Fin 10) (rest : PyStr) :
    scanOnce (fuel + 1) budget (digit d :: rest) = scanUnsigned false (digit d :: rest) := by
  have hnone : (constants.find? fun kv => startsWith ([digit d] ++ rest) kv.1) = none := by
    refine find_constants (by simp) ?_
    revert d
    decide
  rw [List.singleton_append] at hnone
  rw [scanOnce_atom (digit_ne d).1 (digit_ne d).2.1 (digit_ne d).2.2, hnone]
  simp only [scanNumber]
  exact if_neg fun h => digit_ne_minus d (Option.some.inj h)

theorem scanOnce_minus [Runtime] (fuel budget : Nat) (d : Fin 10) (rest : PyStr) :
    scanOnce (fuel + 1) budget (45 :: digit d :: rest) = scanUnsigned true (digit d :: rest) := by
  have hnone : (constants.find? fun kv => startsWith ([45, digit d] ++ rest) kv.1) = none := by
    refine find_constants (by simp) ?_
    revert d
    decide
  rw [List.cons_append, List.singleton_append] at hnone
  rw [scanOnce_atom (by decide) (by decide) (by decide), hnone]
  rfl

/-- A number of the value set that JSON can carry. -/
def IsNumber [Runtime] : Double → Prop
  | .dec _ d => Runtime.IsDouble d
  | _ => True

theorem scanOnce_num [Runtime] {x : Double} (hx : IsNumber x) (fuel budget : Nat) {rest : PyStr}
    (hrest : StopsNumber rest) : scanOnce (fuel + 1) budget (textOf (.num x) ++ rest) =
      .ok (receivedNumber x, rest) := by
  rw [textOf_num]
  cases x with
  | nan => rfl
  | inf neg => rfl
  | zero neg =>
    have hzero : scanUnsigned false (digitStr [0] ++ rest) = .ok (.int (ofDigitStr [0]), rest) :=
      scanUnsigned_int (by simp) (fun _ => rfl) (by decide) false hrest
    exact (scanOnce_digits fuel budget 0 rest).trans hzero
  | dec neg d =>
    obtain ⟨y, tail, hhead⟩ := decimalNotation_head d
    have hscan := scanUnsigned_decimalNotation hx neg hrest
    rw [canonical_receivedNumber]
    rw [hhead] at hscan ⊢
    cases neg with
    | true => exact (scanOnce_minus fuel budget y (tail ++ rest)).trans hscan
    | false => exact (scanOnce_digits fuel budget y (tail ++ rest)).trans hscan

/-! ## Values -/

mutual

/-- The value nests at most `budget` containers. -/
def fits : Nat → JsValue → Bool
  | budget, .arr items => 0 < budget && fitsItems (budget - 1) items
  | budget, .obj entries => 0 < budget && fitsEntries (budget - 1) entries
  | _, _ => true

def fitsItems : Nat → List JsValue → Bool
  | _, [] => true
  | budget, v :: rest => fits budget v && fitsItems budget rest

def fitsEntries : Nat → List (JsStr × JsValue) → Bool
  | _, [] => true
  | budget, (_, v) :: rest => fits budget v && fitsEntries budget rest

end

mutual

/-- Objects have distinct keys and finite numbers are doubles. -/
def WellFormed [Runtime] : JsValue → Prop
  | .num x => IsNumber x
  | .arr items => WellFormedItems items
  | .obj entries => (entries.map Prod.fst).Nodup ∧ WellFormedEntries entries
  | _ => True

def WellFormedItems [Runtime] : List JsValue → Prop
  | [] => True
  | v :: rest => WellFormed v ∧ WellFormedItems rest

def WellFormedEntries [Runtime] : List (JsStr × JsValue) → Prop
  | [] => True
  | (_, v) :: rest => WellFormed v ∧ WellFormedEntries rest

end

section
variable [Runtime]

theorem wellFormedItems_iff {items : List JsValue} :
    WellFormedItems items ↔ ∀ v ∈ items, WellFormed v := by
  induction items with
  | nil => simp [WellFormedItems]
  | cons v rest ih => simp [WellFormedItems, ih]

theorem wellFormedEntries_iff {entries : JsObject} :
    WellFormedEntries entries ↔ ∀ kv ∈ entries, WellFormed kv.2 := by
  induction entries with
  | nil => simp [WellFormedEntries]
  | cons kv rest ih => simp [WellFormedEntries, ih]

/-- What the scanner makes of the text of `v`. -/
def scanned (budget : Nat) (v : JsValue) (rest : PyStr) : Except LoadError (Json × PyStr) :=
  if fits budget v then .ok (received v, rest) else .error .recursion

/-- The scanner reads the text of `v` wherever a value may stand. -/
def Scans (v : JsValue) : Prop := ∀ fuel budget rest, StopsNumber rest →
  2 * (textOf v ++ rest).length + 1 ≤ fuel →
  scanOnce fuel budget (textOf v ++ rest) = scanned budget v rest

omit [Runtime] in
theorem skipWs_cons {c : CodePoint} (h : isWs c = false) (s : PyStr) : skipWs (c :: s) = c :: s :=
  List.dropWhile_cons_of_neg (by simp [h])

omit [Runtime] in
theorem textOf_head (v : JsValue) :
    ∃ c rest, textOf v = c :: rest ∧ isWs c = false ∧ c ≠ 93 ∧ c ≠ 0xFEFF := by
  have hdigit : ∀ d : Fin 10, isWs (digit d) = false ∧ digit d ≠ 93 ∧ digit d ≠ 0xFEFF := by decide
  cases v with
  | null => exact ⟨_, _, rfl, by decide⟩
  | bool b => cases b <;> exact ⟨_, _, rfl, by decide⟩
  | num x =>
    rw [textOf_num]
    cases x with
    | nan => exact ⟨_, _, rfl, by decide⟩
    | inf neg => exact ⟨_, _, rfl, by decide⟩
    | zero neg => exact ⟨_, _, rfl, by decide⟩
    | dec neg d =>
      obtain ⟨y, tail, hhead⟩ := decimalNotation_head d
      rw [canonical_receivedNumber, hhead]
      cases neg with
      | true => exact ⟨45, _, rfl, by decide⟩
      | false => exact ⟨digit y, _, rfl, hdigit y⟩
  | str s => rw [textOf_str]; exact ⟨34, _, rfl, by decide⟩
  | arr items => rw [textOf_arr]; exact ⟨91, _, rfl, by decide⟩
  | obj entries => rw [textOf_obj]; exact ⟨123, _, rfl, by decide⟩

omit [Runtime] in
theorem skipWs_textOf (v : JsValue) (s : PyStr) : skipWs (textOf v ++ s) = textOf v ++ s := by
  obtain ⟨c, rest, hv, hws, -⟩ := textOf_head v
  rw [hv, List.cons_append, skipWs_cons hws]

omit [Runtime] in
theorem stops_sepTail {α : Type} {close : CodePoint} (hclose : close = 93 ∨ close = 125)
    (f : α → PyStr) (as : List α) (s : PyStr) : StopsNumber (sepTail 44 close f as ++ s) := by
  intro c hc
  cases as with
  | nil =>
    have heq : close = c := by simpa [sepTail] using hc
    subst heq
    exact .inr (hclose.imp id .inl)
  | cons a as =>
    rw [sepTail_cons, List.cons_append, List.head?_cons, Option.mem_some_iff] at hc
    exact .inl hc.symm

/-- An array after its bracket, from an item on. -/
theorem scanItems_text {v : JsValue} {items : List JsValue} (h : ∀ w ∈ v :: items, Scans w)
    (fuel budget : Nat) (acc : List Json) (rest : PyStr)
    (hfuel : 2 * (textOf v ++ (sepTail 44 93 textOf items ++ rest)).length + 2 ≤ fuel) :
    scanItems fuel budget acc (textOf v ++ (sepTail 44 93 textOf items ++ rest)) =
      if fitsItems budget (v :: items) then
        .ok (.list (acc ++ (v :: items).map received), rest)
      else .error .recursion := by
  induction items generalizing v fuel acc with
  | nil =>
    obtain ⟨f, rfl⟩ := Nat.exists_eq_succ_of_ne_zero (by omega : fuel ≠ 0)
    have hv := h v (.head _) f budget (sepTail 44 93 textOf [] ++ rest)
      (stops_sepTail (.inl rfl) textOf [] rest) (by omega)
    rw [scanItems, hv, scanned, fitsItems, fitsItems, Bool.and_true]
    by_cases hfit : fits budget v = true
    · rw [if_pos hfit, if_pos hfit]
      rfl
    · rw [if_neg hfit, if_neg hfit]
  | cons w items ih =>
    obtain ⟨f, rfl⟩ := Nat.exists_eq_succ_of_ne_zero (by omega : fuel ≠ 0)
    have hv := h v (.head _) f budget (sepTail 44 93 textOf (w :: items) ++ rest)
      (stops_sepTail (.inl rfl) textOf _ rest) (by omega)
    by_cases hfit : fits budget v = true
    · have hlen : 2 * (textOf w ++ (sepTail 44 93 textOf items ++ rest)).length + 2 ≤ f := by
        rw [sepTail_cons] at hfuel
        simp only [List.length_append, List.length_cons] at hfuel ⊢
        omega
      have hrest := ih (v := w) (fun u hu => h u (.tail _ hu)) f (acc ++ [received v]) hlen
      have hcomma : skipWs (sepTail 44 93 textOf (w :: items) ++ rest) =
          44 :: (textOf w ++ (sepTail 44 93 textOf items ++ rest)) := by
        rw [sepTail_cons, List.cons_append, skipWs_cons (by decide), List.append_assoc]
      rw [scanned, if_pos hfit] at hv
      rw [scanItems, hv, fitsItems, hfit, Bool.true_and]
      simp only [hcomma]
      rw [if_neg (by decide), if_true, skipWs_textOf, hrest]
      simp only [List.map_cons, List.append_assoc, List.singleton_append]
    · rw [scanned, if_neg hfit] at hv
      rw [scanItems, hv, fitsItems, eq_false_of_ne_true hfit, Bool.false_and]
      rfl

/-- The head of one member: its key and its colon. -/
theorem scanMembers_head (kv : JsStr × JsValue) (fuel budget : Nat) (acc : Dict) (rest : PyStr) :
    scanMembers (fuel + 1) budget acc (memberText kv ++ rest) =
      match scanOnce fuel budget (textOf kv.2 ++ rest) with
      | .error err => .error err
      | .ok (v, rest) =>
        match skipWs rest with
        | [] => .error .decode
        | c :: rest =>
          if c = 125 then .ok (.dict (acc.set (decode kv.1) v), rest)
          else if c = 44 then scanMembers fuel budget (acc.set (decode kv.1) v) (skipWs rest)
          else .error .decode := by
  have htext : memberText kv ++ rest =
      34 :: ((decode kv.1).flatMap esChar ++ 34 :: (58 :: (textOf kv.2 ++ rest))) := by
    simp [memberText, esString]
  have hfuel : (decode kv.1).length < (memberText kv ++ rest).length := by
    have hlen := length_le_esChars (decode kv.1)
    rw [htext]
    simp only [List.length_cons, List.length_append]
    omega
  have hkey := scanString_esChars (decode_noPair kv.1) (58 :: (textOf kv.2 ++ rest)) hfuel
  rw [scanMembers, if_neg (by rw [htext]; simp), show (memberText kv ++ rest).tail =
    (decode kv.1).flatMap esChar ++ 34 :: (58 :: (textOf kv.2 ++ rest)) by rw [htext]; rfl, hkey]
  simp only [skipWs_cons (show isWs 58 = false by decide), List.head?_cons, ne_eq, not_true_eq_false,
    if_false, List.tail_cons, skipWs_textOf]
  all_goals rfl

omit [Runtime] in
/-- A key that is not there yet is added at the end. -/
theorem set_receivedEntry {acc : Dict} {kv : JsStr × JsValue} {keys : List PyStr}
    (h : (acc.keys ++ decode kv.1 :: keys).Nodup) :
    acc.set (decode kv.1) (received kv.2) = acc ++ [receivedEntry kv] := by
  refine Dict.set_of_not_mem (fun hmem => ?_) _
  rw [List.nodup_append] at h
  exact h.2.2 _ hmem _ (.head _) rfl

/-- An object after its brace, from a member on. -/
theorem scanMembers_text {kv : JsStr × JsValue} {entries : JsObject}
    (h : ∀ kw ∈ kv :: entries, Scans kw.2) (fuel budget : Nat) (acc : Dict) (rest : PyStr)
    (hkeys : (acc.keys ++ (kv :: entries).map fun kw => decode kw.1).Nodup)
    (hfuel : 2 * (memberText kv ++ (sepTail 44 125 memberText entries ++ rest)).length + 2 ≤ fuel) :
    scanMembers fuel budget acc (memberText kv ++ (sepTail 44 125 memberText entries ++ rest)) =
      if fitsEntries budget (kv :: entries) then
        .ok (.dict (acc ++ (kv :: entries).map receivedEntry), rest)
      else .error .recursion := by
  induction entries generalizing kv fuel acc with
  | nil =>
    obtain ⟨f, rfl⟩ := Nat.exists_eq_succ_of_ne_zero (by omega : fuel ≠ 0)
    have hv := h kv (.head _) f budget (sepTail 44 125 memberText [] ++ rest)
      (stops_sepTail (.inr rfl) memberText [] rest) (by
        simp only [memberText, List.length_append, List.length_cons] at hfuel ⊢
        omega)
    rw [scanMembers_head, hv, scanned, fitsEntries, fitsEntries, Bool.and_true]
    by_cases hfit : fits budget kv.2 = true
    · rw [if_pos hfit, if_pos hfit]
      have hclose : skipWs (sepTail 44 125 memberText [] ++ rest) = 125 :: rest :=
        skipWs_cons (by decide) rest
      simp only [hclose, if_true, set_receivedEntry hkeys]
      rfl
    · rw [if_neg hfit, if_neg hfit]
  | cons kw entries ih =>
    obtain ⟨f, rfl⟩ := Nat.exists_eq_succ_of_ne_zero (by omega : fuel ≠ 0)
    have hv := h kv (.head _) f budget (sepTail 44 125 memberText (kw :: entries) ++ rest)
      (stops_sepTail (.inr rfl) memberText _ rest) (by
        simp only [memberText, List.length_append, List.length_cons] at hfuel ⊢
        omega)
    by_cases hfit : fits budget kv.2 = true
    · have hlen : 2 * (memberText kw ++ (sepTail 44 125 memberText entries ++ rest)).length + 2 ≤
          f := by
        rw [sepTail_cons] at hfuel
        simp only [List.length_append, List.length_cons] at hfuel ⊢
        omega
      have hacc := set_receivedEntry hkeys
      have hkeys' : (Dict.keys (acc ++ [receivedEntry kv]) ++
          (kw :: entries).map fun kw => decode kw.1).Nodup := by
        rw [Dict.keys, List.map_append, List.append_assoc]
        exact hkeys
      have hrest := @ih kw (fun u hu => h u (.tail _ hu)) f (acc ++ [receivedEntry kv]) hkeys'
        hlen
      have hcomma : skipWs (sepTail 44 125 memberText (kw :: entries) ++ rest) =
          44 :: (memberText kw ++ (sepTail 44 125 memberText entries ++ rest)) := by
        rw [sepTail_cons, List.cons_append, skipWs_cons (by decide), List.append_assoc]
      have hquote : skipWs (memberText kw ++ (sepTail 44 125 memberText entries ++ rest)) =
          memberText kw ++ (sepTail 44 125 memberText entries ++ rest) := skipWs_cons (by decide) _
      rw [scanned, if_pos hfit] at hv
      rw [scanMembers_head, hv, fitsEntries, hfit, Bool.true_and]
      simp only [hcomma]
      rw [if_neg (by decide), if_true, hquote, hacc, hrest]
      simp only [List.map_cons, List.append_assoc, List.singleton_append]
    · rw [scanned, if_neg hfit] at hv
      rw [scanMembers_head, hv, fitsEntries, eq_false_of_ne_true hfit, Bool.false_and]
      rfl

/-- The scanner reads the text of every well-formed value. -/
theorem scans (v : JsValue) (hv : WellFormed v) : Scans v := by
  induction v using JsValue.induction with
  | null =>
    intro fuel budget rest _ hfuel
    obtain ⟨f, rfl⟩ := Nat.exists_eq_succ_of_ne_zero (by omega : fuel ≠ 0)
    rfl
  | bool b =>
    intro fuel budget rest _ hfuel
    obtain ⟨f, rfl⟩ := Nat.exists_eq_succ_of_ne_zero (by omega : fuel ≠ 0)
    cases b <;> rfl
  | num x =>
    intro fuel budget rest hrest hfuel
    obtain ⟨f, rfl⟩ := Nat.exists_eq_succ_of_ne_zero (by omega : fuel ≠ 0)
    exact scanOnce_num hv f budget hrest
  | str s =>
    intro fuel budget rest _ hfuel
    obtain ⟨f, rfl⟩ := Nat.exists_eq_succ_of_ne_zero (by omega : fuel ≠ 0)
    have hlen := length_le_esChars (decode s)
    have htext : textOf (.str s) ++ rest = 34 :: ((decode s).flatMap esChar ++ 34 :: rest) := by
      simp [textOf_str, esString]
    have hfuel' : (decode s).length < ((decode s).flatMap esChar ++ 34 :: rest).length + 1 := by
      rw [List.length_append]
      omega
    have hscan := scanString_esChars (decode_noPair s) rest hfuel'
    rw [htext, scanOnce, if_pos rfl, hscan]
    rfl
  | arr items ih =>
    intro fuel budget rest _ hfuel
    obtain ⟨f, rfl⟩ := Nat.exists_eq_succ_of_ne_zero (by omega : fuel ≠ 0)
    have hitems := wellFormedItems_iff.mp hv
    rw [textOf_arr] at hfuel ⊢
    rw [List.cons_append, scanOnce, if_neg (by decide), if_neg (by decide), if_pos rfl, scanned,
      fits, received, receivedItems_eq_map]
    by_cases hb : budget = 0
    · rw [if_pos hb, hb]
      rfl
    · rw [if_neg hb, decide_eq_true (by omega : 0 < budget), Bool.true_and]
      cases items with
      | nil => rfl
      | cons w items =>
        obtain ⟨c, tail, hw, -, h93, -⟩ := textOf_head w
        have hbody : [44].intercalate ((w :: items).map textOf) ++ [93] ++ rest =
            textOf w ++ (sepTail 44 93 textOf items ++ rest) := by
          rw [intercalate_cons, List.append_assoc]
        rw [List.cons_append, hbody] at hfuel
        rw [hbody, skipWs_textOf, if_neg (by rw [hw]; simpa using h93)]
        exact scanItems_text (fun u hu => ih u hu (hitems u hu)) f (budget - 1) [] rest
          (by simp only [List.length_cons] at hfuel; omega)
  | obj entries ih =>
    intro fuel budget rest _ hfuel
    obtain ⟨f, rfl⟩ := Nat.exists_eq_succ_of_ne_zero (by omega : fuel ≠ 0)
    have hentries := wellFormedEntries_iff.mp hv.2
    rw [textOf_obj] at hfuel ⊢
    rw [List.cons_append, scanOnce, if_neg (by decide), if_pos rfl, scanned, fits, received,
      receivedEntries_eq_map]
    by_cases hb : budget = 0
    · rw [if_pos hb, hb]
      rfl
    · rw [if_neg hb, decide_eq_true (by omega : 0 < budget), Bool.true_and]
      cases entries with
      | nil => rfl
      | cons kv entries =>
        have hbody : [44].intercalate ((kv :: entries).map memberText) ++ [125] ++ rest =
            memberText kv ++ (sepTail 44 125 memberText entries ++ rest) := by
          rw [intercalate_cons, List.append_assoc]
        have hskip : skipWs (memberText kv ++ (sepTail 44 125 memberText entries ++ rest)) =
            memberText kv ++ (sepTail 44 125 memberText entries ++ rest) := skipWs_cons (by decide) _
        have hkeys : ((kv :: entries).map fun kw => decode kw.1).Nodup := by
          have hmap := hv.1.map decode_injective
          rwa [List.map_map] at hmap
        rw [List.cons_append, hbody] at hfuel
        have hquote : (memberText kv ++ (sepTail 44 125 memberText entries ++ rest)).head? ≠
            some 125 := fun h => absurd (Option.some.inj h) (by decide)
        rw [hbody, hskip, if_neg hquote]
        exact scanMembers_text (fun kw hkw => ih kw hkw (hentries kw hkw)) f (budget - 1) [] rest
          hkeys (by simp only [List.length_cons] at hfuel; omega)

/-- `json.loads` of the serialised value, with room for `budget` nested containers. -/
theorem loads_textOf {v : JsValue} (hv : WellFormed v) (budget : Nat) :
    loads budget (textOf v) = if fits budget v then .ok (received v) else .error .recursion := by
  have hscan := scans v hv (2 * (textOf v).length + 1) budget []
    (fun c hc => by cases hc) (by rw [List.append_nil])
  obtain ⟨c, rest, htext, -, -, hc⟩ := textOf_head v
  have hbom : (textOf v).head? ≠ some 0xFEFF := by
    rw [htext, List.head?_cons, ne_eq, Option.some.injEq]
    exact hc
  have hskip := skipWs_textOf v []
  rw [List.append_nil] at hscan hskip
  rw [loads, if_neg hbom, hskip, hscan, scanned]
  by_cases hfit : fits budget v = true
  · rw [if_pos hfit, if_pos hfit]
    rfl
  · rw [if_neg hfit, if_neg hfit]

/-! ## The two bindings -/

omit [Runtime] in
theorem decode_js (s : String) : decode (js s) = py s := (Encodes.js s).decode_eq

omit [Runtime] in
/-- Both sides remove the same reserved fields. -/
theorem unreserved_received (params : JsObject) : unreserved (receivedEntries params) =
    receivedEntries (params.filter fun kv => kv.1 ∉ reservedParams) := by
  have hmem : ∀ k : JsStr, decode k ∈ reserved ↔ k ∈ reservedParams := by
    intro k
    have hiff : ∀ s : String, decode k = py s ↔ k = js s := by
      intro s
      rw [← decode_js s]
      exact decode_injective.eq_iff
    simp only [reserved, reservedParams, ConfigMutation.approvalParam, List.mem_cons,
      List.not_mem_nil, or_false, hiff]
  rw [receivedEntries_eq_map, receivedEntries_eq_map, unreserved, List.filter_map]
  congr 1
  refine List.filter_congr fun kv _ => ?_
  simp only [Function.comp, receivedEntry, hmem]

omit [Runtime] in
theorem encodes_approvalText (command action : JsStr) (params : JsObject) :
    Encodes (approvalText command action params)
      (ConfigMutation.approvalText (decode command) (decode action) (receivedEntries params)) := by
  have htext := encodes_canonicalJson (.obj [(js "command", .str command),
    (js "action", .str action), (js "params", .obj (params.filter fun kv => kv.1 ∉ reservedParams))])
  have hreceived : received (.obj [(js "command", .str command), (js "action", .str action),
        (js "params", .obj (params.filter fun kv => kv.1 ∉ reservedParams))]) =
      obj [("command", .str (decode command)), ("action", .str (decode action)),
        ("params", .dict (unreserved (receivedEntries params)))] := by
    simp only [received, receivedEntries, decode_js, unreserved_received]
    rfl
  rw [hreceived] at htext
  exact htext

/-- The node hashes the text that the plugin hashed, for every object that the plugin sends and the
node reads; it reads every object that does not exceed the recursion budget. -/
theorem approvalBind_agrees (budget : Nat) (command action : JsStr) (params : JsObject)
    (hparams : WellFormed (.obj params)) :
    (fits budget (.obj params) = true →
      ∃ p, loads budget (decode (stringify (.obj params))) = .ok (.dict p)) ∧
    ∀ p, loads budget (decode (stringify (.obj params))) = .ok (.dict p) →
      ConfigMutation.approvalText (decode command) (decode action) p =
        decode (approvalText command action params) ∧
      (∀ c ∈ ConfigMutation.approvalText (decode command) (decode action) p,
        isSurrogate c = false) ∧
      ConfigMutation.approvalBind (decode command) (decode action) p =
        approvalBind command action params := by
  have hloads := loads_textOf hparams budget
  constructor
  · intro hfit
    rw [if_pos hfit] at hloads
    exact ⟨receivedEntries params, hloads⟩
  · intro p hp
    have hp' : receivedEntries params = p := by
      rw [textOf, hp] at hloads
      by_cases hfit : fits budget (.obj params) = true
      · rw [if_pos hfit, Except.ok.injEq, received, Json.dict.injEq] at hloads
        exact hloads.symm
      · rw [if_neg hfit] at hloads
        cases hloads
    subst hp'
    have henc := encodes_approvalText command action params
    have htext := henc.decode_eq
    refine ⟨htext.symm, henc.2, ?_⟩
    rw [ConfigMutation.approvalBind, approvalBind, htext]

end

/-- A key that holds an astral character before a lone surrogate, a negative zero, a double and a
reserved field. -/
def sampleParams : JsObject :=
  [(js "𝄞" ++ [0xD800], .num (.zero true)),
    (js "limit", .num (.dec false ⟨[1, 5], 1, by decide, by decide, by decide⟩)),
    (js "_openclaw_caller", .obj [(js "sessionKey", .str (js "agent"))])]

@[reducible] def sampleRuntime : Runtime := Runtime.ofTable
  [(decode (approvalText (js "ha.config.helpers") (js "create") sampleParams),
    py "ab2d27f17db53232da39a01f666aa52fa12e57f887dd2af1dea81babdefa7d12")]

theorem approvalBind_agrees_sample :
    let _ := sampleRuntime
    ∃ p, loads 64 (decode (stringify (.obj sampleParams))) = .ok (.dict p) ∧
      ConfigMutation.approvalBind (decode (js "ha.config.helpers")) (decode (js "create")) p =
        approvalBind (js "ha.config.helpers") (js "create") sampleParams := by
  intro _
  have hparams : WellFormed (.obj sampleParams) := by
    refine ⟨by decide, trivial, ?_, ⟨by decide, trivial, trivial⟩, trivial⟩
    change 2 ≤ 15 ∧ (-300 : Int) ≤ 1 ∧ (1 : Int) ≤ 300
    omega
  have hagree := approvalBind_agrees 64 (js "ha.config.helpers") (js "create") sampleParams hparams
  obtain ⟨p, hp⟩ := hagree.1 (by decide)
  exact ⟨p, hp, (hagree.2 p hp).2.2⟩

end HassNode.NodeApproval
