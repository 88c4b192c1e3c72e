import HassNode.JsonRoundTrip
import HassNode.Py.JsonDump
import Mathlib.Data.Nat.Digits.Lemmas

/-!
# Printed JSON is read back

The encoders of `json.dumps` differ in how they print a string and in the white space between the
parts.  A layout is such a choice; whatever the layout, the scanner reads a printed value back.
-/

namespace HassNode.Indent

open Py Py.JsonText ConfigMutation NumberText NodeApproval

theorem noPair_of_encodable {s : PyStr} (h : ∀ c ∈ s, unencodable c = false) :
    s.IsChain NoPair := by
  induction s with
  | nil => exact .nil
  | cons c s ih =>
    refine List.isChain_cons.mpr ⟨?_, ih fun d hd => h d (.tail _ hd)⟩
    intro d _ hpair
    have hc := h c (.head _)
    have hhigh := hpair.1
    simp only [unencodable, isHigh, Bool.and_eq_false_iff, Bool.and_eq_true,
      decide_eq_false_iff_not, decide_eq_true_eq] at hc hhigh
    omega

theorem noPair_of_ascii {s : PyStr} (h : Ascii s) : s.IsChain NoPair := by
  refine noPair_of_encodable fun c hc => ?_
  have hlt := h c hc
  simp only [unencodable, Bool.and_eq_false_iff, decide_eq_false_iff_not]
  omega

variable [Runtime]

/-- A value that the interpreter can hold: floats are doubles and keys are distinct. -/
def Held (v : Json) : Prop :=
  v.Forall fun
    | .float x => IsNumber x
    | .dict entries => (Dict.keys entries).Nodup
    | _ => True

/-- The scanner reads `text` as `v` wherever a value may stand. -/
def Reads (budget : Nat) (text : PyStr) (v : Json) : Prop := ∀ fuel rest, StopsNumber rest →
  2 * (text ++ rest).length + 1 ≤ fuel → scanOnce fuel budget (text ++ rest) = .ok (v, rest)

/-! ## Numbers -/

omit [Runtime] in
theorem natDigits_head {n : Nat} (h : n ≠ 0) : (natDigits n).head? ≠ some 0 := by
  unfold natDigits
  rw [List.head?_map, List.head?_reverse, List.getLast?_eq_some_getLast
    (Nat.digits_ne_nil_iff_ne_zero.mpr h)]
  intro hzero
  rw [Option.map_some, Option.some.injEq] at hzero
  have hlast := Nat.getLast_digit_ne_zero 10 h
  have hlt := Nat.digits_lt_base (b := 10) (by decide) (List.getLast_mem
    (Nat.digits_ne_nil_iff_ne_zero.mpr h))
  have hval := congrArg Fin.val hzero
  rw [Fin.val_ofNat, Nat.mod_eq_of_lt hlt] at hval
  exact hlast hval

/-- The digits of an integer. -/
theorem scanUnsigned_natStr {n : Nat} (hlen : (natDigits n).length ≤ maxStrDigits) (neg : Bool)
    {rest : PyStr} (hrest : StopsNumber rest) :
    scanUnsigned neg (natStr n ++ rest) = .ok (.int (if neg then -(n : Int) else n), rest) := by
  by_cases hn : n = 0
  · rw [hn]
    exact @scanUnsigned_int _ [0] (by simp) (fun _ => rfl) (by decide) neg rest hrest
  · have htext : natStr n = digitStr (natDigits n) := if_neg hn
    have hvalue : ofDigitStr (natDigits n) = n := by
      obtain ⟨ds, -, hds, hof⟩ := natStr_eq n
      rw [htext] at hds
      rw [List.map_injective_iff.mpr digit_injective hds, hof]
    rw [htext, scanUnsigned_int (natDigits_ne_nil hn)
      (fun h => absurd h (natDigits_head hn)) hlen neg hrest, hvalue]

theorem reads_int {i : Int} (hlen : (natDigits i.natAbs).length ≤ maxStrDigits) (budget : Nat) :
    Reads budget (intStr i) (.int i) := by
  intro fuel rest hrest hfuel
  obtain ⟨f, rfl⟩ := Nat.exists_eq_succ_of_ne_zero (by omega : fuel ≠ 0)
  obtain ⟨d, tail, hhead⟩ := natStr_head i.natAbs
  have hscan := scanUnsigned_natStr hlen (decide (i < 0)) hrest
  unfold intStr
  by_cases hneg : i < 0
  · rw [if_pos hneg, List.append_assoc, hhead]
    rw [hhead, decide_eq_true hneg] at hscan
    have hvalue : -(i.natAbs : Int) = i := by omega
    rw [if_pos rfl, hvalue] at hscan
    exact (scanOnce_minus f budget d (tail ++ rest)).trans hscan
  · rw [if_neg hneg, List.nil_append, hhead]
    rw [hhead, decide_eq_false hneg] at hscan
    have hvalue : (i.natAbs : Int) = i := by omega
    rw [if_neg Bool.false_ne_true, hvalue] at hscan
    exact (scanOnce_digits f budget d (tail ++ rest)).trans hscan

theorem scanUnsigned_zero (neg : Bool) {rest : PyStr} (hrest : StopsNumber rest) :
    scanUnsigned neg (48 :: 46 :: 48 :: rest) = .ok (.float (.zero neg), rest) := by
  have hzero : takeDigits (48 :: rest) = ([0], rest) := takeDigits_append [0] hrest.not_digit
  have hdigit : startsWithDigit (48 :: 46 :: 48 :: rest) = true := rfl
  have hfrac : startsWithDigit (48 :: rest) = true := rfl
  rw [scanUnsigned, if_pos hdigit]
  simp only [List.head?_cons, if_true, List.tail_cons, hfrac, and_self, hzero,
    scanExponent_stop hrest]
  rfl

theorem reads_float {x : Double} (hx : IsNumber x) (budget : Nat) :
    Reads budget (dumpsFloat x) (.float x) := by
  intro fuel rest hrest hfuel
  obtain ⟨f, rfl⟩ := Nat.exists_eq_succ_of_ne_zero (by omega : fuel ≠ 0)
  cases x with
  | nan => rfl
  | inf neg => cases neg <;> rfl
  | zero neg =>
    cases neg with
    | true => exact (scanOnce_minus f budget 0 (46 :: 48 :: rest)).trans (scanUnsigned_zero true hrest)
    | false =>
      exact (scanOnce_digits f budget 0 (46 :: 48 :: rest)).trans (scanUnsigned_zero false hrest)
  | dec neg d =>
    obtain ⟨p, hp, hfloat, htext⟩ := reprDigits_text d
    obtain ⟨y, tail, hhead⟩ := reprDigits_head d
    have hscan := scanUnsigned_text hp hx hfloat neg hrest
    rw [htext, hhead] at hscan
    show scanOnce (f + 1) budget ((if neg then py "-" else []) ++ reprDigits d ++ rest) = _
    rw [hhead]
    cases neg with
    | true => exact (scanOnce_minus f budget y (tail ++ rest)).trans hscan
    | false => exact (scanOnce_digits f budget y (tail ++ rest)).trans hscan

/-! ## Layouts -/

/-- How strings are printed and which white space stands between the parts. -/
structure Layout where
  /-- A string between its quotes. -/
  body : PyStr → PyStr
  /-- The strings that are read back. -/
  Readable : PyStr → Prop
  length_le : ∀ s, s.length ≤ (body s).length
  scan : ∀ {s : PyStr}, Readable s → ∀ rest fuel, s.length < fuel →
    scanString fuel (body s ++ 34 :: rest) = .ok (s, rest)
  afterOpen : Nat → PyStr
  afterComma : Nat → PyStr
  beforeClose : Nat → PyStr
  afterColon : PyStr
  skip_open : ∀ level s, skipWs (afterOpen level ++ s) = skipWs s
  skip_comma : ∀ level s, skipWs (afterComma level ++ s) = skipWs s
  skip_close : ∀ level s, skipWs (beforeClose level ++ s) = skipWs s
  skip_colon : ∀ s, skipWs (afterColon ++ s) = skipWs s
  /-- A number that is the last item is followed by its bracket or by a line break. -/
  close_head : ∀ level, ∀ c ∈ (beforeClose level).head?, c = 10

namespace Layout

variable (L : Layout)

def str (s : PyStr) : PyStr := 34 :: (L.body s ++ [34])

mutual

/-- A value whose containers close at `level`. -/
def text (level : Nat) : Json → PyStr
  | .null => py "null"
  | .bool b => if b then py "true" else py "false"
  | .int i => intStr i
  | .float x => dumpsFloat x
  | .str s => L.str s
  | .list [] => py "[]"
  | .list (v :: rest) =>
    91 :: (L.afterOpen (level + 1) ++ (text (level + 1) v ++ (items (level + 1) rest ++
      (L.beforeClose level ++ [93]))))
  | .dict [] => py "\x7b\x7d"
  | .dict ((k, v) :: rest) =>
    123 :: (L.afterOpen (level + 1) ++ (L.str k ++ (58 :: (L.afterColon ++ (text (level + 1) v ++
      (members (level + 1) rest ++ (L.beforeClose level ++ [125])))))))

/-- The items after the first. -/
def items (level : Nat) : List Json → PyStr
  | [] => []
  | v :: rest => 44 :: (L.afterComma level ++ (text level v ++ items level rest))

def members (level : Nat) : List (PyStr × Json) → PyStr
  | [] => []
  | (k, v) :: rest =>
    44 :: (L.afterComma level ++ (L.str k ++ (58 :: (L.afterColon ++ (text level v ++
      members level rest)))))

end

/-- Every string of the value is read back, its keys included. -/
def ReadableText (v : Json) : Prop :=
  v.Forall fun
    | .str s => L.Readable s
    | .dict entries => ∀ kv ∈ entries, L.Readable kv.1
    | _ => True

variable {L}

theorem reads_str {s : PyStr} (h : L.Readable s) (budget : Nat) : Reads budget (L.str s) (.str s) := by
  intro fuel rest _ hfuel
  obtain ⟨f, rfl⟩ := Nat.exists_eq_succ_of_ne_zero (by omega : fuel ≠ 0)
  have hlen := L.length_le s
  have hscan := L.scan h rest ((L.body s ++ 34 :: rest).length + 1) (by
    rw [List.length_append]
    omega)
  have htext : L.str s ++ rest = 34 :: (L.body s ++ 34 :: rest) := by
    rw [str, List.cons_append, List.append_assoc]
    rfl
  rw [htext, scanOnce, if_pos rfl, hscan]

omit [Runtime] in
theorem text_head (level : Nat) (v : Json) :
    ∃ c rest, L.text level v = c :: rest ∧ isWs c = false ∧ c ≠ 93 ∧ c ≠ 0xFEFF := by
  have hdigit : ∀ d : Fin 10, isWs (digit d) = false ∧ digit d ≠ 93 ∧ digit d ≠ 0xFEFF := by decide
  cases v with
  | null => exact ⟨_, _, rfl, by decide⟩
  | bool b => cases b <;> exact ⟨_, _, rfl, by decide⟩
  | int i =>
    obtain ⟨d, tail, hhead⟩ := natStr_head i.natAbs
    unfold text intStr
    rw [hhead]
    by_cases hneg : i < 0
    · rw [if_pos hneg]
      exact ⟨45, _, rfl, by decide⟩
    · rw [if_neg hneg]
      exact ⟨digit d, _, rfl, hdigit d⟩
  | float x =>
    cases x with
    | nan => exact ⟨_, _, rfl, by decide⟩
    | inf neg => cases neg <;> exact ⟨_, _, rfl, by decide⟩
    | zero neg => cases neg <;> exact ⟨_, _, rfl, by decide⟩
    | dec neg d =>
      obtain ⟨y, tail, hhead⟩ := reprDigits_head d
      show ∃ c rest, (if neg then py "-" else []) ++ reprDigits d = c :: rest ∧ _
      rw [hhead]
      cases neg with
      | true => exact ⟨45, _, rfl, by decide⟩
      | false => exact ⟨digit y, _, rfl, hdigit y⟩
  | str s => exact ⟨34, _, rfl, by decide⟩
  | list items => cases items <;> exact ⟨91, _, rfl, by decide⟩
  | dict entries => cases entries <;> exact ⟨123, _, rfl, by decide⟩

omit [Runtime] in
theorem skipWs_text (level : Nat) (v : Json) (s : PyStr) :
    skipWs (L.text level v ++ s) = L.text level v ++ s := by
  obtain ⟨c, rest, hv, hws, -⟩ := L.text_head level v
  rw [hv, List.cons_append, skipWs_cons hws]

omit [Runtime] in
/-- What closes a container does not go on with a number. -/
theorem stops_close (level : Nat) {c : CodePoint} (hc : c = 93 ∨ c = 125) (s : PyStr) :
    StopsNumber (L.beforeClose level ++ c :: s) := by
  intro d hd
  cases hgap : L.beforeClose level with
  | nil =>
    rw [hgap] at hd
    rw [← Option.some.inj hd]
    exact .inr (hc.elim .inl fun h => .inr (.inl h))
  | cons g gap =>
    rw [hgap] at hd
    rw [← Option.some.inj hd]
    exact .inr (.inr (.inr (L.close_head level g (by rw [hgap]; rfl))))

omit [Runtime] in
/-- What follows a value in its list. -/
theorem stops_items (level : Nat) (items : List Json) (s : PyStr) :
    StopsNumber (L.items level items ++ (L.beforeClose (level - 1) ++ 93 :: s)) := by
  cases items with
  | nil => exact stops_close _ (.inl rfl) s
  | cons w items =>
    intro c hc
    exact .inl (Option.some.inj hc).symm

/-- A list after its bracket, from an item on. -/
theorem scanItems_text {budget level : Nat} {v : Json} {items : List Json}
    (h : ∀ w ∈ v :: items, Reads budget (L.text level w) w) (fuel : Nat) (acc : List Json)
    (rest : PyStr) (hfuel : 2 * (L.text level v ++ (L.items level items ++
      (L.beforeClose (level - 1) ++ 93 :: rest))).length + 2 ≤ fuel) :
    scanItems fuel budget acc (L.text level v ++ (L.items level items ++
      (L.beforeClose (level - 1) ++ 93 :: rest))) = .ok (.list (acc ++ v :: items), rest) := by
  induction items generalizing v fuel acc with
  | nil =>
    obtain ⟨f, rfl⟩ := Nat.exists_eq_succ_of_ne_zero (by omega : fuel ≠ 0)
    have hv := h v (.head _) f _ (L.stops_items level [] rest) (by omega)
    have hclose : skipWs (L.items level [] ++ (L.beforeClose (level - 1) ++ 93 :: rest)) =
        93 :: rest := (L.skip_close _ _).trans (skipWs_cons (by decide) rest)
    rw [scanItems, hv]
    simp only [hclose, if_true]
  | cons w items ih =>
    obtain ⟨f, rfl⟩ := Nat.exists_eq_succ_of_ne_zero (by omega : fuel ≠ 0)
    have hv := h v (.head _) f _ (L.stops_items level (w :: items) rest) (by omega)
    have hshape : L.items level (w :: items) ++ (L.beforeClose (level - 1) ++ 93 :: rest) =
        44 :: (L.afterComma level ++ (L.text level w ++ (L.items level items ++
          (L.beforeClose (level - 1) ++ 93 :: rest)))) := by
      rw [Layout.items, List.cons_append, List.append_assoc, List.append_assoc]
    have hlen : 2 * (L.text level w ++ (L.items level items ++
        (L.beforeClose (level - 1) ++ 93 :: rest))).length + 2 ≤ f := by
      rw [hshape] at hfuel
      simp only [List.length_append, List.length_cons] at hfuel ⊢
      omega
    have hrest := ih (v := w) (fun u hu => h u (.tail _ hu)) f (acc ++ [v]) hlen
    have hcomma : skipWs (L.items level (w :: items) ++ (L.beforeClose (level - 1) ++ 93 :: rest)) =
        44 :: (L.afterComma level ++ (L.text level w ++ (L.items level items ++
          (L.beforeClose (level - 1) ++ 93 :: rest)))) := by
      rw [hshape, skipWs_cons (by decide)]
    rw [scanItems, hv]
    simp only [hcomma]
    rw [if_neg (by decide), if_true, L.skip_comma, skipWs_text, hrest, List.append_assoc,
      List.singleton_append]

variable (L) in
/-- A member of an object, as far as its value. -/
def member (level : Nat) (kv : PyStr × Json) : PyStr :=
  L.str kv.1 ++ (58 :: (L.afterColon ++ L.text level kv.2))

/-- The head of one member: its key and its colon. -/
theorem scanMembers_head {level : Nat} {kv : PyStr × Json} (hkey : L.Readable kv.1)
    (fuel budget : Nat) (acc : Dict) (rest : PyStr) :
    scanMembers (fuel + 1) budget acc (L.member level kv ++ rest) =
      match scanOnce fuel budget (L.text level kv.2 ++ rest) with
      | .error err => .error err
      | .ok (v, rest) =>
        match skipWs rest with
        | [] => .error .decode
        | c :: rest =>
          if c = 125 then .ok (.dict (acc.set kv.1 v), rest)
          else if c = 44 then scanMembers fuel budget (acc.set kv.1 v) (skipWs rest)
          else .error .decode := by
  have htext : L.member level kv ++ rest =
      34 :: (L.body kv.1 ++ 34 :: (58 :: (L.afterColon ++ (L.text level kv.2 ++ rest)))) := by
    unfold member str
    simp only [List.cons_append, List.append_assoc, List.nil_append]
  have hfuel : kv.1.length < (L.member level kv ++ rest).length := by
    have hlen := L.length_le kv.1
    rw [htext]
    simp only [List.length_cons, List.length_append]
    omega
  have hscan := L.scan hkey (58 :: (L.afterColon ++ (L.text level kv.2 ++ rest))) _ hfuel
  have hspace : skipWs (L.afterColon ++ (L.text level kv.2 ++ rest)) = L.text level kv.2 ++ rest :=
    (L.skip_colon _).trans (skipWs_text level kv.2 rest)
  rw [scanMembers, if_neg (by rw [htext]; simp), show (L.member level kv ++ rest).tail =
    L.body kv.1 ++ 34 :: (58 :: (L.afterColon ++ (L.text level kv.2 ++ rest))) by rw [htext]; rfl,
    hscan]
  simp only [skipWs_cons (show isWs 58 = false by decide), List.head?_cons, ne_eq, not_true_eq_false,
    if_false, List.tail_cons, hspace]
  all_goals rfl

omit [Runtime] in
/-- What follows a value in its object. -/
theorem stops_members (level : Nat) (entries : Dict) (s : PyStr) :
    StopsNumber (L.members level entries ++ (L.beforeClose (level - 1) ++ 125 :: s)) := by
  cases entries with
  | nil => exact stops_close _ (.inr rfl) s
  | cons kw entries =>
    intro c hc
    exact .inl (Option.some.inj hc).symm

omit [Runtime] in
theorem set_new {acc : Dict} {kv : PyStr × Json} {keys : List PyStr}
    (h : (acc.keys ++ kv.1 :: keys).Nodup) : acc.set kv.1 kv.2 = acc ++ [kv] := by
  refine Dict.set_of_not_mem (fun hmem => ?_) _
  rw [List.nodup_append] at h
  exact h.2.2 _ hmem _ (.head _) rfl

/-- An object after its brace, from a member on. -/
theorem scanMembers_text {budget level : Nat} {kv : PyStr × Json} {entries : Dict}
    (h : ∀ kw ∈ kv :: entries, L.Readable kw.1 ∧ Reads budget (L.text level kw.2) kw.2)
    (fuel : Nat) (acc : Dict) (rest : PyStr)
    (hkeys : (acc.keys ++ (kv :: entries).map Prod.fst).Nodup)
    (hfuel : 2 * (L.member level kv ++ (L.members level entries ++
      (L.beforeClose (level - 1) ++ 125 :: rest))).length + 2 ≤ fuel) :
    scanMembers fuel budget acc (L.member level kv ++ (L.members level entries ++
      (L.beforeClose (level - 1) ++ 125 :: rest))) = .ok (.dict (acc ++ kv :: entries), rest) := by
  have hvalue : ∀ s, 2 * (L.text level kv.2 ++ s).length + 1 ≤
      2 * (L.member level kv ++ s).length := by
    intro s
    simp only [member, str, List.length_append, List.length_cons]
    omega
  induction entries generalizing kv fuel acc with
  | nil =>
    obtain ⟨f, rfl⟩ := Nat.exists_eq_succ_of_ne_zero (by omega : fuel ≠ 0)
    have hv := (h kv (.head _)).2 f _ (L.stops_members level [] rest) ((hvalue _).trans (by omega))
    have hclose : skipWs (L.members level [] ++ (L.beforeClose (level - 1) ++ 125 :: rest)) =
        125 :: rest := (L.skip_close _ _).trans (skipWs_cons (by decide) rest)
    rw [scanMembers_head (h kv (.head _)).1, hv]
    simp only [hclose, if_true]
    rw [set_new hkeys]
  | cons kw entries ih =>
    obtain ⟨f, rfl⟩ := Nat.exists_eq_succ_of_ne_zero (by omega : fuel ≠ 0)
    have hv := (h kv (.head _)).2 f _ (L.stops_members level (kw :: entries) rest)
      ((hvalue _).trans (by omega))
    have hshape : L.members level (kw :: entries) ++ (L.beforeClose (level - 1) ++ 125 :: rest) =
        44 :: (L.afterComma level ++ (L.member level kw ++ (L.members level entries ++
          (L.beforeClose (level - 1) ++ 125 :: rest)))) := by
      simp only [members, member, List.cons_append, List.append_assoc]
    have hlen : 2 * (L.member level kw ++ (L.members level entries ++
        (L.beforeClose (level - 1) ++ 125 :: rest))).length + 2 ≤ f := by
      rw [hshape] at hfuel
      simp only [List.length_append, List.length_cons] at hfuel ⊢
      omega
    have hkeys' : (Dict.keys (acc ++ [kv]) ++ (kw :: entries).map Prod.fst).Nodup := by
      rw [Dict.keys, List.map_append, List.append_assoc]
      exact hkeys
    have hrest := @ih kw (fun u hu => h u (.tail _ hu)) f (acc ++ [kv]) hkeys' hlen (by
      intro s
      simp only [member, str, List.length_append, List.length_cons]
      omega)
    have hcomma : skipWs (L.members level (kw :: entries) ++
        (L.beforeClose (level - 1) ++ 125 :: rest)) =
          44 :: (L.afterComma level ++ (L.member level kw ++ (L.members level entries ++
            (L.beforeClose (level - 1) ++ 125 :: rest)))) := by
      rw [hshape, skipWs_cons (by decide)]
    have hquote : skipWs (L.member level kw ++ (L.members level entries ++
        (L.beforeClose (level - 1) ++ 125 :: rest))) = L.member level kw ++
          (L.members level entries ++ (L.beforeClose (level - 1) ++ 125 :: rest)) :=
      skipWs_cons (by decide) _
    rw [scanMembers_head (h kv (.head _)).1, hv]
    simp only [hcomma]
    rw [if_neg (by decide), if_true, L.skip_comma, hquote, set_new hkeys, hrest, List.append_assoc,
      List.singleton_append]

/-! ## Values -/

omit [Runtime] in
theorem dumpsErrorList_iff {room : Nat} {items : List Json} :
    dumpsErrorList room items = none ↔ ∀ v ∈ items, dumpsError room v = none := by
  induction items with
  | nil => exact iff_of_true rfl (List.forall_mem_nil _)
  | cons v rest ih => rw [dumpsErrorList, Option.or_eq_none_iff, ih, List.forall_mem_cons]

omit [Runtime] in
theorem dumpsErrorDict_iff {room : Nat} {entries : Dict} :
    dumpsErrorDict room entries = none ↔ ∀ kv ∈ entries, dumpsError room kv.2 = none := by
  induction entries with
  | nil => exact iff_of_true rfl (List.forall_mem_nil _)
  | cons kv rest ih => rw [dumpsErrorDict, Option.or_eq_none_iff, ih, List.forall_mem_cons]

omit [Runtime] in
theorem budget_of_list {budget : Nat} {items : List Json}
    (h : dumpsError budget (.list items) = none) :
    budget ≠ 0 ∧ ∀ v ∈ items, dumpsError (budget - 1) v = none := by
  rw [dumpsError] at h
  by_cases hb : budget = 0
  · rw [if_pos hb] at h
    cases h
  · rw [if_neg hb] at h
    exact ⟨hb, dumpsErrorList_iff.mp h⟩

omit [Runtime] in
theorem budget_of_dict {budget : Nat} {entries : Dict}
    (h : dumpsError budget (.dict entries) = none) :
    budget ≠ 0 ∧ ∀ kv ∈ entries, dumpsError (budget - 1) kv.2 = none := by
  rw [dumpsError] at h
  by_cases hb : budget = 0
  · rw [if_pos hb] at h
    cases h
  · rw [if_neg hb] at h
    exact ⟨hb, dumpsErrorDict_iff.mp h⟩

/-- The scanner reads the text of every value that can be written. -/
theorem reads (v : Json) (hheld : Held v) (budget level : Nat) (hroom : dumpsError budget v = none)
    (htext : L.ReadableText v) : Reads budget (L.text level v) v := by
  -- the fuel only has to exceed the text, and the budget shrinks with the nesting of the value
  induction v using Json.induction generalizing budget level with
  | null =>
    intro fuel rest _ hfuel
    obtain ⟨f, rfl⟩ := Nat.exists_eq_succ_of_ne_zero (by omega : fuel ≠ 0)
    rfl
  | bool b =>
    intro fuel rest _ hfuel
    obtain ⟨f, rfl⟩ := Nat.exists_eq_succ_of_ne_zero (by omega : fuel ≠ 0)
    cases b <;> rfl
  | int i =>
    apply reads_int
    rw [dumpsError] at hroom
    by_contra hlong
    rw [if_pos (by omega)] at hroom
    cases hroom
  | float x => exact reads_float hheld budget
  | str s => exact reads_str htext budget
  | list items ih =>
    obtain ⟨hbudget, hitems⟩ := budget_of_list hroom
    have hheldItems := (Json.forall_list.mp hheld).2
    have htextItems := (Json.forall_list.mp htext).2
    intro fuel rest _ hfuel
    obtain ⟨f, rfl⟩ := Nat.exists_eq_succ_of_ne_zero (by omega : fuel ≠ 0)
    cases items with
    | nil =>
      show scanOnce (f + 1) budget (91 :: 93 :: rest) = _
      rw [scanOnce, if_neg (by decide), if_neg (by decide), if_pos rfl, if_neg hbudget]
      rfl
    | cons w items =>
      -- whatever the layout puts between the brackets, the scanner skips it
      have hshape : L.text level (.list (w :: items)) ++ rest =
          91 :: (L.afterOpen (level + 1) ++ (L.text (level + 1) w ++ (L.items (level + 1) items ++
            (L.beforeClose (level + 1 - 1) ++ 93 :: rest)))) := by
        simp only [text, List.cons_append, List.append_assoc, Nat.add_sub_cancel, List.nil_append]
      have hreads : ∀ u ∈ w :: items, Reads (budget - 1) (L.text (level + 1) u) u := by
        intro u hu
        exact ih u hu (hheldItems u hu) _ _ (hitems u hu) (htextItems u hu)
      obtain ⟨c, tail, hw, -, h93, -⟩ := L.text_head (level + 1) w
      rw [hshape] at hfuel ⊢
      have hskip := L.skipWs_text (level + 1) w (L.items (level + 1) items ++
        (L.beforeClose (level + 1 - 1) ++ 93 :: rest))
      have hscan := scanItems_text hreads f [] rest (by
        simp only [List.length_append, List.length_cons] at hfuel ⊢
        omega)
      rw [scanOnce, if_neg (by decide), if_neg (by decide), if_pos rfl, if_neg hbudget,
        L.skip_open, hskip, if_neg (by rw [hw]; simpa using h93), hscan]
      rfl
  | dict entries ih =>
    obtain ⟨hbudget, hentries⟩ := budget_of_dict hroom
    obtain ⟨hkeys, hheldEntries⟩ := Json.forall_dict.mp hheld
    obtain ⟨htextKeys, htextEntries⟩ := Json.forall_dict.mp htext
    intro fuel rest _ hfuel
    obtain ⟨f, rfl⟩ := Nat.exists_eq_succ_of_ne_zero (by omega : fuel ≠ 0)
    cases entries with
    | nil =>
      show scanOnce (f + 1) budget (123 :: 125 :: rest) = _
      rw [scanOnce, if_neg (by decide), if_pos rfl, if_neg hbudget]
      rfl
    | cons kv entries =>
      have hshape : L.text level (.dict (kv :: entries)) ++ rest =
          123 :: (L.afterOpen (level + 1) ++ (L.member (level + 1) kv ++
            (L.members (level + 1) entries ++ (L.beforeClose (level + 1 - 1) ++ 125 :: rest)))) := by
        simp only [text, member, List.cons_append, List.append_assoc, Nat.add_sub_cancel,
          List.nil_append]
      have hreads : ∀ kw ∈ kv :: entries, L.Readable kw.1 ∧
          Reads (budget - 1) (L.text (level + 1) kw.2) kw.2 := by
        intro kw hkw
        exact ⟨htextKeys kw hkw,
          ih kw hkw (hheldEntries kw hkw) _ _ (hentries kw hkw) (htextEntries kw hkw)⟩
      have hquote : skipWs (L.member (level + 1) kv ++ (L.members (level + 1) entries ++
          (L.beforeClose (level + 1 - 1) ++ 125 :: rest))) = L.member (level + 1) kv ++
            (L.members (level + 1) entries ++ (L.beforeClose (level + 1 - 1) ++ 125 :: rest)) :=
        skipWs_cons (by decide) _
      -- a member starts with its quote, so the object is not empty
      have hhead : (L.member (level + 1) kv ++ (L.members (level + 1) entries ++
          (L.beforeClose (level + 1 - 1) ++ 125 :: rest))).head? ≠ some 125 :=
        fun h => absurd (Option.some.inj h) (by decide)
      rw [hshape] at hfuel ⊢
      have hscan := scanMembers_text hreads f [] rest hkeys (by
        simp only [List.length_append, List.length_cons] at hfuel ⊢
        omega)
      rw [scanOnce, if_neg (by decide), if_pos rfl, if_neg hbudget, L.skip_open, hquote,
        if_neg hhead, hscan]
      rfl

/-- `json.loads` of a printed value and what may stand after it. -/
theorem loads_text {v : Json} (hheld : Held v) {budget level : Nat}
    (hroom : dumpsError budget v = none) (htext : L.ReadableText v) {rest : PyStr}
    (hstops : StopsNumber rest) (hrest : skipWs rest = []) :
    loads budget (L.text level v ++ rest) = .ok v := by
  have hreads := reads v hheld budget level hroom htext (2 * (L.text level v ++ rest).length + 1) rest
    hstops (Nat.le_refl _)
  obtain ⟨c, tail, hhead, -, -, hbom⟩ := L.text_head level v
  have hfirst : (L.text level v ++ rest).head? ≠ some 0xFEFF := by
    rw [hhead, List.cons_append, List.head?_cons, ne_eq, Option.some.injEq]
    exact hbom
  rw [loads, if_neg hfirst, skipWs_text, hreads]
  exact if_pos hrest

end Layout

end HassNode.Indent
