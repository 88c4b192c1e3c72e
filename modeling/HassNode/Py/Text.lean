import HassNode.Py.Value

/-!
# Text functions of the standard library

UTF-8, `urllib.parse.quote`, `fnmatch.fnmatchcase`, `str.splitlines`, `int(text)` and the numeric
comparisons that the handlers use.
-/

namespace Py

/-! ## UTF-8 -/

def unencodable (c : CodePoint) : Bool := 0xD800 ≤ c.val && c.val < 0xE000

def utf8Char (c : CodePoint) : List Nat :=
  let n := c.val
  if n < 0x80 then [n]
  else if n < 0x800 then [0xC0 + n / 64, 0x80 + n % 64]
  else if n < 0x10000 then [0xE0 + n / 4096, 0x80 + n / 64 % 64, 0x80 + n % 64]
  else [0xF0 + n / 262144, 0x80 + n / 4096 % 64, 0x80 + n / 64 % 64, 0x80 + n % 64]

/-- `s.encode("utf-8")`; `none` is the `UnicodeEncodeError` of a lone surrogate. -/
def encodeUtf8 (s : PyStr) : Option (List Nat) :=
  if s.any unencodable then none else some (s.flatMap utf8Char)

/-! Decoding -/

def isContinuation (b : Nat) : Bool := 0x80 ≤ b && b < 0xC0

/-- The first character of strict UTF-8; overlong forms and surrogates are refused. -/
def decodeChar : List Nat → Option (CodePoint × List Nat)
  | [] => none
  | b :: rest =>
    if b < 0x80 then some (Fin.ofNat _ b, rest)
    else if 0xC2 ≤ b ∧ b ≤ 0xDF then
      match rest with
      | c :: rest =>
        if isContinuation c then some (Fin.ofNat _ ((b - 0xC0) * 64 + (c - 0x80)), rest) else none
      | _ => none
    else if 0xE0 ≤ b ∧ b ≤ 0xEF then
      match rest with
      | c :: d :: rest =>
        let n := (b - 0xE0) * 4096 + (c - 0x80) * 64 + (d - 0x80)
        if isContinuation c ∧ isContinuation d ∧ 0x800 ≤ n ∧ ¬ (0xD800 ≤ n ∧ n < 0xE000) then
          some (Fin.ofNat _ n, rest)
        else none
      | _ => none
    else if 0xF0 ≤ b ∧ b ≤ 0xF4 then
      match rest with
      | c :: d :: e :: rest =>
        let n := (b - 0xF0) * 262144 + (c - 0x80) * 4096 + (d - 0x80) * 64 + (e - 0x80)
        if isContinuation c ∧ isContinuation d ∧ isContinuation e ∧ 0x10000 ≤ n ∧ n < 0x110000 then
          some (Fin.ofNat _ n, rest)
        else none
      | _ => none
    else none

def decodeChars : Nat → List Nat → Option PyStr
  | _, [] => some []
  | 0, _ :: _ => none
  | fuel + 1, bytes => do
    let (c, rest) ← decodeChar bytes
    return c :: (← decodeChars fuel rest)

/-- `raw.decode("utf-8")`; `none` is `UnicodeDecodeError`. -/
def decodeUtf8 (raw : List Nat) : Option PyStr := decodeChars raw.length raw

theorem decodeChar_utf8Char {c : CodePoint} (h : unencodable c = false) (rest : List Nat) :
    decodeChar (utf8Char c ++ rest) = some (c, rest) := by
  have hc := c.isLt
  have hback : ∀ n, n = c.val → Fin.ofNat 0x110000 n = c := by
    intro n hn
    rw [hn]
    exact Fin.ofNat_val_eq_self c
  simp only [unencodable, Bool.and_eq_false_iff, decide_eq_false_iff_not] at h
  have hcont : ∀ n, isContinuation (0x80 + n % 64) = true := by
    intro n
    simp only [isContinuation, Bool.and_eq_true, decide_eq_true_eq]
    omega
  by_cases h1 : c.val < 0x80
  · have hchar : utf8Char c = [c.val] := by
      simp only [utf8Char, if_pos h1]
    rw [hchar]
    show (if c.val < 0x80 then some (Fin.ofNat _ c.val, rest) else _) = _
    rw [if_pos h1, hback _ rfl]
  by_cases h2 : c.val < 0x800
  · have hchar : utf8Char c = [0xC0 + c.val / 64, 0x80 + c.val % 64] := by
      simp only [utf8Char, if_neg h1, if_pos h2]
    rw [hchar]
    show (if 0xC0 + c.val / 64 < 0x80 then _ else if _ then
      if isContinuation (0x80 + c.val % 64) = true then some (Fin.ofNat _ _, rest) else none
      else _) = _
    rw [if_neg (by omega), if_pos (by omega), if_pos (hcont _), hback _ (by omega)]
  by_cases h3 : c.val < 0x10000
  · have hchar : utf8Char c =
        [0xE0 + c.val / 4096, 0x80 + c.val / 64 % 64, 0x80 + c.val % 64] := by
      simp only [utf8Char, if_neg h1, if_neg h2, if_pos h3]
    rw [hchar]
    show (if 0xE0 + c.val / 4096 < 0x80 then _ else if _ then _ else if _ then
      if isContinuation (0x80 + c.val / 64 % 64) = true ∧ isContinuation (0x80 + c.val % 64) = true ∧ _
        then some (Fin.ofNat _ _, rest) else none
      else _) = _
    rw [if_neg (by omega), if_neg (by omega), if_pos (by omega),
      if_pos ⟨hcont _, hcont _, by omega, by omega⟩, hback _ (by omega)]
  · have hchar : utf8Char c = [0xF0 + c.val / 262144, 0x80 + c.val / 4096 % 64,
        0x80 + c.val / 64 % 64, 0x80 + c.val % 64] := by
      simp only [utf8Char, if_neg h1, if_neg h2, if_neg h3]
    rw [hchar]
    show (if 0xF0 + c.val / 262144 < 0x80 then _ else if _ then _ else if _ then _ else if _ then
      if isContinuation (0x80 + c.val / 4096 % 64) = true ∧
          isContinuation (0x80 + c.val / 64 % 64) = true ∧
          isContinuation (0x80 + c.val % 64) = true ∧ _
        then some (Fin.ofNat _ _, rest) else none
      else _) = _
    rw [if_neg (by omega), if_neg (by omega), if_neg (by omega), if_pos (by omega),
      if_pos ⟨hcont _, hcont _, hcont _, by omega, by omega⟩, hback _ (by omega)]

theorem length_utf8Char_pos (c : CodePoint) : 0 < (utf8Char c).length := by
  unfold utf8Char
  simp only
  split_ifs <;> simp

theorem decodeChars_flatMap {s : PyStr} (h : s.any unencodable = false) {fuel : Nat}
    (hfuel : s.length ≤ fuel) : decodeChars fuel (s.flatMap utf8Char) = some s := by
  induction s generalizing fuel with
  | nil => cases fuel <;> rfl
  | cons c s ih =>
    rw [List.any_cons, Bool.or_eq_false_iff] at h
    cases fuel with
    | zero => cases hfuel
    | succ fuel =>
      have hne : utf8Char c ++ s.flatMap utf8Char ≠ [] := fun hnil =>
        absurd (length_utf8Char_pos c) (by rw [(List.append_eq_nil_iff.mp hnil).1]; decide)
      rw [List.flatMap_cons, decodeChars, decodeChar_utf8Char h.1]
      · show (decodeChars fuel (s.flatMap utf8Char)).bind (fun rest => some (c :: rest)) = _
        rw [ih h.2 (Nat.le_of_succ_le_succ hfuel)]
        rfl
      · exact hne

/-- What was encoded is decoded. -/
theorem decodeUtf8_encodeUtf8 {s : PyStr} {raw : List Nat} (h : encodeUtf8 s = some raw) :
    decodeUtf8 raw = some s := by
  unfold encodeUtf8 at h
  by_cases hany : s.any unencodable = true
  · rw [if_pos hany] at h
    cases h
  · rw [if_neg hany, Option.some.injEq] at h
    rw [Bool.not_eq_true] at hany
    rw [← h]
    apply decodeChars_flatMap hany
    clear hany h
    induction s with
    | nil => exact Nat.le_refl _
    | cons c s ih =>
      have hpos := length_utf8Char_pos c
      rw [List.flatMap_cons, List.length_append, List.length_cons]
      omega

def Ascii (t : PyStr) : Prop := ∀ c ∈ t, c.val < 0x80

theorem ascii_nil : Ascii [] := fun _ hc => absurd hc List.not_mem_nil

/-- For the fixed texts: the test evaluates. -/
theorem ascii_of_all {s : PyStr} (h : s.all (fun c => decide (c.val < 0x80)) = true) : Ascii s :=
  fun c hc => of_decide_eq_true (List.all_eq_true.mp h c hc)

theorem Ascii.append {s t : PyStr} (hs : Ascii s) (ht : Ascii t) : Ascii (s ++ t) := by
  intro c hc
  rcases List.mem_append.mp hc with hc | hc
  · exact hs c hc
  · exact ht c hc

/-- Printable ASCII: what no reader of lines splits at. -/
def Printable (t : PyStr) : Prop := ∀ c ∈ t, 0x20 ≤ c.val ∧ c.val < 0x7F

theorem Printable.ascii {t : PyStr} (h : Printable t) : Ascii t :=
  fun c hc => (h c hc).2.trans (by decide)

theorem printable_nil : Printable [] := fun _ hc => absurd hc List.not_mem_nil

theorem printable_of_all {s : PyStr}
    (h : s.all (fun c => decide (0x20 ≤ c.val ∧ c.val < 0x7F)) = true) : Printable s :=
  fun c hc => of_decide_eq_true (List.all_eq_true.mp h c hc)

theorem Printable.append {s t : PyStr} (hs : Printable s) (ht : Printable t) : Printable (s ++ t) := by
  intro c hc
  rcases List.mem_append.mp hc with hc | hc
  · exact hs c hc
  · exact ht c hc

theorem printable_digitStr (ds : List (Fin 10)) : Printable (digitStr ds) := by
  intro c hc
  obtain ⟨d, -, rfl⟩ := List.mem_map.mp hc
  change 0x20 ≤ 48 + d.val ∧ 48 + d.val < 0x7F
  omega

theorem ascii_digitStr (ds : List (Fin 10)) : Ascii (digitStr ds) := (printable_digitStr ds).ascii

theorem printable_hexDigits (width n : Nat) : Printable (hexDigits width n) := by
  intro c hc
  obtain ⟨i, -, rfl⟩ := List.mem_map.mp hc
  unfold hexDigit
  split <;> simp only <;> omega

theorem hexDigits_ascii (width n : Nat) : Ascii (hexDigits width n) :=
  (printable_hexDigits width n).ascii

/-- An ASCII text has one byte for each character. -/
theorem encodeUtf8_ascii {t : PyStr} (h : Ascii t) : encodeUtf8 t = some (t.map Fin.val) := by
  have hsurrogate : t.any unencodable = false := by
    rw [List.any_eq_false]
    intro c hc
    have hlt := h c hc
    unfold unencodable
    simp only [Bool.and_eq_true, decide_eq_true_eq, not_and, not_lt]
    omega
  have hbytes : t.flatMap utf8Char = t.map Fin.val := by
    rw [← List.flatMap_singleton' (t.map Fin.val), List.flatMap_map]
    apply List.flatMap_congr
    intro c hc
    exact if_pos (h c hc)
  unfold encodeUtf8
  rw [hsurrogate, hbytes]
  rfl

/-! ## Percent-encoding -/

def upperHex (n : Nat) : CodePoint :=
  if n % 16 < 10 then ⟨48 + n % 16, by omega⟩ else ⟨55 + n % 16, by omega⟩

/-- The bytes that `quote` never escapes. -/
def isUnreserved (b : Nat) : Bool :=
  (48 ≤ b && b ≤ 57) || (65 ≤ b && b ≤ 90) || (97 ≤ b && b ≤ 122) ||
    b = 95 || b = 46 || b = 45 || b = 126

def quoteByte (safe : List Nat) (b : Nat) : PyStr :=
  if isUnreserved b || safe.contains b then [Fin.ofNat 0x110000 b]
  else [37, upperHex (b / 16), upperHex b]

/-- `quote(value, safe)`. -/
def quote (safe : List Nat) (value : PyStr) : Option PyStr :=
  (encodeUtf8 value).map fun bytes => bytes.flatMap (quoteByte safe)

theorem utf8Char_lt {c : CodePoint} {b : Nat} (hb : b ∈ utf8Char c) : b < 256 := by
  have hc := c.isLt
  unfold utf8Char at hb
  simp only at hb
  split_ifs at hb <;> simp only [List.mem_cons, List.not_mem_nil, or_false] at hb <;> omega

theorem encodeUtf8_lt {s : PyStr} {raw : List Nat} (h : encodeUtf8 s = some raw) {b : Nat}
    (hb : b ∈ raw) : b < 256 := by
  unfold encodeUtf8 at h
  split at h
  · cases h
  · rw [← Option.some.inj h] at hb
    obtain ⟨c, -, hc⟩ := List.mem_flatMap.mp hb
    exact utf8Char_lt hc

theorem upperHex_inj {m n : Nat} (h : upperHex m = upperHex n) : m % 16 = n % 16 := by
  have hval := congrArg Fin.val h
  unfold upperHex at hval
  split_ifs at hval <;> simp only at hval <;> omega

/-- An escaped byte and a plain one begin differently, and either can be read off. -/
theorem quoteByte_cancel {safe : List Nat} (hsafe : 37 ∉ safe) {b c : Nat} (hb : b < 256)
    (hc : c < 256) {s t : PyStr} (h : quoteByte safe b ++ s = quoteByte safe c ++ t) :
    b = c ∧ s = t := by
  have hplain : ∀ d : Nat, d < 256 → (isUnreserved d || safe.contains d) = true →
      quoteByte safe d = [Fin.ofNat 0x110000 d] ∧ (Fin.ofNat 0x110000 d).val = d ∧ d ≠ 37 := by
    intro d hd hkeep
    refine ⟨if_pos hkeep, Nat.mod_eq_of_lt (by omega), ?_⟩
    rintro rfl
    simp [isUnreserved, hsafe] at hkeep
  have hescaped : ∀ d : Nat, ¬ (isUnreserved d || safe.contains d) = true →
      quoteByte safe d = [37, upperHex (d / 16), upperHex d] := fun d hd => if_neg hd
  by_cases hkeepb : (isUnreserved b || safe.contains b) = true
  · obtain ⟨hqb, hvb, hneb⟩ := hplain b hb hkeepb
    by_cases hkeepc : (isUnreserved c || safe.contains c) = true
    · obtain ⟨hqc, hvc, -⟩ := hplain c hc hkeepc
      rw [hqb, hqc] at h
      obtain ⟨hhead, htail⟩ := List.cons.inj h
      have hval := congrArg Fin.val hhead
      rw [hvb, hvc] at hval
      exact ⟨hval, htail⟩
    · rw [hqb, hescaped c hkeepc] at h
      have hval := congrArg Fin.val (List.cons.inj h).1
      rw [hvb] at hval
      exact absurd hval hneb
  · by_cases hkeepc : (isUnreserved c || safe.contains c) = true
    · obtain ⟨hqc, hvc, hnec⟩ := hplain c hc hkeepc
      rw [hqc, hescaped b hkeepb] at h
      have hval := congrArg Fin.val (List.cons.inj h).1
      rw [hvc] at hval
      exact absurd hval.symm hnec
    · rw [hescaped b hkeepb, hescaped c hkeepc] at h
      simp only [List.cons_append, List.nil_append, List.cons.injEq, true_and] at h
      have hhigh := upperHex_inj h.1
      have hlow := upperHex_inj h.2.1
      exact ⟨by omega, h.2.2⟩

/-- Different texts are quoted differently. -/
theorem quote_injective {safe : List Nat} (hsafe : 37 ∉ safe) {s t q : PyStr}
    (hs : quote safe s = some q) (ht : quote safe t = some q) : s = t := by
  obtain ⟨a, ha, hqa⟩ := Option.map_eq_some_iff.mp hs
  obtain ⟨b, hb, hqb⟩ := Option.map_eq_some_iff.mp ht
  have hcancel : ∀ a b : List Nat, (∀ x ∈ a, x < 256) → (∀ x ∈ b, x < 256) →
      a.flatMap (quoteByte safe) = b.flatMap (quoteByte safe) → a = b := by
    have hfull : ∀ x, quoteByte safe x ≠ [] := by
      intro x
      unfold quoteByte
      split_ifs <;> simp
    intro a
    induction a with
    | nil =>
      intro b _ _ h
      cases b with
      | nil => rfl
      | cons y b =>
        rw [List.flatMap_cons] at h
        exact absurd (List.append_eq_nil_iff.mp h.symm).1 (hfull y)
    | cons x a ih =>
      intro b hx hy h
      cases b with
      | nil =>
        rw [List.flatMap_cons] at h
        exact absurd (List.append_eq_nil_iff.mp h).1 (hfull x)
      | cons y b =>
        obtain ⟨heq, hrest⟩ := quoteByte_cancel hsafe (hx x (.head _)) (hy y (.head _)) h
        rw [heq, ih b (fun z hz => hx z (.tail _ hz)) (fun z hz => hy z (.tail _ hz)) hrest]
  have hraw := hcancel a b (fun _ => encodeUtf8_lt ha) (fun _ => encodeUtf8_lt hb) (hqa.trans hqb.symm)
  subst hraw
  exact Option.some.inj ((decodeUtf8_encodeUtf8 ha).symm.trans (decodeUtf8_encodeUtf8 hb))

/-! ## Shell-style patterns -/

inductive GlobToken where
  | star
  | anyChar
  | oneOf (negated : Bool) (members : List CodePoint)
  | char (c : CodePoint)

/-- Membership in the body of a bracket expression, ranges included. -/
def inBracket : List CodePoint → CodePoint → Bool
  | lo :: 45 :: hi :: rest, c => (lo ≤ c && c ≤ hi) || inBracket rest c
  | m :: rest, c => m = c || inBracket rest c
  | [], _ => false

/-- The body of a bracket expression after `[`, and what follows the closing bracket. -/
def bracketBody (text : PyStr) : Option (Bool × List CodePoint × PyStr) :=
  let negated := text.head? = some 33
  let body := if negated then text.drop 1 else text
  -- a bracket that comes first is a member
  let first := if body.head? = some 93 then body.take 1 else []
  let rest := body.drop first.length
  if rest.contains 93 then
    some (negated, first ++ rest.takeWhile (· ≠ 93), (rest.dropWhile (· ≠ 93)).drop 1)
  else none

def globTokens : Nat → PyStr → List GlobToken
  | 0, _ => []
  | _ + 1, [] => []
  | fuel + 1, c :: rest =>
    if c = 42 then .star :: globTokens fuel rest
    else if c = 63 then .anyChar :: globTokens fuel rest
    else if c = 91 then
      match bracketBody rest with
      | some (negated, members, after) => .oneOf negated members :: globTokens fuel after
      | none => .char 91 :: globTokens fuel rest
    else .char c :: globTokens fuel rest

def GlobToken.accepts : GlobToken → CodePoint → Bool
  | .star, _ => true
  | .anyChar, _ => true
  | .oneOf negated members, c => inBracket members c != negated
  | .char d, c => c = d

def globMatch : List GlobToken → PyStr → Bool
  | [], text => text = []
  | .star :: tokens, text => text.tails.any fun rest => globMatch tokens rest
  | token :: tokens, text =>
    match text with
    | [] => false
    | c :: rest => token.accepts c && globMatch tokens rest

/-- `fnmatch.fnmatchcase(name, pattern)`. -/
def fnmatchcase (name pattern : PyStr) : Bool :=
  globMatch (globTokens pattern.length pattern) name

/-! ## Lines -/

/-- The line boundaries of `str.splitlines`. -/
def isLineBreak (c : CodePoint) : Bool :=
  (10 ≤ c.val && c.val ≤ 13) || (28 ≤ c.val && c.val ≤ 30) || c.val = 0x85 || c.val = 0x2028 ||
    c.val = 0x2029

/-- `text.splitlines()` from the line begun with `line`. -/
def splitLinesFrom (line : PyStr) : PyStr → List PyStr
  | [] => if line = [] then [] else [line]
  | 13 :: 10 :: rest => line :: splitLinesFrom [] rest
  | c :: rest =>
    if isLineBreak c then line :: splitLinesFrom [] rest else splitLinesFrom (line ++ [c]) rest

def splitLines (text : PyStr) : List PyStr := splitLinesFrom [] text

/-- `items[-n:]` for a positive `n`. -/
def lastN {α : Type} (n : Nat) (items : List α) : List α := items.drop (items.length - n)

/-! ## Numbers -/

section
variable [Runtime]

/-- Digits with single underscores between them. -/
def underscoredDigits : PyStr → Option (List (Fin 10))
  | [] => some []
  | [c] => (Runtime.decimalValue c).map fun d => [d]
  | c :: 95 :: d :: rest => do
    let first ← Runtime.decimalValue c
    return first :: (← underscoredDigits (d :: rest))
  | c :: rest => do
    let first ← Runtime.decimalValue c
    return first :: (← underscoredDigits rest)

/-- `int(text)`; `none` is `ValueError`. -/
def intOfText (text : PyStr) : Option Int :=
  let trimmed := strip text
  let neg := trimmed.head? = some 45
  let unsigned := if trimmed.head? = some 45 ∨ trimmed.head? = some 43 then trimmed.drop 1 else trimmed
  if unsigned = [] then none
  else
    match underscoredDigits unsigned with
    | none => none
    | some ds => if 4300 < ds.length then none
      else some (if neg then -(ofDigitStr ds : Int) else ofDigitStr ds)

/-- A magnitude that a binary64 number can be equal to: at most 53 significant bits. -/
def fitsDouble (n : Nat) : Bool := n % 2 ^ (n.log2 + 1 - 53) = 0

/-- `i == x`. -/
def intEqFloat (i : Int) (x : Double) : Bool :=
  match x with
  | .nan | .inf _ => false
  | .zero _ => i = 0
  | .dec _ _ =>
    let ds := natDigits i.natAbs
    fitsDouble i.natAbs && Double.ofDecimal (i < 0) ds ds.length = x

/-- `x == y`. -/
def floatEq : Double → Double → Bool
  | .nan, _ => false
  | _, .nan => false
  | .zero _, .zero _ => true
  | x, y => x = y

end

/-! ## Case -/

/-- The case mappings of the Unicode database, behind `str.lower` and `str.upper`. -/
class CaseMap where
  lower : PyStr → PyStr
  upper : PyStr → PyStr

/-- The case mappings on ASCII letters. -/
@[reducible] def CaseMap.ascii : CaseMap where
  lower s := s.map fun c => if 65 ≤ c.val ∧ c.val ≤ 90 then c + 32 else c
  upper s := s.map fun c => if 97 ≤ c.val ∧ c.val ≤ 122 then c - 32 else c

end Py
