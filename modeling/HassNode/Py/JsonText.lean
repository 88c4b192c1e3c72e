import HassNode.Py.Value

/-!
# `json.loads`

The recursive scanner of Python's `json` module.  Besides `JSONDecodeError` it can raise
`RecursionError`, when containers nest deeper than the interpreter's recursion budget, and a plain
`ValueError`, when an integer literal has more digits than `int` converts.
-/

namespace Py

inductive LoadError where
  | decode      -- `json.JSONDecodeError`
  | recursion   -- `RecursionError`
  | intDigits   -- `ValueError` from `int(text)`
  | fuel        -- no Python exception: `loads_ne_fuel`
deriving DecidableEq, Repr

/-- `sys.int_info.default_max_str_digits`. -/
def maxStrDigits : Nat := 4300

namespace JsonText

def isWs (c : CodePoint) : Bool := c = 32 || c = 9 || c = 10 || c = 13

def skipWs (s : PyStr) : PyStr := s.dropWhile isWs

/-! ## Strings -/

def hexVal? (c : CodePoint) : Option Nat :=
  if 48 ≤ c.val ∧ c.val ≤ 57 then some (c.val - 48)
  else if 97 ≤ c.val ∧ c.val ≤ 102 then some (c.val - 87)
  else if 65 ≤ c.val ∧ c.val ≤ 70 then some (c.val - 55)
  else none

/-- Four hexadecimal digits and what follows them. -/
def hex4 : PyStr → Option (Nat × PyStr)
  | a :: b :: c :: d :: rest =>
    match hexVal? a, hexVal? b, hexVal? c, hexVal? d with
    | some a, some b, some c, some d => some (4096 * a + 256 * b + 16 * c + d, rest)
    | _, _, _, _ => none
  | _ => none

def isHigh (n : Nat) : Bool := 0xD800 ≤ n && n ≤ 0xDBFF

def isLow (n : Nat) : Bool := 0xDC00 ≤ n && n ≤ 0xDFFF

def ofNat (n : Nat) : CodePoint := ⟨n % 0x110000, Nat.mod_lt _ (by decide)⟩

/-- The characters of `BACKSLASH` other than `u`. -/
def unescape? (c : CodePoint) : Option CodePoint :=
  [(34, 34), (92, 92), (47, 47), (98, 8), (102, 12), (110, 10), (114, 13), (116, 9)].lookup c

/-- What stands after a backslash; an escaped high surrogate joins an escaped low one. -/
def scanEscape : PyStr → Option (CodePoint × PyStr)
  | [] => none
  | c :: rest =>
    if c = 117 then
      match hex4 rest with
      | none => none
      | some (u, rest) =>
        if isHigh u && startsWith rest [92, 117] then
          match hex4 (rest.drop 2) with
          | none => none
          | some (l, after) =>
            if isLow l then some (ofNat (0x10000 + (u - 0xD800) * 1024 + (l - 0xDC00)), after)
            else some (ofNat u, rest)
        else some (ofNat u, rest)
    else (unescape? c).map fun c => (c, rest)

/-- `scanstring` after the opening quote. -/
def scanString : Nat → PyStr → Except LoadError (PyStr × PyStr)
  | 0, _ => .error .fuel
  | _ + 1, [] => .error .decode
  | fuel + 1, c :: rest =>
    if c = 34 then .ok ([], rest)
    else if c = 92 then
      match scanEscape rest with
      | none => .error .decode
      | some (e, rest) =>
        match scanString fuel rest with
        | .error err => .error err
        | .ok (s, rest) => .ok (e :: s, rest)
    else if c.val < 0x20 then .error .decode
    else
      match scanString fuel rest with
      | .error err => .error err
      | .ok (s, rest) => .ok (c :: s, rest)

/-! ## Numbers -/

def startsWithDigit (s : PyStr) : Bool := s.head?.any fun c => (digitOf? c).isSome

/-- The exponent part, when there is one. -/
def scanExponent (s : PyStr) : Option (Int × PyStr) :=
  match s with
  | [] => none
  | c :: rest =>
    if c = 101 ∨ c = 69 then
      let neg := rest.head? = some 45
      let signed := neg ∨ rest.head? = some 43
      let rest := if signed then rest.tail else rest
      if startsWithDigit rest then
        let (ds, rest) := takeDigits rest
        some (if neg then -(ofDigitStr ds : Int) else ofDigitStr ds, rest)
      else none
    else none

/-- A number after its sign. -/
def scanUnsigned [Runtime] (neg : Bool) (s : PyStr) : Except LoadError (Json × PyStr) :=
  if startsWithDigit s then
    -- a leading zero stands alone
    let (whole, rest) := if s.head? = some 48 then ([0], s.tail) else takeDigits s
    let (frac, rest) :=
      if rest.head? = some 46 ∧ startsWithDigit rest.tail then
        ((takeDigits rest.tail).1, (takeDigits rest.tail).2)
      else ([], rest)
    match scanExponent rest with
    | some (e, rest) => .ok (.float (Double.ofDecimal neg (whole ++ frac) (whole.length + e)), rest)
    | none =>
      if frac ≠ [] then .ok (.float (Double.ofDecimal neg (whole ++ frac) whole.length), rest)
      else if maxStrDigits < whole.length then .error .intDigits
      else .ok (.int (if neg then -(ofDigitStr whole : Int) else ofDigitStr whole), rest)
  else .error .decode

def scanNumber [Runtime] (s : PyStr) : Except LoadError (Json × PyStr) :=
  if s.head? = some 45 then scanUnsigned true s.tail else scanUnsigned false s

/-! ## Values -/

def constants : List (PyStr × Json) :=
  [(py "null", .null), (py "true", .bool true), (py "false", .bool false),
    (py "NaN", .float .nan), (py "Infinity", .float (.inf false)),
    (py "-Infinity", .float (.inf true))]

mutual

/-- `scan_once`: one value, and what follows it. -/
def scanOnce [Runtime] : Nat → Nat → PyStr → Except LoadError (Json × PyStr)
  | 0, _, _ => .error .fuel
  | _ + 1, _, [] => .error .decode
  | fuel + 1, budget, c :: rest =>
    if c = 34 then
      match scanString (rest.length + 1) rest with
      | .error err => .error err
      | .ok (s, rest) => .ok (.str s, rest)
    else if c = 123 then
      if budget = 0 then .error .recursion
      else if (skipWs rest).head? = some 125 then .ok (.dict [], (skipWs rest).tail)
      else scanMembers fuel (budget - 1) [] (skipWs rest)
    else if c = 91 then
      if budget = 0 then .error .recursion
      else if (skipWs rest).head? = some 93 then .ok (.list [], (skipWs rest).tail)
      else scanItems fuel (budget - 1) [] (skipWs rest)
    else
      match constants.find? fun kv => startsWith (c :: rest) kv.1 with
      | some (name, v) => .ok (v, (c :: rest).drop name.length)
      | none => scanNumber (c :: rest)

/-- The items of an array up to its bracket. -/
def scanItems [Runtime] : Nat → Nat → List Json → PyStr → Except LoadError (Json × PyStr)
  | 0, _, _, _ => .error .fuel
  | fuel + 1, budget, acc, s =>
    match scanOnce fuel budget s with
    | .error err => .error err
    | .ok (v, rest) =>
      match skipWs rest with
      | [] => .error .decode
      | c :: rest =>
        if c = 93 then .ok (.list (acc ++ [v]), rest)
        else if c = 44 then scanItems fuel budget (acc ++ [v]) (skipWs rest)
        else .error .decode

/-- The members of an object up to its brace; a repeated key keeps its place and the last value. -/
def scanMembers [Runtime] : Nat → Nat → Dict → PyStr → Except LoadError (Json × PyStr)
  | 0, _, _, _ => .error .fuel
  | fuel + 1, budget, acc, s =>
    if s.head? ≠ some 34 then .error .decode
    else
      match scanString s.length s.tail with
      | .error err => .error err
      | .ok (key, rest) =>
        if (skipWs rest).head? ≠ some 58 then .error .decode
        else
          match scanOnce fuel budget (skipWs (skipWs rest).tail) with
          | .error err => .error err
          | .ok (v, rest) =>
            match skipWs rest with
            | [] => .error .decode
            | c :: rest =>
              if c = 125 then .ok (.dict (acc.set key v), rest)
              else if c = 44 then scanMembers fuel budget (acc.set key v) (skipWs rest)
              else .error .decode

end

/-! ## The fuel suffices

Every scanner consumes a part of its text, so a fuel of twice its length never runs out. -/

/-- The outcome is no lack of fuel, and a value leaves less text than there was. -/
def Consumes {α : Type} (s : PyStr) : Except LoadError (α × PyStr) → Prop
  | .error err => err ≠ .fuel
  | .ok (_, rest) => rest.length < s.length

theorem Consumes.mono {α : Type} {s t : PyStr} {r : Except LoadError (α × PyStr)}
    (h : Consumes s r) (hle : s.length ≤ t.length) : Consumes t r := by
  cases r with
  | error err => exact h
  | ok value =>
    have hlt : value.2.length < s.length := h
    show value.2.length < t.length
    omega

theorem length_hex4 {s rest : PyStr} {n : Nat} (h : hex4 s = some (n, rest)) :
    rest.length < s.length := by
  unfold hex4 at h
  split at h
  · split at h
    · cases h
      simp only [List.length_cons]
      omega
    · cases h
  · cases h

theorem length_scanEscape {s rest : PyStr} {c : CodePoint} (h : scanEscape s = some (c, rest)) :
    rest.length < s.length := by
  cases s with
  | nil => cases h
  | cons d tail =>
    rw [scanEscape] at h
    by_cases hu : d = 117
    · rw [if_pos hu] at h
      cases hhex : hex4 tail with
      | none =>
        rw [hhex] at h
        cases h
      | some read =>
        have hlen := length_hex4 hhex
        rw [hhex] at h
        by_cases hpair : (isHigh read.1 && startsWith read.2 [92, 117]) = true
        · simp only [if_pos hpair] at h
          cases hlow : hex4 (read.2.drop 2) with
          | none =>
            rw [hlow] at h
            cases h
          | some low =>
            cases low with
            | mk l after =>
              have hafter := length_hex4 hlow
              rw [List.length_drop] at hafter
              rw [hlow] at h
              by_cases hl : isLow l = true
              · simp only [if_pos hl] at h
                have hrest : after = rest := congrArg Prod.snd (Option.some.inj h)
                rw [← hrest, List.length_cons]
                omega
              · simp only [if_neg hl] at h
                cases h
                simp only [List.length_cons]
                omega
        · simp only [if_neg hpair] at h
          cases h
          simp only [List.length_cons]
          omega
    · rw [if_neg hu] at h
      cases hsome : unescape? d with
      | none =>
        rw [hsome] at h
        cases h
      | some e =>
        rw [hsome] at h
        cases h
        exact Nat.lt_succ_self _

theorem scanString_consumes {fuel : Nat} {s : PyStr} (h : s.length < fuel) :
    Consumes s (scanString fuel s) := by
  induction fuel generalizing s with
  | zero => omega
  | succ fuel ih =>
    cases s with
    | nil => exact LoadError.noConfusion
    | cons c rest =>
      rw [List.length_cons] at h
      have hnext : ∀ {t : PyStr} (e : CodePoint), t.length ≤ rest.length →
          Consumes (c :: rest) (match scanString fuel t with
            | .error err => .error err
            | .ok (s, rest) => .ok (e :: s, rest)) := by
        intro t e ht
        have hcons := ih (s := t) (by omega)
        cases hscan : scanString fuel t with
        | error err =>
          rw [hscan] at hcons
          exact hcons
        | ok value =>
          rw [hscan] at hcons
          have hlt : value.2.length < t.length := hcons
          show value.2.length < (c :: rest).length
          rw [List.length_cons]
          omega
      unfold scanString
      by_cases hquote : c = 34
      · rw [if_pos hquote]
        exact Nat.lt_succ_self _
      rw [if_neg hquote]
      by_cases hslash : c = 92
      · rw [if_pos hslash]
        cases hescape : scanEscape rest with
        | none => exact LoadError.noConfusion
        | some read =>
          have hlen := length_scanEscape hescape
          exact hnext read.1 (by omega)
      rw [if_neg hslash]
      by_cases hcontrol : c.val < 0x20
      · rw [if_pos hcontrol]
        exact LoadError.noConfusion
      · rw [if_neg hcontrol]
        exact hnext c le_rfl

theorem length_skipWs (s : PyStr) : (skipWs s).length ≤ s.length :=
  (List.dropWhile_sublist _).length_le

theorem length_takeDigits (s : PyStr) : (takeDigits s).2.length ≤ s.length :=
  (List.dropWhile_sublist _).length_le

theorem length_scanExponent {s rest : PyStr} {e : Int} (h : scanExponent s = some (e, rest)) :
    rest.length < s.length := by
  cases s with
  | nil => cases h
  | cons c tail =>
    rw [scanExponent] at h
    by_cases he : c = 101 ∨ c = 69
    · rw [if_pos he] at h
      extract_lets neg signed body at h
      have hbody : body.length ≤ tail.length := by
        show (if signed then tail.tail else tail).length ≤ tail.length
        by_cases hsigned : signed
        · rw [if_pos hsigned, List.length_tail]
          omega
        · rw [if_neg hsigned]
      by_cases hdigit : startsWithDigit body = true
      · rw [if_pos hdigit] at h
        have hrest : (takeDigits body).2 = rest := congrArg Prod.snd (Option.some.inj h)
        have hdigits := length_takeDigits body
        rw [← hrest, List.length_cons]
        omega
      · rw [if_neg hdigit] at h
        cases h
    · rw [if_neg he] at h
      cases h

theorem length_takeDigits_lt {s : PyStr} (h : startsWithDigit s = true) :
    (takeDigits s).2.length < s.length := by
  cases s with
  | nil => cases h
  | cons c rest =>
    have hc : (digitOf? c).isSome = true := h
    have htail : (takeDigits (c :: rest)).2 = (takeDigits rest).2 := by
      show (c :: rest).dropWhile (fun c => (digitOf? c).isSome) =
        rest.dropWhile fun c => (digitOf? c).isSome
      rw [List.dropWhile_cons, if_pos hc]
    have hdigits := length_takeDigits rest
    rw [htail, List.length_cons]
    omega

theorem scanUnsigned_consumes [Runtime] (neg : Bool) (s : PyStr) :
    Consumes s (scanUnsigned neg s) := by
  unfold scanUnsigned
  by_cases hdigit : startsWithDigit s = true
  · rw [if_pos hdigit]
    generalize hwhole : (if s.head? = some 48 then ([0], s.tail) else takeDigits s) = parts
    have hlt : parts.2.length < s.length := by
      rw [← hwhole]
      by_cases hzero : s.head? = some 48
      · rw [if_pos hzero]
        cases s with
        | nil => cases hzero
        | cons c rest => exact Nat.lt_succ_self _
      · rw [if_neg hzero]
        exact length_takeDigits_lt hdigit
    generalize hfrac : (if parts.2.head? = some 46 ∧ startsWithDigit parts.2.tail = true then
      ((takeDigits parts.2.tail).1, (takeDigits parts.2.tail).2) else ([], parts.2)) = fraction
    have hle : fraction.2.length ≤ parts.2.length := by
      rw [← hfrac]
      split
      · have hdigits := length_takeDigits parts.2.tail
        rw [List.length_tail] at hdigits
        show (takeDigits parts.2.tail).2.length ≤ parts.2.length
        omega
      · exact le_rfl
    cases parts with
    | mk whole rest =>
      simp only [hfrac]
      cases fraction with
      | mk frac after =>
        simp only at hle hlt ⊢
        cases hexp : scanExponent after with
        | some read =>
          have hread := length_scanExponent hexp
          show read.2.length < s.length
          omega
        | none =>
          by_cases hpoint : frac ≠ []
          · simp only [if_pos hpoint]
            exact lt_of_le_of_lt hle hlt
          · simp only [if_neg hpoint]
            by_cases hlong : maxStrDigits < whole.length
            · rw [if_pos hlong]
              exact LoadError.noConfusion
            · rw [if_neg hlong]
              exact lt_of_le_of_lt hle hlt
  · rw [if_neg hdigit]
    exact LoadError.noConfusion

theorem scanNumber_consumes [Runtime] (s : PyStr) : Consumes s (scanNumber s) := by
  unfold scanNumber
  by_cases hneg : s.head? = some 45
  · rw [if_pos hneg]
    apply (scanUnsigned_consumes true s.tail).mono
    rw [List.length_tail]
    omega
  · rw [if_neg hneg]
    exact scanUnsigned_consumes false s

section
variable [Runtime] {fuel : Nat}

theorem scanOnce_consumes
    (hitems : ∀ budget acc s, 2 * s.length + 1 < fuel → Consumes s (scanItems fuel budget acc s))
    (hmembers : ∀ budget acc s, 2 * s.length + 1 < fuel →
      Consumes s (scanMembers fuel budget acc s))
    (budget : Nat) (s : PyStr) (h : 2 * s.length < fuel + 1) :
    Consumes s (scanOnce (fuel + 1) budget s) := by
  cases s with
  | nil => exact LoadError.noConfusion
  | cons c rest =>
    rw [List.length_cons] at h
    have hws := length_skipWs rest
    have hclosed : ∀ v : Json, Consumes (c :: rest) (.ok (v, (skipWs rest).tail)) := by
      intro v
      show (skipWs rest).tail.length < (c :: rest).length
      rw [List.length_tail, List.length_cons]
      omega
    rw [scanOnce]
    by_cases hquote : c = 34
    · rw [if_pos hquote]
      have hstring := scanString_consumes (Nat.lt_succ_self rest.length)
      cases hscan : scanString (rest.length + 1) rest with
      | error err =>
        rw [Nat.succ_eq_add_one, hscan] at hstring
        exact hstring
      | ok value =>
        rw [Nat.succ_eq_add_one, hscan] at hstring
        exact Nat.lt_succ_of_lt hstring
    rw [if_neg hquote]
    by_cases hbrace : c = 123
    · rw [if_pos hbrace]
      by_cases hbudget : budget = 0
      · rw [if_pos hbudget]
        exact LoadError.noConfusion
      rw [if_neg hbudget]
      by_cases hempty : (skipWs rest).head? = some 125
      · rw [if_pos hempty]
        exact hclosed _
      · rw [if_neg hempty]
        apply (hmembers _ _ (skipWs rest) (by omega)).mono
        rw [List.length_cons]
        omega
    rw [if_neg hbrace]
    by_cases hbracket : c = 91
    · rw [if_pos hbracket]
      by_cases hbudget : budget = 0
      · rw [if_pos hbudget]
        exact LoadError.noConfusion
      rw [if_neg hbudget]
      by_cases hempty : (skipWs rest).head? = some 93
      · rw [if_pos hempty]
        exact hclosed _
      · rw [if_neg hempty]
        apply (hitems _ _ (skipWs rest) (by omega)).mono
        rw [List.length_cons]
        omega
    rw [if_neg hbracket]
    cases hfind : constants.find? fun kv => startsWith (c :: rest) kv.1 with
    | none => exact scanNumber_consumes _
    | some entry =>
      have hname : ∀ kv ∈ constants, 0 < kv.1.length := by decide
      have hpos := hname entry (List.mem_of_find?_eq_some hfind)
      show ((c :: rest).drop entry.1.length).length < (c :: rest).length
      rw [List.length_drop, List.length_cons]
      omega

theorem scanItems_consumes
    (honce : ∀ budget s, 2 * s.length < fuel → Consumes s (scanOnce fuel budget s))
    (hitems : ∀ budget acc s, 2 * s.length + 1 < fuel → Consumes s (scanItems fuel budget acc s))
    (budget : Nat) (acc : List Json) (s : PyStr) (h : 2 * s.length + 1 < fuel + 1) :
    Consumes s (scanItems (fuel + 1) budget acc s) := by
  have hvalue := honce budget s (by omega)
  rw [scanItems]
  cases hscan : scanOnce fuel budget s with
  | error err =>
    rw [hscan] at hvalue
    exact hvalue
  | ok value =>
    rw [hscan] at hvalue
    have hlt : value.2.length < s.length := hvalue
    have hws := length_skipWs value.2
    simp only
    cases hrest : skipWs value.2 with
    | nil => exact LoadError.noConfusion
    | cons c rest =>
      rw [hrest, List.length_cons] at hws
      have hws' := length_skipWs rest
      by_cases hclose : c = 93
      · simp only [if_pos hclose]
        show rest.length < s.length
        omega
      simp only [if_neg hclose]
      by_cases hcomma : c = 44
      · rw [if_pos hcomma]
        exact (hitems _ _ (skipWs rest) (by omega)).mono (by omega)
      · rw [if_neg hcomma]
        exact LoadError.noConfusion

theorem scanMembers_consumes
    (honce : ∀ budget s, 2 * s.length < fuel → Consumes s (scanOnce fuel budget s))
    (hmembers : ∀ budget acc s, 2 * s.length + 1 < fuel →
      Consumes s (scanMembers fuel budget acc s))
    (budget : Nat) (acc : Dict) (s : PyStr) (h : 2 * s.length + 1 < fuel + 1) :
    Consumes s (scanMembers (fuel + 1) budget acc s) := by
  rw [scanMembers]
  by_cases hquote : s.head? ≠ some 34
  · rw [if_pos hquote]
    exact LoadError.noConfusion
  rw [if_neg hquote]
  have hpos : 0 < s.length := by
    cases s with
    | nil => exact absurd nofun hquote
    | cons c rest => exact Nat.succ_pos _
  have hkey : Consumes s.tail (scanString s.length s.tail) := by
    apply scanString_consumes
    rw [List.length_tail]
    omega
  cases hscan : scanString s.length s.tail with
  | error err =>
    rw [hscan] at hkey
    exact hkey
  | ok key =>
    rw [hscan] at hkey
    have hkeyLt : key.2.length < s.tail.length := hkey
    rw [List.length_tail] at hkeyLt
    have hws := length_skipWs key.2
    simp only
    by_cases hcolon : (skipWs key.2).head? ≠ some 58
    · rw [if_pos hcolon]
      exact LoadError.noConfusion
    rw [if_neg hcolon]
    have hws' := length_skipWs (skipWs key.2).tail
    rw [List.length_tail] at hws'
    have hvalue := honce budget (skipWs (skipWs key.2).tail) (by omega)
    cases hscan' : scanOnce fuel budget (skipWs (skipWs key.2).tail) with
    | error err =>
      rw [hscan'] at hvalue
      exact hvalue
    | ok value =>
      rw [hscan'] at hvalue
      have hlt : value.2.length < (skipWs (skipWs key.2).tail).length := hvalue
      have hafter := length_skipWs value.2
      simp only
      cases hrest : skipWs value.2 with
      | nil => exact LoadError.noConfusion
      | cons c rest =>
        rw [hrest, List.length_cons] at hafter
        have hnext := length_skipWs rest
        by_cases hclose : c = 125
        · simp only [if_pos hclose]
          show rest.length < s.length
          omega
        simp only [if_neg hclose]
        by_cases hcomma : c = 44
        · rw [if_pos hcomma]
          exact (hmembers _ _ (skipWs rest) (by omega)).mono (by omega)
        · rw [if_neg hcomma]
          exact LoadError.noConfusion

/-- The three scanners of values, by induction on the fuel that they share. -/
theorem scan_consumes (fuel : Nat) :
    (∀ budget s, 2 * s.length < fuel → Consumes s (scanOnce fuel budget s)) ∧
    (∀ budget acc s, 2 * s.length + 1 < fuel → Consumes s (scanItems fuel budget acc s)) ∧
    (∀ budget acc s, 2 * s.length + 1 < fuel → Consumes s (scanMembers fuel budget acc s)) := by
  induction fuel with
  | zero => exact ⟨fun _ _ h => by omega, fun _ _ _ h => by omega, fun _ _ _ h => by omega⟩
  | succ fuel ih =>
    exact ⟨scanOnce_consumes ih.2.1 ih.2.2, scanItems_consumes ih.1 ih.2.1,
      scanMembers_consumes ih.1 ih.2.2⟩

end

end JsonText

open JsonText

/-- `json.loads(text)` of a `str`, with room for `budget` nested containers. -/
def loads [Runtime] (budget : Nat) (text : PyStr) : Except LoadError Json :=
  if text.head? = some 0xFEFF then .error .decode
  else
    match scanOnce (2 * text.length + 1) budget (skipWs text) with
    | .error err => .error err
    | .ok (v, rest) => if skipWs rest = [] then .ok v else .error .decode

theorem loads_ne_fuel [Runtime] (budget : Nat) (text : PyStr) : loads budget text ≠ .error .fuel := by
  unfold loads
  by_cases hbom : text.head? = some 0xFEFF
  · rw [if_pos hbom]
    exact nofun
  rw [if_neg hbom]
  have hws := length_skipWs text
  have hscan := (scan_consumes (2 * text.length + 1)).1 budget (skipWs text) (by omega)
  cases hvalue : scanOnce (2 * text.length + 1) budget (skipWs text) with
  | error err =>
    rw [hvalue] at hscan
    exact fun h => hscan (Except.error.inj h)
  | ok value =>
    simp only
    by_cases hend : skipWs value.2 = []
    · rw [if_pos hend]
      exact nofun
    · rw [if_neg hend]
      exact nofun

end Py
