import HassNode.Library.Binary64
import HassNode.NumberText

/-!
# `_es_number` is `Number::toString`

The text of a number against the words of its specification: the integers `n`, `k` and `s` that
`Number::toString` chooses, the layout that it prescribes for them, and the rational that the printed
text denotes.  That the digits of `repr` are the shortest ones is what is assumed of `repr`.
-/

namespace Py

/-! ## Rationals -/

/-- The number `0.d₁…dₖ · 10 ^ point`. -/
def ShortDigits.value (d : ShortDigits) : ℚ := ofDigitStr d.digits * 10 ^ (d.point - d.digits.length)

/-- The number that a finite float stands for. -/
def Double.value : Double → Option ℚ
  | .nan | .inf _ => none
  | .zero _ => some 0
  | .dec neg d => some (if neg then -d.value else d.value)

theorem ofDigitStr_append (ds es : List (Fin 10)) :
    ofDigitStr (ds ++ es) = ofDigitStr ds * 10 ^ es.length + ofDigitStr es := by
  induction es using List.reverseRecOn with
  | nil => simp [ofDigitStr]
  | append_singleton es d ih =>
    rw [← List.append_assoc, ofDigitStr_append_singleton, ofDigitStr_append_singleton, ih,
      List.length_append, List.length_singleton, pow_succ]
    ring

theorem ofDigitStr_replicate_zero (l : Nat) : ofDigitStr (List.replicate l 0) = 0 := by
  have h : ofDigitStr (List.replicate l 0 ++ []) = ofDigitStr [] := ofDigitStr_zeros l []
  rwa [List.append_nil] at h

/-- Zeros in front of the digits do not count. -/
theorem ofDigitStr_dropWhile (ds : List (Fin 10)) :
    ofDigitStr (ds.dropWhile fun x : Fin 10 => decide (x = 0)) = ofDigitStr ds := by
  have hzeros : ds.takeWhile (fun x : Fin 10 => decide (x = 0)) =
      List.replicate (ds.takeWhile fun x : Fin 10 => decide (x = 0)).length 0 := by
    apply List.eq_replicate_of_mem
    intro x hx
    simpa using List.mem_takeWhile_imp hx
  have hsplit := List.takeWhile_append_dropWhile (p := fun x : Fin 10 => decide (x = 0)) (l := ds)
  rw [hzeros] at hsplit
  conv_rhs => rw [← hsplit]
  rw [ofDigitStr_zeros]

/-- Zeros behind the digits move the point. -/
theorem ofDigitStr_rdropWhile (ds : List (Fin 10)) :
    ofDigitStr ds = ofDigitStr (ds.rdropWhile fun x : Fin 10 => decide (x = 0)) *
      10 ^ (ds.length - (ds.rdropWhile fun x : Fin 10 => decide (x = 0)).length) := by
  have hzeros : ds.rtakeWhile (fun x : Fin 10 => decide (x = 0)) =
      List.replicate (ds.rtakeWhile fun x : Fin 10 => decide (x = 0)).length 0 := by
    apply List.eq_replicate_of_mem
    intro x hx
    simpa using List.mem_rtakeWhile_imp hx
  have hsplit := List.rdropWhile_append_rtakeWhile (p := fun x : Fin 10 => decide (x = 0)) (l := ds)
  have hlength := congrArg List.length hsplit
  rw [List.length_append] at hlength
  conv_lhs => rw [← hsplit, hzeros, ofDigitStr_append, ofDigitStr_replicate_zero, List.length_replicate]
  rw [add_zero, show ds.length - (ds.rdropWhile fun x : Fin 10 => decide (x = 0)).length =
    (ds.rtakeWhile fun x : Fin 10 => decide (x = 0)).length by omega]

/-! ## The integers of the specification -/

section
variable (d : ShortDigits)

theorem ofDigitStr_lt (ds : List (Fin 10)) : ofDigitStr ds < 10 ^ ds.length := by
  induction ds using List.reverseRecOn with
  | nil => simp [ofDigitStr]
  | append_singleton ds d ih =>
    rw [ofDigitStr_append_singleton, List.length_append, List.length_singleton, pow_succ]
    omega

theorem ShortDigits.le_ofDigitStr : 10 ^ (d.digits.length - 1) ≤ ofDigitStr d.digits := by
  obtain ⟨x, xs, hx⟩ := List.exists_cons_of_ne_nil d.ne_nil
  have hne : x ≠ 0 := by
    intro h
    exact d.head_ne (by rw [hx, List.head?_cons, h])
  have hpos : 1 ≤ ofDigitStr [x] := by
    have hval : x.val ≠ 0 := fun h => hne (Fin.ext h)
    simp only [ofDigitStr, List.foldl_cons, List.foldl_nil]
    omega
  rw [hx, show x :: xs = [x] ++ xs from rfl, ofDigitStr_append, List.length_append,
    List.length_singleton, Nat.add_sub_cancel_left]
  exact (Nat.le_mul_of_pos_left _ hpos).trans (Nat.le_add_right _ _)

theorem natStr_ofDigitStr : natStr (ofDigitStr d.digits) = digitStr d.digits := by
  have hpos : 0 < 10 ^ (d.digits.length - 1) := by positivity
  have hle := d.le_ofDigitStr
  rw [natStr, if_neg (by omega), natDigits_ofDigitStr d.digits d.head_ne]

end

end Py

namespace HassNode.NumberText

open Py Py.JsonText Js ConfigMutation DecimalParts

/-! ## Reading a number back -/

/-- The value of an exponent part; nothing is written for a zero. -/
def exponentOf : PyStr → Option Int
  | [] => some 0
  | 101 :: sign :: text =>
    match takeDigits text with
    | ([], _) => none
    | (ds, []) =>
      if sign = 45 then some (-(ofDigitStr ds : Int)) else if sign = 43 then some (ofDigitStr ds) else none
    | (_, _ :: _) => none
  | _ => none

/-- The mathematical value of a decimal literal: a sign, digits, a fraction and an exponent. -/
def literalValue (text : PyStr) : Option ℚ :=
  let (neg, text) := signPart text
  match takeDigits text with
  | ([], _) => none
  | (whole, text) =>
    let (frac, text) := fractionPart text
    match exponentOf text with
    | none => none
    | some e =>
      let magnitude : ℚ := ofDigitStr (whole ++ frac) * 10 ^ (e - frac.length)
      some (if neg then -magnitude else magnitude)

def DecimalParts.value (p : DecimalParts) : ℚ :=
  ofDigitStr (p.whole ++ p.frac) * 10 ^ (exponentValue p.exponent - p.frac.length)

theorem exponentOf_text (e : Option (Bool × List (Fin 10))) (he : ∀ x ∈ e, x.2 ≠ []) :
    exponentOf (exponentText e) = some (exponentValue e) := by
  cases e with
  | none => rfl
  | some e =>
    obtain ⟨neg, ds⟩ := e
    obtain ⟨x, xs, rfl⟩ := List.exists_cons_of_ne_nil (he _ rfl)
    cases neg <;> simp [exponentText, exponentOf, exponentValue, takeDigits_digitStr]

theorem literalValue_text (neg : Bool) (p : DecimalParts) :
    literalValue ((if neg then py "-" else []) ++ p.text) =
      some (if neg then -p.value else p.value) := by
  have hexp : startsWithDigit (exponentText p.exponent ++ []) = false :=
    exponentText_not_digit p.exponent rfl
  rw [List.append_nil] at hexp
  have htake := takeDigits_append p.whole (fractionText_not_digit p.frac hexp)
  obtain ⟨x, xs, hwhole⟩ := List.exists_cons_of_ne_nil p.whole_ne
  rw [literalValue, text, signPart_text neg p.whole_ne]
  simp only [htake]
  rw [hwhole]
  simp only [fractionPart_text, exponentOf_text p.exponent p.exponent_ne, DecimalParts.value, hwhole]

/-- A decimal notation of `d` denotes its number. -/
theorem value_of_denotes {p : DecimalParts} {d : ShortDigits} (hp : p.Denotes d) :
    p.value = d.value := by
  have hten : (10 : ℚ) ≠ 0 := by norm_num
  have hle : d.digits.length ≤ p.significant.length := by
    have hdropped := List.rdropWhile_prefix (fun x : Fin 10 => decide (x = 0)) p.significant
    rw [hp.1] at hdropped
    exact hdropped.length_le
  have hsig : ofDigitStr (p.whole ++ p.frac) = ofDigitStr p.significant :=
    (ofDigitStr_dropWhile (p.whole ++ p.frac)).symm
  have hdigits := ofDigitStr_rdropWhile p.significant
  rw [hp.1] at hdigits
  calc p.value
      = ofDigitStr p.significant * 10 ^ (exponentValue p.exponent - p.frac.length) := by
        rw [DecimalParts.value, hsig]
    _ = ofDigitStr d.digits * (10 ^ (p.significant.length - d.digits.length) *
          10 ^ (exponentValue p.exponent - p.frac.length)) := by
        rw [hdigits, Nat.cast_mul, Nat.cast_pow, Nat.cast_ofNat, mul_assoc]
    _ = d.value := by
        rw [ShortDigits.value, ← zpow_natCast, ← zpow_add₀ hten, Nat.cast_sub hle, ← hp.2]
        ring_nf

/-- Every layout of `Number::toString` is a decimal notation. -/
theorem decimalNotation_denotes (d : ShortDigits) :
    ∃ p : DecimalParts, p.Denotes d ∧ p.text = decimalNotation d := by
  by_cases hint : (d.digits.length : Int) ≤ d.point ∧ d.point ≤ 21
  · refine ⟨⟨d.digits ++ List.replicate (d.point - d.digits.length).toNat 0, [], none,
      by simp [d.ne_nil], fun h0 => ?_, by simp⟩, ?_, ?_⟩
    · rw [List.head?_append_of_ne_nil _ d.ne_nil] at h0
      exact absurd h0 d.head_ne
    · refine denotes_of_zeros d (j := 0) (l := (d.point - d.digits.length).toNat) ?_ ?_
      · rw [List.append_nil]
        rfl
      · rw [exponentValue, List.length_nil]
        omega
    · rw [decimalNotation_int hint, text, fractionText, if_pos rfl, exponentText, List.append_nil,
        List.append_nil]
  · obtain ⟨p, hp, -, htext⟩ := decimalNotation_text d hint
    exact ⟨p, hp, htext⟩

theorem literalValue_esNumber (x : Double) : literalValue (esNumber x) = x.value := by
  cases x with
  | nan => rfl
  | inf neg => rfl
  | zero neg =>
    have h : literalValue (py "0") = _ :=
      literalValue_text false ⟨[0], [], none, by simp, fun _ => rfl, by simp⟩
    rw [esNumber, h, Double.value]
    simp [DecimalParts.value, ofDigitStr]
  | dec neg d =>
    obtain ⟨p, hp, htext⟩ := decimalNotation_denotes d
    rw [esNumber_dec, ← htext, literalValue_text, value_of_denotes hp, Double.value]

/-! ## `Number::toString` -/

/-- The layout of `Number::toString` for `s`, whose `k` digits have the point behind the `n`-th. -/
def layout (s k : Nat) (n : Int) : PyStr :=
  let digits := natStr s
  if -5 ≤ n ∧ n ≤ 21 then
    if k ≤ n then digits ++ List.replicate (n - k).toNat 48
    else if 0 < n then digits.take n.toNat ++ py "." ++ digits.drop n.toNat
    else py "0." ++ List.replicate (-n).toNat 48 ++ digits
  else
    let exponentSign := if n < 0 then py "-" else py "+"
    if k = 1 then digits ++ py "e" ++ exponentSign ++ natStr (n - 1).natAbs
    else digits.take 1 ++ py "." ++ digits.drop 1 ++ py "e" ++ exponentSign ++ natStr (n - 1).natAbs

/-- What the specification asks of `n`, `k` and `s` for the positive number `v`: `s` has `k` digits,
`s · 10 ^ (n - k)` rounds to `v`, and `k` is as small as possible. -/
structure Chosen (v : ℚ) (s k : Nat) (n : Int) : Prop where
  one_le : 1 ≤ k
  lower : 10 ^ (k - 1) ≤ s
  upper : s < 10 ^ k
  rounds : Binary64.ofRat (s * 10 ^ (n - k)) = .finite v
  least : ∀ (s' k' : Nat) (n' : Int), 1 ≤ k' → 10 ^ (k' - 1) ≤ s' → s' < 10 ^ k' →
    Binary64.ofRat (s' * 10 ^ (n' - k')) = .finite v → k ≤ k'

/-- `Number::toString` of the finite number `v`, as the specification puts it. -/
inductive NumberToString : ℚ → PyStr → Prop
  | zero : NumberToString 0 (py "0")
  | positive {v : ℚ} {s k : Nat} {n : Int} (hv : 0 < v) (hchosen : Chosen v s k n) :
      NumberToString v (layout s k n)
  | negative {v : ℚ} {text : PyStr} (hv : 0 < v) (htext : NumberToString v text) :
      NumberToString (-v) (py "-" ++ text)

/-- `x` is the double `v` with its shortest digits, which is what `repr` prints. -/
inductive ReprOf : ℚ → Double → Prop
  | zero (neg : Bool) : ReprOf 0 (.zero neg)
  | dec {v : ℚ} {d : ShortDigits} (neg : Bool) (hv : 0 < v)
      (hshortest : Chosen v (ofDigitStr d.digits) d.digits.length d.point) :
      ReprOf (if neg then -v else v) (.dec neg d)

theorem layout_digits (d : ShortDigits) :
    layout (ofDigitStr d.digits) d.digits.length d.point = decimalNotation d := by
  have hone : (d.digits.length : Int) = 1 ↔ d.digits.length = 1 := by omega
  simp only [layout, decimalNotation, natStr_ofDigitStr, digitStr, List.map_take, List.map_drop, hone]

/-- The text of every finite float denotes its number, in the layout of its digits; where these are
the shortest ones of a double, it is what `Number::toString` prints for that double. -/
theorem es_number_exact :
    (∀ x, literalValue (esNumber x) = x.value) ∧
    (∀ neg, esNumber (.zero neg) = py "0") ∧
    (∀ neg (d : ShortDigits), 10 ^ (d.digits.length - 1) ≤ ofDigitStr d.digits ∧
      ofDigitStr d.digits < 10 ^ d.digits.length ∧
      esNumber (.dec neg d) = (if neg then py "-" else []) ++
        layout (ofDigitStr d.digits) d.digits.length d.point) ∧
    ∀ v x, ReprOf v x → NumberToString v (esNumber x) := by
  have hdec : ∀ neg d, esNumber (.dec neg d) = (if neg then py "-" else []) ++
      layout (ofDigitStr d.digits) d.digits.length d.point := by
    intro neg d
    rw [esNumber_dec, layout_digits]
  refine ⟨literalValue_esNumber, fun _ => rfl, ?_, ?_⟩
  · intro neg d
    exact ⟨d.le_ofDigitStr, ofDigitStr_lt d.digits, hdec neg d⟩
  · intro v x hx
    cases hx with
    | zero neg => exact .zero
    | @dec v d neg hv hshortest =>
      have hlayout := NumberToString.positive hv hshortest
      rw [hdec]
      cases neg with
      | false => exact hlayout
      | true => exact .negative hv hlayout

/-! ## The first power of ten with an exponent -/

theorem ofRat_sextillion : Binary64.ofRat (10 ^ 21) = .finite (10 ^ 21) := by
  have hlog : Int.log 2 (10 ^ 21 : ℚ) = 69 := by
    have hcast := Int.log_natCast (R := ℚ) 2 (10 ^ 21)
    rw [Nat.cast_pow, Nat.cast_ofNat] at hcast
    rw [hcast, Nat.log_eq_of_pow_le_of_lt_pow (m := 69) (by norm_num) (by norm_num)]
    rfl
  have hunit : Binary64.unit (10 ^ 21) = 2 ^ 17 := by
    rw [Binary64.unit, hlog]
    norm_num
  have hmultiple : (10 ^ 21 / 2 ^ 17 : ℚ) = ((10 ^ 4 * 5 ^ 17 : ℤ) : ℚ) := by norm_num
  have hnearest : Binary64.nearest (10 ^ 21) = 10 ^ 21 := by
    rw [Binary64.nearest, hunit, hmultiple, Binary64.halfEven_intCast]
    norm_num
  have hbound : 2 * 10 ^ 21 + 1 < Binary64.bound := by
    calc (2 * 10 ^ 21 + 1 : ℚ)
        < 2 ^ 72 := by norm_num
      _ ≤ 2 ^ 1024 := pow_le_pow_right₀ (by norm_num) (by norm_num)
  rw [Binary64.ofRat_finite (by positivity) hbound, hnearest]

/-- `repr` prints `1e+21`, and so does ECMAScript. -/
def sextillion : Double := .dec false ⟨[1], 22, by decide, by decide, by decide⟩

theorem reprOf_sextillion : ReprOf (10 ^ 21) sextillion := by
  refine .dec false (by positivity) ⟨by decide, by decide, by decide, ?_, ?_⟩
  · have hdigits : ((ofDigitStr [1] : ℕ) : ℚ) * 10 ^ ((22 : ℤ) - ([1] : List (Fin 10)).length) = 10 ^ 21 := by
      norm_num [ofDigitStr]
    rw [hdigits]
    exact ofRat_sextillion
  · intro s' k' n' hk' _ _ _
    exact hk'

theorem es_number_sextillion : literalValue (py "1e+21") = sextillion.value ∧
    NumberToString (10 ^ 21) (py "1e+21") := by
  have htext : esNumber sextillion = py "1e+21" := by decide
  rw [← htext]
  exact ⟨es_number_exact.1 sextillion, es_number_exact.2.2.2 _ _ reprOf_sextillion⟩

end HassNode.NumberText
