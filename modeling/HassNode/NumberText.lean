import HassNode.NodeApproval

/-!
# Printed numbers

The node prints a float through `Decimal(repr(value)).as_tuple()`, the plugin through
`Number::toString`, and the text in between is read by `json.loads`.  All three agree on the digits
and the point of the number.
-/

namespace HassNode.NumberText

open Py Py.JsonText Js ConfigMutation

/-! ## Reading digits -/

theorem startsWithDigit_digitStr {ds : List (Fin 10)} (hds : ds ≠ []) (rest : PyStr) :
    startsWithDigit (digitStr ds ++ rest) = true := by
  cases ds with
  | nil => exact absurd rfl hds
  | cons d ds => simp [startsWithDigit, digitStr, digitOf?_digit]

theorem takeDigits_of_not_digit {rest : PyStr} (hrest : startsWithDigit rest = false) :
    takeDigits rest = ([], rest) := by
  cases rest with
  | nil => rfl
  | cons c rest =>
    have hc : (digitOf? c).isSome = false := by simpa [startsWithDigit] using hrest
    rw [takeDigits, List.takeWhile_cons_of_neg (by simp [hc]),
      List.dropWhile_cons_of_neg (by simp [hc]), List.filterMap_nil]

theorem takeDigits_append (ds : List (Fin 10)) {rest : PyStr}
    (hrest : startsWithDigit rest = false) : takeDigits (digitStr ds ++ rest) = (ds, rest) := by
  have hall : ∀ c ∈ digitStr ds, (digitOf? c).isSome = true := by
    intro c hc
    obtain ⟨d, -, rfl⟩ := List.mem_map.mp hc
    rw [digitOf?_digit]
    rfl
  have hback : (digitStr ds).filterMap digitOf? = ds := by
    have hid : (digitOf? ∘ digit) = some := funext digitOf?_digit
    rw [digitStr, List.filterMap_map, hid, List.filterMap_some]
  have hnone := takeDigits_of_not_digit hrest
  rw [takeDigits, Prod.mk.injEq] at hnone
  rw [takeDigits, List.takeWhile_append_of_pos hall, List.dropWhile_append_of_pos hall,
    List.filterMap_append, hback, hnone.1, hnone.2, List.append_nil]

theorem takeDigits_digitStr (ds : List (Fin 10)) : takeDigits (digitStr ds) = (ds, []) := by
  have h : takeDigits (digitStr ds ++ []) = (ds, []) := takeDigits_append ds rfl
  rwa [List.append_nil] at h

/-! ## Decimal texts -/

/-- The parts of an unsigned decimal text that both `Decimal` and `json.loads` accept. -/
structure DecimalParts where
  whole : List (Fin 10)
  frac : List (Fin 10)
  exponent : Option (Bool × List (Fin 10))
  whole_ne : whole ≠ []
  leading : whole.head? = some 0 → whole = [0]
  exponent_ne : ∀ e ∈ exponent, e.2 ≠ []

namespace DecimalParts

def fractionText (frac : List (Fin 10)) : PyStr := if frac = [] then [] else 46 :: digitStr frac

def exponentText : Option (Bool × List (Fin 10)) → PyStr
  | none => []
  | some (neg, ds) => 101 :: (if neg then 45 else 43) :: digitStr ds

def exponentValue : Option (Bool × List (Fin 10)) → Int
  | none => 0
  | some (neg, ds) => if neg then -(ofDigitStr ds : Int) else ofDigitStr ds

def text (p : DecimalParts) : PyStr :=
  digitStr p.whole ++ (fractionText p.frac ++ exponentText p.exponent)

/-- The digits without leading zeros. -/
def significant (p : DecimalParts) : List (Fin 10) := (p.whole ++ p.frac).dropWhile (· = 0)

/-- The text is a decimal notation of `d`. -/
def Denotes (p : DecimalParts) (d : ShortDigits) : Prop :=
  p.significant.rdropWhile (· = 0) = d.digits ∧
  (p.significant.length : Int) + (exponentValue p.exponent - p.frac.length) = d.point

theorem exponentText_not_digit (e : Option (Bool × List (Fin 10))) {rest : PyStr}
    (hrest : startsWithDigit rest = false) : startsWithDigit (exponentText e ++ rest) = false := by
  cases e with
  | none => exact hrest
  | some e => rfl

theorem fractionText_not_digit (frac : List (Fin 10)) {rest : PyStr}
    (hrest : startsWithDigit rest = false) : startsWithDigit (fractionText frac ++ rest) = false := by
  by_cases hfrac : frac = []
  · rw [fractionText, if_pos hfrac]
    exact hrest
  · rw [fractionText, if_neg hfrac]
    rfl

/-! ## `Decimal(text).as_tuple()` -/

theorem fractionPart_text (frac : List (Fin 10)) (e : Option (Bool × List (Fin 10))) :
    fractionPart (fractionText frac ++ exponentText e) = (frac, exponentText e) := by
  by_cases hfrac : frac = []
  · subst hfrac
    cases e with
    | none => rfl
    | some e => rfl
  · have hstop : startsWithDigit (exponentText e ++ []) = false := exponentText_not_digit e rfl
    rw [List.append_nil] at hstop
    rw [fractionText, if_neg hfrac]
    exact takeDigits_append frac hstop

theorem exponentPart_text (e : Option (Bool × List (Fin 10))) :
    exponentPart (exponentText e) = exponentValue e := by
  cases e with
  | none => rfl
  | some e =>
    obtain ⟨neg, ds⟩ := e
    cases neg <;> simp [exponentText, exponentPart, exponentValue, takeDigits_digitStr]

theorem signPart_text (neg : Bool) {whole : List (Fin 10)} (hwhole : whole ≠ []) (rest : PyStr) :
    signPart ((if neg then py "-" else []) ++ (digitStr whole ++ rest)) =
      (neg, digitStr whole ++ rest) := by
  obtain ⟨d, ds, rfl⟩ := List.exists_cons_of_ne_nil hwhole
  cases neg with
  | true => rfl
  | false => exact if_neg fun h => digit_ne_minus d (Option.some.inj h)

theorem decimalTuple_text (neg : Bool) {p : DecimalParts} {d : ShortDigits} (hp : p.Denotes d) :
    decimalTuple ((if neg then py "-" else []) ++ p.text) =
      (neg, p.significant, exponentValue p.exponent - p.frac.length) := by
  have hne : p.significant ≠ [] := by
    intro h
    have hdigits := hp.1
    rw [h, List.rdropWhile_nil] at hdigits
    exact d.ne_nil hdigits.symm
  have hexp : startsWithDigit (exponentText p.exponent ++ []) = false :=
    exponentText_not_digit p.exponent rfl
  rw [List.append_nil] at hexp
  have htail := fractionText_not_digit p.frac hexp
  rw [significant] at hne
  simp only [decimalTuple, text, signPart_text neg p.whole_ne, takeDigits_append p.whole htail,
    fractionPart_text, exponentPart_text, if_neg hne, significant]

end DecimalParts

open DecimalParts

/-! ## Redundant zeros -/

section
variable (d : ShortDigits)

theorem dropZeros_append (j : Nat) (tail : List (Fin 10)) :
    (List.replicate j 0 ++ (d.digits ++ tail)).dropWhile (fun x : Fin 10 => decide (x = 0)) =
      d.digits ++ tail := by
  induction j with
  | zero =>
    obtain ⟨x, xs, hx⟩ := List.exists_cons_of_ne_nil d.ne_nil
    have hne : x ≠ 0 := by
      intro h
      exact d.head_ne (by rw [hx, List.head?_cons, h])
    rw [List.replicate_zero, List.nil_append, hx, List.cons_append,
      List.dropWhile_cons_of_neg (by simpa using hne)]
  | succ j ih =>
    rw [List.replicate_succ, List.cons_append, List.dropWhile_cons_of_pos (by simp), ih]

theorem rdropZeros_digits (j : Nat) :
    (d.digits ++ List.replicate j 0).rdropWhile (fun x : Fin 10 => decide (x = 0)) = d.digits := by
  induction j with
  | zero =>
    rw [List.replicate_zero, List.append_nil, List.rdropWhile_eq_self_iff]
    intro hne h
    refine d.last_ne ?_
    rw [List.getLast?_eq_some_getLast hne, Option.some.injEq]
    simpa using h
  | succ j ih =>
    rw [List.replicate_succ', ← List.append_assoc, List.rdropWhile_concat_pos _ _ _ (by simp), ih]

/-- Parts whose digits are those of `d` between zeros denote `d` when the point is right. -/
theorem denotes_of_zeros {p : DecimalParts} {j l : Nat}
    (hdigits : p.whole ++ p.frac = List.replicate j 0 ++ (d.digits ++ List.replicate l 0))
    (hpoint : (d.digits.length : Int) + l + (exponentValue p.exponent - p.frac.length) = d.point) :
    p.Denotes d := by
  have hsig : p.significant = d.digits ++ List.replicate l 0 := by
    rw [significant, hdigits, dropZeros_append]
  rw [Denotes, hsig, rdropZeros_digits, List.length_append, List.length_replicate]
  exact ⟨rfl, by omega⟩

/-! ## The notations in use -/

theorem digits_head_ne_zero {ds : List (Fin 10)} (h : ds.head? = d.digits.head?) :
    ds.head? ≠ some 0 := h ▸ d.head_ne

theorem take_head {n : Nat} (hn : 0 < n) : (d.digits.take n).head? = d.digits.head? := by
  cases n with
  | zero => omega
  | succ n =>
    cases d.digits with
    | nil => rfl
    | cons x xs => rfl

/-- An exponent with `j` leading zeros. -/
theorem exponentText_of (m : Int) (j : Nat) : ∃ e, (∀ x ∈ e, x.2 ≠ []) ∧
    exponentText e = py "e" ++ (if m < 0 then py "-" else py "+") ++
      (List.replicate j 48 ++ natStr m.natAbs) ∧ exponentValue e = m ∧ e ≠ none := by
  obtain ⟨ds, hds, hstr, hval⟩ := natStr_eq m.natAbs
  refine ⟨some (decide (m < 0), List.replicate j 0 ++ ds), ?_, ?_, ?_, by simp⟩
  · simpa using fun _ => hds
  · rw [hstr, exponentText, digitStr_append, digitStr_replicate]
    by_cases hm : m < 0
    · simp only [hm, decide_true, if_true]
      rfl
    · simp only [hm, decide_false, if_false]
      rfl
  · simp only [exponentValue, ofDigitStr_zeros, hval, decide_eq_true_eq]
    by_cases hm : m < 0
    · rw [if_pos hm]; omega
    · rw [if_neg hm]; omega

/-- One digit, the others behind the point, and an exponent. -/
theorem decimal_exponent (j : Nat) : ∃ p : DecimalParts, p.Denotes d ∧ p.exponent ≠ none ∧
    p.text = digitStr (d.digits.take 1) ++
      (if d.digits.length = 1 then [] else py "." ++ digitStr (d.digits.drop 1)) ++
      (py "e" ++ (if d.point - 1 < 0 then py "-" else py "+") ++
        (List.replicate j 48 ++ natStr (d.point - 1).natAbs)) := by
  have hk : 0 < d.digits.length := List.length_pos_of_ne_nil d.ne_nil
  obtain ⟨e, hne, htext, hval, hsome⟩ := exponentText_of (d.point - 1) j
  refine ⟨⟨d.digits.take 1, d.digits.drop 1, e, by simpa using d.ne_nil,
    fun h => absurd h (digits_head_ne_zero d (take_head d (by omega))), hne⟩, ?_, hsome, ?_⟩
  · refine denotes_of_zeros d (j := 0) (l := 0) ?_ ?_
    · rw [List.take_append_drop, List.replicate_zero, List.nil_append, List.append_nil]
    · rw [hval, List.length_drop]
      omega
  · simp only [text, htext]
    by_cases hone : d.digits.length = 1
    · have hdrop : d.digits.drop 1 = [] := List.drop_of_length_le (by omega)
      rw [if_pos hone, fractionText, if_pos hdrop, List.append_nil, List.nil_append]
    · have hdrop : d.digits.drop 1 ≠ [] := by
        rw [ne_eq, List.drop_eq_nil_iff]
        omega
      rw [if_neg hone, fractionText, if_neg hdrop, ← List.append_assoc]
      rfl

/-- A zero, and the digits behind the point. -/
theorem decimal_small (h : d.point ≤ 0) : ∃ p : DecimalParts, p.Denotes d ∧ p.frac ≠ [] ∧
    p.text = py "0." ++ List.replicate (-d.point).toNat 48 ++ digitStr d.digits := by
  refine ⟨⟨[0], List.replicate (-d.point).toNat 0 ++ d.digits, none, by simp, fun _ => rfl,
    by simp⟩, ?_, by simp [d.ne_nil], ?_⟩
  · refine denotes_of_zeros d (j := (-d.point).toNat + 1) (l := 0) ?_ ?_
    · rw [List.replicate_succ, List.replicate_zero, List.append_nil]
      rfl
    · rw [List.length_append, List.length_replicate, exponentValue]
      omega
  · rw [text, fractionText, if_neg (by simp [d.ne_nil]), digitStr_append, digitStr_replicate,
      exponentText, List.append_nil]
    rfl

/-- The point among the digits. -/
theorem decimal_inside (h : 0 < d.point) (hk : d.point < d.digits.length) :
    ∃ p : DecimalParts, p.Denotes d ∧ p.frac ≠ [] ∧ p.text =
      digitStr (d.digits.take d.point.toNat) ++ py "." ++ digitStr (d.digits.drop d.point.toNat) := by
  refine ⟨⟨d.digits.take d.point.toNat, d.digits.drop d.point.toNat, none, ?_,
    fun h0 => absurd h0 (digits_head_ne_zero d (take_head d (by omega))), by simp⟩, ?_, ?_, ?_⟩
  · simp only [ne_eq, List.take_eq_nil_iff, not_or]
    exact ⟨by omega, d.ne_nil⟩
  · refine denotes_of_zeros d (j := 0) (l := 0) (by simp) ?_
    rw [List.length_drop, exponentValue]
    omega
  · simp only [ne_eq, List.drop_eq_nil_iff]
    omega
  · rw [text, fractionText, if_neg (by simp; omega), exponentText, List.append_nil,
      List.append_assoc]
    rfl

/-- An integer, printed with a fraction of zero. -/
theorem decimal_whole (h : (d.digits.length : Int) ≤ d.point) : ∃ p : DecimalParts, p.Denotes d ∧
    p.frac ≠ [] ∧ p.text = digitStr d.digits ++ List.replicate (d.point - d.digits.length).toNat 48 ++ py ".0" := by
  refine ⟨⟨d.digits ++ List.replicate (d.point - d.digits.length).toNat 0, [0], none,
    by simp [d.ne_nil], fun h0 => ?_, by simp⟩, ?_, by simp, ?_⟩
  · rw [List.head?_append_of_ne_nil _ d.ne_nil] at h0
    exact absurd h0 d.head_ne
  · refine denotes_of_zeros d (j := 0) (l := (d.point - d.digits.length).toNat + 1) ?_ ?_
    · rw [List.append_assoc, List.replicate_succ']
      rfl
    · rw [exponentValue, List.length_singleton]
      omega
  · rw [text, fractionText, if_neg (by simp), digitStr_append, digitStr_replicate, exponentText,
      List.append_nil]
    rfl

/-- `repr` of a positive float is a decimal notation of its digits, with a point or an exponent. -/
theorem reprDigits_text : ∃ p : DecimalParts, p.Denotes d ∧ (p.frac ≠ [] ∨ p.exponent ≠ none) ∧
    p.text = reprDigits d := by
  unfold reprDigits
  simp only
  by_cases h1 : d.point ≤ -4 ∨ 16 < d.point
  · obtain ⟨p, hp, hexp, htext⟩ := decimal_exponent d (if (d.point - 1).natAbs < 10 then 1 else 0)
    have hpad : List.replicate (if (d.point - 1).natAbs < 10 then 1 else 0) 48 =
        (if (d.point - 1).natAbs < 10 then py "0" else []) := by
      by_cases hlt : (d.point - 1).natAbs < 10
      · rw [if_pos hlt, if_pos hlt]
        rfl
      · rw [if_neg hlt, if_neg hlt]
        rfl
    rw [hpad] at htext
    rw [if_pos h1]
    exact ⟨p, hp, .inr hexp, by simpa only [List.append_assoc] using htext⟩
  · rw [if_neg h1]
    by_cases h2 : d.point ≤ 0
    · have habs : d.point.natAbs = (-d.point).toNat := by omega
      obtain ⟨p, hp, hfrac, htext⟩ := decimal_small d h2
      rw [if_pos h2, habs]
      exact ⟨p, hp, .inl hfrac, htext⟩
    · rw [if_neg h2]
      by_cases h3 : (d.digits.length : Int) ≤ d.point
      · rw [if_pos h3]
        obtain ⟨p, hp, hfrac, htext⟩ := decimal_whole d h3
        exact ⟨p, hp, .inl hfrac, htext⟩
      · obtain ⟨p, hp, hfrac, htext⟩ := decimal_inside d (by omega) (by omega)
        rw [if_neg h3]
        exact ⟨p, hp, .inl hfrac, htext⟩

/-- `Number::toString` of a positive number that is printed with a point or an exponent. -/
theorem decimalNotation_text (h : ¬ ((d.digits.length : Int) ≤ d.point ∧ d.point ≤ 21)) :
    ∃ p : DecimalParts, p.Denotes d ∧ (p.frac ≠ [] ∨ p.exponent ≠ none) ∧
      p.text = decimalNotation d := by
  have hk : 0 < d.digits.length := List.length_pos_of_ne_nil d.ne_nil
  unfold decimalNotation
  simp only
  by_cases h1 : -5 ≤ d.point ∧ d.point ≤ 21
  · rw [if_pos h1, if_neg (by omega)]
    by_cases h2 : 0 < d.point
    · obtain ⟨p, hp, hfrac, htext⟩ := decimal_inside d h2 (by omega)
      rw [if_pos h2]
      exact ⟨p, hp, .inl hfrac, htext⟩
    · obtain ⟨p, hp, hfrac, htext⟩ := decimal_small d (by omega)
      rw [if_neg h2]
      exact ⟨p, hp, .inl hfrac, htext⟩
  · obtain ⟨p, hp, hexp, htext⟩ := decimal_exponent d 0
    have hsign : (if d.point - 1 < 0 then py "-" else py "+") =
        if d.point < 0 then py "-" else py "+" := by
      by_cases hn : d.point < 0
      · rw [if_pos hn, if_pos (by omega)]
      · rw [if_neg hn, if_neg (by omega)]
    rw [hsign, List.replicate_zero, List.nil_append] at htext
    rw [if_neg h1]
    refine ⟨p, hp, .inr hexp, ?_⟩
    rw [htext]
    by_cases hone : d.digits.length = 1
    · have hone' : (d.digits.length : Int) = 1 := by omega
      rw [if_pos hone, if_pos hone', List.append_nil, List.take_of_length_le (by omega)]
      simp only [List.append_assoc]
    · have hone' : ¬ (d.digits.length : Int) = 1 := by omega
      rw [if_neg hone, if_neg hone']
      simp only [List.append_assoc]

end

/-- `_es_number` prints what `Number::toString` prints. -/
theorem esNumber_dec (neg : Bool) (d : ShortDigits) :
    esNumber (.dec neg d) = (if neg then py "-" else []) ++ decimalNotation d := by
  obtain ⟨p, hp, -, htext⟩ := reprDigits_text d
  have htuple := decimalTuple_text neg hp
  rw [htext] at htuple
  have hk : 0 < d.digits.length := List.length_pos_of_ne_nil d.ne_nil
  simp only [esNumber, reprFloat, htuple, hp.1, hp.2]
  congr 1
  unfold decimalNotation
  simp only
  by_cases h1 : (d.digits.length : Int) ≤ d.point ∧ d.point ≤ 21
  · rw [if_pos h1, if_pos (by omega), if_pos h1.1]
  · rw [if_neg h1]
    by_cases h2 : 0 < d.point ∧ d.point ≤ 21
    · rw [if_pos h2, if_pos (by omega), if_neg (by omega), if_pos h2.1]
    · rw [if_neg h2]
      by_cases h3 : -6 < d.point ∧ d.point ≤ 0
      · rw [if_pos h3, if_pos (by omega), if_neg (by omega), if_neg (by omega)]
      · have hexp : ¬ (-5 ≤ d.point ∧ d.point ≤ 21) := by omega
        have hsign : (if 0 < d.point then py "+" else py "-") =
            if d.point < 0 then py "-" else py "+" := by
          by_cases hn : d.point < 0
          · rw [if_pos hn, if_neg (by omega)]
          · rw [if_neg hn, if_pos (by omega)]
        rw [if_neg h3, if_neg hexp, hsign]
        by_cases hone : (d.digits.length : Int) = 1
        · rw [if_pos hone, if_neg (by omega), List.append_nil, List.take_of_length_le (by omega)]
        · rw [if_neg hone, if_pos (by omega), ← List.append_assoc (digitStr (d.digits.take 1))]

/-! ## `json.loads` -/

/-- A number may end here: at the end of the text, at a separator or at the end of a line. -/
def StopsNumber (rest : PyStr) : Prop := ∀ c ∈ rest.head?, c = 44 ∨ c = 93 ∨ c = 125 ∨ c = 10

theorem StopsNumber.not_digit {rest : PyStr} (h : StopsNumber rest) :
    startsWithDigit rest = false := by
  cases rest with
  | nil => rfl
  | cons c rest => rcases h c rfl with rfl | rfl | rfl | rfl <;> rfl

theorem StopsNumber.head_ne {rest : PyStr} (h : StopsNumber rest) : rest.head? ≠ some 46 := by
  cases rest with
  | nil => simp
  | cons c rest => rcases h c rfl with rfl | rfl | rfl | rfl <;> simp only [List.head?_cons] <;> decide

theorem scanExponent_stop {rest : PyStr} (h : StopsNumber rest) : scanExponent rest = none := by
  cases rest with
  | nil => rfl
  | cons c rest => rcases h c rfl with rfl | rfl | rfl | rfl <;> rfl

theorem scanExponent_text {neg : Bool} {ds : List (Fin 10)} (hds : ds ≠ []) {rest : PyStr}
    (h : StopsNumber rest) : scanExponent (exponentText (some (neg, ds)) ++ rest) =
      some (exponentValue (some (neg, ds)), rest) := by
  have hdigit := startsWithDigit_digitStr hds rest
  have htake := takeDigits_append ds h.not_digit
  cases neg with
  | true =>
    simp [exponentText, exponentValue, scanExponent, hdigit, htake]
  | false =>
    have hne : ¬ (43 : CodePoint) = 45 := by decide
    simp [exponentText, exponentValue, scanExponent, hdigit, htake, hne]

/-- The digits before the point: a leading zero stands alone. -/
theorem scanWhole {whole : List (Fin 10)} (hne : whole ≠ [])
    (hlead : whole.head? = some 0 → whole = [0]) {rest : PyStr}
    (hrest : startsWithDigit rest = false) :
    (if (digitStr whole ++ rest).head? = some 48 then ([0], (digitStr whole ++ rest).tail)
      else takeDigits (digitStr whole ++ rest)) = (whole, rest) := by
  obtain ⟨d, ds, rfl⟩ := List.exists_cons_of_ne_nil hne
  by_cases hd : d = 0
  · subst hd
    rw [hlead rfl]
    rfl
  · have hhead : (digitStr (d :: ds) ++ rest).head? ≠ some 48 := by
      intro h
      have h48 : digit d = digit 0 := Option.some.inj h
      exact hd (digit_injective h48)
    rw [if_neg hhead, takeDigits_append _ hrest]

theorem StopsNumber.exponentText {rest : PyStr} (h : StopsNumber rest)
    (e : Option (Bool × List (Fin 10))) : (exponentText e ++ rest).head? ≠ some 46 := by
  cases e with
  | none => exact h.head_ne
  | some e => simp only [DecimalParts.exponentText, List.cons_append, List.head?_cons]; decide

theorem decimalNotation_int {d : ShortDigits} (h : (d.digits.length : Int) ≤ d.point ∧ d.point ≤ 21) :
    decimalNotation d =
      digitStr (d.digits ++ List.replicate (d.point - d.digits.length).toNat 0) := by
  have hk : 0 < d.digits.length := List.length_pos_of_ne_nil d.ne_nil
  unfold decimalNotation
  simp only
  rw [if_pos (by omega), if_pos h.1, digitStr_append, digitStr_replicate]
  rfl

variable [Runtime]

/-- The number that a decimal text denotes. -/
theorem ofDecimal_text {p : DecimalParts} {d : ShortDigits} (hp : p.Denotes d)
    (hd : Runtime.IsDouble d) (neg : Bool) : Double.ofDecimal neg (p.whole ++ p.frac)
      (p.whole.length + exponentValue p.exponent) = .dec neg d := by
  have hsplit := congrArg List.length
    (List.takeWhile_append_dropWhile (p := fun x : Fin 10 => decide (x = 0)) (l := p.whole ++ p.frac))
  rw [List.length_append, List.length_append] at hsplit
  have hbody : ((p.whole ++ p.frac).dropWhile (fun x : Fin 10 => decide (x = 0))).rdropWhile
      (fun x : Fin 10 => decide (x = 0)) = d.digits := hp.1
  have hpoint := hp.2
  rw [significant] at hpoint
  have hof : ShortDigits.ofDigits? (p.whole ++ p.frac)
      (p.whole.length + exponentValue p.exponent) = some d := by
    unfold ShortDigits.ofDigits?
    simp only
    rw [dif_neg (by rw [hbody]; exact d.ne_nil), Option.some.injEq]
    ext1
    · exact hbody
    · change (p.whole.length + exponentValue p.exponent : Int) - _ = d.point
      omega
  rw [Double.ofDecimal, hof]
  simp only [Runtime.nearest_short d hd, Double.withSign]

theorem scanUnsigned_text {p : DecimalParts} {d : ShortDigits} (hp : p.Denotes d)
    (hd : Runtime.IsDouble d) (hfloat : p.frac ≠ [] ∨ p.exponent ≠ none) (neg : Bool) {rest : PyStr}
    (hrest : StopsNumber rest) :
    scanUnsigned neg (p.text ++ rest) = .ok (.float (.dec neg d), rest) := by
  have hexp := exponentText_not_digit p.exponent hrest.not_digit
  have hfrac := fractionText_not_digit p.frac hexp
  have hdigit := startsWithDigit_digitStr p.whole_ne
    (fractionText p.frac ++ (exponentText p.exponent ++ rest))
  have hwhole := scanWhole p.whole_ne p.leading hfrac
  have hvalue := ofDecimal_text hp hd neg
  have hfraction : (if (fractionText p.frac ++ (exponentText p.exponent ++ rest)).head? = some 46 ∧
        startsWithDigit (fractionText p.frac ++ (exponentText p.exponent ++ rest)).tail = true then
        ((takeDigits (fractionText p.frac ++ (exponentText p.exponent ++ rest)).tail).1,
          (takeDigits (fractionText p.frac ++ (exponentText p.exponent ++ rest)).tail).2)
      else ([], fractionText p.frac ++ (exponentText p.exponent ++ rest))) =
      (p.frac, exponentText p.exponent ++ rest) := by
    by_cases hnil : p.frac = []
    · rw [hnil, fractionText, if_pos rfl, List.nil_append, if_neg]
      exact fun h => hrest.exponentText p.exponent h.1
    · rw [fractionText, if_neg hnil, List.cons_append, List.tail_cons, if_pos,
        takeDigits_append p.frac hexp]
      exact ⟨rfl, startsWithDigit_digitStr hnil _⟩
  rw [text, List.append_assoc, List.append_assoc, scanUnsigned, if_pos hdigit, hwhole]
  simp only [hfraction]
  cases hexponent : p.exponent with
  | none =>
    have hnil : p.frac ≠ [] := hfloat.resolve_right fun h => h hexponent
    rw [hexponent, exponentValue, add_zero] at hvalue
    rw [exponentText, List.nil_append, scanExponent_stop hrest]
    simp only [if_pos hnil, hvalue]
  | some e =>
    have hds := p.exponent_ne e hexponent
    rw [hexponent] at hvalue
    rw [scanExponent_text hds hrest]
    simp only [hvalue]

/-- The value that `json.loads` builds from a printed number. -/
def receivedNumber : Double → Json
  | .nan | .inf _ => .null
  | .zero _ => .int 0
  | .dec neg d =>
    if (d.digits.length : Int) ≤ d.point ∧ d.point ≤ 21 then
      let n : Int := ofDigitStr (d.digits ++ List.replicate (d.point - d.digits.length).toNat 0)
      .int (if neg then -n else n)
    else .float (.dec neg d)

theorem scanUnsigned_int {ds : List (Fin 10)} (hne : ds ≠ []) (hlead : ds.head? = some 0 → ds = [0])
    (hlen : ds.length ≤ maxStrDigits) (neg : Bool) {rest : PyStr} (hrest : StopsNumber rest) :
    scanUnsigned neg (digitStr ds ++ rest) =
      .ok (.int (if neg then -(ofDigitStr ds : Int) else ofDigitStr ds), rest) := by
  rw [scanUnsigned, if_pos (startsWithDigit_digitStr hne rest), scanWhole hne hlead hrest.not_digit]
  simp only [if_neg fun h : rest.head? = some 46 ∧ _ => hrest.head_ne h.1, scanExponent_stop hrest,
    ne_eq, not_true_eq_false, if_false, if_neg (Nat.not_lt.mpr hlen)]

/-- A printed number is read back with its sign, digits and point. -/
theorem scanUnsigned_decimalNotation {d : ShortDigits} (hd : Runtime.IsDouble d) (neg : Bool)
    {rest : PyStr} (hrest : StopsNumber rest) :
    scanUnsigned neg (decimalNotation d ++ rest) = .ok (receivedNumber (.dec neg d), rest) := by
  by_cases hint : (d.digits.length : Int) ≤ d.point ∧ d.point ≤ 21
  · rw [decimalNotation_int hint, receivedNumber, if_pos hint]
    refine scanUnsigned_int (by simp [d.ne_nil]) (fun h => ?_) ?_ neg hrest
    · rw [List.head?_append_of_ne_nil _ d.ne_nil] at h
      exact absurd h d.head_ne
    · simp only [List.length_append, List.length_replicate, maxStrDigits]
      omega
  · obtain ⟨p, hp, hfloat, htext⟩ := decimalNotation_text d hint
    rw [← htext, scanUnsigned_text hp hd hfloat neg hrest, receivedNumber, if_neg hint]

omit [Runtime] in
/-- A printed positive number starts with a digit. -/
theorem decimalNotation_head (d : ShortDigits) : ∃ x rest, decimalNotation d = digit x :: rest := by
  have hhead : ∀ {ds : List (Fin 10)} (s : PyStr), ds ≠ [] →
      ∃ x rest, digitStr ds ++ s = digit x :: rest := by
    intro ds s hds
    obtain ⟨x, xs, rfl⟩ := List.exists_cons_of_ne_nil hds
    exact ⟨x, digitStr xs ++ s, rfl⟩
  by_cases hint : (d.digits.length : Int) ≤ d.point ∧ d.point ≤ 21
  · rw [decimalNotation_int hint, digitStr_append]
    exact hhead _ d.ne_nil
  · obtain ⟨p, -, -, htext⟩ := decimalNotation_text d hint
    rw [← htext]
    exact hhead _ p.whole_ne

omit [Runtime] in
theorem reprDigits_head (d : ShortDigits) : ∃ x tail, reprDigits d = digit x :: tail := by
  obtain ⟨p, -, -, htext⟩ := reprDigits_text d
  obtain ⟨x, whole, hwhole⟩ := List.exists_cons_of_ne_nil p.whole_ne
  refine ⟨x, digitStr whole ++ (DecimalParts.fractionText p.frac ++
    DecimalParts.exponentText p.exponent), ?_⟩
  rw [← htext, DecimalParts.text, hwhole]
  rfl

end HassNode.NumberText
