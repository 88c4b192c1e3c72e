import Mathlib.Data.List.Chain
import HassNode.Py.JsonText

/-!
# UTF-16 strings

A JavaScript string is a sequence of UTF-16 code units.  `decode` reads it as Python reads the same
text: a high and a low surrogate that meet are one code point, any other surrogate stands alone.
-/

namespace Js

open Py Py.JsonText

abbrev CodeUnit := Fin 0x10000

abbrev JsStr := List CodeUnit

-- the numerals of code units are read through this one, membership in a list of strings through the next
instance neZero_codeUnits : NeZero 0x10000 := ⟨by decide⟩

instance lawfulBEq_jsStr : LawfulBEq JsStr :=
  @List.instLawfulBEq CodeUnit instBEqOfDecidableEq instLawfulBEq

def unit (n : Nat) : CodeUnit := ⟨n % 0x10000, Nat.mod_lt _ (by decide)⟩

def point (u : CodeUnit) : CodePoint := ⟨u.val, by omega⟩

def joinPair (high low : CodeUnit) : CodePoint :=
  ofNat (0x10000 + (high.val - 0xD800) * 1024 + (low.val - 0xDC00))

/-- `StringToCodePoints`. -/
def decode : JsStr → PyStr
  | [] => []
  | [u] => [point u]
  | u :: v :: rest =>
    if isHigh u.val && isLow v.val then joinPair u v :: decode rest
    else point u :: decode (v :: rest)

/-- `UTF16EncodeCodePoint`. -/
def encodePoint (c : CodePoint) : JsStr :=
  if c.val < 0x10000 then [unit c.val]
  else [unit (0xD800 + (c.val - 0x10000) / 1024), unit (0xDC00 + (c.val - 0x10000) % 1024)]

def encode (s : PyStr) : JsStr := s.flatMap encodePoint

/-- Outside the Basic Multilingual Plane. -/
def isSupplementary (c : CodePoint) : Bool := 0x10000 ≤ c.val

theorem length_encode (s : PyStr) : (encode s).length = s.length + s.countP isSupplementary := by
  induction s with
  | nil => rfl
  | cons c s ih =>
    unfold encode at ih ⊢
    rw [List.flatMap_cons, List.length_append, ih, List.length_cons, List.countP_cons]
    unfold encodePoint isSupplementary
    by_cases hc : c.val < 0x10000
    · simp only [hc, if_true, List.length_singleton, Nat.not_le.mpr hc, decide_false,
        Bool.false_eq_true, if_false]
      omega
    · simp only [hc, if_false, List.length_cons, List.length_nil, Nat.not_lt.mp hc, decide_true,
        if_true]
      omega

/-- A string literal of the source. -/
def js (s : String) : JsStr := encode (py s)

def isSurrogate (c : CodePoint) : Bool := 0xD800 ≤ c.val && c.val ≤ 0xDFFF

theorem unit_val {n : Nat} (h : n < 0x10000) : (unit n).val = n := Nat.mod_eq_of_lt h

theorem unit_eq {n : Nat} {u : CodeUnit} (h : n = u.val) : unit n = u := by
  subst h
  exact Fin.ext (unit_val u.isLt)

theorem ofNat_eq {n : Nat} {c : CodePoint} (h : n = c.val) : ofNat n = c := by
  subst h
  exact Fin.ext (Nat.mod_eq_of_lt c.isLt)

theorem joinPair_val {u v : CodeUnit} (hu : isHigh u.val = true) (hv : isLow v.val = true) :
    (joinPair u v).val = 0x10000 + (u.val - 0xD800) * 1024 + (v.val - 0xDC00) := by
  simp only [isHigh, isLow, Bool.and_eq_true, decide_eq_true_eq] at hu hv
  exact Nat.mod_eq_of_lt (by omega)

theorem encodePoint_point (u : CodeUnit) : encodePoint (point u) = [u] := by
  have hu : (point u).val < 0x10000 := u.isLt
  have hunit : unit (point u).val = u := unit_eq rfl
  rw [encodePoint, if_pos hu, hunit]

theorem encodePoint_joinPair {u v : CodeUnit} (hu : isHigh u.val = true) (hv : isLow v.val = true) :
    encodePoint (joinPair u v) = [u, v] := by
  have hval := joinPair_val hu hv
  simp only [isHigh, isLow, Bool.and_eq_true, decide_eq_true_eq] at hu hv
  rw [encodePoint, hval, if_neg (by omega), unit_eq (u := u) (by omega),
    unit_eq (u := v) (by omega)]

/-- Decoding loses nothing. -/
@[simp] theorem encode_decode (s : JsStr) : encode (decode s) = s := by
  induction s using decode.induct with
  | case1 => rfl
  | case2 u => simp [decode, encode, encodePoint_point]
  | case3 u v rest hpair ih =>
    have huv := Bool.and_eq_true_iff.mp hpair
    rw [decode, if_pos hpair, encode, List.flatMap_cons, encodePoint_joinPair huv.1 huv.2]
    exact congrArg ([u, v] ++ ·) ih
  | case4 u v rest hpair ih =>
    rw [decode, if_neg hpair, encode, List.flatMap_cons, encodePoint_point]
    exact congrArg ([u] ++ ·) ih

theorem decode_injective : Function.Injective decode :=
  Function.LeftInverse.injective encode_decode

/-- A unit that is not a high surrogate is read alone. -/
theorem decode_cons_of_not_high {u : CodeUnit} (hu : isHigh u.val = false) (s : JsStr) :
    decode (u :: s) = point u :: decode s := by
  cases s with
  | nil => rfl
  | cons v rest => rw [decode, hu, Bool.false_and, if_neg (by simp)]

/-- A code point that is no surrogate is read back from its encoding, whatever follows. -/
theorem decode_encodePoint_append {c : CodePoint} (hc : isSurrogate c = false) (s : JsStr) :
    decode (encodePoint c ++ s) = c :: decode s := by
  simp only [isSurrogate, Bool.and_eq_false_iff, decide_eq_false_iff_not, not_le] at hc
  have hlt := c.isLt
  by_cases h : c.val < 0x10000
  · have hunit : (unit c.val).val = c.val := Nat.mod_eq_of_lt h
    have hhigh : isHigh (unit c.val).val = false := by
      rw [hunit]
      simp only [isHigh, Bool.and_eq_false_iff, decide_eq_false_iff_not, not_le]
      omega
    rw [encodePoint, if_pos h, List.singleton_append, decode_cons_of_not_high hhigh]
    congr 1
    exact Fin.ext hunit
  · have hu : (unit (0xD800 + (c.val - 0x10000) / 1024)).val = 0xD800 + (c.val - 0x10000) / 1024 :=
      unit_val (by omega)
    have hv : (unit (0xDC00 + (c.val - 0x10000) % 1024)).val = 0xDC00 + (c.val - 0x10000) % 1024 :=
      unit_val (by omega)
    have hpair : (isHigh (unit (0xD800 + (c.val - 0x10000) / 1024)).val &&
        isLow (unit (0xDC00 + (c.val - 0x10000) % 1024)).val) = true := by
      rw [hu, hv]
      simp only [isHigh, isLow, Bool.and_eq_true, decide_eq_true_eq]
      omega
    rw [encodePoint, if_neg h, List.cons_append, List.singleton_append, decode, if_pos hpair,
      joinPair, hu, hv, ofNat_eq (c := c) (by omega)]

/-- A text without surrogates is read back from its encoding, whatever follows. -/
theorem decode_encode_append {t : PyStr} (ht : ∀ c ∈ t, isSurrogate c = false) (s : JsStr) :
    decode (encode t ++ s) = t ++ decode s := by
  induction t with
  | nil => rfl
  | cons c t ih =>
    rw [encode, List.flatMap_cons, List.append_assoc,
      decode_encodePoint_append (ht c (.head _)), List.cons_append]
    exact congrArg (c :: ·) (ih fun d hd => ht d (.tail _ hd))

theorem decode_encode {t : PyStr} (ht : ∀ c ∈ t, isSurrogate c = false) : decode (encode t) = t := by
  have h := decode_encode_append ht []
  rwa [List.append_nil, decode, List.append_nil] at h

@[simp] theorem encode_append (s t : PyStr) : encode (s ++ t) = encode s ++ encode t :=
  List.flatMap_append

/-- A low surrogate at the start of a decoded string is its first unit. -/
theorem decode_head_low {v : CodeUnit} {rest : JsStr} {c : CodePoint}
    (hc : c ∈ (decode (v :: rest)).head?) (hlow : isLow c.val = true) : c = point v := by
  cases rest with
  | nil => simpa [decode, eq_comm] using hc
  | cons w rest =>
    by_cases hpair : (isHigh v.val && isLow w.val) = true
    · have hvw := Bool.and_eq_true_iff.mp hpair
      rw [decode, if_pos hpair, List.head?_cons, Option.mem_some_iff] at hc
      subst hc
      rw [joinPair_val hvw.1 hvw.2] at hlow
      simp only [isLow, Bool.and_eq_true, decide_eq_true_eq] at hlow
      omega
    · rw [decode, if_neg hpair, List.head?_cons, Option.mem_some_iff] at hc
      exact hc.symm

/-- No high surrogate of a decoded string meets a low one. -/
theorem decode_noPair (s : JsStr) :
    (decode s).IsChain fun a b => ¬ (isHigh a.val = true ∧ isLow b.val = true) := by
  induction s using decode.induct with
  | case1 => exact .nil
  | case2 u => exact .singleton _
  | case3 u v rest hpair ih =>
    have huv := Bool.and_eq_true_iff.mp hpair
    rw [decode, if_pos hpair]
    refine List.isChain_cons.mpr ⟨fun c _ hbad => ?_, ih⟩
    have hhigh := hbad.1
    rw [joinPair_val huv.1 huv.2] at hhigh
    simp only [isHigh, Bool.and_eq_true, decide_eq_true_eq] at hhigh
    omega
  | case4 u v rest hpair ih =>
    rw [decode, if_neg hpair]
    refine List.isChain_cons.mpr ⟨fun c hc hbad => hpair ?_, ih⟩
    have hcv := decode_head_low hc hbad.2
    rw [hcv] at hbad
    exact Bool.and_eq_true_iff.mpr hbad

/-! ## Well-formed texts -/

/-- `s` encodes the code points `t`, none of which is a surrogate. -/
def Encodes (s : JsStr) (t : PyStr) : Prop := s = encode t ∧ ∀ c ∈ t, isSurrogate c = false

namespace Encodes

variable {s s' : JsStr} {t t' : PyStr}

theorem decode_eq (h : Encodes s t) : decode s = t := by
  rw [h.1, decode_encode h.2]

theorem append (h : Encodes s t) (h' : Encodes s' t') : Encodes (s ++ s') (t ++ t') := by
  refine ⟨by rw [h.1, h'.1, encode_append], fun c hc => ?_⟩
  rcases List.mem_append.mp hc with hc | hc
  · exact h.2 c hc
  · exact h'.2 c hc

theorem of_ascii {t : PyStr} (ht : ∀ c ∈ t, c.val < 0x80) : Encodes (encode t) t := by
  refine ⟨rfl, fun c hc => ?_⟩
  have hlt := ht c hc
  simp only [isSurrogate, Bool.and_eq_false_iff, decide_eq_false_iff_not, not_le]
  omega

theorem js (s : String) : Encodes (js s) (py s) := by
  refine ⟨rfl, fun c hc => ?_⟩
  obtain ⟨a, -, rfl⟩ := List.mem_map.mp hc
  have hvalid := a.valid
  simp only [UInt32.isValidChar, Nat.isValidChar] at hvalid
  change (0xD800 ≤ a.val.toNat && a.val.toNat ≤ 0xDFFF) = false
  simp only [Bool.and_eq_false_iff, decide_eq_false_iff_not, not_le]
  omega

theorem flatMap {α : Type} {f : α → JsStr} {g : α → PyStr} {as : List α}
    (h : ∀ a ∈ as, Encodes (f a) (g a)) : Encodes (as.flatMap f) (as.flatMap g) := by
  induction as with
  | nil => exact js ""
  | cons a as ih =>
    exact (h a (.head _)).append (ih fun b hb => h b (.tail _ hb))

theorem intercalate {α : Type} {f : α → JsStr} {g : α → PyStr} {as : List α}
    (hsep : Encodes s t) (h : ∀ a ∈ as, Encodes (f a) (g a)) :
    Encodes (s.intercalate (as.map f)) (t.intercalate (as.map g)) := by
  induction as with
  | nil => exact js ""
  | cons a as ih =>
    cases as with
    | nil => simpa using h a (.head _)
    | cons b bs =>
      have hrest := ih fun c hc => h c (.tail _ hc)
      have hboth := (h a (.head _)).append (hsep.append hrest)
      simpa [List.intercalate] using hboth

end Encodes

end Js
