import Mathlib.Data.Fin.Basic
import Mathlib.Data.List.DropRight
import Mathlib.Data.List.Infix
import Mathlib.Data.List.Sort
import Mathlib.Data.Nat.Digits.Defs
import Mathlib.Data.String.Basic

/-!
# Python strings

A Python `str` is a sequence of code points, surrogates included, so it is not a Lean `String`.
`py` embeds the literals of the source; `py_inj` lets `simp` decide when two of them differ.
-/

namespace Py

/-- A code point, a surrogate allowed. -/
abbrev CodePoint := Fin 0x110000

abbrev PyStr := List CodePoint

-- the numerals of code points and of decimal digits are read through these two
instance neZero_codePoints : NeZero 0x110000 := ⟨by decide⟩

instance neZero_ten : NeZero 10 := ⟨by decide⟩

-- and membership in a text or in a list of texts through these
instance lawfulBEq_codePoint : LawfulBEq CodePoint := instLawfulBEq

instance lawfulBEq_pyStr : LawfulBEq PyStr :=
  @List.instLawfulBEq CodePoint instBEqOfDecidableEq instLawfulBEq

def ofChar (c : Char) : CodePoint :=
  ⟨c.toNat, by
    have h := c.valid
    simp only [UInt32.isValidChar, Nat.isValidChar] at h
    change c.val.toNat < 0x110000
    omega⟩

/-- A string literal of the source. -/
def py (s : String) : PyStr := s.toList.map ofChar

theorem ofChar_injective : Function.Injective ofChar := by
  intro a b h
  have hn : a.toNat = b.toNat := by simpa only [ofChar, Fin.mk.injEq] using h
  exact Char.toNat_inj.mp hn

@[simp] theorem py_inj {s t : String} : py s = py t ↔ s = t := by
  constructor
  · intro h
    exact String.toList_inj.mp (ofChar_injective.list_map h)
  · rintro rfl
    rfl

/-- `Py_UNICODE_ISSPACE`, the characters `str.strip()` removes. -/
def isSpace (c : CodePoint) : Bool :=
  (9 ≤ c.val && c.val ≤ 13) || (28 ≤ c.val && c.val ≤ 32) || c.val == 0x85 || c.val == 0xA0 ||
    c.val == 0x1680 || (0x2000 ≤ c.val && c.val ≤ 0x200A) || c.val == 0x2028 ||
    c.val == 0x2029 || c.val == 0x202F || c.val == 0x205F || c.val == 0x3000

/-- `str.strip()`. -/
def strip (s : PyStr) : PyStr := (s.dropWhile isSpace).rdropWhile isSpace

theorem strip_eq_self {s : PyStr} (hhead : ∀ h : 0 < s.length, isSpace (s.get ⟨0, h⟩) = false)
    (hlast : ∀ h : s ≠ [], isSpace (s.getLast h) = false) : strip s = s := by
  have hfront : s.dropWhile isSpace = s :=
    List.dropWhile_eq_self_iff.mpr fun h => by
      rw [Bool.not_eq_true]
      exact hhead h
  unfold strip
  rw [hfront, List.rdropWhile_eq_self_iff]
  intro h
  rw [Bool.not_eq_true]
  exact hlast h

theorem strip_within (s : PyStr) : strip s <:+: s :=
  (List.rdropWhile_prefix _ _).isInfix.trans (List.dropWhile_suffix _).isInfix

theorem strip_concat_space (s : PyStr) {c : CodePoint} (hc : isSpace c = true) :
    strip (s ++ [c]) = strip s := by
  unfold strip
  rw [List.dropWhile_append]
  split
  · rename_i hempty
    rw [List.isEmpty_iff.mp hempty, List.dropWhile_cons_of_pos hc, List.dropWhile_nil]
  · exact List.rdropWhile_concat_pos _ _ _ hc

/-- `s.startswith(prefix)`. -/
def startsWith (s pre : PyStr) : Bool := pre.isPrefixOf s

/-- `s.endswith(suffix)`. -/
def endsWith (s suffix : PyStr) : Bool := suffix.isSuffixOf s

/-- `needle in s`. -/
def hasSubstr (s needle : PyStr) : Bool := s.tails.any fun t => needle.isPrefixOf t

theorem hasSubstr_iff {s needle : PyStr} : hasSubstr s needle = true ↔ needle <:+: s := by
  simp only [hasSubstr, List.any_eq_true, List.mem_tails, List.isPrefixOf_iff_prefix]
  constructor
  · rintro ⟨t, ht, hn⟩
    exact hn.isInfix.trans ht.isInfix
  · rintro ⟨a, b, rfl⟩
    exact ⟨needle ++ b, ⟨a, by simp⟩, List.prefix_append _ _⟩

/-- `sep.join(parts)`. -/
def joinWith (sep : PyStr) (parts : List PyStr) : PyStr := sep.intercalate parts

/-- The order of Python strings: by code point, a proper prefix first. -/
def le : PyStr → PyStr → Bool
  | [], _ => true
  | _ :: _, [] => false
  | a :: s, b :: t => a < b || (a == b && le s t)

/-- `sorted(strings)`. -/
def sortedStr (ss : List PyStr) : List PyStr := ss.insertionSort fun a b => le a b

theorem mem_sortedStr {s : PyStr} {ss : List PyStr} : s ∈ sortedStr ss ↔ s ∈ ss :=
  (List.perm_insertionSort _ ss).mem_iff

theorem mem_of_lookup {α β : Type} [BEq α] [LawfulBEq α] {key : α} {value : β}
    {table : List (α × β)}
    (h : table.lookup key = some value) : (key, value) ∈ table := by
  cases List.lookup_eq_some_iff.mp h with
  | intro before h =>
    cases h with
    | intro after h =>
      rw [h.1]
      exact List.mem_append_right _ (.head _)

def digit (d : Fin 10) : CodePoint := ⟨48 + d.val, by omega⟩

def digitStr (ds : List (Fin 10)) : PyStr := ds.map digit

/-- The decimal digits of `n`, most significant first and none for zero. -/
def natDigits (n : Nat) : List (Fin 10) := (Nat.digits 10 n).reverse.map (Fin.ofNat 10)

/-- `str(n)` for a natural number. -/
def natStr (n : Nat) : PyStr := if n = 0 then [48] else digitStr (natDigits n)

/-- `str(i)` for an integer. -/
def intStr (i : Int) : PyStr := (if i < 0 then [45] else []) ++ natStr i.natAbs

@[simp] theorem digitStr_append (ds es : List (Fin 10)) :
    digitStr (ds ++ es) = digitStr ds ++ digitStr es := List.map_append

@[simp] theorem digitStr_replicate (j : Nat) (d : Fin 10) :
    digitStr (List.replicate j d) = List.replicate j (digit d) := List.map_replicate

theorem digit_injective : Function.Injective digit := by
  intro a b h
  have hv : 48 + a.val = 48 + b.val := congrArg Fin.val h
  ext
  omega

def digitOf? (c : CodePoint) : Option (Fin 10) :=
  if h : 48 ≤ c.val ∧ c.val < 58 then some ⟨c.val - 48, by omega⟩ else none

def takeDigits (text : PyStr) : List (Fin 10) × PyStr :=
  ((text.takeWhile fun c => (digitOf? c).isSome).filterMap digitOf?,
    text.dropWhile fun c => (digitOf? c).isSome)

theorem digitOf?_digit (d : Fin 10) : digitOf? (digit d) = some d := by
  have h : 48 ≤ (digit d).val ∧ (digit d).val < 58 := by
    change 48 ≤ 48 + d.val ∧ 48 + d.val < 58
    omega
  rw [digitOf?, dif_pos h, Option.some.injEq]
  ext
  change 48 + d.val - 48 = d.val
  omega

/-- The number that a digit string denotes. -/
def ofDigitStr (ds : List (Fin 10)) : Nat := ds.foldl (fun n d => 10 * n + d.val) 0

theorem ofDigitStr_append_singleton (ds : List (Fin 10)) (d : Fin 10) :
    ofDigitStr (ds ++ [d]) = 10 * ofDigitStr ds + d.val := by
  simp only [ofDigitStr, List.foldl_append, List.foldl_cons, List.foldl_nil]

@[simp] theorem ofDigitStr_zeros (j : Nat) (ds : List (Fin 10)) :
    ofDigitStr (List.replicate j 0 ++ ds) = ofDigitStr ds := by
  induction j with
  | zero => rfl
  | succ j ih =>
    rw [List.replicate_succ, List.cons_append, ofDigitStr, List.foldl_cons]
    exact ih

theorem natDigits_step {n : Nat} (hn : n ≠ 0) :
    natDigits n = natDigits (n / 10) ++ [Fin.ofNat 10 (n % 10)] := by
  rw [natDigits, Nat.digits_def' (by omega) (by omega), List.reverse_cons, List.map_append]
  rfl

@[simp] theorem ofDigitStr_natDigits (n : Nat) : ofDigitStr (natDigits n) = n := by
  induction n using Nat.strongRecOn with
  | ind n ih =>
    by_cases hn : n = 0
    · subst hn
      rfl
    · rw [natDigits_step hn, ofDigitStr_append_singleton, ih (n / 10) (by omega)]
      change 10 * (n / 10) + n % 10 % 10 = n
      omega

theorem natDigits_ne_nil {n : Nat} (hn : n ≠ 0) : natDigits n ≠ [] := by
  intro h
  have hz := ofDigitStr_natDigits n
  rw [h] at hz
  exact hn hz.symm

/-- A digit string without a leading zero is what its number prints. -/
theorem natDigits_ofDigitStr (ds : List (Fin 10)) (h : ds.head? ≠ some 0) :
    natDigits (ofDigitStr ds) = ds := by
  induction ds using List.reverseRecOn with
  | nil => rfl
  | append_singleton es d ih =>
    rw [ofDigitStr_append_singleton]
    have hd : Fin.ofNat 10 d.val = d := Fin.ext (Nat.mod_eq_of_lt d.isLt)
    by_cases hes : es = []
    · subst hes
      have hd0 : d.val ≠ 0 := by
        intro h0
        exact h (by simpa using Fin.ext h0)
      rw [ofDigitStr, List.foldl_nil, natDigits_step (by omega),
        show (10 * 0 + d.val) / 10 = 0 by omega, show (10 * 0 + d.val) % 10 = d.val by omega, hd]
      rfl
    · rw [List.head?_append_of_ne_nil _ hes] at h
      have hm : ofDigitStr es ≠ 0 := by
        intro h0
        have hnil := ih h
        rw [h0] at hnil
        exact hes hnil.symm
      rw [natDigits_step (by omega), show (10 * ofDigitStr es + d.val) / 10 = ofDigitStr es by omega,
        show (10 * ofDigitStr es + d.val) % 10 = d.val by omega, ih h, hd]

theorem natStr_eq (n : Nat) : ∃ ds, ds ≠ [] ∧ natStr n = digitStr ds ∧ ofDigitStr ds = n := by
  by_cases hn : n = 0
  · subst hn
    exact ⟨[0], by decide, rfl, rfl⟩
  · exact ⟨natDigits n, natDigits_ne_nil hn, if_neg hn, ofDigitStr_natDigits n⟩

theorem natStr_inj {m n : Nat} (h : natStr m = natStr n) : m = n := by
  obtain ⟨ds, -, hm, hds⟩ := natStr_eq m
  obtain ⟨es, -, hn, hes⟩ := natStr_eq n
  rw [hm, hn] at h
  rw [← hds, ← hes, digit_injective.list_map h]

/-- A printed natural number starts with a digit. -/
theorem natStr_head (n : Nat) : ∃ d rest, natStr n = digit d :: rest := by
  obtain ⟨ds, hne, hn, -⟩ := natStr_eq n
  cases ds with
  | nil => exact absurd rfl hne
  | cons d ds => exact ⟨d, digitStr ds, hn⟩

theorem digit_ne_minus (d : Fin 10) : digit d ≠ 45 := by
  intro h
  have hv : 48 + d.val = 45 := congrArg Fin.val h
  omega

theorem intStr_inj {i j : Int} (h : intStr i = intStr j) : i = j := by
  obtain ⟨d, r, hd⟩ := natStr_head i.natAbs
  obtain ⟨e, r', he⟩ := natStr_head j.natAbs
  unfold intStr at h
  by_cases hi : i < 0 <;> by_cases hj : j < 0
  · rw [if_pos hi, if_pos hj, List.append_cancel_left_eq] at h
    have habs := natStr_inj h
    omega
  · rw [if_pos hi, if_neg hj, he, List.nil_append, List.cons_append, List.cons.injEq] at h
    exact absurd h.1.symm (digit_ne_minus e)
  · rw [if_neg hi, if_pos hj, hd, List.nil_append, List.cons_append, List.cons.injEq] at h
    exact absurd h.1 (digit_ne_minus d)
  · rw [if_neg hi, if_neg hj, List.nil_append, List.nil_append] at h
    have habs := natStr_inj h
    omega

end Py
