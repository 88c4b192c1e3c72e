import HassNode.Library.Printer
import HassNode.Py.JsonText

/-!
# The text an approval binds

`approval_bind` of `config_mutation.py` hashes the canonical JSON text of
`{command, action, params}` with the reserved fields removed from `params`.  The second half proves
that the text determines the call it was printed from.
-/

namespace HassNode.ConfigMutation

open Py

/-- Reserved invoke param carrying the approval marker. -/
def approvalParam : PyStr := py "_openclaw_approval"

def reserved : List PyStr := [approvalParam, py "_openclaw_caller"]

/-! ## Numbers -/

def signPart (text : PyStr) : Bool × PyStr :=
  if text.head? = some 45 then (true, text.tail) else (false, text)

def fractionPart (text : PyStr) : List (Fin 10) × PyStr :=
  if text.head? = some 46 then takeDigits text.tail else ([], text)

def exponentPart (text : PyStr) : Int :=
  match text with
  | 101 :: 45 :: rest => -(ofDigitStr (takeDigits rest).1 : Int)
  | 101 :: 43 :: rest => ofDigitStr (takeDigits rest).1
  | _ => 0

/-- `Decimal(text).as_tuple()` of the `repr` of a finite float: sign, digits and exponent. -/
def decimalTuple (text : PyStr) : Bool × List (Fin 10) × Int :=
  let (sign, text) := signPart text
  let (whole, text) := takeDigits text
  let (frac, text) := fractionPart text
  -- `str(int(whole + frac))` has no leading zeros
  let digits := (whole ++ frac).dropWhile (· = 0)
  (sign, if digits = [] then [0] else digits, exponentPart text - frac.length)

/-- `_es_number`: a float as ECMAScript `Number.prototype.toString` prints it. -/
def esNumber : Double → PyStr
  | .nan | .inf _ => py "null"
  | .zero _ => py "0"
  | .dec neg d =>
    let (sign, rawDigits, exponent) := decimalTuple (reprFloat (.dec neg d))
    let digits := rawDigits.rdropWhile (· = 0)
    let k : Int := digits.length
    let n : Int := rawDigits.length + exponent
    let body :=
      if k ≤ n ∧ n ≤ 21 then digitStr digits ++ List.replicate (n - k).toNat 48
      else if 0 < n ∧ n ≤ 21 then
        digitStr (digits.take n.toNat) ++ py "." ++ digitStr (digits.drop n.toNat)
      else if -6 < n ∧ n ≤ 0 then py "0." ++ List.replicate (-n).toNat 48 ++ digitStr digits
      else
        let tail := if 1 < k then py "." ++ digitStr (digits.drop 1) else []
        digitStr (digits.take 1) ++ tail ++ py "e" ++ (if 0 < n then py "+" else py "-") ++
          natStr (n - 1).natAbs
    (if sign then py "-" else []) ++ body

/-! ## Strings -/

/-- `s.encode("utf-16-be", "surrogatepass")` of one character. -/
def utf16Bytes (c : CodePoint) : List Nat :=
  if c.val < 0x10000 then [c.val / 256, c.val % 256]
  else
    let v := c.val - 0x10000
    let high := 0xD800 + v / 1024
    let low := 0xDC00 + v % 1024
    [high / 256, high % 256, low / 256, low % 256]

/-- `_utf16_key`: the sort key matching JavaScript's order of strings. -/
def utf16Key (key : PyStr) : List Nat := key.flatMap utf16Bytes

/-- The order of `bytes`. -/
def bytesLe : List Nat → List Nat → Bool
  | [], _ => true
  | _ :: _, [] => false
  | a :: s, b :: t => a < b || (a == b && bytesLe s t)

/-- `a` does not come after `b` in `sorted(keys, key=_utf16_key)`. -/
def keyLe (a b : PyStr) : Bool := bytesLe (utf16Key a) (utf16Key b)

def esEscapes : List (CodePoint × PyStr) :=
  [(34, [92, 34]), (92, [92, 92]), (8, [92, 98]), (12, [92, 102]), (10, [92, 110]),
    (13, [92, 114]), (9, [92, 116])]

def esChar (c : CodePoint) : PyStr :=
  match esEscapes.lookup c with
  | some escape => escape
  | none =>
    if c.val < 0x20 ∨ (0xD800 ≤ c.val ∧ c.val ≤ 0xDFFF) then py "\\u" ++ hexDigits 4 c.val
    else [c]

/-- `_es_string`: a string as well-formed `JSON.stringify` prints it. -/
def esString (value : PyStr) : PyStr := 34 :: (value.flatMap esChar ++ [34])

/-- A character is printed as itself, as a two-character escape or as `\uXXXX`. -/
theorem esChar_cases (c : CodePoint) :
    (esChar c = [c] ∧ c ≠ 34 ∧ c ≠ 92 ∧ 0x20 ≤ c.val ∧ ¬ (0xD800 ≤ c.val ∧ c.val ≤ 0xDFFF)) ∨
    (∃ e, esChar c = [92, e] ∧ e ≠ 117 ∧ JsonText.unescape? e = some c) ∨
    (esChar c = 92 :: 117 :: hexDigits 4 c.val ∧ c.val < 0x10000) := by
  by_cases hmem : c ∈ esEscapes.map Prod.fst
  · right; left
    simp only [esEscapes, List.map_cons, List.map_nil, List.mem_cons, List.not_mem_nil,
      or_false] at hmem
    rcases hmem with rfl | rfl | rfl | rfl | rfl | rfl | rfl
    · exact ⟨34, by decide⟩
    · exact ⟨92, by decide⟩
    · exact ⟨98, by decide⟩
    · exact ⟨102, by decide⟩
    · exact ⟨110, by decide⟩
    · exact ⟨114, by decide⟩
    · exact ⟨116, by decide⟩
  · have hnone : esEscapes.lookup c = none := by
      rw [List.lookup_eq_none_iff]
      intro kv hkv
      have hne : c ≠ kv.1 := fun heq => hmem (heq ▸ List.mem_map_of_mem hkv)
      simpa using hne
    by_cases hu : c.val < 0x20 ∨ (0xD800 ≤ c.val ∧ c.val ≤ 0xDFFF)
    · right; right
      refine ⟨?_, by omega⟩
      rw [esChar, hnone]
      simp only [if_pos hu]
      rfl
    · left
      have hlit : esChar c = [c] := by
        rw [esChar, hnone]
        simp only [if_neg hu]
      have hquote : c ≠ 34 := by
        rintro rfl
        exact hmem (by decide)
      have hbackslash : c ≠ 92 := by
        rintro rfl
        exact hmem (by decide)
      exact ⟨hlit, hquote, hbackslash, by omega, by omega⟩

/-! ## Values -/

/-- The sorted members of an object, joined. -/
def canonicalMembers (members : List (PyStr × PyStr)) : PyStr :=
  let sorted := members.insertionSort fun a b => keyLe a.1 b.1
  joinWith (py ",") (sorted.map fun kv => esString kv.1 ++ (58 :: kv.2))

mutual

/-- `_canonical`: keys sorted by UTF-16 code unit, no whitespace, ECMAScript numbers. -/
def canonical : Json → PyStr
  | .dict entries => 123 :: (canonicalMembers (canonicalDict entries) ++ [125])
  | .list items => 91 :: (joinWith (py ",") (canonicalList items) ++ [93])
  | .str s => esString s
  | .bool b => if b then py "true" else py "false"
  | .null => py "null"
  | .int i => intStr i
  | .float x => esNumber x

def canonicalList : List Json → List PyStr
  | [] => []
  | v :: rest => canonical v :: canonicalList rest

def canonicalDict : List (PyStr × Json) → List (PyStr × PyStr)
  | [] => []
  | (k, v) :: rest => (k, canonical v) :: canonicalDict rest

end

/-- `{k: v for k, v in params.items() if k not in _RESERVED}` -/
def unreserved (params : Dict) : Dict := params.filter fun kv => kv.1 ∉ reserved

/-- The text that `approval_bind` hashes. -/
def approvalText (command action : PyStr) (params : Dict) : PyStr :=
  canonical (obj [("command", .str command), ("action", .str action),
    ("params", .dict (unreserved params))])

/-- `approval_bind`: the digest binding an approval to one exact call. -/
def approvalBind [Runtime] (command action : PyStr) (params : Dict) : PyStr :=
  Runtime.sha256 (approvalText command action params)

theorem canonicalList_eq_map (items : List Json) : canonicalList items = items.map canonical := by
  induction items with
  | nil => rfl
  | cons v rest ih => rw [canonicalList, ih, List.map_cons]

theorem canonicalDict_eq_map (entries : Dict) :
    canonicalDict entries = entries.map fun kv => (kv.1, canonical kv.2) := by
  induction entries with
  | nil => rfl
  | cons kv rest ih => rw [canonicalDict, ih, List.map_cons]

/-- One printed member of an object. -/
def member (kv : PyStr × Json) : PyStr := esString kv.1 ++ (58 :: canonical kv.2)

/-- The entries of an object in the order of the text. -/
def sortedEntries (entries : Dict) : Dict :=
  entries.insertionSort fun a b => keyLe a.1 b.1

theorem canonicalMembers_eq (entries : Dict) :
    canonicalMembers (canonicalDict entries) =
      [44].intercalate ((sortedEntries entries).map member) := by
  have hsort : (canonicalDict entries).insertionSort
        (fun a b => keyLe a.1 b.1) =
      (sortedEntries entries).map fun kv => (kv.1, canonical kv.2) := by
    rw [canonicalDict_eq_map, sortedEntries]
    exact (List.map_insertionSort (fun a b : PyStr × Json => keyLe a.1 b.1 = true)
      (fun a b : PyStr × PyStr => keyLe a.1 b.1 = true) _ entries fun _ _ _ _ => Iff.rfl).symm
  simp only [canonicalMembers]
  rw [hsort, List.map_map]
  rfl

theorem mem_sortedEntries {entries : Dict} {kv : PyStr × Json} :
    kv ∈ sortedEntries entries ↔ kv ∈ entries := List.mem_insertionSort _

/-- The reserved fields are not part of the text. -/
theorem get?_unreserved {params : Dict} {key : PyStr} (h : key ∉ reserved) :
    (unreserved params).get? key = params.get? key := by
  unfold unreserved
  induction params with
  | nil => rfl
  | cons kv params ih =>
    rw [List.filter_cons, Dict.get?_cons]
    by_cases hkv : kv.1 ∉ reserved
    · rw [if_pos (decide_eq_true hkv), Dict.get?_cons, ih]
    · have hne : key ≠ kv.1 := fun heq => hkv (heq ▸ h)
      rw [if_neg (by simpa using hkv), if_neg hne, ih]

end HassNode.ConfigMutation
