import HassNode.Js.Utf16
import HassNode.Canonical

/-!
# The plugin's side of an approval

`canonicalJson` and `approvalBind` of `node-approval.ts` over JavaScript values that JSON can hold,
with the ECMAScript operations they call: `Number::toString`, `JSON.stringify` and the default order
of `Array.prototype.sort`.
-/

namespace Js

open Py Py.JsonText

inductive JsValue where
  | null
  | bool (b : Bool)
  | num (x : Double)
  | str (s : JsStr)
  | arr (items : List JsValue)
  | obj (entries : List (JsStr × JsValue))

abbrev JsObject := List (JsStr × JsValue)

theorem JsValue.induction {motive : JsValue → Prop} (null : motive .null)
    (bool : ∀ b, motive (.bool b)) (num : ∀ x, motive (.num x)) (str : ∀ s, motive (.str s))
    (arr : ∀ items : List JsValue, (∀ v ∈ items, motive v) → motive (.arr items))
    (obj : ∀ entries : JsObject, (∀ kv ∈ entries, motive kv.2) → motive (.obj entries)) :
    ∀ v, motive v := by
  intro v
  refine JsValue.rec (motive_1 := motive) (motive_2 := fun items => ∀ v ∈ items, motive v)
    (motive_3 := fun entries => ∀ kv ∈ entries, motive kv.2) (motive_4 := fun kv => motive kv.2)
    null bool num str arr obj ?_ ?_ ?_ ?_ ?_ v
  · intro v hv; cases hv
  · intro v vs hv hvs w hw
    rcases List.mem_cons.mp hw with rfl | hw
    · exact hv
    · exact hvs w hw
  · intro kv hkv; cases hkv
  · intro kv rest hkv hrest w hw
    rcases List.mem_cons.mp hw with rfl | hw
    · exact hkv
    · exact hrest w hw
  · intro k v hv; exact hv

/-! ## ECMAScript -/

/-- The digits, the point and the exponent of `Number::toString` of a positive number. -/
def decimalNotation (d : ShortDigits) : PyStr :=
  let k : Int := d.digits.length
  let n := d.point
  if -5 ≤ n ∧ n ≤ 21 then
    if k ≤ n then digitStr d.digits ++ List.replicate (n - k).toNat 48
    else if 0 < n then digitStr (d.digits.take n.toNat) ++ py "." ++ digitStr (d.digits.drop n.toNat)
    else py "0." ++ List.replicate (-n).toNat 48 ++ digitStr d.digits
  else
    let exponentSign := if n < 0 then py "-" else py "+"
    if k = 1 then digitStr d.digits ++ py "e" ++ exponentSign ++ natStr (n - 1).natAbs
    else digitStr (d.digits.take 1) ++ py "." ++ digitStr (d.digits.drop 1) ++ py "e" ++
      exponentSign ++ natStr (n - 1).natAbs

/-- `Number::toString`. -/
def numberToString : Double → JsStr
  | .nan => js "NaN"
  | .inf neg => if neg then js "-Infinity" else js "Infinity"
  | .zero _ => js "0"
  | .dec neg d => (if neg then js "-" else []) ++ encode (decimalNotation d)

def isFinite : Double → Bool
  | .nan | .inf _ => false
  | .zero _ | .dec _ _ => true

/-- One code point of `QuoteJSONString`. -/
def quotePoint (c : CodePoint) : JsStr :=
  if c.val = 8 then js "\\b"
  else if c.val = 9 then js "\\t"
  else if c.val = 10 then js "\\n"
  else if c.val = 12 then js "\\f"
  else if c.val = 13 then js "\\r"
  else if c.val = 34 then js "\\\""
  else if c.val = 92 then js "\\\\"
  else if c.val < 0x20 ∨ isSurrogate c then js "\\u" ++ encode (hexDigits 4 c.val)
  else encodePoint c

/-- `QuoteJSONString`. -/
def quoteJSONString (s : JsStr) : JsStr := js "\"" ++ (decode s).flatMap quotePoint ++ js "\""

mutual

/-- `JSON.stringify(value)`. -/
def stringify : JsValue → JsStr
  | .null => js "null"
  | .bool b => if b then js "true" else js "false"
  | .num x => if isFinite x then numberToString x else js "null"
  | .str s => quoteJSONString s
  | .arr items => js "[" ++ (js ",").intercalate (stringifyItems items) ++ js "]"
  | .obj entries => js "\x7b" ++ (js ",").intercalate (stringifyEntries entries) ++ js "\x7d"

def stringifyItems : List JsValue → List JsStr
  | [] => []
  | v :: rest => stringify v :: stringifyItems rest

def stringifyEntries : List (JsStr × JsValue) → List JsStr
  | [] => []
  | (k, v) :: rest => (quoteJSONString k ++ js ":" ++ stringify v) :: stringifyEntries rest

end

/-- `a` does not come after `b` in `keys.sort()`: the order of code units. -/
def unitsLe : JsStr → JsStr → Bool
  | [], _ => true
  | _ :: _, [] => false
  | a :: s, b :: t => a < b || (a == b && unitsLe s t)

end Js

namespace HassNode.NodeApproval

open Py Js

def reservedParams : List JsStr := [js "_openclaw_approval", js "_openclaw_caller"]

/-- The members of an object in key order, joined. -/
def joinSorted (members : List (JsStr × JsStr)) : JsStr :=
  (js ",").intercalate ((members.insertionSort fun a b => unitsLe a.1 b.1).map fun kv =>
    quoteJSONString kv.1 ++ js ":" ++ kv.2)

mutual

/-- `canonicalJson`. -/
def canonicalJson : JsValue → JsStr
  | .arr items => js "[" ++ (js ",").intercalate (canonicalItems items) ++ js "]"
  | .obj entries => js "\x7b" ++ joinSorted (canonicalEntries entries) ++ js "\x7d"
  | .null => stringify .null
  | .bool b => stringify (.bool b)
  | .num x => stringify (.num x)
  | .str s => stringify (.str s)

def canonicalItems : List JsValue → List JsStr
  | [] => []
  | v :: rest => canonicalJson v :: canonicalItems rest

def canonicalEntries : List (JsStr × JsValue) → List (JsStr × JsStr)
  | [] => []
  | (k, v) :: rest => (k, canonicalJson v) :: canonicalEntries rest

end

/-- The text that `approvalBind` hashes. -/
def approvalText (command action : JsStr) (params : JsObject) : JsStr :=
  let body := params.filter fun kv => kv.1 ∉ reservedParams
  canonicalJson (.obj [(js "command", .str command), (js "action", .str action),
    (js "params", .obj body)])

/-- `approvalBind`; the text is hashed in UTF-8. -/
def approvalBind [Runtime] (command action : JsStr) (params : JsObject) : PyStr :=
  Runtime.sha256 (decode (approvalText command action params))

end HassNode.NodeApproval
