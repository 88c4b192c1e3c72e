import HassNode.Py.Str

/-!
# Base64

`base64.b64encode`, and the reading of such a text: groups of four digits, of which the last may be
padded.  `base64.b64decode` itself reads more: it skips what is no digit.
-/

namespace Py.Base64

/-- The alphabet. -/
def digit64 (n : Nat) : CodePoint :=
  if n < 26 then Fin.ofNat _ (65 + n)
  else if n < 52 then Fin.ofNat _ (71 + n)
  else if n < 62 then Fin.ofNat _ (n - 4)
  else if n = 62 then 43
  else 47

def value64 (c : CodePoint) : Option Nat :=
  if 65 ≤ c.val ∧ c.val ≤ 90 then some (c.val - 65)
  else if 97 ≤ c.val ∧ c.val ≤ 122 then some (c.val - 71)
  else if 48 ≤ c.val ∧ c.val ≤ 57 then some (c.val + 4)
  else if c.val = 43 then some 62
  else if c.val = 47 then some 63
  else none

/-- `base64.b64encode(data).decode("ascii")`. -/
def b64encode : List Nat → PyStr
  | [] => []
  | [a] => [digit64 (a / 4), digit64 (a % 4 * 16), 61, 61]
  | [a, b] => [digit64 (a / 4), digit64 (a % 4 * 16 + b / 16), digit64 (b % 16 * 4), 61]
  | a :: b :: c :: rest =>
    digit64 (a / 4) :: digit64 (a % 4 * 16 + b / 16) :: digit64 (b % 16 * 4 + c / 64) ::
      digit64 (c % 64) :: b64encode rest

/-- `base64.b64decode` of a text in groups of four. -/
def b64decode : PyStr → Option (List Nat)
  | [] => some []
  | p :: q :: r :: s :: rest => do
    let x ← value64 p
    let y ← value64 q
    if r = 61 ∧ s = 61 ∧ rest = [] then return [x * 4 + y / 16]
    let z ← value64 r
    if s = 61 ∧ rest = [] then return [x * 4 + y / 16, y % 16 * 16 + z / 4]
    let w ← value64 s
    let more ← b64decode rest
    return (x * 4 + y / 16) :: (y % 16 * 16 + z / 4) :: (z % 4 * 64 + w) :: more
  | _ => none

/-- `binascii.a2b_base64` behind `out`, in a group of which `quadPos` digits and `pads` padding
characters have been read. -/
def a2bBase64 (quadPos leftchar pads : Nat) (out : List Nat) : PyStr → Except PyStr (List Nat)
  | [] =>
    if quadPos = 0 then .ok out
    else if quadPos = 1 then
      .error (py "Invalid base64-encoded string: number of data characters (" ++
        natStr (out.length / 3 * 4 + 1) ++ py ") cannot be 1 more than a multiple of 4")
    else .error (py "Incorrect padding")
  | c :: rest =>
    if c = 61 then
      if quadPos < 2 then a2bBase64 quadPos leftchar pads out rest
      -- a full padding ends the data, whatever follows
      else if 4 ≤ quadPos + (pads + 1) then .ok out
      else a2bBase64 quadPos leftchar (pads + 1) out rest
    else
      match value64 c with
      | none => a2bBase64 quadPos leftchar pads out rest
      | some v =>
        match quadPos with
        | 0 => a2bBase64 1 v 0 out rest
        | 1 => a2bBase64 2 (v % 16) 0 (out ++ [leftchar * 4 + v / 16]) rest
        | 2 => a2bBase64 3 (v % 4) 0 (out ++ [leftchar * 16 + v / 4]) rest
        | _ => a2bBase64 0 0 0 (out ++ [leftchar * 64 + v]) rest

/-- `base64.b64decode(text)`; an exception is its text. -/
def b64decodeText (text : PyStr) : Except PyStr (List Nat) :=
  if text.any fun c => 0x80 ≤ c.val then
    .error (py "string argument should contain only ASCII characters")
  else a2bBase64 0 0 0 [] text

theorem digit64_val {n : Nat} (h : n < 64) : (digit64 n).val =
    if n < 26 then 65 + n else if n < 52 then 71 + n else if n < 62 then n - 4
      else if n = 62 then 43 else 47 := by
  unfold digit64
  split_ifs <;> first | rfl | exact Nat.mod_eq_of_lt (by omega)

theorem value64_digit64 {n : Nat} (h : n < 64) : value64 (digit64 n) = some n := by
  unfold value64
  rw [digit64_val h]
  split_ifs <;> first | omega | (congr 1; omega)

theorem digit64_ne_pad {n : Nat} (h : n < 64) : digit64 n ≠ 61 := by
  intro heq
  have hval := digit64_val h
  rw [heq] at hval
  change 61 = _ at hval
  split_ifs at hval <;> omega

/-- Bytes are read back from their encoding. -/
theorem b64decode_b64encode {data : List Nat} (h : ∀ b ∈ data, b < 256) :
    b64decode (b64encode data) = some data := by
  fun_induction b64encode data with
  | case1 => rfl
  | case2 a =>
    have ha := h a (.head _)
    have hx : a / 4 < 64 := by omega
    have hy : a % 4 * 16 < 64 := by omega
    simp [b64decode, value64_digit64 hx, value64_digit64 hy]
    omega
  | case3 a b =>
    have ha := h a (.head _)
    have hb := h b (.tail _ (.head _))
    have hx : a / 4 < 64 := by omega
    have hy : a % 4 * 16 + b / 16 < 64 := by omega
    have hz : b % 16 * 4 < 64 := by omega
    simp [b64decode, value64_digit64 hx, value64_digit64 hy, value64_digit64 hz, digit64_ne_pad hz]
    omega
  | case4 a b c rest ih =>
    have ha := h a (.head _)
    have hb := h b (.tail _ (.head _))
    have hc := h c (.tail _ (.tail _ (.head _)))
    have hrest := ih fun d hd => h d (.tail _ (.tail _ (.tail _ hd)))
    have hx : a / 4 < 64 := by omega
    have hy : a % 4 * 16 + b / 16 < 64 := by omega
    have hz : b % 16 * 4 + c / 64 < 64 := by omega
    have hw : c % 64 < 64 := by omega
    simp [b64decode, value64_digit64 hx, value64_digit64 hy, value64_digit64 hz, value64_digit64 hw,
      digit64_ne_pad hz, digit64_ne_pad hw, hrest]
    omega

end Py.Base64
