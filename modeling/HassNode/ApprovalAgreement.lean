import HassNode.NumberText
import HassNode.Py.Text

/-!
# Both sides bind the same text

A parameter object that the plugin binds and serialises with `JSON.stringify` is read by the node
with `json.loads`; the canonical text the node then computes is the one the plugin computed.
-/

namespace HassNode.NodeApproval

open Py Py.JsonText Js ConfigMutation NumberText

/-! ## What the node receives -/

mutual

/-- The value `json.loads` builds from the serialised value. -/
def received : JsValue → Json
  | .null => .null
  | .bool b => .bool b
  | .num x => receivedNumber x
  | .str s => .str (decode s)
  | .arr items => .list (receivedItems items)
  | .obj entries => .dict (receivedEntries entries)

def receivedItems : List JsValue → List Json
  | [] => []
  | v :: rest => received v :: receivedItems rest

def receivedEntries : List (JsStr × JsValue) → Dict
  | [] => []
  | (k, v) :: rest => (decode k, received v) :: receivedEntries rest

end

def receivedEntry (kv : JsStr × JsValue) : PyStr × Json := (decode kv.1, received kv.2)

theorem receivedItems_eq_map (items : List JsValue) : receivedItems items = items.map received := by
  induction items with
  | nil => rfl
  | cons v rest ih => rw [receivedItems, ih, List.map_cons]

theorem receivedEntries_eq_map (entries : JsObject) :
    receivedEntries entries = entries.map receivedEntry := by
  induction entries with
  | nil => rfl
  | cons kv rest ih => rw [receivedEntries, ih, List.map_cons, receivedEntry]

theorem canonicalItems_eq_map (items : List JsValue) :
    canonicalItems items = items.map canonicalJson := by
  induction items with
  | nil => rfl
  | cons v rest ih => rw [canonicalItems, ih, List.map_cons]

theorem canonicalEntries_eq_map (entries : JsObject) :
    canonicalEntries entries = entries.map fun kv => (kv.1, canonicalJson kv.2) := by
  induction entries with
  | nil => rfl
  | cons kv rest ih => rw [canonicalEntries, ih, List.map_cons]

/-! ## Numbers -/

theorem ascii_text (p : DecimalParts) : Ascii p.text := by
  refine (ascii_digitStr p.whole).append (Ascii.append ?_ ?_)
  · by_cases hnil : p.frac = []
    · rw [DecimalParts.fractionText, if_pos hnil]
      exact fun c hc => by cases hc
    · rw [DecimalParts.fractionText, if_neg hnil]
      exact Ascii.append (s := [46]) (by simp [Ascii]) (ascii_digitStr p.frac)
  · cases p.exponent with
    | none => exact fun c hc => by cases hc
    | some e =>
      obtain ⟨neg, ds⟩ := e
      refine Ascii.append (s := [101, if neg then 45 else 43]) ?_ (ascii_digitStr ds)
      cases neg <;> simp [Ascii]

theorem ascii_decimalNotation (d : ShortDigits) : Ascii (decimalNotation d) := by
  by_cases hint : (d.digits.length : Int) ≤ d.point ∧ d.point ≤ 21
  · rw [decimalNotation_int hint]
    exact ascii_digitStr _
  · obtain ⟨p, -, -, htext⟩ := decimalNotation_text d hint
    rw [← htext]
    exact ascii_text p

/-- `str` of an integer given by its sign and its digits. -/
theorem intStr_signed (neg : Bool) {ds : List (Fin 10)} (hds : ds ≠ []) (hhead : ds.head? ≠ some 0) :
    intStr (if neg then -(ofDigitStr ds : Int) else ofDigitStr ds) =
      (if neg then py "-" else []) ++ digitStr ds := by
  have hback : natDigits (ofDigitStr ds) = ds := natDigits_ofDigitStr ds hhead
  have hpos : ofDigitStr ds ≠ 0 := by
    intro h0
    rw [h0] at hback
    exact hds hback.symm
  have hstr : natStr (ofDigitStr ds) = digitStr ds := by rw [natStr, if_neg hpos, hback]
  cases neg with
  | true =>
    rw [if_pos rfl, if_pos rfl, intStr, if_pos (by omega), Int.natAbs_neg, Int.natAbs_natCast, hstr]
    rfl
  | false =>
    rw [if_neg (by simp), if_neg (by simp), intStr, if_neg (by omega), Int.natAbs_natCast, hstr]

/-- An integer-valued number is printed by `str(int)` as `Number::toString` prints it. -/
theorem canonical_receivedNumber (neg : Bool) (d : ShortDigits) :
    canonical (receivedNumber (.dec neg d)) = (if neg then py "-" else []) ++ decimalNotation d := by
  by_cases hint : (d.digits.length : Int) ≤ d.point ∧ d.point ≤ 21
  · rw [receivedNumber, if_pos hint, decimalNotation_int hint]
    refine intStr_signed neg (by simp [d.ne_nil]) ?_
    rw [List.head?_append_of_ne_nil _ d.ne_nil]
    exact d.head_ne
  · rw [receivedNumber, if_neg hint, canonical, esNumber_dec]

theorem encodes_number (x : Double) :
    Encodes (stringify (.num x)) (canonical (receivedNumber x)) := by
  cases x with
  | nan => exact Encodes.js "null"
  | inf neg => exact Encodes.js "null"
  | zero neg => exact Encodes.js "0"
  | dec neg d =>
    rw [canonical_receivedNumber, stringify, isFinite, if_pos rfl, numberToString]
    refine Encodes.append ?_ (Encodes.of_ascii (ascii_decimalNotation d))
    cases neg with
    | true => exact Encodes.js "-"
    | false => exact Encodes.js ""

/-! ## Strings -/

theorem encodes_quotePoint (c : CodePoint) : Encodes (quotePoint c) (esChar c) := by
  by_cases hmem : c ∈ esEscapes.map Prod.fst
  · simp only [esEscapes, List.map_cons, List.map_nil, List.mem_cons, List.not_mem_nil,
      or_false] at hmem
    rcases hmem with rfl | rfl | rfl | rfl | rfl | rfl | rfl
    · exact Encodes.js "\\\""
    · exact Encodes.js "\\\\"
    · exact Encodes.js "\\b"
    · exact Encodes.js "\\f"
    · exact Encodes.js "\\n"
    · exact Encodes.js "\\r"
    · exact Encodes.js "\\t"
  · have hnone : esEscapes.lookup c = none := by
      rw [List.lookup_eq_none_iff]
      intro kv hkv
      have hne : c ≠ kv.1 := fun heq => hmem (heq ▸ List.mem_map_of_mem hkv)
      simpa using hne
    have hne : ∀ n (h : n < 0x110000), ⟨n, h⟩ ∈ esEscapes.map Prod.fst → c.val ≠ n := by
      rintro n h hn rfl
      exact hmem hn
    rw [quotePoint, if_neg (hne 8 (by decide) (by decide)), if_neg (hne 9 (by decide) (by decide)),
      if_neg (hne 10 (by decide) (by decide)), if_neg (hne 12 (by decide) (by decide)),
      if_neg (hne 13 (by decide) (by decide)), if_neg (hne 34 (by decide) (by decide)),
      if_neg (hne 92 (by decide) (by decide)), esChar, hnone]
    simp only
    by_cases hu : c.val < 0x20 ∨ (0xD800 ≤ c.val ∧ c.val ≤ 0xDFFF)
    · have hu' : c.val < 0x20 ∨ isSurrogate c = true := by simpa [isSurrogate] using hu
      rw [if_pos hu, if_pos hu']
      exact (Encodes.js "\\u").append (Encodes.of_ascii (hexDigits_ascii 4 c.val))
    · have hu' : ¬ (c.val < 0x20 ∨ isSurrogate c = true) := by simpa [isSurrogate] using hu
      rw [if_neg hu, if_neg hu']
      refine ⟨(List.append_nil _).symm, fun d hd => ?_⟩
      rw [List.mem_singleton] at hd
      subst hd
      simpa using fun h => hu' (.inr h)

theorem encodes_quoteJSONString (s : JsStr) :
    Encodes (quoteJSONString s) (esString (decode s)) := by
  have hbody : Encodes ((decode s).flatMap quotePoint) ((decode s).flatMap esChar) :=
    Encodes.flatMap fun c _ => encodes_quotePoint c
  have hall := (Encodes.js "\"").append (hbody.append (Encodes.js "\""))
  rw [quoteJSONString, List.append_assoc]
  exact hall

/-! ## The order of keys -/

def unitBytes (u : CodeUnit) : List Nat := [u.val / 256, u.val % 256]

theorem utf16Bytes_eq (c : CodePoint) : utf16Bytes c = (encodePoint c).flatMap unitBytes := by
  have hlt := c.isLt
  by_cases h : c.val < 0x10000
  · rw [utf16Bytes, if_pos h, encodePoint, if_pos h]
    simp [unitBytes, unit_val h]
  · rw [utf16Bytes, if_neg h, encodePoint, if_neg h]
    simp only [List.flatMap_cons, List.flatMap_nil, unitBytes, List.append_nil, List.cons_append,
      List.nil_append]
    rw [unit_val (n := 0xD800 + (c.val - 0x10000) / 1024) (by omega),
      unit_val (n := 0xDC00 + (c.val - 0x10000) % 1024) (by omega)]

/-- The node's sort key is the bytes of the plugin's code units. -/
theorem utf16Key_decode (s : JsStr) : utf16Key (decode s) = s.flatMap unitBytes := by
  have hkey : ∀ t : PyStr, utf16Key t = (encode t).flatMap unitBytes := by
    intro t
    rw [utf16Key, encode, List.flatMap_assoc]
    exact List.flatMap_congr fun c _ => utf16Bytes_eq c
  rw [hkey, encode_decode]

theorem bytesLe_unitBytes (a b : JsStr) :
    bytesLe (a.flatMap unitBytes) (b.flatMap unitBytes) = unitsLe a b := by
  induction a generalizing b with
  | nil => rfl
  | cons u a ih =>
    cases b with
    | nil => rfl
    | cons v b =>
      rw [List.flatMap_cons, List.flatMap_cons, unitsLe, ← ih b]
      generalize a.flatMap unitBytes = s
      generalize b.flatMap unitBytes = t
      rw [Bool.eq_iff_iff]
      simp only [unitBytes, List.cons_append, List.nil_append, bytesLe, Bool.or_eq_true,
        Bool.and_eq_true, decide_eq_true_eq, beq_iff_eq, Fin.lt_def, Fin.ext_iff]
      by_cases hst : bytesLe s t = true
      · simp only [hst, and_true]
        omega
      · simp only [eq_false hst, and_false, or_false]
        omega

theorem keyLe_decode (a b : JsStr) : keyLe (decode a) (decode b) = unitsLe a b := by
  rw [keyLe, utf16Key_decode, utf16Key_decode, bytesLe_unitBytes]

/-! ## Canonical texts -/

def sortedObject (entries : JsObject) : JsObject :=
  entries.insertionSort fun a b => unitsLe a.1 b.1

theorem mem_sortedObject {entries : JsObject} {kv : JsStr × JsValue} :
    kv ∈ sortedObject entries ↔ kv ∈ entries := List.mem_insertionSort _

theorem joinSorted_eq (entries : JsObject) : joinSorted (canonicalEntries entries) =
    (js ",").intercalate ((sortedObject entries).map fun kv =>
      quoteJSONString kv.1 ++ js ":" ++ canonicalJson kv.2) := by
  have hsort : (canonicalEntries entries).insertionSort (fun a b => unitsLe a.1 b.1) =
      (sortedObject entries).map fun kv => (kv.1, canonicalJson kv.2) := by
    rw [canonicalEntries_eq_map, sortedObject]
    exact (List.map_insertionSort (fun a b : JsStr × JsValue => unitsLe a.1 b.1 = true)
      (fun a b : JsStr × JsStr => unitsLe a.1 b.1 = true) _ entries fun _ _ _ _ => Iff.rfl).symm
  rw [joinSorted, hsort, List.map_map]
  rfl

/-- The two sides sort the members alike. -/
theorem sortedEntries_received (entries : JsObject) :
    sortedEntries (receivedEntries entries) = (sortedObject entries).map receivedEntry := by
  rw [receivedEntries_eq_map, sortedEntries, sortedObject]
  refine (List.map_insertionSort (fun a b : JsStr × JsValue => unitsLe a.1 b.1 = true)
    (fun a b : PyStr × Json => keyLe a.1 b.1 = true) _ entries fun a _ b _ => ?_).symm
  rw [receivedEntry, receivedEntry, keyLe_decode]

/-- The plugin's canonical text encodes the node's. -/
theorem encodes_canonicalJson (v : JsValue) :
    Encodes (canonicalJson v) (canonical (received v)) := by
  induction v using JsValue.induction with
  | null => exact Encodes.js "null"
  | bool b =>
    cases b with
    | true => exact Encodes.js "true"
    | false => exact Encodes.js "false"
  | num x => exact encodes_number x
  | str s => exact encodes_quoteJSONString s
  | arr items ih =>
    have hitems := Encodes.intercalate (Encodes.js ",") ih
    have hall := (Encodes.js "[").append (hitems.append (Encodes.js "]"))
    rw [canonicalJson, received, canonical, canonicalItems_eq_map, receivedItems_eq_map,
      canonicalList_eq_map, List.map_map, List.append_assoc]
    exact hall
  | obj entries ih =>
    have hmember : ∀ kv ∈ sortedObject entries,
        Encodes (quoteJSONString kv.1 ++ js ":" ++ canonicalJson kv.2) (member (receivedEntry kv)) := by
      intro kv hkv
      have hvalue := ih kv (mem_sortedObject.mp hkv)
      rw [List.append_assoc]
      exact (encodes_quoteJSONString kv.1).append ((Encodes.js ":").append hvalue)
    have hmembers := Encodes.intercalate (Encodes.js ",") hmember
    have hall := (Encodes.js "\x7b").append (hmembers.append (Encodes.js "\x7d"))
    rw [canonicalJson, received, canonical, joinSorted_eq, canonicalMembers_eq,
      sortedEntries_received, List.map_map, List.append_assoc]
    exact hall

end HassNode.NodeApproval
