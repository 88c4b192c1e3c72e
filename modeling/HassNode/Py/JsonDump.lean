import HassNode.Py.JsonText
import HassNode.Py.Text

/-!
# `json.dumps`

The default encoder of Python's `json` module: ASCII only, `", "` and `": "` between the parts.
It raises `RecursionError` when containers nest deeper than the interpreter has room for, and
`ValueError` for an integer with more digits than `str` converts.
-/

namespace Py

inductive DumpError where
  | recursion   -- `RecursionError`
  | intDigits   -- `ValueError` from `int.__repr__`
deriving DecidableEq, Repr

mutual

/-- What `json.dumps` raises first, with room for `room` nested containers. -/
def dumpsError (room : Nat) : Json → Option DumpError
  | .null | .bool _ | .float _ | .str _ => none
  | .int i => if maxStrDigits < (natDigits i.natAbs).length then some .intDigits else none
  | .list items => if room = 0 then some .recursion else dumpsErrorList (room - 1) items
  | .dict entries => if room = 0 then some .recursion else dumpsErrorDict (room - 1) entries

def dumpsErrorList (room : Nat) : List Json → Option DumpError
  | [] => none
  | v :: rest => (dumpsError room v).or (dumpsErrorList room rest)

def dumpsErrorDict (room : Nat) : List (PyStr × Json) → Option DumpError
  | [] => none
  | (_, v) :: rest => (dumpsError room v).or (dumpsErrorDict room rest)

end

/-! ## The text -/

/-- `ESCAPE_DCT`. -/
def asciiEscapes : List (CodePoint × PyStr) :=
  [(92, [92, 92]), (34, [92, 34]), (8, [92, 98]), (12, [92, 102]), (10, [92, 110]),
    (13, [92, 114]), (9, [92, 116])]

/-- One character of `py_encode_basestring_ascii`; a character past the first plane becomes two
escaped surrogates. -/
def dumpsChar (c : CodePoint) : PyStr :=
  match asciiEscapes.lookup c with
  | some escape => escape
  | none =>
    if 0x20 ≤ c.val ∧ c.val ≤ 0x7E then [c]
    else if c.val < 0x10000 then py "\\u" ++ hexDigits 4 c.val
    else
      let v := c.val - 0x10000
      py "\\u" ++ hexDigits 4 (0xD800 + v / 1024 % 1024) ++
        (py "\\u" ++ hexDigits 4 (0xDC00 + v % 1024))

def dumpsStr (s : PyStr) : PyStr := 34 :: (s.flatMap dumpsChar ++ [34])

def dumpsFloat : Double → PyStr
  | .nan => py "NaN"
  | .inf neg => if neg then py "-Infinity" else py "Infinity"
  | x => reprFloat x

mutual

def dumpsText : Json → PyStr
  | .null => py "null"
  | .bool b => if b then py "true" else py "false"
  | .int i => intStr i
  | .float x => dumpsFloat x
  | .str s => dumpsStr s
  | .list items => py "[" ++ joinWith (py ", ") (dumpsTexts items) ++ py "]"
  | .dict entries => py "\x7b" ++ joinWith (py ", ") (dumpsMembers entries) ++ py "\x7d"

def dumpsTexts : List Json → List PyStr
  | [] => []
  | v :: rest => dumpsText v :: dumpsTexts rest

def dumpsMembers : List (PyStr × Json) → List PyStr
  | [] => []
  | (k, v) :: rest => (dumpsStr k ++ py ": " ++ dumpsText v) :: dumpsMembers rest

end

/-- `json.dumps(value)`. -/
def dumps (room : Nat) (value : Json) : Except DumpError PyStr :=
  match dumpsError room value with
  | some err => .error err
  | none => .ok (dumpsText value)

/-! ## With an indent of two and without ASCII escapes -/

/-- One character of `py_encode_basestring`. -/
def indentChar (c : CodePoint) : PyStr :=
  match asciiEscapes.lookup c with
  | some escape => escape
  | none => if c.val < 0x20 then py "\\u" ++ hexDigits 4 c.val else [c]

def indentStr (s : PyStr) : PyStr := 34 :: (s.flatMap indentChar ++ [34])

def newline (level : Nat) : PyStr := 10 :: List.replicate (2 * level) 32

mutual

/-- A value whose containers close at `level`. -/
def indentText (level : Nat) : Json → PyStr
  | .null => py "null"
  | .bool b => if b then py "true" else py "false"
  | .int i => intStr i
  | .float x => dumpsFloat x
  | .str s => indentStr s
  | .list [] => py "[]"
  | .list (v :: rest) =>
    91 :: (newline (level + 1) ++ (indentText (level + 1) v ++ (indentItems (level + 1) rest ++
      (newline level ++ [93]))))
  | .dict [] => py "\x7b\x7d"
  | .dict ((k, v) :: rest) =>
    123 :: (newline (level + 1) ++ (indentStr k ++ (py ": " ++ (indentText (level + 1) v ++
      (indentMembers (level + 1) rest ++ (newline level ++ [125]))))))

/-- The items after the first. -/
def indentItems (level : Nat) : List Json → PyStr
  | [] => []
  | v :: rest => 44 :: (newline level ++ (indentText level v ++ indentItems level rest))

def indentMembers (level : Nat) : List (PyStr × Json) → PyStr
  | [] => []
  | (k, v) :: rest =>
    44 :: (newline level ++ (indentStr k ++ (py ": " ++ (indentText level v ++
      indentMembers level rest))))

end

/-- `json.dumps(value, indent=2, ensure_ascii=False)`. -/
def dumpsIndent (room : Nat) (value : Json) : Except DumpError PyStr :=
  match dumpsError room value with
  | some err => .error err
  | none => .ok (indentText 0 value)

/-! ## Compact, with sorted keys -/

mutual

/-- `sort_keys=True`. -/
def sortKeys : Json → Json
  | .list items => .list (sortKeysList items)
  | .dict entries => .dict ((sortKeysDict entries).insertionSort fun a b => le a.1 b.1)
  | v => v

def sortKeysList : List Json → List Json
  | [] => []
  | v :: rest => sortKeys v :: sortKeysList rest

def sortKeysDict : List (PyStr × Json) → List (PyStr × Json)
  | [] => []
  | (k, v) :: rest => (k, sortKeys v) :: sortKeysDict rest

end

mutual

/-- `separators=(",", ":")`. -/
def compactText : Json → PyStr
  | .null => py "null"
  | .bool b => if b then py "true" else py "false"
  | .int i => intStr i
  | .float x => dumpsFloat x
  | .str s => dumpsStr s
  | .list items => py "[" ++ joinWith (py ",") (compactTexts items) ++ py "]"
  | .dict entries => py "\x7b" ++ joinWith (py ",") (compactMembers entries) ++ py "\x7d"

def compactTexts : List Json → List PyStr
  | [] => []
  | v :: rest => compactText v :: compactTexts rest

def compactMembers : List (PyStr × Json) → List PyStr
  | [] => []
  | (k, v) :: rest => (dumpsStr k ++ py ":" ++ compactText v) :: compactMembers rest

end

/-- `json.dumps(value, separators=(",", ":"), sort_keys=True)`. -/
def dumpsCompact (room : Nat) (value : Json) : Except DumpError PyStr :=
  match dumpsError room value with
  | some err => .error err
  | none => .ok (compactText (sortKeys value))

/-! ## The text is printable ASCII -/

theorem printable_replicate {c : CodePoint} (hc : 0x20 ≤ c.val ∧ c.val < 0x7F) (n : Nat) :
    Printable (List.replicate n c) := by
  intro d hd
  rw [List.eq_of_mem_replicate hd]
  exact hc

theorem printable_natStr (n : Nat) : Printable (natStr n) := by
  unfold natStr
  split
  · exact fun c hc => by
      rw [List.mem_singleton.mp hc]
      decide
  · exact printable_digitStr _

theorem printable_intStr (i : Int) : Printable (intStr i) := by
  unfold intStr
  apply Printable.append
  · split
    · exact printable_replicate (by decide) 1
    · exact printable_nil
  · exact printable_natStr _

theorem printable_reprDigits (d : ShortDigits) : Printable (reprDigits d) := by
  have hpoint : Printable (py ".") := printable_of_all (by decide)
  unfold reprDigits
  simp only
  split
  · refine ((((printable_digitStr _).append ?_).append ?_).append ?_).append ?_ |>.append (printable_natStr _)
    · split
      · exact printable_nil
      · exact hpoint.append (printable_digitStr _)
    · exact printable_of_all (by decide)
    · split <;> exact printable_of_all (by decide)
    · split <;> exact printable_of_all (by decide)
  · split
    · exact (Printable.append (printable_of_all (by decide)) (printable_replicate (by decide) _)).append
        (printable_digitStr _)
    · split
      · exact ((printable_digitStr _).append (printable_replicate (by decide) _)).append
          (printable_of_all (by decide))
      · exact ((printable_digitStr _).append hpoint).append (printable_digitStr _)

theorem printable_reprFloat (x : Double) : Printable (reprFloat x) := by
  cases x with
  | nan => exact printable_of_all (by decide)
  | inf neg => cases neg <;> exact printable_of_all (by decide)
  | zero neg => cases neg <;> exact printable_of_all (by decide)
  | dec neg d =>
    apply Printable.append
    · cases neg <;> exact printable_of_all (by decide)
    · exact printable_reprDigits d

theorem printable_dumpsFloat (x : Double) : Printable (dumpsFloat x) := by
  cases x with
  | nan => exact printable_of_all (by decide)
  | inf neg => cases neg <;> exact printable_of_all (by decide)
  | zero neg => exact printable_reprFloat (.zero neg)
  | dec neg d => exact printable_reprFloat (.dec neg d)

theorem printable_dumpsChar (c : CodePoint) : Printable (dumpsChar c) := by
  unfold dumpsChar
  cases hfound : asciiEscapes.lookup c with
  | some escape =>
    have hescapes : ∀ kv ∈ asciiEscapes, kv.2.all (fun c => decide (0x20 ≤ c.val ∧ c.val < 0x7F)) = true := by
      decide
    exact printable_of_all (hescapes (c, escape) (mem_of_lookup hfound))
  | none =>
    have hmark : Printable (py "\\u") := printable_of_all (by decide)
    simp only
    split
    · next hprintable =>
      intro d hd
      rw [List.mem_singleton.mp hd]
      omega
    · split
      · exact hmark.append (printable_hexDigits 4 _)
      · exact (hmark.append (printable_hexDigits 4 _)).append (hmark.append (printable_hexDigits 4 _))

theorem printable_dumpsStr (s : PyStr) : Printable (dumpsStr s) := by
  intro c hc
  rcases List.mem_cons.mp hc with rfl | hc
  · decide
  · rcases List.mem_append.mp hc with hc | hc
    · obtain ⟨d, -, hd⟩ := List.mem_flatMap.mp hc
      exact printable_dumpsChar d c hd
    · rw [List.mem_singleton.mp hc]
      decide

theorem printable_joinWith {sep : PyStr} {parts : List PyStr} (hsep : Printable sep)
    (hparts : ∀ part ∈ parts, Printable part) : Printable (joinWith sep parts) := by
  intro c hjoined
  obtain ⟨part, hpart, hc⟩ := List.mem_flatten.mp hjoined
  clear hjoined
  induction parts with
  | nil => cases hpart
  | cons first rest ih =>
    cases rest with
    | nil =>
      rw [List.mem_singleton.mp hpart] at hc
      exact hparts first (.head _) c hc
    | cons second rest =>
      rw [List.intersperse_cons_cons] at hpart
      rcases List.mem_cons.mp hpart with rfl | hpart
      · exact hparts part (.head _) c hc
      · rcases List.mem_cons.mp hpart with rfl | hpart
        · exact hsep c hc
        · exact ih (fun part h => hparts part (.tail _ h)) hpart

theorem dumpsTexts_eq_map (items : List Json) : dumpsTexts items = items.map dumpsText := by
  induction items with
  | nil => rfl
  | cons v rest ih => rw [dumpsTexts, ih, List.map_cons]

theorem dumpsMembers_eq_map (entries : Dict) : dumpsMembers entries =
    entries.map fun kv => dumpsStr kv.1 ++ py ": " ++ dumpsText kv.2 := by
  induction entries with
  | nil => rfl
  | cons kv rest ih => rw [dumpsMembers, ih, List.map_cons]

/-- `json.dumps` escapes everything that is not printable ASCII. -/
theorem printable_dumpsText (v : Json) : Printable (dumpsText v) := by
  induction v using Json.induction with
  | null => exact printable_of_all (by decide)
  | bool b => cases b <;> exact printable_of_all (by decide)
  | int i => exact printable_intStr i
  | float x => exact printable_dumpsFloat x
  | str s => exact printable_dumpsStr s
  | list items ih =>
    rw [dumpsText, dumpsTexts_eq_map]
    refine (Printable.append (printable_of_all (by decide)) (printable_joinWith (printable_of_all (by decide)) ?_)).append
      (printable_of_all (by decide))
    intro part hpart
    obtain ⟨v, hv, rfl⟩ := List.mem_map.mp hpart
    exact ih v hv
  | dict entries ih =>
    rw [dumpsText, dumpsMembers_eq_map]
    refine (Printable.append (printable_of_all (by decide)) (printable_joinWith (printable_of_all (by decide)) ?_)).append
      (printable_of_all (by decide))
    intro part hpart
    obtain ⟨kv, hkv, rfl⟩ := List.mem_map.mp hpart
    exact ((printable_dumpsStr kv.1).append (printable_of_all (by decide))).append (ih kv hkv)

theorem ascii_dumpsText (v : Json) : Ascii (dumpsText v) := (printable_dumpsText v).ascii

theorem compactTexts_eq_map (items : List Json) : compactTexts items = items.map compactText := by
  induction items with
  | nil => rfl
  | cons v rest ih => rw [compactTexts, ih, List.map_cons]

theorem compactMembers_eq_map (entries : Dict) : compactMembers entries =
    entries.map fun kv => dumpsStr kv.1 ++ py ":" ++ compactText kv.2 := by
  induction entries with
  | nil => rfl
  | cons kv rest ih => rw [compactMembers, ih, List.map_cons]

theorem printable_compactText (v : Json) : Printable (compactText v) := by
  induction v using Json.induction with
  | null => exact printable_of_all (by decide)
  | bool b => cases b <;> exact printable_of_all (by decide)
  | int i => exact printable_intStr i
  | float x => exact printable_dumpsFloat x
  | str s => exact printable_dumpsStr s
  | list items ih =>
    rw [compactText, compactTexts_eq_map]
    refine (Printable.append (printable_of_all (by decide))
      (printable_joinWith (printable_of_all (by decide)) ?_)).append (printable_of_all (by decide))
    intro part hpart
    obtain ⟨v, hv, rfl⟩ := List.mem_map.mp hpart
    exact ih v hv
  | dict entries ih =>
    rw [compactText, compactMembers_eq_map]
    refine (Printable.append (printable_of_all (by decide))
      (printable_joinWith (printable_of_all (by decide)) ?_)).append (printable_of_all (by decide))
    intro part hpart
    obtain ⟨kv, hkv, rfl⟩ := List.mem_map.mp hpart
    exact ((printable_dumpsStr kv.1).append (printable_of_all (by decide))).append (ih kv hkv)

/-! ## Its length -/

theorem length_dumpsChar (c : CodePoint) : (dumpsChar c).length ≤ 12 := by
  unfold dumpsChar
  cases hfound : asciiEscapes.lookup c with
  | some escape =>
    have hescapes : ∀ kv ∈ asciiEscapes, kv.2.length ≤ 12 := by decide
    exact hescapes (c, escape) (mem_of_lookup hfound)
  | none =>
    have hhex : ∀ n, (hexDigits 4 n).length = 4 := fun n => by simp [hexDigits]
    have hmark : (py "\\u").length = 2 := by decide
    simp only
    split
    · simp
    · split <;> simp only [List.length_append, hhex, hmark] <;> omega

theorem length_dumpsStr (s : PyStr) : (dumpsStr s).length ≤ 12 * s.length + 2 := by
  have hbody : (s.flatMap dumpsChar).length ≤ 12 * s.length := by
    induction s with
    | nil => simp
    | cons c s ih =>
      have hchar := length_dumpsChar c
      rw [List.flatMap_cons, List.length_append, List.length_cons]
      omega
  unfold dumpsStr
  rw [List.length_cons, List.length_append, List.length_singleton]
  omega

end Py
