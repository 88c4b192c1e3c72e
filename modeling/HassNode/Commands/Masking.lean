import HassNode.HaClient
import HassNode.Library.Redaction
import HassNode.Py.JsonDump
import Mathlib.Data.List.Dedup

/-!
# Masking supplied codes

The part of `authz.py` that keeps the codes of a call out of what leaves the node: `collect_codes`
and `scrub_codes`.  A code is a text or a finite number under a key `code` at any depth.
-/

namespace HassNode.Authz

open Py HaClient

/-! ## Codes of a call -/

/-- `math.isfinite` of an integer fails from here on: the nearest double would be infinite. -/
def floatOverflow : Nat := 2 ^ 1024 - 2 ^ 970

/-- The value under a key `code` is itself a code. -/
def isCode : Json → Except Exc Bool
  | .str s => .ok (s ≠ [])
  | .int i => if floatOverflow ≤ i.natAbs then .error (.other (py "OverflowError")) else .ok true
  | .float .nan | .float (.inf _) => .ok false
  | .float _ => .ok true
  | _ => .ok false

mutual

/-- `collect_codes`. -/
def collectCodes : Json → Except Exc (List Json)
  | .dict entries => collectMembers entries
  | .list items => collectItems items
  | _ => .ok []

def collectItems : List Json → Except Exc (List Json)
  | [] => .ok []
  | v :: rest => do
    let found ← collectCodes v
    return found ++ (← collectItems rest)

def collectMembers : List (PyStr × Json) → Except Exc (List Json)
  | [] => .ok []
  | (key, v) :: rest => do
    let code ← if key = py "code" then isCode v else .ok false
    let found ← if code then .ok [v] else collectCodes v
    return found ++ (← collectMembers rest)

end

/-! ## What is masked -/

/-- `_MASK_CANDIDATES`. -/
def maskCandidates : List PyStr := [py "[redacted]", py "***", py "<masked>"]

/-- `_MASK_PASSES`. -/
def maskPasses : Nat := 8

section
variable [Runtime]

/-- The forms of one code: `str(code)`, `json.dumps(code)`, `repr(code)` and the inner text of the
JSON form of a text. -/
def codeForms : Json → List PyStr
  | .str s => [s, dumpsStr s, Py.reprStr s, s.flatMap dumpsChar]
  | code => [Py.repr code, dumpsText code]

/-- `ordered`: no form twice or empty, the longest first. -/
def orderedForms (codes : List Json) : List PyStr :=
  ((codes.flatMap codeForms).dedup.filter (· ≠ [])).insertionSort fun a b => b.length ≤ a.length

end

/-- `mask`: the first candidate without a form in it, else nothing. -/
def maskFor (forms : List PyStr) : PyStr :=
  (maskCandidates.find? fun candidate => !Redaction.occurs forms candidate).getD []

/-- `_mask_text`. -/
def maskText (forms : List PyStr) (mask text : PyStr) : PyStr :=
  if forms = [] then text else Redaction.passes forms mask maskPasses text

section
variable [Runtime]

/-- `==` between two numbers. -/
def numEq : Json → Json → Bool
  | .int i, .int j => i = j
  | .int i, .float x => intEqFloat i x
  | .float x, .int i => intEqFloat i x
  | .float x, .float y => floatEq x y
  | _, _ => false

mutual

/-- `walk` of `scrub_codes`; two keys that are masked to one text share one entry. -/
def walk (codes : List Json) (forms : List PyStr) (mask : PyStr) : Json → Json
  | .str s => .str (maskText forms mask s)
  | .int i => if codes.any (numEq (.int i)) then .str mask else .int i
  | .float x => if codes.any (numEq (.float x)) then .str mask else .float x
  | .dict entries => .dict (Dict.update [] (walkMembers codes forms mask entries))
  | .list items => .list (walkItems codes forms mask items)
  | v => v

def walkItems (codes : List Json) (forms : List PyStr) (mask : PyStr) : List Json → List Json
  | [] => []
  | v :: rest => walk codes forms mask v :: walkItems codes forms mask rest

def walkMembers (codes : List Json) (forms : List PyStr) (mask : PyStr) :
    List (PyStr × Json) → List (PyStr × Json)
  | [] => []
  | (key, v) :: rest =>
    (maskText forms mask key, walk codes forms mask v) :: walkMembers codes forms mask rest

end

/-- `scrub_codes`. -/
def scrubCodes (codes : List Json) (value : Json) : Json :=
  walk codes (orderedForms codes) (maskFor (orderedForms codes)) value

end

/-! ## The forms -/

section
variable [Runtime]

theorem mem_orderedForms {codes : List Json} {form : PyStr} :
    form ∈ orderedForms codes ↔ form ≠ [] ∧ ∃ code ∈ codes, form ∈ codeForms code := by
  unfold orderedForms
  rw [(List.perm_insertionSort _ _).mem_iff, List.mem_filter, List.mem_dedup, List.mem_flatMap,
    decide_eq_true_eq]
  exact and_comm

theorem nil_not_mem_orderedForms (codes : List Json) : [] ∉ orderedForms codes := fun h =>
  (mem_orderedForms.mp h).1 rfl

/-- A supplied text is one of its own forms. -/
theorem text_mem_orderedForms {codes : List Json} {s : PyStr} (hs : s ≠ [])
    (h : .str s ∈ codes) : s ∈ orderedForms codes :=
  mem_orderedForms.mpr ⟨hs, _, h, .head _⟩

end

/-- The mask shows no form of a code. -/
theorem maskFor_clean {forms : List PyStr} (hne : [] ∉ forms) :
    Redaction.occurs forms (maskFor forms) = false := by
  unfold maskFor
  cases hfind : maskCandidates.find? fun candidate => !Redaction.occurs forms candidate with
  | some candidate =>
    have hclean := List.find?_some (p := fun c => !Redaction.occurs forms c) hfind
    rwa [Bool.not_eq_true'] at hclean
  | none =>
    show Redaction.occurs forms [] = false
    by_contra hoccurs
    obtain ⟨form, hform, hin⟩ := Redaction.occurs_iff.mp (Bool.of_not_eq_false hoccurs)
    exact hne (List.infix_nil.mp hin ▸ hform)

theorem maskFor_mem (forms : List PyStr) : maskFor forms = [] ∨ maskFor forms ∈ maskCandidates := by
  unfold maskFor
  cases hfind : maskCandidates.find? fun candidate => !Redaction.occurs forms candidate with
  | some candidate => exact .inr (List.mem_of_find?_eq_some hfind)
  | none => exact .inl rfl

/-- There is a mask unless each candidate shows a form. -/
theorem maskFor_eq_nil_iff {forms : List PyStr} :
    maskFor forms = [] ↔ ∀ candidate ∈ maskCandidates, Redaction.occurs forms candidate = true := by
  unfold maskFor
  cases hfind : maskCandidates.find? fun candidate => !Redaction.occurs forms candidate with
  | some candidate =>
    have hmem := List.mem_of_find?_eq_some hfind
    have hclean := List.find?_some (p := fun c => !Redaction.occurs forms c) hfind
    rw [Bool.not_eq_true'] at hclean
    refine iff_of_false (fun hnil => ?_) fun hall => ?_
    · have hnonempty : ∀ c ∈ maskCandidates, c ≠ [] := by decide
      exact hnonempty candidate hmem hnil
    · rw [hall candidate hmem] at hclean
      cases hclean
  | none =>
    refine iff_of_true rfl fun candidate hmem => ?_
    have hnot := List.find?_eq_none.mp hfind candidate hmem
    rwa [Bool.not_eq_true', Bool.not_eq_false] at hnot

/-! ## Masked keys -/

section
variable {forms : List PyStr} {mask : PyStr}

theorem maskText_clean {text : PyStr} (h : Redaction.occurs forms text = false) :
    maskText forms mask text = text := by
  unfold maskText
  split
  · rfl
  · exact Redaction.passes_of_clean h

/-- A text in which a form occurs does not come out of the masking. -/
theorem maskText_ne {target : PyStr} (htarget : target ≠ [])
    (h : Redaction.occurs forms target = true) (text : PyStr) : maskText forms mask text ≠ target := by
  obtain ⟨form, hform, -⟩ := Redaction.occurs_iff.mp h
  unfold maskText
  rw [if_neg (List.ne_nil_of_mem hform)]
  intro heq
  have hpasses : Redaction.passes forms mask maskPasses text = [] ∨
      Redaction.occurs forms (Redaction.passes forms mask maskPasses text) = false :=
    Redaction.passes_clean _ _
  rcases hpasses with hnil | hclean
  · exact htarget (heq.symm.trans hnil)
  · rw [heq, h] at hclean
    cases hclean

/-- With a mask that is no part of it, a text comes out of the masking only as itself. -/
theorem eq_of_maskText {target text : PyStr} (hne : [] ∉ forms) (htarget : target ≠ [])
    (hmask : ¬ mask <:+: target) (h : maskText forms mask text = target) : text = target := by
  cases hoccurs : Redaction.occurs forms text with
  | false => rwa [maskText_clean hoccurs] at h
  | true =>
    obtain ⟨form, hform, -⟩ := Redaction.occurs_iff.mp hoccurs
    unfold maskText at h
    rw [if_neg (List.ne_nil_of_mem hform)] at h
    rcases Redaction.mask_infix_passes hne hoccurs with hnil | hin
    · exact absurd (h.symm.trans hnil) htarget
    · exact absurd (h ▸ hin) hmask

end

section
variable [Runtime] {codes : List Json} {forms : List PyStr} {mask : PyStr}

theorem walkMembers_eq_map (entries : Dict) : walkMembers codes forms mask entries =
    entries.map fun kv => (maskText forms mask kv.1, walk codes forms mask kv.2) := by
  induction entries with
  | nil => rfl
  | cons kv rest ih => rw [walkMembers, ih, List.map_cons]

/-- A key of the scrubbed object is the last key that is masked to it. -/
theorem get?_walk (entries : Dict) (key : PyStr) :
    Dict.get? (Dict.update [] (walkMembers codes forms mask entries)) key =
      Dict.get? (walkMembers codes forms mask entries.reverse) key := by
  rw [Dict.get?_update, Dict.get?_nil, Option.or_none, walkMembers_eq_map, walkMembers_eq_map,
    List.map_reverse]

/-- Only the key itself is masked to `key`. -/
theorem get?_walkMembers {key : PyStr} (h : ∀ other, maskText forms mask other = key ↔ other = key)
    (entries : Dict) : Dict.get? (walkMembers codes forms mask entries) key =
      (Dict.get? entries key).map (walk codes forms mask) := by
  induction entries with
  | nil => rfl
  | cons kv rest ih =>
    obtain ⟨k, v⟩ := kv
    rw [walkMembers, Dict.get?_cons, Dict.get?_cons, ih]
    by_cases hk : key = k
    · rw [if_pos hk, if_pos ((h k).mpr hk.symm).symm, Option.map_some]
    · rw [if_neg hk, if_neg fun heq => hk ((h k).mp heq.symm).symm]

/-- Masking changes whether a value is `True` for no value. -/
theorem walk_eq_true_iff {v : Json} : walk codes forms mask v = .bool true ↔ v = .bool true := by
  cases v with
  | int i =>
    rw [walk]
    split <;> simp
  | float x =>
    rw [walk]
    split <;> simp
  | bool b => rfl
  | null => simp [walk]
  | str s => simp [walk]
  | list items => simp [walk]
  | dict entries => simp [walk]

end

end HassNode.Authz
