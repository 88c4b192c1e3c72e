import HassNode.Commands.Masking

/-!
# Scrubbing is complete

`scrub_codes` against every list of codes: what comes out shows no form of a code, a second scrubbing
changes nothing, and a value that shows no code passes through.
-/

namespace HassNode.Authz

open Py

variable [Runtime]

/-- A non-empty form of a supplied code is a part of the text. -/
def Shows (codes : List Json) (text : PyStr) : Prop :=
  ∃ code ∈ codes, ∃ form ∈ codeForms code, form ≠ [] ∧ form <:+: text

/-- A number that equals a supplied code. -/
def IsCodeNumber (codes : List Json) (number : Json) : Prop := ∃ code ∈ codes, numEq number code = true

/-- No string, no key and no number of the value, at any depth, gives a code away. -/
def Scrubbed (codes : List Json) (value : Json) : Prop :=
  value.Forall fun
    | .str s => ¬ Shows codes s
    | .int i => ¬ IsCodeNumber codes (.int i)
    | .float x => ¬ IsCodeNumber codes (.float x)
    | .dict entries => ∀ key ∈ Dict.keys entries, ¬ Shows codes key
    | _ => True

section
variable {codes : List Json}

/-! ## Texts -/

theorem shows_iff {text : PyStr} :
    Shows codes text ↔ Redaction.occurs (orderedForms codes) text = true := by
  rw [Redaction.occurs_iff]
  constructor
  · intro ⟨code, hcode, form, hform, hne, hin⟩
    exact ⟨form, mem_orderedForms.mpr ⟨hne, code, hcode, hform⟩, hin⟩
  · intro ⟨form, hmem, hin⟩
    have ⟨hne, code, hcode, hform⟩ := mem_orderedForms.mp hmem
    exact ⟨code, hcode, form, hform, hne, hin⟩

theorem not_shows_iff {text : PyStr} :
    ¬ Shows codes text ↔ Redaction.occurs (orderedForms codes) text = false := by
  rw [shows_iff, Bool.not_eq_true]

theorem not_shows_nil : ¬ Shows codes [] := by
  intro ⟨_, _, form, _, hne, hin⟩
  exact hne (List.infix_nil.mp hin)

/-- Whatever the passes leave is clean, and a text that never gets clean is dropped. -/
theorem not_shows_maskText (mask text : PyStr) :
    ¬ Shows codes (maskText (orderedForms codes) mask text) := by
  unfold maskText
  split
  · rename_i hforms
    -- without a form nothing can be shown
    simp [not_shows_iff, hforms, Redaction.occurs]
  · have hpasses : Redaction.passes (orderedForms codes) mask maskPasses text = [] ∨
        Redaction.occurs (orderedForms codes)
          (Redaction.passes (orderedForms codes) mask maskPasses text) = false :=
      Redaction.passes_clean maskPasses text
    rcases hpasses with hnil | hclean
    · rw [hnil]
      exact not_shows_nil
    · exact not_shows_iff.mpr hclean

theorem not_shows_maskFor : ¬ Shows codes (maskFor (orderedForms codes)) :=
  not_shows_iff.mpr (maskFor_clean (nil_not_mem_orderedForms codes))

theorem maskText_of_not_shows {mask text : PyStr} (h : ¬ Shows codes text) :
    maskText (orderedForms codes) mask text = text :=
  maskText_clean (not_shows_iff.mp h)

theorem not_isCodeNumber_iff {number : Json} :
    ¬ IsCodeNumber codes number ↔ codes.any (numEq number) = false := by
  rw [← Bool.not_eq_true, List.any_eq_true]
  rfl

/-! ## Values -/

theorem walkItems_eq_map (forms : List PyStr) (mask : PyStr) (items : List Json) :
    walkItems codes forms mask items = items.map (walk codes forms mask) := by
  induction items with
  | nil => rfl
  | cons v rest ih => rw [walkItems, ih, List.map_cons]

/-- `scrub_codes` leaves nothing that shows a code. -/
theorem scrubbed_scrubCodes (value : Json) : Scrubbed codes (scrubCodes codes value) := by
  unfold scrubCodes
  induction value using Json.induction with
  | null => trivial
  | bool b => trivial
  | str s => exact not_shows_maskText _ s
  | int i =>
    rw [walk]
    split
    · exact not_shows_maskFor
    · exact not_isCodeNumber_iff.mpr (Bool.not_eq_true _ ▸ ‹_›)
  | float x =>
    rw [walk]
    split
    · exact not_shows_maskFor
    · exact not_isCodeNumber_iff.mpr (Bool.not_eq_true _ ▸ ‹_›)
  | list items ih =>
    rw [walk, walkItems_eq_map]
    refine Json.forall_list.mpr ⟨trivial, fun w hw => ?_⟩
    obtain ⟨v, hv, hwalk⟩ := List.mem_map.mp hw
    exact hwalk ▸ ih v hv
  | dict entries ih =>
    rw [walk, walkMembers_eq_map]
    -- a bound member is one of the masked members, whichever of two equal keys won
    have hmember : ∀ kv ∈ Dict.update [] (entries.map fun kv =>
          (maskText (orderedForms codes) (maskFor (orderedForms codes)) kv.1,
            walk codes (orderedForms codes) (maskFor (orderedForms codes)) kv.2)),
        ¬ Shows codes kv.1 ∧ Scrubbed codes kv.2 := by
      intro kv hkv
      rcases Dict.mem_update hkv with hnil | hmem
      · cases hnil
      · obtain ⟨entry, hentry, heq⟩ := List.mem_map.mp hmem
        exact heq ▸ ⟨not_shows_maskText _ entry.1, ih entry hentry⟩
    refine Json.forall_dict.mpr ⟨fun key hkey => ?_, fun kv hkv => (hmember kv hkv).2⟩
    obtain ⟨kv, hkv, heq⟩ := List.mem_map.mp hkey
    exact heq ▸ (hmember kv hkv).1

/-- Scrubbing builds dictionaries, so their keys are distinct. -/
theorem distinctKeys_scrubCodes (value : Json) : (scrubCodes codes value).DistinctKeys := by
  unfold scrubCodes
  induction value using Json.induction with
  | null => trivial
  | bool b => trivial
  | str s => trivial
  | int i => rw [walk]; split <;> trivial
  | float x => rw [walk]; split <;> trivial
  | list items ih =>
    rw [walk, walkItems_eq_map]
    refine Json.forall_list.mpr ⟨trivial, fun w hw => ?_⟩
    obtain ⟨v, hv, hwalk⟩ := List.mem_map.mp hw
    exact hwalk ▸ ih v hv
  | dict entries ih =>
    rw [walk, walkMembers_eq_map]
    refine Json.forall_dict.mpr ⟨Dict.nodup_keys_update (d := []) .nil _, fun kv hkv => ?_⟩
    rcases Dict.mem_update hkv with hnil | hmem
    · cases hnil
    · obtain ⟨entry, hentry, heq⟩ := List.mem_map.mp hmem
      exact heq ▸ ih entry hentry

/-- A value that shows no code is left alone. -/
theorem scrubCodes_of_scrubbed {value : Json} (hkeys : value.DistinctKeys)
    (h : Scrubbed codes value) : scrubCodes codes value = value := by
  unfold scrubCodes
  induction value using Json.induction with
  | null => rfl
  | bool b => rfl
  | str s => rw [walk, maskText_of_not_shows h]
  | int i => rw [walk, if_neg (by rw [not_isCodeNumber_iff.mp h]; decide)]
  | float x => rw [walk, if_neg (by rw [not_isCodeNumber_iff.mp h]; decide)]
  | list items ih =>
    have hitems := (Json.forall_list.mp h).2
    have hdistinct := (Json.forall_list.mp hkeys).2
    rw [walk, walkItems_eq_map, List.map_congr_left fun v hv => ih v hv (hdistinct v hv) (hitems v hv),
      List.map_id']
  | dict entries ih =>
    obtain ⟨hshown, hvalues⟩ := Json.forall_dict.mp h
    obtain ⟨hnodup, hdistinct⟩ := Json.forall_dict.mp hkeys
    have hsame : walkMembers codes (orderedForms codes) (maskFor (orderedForms codes)) entries =
        entries := by
      rw [walkMembers_eq_map]
      calc entries.map _ = entries.map id := List.map_congr_left fun kv hkv => by
            rw [ih kv hkv (hdistinct kv hkv) (hvalues kv hkv),
              maskText_of_not_shows (hshown kv.1 (List.mem_map_of_mem hkv))]
            rfl
        _ = entries := List.map_id _
    rw [walk, hsame, Dict.update_nil_of_nodup hnodup]

end

/-- Scrubbing is complete, settles after one pass, and leaves alone what shows no code. -/
theorem scrub_codes_complete (codes : List Json) (value : Json) :
    Scrubbed codes (scrubCodes codes value) ∧
      scrubCodes codes (scrubCodes codes value) = scrubCodes codes value ∧
      (value.DistinctKeys → Scrubbed codes value → scrubCodes codes value = value) :=
  ⟨scrubbed_scrubCodes value,
    scrubCodes_of_scrubbed (distinctKeys_scrubCodes value) (scrubbed_scrubCodes value),
    scrubCodes_of_scrubbed⟩

end HassNode.Authz
