import Mathlib.Data.List.Forall2

/-!
# Reading a request target

A request target, as octets, is read in the way of RFC 3986: what stands behind `#` is no part of it,
the first `?` ends the path, dot segments are removed, and segments and parameters are
percent-decoded; in a query `+` is a space.  `read_target` says what a target means that was put
together from pieces which hold no delimiter of their own.
-/

namespace Uri

/-- The value of a hexadecimal digit. -/
def hexValue? (c : Nat) : Option Nat :=
  if 48 ≤ c ∧ c ≤ 57 then some (c - 48)
  else if 65 ≤ c ∧ c ≤ 70 then some (c - 55)
  else if 97 ≤ c ∧ c ≤ 102 then some (c - 87)
  else none

/-- Percent-decoding; a `%` without two hexadecimal digits or a character beyond ASCII is no URI. -/
def percentDecode : List Nat → Option (List Nat)
  | [] => some []
  | 37 :: high :: low :: rest =>
    match hexValue? high, hexValue? low with
    | some h, some l => (percentDecode rest).map fun octets => (16 * h + l) :: octets
    | _, _ => none
  | c :: rest => if c < 128 ∧ c ≠ 37 then (percentDecode rest).map fun octets => c :: octets else none

/-- Percent-decoding of a part of a query. -/
def formDecode (raw : List Nat) : Option (List Nat) :=
  percentDecode (raw.map fun c => if c = 43 then 32 else c)

/-- What stands before the first `delimiter` and, when there is one, what stands behind it. -/
def cutAt (delimiter : Nat) (raw : List Nat) : List Nat × Option (List Nat) :=
  (raw.takeWhile fun c => c ≠ delimiter, (raw.dropWhile fun c => c ≠ delimiter).tail?)

/-- The removal of dot segments from an absolute path; `done` are the segments before, the last one
first.  A dot segment at the end leaves an empty segment. -/
def removeDotSegments : List (List Nat) → List (List Nat) → List (List Nat)
  | done, [] => done.reverse
  | done, segment :: rest =>
    if segment = [46] ∨ segment = [46, 46] then
      let kept := if segment = [46] then done else done.tail
      if rest = [] then ([] :: kept).reverse else removeDotSegments kept rest
    else removeDotSegments (segment :: done) rest

/-- A target that was read, with its texts of type `τ`. -/
structure Target (τ : Type) where
  segments : List τ
  parameters : List (τ × τ)
deriving DecidableEq

section
variable {τ : Type} (decodeText : List Nat → Option τ)

def readSegment (raw : List Nat) : Option τ := (percentDecode raw).bind decodeText

/-- `name=value`, or a name alone. -/
def readParameter (raw : List Nat) : Option (τ × τ) := do
  let (name, value) := cutAt 61 raw
  let name ← (formDecode name).bind decodeText
  let value ← (formDecode (value.getD [])).bind decodeText
  return (name, value)

def readQuery : Option (List Nat) → Option (List (τ × τ))
  | none => some []
  | some query => (query.splitOn 38).mapM (readParameter decodeText)

/-- An absolute path. -/
def readPath : List Nat → Option (List τ)
  | 47 :: rest => (removeDotSegments [] (rest.splitOn 47)).mapM (readSegment decodeText)
  | _ => none

def read (target : List Nat) : Option (Target τ) := do
  let (path, query) := cutAt 63 (cutAt 35 target).1
  let segments ← readPath decodeText path
  let parameters ← readQuery decodeText query
  return ⟨segments, parameters⟩

end

/-! ## Pieces -/

theorem decide_ne_of_not_mem {delimiter : Nat} {raw : List Nat} (h : delimiter ∉ raw) :
    ∀ c ∈ raw, decide (c ≠ delimiter) = true := by
  intro c hc
  rw [decide_eq_true_eq]
  rintro rfl
  exact h hc

theorem cutAt_append {delimiter : Nat} {front : List Nat} (h : delimiter ∉ front) (back : List Nat) :
    cutAt delimiter (front ++ delimiter :: back) = (front, some back) := by
  have hall := decide_ne_of_not_mem h
  unfold cutAt
  rw [List.takeWhile_append_of_pos hall, List.dropWhile_append_of_pos hall]
  simp

theorem cutAt_of_not_mem {delimiter : Nat} {raw : List Nat} (h : delimiter ∉ raw) :
    cutAt delimiter raw = (raw, none) := by
  have hall := decide_ne_of_not_mem h
  have htake : (raw ++ []).takeWhile (fun c => decide (c ≠ delimiter)) = raw ++ [] :=
    List.takeWhile_append_of_pos hall
  have hdrop : (raw ++ []).dropWhile (fun c => decide (c ≠ delimiter)) = [] :=
    List.dropWhile_append_of_pos hall
  rw [List.append_nil] at htake hdrop
  unfold cutAt
  rw [htake, hdrop]
  rfl

theorem percentDecode_cons {c : Nat} (hc : c < 128) (hplain : c ≠ 37) (rest : List Nat) :
    percentDecode (c :: rest) = (percentDecode rest).map fun octets => c :: octets := by
  rw [percentDecode]
  · exact if_pos ⟨hc, hplain⟩
  · rintro high low rest rfl
    exact absurd rfl hplain

theorem percentDecode_escape {high low h l : Nat} (hhigh : hexValue? high = some h)
    (hlow : hexValue? low = some l) (rest : List Nat) :
    percentDecode (37 :: high :: low :: rest) =
      (percentDecode rest).map fun octets => (16 * h + l) :: octets := by
  rw [percentDecode, hhigh, hlow]

/-- Segments of which none is a dot segment stay. -/
theorem removeDotSegments_of_plain {segments : List (List Nat)}
    (h : ∀ segment ∈ segments, segment ≠ [46] ∧ segment ≠ [46, 46]) (done : List (List Nat)) :
    removeDotSegments done segments = done.reverse ++ segments := by
  induction segments generalizing done with
  | nil => simp [removeDotSegments]
  | cons segment segments ih =>
    rw [List.forall_mem_cons] at h
    have hplain : ¬ (segment = [46] ∨ segment = [46, 46]) := fun hdot => hdot.elim h.1.1 h.1.2
    rw [removeDotSegments, if_neg hplain, ih h.2]
    simp

section
variable {τ : Type} {decodeText : List Nat → Option τ}

theorem mapM_of_forall₂ {α β : Type} {f : α → Option β} {as : List α} {bs : List β}
    (h : List.Forall₂ (fun a b => f a = some b) as bs) : as.mapM f = some bs := by
  induction h with
  | nil => rfl
  | cons hab _ ih => rw [List.mapM_cons, hab, ih]; rfl

variable (decodeText)

/-- A raw segment that stands for `value` wherever it is put. -/
structure IsSegment (raw : List Nat) (value : τ) : Prop where
  reads : readSegment decodeText raw = some value
  inert : ∀ c ∈ raw, c ≠ 47 ∧ c ≠ 63 ∧ c ≠ 35
  notDot : raw ≠ [46] ∧ raw ≠ [46, 46]

/-- A raw parameter that stands for a name and its value wherever it is put. -/
structure IsParameter (raw : List Nat) (parameter : τ × τ) : Prop where
  reads : readParameter decodeText raw = some parameter
  inert : ∀ c ∈ raw, c ≠ 38 ∧ c ≠ 35

variable {decodeText}

theorem mem_intercalate {α : Type} {delimiter c : α} {pieces : List (List α)}
    (h : c ∈ [delimiter].intercalate pieces) : c = delimiter ∨ ∃ piece ∈ pieces, c ∈ piece := by
  induction pieces with
  | nil => simp [List.intercalate] at h
  | cons piece pieces ih =>
    cases pieces with
    | nil =>
      rw [show [delimiter].intercalate [piece] = piece from by simp [List.intercalate]] at h
      exact .inr ⟨piece, List.mem_cons_self, h⟩
    | cons next pieces =>
      have hsplit : [delimiter].intercalate (piece :: next :: pieces) =
          piece ++ delimiter :: [delimiter].intercalate (next :: pieces) := by
        simp [List.intercalate, List.intersperse]
      rw [hsplit, List.mem_append, List.mem_cons] at h
      rcases h with h | h | h
      · exact .inr ⟨piece, List.mem_cons_self, h⟩
      · exact .inl h
      · rcases ih h with h | ⟨piece, hpiece, h⟩
        · exact .inl h
        · exact .inr ⟨piece, List.mem_cons_of_mem _ hpiece, h⟩

/-- The query of some parameters, none when there are none. -/
def queryOf (raws : List (List Nat)) : List Nat :=
  if raws = [] then [] else 63 :: [38].intercalate raws

/-- A target that was put together from pieces is read as these. -/
theorem read_target {segments : List (List Nat)} {values : List τ} {raws : List (List Nat)}
    {parameters : List (τ × τ)} (hsegments : List.Forall₂ (IsSegment decodeText) segments values)
    (hne : segments ≠ []) (hraws : List.Forall₂ (IsParameter decodeText) raws parameters) :
    read decodeText (47 :: [47].intercalate segments ++ queryOf raws) =
      some ⟨values, parameters⟩ := by
  obtain ⟨hsegment, hreads⟩ := (List.forall₂_and_left _ _).mp
    (hsegments.imp fun _ _ h => ⟨(⟨h.inert, h.notDot⟩ : _ ∧ _), h.reads⟩)
  obtain ⟨hraw, hreadsRaw⟩ := (List.forall₂_and_left _ _).mp
    (hraws.imp fun _ _ h => ⟨h.inert, h.reads⟩)
  have hpath : ∀ c ∈ 47 :: [47].intercalate segments, c ≠ 63 ∧ c ≠ 35 := by
    intro c hc
    rcases List.mem_cons.mp hc with rfl | hc
    · decide
    · rcases mem_intercalate hc with rfl | ⟨segment, hmem, hc⟩
      · decide
      · exact ((hsegment segment hmem).1 c hc).2
  have hquery : 35 ∉ queryOf raws := by
    unfold queryOf
    split
    · exact List.not_mem_nil
    · intro hc
      rcases List.mem_cons.mp hc with hc | hc
      · cases hc
      · rcases mem_intercalate hc with hc | ⟨raw, hmem, hc⟩
        · cases hc
        · exact (hraw raw hmem 35 hc).2 rfl
  have hwhole : 35 ∉ 47 :: [47].intercalate segments ++ queryOf raws := by
    rw [List.mem_append, not_or]
    exact ⟨fun hc => (hpath 35 hc).2 rfl, hquery⟩
  -- the first question mark ends the path
  have hcut : cutAt 63 (47 :: [47].intercalate segments ++ queryOf raws) =
      (47 :: [47].intercalate segments, if raws = [] then none else some ([38].intercalate raws)) := by
    have hnone : 63 ∉ 47 :: [47].intercalate segments := fun hc => (hpath 63 hc).1 rfl
    unfold queryOf
    split
    · rw [List.append_nil]
      exact cutAt_of_not_mem hnone
    · exact cutAt_append hnone _
  have hparameters : readQuery decodeText (if raws = [] then none else some ([38].intercalate raws)) =
      some parameters := by
    split
    · rename_i hnil
      subst hnil
      cases hraws
      rfl
    · rename_i hraws
      show (([38].intercalate raws).splitOn 38).mapM (readParameter decodeText) = some parameters
      rw [List.splitOn_intercalate 38 (fun raw hmem hc => (hraw raw hmem 38 hc).1 rfl) hraws]
      exact mapM_of_forall₂ hreadsRaw
  have hsegments : readPath decodeText (47 :: [47].intercalate segments) = some values := by
    show (removeDotSegments [] (([47].intercalate segments).splitOn 47)).mapM _ = some values
    rw [List.splitOn_intercalate 47
        (fun segment hmem hc => ((hsegment segment hmem).1 47 hc).1 rfl) hne,
      removeDotSegments_of_plain (fun segment hmem => (hsegment segment hmem).2)]
    exact mapM_of_forall₂ hreads
  unfold read
  rw [cutAt_of_not_mem hwhole]
  dsimp only
  rw [hcut]
  dsimp only
  rw [hsegments, hparameters]
  rfl

end

end Uri
