import Mathlib.Data.List.TakeDrop

/-!
# Reading in chunks

A read of a part of some data may answer less than it was asked for, but something where something is
left.  Chunks that follow one another make up the part, and parts that follow one another the data.
-/

namespace ChunkedRead

variable {α : Type} {data chunk : List α} {offset count : Nat}

/-- At most `count` elements from `offset` on. -/
def slice (data : List α) (offset count : Nat) : List α := (data.drop offset).take count

/-- What a read of a slice may answer. -/
structure ShortRead (data : List α) (offset count : Nat) (chunk : List α) : Prop where
  begins : chunk <+: slice data offset count
  ends : chunk = [] → slice data offset count = []

@[simp] theorem length_slice (data : List α) (offset count : Nat) :
    (slice data offset count).length = min count (data.length - offset) := by
  simp [slice]

@[simp] theorem slice_zero (data : List α) (offset : Nat) : slice data offset 0 = [] := List.take_zero

/-- A chunk leaves the rest of the slice to be read. -/
theorem ShortRead.slice_eq (h : ShortRead data offset count chunk) : slice data offset count =
    chunk ++ slice data (offset + chunk.length) (count - chunk.length) := by
  obtain ⟨rest, hrest⟩ := h.begins
  have hback : rest = (slice data offset count).drop chunk.length := by
    rw [← hrest, List.drop_left]
  rw [← hrest, hback, slice, List.drop_take, List.drop_drop, slice]

theorem ShortRead.length_le (h : ShortRead data offset count chunk) : chunk.length ≤ count := by
  have hlength := h.begins.length_le
  rw [length_slice] at hlength
  omega

/-- A slice leaves the rest of the data to be read. -/
theorem drop_eq (data : List α) (offset count : Nat) : data.drop offset =
    slice data offset count ++ data.drop (offset + (slice data offset count).length) := by
  by_cases hcount : count ≤ data.length - offset
  · rw [length_slice, Nat.min_eq_left hcount, slice, ← List.drop_drop, List.take_append_drop]
  · have hall : data.length ≤ offset + (slice data offset count).length := by
      rw [length_slice]
      omega
    rw [List.drop_eq_nil_of_le hall, List.append_nil, slice, List.take_of_length_le]
    rw [List.length_drop]
    omega

end ChunkedRead
