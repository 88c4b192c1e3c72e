import Mathlib.Data.List.Infix

/-!
# Tagged names

A name, a tag and a stamp are written one behind the other with a separator between them.  The marker
is what one name and one tag begin with; `marker_prefix_entry_iff` says whose names begin with it too.
-/

namespace TaggedName

variable {α : Type} {sep : α} {base base' tag tag' stamp : List α}

/-- The name of an entry. -/
def entry (sep : α) (base tag stamp : List α) : List α := base ++ sep :: (tag ++ sep :: stamp)

/-- What the entries of a name and a tag begin with. -/
def marker (sep : α) (base tag : List α) : List α := base ++ sep :: (tag ++ [sep])

theorem entry_eq (sep : α) (base tag stamp : List α) :
    entry sep base tag stamp = marker sep base tag ++ stamp := by
  simp [entry, marker]

theorem marker_prefix_entry (sep : α) (base tag stamp : List α) :
    marker sep base tag <+: entry sep base tag stamp := by
  rw [entry_eq]
  exact List.prefix_append _ _

theorem length_marker (sep : α) (base tag : List α) :
    (marker sep base tag).length = base.length + tag.length + 2 := by
  simp only [marker, List.length_append, List.length_cons, List.length_nil]
  omega

theorem marker_inj (hlength : tag.length = tag'.length)
    (h : marker sep base tag = marker sep base' tag') : base = base' ∧ tag = tag' := by
  have hbase : base.length = base'.length := by
    have hall := congrArg List.length h
    rw [length_marker, length_marker] at hall
    omega
  obtain ⟨hb, hrest⟩ := List.append_inj h hbase
  obtain ⟨-, htags⟩ := List.cons.inj hrest
  exact ⟨hb, (List.append_inj htags hlength).1⟩

/-- A text with one separator begins, through a separator, only with what stands before it. -/
theorem eq_of_prefix {front before after : List α} (hbefore : sep ∉ before) (hafter : sep ∉ after)
    (h : front ++ [sep] <+: before ++ sep :: after) : front = before := by
  induction before generalizing front with
  | nil =>
    cases front with
    | nil => rfl
    | cons c front =>
      have hrest : front ++ [sep] <+: after := (List.cons_prefix_cons.mp h).2
      exact absurd (hrest.subset (List.mem_append_right _ (List.mem_singleton_self sep))) hafter
  | cons c before ih =>
    cases front with
    | nil =>
      have hsep : sep = c := (List.cons_prefix_cons.mp h).1
      exact absurd (hsep ▸ List.mem_cons_self) hbefore
    | cons d front =>
      obtain ⟨rfl, hrest⟩ := List.cons_prefix_cons.mp h
      rw [ih (fun hmem => hbefore (List.mem_cons_of_mem _ hmem)) hrest]

/-- With a tag of the same length, the entry of another name begins with the marker only where that
name itself runs through the marker's last separator. -/
theorem marker_prefix_entry_iff (htag : sep ∉ tag') (hstamp : sep ∉ stamp)
    (hlength : tag.length = tag'.length) :
    marker sep base tag <+: entry sep base' tag' stamp ↔
      (base = base' ∧ tag = tag') ∨ marker sep base tag <+: base' ++ [sep] := by
  have hentry : entry sep base' tag' stamp = base' ++ [sep] ++ (tag' ++ sep :: stamp) := by
    simp [entry]
  have hhead : base' ++ [sep] <+: entry sep base' tag' stamp := by
    rw [hentry]
    exact List.prefix_append _ _
  constructor
  · intro h
    by_cases hshort : (marker sep base tag).length ≤ (base' ++ [sep]).length
    · exact .inr (List.prefix_of_prefix_length_le h hhead hshort)
    · -- the marker reaches behind the other name, so its last separator is the one behind the tag
      left
      obtain ⟨more, hmore⟩ := List.prefix_of_prefix_length_le hhead h (by omega)
      have hne : more ≠ [] := by
        rintro rfl
        rw [← hmore, List.append_nil] at hshort
        exact hshort le_rfl
      have hlast : more.getLast hne = sep := by
        have hmarker : (marker sep base tag).getLast? = some sep := by
          rw [marker, List.append_cons, ← List.append_assoc, List.getLast?_concat]
        rw [← hmore, List.getLast?_append_of_ne_nil _ hne, List.getLast?_eq_some_getLast hne] at hmarker
        exact Option.some.inj hmarker
      have hbehind : more.dropLast ++ [sep] <+: tag' ++ sep :: stamp := by
        have hback : more.dropLast ++ [sep] = more := by
          conv_rhs => rw [← List.dropLast_append_getLast hne, hlast]
        rw [hentry, ← hmore, List.prefix_append_right_inj] at h
        rw [hback]
        exact h
      have hsame : marker sep base tag = marker sep base' tag' := by
        rw [← hmore, ← List.dropLast_append_getLast hne, hlast, eq_of_prefix htag hstamp hbehind]
        simp [marker]
      exact marker_inj hlength hsame
  · rintro (⟨rfl, rfl⟩ | h)
    · exact marker_prefix_entry sep base tag stamp
    · exact h.trans hhead

end TaggedName
