import HassNode.BackupRuns
import HassNode.Library.HashChain

/-!
# The chain of versions

`capture` names the digest of the version before, and `rename_history` moves whole logs.  The logs stay
chains as long as no rename puts one history in front of another: there the first version of the
destination still names nothing.
-/

namespace HassNode.BackupStore

open Py

/-- The first version names none before it, and each other one the digest of its predecessor. -/
abbrev Chained (versions : List Version) : Prop :=
  HashChain.Linked Version.sha256 Version.prevSha256 none versions

abbrev AllChained (h : LogIndex.Histories PyStr Entry) : Prop :=
  ∀ path, Chained ((h path).map Prod.fst)

/-- `rename_history(src, dst)` has two logs to concatenate. -/
def Merges [Runtime] (room : Nat) (s : Store) (src dst : PyStr) : Prop :=
  src ≠ dst ∧ (∃ v vs, s.history room src = .ok (v :: vs)) ∧ ∃ v vs, s.history room dst = .ok (v :: vs)

section

variable [Runtime] [Digest]

omit [Runtime] in
theorem chained_capture {h : LogIndex.Histories PyStr Entry} (hchained : AllChained h) (c : Capture) :
    AllChained (modelStep h (.capture c)) := by
  intro path
  show Chained (((if storable c.path = true then _ else h) path).map Prod.fst)
  split
  · by_cases hpath : path = c.path
    · subst hpath
      rw [LogIndex.append_self, List.map_append]
      apply HashChain.linked_concat.mpr
      exact ⟨hchained c.path, (Option.or_none ..).symm⟩
    · rw [LogIndex.append_of_ne h _ hpath]
      exact hchained path
  · exact hchained path

omit [Runtime] in
/-- A rename keeps every log a chain exactly if it does not concatenate two of them. -/
theorem chained_rename_iff {s : Store} {h : LogIndex.Histories PyStr Entry} (hs : Indexes s h)
    (hchained : AllChained h) (src dst : PyStr) :
    AllChained (modelStep h (.rename src dst)) ↔ ¬ (src ≠ dst ∧ h src ≠ [] ∧ h dst ≠ []) := by
  constructor
  · intro hrenamed ⟨hne, hsrc, hdst⟩
    have hmerged := hrenamed dst
    change Chained (((if _ then LogIndex.rename h src dst else h) dst).map Prod.fst) at hmerged
    rw [if_pos ⟨hs.storable_of_ne hsrc, hs.storable_of_ne hdst⟩, LogIndex.rename_dst h hne,
      List.map_append] at hmerged
    have hempty := (HashChain.linked_joined (hchained src) (hchained dst)).mp hmerged
    rw [List.map_eq_nil_iff, List.map_eq_nil_iff] at hempty
    exact hempty.elim hsrc hdst
  · intro hno path
    show Chained (((if _ then LogIndex.rename h src dst else h) path).map Prod.fst)
    split
    · by_cases hsrc : path = src
      · rw [hsrc, LogIndex.rename_src]
        trivial
      · by_cases hdst : path = dst
        · subst hdst
          have hempty : h src = [] ∨ h path = [] := by
            by_contra hfull
            rw [not_or] at hfull
            exact hno ⟨Ne.symm hsrc, hfull⟩
          rw [LogIndex.rename_dst h (Ne.symm hsrc), List.map_append]
          apply (HashChain.linked_joined (hchained src) (hchained path)).mpr
          rw [List.map_eq_nil_iff, List.map_eq_nil_iff]
          exact hempty
        · rw [LogIndex.rename_of_ne h hsrc hdst]
          exact hchained path
    · exact hchained path

omit [Digest] in
theorem Indexes.merges_iff {s : Store} {h : LogIndex.Histories PyStr Entry} (hs : Indexes s h)
    {room : Nat} {src dst : PyStr} :
    Merges room s src dst ↔ src ≠ dst ∧ h src ≠ [] ∧ h dst ≠ [] := by
  have hread : ∀ path, (∃ v vs, s.history room path = .ok (v :: vs)) ↔ h path ≠ [] := by
    intro path
    simp only [hs.history_eq_ok]
    constructor
    · rintro ⟨v, vs, -, hcons⟩ hnil
      rw [hnil] at hcons
      cases hcons
    · intro hne
      have ⟨e, rest, hcons⟩ := List.exists_cons_of_ne_nil hne
      exact ⟨e.1, rest.map Prod.fst, hs.storable_of_ne hne, by rw [hcons]; rfl⟩
  unfold Merges
  rw [hread, hread]

omit [Digest] in
theorem Indexes.chained_iff {s : Store} {h : LogIndex.Histories PyStr Entry} (hs : Indexes s h)
    {room : Nat} :
    (∀ path vs, s.history room path = .ok vs → Chained vs) ↔ AllChained h := by
  simp only [hs.history_eq_ok]
  constructor
  · intro hread path
    by_cases hpath : h path = []
    · rw [hpath]
      trivial
    · exact hread path _ ⟨hs.storable_of_ne hpath, rfl⟩
  · rintro hchained path vs ⟨-, rfl⟩
    exact hchained path

/-- No step of the run so far puts one history in front of another. -/
theorem chained_run {room : Nat} {steps : List Step}
    (hno : ∀ before src dst, before ++ [.rename src dst] <+: steps →
      ¬ Merges room (run room before) src dst) :
    AllChained (histories steps) := by
  induction steps using List.reverseRecOn with
  | nil => exact fun _ => trivial
  | append_singleton steps step ih =>
    have hbefore := ih fun before src dst hbegins =>
      hno before src dst (hbegins.trans (List.prefix_append _ _))
    rw [histories_concat]
    cases step with
    | capture c => exact chained_capture hbefore c.joined
    | rename src dst =>
      have hs := indexes_run room steps
      apply (chained_rename_iff hs hbefore src dst).mpr
      exact fun hmerge => hno steps src dst (List.prefix_refl _) (hs.merges_iff.mpr hmerge)

/-- In every store that a run reaches every history is a chain of versions, exactly if no rename of the
run concatenates two histories. -/
theorem version_chain_iff (room : Nat) (steps : List Step) :
    (∀ before, before <+: steps → ∀ path vs,
        (run room before).history room path = .ok vs → Chained vs) ↔
      ∀ before src dst, before ++ [.rename src dst] <+: steps →
        ¬ Merges room (run room before) src dst := by
  constructor
  · intro hchained before src dst hbegins
    have hs := indexes_run room before
    have hbefore : AllChained (histories before) :=
      hs.chained_iff.mp (hchained before ((List.prefix_append _ _).trans hbegins))
    have hafter : AllChained (modelStep (histories before) (.rename src dst)) := by
      have hread := (indexes_run room _).chained_iff.mp (hchained _ hbegins)
      rw [histories_concat] at hread
      exact hread
    rw [hs.merges_iff]
    exact (chained_rename_iff hs hbefore src dst).mp hafter
  · intro hno before hbegins
    apply (indexes_run room before).chained_iff.mpr
    apply chained_run
    exact fun earlier src dst hearlier => hno earlier src dst (hearlier.trans hbegins)

end

/-- A file is written, then another one is moved onto it. -/
def mergingSteps : List Step :=
  [.capture ⟨py "/share/a.txt", [104, 105], sampleBytes_lt, py "direct", .write, py "agent",
      py "2024-05-01T10:00:00Z"⟩,
    .capture ⟨py "/share/b.txt", [104, 105], sampleBytes_lt, py "direct", .write, py "agent",
      py "2024-05-01T10:00:01Z"⟩,
    .rename (py "/share/a.txt") (py "/share/b.txt")]

/-- The second version of the merged history names no predecessor. -/
theorem version_chain_broken :
    let _ := Runtime.ofTable []
    let _ := sampleDigest
    ∃ vs, (run 10 mergingSteps).history 10 (py "/share/b.txt") = .ok vs ∧
      vs.map Version.prevSha256 = [none, none] ∧ ¬ Chained vs := by
  intro _ _
  have hs := @indexes_run (Runtime.ofTable []) sampleDigest 10 mergingSteps
  exact ⟨_, hs.history_eq_ok.mpr ⟨by decide, rfl⟩, by decide +kernel, by decide +kernel⟩

end HassNode.BackupStore
