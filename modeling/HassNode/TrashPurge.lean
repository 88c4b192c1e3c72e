import HassNode.BackupResolve
import HassNode.Library.TaggedName
import HassNode.Py.PurePath

/-!
# The fallback trash

`fs.delete` names a file in the trash after the base name and the path it had, and `fs.restore` purges
the entries whose names begin with these two.  `purge_exact_iff` says when these are the entries of that
path alone: another file's name can hold the marker itself (`marked_name_purged`).
-/

namespace HassNode.FsMoveDelete

open Py BackupStore TaggedName

/-- What the helpers ask of the host. -/
class TrashHost where
  /-- The number that `hashlib.sha1(data)` digests to. -/
  sha1 : Bytes → Nat
  /-- `os.getcwd()`. -/
  cwd : PyStr

/-- A reading of the clock, to the microsecond and in UTC. -/
structure Stamp where
  moment : Moment
  microsecond : Nat

/-- `strftime("%Y%m%dT%H%M%S%f")`. -/
def Stamp.text (ts : Stamp) : PyStr :=
  fourDigits ts.moment.year ++ twoDigits ts.moment.month ++ twoDigits ts.moment.day ++ py "T" ++
    twoDigits ts.moment.hour ++ twoDigits ts.moment.minute ++ twoDigits ts.moment.second ++
    (twoDigits (ts.microsecond / 10000) ++ fourDigits ts.microsecond)

/-- A file in the trash, and the path whose deletion brought it there. -/
structure Entry where
  name : PyStr
  source : RealPath
  deriving DecidableEq

/-- The trash directory; nothing while there is none. -/
abbrev Trash := Option (List Entry)

def Trash.entries (trash : Trash) : List Entry := trash.getD []

section
variable [TrashHost]

/-- `_path_slug`; nothing is a `UnicodeEncodeError`. -/
def pathSlug (path : PyStr) : Option PyStr :=
  (encodeUtf8 (abspath TrashHost.cwd path)).map fun data => (hexDigits 40 (TrashHost.sha1 data)).take 12

/-- `purge_trash_entries_for`, where no removal fails: the number of entries removed, and the trash
without them. -/
def purgeTrashEntriesFor (trash : Trash) (path : PyStr) : Option Nat × Trash :=
  let name := basename path
  if name = [] then (some 0, trash)
  else
    match trash with
    | none => (some 0, none)
    | some entries =>
      match pathSlug path with
      | none => (none, some entries)
      | some slug =>
        let marker := name ++ py "." ++ slug ++ py "."
        (some (entries.countP fun entry => startsWith entry.name marker),
          some (entries.filter fun entry => !startsWith entry.name marker))

/-- `_trash_file` in the fallback directory: the name that the file gets there, and the trash with it. -/
def trashFile (trashDir : RealPath) (trash : Trash) (path : RealPath) (ts : Stamp) :
    Option PyStr × Trash :=
  match pathSlug path.str with
  | none => (none, some trash.entries)
  | some slug =>
    let dest := path.path.name ++ py "." ++ slug ++ py "." ++ ts.text
    -- a file of the trash itself leaves its place, and a file of the same name is replaced
    let others := trash.entries.filter fun entry =>
      entry.name ≠ dest ∧ path.path.relativeTo trashDir.path ≠ some [entry.name]
    (some dest, some (others ++ [⟨dest, path⟩]))

/-- No file is at a path that leads to the trash directory, nor below it where there is no entry. -/
def noFile (trashDir : RealPath) (trash : Trash) (path : RealPath) : Bool :=
  match path.path.relativeTo trashDir.path with
  | some [name] => !trash.entries.any fun entry => entry.name == name
  | some _ => true
  | none => trashDir.path.isRelativeTo path.path

/-! ## Runs -/

/-- A deletion that reaches the fallback trash, and a purge. -/
inductive TrashEvent
  | delete (path : RealPath) (ts : Stamp)
  | purge (path : PyStr)

def step (trashDir : RealPath) (trash : Trash) : TrashEvent → Trash
  | .delete path ts => if noFile trashDir trash path then trash else (trashFile trashDir trash path ts).2
  | .purge path => (purgeTrashEntriesFor trash path).2

/-- The trash after some events, with none at first. -/
def run (trashDir : RealPath) (events : List TrashEvent) : Trash := events.foldl (step trashDir) none

end

/-! ## Names -/

theorem dot_not_mem_text (ts : Stamp) : 46 ∉ ts.text := by
  have hdigit : ∀ n, 46 ≠ decimalDigit n := by
    intro n h
    have hval : 46 = 48 + (Fin.ofNat 10 n).val := congrArg Fin.val h
    omega
  have htwo : ∀ n, 46 ∉ twoDigits n := by
    intro n h
    rcases List.mem_cons.mp h with h | h
    · exact hdigit _ h
    · exact hdigit _ (List.mem_singleton.mp h)
  have hfour : ∀ n, 46 ∉ fourDigits n := by
    intro n h
    exact (List.mem_append.mp h).elim (htwo _) (htwo _)
  have ht : (46 : CodePoint) ∉ py "T" := by decide
  simp only [Stamp.text, List.mem_append, htwo, hfour, ht, or_self, not_false_iff]

theorem dot_not_mem_hexDigits (width n : Nat) : 46 ∉ hexDigits width n := by
  intro h
  obtain ⟨i, -, hdigit⟩ := List.mem_map.mp h
  have hval : (hexDigit (n / 16 ^ i % 16)).val = 46 := congrArg Fin.val hdigit
  unfold hexDigit at hval
  split at hval <;> simp only at hval <;> omega

section
variable [TrashHost]
variable {trashDir p q : RealPath} {trash : Trash} {entry : Entry} {slug path : PyStr}

theorem dot_not_mem_slug (h : pathSlug path = some slug) : 46 ∉ slug := by
  obtain ⟨data, -, rfl⟩ := Option.map_eq_some_iff.mp h
  exact fun hdot => dot_not_mem_hexDigits 40 _ (List.mem_of_mem_take hdot)

theorem length_slug (h : pathSlug path = some slug) : slug.length = 12 := by
  obtain ⟨data, -, rfl⟩ := Option.map_eq_some_iff.mp h
  simp [hexDigits]

omit [TrashHost] in
theorem name_eq_entry (name slug text : PyStr) :
    name ++ py "." ++ slug ++ py "." ++ text = TaggedName.entry 46 name slug text := by
  rw [TaggedName.entry, List.append_assoc, List.append_assoc, List.append_assoc]
  rfl

omit [TrashHost] in
theorem marker_eq (name slug : PyStr) :
    name ++ py "." ++ slug ++ py "." = TaggedName.marker 46 name slug := by
  rw [TaggedName.marker, List.append_assoc, List.append_assoc]
  rfl

/-- A purge of the path removes what has this name. -/
def Purged (p : RealPath) (name : PyStr) : Prop :=
  p.path.name ≠ [] ∧ ∃ slug, pathSlug p.str = some slug ∧ marker 46 p.path.name slug <+: name

/-- The name of a file holds the marker of the path: it begins with it, or is it without the last dot. -/
def Marked (p q : RealPath) : Prop := Purged p (q.path.name ++ [46])

/-- A deletion of its source, which has a base name, gave the entry its name. -/
def Placed (entry : Entry) : Prop :=
  entry.source.path.name ≠ [] ∧ ∃ slug ts, pathSlug entry.source.str = some slug ∧
    entry.name = TaggedName.entry 46 entry.source.path.name slug (Stamp.text ts)

/-! ## The trash -/

theorem mem_purge (p : RealPath) (trash : Trash) (entry : Entry) :
    entry ∈ (purgeTrashEntriesFor trash p.str).2.entries ↔
      entry ∈ trash.entries ∧ ¬ Purged p entry.name := by
  simp only [purgeTrashEntriesFor, p.basename_str, marker_eq]
  by_cases hname : p.path.name = []
  · rw [if_pos hname]
    exact (and_iff_left fun hpurged => hpurged.1 hname).symm
  · rw [if_neg hname]
    cases trash with
    | none => exact (and_iff_left_of_imp fun hmem => absurd hmem List.not_mem_nil).symm
    | some entries =>
      cases hslug : pathSlug p.str with
      | none =>
        refine (and_iff_left ?_).symm
        rintro ⟨-, slug, hsome, -⟩
        rw [hslug] at hsome
        cases hsome
      | some slug =>
        show entry ∈ entries.filter _ ↔ entry ∈ entries ∧ _
        have hpurged : Purged p entry.name ↔ marker 46 p.path.name slug <+: entry.name := by
          simp only [Purged, hslug, Option.some.injEq, exists_eq_left', ne_eq, hname, not_false_iff,
            true_and]
        rw [List.mem_filter, hpurged, Bool.not_eq_true', ← Bool.not_eq_true]
        rw [startsWith, List.isPrefixOf_iff_prefix]

omit [TrashHost] in
theorem noFile_of_name_eq_nil (h : p.path.name = []) : noFile trashDir trash p = true := by
  have htail : p.path.tail = [] := by
    by_contra hne
    have hlast : p.path.tail.getLast hne ∈ p.path.tail := List.getLast_mem hne
    rw [PurePath.name, List.getLast?_eq_some_getLast hne, Option.getD_some] at h
    exact (p.path.proper _ hlast).1 h
  have habove : trashDir.path.isRelativeTo p.path = true := by
    rw [PurePath.isRelativeTo, trashDir.isRoot, p.isRoot, htail]
    rfl
  unfold noFile
  split
  · rename_i name hrelative
    have hlength := (PurePath.relativeTo_eq_some.mp hrelative).2
    rw [htail] at hlength
    exact absurd hlength.symm (List.append_ne_nil_of_right_ne_nil _ (List.cons_ne_nil _ _))
  · rfl
  · exact habove

/-- A deletion brings its own entry, or none. -/
theorem mem_delete {ts : Stamp} (h : entry ∈ (step trashDir trash (.delete p ts)).entries) :
    entry ∈ trash.entries ∨ entry.source = p ∧ Placed entry := by
  simp only [step, trashFile] at h
  split at h
  · exact .inl h
  · rename_i hfile
    have hname : p.path.name ≠ [] := fun hnil => hfile (noFile_of_name_eq_nil hnil)
    cases hslug : pathSlug p.str with
    | none =>
      rw [hslug] at h
      exact .inl h
    | some slug =>
      rw [hslug] at h
      rcases List.mem_append.mp h with hkept | hnew
      · exact .inl (List.mem_filter.mp hkept).1
      · rw [List.mem_singleton.mp hnew]
        exact .inr ⟨rfl, hname, slug, ts, hslug, name_eq_entry _ _ _⟩

theorem purge_subset (h : entry ∈ (purgeTrashEntriesFor trash path).2.entries) :
    entry ∈ trash.entries := by
  simp only [purgeTrashEntriesFor] at h
  split at h
  · exact h
  · cases trash with
    | none => exact h
    | some entries =>
      cases hslug : pathSlug path with
      | none =>
        rw [hslug] at h
        exact h
      | some slug =>
        rw [hslug] at h
        exact (List.mem_filter.mp h).1

theorem placed_step (h : ∀ entry ∈ trash.entries, Placed entry) (event : TrashEvent) :
    ∀ entry ∈ (step trashDir trash event).entries, Placed entry := by
  intro entry hentry
  cases event with
  | delete path ts =>
    rcases mem_delete hentry with hold | hnew
    · exact h entry hold
    · exact hnew.2
  | purge path => exact h entry (purge_subset hentry)

theorem placed_run (trashDir : RealPath) (events : List TrashEvent) :
    ∀ entry ∈ (run trashDir events).entries, Placed entry := by
  unfold run
  apply List.foldlRecOn (motive := fun trash : Trash => ∀ entry ∈ trash.entries, Placed entry) events
    (step trashDir)
  · exact fun entry hentry => absurd hentry List.not_mem_nil
  · exact fun trash htrash event _ => placed_step htrash event

/-- An entry goes with the entries of the path when it is one of them, or its file's name holds the
marker. -/
theorem purged_iff (hentry : Placed entry)
    (hslugs : pathSlug entry.source.str = pathSlug p.str → entry.source = p) :
    Purged p entry.name ↔ entry.source = p ∨ Marked p entry.source := by
  obtain ⟨hname, slug, ts, hslug, hplaced⟩ := hentry
  rw [hplaced]
  constructor
  · rintro ⟨hp, slug', hslug', hmarker⟩
    have hlength : slug'.length = slug.length := (length_slug hslug').trans (length_slug hslug).symm
    rcases (marker_prefix_entry_iff (dot_not_mem_slug hslug) (dot_not_mem_text ts) hlength).mp hmarker with
      ⟨-, hsame⟩ | hmarked
    · exact .inl (hslugs (by rw [hslug, hslug', hsame]))
    · exact .inr ⟨hp, slug', hslug', hmarked⟩
  · rintro (hsource | ⟨hp, slug', hslug', hmarked⟩)
    · rw [hsource] at hslug hname ⊢
      exact ⟨hname, slug, hslug, marker_prefix_entry _ _ _ _⟩
    · have hlength : slug'.length = slug.length := (length_slug hslug').trans (length_slug hslug).symm
      exact ⟨hp, slug', hslug', (marker_prefix_entry_iff (dot_not_mem_slug hslug) (dot_not_mem_text ts)
        hlength).mpr (.inr hmarked)⟩

/-- After any run of deletions and purges, the purge of a path leaves exactly the entries of other files,
given that no two of the paths share a slug, if and only if no other file with an entry in the trash had
a name that holds the marker of the path. -/
theorem purge_exact_iff (trashDir : RealPath) (events : List TrashEvent) (p : RealPath)
    (hslugs : ∀ entry ∈ (run trashDir events).entries,
      pathSlug entry.source.str = pathSlug p.str → entry.source = p) :
    (∀ entry, entry ∈ (purgeTrashEntriesFor (run trashDir events) p.str).2.entries ↔
      entry ∈ (run trashDir events).entries ∧ entry.source ≠ p) ↔
        ∀ entry ∈ (run trashDir events).entries, entry.source ≠ p → ¬ Marked p entry.source := by
  have hpurged : ∀ entry ∈ (run trashDir events).entries,
      (Purged p entry.name ↔ entry.source = p ∨ Marked p entry.source) :=
    fun entry hentry => purged_iff (placed_run trashDir events entry hentry) (hslugs entry hentry)
  constructor
  · intro hexact entry hentry hsource hmarked
    have hkept := (hexact entry).mpr ⟨hentry, hsource⟩
    exact ((mem_purge p _ entry).mp hkept).2 ((hpurged entry hentry).mpr (.inr hmarked))
  · intro hunmarked entry
    rw [mem_purge]
    apply and_congr_right
    intro hentry
    rw [hpurged entry hentry, not_or]
    exact and_iff_left_of_imp (hunmarked entry hentry)

end

namespace TrashSample

/-- A host that knows the digests of the paths below. -/
scoped instance host : TrashHost where
  sha1 data :=
    if data = (py "/share/a.txt").map Fin.val then 0xd384b1222947050e95878aec61db3111e8592f92
    else if data = (py "/share/a.txt.d384b1222947.old").map Fin.val then
      0x1485052b6ad0908597e0c95cb591ab820dbba308
    else if data = (py "/media/a.txt").map Fin.val then 0x4d08d1392126d84e6979a88d4f13e37d73399b8f
    else 0
  cwd := py "/app"

theorem may_mem : 1 ≤ 5 ∧ 5 ≤ 12 := by decide

theorem zero_lt_sixty : 0 < 60 := by decide

def noon : Moment where
  year := 2026
  month := 5
  day := 4
  hour := 12
  minute := 0
  second := 0
  year_mem := by decide
  month_mem := may_mem
  day_mem := by decide
  hour_lt := by decide
  minute_lt := zero_lt_sixty
  second_lt := zero_lt_sixty

def realPath (text : PyStr)
    (h : (PurePath.parse text).anchor = .root ∧ py ".." ∉ (PurePath.parse text).tail) : RealPath :=
  ⟨PurePath.parse text, h.1, h.2⟩

def trashDir : RealPath := realPath (py "/share/openclaw-trash") (by decide)

def live : RealPath := realPath (py "/share/a.txt") (by decide)

/-- Another file, whose name holds the marker of the first. -/
def marked : RealPath := realPath (py "/share/a.txt.d384b1222947.old") (by decide)

/-- A file of the same name elsewhere. -/
def namesake : RealPath := realPath (py "/media/a.txt") (by decide)

/-- The file is deleted, then its namesake, then the file again. -/
def namesakeDeletions : List TrashEvent :=
  [.delete live ⟨noon, 250⟩, .delete namesake ⟨noon, 251⟩, .delete live ⟨noon, 252⟩]

theorem run_namesakeDeletions : run trashDir namesakeDeletions =
    some [⟨py "a.txt.d384b1222947.20260504T120000000250", live⟩,
      ⟨py "a.txt.4d08d1392126.20260504T120000000251", namesake⟩,
      ⟨py "a.txt.d384b1222947.20260504T120000000252", live⟩] := by
  decide +kernel

/-- The trash after a purge of the file. -/
def namesakePurged : Trash :=
  (purgeTrashEntriesFor (run trashDir namesakeDeletions) live.str).2

/-- The purge of the file removes its two entries and leaves the one of its namesake alone. -/
theorem purge_exact_namesake :
    ⟨py "a.txt.4d08d1392126.20260504T120000000251", namesake⟩ ∈ namesakePurged.entries ∧
      ⟨py "a.txt.d384b1222947.20260504T120000000250", live⟩ ∉ namesakePurged.entries ∧
      ⟨py "a.txt.d384b1222947.20260504T120000000252", live⟩ ∉ namesakePurged.entries := by
  have hslugs : ∀ entry ∈ (run trashDir namesakeDeletions).entries,
      pathSlug entry.source.str = pathSlug live.str → entry.source = live := by
    rw [run_namesakeDeletions]
    decide +kernel
  have hslug : pathSlug live.str = some (py "d384b1222947") := by decide +kernel
  have hunmarked : ¬ marker 46 live.path.name (py "d384b1222947") <+: namesake.path.name ++ [46] := by
    decide +kernel
  have hexact : ∀ entry, entry ∈ namesakePurged.entries ↔
      entry ∈ (run trashDir namesakeDeletions).entries ∧ entry.source ≠ live := by
    apply (purge_exact_iff trashDir namesakeDeletions live hslugs).mpr
    rintro entry hentry hother ⟨-, slug, hslug', hmarker⟩
    rw [← Option.some.inj (hslug.symm.trans hslug')] at hmarker
    rw [run_namesakeDeletions] at hentry
    rcases List.mem_cons.mp hentry with rfl | hentry
    · exact hother rfl
    · rcases List.mem_cons.mp hentry with rfl | hentry
      · exact hunmarked hmarker
      · exact hother (List.mem_singleton.mp hentry ▸ rfl)
  refine ⟨(hexact _).mpr ⟨?_, ?_⟩, fun hin => ((hexact _).mp hin).2 rfl, fun hin => ((hexact _).mp hin).2 rfl⟩
  · rw [run_namesakeDeletions]
    exact List.mem_cons_of_mem _ List.mem_cons_self
  · decide +kernel

/-- The marked file is deleted. -/
def deletions : List TrashEvent := [.delete marked ⟨noon, 250⟩]

theorem run_deletions : run trashDir deletions =
    some [⟨py "a.txt.d384b1222947.old.1485052b6ad0.20260504T120000000250", marked⟩] := by
  decide +kernel

theorem slugs_deletions : ∀ entry ∈ (run trashDir deletions).entries,
    pathSlug entry.source.str = pathSlug live.str → entry.source = live := by
  intro entry hentry
  rw [run_deletions] at hentry
  rw [List.mem_singleton.mp hentry]
  decide +kernel

/-- A purge of the first file removes the entry of the other one. -/
theorem marked_name_purged : ¬ ∀ (events : List TrashEvent) (p : RealPath),
    (∀ entry ∈ (run trashDir events).entries,
      pathSlug entry.source.str = pathSlug p.str → entry.source = p) →
    ∀ entry, entry ∈ (purgeTrashEntriesFor (run trashDir events) p.str).2.entries ↔
      entry ∈ (run trashDir events).entries ∧ entry.source ≠ p := by
  intro h
  have hexact := h deletions live slugs_deletions
    ⟨py "a.txt.d384b1222947.old.1485052b6ad0.20260504T120000000250", marked⟩
  have hpurged : (purgeTrashEntriesFor (run trashDir deletions) live.str) = (some 1, some []) := by
    rw [run_deletions]
    decide +kernel
  have hother : marked ≠ live := by decide
  rw [hpurged, run_deletions] at hexact
  exact absurd (hexact.mpr ⟨.head _, hother⟩) List.not_mem_nil

end TrashSample

end HassNode.FsMoveDelete
