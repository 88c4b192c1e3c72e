import HassNode.FileLocations
import HassNode.GatedCall
import HassNode.RestoreAtTime

/-!
# The gate in front of the protected roots

The handlers ask the approval gate by the text of a path and by the text of its real path, and then
write by the path itself.  `Judged` says what may have become of the protected roots when a handler is
done: an object changes only where a path of the call lies, and only behind both questions.
-/

namespace HassNode.FsMutations

open Py DirTree PathDisk Interaction SafeFd ConfigMutation Interaction.Prog
open BackupStore (Version Digest IsoFormat)

namespace Host

variable (h : Host)

section
variable [Runtime]

/-- The gate was asked, and let the call pass. -/
structure Granted (command : PyStr) (params : Dict) (w₀ w : World) : Prop where
  verdict : w.verdict = some none
  consumed : ∃ now,
    let r := consumeApprovalMarker h.caller now w₀.used command [] params
    r.refusal = none ∧ w.used = r.used

/-- What the checks of a path have made sure of. -/
structure Clears (command : PyStr) (params : Dict) (w₀ w : World) (path : PyStr) : Prop where
  storage : isStorage path = false
  raw : isProtected path = true → h.Granted command params w₀ w
  resolved : ∃ r, h.ResolvesSafe w₀.disk path r ∧
    (isProtected r.str = true → h.Granted command params w₀ w)

/-- A call changes `i` when it writes to the path: the object that lies there, which is no link or is a
link that is replaced, or a temporary file beside it. -/
def Touches (d : FileDisk) (path : PyStr) (i : List Bytes) : Prop :=
  ∃ dir name, Located path (dir ++ [name]) ∧
    ((i = dir ++ [name] ∧ (d.Straight i ∨ ∃ absolute target, d.node i = some (.symlink absolute target))) ∨
      ∃ tmp, Temporary tmp ∧ i = dir ++ [tmp] ∧ d.Straight (dir ++ [name]))

/-- What has become of the protected roots, and that a refusal leaves everything as it was. -/
structure Judged (command : PyStr) (params : Dict) (paths : List PyStr) (w₀ : World)
    (result : Except Exc Json) (w : World) : Prop where
  touched : ∀ i, Protected i → w.disk.node i ≠ w₀.disk.node i →
    ∃ path ∈ paths, h.Clears command params w₀ w path ∧ Touches w₀.disk path i
  refused : ∀ denied, w.verdict = some (some denied) →
    result = .ok denied ∧ w.disk = w₀.disk ∧ w.store = w₀.store

/-- The handler before it has touched anything, with the answer that its check holds. -/
structure Pending (command : PyStr) (params : Dict) (w₀ : World) (result : Checked) (w : World) :
    Prop where
  disk : w.disk = w₀.disk
  store : w.store = w₀.store
  asked : (result = none ∧ w.verdict = none ∧ w.used = w₀.used) ∨
    (result = some none ∧ h.Granted command params w₀ w)

/-- The handler behind its checks. -/
structure Cleared (command : PyStr) (params : Dict) (paths : List PyStr) (w₀ w : World) : Prop where
  unrefused : ∀ denied, w.verdict ≠ some (some denied)
  clears : ∀ path ∈ paths, h.Clears command params w₀ w path
  touched : ∀ i, Protected i → w.disk.node i ≠ w₀.disk.node i →
    ∃ path ∈ paths, Touches w₀.disk path i

/-- The handler behind its checks, before it has touched a protected root. -/
structure Ready (command : PyStr) (params : Dict) (paths : List PyStr) (w₀ w : World) : Prop where
  unrefused : ∀ denied, w.verdict ≠ some (some denied)
  clears : ∀ path ∈ paths, h.Clears command params w₀ w path
  own : ∀ i, Protected i → w.disk.node i = w₀.disk.node i
  links : ∀ dir name, w.disk.link? dir name = w₀.disk.link? dir name

variable {h} {command : PyStr} {params : Dict} {paths : List PyStr} {path : PyStr} {w₀ w w' : World}
  {result : Checked}

theorem Granted.next (hw : h.Granted command params w₀ w) (hused : w'.used = w.used)
    (hverdict : w'.verdict = w.verdict) : h.Granted command params w₀ w' where
  verdict := hverdict.trans hw.verdict
  consumed := by
    obtain ⟨now, hrefusal, hconsumed⟩ := hw.consumed
    exact ⟨now, hrefusal, hused.trans hconsumed⟩

theorem Clears.next (hw : h.Clears command params w₀ w path) (hused : w'.used = w.used)
    (hverdict : w'.verdict = w.verdict) : h.Clears command params w₀ w' path where
  storage := hw.storage
  raw hprotected := (hw.raw hprotected).next hused hverdict
  resolved := by
    obtain ⟨r, hr, hgranted⟩ := hw.resolved
    exact ⟨r, hr, fun hprotected => (hgranted hprotected).next hused hverdict⟩

theorem Cleared.judged (hw : h.Cleared command params paths w₀ w) (ending : Except Exc Json) :
    h.Judged command params paths w₀ ending w where
  touched i hi hchanged := by
    obtain ⟨path, hpath, htouches⟩ := hw.touched i hi hchanged
    exact ⟨path, hpath, hw.clears path hpath, htouches⟩
  refused denied hdenied := absurd hdenied (hw.unrefused denied)

theorem Ready.cleared (hw : h.Ready command params paths w₀ w) :
    h.Cleared command params paths w₀ w where
  unrefused := hw.unrefused
  clears := hw.clears
  touched i hi hchanged := absurd (hw.own i hi) hchanged

theorem Pending.judged (hw : h.Pending command params w₀ result w) (ending : Except Exc Json) :
    h.Judged command params paths w₀ ending w where
  touched i _ hchanged := absurd (congrArg (fun d : FileDisk => d.node i) hw.disk) hchanged
  refused denied hdenied := by
    rcases hw.asked with ⟨-, hverdict, -⟩ | ⟨-, hgranted⟩
    · rw [hverdict] at hdenied
      cases hdenied
    · rw [hgranted.verdict] at hdenied
      cases hdenied

end

/-! ## Calls that leave the protected roots alone -/

/-- The calls that do not write by a path of the caller and change no link. -/
def Harmless : FileOp → Prop
  | .atomicWriteSafe _ _ | .replaceSafe _ _ | .trashFile _ | .purgeTrashEntriesFor _ => False
  | _ => True

/-- The store and the trash are outside the protected roots. -/
def Outside : Prop := ∀ i, h.storePlace i ∨ h.trashPlace i → ¬ Protected i

/-- What a harmless call does. -/
structure Spares (w w' : World) : Prop where
  used : w'.used = w.used
  verdict : w'.verdict = w.verdict
  own : ∀ i, Protected i → w'.disk.node i = w.disk.node i
  links : ∀ dir name, w'.disk.link? dir name = w.disk.link? dir name
  kind : ∀ i, w.disk.node i ≠ none → w'.disk.IsDirectory i → w.disk.IsDirectory i

theorem Spares.refl (w : World) : Spares w w :=
  ⟨rfl, rfl, fun _ _ => rfl, fun _ _ => rfl, fun _ _ hdir => hdir⟩

theorem Housekeeps.spares {place : List Bytes → Prop} {w w' : World} (hw : Housekeeps place w w')
    (houtside : ∀ i, place i → ¬ Protected i) : Spares w w' where
  used := hw.used
  verdict := hw.verdict
  own i hi := hw.own i fun hplace => houtside i hplace hi
  links := hw.links
  kind := hw.kind

section
variable [Runtime] {h} {command : PyStr} {params : Dict} {paths : List PyStr} {w₀ w w' : World}

theorem Ready.next (hw : h.Ready command params paths w₀ w) (hspares : Spares w w') :
    h.Ready command params paths w₀ w' where
  unrefused := hspares.verdict ▸ hw.unrefused
  clears path hpath := (hw.clears path hpath).next hspares.used hspares.verdict
  own i hi := (hspares.own i hi).trans (hw.own i hi)
  links dir name := (hspares.links dir name).trans (hw.links dir name)

theorem Cleared.next (hw : h.Cleared command params paths w₀ w) (hused : w'.used = w.used)
    (hverdict : w'.verdict = w.verdict)
    (hown : ∀ i, Protected i → w'.disk.node i = w.disk.node i) : h.Cleared command params paths w₀ w' where
  unrefused := hverdict ▸ hw.unrefused
  clears path hpath := (hw.clears path hpath).next hused hverdict
  touched i hi hchanged := hw.touched i hi (hown i hi ▸ hchanged)

end

/-- The clauses of a `try` that only answer. -/
def Answering (caught : Exc → Option Program) : Prop :=
  ∀ exc p, caught exc = some p → ∃ response, p = respond response

theorem answering_uncaught : Answering uncaught := by
  intro exc p hp
  cases hp

theorem answering_ioErrors (outside : Json) (failed : PyStr → Json) :
    Answering (ioErrors outside failed) := by
  intro exc p hp
  cases exc with
  | outOfBounds => exact ⟨_, (Option.some.inj hp).symm⟩
  | fileNotFound text => exact ⟨_, (Option.some.inj hp).symm⟩
  | osError errno text => exact ⟨_, (Option.some.inj hp).symm⟩
  | _ => cases hp

theorem answering_storeErrors (failed : PyStr → Json) : Answering (storeErrors failed) := by
  intro exc p hp
  cases exc with
  | backupStore text => exact ⟨_, (Option.some.inj hp).symm⟩
  | _ => cases hp

section
variable [Runtime] [Digest] [IsoFormat] {h} {command : PyStr} {params : Dict} {paths : List PyStr}
  {path : PyStr} {w₀ w w' : World} {result : Checked}

theorem fileEffect_spares (houtside : h.Outside) {op : FileOp} (hop : Harmless op) {w w' : World}
    {ans : Except Exc op.Value} (heffect : h.fileEffect op w ans w') : Spares w w' := by
  have hstore : ∀ i, h.storePlace i → ¬ Protected i := fun i hi => houtside i (.inl hi)
  cases op with
  | resolveSafe path => exact heffect.1 ▸ .refl w
  | exists_ path => exact heffect.1 ▸ .refl w
  | readBytesSafe path missingOk => exact heffect.1 ▸ .refl w
  | atomicWriteSafe path data => exact hop.elim
  | replaceSafe src dst => exact hop.elim
  | getStore => exact heffect.1.spares hstore
  | capture path priorBytes proposalId op actor => exact heffect.1.spares hstore
  | resolveVersion path sel => exact heffect.1 ▸ .refl w
  | fetchObject sha256 => exact heffect.1 ▸ .refl w
  | renameHistory src dst => exact heffect.1.spares hstore
  | trashFile path => exact hop.elim
  | purgeTrashEntriesFor path => exact hop.elim

/-! ## Programs -/

variable (h) in
/-- Every run of the program is judged. -/
abbrev Holds (command : PyStr) (params : Dict) (paths : List PyStr) (w₀ : World) (p : Program)
    (w : World) : Prop :=
  Wp h.effect (h.Judged command params paths w₀) p w

/-- One call: what it answers is handled, and where it raises the handler ends. -/
theorem holds_attempt {op : FileOp} {caught : Exc → Option Program} {k : op.Value → Program}
    (hok : ∀ value w', h.fileEffect op w (.ok value) w' → h.Holds command params paths w₀ (k value) w')
    (hcaught : ∀ exc p w', h.fileEffect op w (.error exc) w' → caught exc = some p →
      h.Holds command params paths w₀ p w')
    (hraised : ∀ exc w', h.fileEffect op w (.error exc) w' →
      h.Judged command params paths w₀ (.error exc) w') :
    h.Holds command params paths w₀ (attempt op caught k) w := by
  intro ans w' heffect
  cases ans with
  | ok value => exact hok value w' heffect
  | error exc =>
    show Wp _ _ ((caught exc).getD (raise exc)) w'
    cases hclause : caught exc with
    | none => exact hraised exc w' heffect
    | some p => exact hcaught exc p w' heffect hclause

/-- A harmless call of a handler that has touched nothing yet. -/
theorem Ready.attempt (hready : h.Ready command params paths w₀ w) (houtside : h.Outside) {op : FileOp}
    (hop : Harmless op) {caught : Exc → Option Program} {k : op.Value → Program}
    (hanswering : Answering caught)
    (hok : ∀ value w', h.fileEffect op w (.ok value) w' → Spares w w' →
      h.Ready command params paths w₀ w' → h.Holds command params paths w₀ (k value) w') :
    h.Holds command params paths w₀ (attempt op caught k) w := by
  have hnext : ∀ ans w', h.fileEffect op w ans w' → Spares w w' :=
    fun ans w' heffect => fileEffect_spares houtside hop heffect
  apply holds_attempt
  · intro value w' heffect
    exact hok value w' heffect (hnext _ w' heffect) (hready.next (hnext _ w' heffect))
  · intro exc p w' heffect hclause
    obtain ⟨response, rfl⟩ := hanswering exc p hclause
    exact (hready.next (hnext _ w' heffect)).cleared.judged _
  · intro exc w' heffect
    exact (hready.next (hnext _ w' heffect)).cleared.judged _

/-- A call that leaves the handler behind its checks. -/
theorem holds_cleared {op : FileOp} {caught : Exc → Option Program} {k : op.Value → Program}
    (hanswering : Answering caught)
    (hnext : ∀ ans w', h.fileEffect op w ans w' → h.Cleared command params paths w₀ w')
    (hok : ∀ value w', h.Cleared command params paths w₀ w' →
      h.Holds command params paths w₀ (k value) w') :
    h.Holds command params paths w₀ (attempt op caught k) w := by
  apply holds_attempt
  · intro value w' heffect
    exact hok value w' (hnext _ w' heffect)
  · intro exc p w' heffect hclause
    obtain ⟨response, rfl⟩ := hanswering exc p hclause
    exact (hnext _ w' heffect).judged _
  · intro exc w' heffect
    exact (hnext _ w' heffect).judged _

/-! ## The checks -/

theorem holds_unlessDenied {needed : Bool} {k : Checked → Program}
    (hpending : h.Pending command params w₀ result w)
    (hk : ∀ result' w', h.Pending command params w₀ result' w' →
      (needed = true → h.Granted command params w₀ w') →
      (h.Granted command params w₀ w → h.Granted command params w₀ w') →
      h.Holds command params paths w₀ (k result') w') :
    h.Holds command params paths w₀ (unlessDenied command params needed result k) w := by
  unfold unlessDenied
  cases needed with
  | false => exact hk result w hpending (fun hneeded => by cases hneeded) id
  | true =>
    rw [if_pos rfl]
    unfold approved
    -- the gate is asked once, by whichever path needs it first
    rcases hpending.asked with ⟨rfl, hverdict, hused⟩ | ⟨rfl, hgranted⟩
    · rintro ans w' ⟨now, hans, rfl⟩
      rw [hused] at hans ⊢
      cases ans with
      | none =>
        have hgranted : h.Granted command params w₀ { w with
            used := (consumeApprovalMarker h.caller now w₀.used command [] params).used
            verdict := some (consumeApprovalMarker h.caller now w₀.used command [] params).refusal } :=
          ⟨congrArg some hans.symm, now, hans.symm, rfl⟩
        exact hk (some none) _ ⟨hpending.disk, hpending.store, .inr ⟨rfl, hgranted⟩⟩
          (fun _ => hgranted) (fun _ => hgranted)
      | some denied =>
        constructor
        · intro i _ hchanged
          exact absurd (congrArg (fun d : FileDisk => d.node i) hpending.disk) hchanged
        · intro other hother
          rw [← hans] at hother
          obtain rfl := Option.some.inj (Option.some.inj hother)
          exact ⟨rfl, hpending.disk, hpending.store⟩
    · exact hk (some none) w hpending (fun _ => hgranted) id

/-- The questions that the text of a path raises. -/
theorem holds_writePreflight {agentBridge : Bool} {k : Checked → Program}
    (hpending : h.Pending command params w₀ result w)
    (hk : ∀ result' w', h.Pending command params w₀ result' w' → isStorage path = false →
      (isProtected path = true → h.Granted command params w₀ w') →
      (h.Granted command params w₀ w → h.Granted command params w₀ w') →
      h.Holds command params paths w₀ (k result') w') :
    h.Holds command params paths w₀ (writePreflight command params path agentBridge result k) w := by
  unfold writePreflight
  cases hstorage : isStorage path with
  | true => exact hpending.judged _
  | false =>
    apply holds_unlessDenied hpending
    intro result' w' hpending' hneeded hstays
    exact hk result' w' hpending' hstorage (fun hprotected => hneeded (by rw [hprotected]; rfl)) hstays

/-- The question that its real path raises. -/
theorem holds_resolveTarget {k : PurePath → Checked → Program}
    (hpending : h.Pending command params w₀ result w)
    (hk : ∀ resolved result' w', h.Pending command params w₀ result' w' →
      h.ResolvesSafe w₀.disk path resolved →
      (isProtected resolved.str = true → h.Granted command params w₀ w') →
      (h.Granted command params w₀ w → h.Granted command params w₀ w') →
      h.Holds command params paths w₀ (k resolved result') w') :
    h.Holds command params paths w₀ (resolveTarget command params path result k) w := by
  unfold resolveTarget resolveWriteTarget
  apply holds_attempt
  · rintro resolved w' ⟨rfl, hresolved⟩
    apply holds_unlessDenied hpending
    intro result' w' hpending' hneeded hstays
    exact hk resolved result' w' hpending' (hpending.disk ▸ hresolved resolved rfl) hneeded hstays
  · rintro exc p w' ⟨rfl, -⟩ hclause
    cases exc with
    | noAllowedRoots => exact Option.some.inj hclause ▸ hpending.judged _
    | outOfBounds => exact Option.some.inj hclause ▸ hpending.judged _
    | _ => cases hclause
  · rintro exc w' ⟨rfl, -⟩
    exact hpending.judged _

/-! ## Writes -/

/-- The path was read, and what lies there is no link. -/
def Plain (d : FileDisk) (path : PyStr) : Prop :=
  ∀ dir name, Located path (dir ++ [name]) → d.link? dir name = none

omit [Runtime] [Digest] [IsoFormat] in
theorem RealRoots.of_links {d d' : FileDisk} (hroots : h.RealRoots d)
    (hlinks : ∀ dir name, d'.link? dir name = d.link? dir name) : h.RealRoots d' := by
  intro root hroot
  refine ⟨(hroots root hroot).1, fun i hi dir name more heq => ?_⟩
  rw [hlinks]
  exact (hroots root hroot).2 i hi dir name more heq

omit [Runtime] [Digest] [IsoFormat] in
theorem plain_of_read {d : FileDisk} {missingOk : Bool} {data : Bytes} (hroots : h.RealRoots d)
    (hread : h.ReadsBytes d path missingOk (.ok data)) : Plain d path :=
  fun _ _ hlocated => read_straight hroots hread hlocated

omit [Runtime] [Digest] [IsoFormat] in
theorem plain_of_missing {d : FileDisk} {missingOk : Bool} {text : PyStr} (hroots : h.RealRoots d)
    (hread : h.ReadsBytes d path missingOk (.error (.fileNotFound text))) : Plain d path :=
  fun _ _ hlocated => Disk.link?_of_missing (missing_located hroots hread.2 hlocated)

omit [Digest] [IsoFormat] in
/-- What was read behind the checks was no link when the handler began. -/
theorem Ready.plain (hready : h.Ready command params paths w₀ w) (hroots : h.RealRoots w₀.disk)
    {missingOk : Bool} {data : Bytes} (hread : h.ReadsBytes w.disk path missingOk (.ok data)) :
    Plain w₀.disk path := by
  intro dir name hlocated
  rw [← hready.links]
  exact plain_of_read (hroots.of_links hready.links) hread dir name hlocated

omit [Digest] [IsoFormat] in
/-- The directory that a write finds is where the path says, behind no link. -/
theorem Ready.parentDir (hready : h.Ready command params paths w₀ w) (hroots : h.RealRoots w₀.disk)
    {dir : List Bytes} {name : Bytes} (hparent : h.ParentDir w.disk path dir name) :
    Located path (dir ++ [name]) ∧ w₀.disk.Straight dir := by
  obtain ⟨hlocated, hstraight⟩ := hparent.located (hroots.of_links hready.links)
  refine ⟨hlocated, fun dir' name' more heq => ?_⟩
  rw [← hready.links]
  exact hstraight dir' name' more heq

omit [Digest] [IsoFormat] in
theorem Ready.touch (hready : h.Ready command params paths w₀ w) (hused : w'.used = w.used)
    (hverdict : w'.verdict = w.verdict)
    (htouched : ∀ i, Protected i → w'.disk.node i ≠ w.disk.node i → ∃ path ∈ paths, Touches w₀.disk path i) :
    h.Cleared command params paths w₀ w' where
  unrefused := hverdict ▸ hready.unrefused
  clears path hpath := (hready.clears path hpath).next hused hverdict
  touched i hi hchanged := htouched i hi (hready.own i hi ▸ hchanged)

theorem Ready.write (hready : h.Ready command params paths w₀ w) (hroots : h.RealRoots w₀.disk)
    (hpath : path ∈ paths) (hplain : Plain w₀.disk path) {data : Bytes} {ans : Except Exc Unit}
    (heffect : h.fileEffect (.atomicWriteSafe path data) w ans w') :
    h.Cleared command params paths w₀ w' := by
  obtain ⟨honly, hwrites⟩ := heffect
  apply hready.touch honly.used honly.verdict
  intro i hi hchanged
  refine ⟨path, hpath, ?_⟩
  cases ans with
  | ok _ =>
    obtain ⟨dir, name, hparent, -, hnode⟩ := hwrites
    obtain ⟨hlocated, hstraight⟩ := hready.parentDir hroots hparent
    have heq : i = dir ++ [name] := by
      by_contra hne
      rw [hnode, Disk.put, Function.update_of_ne hne] at hchanged
      exact hchanged rfl
    exact ⟨dir, name, hlocated, .inl ⟨heq, .inl (heq ▸ hstraight.concat (hplain dir name hlocated))⟩⟩
  | error exc =>
    rcases hwrites with hsame | ⟨dir, name, tmp, part, hparent, htemporary, -, hnode⟩
    · rw [hsame] at hchanged
      exact absurd rfl hchanged
    · obtain ⟨hlocated, hstraight⟩ := hready.parentDir hroots hparent
      have heq : i = dir ++ [tmp] := by
        by_contra hne
        rw [hnode, Disk.put, Function.update_of_ne hne] at hchanged
        exact hchanged rfl
      exact ⟨dir, name, hlocated, .inr ⟨tmp, htemporary, heq,
        hstraight.concat (hplain dir name hlocated)⟩⟩

/-- A file lies there. -/
def Filed (d : FileDisk) (path : PyStr) : Prop :=
  ∀ i, Located path i → d.node i ≠ none ∧ ¬ d.IsDirectory i

omit [Runtime] [Digest] [IsoFormat] in
theorem read_file {d : FileDisk} {data : Bytes} (hroots : h.RealRoots d)
    (hread : h.ReadsBytes d path false (.ok data)) :
    ∃ i, (h.kernel d).openSafeFd path h.roots false = .ok i ∧ Located path i ∧ d.Straight i ∧
      d.node i ≠ none ∧ ¬ d.IsDirectory i := by
  rcases hread with ⟨i, hopen, hnode⟩ | ⟨hfalse, -⟩
  · obtain ⟨hlocated, hstraight⟩ := opened_located hroots hopen
    refine ⟨i, hopen, hlocated, hstraight, ?_⟩
    rcases hnode with hnode | hnode <;> simp [Disk.IsDirectory, hnode]
  · cases hfalse

omit [Runtime] [Digest] [IsoFormat] in
theorem filed_of_read {d : FileDisk} {data : Bytes} (hroots : h.RealRoots d)
    (hread : h.ReadsBytes d path false (.ok data)) : Filed d path := by
  obtain ⟨i, -, hlocated, -, hthere, hfile⟩ := read_file hroots hread
  intro j hj
  obtain rfl := hlocated.unique hj
  exact ⟨hthere, hfile⟩

omit [Runtime] [Digest] [IsoFormat] in
/-- A file cannot become a directory while the store does its work. -/
theorem Filed.next {d : FileDisk} (hfiled : Filed d path)
    (hkind : ∀ i, d.node i ≠ none → w.disk.IsDirectory i → d.IsDirectory i) {i : List Bytes}
    (hi : Located path i) : ¬ w.disk.IsDirectory i :=
  fun hdir => (hfiled i hi).2 (hkind i (hfiled i hi).1 hdir)

omit [Runtime] [Digest] [IsoFormat] in
/-- Nothing lies below what is no directory. -/
theorem node_below {d : FileDisk} {i j : List Bytes} (hi : ¬ d.IsDirectory i) (hj : j ≠ []) :
    d.node (i ++ j) = none := by
  by_contra hnode
  obtain ⟨name, more, rfl⟩ := List.exists_cons_of_ne_nil hj
  exact hi (Disk.isDirectory_of_append hnode)

omit [Runtime] [Digest] [IsoFormat] in
/-- A file moves alone. -/
theorem move_file {d : FileDisk} {src dst i : List Bytes} (hsrc : ¬ d.IsDirectory src)
    (hdst : ¬ d.IsDirectory dst) (hchanged : d.move src dst i ≠ d.node i) : i = src ∨ i = dst := by
  unfold Disk.move at hchanged
  split_ifs at hchanged with hsame hbelow hbelow
  · exact absurd rfl hchanged
  · obtain ⟨rest, rfl⟩ := hbelow
    by_cases hrest : rest = []
    · right
      rw [hrest, List.append_nil]
    · rw [List.drop_left, node_below hsrc hrest, node_below hdst hrest] at hchanged
      exact absurd rfl hchanged
  · obtain ⟨rest, rfl⟩ := hbelow
    by_cases hrest : rest = []
    · left
      rw [hrest, List.append_nil]
    · rw [node_below hsrc hrest] at hchanged
      exact absurd rfl hchanged
  · exact absurd rfl hchanged

theorem Ready.replace (hready : h.Ready command params paths w₀ w) (hroots : h.RealRoots w₀.disk)
    {src dst : PyStr} (hsrc : src ∈ paths) (hdst : dst ∈ paths) (hplain : Plain w₀.disk src)
    (hfile : ∀ i, Located src i → ¬ w.disk.IsDirectory i) {ans : Except Exc Unit}
    (heffect : h.fileEffect (.replaceSafe src dst) w ans w') :
    h.Cleared command params paths w₀ w' := by
  obtain ⟨honly, hreplaces⟩ := heffect
  apply hready.touch honly.used honly.verdict
  intro i hi hchanged
  cases ans with
  | error exc => exact absurd (congrFun hreplaces i) hchanged
  | ok _ =>
    obtain ⟨srcDir, srcName, dstDir, dstName, hsrcParent, hdstParent, -, hkind, hnode⟩ := hreplaces
    obtain ⟨hsrcLocated, hsrcStraight⟩ := hready.parentDir hroots hsrcParent
    obtain ⟨hdstLocated, hdstStraight⟩ := hready.parentDir hroots hdstParent
    have hsrcFile := hfile _ hsrcLocated
    have hdstFile : ¬ w.disk.IsDirectory (dstDir ++ [dstName]) := by
      intro hdir
      obtain ⟨searchable, hdirectory⟩ := hdir
      have hthere : w.disk.node (dstDir ++ [dstName]) ≠ none := by
        rw [hdirectory]
        exact Option.some_ne_none _
      exact hsrcFile ((hkind hthere).mpr ⟨searchable, hdirectory⟩)
    rw [hnode] at hchanged
    rcases move_file hsrcFile hdstFile hchanged with rfl | rfl
    · have hstraight := hsrcStraight.concat (hplain srcDir srcName hsrcLocated)
      exact ⟨src, hsrc, srcDir, srcName, hsrcLocated, .inl ⟨rfl, .inl hstraight⟩⟩
    · refine ⟨dst, hdst, dstDir, dstName, hdstLocated, .inl ⟨rfl, ?_⟩⟩
      -- a link at the destination is replaced, not followed
      cases hlink : w₀.disk.link? dstDir dstName with
      | none => exact .inl (hdstStraight.concat hlink)
      | some target => exact .inr ⟨target.1, target.2, Disk.node_of_link? hlink⟩

omit [Runtime] [Digest] [IsoFormat] in
/-- A real path that is trashed is trashed where it lies. -/
theorem trashes_located {d d' : FileDisk} {resolved : PurePath} {dir : List Bytes} {name : Bytes}
    (hresolved : Encoded resolved.tail (dir ++ [name])) (hup : py ".." ∉ resolved.tail)
    (hstraight : d.Straight (dir ++ [name])) (htrashes : h.Trashes d resolved d') :
    ∀ i, ¬ h.trashPlace i → d'.node i = d.node i ∨ (dir ++ [name] <+: i ∧ d'.node i = none) := by
  obtain ⟨dir', name', hleads, hname, htrashed⟩ := htrashes
  obtain ⟨names, rest, hinit, hlast, hsplit⟩ : ∃ names rest, Encoded (parentOf resolved).tail names ∧
      Encoded [resolved.name] rest ∧ dir ++ [name] = names ++ rest := by
    apply encoded_append
    rw [← parentOf_tail]
    · exact hresolved
    · apply name_ne_nil
      intro hnil
      rw [hnil] at hresolved
      exact List.append_ne_nil_of_right_ne_nil dir (List.cons_ne_nil name [])
        (List.forall₂_nil_left_iff.mp hresolved)
  cases hlast with
  | cons hlast hnil =>
    cases hnil
    obtain ⟨rfl, hnames⟩ := List.append_inj' hsplit rfl
    obtain rfl := (List.cons.inj hnames).1
    obtain rfl := Option.some.inj (hlast.symm.trans hname)
    have hparent : Leads d (parentOf resolved) dir :=
      leads_encoded (fun hmem => hup (List.dropLast_subset _ hmem)) hinit hstraight.of_append
    obtain rfl := hparent.unique hleads
    exact htrashed

theorem Ready.trash (hready : h.Ready command params paths w₀ w) (houtside : h.Outside) (hpath : path ∈ paths) {resolved : PurePath}
    (hresolved : h.ResolvesSafe w₀.disk path resolved) {dir : List Bytes} {name : Bytes}
    (hlocated : Located path (dir ++ [name])) (hstraight : w₀.disk.Straight (dir ++ [name]))
    (hfile : ¬ w₀.disk.IsDirectory (dir ++ [name])) {ans : Except Exc PyStr}
    (heffect : h.fileEffect (.trashFile resolved) w ans w') :
    h.Cleared command params paths w₀ w' := by
  obtain ⟨honly, htrashes⟩ := heffect
  obtain ⟨-, -, hup, hleads, -⟩ := hresolved
  have hencoded := hleads _ (hlocated.leads hstraight)
  have hnow : w.disk.Straight (dir ++ [name]) := fun dir' name' more heq => by
    rw [hready.links]
    exact hstraight dir' name' more heq
  apply hready.touch honly.used honly.verdict
  intro i hi hchanged
  rcases trashes_located hencoded hup hnow htrashes i (fun hplace => houtside i (.inr hplace) hi)
    with hsame | ⟨⟨rest, rfl⟩, hgone⟩
  · exact absurd hsame hchanged
  · by_cases hrest : rest = []
    · subst hrest
      rw [List.append_nil]
      exact ⟨path, hpath, dir, name, hlocated, .inl ⟨rfl, .inl hstraight⟩⟩
    · rw [hready.own _ hi, node_below hfile hrest] at hchanged
      exact absurd hgone hchanged

/-! ## The handlers -/

omit [Digest] [IsoFormat] in
theorem pending_start (hask : w₀.verdict = none) : h.Pending command params w₀ none w₀ :=
  ⟨rfl, rfl, .inl ⟨rfl, hask, rfl⟩⟩

omit [Digest] [IsoFormat] in
theorem Pending.ready (hpending : h.Pending command params w₀ result w)
    (hclears : ∀ path ∈ paths, h.Clears command params w₀ w path) :
    h.Ready command params paths w₀ w where
  unrefused denied hdenied := by
    rcases hpending.asked with ⟨-, hverdict, -⟩ | ⟨-, hgranted⟩
    · rw [hverdict] at hdenied
      cases hdenied
    · rw [hgranted.verdict] at hdenied
      cases hdenied
  clears := hclears
  own i _ := by rw [hpending.disk]
  links dir name := by rw [hpending.disk]

theorem holds_withKeys {allowed : List PyStr} {k : Program} (hask : w₀.verdict = none)
    (hk : h.Holds command params paths w₀ k w₀) :
    h.Holds command params paths w₀ (withKeys allowed params k) w₀ := by
  unfold withKeys
  split
  · exact (pending_start hask).judged _
  · exact hk

theorem holds_decodeContent {content encoding : PyStr} {k : Bytes → Program}
    (hready : h.Ready command params paths w₀ w)
    (hk : ∀ data, h.Holds command params paths w₀ (k data) w) :
    h.Holds command params paths w₀ (decodeContent content encoding k) w := by
  unfold decodeContent
  split
  · split
    · exact hready.cleared.judged _
    · exact hk _
  · split
    · split
      · exact hready.cleared.judged _
      · exact hk _
    · exact hready.cleared.judged _

theorem Ready.writeFile (hready : h.Ready command params paths w₀ w) (hroots : h.RealRoots w₀.disk)
    (hpath : path ∈ paths) (hplain : Plain w₀.disk path) (content : Bytes) (proposalId : PyStr) :
    h.Holds command params paths w₀ (writeFile path content proposalId) w := by
  apply holds_cleared (answering_ioErrors _ _)
  · intro ans w' heffect
    exact hready.write hroots hpath hplain heffect
  · intro _ w' hcleared
    exact hcleared.judged _

/-- The checks of a command with one path. -/
theorem holds_checked {agentBridge : Bool} {k : PurePath → Checked → Program} (hask : w₀.verdict = none)
    (hk : ∀ resolved result w, w.disk = w₀.disk → h.ResolvesSafe w₀.disk path resolved →
      h.Ready command params [path] w₀ w → h.Holds command params [path] w₀ (k resolved result) w) :
    h.Holds command params [path] w₀ (writePreflight command params path agentBridge none fun result =>
      resolveTarget command params path result k) w₀ := by
  apply holds_writePreflight (pending_start hask)
  intro result w hpending hstorage hraw _
  apply holds_resolveTarget hpending
  intro resolved result' w' hpending' hresolved hprotected hstays
  apply hk resolved result' w' hpending'.disk hresolved
  apply hpending'.ready
  intro path' hpath
  obtain rfl := List.mem_singleton.mp hpath
  exact ⟨hstorage, fun h => hstays (hraw h), resolved, hresolved, hprotected⟩

theorem holds_write (hroots : h.RealRoots w₀.disk) (houtside : h.Outside) (hask : w₀.verdict = none) :
    h.Holds (py "fs.write") params [textOr params "path" ""] w₀ (handleFsWrite params) w₀ := by
  unfold handleFsWrite
  apply holds_withKeys hask
  dsimp only
  generalize textOr params "path" "" = path
  split
  · exact (pending_start hask).judged _
  · split
    · exact (pending_start hask).judged _
    · apply holds_checked hask
      intro _ _ w hdisk _ hready
      apply holds_decodeContent hready
      intro content
      split
      · exact hready.cleared.judged _
      · -- nothing has touched the disk yet, so what is read is what was there at the start
        rw [← hdisk] at hroots
        apply holds_attempt
        · rintro priorBytes w' ⟨rfl, hread⟩
          -- a file that was there is captured first
          have hplain := plain_of_read hroots hread
          apply hready.attempt houtside (by exact trivial) answering_uncaught
          intro _ w₁ _ _ hready₁
          apply hready₁.attempt houtside (by exact trivial) (answering_storeErrors _)
          intro _ w₂ _ _ hready₂
          rw [hdisk] at hroots hplain
          exact hready₂.writeFile hroots List.mem_cons_self hplain _ _
        · rintro exc p w' ⟨rfl, hread⟩ hclause
          cases exc with
          | fileNotFound text =>
            -- a fresh file is written without a capture
            obtain rfl := Option.some.inj hclause
            have hplain := plain_of_missing hroots hread
            apply hready.attempt houtside (by exact trivial) answering_uncaught
            intro _ w₁ _ _ hready₁
            rw [hdisk] at hroots hplain
            exact hready₁.writeFile hroots List.mem_cons_self hplain _ _
          | _ =>
            obtain ⟨response, rfl⟩ := answering_ioErrors _ _ _ p hclause
            exact hready.cleared.judged _
        · rintro exc w' ⟨rfl, -⟩
          exact hready.cleared.judged _

theorem holds_restoreSelector {k : BackupStore.Selector → Program}
    (hready : h.Ready command params paths w₀ w)
    (hk : ∀ sel, h.Holds command params paths w₀ (k sel) w) :
    h.Holds command params paths w₀ (restoreSelector params k) w := by
  unfold restoreSelector
  dsimp only
  split
  · split
    · exact hready.cleared.judged _
    · exact hk _
  · split
    · exact hready.cleared.judged _
    · exact hready.cleared.judged _
    · split
      · exact hready.cleared.judged _
      · exact hk _

theorem holds_restore (hroots : h.RealRoots w₀.disk) (houtside : h.Outside) (hask : w₀.verdict = none) :
    h.Holds (py "fs.restore") params [textOr params "path" ""] w₀ (handleFsRestore params) w₀ := by
  unfold handleFsRestore
  apply holds_withKeys hask
  dsimp only
  generalize textOr params "path" "" = path
  split
  · exact (pending_start hask).judged _
  · apply holds_checked hask
    intro _ _ w _ _ hready
    apply hready.attempt houtside (by exact trivial) answering_uncaught
    intro _ w₁ _ _ hready₁
    apply holds_restoreSelector hready₁
    intro sel
    refine hready₁.attempt houtside (by exact trivial) ?_ ?_
    · intro exc p hp
      cases exc with
      | backupStore text => exact ⟨_, (Option.some.inj hp).symm⟩
      | valueError text => exact ⟨_, (Option.some.inj hp).symm⟩
      | _ => cases hp
    · intro stored w₂ _ _ hready₂
      apply hready₂.attempt houtside (by exact trivial) (answering_storeErrors _)
      intro restoreBytes w₃ _ _ hready₃
      apply hready₃.attempt houtside (by exact trivial) (answering_ioErrors _ _)
      intro priorBytes w₄ hread hspares hready₄
      -- the store has changed its own files since the start, and no link
      have hplain := hready₃.plain hroots hread.2
      apply hready₄.attempt houtside (by exact trivial) (answering_storeErrors _)
      intro _ w₅ _ _ hready₅
      apply holds_cleared (answering_ioErrors _ _)
      · intro ans w₆ heffect
        exact hready₅.write hroots List.mem_cons_self hplain heffect
      · intro _ w₆ hcleared
        apply holds_cleared answering_uncaught
        · -- a link of the trash may go
          intro ans w₇ heffect
          exact hcleared.next heffect.1.used heffect.1.verdict fun i hi =>
            heffect.1.own i fun hplace => houtside i (.inr hplace) hi
        · intro purged w₇ hcleared₇
          exact hcleared₇.judged _

theorem holds_runPatch {original : Bytes} {patchText : PyStr} {k : Bytes → Nat → Program}
    (hready : h.Ready command params paths w₀ w)
    (hk : ∀ patched hunks, h.Holds command params paths w₀ (k patched hunks) w) :
    h.Holds command params paths w₀ (runPatch original patchText k) w := by
  unfold runPatch
  split
  · exact hready.cleared.judged _
  · exact hready.cleared.judged _
  · exact hready.cleared.judged _
  · exact hk _ _

theorem holds_patch (hroots : h.RealRoots w₀.disk) (houtside : h.Outside) (hask : w₀.verdict = none) :
    h.Holds (py "fs.patch") params [textOr params "path" ""] w₀ (handleFsPatch params) w₀ := by
  unfold handleFsPatch
  apply holds_withKeys hask
  dsimp only
  generalize textOr params "path" "" = path
  split
  · exact (pending_start hask).judged _
  · split
    · exact (pending_start hask).judged _
    · split
      · exact (pending_start hask).judged _
      · split
        · exact (pending_start hask).judged _
        · apply holds_checked hask
          intro _ _ w _ _ hready
          refine hready.attempt houtside (by exact trivial) ?_ ?_
          · intro exc p hp
            cases exc with
            | fileNotFound text => exact ⟨_, (Option.some.inj hp).symm⟩
            | _ => exact answering_ioErrors _ _ _ p hp
          -- the path was read, so what the write replaces there is no link
          · intro original w₁ hread _ hready₁
            have hplain := hready.plain hroots hread.2
            apply holds_runPatch hready₁
            intro patched hunks
            split
            · exact hready₁.cleared.judged _
            · split
              · exact hready₁.cleared.judged _
              · apply hready₁.attempt houtside (by exact trivial) answering_uncaught
                intro _ w₂ _ _ hready₂
                apply hready₂.attempt houtside (by exact trivial) (answering_storeErrors _)
                intro _ w₃ _ _ hready₃
                apply holds_cleared (answering_ioErrors _ _)
                · intro ans w₄ heffect
                  exact hready₃.write hroots List.mem_cons_self hplain heffect
                · intro _ w₄ hcleared
                  exact hcleared.judged _

theorem Ready.moveFile {src dst : PyStr} (hready : h.Ready command params [src, dst] w₀ w)
    (hroots : h.RealRoots w₀.disk) (houtside : h.Outside) (hplain : Plain w₀.disk src)
    (hfile : ∀ i, Located src i → ¬ w.disk.IsDirectory i) (size : Nat) :
    h.Holds command params [src, dst] w₀ (moveFile src dst size) w := by
  unfold FsMutations.moveFile
  refine holds_cleared ?_ ?_ ?_
  · intro exc p hp
    cases exc with
    | outOfBounds => exact ⟨_, (Option.some.inj hp).symm⟩
    | fileNotFound text => exact ⟨_, (Option.some.inj hp).symm⟩
    | osError errno text =>
      dsimp only at hp
      split at hp
      · exact ⟨_, (Option.some.inj hp).symm⟩
      · exact ⟨_, (Option.some.inj hp).symm⟩
    | _ => cases hp
  · intro ans w' heffect
    exact hready.replace hroots List.mem_cons_self (List.mem_cons_of_mem _ List.mem_cons_self) hplain
      hfile heffect
  -- the history goes along, which only the store sees
  · intro _ w' hcleared
    refine holds_cleared ?_ ?_ ?_
    · intro exc p hp
      cases exc with
      | backupStore text => exact ⟨_, (Option.some.inj hp).symm⟩
      | _ => cases hp
    · intro ans w'' heffect
      have hspares := fileEffect_spares houtside (by exact trivial) heffect
      exact hcleared.next hspares.used hspares.verdict hspares.own
    · intro historyMoved w'' hcleared'
      exact hcleared'.judged _

theorem Ready.captureAndMove {src dst : PyStr} (hready : h.Ready command params [src, dst] w₀ w)
    (hroots : h.RealRoots w₀.disk) (houtside : h.Outside) (proposalId actor : PyStr)
    (dstExists : Bool) :
    h.Holds command params [src, dst] w₀ (captureAndMove src dst proposalId actor dstExists) w := by
  have hsource : ∀ w₁, h.Ready command params [src, dst] w₀ w₁ → h.Holds command params [src, dst] w₀
      (FsMutations.attempt (.readBytesSafe src false)
        (ioErrors (pathNotAllowed src) fun text =>
          HaClient.error "READ_ERROR" (py "Cannot read source: " ++ text)) fun srcBytes =>
      FsMutations.attempt (.capture src srcBytes proposalId .moveSrc actor)
        (storeErrors (backupError "Backup capture of source failed; move aborted")) fun _ =>
      FsMutations.moveFile src dst (List.length srcBytes)) w₁ := by
    intro w₁ hready₁
    apply hready₁.attempt houtside (by exact trivial) (answering_ioErrors _ _)
    rintro srcBytes w₂ ⟨rfl, hread⟩ _ _
    have hnow := hroots.of_links hready₁.links
    have hplain := hready₁.plain hroots hread
    apply hready₁.attempt houtside (by exact trivial) (answering_storeErrors _)
    intro _ w₃ _ hspares hready₃
    exact hready₃.moveFile hroots houtside hplain
      (fun i hi => (filed_of_read hnow hread).next hspares.kind hi) _
  unfold FsMutations.captureAndMove
  dsimp only
  split
  · apply hready.attempt houtside (by exact trivial) (answering_ioErrors _ _)
    intro dstPrior w₁ _ _ hready₁
    apply hready₁.attempt houtside (by exact trivial) (answering_storeErrors _)
    intro _ w₂ _ _ hready₂
    exact hsource w₂ hready₂
  · exact hsource w hready

theorem holds_move (hroots : h.RealRoots w₀.disk) (houtside : h.Outside) (hask : w₀.verdict = none) :
    h.Holds (py "fs.move") params [textOr params "src" "", textOr params "dst" ""] w₀
      (handleFsMove params) w₀ := by
  unfold handleFsMove
  apply holds_withKeys hask
  dsimp only
  generalize textOr params "src" "" = src
  generalize textOr params "dst" "" = dst
  split
  · exact (pending_start hask).judged _
  · split
    · exact (pending_start hask).judged _
    · apply holds_writePreflight (pending_start hask)
      intro result₁ w₁ hpending₁ hsrcStorage hsrcRaw _
      apply holds_writePreflight hpending₁
      intro result₂ w₂ hpending₂ hdstStorage hdstRaw hstays₂
      apply holds_resolveTarget hpending₂
      intro srcResolved result₃ w₃ hpending₃ hsrcResolves hsrcProtected hstays₃
      apply holds_resolveTarget hpending₃
      intro dstResolved result₄ w₄ hpending₄ hdstResolves hdstProtected hstays₄
      have hready : h.Ready (py "fs.move") params [src, dst] w₀ w₄ := by
        apply hpending₄.ready
        intro path hpath
        rw [List.mem_cons, List.mem_singleton] at hpath
        rcases hpath with rfl | rfl
        · exact ⟨hsrcStorage, fun h => hstays₄ (hstays₃ (hstays₂ (hsrcRaw h))), srcResolved,
            hsrcResolves, fun h => hstays₄ (hsrcProtected h)⟩
        · exact ⟨hdstStorage, fun h => hstays₄ (hstays₃ (hdstRaw h)), dstResolved, hdstResolves,
            hdstProtected⟩
      -- both paths have raised both of their questions; from here on nothing asks again
      apply hready.attempt houtside (by exact trivial) answering_uncaught
      intro srcExists w₅ _ _ hready₅
      split
      · exact hready₅.cleared.judged _
      · split
        · exact hready₅.cleared.judged _
        · apply hready₅.attempt houtside (by exact trivial) answering_uncaught
          intro _ w₆ _ _ hready₆
          apply hready₆.attempt houtside (by exact trivial) answering_uncaught
          intro dstExists w₇ _ _ hready₇
          exact hready₇.captureAndMove hroots houtside _ _ dstExists

theorem holds_delete (hroots : h.RealRoots w₀.disk) (houtside : h.Outside) (hask : w₀.verdict = none) :
    h.Holds (py "fs.delete") params [textOr params "path" ""] w₀ (handleFsDelete params) w₀ := by
  unfold handleFsDelete
  apply holds_withKeys hask
  dsimp only
  generalize textOr params "path" "" = path
  split
  · exact (pending_start hask).judged _
  · apply holds_checked hask
    intro resolved _ w hdisk hresolved hready
    apply hready.attempt houtside (by exact trivial) answering_uncaught
    rintro pathExists w₁ ⟨rfl, -⟩ _ _
    split
    · exact hready.cleared.judged _
    · apply hready.attempt houtside (by exact trivial) (answering_ioErrors _ _)
      rintro priorBytes w₂ ⟨rfl, hread⟩ _ _
      rw [hdisk] at hread
      apply hready.attempt houtside (by exact trivial) answering_uncaught
      intro _ w₃ _ _ hready₃
      apply hready₃.attempt houtside (by exact trivial) (answering_storeErrors _)
      intro version w₄ _ _ hready₄
      refine holds_cleared ?_ ?_ ?_
      · intro exc p hp
        cases exc with
        | fileNotFound text => exact ⟨_, (Option.some.inj hp).symm⟩
        | osError errno text => exact ⟨_, (Option.some.inj hp).symm⟩
        | _ => cases hp
      · intro ans w₅ heffect
        -- the file that was read fixes where the trashed path lies
        obtain ⟨i, hopen, hlocated, hstraight, -, hfile⟩ := read_file hroots hread
        obtain ⟨dir, name, rfl⟩ := (List.eq_nil_or_concat' i).resolve_left (opened_ne_nil hopen hfile)
        exact hready₄.trash houtside List.mem_cons_self hresolved hlocated hstraight hfile heffect
      · intro trashedTo w₅ hcleared
        exact hcleared.judged _

/-- The paths that a file command writes by. -/
def pathsOf (command : PyStr) (params : Dict) : List PyStr :=
  if command = py "fs.move" then [textOr params "src" "", textOr params "dst" ""]
  else [textOr params "path" ""]

/-- Every run of a file command is judged. -/
theorem judged {handler : Handler} {ending : Except Exc Json} (hroots : h.RealRoots w₀.disk)
    (houtside : h.Outside) (hask : w₀.verdict = none) (hhandler : (command, handler) ∈ PreflightMirror.fileHandlers)
    (hrun : Runs h.effect (handler params) w₀ ending w) :
    h.Judged command params (pathsOf command params) w₀ ending w := by
  simp only [PreflightMirror.fileHandlers, List.mem_cons, Prod.mk.injEq, List.not_mem_nil, or_false] at hhandler
  rcases hhandler with ⟨rfl, rfl⟩ | ⟨rfl, rfl⟩ | ⟨rfl, rfl⟩ | ⟨rfl, rfl⟩ | ⟨rfl, rfl⟩
  · exact hrun.post (holds_write hroots houtside hask)
  · exact hrun.post (holds_restore hroots houtside hask)
  · exact hrun.post (holds_patch hroots houtside hask)
  · exact hrun.post (holds_move hroots houtside hask)
  · exact hrun.post (holds_delete hroots houtside hask)

omit [Digest] [IsoFormat] in
/-- What is touched under a protected root was granted, unless it was a link. -/
theorem Clears.granted {i : List Bytes} (hclears : h.Clears command params w₀ w path)
    (htouches : Touches w₀.disk path i) (hi : Protected i) : h.Granted command params w₀ w ∨
      ∃ absolute target, w₀.disk.node i = some (.symlink absolute target) := by
  obtain ⟨r, ⟨-, hanchor, -, hleads, -⟩, hgranted⟩ := hclears.resolved
  have hreal : ∀ j, Located path j → w₀.disk.Straight j → Protected j →
      h.Granted command params w₀ w := by
    intro j hj hstraight hprotected
    exact hgranted (isProtected_of_encoded hanchor (hleads j (hj.leads hstraight)) hprotected)
  obtain ⟨dir, name, hlocated, ⟨rfl, hstraight | hlink⟩ | ⟨tmp, htmp, rfl, hstraight⟩⟩ := htouches
  · exact .inl (hreal _ hlocated hstraight hi)
  · exact .inr hlink
  · exact .inl (hreal _ hlocated hstraight (.of_temporary htmp hi))

end

/-- What a run of a file command may do to the protected roots, and what a refusal means. -/
structure Gated [Runtime] (command : PyStr) (params : Dict) (w : World) (ending : Except Exc Json)
    (w' : World) : Prop where
  /-- An object changes only when the gate has let the call pass.  A link that leads nowhere is
  replaced by a move without asking. -/
  granted : ∀ i, Protected i → w'.disk.node i ≠ w.disk.node i → h.Granted command params w w' ∨
    ∃ absolute target, w.disk.node i = some (.symlink absolute target)
  refused : ∀ denied, w'.verdict = some (some denied) →
    ending = .ok denied ∧ w'.disk = w.disk ∧ w'.store = w.store

section
variable [Runtime] [Digest] [IsoFormat] {h} {command : PyStr} {params : Dict} {w w' : World}

/-- However a path is spelled and whatever links are on the disk, a file command changes nothing under
a protected root unless the approval gate has let it pass, and a refused one changes nothing at all. -/
theorem protected_roots_gated {handler : Handler} {ending : Except Exc Json}
    (hroots : h.RealRoots w.disk) (houtside : h.Outside) (hask : w.verdict = none)
    (hhandler : (command, handler) ∈ PreflightMirror.fileHandlers)
    (hrun : Runs h.effect (handler params) w ending w') : h.Gated command params w ending w' := by
  have hjudged := judged hroots houtside hask hhandler hrun
  constructor
  · intro i hi hchanged
    obtain ⟨path, -, hclears, htouches⟩ := hjudged.touched i hi hchanged
    exact hclears.granted htouches hi
  · exact hjudged.refused

/-- No file command changes `.storage` through a path that is spelled by its components, whatever the
approval gate says. -/
theorem storage_kept {handler : Handler} {ending : Except Exc Json} (hroots : h.RealRoots w.disk)
    (houtside : h.Outside) (hask : w.verdict = none) (hhandler : (command, handler) ∈ PreflightMirror.fileHandlers)
    (hspelled : ∀ path ∈ pathsOf command params, Spelled path)
    (hrun : Runs h.effect (handler params) w ending w') (i : List Bytes) (hi : Storage i) :
    w'.disk.node i = w.disk.node i := by
  by_contra hchanged
  obtain ⟨path, hpath, hclears, dir, name, hlocated, htouched⟩ :=
    (judged hroots houtside hask hhandler hrun).touched i hi.protected hchanged
  have hstorage : Storage (dir ++ [name]) := by
    rcases htouched with ⟨rfl, -⟩ | ⟨tmp, htmp, rfl, -⟩
    · exact hi
    · exact .of_temporary htmp hi
  have hseen := isStorage_of_located (hspelled path hpath) hlocated hstorage
  rw [hclears.storage] at hseen
  cases hseen

end

end Host

/-! ## One run -/

namespace GateSample

def writeParams : Dict :=
  [(py "path", .str (py "/config/a")), (py "content", .str (py "hi"))]

def writeMarker : Marker :=
  ⟨py "m1", 1060, py "dfc48d1a7e0ad1eb03e16d1c48d011a4263138fe91d1697fdbe3894c51586d72"⟩

/-- A write with its marker. -/
def writeCall : Dict :=
  writeParams ++ [(approvalParam, obj [("id", .str writeMarker.id), ("exp", .int writeMarker.exp),
    ("bind", .str writeMarker.bind)])]

scoped instance runtime : Runtime :=
  .ofTable [(approvalText (py "fs.write") [] writeParams, writeMarker.bind)]

theorem digest_printable : ∀ _ : List Nat, Printable [] := fun _ => printable_nil

scoped instance digest : Digest where
  sha256 _ := []
  printable := digest_printable

scoped instance isoFormat : IsoFormat := BackupStore.extendedFormat

def config : Bytes := (py "config").map Fin.val

def target : List Bytes := [config, [97]]

def storageDirectory : List Bytes := [config, (py ".storage").map Fin.val]

abbrev before : List (List Bytes × Node Bytes Bytes) :=
  [([], .directory true), ([config], .directory true), (storageDirectory, .directory true)]

abbrev after : List (List Bytes × Node Bytes Bytes) := (target, .file [104, 105]) :: before

theorem closed_before : Disk.closed before = true := by decide

theorem closed_after : Disk.closed after = true := by decide

/-- `/config` is a directory, and no link. -/
def mounted (d : FileDisk) : Bool :=
  (d.link? [] config).isNone &&
    match d.node [config] with
    | some (.directory _) => true
    | _ => false

theorem openRoot_mounted {d : FileDisk} {root : PurePath} {i : List Bytes}
    (h : (if root.tail = [py "config"] ∧ mounted d = true then Except.ok [config]
      else .error (OpenError.os (.other 5))) = .ok i) : Leads d root i ∧ d.IsDirectory i := by
  split_ifs at h with hroot
  obtain rfl := Except.ok.inj h
  obtain ⟨htail, hmounted⟩ := hroot
  unfold mounted at hmounted
  rw [Bool.and_eq_true, Option.isNone_iff_eq_none] at hmounted
  refine ⟨⟨[config], ?_, .down hmounted.1 (.done _)⟩, ?_⟩
  · rw [htail]
    exact .cons rfl .nil
  · have hdir := hmounted.2
    split at hdir
    · exact ⟨_, ‹_›⟩
    · cases hdir

/-- A host that allows `/config`. -/
def host : Host where
  roots := [PurePath.parse (py "/config")]
  caller := none
  sysOpenat2 := none
  machine := []
  hasOpenat2 := false
  openRoot d root :=
    if root.tail = [py "config"] ∧ mounted d = true then .ok [config] else .error (.os (.other 5))
  openRoot_ok := openRoot_mounted
  openRoot_missing := by
    intro d root i h
    split at h <;> cases h
  storePlace _ := False
  trashPlace _ := False
  room := 1000

def world : World := ⟨.ofEntries before closed_before, .empty, [], none⟩

/-- The marker is consumed. -/
def granted : World := ⟨.ofEntries before closed_before, .empty, [(writeMarker.id, writeMarker.exp)], some none⟩

def written : World :=
  ⟨.ofEntries after closed_after, .empty, [(writeMarker.id, writeMarker.exp)], some none⟩

theorem straight_before (i : List Bytes) : (Disk.ofEntries before closed_before).Straight i := by
  apply Disk.straight_of_no_links
  intro j absolute target hnode
  obtain ⟨front, back, hsplit, -⟩ := List.lookup_eq_some_iff.mp hnode
  have hmem : (j, Node.symlink absolute target) ∈ before := hsplit ▸ List.mem_append_right _ List.mem_cons_self
  simp at hmem

theorem consumed_write :
    (consumeApprovalMarker none 1000 [] (py "fs.write") [] writeCall).refusal = none ∧
      (consumeApprovalMarker none 1000 [] (py "fs.write") [] writeCall).used =
        [(writeMarker.id, writeMarker.exp)] := by
  decide +kernel

theorem effect_consume : host.effect (.consume (py "fs.write") [] writeCall) world none granted := by
  obtain ⟨hrefusal, hused⟩ := consumed_write
  refine ⟨1000, hrefusal.symm, ?_⟩
  show granted = { world with
    used := (consumeApprovalMarker none 1000 [] (py "fs.write") [] writeCall).used
    verdict := some (consumeApprovalMarker none 1000 [] (py "fs.write") [] writeCall).refusal }
  rw [hused, hrefusal]
  rfl

theorem effect_resolve : host.effect (.file (.resolveSafe (py "/config/a"))) granted
    (.ok (PurePath.parse (py "/config/a"))) granted := by
  refine ⟨rfl, fun resolved hresolved => ?_⟩
  obtain rfl := Except.ok.inj hresolved
  refine ⟨rfl, rfl, by decide, fun i hi => ?_, _, List.mem_cons_self, rfl⟩
  have htarget : Encoded (PurePath.parse (py "/config/a")).tail target := .cons rfl (.cons rfl .nil)
  obtain rfl := hi.unique (leads_encoded (by decide) htarget (straight_before _))
  exact htarget

theorem effect_read : host.effect (.file (.readBytesSafe (py "/config/a") false)) granted
    (.error (.fileNotFound [])) granted :=
  ⟨rfl, rfl, rfl⟩

theorem effect_store : host.effect (.file .getStore) granted (.ok ()) granted :=
  ⟨⟨⟨rfl, rfl, fun _ _ => rfl⟩, fun _ _ => rfl, fun _ _ hdir => hdir⟩, rfl⟩

theorem effect_write : host.effect (.file (.atomicWriteSafe (py "/config/a") [104, 105])) granted (.ok ())
    written := by
  refine ⟨⟨rfl, rfl, fun _ => rfl⟩, [config], [97], ⟨by decide, by decide, rfl, rfl⟩, ?_, ?_⟩
  · rintro ⟨searchable, hnode⟩
    cases hnode
  · funext i
    show List.lookup i after = Function.update (fun j => List.lookup j before) target _ i
    rw [List.lookup_cons, Function.update_apply]
    by_cases hi : i = target
    · rw [if_pos hi, beq_iff_eq.mpr hi]
    · rw [if_neg hi, beq_eq_false_iff_ne.mpr hi]

theorem run_write : ∃ ending, Runs host.effect (handleFsWrite writeCall) world ending written :=
  ⟨_, .call effect_consume (.call effect_resolve (.call effect_read (.call effect_store
    (.call effect_write (.ret _ _)))))⟩

theorem host_outside : host.Outside := by
  rintro i (hplace | hplace) <;> cases hplace

theorem host_roots : host.RealRoots world.disk := by
  intro root hroot
  obtain rfl := List.mem_singleton.mp hroot
  exact ⟨by decide, fun i _ => straight_before i⟩

theorem mem_write : (py "fs.write", handleFsWrite) ∈ PreflightMirror.fileHandlers := List.mem_cons_self

end GateSample

open GateSample in
/-- A write below `/config` that changes it, and was granted. -/
theorem protected_roots_gated_write : ∃ ending,
    GateSample.host.Gated (py "fs.write") writeCall world ending written ∧
      written.disk.node target ≠ world.disk.node target := by
  obtain ⟨ending, hrun⟩ := run_write
  exact ⟨ending, Host.protected_roots_gated host_roots host_outside rfl mem_write hrun,
    fun heq => by cases heq⟩

open GateSample in
/-- The same write leaves the directory `.storage` alone. -/
theorem storage_kept_write : written.disk.node storageDirectory = world.disk.node storageDirectory := by
  obtain ⟨ending, hrun⟩ := run_write
  have hspelled : ∀ path ∈ Host.pathsOf (py "fs.write") writeCall, Spelled path := by
    intro path hpath
    obtain rfl := List.mem_singleton.mp hpath
    exact (by decide : py "/config/a" = 47 :: joinWith (py "/") (PurePath.parse (py "/config/a")).tail)
  exact Host.storage_kept host_roots host_outside rfl mem_write hspelled hrun storageDirectory ⟨[], rfl⟩

end HassNode.FsMutations
