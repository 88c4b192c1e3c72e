import HassNode.ExecReplace

/-!
# Policies are compared and swapped

Any number of `system.execApprovals.set` calls, interleaved at every file operation.  The write lock
is what each call relies on: while it holds the lock, the others leave the policy file alone.
-/

namespace HassNode.ExecApprovals

open Py Interaction Prog HaClient

variable {ι : Type} (setting : Setting) (params : ι → Dict)

/-! ## Base hashes -/

/-- The request names the file that it replaces: a base hash that is not the one of a missing file. -/
def NamesBase (base : PyStr) : Prop := base ≠ [] ∧ base ≠ setting.missingHash

/-- The base hash of a request is that of what it replaces. -/
def SwapOk (base : PyStr) : Option Bytes → Prop
  | none => base = [] ∨ base = setting.missingHash
  | some raw => base = setting.digest raw

/-! ## What a call guarantees -/

/-- One operation of the call `i`: it takes or gives back the lock, or swaps while it holds it. -/
structure Guarantee (i : ι) (s s' : Store ι) : Prop where
  lock : s'.lock = s.lock ∨ (s.lock = none ∧ s'.lock = some i) ∨ (s.lock = some i ∧ s'.lock = none)
  history : (s'.file = s.file ∧ s'.commits = s.commits) ∨
    (s.lock = some i ∧ SwapOk setting (baseHash (params i)) s.file ∧
      ∃ stored, s'.file = some stored ∧ s'.commits = s.commits ++ [⟨i, s.file, stored⟩])

/-- What a call relies on: every change is one that another call guarantees. -/
def Rely (j : ι) (s s' : Store ι) : Prop := ∃ i, i ≠ j ∧ Guarantee setting params i s s'

/-- A call that succeeded has replaced the policy. -/
def Committed (i : ι) (result : Result) (s : Store ι) : Prop :=
  succeeds result = true → ∃ c ∈ s.commits, c.caller = i

/-- The call has not replaced the policy yet. -/
def Fresh (i : ι) (s : Store ι) : Prop := ∀ c ∈ s.commits, c.caller ≠ i

variable {setting params} {i j : ι} {s s' : Store ι}

/-- The lock keeps the file as it is. -/
theorem Rely.locked (h : Rely setting params j s s') (hlock : s.lock = some j) :
    s'.lock = some j ∧ s'.file = s.file ∧ s'.commits = s.commits := by
  obtain ⟨i, hij, hguar⟩ := h
  have hother : s.lock ≠ some i := by
    rw [hlock]
    exact fun heq => hij (Option.some.inj heq).symm
  refine ⟨?_, ?_⟩
  · rcases hguar.lock with hsame | ⟨hfree, -⟩ | ⟨hheld, -⟩
    · exact hsame.trans hlock
    · rw [hlock] at hfree
      cases hfree
    · exact absurd hheld hother
  · rcases hguar.history with hsame | ⟨hheld, -⟩
    · exact hsame
    · exact absurd hheld hother

theorem Rely.fresh (h : Rely setting params j s s') (hfresh : Fresh j s) : Fresh j s' := by
  obtain ⟨i, hij, hguar⟩ := h
  rcases hguar.history with hsame | ⟨-, -, stored, -, hcommits⟩
  · rw [Fresh, hsame.2]
    exact hfresh
  · intro c hc
    rw [hcommits] at hc
    rcases List.mem_append.mp hc with hc | hc
    · exact hfresh c hc
    · rw [List.mem_singleton.mp hc]
      exact hij

theorem Rely.committed (h : Rely setting params j s s') (hdone : ∃ c ∈ s.commits, c.caller = j) :
    ∃ c ∈ s'.commits, c.caller = j := by
  obtain ⟨c, hc, hcaller⟩ := hdone
  obtain ⟨i, -, hguar⟩ := h
  rcases hguar.history with hsame | ⟨-, -, stored, -, hcommits⟩
  · exact ⟨c, hsame.2 ▸ hc, hcaller⟩
  · exact ⟨c, hcommits ▸ List.mem_append_left _ hc, hcaller⟩

theorem Guarantee.of_same (h : s'.lock = s.lock ∧ s'.file = s.file ∧ s'.commits = s.commits) :
    Guarantee setting params i s s' :=
  ⟨.inl h.1, .inl h.2⟩

variable (setting params i) in
/-- The call holds the lock, has not committed, and may replace the file that is there. -/
structure Ready (s : Store ι) : Prop where
  lock : s.lock = some i
  fresh : Fresh i s
  swap : SwapOk setting (baseHash (params i)) s.file

theorem Ready.congr (h : Ready setting params i s)
    (hsame : s'.lock = s.lock ∧ s'.file = s.file ∧ s'.commits = s.commits) :
    Ready setting params i s' where
  lock := hsame.1.trans h.lock
  fresh := by
    rw [Fresh, hsame.2.2]
    exact h.fresh
  swap := hsame.2.1.symm ▸ h.swap

theorem Ready.stable (s s' : Store ι) (hrely : Rely setting params i s s')
    (h : Ready setting params i s) : Ready setting params i s' := by
  obtain ⟨hlock, hsame⟩ := hrely.locked h.lock
  exact h.congr ⟨hlock.trans h.lock.symm, hsame⟩

/-! ## The history of the file -/

/-- The commits lead from one content of the file to the other. -/
def Linked : Option Bytes → List (Commit ι) → Option Bytes → Prop
  | file, [], last => file = last
  | file, c :: rest, last => c.replaced = file ∧ Linked (some c.stored) rest last

theorem linked_append {file last : Option Bytes} {before after : List (Commit ι)} :
    Linked file (before ++ after) last ↔ ∃ middle, Linked file before middle ∧ Linked middle after last := by
  induction before generalizing file with
  | nil => exact ⟨fun h => ⟨file, rfl, h⟩, fun ⟨_, heq, h⟩ => heq ▸ h⟩
  | cons c before ih =>
    rw [List.cons_append, Linked, ih]
    constructor
    · rintro ⟨hreplaced, middle, hbefore, hafter⟩
      exact ⟨middle, ⟨hreplaced, hbefore⟩, hafter⟩
    · rintro ⟨middle, ⟨hreplaced, hbefore⟩, hafter⟩
      exact ⟨hreplaced, middle, hbefore, hafter⟩

/-- The content between two commits is what the last one before stored. -/
theorem mem_stored_of_linked {raw : Bytes} {last : Option Bytes} {commits : List (Commit ι)}
    (h : Linked (some raw) commits last) : last = some raw ∨ ∃ c ∈ commits, last = some c.stored := by
  induction commits generalizing raw with
  | nil => exact .inl h.symm
  | cons c commits ih =>
    rcases ih h.2 with hlast | ⟨d, hd, hlast⟩
    · exact .inr ⟨c, .head _, hlast⟩
    · exact .inr ⟨d, .tail _ hd, hlast⟩

variable (setting params) in
/-- The file is what its commits made of it, and each of them was allowed. -/
structure History (file : Option Bytes) (s : Store ι) : Prop where
  linked : Linked file s.commits s.file
  swaps : ∀ c ∈ s.commits, SwapOk setting (baseHash (params c.caller)) c.replaced

theorem History.step {file : Option Bytes} (hguar : Guarantee setting params i s s')
    (h : History setting params file s) : History setting params file s' := by
  rcases hguar.history with ⟨hfile, hcommits⟩ | ⟨-, hswap, stored, hfile, hcommits⟩
  · exact ⟨by rw [hfile, hcommits]; exact h.linked, by rw [hcommits]; exact h.swaps⟩
  · constructor
    · rw [hfile, hcommits]
      exact linked_append.mpr ⟨s.file, h.linked, rfl, rfl⟩
    · intro c hc
      rw [hcommits] at hc
      rcases List.mem_append.mp hc with hc | hc
      · exact h.swaps c hc
      · rw [List.mem_singleton.mp hc]
        exact hswap

/-! ## Each call keeps its guarantee -/

section
variable [DecidableEq ι]

/-- Operations that leave the lock and the history alone. -/
def Quiet : FileOp → Prop
  | .acquire | .replace | .release => False
  | _ => True

theorem acts_quiet (op : FileOp) {ans : op.Answer} (hop : Quiet op) (h : Acts i op s ans s') :
    s'.lock = s.lock ∧ s'.file = s.file ∧ s'.commits = s.commits := by
  cases op with
  | acquire => exact hop.elim
  | replace => exact hop.elim
  | release => exact hop.elim
  | mkdir => cases ans <;> exact (show s' = s from h) ▸ ⟨rfl, rfl, rfl⟩
  | read => exact (show s' = s from h.2) ▸ ⟨rfl, rfl, rfl⟩
  | mkstemp =>
    cases ans with
    | none => exact (show s' = s.setTemp i (some []) from h) ▸ ⟨rfl, rfl, rfl⟩
    | some exc => exact (show s' = s from h) ▸ ⟨rfl, rfl, rfl⟩
  | fchmod => cases ans <;> exact (show s' = s from h) ▸ ⟨rfl, rfl, rfl⟩
  | fdopen => cases ans <;> exact (show s' = s from h) ▸ ⟨rfl, rfl, rfl⟩
  | write raw =>
    cases ans with
    | none => exact (show s' = s.setTemp i (some raw) from h) ▸ ⟨rfl, rfl, rfl⟩
    | some exc =>
      obtain ⟨part, hpart⟩ : ∃ part, s' = s.setTemp i (some part) := h
      exact hpart ▸ ⟨rfl, rfl, rfl⟩
  | fsync => cases ans <;> exact (show s' = s from h) ▸ ⟨rfl, rfl, rfl⟩
  | close => cases ans <;> exact (show s' = s from h) ▸ ⟨rfl, rfl, rfl⟩
  | unlink =>
    cases ans with
    | none => exact (show s' = s.setTemp i none from h) ▸ ⟨rfl, rfl, rfl⟩
    | some exc => exact (show s' = s from h) ▸ ⟨rfl, rfl, rfl⟩

theorem Guarantee.release (h : s' = { s with lock := if s.lock = some i then none else s.lock }) :
    Guarantee setting params i s s' := by
  rw [h]
  refine ⟨?_, .inl ⟨rfl, rfl⟩⟩
  by_cases hheld : s.lock = some i
  · exact .inr (.inr ⟨hheld, if_pos hheld⟩)
  · exact .inl (if_neg hheld)

variable (setting params) in
/-- A call that names no base can read the policy when there is one. -/
def ReadsWell (i : ι) : (op : FileOp) → Store ι → op.Answer → Prop
  | .read, s, .osError => s.file ≠ none → (∀ c ∈ s.commits, c.caller ≠ i) →
      NamesBase setting (baseHash (params i))
  | _, _, _ => True

variable (setting params) in
/-- The operations of a call whose reads work. -/
def Readable (i : ι) : Effect FileOp.Answer (Store ι) :=
  fun op s ans s' => Acts i op s ans s' ∧ ReadsWell setting params i op s ans

/-- The call `i` is safe to go on with `p` from `s`. -/
abbrev SafeCall (setting : Setting) (params : ι → Dict) (i : ι) (p : SetProgram) (s : Store ι) : Prop :=
  Safe (Readable setting params i) (Rely setting params i) (Guarantee setting params i) (Committed i)
    p s

theorem safeCall_failed {result : Result} (h : succeeds result = false) (s : Store ι) :
    SafeCall setting params i (.ret result) s := by
  refine safe_ret (P := fun _ => True) (fun _ _ _ h => h) trivial fun s₁ _ hsucceeds => ?_
  rw [h] at hsucceeds
  cases hsucceeds

theorem safeCall_quiet (op : FileOp) (hop : Quiet op) {next : op.Answer → SetProgram} {s : Store ι}
    (hnext : ∀ ans s₁, SafeCall setting params i (next ans) s₁) :
    SafeCall setting params i (.call op next) s :=
  safe_call (P := fun _ => True) (fun _ _ _ h => h) trivial fun _ ans s₂ _ heffect =>
    ⟨.of_same (acts_quiet op hop heffect.1), hnext ans s₂⟩

theorem safeCall_release {next : Unit → SetProgram} {s : Store ι}
    (hnext : ∀ ans s₁, SafeCall setting params i (next ans) s₁) :
    SafeCall setting params i (.call .release next) s :=
  safe_call (P := fun _ => True) (fun _ _ _ h => h) trivial fun _ ans s₂ _ heffect =>
    ⟨.release heffect.1, hnext ans s₂⟩

theorem safeCall_leave {result : Result} (h : succeeds result = false) (s : Store ι) :
    SafeCall setting params i (leave result) s :=
  safeCall_release fun _ => safeCall_failed h

theorem safeCall_abandon {result : Result} (h : succeeds result = false) (s : Store ι) :
    SafeCall setting params i (abandon result) s :=
  safeCall_release fun _ _ => safeCall_quiet .unlink trivial fun _ => safeCall_failed h

theorem safeCall_abandonOpen {result : Result} (h : succeeds result = false) (s : Store ι) :
    SafeCall setting params i (abandonOpen result) s := by
  refine safeCall_release fun _ _ => safeCall_quiet .close trivial fun closed s₁ => ?_
  cases closed with
  | some exc => exact safeCall_failed rfl s₁
  | none => exact safeCall_quiet .unlink trivial fun _ => safeCall_failed h

/-- After the commit nothing is left but to say so. -/
theorem safeCall_leave_committed {result : Result} (hdone : ∃ c ∈ s.commits, c.caller = i) :
    SafeCall setting params i (leave result) s := by
  refine safe_call (P := fun s => ∃ c ∈ s.commits, c.caller = i) (fun _ _ => Rely.committed) hdone ?_
  intro s₁ _ s₂ hdone₁ heffect
  have hs₂ : s₂ = { s₁ with lock := if s₁.lock = some i then none else s₁.lock } := heffect.1
  refine ⟨.release hs₂, ?_⟩
  refine safe_ret (P := fun s => ∃ c ∈ s.commits, c.caller = i) (fun _ _ => Rely.committed) ?_
    fun _ hdone _ => hdone
  rw [hs₂]
  exact hdone₁

theorem safeCall_ready (op : FileOp) (hop : Quiet op) {next : op.Answer → SetProgram}
    (h : Ready setting params i s)
    (hnext : ∀ ans s₁, Ready setting params i s₁ → SafeCall setting params i (next ans) s₁) :
    SafeCall setting params i (.call op next) s :=
  safe_call Ready.stable h fun _ ans s₂ hready heffect =>
    ⟨.of_same (acts_quiet op hop heffect.1), hnext ans s₂ (hready.congr (acts_quiet op hop heffect.1))⟩

variable [Runtime]

/-- The check under the lock accepts only what the request may replace. -/
theorem swapOk_of_compareBase {base : PyStr} {file stored : Option Bytes} {outcome : ReadOutcome}
    {current : Dict} (hread : Describes file outcome)
    (hwell : outcome = .osError → file ≠ none → NamesBase setting base)
    (hcurrent : readSnapshot setting.budget outcome = .ok (current, stored))
    (h : compareBase setting base stored = none) : SwapOk setting base file := by
  have hmissing : stored = none → base = [] ∨ base = setting.missingHash := by
    intro hstored
    rw [hstored] at h
    unfold compareBase at h
    extract_lets hash refused at h
    rw [if_neg (by decide)] at h
    by_contra hnames
    exact absurd ((if_pos (not_or.mp hnames)).symm.trans h) nofun
  cases outcome with
  | notFound =>
    rw [show file = none from hread]
    exact hmissing (congrArg Prod.snd (Except.ok.inj hcurrent)).symm
  -- a read that fails counts as no file, which a caller with a hash of its own refuses
  | osError =>
    have hnone := hmissing (congrArg Prod.snd (Except.ok.inj hcurrent)).symm
    have hfile : file = none := by
      by_contra hfile
      obtain ⟨hempty, hhash⟩ := hwell rfl hfile
      exact hnone.elim hempty hhash
    rw [hfile]
    exact hnone
  | bytes raw =>
    rw [show file = some raw from hread]
    rw [stored_of_bytes hcurrent] at h
    unfold compareBase at h
    extract_lets hash refused at h
    rw [if_pos (by rfl)] at h
    split_ifs at h with hunavailable hrequired hchanged
    exact not_not.mp hchanged

theorem safeCall_writeMerged (merged : Dict) (h : Ready setting params i s) :
    SafeCall setting params i (writeMerged setting merged) s := by
  refine safeCall_ready .mkstemp trivial h fun made s h => ?_
  cases made with
  | some exc => exact safeCall_leave (succeeds_ioError exc) s
  | none =>
  refine safeCall_ready .fchmod trivial h fun moded s h => ?_
  cases moded with
  | some exc => exact safeCall_abandonOpen (succeeds_ioError exc) s
  | none =>
  refine safeCall_ready .fdopen trivial h fun opened s h => ?_
  cases opened with
  | some exc => exact safeCall_abandonOpen (succeeds_ioError exc) s
  | none =>
  cases serializeDocument setting.budget merged with
  | error exc => exact safeCall_abandon rfl s
  | ok raw =>
  refine safeCall_ready (.write raw) trivial h fun written s h => ?_
  cases written with
  | some exc => exact safeCall_abandon (succeeds_ioError exc) s
  | none =>
  refine safeCall_ready .fsync trivial h fun synced s h => ?_
  cases synced with
  | some exc => exact safeCall_abandon (succeeds_ioError exc) s
  | none =>
  refine safe_call Ready.stable h fun s moved s' h heffect => ?_
  cases moved with
  | some exc =>
    have hs' : s' = s := heffect.1
    exact ⟨.of_same (hs' ▸ ⟨rfl, rfl, rfl⟩), safeCall_abandon (succeeds_ioError exc) s'⟩
  | none =>
    -- the commit: the file is still the one that was compared
    obtain ⟨stored, -, hs'⟩ : ∃ stored, s.temp i = some stored ∧ s' = s.commit i stored := heffect.1
    have hcommitted : ∃ c ∈ s'.commits, c.caller = i := by
      rw [hs']
      exact ⟨⟨i, s.file, stored⟩, List.mem_append_right _ (.head _), rfl⟩
    refine ⟨⟨.inl (by rw [hs']; rfl), .inr ⟨h.lock, h.swap, stored, by rw [hs']; rfl,
      by rw [hs']; rfl⟩⟩, ?_⟩
    refine safe_call (P := fun s => ∃ c ∈ s.commits, c.caller = i) (fun _ _ => Rely.committed)
      hcommitted fun s₁ outcome s₂ hdone hread => ?_
    have hsame := acts_quiet .read trivial hread.1
    exact ⟨.of_same hsame, safeCall_leave_committed (hsame.2.2.symm ▸ hdone)⟩

theorem safeCall_underLock (document : Dict) (hlock : s.lock = some i) (hfresh : Fresh i s) :
    SafeCall setting params i (underLock setting document (baseHash (params i))) s := by
  refine safe_call (P := fun s => s.lock = some i ∧ Fresh i s)
    (fun s s' hrely h => ⟨(hrely.locked h.1).1, hrely.fresh h.2⟩) ⟨hlock, hfresh⟩ ?_
  intro s outcome s' h heffect
  obtain ⟨⟨hread, hs'⟩, hwell⟩ : (Describes s.file outcome ∧ s' = s) ∧
    ReadsWell setting params i .read s outcome := heffect
  rw [hs']
  refine ⟨.of_same ⟨rfl, rfl, rfl⟩, ?_⟩
  cases hcurrent : readSnapshot setting.budget outcome with
  | error exc => exact safeCall_leave rfl s
  | ok found =>
  obtain ⟨current, stored⟩ := found
  simp only
  cases hcompare : compareBase setting (baseHash (params i)) stored with
  | some response => exact safeCall_leave (compareBase_refuses hcompare) s
  | none =>
    refine safeCall_writeMerged _ ⟨h.1, h.2, ?_⟩
    refine swapOk_of_compareBase hread (fun herror hfile => ?_) hcurrent hcompare
    rw [herror] at hwell
    exact hwell hfile h.2

omit [Runtime] in
theorem safeCall_withWriteLock {body : SetProgram}
    (hbody : ∀ s : Store ι, s.lock = some i → Fresh i s → SafeCall setting params i body s)
    (attempts : Nat) (hfresh : Fresh i s) :
    SafeCall setting params i (withWriteLock setting body attempts) s := by
  induction attempts generalizing s with
  | zero => exact safeCall_failed (succeeds_ioError _) s
  | succ attempts ih =>
    refine safe_call (P := Fresh i) (fun _ _ => Rely.fresh) hfresh fun s acquired s' hfresh h => ?_
    cases acquired with
    | held =>
      obtain ⟨hfree, hs'⟩ : s.lock = none ∧ s' = { s with lock := some i } := h.1
      rw [hs']
      exact ⟨⟨.inr (.inl ⟨hfree, rfl⟩), .inl ⟨rfl, rfl⟩⟩, hbody _ rfl hfresh⟩
    | stale =>
      rw [show s' = s from h.1]
      exact ⟨.of_same ⟨rfl, rfl, rfl⟩, ih hfresh⟩
    | osError exc =>
      rw [show s' = s from h.1]
      exact ⟨.of_same ⟨rfl, rfl, rfl⟩, safeCall_failed (succeeds_ioError exc) s⟩

theorem safeCall_set (hfresh : Fresh i s) :
    SafeCall setting params i (handleSystemExecApprovalsSet setting (params i)) s := by
  unfold handleSystemExecApprovalsSet
  split
  · next document hdocument =>
    split
    · next response hrefused =>
      obtain ⟨message, rfl⟩ := refuses_document _ response hrefused
      exact safeCall_failed (succeeds_error _ _) s
    · refine safe_call (P := Fresh i) (fun _ _ => Rely.fresh) hfresh fun s made s' hfresh h => ?_
      have hsame := acts_quiet .mkdir trivial h.1
      refine ⟨.of_same hsame, ?_⟩
      cases made with
      | some exc => exact safeCall_failed (succeeds_ioError exc) s'
      | none =>
        refine safeCall_withWriteLock (fun s hlock hfresh => safeCall_underLock _ hlock hfresh) _ ?_
        rw [Fresh, hsame.2.2]
        exact hfresh
  · exact safeCall_failed (succeeds_error _ _) s

variable (setting params) in
/-- Every call at its start. -/
def start (file : Option Bytes) : Pool FileOp FileOp.Answer ι (Store ι) Result where
  prog i := handleSystemExecApprovalsSet setting (params i)
  state := ⟨file, fun _ => none, none, []⟩

theorem history_of_reaches {file : Option Bytes}
    {c : Pool FileOp FileOp.Answer ι (Store ι) Result}
    (h : Reaches (Readable setting params) (start setting params file) c) :
    History setting params file c.state ∧
      AllSafe (Readable setting params) (Rely setting params) (Guarantee setting params) Committed c :=
  AllSafe.of_reaches (c := start setting params file) (fun i _ hij _ _ hguar => ⟨i, hij, hguar⟩)
    (fun _ _ _ => History.step) (fun _ => safeCall_set fun _ hc => nomatch hc)
    ⟨rfl, fun _ hc => nomatch hc⟩ h

omit [DecidableEq ι] [Runtime] in
variable (setting) in
/-- No two different contents of the run have one digest. -/
def CollisionFree (s : Store ι) : Prop :=
  ∀ c ∈ s.commits, ∀ raw, c.replaced = some raw → ∀ d ∈ s.commits,
    setting.digest raw = setting.digest d.stored → raw = d.stored

/-- In every interleaving whose reads work, each call that succeeds has swapped, each swap was of what
the call named, and two swaps of one content have that content stored in between. -/
theorem set_compare_and_swap {file : Option Bytes}
    {c : Pool FileOp FileOp.Answer ι (Store ι) Result}
    (h : Reaches (Readable setting params) (start setting params file) c)
    (hfree : CollisionFree setting c.state) :
    (∀ i result, c.prog i = .ret result → succeeds result = true →
      ∃ commit ∈ c.state.commits, commit.caller = i) ∧
    (∀ commit ∈ c.state.commits, SwapOk setting (baseHash (params commit.caller)) commit.replaced) ∧
    ∀ before first between second after raw,
      c.state.commits = before ++ first :: (between ++ second :: after) →
      first.replaced = some raw →
      baseHash (params first.caller) = baseHash (params second.caller) →
      first.stored = raw ∨ ∃ commit ∈ between, commit.stored = raw := by
  obtain ⟨hhistory, hsafe⟩ := history_of_reaches h
  refine ⟨fun i result hret => hsafe.post_of_ret hret, hhistory.swaps, ?_⟩
  intro before first between second after raw hcommits hreplaced hbase
  have hfirst : first ∈ c.state.commits := by
    rw [hcommits]
    exact List.mem_append_right _ (.head _)
  have hlater : ∀ d ∈ between ++ second :: after, d ∈ c.state.commits := by
    intro d hd
    rw [hcommits]
    exact List.mem_append_right _ (.tail _ hd)
  have hlinked := hhistory.linked
  rw [hcommits] at hlinked
  obtain ⟨-, -, -, hrest⟩ := linked_append.mp hlinked
  obtain ⟨content, hbetween, hsecond, -⟩ := linked_append.mp hrest
  have hswapFirst := hhistory.swaps first hfirst
  have hswapSecond := hhistory.swaps second (hlater _ (List.mem_append_right _ (.head _)))
  rw [hreplaced] at hswapFirst
  -- the second swap replaced what the first one, or one between them, had stored
  have hstored : ∀ d ∈ c.state.commits, content = some d.stored → raw = d.stored := by
    intro d hd hcontent
    rw [hsecond, hcontent] at hswapSecond
    exact hfree first hfirst raw hreplaced d hd
      (hswapFirst.symm.trans (hbase.trans hswapSecond))
  rcases mem_stored_of_linked hbetween with hcontent | ⟨d, hd, hcontent⟩
  · exact .inl (hstored first hfirst hcontent).symm
  · exact .inr ⟨d, hd, (hstored d (hlater d (List.mem_append_left _ hd)) hcontent).symm⟩

end

/-! ## Three requests one after the other -/

/-- The second request restores the policy that the first one replaced. -/
def threeParams (i : Fin 3) : Dict :=
  if i = 1 then
    [(py "file", obj [("version", .int 1)]), (py "baseHash", .str (sampleSetting.digest secondRaw))]
  else
    [(py "file", obj [("version", .int 1), ("agents", .dict [])]),
      (py "baseHash", .str (sampleSetting.digest firstRaw))]

def threeCommits : List (Commit (Fin 3)) :=
  [⟨0, some firstRaw, secondRaw⟩, ⟨1, some secondRaw, firstRaw⟩, ⟨2, some firstRaw, secondRaw⟩]

theorem serialize_first :
    let _ : Runtime := .ofTable []
    serializeDocument 100 [(py "version", .int 1)] = .ok firstRaw := by
  let _ : Runtime := .ofTable []
  exact serializeDocument_eq_ok.mpr ⟨rfl, rfl⟩

theorem serialize_second :
    let _ : Runtime := .ofTable []
    serializeDocument 100 [(py "version", .int 1), (py "agents", .dict [])] = .ok secondRaw := by
  let _ : Runtime := .ofTable []
  exact serializeDocument_eq_ok.mpr ⟨rfl, rfl⟩

theorem read_first :
    let _ : Runtime := .ofTable []
    readSnapshot 100 (.bytes firstRaw) = .ok ([(py "version", .int 1)], some firstRaw) := by
  let _ : Runtime := .ofTable []
  exact readSnapshot_serialized
    (by simp [Indent.Held, Json.Forall, Json.ForallDict, Dict.keys]) rfl serialize_first

theorem read_second :
    let _ : Runtime := .ofTable []
    readSnapshot 100 (.bytes secondRaw) =
      .ok ([(py "version", .int 1), (py "agents", .dict [])], some secondRaw) := by
  let _ : Runtime := .ofTable []
  refine readSnapshot_serialized ?_ rfl serialize_second
  refine Json.forall_dict.mpr ⟨?_, ?_⟩
  · show [py "version", py "agents"].Nodup
    decide
  · simp [Json.Forall, Json.ForallDict, Dict.keys]

/-- Reads that succeed are well behaved. -/
theorem readable_of_answered {ι : Type} [DecidableEq ι] (setting : Setting) (params : ι → Dict)
    {i : ι} {found raw : Bytes} (op : FileOp) (s : Store ι) (ans : op.Answer) (s' : Store ι)
    (h : Acts i op s ans s') (hanswer : Answered (.bytes found) raw op ans) :
    Readable setting params i op s ans s' := by
  refine ⟨h, ?_⟩
  cases op with
  | read =>
    cases ans with
    | osError => rcases hanswer with heq | heq <;> cases heq
    | bytes _ => trivial
    | notFound => trivial
  | _ => trivial

/-- All three succeed. -/
theorem reaches_three :
    let _ : Runtime := .ofTable []
    ∃ c, Reaches (Readable sampleSetting threeParams)
      (start sampleSetting threeParams (some firstRaw)) c ∧ c.state.commits = threeCommits ∧
      ∀ i, ∃ result, c.prog i = .ret result ∧ succeeds result = true := by
  let _ : Runtime := .ofTable []
  let s₀ : Store (Fin 3) := ⟨some firstRaw, fun _ => none, none, []⟩
  have hfirst := runs_set sampleSetting (threeParams 0) 0 s₀ (.bytes firstRaw)
    (readable_of_answered sampleSetting threeParams) rfl rfl rfl rfl read_first rfl serialize_second
  have hsecond := runs_set sampleSetting (threeParams 1) 1 (s₀.commit 0 secondRaw)
    (.bytes secondRaw) (readable_of_answered sampleSetting threeParams) rfl rfl rfl rfl read_second
    rfl serialize_first
  have hthird := runs_set sampleSetting (threeParams 2) 2 ((s₀.commit 0 secondRaw).commit 1 firstRaw)
    (.bytes firstRaw) (readable_of_answered sampleSetting threeParams) rfl rfl rfl rfl read_first
    rfl serialize_second
  refine ⟨_, ((hfirst.reaches (c := start sampleSetting threeParams (some firstRaw)) rfl rfl).trans
    (hsecond.reaches rfl rfl)).trans (hthird.reaches rfl rfl), rfl, fun i => ?_⟩
  have hsucceeds : ∀ {raw : Bytes} {document : Dict},
      readSnapshot 100 (.bytes raw) = .ok (document, some raw) →
        succeeds (redactedSnapshot sampleSetting (.bytes raw)) = true :=
    fun hback => redactedSnapshot_succeeds hback rfl
  match i with
  | 0 => exact ⟨_, rfl, hsucceeds read_second⟩
  | 1 => exact ⟨_, rfl, hsucceeds read_first⟩
  | 2 => exact ⟨_, rfl, hsucceeds read_second⟩

theorem set_compare_and_swap_three :
    let _ : Runtime := .ofTable []
    ∃ c, Reaches (Readable sampleSetting threeParams)
        (start sampleSetting threeParams (some firstRaw)) c ∧ c.state.commits = threeCommits ∧
      ∀ commit ∈ c.state.commits,
        SwapOk sampleSetting (baseHash (threeParams commit.caller)) commit.replaced := by
  let _ : Runtime := .ofTable []
  obtain ⟨c, hreaches, hcommits, -⟩ := reaches_three
  refine ⟨c, hreaches, hcommits, (set_compare_and_swap hreaches ?_).2.1⟩
  unfold CollisionFree
  rw [hcommits]
  simp only [threeCommits, List.forall_mem_cons, List.not_mem_nil, IsEmpty.forall_iff,
    implies_true, and_true, Option.some.injEq, forall_eq']
  decide

/-- Two calls with one base hash succeed once the content is back, and a policy that cannot be read is
replaced without any base hash. -/
theorem set_succeeds_twice :
    let _ : Runtime := .ofTable []
    (∃ c, Reaches (fun i => Acts i) (start sampleSetting threeParams (some firstRaw)) c ∧
      c.state.commits = threeCommits ∧ firstRaw ≠ secondRaw ∧
      baseHash (threeParams 0) = sampleSetting.digest firstRaw ∧
      baseHash (threeParams 2) = sampleSetting.digest firstRaw ∧
      ∀ i, ∃ result, c.prog i = .ret result ∧ succeeds result = true) ∧
    ∃ c, Reaches (fun i => Acts i) (start sampleSetting (fun _ : Unit => firstParams)
        (some secondRaw)) c ∧
      c.state.commits = [⟨(), some secondRaw, firstRaw⟩] ∧ baseHash firstParams = [] ∧
      ∃ result, c.prog () = .ret result ∧ succeeds result = true := by
  let _ : Runtime := .ofTable []
  constructor
  · obtain ⟨c, hreaches, hcommits, hsucceed⟩ := reaches_three
    exact ⟨c, hreaches.mono fun _ _ _ _ _ h => h.1, hcommits, by decide, rfl, rfl, hsucceed⟩
  · have hrun := runs_set sampleSetting firstParams () ⟨some secondRaw, fun _ => none, none, []⟩
      .osError (R := Acts ()) (fun _ _ _ _ h _ => h) rfl rfl rfl trivial rfl rfl serialize_first
    exact ⟨_, hrun.reaches (R := fun i => Acts i)
      (c := start sampleSetting (fun _ => firstParams) (some secondRaw)) rfl rfl, rfl, rfl, _, rfl,
      redactedSnapshot_succeeds read_first rfl⟩

end HassNode.ExecApprovals
