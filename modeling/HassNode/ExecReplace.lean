import HassNode.ExecDocument

/-!
# Replacing the policy is all or nothing

One call of `system.execApprovals.set`, whatever its operations answer: a call that fails leaves the
policy file and the temporary files as they were, and a call that succeeds leaves the merged document
there, in a form that `_read_snapshot` accepts.
-/

namespace HassNode.ExecApprovals

open Py Interaction Prog Indent HaClient

/-! ## The responses of the schema -/

/-- Every response is an error for a parameter. -/
def Refuses (check : Option Json) : Prop :=
  ∀ response ∈ check, ∃ message, response = error "INVALID_PARAM" message

theorem refuses_none : Refuses none := nofun

theorem refuses_invalid (message : PyStr) : Refuses (invalid message) := by
  intro response h
  exact ⟨message, (Option.some.inj h).symm⟩

theorem refuses_ite {c : Prop} [Decidable c] {check other : Option Json} (h : Refuses check)
    (hother : Refuses other) : Refuses (if c then check else other) := by
  split
  · exact h
  · exact hother

theorem refuses_firstError {checks : List (Option Json)} (h : ∀ check ∈ checks, Refuses check) :
    Refuses (firstError checks) := by
  intro response hresponse
  obtain ⟨check, hcheck, hsome⟩ := List.exists_of_findSome?_eq_some hresponse
  exact h check hcheck response hsome

section
variable [Runtime]

theorem refuses_validateFields (scope : PyStr) (entries : Dict) (fields : List PyStr) :
    Refuses (validateFields scope entries fields) :=
  refuses_ite (refuses_invalid _) refuses_none

omit [Runtime] in
theorem refuses_optionalString (scope : PyStr) (container : Dict) (field : PyStr) :
    Refuses (validateOptionalString scope container field) := by
  unfold validateOptionalString
  split
  · exact refuses_none
  · exact refuses_ite refuses_none (refuses_invalid _)

omit [Runtime] in
theorem refuses_minLengthString (scope : PyStr) (value : Json) :
    Refuses (validateMinLengthString scope value) := by
  unfold validateMinLengthString
  split
  · exact refuses_none
  · exact refuses_invalid _

omit [Runtime] in
theorem refuses_nonBlankString (scope : PyStr) (value : Json) :
    Refuses (validateNonBlankString scope value) := by
  unfold validateNonBlankString
  split
  · exact refuses_ite (refuses_invalid _) refuses_none
  · exact refuses_invalid _

omit [Runtime] in
theorem refuses_timestamp (scope : PyStr) (container : Dict) (field : PyStr) (required : Bool) :
    Refuses (validateTimestamp scope container field required) := by
  unfold validateTimestamp
  split
  · exact refuses_ite (refuses_invalid _) refuses_none
  · exact refuses_invalid _
  · exact refuses_invalid _
  · exact refuses_ite (refuses_invalid _) refuses_none
  · exact refuses_ite (refuses_invalid _) refuses_none
  · exact refuses_invalid _

theorem refuses_allowlistEntry (scope : PyStr) (value : Json) :
    Refuses (validateAllowlistEntry scope value) := by
  unfold validateAllowlistEntry
  split
  · next entry =>
    refine refuses_firstError fun check hcheck => ?_
    simp only [List.mem_append, List.mem_cons, List.not_mem_nil, or_false, List.mem_map] at hcheck
    rcases hcheck with ((rfl | rfl | rfl | rfl) | ⟨field, -, rfl⟩) | rfl
    · exact refuses_validateFields _ _ _
    · exact refuses_ite refuses_none (refuses_invalid _)
    · split
      · exact refuses_none
      · exact refuses_minLengthString _ _
    · exact refuses_ite (refuses_invalid _) refuses_none
    · exact refuses_optionalString _ _ _
    · exact refuses_timestamp _ _ _ _
  · exact refuses_invalid _

theorem refuses_mcpTool (scope : PyStr) (value : Json) : Refuses (validateMcpTool scope value) := by
  unfold validateMcpTool
  split
  · refine refuses_firstError fun check hcheck => ?_
    simp only [List.mem_append, List.mem_cons, List.not_mem_nil, or_false, List.mem_map] at hcheck
    rcases hcheck with (rfl | ⟨field, -, rfl⟩) | rfl | rfl | rfl
    · exact refuses_validateFields _ _ _
    · exact refuses_nonBlankString _ _
    · exact refuses_ite refuses_none (refuses_invalid _)
    · exact refuses_timestamp _ _ _ _
    · exact refuses_timestamp _ _ _ _
  · exact refuses_invalid _

omit [Runtime] in
theorem refuses_entries {check : PyStr → Json → Option Json}
    (hcheck : ∀ scope value, Refuses (check scope value)) (scope : PyStr) (stored : Option Json) :
    Refuses (validateEntries scope check stored) := by
  unfold validateEntries
  split
  · exact refuses_none
  · refine refuses_firstError fun c hc => ?_
    obtain ⟨index, hindex, rfl⟩ := List.mem_mapIdx.mp hc
    exact hcheck _ _
  · exact refuses_invalid _

theorem refuses_choice (scope : PyStr) (policy : Dict) (field : PyStr) (allowed : List PyStr) :
    Refuses (validateChoice scope policy field allowed) := by
  unfold validateChoice
  split
  · exact refuses_none
  · exact refuses_ite refuses_none (refuses_invalid _)

theorem refuses_policy (scope : PyStr) (policy : Dict) (allowAllowlist : Bool) :
    Refuses (validatePolicy scope policy allowAllowlist) := by
  refine refuses_firstError fun check hcheck => ?_
  simp only [List.mem_cons, List.not_mem_nil, or_false] at hcheck
  rcases hcheck with rfl | rfl | rfl | rfl | rfl | rfl | rfl
  · exact refuses_validateFields _ _ _
  · exact refuses_choice _ _ _ _
  · exact refuses_choice _ _ _ _
  · exact refuses_choice _ _ _ _
  · split
    · exact refuses_none
    · exact refuses_none
    · exact refuses_invalid _
  · exact refuses_entries refuses_allowlistEntry _ _
  · exact refuses_entries refuses_mcpTool _ _

omit [Runtime] in
theorem refuses_socket (stored : Option Json) : Refuses (validateSocket stored) := by
  unfold validateSocket
  split
  · exact refuses_none
  · exact refuses_ite (refuses_invalid _) (refuses_ite (refuses_invalid _) refuses_none)
  · exact refuses_invalid _

theorem refuses_agent (agent : PyStr × Json) : Refuses (validateAgent agent) := by
  unfold validateAgent
  split
  · exact refuses_policy _ _ _
  · exact refuses_invalid _

theorem refuses_document (value : Json) : Refuses (validateDocument value) := by
  unfold validateDocument
  split
  · refine refuses_firstError fun check hcheck => ?_
    simp only [List.mem_cons, List.not_mem_nil, or_false] at hcheck
    rcases hcheck with rfl | rfl | rfl | rfl | rfl
    · exact refuses_ite (refuses_invalid _) refuses_none
    · exact refuses_ite refuses_none (refuses_invalid _)
    · exact refuses_socket _
    · split
      · exact refuses_none
      · exact refuses_policy _ _ _
      · exact refuses_invalid _
    · split
      · exact refuses_none
      · refine refuses_firstError fun check hcheck => ?_
        obtain ⟨agent, -, rfl⟩ := List.mem_map.mp hcheck
        exact refuses_agent agent
      · exact refuses_invalid _
  · exact refuses_invalid _

end

/-! ## Failed results -/

theorem succeeds_dict (response : Dict) :
    succeeds (.ok (.dict response)) = decide (Dict.get? response (py "ok") = none) := rfl

theorem succeeds_error (code : String) (message : PyStr) :
    succeeds (.ok (error code message)) = false := by
  unfold error obj
  rw [succeeds_dict, List.map_cons, Dict.get?_cons, if_pos rfl]
  rfl

theorem succeeds_ioError (exc : PyStr) : succeeds (ioError exc) = false := succeeds_error _ _

theorem succeeds_snapshot (setting : Setting) (file : Dict) (raw : Option Bytes) :
    succeeds (.ok (snapshot setting file raw)) = true := by
  unfold snapshot obj
  simp only [List.map_cons, List.map_nil]
  rw [succeeds_dict, Dict.get?_cons, if_neg (by decide), Dict.get?_cons, if_neg (by decide), Dict.get?_cons,
    if_neg (by decide), Dict.get?_cons, if_neg (by decide)]
  rfl

theorem compareBase_refuses {setting : Setting} {base : PyStr} {raw : Option Bytes} {response : Json}
    (h : compareBase setting base raw = some response) : succeeds (.ok response) = false := by
  unfold compareBase at h
  extract_lets current refused at h
  have hrefused : ∀ message, refused message = some response → succeeds (.ok response) = false := by
    intro message hmessage
    rw [← Option.some.inj hmessage]
    exact succeeds_error _ _
  split_ifs at h with h₁ h₂ h₃ h₄ h₅
  · exact hrefused _ h
  · exact hrefused _ h
  · exact hrefused _ h
  · exact hrefused _ h

/-! ## One call alone -/

/-- What clears up after a failure works; every other operation may fail. -/
def Clears : (op : FileOp) → op.Answer → Prop
  | .close, ans => ans = none
  | .unlink, ans => ans = none
  | _, _ => True

section
variable {ι : Type} [DecidableEq ι] (i : ι)

/-- The operations of a call that nobody interferes with. -/
def Alone : Effect FileOp.Answer (Store ι) := fun op s ans s' => Acts i op s ans s' ∧ Clears op ans

/-- The call has a temporary file and has changed nothing else. -/
def Draft (s₀ s : Store ι) : Prop :=
  s.file = s₀.file ∧ ∃ content, s.temp = Function.update s₀.temp i content

variable {i} {post : Result → Store ι → Prop} {s₀ s : Store ι} {result : Result}

theorem Draft.setTemp (h : Draft i s₀ s) (content : Option Bytes) :
    Draft i s₀ (s.setTemp i content) := by
  obtain ⟨hfile, old, htemp⟩ := h
  refine ⟨hfile, content, ?_⟩
  show Function.update s.temp i content = _
  rw [htemp, Function.update_idem]

theorem wp_leave (h : ∀ s' : Store ι, s'.file = s.file → s'.temp = s.temp → post result s') :
    Wp (Alone i) post (leave result) s := by
  intro ans s₁ heffect
  have hs₁ : s₁ = { s with lock := if s.lock = some i then none else s.lock } := heffect.1
  rw [hs₁]
  exact h _ rfl rfl

/-- Without the temporary file the store is as before. -/
theorem wp_abandon (htemp : s₀.temp i = none) (hdraft : Draft i s₀ s)
    (h : ∀ s' : Store ι, s'.file = s₀.file → s'.temp = s₀.temp → post result s') :
    Wp (Alone i) post (abandon result) s := by
  intro _ s₁ hrelease removed s₂ hunlink
  have hs₁ : s₁ = { s with lock := if s.lock = some i then none else s.lock } := hrelease.1
  have hnone : removed = none := hunlink.2
  rw [hnone] at hunlink
  have hs₂ : s₂ = s₁.setTemp i none := hunlink.1
  obtain ⟨hfile, content, hdrafted⟩ := hdraft
  rw [hs₂, hs₁]
  apply h
  · exact hfile
  · show Function.update s.temp i none = s₀.temp
    rw [hdrafted, Function.update_idem, ← htemp, Function.update_eq_self]

theorem wp_abandonOpen (htemp : s₀.temp i = none) (hdraft : Draft i s₀ s)
    (h : ∀ s' : Store ι, s'.file = s₀.file → s'.temp = s₀.temp → post result s') :
    Wp (Alone i) post (abandonOpen result) s := by
  have hclosed := wp_abandon htemp hdraft h
  intro answer s₁ hrelease closed s₂ hclose
  have hnone : closed = none := hclose.2
  rw [hnone] at hclose
  have hs₂ : s₂ = s₁ := hclose.1
  rw [hs₂, hnone]
  exact hclosed answer s₁ hrelease

variable [Runtime] (setting : Setting) (params : Dict)

/-- The policy file holds the document of the request, merged with the one that the call read. -/
def Stored (s₀ s : Store ι) : Prop :=
  ∃ document current outcome stored raw, params.get? (py "file") = some (.dict document) ∧
    Describes s₀.file outcome ∧ readSnapshot setting.budget outcome = .ok (current, stored) ∧
    s.file = some raw ∧
    readSnapshot setting.budget (.bytes raw) = .ok (mergeSocket document current, some raw)

/-- What a call that was started in `s₀` leaves behind. -/
structure AllOrNothing (s₀ : Store ι) (result : Result) (s : Store ι) : Prop where
  temp : s.temp = s₀.temp
  failed : succeeds result = false → s.file = s₀.file
  stored : succeeds result = true → Stored setting params s₀ s

variable {setting params}

omit [DecidableEq ι] in
theorem AllOrNothing.of_failed (hfailed : succeeds result = false) (hfile : s.file = s₀.file)
    (htemp : s.temp = s₀.temp) : AllOrNothing setting params s₀ result s where
  temp := htemp
  failed _ := hfile
  stored h := absurd h (by rw [hfailed]; decide)

/-- A file that was just written is read back, or not read at all. -/
theorem redactedSnapshot_succeeds {document : Dict} {raw : Bytes} {outcome : ReadOutcome}
    (hraw : readSnapshot setting.budget (.bytes raw) = .ok (document, some raw))
    (houtcome : Describes (some raw) outcome) :
    succeeds (redactedSnapshot setting outcome) = true := by
  cases outcome with
  | bytes other =>
    rw [← Option.some.inj (show some raw = some other from houtcome)]
    unfold redactedSnapshot
    rw [hraw]
    exact succeeds_snapshot _ _ _
  | notFound => cases houtcome
  | osError => exact succeeds_snapshot _ _ _

theorem wp_writeMerged {merged : Dict} (htemp : s₀.temp i = none) (hfile : s.file = s₀.file)
    (hsame : s.temp = s₀.temp)
    (hback : ∀ raw, serializeDocument setting.budget merged = .ok raw →
      readSnapshot setting.budget (.bytes raw) = .ok (merged, some raw))
    (hstored : ∀ s' : Store ι, ∀ raw, s'.file = some raw →
      readSnapshot setting.budget (.bytes raw) = .ok (merged, some raw) →
      Stored setting params s₀ s') :
    Wp (Alone i) (AllOrNothing setting params s₀) (writeMerged setting merged) s := by
  have hdrop : ∀ {s : Store ι} {result : Result}, Draft i s₀ s → succeeds result = false →
      Wp (Alone i) (AllOrNothing setting params s₀) (abandon result) s := fun hdraft hfailed =>
    wp_abandon htemp hdraft fun _ => .of_failed hfailed
  have hdropOpen : ∀ {s : Store ι} {result : Result}, Draft i s₀ s → succeeds result = false →
      Wp (Alone i) (AllOrNothing setting params s₀) (abandonOpen result) s := fun hdraft hfailed =>
    wp_abandonOpen htemp hdraft fun _ => .of_failed hfailed
  intro made s₁ hmade
  cases made with
  | some exc =>
    have hs₁ : s₁ = s := hmade.1
    rw [hs₁]
    exact wp_leave fun s' hf ht => .of_failed (succeeds_ioError exc) (hf.trans hfile) (ht.trans hsame)
  | none =>
  have hs₁ : s₁ = s.setTemp i (some []) := hmade.1
  have hdraft₁ : Draft i s₀ s₁ := by
    rw [hs₁]
    exact ⟨hfile, some [], by rw [← hsame]; rfl⟩
  intro moded s₂ hmoded
  have hs₂ : s₂ = s₁ := by cases moded <;> exact hmoded.1
  rw [hs₂]
  cases moded with
  | some exc => exact hdropOpen hdraft₁ (succeeds_ioError exc)
  | none =>
  intro opened s₂ hopened
  have hs₂ : s₂ = s₁ := by cases opened <;> exact hopened.1
  rw [hs₂]
  cases opened with
  | some exc => exact hdropOpen hdraft₁ (succeeds_ioError exc)
  | none =>
  cases hraw : serializeDocument setting.budget merged with
  | error exc => exact hdrop hdraft₁ rfl
  | ok raw =>
  intro written s₃ hwritten
  cases written with
  | some exc =>
    obtain ⟨part, hs₃⟩ : ∃ part, s₃ = s₁.setTemp i (some part) := hwritten.1
    rw [hs₃]
    exact hdrop (hdraft₁.setTemp _) (succeeds_ioError exc)
  | none =>
  have hs₃ : s₃ = s₁.setTemp i (some raw) := hwritten.1
  have hdraft₃ : Draft i s₀ s₃ := hs₃ ▸ hdraft₁.setTemp _
  intro synced s₄ hsynced
  have hs₄ : s₄ = s₃ := by cases synced <;> exact hsynced.1
  rw [hs₄]
  cases synced with
  | some exc => exact hdrop hdraft₃ (succeeds_ioError exc)
  | none =>
  intro moved s₅ hmoved
  cases moved with
  | some exc =>
    have hs₅ : s₅ = s₃ := hmoved.1
    rw [hs₅]
    exact hdrop hdraft₃ (succeeds_ioError exc)
  | none =>
  -- the commit point: from here the call can only succeed
  obtain ⟨stored, hcontent, hs₅⟩ : ∃ stored, s₃.temp i = some stored ∧ s₅ = s₃.commit i stored :=
    hmoved.1
  have hfile₅ : s₅.file = some raw := by
    rw [hs₃] at hcontent
    rw [hs₅]
    show some stored = some raw
    rw [← hcontent]
    exact Function.update_self ..
  have htemp₅ : s₅.temp = s₀.temp := by
    obtain ⟨-, content, hdrafted⟩ := hdraft₃
    rw [hs₅]
    show Function.update s₃.temp i none = s₀.temp
    rw [hdrafted, Function.update_idem, ← htemp, Function.update_eq_self]
  intro outcome s₆ hread
  have hs₆ : Describes s₅.file outcome ∧ s₆ = s₅ := hread.1
  rw [hs₆.2]
  rw [hfile₅] at hs₆
  have hsucceeds := redactedSnapshot_succeeds (hback raw hraw) hs₆.1
  exact wp_leave fun s' hf ht =>
    { temp := ht.trans htemp₅
      failed := fun hfailed => absurd hsucceeds (by rw [hfailed]; decide)
      stored := fun _ => hstored s' raw (hf.trans hfile₅) (hback raw hraw) }

theorem wp_underLock {document : Dict} {base : PyStr} (htemp : s₀.temp i = none)
    (hparams : params.get? (py "file") = some (.dict document)) (hheld : Held (.dict document))
    (hvalid : validateDocument (.dict document) = none) (hfile : s.file = s₀.file)
    (hsame : s.temp = s₀.temp) :
    Wp (Alone i) (AllOrNothing setting params s₀) (underLock setting document base) s := by
  intro outcome s₁ hread
  have hs₁ : Describes s.file outcome ∧ s₁ = s := hread.1
  rw [hs₁.2]
  rw [hfile] at hs₁
  beta_reduce
  cases hcurrent : readSnapshot setting.budget outcome with
  | error exc =>
    exact wp_leave fun s' hf ht => .of_failed rfl (hf.trans hfile) (ht.trans hsame)
  | ok found =>
  obtain ⟨current, stored⟩ := found
  simp only
  cases hcompare : compareBase setting base stored with
  | some response =>
    exact wp_leave fun s' hf ht =>
      .of_failed (compareBase_refuses hcompare) (hf.trans hfile) (ht.trans hsame)
  | none =>
    have hheldMerged := mergeSocket_held hheld current
    have hvalidMerged := mergeSocket_valid hvalid current
    exact wp_writeMerged htemp hfile hsame
      (fun raw hraw => readSnapshot_serialized hheldMerged hvalidMerged hraw)
      fun s' raw hraw hback =>
        ⟨document, current, outcome, stored, raw, hparams, hs₁.1, hcurrent, hraw, hback⟩

theorem wp_withWriteLock {body : SetProgram} (hfile : s.file = s₀.file) (hsame : s.temp = s₀.temp)
    (hbody : ∀ s' : Store ι, s'.file = s₀.file → s'.temp = s₀.temp →
      Wp (Alone i) (AllOrNothing setting params s₀) body s') (attempts : Nat) :
    Wp (Alone i) (AllOrNothing setting params s₀) (withWriteLock setting body attempts) s := by
  induction attempts with
  | zero => exact .of_failed (succeeds_ioError _) hfile hsame
  | succ attempts ih =>
    intro acquired s₁ hacquired
    cases acquired with
    | held =>
      have hs₁ : s.lock = none ∧ s₁ = { s with lock := some i } := hacquired.1
      rw [hs₁.2]
      exact hbody _ hfile hsame
    | stale =>
      have hs₁ : s₁ = s := hacquired.1
      rw [hs₁]
      exact ih
    | osError exc =>
      have hs₁ : s₁ = s := hacquired.1
      rw [hs₁]
      exact .of_failed (succeeds_ioError _) hfile hsame

/-- A call of `system.execApprovals.set` that nobody interferes with stores the merged document in a
form that reads back, or changes nothing. -/
theorem set_all_or_nothing (hparams : Held (.dict params)) (htemp : s₀.temp i = none)
    (h : Runs (Alone i) (handleSystemExecApprovalsSet setting params) s₀ result s) :
    AllOrNothing setting params s₀ result s := by
  refine h.post ?_
  unfold handleSystemExecApprovalsSet
  split
  · next document hdocument =>
    have hheld : Held (.dict document) :=
      (Json.forall_dict.mp hparams).2 _ (mem_of_lookup hdocument)
    split
    · next response hrefused =>
      obtain ⟨message, rfl⟩ := refuses_document _ response hrefused
      exact .of_failed (succeeds_error _ _) rfl rfl
    · next hvalid =>
      intro made s₁ hmade
      have hs₁ : s₁ = s₀ := by cases made <;> exact hmade.1
      rw [hs₁]
      cases made with
      | some exc => exact .of_failed (succeeds_ioError exc) rfl rfl
      | none =>
        exact wp_withWriteLock rfl rfl
          (fun s' hf ht => wp_underLock htemp hdocument hheld hvalid hf ht) _
  · exact .of_failed (succeeds_error _ _) rfl rfl

end

/-! ## A run that succeeds -/

/-- Reads answer as given, and what clears up works. -/
def Answered (outcome : ReadOutcome) (raw : Bytes) : (op : FileOp) → op.Answer → Prop
  | .read, ans => ans = outcome ∨ ans = .bytes raw
  | op, ans => Clears op ans

/-- When every operation works, a request that passes its checks replaces the policy. -/
theorem runs_set {ι : Type} [DecidableEq ι] [Runtime] (setting : Setting) (params : Dict)
    (i : ι) (s : Store ι) (outcome : ReadOutcome) {R : Effect FileOp.Answer (Store ι)}
    {document current : Dict} {stored : Option Bytes} {raw : Bytes}
    (hR : ∀ op s ans s', Acts i op s ans s' → Answered outcome raw op ans → R op s ans s')
    (hparams : params.get? (py "file") = some (.dict document))
    (hvalid : validateDocument (.dict document) = none) (hlock : s.lock = none)
    (hread : Describes s.file outcome)
    (hcurrent : readSnapshot setting.budget outcome = .ok (current, stored))
    (hbase : compareBase setting (baseHash params) stored = none)
    (hraw : serializeDocument setting.budget (mergeSocket document current) = .ok raw) :
    Runs R (handleSystemExecApprovalsSet setting params) s (redactedSnapshot setting (.bytes raw))
      (s.commit i raw) := by
  have hbody : ∀ s₁ : Store ι, s₁ = { s with lock := some i } →
      Runs R (underLock setting document (baseHash params)) s₁
        (redactedSnapshot setting (.bytes raw)) (s.commit i raw) := by
    intro s₁ hs₁
    have hend : s.commit i raw = { s₁.commit i raw with lock := none } := by
      rw [hs₁, ← hlock]
      rfl
    refine .call (hR .read s₁ outcome s₁ ⟨hs₁ ▸ hread, rfl⟩ (.inl rfl)) ?_
    rw [hcurrent]
    simp only [hbase]
    refine .call (hR .mkstemp _ none _ rfl trivial) ?_
    refine .call (hR .fchmod _ none _ rfl trivial) ?_
    refine .call (hR .fdopen _ none _ rfl trivial) ?_
    simp only [hraw]
    refine .call (hR (.write raw) _ none _ rfl trivial) ?_
    refine .call (hR .fsync _ none _ rfl trivial) ?_
    refine .call (hR .replace _ none _ ⟨raw, Function.update_self .., rfl⟩ trivial) ?_
    refine .call (hR .read (Store.commit _ i raw) (.bytes raw) _ ⟨rfl, rfl⟩
      (.inr rfl)) ?_
    refine .call (hR .release _ () _ rfl trivial) ?_
    have hlock₁ : s₁.lock = some i := by rw [hs₁]
    rw [hend]
    simp only [Store.setTemp, Store.commit, Function.update_idem, hlock₁, if_true]
    exact .ret _ _
  unfold handleSystemExecApprovalsSet
  rw [hparams]
  simp only [hvalid]
  refine .call (hR .mkdir _ none _ rfl trivial) ?_
  refine .call (hR .acquire _ .held _ ⟨hlock, rfl⟩ trivial) ?_
  exact hbody _ rfl

/-! ## A first policy -/

/-- Two policies as they are stored. -/
def firstRaw : Bytes := (py "\x7b\n  \"version\": 1\n\x7d\n").map Fin.val

def secondRaw : Bytes := (py "\x7b\n  \"version\": 1,\n  \"agents\": \x7b\x7d\n\x7d\n").map Fin.val

/-- The SHA-256 of the empty file and of two policies. -/
def sampleSetting : Setting where
  path := py "/data/exec-approvals.json"
  digest raw :=
    if raw = [] then py "e3b0c44298fc1c149afbf4c8996fb92427ae41e4649b934ca495991b7852b855"
    else if raw = firstRaw then
      py "4b8894d57dfa621e534ef4eb25263e8f00254cbcb4327f1f98796314ac279dde"
    else if raw = secondRaw then
      py "c5f4f89fe5158f7ffa01255d691f88ba629e3dad5cb05f8e8e5523719f91a061"
    else []
  budget := 100

def firstParams : Dict := [(py "file", obj [("version", .int 1)])]

/-- No policy yet, and nobody writing one. -/
def emptyStore (ι : Type) : Store ι := ⟨none, fun _ => none, none, []⟩

theorem set_all_or_nothing_first :
    let _ : Runtime := .ofTable []
    AllOrNothing sampleSetting firstParams (emptyStore Unit)
      (redactedSnapshot sampleSetting (.bytes firstRaw)) ((emptyStore Unit).commit () firstRaw) := by
  let _ : Runtime := .ofTable []
  have hraw : serializeDocument 100 [(py "version", .int 1)] = .ok firstRaw :=
    serializeDocument_eq_ok.mpr ⟨rfl, rfl⟩
  refine set_all_or_nothing (i := ()) ?_ rfl ?_
  · simp [Held, firstParams, obj, Json.Forall, Json.ForallDict, Dict.keys]
  · refine runs_set sampleSetting firstParams () (emptyStore Unit) .notFound
      (fun op s ans s' hacts hanswer => ⟨hacts, ?_⟩) rfl rfl rfl rfl rfl rfl hraw
    cases op <;> first | exact hanswer | trivial

end HassNode.ExecApprovals
