import HassNode.BackupHistory
import HassNode.SurrogatePairs

/-!
# Every run of the backup store

A run may capture any texts.  The index files hold a split surrogate pair as the one character that it
makes, so that the histories of a run are those of the model on the joined texts.  A path is refused
with the store's own error unless its index name is one byte too long for the file system.
-/

namespace HassNode.BackupStore

open Py Py.JsonText NodeApproval Indent Compact Surrogates

/-! ## Joined texts -/

def Capture.joined (c : Capture) : Capture :=
  { c with
    proposalId := joinPairs c.proposalId
    actor := joinPairs c.actor
    now := joinPairs c.now }

def Step.joined : Step → Step
  | .capture c => .capture c.joined
  | .rename src dst => .rename src dst

theorem Capture.valid_joined (c : Capture) : (Step.capture c.joined).Valid :=
  ⟨unsplit_joinPairs _, unsplit_joinPairs _, unsplit_joinPairs _⟩

theorem Version.line_joined (v : Version) :
    { v with ts := joinPairs v.ts, proposalId := joinPairs v.proposalId, actor := joinPairs v.actor }.line =
      v.line := by
  have ⟨ts, proposalId, sha256, size, op, actor, prev, evicted⟩ := v
  cases evicted <;>
    simp [line, members, compactText, compactMembers, dumpsStr_joinPairs]

section

variable [Runtime] [Digest]

omit [Runtime] in
theorem Capture.lineBytes_joined (c : Capture) (before : List Entry) :
    (c.joined.version before).lineBytes = (c.version before).lineBytes := by
  unfold Version.lineBytes
  rw [← (c.version before).line_joined]
  rfl

/-- A capture writes the line of the joined texts. -/
theorem Indexes.step_joined {s : Store} {h : LogIndex.Histories PyStr Entry} (hs : Indexes s h)
    (room : Nat) (step : Step) : s.step room step.joined = s.step room step := by
  cases step with
  | rename src dst => rfl
  | capture c =>
    show (s.capture room c.path c.bytes _ c.op _ _).1 = (s.capture room c.path c.bytes _ c.op _ _).1
    cases hpath : storable c.path with
    | false =>
      rw [Store.capture_unstorable (c := c) hpath]
      exact Store.capture_unstorable (c := c.joined) hpath
    | true =>
      have ⟨name, hname⟩ := storable_iff.mp hpath
      have hjoined := hs.capture_eq room (c := c.joined) hname
      have hgiven := hs.capture_eq room (c := c) hname
      change s.capture room c.path c.bytes c.joined.proposalId c.op c.joined.actor c.joined.now = _
        at hjoined
      change (s.capture room c.path c.bytes c.joined.proposalId c.op c.joined.actor c.joined.now).1 = _
      have hline : (c.joined.version (h c.joined.path)).lineBytes = (c.version (h c.path)).lineBytes :=
        c.lineBytes_joined _
      rw [hjoined, hgiven, hline]
      rfl

theorem Indexes.step {s : Store} {h : LogIndex.Histories PyStr Entry} (hs : Indexes s h) (room : Nat)
    (step : Step) : Indexes (s.step room step) (modelStep h step.joined) := by
  rw [← hs.step_joined room step]
  cases step with
  | capture c => exact hs.capture room c.valid_joined
  | rename src dst => exact hs.rename src dst

/-- The model of a run, whatever texts it captures. -/
def histories (steps : List Step) : LogIndex.Histories PyStr Entry := model (steps.map Step.joined)

omit [Runtime] in
theorem histories_concat (steps : List Step) (step : Step) :
    histories (steps ++ [step]) = modelStep (histories steps) step.joined := by
  unfold histories model
  rw [List.map_append, List.foldl_append]
  rfl

theorem run_concat (room : Nat) (steps : List Step) (step : Step) :
    run room (steps ++ [step]) = (run room steps).step room step := by
  unfold run
  rw [List.foldl_append]
  rfl

theorem indexes_run (room : Nat) (steps : List Step) : Indexes (run room steps) (histories steps) := by
  induction steps using List.reverseRecOn with
  | nil => exact Indexes.empty
  | append_singleton steps step ih =>
    rw [run_concat, histories_concat]
    exact ih.step room step

omit [Runtime] [Digest] in
/-- A path with a history has an index file. -/
theorem Indexes.storable_of_ne {s : Store} {h : LogIndex.Histories PyStr Entry} (hs : Indexes s h)
    {path : PyStr} (hpath : h path ≠ []) : storable path = true := by
  by_contra hnone
  refine hpath (hs.files.unnamed ?_)
  rw [Option.eq_none_iff_forall_ne_some]
  intro name hname
  exact hnone (storable_iff.mpr ⟨name, hname⟩)

omit [Digest] in
/-- `history` returns for the paths that have an index file. -/
theorem Indexes.history_eq_ok {s : Store} {h : LogIndex.Histories PyStr Entry} (hs : Indexes s h)
    {room : Nat} {path : PyStr} {vs : List Version} :
    s.history room path = .ok vs ↔ storable path = true ∧ (h path).map Prod.fst = vs := by
  rcases hs.lookup path with ⟨hpath, -⟩ | ⟨hpath, e, hread⟩
  · rw [hs.history hpath room, Except.ok.injEq]
    exact (and_iff_right hpath).symm
  · have hhistory : s.history room path = .error e := by
      unfold Store.history
      cases hidx : indexPath path with
      | error e' =>
        rw [hidx] at hread
        rw [← Except.error.inj hread]
        rfl
      | ok name =>
        rw [hidx] at hread
        change (s.readIndex name).map _ = _ at hread
        show (s.readIndex name >>= _) = _
        cases hfound : s.readIndex name with
        | error e' =>
          rw [hfound] at hread
          rw [← Except.error.inj hread]
          rfl
        | ok found =>
          rw [hfound] at hread
          cases hread
    rw [hhistory, hpath]
    simp

/-! ## Index names -/

omit [Runtime] [Digest] in
theorem ascii_quote {path encoded : PyStr} (h : quote [] path = some encoded) : Ascii encoded := by
  have ⟨raw, _, hraw⟩ := Option.map_eq_some_iff.mp h
  rw [← hraw]
  intro c hc
  have ⟨b, _, hcb⟩ := List.mem_flatMap.mp hc
  unfold quoteByte at hcb
  split at hcb
  · -- a byte that is kept is a letter, a digit or one of four marks
    rename_i hkeep
    rw [List.mem_singleton.mp hcb]
    show b % 0x110000 < 0x80
    simp [isUnreserved] at hkeep
    omega
  · have hhex : ∀ n, (upperHex n).val < 0x80 := by
      intro n
      unfold upperHex
      split <;> simp only <;> omega
    simp only [List.mem_cons, List.not_mem_nil, or_false] at hcb
    rcases hcb with rfl | rfl | rfl
    · decide
    · exact hhex _
    · exact hhex _

omit [Runtime] [Digest] in
theorem encodePath_eq_ok {path encoded : PyStr} : encodePath path = .ok encoded ↔
    quote [] path = some encoded ∧ encoded.length ≤ indexNameMax := by
  unfold encodePath
  cases quote [] path with
  | none => simp
  | some e =>
    by_cases hlong : indexNameMax < e.length
    · simp only [if_pos hlong, reduceCtorEq, Option.some.injEq, false_iff, not_and]
      rintro rfl
      omega
    · simp only [if_neg hlong, Except.ok.injEq, Option.some.injEq]
      constructor
      · rintro rfl
        exact ⟨rfl, by omega⟩
      · exact fun h => h.1

omit [Runtime] [Digest] in
theorem indexPath_of_encodePath {path encoded : PyStr} (h : encodePath path = .ok encoded) :
    indexPath path = .ok (encoded ++ py ".jsonl") := by
  unfold indexPath
  rw [h]
  rfl

omit [Runtime] [Digest] in
theorem indexPath_injective {path other name : PyStr} (h : indexPath path = .ok name)
    (hother : indexPath other = .ok name) : other = path := by
  have ⟨a, ha, _, hname⟩ := indexPath_eq_ok.mp h
  have ⟨b, hb, _, hsame⟩ := indexPath_eq_ok.mp hother
  have hab : b = a := List.append_cancel_right (hsame.trans hname.symm)
  exact quote_injective (by decide) hb (hab ▸ ha)

/-- A capture for a path whose index name is too long for the file system. -/
theorem Store.capture_long (room : Nat) (s : Store) {c : Capture} {name : PyStr}
    (hidx : indexPath c.path = .ok name) (hlong : nameMax < name.length) :
    (s.capture room c.path c.bytes c.proposalId c.op c.actor c.now).2 = .error .os := by
  have hhistory : (s.withObject c.bytes).history room c.path = .error .os := by
    show (indexPath c.path >>= fun idx => (s.withObject c.bytes).readIndex idx >>= _) = _
    rw [hidx]
    show ((s.withObject c.bytes).readIndex name >>= _) = _
    rw [Store.readIndex, if_pos hlong]
    rfl
  have hlast : (s.withObject c.bytes).lastSha room c.path = .error .os := by
    unfold Store.lastSha
    rw [hhistory]
    rfl
  rw [Store.capture_eq, hlast]

/-- What a capture raises in the store that the steps leave. -/
def captureAfter (room : Nat) (steps : List Step) (c : Capture) : Except StoreError Version :=
  ((run room steps).capture room c.path c.bytes c.proposalId c.op c.actor c.now).2

/-- No two accepted paths share an index name.  The name fits the file system, and no capture of any run
fails but with the store's own error, unless the quoted path has exactly 250 characters: those are
accepted, and with the suffix they make 256. -/
theorem index_name_fits_iff (room : Nat) {path encoded : PyStr} (hpath : encodePath path = .ok encoded) :
    (∀ other, indexPath other = indexPath path → other = path) ∧
    (((∃ name raw, indexPath path = .ok name ∧ encodeUtf8 name = some raw ∧ raw.length ≤ nameMax) ∧
        ∀ steps c e, c.path = path → captureAfter room steps c = .error e →
          e.isBackupStoreError = true) ↔
      encoded.length ≠ indexNameMax) := by
  have ⟨hquote, hshort⟩ := encodePath_eq_ok.mp hpath
  have hidx := indexPath_of_encodePath hpath
  have hascii : Ascii (encoded ++ py ".jsonl") :=
    (ascii_quote hquote).append (ascii_of_all (by decide))
  have hlength : (encoded ++ py ".jsonl").length = encoded.length + 6 := List.length_append
  have hbound : encoded.length ≤ 250 := hshort
  constructor
  · intro other hother
    exact indexPath_injective hidx (hother.trans hidx)
  constructor
  · rintro ⟨⟨name, raw, hname, hraw, hfits⟩, -⟩ heq
    rw [← Except.ok.inj (hidx.symm.trans hname), encodeUtf8_ascii hascii] at hraw
    rw [← Option.some.inj hraw, List.length_map, hlength, heq] at hfits
    exact absurd hfits (by decide)
  · intro hne
    have hfits : (encoded ++ py ".jsonl").length ≤ nameMax := by
      rw [hlength]
      show encoded.length + 6 ≤ 255
      change encoded.length ≠ 250 at hne
      omega
    constructor
    · refine ⟨_, _, hidx, encodeUtf8_ascii hascii, ?_⟩
      rw [List.length_map]
      exact hfits
    · -- such a capture does not fail at all
      intro steps c e hc herror
      have hname : indexName c.path = some (encoded ++ py ".jsonl") :=
        indexName_eq_some.mpr ⟨hc ▸ hidx, hfits⟩
      unfold captureAfter at herror
      rw [(indexes_run room steps).capture_eq room hname] at herror
      cases herror

end

/-- A slash and 247 letters: 250 characters when quoted. -/
def longPath : PyStr := py "/" ++ List.replicate 247 97

def longCapture : Capture where
  path := longPath
  bytes := [104, 105]
  bytes_lt := sampleBytes_lt
  proposalId := py "direct"
  op := .write
  actor := py "agent"
  now := py "2024-05-01T10:00:00Z"

theorem index_name_fits_short :
    let _ := Runtime.ofTable []
    let _ := sampleDigest
    encodePath (py "/share/a.txt") = .ok (py "%2Fshare%2Fa.txt") ∧
      ∀ steps c e, c.path = py "/share/a.txt" → captureAfter 10 steps c = .error e →
        e.isBackupStoreError = true := by
  have hpath : encodePath (py "/share/a.txt") = .ok (py "%2Fshare%2Fa.txt") := by decide
  have hfits := (@index_name_fits_iff (Runtime.ofTable []) sampleDigest 10 _ _ hpath).2.mpr (by decide)
  exact ⟨hpath, hfits.2⟩

theorem encodePath_longPath : encodePath longPath = .ok (py "%2F" ++ List.replicate 247 97) := by
  have hascii : Ascii longPath := by
    intro c hc
    rcases List.mem_append.mp hc with hc | hc
    · exact ascii_of_all (by decide) c hc
    · rw [List.eq_of_mem_replicate hc]
      decide
  rw [encodePath_eq_ok]
  constructor
  · have hslash : quoteByte [] 47 = py "%2F" := by decide
    have hletter : quoteByte [] 97 = [97] := by decide
    unfold quote
    rw [encodeUtf8_ascii hascii]
    show some (((py "/" ++ List.replicate 247 97).map Fin.val).flatMap (quoteByte [])) = _
    rw [List.map_append, List.map_replicate, List.flatMap_append, List.flatMap_replicate]
    show some ((quoteByte [] 47 ++ []) ++ (List.replicate 247 (quoteByte [] 97)).flatten) = _
    rw [hslash, hletter, List.append_nil, List.flatten_replicate_singleton]
  · rw [List.length_append, List.length_replicate]
    decide

/-- The path is accepted, its index name has 256 characters and the capture raises an `OSError`. -/
theorem index_name_too_long :
    let _ := Runtime.ofTable []
    let _ := sampleDigest
    encodePath longPath = .ok (py "%2F" ++ List.replicate 247 97) ∧
      (indexPath longPath).map List.length = .ok 256 ∧
      captureAfter 10 [] longCapture = .error .os ∧ StoreError.os.isBackupStoreError = false := by
  have hidx := indexPath_of_encodePath encodePath_longPath
  have hlength : (py "%2F" ++ List.replicate 247 97 ++ py ".jsonl").length = 256 := by
    rw [List.length_append, List.length_append, List.length_replicate]
    rfl
  refine ⟨encodePath_longPath, ?_, ?_, rfl⟩
  · rw [hidx, ← hlength]
    rfl
  · have hcapture : indexPath longCapture.path = .ok (py "%2F" ++ List.replicate 247 97 ++ py ".jsonl") :=
      hidx
    have hlong : nameMax < (py "%2F" ++ List.replicate 247 97 ++ py ".jsonl").length := by
      rw [hlength]
      decide
    exact @Store.capture_long (Runtime.ofTable []) sampleDigest 10 Store.empty _ _ hcapture hlong

end HassNode.BackupStore
