import HassNode.BootstrapOneShot

/-!
# A rotation that fails

`_write_token` rewrites the file of the token in place.  `TokenCall` lists its calls, any of which can
raise; `rotation_atomic_iff` says after which failures the old token is still on disk as well as in
memory.
-/

namespace HassNode.Bootstrap

open Py

/-! ## The calls of `_write_token` -/

inductive TokenCall where
  /-- `path.parent.mkdir(parents=True, exist_ok=True)` -/
  | mkdir
  /-- `path.is_symlink()` -/
  | isSymlink
  /-- `os.open` with `O_TRUNC` -/
  | openTruncated
  | fchmod
  | fdopen
  /-- The text reaches the file when it is flushed. -/
  | write (text : PyStr)
  | close

def tokenCalls (token : PyStr) : List TokenCall :=
  [.mkdir, .isSymlink, .openTruncated, .fchmod, .fdopen, .write (token ++ [10]), .close]

/-- What a call makes of the file; nothing when it refuses a symlink. -/
def TokenCall.effect : TokenCall → TokenFile → Option TokenFile
  | .isSymlink, .symlink => none
  | .openTruncated, _ => some (.file [])
  | .write text, .file before => some (.file (before ++ text))
  | _, file => some file

/-- What a call that raises leaves, after `written` characters if it writes. -/
def TokenCall.cut (written : Nat) : TokenCall → TokenFile → TokenFile
  | .write text, .file before => .file (before ++ text.take written)
  | _, file => file

/-- The calls in turn, where the one behind the first `k` raises: whether they all return, and what they
leave. -/
def runCalls : List TokenCall → Nat → Nat → TokenFile → Bool × TokenFile
  | [], _, _, file => (true, file)
  | call :: _, 0, written, file => (false, call.cut written file)
  | call :: calls, k + 1, written, file =>
    match call.effect file with
    | none => (false, file)
    | some file => runCalls calls k written file

/-- The failure behind the first `k` calls, as `writeToken` sees it. -/
def tokenWriteAt (token : PyStr) (k written : Nat) : TokenWrite :=
  if k < 3 then .unopened
  else if k < 5 then .cut 0
  else if k = 5 then .cut written
  else if k = 6 then .cut (token.length + 1)
  else .done

theorem runCalls_eq_writeToken (token : PyStr) (k written : Nat) (file : TokenFile) :
    runCalls (tokenCalls token) k written file = writeToken token file (tokenWriteAt token k written) := by
  have hall : (token ++ [10]).take (token.length + 1) = token ++ [10] := by
    apply List.take_of_length_le
    simp
  match k with
  | 0 | 1 | 2 | 3 | 4 | 5 =>
    cases file with
    | absent | file _ | symlink => rfl
  | 6 =>
    cases file with
    | absent | file _ =>
      show (false, TokenFile.file ([] ++ (token ++ [10]))) = (false, .file ((token ++ [10]).take _))
      rw [hall]
      rfl
    | symlink => rfl
  | k + 7 =>
    have hdone : tokenWriteAt token (k + 7) written = .done := by
      unfold tokenWriteAt
      rw [if_neg (by omega), if_neg (by omega), if_neg (by omega), if_neg (by omega)]
    rw [hdone]
    cases file with
    | absent | file _ | symlink => rfl

/-! ## The next start -/

/-- The token that a readable file holds. -/
def persistedToken : TokenFile → Option PyStr
  | .file text => if strip text = [] then none else some (strip text)
  | _ => none

section
variable [TokenSource]

/-- `load_or_generate_local_api_token`; nothing when it raises. -/
def loadOrGenerateLocalApiToken (s : State) (readable : Bool) (tokenWrite : TokenWrite) :
    Option (PyStr × Bool) × State :=
  match if readable then persistedToken s.disk.localApiToken else none with
  | some token => (some (token, false), s)
  | none =>
    let token := TokenSource.tokenUrlsafe s.drawn
    let (written, file) := writeToken token s.disk.localApiToken tokenWrite
    (if written then some (token, true) else none,
      { s with disk := { s.disk with localApiToken := file }, drawn := s.drawn + 1 })

/-- A restart without a token in the options.  Where none is loaded or written either, the start warns
that the API will be open, but the middleware answers a request for any other than the public paths
with 401 `NO_TOKEN_CONFIGURED`. -/
def restart (s : State) (readable : Bool) (tokenWrite : TokenWrite) : State :=
  let (loaded, s) := loadOrGenerateLocalApiToken s readable tokenWrite
  let token := (loaded.map Prod.fst).getD []
  { s with runtime := (start s.runtime.addonMode token token s.disk).runtime }

/-- The token is in memory and on disk. -/
structure Holds (token : PyStr) (s : State) : Prop where
  memory : s.runtime.localApiToken = token
  file : persistedToken s.disk.localApiToken = some token

theorem restart_holds {token : PyStr} {s : State} (h : Holds token s) (tokenWrite : TokenWrite) :
    (restart s true tokenWrite).runtime.localApiToken = token := by
  unfold restart loadOrGenerateLocalApiToken
  rw [if_pos rfl, h.file]
  rfl

/-! ## What a failure leaves -/

/-- What is in the file once it was opened. -/
def leftBy (token : PyStr) (k written : Nat) : PyStr :=
  if k < 5 then [] else if k = 5 then (token ++ [10]).take written else token ++ [10]

omit [TokenSource] in
theorem writeToken_failed {token : PyStr} {file left : TokenFile} {k written : Nat}
    (hfile : file ≠ .symlink) (h : writeToken token file (tokenWriteAt token k written) = (false, left)) :
    left = if k < 3 then file else .file (leftBy token k written) := by
  have hall : (token ++ [10]).take (token.length + 1) = token ++ [10] := by
    apply List.take_of_length_le
    simp
  unfold tokenWriteAt at h
  unfold leftBy
  cases file with
  | symlink => exact absurd rfl hfile
  | absent | file _ =>
    split_ifs at h ⊢ with hopen hempty hwrite hclose
    all_goals simp only [writeToken, Prod.mk.injEq, true_and, reduceCtorEq, false_and] at h
    all_goals first | exact h.symm | omega | rw [← h, hall]

omit [TokenSource] in
/-- What a failure leaves of a new token never reads as another token of the same length. -/
theorem leftBy_ne {old token : PyStr} {k written : Nat} (hlength : old.length = token.length)
    (hne : old ≠ token) : persistedToken (.file (leftBy token k written)) ≠ some old := by
  -- only a part of the token itself can be read back, the newline goes when the text is stripped
  have hpart : ∃ part, part <+: token ∧ strip (leftBy token k written) = strip part := by
    unfold leftBy
    split_ifs with hempty hwrite
    · exact ⟨[], List.nil_prefix, rfl⟩
    · by_cases hall : written ≤ token.length
      · refine ⟨token.take written, List.take_prefix _ _, ?_⟩
        rw [List.take_append_of_le_length hall]
      · refine ⟨token, List.prefix_refl token, ?_⟩
        rw [List.take_of_length_le (by simp; omega), strip_concat_space _ (by decide)]
    · exact ⟨token, List.prefix_refl token, strip_concat_space _ (by decide)⟩
  obtain ⟨part, hprefix, hstrip⟩ := hpart
  intro hread
  have hold : strip part = old := by
    simp only [persistedToken] at hread
    split_ifs at hread
    rw [← hstrip]
    exact Option.some.inj hread
  have hlong : token.length ≤ part.length := by
    rw [← hlength, ← hold]
    exact (strip_within part).length_le
  have hpart : part = token := hprefix.eq_of_length_le hlong
  apply hne
  rw [← hold, ← hpart]
  apply (strip_within part).eq_of_length_le
  rw [hold, hlength, hpart]

theorem rotate_rotationFailed {s : State} {tokenWrite : TokenWrite} {write : Write}
    (h : (rotate s tokenWrite write).1 = .rotationFailed) :
    ∃ file, writeToken (TokenSource.tokenUrlsafe s.drawn) s.disk.localApiToken tokenWrite = (false, file) ∧
      (rotate s tokenWrite write).2 =
        { s with disk := { s.disk with localApiToken := file }, drawn := s.drawn + 1 } := by
  unfold rotate at h ⊢
  split_ifs at h ⊢ with hconsumed hclaimed
  dsimp only at h ⊢
  cases hwrite : writeToken (TokenSource.tokenUrlsafe s.drawn) s.disk.localApiToken tokenWrite with
  | mk done file =>
    rw [hwrite] at h
    cases done with
    | false => exact ⟨file, rfl, rfl⟩
    | true => cases h

theorem bootstrapClaim_rotationFailed {s : State} {authorization : Option PyStr}
    {tokenWrite : TokenWrite} {write : Write}
    (h : (bootstrapClaim s authorization tokenWrite write).1 = .rotationFailed) :
    bootstrapClaim s authorization tokenWrite write = rotate s tokenWrite write := by
  unfold bootstrapClaim at h ⊢
  split at h
  · cases h
  · dsimp only at h ⊢
    split at h
    · cases h
    · split at h
      · cases h
      · rename_i hclaimed
        exact if_neg hclaimed
    · split at h
      · cases h
      · cases h
      · rfl

/-- When a rotation fails behind the first `k` calls, the old token is still in memory and on disk if and
only if the file had not been opened, or what had been written of the new token reads as the old one.
Where it is, the next start takes it up again.  What is left of another token of the same length never
reads as the old one, and the file is left as the calls of `_write_token` leave it. -/
theorem rotation_atomic_iff (s : State) (authorization : Option PyStr) (k written : Nat) (write : Write)
    (old : PyStr) (hold : Holds old s)
    (hfailed : (bootstrapClaim s authorization
      (tokenWriteAt (TokenSource.tokenUrlsafe s.drawn) k written) write).1 = .rotationFailed) :
    let after := (bootstrapClaim s authorization
      (tokenWriteAt (TokenSource.tokenUrlsafe s.drawn) k written) write).2
    (Holds old after ↔ k < 3 ∨
        persistedToken (.file (leftBy (TokenSource.tokenUrlsafe s.drawn) k written)) = some old) ∧
      (Holds old after → ∀ tokenWrite, (restart after true tokenWrite).runtime.localApiToken = old) ∧
      (old.length = (TokenSource.tokenUrlsafe s.drawn).length → old ≠ TokenSource.tokenUrlsafe s.drawn →
        (Holds old after ↔ k < 3)) ∧
      after.disk.localApiToken =
        (runCalls (tokenCalls (TokenSource.tokenUrlsafe s.drawn)) k written s.disk.localApiToken).2 := by
  intro after
  have hclaim := bootstrapClaim_rotationFailed hfailed
  rw [hclaim] at hfailed
  obtain ⟨file, hwrite, hafter⟩ := rotate_rotationFailed hfailed
  have hsymlink : s.disk.localApiToken ≠ .symlink := by
    intro heq
    have hnone := hold.file
    rw [heq] at hnone
    cases hnone
  have hleft := writeToken_failed hsymlink hwrite
  have hstate : after = { s with disk := { s.disk with localApiToken := file }, drawn := s.drawn + 1 } := by
    show (bootstrapClaim s authorization _ write).2 = _
    rw [hclaim, hafter]
  have hiff : Holds old after ↔ k < 3 ∨
      persistedToken (.file (leftBy (TokenSource.tokenUrlsafe s.drawn) k written)) = some old := by
    rw [hstate]
    constructor
    · intro hholds
      have hfile : persistedToken file = some old := hholds.file
      by_cases hopen : k < 3
      · exact .inl hopen
      · rw [hleft, if_neg hopen] at hfile
        exact .inr hfile
    · intro hkept
      refine ⟨hold.memory, ?_⟩
      show persistedToken file = some old
      rw [hleft]
      split_ifs with hopen
      · exact hold.file
      · exact hkept.resolve_left hopen
  refine ⟨hiff, fun hholds tokenWrite => restart_holds hholds tokenWrite, ?_, ?_⟩
  · intro hlength hne
    rw [hiff, or_iff_left (leftBy_ne hlength hne)]
  · rw [runCalls_eq_writeToken, hwrite, hstate]

end

namespace RotationSample

scoped instance source : TokenSource := countedTokens

/-- The token was fetched and is about to be claimed. -/
def fetched : State :=
  ⟨{ addonMode := false, localApiToken := servedToken, bootstrapToken := [],
     bootstrapClaimToken := servedToken }, ⟨.present, .absent, .file (servedToken ++ [10])⟩, 0⟩

def bearer : Option PyStr := some (py "Bearer " ++ servedToken)

theorem fetched_holds : Holds servedToken fetched := ⟨rfl, by decide +kernel⟩

/-- The answer to the claim, and whether the served token is in memory and on disk afterwards. -/
def claimed (k written : Nat) : ClaimResponse × Bool × Bool :=
  let (response, after) := bootstrapClaim fetched bearer
    (tokenWriteAt (TokenSource.tokenUrlsafe fetched.drawn) k written) .done
  (response, decide (after.runtime.localApiToken = servedToken),
    decide (persistedToken after.disk.localApiToken = some servedToken))

theorem rotation_atomic_unopened : Holds servedToken (bootstrapClaim fetched bearer
    (tokenWriteAt (TokenSource.tokenUrlsafe fetched.drawn) 2 0) .done).2 :=
  (rotation_atomic_iff fetched bearer 2 0 .done servedToken fetched_holds (by decide +kernel)).1.mpr
    (.inl (by decide))

/-- The disk is full: the file was emptied, and the next start draws another token. -/
theorem rotation_full_disk : ¬ ∀ (s : State) (authorization : Option PyStr) (k written : Nat)
    (write : Write) (old : PyStr), Holds old s →
    (bootstrapClaim s authorization
      (tokenWriteAt (TokenSource.tokenUrlsafe s.drawn) k written) write).1 = .rotationFailed →
    Holds old (bootstrapClaim s authorization
      (tokenWriteAt (TokenSource.tokenUrlsafe s.drawn) k written) write).2 := by
  intro h
  have hfull : claimed 5 0 = (.rotationFailed, true, false) := by decide +kernel
  have hresponse : (bootstrapClaim fetched bearer
      (tokenWriteAt (TokenSource.tokenUrlsafe fetched.drawn) 5 0) .done).1 = .rotationFailed :=
    congrArg Prod.fst hfull
  have hholds := h fetched bearer 5 0 .done servedToken fetched_holds hresponse
  have hlost : decide (persistedToken (bootstrapClaim fetched bearer
      (tokenWriteAt (TokenSource.tokenUrlsafe fetched.drawn) 5 0) .done).2.disk.localApiToken =
        some servedToken) = false := congrArg (fun answer => answer.2.2) hfull
  exact absurd hholds.file (of_decide_eq_false hlost)

end RotationSample

end HassNode.Bootstrap
