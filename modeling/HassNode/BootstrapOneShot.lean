import HassNode.Bootstrap

/-!
# The token is handed over once

Whatever requests arrive and whichever writes fail, the bootstrap token is served at most once, and the
first successful claim replaces it for good: later claims with the served token are answered with the
token that is in force.
-/

namespace HassNode.Bootstrap

open Py

variable [TokenSource]

theorem tokenUrlsafe_ne_nil (n : Nat) : TokenSource.tokenUrlsafe n ≠ [] := by
  intro hnil
  have hlen := TokenSource.length_eq n
  rw [hnil] at hlen
  exact absurd hlen (by decide)

omit [TokenSource] in
/-- Texts that are encoded alike are equal. -/
theorem compareDigest_true {a b : PyStr} (h : compareDigest a b = some true) : a = b := by
  unfold compareDigest at h
  cases ha : encodeUtf8 a with
  | none =>
    rw [ha] at h
    cases h
  | some x =>
    cases hb : encodeUtf8 b with
    | none =>
      rw [ha, hb] at h
      cases h
    | some y =>
      rw [ha, hb, Option.some.injEq, decide_eq_true_eq] at h
      have hdecode := decodeUtf8_encodeUtf8 ha
      rw [h, decodeUtf8_encodeUtf8 hb, Option.some.injEq] at hdecode
      exact hdecode.symm

omit [TokenSource] in
theorem compareDigest_false {a b : PyStr} (h : compareDigest a b = some false) : a ≠ b := by
  rintro rfl
  unfold compareDigest at h
  cases ha : encodeUtf8 a with
  | none =>
    rw [ha] at h
    cases h
  | some x =>
    rw [ha, Option.some.injEq, decide_eq_true rfl] at h
    cases h

/-! ## What a request can do -/

omit [TokenSource] in
/-- A fetch leaves everything as it is, or serves the bootstrap token and makes it the one to claim with. -/
theorem bootstrap_cases (s : State) (remote : Option PyStr) (elapsed : ℚ) (write : Write) :
    (∀ token, (bootstrap s remote elapsed write).1 ≠ .token token) ∧
        (bootstrap s remote elapsed write).2 = s ∨
      s.runtime.bootstrapToken ≠ [] ∧
        (bootstrap s remote elapsed write).1 = .token s.runtime.bootstrapToken ∧
        (bootstrap s remote elapsed write).2.runtime =
          { s.runtime with
            bootstrapToken := []
            bootstrapClaimToken := s.runtime.bootstrapToken } := by
  unfold bootstrap
  split_ifs with hremote helapsed hconsumed hdisabled
  · exact .inl ⟨nofun, rfl⟩
  · exact .inl ⟨nofun, rfl⟩
  · exact .inl ⟨nofun, rfl⟩
  · exact .inl ⟨nofun, rfl⟩
  · exact .inr ⟨hdisabled, rfl, rfl⟩

/-- A rotation puts the drawn token in force, or leaves the runtime as it is. -/
theorem rotate_cases (s : State) (tokenWrite : TokenWrite) (write : Write) :
    (∀ token, (rotate s tokenWrite write).1 ≠ .token token) ∧
        (rotate s tokenWrite write).2.runtime = s.runtime ∨
      (rotate s tokenWrite write).1 = .token (TokenSource.tokenUrlsafe s.drawn) ∧
        (rotate s tokenWrite write).2.runtime =
          { s.runtime with
            localApiToken := TokenSource.tokenUrlsafe s.drawn
            bootstrapClaimedToken := TokenSource.tokenUrlsafe s.drawn } := by
  unfold rotate
  split_ifs with hconsumed hclaimed
  · exact .inl ⟨nofun, rfl⟩
  · exact .inl ⟨nofun, rfl⟩
  · dsimp only
    split_ifs with hwritten
    · exact .inl ⟨nofun, rfl⟩
    · exact .inr ⟨rfl, rfl⟩

/-- Why a bearer may rotate the token: it is the served one before the first claim, or the one in
force. -/
def MayRotate (s : State) (presented : PyStr) : Prop :=
  presented = s.runtime.bootstrapClaimToken ∧ s.runtime.bootstrapClaimedToken = [] ∨
    presented ≠ s.runtime.bootstrapClaimToken ∧ presented = s.runtime.localApiToken

/-- A claim is refused, is answered once more, or rotates the token. -/
theorem bootstrapClaim_cases (s : State) (authorization : Option PyStr) (tokenWrite : TokenWrite)
    (write : Write) :
    (∀ token, (bootstrapClaim s authorization tokenWrite write).1 ≠ .token token) ∧
        (bootstrapClaim s authorization tokenWrite write).2.runtime = s.runtime ∨
      s.runtime.bootstrapClaimedToken ≠ [] ∧
        bootstrapClaim s authorization tokenWrite write = (.token s.runtime.bootstrapClaimedToken, s) ∨
      bootstrapClaim s authorization tokenWrite write = rotate s tokenWrite write ∧
        ∀ presented, presentedBearer authorization = some presented → MayRotate s presented := by
  unfold bootstrapClaim
  cases hbearer : presentedBearer authorization with
  | none => exact .inl ⟨nofun, rfl⟩
  | some presented =>
    have hne : presented ≠ [] := by
      rintro rfl
      unfold presentedBearer at hbearer
      dsimp only at hbearer
      split_ifs at hbearer with hparts
      exact hparts (.inr (Option.some.inj hbearer))
    dsimp only
    generalize hmatch : (if s.runtime.bootstrapClaimToken = [] then some false
      else compareDigest presented s.runtime.bootstrapClaimToken) = matched
    match matched with
    | none => exact .inl ⟨nofun, rfl⟩
    -- the token of the claim was presented
    | some true =>
      have hclaim : presented = s.runtime.bootstrapClaimToken := by
        split_ifs at hmatch
        · cases hmatch
        · exact compareDigest_true hmatch
      dsimp only
      by_cases hclaimed : s.runtime.bootstrapClaimedToken ≠ []
      · rw [if_pos hclaimed]
        exact .inr (.inl ⟨hclaimed, rfl⟩)
      · rw [if_neg hclaimed]
        right; right
        constructor
        · rfl
        · intro other hother
          rw [← Option.some.inj hother]
          exact .inl ⟨hclaim, not_not.mp hclaimed⟩
    -- another token was presented, which may be the local one
    | some false =>
      have hclaim : presented ≠ s.runtime.bootstrapClaimToken := by
        split_ifs at hmatch with hempty
        · rwa [hempty]
        · exact compareDigest_false hmatch
      dsimp only
      cases hlocal : compareDigest presented s.runtime.localApiToken with
      | none => exact .inl ⟨nofun, rfl⟩
      | some same =>
        cases same with
        | false => exact .inl ⟨nofun, rfl⟩
        | true =>
          right; right
          constructor
          · rfl
          · intro other hother
            rw [← Option.some.inj hother]
            exact .inr ⟨hclaim, compareDigest_true hlocal⟩

/-! ## The invariant -/

/-- `token` is the bootstrap token of the runtime: what was served is that token, and what was claimed is
another one and in force. -/
structure Inv (token : PyStr) (s : State) : Prop where
  unserved : s.runtime.bootstrapToken = [] ∨ s.runtime.bootstrapToken = token
  served : s.runtime.bootstrapClaimToken = [] ∨ s.runtime.bootstrapClaimToken = token
  claimed : s.runtime.bootstrapClaimedToken ≠ [] →
    s.runtime.bootstrapClaimedToken = s.runtime.localApiToken ∧ s.runtime.localApiToken ≠ token

/-- Some claim has succeeded. -/
def Claimed (s : State) : Prop := s.runtime.bootstrapClaimedToken ≠ []

/-- Nothing is left to be served. -/
def Served (s : State) : Prop := s.runtime.bootstrapToken = []

def Event.Fetches (e : Event) : Prop := ∃ token, e.response = .get (.token token)

def Event.Claims (e : Event) : Prop := ∃ token, e.response = .claim (.token token)

/-- The claim with `bearer` is answered with the token in force and changes nothing. -/
def Event.Replays (bearer : PyStr) (e : Event) : Prop :=
  ∀ authorization tokenWrite write token, e.request = .claim authorization tokenWrite write →
    presentedBearer authorization = some bearer → e.response = .claim (.token token) →
    token = e.before.runtime.localApiToken ∧ e.after = e.before

/-- What one request preserves, and what it answers. -/
structure Event.Sound (token : PyStr) (e : Event) : Prop where
  inv : Inv token e.after
  claimed : Claimed e.before → Claimed e.after
  served : Served e.before → Served e.after ∧ ¬ e.Fetches
  fetches : e.Fetches → Served e.after
  claims : e.Claims → Claimed e.after
  replays : Claimed e.before → e.Replays token

section
variable {token : PyStr}

omit [TokenSource] in
theorem sound_get {s : State} (h : Inv token s) (remote : Option PyStr) (elapsed : ℚ) (write : Write) :
    Event.Sound token ⟨s, .get remote elapsed write, .get (bootstrap s remote elapsed write).1,
      (bootstrap s remote elapsed write).2⟩ := by
  have hclaims : ¬ Event.Claims ⟨s, .get remote elapsed write,
      .get (bootstrap s remote elapsed write).1, (bootstrap s remote elapsed write).2⟩ :=
    fun ⟨_, hresponse⟩ => nomatch hresponse
  rcases bootstrap_cases s remote elapsed write with ⟨hrefused, hsame⟩ | ⟨hne, hserved, hruntime⟩
  · have hfetches : ¬ Event.Fetches ⟨s, .get remote elapsed write,
        .get (bootstrap s remote elapsed write).1, (bootstrap s remote elapsed write).2⟩ := by
      rintro ⟨served, hresponse⟩
      exact hrefused served (Response.get.inj hresponse)
    rw [hsame] at hclaims hfetches ⊢
    constructor
    · exact h
    · exact id
    · exact fun hs => ⟨hs, hfetches⟩
    · exact fun hf => absurd hf hfetches
    · exact fun hc => absurd hc hclaims
    · exact fun _ _ _ _ _ hrequest => nomatch hrequest
  · constructor
    · constructor
      · rw [hruntime]
        exact .inl rfl
      · rw [hruntime]
        exact .inr (h.unserved.resolve_left hne)
      · rw [hruntime]
        exact h.claimed
    · intro hc
      show (bootstrap s remote elapsed write).2.runtime.bootstrapClaimedToken ≠ []
      rw [hruntime]
      exact hc
    · exact fun hs => absurd hs hne
    · intro _
      show (bootstrap s remote elapsed write).2.runtime.bootstrapToken = []
      rw [hruntime]
    · exact fun hc => absurd hc hclaims
    · exact fun _ _ _ _ _ hrequest => nomatch hrequest

omit [TokenSource] in
/-- A claim that leaves the runtime as it is and is refused. -/
theorem sound_refused {s s' : State} {response : ClaimResponse} (h : Inv token s)
    (hrefused : ∀ value, response ≠ .token value) (hruntime : s'.runtime = s.runtime)
    (request : Request) : Event.Sound token ⟨s, request, .claim response, s'⟩ := by
  have hclaims : ∀ value, Response.claim response ≠ .claim (.token value) :=
    fun value hresponse => hrefused value (Response.claim.inj hresponse)
  constructor
  · constructor
    · rw [hruntime]
      exact h.unserved
    · rw [hruntime]
      exact h.served
    · rw [hruntime]
      exact h.claimed
  · intro hc
    show s'.runtime.bootstrapClaimedToken ≠ []
    rwa [hruntime]
  · intro hs
    constructor
    · show s'.runtime.bootstrapToken = []
      rwa [hruntime]
    · exact fun ⟨_, hresponse⟩ => nomatch hresponse
  · exact fun ⟨_, hresponse⟩ => nomatch hresponse
  · exact fun ⟨value, hresponse⟩ => absurd hresponse (hclaims value)
  · exact fun _ _ _ _ value _ _ hresponse => absurd hresponse (hclaims value)

theorem sound_rotate {s : State} (hfresh : ∀ n, TokenSource.tokenUrlsafe n ≠ token) (h : Inv token s)
    {authorization : Option PyStr} {tokenWrite : TokenWrite} {write : Write}
    (hmay : ∀ presented, presentedBearer authorization = some presented → MayRotate s presented) :
    Event.Sound token ⟨s, .claim authorization tokenWrite write,
      .claim (rotate s tokenWrite write).1, (rotate s tokenWrite write).2⟩ := by
  rcases rotate_cases s tokenWrite write with ⟨hrefused, hruntime⟩ | ⟨hresponse, hruntime⟩
  · exact sound_refused h hrefused hruntime _
  · have hclaimed : (rotate s tokenWrite write).2.runtime.bootstrapClaimedToken ≠ [] := by
      rw [hruntime]
      exact tokenUrlsafe_ne_nil _
    constructor
    · constructor
      · rw [hruntime]
        exact h.unserved
      · rw [hruntime]
        exact h.served
      · rw [hruntime]
        exact fun _ => ⟨rfl, hfresh _⟩
    · exact fun _ => hclaimed
    · intro hs
      constructor
      · show (rotate s tokenWrite write).2.runtime.bootstrapToken = []
        rw [hruntime]
        exact hs
      · exact fun ⟨_, hfetch⟩ => nomatch hfetch
    · exact fun ⟨_, hfetch⟩ => nomatch hfetch
    · exact fun _ => hclaimed
    · -- with the served token no second rotation is possible
      intro hbefore _ _ _ value hrequest hbearer _
      cases hrequest
      rcases hmay token hbearer with ⟨-, hunclaimed⟩ | ⟨-, hlocal⟩
      · exact absurd hunclaimed hbefore
      · exact absurd hlocal.symm (h.claimed hbefore).2

theorem sound_claim {s : State} (hfresh : ∀ n, TokenSource.tokenUrlsafe n ≠ token) (h : Inv token s)
    (authorization : Option PyStr) (tokenWrite : TokenWrite) (write : Write) :
    Event.Sound token ⟨s, .claim authorization tokenWrite write,
      .claim (bootstrapClaim s authorization tokenWrite write).1,
      (bootstrapClaim s authorization tokenWrite write).2⟩ := by
  rcases bootstrapClaim_cases s authorization tokenWrite write with
    ⟨hrefused, hruntime⟩ | ⟨hne, hreplay⟩ | ⟨hrotate, hmay⟩
  · exact sound_refused h hrefused hruntime _
  · rw [hreplay]
    constructor
    · exact h
    · exact id
    · exact fun hs => ⟨hs, fun ⟨_, hfetch⟩ => nomatch hfetch⟩
    · exact fun ⟨_, hfetch⟩ => nomatch hfetch
    · exact fun _ => hne
    · intro _ _ _ _ value _ _ hresponse
      rw [Response.claim.injEq, ClaimResponse.token.injEq] at hresponse
      constructor
      · rw [← hresponse]
        exact (h.claimed hne).1
      · rfl
  · rw [hrotate]
    exact sound_rotate hfresh h hmay

/-! ## Runs -/

theorem run_cons (s : State) (request : Request) (requests : List Request) :
    run s (request :: requests) =
      ⟨s, request, (step s request).1, (step s request).2⟩ :: run (step s request).2 requests := rfl

theorem sound_step {s : State} (hfresh : ∀ n, TokenSource.tokenUrlsafe n ≠ token) (h : Inv token s)
    (request : Request) : Event.Sound token ⟨s, request, (step s request).1, (step s request).2⟩ := by
  cases request with
  | get remote elapsed write => exact sound_get h remote elapsed write
  | claim authorization tokenWrite write => exact sound_claim hfresh h authorization tokenWrite write

/-- Once the token is served, no fetch of the run serves it again. -/
theorem run_served {s : State} (hfresh : ∀ n, TokenSource.tokenUrlsafe n ≠ token) (h : Inv token s)
    (hserved : Served s) (requests : List Request) : ∀ e ∈ run s requests, ¬ e.Fetches := by
  induction requests generalizing s with
  | nil => exact fun _ he => absurd he List.not_mem_nil
  | cons request requests ih =>
    have hsound := sound_step hfresh h request
    have hafter := hsound.served hserved
    intro e he
    rw [run_cons] at he
    rcases List.mem_cons.mp he with rfl | he
    · exact hafter.2
    · exact ih hsound.inv hafter.1 e he

/-- Once a claim has succeeded, the bootstrap token is not in force, and its holder is answered with the
token that is. -/
theorem run_claimed {s : State} (hfresh : ∀ n, TokenSource.tokenUrlsafe n ≠ token) (h : Inv token s)
    (hclaimed : Claimed s) (requests : List Request) :
    ∀ e ∈ run s requests, e.after.runtime.localApiToken ≠ token ∧ e.Replays token := by
  induction requests generalizing s with
  | nil => exact fun _ he => absurd he List.not_mem_nil
  | cons request requests ih =>
    have hsound := sound_step hfresh h request
    have hafter := hsound.claimed hclaimed
    intro e he
    rw [run_cons] at he
    rcases List.mem_cons.mp he with rfl | he
    · exact ⟨(hsound.inv.claimed hafter).2, hsound.replays hclaimed⟩
    · exact ih hsound.inv hafter e he

/-- What an event promises of the later ones. -/
def Event.Settles (token : PyStr) (e e' : Event) : Prop :=
  ¬ (e.Fetches ∧ e'.Fetches) ∧
    (e.Claims → e'.after.runtime.localApiToken ≠ token ∧ e'.Replays token)

theorem run_settles {s : State} (hfresh : ∀ n, TokenSource.tokenUrlsafe n ≠ token) (h : Inv token s)
    (requests : List Request) :
    (run s requests).Pairwise (Event.Settles token) ∧
      ∀ e ∈ run s requests, e.Claims → e.after.runtime.localApiToken ≠ token := by
  induction requests generalizing s with
  | nil => exact ⟨.nil, fun _ he => absurd he List.not_mem_nil⟩
  | cons request requests ih =>
    have hsound := sound_step hfresh h request
    have hrest := ih hsound.inv
    rw [run_cons]
    constructor
    · apply List.pairwise_cons.mpr
      constructor
      · intro e' he'
        constructor
        · intro hboth
          exact run_served hfresh hsound.inv (hsound.fetches hboth.1) requests e' he' hboth.2
        · intro hclaims
          exact run_claimed hfresh hsound.inv (hsound.claims hclaims) requests e' he'
      · exact hrest.1
    · intro e he hclaims
      rcases List.mem_cons.mp he with rfl | he
      · exact (hsound.inv.claimed (hsound.claims hclaims)).2
      · exact hrest.2 e he hclaims

end

/-- In the run of a started runtime at most one fetch serves a token.  After a successful claim the
bootstrap token is not in force, and a later claim with it changes nothing and is answered with the
token that is in force. -/
theorem bootstrap_once (addonMode : Bool) (localApiToken bootstrapToken : PyStr) (disk : Disk)
    (hfresh : ∀ n, TokenSource.tokenUrlsafe n ≠ bootstrapToken) (requests : List Request) :
    (run (start addonMode localApiToken bootstrapToken disk) requests).Pairwise
        (Event.Settles bootstrapToken) ∧
      ∀ e ∈ run (start addonMode localApiToken bootstrapToken disk) requests,
        e.Claims → e.after.runtime.localApiToken ≠ bootstrapToken := by
  apply run_settles hfresh
  constructor
  · exact .inr rfl
  · exact .inl rfl
  · exact fun hclaimed => absurd rfl hclaimed

/-! ## One handover -/


/-- Tokens that count. -/
@[reducible] def countedTokens : TokenSource where
  tokenUrlsafe n := (List.replicate 43 65).set 0 (Fin.ofNat _ (66 + n % 20))
  length_eq n := by simp

def servedToken : PyStr := List.replicate 43 65

/-- A fetch, a claim whose marker cannot be written, and the same claim again. -/
def handover : List Request :=
  [.get none 1 .done, .claim (some (py "Bearer " ++ servedToken)) .done (.failed false),
    .claim (some (py "Bearer " ++ servedToken)) .done .done]

omit [TokenSource] in
theorem bootstrap_once_handover :
    let _ := countedTokens
    (run (start false servedToken servedToken ⟨.absent, .absent, .absent⟩) handover).map
        (fun e => (e.response, decide (e.after.runtime.localApiToken = servedToken))) =
      [(.get (.token servedToken), true),
        (.claim (.token (TokenSource.tokenUrlsafe 0)), false),
        (.claim (.token (TokenSource.tokenUrlsafe 0)), false)] ∧
      (run (start false servedToken servedToken ⟨.absent, .absent, .absent⟩) handover).Pairwise
        (Event.Settles servedToken) := by
  intro _
  constructor
  · decide +kernel
  · have hfresh : ∀ n, TokenSource.tokenUrlsafe n ≠ servedToken := by
      intro n hsame
      have hhead := congrArg List.head? hsame
      have hval := congrArg Fin.val (Option.some.inj hhead)
      have hmod : (66 + n % 20) % 0x110000 = 65 := hval
      omega
    exact (bootstrap_once false servedToken servedToken ⟨.absent, .absent, .absent⟩ hfresh handover).1

end HassNode.Bootstrap
