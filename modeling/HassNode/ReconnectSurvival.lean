import HassNode.Reconnect

/-!
# The reconnect loop goes on

Whether `run` reaches its next round depends on the `retryAfterMs` of the refusing frame alone: a
number that is not finite, or one that leads past the last instant `datetime` has, ends the loop in
its own exception handler.  `run_goes_on_iff` shows that nothing else in a frame does.
-/

namespace HassNode.Reconnect

open Py

section
variable [Runtime]

/-! ## The retry delay of a frame -/

def Raised.retryAfterMs : Raised → Option Binary64
  | .pairing _ _ retryAfterMs => retryAfterMs
  | .other _ => none

/-- The `retryAfterMs` of an error that is raised, as it is decoded. -/
def errorRetryAfter (room : Nat) (errorRaw : Json) : Option Binary64 :=
  if decodeErrorCode errorRaw = some (py "PAIRING_REQUIRED") then none
  else
    match decodeErrorMessage room errorRaw, decodeErrorRetryAfterMs errorRaw with
    | .ok _, .ok retryAfterMs => retryAfterMs
    | _, _ => none

/-- The `retryAfterMs` that a frame refuses the connection with. -/
def retryAfterOf (room : Nat) (reqId : PyStr) : Json → Option Binary64
  | .dict msg =>
    if Dict.get? msg (py "type") = some (.str (py "res")) ∧
        Dict.get? msg (py "id") = some (.str reqId) ∧ ¬ truthy (Dict.getD msg (py "ok") .null) then
      errorRetryAfter room (Dict.getD msg (py "error") .null)
    else none
  | _ => none

/-- What a `retryAfterMs` can be: not a number, infinite, or finite and not negative. -/
def Millis : Binary64 → Prop
  | .nan => True
  | .inf neg => neg = false
  | .finite q => 0 ≤ q ∧ q < Binary64.bound

omit [Runtime] in
theorem finite_of_binary64 {x : Double} {q : ℚ} (h : binary64 x = .finite q) :
    q < Binary64.bound := by
  unfold binary64 at h
  split at h
  · cases h
  · cases h
  · cases h
    exact zero_lt_one.trans Binary64.one_lt_bound
  · exact Binary64.lt_bound_of_ofRat h

omit [Runtime] in
theorem retryMillis_millis {v : Json} {ms : Binary64} (h : retryMillis v = .ok (some ms)) :
    Millis ms := by
  cases v with
  -- a bool is an int to Python
  | bool b =>
    rw [retryMillis, Except.ok.injEq, Option.some.injEq] at h
    subst h
    have hbound := Binary64.one_lt_bound
    cases b
    · exact ⟨le_rfl, zero_lt_one.trans hbound⟩
    · exact ⟨zero_le_one, hbound⟩
  | int i =>
    rw [retryMillis] at h
    split at h
    · cases h
    · rename_i hneg
      have hnonneg : (0 : ℚ) ≤ i := by exact_mod_cast not_lt.mp hneg
      split at h
      · rename_i q hq
        cases h
        rw [Binary64.ofRat_of_nonneg hnonneg] at hq
        split at hq
        · rename_i hbound
          cases hq
          exact ⟨Binary64.nearest_nonneg hnonneg, hbound⟩
        · cases hq
      · cases h
  | float x =>
    rw [retryMillis] at h
    split at h
    · cases h
      trivial
    · split at h
      · cases h
      · cases h
        rfl
    · rename_i q hq
      split at h
      · cases h
      · rename_i hneg
        cases h
        exact ⟨not_lt.mp hneg, finite_of_binary64 hq⟩
  | _ => cases h

omit [Runtime] in
theorem decodeErrorRetryAfterMs_millis {raw : Json} {ms : Binary64}
    (h : decodeErrorRetryAfterMs raw = .ok (some ms)) : Millis ms := by
  unfold decodeErrorRetryAfterMs at h
  split at h
  · split at h
    · split at h
      · exact retryMillis_millis h
      · cases h
    · exact retryMillis_millis h
  · cases h

theorem retryAfterOf_millis {room : Nat} {reqId : PyStr} {msg : Json} {ms : Binary64}
    (h : retryAfterOf room reqId msg = some ms) : Millis ms := by
  unfold retryAfterOf errorRetryAfter at h
  split at h
  · split at h
    · split at h
      · cases h
      · split at h
        · rename_i hretry
          exact decodeErrorRetryAfterMs_millis (h ▸ hretry)
        · cases h
    · cases h
  · cases h

omit [Runtime] in
theorem onConnectRefused_retry (code : Option PyStr) (message : PyStr) (ms : Option Binary64) :
    (onConnectRefused code message ms).2.bind Raised.retryAfterMs =
      if code = some (py "PAIRING_REQUIRED") then none else ms := by
  unfold onConnectRefused
  extract_lets text
  have htext : text = py "PAIRING_REQUIRED" ↔ code = some (py "PAIRING_REQUIRED") := by
    simp only [text]
    split
    · rw [Option.some.injEq]
    · rename_i hempty
      refine ⟨fun h => ?_, fun h => absurd h (hempty _ _)⟩
      exact absurd h (by decide)
  by_cases hcode : code = some (py "PAIRING_REQUIRED")
  · rw [if_pos (htext.mpr hcode), if_pos hcode]
    rfl
  · rw [if_neg fun h => hcode (htext.mp h), if_neg hcode]
    rfl

omit [Runtime] in
theorem issuedToken_error {payload : Json} {exc : Raised} (h : issuedToken payload = .error exc) :
    exc.retryAfterMs = none := by
  unfold issuedToken at h
  split at h
  · cases h
  · split at h
    · split at h <;> cases h
    · split at h
      · cases h
        rfl
      · cases h
  · cases h
    rfl

omit [Runtime] in
theorem accept_retry (c : Client) (payload : Json) :
    (c.accept payload).2.bind Raised.retryAfterMs = none := by
  unfold Client.accept
  split
  · rename_i hissued
    exact issuedToken_error hissued
  · rfl
  · rfl

theorem reprWithin_error {room : Nat} {v : Json} {exc : Raised}
    (h : reprWithin room v = .error exc) : exc.retryAfterMs = none := by
  unfold reprWithin at h
  split at h <;> cases h <;> rfl

theorem decodeErrorMessage_error {room : Nat} {raw : Json} {exc : Raised}
    (h : decodeErrorMessage room raw = .error exc) : exc.retryAfterMs = none := by
  unfold decodeErrorMessage at h
  split at h
  · extract_lets message details at h
    split at h
    · cases hrepr : reprWithin room details with
      | error raised =>
        rw [hrepr] at h
        cases h
        exact reprWithin_error hrepr
      | ok text =>
        rw [hrepr] at h
        cases h
    · cases h
  · cases h
  · split at h
    · exact reprWithin_error h
    · cases h

omit [Runtime] in
theorem retryMillis_error {v : Json} {exc : Raised} (h : retryMillis v = .error exc) :
    exc.retryAfterMs = none := by
  unfold retryMillis at h
  split at h
  · cases h
  · split at h
    · cases h
    · split at h <;> cases h
      rfl
  · split at h <;> cases h
  · cases h

omit [Runtime] in
theorem decodeErrorRetryAfterMs_error {raw : Json} {exc : Raised}
    (h : decodeErrorRetryAfterMs raw = .error exc) : exc.retryAfterMs = none := by
  unfold decodeErrorRetryAfterMs at h
  split at h
  · split at h
    · split at h
      · exact retryMillis_error h
      · cases h
    · exact retryMillis_error h
  · cases h

theorem refuse_retry (c : Client) (room : Nat) (errorRaw : Json) :
    (c.refuse room errorRaw).2.bind Raised.retryAfterMs = errorRetryAfter room errorRaw := by
  unfold Client.refuse errorRetryAfter
  cases hmessage : decodeErrorMessage room errorRaw with
  | error exc =>
    rw [ite_self]
    exact decodeErrorMessage_error hmessage
  | ok message =>
    cases hretry : decodeErrorRetryAfterMs errorRaw with
    | error exc =>
      rw [ite_self]
      exact decodeErrorRetryAfterMs_error hretry
    | ok retryAfterMs => exact onConnectRefused_retry _ _ _

/-- The refusal that `_recv_connect_response` raises carries the `retryAfterMs` of its frame. -/
theorem recvConnectResponse_retry (c : Client) (room : Nat) (reqId : PyStr) (msg : Json) :
    (c.recvConnectResponse room reqId msg).2.bind Raised.retryAfterMs =
      retryAfterOf room reqId msg := by
  cases msg with
  | dict msg =>
    unfold Client.recvConnectResponse retryAfterOf
    dsimp only
    by_cases htype : Dict.get? msg (py "type") = some (.str (py "res"))
    · by_cases hid : Dict.get? msg (py "id") = some (.str reqId)
      · by_cases hok : truthy (Dict.getD msg (py "ok") .null) = true
        · rw [if_neg (not_not_intro htype), if_neg (not_not_intro hid), if_pos hok,
            if_neg fun h => h.2.2 hok]
          exact accept_retry _ _
        · rw [if_neg (not_not_intro htype), if_neg (not_not_intro hid), if_neg hok,
            if_pos ⟨htype, hid, hok⟩]
          exact refuse_retry _ _ _
      · rw [if_neg (not_not_intro htype), if_pos hid, if_neg fun h => hid h.2.1]
        rfl
    · rw [if_pos htype, if_neg fun h => htype h.1]
      rfl
  | _ => rfl

/-! ## The handler -/

/-- What the loop is to do with a delay: it is finite, not negative, and the instant after it can be
logged. -/
def Waits (now : Nat) (delay : Binary64) : Prop :=
  ∃ q, delay = .finite q ∧ 0 ≤ q ∧ now + microseconds q ≤ maxInstant

/-- The delay that `retryAfterMs` asks for leads to an instant that `datetime` has. -/
def Loggable (now : Nat) (retryAfterMs : Binary64) : Prop :=
  ∃ q, retryAfterMs = .finite q ∧ now + microseconds (Binary64.nearest (q / 1000)) ≤ maxInstant

/-- The backoff is a number of whole seconds, five minutes at most. -/
def Client.Bounded (c : Client) : Prop := ∃ n : Nat, c.rateLimitedDelay = n ∧ n ≤ 300

omit [Runtime] in
theorem microseconds_natCast (n : Nat) : microseconds n = n * 1000000 := by
  unfold microseconds
  have hzero : Binary64.halfEven (Binary64.nearest 0) = 0 := by decide +kernel
  rw [Int.fract_natCast, mul_zero, hzero, add_zero, Int.floor_natCast]

omit [Runtime] in
theorem microseconds_nonneg {q : ℚ} (h : 0 ≤ q) : 0 ≤ microseconds q := by
  have hfloor : 0 ≤ ⌊q⌋ := Int.floor_nonneg.mpr h
  have hfract := Binary64.halfEven_nonneg
    (Binary64.nearest_nonneg (mul_nonneg (by norm_num : (0 : ℚ) ≤ 1000000) (Int.fract_nonneg q)))
  unfold microseconds
  omega

omit [Runtime] in
theorem formatRetryAtUtc_finite {now : Nat} {q : ℚ} (h : 0 ≤ q) :
    (∃ at_, formatRetryAtUtc now (.finite q) = .ok at_) ↔ now + microseconds q ≤ maxInstant := by
  have hdelay : atLeastZero (.finite q) = .finite q := by
    rw [atLeastZero, max_eq_right h]
  unfold formatRetryAtUtc
  rw [hdelay]
  dsimp only
  have hmicros := microseconds_nonneg h
  unfold maxInstant
  split_ifs with hdays hdate
  · exact iff_of_false nofun (by omega)
  · exact iff_of_false nofun (by omega)
  · exact iff_of_true ⟨_, rfl⟩ (by omega)

omit [Runtime] in
/-- A whole number of seconds, five minutes at most, can be waited for. -/
theorem waits_natCast {now n : Nat} (hclock : now + 300000000 ≤ maxInstant) (hn : n ≤ 300) :
    Waits now (.finite n) := by
  refine ⟨n, rfl, Nat.cast_nonneg n, ?_⟩
  rw [microseconds_natCast]
  omega

/-- The delay of an exception without a `retryAfterMs`. -/
theorem nextReconnectDelay_plain {c : Client} (hc : c.Bounded) {exc : Raised}
    (hexc : exc.retryAfterMs = none) : (c.nextReconnectDelay exc).1.Bounded ∧
      ∃ n : Nat, (c.nextReconnectDelay exc).2 = .finite n ∧ n ≤ 300 := by
  have hlimited : ∃ n : Nat, c.backoff = n ∧ n ≤ 300 := by
    obtain ⟨n, hn, hle⟩ := hc
    unfold Client.backoff
    rw [hn]
    split
    · exact ⟨30, by norm_num [rateLimitedBackoffBase], by omega⟩
    · refine ⟨min (n * 2) 300, ?_, by omega⟩
      rw [Nat.cast_min]
      norm_num [rateLimitedBackoffFactor, rateLimitedBackoffMax]
  have hplain : c.nextReconnectDelay exc =
      if isRateLimited exc then ({ c with rateLimitedDelay := c.backoff }, .finite c.backoff)
      else ({ c with rateLimitedDelay := 0 }, .finite reconnectDelay) := by
    cases exc with
    | pairing code message retryAfterMs =>
      rw [show retryAfterMs = none from hexc]
      rfl
    | other text => rfl
  rw [hplain]
  split
  · obtain ⟨n, hn, hle⟩ := hlimited
    exact ⟨⟨n, hn, hle⟩, n, by rw [hn], hle⟩
  · exact ⟨⟨0, Nat.cast_zero.symm, by omega⟩, 5, by norm_num [reconnectDelay], by omega⟩

omit [Runtime] in
/-- A `retryAfterMs` is waited for when the instant after it can be logged. -/
theorem div_waits_iff {now : Nat} {ms : Binary64} (hms : Millis ms) :
    Waits now (ms.div 1000) ↔ Loggable now ms := by
  cases ms with
  | nan => exact iff_of_false (fun ⟨_, h, _⟩ => by cases h) (fun ⟨_, h, _⟩ => by cases h)
  | inf neg => exact iff_of_false (fun ⟨_, h, _⟩ => by cases h) (fun ⟨_, h, _⟩ => by cases h)
  | finite q =>
    have hquotient : 0 ≤ q / 1000 := div_nonneg hms.1 (by norm_num)
    have hfinite : (Binary64.finite q).div 1000 = .finite (Binary64.nearest (q / 1000)) := by
      apply Binary64.ofRat_finite hquotient
      have hlarge := Binary64.four_lt_bound
      have hlt : q < Binary64.bound := hms.2
      linarith
    rw [hfinite]
    constructor
    · rintro ⟨r, hr, -, hle⟩
      cases hr
      exact ⟨q, rfl, hle⟩
    · rintro ⟨r, hr, hle⟩
      cases hr
      exact ⟨_, rfl, Binary64.nearest_nonneg hquotient, hle⟩

/-- A delay that is not negative. -/
def NotNegative : Binary64 → Prop
  | .nan => True
  | .inf neg => neg = false
  | .finite q => 0 ≤ q

omit [Runtime] in
theorem div_notNegative {ms : Binary64} (hms : Millis ms) : NotNegative (ms.div 1000) := by
  cases ms with
  | nan => trivial
  | inf neg =>
    cases hms
    rfl
  | finite q =>
    have hquotient : 0 ≤ q / 1000 := div_nonneg hms.1 (by norm_num)
    show NotNegative (Binary64.ofRat (q / 1000))
    rw [Binary64.ofRat_of_nonneg hquotient]
    split
    · exact Binary64.nearest_nonneg hquotient
    · rfl

omit [Runtime] in
/-- The log and the sleep take exactly the delays that can be waited for. -/
theorem loggedAndSlept_iff {now : Nat} {delay : Binary64} (hdelay : NotNegative delay) :
    ((∃ at_, formatRetryAtUtc now delay = .ok at_) ∧ sleep delay = .ok ()) ↔ Waits now delay := by
  cases delay with
  | nan => exact iff_of_false (fun h => by cases h.2) (fun ⟨_, h, _⟩ => by cases h)
  | inf neg =>
    cases hdelay
    exact iff_of_false (fun ⟨⟨_, h⟩, _⟩ => by cases h) (fun ⟨_, h, _⟩ => by cases h)
  | finite q =>
    rw [formatRetryAtUtc_finite hdelay]
    constructor
    · rintro ⟨hle, -⟩
      exact ⟨q, rfl, hdelay, hle⟩
    · rintro ⟨r, hr, -, hle⟩
      cases hr
      exact ⟨hle, rfl⟩

/-- The handler hands on its delay exactly when that can be waited for. -/
theorem handle_eq_ok_iff {c : Client} {config : Config} {now : Nat} {exc : Raised}
    (hdelay : NotNegative (c.nextReconnectDelay exc).2) :
    (∃ next, c.handle config now exc = .ok (next, (c.nextReconnectDelay exc).2)) ↔
      Waits now (c.nextReconnectDelay exc).2 := by
  rw [← loggedAndSlept_iff hdelay]
  unfold Client.handle
  cases hlog : formatRetryAtUtc now (c.nextReconnectDelay exc).2 with
  | error e => exact iff_of_false (fun ⟨_, h⟩ => by cases h) (fun ⟨⟨_, h⟩, _⟩ => by cases h)
  | ok instant =>
    cases hsleep : sleep (c.nextReconnectDelay exc).2 with
    | error e => exact iff_of_false (fun ⟨_, h⟩ => by cases h) (fun h => by cases h.2)
    | ok _ => exact iff_of_true ⟨_, rfl⟩ ⟨⟨_, rfl⟩, rfl⟩

theorem handle_delay {c : Client} {config : Config} {now : Nat} {exc : Raised} {next : Client}
    {delay : Binary64} (h : c.handle config now exc = .ok (next, delay)) :
    delay = (c.nextReconnectDelay exc).2 ∧
      next.rateLimitedDelay = (c.nextReconnectDelay exc).1.rateLimitedDelay := by
  unfold Client.handle at h
  split at h
  · cases h
  · split at h
    · cases h
    · cases h
      refine ⟨rfl, ?_⟩
      show (Client.onReconnect _).rateLimitedDelay = _
      unfold Client.onReconnect Client.dropInvalidDeviceToken
      split <;> split <;> rfl

/-! ## Rounds -/

/-- The frame of a round refuses with no `retryAfterMs`, or with one whose instant can be logged. -/
def Round.Loggable (r : Round) : Prop :=
  match r.attempt with
  | .failed _ => True
  | .response reqId msg _ => ∀ ms, retryAfterOf r.room reqId msg = some ms →
      Reconnect.Loggable r.now ms

theorem recvConnectResponse_delay (c : Client) (room : Nat) (reqId : PyStr) (msg : Json) :
    (c.recvConnectResponse room reqId msg).1.rateLimitedDelay = c.rateLimitedDelay ∨
      (c.recvConnectResponse room reqId msg).1.rateLimitedDelay = 0 := by
  unfold Client.recvConnectResponse
  split
  · split
    · exact .inl rfl
    · split
      · exact .inl rfl
      · split
        · right
          unfold Client.accept
          split <;> rfl
        · left
          unfold Client.refuse
          split
          · rfl
          · split <;> rfl
  · exact .inl rfl

/-- An attempt leaves the backoff as it is, or resets it. -/
theorem connectAndLoop_bounded {c : Client} (hc : c.Bounded) (room : Nat) (attempt : Attempt) :
    (c.connectAndLoop room attempt).1.Bounded := by
  have hkept : ∀ d : Client, d.rateLimitedDelay = c.rateLimitedDelay ∨ d.rateLimitedDelay = 0 →
      d.Bounded := by
    rintro d (hsame | hzero)
    · obtain ⟨n, hn, hle⟩ := hc
      exact ⟨n, hsame.trans hn, hle⟩
    · exact ⟨0, hzero.trans Nat.cast_zero.symm, by omega⟩
  cases attempt with
  | failed text => exact hc
  | response reqId msg after =>
    have hdelay := recvConnectResponse_delay c room reqId msg
    apply hkept
    unfold Client.connectAndLoop
    dsimp only
    split
    · rename_i hrecv
      rw [hrecv] at hdelay
      exact hdelay
    · rename_i hrecv
      rw [hrecv] at hdelay
      exact hdelay

/-- The `retryAfterMs` that ends an attempt is that of its frame. -/
theorem connectAndLoop_retry (c : Client) (r : Round) :
    (∀ exc ms, (c.connectAndLoop r.room r.attempt).2 = some exc → exc.retryAfterMs = some ms →
        (r.Loggable ↔ Loggable r.now ms) ∧ Millis ms) ∧
      ((c.connectAndLoop r.room r.attempt).2.bind Raised.retryAfterMs = none → r.Loggable) := by
  unfold Round.Loggable
  cases hattempt : r.attempt with
  | failed text =>
    refine ⟨fun exc ms hexc hms => ?_, fun _ => trivial⟩
    cases hexc
    cases hms
  | response reqId msg after =>
    have hretry : (c.connectAndLoop r.room (.response reqId msg after)).2.bind
        Raised.retryAfterMs = retryAfterOf r.room reqId msg := by
      rw [← recvConnectResponse_retry c r.room reqId msg]
      unfold Client.connectAndLoop
      dsimp only
      split
      · rename_i hrecv
        rw [hrecv]
      · rename_i hrecv
        rw [hrecv]
        cases after <;> rfl
    refine ⟨fun exc ms hexc hms => ?_, fun hnone ms hms => ?_⟩
    · rw [hexc, Option.bind_some, hms] at hretry
      refine ⟨⟨fun h => h ms hretry.symm, fun h other hother => ?_⟩,
        retryAfterOf_millis hretry.symm⟩
      rw [← hretry, Option.some.injEq] at hother
      exact hother ▸ h
    · rw [← hretry, hnone] at hms
      cases hms

omit [Runtime] in
theorem reloadDeviceToken_bounded {c : Client} (hc : c.Bounded) (stored : PyStr) :
    (c.reloadDeviceToken stored).Bounded := by
  unfold Client.reloadDeviceToken
  split <;> exact hc

theorem handle_bounded {c : Client} (hc : c.Bounded) {config : Config} {now : Nat} {exc : Raised}
    {next : Client} {delay : Binary64} (h : c.handle config now exc = .ok (next, delay)) :
    next.Bounded := by
  have hdelay := (handle_delay h).2
  have hbounded : (c.nextReconnectDelay exc).1.Bounded := by
    cases hms : exc.retryAfterMs with
    | none => exact (nextReconnectDelay_plain hc hms).1
    | some ms =>
      cases exc with
      | other text => cases hms
      | pairing code message retryAfterMs =>
        cases hms
        exact ⟨0, Nat.cast_zero.symm, by omega⟩
  obtain ⟨n, hn, hle⟩ := hbounded
  exact ⟨n, hdelay.trans hn, hle⟩

theorem round_bounded {c : Client} (hc : c.Bounded) {config : Config} {r : Round} {next : Client}
    {delay : Option Binary64} (h : c.round config r = .ok (next, delay)) : next.Bounded := by
  have hended := connectAndLoop_bounded (reloadDeviceToken_bounded hc r.storedToken) r.room r.attempt
  unfold Client.round at h
  split at h
  · rename_i hattempt
    rw [hattempt] at hended
    cases h
    exact hended
  · rename_i ended exc hattempt
    rw [hattempt] at hended
    cases hhandle : ended.handle config r.now exc with
    | error e =>
      rw [hhandle] at h
      cases h
    | ok result =>
      rw [hhandle] at h
      cases h
      exact handle_bounded hended hhandle

/-- A round goes on, with a delay that can be waited for, exactly when its frame allows it. -/
theorem round_iff {c : Client} (hc : c.Bounded) (config : Config) (r : Round)
    (hclock : r.now + 300000000 ≤ maxInstant) :
    (∃ next delay, c.round config r = .ok (next, delay) ∧ ∀ d ∈ delay, Waits r.now d) ↔
      r.Loggable := by
  have hended := connectAndLoop_bounded (reloadDeviceToken_bounded hc r.storedToken) r.room r.attempt
  obtain ⟨hframe, hplain⟩ := connectAndLoop_retry (c.reloadDeviceToken r.storedToken) r
  unfold Client.round
  split
  · rename_i hattempt
    rw [hattempt] at hplain
    exact iff_of_true ⟨_, none, rfl, nofun⟩ (hplain rfl)
  · rename_i ended exc hattempt
    rw [hattempt] at hframe hplain hended
    -- the handler goes on exactly when it can wait
    have hgoes : ∀ hdelay : NotNegative (ended.nextReconnectDelay exc).2,
        (∃ next delay, (ended.handle config r.now exc).map (fun next => (next.1, some next.2)) =
            .ok (next, delay) ∧ ∀ d ∈ delay, Waits r.now d) ↔
          Waits r.now (ended.nextReconnectDelay exc).2 := by
      intro hdelay
      constructor
      · rintro ⟨next, delay, hmap, hwaits⟩
        cases hhandle : ended.handle config r.now exc with
        | error e =>
          rw [hhandle] at hmap
          cases hmap
        | ok result =>
          rw [hhandle] at hmap
          cases hmap
          rw [← (handle_delay hhandle).1]
          exact hwaits _ rfl
      · intro hwaits
        obtain ⟨next, hnext⟩ := (handle_eq_ok_iff hdelay).mpr hwaits
        refine ⟨next, some _, by rw [hnext]; rfl, fun d hd => ?_⟩
        cases hd
        exact hwaits
    cases hms : exc.retryAfterMs with
    | none =>
      obtain ⟨-, n, hn, hle⟩ := nextReconnectDelay_plain hended hms
      rw [hgoes (by rw [hn]; exact Nat.cast_nonneg n), hn]
      exact iff_of_true (waits_natCast hclock hle) (hplain hms)
    | some ms =>
      obtain ⟨hiff, hmillis⟩ := hframe exc ms rfl hms
      have hdiv : (ended.nextReconnectDelay exc).2 = ms.div 1000 := by
        cases exc with
        | other text => cases hms
        | pairing code message retryAfterMs =>
          cases hms
          rfl
      rw [hgoes (by rw [hdiv]; exact div_notNegative hmillis), hdiv, div_waits_iff hmillis, hiff]

/-! ## Every run -/

omit [Runtime] in
/-- The delays of a run are that of its first round and those of the rest. -/
theorem waits_cons {now : Nat} {delay : Option Binary64} {delays : List (Nat × Binary64)} :
    (∀ d ∈ (delay.map fun d => (now, d)).toList ++ delays, Waits d.1 d.2) ↔
      (∀ d ∈ delay, Waits now d) ∧ ∀ d ∈ delays, Waits d.1 d.2 := by
  rw [List.forall_mem_append]
  apply and_congr_left'
  cases delay with
  | none => exact iff_of_true nofun nofun
  | some d => simp

/-- The loop goes through every round, each time with a delay that can be waited for, exactly when
no frame refuses with a `retryAfterMs` that is not finite or whose instant cannot be logged. -/
theorem run_goes_on_iff (token : PyStr) (config : Config) (rounds : List Round)
    (hclock : ∀ r ∈ rounds, r.now + 300000000 ≤ maxInstant) :
    (∃ c delays, Client.run { deviceToken := token } config rounds = .ok (c, delays) ∧
        ∀ d ∈ delays, Waits d.1 d.2) ↔ ∀ r ∈ rounds, r.Loggable := by
  have hstart : ({ deviceToken := token } : Client).Bounded :=
    ⟨0, Nat.cast_zero.symm, by omega⟩
  generalize ({ deviceToken := token } : Client) = c at hstart
  -- the invariant is that the backoff of the client stays within its bound
  induction rounds generalizing c with
  | nil => exact iff_of_true ⟨c, [], rfl, nofun⟩ nofun
  | cons r rounds ih =>
    rw [List.forall_mem_cons] at hclock
    rw [List.forall_mem_cons, ← round_iff hstart config r hclock.1]
    unfold Client.run
    cases hround : c.round config r with
    | error e =>
      exact iff_of_false (fun ⟨_, _, h, _⟩ => by cases h) (fun ⟨⟨_, _, h, _⟩, _⟩ => by cases h)
    | ok result =>
      obtain ⟨next, delay⟩ := result
      have hrest := ih hclock.2 next (round_bounded hstart hround)
      dsimp only
      constructor
      · rintro ⟨last, delays, hrun, hwaits⟩
        cases hnext : next.run config rounds with
        | error e =>
          rw [hnext] at hrun
          cases hrun
        | ok done =>
          rw [hnext] at hrun
          cases hrun
          rw [waits_cons] at hwaits
          exact ⟨⟨next, delay, rfl, hwaits.1⟩, hrest.mp ⟨done.1, done.2, hnext, hwaits.2⟩⟩
      · rintro ⟨⟨_, _, hok, hdelay⟩, hlater⟩
        cases hok
        obtain ⟨last, delays, hrun, hwaits⟩ := hrest.mpr hlater
        refine ⟨last, _, by rw [hrun]; rfl, ?_⟩
        exact waits_cons.mpr ⟨hdelay, hwaits⟩

end

/-! ## Samples -/

/-- A frame that refuses with a `retryAfterMs`. -/
def refusal (retryAfterMs : Json) : Json :=
  obj [("type", .str (py "res")), ("id", .str (py "r")), ("ok", .bool false),
    ("error", obj [("code", .str (py "UNAVAILABLE")), ("retryAfterMs", retryAfterMs)])]

def openConfig : Config := ⟨py "pair", true⟩

/-- A gateway that asks for a second and a quarter is waited for. -/
theorem run_goes_on_quarter : ∃ c delays,
    @Client.run (.ofTable []) { deviceToken := [] } openConfig
      [⟨[], .response (py "r") (refusal (.int 1250)) none, 10, 0⟩] = .ok (c, delays) ∧ ∀ d ∈ delays, Waits d.1 d.2 := by
  refine (@run_goes_on_iff (.ofTable []) [] openConfig _ ?_).mpr ?_
  · intro r hr
    rw [List.mem_singleton.mp hr]
    decide
  · intro r hr
    rw [List.mem_singleton.mp hr]
    intro ms hms
    have hvalue : @retryAfterOf (.ofTable []) 10 (py "r") (refusal (.int 1250)) =
        some (.finite 1250) := by decide +kernel
    rw [hvalue, Option.some.injEq] at hms
    exact ⟨1250, hms.symm, by decide +kernel⟩

/-- `Infinity` milliseconds end the loop in its own handler. -/
theorem infinite_retry_ends_loop :
    @Client.run (.ofTable []) { deviceToken := [] } openConfig
      [⟨[], .response (py "r") (refusal (.float (.inf false))) none, 10, 63900000000000000⟩] =
      .error (py "OverflowError: cannot convert float infinity to integer") := by
  rfl

end HassNode.Reconnect
