import HassNode.BackupResolve
import HassNode.BackupRuns
import HassNode.Library.LatestEntry

/-!
# Restoring as of a time

`resolve_version` takes the last version of the log that is not after the time.  That is the greatest
one as long as no rename puts a version in front of an earlier one; a time without a zone cannot be
compared with the recorded ones at all.
-/

namespace HassNode.BackupStore

open Py Py.JsonText NodeApproval Indent Compact Surrogates LatestEntry

/-! ## Recorded times -/

theorem mem_isoText {m : Moment} {c : CodePoint} (hc : c ∈ m.isoText) :
    (∃ d : Fin 10, c = digit d) ∨ c = 45 ∨ c = 84 ∨ c = 58 := by
  have htwo : ∀ n, c ∈ twoDigits n → ∃ d : Fin 10, c = digit d := by
    intro n hn
    rcases List.mem_pair.mp hn with h | h
    · exact ⟨_, h⟩
    · exact ⟨_, h⟩
  simp only [Moment.isoText, fourDigits, List.mem_append, List.mem_singleton] at hc
  grind

theorem printable_isoText (m : Moment) : Printable m.isoText := by
  intro c hc
  rcases mem_isoText hc with ⟨d, rfl⟩ | rfl | rfl | rfl
  · show 0x20 ≤ 48 + d.val ∧ 48 + d.val < 0x7F
    omega
  all_goals decide

theorem zoned_utcNowIso (m : Moment) : zoned (utcNowIso m) = m.isoText ++ py "+00:00" := by
  have hkeep : m.isoText.flatMap (fun c => if c = 90 then py "+00:00" else [c]) = m.isoText := by
    nth_rewrite 2 [← List.flatMap_singleton' m.isoText]
    apply List.flatMap_congr
    intro c hc
    apply if_neg
    rcases mem_isoText hc with ⟨d, rfl⟩ | rfl | rfl | rfl
    · intro h
      have hval : 48 + d.val = 90 := congrArg Fin.val h
      omega
    all_goals decide
  unfold zoned utcNowIso
  rw [List.flatMap_append, hkeep]
  rfl

section

variable [IsoFormat]

/-- The texts of the clock are read as its moments. -/
theorem parseIso_utcNowIso (m : Moment) : parseIso (utcNowIso m) = some (.aware m.instant) := by
  unfold parseIso
  rw [zoned_utcNowIso]
  exact IsoFormat.reads_utc m

/-- The time of a version, if its text can be read. -/
def Version.time (v : Version) : Int := ((parseIso v.ts).map Timestamp.instant).getD 0

/-- The version was recorded at a time with a zone. -/
def Version.Zoned (v : Version) : Prop := parseIso v.ts = some (.aware v.time)

/-! ## The search -/

theorem candidates_aware {vs : List Version} (hvs : ∀ v ∈ vs, v.Zoned) (t : Int) :
    candidates (.aware t) vs = .ok (vs.filter fun v => decide (v.time ≤ t)) := by
  induction vs with
  | nil => rfl
  | cons v vs ih =>
    have hv : parseIso v.ts = some (.aware v.time) := hvs v (.head _)
    unfold candidates readTs
    rw [hv, ih fun w hw => hvs w (.tail _ hw), List.filter_cons]
    rfl

theorem candidates_naive {v : Version} (hv : v.Zoned) (vs : List Version) (t : Int) :
    candidates (.naive t) (v :: vs) = .error .offsetComparison := by
  have hread : parseIso v.ts = some (.aware v.time) := hv
  unfold candidates readTs
  rw [hread]
  rfl

/-- `resolve_version(path, at=at)` on the history `versions`. -/
def resolveAt (path at_ : PyStr) (versions : List Version) : Except ResolveError Version :=
  match versions with
  | [] => .error (.noVersionsForPath path)
  | versions => do
    let atDt ← readTs at_
    match (← candidates atDt versions).getLast? with
    | none => .error (.noVersionAtTime at_ path)
    | some v => .ok v

theorem resolveVersion_at [Runtime] {room : Nat} {s : Store} {path at_ : PyStr}
    {versions : List Version} (hhistory : s.history room path = .ok versions) :
    s.resolveVersion room path { at_ := some at_ } = resolveAt path at_ versions := by
  have hone : ¬ ({ at_ := some at_ } : Selector).chosen ≠ 1 := not_not.mpr rfl
  unfold Store.resolveVersion
  rw [if_neg hone, hhistory]
  cases versions <;> rfl

/-- The greatest version that is not after `when`, or the not-found error when there is none. -/
def RightAt (versions : List Version) (when : Timestamp) : Except ResolveError Version → Prop
  | .ok v => v ∈ versions ∧ v.time ≤ when.instant ∧
      ∀ w ∈ versions, w.time ≤ when.instant → w.time ≤ v.time
  | .error e => e.isVersionNotFoundError = true ∧ e.isBackupStoreError = true ∧
      ∀ w ∈ versions, ¬ w.time ≤ when.instant

theorem resolveAt_aware {versions : List Version} (hvs : ∀ v ∈ versions, v.Zoned)
    {path at_ : PyStr} {t : Int} (hat : parseIso at_ = some (.aware t)) (hne : versions ≠ []) :
    resolveAt path at_ versions =
      match latest Version.time t versions with
      | none => .error (.noVersionAtTime at_ path)
      | some v => .ok v := by
  cases versions with
  | nil => exact absurd rfl hne
  | cons v vs =>
    unfold resolveAt readTs
    rw [hat]
    show (candidates (.aware t) (v :: vs) >>= _) = _
    rw [candidates_aware hvs]
    rfl

/-- On a log of zoned versions the answer is right whenever the log can be searched. -/
theorem rightAt_of_searchable {versions : List Version} (hvs : ∀ v ∈ versions, v.Zoned)
    (hsearch : Searchable Version.time versions) {path at_ : PyStr} {t : Int}
    (hat : parseIso at_ = some (.aware t)) :
    RightAt versions (.aware t) (resolveAt path at_ versions) := by
  by_cases hnil : versions = []
  · subst hnil
    exact ⟨rfl, rfl, nofun⟩
  rw [resolveAt_aware hvs hat hnil]
  cases hlatest : latest Version.time t versions with
  | none => exact ⟨rfl, rfl, latest_eq_none.mp hlatest⟩
  | some v =>
    obtain ⟨hmem, hle⟩ := mem_of_latest hlatest
    exact ⟨hmem, hle, fun w hw hwt => le_latest hsearch hlatest hw hwt⟩

/-- It is right at the times of the log's own versions only if the log can be searched. -/
theorem searchable_of_rightAt {versions : List Version} (hvs : ∀ v ∈ versions, v.Zoned) {path : PyStr}
    (hright : ∀ v ∈ versions, RightAt versions (.aware v.time) (resolveAt path v.ts versions)) :
    Searchable Version.time versions := by
  apply searchable_of_latest
  intro w hw v hlatest
  have hne : versions ≠ [] := List.ne_nil_of_mem hw
  have hw' := hright w hw
  rw [resolveAt_aware hvs (hvs w hw) hne, hlatest] at hw'
  exact hw'.2.2 w hw le_rfl

/-- Without a zone the comparison with any version raises a `TypeError`. -/
theorem resolveAt_naive {versions : List Version} (hvs : ∀ v ∈ versions, v.Zoned)
    {path at_ : PyStr} {t : Int} (hat : parseIso at_ = some (.naive t)) (hne : versions ≠ []) :
    resolveAt path at_ versions = .error .offsetComparison := by
  cases versions with
  | nil => exact absurd rfl hne
  | cons v vs =>
    unfold resolveAt readTs
    rw [hat]
    show (candidates (.naive t) (v :: vs) >>= _) = _
    rw [candidates_naive (hvs v (.head _))]
    rfl

end

/-! ## Runs by the clock -/

/-- A capture that is recorded under the clock's text of a moment. -/
structure TimedCapture extends Capture where
  moment : Moment
  stamped : now = utcNowIso moment

inductive Event
  | capture (c : TimedCapture)
  | rename (src dst : PyStr)

def Event.step : Event → Step
  | .capture c => .capture c.toCapture
  | .rename src dst => .rename src dst

def Event.time? : Event → Option Int
  | .capture c => some c.moment.instant
  | .rename .. => none

/-- The clock never goes back between two captures. -/
def InOrder (events : List Event) : Prop := (events.filterMap Event.time?).Pairwise (· ≤ ·)

section

variable [Runtime] [Digest] [IsoFormat]

/-- The store that the events leave. -/
def after (room : Nat) (events : List Event) : Store := run room (events.map Event.step)

/-- The source's versions may go in front of those of the destination: each of them is earlier than all
of those, or its time comes again among them. -/
def Mergeable (room : Nat) (s : Store) (src dst : PyStr) : Prop :=
  src ≠ dst → ∀ vs ws, s.history room src = .ok vs → s.history room dst = .ok ws →
    ∀ v ∈ vs, (∃ w ∈ ws, w.time = v.time) ∨ ∀ w ∈ ws, v.time < w.time

/-- Every version is zoned and from a moment of the run. -/
structure Timed (events : List Event) (h : LogIndex.Histories PyStr Entry) : Prop where
  zoned : ∀ path, ∀ e ∈ h path, e.1.Zoned
  recorded : ∀ path, ∀ e ∈ h path, e.1.time ∈ events.filterMap Event.time?

abbrev AllSearchable (h : LogIndex.Histories PyStr Entry) : Prop :=
  ∀ path, Searchable Version.time ((h path).map Prod.fst)

omit [Runtime] in
theorem TimedCapture.zoned_version (c : TimedCapture) (before : List Entry) :
    (c.joined.version before).Zoned ∧ (c.joined.version before).time = c.moment.instant := by
  have hascii : Ascii (utcNowIso c.moment) :=
    (printable_isoText c.moment).ascii.append (ascii_of_all (by decide))
  have hts : (c.joined.version before).ts = utcNowIso c.moment := by
    show joinPairs c.now = _
    rw [c.stamped]
    exact joinPairs_of_unsplit (noPair_of_ascii hascii)
  have htime : (c.joined.version before).time = c.moment.instant := by
    unfold Version.time
    rw [hts, parseIso_utcNowIso]
    rfl
  constructor
  · unfold Version.Zoned
    rw [hts, htime]
    exact parseIso_utcNowIso c.moment
  · exact htime

omit [Runtime] in
theorem timed_run (events : List Event) : Timed events (histories (events.map Event.step)) := by
  induction events using List.reverseRecOn with
  | nil => exact ⟨fun _ _ he => absurd he List.not_mem_nil, fun _ _ he => absurd he List.not_mem_nil⟩
  | append_singleton events event ih =>
    -- a version of the new histories was there before or is the one just captured
    have hentry : ∀ path, ∀ e ∈ histories ((events ++ [event]).map Event.step) path,
        e.1.Zoned ∧ e.1.time ∈ (events ++ [event]).filterMap Event.time? := by
      intro path e he
      have hold : ∀ k, e ∈ histories (events.map Event.step) k →
          e.1.Zoned ∧ e.1.time ∈ (events ++ [event]).filterMap Event.time? := by
        intro k hk
        rw [List.filterMap_append]
        exact ⟨ih.zoned k e hk, List.mem_append_left _ (ih.recorded k e hk)⟩
      rw [List.map_append, List.map_singleton, histories_concat] at he
      cases event with
      | capture c =>
        change e ∈ (if storable c.path = true then _ else histories (events.map Event.step)) path at he
        split at he
        · rcases LogIndex.mem_append he with ⟨k, hk⟩ | rfl
          · exact hold k hk
          · have hversion := c.zoned_version (histories (events.map Event.step) c.path)
            refine ⟨hversion.1, ?_⟩
            rw [List.filterMap_append]
            exact List.mem_append_right _ (List.mem_singleton.mpr hversion.2)
        · exact hold path he
      | rename src dst =>
        change e ∈ (if _ then LogIndex.rename _ src dst else _) path at he
        split at he
        · obtain ⟨k, hk⟩ := LogIndex.mem_rename he
          exact hold k hk
        · exact hold path he
    exact ⟨fun path e he => (hentry path e he).1, fun path e he => (hentry path e he).2⟩

omit [Runtime] in
theorem searchable_capture {h : LogIndex.Histories PyStr Entry} (hsearch : AllSearchable h)
    (c : TimedCapture) (hbound : ∀ path, ∀ e ∈ h path, e.1.time ≤ c.moment.instant) :
    AllSearchable (modelStep h (.capture c.joined)) := by
  intro path
  show Searchable Version.time (((if storable c.path = true then _ else h) path).map Prod.fst)
  split
  · by_cases hpath : path = c.path
    · subst hpath
      change Searchable Version.time ((LogIndex.append h c.path _ c.path).map Prod.fst)
      rw [LogIndex.append_self, List.map_append]
      apply searchable_concat (hsearch c.path)
      intro w hw
      obtain ⟨e, he, hew⟩ := List.mem_map.mp hw
      rw [← hew]
      exact (hbound c.path e he).trans_eq (c.zoned_version (h c.path)).2.symm
    · change Searchable Version.time ((LogIndex.append h c.path _ path).map Prod.fst)
      rw [LogIndex.append_of_ne h _ hpath]
      exact hsearch path
  · exact hsearch path

/-- A rename keeps the logs searchable exactly if its two logs may be merged. -/
theorem searchable_rename_iff {room : Nat} {s : Store} {h : LogIndex.Histories PyStr Entry}
    (hs : Indexes s h) (hsearch : AllSearchable h) (src dst : PyStr) :
    AllSearchable (modelStep h (.rename src dst)) ↔ Mergeable room s src dst := by
  unfold Mergeable
  simp only [hs.history_eq_ok]
  constructor
  · rintro hrenamed hne vs ws ⟨hsrc, rfl⟩ ⟨hdst, rfl⟩
    have hmerged := hrenamed dst
    change Searchable Version.time (((if _ then LogIndex.rename h src dst else h) dst).map Prod.fst)
      at hmerged
    rw [if_pos ⟨hsrc, hdst⟩, LogIndex.rename_dst h hne, List.map_append] at hmerged
    exact (searchable_append (hsearch src) (hsearch dst)).mp hmerged
  · intro hmerge path
    show Searchable Version.time (((if _ then LogIndex.rename h src dst else h) path).map Prod.fst)
    split
    · rename_i hboth
      by_cases hsrc : path = src
      · rw [hsrc, LogIndex.rename_src]
        trivial
      · by_cases hdst : path = dst
        · subst hdst
          rw [LogIndex.rename_dst h (Ne.symm hsrc), List.map_append]
          apply (searchable_append (hsearch src) (hsearch path)).mpr
          exact hmerge (Ne.symm hsrc) _ _ ⟨hboth.1, rfl⟩ ⟨hboth.2, rfl⟩
        · rw [LogIndex.rename_of_ne h hsrc hdst]
          exact hsearch path
    · exact hsearch path

/-- What the restore answers after the events. -/
def restoreAt (room : Nat) (events : List Event) (path at_ : PyStr) : Except ResolveError Version :=
  (after room events).resolveVersion room path { at_ := some at_ }

omit [IsoFormat] in
theorem indexes_after (room : Nat) (events : List Event) :
    Indexes (after room events) (histories (events.map Event.step)) :=
  indexes_run room (events.map Event.step)

theorem zoned_history {room : Nat} {events : List Event} {path : PyStr} {vs : List Version}
    (hvs : (after room events).history room path = .ok vs) : ∀ v ∈ vs, v.Zoned := by
  have ⟨_, hmap⟩ := (indexes_after room events).history_eq_ok.mp hvs
  rw [← hmap]
  intro v hv
  have ⟨e, he, hev⟩ := List.mem_map.mp hv
  rw [← hev]
  exact (timed_run events).zoned path e he

/-- All answers of one store are right exactly if its logs can be searched. -/
theorem rightAt_iff_searchable (room : Nat) (events : List Event) :
    (∀ path vs at_ t, (after room events).history room path = .ok vs →
        parseIso at_ = some (.aware t) → RightAt vs (.aware t) (restoreAt room events path at_)) ↔
      AllSearchable (histories (events.map Event.step)) := by
  have hs := indexes_after room events
  constructor
  · intro hright path
    by_cases hpath : histories (events.map Event.step) path = []
    · rw [hpath]
      trivial
    · have hhistory := hs.history (hs.storable_of_ne hpath) room
      have hvs := zoned_history hhistory
      have hall : ∀ v ∈ (histories (events.map Event.step) path).map Prod.fst,
          RightAt ((histories (events.map Event.step) path).map Prod.fst) (.aware v.time)
            (resolveAt path v.ts ((histories (events.map Event.step) path).map Prod.fst)) := by
        intro v hv
        rw [← resolveVersion_at hhistory]
        exact hright path _ v.ts v.time hhistory (hvs v hv)
      exact searchable_of_rightAt hvs hall
  · intro hsearch path vs at_ t hhistory hat
    unfold restoreAt
    rw [resolveVersion_at hhistory]
    apply rightAt_of_searchable (zoned_history hhistory) _ hat
    have ⟨_, hmap⟩ := hs.history_eq_ok.mp hhistory
    rw [← hmap]
    exact hsearch path

/-- The logs of a run can be searched if each of its renames merges what may be merged. -/
theorem searchable_run {room : Nat} {events : List Event} (horder : InOrder events)
    (hmerge : ∀ before src dst, before ++ [.rename src dst] <+: events →
      Mergeable room (after room before) src dst) :
    AllSearchable (histories (events.map Event.step)) := by
  induction events using List.reverseRecOn with
  | nil => exact fun _ => trivial
  | append_singleton events event ih =>
    unfold InOrder at horder
    rw [List.filterMap_append, List.pairwise_append] at horder
    have hbefore := ih horder.1 fun before src dst hbegins =>
      hmerge before src dst (hbegins.trans (List.prefix_append _ _))
    rw [List.map_append, List.map_singleton, histories_concat]
    cases event with
    | capture c =>
      apply searchable_capture hbefore c
      intro path e he
      exact horder.2.2 _ ((timed_run events).recorded path e he) _ (.head _)
    | rename src dst =>
      exact (searchable_rename_iff (indexes_after room events) hbefore src dst).mpr
        (hmerge events src dst (List.prefix_refl _))

/-- In every store that a run reaches, every time with a zone is answered by the greatest version that is
not after it, or by the not-found error, exactly if each rename of the run merges what may be merged; a
time without a zone is answered so only where no version is recorded. -/
theorem restore_at_time_iff (room : Nat) (events : List Event) (horder : InOrder events) :
    ((∀ before, before <+: events → ∀ path vs at_ t,
        (after room before).history room path = .ok vs → parseIso at_ = some (.aware t) →
        RightAt vs (.aware t) (restoreAt room before path at_)) ↔
      ∀ before src dst, before ++ [.rename src dst] <+: events →
        Mergeable room (after room before) src dst) ∧
    ∀ before, before <+: events → ∀ path vs at_ t,
      (after room before).history room path = .ok vs → parseIso at_ = some (.naive t) →
      (RightAt vs (.naive t) (restoreAt room before path at_) ↔ vs = []) := by
  constructor
  · constructor
    -- a rename keeps the histories searchable just if it merges what may be merged
    · intro hright before src dst hbegins
      have hbefore := (rightAt_iff_searchable room before).mp
        (hright before ((List.prefix_append _ _).trans hbegins))
      have hafter := (rightAt_iff_searchable room _).mp (hright _ hbegins)
      rw [List.map_append, List.map_singleton, histories_concat] at hafter
      exact (searchable_rename_iff (indexes_after room before) hbefore src dst).mp hafter
    · intro hmerge before hbegins
      apply (rightAt_iff_searchable room before).mpr
      have hearlier : InOrder before := horder.sublist (hbegins.sublist.filterMap _)
      exact searchable_run hearlier fun earlier src dst h => hmerge earlier src dst (h.trans hbegins)
  · intro before _ path vs at_ t hhistory hat
    unfold restoreAt
    rw [resolveVersion_at hhistory]
    constructor
    · intro hright
      by_contra hne
      rw [resolveAt_naive (zoned_history hhistory) hat hne] at hright
      exact absurd hright.1 (by decide)
    · rintro rfl
      exact ⟨rfl, rfl, nofun⟩

end

/-! ## Two runs that are answered wrongly -/

def pairValue (c d : CodePoint) : Nat := (c.val - 48) * 10 + (d.val - 48)

/-- The extended format, in UTC or without a zone. -/
def readExtended : PyStr → Option Timestamp
  | y1 :: y2 :: y3 :: y4 :: 45 :: mo1 :: mo2 :: 45 :: d1 :: d2 :: 84 :: h1 :: h2 :: 58 :: mi1 :: mi2 ::
      58 :: s1 :: s2 :: zone =>
    let instant := instantOf (pairValue y1 y2 * 100 + pairValue y3 y4) (pairValue mo1 mo2)
      (pairValue d1 d2) (pairValue h1 h2) (pairValue mi1 mi2) (pairValue s1 s2)
    if zone = [] then some (.naive instant)
    else if zone = py "+00:00" then some (.aware instant)
    else none
  | _ => none

theorem pairValue_decimalDigit {n : Nat} (hn : n < 100) :
    pairValue (decimalDigit (n / 10)) (decimalDigit n) = n := by
  show (48 + n / 10 % 10 - 48) * 10 + (48 + n % 10 - 48) = n
  omega

@[reducible] def extendedFormat : IsoFormat where
  fromisoformat := readExtended
  reads_utc m := by
    have hyear : pairValue (decimalDigit (m.year / 100 / 10)) (decimalDigit (m.year / 100)) * 100 +
        pairValue (decimalDigit (m.year / 10)) (decimalDigit m.year) = m.year := by
      have hle := m.year_mem.2
      rw [pairValue_decimalDigit (by omega)]
      show m.year / 100 * 100 + ((48 + m.year / 10 % 10 - 48) * 10 + (48 + m.year % 10 - 48)) = m.year
      omega
    have hmonth := pairValue_decimalDigit (m.month_mem.2.trans_lt (by decide : 12 < 100))
    have hday : pairValue (decimalDigit (m.day / 10)) (decimalDigit m.day) = m.day := by
      apply pairValue_decimalDigit
      have hlast : daysInMonth m.year m.month ≤ 31 := by
        unfold daysInMonth
        split_ifs <;> decide
      have hle := m.day_mem.2
      omega
    have hhour := pairValue_decimalDigit (m.hour_lt.trans (by decide : 24 < 100))
    have hminute := pairValue_decimalDigit (m.minute_lt.trans (by decide : 60 < 100))
    have hsecond := pairValue_decimalDigit (m.second_lt.trans (by decide : 60 < 100))
    show some (Timestamp.aware (instantOf _ _ _ _ _ _)) = some (.aware (instantOf _ _ _ _ _ _))
    rw [hyear, hmonth, hday, hhour, hminute, hsecond]

/-- A full hour of the first of May 2024. -/
def mayHour (hour : Nat) (h : hour < 24) : Moment where
  year := 2024
  month := 5
  day := 1
  hour := hour
  minute := 0
  second := 0
  year_mem := by decide
  month_mem := by decide
  day_mem := by decide
  hour_lt := h
  minute_lt := by decide
  second_lt := by decide

def capturedAt (path : PyStr) (moment : Moment) : TimedCapture where
  path := path
  bytes := [104, 105]
  bytes_lt := sampleBytes_lt
  proposalId := py "direct"
  op := .write
  actor := py "agent"
  now := utcNowIso moment
  moment := moment
  stamped := rfl

/-- A file is captured at ten, another one at eleven, and then the earlier one is moved onto the later. -/
def mergedEvents : List Event :=
  [.capture (capturedAt (py "/share/a.txt") (mayHour 10 (by decide))),
    .capture (capturedAt (py "/share/b.txt") (mayHour 11 (by decide))),
    .rename (py "/share/a.txt") (py "/share/b.txt")]

theorem restore_at_time_sample :
    let _ := Runtime.ofTable []
    let _ := sampleDigest
    let _ := extendedFormat
    InOrder mergedEvents ∧
      ((after 10 mergedEvents).history 10 (py "/share/b.txt")).map (·.map Version.ts) =
        .ok [py "2024-05-01T10:00:00Z", py "2024-05-01T11:00:00Z"] ∧
      ∀ path vs at_ t, (after 10 mergedEvents).history 10 path = .ok vs →
        parseIso at_ = some (.aware t) → RightAt vs (.aware t) (restoreAt 10 mergedEvents path at_) := by
  intro _ _ _
  have horder : InOrder mergedEvents := by
    unfold InOrder
    decide +kernel
  have hpath : storable (py "/share/b.txt") = true := by decide
  have hmerge : ∀ before src dst, before ++ [Event.rename src dst] <+: mergedEvents →
      Mergeable 10 (after 10 before) src dst := by
    intro before src dst hbegins
    have hcaptured : before = mergedEvents.take 2 ∧ src = py "/share/a.txt" ∧ dst = py "/share/b.txt" := by
      obtain ⟨rest, heq⟩ := hbegins
      rcases before with _ | ⟨first, _ | ⟨second, _ | ⟨third, before⟩⟩⟩
      · cases (List.cons.inj heq).1
      · cases (List.cons.inj (List.cons.inj heq).2).1
      · cases heq
        exact ⟨rfl, rfl, rfl⟩
      · cases before with
        | nil => cases heq
        | cons fourth before => cases heq
    obtain ⟨rfl, rfl, rfl⟩ := hcaptured
    have hs := @indexes_after (Runtime.ofTable []) sampleDigest 10 (mergedEvents.take 2)
    intro _ vs ws hvs hws v hv
    right
    intro w hw
    rw [← (hs.history_eq_ok.mp hvs).2] at hv
    rw [← (hs.history_eq_ok.mp hws).2] at hw
    revert w v
    decide +kernel
  have hs := @indexes_after (Runtime.ofTable []) sampleDigest 10 mergedEvents
  refine ⟨horder, ?_, (restore_at_time_iff 10 mergedEvents horder).1.mpr hmerge _ (List.prefix_refl _)⟩
  rw [hs.history hpath 10]
  decide +kernel

/-- A file is captured at ten, another one at eleven and then moved onto the first. -/
def movedEvents : List Event :=
  [.capture (capturedAt (py "/share/b.txt") (mayHour 10 (by decide))),
    .capture (capturedAt (py "/share/a.txt") (mayHour 11 (by decide))),
    .rename (py "/share/a.txt") (py "/share/b.txt")]

/-- At twelve the answer is the version of ten; without a zone it is a `TypeError`. -/
theorem restore_at_time_wrong :
    let _ := Runtime.ofTable []
    let _ := sampleDigest
    let _ := extendedFormat
    InOrder movedEvents ∧
      ((after 10 movedEvents).history 10 (py "/share/b.txt")).map (·.map Version.ts) =
        .ok [py "2024-05-01T11:00:00Z", py "2024-05-01T10:00:00Z"] ∧
      (restoreAt 10 movedEvents (py "/share/b.txt") (py "2024-05-01T12:00:00Z")).map Version.ts =
        .ok (py "2024-05-01T10:00:00Z") ∧
      restoreAt 10 movedEvents (py "/share/b.txt") (py "2024-05-01T12:00:00") =
        .error .offsetComparison ∧
      ResolveError.offsetComparison.handled = false := by
  intro _ _ _
  have hs := @indexes_after (Runtime.ofTable []) sampleDigest 10 movedEvents
  have hpath : storable (py "/share/b.txt") = true := by decide
  have hhistory := hs.history hpath 10
  unfold restoreAt
  rw [hhistory, resolveVersion_at hhistory, resolveVersion_at hhistory]
  refine ⟨?_, by decide +kernel, by decide +kernel, by decide +kernel, rfl⟩
  unfold InOrder
  decide +kernel

end HassNode.BackupStore
