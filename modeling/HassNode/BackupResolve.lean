import HassNode.BackupStore

/-!
# `BackupStore.resolve_version`

The selectors of a version, and the reading of timestamps.
-/

namespace HassNode.BackupStore

open Py

/-! ## Timestamps -/

/-- A `datetime`, as the microseconds since the first day of the calendar: with a zone, or without one. -/
inductive Timestamp
  | aware (instant : Int)
  | naive (instant : Int)
  deriving DecidableEq, Repr

/-- The instant of a timestamp, which is in UTC when no zone is given. -/
def Timestamp.instant : Timestamp → Int
  | .aware instant | .naive instant => instant

def isLeap (year : Nat) : Bool := year % 4 = 0 && (year % 100 ≠ 0 || year % 400 = 0)

def daysInMonth (year month : Nat) : Nat :=
  if month = 2 then (if isLeap year then 29 else 28)
  else if month = 4 ∨ month = 6 ∨ month = 9 ∨ month = 11 then 30
  else 31

/-- A reading of the clock, to the second and in UTC. -/
structure Moment where
  year : Nat
  month : Nat
  day : Nat
  hour : Nat
  minute : Nat
  second : Nat
  year_mem : 1000 ≤ year ∧ year ≤ 9999
  month_mem : 1 ≤ month ∧ month ≤ 12
  day_mem : 1 ≤ day ∧ day ≤ daysInMonth year month
  hour_lt : hour < 24
  minute_lt : minute < 60
  second_lt : second < 60

/-- `date.toordinal`. -/
def toordinal (year month day : Nat) : Nat :=
  let y := year - 1
  y * 365 + y / 4 - y / 100 + y / 400 + ((List.range (month - 1)).map fun m => daysInMonth year (m + 1)).sum +
    day

def instantOf (year month day hour minute second : Nat) : Int :=
  ((((toordinal year month day * 24 + hour) * 60 + minute) * 60 + second) * 1000000 : Nat)

def Moment.instant (m : Moment) : Int := instantOf m.year m.month m.day m.hour m.minute m.second

def decimalDigit (n : Nat) : CodePoint := digit (Fin.ofNat 10 n)

def twoDigits (n : Nat) : PyStr := [decimalDigit (n / 10), decimalDigit n]

def fourDigits (n : Nat) : PyStr := twoDigits (n / 100) ++ twoDigits n

/-- `strftime("%Y-%m-%dT%H:%M:%S")`. -/
def Moment.isoText (m : Moment) : PyStr :=
  fourDigits m.year ++ [45] ++ twoDigits m.month ++ [45] ++ twoDigits m.day ++ [84] ++
    twoDigits m.hour ++ [58] ++ twoDigits m.minute ++ [58] ++ twoDigits m.second

/-- `_utc_now_iso`, when the clock shows `m`. -/
def utcNowIso (m : Moment) : PyStr := m.isoText ++ py "Z"

/-- `datetime.fromisoformat`, which refuses a text or reads it; all that is used of it is that it reads
a moment in UTC. -/
class IsoFormat where
  fromisoformat : PyStr → Option Timestamp
  reads_utc : ∀ m : Moment, fromisoformat (m.isoText ++ py "+00:00") = some (.aware m.instant)

/-- `ts.replace("Z", "+00:00")`. -/
def zoned (ts : PyStr) : PyStr := ts.flatMap fun c => if c = 90 then py "+00:00" else [c]

/-- `_parse_iso`; nothing is a `ValueError`. -/
def parseIso [IsoFormat] (ts : PyStr) : Option Timestamp := IsoFormat.fromisoformat (zoned ts)

/-! ## Selectors -/

inductive ResolveError
  | store (e : StoreError)
  | selectorRequired
  | noVersionsForPath (path : PyStr)
  | versionOutOfRange (version : Int) (path : PyStr)
  | noSuchProposal (proposalId : PyStr)
  | noVersionWithSha (sha256 path : PyStr)
  | noVersionAtTime (at_ path : PyStr)
  | isoFormat (ts : PyStr)
  | offsetComparison
  deriving DecidableEq, Repr

/-- `isinstance(exc, VersionNotFoundError)`. -/
def ResolveError.isVersionNotFoundError : ResolveError → Bool
  | .noVersionsForPath _ | .versionOutOfRange .. | .noSuchProposal _ | .noVersionWithSha ..
  | .noVersionAtTime .. => true
  | _ => false

/-- `isinstance(exc, BackupStoreError)`. -/
def ResolveError.isBackupStoreError : ResolveError → Bool
  | .store e => e.isBackupStoreError
  | e => e.isVersionNotFoundError

/-- `isinstance(exc, ValueError)`; the errors of the codecs are value errors. -/
def ResolveError.isValueError : ResolveError → Bool
  | .selectorRequired | .isoFormat _ => true
  | .store e => e = .value || e = .unicodeEncode || e = .unicodeDecode
  | _ => false

/-- What `handle_fs_restore` answers with `VERSION_NOT_FOUND`. -/
def ResolveError.handled (e : ResolveError) : Bool :=
  e.isVersionNotFoundError || e.isValueError || e.isBackupStoreError

/-- `a <= b`; a timestamp with a zone and one without cannot be compared. -/
def Timestamp.le : Timestamp → Timestamp → Except ResolveError Bool
  | .aware a, .aware b => .ok (a ≤ b)
  | .naive a, .naive b => .ok (a ≤ b)
  | _, _ => .error .offsetComparison

def readTs [IsoFormat] (ts : PyStr) : Except ResolveError Timestamp :=
  match parseIso ts with
  | none => .error (.isoFormat ts)
  | some t => .ok t

/-- `[v for v in versions if _parse_iso(v.ts) <= at_dt]`. -/
def candidates [IsoFormat] (atDt : Timestamp) : List Version → Except ResolveError (List Version)
  | [] => .ok []
  | v :: rest => do
    let keep ← (← readTs v.ts).le atDt
    let kept ← candidates atDt rest
    return if keep then v :: kept else kept

/-- `versions[index]`. -/
def pyGet? (versions : List Version) (index : Int) : Option Version :=
  if 0 ≤ index then versions[index.toNat]?
  else if 0 ≤ versions.length + index then versions[(versions.length + index).toNat]?
  else none

/-- The selectors that a caller supplies. -/
structure Selector where
  version : Option Int := none
  proposalId : Option PyStr := none
  at_ : Option PyStr := none
  sha256 : Option PyStr := none

def Selector.chosen (sel : Selector) : Nat :=
  [sel.version.isSome, sel.proposalId.isSome, sel.at_.isSome, sel.sha256.isSome].count true

/-- `resolve_version`. -/
def Store.resolveVersion [Runtime] [IsoFormat] (room : Nat) (s : Store) (path : PyStr)
    (sel : Selector) : Except ResolveError Version :=
  if sel.chosen ≠ 1 then .error .selectorRequired
  else
    match s.history room path with
    | .error e => .error (.store e)
    | .ok [] => .error (.noVersionsForPath path)
    | .ok versions =>
      match sel.version, sel.proposalId, sel.sha256, sel.at_ with
      | some version, _, _, _ =>
        if version = 0 then .error (.versionOutOfRange version path)
        else
          match pyGet? versions (if 0 < version then version - 1 else version) with
          | none => .error (.versionOutOfRange version path)
          | some v => .ok v
      | none, some proposalId, _, _ =>
        match versions.find? fun v => v.proposalId = proposalId with
        | none => .error (.noSuchProposal proposalId)
        | some v => .ok v
      | none, none, some sha256, _ =>
        match (versions.filter fun v => v.sha256 = sha256).getLast? with
        | none => .error (.noVersionWithSha sha256 path)
        | some v => .ok v
      | none, none, none, none => .error .selectorRequired
      | none, none, none, some at_ => do
        let atDt ← readTs at_
        match (← candidates atDt versions).getLast? with
        | none => .error (.noVersionAtTime at_ path)
        | some v => .ok v

end HassNode.BackupStore
