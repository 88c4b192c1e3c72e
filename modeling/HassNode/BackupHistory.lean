import HassNode.BackupStore
import HassNode.CompactRoundTrip
import HassNode.Library.LogIndex

/-!
# The backup store is an append-only history

Whatever is captured and renamed, the index files hold the histories of a model that only appends and
moves them, and the bytes of every recorded version can be fetched.
-/

namespace HassNode.BackupStore

open Py Py.JsonText NodeApproval Indent Compact

/-! ## One version -/

/-- No text of the version holds both halves of a surrogate pair, and its size can be printed. -/
structure Version.Plain (v : Version) : Prop where
  ts : v.ts.IsChain NoPair
  proposalId : v.proposalId.IsChain NoPair
  sha256 : v.sha256.IsChain NoPair
  actor : v.actor.IsChain NoPair
  prevSha256 : ∀ sha ∈ v.prevSha256, sha.IsChain NoPair
  size : (natDigits v.size.natAbs).length ≤ maxStrDigits

/-- The payload as `sort_keys` leaves it. -/
def Version.members (v : Version) : Dict :=
  [(py "actor", .str v.actor)] ++ (if v.evicted then [(py "evicted", .bool true)] else []) ++
    [(py "op", .str v.op.text), (py "prev_sha256", v.prevSha256.elim .null .str),
      (py "proposal_id", .str v.proposalId), (py "sha256", .str v.sha256), (py "size", .int v.size),
      (py "ts", .str v.ts)]

def memberKeys (evicted : Bool) : List PyStr :=
  [py "actor"] ++ (if evicted then [py "evicted"] else []) ++
    [py "op", py "prev_sha256", py "proposal_id", py "sha256", py "size", py "ts"]

theorem Version.keys_members (v : Version) : v.members.map Prod.fst = memberKeys v.evicted := by
  obtain ⟨ts, proposalId, sha256, size, op, actor, prev, evicted⟩ := v
  cases evicted <;> rfl

theorem Version.sortKeys_payload (v : Version) : sortKeys v.payload = .dict v.members := by
  obtain ⟨ts, proposalId, sha256, size, op, actor, prev, evicted⟩ := v
  cases evicted <;> cases prev <;> rfl

theorem Version.ofDict_members [Runtime] (v : Version) : Version.ofDict v.members = .ok v := by
  obtain ⟨ts, proposalId, sha256, size, op, actor, prev, evicted⟩ := v
  cases evicted <;> cases prev <;> cases op <;> rfl

theorem Version.dumpsError_payload (v : Version) (room : Nat) :
    dumpsError (room + 1) v.payload = none ↔ (natDigits v.size.natAbs).length ≤ maxStrDigits := by
  obtain ⟨ts, proposalId, sha256, size, op, actor, prev, evicted⟩ := v
  by_cases hlong : maxStrDigits < (natDigits size.natAbs).length
  · cases evicted <;> cases prev <;>
      simp [payload, dumpsError, dumpsErrorDict, hlong, Nat.not_le_of_lt hlong]
  · cases evicted <;> cases prev <;>
      simp [payload, dumpsError, dumpsErrorDict, hlong, Nat.le_of_not_lt hlong]

/-- One line of an index file. -/
def Version.line (v : Version) : PyStr := compactText (.dict v.members)

theorem Version.toJson_eq {v : Version} (hsize : (natDigits v.size.natAbs).length ≤ maxStrDigits)
    (room : Nat) : v.toJson room = .ok v.line := by
  unfold Version.toJson dumpsCompact
  rw [(v.dumpsError_payload room).mpr hsize, v.sortKeys_payload]
  rfl

theorem Version.unpaired_members {v : Version} (h : v.Plain) : Unpaired (.dict v.members) := by
  have hop : v.op.text.IsChain NoPair :=
    noPair_of_ascii (by cases v.op <;> exact ascii_of_all (by decide))
  have hkeys : ∀ kv ∈ v.members, kv.1.IsChain NoPair := by
    intro kv hkv
    apply noPair_of_ascii
    have hall : ∀ evicted, ∀ key ∈ memberKeys evicted,
        key.all (fun c => decide (c.val < 0x80)) = true := by decide
    exact ascii_of_all (hall v.evicted kv.1 (v.keys_members ▸ List.mem_map_of_mem hkv))
  have hprev : Unpaired (v.prevSha256.elim .null .str) := by
    cases hp : v.prevSha256 with
    | none => trivial
    | some sha => exact h.prevSha256 sha hp
  refine Json.forall_dict.mpr ⟨hkeys, ?_⟩
  intro kv hkv
  unfold members at hkv
  simp only [List.mem_append, List.mem_cons, List.not_mem_nil, or_false] at hkv
  rcases hkv with (rfl | hevicted) | rfl | rfl | rfl | rfl | rfl | rfl
  · exact h.actor
  · split at hevicted
    · rw [List.mem_singleton.mp hevicted]
      trivial
    · cases hevicted
  · exact hop
  · exact hprev
  · exact h.proposalId
  · exact h.sha256
  · trivial
  · exact h.ts

theorem Version.held_members [Runtime] (v : Version) : Held (.dict v.members) := by
  refine Json.forall_dict.mpr ⟨?_, ?_⟩
  · have hnodup : ∀ evicted, (memberKeys evicted).Nodup := by decide
    show (v.members.map Prod.fst).Nodup
    rw [v.keys_members]
    exact hnodup v.evicted
  · intro kv hkv
    unfold members at hkv
    simp only [List.mem_append, List.mem_cons, List.not_mem_nil, or_false] at hkv
    rcases hkv with (rfl | hevicted) | rfl | rfl | rfl | rfl | rfl | rfl
    · trivial
    · split at hevicted
      · rw [List.mem_singleton.mp hevicted]
        trivial
      · cases hevicted
    · trivial
    · cases v.prevSha256 <;> trivial
    · trivial
    · trivial
    · trivial
    · trivial

/-- A line is read back as its version, with or without the newline after it. -/
theorem Version.fromJson_line [Runtime] {v : Version} (h : v.Plain) (room : Nat) {rest : PyStr}
    (hrest : rest = [] ∨ rest = [10]) : Version.fromJson room (v.line ++ rest) = .ok v := by
  have hroom : dumpsError (room + 1) (.dict v.members) = none := by
    obtain ⟨ts, proposalId, sha256, size, op, actor, prev, evicted⟩ := v
    have hsize := h.size
    cases evicted <;> cases prev <;>
      simp [members, dumpsError, dumpsErrorDict, Nat.not_lt_of_le hsize]
  have hloads := loads_compactText v.held_members hroom (unpaired_members h) hrest
  unfold Version.fromJson Version.line
  rw [hloads]
  exact v.ofDict_members

/-- `Version.from_json(Version.to_json(v))`. -/
theorem Version.fromJson_toJson [Runtime] {v : Version} (h : v.Plain) (room : Nat) :
    (v.toJson room >>= Version.fromJson room) = .ok v := by
  have hback := fromJson_line h room (.inl rfl)
  rw [List.append_nil] at hback
  rw [toJson_eq h.size]
  exact hback

/-! ## One index file -/

def Version.lineBytes (v : Version) : Bytes := (v.line ++ [10]).map Fin.val

theorem Version.printable_line (v : Version) : Printable v.line := printable_compactText _

theorem Version.line_head (v : Version) : ∃ rest, v.line = 123 :: rest := ⟨_, rfl⟩

theorem universalNewlines_eq {t : PyStr} (h : 13 ∉ t) : universalNewlines false t = t := by
  induction t with
  | nil => rfl
  | cons c t ih =>
    rw [List.mem_cons, not_or] at h
    rw [universalNewlines, if_neg fun hc => Bool.false_ne_true hc.2, if_neg (Ne.symm h.1), ih h.2]

theorem linesFrom_line {l : PyStr} (hl : 10 ∉ l) (acc rest : PyStr) :
    linesFrom acc (l ++ 10 :: rest) = (acc ++ l ++ [10]) :: linesFrom [] rest := by
  induction l generalizing acc with
  | nil => rw [List.nil_append, List.append_nil, linesFrom, if_pos rfl]
  | cons c l ih =>
    rw [List.mem_cons, not_or] at hl
    rw [List.cons_append, linesFrom, if_neg (Ne.symm hl.1), ih hl.2]
    simp only [List.append_assoc, List.cons_append, List.nil_append]

theorem not_mem_line (v : Version) {c : CodePoint} (hc : c.val < 0x20) : c ∉ v.line :=
  fun h => absurd (v.printable_line c h).1 (by omega)

theorem fileLines_lines (vs : List Version) :
    fileLines (vs.flatMap fun v => v.line ++ [10]) = vs.map fun v => v.line ++ [10] := by
  have hreturn : 13 ∉ vs.flatMap fun v => v.line ++ [10] := by
    intro h
    obtain ⟨v, -, hv⟩ := List.mem_flatMap.mp h
    rcases List.mem_append.mp hv with hv | hv
    · exact not_mem_line v (by decide) hv
    · exact absurd (List.mem_singleton.mp hv) (by decide)
  unfold fileLines
  rw [universalNewlines_eq hreturn]
  clear hreturn
  induction vs with
  | nil => rfl
  | cons v vs ih =>
    rw [List.flatMap_cons, List.append_assoc, List.singleton_append,
      linesFrom_line (not_mem_line v (by decide)), ih]
    rfl

theorem strip_line (v : Version) : strip (v.line ++ [10]) ≠ [] := by
  obtain ⟨rest, hline⟩ := v.line_head
  unfold strip
  rw [hline, List.cons_append, List.dropWhile_cons_of_neg (by decide), Ne,
    List.rdropWhile_eq_nil_iff]
  intro hall
  exact absurd (hall 123 (.head _)) (by decide)

theorem mapM_lines [Runtime] {vs : List Version} (h : ∀ v ∈ vs, v.Plain) (room : Nat) :
    (vs.map fun v => v.line ++ [10]).mapM (Version.fromJson room) = .ok vs := by
  induction vs with
  | nil => rfl
  | cons v vs ih =>
    rw [List.map_cons, List.mapM_cons, Version.fromJson_line (h v (.head _)) room (.inr rfl),
      ih fun w hw => h w (.tail _ hw)]
    rfl

/-- The lines of an index file are read as the versions that were written. -/
theorem parseIndex_lines [Runtime] {vs : List Version} (h : ∀ v ∈ vs, v.Plain) (room : Nat) :
    parseIndex room (vs.flatMap Version.lineBytes) = .ok vs := by
  have hascii : Ascii (vs.flatMap fun v => v.line ++ [10]) := by
    intro c hc
    obtain ⟨v, -, hcv⟩ := List.mem_flatMap.mp hc
    rcases List.mem_append.mp hcv with hcv | hcv
    · exact v.printable_line.ascii c hcv
    · rw [List.mem_singleton.mp hcv]
      decide
  have hbytes : vs.flatMap Version.lineBytes = (vs.flatMap fun v => v.line ++ [10]).map Fin.val := by
    rw [List.map_flatMap]
    rfl
  have hkeep : (vs.map fun v => v.line ++ [10]).filter (fun line => strip line ≠ []) =
      vs.map fun v => v.line ++ [10] := by
    rw [List.filter_eq_self]
    intro line hline
    obtain ⟨v, -, rfl⟩ := List.mem_map.mp hline
    exact decide_eq_true (strip_line v)
  unfold parseIndex
  rw [hbytes, decodeUtf8_encodeUtf8 (encodeUtf8_ascii hascii)]
  simp only
  rw [fileLines_lines, hkeep, mapM_lines h]

/-! ## Names -/

/-- The path has an index file: it can be encoded and its quoted form leaves room for the suffix. -/
def storable (path : PyStr) : Bool :=
  match quote [] path with
  | none => false
  | some encoded => encoded.length + 6 ≤ nameMax

def indexName (path : PyStr) : Option PyStr :=
  match indexPath path with
  | .error _ => none
  | .ok idx => if nameMax < idx.length then none else some idx

theorem indexName_eq_some {path name : PyStr} : indexName path = some name ↔
    indexPath path = .ok name ∧ name.length ≤ nameMax := by
  unfold indexName
  cases indexPath path with
  | error e => simp
  | ok idx =>
    by_cases hlong : nameMax < idx.length
    · simp only [if_pos hlong, Except.ok.injEq]
      constructor
      · intro h
        cases h
      · rintro ⟨rfl, h⟩
        omega
    · simp only [if_neg hlong, Option.some.injEq, Except.ok.injEq]
      constructor
      · rintro rfl
        exact ⟨rfl, by omega⟩
      · exact fun h => h.1

theorem indexPath_eq_ok {path idx : PyStr} : indexPath path = .ok idx ↔
    ∃ encoded, quote [] path = some encoded ∧ encoded.length ≤ indexNameMax ∧
      encoded ++ py ".jsonl" = idx := by
  unfold indexPath encodePath
  cases quote [] path with
  | none =>
    constructor
    · intro h
      cases h
    · intro h
      cases h.choose_spec.1
  | some encoded =>
    by_cases hlong : indexNameMax < encoded.length
    · simp only [if_pos hlong]
      constructor
      · intro h
        cases h
      · intro ⟨e, he, hlen, _⟩
        rw [← Option.some.inj he] at hlen
        omega
    · simp only [if_neg hlong]
      constructor
      · intro h
        exact ⟨encoded, rfl, by omega, Except.ok.inj h⟩
      · intro ⟨e, he, _, hidx⟩
        rw [← hidx, ← Option.some.inj he]
        rfl

theorem storable_iff {path : PyStr} : storable path = true ↔ ∃ name, indexName path = some name := by
  unfold storable
  constructor
  · intro h
    cases hq : quote [] path with
    | none =>
      rw [hq] at h
      cases h
    | some encoded =>
      rw [hq] at h
      have hlen := of_decide_eq_true h
      refine ⟨encoded ++ py ".jsonl", indexName_eq_some.mpr ⟨indexPath_eq_ok.mpr
        ⟨encoded, hq, ?_, rfl⟩, ?_⟩⟩
      · have hshort : encoded.length + 6 ≤ 255 := hlen
        show encoded.length ≤ 250
        omega
      · rw [List.length_append]
        exact hlen
  · intro ⟨name, hname⟩
    obtain ⟨hpath, hlen⟩ := indexName_eq_some.mp hname
    obtain ⟨encoded, hq, -, rfl⟩ := indexPath_eq_ok.mp hpath
    rw [hq]
    rw [List.length_append] at hlen
    exact decide_eq_true hlen

/-- The index file of a path belongs to no other. -/
def naming : LogIndex.Naming PyStr PyStr where
  name := indexName
  injective := by
    intro k l f hk hl
    obtain ⟨a, ha, -, hfa⟩ := indexPath_eq_ok.mp (indexName_eq_some.mp hk).1
    obtain ⟨b, hb, -, hfb⟩ := indexPath_eq_ok.mp (indexName_eq_some.mp hl).1
    have hab : a = b := List.append_cancel_right (hfa.trans hfb.symm)
    exact quote_injective (by decide) ha (hab ▸ hb)

/-! ## Runs -/

/-- The arguments of one `capture`; a `bytes` object has at most `sys.maxsize` items. -/
structure Capture where
  path : PyStr
  bytes : Bytes
  bytes_lt : bytes.length < 2 ^ 63
  proposalId : PyStr
  op : Op
  actor : PyStr
  now : PyStr

inductive Step
  | capture (c : Capture)
  | rename (src dst : PyStr)

/-- The texts can be written as JSON and a rename has two different ends. -/
def Step.Valid : Step → Prop
  | .capture c => c.proposalId.IsChain NoPair ∧ c.actor.IsChain NoPair ∧ c.now.IsChain NoPair
  | .rename src dst => src ≠ dst

/-- A version and the bytes captured for it. -/
abbrev Entry := Version × Bytes

section

variable [Runtime] [Digest]

def Store.step (room : Nat) (s : Store) : Step → Store
  | .capture c => (s.capture room c.path c.bytes c.proposalId c.op c.actor c.now).1
  | .rename src dst => (s.renameHistory src dst).1

def run (room : Nat) (steps : List Step) : Store := steps.foldl (Store.step room) Store.empty

/-- What a capture records after the history `before`. -/
def Capture.version (c : Capture) (before : List Entry) : Version where
  ts := c.now
  proposalId := c.proposalId
  sha256 := Digest.sha256 c.bytes
  size := c.bytes.length
  op := c.op
  actor := c.actor
  prevSha256 := (before.map Prod.fst).getLast?.map Version.sha256
  evicted := false

/-- The reference model: a capture appends one version, a rename moves a history. -/
def modelStep (h : LogIndex.Histories PyStr Entry) : Step → LogIndex.Histories PyStr Entry
  | .capture c =>
    if storable c.path then LogIndex.append h c.path (c.version (h c.path), c.bytes) else h
  | .rename src dst => if storable src ∧ storable dst then LogIndex.rename h src dst else h

def model (steps : List Step) : LogIndex.Histories PyStr Entry :=
  steps.foldl modelStep fun _ => []

/-- The index files hold the histories, and what they hold can be read back. -/
structure Indexes (s : Store) (h : LogIndex.Histories PyStr Entry) : Prop where
  files : LogIndex.Represents naming (fun e : Entry => e.1.lineBytes) s.index h
  plain : ∀ k, ∀ e ∈ h k, e.1.Plain

omit [Runtime] [Digest] in
theorem Indexes.empty : Indexes Store.empty fun _ => [] :=
  ⟨LogIndex.Represents.empty, fun _ _ he => absurd he List.not_mem_nil⟩

omit [Runtime] [Digest] in
theorem contents_lines (entries : List Entry) :
    LogIndex.contents (fun e : Entry => e.1.lineBytes) entries =
      if entries = [] then none else some ((entries.map Prod.fst).flatMap Version.lineBytes) := by
  cases entries with
  | nil => rfl
  | cons e rest =>
    rw [if_neg (List.cons_ne_nil _ _), List.flatMap_map]
    rfl

omit [Digest] in
/-- `history` of a path that has an index file. -/
theorem Indexes.history {s : Store} {h : LogIndex.Histories PyStr Entry} (hs : Indexes s h)
    {path : PyStr} (hpath : storable path = true) (room : Nat) :
    s.history room path = .ok ((h path).map Prod.fst) := by
  obtain ⟨name, hname⟩ := storable_iff.mp hpath
  obtain ⟨hidx, hlen⟩ := indexName_eq_some.mp hname
  have hfile : s.index name = _ := hs.files.file hname
  rw [contents_lines] at hfile
  show (indexPath path >>= fun idx => s.readIndex idx >>= fun found => _) = _
  rw [hidx]
  show (s.readIndex name >>= fun found => _) = _
  rw [Store.readIndex, if_neg (by omega), hfile]
  by_cases hnil : h path = []
  · rw [if_pos hnil, hnil]
    rfl
  · rw [if_neg hnil]
    apply parseIndex_lines
    intro v hv
    obtain ⟨e, he, rfl⟩ := List.mem_map.mp hv
    exact hs.plain path e he

/-- The store after the object of a capture is written. -/
def Store.withObject (s : Store) (raw : Bytes) : Store :=
  match s.objects (Digest.sha256 raw) with
  | some _ => s
  | none => { s with objects := Function.update s.objects (Digest.sha256 raw) (some raw) }

omit [Runtime] in
theorem Store.withObject_index (s : Store) (raw : Bytes) : (s.withObject raw).index = s.index := by
  unfold withObject
  split <;> rfl

omit [Runtime] in
theorem Store.objects_withObject_of_ne {s : Store} {raw : Bytes} {sha : PyStr}
    (h : sha ≠ Digest.sha256 raw) : (s.withObject raw).objects sha = s.objects sha := by
  unfold withObject
  split
  · rfl
  · exact Function.update_of_ne h _ _

omit [Runtime] in
theorem Store.objects_withObject_of_some {s : Store} {raw other : Bytes} {sha : PyStr}
    (h : s.objects sha = some other) : (s.withObject raw).objects sha = some other := by
  by_cases hsha : sha = Digest.sha256 raw
  · subst hsha
    unfold withObject
    rw [h]
    exact h
  · rw [objects_withObject_of_ne hsha, h]

omit [Runtime] in
theorem Indexes.withObject {s : Store} {h : LogIndex.Histories PyStr Entry} (hs : Indexes s h)
    (raw : Bytes) : Indexes (s.withObject raw) h := by
  constructor
  · rw [Store.withObject_index]
    exact hs.files
  · exact hs.plain

/-- `capture`, as what it does after its object is written. -/
theorem Store.capture_eq (room : Nat) (s : Store) (c : Capture) :
    s.capture room c.path c.bytes c.proposalId c.op c.actor c.now =
      match (s.withObject c.bytes).lastSha room c.path with
      | .error e => (s.withObject c.bytes, .error e)
      | .ok prevSha =>
        let version : Version := ⟨c.now, c.proposalId, Digest.sha256 c.bytes, c.bytes.length, c.op,
          c.actor, prevSha, false⟩
        match indexPath c.path with
        | .error e => (s.withObject c.bytes, .error e)
        | .ok idx =>
          match version.toJson room with
          | .error e => (s.withObject c.bytes, .error e)
          | .ok line =>
            (((s.withObject c.bytes).appendLine idx line).1,
              ((s.withObject c.bytes).appendLine idx line).2.map fun _ => version) := rfl

/-- A capture for a path without an index file leaves the index alone. -/
theorem Store.capture_unstorable {room : Nat} {s : Store} {c : Capture}
    (hpath : storable c.path = false) :
    (s.capture room c.path c.bytes c.proposalId c.op c.actor c.now).1 = s.withObject c.bytes := by
  have hname : indexName c.path = none := by
    rw [Option.eq_none_iff_forall_ne_some]
    intro name h
    rw [storable_iff.mpr ⟨name, h⟩] at hpath
    cases hpath
  rw [Store.capture_eq]
  cases hidx : indexPath c.path with
  | error e =>
    cases (s.withObject c.bytes).lastSha room c.path <;> rfl
  | ok idx =>
    -- the name is too long for the file system, which the history that is read first runs into
    have hlong : nameMax < idx.length := by
      by_contra hshort
      rw [indexName_eq_some.mpr ⟨hidx, Nat.le_of_not_lt hshort⟩] at hname
      cases hname
    have hlast : (s.withObject c.bytes).lastSha room c.path = .error .os := by
      have hhistory : (s.withObject c.bytes).history room c.path = .error .os := by
        show (indexPath c.path >>= fun idx => (s.withObject c.bytes).readIndex idx >>= _) = _
        rw [hidx]
        show ((s.withObject c.bytes).readIndex idx >>= _) = _
        rw [Store.readIndex, if_pos hlong]
        rfl
      unfold Store.lastSha
      rw [hhistory]
      rfl
    rw [hlast]

omit [Runtime] in
/-- A length is printed with few digits. -/
theorem Capture.size_version (c : Capture) (before : List Entry) :
    (natDigits (c.version before).size.natAbs).length ≤ maxStrDigits := by
  show (natDigits c.bytes.length).length ≤ maxStrDigits
  unfold natDigits
  rw [List.length_map, List.length_reverse, Nat.digits_length_le_iff (by decide)]
  calc c.bytes.length < 2 ^ 63 := c.bytes_lt
    _ ≤ 10 ^ 19 := by decide
    _ ≤ 10 ^ maxStrDigits := Nat.pow_le_pow_right (by decide) (by decide)

omit [Runtime] in
theorem Capture.plain_version {c : Capture} (hvalid : (Step.capture c).Valid) {before : List Entry}
    (hbefore : ∀ e ∈ before, e.1.Plain) : (c.version before).Plain := by
  have hsha : ∀ raw, (Digest.sha256 raw).IsChain NoPair :=
    fun raw => noPair_of_ascii (Digest.printable raw).ascii
  constructor
  · exact hvalid.2.2
  · exact hvalid.1
  · exact hsha c.bytes
  · exact hvalid.2.1
  · intro sha hmem
    obtain ⟨v, hv, rfl⟩ := Option.mem_map.mp hmem
    obtain ⟨e, he, rfl⟩ := List.mem_map.mp (List.mem_of_mem_getLast? hv)
    exact (hbefore e he).sha256
  · exact c.size_version before

/-- A capture for a path with an index file writes one line, whose version comes after the history. -/
theorem Indexes.capture_eq {s : Store} {h : LogIndex.Histories PyStr Entry} (hs : Indexes s h)
    (room : Nat) {c : Capture} {name : PyStr} (hname : indexName c.path = some name) :
    s.capture room c.path c.bytes c.proposalId c.op c.actor c.now =
      ({ s.withObject c.bytes with
          index := Function.update s.index name
            (some ((s.index name).getD [] ++ (c.version (h c.path)).lineBytes)) },
        .ok (c.version (h c.path))) := by
  have hpath : storable c.path = true := storable_iff.mpr ⟨name, hname⟩
  have ⟨hidx, hlen⟩ := indexName_eq_some.mp hname
  have hlast : (s.withObject c.bytes).lastSha room c.path =
      .ok (((h c.path).map Prod.fst).getLast?.map Version.sha256) := by
    unfold Store.lastSha
    rw [(hs.withObject c.bytes).history hpath room]
  have hraw : encodeUtf8 ((c.version (h c.path)).line ++ [10]) =
      some (c.version (h c.path)).lineBytes := by
    apply encodeUtf8_ascii
    exact (c.version (h c.path)).printable_line.ascii.append (ascii_of_all (by decide))
  rw [Store.capture_eq, hlast]
  simp only [hidx]
  change (match (c.version (h c.path)).toJson room with
    | .error e => (s.withObject c.bytes, Except.error e)
    | .ok line => (((s.withObject c.bytes).appendLine name line).1,
        ((s.withObject c.bytes).appendLine name line).2.map fun _ => c.version (h c.path))) = _
  rw [Version.toJson_eq (c.size_version (h c.path)) room]
  simp only [Store.appendLine, if_neg (Nat.not_lt_of_le hlen), hraw, Store.withObject_index]
  rfl

/-- A capture appends one version. -/
theorem Indexes.capture {s : Store} {h : LogIndex.Histories PyStr Entry} (hs : Indexes s h)
    (room : Nat) {c : Capture} (hvalid : (Step.capture c).Valid) :
    Indexes (s.step room (.capture c)) (modelStep h (.capture c)) := by
  show Indexes (s.capture room c.path c.bytes c.proposalId c.op c.actor c.now).1
    (if storable c.path = true then _ else h)
  cases hpath : storable c.path with
  | false =>
    rw [Store.capture_unstorable hpath, if_neg Bool.false_ne_true]
    exact hs.withObject c.bytes
  | true =>
    have ⟨name, hname⟩ := storable_iff.mp hpath
    rw [hs.capture_eq room hname, if_pos rfl]
    constructor
    · exact hs.files.append hname (c.version (h c.path), c.bytes)
    · intro k e he
      rcases LogIndex.mem_append he with ⟨k', he⟩ | rfl
      · exact hs.plain k' e he
      · exact c.plain_version hvalid (hs.plain c.path)

omit [Runtime] [Digest] in
/-- The lines of a history end with a newline already. -/
theorem ensureNewline_lines (vs : List Version) :
    ensureNewline (vs.flatMap Version.lineBytes) = vs.flatMap Version.lineBytes := by
  cases hlast : vs.getLast? with
  | none =>
    rw [List.getLast?_eq_none_iff.mp hlast]
    rfl
  | some v =>
    obtain ⟨init, rfl⟩ := List.getLast?_eq_some_iff.mp hlast
    refine if_neg fun h => h.2 ?_
    have hend : (init ++ [v]).flatMap Version.lineBytes =
        (init.flatMap Version.lineBytes ++ v.line.map Fin.val) ++ [10] := by
      rw [List.flatMap_append, List.flatMap_singleton, Version.lineBytes, List.map_append,
        List.append_assoc]
      rfl
    rw [hend, List.getLast?_concat]

omit [Runtime] [Digest] in
/-- Looking an index file up, for a path that has one and for a path that has none. -/
theorem Indexes.lookup {s : Store} {h : LogIndex.Histories PyStr Entry} (hs : Indexes s h)
    (path : PyStr) :
    (storable path = true ∧ ∃ name, indexName path = some name ∧
      (indexPath path >>= fun name => (s.readIndex name).map fun found => (name, found)) =
        .ok (name, s.index name) ∧
      s.index name = if h path = [] then none
        else some (((h path).map Prod.fst).flatMap Version.lineBytes)) ∨
    (storable path = false ∧ ∃ e,
      (indexPath path >>= fun name => (s.readIndex name).map fun found => (name, found)) =
        .error e) := by
  cases hpath : storable path with
  | true =>
    obtain ⟨name, hname⟩ := storable_iff.mp hpath
    obtain ⟨hidx, hlen⟩ := indexName_eq_some.mp hname
    refine .inl ⟨rfl, name, hname, ?_, (hs.files.file hname).trans (contents_lines _)⟩
    rw [hidx]
    show (s.readIndex name).map _ = _
    rw [Store.readIndex, if_neg (Nat.not_lt_of_le hlen)]
    rfl
  | false =>
    refine .inr ⟨rfl, ?_⟩
    cases hidx : indexPath path with
    | error e => exact ⟨e, rfl⟩
    | ok name =>
      refine ⟨.os, ?_⟩
      have hlong : nameMax < name.length := by
        by_contra hshort
        rw [storable_iff.mpr ⟨name, indexName_eq_some.mpr ⟨hidx, Nat.le_of_not_lt hshort⟩⟩] at hpath
        cases hpath
      show (s.readIndex name).map _ = _
      rw [Store.readIndex, if_pos hlong]
      rfl

omit [Runtime] in
/-- A rename moves the history of its source before that of its destination. -/
theorem Indexes.rename {s : Store} {h : LogIndex.Histories PyStr Entry} (hs : Indexes s h)
    (src dst : PyStr) : Indexes (s.renameHistory src dst).1 (modelStep h (.rename src dst)) := by
  unfold Store.renameHistory
  rcases hs.lookup src with ⟨hsrc, srcName, hsrcName, hsrcRead, hsrcFile⟩ | ⟨hsrc, e, hsrcRead⟩
  · rw [hsrcRead]
    by_cases hempty : h src = []
    · -- the source has no history
      have hmodel : modelStep h (.rename src dst) = h := by
        show (if _ then LogIndex.rename h src dst else h) = h
        rw [LogIndex.rename_empty hempty, ite_self]
      rw [hsrcFile, if_pos hempty, hmodel]
      exact hs
    · rw [if_neg hempty] at hsrcFile
      rw [hsrcFile]
      rcases hs.lookup dst with ⟨hdst, dstName, hdstName, hdstRead, hdstFile⟩ | ⟨hdst, e, hdstRead⟩
      · have hmodel : modelStep h (.rename src dst) = LogIndex.rename h src dst :=
          if_pos ⟨hsrc, hdst⟩
        have hindex : Indexes
            { s with
              index := Function.update (Function.update s.index dstName
                (some (((h src).map Prod.fst).flatMap Version.lineBytes ++
                  (s.index dstName).getD []))) srcName none }
            (LogIndex.rename h src dst) := by
          constructor
          · exact hs.files.rename hsrcName hdstName hsrcFile
          · intro k e he
            have ⟨k', he⟩ := LogIndex.mem_rename he
            exact hs.plain k' e he
        rw [hmodel]
        dsimp only
        rw [hdstRead]
        by_cases hnone : h dst = []
        · rw [if_pos hnone] at hdstFile
          rw [hdstFile] at hindex ⊢
          rw [Option.getD_none, List.append_nil] at hindex
          exact hindex
        · rw [if_neg hnone] at hdstFile
          rw [hdstFile] at hindex ⊢
          dsimp only
          rw [ensureNewline_lines, ensureNewline_lines]
          exact hindex
      · -- the destination has no index file: the rename raises
        have hmodel : modelStep h (.rename src dst) = h :=
          if_neg fun hboth => absurd hboth.2 (by rw [hdst]; decide)
        rw [hmodel]
        dsimp only
        rw [hdstRead]
        exact hs
  · have hmodel : modelStep h (.rename src dst) = h :=
      if_neg fun hboth => absurd hboth.1 (by rw [hsrc]; decide)
    rw [hsrcRead, hmodel]
    exact hs

omit [Runtime] [Digest] in
theorem Store.renameHistory_objects (s : Store) (src dst : PyStr) :
    (s.renameHistory src dst).1.objects = s.objects := by
  unfold renameHistory
  split
  · rfl
  · rfl
  · split <;> rfl

/-! ## The objects -/

/-- The files hold the histories of the model, and the objects the bytes of its versions. -/
structure Refines (seen : Bytes → Prop) (s : Store) (h : LogIndex.Histories PyStr Entry) : Prop where
  files : LogIndex.Represents naming (fun e : Entry => e.1.lineBytes) s.index h
  plain : ∀ k, ∀ e ∈ h k, e.1.Plain
  stored : ∀ k, ∀ e ∈ h k, s.objects e.1.sha256 = some e.2
  addressed : ∀ {sha : PyStr} {raw : Bytes}, s.objects sha = some raw →
    sha = Digest.sha256 raw ∧ seen raw

omit [Runtime] in
theorem Refines.indexes {seen : Bytes → Prop} {s : Store} {h : LogIndex.Histories PyStr Entry}
    (href : Refines seen s h) : Indexes s h := ⟨href.files, href.plain⟩

omit [Runtime] in
/-- Writing the object of new bytes disturbs nothing, and the bytes can be fetched. -/
theorem Refines.withObject {seen : Bytes → Prop} {s : Store} {h : LogIndex.Histories PyStr Entry}
    (href : Refines seen s h) {raw : Bytes} (hraw : seen raw)
    (hcollision : ∀ a b, seen a → seen b → Digest.sha256 a = Digest.sha256 b → a = b) :
    Refines seen (s.withObject raw) h ∧
      (s.withObject raw).objects (Digest.sha256 raw) = some raw := by
  have hself : (s.withObject raw).objects (Digest.sha256 raw) = some raw := by
    unfold Store.withObject
    split
    · rename_i other hother
      obtain ⟨hsha, hseen⟩ := href.addressed hother
      rw [hother, hcollision raw other hraw hseen hsha]
    · exact Function.update_self ..
  refine ⟨⟨?_, href.plain, ?_, ?_⟩, hself⟩
  · rw [Store.withObject_index]
    exact href.files
  · intro k e he
    exact Store.objects_withObject_of_some (href.stored k e he)
  · intro sha other hother
    by_cases hsha : sha = Digest.sha256 raw
    · rw [hsha, hself] at hother
      rw [hsha, ← Option.some.inj hother]
      exact ⟨rfl, hraw⟩
    · rw [Store.objects_withObject_of_ne hsha] at hother
      exact href.addressed hother

/-- A capture appends one version. -/
theorem Refines.capture {seen : Bytes → Prop} {s : Store} {h : LogIndex.Histories PyStr Entry}
    (href : Refines seen s h) (room : Nat) {c : Capture} (hvalid : (Step.capture c).Valid)
    (hseen : seen c.bytes)
    (hcollision : ∀ a b, seen a → seen b → Digest.sha256 a = Digest.sha256 b → a = b) :
    Refines seen (s.step room (.capture c)) (modelStep h (.capture c)) := by
  have ⟨hwritten, hobject⟩ := href.withObject hseen hcollision
  have hindexes := href.indexes.capture room hvalid
  have hobjects : (s.step room (.capture c)).objects = (s.withObject c.bytes).objects := by
    show (s.capture room c.path c.bytes c.proposalId c.op c.actor c.now).1.objects = _
    cases hpath : storable c.path with
    | false => rw [Store.capture_unstorable hpath]
    | true =>
      have ⟨name, hname⟩ := storable_iff.mp hpath
      rw [href.indexes.capture_eq room hname]
  refine ⟨hindexes.files, hindexes.plain, ?_, ?_⟩
  · intro k e he
    rw [hobjects]
    change e ∈ (if storable c.path = true then _ else h) k at he
    split at he
    · rcases LogIndex.mem_append he with ⟨k', he⟩ | rfl
      · exact hwritten.stored k' e he
      · exact hobject
    · exact hwritten.stored k e he
  · rw [hobjects]
    exact hwritten.addressed

omit [Runtime] in
theorem Refines.rename {seen : Bytes → Prop} {s : Store} {h : LogIndex.Histories PyStr Entry}
    (href : Refines seen s h) (src dst : PyStr) :
    Refines seen (s.renameHistory src dst).1 (modelStep h (.rename src dst)) := by
  have hindexes := href.indexes.rename src dst
  refine ⟨hindexes.files, hindexes.plain, ?_, ?_⟩
  · intro k e he
    rw [Store.renameHistory_objects]
    change e ∈ (if _ then LogIndex.rename h src dst else h) k at he
    split at he
    · have ⟨k', he⟩ := LogIndex.mem_rename he
      exact href.stored k' e he
    · exact href.stored k e he
  · rw [Store.renameHistory_objects]
    exact href.addressed

/-- The bytes that a run captures. -/
def Captured (steps : List Step) (raw : Bytes) : Prop := ∃ c, Step.capture c ∈ steps ∧ c.bytes = raw

/-- No two captured byte strings share their digest. -/
def CollisionFree (steps : List Step) : Prop :=
  ∀ a b, Captured steps a → Captured steps b → Digest.sha256 a = Digest.sha256 b → a = b

theorem Refines.steps {room : Nat} {all steps : List Step} (hsub : steps ⊆ all)
    (hvalid : ∀ step ∈ all, step.Valid) (hcollision : CollisionFree all) {s : Store}
    {h : LogIndex.Histories PyStr Entry} (href : Refines (Captured all) s h) :
    Refines (Captured all) (steps.foldl (Store.step room) s) (steps.foldl modelStep h) := by
  induction steps generalizing s h with
  | nil => exact href
  | cons step steps ih =>
    have hstep := hsub (.head _)
    apply ih (fun x hx => hsub (.tail _ hx))
    cases step with
    | capture c => exact href.capture room (hvalid _ hstep) ⟨c, hstep, rfl⟩ hcollision
    | rename src dst => exact href.rename src dst

theorem refines_run {room : Nat} {steps : List Step} (hvalid : ∀ step ∈ steps, step.Valid)
    (hcollision : CollisionFree steps) :
    Refines (Captured steps) (run room steps) (model steps) := by
  apply Refines.steps (List.Subset.refl _) hvalid hcollision
  constructor
  · exact LogIndex.Represents.empty
  · exact fun _ _ he => absurd he List.not_mem_nil
  · exact fun _ _ he => absurd he List.not_mem_nil
  · intro sha raw hraw
    cases hraw

/-- Every history is the one of the reference model, the bytes of every listed version can be fetched,
and a version is read back from its line. -/
theorem history_refines (room : Nat) (steps : List Step) (hvalid : ∀ step ∈ steps, step.Valid)
    (hcollision : CollisionFree steps) :
    (∀ path, storable path = true →
      (run room steps).history room path = .ok ((model steps path).map Prod.fst)) ∧
    (∀ path, ∀ e ∈ model steps path, (run room steps).fetchObject e.1.sha256 = .ok e.2) ∧
    ∀ v : Version, v.Plain → (v.toJson room >>= Version.fromJson room) = .ok v := by
  have href : Refines (Captured steps) (run room steps) (model steps) :=
    refines_run hvalid hcollision
  refine ⟨fun path hpath => href.indexes.history hpath room, ?_, fun v hv => v.fromJson_toJson hv room⟩
  intro path e he
  unfold Store.fetchObject
  rw [href.stored path e he]

end

/-- The digest of the two bytes `hi`, and nothing else. -/
@[reducible] def sampleDigest : Digest where
  sha256 raw :=
    if raw = [104, 105] then
      py "8f434346648f6b96df89dda901c5176b10a6d83961dd3c1ac88b59b2dc327aa4"
    else []
  printable raw := by
    split
    · exact printable_of_all (by decide)
    · exact printable_nil

theorem sampleBytes_lt : ([104, 105] : Bytes).length < 2 ^ 63 := by decide

def sampleSteps : List Step :=
  [.capture ⟨py "/share/a.txt", [104, 105], by decide, py "direct", .moveSrc, py "agent",
      py "2024-05-01T10:00:00Z"⟩,
    .rename (py "/share/a.txt") (py "/share/b.txt")]

theorem history_refines_sample :
    let _ := Runtime.ofTable []
    let _ := sampleDigest
    (run 10 sampleSteps).history 10 (py "/share/b.txt") =
        .ok ((model sampleSteps (py "/share/b.txt")).map Prod.fst) ∧
      (model sampleSteps (py "/share/b.txt")).map Prod.snd = [[104, 105]] := by
  have hvalid : ∀ step ∈ sampleSteps, step.Valid := by
    intro step hstep
    simp only [sampleSteps, List.mem_cons, List.not_mem_nil, or_false] at hstep
    rcases hstep with rfl | rfl
    · exact ⟨noPair_of_ascii (ascii_of_all (by decide)), noPair_of_ascii (ascii_of_all (by decide)),
        noPair_of_ascii (ascii_of_all (by decide))⟩
    · show py "/share/a.txt" ≠ py "/share/b.txt"
      decide
  have hcollision : @CollisionFree sampleDigest sampleSteps := by
    intro a b ha hb _
    obtain ⟨c, hc, rfl⟩ := ha
    obtain ⟨d, hd, rfl⟩ := hb
    simp only [sampleSteps, List.mem_cons, Step.capture.injEq, List.not_mem_nil, or_false,
      reduceCtorEq] at hc hd
    rw [hc, hd]
  have hrun := (@history_refines (Runtime.ofTable []) sampleDigest 10 sampleSteps hvalid hcollision).1
  exact ⟨hrun (py "/share/b.txt") (by decide), by decide +kernel⟩

/-- A version by an actor whose name is a split surrogate pair. -/
def pairVersion : Version where
  ts := py "2024-05-01T10:00:00Z"
  proposalId := py "direct"
  sha256 := py "8f434346648f6b96df89dda901c5176b10a6d83961dd3c1ac88b59b2dc327aa4"
  size := 2
  op := .write
  actor := [0xD834, 0xDD1E]
  prevSha256 := none
  evicted := false

/-- The pair is read back as one character. -/
theorem split_pair_joined :
    let _ := Runtime.ofTable []
    (pairVersion.toJson 10 >>= Version.fromJson 10) = .ok { pairVersion with actor := [0x1D11E] } ∧
      { pairVersion with actor := [0x1D11E] } ≠ pairVersion := by
  decide +kernel

end HassNode.BackupStore
