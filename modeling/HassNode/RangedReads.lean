import HassNode.Commands.FsRead
import HassNode.Library.ChunkedRead

/-!
# Ranged reads

Whatever short reads the kernel answers with, `fs.read` returns the range that it was asked for
(`handleFsRead_ranged`), and a client that reads on from where the last range ended gets the file.
-/

namespace HassNode.FsRead

open Py Py.Base64 Interaction Commands BackupStore ChunkedRead

/-- The bytes of a file. -/
structure FileContent where
  bytes : Bytes
  lt : ∀ b ∈ bytes, b < 256

/-- What the kernel answers while the file stays as it is. -/
def Serves (file : FileContent) : (op : FsOp) → FsAns op → Prop
  | .openPath _, ans => ans = .ok ()
  | .fstat, ans => ans = .ok ⟨false, file.bytes.length⟩
  | .pread count pos, ans => ∃ chunk, ans = .ok chunk ∧ ShortRead file.bytes pos count chunk
  | .close, _ => True

/-- A request for a range in binary encoding, of at most `max_bytes` bytes. -/
structure Ranged [Runtime] (params : Dict) (path : PyStr) (offset length : Nat) : Prop where
  keys : strictKeysError params readKeys [] = none
  path_eq : params.getD (py "path") .null = .str path
  path_ne : path ≠ []
  encoding_eq : strOf (params.getD (py "encoding") (.str (py "utf-8"))) = py "binary"
  offset_eq : params.getD (py "offset") (.int 0) = .int offset
  length_eq : params.get? (py "length") = some (.int length)
  length_pos : 0 < length
  length_le : length ≤ maxBytesOf params

variable {file : FileContent} {events : List (Event FsAns)}

/-! ## One call -/

/-- The loop reads on from what it has. -/
theorem path_readLoop {remaining pos : Nat} {chunks : Bytes} {reply : Except FsExc Bytes}
    (h : Prog.Path (readLoop remaining pos chunks) events reply)
    (hserved : ∀ e ∈ events, Serves file e.1 e.2) :
    reply = .ok (chunks ++ slice file.bytes pos remaining) := by
  induction remaining using Nat.strongRecOn generalizing pos chunks events with
  | ind remaining ih =>
    rw [readLoop] at h
    split at h
    · rename_i hzero
      obtain ⟨-, rfl⟩ := Prog.path_ret_iff.mp h
      rw [hzero, slice_zero, List.append_nil]
    · obtain ⟨ans, rest, rfl, hrest⟩ := Prog.path_call_iff.mp h
      obtain ⟨chunk, rfl, hshort⟩ := hserved _ (.head _)
      change Prog.Path (if chunk = [] then _ else _) rest reply at hrest
      split at hrest
      · rename_i hchunk
        obtain ⟨-, rfl⟩ := Prog.path_ret_iff.mp hrest
        rw [hshort.ends hchunk, List.append_nil]
      · rename_i hchunk
        have hlength : 0 < chunk.length := List.length_pos_iff.mpr hchunk
        rw [ih _ (by omega) hrest fun e he => hserved e (.tail _ he), hshort.slice_eq,
          List.append_assoc]

section
variable [Runtime] [Digest] [Codecs]

/-- The response to a range of the file. -/
def rangeResponse (file : FileContent) (path : PyStr) (offset length : Nat) : Json :=
  readResponse path (py "binary") (b64encode (slice file.bytes offset length)) file.bytes.length offset
    (slice file.bytes offset length)

omit [Runtime] in
theorem path_readOpened {path : PyStr} {maxBytes offset length : Nat} {reply : Except FsExc Json}
    (h : Prog.Path (readOpened path (py "binary") maxBytes offset (some length)) events reply)
    (hserved : ∀ e ∈ events, Serves file e.1 e.2) (hoffset : offset ≤ file.bytes.length) :
    reply = .ok (rangeResponse file path offset length) := by
  obtain ⟨ans, rest, rfl, hrest⟩ := Prog.path_call_iff.mp h
  have hstat : ans = .ok ⟨false, file.bytes.length⟩ := hserved _ (.head _)
  rw [hstat] at hrest
  change Prog.Path (if false = true then _ else if file.bytes.length < offset then _ else _) rest reply
    at hrest
  rw [if_neg Bool.false_ne_true, if_neg (by omega)] at hrest
  obtain ⟨before, data, after, rfl, hread, hreply⟩ := Prog.path_bind_iff.mp hrest
  have hdata := path_readLoop hread fun e he => hserved e (.tail _ (List.mem_append_left _ he))
  have hslice : (slice file.bytes offset length).length ≤ length := by
    rw [length_slice]
    omega
  rw [hdata] at hreply
  change Prog.Path (if length < (slice file.bytes offset length).length then _
    else if py "binary" = py "binary" then _ else _) after reply at hreply
  rw [if_neg (by omega), if_pos rfl] at hreply
  exact (Prog.path_ret_iff.mp hreply).2

omit [Digest] [Codecs] in
theorem Ranged.offsetOf_eq {params : Dict} {path : PyStr} {offset length : Nat}
    (h : Ranged params path offset length) : offsetOf path params = .ok offset := by
  unfold offsetOf
  rw [h.offset_eq]
  dsimp only
  rw [if_neg (by omega), Int.toNat_natCast]

omit [Digest] [Codecs] in
theorem Ranged.lengthOf_eq {params : Dict} {path : PyStr} {offset length : Nat}
    (h : Ranged params path offset length) :
    lengthOf path (maxBytesOf params) params = .ok (some length) := by
  have hpos := h.length_pos
  have hle := h.length_le
  simp only [lengthOf]
  rw [h.length_eq]
  dsimp only
  rw [if_neg (by omega), if_neg (by omega), Int.toNat_natCast]

/-- A range is returned as it is in the file. -/
theorem path_handleFsRead {params : Dict} {path : PyStr} {offset length : Nat}
    {reply : Except FsExc Json} (hranged : Ranged params path offset length)
    (h : Prog.Path (handleFsRead params) events reply)
    (hserved : ∀ e ∈ events, Serves file e.1 e.2) (hoffset : offset ≤ file.bytes.length) :
    reply = .ok (rangeResponse file path offset length) := by
  cases path with
  | nil => exact absurd rfl hranged.path_ne
  | cons c path =>
    simp only [handleFsRead, hranged.keys, hranged.path_eq, hranged.offsetOf_eq,
      hranged.lengthOf_eq, hranged.encoding_eq] at h
    obtain ⟨ans, rest, rfl, hrest⟩ := Prog.path_call_iff.mp h
    have hopen : ans = .ok () := hserved _ (.head _)
    rw [hopen] at hrest
    obtain ⟨before, result, after, rfl, hread, hclose⟩ := Prog.path_bind_iff.mp hrest
    have hresult := path_readOpened hread
      (fun e he => hserved e (.tail _ (List.mem_append_left _ he))) hoffset
    obtain ⟨-, last, -, hreply⟩ := Prog.path_call_iff.mp hclose
    rw [(Prog.path_ret_iff.mp hreply).2, hresult]

/-! ## Reading on -/

/-- What a client takes from a response: the bytes, their number and whether they end the file. -/
def pageOf : Except FsExc Json → Option (Bytes × Nat × Bool)
  | .ok (.dict reply) =>
    match Dict.get? reply (py "content"), Dict.get? reply (py "length"), Dict.get? reply (py "eof") with
    | some (.str content), some (.int length), some (.bool eof) =>
      (b64decode content).map fun data => (data, length.toNat, eof)
    | _, _, _ => none
  | _ => none

omit [Runtime] [Codecs] in
/-- The page ends the file when nothing is left behind it. -/
theorem pageOf_rangeResponse (path : PyStr) {offset : Nat} (length : Nat)
    (hoffset : offset ≤ file.bytes.length) :
    pageOf (.ok (rangeResponse file path offset length)) =
      some (slice file.bytes offset length, (slice file.bytes offset length).length,
        decide (offset + (slice file.bytes offset length).length = file.bytes.length)) := by
  have hlt : ∀ b ∈ slice file.bytes offset length, b < 256 := fun b hb =>
    file.lt b (List.mem_of_mem_drop (List.mem_of_mem_take hb))
  simp only [rangeResponse, readResponse, obj, pageOf, List.map_cons, List.map_nil, Dict.get?_cons,
    py_inj]
  have hend : file.bytes.length ≤ offset + (slice file.bytes offset length).length ↔
      offset + (slice file.bytes offset length).length = file.bytes.length := by
    rw [length_slice]
    omega
  simp [b64decode_b64encode hlt, hend, -length_slice]

/-- A client that asks for one range after the other, until the end of the file: `call` is its request
for a range at an offset. -/
def readOn (call : Nat → Nat → Dict) : Nat → Nat → Nat → Prog FsOp FsAns (Option Bytes)
  | 0, _, _ => .ret none
  | fuel + 1, index, offset => handleFsRead (call index offset) >>= fun reply =>
    match pageOf reply with
    | none => .ret none
    | some (data, _, true) => .ret (some data)
    | some (data, length, false) =>
      readOn call fuel (index + 1) (offset + length) >>= fun more => .ret (more.map (data ++ ·))

/-- The client has the rest of the file after at most as many calls as there are bytes left, and one. -/
theorem path_readOn {call : Nat → Nat → Dict}
    (hcall : ∀ index offset, ∃ path length, Ranged (call index offset) path offset length)
    {fuel index offset : Nat} {result : Option Bytes}
    (h : Prog.Path (readOn call fuel index offset) events result)
    (hserved : ∀ e ∈ events, Serves file e.1 e.2) (hoffset : offset ≤ file.bytes.length)
    (hfuel : file.bytes.length - offset < fuel) : result = some (file.bytes.drop offset) := by
  induction fuel generalizing index offset events result with
  | zero => omega
  | succ fuel ih =>
    obtain ⟨path, length, hranged⟩ := hcall index offset
    have hpos := hranged.length_pos
    obtain ⟨before, reply, after, rfl, hread, hmore⟩ := Prog.path_bind_iff.mp h
    have hreply := path_handleFsRead hranged hread
      (fun e he => hserved e (List.mem_append_left _ he)) hoffset
    have hrest := drop_eq file.bytes offset length
    rw [hreply, pageOf_rangeResponse path length hoffset] at hmore
    -- a short read is no end: only the size of the file tells
    cases heof : decide (offset + (slice file.bytes offset length).length = file.bytes.length) with
    | true =>
      rw [heof] at hmore
      have hend := of_decide_eq_true heof
      rw [List.drop_eq_nil_of_le (Nat.le_of_eq hend.symm), List.append_nil] at hrest
      rw [(Prog.path_ret_iff.mp hmore).2, hrest]
    | false =>
      rw [heof] at hmore
      have hopen := of_decide_eq_false heof
      obtain ⟨later, more, last, rfl, hlater, hjoin⟩ := Prog.path_bind_iff.mp hmore
      have hlength : 0 < (slice file.bytes offset length).length ∧
          offset + (slice file.bytes offset length).length < file.bytes.length := by
        rw [length_slice] at hopen ⊢
        omega
      have hnext := ih hlater
        (fun e he => hserved e (List.mem_append_right _ (List.mem_append_left _ he)))
        hlength.2.le (by omega)
      rw [(Prog.path_ret_iff.mp hjoin).2, hnext, hrest]
      rfl

/-- Against every kernel that serves the file, by whatever short reads: a range is answered with
exactly its bytes, and with `eof` exactly when they reach the end; and a client that reads on has the rest
of the file, each byte once, after at most one call more than there are bytes. -/
theorem ranged_reads_reassemble {σ : Type} (file : FileContent)
    (kernel : (op : FsOp) → σ → FsAns op × σ) (hserved : ∀ op s, Serves file op (kernel op s).1) :
    (∀ params path offset length s, Ranged params path offset length → offset ≤ file.bytes.length →
      (Prog.exec kernel (handleFsRead params) s).1 = .ok (rangeResponse file path offset length) ∧
        pageOf (Prog.exec kernel (handleFsRead params) s).1 =
          some (slice file.bytes offset length, (slice file.bytes offset length).length,
            decide (offset + (slice file.bytes offset length).length = file.bytes.length))) ∧
      ∀ call, (∀ index offset, ∃ path length, Ranged (call index offset) path offset length) →
        ∀ fuel index offset s, offset ≤ file.bytes.length → file.bytes.length - offset < fuel →
          (Prog.exec kernel (readOn call fuel index offset) s).1 = some (file.bytes.drop offset) := by
  constructor
  · intro params path offset length s hranged hoffset
    have hreply := path_handleFsRead hranged (Prog.exec_path kernel _ s)
      (Prog.answers_exec hserved _ s) hoffset
    rw [hreply]
    exact ⟨rfl, pageOf_rangeResponse path length hoffset⟩
  · intro call hcall fuel index offset s hoffset hfuel
    exact path_readOn hcall (Prog.exec_path kernel _ s) (Prog.answers_exec hserved _ s) hoffset hfuel

end

namespace RangeSample

scoped instance runtime : Runtime := .ofTable []

theorem printable_empty : ∀ _ : Bytes, Printable [] := fun _ => printable_nil

scoped instance digest : Digest where
  sha256 _ := []
  printable := printable_empty

scoped instance codecs : Codecs where
  decode _ _ := .raised

theorem hello_lt : ∀ b ∈ [104, 101, 108, 108, 111], b < 256 := by decide

def hello : FileContent := ⟨[104, 101, 108, 108, 111], hello_lt⟩

/-- A kernel that answers at most two bytes at a time. -/
def kernel : (op : FsOp) → Unit → FsAns op × Unit
  | .openPath _, s => (.ok (), s)
  | .fstat, s => (.ok ⟨false, hello.bytes.length⟩, s)
  | .pread count pos, s => (.ok ((slice hello.bytes pos count).take 2), s)
  | .close, s => ((), s)

theorem kernel_serves : ∀ op s, Serves hello op (kernel op s).1 := by
  intro op s
  cases op with
  | openPath path => rfl
  | fstat => rfl
  | pread count pos =>
    refine ⟨_, rfl, List.take_prefix 2 _, ?_⟩
    intro hnil
    exact (List.take_eq_nil_iff.mp hnil).resolve_left (by decide)
  | close => trivial

/-- A call for three bytes. -/
def callAt (offset : Nat) : Dict :=
  [(py "path", .str (py "/share/hello")), (py "encoding", .str (py "binary")),
    (py "offset", .int offset), (py "length", .int 3)]

theorem ranged_callAt (offset : Nat) : Ranged (callAt offset) (py "/share/hello") offset 3 where
  keys := by
    have hkeys : (callAt offset).keys = [py "path", py "encoding", py "offset", py "length"] := rfl
    have hunknown : sortedStr ([py "path", py "encoding", py "offset", py "length"].dedup.filter
        fun k => k ∉ readKeys) = [] := by decide
    have hnull : ∀ name ∈ sortedStr (readKeys.filter fun k => k ∉ ([] : List PyStr)),
        (callAt offset).get? name ≠ some .null := by
      intro name hname
      simp only [callAt, Dict.get?_cons]
      split_ifs <;> simp
    unfold strictKeysError
    rw [hkeys, hunknown]
    simp only [ne_eq, not_true, if_false]
    rw [List.find?_eq_none.mpr fun name hname => by simpa using hnull name hname]
  path_eq := rfl
  path_ne := by decide
  encoding_eq := rfl
  offset_eq := rfl
  length_eq := rfl
  length_pos := by decide
  length_le := by
    have hmax : maxBytesOf (callAt offset) =
        clamp defaultReadMaxBytes defaultReadMaxBytes hardReadMaxBytes := rfl
    rw [hmax]
    decide

theorem ranged_reads_hello :
    (Prog.exec kernel (handleFsRead (callAt 2)) ()).1 = .ok (rangeResponse hello (py "/share/hello") 2 3) ∧
      (Prog.exec kernel (readOn (fun _ => callAt) 6 0 0) ()).1 = some [104, 101, 108, 108, 111] := by
  have hreads := ranged_reads_reassemble hello kernel kernel_serves
  constructor
  · exact (hreads.1 _ _ _ _ () (ranged_callAt 2) (by decide)).1
  · exact hreads.2 (fun _ => callAt) (fun _ offset => ⟨_, _, ranged_callAt offset⟩) 6 0 0 () (by decide)
      (by decide)

end RangeSample

end HassNode.FsRead
