import HassNode.BackupStore
import HassNode.Py.Base64

/-!
# `fs.read`

The handler of `commands/fs.py` as a program over the calls that it makes of the kernel.
-/

namespace HassNode.FsRead

open Py Py.Base64 Interaction Commands BackupStore

/-! ## The kernel -/

/-- Why `_open` raises. -/
inductive OpenFailure where
  | noAllowedRoots (message : PyStr)
  | outOfBounds
  | notFound
  | os

structure Stat where
  isDir : Bool
  size : Nat

inductive FsOp where
  /-- `_open(path)` -/
  | openPath (path : PyStr)
  | fstat
  | pread (count pos : Nat)
  | close

/-- An exception that the handler does not catch. -/
inductive FsExc where
  | os
  | codec
deriving DecidableEq

def FsAns : FsOp → Type
  | .openPath _ => Except OpenFailure Unit
  | .fstat => Except FsExc Stat
  | .pread _ _ => Except FsExc Bytes
  | .close => Unit

abbrev FsProgram (α : Type) := Prog FsOp FsAns (Except FsExc α)

/-- `data.decode(encoding)`. -/
inductive Decoded where
  | text (content : PyStr)
  /-- A `UnicodeDecodeError` or a `LookupError`, as text. -/
  | refused (message : PyStr)
  | raised

/-- The codecs of the runtime. -/
class Codecs where
  decode : PyStr → Bytes → Decoded

/-! ## The handler -/

def defaultReadMaxBytes : Nat := 1 * 1024 * 1024

def hardReadMaxBytes : Nat := 16 * 1024 * 1024

/-- `_clamp`. -/
def clamp (value : Int) (default hardCap : Nat) : Nat :=
  if value ≤ 0 then default else min value.toNat hardCap

/-- `_error`. -/
def fsError (code message : PyStr) (extra : Dict) : Json :=
  .dict (Dict.update
    [(py "ok", .bool false), (py "error", .str code), (py "message", .str message)] extra)

/-- The loop of `_read_range`. -/
def readLoop (remaining pos : Nat) (chunks : Bytes) : FsProgram Bytes :=
  if remaining = 0 then .ret (.ok chunks)
  else
    .call (.pread remaining pos) fun
      | .error exc => .ret (.error exc)
      | .ok chunk =>
        if chunk = [] then .ret (.ok chunks)
        else readLoop (remaining - chunk.length) (pos + chunk.length) (chunks ++ chunk)
termination_by remaining
decreasing_by
  have hchunk : 0 < chunk.length := List.length_pos_iff.mpr (by assumption)
  omega

/-- `_read_range`. -/
def readRange (offset cap : Nat) (probeOverflow : Bool) : FsProgram Bytes :=
  readLoop (cap + if probeOverflow then 1 else 0) offset []

def readKeys : List PyStr :=
  [py "path", py "encoding", py "max_bytes", py "offset", py "length"]

/-- `max_bytes`. -/
def maxBytesOf (params : Dict) : Nat :=
  match params.getD (py "max_bytes") (.int defaultReadMaxBytes) with
  | .int value => clamp value defaultReadMaxBytes hardReadMaxBytes
  | _ => clamp defaultReadMaxBytes defaultReadMaxBytes hardReadMaxBytes

/-- `offset`. -/
def offsetOf (path : PyStr) (params : Dict) : Except Json Nat :=
  match params.getD (py "offset") (.int 0) with
  | .int offset =>
    if offset < 0 then
      .error (fsError (py "BAD_OFFSET") (py "'offset' must be a non-negative integer")
        [(py "path", .str path), (py "offset", .int offset)])
    else .ok offset.toNat
  | _ =>
    .error (fsError (py "BAD_OFFSET") (py "'offset' must be a non-negative integer")
      [(py "path", .str path)])

/-- `length`, if it is supplied. -/
def lengthOf (path : PyStr) (maxBytes : Nat) (params : Dict) : Except Json (Option Nat) :=
  let bad := fsError (py "BAD_LENGTH") (py "'length' must be a positive integer when supplied")
    [(py "path", .str path)]
  match params.get? (py "length") with
  | none => .ok none
  | some (.int length) =>
    if length ≤ 0 then .error bad
    else if (maxBytes : Int) < length then
      .error (fsError (py "TOO_LARGE") (py "Requested length " ++ intStr length ++
          py " exceeds max_bytes " ++ natStr maxBytes)
        [(py "path", .str path), (py "length", .int length), (py "max_bytes", .int maxBytes)])
    else .ok (some length.toNat)
  | some _ => .error bad

section
variable [Runtime] [Digest] [Codecs]

/-- The response to a read. -/
def readResponse (path encoding content : PyStr) (fileSize offset : Nat) (data : Bytes) : Json :=
  obj [("ok", .bool true), ("path", .str path), ("size", .int data.length),
    ("file_size", .int fileSize), ("offset", .int offset), ("length", .int data.length),
    ("eof", .bool (decide (fileSize ≤ offset + data.length))), ("encoding", .str encoding),
    ("content", .str content), ("sha256", .str (Digest.sha256 data))]

/-- The `try` behind the opened file. -/
def readOpened (path encoding : PyStr) (maxBytes offset : Nat) (length : Option Nat) :
    FsProgram Json :=
  .call .fstat fun
    | .error exc => .ret (.error exc)
    | .ok st =>
      if st.isDir then
        .ret (.ok (fsError (py "IS_DIRECTORY") (py "Path is a directory: " ++ path)
          [(py "path", .str path)]))
      else if st.size < offset then
        .ret (.ok (fsError (py "OFFSET_BEYOND_EOF") (py "offset " ++ natStr offset ++
            py " is past end of file (size " ++ natStr st.size ++ py ")")
          [(py "path", .str path), (py "offset", .int offset), (py "file_size", .int st.size)]))
      else
        let cap := length.getD maxBytes
        readRange offset cap length.isNone >>= fun
          | .error exc => .ret (.error exc)
          | .ok data =>
            if cap < data.length then
              .ret (.ok (fsError (py "TOO_LARGE")
                (py "File slice exceeds limit of " ++ natStr maxBytes ++ py " bytes")
                [(py "path", .str path), (py "size", .int data.length),
                  (py "max_bytes", .int maxBytes), (py "offset", .int offset),
                  (py "file_size", .int st.size)]))
            else if encoding = py "binary" then
              .ret (.ok (readResponse path encoding (b64encode data) st.size offset data))
            else
              match Codecs.decode encoding data with
              | .text content => .ret (.ok (readResponse path encoding content st.size offset data))
              | .refused message =>
                .ret (.ok (fsError (py "DECODE_ERROR")
                  (py "Cannot decode file as " ++ encoding ++ py ": " ++ message)
                  [(py "path", .str path), (py "encoding", .str encoding),
                    (py "offset", .int offset), (py "length", .int data.length)]))
              | .raised => .ret (.error .codec)

def handleFsRead (params : Dict) : FsProgram Json :=
  match strictKeysError params readKeys [] with
  | some invalid => .ret (.ok invalid)
  | none =>
    match params.getD (py "path") .null with
    | .str (c :: rest) =>
      let path := c :: rest
      let encoding := strOf (params.getD (py "encoding") (.str (py "utf-8")))
      let maxBytes := maxBytesOf params
      match offsetOf path params with
      | .error response => .ret (.ok response)
      | .ok offset =>
        match lengthOf path maxBytes params with
        | .error response => .ret (.ok response)
        | .ok length =>
          .call (.openPath path) fun
            | .error (.noAllowedRoots message) =>
              .ret (.ok (fsError (py "NO_ALLOWED_ROOTS") message []))
            | .error .outOfBounds =>
              .ret (.ok (fsError (py "OUT_OF_BOUNDS") (py "Path is outside the allowed roots")
                [(py "path", .str path)]))
            | .error .notFound =>
              .ret (.ok (fsError (py "PATH_NOT_FOUND") (py "No such file: " ++ path)
                [(py "path", .str path)]))
            | .error .os => .ret (.error .os)
            | .ok () =>
              -- `finally: os.close(fd)`
              readOpened path encoding maxBytes offset length >>= fun reply =>
                .call .close fun _ => .ret reply
    | _ => .ret (.ok (fsError (py "PATH_REQUIRED") (py "Missing required 'path' parameter") []))

end

end HassNode.FsRead
