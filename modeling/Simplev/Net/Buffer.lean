import Simplev.Foundation.Outcome
import Simplev.Foundation.Storage

/-!
# `Net.Buffer` — the connection's byte buffer (`Buffer.h`, `Buffer.cc`)

A vector with two indices:

    0 <= readerIndex_ <= writerIndex_ <= buffer_.size()
    [0, readerIndex_)  prependable   [readerIndex_, writerIndex_)  readable   the rest  writable

The functions below are the members of the class, with `size_t` arithmetic as it wraps (`sizeAdd`,
`sizeSub`) and the asserts recorded (`Outcome`); `makeSpace` and `ensureWritableBytes` also say what
buffer an exception leaves (`Attempt`). A pointer into the buffer is its offset from
`begin()`. `std::copy` of `len` bytes is `overwrite`: the slide of `makeSpace` copies towards the
front, so the overlap of source and target does no harm.
-/

namespace Simplev

open Foundation

/-- A `char` of a buffer or a message. -/
abbrev Byte := UInt8

/-- `std::vector<char>::max_size()`, also the bound of `std::string`: the largest `ptrdiff_t`. -/
def maxSize : Nat := 9223372036854775807

/-- The `what()` of the `std::length_error` that `std::vector::resize` throws. -/
def lengthError : String := "vector::_M_default_append"

/-- `std::vector<char>::resize`: new elements are zero; past `max_size` it throws and changes nothing. -/
def resize (v : List Byte) (n : Nat) : Attempt (List Byte) :=
  if n ≤ maxSize then .ok (v.take n ++ List.replicate (n - v.length) 0) []
  else .thrown lengthError v

structure Buffer where
  buffer_ : List Byte
  readerIndex_ : Nat
  writerIndex_ : Nat
deriving DecidableEq, Repr

namespace Buffer

def kCheapPrepend : Nat := 8
def kInitialSize : Nat := 1024

/-- `Buffer()`. -/
def new : Buffer where
  buffer_ := List.replicate (kCheapPrepend + kInitialSize) 0
  readerIndex_ := kCheapPrepend
  writerIndex_ := kCheapPrepend

/-- `swap`: the two buffers afterwards. The members change places one by one. -/
def swap (b rhs : Buffer) : Buffer × Buffer :=
  let b₁ := { b with buffer_ := rhs.buffer_ }
  let rhs₁ := { rhs with buffer_ := b.buffer_ }
  let b₂ := { b₁ with readerIndex_ := rhs₁.readerIndex_ }
  let rhs₂ := { rhs₁ with readerIndex_ := b₁.readerIndex_ }
  ({ b₂ with writerIndex_ := rhs₂.writerIndex_ }, { rhs₂ with writerIndex_ := b₂.writerIndex_ })

def readableBytes (b : Buffer) : Nat := sizeSub b.writerIndex_ b.readerIndex_

def writableBytes (b : Buffer) : Nat := sizeSub b.buffer_.length b.writerIndex_

def prependableBytes (b : Buffer) : Nat := b.readerIndex_

/-- `peek()`, as an offset from `begin()`. -/
def peek (b : Buffer) : Nat := b.readerIndex_

/-- `beginWrite()`, as an offset from `begin()`. -/
def beginWrite (b : Buffer) : Nat := b.writerIndex_

/-- The readable bytes: `readableBytes()` bytes from `peek()`. -/
def readable (b : Buffer) : List Byte := segment b.buffer_ b.readerIndex_ b.writerIndex_

def retrieve (b : Buffer) (len : Nat) : Outcome Buffer := do
  Outcome.assert (len ≤ b.readableBytes) "len <= readableBytes()"
  return { b with readerIndex_ := sizeAdd b.readerIndex_ len }

def retrieveUntil (b : Buffer) (stop : Nat) : Outcome Buffer := do
  Outcome.assert (b.peek ≤ stop) "peek() <= end"
  Outcome.assert (stop ≤ b.beginWrite) "end <= beginWrite()"
  b.retrieve (sizeSub stop b.peek)

def retrieveAll (b : Buffer) : Buffer :=
  { b with readerIndex_ := kCheapPrepend, writerIndex_ := kCheapPrepend }

/-- The string it returns, and the buffer it leaves. -/
def retrieveAsString (b : Buffer) : List Byte × Buffer := (b.readable, b.retrieveAll)

def hasWritten (b : Buffer) (len : Nat) : Buffer :=
  { b with writerIndex_ := sizeAdd b.writerIndex_ len }

def makeSpace (b : Buffer) (len : Nat) : Attempt Buffer :=
  if sizeAdd b.writableBytes b.prependableBytes < sizeAdd len kCheapPrepend then
    (resize b.buffer_ (sizeAdd b.writerIndex_ len)).map fun buffer_ => { b with buffer_ := buffer_ }
  else
    -- move readable data to the front, make space inside buffer
    let readable := b.readableBytes
    let b' : Buffer :=
      { buffer_ := overwrite b.buffer_ kCheapPrepend b.readable
        readerIndex_ := kCheapPrepend
        writerIndex_ := sizeAdd kCheapPrepend readable }
    .ok b' (Outcome.unmet (kCheapPrepend < b.readerIndex_) "kCheapPrepend < readerIndex_" ++
      Outcome.unmet (readable = b'.readableBytes) "readable == readableBytes()")

def ensureWritableBytes (b : Buffer) (len : Nat) : Attempt Buffer :=
  Attempt.assert (if b.writableBytes < len then b.makeSpace len else .ok b [])
    (fun b' => len ≤ b'.writableBytes) "writableBytes() >= len"

/-- Bytes stored from `beginWrite()` on, by `append` or by the holder of the pointer. -/
def store (b : Buffer) (data : List Byte) : Buffer :=
  { b with buffer_ := overwrite b.buffer_ b.beginWrite data }

def append (b : Buffer) (data : List Byte) : Outcome Buffer := do
  let b' ← (b.ensureWritableBytes data.length).outcome
  return (b'.store data).hasWritten data.length

def prepend (b : Buffer) (data : List Byte) : Outcome Buffer := do
  Outcome.assert (data.length ≤ b.prependableBytes) "len <= prependableBytes()"
  let readerIndex := sizeSub b.readerIndex_ data.length
  return { b with readerIndex_ := readerIndex, buffer_ := overwrite b.buffer_ readerIndex data }

/-- `shrink`: the readable bytes are copied to `kCheapPrepend` of a fresh vector, which then takes the
    place of `buffer_`. The size of that vector may wrap around. When nothing is readable nothing is
    copied, however short it is; a copy past its end is undefined, and counts as a throw here. -/
def shrink (b : Buffer) (reserve : Nat) : Outcome Buffer :=
  let size := sizeAdd (sizeAdd kCheapPrepend b.readableBytes) reserve
  if maxSize < size then
    .thrown "cannot create std::vector larger than max_size()"
  else if b.readable ≠ [] ∧ size < kCheapPrepend + b.readable.length then
    .thrown "std::copy past the end of buf"
  else
    let buf := List.replicate size 0
    return { b with buffer_ := overwrite buf kCheapPrepend b.readable }

/-- `sizeof extrabuf`. -/
def extrabufSize : Nat := 65536

/-- What `readv` returned: the bytes it delivered, in order, or `-1` with `errno`. -/
inductive Readv where
  | data (bytes : List Byte)
  | error (errno : Nat)
deriving DecidableEq, Repr

/-- `readv` fills the writable part first, then `extrabuf`, and no more than both hold. -/
def Readv.Fits (r : Readv) (b : Buffer) : Prop :=
  match r with
  | data bytes => bytes.length ≤ b.writableBytes + extrabufSize
  | error _ => True

instance : (r : Readv) → (b : Buffer) → Decidable (r.Fits b)
  | .data bytes, b => inferInstanceAs (Decidable (bytes.length ≤ b.writableBytes + extrabufSize))
  | .error _, _ => inferInstanceAs (Decidable True)

/-- `readFd`: the number it returns (`none` for `-1`), the value left in `*savedErrno`, and the buffer.
    The bytes up to `writable` went into the buffer's own storage, the others into `extrabuf`. -/
def readFd (b : Buffer) (r : Readv) : Outcome (Option Nat × Option Nat × Buffer) :=
  match r with
  | .error errno => .ok (none, some errno, b) []
  | .data bytes => do
    let writable := b.writableBytes
    let filled := b.store (bytes.take writable)
    if bytes.length ≤ writable then
      return (some bytes.length, none, filled.hasWritten bytes.length)
    else
      let full : Buffer := { filled with writerIndex_ := filled.buffer_.length }
      let b' ← full.append (bytes.drop writable)
      return (some bytes.length, none, b')

end Buffer

end Simplev
