/-
# The byte buffer

`Buffer.h`: a `std::vector<char>` with two indices.  The bytes in
`[readerIndex_, writerIndex_)` are readable, `[writerIndex_, size())` is free
for writing, and the first `kCheapPrepend` bytes are kept in reserve:

```
| 0 .. kCheapPrepend | .. readerIndex_ | readable .. writerIndex_ | writable .. size() |
```

The storage is the list of its bytes and `size_t` arithmetic is arithmetic
modulo `2 ^ 64`.  Every read and write of the storage goes through the checked
loops of `MuMuduo.Foundation.Block`, so that an operation returns `none` exactly
when the C++ code would touch a byte outside `buffer_`.  Allocation is taken to
succeed.
-/

import Mathlib.Algebra.Group.Nat.Defs
import MuMuduo.Foundation.Block

namespace MuMuduo

open Foundation

/-- `size_t` addition. -/
def SizeT.add (a b : ℕ) : ℕ := (a + b) % 2 ^ 64

/-- `size_t` subtraction. -/
def SizeT.sub (a b : ℕ) : ℕ := (a + (2 ^ 64 - b % 2 ^ 64)) % 2 ^ 64

/-- A sum that fits is not reduced. -/
theorem SizeT.add_eq {a b : ℕ} (h : a + b < 2 ^ 64) : SizeT.add a b = a + b := Nat.mod_eq_of_lt h

/-- A difference that is not negative is not reduced. -/
theorem SizeT.sub_eq {a b : ℕ} (hle : b ≤ a) (ha : a < 2 ^ 64) : SizeT.sub a b = a - b := by
  unfold SizeT.sub; omega

/-- The members of `Buffer`. -/
structure Buffer where
  buffer_ : List UInt8
  readerIndex_ : ℕ
  writerIndex_ : ℕ

namespace Buffer

/-- Bytes kept in reserve before the readable region. -/
def kCheapPrepend : ℕ := 8

/-- Default size of the region after the reserve. -/
def kInitialSize : ℕ := 1024

/-- `Buffer(size_t initialSize)`; without an argument `initialSize` is
`kInitialSize`. -/
def ofSize (initialSize : ℕ) : Buffer where
  buffer_ := List.replicate (SizeT.add kCheapPrepend initialSize) 0
  readerIndex_ := kCheapPrepend
  writerIndex_ := kCheapPrepend

def readableBytes (b : Buffer) : ℕ := SizeT.sub b.writerIndex_ b.readerIndex_

def writerBytes (b : Buffer) : ℕ := SizeT.sub b.buffer_.length b.writerIndex_

def prependableBytes (b : Buffer) : ℕ := b.readerIndex_

def retrieveAll (b : Buffer) : Buffer :=
  { b with readerIndex_ := kCheapPrepend, writerIndex_ := kCheapPrepend }

def retrieve (b : Buffer) (len : ℕ) : Buffer :=
  if len < b.readableBytes then { b with readerIndex_ := SizeT.add b.readerIndex_ len }
  else b.retrieveAll

/-- `std::string result(peek(), len); retrieve(len); return result;` -/
def retriveAsString (b : Buffer) (len : ℕ) : Option (List UInt8 × Buffer) :=
  (load b.buffer_ b.readerIndex_ len).map fun result => (result, b.retrieve len)

def retrieveAllAsString (b : Buffer) : Option (List UInt8 × Buffer) :=
  b.retriveAsString b.readableBytes

/-- Grow the storage behind `writerIndex_`, or shift the readable bytes down to
`kCheapPrepend`. -/
def makeSpace (b : Buffer) (len : ℕ) : Option Buffer :=
  if SizeT.add b.writerBytes b.prependableBytes < len then
    some { b with buffer_ := resize 0 b.buffer_ (SizeT.add b.writerIndex_ len) }
  else
    let readable := b.readableBytes
    (copyWithin b.buffer_ b.readerIndex_ kCheapPrepend
      (SizeT.sub b.writerIndex_ b.readerIndex_)).map fun m =>
        ⟨m, kCheapPrepend, SizeT.add kCheapPrepend readable⟩

def ensureWriteableBytes (b : Buffer) (len : ℕ) : Option Buffer :=
  if b.writerBytes < len then b.makeSpace len else some b

/-- `append(data, len)`; `data` is the caller's memory `[data, data + len)`. -/
def append (b : Buffer) (data : List UInt8) : Option Buffer :=
  (b.ensureWriteableBytes data.length).bind fun b =>
    (copyIn b.buffer_ b.writerIndex_ data).map fun m =>
      { b with buffer_ := m, writerIndex_ := SizeT.add b.writerIndex_ data.length }

/-- The bytes in `[readerIndex_, writerIndex_)`. -/
def readable (b : Buffer) : List UInt8 :=
  (b.buffer_.drop b.readerIndex_).take (b.writerIndex_ - b.readerIndex_)

/-- The order of the indices, inside a storage whose `size()` is a `size_t`. -/
structure Valid (b : Buffer) : Prop where
  prepend_le : kCheapPrepend ≤ b.readerIndex_
  reader_le : b.readerIndex_ ≤ b.writerIndex_
  writer_le : b.writerIndex_ ≤ b.buffer_.length
  size_lt : b.buffer_.length < 2 ^ 64

section Valid

variable {b : Buffer}

/-- In a valid buffer `readableBytes` is the difference of the indices. -/
theorem Valid.readableBytes_eq (h : b.Valid) :
    b.readableBytes = b.writerIndex_ - b.readerIndex_ :=
  SizeT.sub_eq h.reader_le (Nat.lt_of_le_of_lt h.writer_le h.size_lt)

/-- So is `writerBytes`, to the end of the storage. -/
theorem Valid.writerBytes_eq (h : b.Valid) :
    b.writerBytes = b.buffer_.length - b.writerIndex_ :=
  SizeT.sub_eq h.writer_le h.size_lt

/-- There are as many readable bytes as `readableBytes` says. -/
theorem Valid.length_readable (h : b.Valid) : b.readable.length = b.readableBytes := by
  have := h.reader_le
  have := h.writer_le
  rw [h.readableBytes_eq, readable, List.length_take, List.length_drop]
  omega

/-- Reserve, readable and free bytes together are the storage. -/
theorem Valid.add_writerBytes (h : b.Valid) :
    b.prependableBytes + b.readableBytes + b.writerBytes = b.buffer_.length := by
  have := h.reader_le
  have := h.writer_le
  rw [h.readableBytes_eq, h.writerBytes_eq, prependableBytes]
  omega

/-- A new buffer has its initial size behind the prepended bytes. -/
theorem length_ofSize {n : ℕ} (h : kCheapPrepend + n < 2 ^ 64) :
    (ofSize n).buffer_.length = kCheapPrepend + n := by
  rw [ofSize, List.length_replicate, SizeT.add_eq h]

/-- The constructor builds a valid buffer unless `kCheapPrepend + initialSize`
wraps around. -/
theorem valid_ofSize_iff {n : ℕ} (hn : n < 2 ^ 64) :
    (ofSize n).Valid ↔ kCheapPrepend + n < 2 ^ 64 := by
  constructor
  · intro h
    have hw : kCheapPrepend ≤ (List.replicate (SizeT.add kCheapPrepend n) (0 : UInt8)).length :=
      h.writer_le
    rw [List.length_replicate, SizeT.add] at hw
    unfold kCheapPrepend at *
    omega
  · intro h
    have hs := length_ofSize h
    exact ⟨Nat.le_refl _, Nat.le_refl _, hs ▸ Nat.le_add_right _ _, hs ▸ h⟩

@[simp] theorem readable_ofSize (n : ℕ) : (ofSize n).readable = [] := by
  simp [readable, ofSize]

end Valid

end Buffer

end MuMuduo
