/-
# Reading from a descriptor

`Buffer::readFd` (`Buffer.cc`).  `readv` fills the free tail of the storage and,
if that is shorter than `extrabuf`, goes on in `extrabuf`, 64 KiB on the stack.
What has spilled is put behind the storage with `append`, which finds no free
byte at all: it grows the storage, or it shifts the readable bytes down, and
then the reserve is missing from what it has counted on (`Buffer.Space`).

So the outcome depends on how far the delivered bytes reach beyond the tail and
on how much of the storage has been consumed.  From every state that the public
operations lead to, `readFd` appends what was delivered exactly when the bytes
end in the tail or their overhang `SpillFits` (`readsRight_iff_readFits`).  The
peer chooses the length: `1025` bytes sent to a fresh default buffer are written
past its end (`not_readsRight_default`).

`ssize_t` holds every count that `readv` returns, so the returned count is an
integer.  `writeFd` leaves the buffer as it is.
-/

import MuMuduo.Buffer.History

namespace MuMuduo
namespace Buffer

open Foundation

/-- What `readv` returns: the bytes it has delivered, or `-1` with `errno`. -/
inductive ReadvResult
  | delivered (bs : List UInt8)
  | failed (errno : ℕ)

/-- `sizeof extrabuf`. -/
def extrabufSize : ℕ := 65536

/-- `(writable < sizeof extrabuf) ? 2 : 1`. -/
def iovcnt (b : Buffer) : ℕ := if b.writerBytes < extrabufSize then 2 else 1

/-- No more is delivered than the `iovcnt` blocks hold together. -/
def Deliverable (b : Buffer) : ReadvResult → Prop
  | .delivered bs =>
      bs.length ≤ if b.iovcnt = 2 then b.writerBytes + extrabufSize else b.writerBytes
  | .failed _ => True

/-- `readv` fills `buffer_` from `writerIndex_` on, and then `extrabuf`. -/
def readv (b : Buffer) (extrabuf bs : List UInt8) : Option (Buffer × List UInt8) :=
  (copyIn b.buffer_ b.writerIndex_ (bs.take b.writerBytes)).bind fun m =>
    (copyIn extrabuf 0 (bs.drop b.writerBytes)).map fun extrabuf =>
      ({ b with buffer_ := m }, extrabuf)

/-- `readFd(fd, saveErrno)`: the buffer, the value returned, and what is stored in
`*saveErrno`. -/
def readFd (b : Buffer) : ReadvResult → Option (Buffer × ℤ × Option ℕ)
  | .failed errno => some (b, -1, some errno)
  | .delivered bs =>
      let writable := b.writerBytes
      let n := bs.length
      (b.readv (List.replicate extrabufSize 0) bs).bind fun (b, extrabuf) =>
        if n ≤ writable then
          some ({ b with writerIndex_ := SizeT.add b.writerIndex_ n }, n, none)
        else
          (load extrabuf 0 (SizeT.sub n writable)).bind fun data =>
            ({ b with writerIndex_ := b.buffer_.length }.append data).map fun b => (b, n, none)

/-- The public operations that change the buffer. -/
inductive Call
  | op (op : Op)
  | readFd (r : ReadvResult)

/-- One call; `none` if it touches a byte outside the storage. -/
def step (b : Buffer) : Call → Option Buffer
  | .op (.append data) => b.append data
  | .op (.retrieve len) => some (b.retrieve len)
  | .op .retrieveAll => some b.retrieveAll
  | .op .retrieveAllAsString => b.retrieveAllAsString.map Prod.snd
  | .op (.retriveAsString len) => (b.retriveAsString len).map Prod.snd
  | .op (.ensureWriteableBytes len) => b.ensureWriteableBytes len
  | .readFd r => (b.readFd r).map Prod.fst

/-- What is asked of one call of `readFd`. -/
def ReadsRight (b : Buffer) : ReadvResult → Prop
  | .delivered bs => ∃ b' : Buffer, b.readFd (.delivered bs) = some (b', (bs.length : ℤ), none) ∧
      b'.readable = b.readable ++ bs ∧ b'.readerIndex_ ≤ b'.writerIndex_ ∧
      b'.writerIndex_ ≤ b'.buffer_.length
  | .failed errno => b.readFd (.failed errno) = some (b, -1, some errno)

/-- `len` bytes that have spilled can be put behind the storage: it grows, or the
consumed bytes are worth them and the reserve. -/
def SpillFits (b : Buffer) (len : ℕ) : Prop :=
  (b.readerIndex_ < len ∧ b.buffer_.length + len < 2 ^ 64) ∨
    len + kCheapPrepend ≤ b.readerIndex_

/-- The indices are inside the storage, and the delivered bytes end in the free
tail or spill a length that fits. -/
def ReadFits (b : Buffer) : ReadvResult → Prop
  | .delivered bs => b.writerIndex_ ≤ b.buffer_.length ∧
      (bs.length ≤ b.writerBytes ∨ b.SpillFits (bs.length - b.writerBytes))
  | .failed _ => True

/-! ### What every call keeps -/

/-- The indices in order, inside or outside of the storage: a wrapped size leaves
them outside. -/
structure Ordered (b : Buffer) : Prop where
  prepend_le : kCheapPrepend ≤ b.readerIndex_
  reader_le : b.readerIndex_ ≤ b.writerIndex_
  writer_lt : b.writerIndex_ < 2 ^ 64
  size_lt : b.buffer_.length < 2 ^ 64

section Ordered

variable {b b' : Buffer}

/-- Ordered indices that stay inside the storage make a valid buffer. -/
theorem Ordered.valid (h : b.Ordered) (hw : b.writerIndex_ ≤ b.buffer_.length) : b.Valid :=
  ⟨h.prepend_le, h.reader_le, hw, h.size_lt⟩

/-- The indices of a new buffer are in order. -/
theorem ordered_ofSize (n : ℕ) : (ofSize n).Ordered where
  prepend_le := Nat.le_refl _
  reader_le := Nat.le_refl _
  writer_lt := by
    show kCheapPrepend < 2 ^ 64
    decide
  size_lt := by
    rw [ofSize, List.length_replicate]
    exact Nat.mod_lt _ (by decide)

/-- `retrieve` keeps them so, whatever length it is given. -/
theorem Ordered.retrieve (h : b.Ordered) (len : ℕ) : (b.retrieve len).Ordered := by
  obtain ⟨h₁, h₂, h₃, h₄⟩ := h
  have hr : b.readableBytes = b.writerIndex_ - b.readerIndex_ := SizeT.sub_eq h₂ h₃
  rw [Buffer.retrieve]
  split_ifs with hlt
  · have hadd : SizeT.add b.readerIndex_ len = b.readerIndex_ + len := SizeT.add_eq (by omega)
    exact ⟨by simp only [hadd]; omega, by simp only [hadd]; omega, h₃, h₄⟩
  · exact ⟨Nat.le_refl _, Nat.le_refl _, by unfold retrieveAll kCheapPrepend; simp only; omega, h₄⟩

/-- So does `retriveAsString`. -/
theorem Ordered.retriveAsString (h : b.Ordered) {len : ℕ} {r : List UInt8 × Buffer}
    (hb : b.retriveAsString len = some r) : r.2.Ordered := by
  obtain ⟨-, -, rfl⟩ := Option.map_eq_some_iff.1 hb
  exact h.retrieve len

/-- Room is made behind the readable bytes. -/
theorem Ordered.ensureWriteableBytes (h : b.Ordered) {len : ℕ}
    (hb : b.ensureWriteableBytes len = some b') : b'.Ordered := by
  obtain ⟨h₁, h₂, h₃, h₄⟩ := h
  have hr : b.readableBytes = b.writerIndex_ - b.readerIndex_ := SizeT.sub_eq h₂ h₃
  rw [Buffer.ensureWriteableBytes] at hb
  split_ifs at hb with hlt
  · rw [makeSpace] at hb
    split_ifs at hb with hgrow
    · -- the storage gets a new size, the indices stay
      obtain rfl := Option.some.inj hb
      refine ⟨h₁, h₂, h₃, ?_⟩
      simp only [length_resize]
      exact Nat.mod_lt _ (by decide)
    · obtain ⟨m, hm, rfl⟩ := Option.map_eq_some_iff.1 hb
      have hadd : SizeT.add kCheapPrepend b.readableBytes = kCheapPrepend + b.readableBytes :=
        SizeT.add_eq (by omega)
      exact ⟨Nat.le_refl _, by simp only [hadd]; omega, by simp only [hadd]; omega,
        by simp only [length_of_copyWithin hm]; exact h₄⟩
  · obtain rfl := Option.some.inj hb
    exact ⟨h₁, h₂, h₃, h₄⟩

/-- Data is appended behind them. -/
theorem Ordered.append (h : b.Ordered) {data : List UInt8} (hb : b.append data = some b') :
    b'.Ordered := by
  obtain ⟨c, hc, hb⟩ := Option.bind_eq_some_iff.1 hb
  obtain ⟨m, hm, rfl⟩ := Option.map_eq_some_iff.1 hb
  obtain ⟨h₁, h₂, h₃, h₄⟩ := h.ensureWriteableBytes hc
  obtain ⟨hlen, hin⟩ := length_of_copyIn hm
  have hadd : SizeT.add c.writerIndex_ data.length = c.writerIndex_ + data.length := by
    refine SizeT.add_eq ?_
    rcases hin with rfl | hin
    · exact h₃
    · omega
  refine ⟨h₁, by simp only [hadd]; omega, ?_, by simp only [hlen]; exact h₄⟩
  exact Nat.mod_lt _ (by decide)

/-- Bytes reach `extrabuf` only if the tail is shorter than it. -/
theorem Deliverable.spill {bs : List UInt8} (hd : b.Deliverable (.delivered bs))
    (hn : ¬bs.length ≤ b.writerBytes) :
    b.writerBytes < extrabufSize ∧ bs.length ≤ b.writerBytes + extrabufSize := by
  rw [Deliverable, iovcnt] at hd
  by_cases h : b.writerBytes < extrabufSize
  · rw [if_pos h, if_pos rfl] at hd
    exact ⟨h, hd⟩
  · rw [if_neg h, if_neg (by decide)] at hd
    exact absurd hd hn

/-- The tail that `readv` fills, and the state the rest of `readFd` goes on with. -/
theorem readv_spec (h : b.Valid) {bs : List UInt8} (hd : b.Deliverable (.delivered bs)) :
    ∃ m extrabuf, b.readv (List.replicate extrabufSize 0) bs =
        some ({ b with buffer_ := m }, extrabuf) ∧ m.length = b.buffer_.length ∧
      load extrabuf 0 (bs.length - b.writerBytes) = some (bs.drop b.writerBytes) ∧
      (⟨m, b.readerIndex_, b.writerIndex_ + min b.writerBytes bs.length⟩ : Buffer).Valid ∧
      (⟨m, b.readerIndex_, b.writerIndex_ + min b.writerBytes bs.length⟩ : Buffer).readable =
        b.readable ++ bs.take b.writerBytes := by
  have h₃ := h.writer_le
  have hwr := h.writerBytes_eq
  have hlen : (bs.take b.writerBytes).length = min b.writerBytes bs.length := List.length_take
  have hspill : (bs.drop b.writerBytes).length ≤ extrabufSize := by
    rw [List.length_drop]
    by_cases hn : bs.length ≤ b.writerBytes
    · omega
    · have := hd.spill hn
      omega
  obtain ⟨m, hm, hsize, hv, hr⟩ := @write_spec b (bs.take b.writerBytes) h (by omega)
  have hx : copyIn (List.replicate extrabufSize (0 : UInt8)) 0 (bs.drop b.writerBytes) = _ :=
    copyIn_eq (by rw [List.length_replicate]; omega)
  rw [List.take_zero, List.nil_append] at hx
  refine ⟨m, _, by rw [readv, hm, Option.bind_some, hx, Option.map_some], hsize, ?_, hlen ▸ hv,
    hlen ▸ hr⟩
  rw [load_eq (by rw [List.length_append, List.length_drop]; omega), List.drop_zero,
    ← List.length_drop, List.take_left]

/-- What ends in the free tail is read right. -/
theorem Valid.readsRight_tail (h : b.Valid) {bs : List UInt8}
    (hd : b.Deliverable (.delivered bs)) (hn : bs.length ≤ b.writerBytes) :
    b.ReadsRight (.delivered bs) := by
  have h₃ := h.writer_le
  have h₄ := h.size_lt
  have hwr := h.writerBytes_eq
  obtain ⟨m, extrabuf, hreadv, -, -, hv, hr⟩ := readv_spec h hd
  rw [Nat.min_eq_right hn] at hv hr
  rw [List.take_of_length_le hn] at hr
  refine ⟨_, ?_, hr, hv.reader_le, hv.writer_le⟩
  simp only [readFd, hreadv, Option.bind_some, if_pos hn]
  rw [SizeT.add_eq (by omega)]

/-- What has spilled is appended to a full storage. -/
theorem Valid.readFd_spill (h : b.Valid) {bs : List UInt8}
    (hd : b.Deliverable (.delivered bs)) (hn : ¬bs.length ≤ b.writerBytes) :
    ∃ c : Buffer, c.Valid ∧ c.writerBytes = 0 ∧ c.readerIndex_ = b.readerIndex_ ∧
      c.writerIndex_ = b.buffer_.length ∧ c.buffer_.length = b.buffer_.length ∧
      c.readable = b.readable ++ bs.take b.writerBytes ∧
      b.readFd (.delivered bs) = (c.append (bs.drop b.writerBytes)).map fun b =>
        (b, (bs.length : ℤ), none) := by
  have h₃ := h.writer_le
  have hwr := h.writerBytes_eq
  obtain ⟨m, extrabuf, hreadv, hsize, hload, hv, hr⟩ := readv_spec h hd
  rw [Nat.min_eq_left (by omega), show b.writerIndex_ + b.writerBytes = m.length by omega] at hv hr
  refine ⟨⟨m, b.readerIndex_, m.length⟩, hv, ?_, rfl, hsize, hsize, hr, ?_⟩
  · rw [hv.writerBytes_eq]
    exact Nat.sub_self _
  · obtain ⟨htail, hbs⟩ := hd.spill hn
    unfold extrabufSize at htail hbs
    have hsub : SizeT.sub bs.length b.writerBytes = bs.length - b.writerBytes :=
      SizeT.sub_eq (by omega) (by omega)
    simp only [readFd, hreadv, Option.bind_some, if_neg hn, hsub, hload]

/-- **One call on a buffer whose indices are in its storage.** -/
theorem Valid.readsRight_iff (h : b.Valid) {bs : List UInt8}
    (hd : b.Deliverable (.delivered bs)) :
    b.ReadsRight (.delivered bs) ↔
      bs.length ≤ b.writerBytes ∨ b.SpillFits (bs.length - b.writerBytes) := by
  have h₁ := h.prepend_le
  have h₄ := h.size_lt
  by_cases hn : bs.length ≤ b.writerBytes
  · exact iff_of_true (h.readsRight_tail hd hn) (.inl hn)
  · obtain ⟨c, hv, hcw, hcr, hci, hcs, hr, hread⟩ := h.readFd_spill hd hn
    set data := bs.drop b.writerBytes with hdata
    have hlen : data.length = bs.length - b.writerBytes := List.length_drop
    have hcp : c.prependableBytes = b.readerIndex_ := hcr
    obtain ⟨htail, hbs⟩ := hd.spill hn
    unfold extrabufSize at htail hbs
    have hdlt : data.length < 2 ^ 64 := by omega
    rw [or_iff_right hn, ← hlen]
    constructor
    · rintro ⟨b', hb', -⟩
      rw [hread, Option.map_eq_some_iff] at hb'
      obtain ⟨d, hd', -⟩ := hb'
      by_contra hfit
      unfold SpillFits at hfit
      have hnone : c.append data = none := by
        by_cases hgrow : b.readerIndex_ < data.length
        · exact append_eq_none_of_wrap hv hdlt (by omega) (by omega)
        · refine append_eq_none hv (fun hlt => by omega) ?_
          unfold Fits kCheapPrepend at *
          omega
      rw [hnone] at hd'
      cases hd'
    · intro hfit
      unfold SpillFits at hfit
      obtain ⟨b', hb', hv', hr'⟩ := @append_spec c data hv (fun hlt => by omega)
        (by unfold Fits; omega)
      refine ⟨b', by rw [hread, hb', Option.map_some], ?_, hv'.reader_le, hv'.writer_le⟩
      rw [hr', hr, List.append_assoc, hdata, List.take_append_drop]

/-- With `writerIndex_` behind the end of the storage nothing can be delivered
right: the first byte would be written outside, and without a byte the index
stays where it is. -/
theorem Ordered.not_readsRight (h : b.Ordered) (hw : b.buffer_.length < b.writerIndex_)
    (bs : List UInt8) : ¬b.ReadsRight (.delivered bs) := by
  have h₃ := h.writer_lt
  rintro ⟨b', hb', -, -, hle⟩
  have hwr : 0 < b.writerBytes := by
    unfold writerBytes SizeT.sub
    omega
  by_cases hbs : bs = []
  · subst hbs
    simp only [readFd, readv, List.take_nil, List.drop_nil, copyIn, Option.bind_some,
      Option.map_some, List.length_nil, Nat.zero_le, if_true, Option.some.injEq,
      Prod.mk.injEq] at hb'
    obtain ⟨rfl, -⟩ := hb'
    rw [SizeT.add_eq h₃] at hle
    simp only at hle
    omega
  · have hne : bs.take b.writerBytes ≠ [] := by
      rw [Ne, List.take_eq_nil_iff]
      rintro (hz | hz)
      · omega
      · exact hbs hz
    rw [readFd, readv, copyIn_eq_none hne (by omega)] at hb'
    cases hb'

/-- **One read**, from any buffer whose indices are in order. -/
theorem Ordered.readsRight_iff (h : b.Ordered) {r : ReadvResult} (hr : b.Deliverable r) :
    b.ReadsRight r ↔ b.ReadFits r := by
  cases r with
  | failed errno => exact iff_of_true rfl trivial
  | delivered bs =>
      by_cases hw : b.writerIndex_ ≤ b.buffer_.length
      · exact ((h.valid hw).readsRight_iff hr).trans (and_iff_right hw).symm
      · exact iff_of_false (h.not_readsRight (by omega) bs) fun hf => hw hf.1

/-- A read keeps them so. -/
theorem Ordered.readFd (h : b.Ordered) {r : ReadvResult} {x : Buffer × ℤ × Option ℕ}
    (hb : b.readFd r = some x) : x.1.Ordered := by
  cases r with
  | failed errno =>
      obtain rfl := Option.some.inj hb
      exact h
  | delivered bs =>
      simp only [Buffer.readFd, readv, Option.bind_eq_some_iff, Option.map_eq_some_iff] at hb
      obtain ⟨c, ⟨m, hm, extrabuf, -, rfl⟩, hb⟩ := hb
      obtain ⟨hlen, hin⟩ := length_of_copyIn hm
      obtain ⟨h₁, h₂, h₃, h₄⟩ := h
      split_ifs at hb with hn
      · obtain rfl := Option.some.inj hb
        have hadd : SizeT.add b.writerIndex_ bs.length = b.writerIndex_ + bs.length := by
          refine SizeT.add_eq ?_
          rw [List.take_of_length_le hn] at hin
          rcases hin with rfl | hin
          · exact h₃
          · omega
        exact ⟨h₁, by simp only [hadd]; omega, Nat.mod_lt _ (by decide),
          by simp only [hlen]; exact h₄⟩
      · obtain ⟨data, -, hb⟩ := Option.bind_eq_some_iff.1 hb
        obtain ⟨d, hd, rfl⟩ := Option.map_eq_some_iff.1 hb
        have hle : b.writerIndex_ ≤ m.length := by
          rcases hin with hin | hin
          · -- no tail at all
            have hz : b.writerBytes = 0 := by
              rcases List.take_eq_nil_iff.1 hin with hz | rfl
              · exact hz
              · exact absurd (Nat.zero_le _) hn
            unfold writerBytes SizeT.sub at hz
            omega
          · omega
        have hc : (⟨m, b.readerIndex_, m.length⟩ : Buffer).Ordered :=
          ⟨h₁, Nat.le_trans h₂ hle, hlen ▸ h₄, hlen ▸ h₄⟩
        exact hc.append hd

/-- **Every call keeps the order of the indices.** -/
theorem Ordered.step (h : b.Ordered) {a : Call} (hb : b.step a = some b') : b'.Ordered := by
  cases a with
  | readFd r =>
      obtain ⟨x, hx, rfl⟩ := Option.map_eq_some_iff.1 hb
      exact h.readFd hx
  | op op =>
      cases op with
      | append data => exact h.append hb
      | retrieve len =>
          obtain rfl := Option.some.inj hb
          exact h.retrieve len
      | retrieveAll =>
          obtain rfl := Option.some.inj hb
          have hk : kCheapPrepend < 2 ^ 64 := by decide
          exact ⟨Nat.le_refl _, Nat.le_refl _, hk, h.size_lt⟩
      | retrieveAllAsString =>
          obtain ⟨r, hr, rfl⟩ := Option.map_eq_some_iff.1 hb
          exact h.retriveAsString hr
      | retriveAsString len =>
          obtain ⟨r, hr, rfl⟩ := Option.map_eq_some_iff.1 hb
          exact h.retriveAsString hr
      | ensureWriteableBytes len => exact h.ensureWriteableBytes hb

end Ordered

/-- **When `readFd` appends what the peer has sent.**  In every state that the
constructor and the public operations lead to, and for every result of `readv`,
`readFd` does what is asked of it exactly when `readv` has failed, or the indices
are inside the storage and the delivered bytes end in the free tail or spill a
length that fits. -/
theorem readsRight_iff_readFits {initialSize : ℕ} {calls : List Call} {b : Buffer}
    (hb : exec step (ofSize initialSize) calls = some b) {r : ReadvResult}
    (hr : b.Deliverable r) : b.ReadsRight r ↔ b.ReadFits r :=
  (exec_invariant' (fun _ _ _ h hs => h.step hs) (ordered_ofSize initialSize) hb).readsRight_iff hr

instance (b : Buffer) (r : ReadvResult) : Decidable (b.Deliverable r) := by
  cases r <;> unfold Deliverable <;> infer_instance

instance (b : Buffer) (r : ReadvResult) : Decidable (b.ReadFits r) := by
  cases r <;> unfold ReadFits SpillFits <;> infer_instance

/-- The hypotheses are satisfiable: a buffer of `2` with `2` bytes in it has no
free tail, and `12` more bytes are delivered, which make the storage grow. -/
theorem readsRight_grow : ∃ b, exec step (ofSize 2) [.op (.append [1, 2])] = some b ∧
    b.ReadsRight (.delivered (List.replicate 12 3)) := by
  have hb : exec step (ofSize 2) [.op (.append [1, 2])] = some ⟨_, 8, 10⟩ := rfl
  exact ⟨_, hb, (readsRight_iff_readFits hb (by decide)).2 (by decide)⟩

/-- **A read leaves the storage.**  `1025` bytes are delivered to a fresh default
buffer, the last of them in `extrabuf`, and `append` writes it at position `1032`
of `1032` bytes. -/
theorem not_readsRight_default :
    (ofSize kInitialSize).Deliverable (.delivered (List.replicate 1025 0)) ∧
      ¬(ofSize kInitialSize).ReadsRight (.delivered (List.replicate 1025 0)) := by
  have hv : (ofSize kInitialSize).Valid := (valid_ofSize_iff (by decide)).2 (by decide)
  have hw : (ofSize kInitialSize).writerBytes = 1024 := by
    rw [hv.writerBytes_eq, length_ofSize (by decide)]
    decide
  have hd : (ofSize kInitialSize).Deliverable (.delivered (List.replicate 1025 0)) := by
    rw [Deliverable, iovcnt, hw, List.length_replicate]
    decide
  refine ⟨hd, ?_⟩
  rw [hv.readsRight_iff hd, hw, List.length_replicate, SpillFits,
    show (ofSize kInitialSize).readerIndex_ = kCheapPrepend from rfl]
  unfold kCheapPrepend
  omega

end Buffer
end MuMuduo
