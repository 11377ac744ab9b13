/-
# Making room and consuming

What each operation of `Buffer` does to the readable bytes.  Under `Valid` the
`size_t` arithmetic does not wrap and `makeSpace` has two branches: it grows the
storage behind `writerIndex_` (`makeSpace_grow`), or it moves the readable bytes
down to `kCheapPrepend` (`makeSpace_shift`).  Either way the readable bytes and
the order of the indices are kept (`ensureWriteableBytes_spec`).

What is not guaranteed is the room.  The shift is chosen when
`len ≤ writerBytes() + prependableBytes()`, but it frees only
`prependableBytes() - kCheapPrepend` bytes, the reserve stays where it is.  In
the remaining window of `kCheapPrepend` lengths the buffer is too short after
`ensureWriteableBytes` (`ensureWriteableBytes_room`), and `append` writes past
the end of the storage: it stays inside exactly for the lengths that `Fits`
(`append_spec`, `append_eq_none`).  But no byte of the message is lost and no free
byte is given up (`ensureWriteableBytes_keeps`).
-/

import MuMuduo.Buffer.Basic

namespace MuMuduo
namespace Buffer

open Foundation

variable {b : Buffer}

/-- There is room for `len` more bytes once `ensureWriteableBytes(len)` has run:
the free tail is long enough, or the storage grows, or the shift frees enough. -/
def Fits (b : Buffer) (len : ℕ) : Prop :=
  len ≤ b.writerBytes ∨ b.writerBytes + b.prependableBytes < len ∨
    len + kCheapPrepend ≤ b.writerBytes + b.prependableBytes

instance (b : Buffer) (len : ℕ) : Decidable (b.Fits len) := by
  unfold Fits; infer_instance

/-- The sum that `makeSpace` tests is not reduced. -/
theorem Valid.add_eq (h : b.Valid) :
    SizeT.add b.writerBytes b.prependableBytes = b.writerBytes + b.prependableBytes := by
  have h₁ := h.add_writerBytes
  have h₂ := h.size_lt
  exact SizeT.add_eq (by omega)

/-- The growing branch keeps the layout and appends fresh cells. -/
theorem makeSpace_grow {len : ℕ} (h : b.Valid) (hw : b.writerIndex_ + len < 2 ^ 64)
    (hlt : b.writerBytes + b.prependableBytes < len) :
    ∃ b', b.makeSpace len = some b' ∧ b'.Valid ∧ b'.readable = b.readable ∧
      b'.readerIndex_ = b.readerIndex_ ∧ b'.writerIndex_ = b.writerIndex_ ∧
      b'.buffer_.length = b.writerIndex_ + len := by
  have hle : b.buffer_.length ≤ b.writerIndex_ + len := by
    have h₁ := h.writerBytes_eq
    omega
  refine ⟨{ b with buffer_ := resize 0 b.buffer_ (b.writerIndex_ + len) }, ?_, ?_, ?_, rfl, rfl,
    length_resize ..⟩
  · rw [makeSpace, h.add_eq, if_pos hlt, SizeT.add_eq hw]
  · exact ⟨h.prepend_le, h.reader_le, by simp only [length_resize]; omega,
      by simp only [length_resize]; omega⟩
  · have h₁ := h.reader_le
    have h₂ := h.writer_le
    simp only [readable]
    rw [resize_eq_append 0 hle, List.drop_append_of_le_length (by omega),
      List.take_append_of_le_length (by rw [List.length_drop]; omega)]

/-- The shifting branch moves the readable bytes to `kCheapPrepend` and leaves
the size of the storage alone. -/
theorem makeSpace_shift {len : ℕ} (h : b.Valid)
    (hge : len ≤ b.writerBytes + b.prependableBytes) :
    ∃ b', b.makeSpace len = some b' ∧ b'.Valid ∧ b'.readable = b.readable ∧
      b'.readerIndex_ = kCheapPrepend ∧ b'.writerIndex_ = kCheapPrepend + b.readableBytes ∧
      b'.buffer_.length = b.buffer_.length := by
  have h₁ := h.prepend_le
  have h₂ := h.reader_le
  have h₃ := h.writer_le
  have h₄ := h.size_lt
  have hr := h.readableBytes_eq
  have hcopy := copyWithin_eq (m := b.buffer_) (n := b.writerIndex_ - b.readerIndex_) h₁ (by omega)
  have hlen : (b.buffer_.take kCheapPrepend ++
      (b.buffer_.drop b.readerIndex_).take (b.writerIndex_ - b.readerIndex_) ++
      b.buffer_.drop (kCheapPrepend + (b.writerIndex_ - b.readerIndex_))).length
        = b.buffer_.length := by
    simp only [List.length_append, List.length_take, List.length_drop]
    omega
  refine ⟨⟨_, kCheapPrepend, kCheapPrepend + b.readableBytes⟩, ?_, ?_, ?_, rfl, rfl, hlen⟩
  · rw [makeSpace, h.add_eq, if_neg (by omega), SizeT.sub_eq h₂ (by omega), hcopy, Option.map_some,
      SizeT.add_eq (by omega)]
  · exact ⟨Nat.le_refl _, Nat.le_add_right _ _, by simp only; omega, by simp only; omega⟩
  · have hk : kCheapPrepend ≤ b.buffer_.length := by omega
    simp only [readable, Nat.add_sub_cancel_left, List.append_assoc]
    rw [List.drop_append_of_le_length (by rw [List.length_take]; omega),
      List.drop_of_length_le (by rw [List.length_take]; omega), List.nil_append, hr,
      List.take_append_of_le_length (by simp only [List.length_take, List.length_drop]; omega),
      List.take_take, Nat.min_self]

/-- `ensureWriteableBytes` keeps the readable bytes, and makes the room it is asked
for if `len` fits.  The new size has to be a `size_t` where the storage grows. -/
theorem ensureWriteableBytes_spec {len : ℕ} (h : b.Valid)
    (hw : b.writerBytes + b.prependableBytes < len → b.writerIndex_ + len < 2 ^ 64) :
    ∃ b', b.ensureWriteableBytes len = some b' ∧ b'.Valid ∧ b'.readable = b.readable ∧
      b'.writerIndex_ ≤ b.writerIndex_ ∧ (len ≤ b'.writerBytes ↔ b.Fits len) := by
  have hsum := h.add_writerBytes
  rw [ensureWriteableBytes]
  split_ifs with hlt
  · by_cases hgrow : b.writerBytes + b.prependableBytes < len
    · obtain ⟨b', hb', hv, hr, -, hw', hsize⟩ := makeSpace_grow h (hw hgrow) hgrow
      refine ⟨b', hb', hv, hr, Nat.le_of_eq hw', ?_⟩
      rw [hv.writerBytes_eq, hsize, hw']
      exact ⟨fun _ => .inr (.inl hgrow), fun _ => by omega⟩
    · obtain ⟨b', hb', hv, hr, -, hw', hsize⟩ := makeSpace_shift h (Nat.le_of_not_lt hgrow)
      have hle := h.prepend_le
      have hwr := h.writerBytes_eq
      have hrd := h.readableBytes_eq
      have := h.reader_le
      refine ⟨b', hb', hv, hr, by omega, ?_⟩
      rw [hv.writerBytes_eq, hsize, hw', Fits, prependableBytes]
      unfold prependableBytes at *
      omega
  · exact ⟨b, rfl, h, rfl, Nat.le_refl _, ⟨.inl, fun _ => Nat.le_of_not_lt hlt⟩⟩

/-- **Making room never changes the message.**  Whether the storage grows, the
readable bytes are shifted over themselves or nothing is to be done, they stay the
same, the indices stay in order, the storage does not shrink and no free byte is
lost. -/
theorem ensureWriteableBytes_keeps {len : ℕ} (h : b.Valid) (hw : b.writerIndex_ + len < 2 ^ 64) :
    ∃ b', b.ensureWriteableBytes len = some b' ∧ b'.readable = b.readable ∧ b'.Valid ∧
      b.buffer_.length ≤ b'.buffer_.length ∧ b.writerBytes ≤ b'.writerBytes := by
  have hwr := h.writerBytes_eq
  rw [ensureWriteableBytes]
  split_ifs with hlt
  · by_cases hgrow : b.writerBytes + b.prependableBytes < len
    · obtain ⟨b', hb', hv, hr, -, hw', hsize⟩ := makeSpace_grow h hw hgrow
      have hwr' := hv.writerBytes_eq
      exact ⟨b', hb', hr, hv, by omega, by omega⟩
    · -- the shift goes from `readerIndex_` down to `kCheapPrepend`
      obtain ⟨b', hb', hv, hr, -, hw', hsize⟩ := makeSpace_shift h (Nat.le_of_not_lt hgrow)
      have hwr' := hv.writerBytes_eq
      have hrd := h.readableBytes_eq
      have hle := h.prepend_le
      have hord := h.reader_le
      exact ⟨b', hb', hr, hv, by omega, by omega⟩
  · exact ⟨b, rfl, rfl, h, Nat.le_refl _, Nat.le_refl _⟩

/-- The hypotheses are satisfiable: `4` bytes at `10` of `16` are shifted to `8` to
make room for `3`, each onto a cell that is read later or was read before. -/
theorem ensureWriteableBytes_keeps_shift :
    ∃ b', (⟨[0, 0, 0, 0, 0, 0, 0, 0, 7, 7, 1, 2, 3, 4, 0, 0], 10, 14⟩ : Buffer).ensureWriteableBytes
        3 = some b' ∧
      b'.readable = [1, 2, 3, 4] ∧ b'.readerIndex_ = 8 ∧ 2 ≤ b'.writerBytes := by
  have h : (⟨[0, 0, 0, 0, 0, 0, 0, 0, 7, 7, 1, 2, 3, 4, 0, 0], 10, 14⟩ : Buffer).Valid :=
    ⟨by decide, by decide, by decide, by decide⟩
  have hw : 14 + 3 < 2 ^ 64 := by decide
  obtain ⟨b', hb', hr, -, -, hroom⟩ := ensureWriteableBytes_keeps h hw
  refine ⟨b', hb', hr, ?_, hroom⟩
  obtain rfl := Option.some.inj hb'
  rfl

/-- Bytes written into the free tail become readable. -/
theorem write_spec {data : List UInt8} (h : b.Valid)
    (hlen : b.writerIndex_ + data.length ≤ b.buffer_.length) :
    ∃ m, copyIn b.buffer_ b.writerIndex_ data = some m ∧ m.length = b.buffer_.length ∧
      (⟨m, b.readerIndex_, b.writerIndex_ + data.length⟩ : Buffer).Valid ∧
      (⟨m, b.readerIndex_, b.writerIndex_ + data.length⟩ : Buffer).readable =
        b.readable ++ data := by
  have h₁ := h.prepend_le
  have h₂ := h.reader_le
  have h₃ := h.writer_le
  have h₄ := h.size_lt
  have hsize : (b.buffer_.take b.writerIndex_ ++ data ++
      b.buffer_.drop (b.writerIndex_ + data.length)).length = b.buffer_.length := by
    simp only [List.length_append, List.length_take, List.length_drop]
    omega
  refine ⟨_, copyIn_eq hlen, hsize, ⟨h₁, by simp only; omega, by simp only; omega,
    by simp only; omega⟩, ?_⟩
  simp only [readable, List.append_assoc]
  rw [List.drop_append_of_le_length (by rw [List.length_take]; omega), ← List.append_assoc,
    List.take_append_of_le_length
      (by simp only [List.length_append, List.length_drop, List.length_take]; omega),
    List.take_of_length_le
      (by simp only [List.length_append, List.length_drop, List.length_take]; omega),
    List.drop_take]

/-- **`append` on a length that fits** stays inside the storage and adds its
bytes at the end. -/
theorem append_spec {data : List UInt8} (h : b.Valid)
    (hw : b.writerBytes + b.prependableBytes < data.length →
      b.writerIndex_ + data.length < 2 ^ 64) (hfit : b.Fits data.length) :
    ∃ b', b.append data = some b' ∧ b'.Valid ∧ b'.readable = b.readable ++ data := by
  obtain ⟨c, hc, hv, hr, hle, hroom⟩ := ensureWriteableBytes_spec h hw
  have h₃ := hv.writer_le
  have h₄ := hv.size_lt
  have hlen : c.writerIndex_ + data.length ≤ c.buffer_.length := by
    have := hroom.2 hfit
    rw [hv.writerBytes_eq] at this
    omega
  obtain ⟨m, hm, -, hv', hr'⟩ := write_spec hv hlen
  refine ⟨⟨m, c.readerIndex_, c.writerIndex_ + data.length⟩, ?_, hv', hr'.trans (by rw [hr])⟩
  rw [append, hc, Option.bind_some, hm, Option.map_some, SizeT.add_eq (by omega)]

/-- **`append` in the window** writes past the end of the storage. -/
theorem append_eq_none {data : List UInt8} (h : b.Valid)
    (hw : b.writerBytes + b.prependableBytes < data.length →
      b.writerIndex_ + data.length < 2 ^ 64) (hfit : ¬b.Fits data.length) :
    b.append data = none := by
  obtain ⟨c, hc, hv, -, -, hroom⟩ := ensureWriteableBytes_spec h hw
  have hlt : c.writerBytes < data.length := Nat.lt_of_not_le fun hle => hfit (hroom.1 hle)
  have hne : data ≠ [] := by
    rintro rfl
    exact absurd hlt (Nat.not_lt_zero _)
  have h₃ := hv.writer_le
  rw [hv.writerBytes_eq] at hlt
  rw [append, hc, Option.bind_some, copyIn_eq_none hne (by omega), Option.map_none]

/-- Where the new size wraps around, the storage is cut down in front of
`writerIndex_`, and `append` writes outside it. -/
theorem append_eq_none_of_wrap {data : List UInt8} (h : b.Valid) (hlen : data.length < 2 ^ 64)
    (hgrow : b.writerBytes + b.prependableBytes < data.length)
    (hwrap : 2 ^ 64 ≤ b.writerIndex_ + data.length) : b.append data = none := by
  have hw := Nat.lt_of_le_of_lt h.writer_le h.size_lt
  have hne : data ≠ [] := by
    rintro rfl
    exact absurd hgrow (Nat.not_lt_zero _)
  have hsize : SizeT.add b.writerIndex_ data.length < b.writerIndex_ := by
    unfold SizeT.add
    omega
  rw [append, ensureWriteableBytes, if_pos (Nat.lt_of_le_of_lt (Nat.le_add_right _ _) hgrow),
    makeSpace, h.add_eq, if_pos hgrow, Option.bind_some,
    copyIn_eq_none hne (by simp only [length_resize]; omega), Option.map_none]

/-- To drop all bytes keeps the buffer valid. -/
theorem valid_retrieveAll (h : b.Valid) : b.retrieveAll.Valid :=
  ⟨Nat.le_refl _, Nat.le_refl _, Nat.le_trans (Nat.le_trans h.prepend_le h.reader_le) h.writer_le,
    h.size_lt⟩

@[simp] theorem readable_retrieveAll (b : Buffer) : b.retrieveAll.readable = [] := by
  simp [readable, retrieveAll]

/-- `retrieve` drops the first `len` readable bytes, or all of them. -/
theorem retrieve_spec (h : b.Valid) (len : ℕ) :
    (b.retrieve len).Valid ∧ (b.retrieve len).readable = b.readable.drop len := by
  have h₁ := h.prepend_le
  have h₂ := h.reader_le
  have h₃ := h.writer_le
  have h₄ := h.size_lt
  have hr := h.readableBytes_eq
  rw [retrieve]
  split_ifs with hlt
  · rw [SizeT.add_eq (by omega)]
    refine ⟨⟨by simp only; omega, by simp only; omega, h₃, h₄⟩, ?_⟩
    simp only [readable]
    rw [List.drop_take, List.drop_drop, Nat.sub_sub]
  · refine ⟨valid_retrieveAll h, ?_⟩
    rw [readable_retrieveAll, List.drop_of_length_le (by rw [h.length_readable]; omega)]

/-- `retriveAsString` on a length within the readable bytes returns them. -/
theorem retriveAsString_spec {len : ℕ} (h : b.Valid) (hlen : len ≤ b.readableBytes) :
    b.retriveAsString len = some (b.readable.take len, b.retrieve len) := by
  have h₂ := h.reader_le
  have h₃ := h.writer_le
  have hr := h.readableBytes_eq
  rw [retriveAsString, load_eq (by omega), Option.map_some, readable, List.take_take,
    Nat.min_eq_left (by omega)]

/-- `retrieveAllAsString` hands over the readable bytes. -/
theorem retrieveAllAsString_spec (h : b.Valid) :
    b.retrieveAllAsString = some (b.readable, b.retrieve b.readableBytes) := by
  rw [retrieveAllAsString, retriveAsString_spec h (Nat.le_refl _), ← h.length_readable,
    List.take_length]

end Buffer
end MuMuduo
