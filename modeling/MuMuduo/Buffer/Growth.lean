/-
# How long the storage gets

The storage is never shortened, and only the growing branch of `makeSpace` makes it
longer: it is cut to `writerIndex_ + len`.  That branch is taken when the readable bytes
and the new ones together are more than the whole storage, reserve included, so at that
moment less than half of the new storage is idle.  Hence over any run the storage stays
within twice the most that was ever readable and asked for at once, or what the
constructor gave it (`length_le_peak`).

`readFd` grows the storage as `append` does, for what has spilled over only
(`length_of_readFd`).
-/

import MuMuduo.Buffer.Read

namespace MuMuduo
namespace Buffer

open Foundation

variable {b b' : Buffer}

/-- The size of the storage when `len` bytes are asked for. -/
def grownTo (b : Buffer) (len : ℕ) : ℕ :=
  if b.writerBytes + b.prependableBytes < len then b.writerIndex_ + len else b.buffer_.length

/-- The length after room has been made. -/
theorem length_of_ensureWriteableBytes {len : ℕ} (h : b.Valid) (hw : b.writerIndex_ + len < 2 ^ 64)
    (hb : b.ensureWriteableBytes len = some b') : b'.buffer_.length = b.grownTo len := by
  rw [ensureWriteableBytes] at hb
  split_ifs at hb with hlt
  · by_cases hgrow : b.writerBytes + b.prependableBytes < len
    · obtain ⟨c, hc, -, -, -, -, hsize⟩ := makeSpace_grow h hw hgrow
      obtain rfl := Option.some.inj (hc.symm.trans hb)
      rw [hsize, grownTo, if_pos hgrow]
    · obtain ⟨c, hc, -, -, -, -, hsize⟩ := makeSpace_shift h (Nat.le_of_not_lt hgrow)
      obtain rfl := Option.some.inj (hc.symm.trans hb)
      rw [hsize, grownTo, if_neg hgrow]
  · obtain rfl := Option.some.inj hb
    rw [grownTo, if_neg (by omega)]

/-- The length after data has been appended. -/
theorem length_of_append {data : List UInt8} (h : b.Valid)
    (hw : b.writerIndex_ + data.length < 2 ^ 64) (hb : b.append data = some b') :
    b'.buffer_.length = b.grownTo data.length := by
  obtain ⟨c, hc, hb⟩ := Option.bind_eq_some_iff.1 hb
  obtain ⟨m, hm, rfl⟩ := Option.map_eq_some_iff.1 hb
  rw [← length_of_ensureWriteableBytes h hw hc]
  exact (length_of_copyIn hm).1

/-- To retrieve bytes leaves the length as it is. -/
theorem length_retrieve (b : Buffer) (len : ℕ) :
    (b.retrieve len).buffer_.length = b.buffer_.length := by
  unfold retrieve retrieveAll
  split_ifs <;> rfl

/-- **`readFd` grows the storage** by what has spilled, if that is more than has been
consumed. -/
theorem length_of_readFd {bs : List UInt8} {x : Buffer × ℤ × Option ℕ} (h : b.Valid)
    (hd : b.Deliverable (.delivered bs)) (hfit : b.ReadFits (.delivered bs))
    (hb : b.readFd (.delivered bs) = some x) :
    x.1.buffer_.length =
      if b.readerIndex_ < bs.length - b.writerBytes then
        b.buffer_.length + (bs.length - b.writerBytes)
      else b.buffer_.length := by
  have h₁ := h.prepend_le
  have h₄ := h.size_lt
  have hwr := h.writerBytes_eq
  by_cases hn : bs.length ≤ b.writerBytes
  · rw [if_neg (by omega)]
    obtain ⟨m, extrabuf, hreadv, hsize, -⟩ := readv_spec h hd
    simp only [readFd, hreadv, Option.bind_some, if_pos hn] at hb
    obtain rfl := Option.some.inj hb
    exact hsize
  · obtain ⟨c, hv, hcw, hcr, hci, hcs, -, hread⟩ := h.readFd_spill hd hn
    rw [hread] at hb
    obtain ⟨d, hd', rfl⟩ := Option.map_eq_some_iff.1 hb
    have hlen : (bs.drop b.writerBytes).length = bs.length - b.writerBytes := List.length_drop
    have hspill := hd.spill hn
    have hcp : c.prependableBytes = b.readerIndex_ := hcr
    have hgrown : c.grownTo (bs.drop b.writerBytes).length =
        if b.readerIndex_ < bs.length - b.writerBytes then
          b.buffer_.length + (bs.length - b.writerBytes)
        else b.buffer_.length := by
      rw [grownTo, hcw, hcp, hlen, hci, hcs, Nat.zero_add]
    by_cases hgrow : b.readerIndex_ < bs.length - b.writerBytes
    · have hsize : b.buffer_.length + (bs.length - b.writerBytes) < 2 ^ 64 := by
        rcases hfit.2 with hle | hle | hle
        · exact absurd hle hn
        · exact hle.2
        · omega
      rw [← hgrown]
      exact length_of_append hv (by rw [hci, hlen]; exact hsize) hd'
    · -- the storage stays, whatever `writerIndex_ + len` is
      obtain ⟨e, he, hd'⟩ := Option.bind_eq_some_iff.1 hd'
      obtain ⟨m, hm, rfl⟩ := Option.map_eq_some_iff.1 hd'
      rw [if_neg hgrow, ← hcs]
      refine (length_of_copyIn hm).1.trans ?_
      rw [ensureWriteableBytes] at he
      split_ifs at he
      · obtain ⟨e', he', -, -, -, -, hsize⟩ := @makeSpace_shift c
          (bs.drop b.writerBytes).length hv (by omega)
        obtain rfl := Option.some.inj (he'.symm.trans he)
        exact hsize
      · obtain rfl := Option.some.inj he
        rfl

/-! ### Runs -/

/-- What an operation asks for. -/
def Op.request : Op → ℕ
  | .append data => data.length
  | .ensureWriteableBytes len => len
  | _ => 0

/-- Readable and new bytes together. -/
def Tracked.demand (s : Tracked) (op : Op) : ℕ := s.queue.content.length + op.request

variable {s s' : Tracked} {op : Op}

/-- The storage grows to less than twice what is readable and asked for. -/
theorem grownTo_le (h : b.Valid) {len n : ℕ} (hn : b.readable.length + len ≤ n) :
    b.grownTo len ≤ max b.buffer_.length (2 * n) := by
  have hsum := h.add_writerBytes
  have h₃ := h.writer_le
  rw [h.length_readable] at hn
  rw [grownTo]
  split_ifs with hgrow
  · unfold prependableBytes at *
    omega
  · exact Nat.le_max_left _ _

/-- **One operation** makes the storage longer only up to twice the demand. -/
theorem Tracked.Agrees.length_of_step (h : s.Agrees) (hpre : s.Pre op) {n : ℕ}
    (hn : s.demand op ≤ n) (hs : s.step op = some s') :
    s'.buf.buffer_.length ≤ max s.buf.buffer_.length (2 * n) := by
  obtain ⟨hv, hq⟩ := h
  rw [demand, ← hq] at hn
  cases op with
  | append data =>
      obtain ⟨b, hb, rfl⟩ := Option.map_eq_some_iff.1 hs
      rw [length_of_append hv hpre hb]
      exact grownTo_le hv hn
  | retrieve len =>
      obtain rfl := Option.some.inj hs
      exact Nat.le_trans (Nat.le_of_eq (length_retrieve _ _)) (Nat.le_max_left _ _)
  | retrieveAll =>
      obtain rfl := Option.some.inj hs
      exact Nat.le_max_left _ _
  | retrieveAllAsString =>
      obtain ⟨r, hr, rfl⟩ := Option.map_eq_some_iff.1 hs
      obtain ⟨bytes, -, rfl⟩ := Option.map_eq_some_iff.1 hr
      exact Nat.le_trans (Nat.le_of_eq (length_retrieve _ _)) (Nat.le_max_left _ _)
  | retriveAsString len =>
      obtain ⟨r, hr, rfl⟩ := Option.map_eq_some_iff.1 hs
      obtain ⟨bytes, -, rfl⟩ := Option.map_eq_some_iff.1 hr
      exact Nat.le_trans (Nat.le_of_eq (length_retrieve _ _)) (Nat.le_max_left _ _)
  | ensureWriteableBytes len =>
      obtain ⟨b, hb, rfl⟩ := Option.map_eq_some_iff.1 hs
      rw [length_of_ensureWriteableBytes hv hpre hb]
      exact grownTo_le hv hn

/-- **The storage is in proportion.**  In every run that the storage is not left in,
with at most `n` bytes readable and asked for at any time, the storage is at most twice
`n` long, or as long as the constructor has made it. -/
theorem Tracked.length_le_peak {initialSize n : ℕ} {ops : List Op}
    (hsize : kCheapPrepend + initialSize < 2 ^ 64)
    (hpre : Along Tracked.step Tracked.Pre (.ofSize initialSize) ops)
    (hfits : Along Tracked.step Tracked.Fits (.ofSize initialSize) ops)
    (hn : Along Tracked.step (fun s op => s.demand op ≤ n) (.ofSize initialSize) ops)
    (hs : exec Tracked.step (.ofSize initialSize) ops = some s) :
    s.buf.buffer_.length ≤ max (kCheapPrepend + initialSize) (2 * n) := by
  have hn₀ : initialSize < 2 ^ 64 := by omega
  refine (exec_invariant (I := fun s : Tracked => s.Agrees ∧
    s.buf.buffer_.length ≤ max (kCheapPrepend + initialSize) (2 * n)) ?_
    ⟨(Tracked.agrees_ofSize_iff hn₀).2 hsize, ?_⟩
    (along_and.2 ⟨along_and.2 ⟨hpre, hfits⟩, hn⟩) hs).2
  · rintro s op s' ⟨hag, hle⟩ ⟨⟨hpre, hfit⟩, hn⟩ hs'
    obtain ⟨u, hu, hag'⟩ := (Tracked.step_iff hag hpre).2 hfit
    obtain rfl := Option.some.inj (hu.symm.trans hs')
    have hstep := hag.length_of_step hpre hn hs'
    exact ⟨hag', by omega⟩
  · exact Nat.le_trans (Nat.le_of_eq (length_ofSize hsize)) (Nat.le_max_left _ _)

instance (s : Tracked) (op : Op) (n : ℕ) : Decidable (s.demand op ≤ n) :=
  inferInstanceAs (Decidable (_ ≤ n))

/-- The hypotheses are satisfiable: a buffer of `2` grows for `12` bytes, and again for
the `30` that come after `11` of them have been retrieved. -/
theorem Tracked.length_le_peak_twice : ∃ s, exec Tracked.step (.ofSize 2)
      [.append (List.replicate 12 1), .retrieve 11, .append (List.replicate 30 2)] = some s ∧
    s.buf.buffer_.length ≤ max (kCheapPrepend + 2) (2 * 31) := by
  have hs : exec Tracked.step (.ofSize 2)
      [.append (List.replicate 12 1), .retrieve 11, .append (List.replicate 30 2)] = some _ := rfl
  exact ⟨_, hs, length_le_peak (by decide) (by decide) (by decide) (by decide) hs⟩

end Buffer
end MuMuduo
