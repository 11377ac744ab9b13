/-
# The buffer over its whole life

`Buffer` next to the queue it is meant to be.  A run starts from the constructor
and applies any list of the public operations; `Foundation.Fifo` records what
was appended and how much was consumed.  The buffer implements the queue as long
as no operation touches a byte outside the storage, the indices stay in order,
and the readable bytes are the content of the queue (`Agrees`).

It does so exactly when `kCheapPrepend + initialSize` does not wrap around and
no `append` falls into the window of lengths that `makeSpace` misjudges
(`safe_iff_fits`).  The test in `makeSpace` leaves the reserve out of what the
shift has to keep, so that appending `1025` bytes to a fresh default buffer of
`1024` writes past its end (`not_safe_default`).
-/

import MuMuduo.Buffer.Space
import MuMuduo.Foundation.Fifo
import MuMuduo.Foundation.Run

namespace MuMuduo
namespace Buffer

open Foundation

/-- The operations of a run. -/
inductive Op
  | append (data : List UInt8)
  | retrieve (len : ℕ)
  | retrieveAll
  | retrieveAllAsString
  | retriveAsString (len : ℕ)
  | ensureWriteableBytes (len : ℕ)

/-- The buffer and the queue it stands for. -/
structure Tracked where
  buf : Buffer
  queue : Fifo UInt8

/-- A fresh buffer. -/
def Tracked.ofSize (initialSize : ℕ) : Tracked := ⟨Buffer.ofSize initialSize, .empty⟩

/-- One operation, on the buffer and on the queue; `none` if it touches a byte
outside the storage. -/
def Tracked.step (s : Tracked) : Op → Option Tracked
  | .append data => (s.buf.append data).map fun b => ⟨b, s.queue.push data⟩
  | .retrieve len => some ⟨s.buf.retrieve len, s.queue.pop len⟩
  | .retrieveAll => some ⟨s.buf.retrieveAll, s.queue.popAll⟩
  | .retrieveAllAsString => s.buf.retrieveAllAsString.map fun r => ⟨r.2, s.queue.popAll⟩
  | .retriveAsString len => (s.buf.retriveAsString len).map fun r => ⟨r.2, s.queue.pop len⟩
  | .ensureWriteableBytes len => (s.buf.ensureWriteableBytes len).map fun b => ⟨b, s.queue⟩

/-- The lengths a caller may pass: `writerIndex_ + len` is a `size_t`, and a
string is taken from the readable bytes only. -/
def Tracked.Pre (s : Tracked) : Op → Prop
  | .append data => s.buf.writerIndex_ + data.length < 2 ^ 64
  | .ensureWriteableBytes len => s.buf.writerIndex_ + len < 2 ^ 64
  | .retriveAsString len => len ≤ s.buf.readableBytes
  | _ => True

/-- The indices are in order and the readable bytes are the queue's. -/
def Tracked.Agrees (s : Tracked) : Prop :=
  s.buf.Valid ∧ s.buf.readable = s.queue.content

/-- An appended length that `makeSpace` judges right. -/
def Tracked.Fits (s : Tracked) : Op → Prop
  | .append data => s.buf.Fits data.length
  | _ => True

/-- A new buffer agrees with the empty queue if its size fits into `size_t`. -/
theorem Tracked.agrees_ofSize_iff {n : ℕ} (hn : n < 2 ^ 64) :
    (Tracked.ofSize n).Agrees ↔ kCheapPrepend + n < 2 ^ 64 :=
  ⟨fun h => (valid_ofSize_iff hn).1 h.1, fun h => ⟨(valid_ofSize_iff hn).2 h, readable_ofSize n⟩⟩

/-- **One operation.**  From a state that agrees with the queue it stays inside
the storage and agrees again exactly when its length fits. -/
theorem Tracked.step_iff {s : Tracked} {op : Op} (h : s.Agrees) (hpre : s.Pre op) :
    (∃ s', s.step op = some s' ∧ s'.Agrees) ↔ s.Fits op := by
  obtain ⟨hv, hq⟩ := h
  cases op with
  | append data =>
      constructor
      · rintro ⟨s', hs', -⟩
        by_contra hfit
        rw [Tracked.step, append_eq_none hv (fun _ => hpre) hfit] at hs'
        cases hs'
      · intro hfit
        obtain ⟨b', hb', hv', hr'⟩ := append_spec hv (fun _ => hpre) hfit
        exact ⟨⟨b', s.queue.push data⟩, by rw [Tracked.step, hb', Option.map_some], hv',
          by rw [hr', hq, Fifo.content_push]⟩
  | retrieve len =>
      obtain ⟨hv', hr'⟩ := retrieve_spec hv len
      exact iff_of_true ⟨_, rfl, hv', by rw [hr', hq, Fifo.content_pop]⟩ trivial
  | retrieveAll =>
      exact iff_of_true ⟨_, rfl, valid_retrieveAll hv,
        by rw [readable_retrieveAll, Fifo.content_popAll]⟩ trivial
  | retrieveAllAsString =>
      obtain ⟨hv', hr'⟩ := retrieve_spec hv s.buf.readableBytes
      refine iff_of_true ⟨⟨s.buf.retrieve s.buf.readableBytes, s.queue.popAll⟩, ?_, hv', ?_⟩ trivial
      · rw [Tracked.step, retrieveAllAsString_spec hv, Option.map_some]
      · rw [hr', Fifo.content_popAll, ← hv.length_readable, List.drop_length]
  | retriveAsString len =>
      obtain ⟨hv', hr'⟩ := retrieve_spec hv len
      refine iff_of_true ⟨⟨s.buf.retrieve len, s.queue.pop len⟩, ?_, hv', ?_⟩ trivial
      · rw [Tracked.step, retriveAsString_spec hv hpre, Option.map_some]
      · rw [hr', hq, Fifo.content_pop]
  | ensureWriteableBytes len =>
      obtain ⟨b', hb', hv', hr', -, -⟩ := ensureWriteableBytes_spec hv fun _ => hpre
      exact iff_of_true ⟨⟨b', s.queue⟩, by rw [Tracked.step, hb', Option.map_some], hv',
        hr'.trans hq⟩ trivial

/-- **When the buffer is the queue.**  For every size and every run the storage
is never left and the buffer agrees with the queue after the constructor and
after each operation, exactly when `kCheapPrepend + initialSize` is a `size_t`
and every appended length fits. -/
theorem safe_iff_fits {initialSize : ℕ} (hn : initialSize < 2 ^ 64) {ops : List Op}
    (hpre : Along Tracked.step Tracked.Pre (.ofSize initialSize) ops) :
    Safe Tracked.step Tracked.Agrees (.ofSize initialSize) ops ↔
      kCheapPrepend + initialSize < 2 ^ 64 ∧
        Along Tracked.step Tracked.Fits (.ofSize initialSize) ops := by
  have hrun (h : (Tracked.ofSize initialSize).Agrees) :=
    safe_iff_along (fun _ _ => Tracked.step_iff) h hpre
  constructor
  · intro h
    have h₀ : (Tracked.ofSize initialSize).Agrees := by cases ops with
      | nil => exact h
      | cons op ops => exact h.1
    exact ⟨(Tracked.agrees_ofSize_iff hn).1 h₀, (hrun h₀).1 h⟩
  · rintro ⟨hsize, hfits⟩
    exact (hrun ((Tracked.agrees_ofSize_iff hn).2 hsize)).2 hfits

instance (s : Tracked) (op : Op) : Decidable (s.Pre op) := by
  cases op <;> unfold Tracked.Pre <;> infer_instance

instance (s : Tracked) (op : Op) : Decidable (s.Fits op) := by
  cases op <;> unfold Tracked.Fits <;> infer_instance

/-- The hypotheses are satisfiable by a run that grows, consumes and shifts: a
buffer of `2` takes `12` bytes, gives up `11`, and shifts to take `3` more. -/
theorem safe_grow_shift :
    Safe Tracked.step Tracked.Agrees (.ofSize 2)
      [.append (List.replicate 12 1), .retrieve 11, .append [2, 3, 4]] :=
  (safe_iff_fits (by decide) (by decide)).2 ⟨by decide, by decide⟩

/-- `makeSpace` takes the reserve of a fresh default buffer for room. -/
theorem not_fits_default : ¬(Buffer.ofSize kInitialSize).Fits 1025 := by
  have hv : (Buffer.ofSize kInitialSize).Valid := (valid_ofSize_iff (by decide)).2 (by decide)
  rw [Fits, hv.writerBytes_eq, length_ofSize (by decide)]
  decide

/-- **The buffer leaves its storage.**  `1025` bytes appended to a fresh default
buffer are an admissible run, and `append` writes at position `1032` of `1032`
bytes. -/
theorem not_safe_default :
    Along Tracked.step Tracked.Pre (.ofSize kInitialSize) [.append (List.replicate 1025 0)] ∧
      ¬Safe Tracked.step Tracked.Agrees (.ofSize kInitialSize)
        [.append (List.replicate 1025 0)] := by
  set data : List UInt8 := List.replicate 1025 0 with hdata
  have hlen : data.length = 1025 := List.length_replicate
  have hv : (Buffer.ofSize kInitialSize).Valid := (valid_ofSize_iff (by decide)).2 (by decide)
  have hw : (Buffer.ofSize kInitialSize).writerIndex_ + data.length < 2 ^ 64 := by
    rw [hlen]
    decide
  have hfit : ¬(Buffer.ofSize kInitialSize).Fits data.length := hlen ▸ not_fits_default
  refine ⟨⟨hw, fun _ _ => trivial⟩, ?_⟩
  rintro ⟨-, s', hs', -⟩
  rw [Tracked.step, show (Tracked.ofSize kInitialSize).buf = Buffer.ofSize kInitialSize from rfl,
    append_eq_none hv (fun _ => hw) hfit] at hs'
  cases hs'

end Buffer
end MuMuduo
