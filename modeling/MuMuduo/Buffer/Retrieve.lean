/-
# Taking bytes out as a string

`retriveAsString(len)` (`Buffer.h`) copies `len` bytes from `peek()` on and then
calls `retrieve(len)`.  The copy takes `len` literally; `retrieve` takes a length
that reaches `readableBytes()` for everything there is.  So the string is what is
taken out as long as `len` stays within the readable bytes, and only then
(`takesRight_iff`): with a larger `len` the copy goes on behind `writerIndex_`, where
the bytes of earlier messages are, and hands them out as part of this one
(`not_takesRight_stale`).
-/

import MuMuduo.Buffer.Read

namespace MuMuduo
namespace Buffer

open Foundation

/-- What is asked of one call of `retriveAsString`: the string and then the new
readable bytes are the old ones, and the string is read in front of `writerIndex_`,
as it would be with the storage cut off there. -/
def TakesRight (b : Buffer) (len : ℕ) : Prop :=
  ∃ result b', b.retriveAsString len = some (result, b') ∧ result ++ b'.readable = b.readable ∧
    load (b.buffer_.take b.writerIndex_) b.readerIndex_ len = some result

variable {b : Buffer}

/-- `retrieve` takes out the first `len` readable bytes. -/
theorem Ordered.readable_retrieve (h : b.Ordered) {len : ℕ} (hlen : len ≤ b.readableBytes) :
    (b.buffer_.drop b.readerIndex_).take len ++ (b.retrieve len).readable = b.readable := by
  have h₂ := h.reader_le
  have h₃ := h.writer_lt
  have hr : b.readableBytes = b.writerIndex_ - b.readerIndex_ := SizeT.sub_eq h₂ h₃
  rw [Buffer.retrieve]
  split_ifs with hlt
  · have hsum : b.writerIndex_ - b.readerIndex_ =
        len + (b.writerIndex_ - (b.readerIndex_ + len)) := by omega
    rw [SizeT.add_eq (by omega), readable, readable, hsum, List.take_add, List.drop_drop]
  · obtain rfl : len = b.readableBytes := by omega
    rw [readable_retrieveAll, List.append_nil, hr, readable]

/-- **One call.**  The string is what is taken out exactly when it is empty or a part
of the readable bytes that are in the storage. -/
theorem Ordered.takes_iff (h : b.Ordered) (len : ℕ) :
    b.TakesRight len ↔
      len = 0 ∨ (len ≤ b.readableBytes ∧ b.readerIndex_ + len ≤ b.buffer_.length) := by
  have hr : b.readableBytes = b.writerIndex_ - b.readerIndex_ :=
    SizeT.sub_eq h.reader_le h.writer_lt
  constructor
  · rintro ⟨result, b', -, -, hcut⟩
    refine (of_load hcut).2.imp_right fun hin => ?_
    rw [List.length_take] at hin
    omega
  · rintro (rfl | ⟨hlen, hin⟩)
    · have hkeep := h.readable_retrieve (Nat.zero_le _)
      rw [List.take_zero] at hkeep
      exact ⟨[], b.retrieve 0, rfl, hkeep, rfl⟩
    · refine ⟨(b.buffer_.drop b.readerIndex_).take len, b.retrieve len, ?_,
        h.readable_retrieve hlen, ?_⟩
      · rw [Buffer.retriveAsString, load_eq hin, Option.map_some]
      · have h₂ := h.reader_le
        rw [load_eq (by rw [List.length_take]; omega), List.drop_take, List.take_take,
          Nat.min_eq_left (by omega)]

/-- **When `retriveAsString` returns what it takes out.**  In every state that the
constructor and the public operations lead to, and for every `len`, exactly when
`len` is at most `readableBytes()` and these bytes are in the storage; nothing is
asked of an empty string. -/
theorem takesRight_iff {initialSize : ℕ} {calls : List Call}
    (hb : exec step (ofSize initialSize) calls = some b) (len : ℕ) :
    b.TakesRight len ↔
      len = 0 ∨ (len ≤ b.readableBytes ∧ b.readerIndex_ + len ≤ b.buffer_.length) :=
  (exec_invariant' (fun _ _ _ h hs => h.step hs) (ordered_ofSize initialSize) hb).takes_iff len

/-- The hypotheses are satisfiable: of `4` bytes one is consumed and two are taken out
as a string. -/
theorem takesRight_part : ∃ b, exec step (ofSize 16)
    [.op (.append [1, 2, 3, 4]), .op (.retrieve 1)] = some b ∧ b.TakesRight 2 := by
  have hb : exec step (ofSize 16) [.op (.append [1, 2, 3, 4]), .op (.retrieve 1)] =
      some ⟨_, 9, 12⟩ := rfl
  exact ⟨_, hb, (takesRight_iff hb 2).2 (by decide)⟩

/-- **Bytes of an earlier message are handed out.**  A message of `4` bytes has been
consumed and one byte of the next has arrived; `retriveAsString(3)` returns it with
two bytes of the first message behind it. -/
theorem not_takesRight_stale :
    ∃ b, exec step (ofSize 16) [.op (.append [1, 2, 3, 4]), .op .retrieveAll, .op (.append [5])] =
        some b ∧ b.readable = [5] ∧
      (b.retriveAsString 3).map (fun r => (r.1, r.2.readable)) = some ([5, 2, 3], []) ∧
      ¬b.TakesRight 3 := by
  have hb : exec step (ofSize 16) [.op (.append [1, 2, 3, 4]), .op .retrieveAll,
      .op (.append [5])] = some ⟨_, 8, 9⟩ := rfl
  refine ⟨_, hb, rfl, rfl, ?_⟩
  rintro ⟨result, b', hr, hall, -⟩
  obtain ⟨rfl, rfl⟩ := Prod.mk.inj (Option.some.inj hr)
  exact absurd hall (by decide)

end Buffer
end MuMuduo
