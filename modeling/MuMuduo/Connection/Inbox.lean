/-
# What a connection receives

The input side of a connection: `handleRead` reads from the descriptor into
`inputBuffer_`, and the message callback, which is handed the `Buffer`, takes bytes out
of it, as strings or by `peek()` and `retrieve`, now or at a later message.

The application should get what the peer has sent, every byte once and in order: what
has been taken and what is still readable is what has arrived (`Received`).  Two lengths
are in nobody's hands.  The peer chooses how much a read delivers, and what spills over
the storage is put behind it by an `append` that misjudges some lengths
(`MuMuduo.Buffer.Read`); the application chooses how much it takes, and
`retriveAsString` does not compare that with what there is (`MuMuduo.Buffer.Retrieve`).
Nothing else goes wrong (`received_iff_fits`).
-/

import MuMuduo.Buffer.Retrieve

namespace MuMuduo

open Foundation

/-- `inputBuffer_`, the bytes that have been delivered to it, and those that the
application has taken out of it. -/
structure Inbox where
  inputBuffer_ : Buffer
  arrived : List UInt8
  taken : List UInt8

namespace Inbox

/-- A read in `handleRead`, with the answer of the kernel, and what the application does
with the buffer. -/
inductive Event
  | handleRead (r : Buffer.ReadvResult)
  | retrieve (len : ℕ)
  | retrieveAll
  | retrieveAllAsString
  | retriveAsString (len : ℕ)

/-- The input side of a new connection. -/
def new : Inbox := ⟨Buffer.ofSize Buffer.kInitialSize, [], []⟩

/-- The application has taken `bytes`, and the buffer has become `b`. -/
def take (s : Inbox) (bytes : List UInt8) (b : Buffer) : Inbox :=
  { s with inputBuffer_ := b, taken := s.taken ++ bytes }

/-- One event; `none` if it touches a byte outside the storage.  Before `retrieve` the
application has seen the bytes from `peek()` on. -/
def step (s : Inbox) : Event → Option Inbox
  | .handleRead (.failed errno) => (s.inputBuffer_.readFd (.failed errno)).map fun r =>
      { s with inputBuffer_ := r.1 }
  | .handleRead (.delivered bs) => (s.inputBuffer_.readFd (.delivered bs)).map fun r =>
      { s with inputBuffer_ := r.1, arrived := s.arrived ++ bs }
  | .retrieve len =>
      some (s.take (s.inputBuffer_.readable.take len) (s.inputBuffer_.retrieve len))
  | .retrieveAll => some (s.take s.inputBuffer_.readable s.inputBuffer_.retrieveAll)
  | .retrieveAllAsString =>
      s.inputBuffer_.retrieveAllAsString.map fun (result, b) => s.take result b
  | .retriveAsString len =>
      (s.inputBuffer_.retriveAsString len).map fun (result, b) => s.take result b

/-- `readv` delivers what its blocks can hold. -/
def Pre (s : Inbox) : Event → Prop
  | .handleRead r => s.inputBuffer_.Deliverable r
  | _ => True

/-- The indices are in the storage, and what has been taken and what is readable is what
has arrived. -/
def Received (s : Inbox) : Prop :=
  s.inputBuffer_.Valid ∧ s.taken ++ s.inputBuffer_.readable = s.arrived

/-- What spills has a length that `makeSpace` judges right, and a string is taken from
the readable bytes. -/
def Fits (s : Inbox) : Event → Prop
  | .handleRead r => s.inputBuffer_.ReadFits r
  | .retriveAsString len => len ≤ s.inputBuffer_.readableBytes
  | _ => True

end Inbox

namespace Buffer

variable {b : Buffer}

/-- The indices of a valid buffer are in order. -/
theorem Valid.ordered (h : b.Valid) : b.Ordered :=
  ⟨h.prepend_le, h.reader_le, Nat.lt_of_le_of_lt h.writer_le h.size_lt, h.size_lt⟩

/-- Whatever becomes of the bytes, `readFd` returns how many there were. -/
theorem result_of_readFd {bs : List UInt8} {x : Buffer × ℤ × Option ℕ}
    (hb : b.readFd (.delivered bs) = some x) : x.2 = ((bs.length : ℤ), none) := by
  obtain ⟨⟨c, extrabuf⟩, -, hb⟩ := Option.bind_eq_some_iff.1 hb
  dsimp only at hb
  split_ifs at hb
  · obtain rfl := Option.some.inj hb
    rfl
  · obtain ⟨data, -, hb⟩ := Option.bind_eq_some_iff.1 hb
    obtain ⟨d, -, rfl⟩ := Option.map_eq_some_iff.1 hb
    rfl

/-- `readFd` stays in the storage and appends what was delivered exactly when that
fits. -/
theorem Valid.readFd_iff (h : b.Valid) {bs : List UInt8} (hd : b.Deliverable (.delivered bs)) :
    (∃ x, b.readFd (.delivered bs) = some x ∧ x.1.Valid ∧ x.1.readable = b.readable ++ bs) ↔
      b.ReadFits (.delivered bs) := by
  rw [← h.ordered.readsRight_iff hd]
  constructor
  · rintro ⟨⟨b', n, e⟩, hb', hv, hread⟩
    obtain ⟨rfl, rfl⟩ := Prod.mk.inj (result_of_readFd hb')
    exact ⟨b', hb', hread, hv.reader_le, hv.writer_le⟩
  · rintro ⟨b', hb', hread, -, hin⟩
    exact ⟨_, hb', (h.ordered.readFd hb').valid hin, hread⟩

/-- A string is as long as it was asked for. -/
theorem length_of_retriveAsString {len : ℕ} {x : List UInt8 × Buffer}
    (hb : b.retriveAsString len = some x) : x.1.length = len := by
  obtain ⟨result, hload, rfl⟩ := Option.map_eq_some_iff.1 hb
  exact (of_load hload).1

end Buffer

namespace Inbox

variable {s s' : Inbox} {a : Event}

/-- What is taken out of the front. -/
theorem Received.take (h : s.Received) {bytes : List UInt8} {b : Buffer} (hv : b.Valid)
    (hread : bytes ++ b.readable = s.inputBuffer_.readable) : (s.take bytes b).Received := by
  refine ⟨hv, ?_⟩
  show s.taken ++ bytes ++ b.readable = s.arrived
  rw [List.append_assoc, hread, h.2]

/-- **One event** leaves what has arrived in order exactly if its length fits. -/
theorem Received.step_iff (h : s.Received) (hpre : s.Pre a) :
    (∃ s', s.step a = some s' ∧ s'.Received) ↔ s.Fits a := by
  obtain ⟨hv, hall⟩ := h
  cases a with
  | handleRead r =>
      cases r with
      | failed errno => exact iff_of_true ⟨s, rfl, hv, hall⟩ trivial
      | delivered bs =>
          rw [Fits, ← hv.readFd_iff hpre]
          constructor
          · rintro ⟨s', hs', hv', hall'⟩
            obtain ⟨x, hx, rfl⟩ := Option.map_eq_some_iff.1 hs'
            refine ⟨x, hx, hv', (List.append_right_inj s.taken).1 ?_⟩
            rw [← List.append_assoc, hall]
            exact hall'
          · rintro ⟨x, hx, hv', hread⟩
            refine ⟨_, by rw [step, hx, Option.map_some], hv', ?_⟩
            show s.taken ++ x.1.readable = s.arrived ++ bs
            rw [hread, ← List.append_assoc, hall]
  | retrieve len =>
      obtain ⟨hv', hread⟩ := Buffer.retrieve_spec hv len
      exact iff_of_true ⟨_, rfl, Received.take ⟨hv, hall⟩ hv'
        (by rw [hread, List.take_append_drop])⟩ trivial
  | retrieveAll =>
      exact iff_of_true ⟨_, rfl, Received.take ⟨hv, hall⟩ (Buffer.valid_retrieveAll hv)
        (by rw [Buffer.readable_retrieveAll, List.append_nil])⟩ trivial
  | retrieveAllAsString =>
      obtain ⟨hv', hread⟩ := Buffer.retrieve_spec hv s.inputBuffer_.readableBytes
      refine iff_of_true ⟨s.take s.inputBuffer_.readable _, ?_,
        Received.take ⟨hv, hall⟩ hv' ?_⟩ trivial
      · rw [step, Buffer.retrieveAllAsString_spec hv, Option.map_some]
      · rw [hread, ← hv.length_readable, List.drop_length, List.append_nil]
  | retriveAsString len =>
      constructor
      · rintro ⟨s', hs', -, hall'⟩
        obtain ⟨⟨result, b⟩, hb, rfl⟩ := Option.map_eq_some_iff.1 hs'
        -- a longer string holds more than there was
        have hlen := congrArg List.length (hall'.trans hall.symm)
        have hresult : result.length = len := Buffer.length_of_retriveAsString hb
        simp only [Inbox.take, List.length_append, hresult, hv.length_readable] at hlen
        show len ≤ s.inputBuffer_.readableBytes
        omega
      · intro hlen
        obtain ⟨hv', hread⟩ := Buffer.retrieve_spec hv len
        refine ⟨s.take (s.inputBuffer_.readable.take len) _, ?_,
          Received.take ⟨hv, hall⟩ hv' (by rw [hread, List.take_append_drop])⟩
        rw [step, Buffer.retriveAsString_spec hv hlen, Option.map_some]

/-- Before the first byte arrives. -/
theorem received_new : new.Received :=
  ⟨(Buffer.valid_ofSize_iff (by decide)).2 (by decide), Buffer.readable_ofSize Buffer.kInitialSize⟩

/-- **The application gets what the peer has sent.**  In every run, with all answers of
the kernel and whatever the application takes, no byte outside the storage is touched and
what has been taken and what is readable is what has arrived, after each event, if and
only if each length that spills is one that `makeSpace` judges right and no string is
asked for that is longer than what there is. -/
theorem received_iff_fits {as : List Event} (hpre : Along step Pre new as) :
    Safe step Received new as ↔ Along step Fits new as :=
  safe_iff_along (fun _ _ h => h.step_iff) received_new hpre

instance (s : Inbox) (a : Event) : Decidable (s.Pre a) := by
  cases a <;> unfold Pre <;> infer_instance

instance (s : Inbox) (a : Event) : Decidable (s.Fits a) := by
  cases a <;> unfold Fits <;> infer_instance

/-- The hypothesis is satisfiable: two messages arrive, and a string is taken across
them. -/
theorem received_iff_fits_across :
    Safe step Received new [.handleRead (.delivered [1, 2]), .retrieve 1,
      .handleRead (.delivered [3, 4]), .retriveAsString 2, .handleRead (.failed 11)] :=
  (received_iff_fits (by decide +kernel)).2 (by decide +kernel)

end Inbox

end MuMuduo
