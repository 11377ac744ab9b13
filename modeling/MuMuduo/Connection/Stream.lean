/-
# The output byte stream

The direct write in `sendInLoop` is guarded by "not writing or nothing
buffered", and `shutdownInLoop` asks only whether the channel is writing.  What
makes both right is that the channel waits for the descriptor exactly while
`outputBuffer_` holds bytes, as long as the connection is not disconnected
(`Streams.waiting`).  Every member function keeps this, so that the bytes handed
to the kernel, then `outputBuffer_`, are the data of the accepted calls in their
order (`stream_in_order`).  Which calls are accepted is read off the run: those that
are made in another state than `kDisconnected` (`acceptedIn`).
-/

import MuMuduo.Connection.Basic
import MuMuduo.Foundation.Run

namespace MuMuduo

open Foundation

/-- A system call made when it may be: a direct write or the shutdown of the
write side finds nothing buffered. -/
def FdEvent.Orderly : FdEvent → Prop
  | .write _ buffered => buffered = []
  | .writeFd _ _ => True
  | .shutdownWrite buffered => buffered = []

namespace TcpConnection

variable {c : TcpConnection}

/-- The output side is in order. -/
structure Streams (c : TcpConnection) : Prop where
  waiting : c.state_ ≠ .kDisconnected → (c.isWriting = true ↔ c.outputBuffer_.content ≠ [])
  stream : written c.fd ++ c.outputBuffer_.content = c.accepted
  orderly : ∀ e ∈ c.fd, e.Orderly

/-- A new connection. -/
theorem Streams.ofFd (sockfd : ℤ) (mark : ℕ) (complete high : Bool) :
    (TcpConnection.ofFd sockfd mark complete high).Streams where
  waiting _ := by simp [TcpConnection.ofFd, isWriting, Channel.isWriting, Channel.ofFd]
  stream := rfl
  orderly e he := by cases he

/-- A connection that is not disconnected writes directly only past an empty
buffer. -/
theorem Streams.content_of_direct (h : c.Streams) (hs : c.state_ ≠ .kDisconnected)
    (hd : c.direct = true) : c.outputBuffer_.content = [] := by
  rw [direct, Bool.or_eq_true, Bool.not_eq_true', beq_iff_eq, List.length_eq_zero_iff] at hd
  rcases hd with hd | hd
  · by_contra hne
    rw [(h.waiting hs).2 hne] at hd
    cases hd
  · exact hd

/-- A connection that does not wait for room has nothing buffered. -/
theorem Streams.content_of_not_isWriting (h : c.Streams) (hs : c.state_ ≠ .kDisconnected)
    (hw : c.isWriting = false) : c.outputBuffer_.content = [] := by
  by_contra hne
  rw [(h.waiting hs).2 hne] at hw
  cases hw

/-! ### What the pieces do to the record -/

section Pieces

variable (c : TcpConnection) (data : List UInt8) (r : WriteResult)

@[simp] theorem writeDirect_isWriting : (c.writeDirect data r).isWriting = c.isWriting := by
  unfold writeDirect
  split_ifs <;> rfl

/-- A direct write goes past the buffer. -/
@[simp] theorem writeDirect_outputBuffer_ :
    (c.writeDirect data r).outputBuffer_ = c.outputBuffer_ := by
  unfold writeDirect
  split_ifs <;> rfl

@[simp] theorem writeDirect_accepted : (c.writeDirect data r).accepted = c.accepted := by
  unfold writeDirect
  split_ifs <;> rfl

@[simp] theorem bufferRest_isWriting : (c.bufferRest data).isWriting = true := by
  unfold bufferRest
  split_ifs with hw
  · exact hw
  · exact isWriting_enableWriting _

@[simp] theorem bufferRest_fd : (c.bufferRest data).fd = c.fd := by
  unfold bufferRest
  split_ifs <;> rfl

@[simp] theorem bufferRest_accepted : (c.bufferRest data).accepted = c.accepted := by
  unfold bufferRest
  split_ifs <;> rfl

/-- What is left over is put at the end of the buffer. -/
@[simp] theorem bufferRest_outputBuffer_ :
    (c.bufferRest data).outputBuffer_ = c.outputBuffer_.push data := by
  unfold bufferRest
  split_ifs <;> rfl

@[simp] theorem accept_isWriting : (c.accept data).isWriting = c.isWriting := rfl
@[simp] theorem accept_outputBuffer_ : (c.accept data).outputBuffer_ = c.outputBuffer_ := rfl
@[simp] theorem accept_accepted : (c.accept data).accepted = c.accepted ++ data := rfl

/-- `sendInLoop` takes its data, whatever becomes of it. -/
@[simp] theorem sendInLoop_accepted :
    (c.sendInLoop data r).1.accepted = c.accepted ++ data := by
  unfold TcpConnection.sendInLoop
  dsimp only
  split_ifs <;> simp

@[simp] theorem handleWrite_accepted : (c.handleWrite r).1.accepted = c.accepted := by
  unfold TcpConnection.handleWrite
  split_ifs <;> rfl

@[simp] theorem shutdownInLoop_accepted : c.shutdownInLoop.accepted = c.accepted := by
  unfold TcpConnection.shutdownInLoop
  split_ifs <;> rfl

/-- `sendInLoop` appends what is left over. -/
theorem outputBuffer_sendInLoop :
    (c.sendInLoop data r).1.outputBuffer_ =
      if (!(c.direct && r.fault)) = true ∧ 0 < data.length - c.nwrote r then
        c.outputBuffer_.push (data.drop (c.nwrote r))
      else c.outputBuffer_ := by
  simp only [TcpConnection.sendInLoop]
  split_ifs <;> simp

/-- `handleWrite` takes out what the kernel took. -/
theorem outputBuffer_handleWriteAll :
    (c.handleWriteAll r).outputBuffer_ =
      if c.isWriting then c.outputBuffer_.pop r.count else c.outputBuffer_ := by
  simp only [handleWriteAll, TcpConnection.handleWrite, TcpConnection.shutdownInLoop]
  split_ifs <;> rfl

end Pieces

/-- What the kernel took of `data`, and what is left of it. -/
theorem written_writeDirect (data : List UInt8) (r : WriteResult) :
    written ((c.accept data).writeDirect data r).fd =
      written c.fd ++ data.take (c.nwrote r) := by
  unfold writeDirect nwrote
  rw [show (c.accept data).direct = c.direct from rfl]
  split_ifs
  · rw [written_append, written_singleton]
    rfl
  · rw [List.take_zero, List.append_nil]
    rfl

/-- The direct write finds nothing buffered. -/
theorem Streams.orderly_writeDirect (h : c.Streams) (hs : c.state_ ≠ .kDisconnected)
    (data : List UInt8) (r : WriteResult) :
    ∀ e ∈ ((c.accept data).writeDirect data r).fd, e.Orderly := by
  unfold writeDirect
  rw [show (c.accept data).direct = c.direct from rfl]
  split_ifs with hd
  · intro e he
    rcases List.mem_append.1 he with he | he
    · exact h.orderly e he
    · obtain rfl := List.mem_singleton.1 he
      exact h.content_of_direct hs hd
  · exact h.orderly

/-- **`sendInLoop` keeps the stream in order**, unless the kernel reports the end
of the connection, in which case the data is dropped. -/
theorem Streams.sendInLoop (h : c.Streams) (hs : c.state_ ≠ .kDisconnected) {data : List UInt8}
    {r : WriteResult} (hr : (c.direct && r.fault) = false) : (c.sendInLoop data r).1.Streams := by
  have hw := written_writeDirect (c := c) data r
  have hord := h.orderly_writeDirect hs data r
  -- a prefix is written only past an empty buffer
  have hstream (rest : List UInt8)
      (hrest : data.take (c.nwrote r) ++ rest = data) :
      written ((c.accept data).writeDirect data r).fd ++ (c.outputBuffer_.content ++ rest) =
        c.accepted ++ data := by
    rw [hw, ← h.stream]
    unfold nwrote at hrest ⊢
    split_ifs at hrest ⊢ with hd
    · simp [h.content_of_direct hs hd, hrest]
    · simpa using hrest
  unfold TcpConnection.sendInLoop
  simp only [hr, Bool.not_false, true_and]
  split_ifs with hrest
  · refine ⟨fun _ => ?_, ?_, by simpa using hord⟩
    · simp only [bufferRest_isWriting, bufferRest_outputBuffer_, writeDirect_outputBuffer_,
        accept_outputBuffer_, Fifo.content_push, true_iff]
      intro hnil
      have hdrop := congrArg List.length (List.append_eq_nil_iff.1 hnil).2
      rw [List.length_drop, List.length_nil] at hdrop
      omega
    · simpa using hstream _ (List.take_append_drop _ _)
  · refine ⟨fun _ => by simpa using h.waiting hs, ?_, hord⟩
    have hall : data.take (c.nwrote r) = data :=
      List.take_of_length_le (by omega)
    simpa using hstream [] (by rw [hall, List.append_nil])

/-- **`handleWrite` keeps the stream in order**: what it takes out of the buffer
is what the kernel took. -/
theorem Streams.handleWrite (h : c.Streams) (r : WriteResult) : (c.handleWrite r).1.Streams := by
  have hstream : written (c.writeFd r).fd ++ (c.writeFd r).outputBuffer_.content = c.accepted := by
    show written (c.fd ++ [_]) ++ (c.outputBuffer_.pop r.count).content = _
    rw [written_append, written_singleton, Fifo.content_pop, FdEvent.bytes, List.append_assoc,
      List.take_append_drop, h.stream]
  have hord : ∀ e ∈ (c.writeFd r).fd, e.Orderly := by
    intro e he
    rcases List.mem_append.1 he with he | he
    · exact h.orderly e he
    · obtain rfl := List.mem_singleton.1 he
      trivial
  unfold TcpConnection.handleWrite
  split_ifs with hw hn
  · have hnil := List.length_eq_zero_iff.1 hn.2
    exact ⟨fun _ => by simp [hnil], hstream, hord⟩
  · refine ⟨fun hs => ?_, hstream, hord⟩
    have hne := (h.waiting hs).1 hw
    refine ⟨fun _ hnil => ?_, fun _ => hw⟩
    -- the buffer was not empty and nothing or not everything was taken
    rcases Nat.eq_zero_or_pos r.count with h0 | hpos
    · rw [writeFd, h0, Fifo.content_pop, List.drop_zero] at hnil
      exact hne hnil
    · exact hn ⟨hpos, List.length_eq_zero_iff.2 hnil⟩
  · exact h

/-- After `handleWrite` has drained the buffer nothing is buffered. -/
theorem handleWrite_drained {r : WriteResult} (hd : (c.handleWrite r).2 = true) :
    (c.handleWrite r).1.outputBuffer_.content = [] ∧ (c.handleWrite r).1.isWriting = false := by
  unfold TcpConnection.handleWrite at hd ⊢
  split_ifs at hd ⊢ with hw hn
  exact ⟨List.length_eq_zero_iff.1 hn.2, isWriting_disableWriting _⟩

/-- **`shutdownInLoop` keeps the stream in order** where nothing is buffered
unless the channel is writing. -/
theorem Streams.shutdownInLoop (h : c.Streams)
    (hc : c.isWriting = false → c.outputBuffer_.content = []) : c.shutdownInLoop.Streams := by
  unfold TcpConnection.shutdownInLoop
  split_ifs with hw
  · rw [Bool.not_eq_true'] at hw
    refine ⟨h.waiting, ?_, fun e he => ?_⟩
    · simpa [FdEvent.bytes] using h.stream
    · rcases List.mem_append.1 he with he | he
      · exact h.orderly e he
      · obtain rfl := List.mem_singleton.1 he
        exact hc hw
  · exact h

/-- A disconnection changes no byte. -/
theorem Streams.disconnect (h : c.Streams) : c.disconnect.Streams :=
  ⟨fun hs => absurd rfl hs, h.stream, h.orderly⟩

/-- Nor does the removal from the poller. -/
theorem Streams.remove (h : c.Streams) : (c.perform .remove).Streams :=
  ⟨h.waiting, h.stream, h.orderly⟩

/-- Nor does a store to `state_`, if the connection is not disconnected before it. -/
theorem Streams.setState (h : c.Streams) (hs : c.state_ ≠ .kDisconnected) (state : StateE) :
    (c.setState state).Streams :=
  ⟨fun _ => h.waiting hs, h.stream, h.orderly⟩

/-- **`connectEstablished`** puts the channel into the poller. -/
theorem Streams.connectEstablished (h : c.Streams) (hs : c.state_ ≠ .kDisconnected) :
    c.connectEstablished.Streams :=
  ⟨fun _ => by simpa [TcpConnection.connectEstablished] using h.waiting hs, h.stream, h.orderly⟩

/-! ### Runs on the loop's thread -/

/-- A call on the loop's own thread, with what the kernel answers.  A user
callback that makes further calls is followed by the steps of these calls. -/
inductive Op
  | sendInLoop (data : List UInt8) (r : WriteResult)
  | shutdown
  | handleWrite (r : WriteResult)
  | handleClose
  | connectDestroyed

/-- One call. -/
def step (c : TcpConnection) : Op → Option TcpConnection
  | .sendInLoop data r =>
      some (if c.state_ = .kDisconnected then c else (c.sendInLoop data r).1)
  | .shutdown => some c.shutdown
  | .handleWrite r => some (c.handleWriteAll r)
  | .handleClose => some c.handleClose
  | .connectDestroyed => some c.connectDestroyed

/-- What a call adds to the stream: the data of a `sendInLoop` that does not find
`kDisconnected`. -/
def accepts (c : TcpConnection) : Op → List UInt8
  | .sendInLoop data _ => if c.state_ = .kDisconnected then [] else data
  | .shutdown | .handleWrite _ | .handleClose | .connectDestroyed => []

/-- The data of all the calls of `sendInLoop` of a run that do not find `kDisconnected`,
in their order. -/
def acceptedIn (c : TcpConnection) (ops : List Op) : List UInt8 := collect step accepts c ops

/-- A call records what it adds to the stream. -/
theorem accepted_of_step {c' : TcpConnection} {op : Op} (hc : c.step op = some c') :
    c'.accepted = c.accepted ++ c.accepts op := by
  cases op with
  | sendInLoop data r =>
      obtain rfl := Option.some.inj hc
      rw [accepts]
      split_ifs
      · exact (List.append_nil _).symm
      · exact c.sendInLoop_accepted data r
  | shutdown =>
      obtain rfl := Option.some.inj hc
      unfold TcpConnection.shutdown
      split_ifs
      · exact (shutdownInLoop_accepted _).trans (List.append_nil _).symm
      · exact (List.append_nil _).symm
  | handleWrite r =>
      obtain rfl := Option.some.inj hc
      unfold handleWriteAll
      split_ifs <;> simp [accepts]
  | handleClose =>
      obtain rfl := Option.some.inj hc
      exact (List.append_nil _).symm
  | connectDestroyed =>
      obtain rfl := Option.some.inj hc
      unfold TcpConnection.connectDestroyed
      split_ifs <;> exact (List.append_nil _).symm

/-- The record at the end of a run. -/
theorem accepted_of_exec {c' : TcpConnection} {ops : List Op} (hc : exec step c ops = some c') :
    c'.accepted = c.accepted ++ c.acceptedIn ops :=
  exec_collect (fun _ _ _ => accepted_of_step) hc

/-- The calls that do not write leave the buffer alone. -/
theorem outputBuffer_of_step {c' : TcpConnection} {op : Op} (hc : c.step op = some c')
    (hsend : ∀ data r, op ≠ .sendInLoop data r) (hwrite : ∀ r, op ≠ .handleWrite r) :
    c'.outputBuffer_ = c.outputBuffer_ := by
  cases op with
  | sendInLoop data r => exact absurd rfl (hsend data r)
  | handleWrite r => exact absurd rfl (hwrite r)
  | shutdown =>
      obtain rfl := Option.some.inj hc
      simp only [TcpConnection.shutdown, TcpConnection.shutdownInLoop]
      split_ifs <;> rfl
  | handleClose =>
      obtain rfl := Option.some.inj hc
      rfl
  | connectDestroyed =>
      obtain rfl := Option.some.inj hc
      simp only [connectDestroyed]
      split_ifs <;> rfl

/-- **No call leads back** to `kConnecting` or `kConnected`. -/
theorem state_ne_of_step {c' : TcpConnection} {op : Op} {state : StateE}
    (hdisconnecting : state ≠ .kDisconnecting) (hdisconnected : state ≠ .kDisconnected)
    (hs : c.state_ ≠ state) (hc : c.step op = some c') : c'.state_ ≠ state := by
  cases op with
  | sendInLoop data r =>
      obtain rfl := Option.some.inj hc
      split_ifs
      · exact hs
      · rwa [sendInLoop_state_]
  | shutdown =>
      obtain rfl := Option.some.inj hc
      unfold TcpConnection.shutdown
      split_ifs
      · rw [shutdownInLoop_state_]
        exact hdisconnecting.symm
      · exact hs
  | handleWrite r =>
      obtain rfl := Option.some.inj hc
      rw [handleWriteAll]
      split_ifs <;> simpa using hs
  | handleClose =>
      obtain rfl := Option.some.inj hc
      exact hdisconnected.symm
  | connectDestroyed =>
      obtain rfl := Option.some.inj hc
      unfold TcpConnection.connectDestroyed
      split_ifs
      · exact hdisconnected.symm
      · exact hs

/-- **In `kDisconnected` the channel does not wait for room**, after a call too. -/
theorem idle_of_step {c' : TcpConnection} {op : Op}
    (h : c.state_ = .kDisconnected → c.isWriting = false) (hc : c.step op = some c')
    (hs' : c'.state_ = .kDisconnected) : c'.isWriting = false := by
  cases op with
  | sendInLoop data r =>
      obtain rfl := Option.some.inj hc
      split_ifs at hs' ⊢ with hs
      · exact h hs
      · exact absurd (by simpa using hs') hs
  | shutdown =>
      obtain rfl := Option.some.inj hc
      unfold TcpConnection.shutdown at hs' ⊢
      split_ifs at hs' ⊢ with hs
      · simp at hs'
      · exact h hs'
  | handleWrite r =>
      obtain rfl := Option.some.inj hc
      have hs : c.state_ = .kDisconnected := by
        unfold handleWriteAll at hs'
        split_ifs at hs' <;> simpa using hs'
      have hidle := h hs
      have hnone : c.handleWrite r = (c, false) := by
        rw [TcpConnection.handleWrite, hidle, if_neg Bool.false_ne_true]
      rw [handleWriteAll, hnone, if_neg (by simp)]
      exact hidle
  | handleClose =>
      obtain rfl := Option.some.inj hc
      exact isWriting_disableAll _
  | connectDestroyed =>
      obtain rfl := Option.some.inj hc
      unfold TcpConnection.connectDestroyed at hs' ⊢
      rw [isWriting_remove]
      split_ifs at hs' ⊢ with hs
      · exact isWriting_disableAll _
      · exact h hs'

/-- The kernel reports the end of the connection to no `sendInLoop`. -/
def Op.NoFault : Op → Prop
  | .sendInLoop _ r => r.fault = false
  | _ => True

/-- **One call.** -/
theorem Streams.step {c' : TcpConnection} {op : Op} (h : c.Streams) (hop : op.NoFault)
    (hc : c.step op = some c') : c'.Streams := by
  cases op with
  | sendInLoop data r =>
      obtain rfl := Option.some.inj hc
      show TcpConnection.Streams (if c.state_ = .kDisconnected then c else _)
      split_ifs with hs
      · exact h
      · exact h.sendInLoop hs (by rw [show r.fault = false from hop, Bool.and_false])
  | shutdown =>
      obtain rfl := Option.some.inj hc
      show c.shutdown.Streams
      unfold TcpConnection.shutdown
      split_ifs with hs
      · have hne : c.state_ ≠ .kDisconnected := by simp [hs]
        exact (h.setState hne _).shutdownInLoop (h.content_of_not_isWriting hne)
      · exact h
  | handleWrite r =>
      obtain rfl := Option.some.inj hc
      show (c.handleWriteAll r).Streams
      have h' := h.handleWrite r
      unfold handleWriteAll
      split_ifs with hd
      · exact h'.shutdownInLoop fun _ => (handleWrite_drained hd.1).1
      · exact h'
  | handleClose =>
      obtain rfl := Option.some.inj hc
      exact h.disconnect
  | connectDestroyed =>
      obtain rfl := Option.some.inj hc
      show TcpConnection.Streams (TcpConnection.perform (if c.state_ = .kConnected then _ else _) _)
      split_ifs
      · exact h.disconnect.remove
      · exact h.remove

/-- **The output byte stream is in order.**  After `connectEstablished` and any
calls on the loop's thread, the bytes handed to the kernel and then
`outputBuffer_` are the data of the calls of `sendInLoop` made in another state than
`kDisconnected`; every direct write and every `shutdownWrite` was made with nothing
buffered. -/
theorem stream_in_order {sockfd : ℤ} {mark : ℕ} {complete high : Bool} {ops : List Op}
    (hops : ∀ op ∈ ops, op.NoFault)
    (hc : exec step (TcpConnection.ofFd sockfd mark complete high).connectEstablished ops =
      some c) :
    written c.fd ++ c.outputBuffer_.content =
        (TcpConnection.ofFd sockfd mark complete high).connectEstablished.acceptedIn ops ∧
      (∀ bytes buffered, FdEvent.write bytes buffered ∈ c.fd → buffered = []) ∧
      ∀ buffered, FdEvent.shutdownWrite buffered ∈ c.fd → buffered = [] := by
  have h₀ := (Streams.ofFd sockfd mark complete high).connectEstablished (by
    show StateE.kConnecting ≠ .kDisconnected
    decide)
  have h : c.Streams :=
    exec_invariant (fun _ _ _ h hop hc => h.step hop hc) h₀ (along_of_forall_mem hops _) hc
  refine ⟨h.stream.trans ?_, fun _ _ he => h.orderly _ he, fun _ he => h.orderly _ he⟩
  exact (accepted_of_exec hc).trans (List.nil_append _)

/-- The hypotheses are satisfiable: a write that takes `1` of `3` bytes, a second
call behind it, a shutdown that waits, the `handleWrite` that drains the buffer and
closes the write side, and a call that comes after the connection is closed. -/
theorem stream_in_order_partial :
    ∃ c, exec step (TcpConnection.ofFd 5 64 true false).connectEstablished
        [.sendInLoop [1, 2, 3] (.wrote 1), .sendInLoop [4] (.wrote 1), .shutdown,
          .handleWrite (.wrote 3), .handleClose, .sendInLoop [5] (.wrote 1)] = some c ∧
      c.fd = [.write [1] [], .writeFd [2, 3, 4] [2, 3, 4], .shutdownWrite []] ∧
      written c.fd ++ c.outputBuffer_.content = [1, 2, 3, 4] := by
  have hc : exec step (TcpConnection.ofFd 5 64 true false).connectEstablished
      [.sendInLoop [1, 2, 3] (.wrote 1), .sendInLoop [4] (.wrote 1), .shutdown,
        .handleWrite (.wrote 3), .handleClose, .sendInLoop [5] (.wrote 1)] = some _ := rfl
  refine ⟨_, hc, by decide, (stream_in_order ?_ hc).1.trans rfl⟩
  simp [Op.NoFault, WriteResult.fault]

end TcpConnection

end MuMuduo
