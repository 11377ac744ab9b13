/-
# The output buffer in its storage

`MuMuduo.Connection.Basic` takes `outputBuffer_` for a queue of bytes, and
`MuMuduo.Buffer.History` says when a `Buffer` is one.  Here the two run together: each
call on the loop's thread makes at most one operation on the buffer, `append` with what
the kernel has left over or `retrieve` with what it has taken, and the tests of
`readableBytes()` decide as those of the queue's length do (`Stored.readableBytes_eq`).

So the storage holds the output of the connection exactly as long as every left-over
length is one that `makeSpace` judges right (`stored_iff_fits`).  It is the kernel that
chooses this length: `1025` bytes sent on a new connection whose descriptor takes none
of them are written past the end of the storage (`not_stored_leftover`).
-/

import MuMuduo.Buffer.History
import MuMuduo.Connection.Stream

namespace MuMuduo

open Foundation

namespace TcpConnection

/-- The operation on `outputBuffer_` that a call makes. -/
def bufferOp (c : TcpConnection) : Op → Option Buffer.Op
  | .sendInLoop data r =>
      if c.state_ ≠ .kDisconnected ∧ (!(c.direct && r.fault)) = true ∧
          0 < data.length - c.nwrote r then
        some (.append (data.drop (c.nwrote r)))
      else none
  | .handleWrite r =>
      if c.isWriting = true ∧ 0 < r.count then some (.retrieve r.count) else none
  | .shutdown | .handleClose | .connectDestroyed => none

variable {c c' : TcpConnection} {op : Op}

/-- A call that makes no operation leaves the queue as it is. -/
theorem outputBuffer_of_none (hc : c.step op = some c') (hop : c.bufferOp op = none) :
    c'.outputBuffer_ = c.outputBuffer_ := by
  cases op with
  | sendInLoop data r =>
      obtain rfl := Option.some.inj hc
      by_cases hs : c.state_ = .kDisconnected
      · rw [if_pos hs]
      · rw [if_neg hs, outputBuffer_sendInLoop]
        rw [bufferOp, ite_eq_right_iff] at hop
        exact if_neg fun hrest => by cases hop ⟨hs, hrest⟩
  | handleWrite r =>
      obtain rfl := Option.some.inj hc
      rw [bufferOp, ite_eq_right_iff] at hop
      rw [outputBuffer_handleWriteAll]
      split_ifs with hw
      · have hzero : r.count = 0 := by
          by_contra hne
          cases hop ⟨hw, Nat.pos_of_ne_zero hne⟩
        rw [hzero, Fifo.pop_zero]
      · rfl
  | shutdown | handleClose | connectDestroyed =>
      exact outputBuffer_of_step hc (by simp) (by simp)

/-- A call can always be made. -/
theorem exists_step (c : TcpConnection) (op : Op) : ∃ c', c.step op = some c' := by
  cases op <;> exact ⟨_, rfl⟩

/-- The operation of a call does to the queue what the call does. -/
theorem outputBuffer_of_some {a : Buffer.Op} {buf : Buffer} {t : Buffer.Tracked}
    (hc : c.step op = some c') (hop : c.bufferOp op = some a)
    (ht : Buffer.Tracked.step ⟨buf, c.outputBuffer_⟩ a = some t) :
    t.queue = c'.outputBuffer_ := by
  cases op with
  | sendInLoop data r =>
      obtain rfl := Option.some.inj hc
      obtain ⟨⟨hs, hrest⟩, ha⟩ := Option.ite_none_right_eq_some.1 hop
      obtain rfl := Option.some.inj ha
      obtain ⟨b, -, rfl⟩ := Option.map_eq_some_iff.1 ht
      rw [if_neg hs, outputBuffer_sendInLoop, if_pos hrest]
  | handleWrite r =>
      obtain rfl := Option.some.inj hc
      obtain ⟨⟨hw, -⟩, ha⟩ := Option.ite_none_right_eq_some.1 hop
      obtain rfl := Option.some.inj ha
      obtain rfl := Option.some.inj ht
      rw [outputBuffer_handleWriteAll, if_pos hw]
  | shutdown | handleClose | connectDestroyed => cases hop

end TcpConnection

/-- A connection and the storage of its `outputBuffer_`. -/
structure Stored where
  conn : TcpConnection
  buf : Buffer

namespace Stored

/-- The storage next to the queue it stands for. -/
def tracked (s : Stored) : Buffer.Tracked := ⟨s.buf, s.conn.outputBuffer_⟩

/-- A connection on the descriptor `sockfd` that has been established, with the
default `Buffer`. -/
def ofFd (sockfd : ℤ) (mark : ℕ) (complete high : Bool) : Stored where
  conn := (TcpConnection.ofFd sockfd mark complete high).connectEstablished
  buf := Buffer.ofSize Buffer.kInitialSize

/-- One call; `none` if it touches a byte outside the storage. -/
def step (s : Stored) (op : TcpConnection.Op) : Option Stored :=
  (s.conn.step op).bind fun c =>
    match s.conn.bufferOp op with
    | none => some ⟨c, s.buf⟩
    | some a => (s.tracked.step a).map fun t => ⟨c, t.buf⟩

/-- The readable bytes of the storage are those of the queue. -/
def Agrees (s : Stored) : Prop := s.tracked.Agrees

/-- `writerIndex_ + remaining` is a `size_t`. -/
def Pre (s : Stored) (op : TcpConnection.Op) : Prop := ∀ a ∈ s.conn.bufferOp op, s.tracked.Pre a

/-- A left-over length that `makeSpace` judges right. -/
def Fits (s : Stored) (op : TcpConnection.Op) : Prop := ∀ a ∈ s.conn.bufferOp op, s.tracked.Fits a

variable {s s' : Stored} {op : TcpConnection.Op}

/-- The tests of `readableBytes()` in `sendInLoop` and `handleWrite` are tests of the
queue's length. -/
theorem readableBytes_eq (h : s.Agrees) :
    s.buf.readableBytes = s.conn.outputBuffer_.content.length :=
  h.1.length_readable.symm.trans (congrArg List.length h.2)

/-- The connection goes its way as it does without its storage. -/
theorem conn_of_step (hs : s.step op = some s') : s.conn.step op = some s'.conn := by
  obtain ⟨c, hc, hrest⟩ := Option.bind_eq_some_iff.1 hs
  cases hop : s.conn.bufferOp op with
  | none =>
      rw [hop] at hrest
      obtain rfl := Option.some.inj hrest
      exact hc
  | some a =>
      rw [hop] at hrest
      obtain ⟨t, -, rfl⟩ := Option.map_eq_some_iff.1 hrest
      exact hc

/-- **One call.**  It stays inside the storage and leaves it in agreement exactly when
what it appends fits. -/
theorem step_iff (h : s.Agrees) (hpre : s.Pre op) :
    (∃ s', s.step op = some s' ∧ s'.Agrees) ↔ s.Fits op := by
  obtain ⟨c, hc⟩ := s.conn.exists_step op
  cases hop : s.conn.bufferOp op with
  | none =>
      refine iff_of_true ⟨⟨c, s.buf⟩, ?_, ?_⟩ ?_
      · simp only [step, hc, Option.bind_some, hop]
      · rwa [Agrees, tracked, TcpConnection.outputBuffer_of_none hc hop]
      · simp [Fits, hop]
  | some a =>
      have hfits : s.Fits op ↔ s.tracked.Fits a := by simp [Fits, hop]
      have htracked {t : Buffer.Tracked} (ht : s.tracked.step a = some t) :
          (⟨c, t.buf⟩ : Stored).tracked = t := by
        rw [tracked, ← TcpConnection.outputBuffer_of_some hc hop ht]
      rw [hfits, ← Buffer.Tracked.step_iff h (hpre a hop)]
      simp only [step, hc, Option.bind_some, hop]
      constructor
      · rintro ⟨s', hs', hag⟩
        obtain ⟨t, ht, rfl⟩ := Option.map_eq_some_iff.1 hs'
        exact ⟨t, ht, htracked ht ▸ hag⟩
      · rintro ⟨t, ht, hag⟩
        refine ⟨_, by rw [ht, Option.map_some], ?_⟩
        rwa [Agrees, htracked ht]

/-- The storage of a new connection is empty, as its queue is. -/
theorem agrees_ofFd (sockfd : ℤ) (mark : ℕ) (complete high : Bool) :
    (ofFd sockfd mark complete high).Agrees :=
  (Buffer.Tracked.agrees_ofSize_iff (by decide)).2 (by decide)

/-- **When the storage holds the output.**  In every run on the loop's thread no byte
outside the storage is touched, and its readable bytes are the queue's after each call,
exactly when each left-over length fits. -/
theorem stored_iff_fits {sockfd : ℤ} {mark : ℕ} {complete high : Bool}
    {ops : List TcpConnection.Op} (hpre : Along step Pre (ofFd sockfd mark complete high) ops) :
    Safe step Agrees (ofFd sockfd mark complete high) ops ↔
      Along step Fits (ofFd sockfd mark complete high) ops :=
  safe_iff_along (fun _ _ => step_iff) (agrees_ofFd sockfd mark complete high) hpre

/-- What a first `sendInLoop` leaves over fits the new buffer. -/
theorem pre_fits_short :
    Along step Pre (ofFd 5 64 false false) [.sendInLoop [1, 2, 3] (.wrote 1)] ∧
      Along step Fits (ofFd 5 64 false false) [.sendInLoop [1, 2, 3] (.wrote 1)] := by
  have hop : (ofFd 5 64 false false).conn.bufferOp (.sendInLoop [1, 2, 3] (.wrote 1)) =
      some (.append [2, 3]) := rfl
  have hv : (Buffer.ofSize Buffer.kInitialSize).Valid :=
    (Buffer.valid_ofSize_iff (by decide)).2 (by decide)
  refine ⟨⟨fun a ha => ?_, fun _ _ => trivial⟩, ⟨fun a ha => ?_, fun _ _ => trivial⟩⟩
  · obtain rfl := Option.some.inj (hop.symm.trans ha)
    show Buffer.kCheapPrepend + 2 < 2 ^ 64
    decide
  · obtain rfl := Option.some.inj (hop.symm.trans ha)
    show (Buffer.ofSize Buffer.kInitialSize).Fits 2
    rw [Buffer.Fits, hv.writerBytes_eq, Buffer.length_ofSize (by decide)]
    decide

/-- The hypothesis is satisfiable: of `3` bytes the descriptor takes one. -/
theorem stored_iff_fits_short :
    Safe step Agrees (ofFd 5 64 false false) [.sendInLoop [1, 2, 3] (.wrote 1)] :=
  (stored_iff_fits pre_fits_short.1).2 pre_fits_short.2

/-- **The stream goes through the storage.**  As long as what is left over fits, and
the kernel reports the end of the connection to no `sendInLoop`, the bytes handed to the
kernel and then the readable bytes are the data of the calls of `sendInLoop` made in
another state than `kDisconnected`. -/
theorem stream_stored {sockfd : ℤ} {mark : ℕ} {complete high : Bool}
    {ops : List TcpConnection.Op} (hpre : Along step Pre (ofFd sockfd mark complete high) ops)
    (hfits : Along step Fits (ofFd sockfd mark complete high) ops)
    (hops : ∀ op ∈ ops, op.NoFault)
    (hs : exec step (ofFd sockfd mark complete high) ops = some s) :
    written s.conn.fd ++ s.buf.readable =
      (ofFd sockfd mark complete high).conn.acceptedIn ops := by
  have h₀ : (ofFd sockfd mark complete high).conn.Streams :=
    (TcpConnection.Streams.ofFd sockfd mark complete high).connectEstablished fun h => by cases h
  have h : s.Agrees ∧ s.conn.Streams := by
    refine exec_invariant (I := fun s : Stored => s.Agrees ∧ s.conn.Streams) ?_
      ⟨agrees_ofFd sockfd mark complete high, h₀⟩
      (along_and.2 ⟨along_and.2 ⟨hpre, hfits⟩, along_of_forall_mem hops _⟩) hs
    rintro s op s' ⟨hag, hst⟩ ⟨⟨hpre, hfits⟩, hop⟩ hs'
    obtain ⟨s'', hs'', hag'⟩ := (step_iff hag hpre).2 hfits
    obtain rfl := Option.some.inj (hs''.symm.trans hs')
    exact ⟨hag', hst.step hop (conn_of_step hs')⟩
  have hconn : exec TcpConnection.step (ofFd sockfd mark complete high).conn ops = some s.conn :=
    exec_project_label conn (fun _ _ _ => conn_of_step) hs
  rw [show s.buf.readable = s.conn.outputBuffer_.content from h.1.2, h.2.stream,
    TcpConnection.accepted_of_exec hconn]
  exact List.nil_append _

/-- The hypotheses are satisfiable: one byte has been written, two are in the storage. -/
theorem stream_stored_short :
    ∃ s, exec step (ofFd 5 64 false false) [.sendInLoop [1, 2, 3] (.wrote 1)] = some s ∧
      written s.conn.fd ++ s.buf.readable = [1, 2, 3] := by
  obtain ⟨hpre, hfits⟩ := pre_fits_short
  obtain ⟨s, hs, -⟩ := (step_iff (agrees_ofFd 5 64 false false) hpre.1).2 hfits.1
  have hs' := exec_singleton.2 hs
  refine ⟨s, hs', (stream_stored hpre hfits ?_ hs').trans rfl⟩
  simp [TcpConnection.Op.NoFault, WriteResult.fault]

/-- **The storage is left.**  Of `1025` bytes sent on a new connection the descriptor
takes none, and `append` writes the last of them past the end. -/
theorem not_stored_leftover (sockfd : ℤ) (mark : ℕ) (complete high : Bool) :
    ¬Safe step Agrees (ofFd sockfd mark complete high)
      [.sendInLoop (List.replicate 1025 0) (.failed EWOULDBLOCK)] := by
  set data : List UInt8 := List.replicate 1025 0 with hdata
  have hlen : data.length = 1025 := List.length_replicate
  have hdirect : (ofFd sockfd mark complete high).conn.direct = true := by
    simp [ofFd, TcpConnection.direct, TcpConnection.connectEstablished, TcpConnection.ofFd]
  have hop : (ofFd sockfd mark complete high).conn.bufferOp
      (.sendInLoop data (.failed EWOULDBLOCK)) = some (.append data) := by
    have hstate : (ofFd sockfd mark complete high).conn.state_ ≠ .kDisconnected := by
      show StateE.kConnected ≠ .kDisconnected
      decide
    have hnwrote : (ofFd sockfd mark complete high).conn.nwrote (.failed EWOULDBLOCK) = 0 :=
      if_pos hdirect
    rw [TcpConnection.bufferOp, hnwrote, hdirect, hlen, List.drop_zero]
    exact if_pos ⟨hstate, by decide, by decide⟩
  have hpre : Along step Pre (ofFd sockfd mark complete high)
      [.sendInLoop data (.failed EWOULDBLOCK)] := by
    refine ⟨fun a ha => ?_, fun _ _ => trivial⟩
    obtain rfl := Option.some.inj (hop.symm.trans ha)
    show Buffer.kCheapPrepend + data.length < 2 ^ 64
    rw [hlen]
    decide
  rw [safe_iff_along (fun _ _ => step_iff) (agrees_ofFd sockfd mark complete high) hpre]
  rintro ⟨hfits, -⟩
  have hfit : (Buffer.ofSize Buffer.kInitialSize).Fits data.length := hfits _ hop
  rw [hlen] at hfit
  exact Buffer.not_fits_default hfit

end Stored

end MuMuduo
