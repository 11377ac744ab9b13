/-
# The notices of a connection

`sendInLoop` and `handleWrite` queue two callbacks of the application.  A `Ledger` runs
a connection on its loop's thread and notes what the application could check them
against: the data it is owed, which is that of every accepted call of `sendInLoop`
unless `EPIPE` or `ECONNRESET` has dropped it, and for each step the length of
`outputBuffer_` and the high-water-mark callbacks it has queued.

The write-complete callback comes from two functions, one of which looks only at its
own data.  What makes it right there too is that a direct write is made past an empty
buffer (`Connection.Stream`), so that whenever it is queued all that is owed has been
handed to the kernel (`writeComplate_truthful`).  The high-water-mark callback is
queued once for each time the length reaches the mark (`highWaterMark_once`), by the
law of `Foundation.Alarm`.
-/

import Mathlib.Data.List.Nodup
import MuMuduo.Connection.Stream
import MuMuduo.Foundation.Alarm

namespace MuMuduo

open Foundation

/-- The length that a high-water-mark callback is given. -/
def Notice.mark : Notice → Option ℕ
  | .writeComplate => none
  | .highWaterMark len => some len

namespace TcpConnection

/-- The callbacks that a call queues on the loop. -/
def queued (c : TcpConnection) : Op → List Notice
  | .sendInLoop data r =>
      if c.state_ = .kDisconnected then [] else (c.sendInLoop data r).2.toList
  | .handleWrite r =>
      if (c.handleWrite r).2 ∧ c.writeComplateCallback_ then [.writeComplate] else []
  | .shutdown | .handleClose | .connectDestroyed => []

/-- What is owed after a call. -/
def owed (c : TcpConnection) (due : List UInt8) : Op → List UInt8
  | .sendInLoop data r =>
      if c.state_ = .kDisconnected ∨ (c.direct && r.fault) then due else due ++ data
  | .shutdown | .handleWrite _ | .handleClose | .connectDestroyed => due

/-- The calls that complete what there is to write: a `handleWrite` that empties a
buffer with something in it, and a `sendInLoop` whose direct write takes all of its
data. -/
def Completes (c : TcpConnection) : Op → Prop
  | .sendInLoop data r =>
      c.state_ ≠ .kDisconnected ∧ c.direct = true ∧ ∃ n, r = .wrote n ∧ data.length ≤ n
  | .handleWrite r =>
      c.outputBuffer_.content ≠ [] ∧ (c.handleWriteAll r).outputBuffer_.content = []
  | .shutdown | .handleClose | .connectDestroyed => False

/-- The connection with the record of what it has accepted replaced. -/
def recount (c : TcpConnection) (due : List UInt8) : TcpConnection := { c with accepted := due }

/-! ### The record does not matter -/

section Recount

variable (c : TcpConnection) {c' : TcpConnection} (due : List UInt8)

/-- A recount goes through a `sendInLoop`, with its data counted in. -/
theorem recount_sendInLoop (data : List UInt8) (r : WriteResult) :
    ((c.recount due).sendInLoop data r).1 = (c.sendInLoop data r).1.recount (due ++ data) := by
  simp only [sendInLoop, writeDirect, bufferRest]
  simp only [show (c.recount due).direct = c.direct from rfl,
    show (c.recount due).nwrote r = c.nwrote r from rfl]
  split_ifs <;> first | rfl | contradiction

/-- Every call but `sendInLoop` leaves the record alone. -/
theorem recount_of_step {op : Op} (hop : ∀ data r, op ≠ .sendInLoop data r)
    (hc : c.step op = some c') : (c.recount due).step op = some (c'.recount due) := by
  cases op with
  | sendInLoop data r => exact absurd rfl (hop data r)
  | shutdown =>
      obtain rfl := Option.some.inj hc
      simp only [step, shutdown, shutdownInLoop]
      split_ifs <;> first | rfl | contradiction
  | handleWrite r =>
      obtain rfl := Option.some.inj hc
      simp only [step, handleWriteAll, handleWrite, shutdownInLoop]
      split_ifs <;> first | rfl | contradiction
  | handleClose =>
      obtain rfl := Option.some.inj hc
      rfl
  | connectDestroyed =>
      obtain rfl := Option.some.inj hc
      simp only [step, connectDestroyed]
      split_ifs <;> first | rfl | contradiction

end Recount

variable {c c' : TcpConnection}

/-- Data that a failure drops is not owed: the stream goes on without it. -/
theorem Streams.sendInLoop_fault (h : c.Streams) (hs : c.state_ ≠ .kDisconnected)
    {data : List UInt8} {r : WriteResult} (hf : (c.direct && r.fault) = true) :
    ((c.sendInLoop data r).1.recount c.accepted).Streams := by
  obtain ⟨hd, hr⟩ := (Bool.and_eq_true _ _).mp hf
  have hcount : c.nwrote r = 0 := by
    cases r with
    | wrote n => cases hr
    | failed errno => exact ite_self 0
  have hsend : (c.sendInLoop data r).1 = (c.accept data).writeDirect data r := by
    simp only [TcpConnection.sendInLoop, hf, Bool.not_true, Bool.false_eq_true, false_and, if_false]
  rw [hsend]
  refine ⟨fun _ => ?_, ?_, h.orderly_writeDirect hs data r⟩
  · show ((c.accept data).writeDirect data r).isWriting = true ↔ _
    simpa [recount] using h.waiting hs
  · show written ((c.accept data).writeDirect data r).fd ++ _ = c.accepted
    rw [written_writeDirect, hcount, List.take_zero, List.append_nil]
    simpa [recount] using h.stream

/-! ### What a call does to the buffer -/

/-- What `sendInLoop` leaves in the buffer. -/
theorem content_sendInLoop (data : List UInt8) (r : WriteResult) :
    (c.sendInLoop data r).1.outputBuffer_.content = c.outputBuffer_.content ++
      if (!(c.direct && r.fault)) = true ∧ 0 < data.length - c.nwrote r then
        data.drop (c.nwrote r)
      else [] := by
  rw [outputBuffer_sendInLoop]
  split_ifs
  · exact Fifo.content_push _ _
  · exact (List.append_nil _).symm

/-- What `handleWrite` leaves in the buffer. -/
theorem content_handleWriteAll (r : WriteResult) :
    (c.handleWriteAll r).outputBuffer_.content =
      if c.isWriting then c.outputBuffer_.content.drop r.count else c.outputBuffer_.content := by
  rw [outputBuffer_handleWriteAll, apply_ite Fifo.content, Fifo.content_pop]

/-- What the setters have set stays set. -/
theorem settings_of_step {op : Op} (hc : c.step op = some c') :
    c'.highWaterMark_ = c.highWaterMark_ ∧
      c'.writeComplateCallback_ = c.writeComplateCallback_ ∧
      c'.highWaterMarkCallback_ = c.highWaterMarkCallback_ := by
  cases op with
  | sendInLoop data r =>
      obtain rfl := Option.some.inj hc
      simp only [sendInLoop, writeDirect, bufferRest]
      split_ifs <;> exact ⟨rfl, rfl, rfl⟩
  | shutdown =>
      obtain rfl := Option.some.inj hc
      simp only [shutdown, shutdownInLoop]
      split_ifs <;> exact ⟨rfl, rfl, rfl⟩
  | handleWrite r =>
      obtain rfl := Option.some.inj hc
      simp only [handleWriteAll, handleWrite, shutdownInLoop]
      split_ifs <;> exact ⟨rfl, rfl, rfl⟩
  | handleClose =>
      obtain rfl := Option.some.inj hc
      exact ⟨rfl, rfl, rfl⟩
  | connectDestroyed =>
      obtain rfl := Option.some.inj hc
      simp only [connectDestroyed]
      split_ifs <;> exact ⟨rfl, rfl, rfl⟩

end TcpConnection

/-- A connection, what the application is owed, and the readings of its steps. -/
structure Ledger where
  conn : TcpConnection
  due : List UInt8
  log : List Reading

namespace Ledger

/-- The calls of a run.  `connectEstablished` is called on a connection that is not
disconnected: `newConnection` hands it to the loop in front of all the others. -/
inductive Call
  | connectEstablished
  | op (op : TcpConnection.Op)

/-- The ledger of a connection from now on. -/
def ofConnection (c : TcpConnection) : Ledger := ⟨c, [], []⟩

/-- The callbacks that a call queues. -/
def queued (s : Ledger) : Call → List Notice
  | .connectEstablished => []
  | .op op => s.conn.queued op

def Completes (s : Ledger) : Call → Prop
  | .connectEstablished => False
  | .op op => s.conn.Completes op

/-- What is owed after a call. -/
def owed (s : Ledger) : Call → List UInt8
  | .connectEstablished => s.due
  | .op op => s.conn.owed s.due op

/-- The connection after a call. -/
def next (s : Ledger) : Call → Option TcpConnection
  | .connectEstablished =>
      if s.conn.state_ ≠ .kDisconnected then some s.conn.connectEstablished else none
  | .op op => s.conn.step op

/-- One call. -/
def step (s : Ledger) (a : Call) : Option Ledger :=
  (s.next a).map fun c =>
    ⟨c, s.owed a,
      ⟨c.outputBuffer_.content.length, (s.queued a).filterMap Notice.mark⟩ :: s.log⟩

variable {s s' : Ledger} {a : Call}

/-! ### Write complete -/

/-- The output side is in order, counted by what is owed, and a disconnected channel
does not wait for the descriptor. -/
structure Sound (s : Ledger) : Prop where
  streams : (s.conn.recount s.due).Streams
  idle : s.conn.state_ = .kDisconnected → s.conn.isWriting = false
  callback : s.conn.writeComplateCallback_ = true

/-- A new connection with a write-complete callback. -/
theorem Sound.ofConnection (sockfd : ℤ) (mark : ℕ) (high : Bool) :
    (ofConnection (.ofFd sockfd mark true high)).Sound where
  streams := .ofFd sockfd mark true high
  idle h := by cases h
  callback := rfl

/-- The bytes on their way are those owed, after a call too. -/
theorem Sound.streams_step (h : s.Sound) {op : TcpConnection.Op} {c : TcpConnection}
    (hc : s.conn.step op = some c) : (c.recount (s.conn.owed s.due op)).Streams := by
  have hstreams := h.streams
  cases op with
  | sendInLoop data r =>
      obtain rfl := Option.some.inj hc
      by_cases hs : s.conn.state_ = .kDisconnected
      · rw [if_pos hs, TcpConnection.owed, if_pos (.inl hs)]
        exact hstreams
      · rw [if_neg hs, TcpConnection.owed]
        cases hf : s.conn.direct && r.fault with
        | true =>
            rw [if_pos (.inr rfl)]
            have hdrop : (((s.conn.recount s.due).sendInLoop data r).1.recount s.due).Streams :=
              hstreams.sendInLoop_fault hs hf
            rw [TcpConnection.recount_sendInLoop] at hdrop
            exact hdrop
        | false =>
            rw [if_neg (by simp [hs]), ← TcpConnection.recount_sendInLoop]
            exact hstreams.sendInLoop hs hf
  | shutdown | handleWrite | handleClose | connectDestroyed =>
      refine hstreams.step ?_ (s.conn.recount_of_step s.due (by simp) hc)
      trivial

/-- **One step**: a call, or a callback that the loop runs. -/
theorem Sound.step (h : s.Sound) (hs : s.step a = some s') : s'.Sound := by
  obtain ⟨c, hc, rfl⟩ := Option.map_eq_some_iff.1 hs
  cases a with
  | connectEstablished =>
      obtain ⟨hne, hc⟩ := Option.ite_none_right_eq_some.1 hc
      obtain rfl := Option.some.inj hc
      refine ⟨h.streams.connectEstablished hne, fun hs => ?_, h.callback⟩
      cases hs
  | op op =>
      exact ⟨h.streams_step hc, TcpConnection.idle_of_step h.idle hc,
        (TcpConnection.settings_of_step hc).2.1.trans h.callback⟩

/-- `sendInLoop` queues the callback when its direct write has taken everything. -/
theorem Sound.mem_queued_sendInLoop (h : s.Sound) {data : List UInt8} {r : WriteResult} :
    .writeComplate ∈ s.conn.queued (.sendInLoop data r) ↔
      s.conn.Completes (.sendInLoop data r) := by
  rw [TcpConnection.queued, TcpConnection.Completes]
  by_cases hs : s.conn.state_ = .kDisconnected
  · rw [if_pos hs]
    exact iff_of_false List.not_mem_nil fun hc => hc.1 hs
  · rw [if_neg hs, Option.mem_toList]
    simp only [TcpConnection.sendInLoop]
    split_ifs with hrest
    · -- something is left over
      refine iff_of_false ?_ ?_
      · unfold TcpConnection.highWaterMarkNotice
        simp only
        split_ifs <;> simp
      · rintro ⟨-, hd, n, rfl, hle⟩
        have hn : s.conn.nwrote (.wrote n) = n := if_pos hd
        omega
    · have hcb := h.callback
      unfold TcpConnection.writeComplateNotice
      cases r with
      | failed errno => simp [WriteResult.ok]
      | wrote n =>
          have hle : data.length - n = 0 ↔ data.length ≤ n := by omega
          simp [WriteResult.ok, WriteResult.count, hcb, hs, hle]

/-- `handleWrite` queues the callback when it has emptied the buffer. -/
theorem Sound.mem_queued_handleWrite (h : s.Sound) {r : WriteResult} :
    .writeComplate ∈ s.conn.queued (.handleWrite r) ↔ s.conn.Completes (.handleWrite r) := by
  have hcontent := TcpConnection.content_handleWriteAll (c := s.conn) r
  rw [TcpConnection.queued, TcpConnection.Completes, hcontent]
  cases hw : s.conn.isWriting with
  | false =>
      have hnone : (s.conn.handleWrite r).2 = false := by
        rw [TcpConnection.handleWrite, hw, if_neg Bool.false_ne_true]
      rw [hnone, if_neg (by simp), if_neg (by simp)]
      exact iff_of_false List.not_mem_nil fun hc => hc.1 hc.2
  | true =>
      -- the channel waits for the descriptor, so there is something in the buffer
      have hs : s.conn.state_ ≠ .kDisconnected := fun hs => by simp [h.idle hs] at hw
      have hne : s.conn.outputBuffer_.content ≠ [] := (h.streams.waiting hs).1 hw
      have hdrained : (s.conn.handleWrite r).2 = true ↔
          s.conn.outputBuffer_.content.drop r.count = [] := by
        rw [TcpConnection.handleWrite, if_pos hw, ← List.length_eq_zero_iff]
        rw [show (s.conn.writeFd r).outputBuffer_.content =
          s.conn.outputBuffer_.content.drop r.count from Fifo.content_pop _ _]
        have hpos := List.length_pos_iff.2 hne
        rw [List.length_drop]
        split_ifs with hd
        · simpa using hd.2
        · simp only [false_iff]
          omega
      rw [if_pos rfl, and_iff_right hne, ← hdrained, h.callback]
      cases (s.conn.handleWrite r).2 <;> simp

/-- **Which calls queue the write-complete callback.** -/
theorem Sound.mem_queued_iff (h : s.Sound) (a : Call) :
    .writeComplate ∈ s.queued a ↔ s.Completes a := by
  cases a with
  | connectEstablished => exact iff_of_false List.not_mem_nil id
  | op op =>
      cases op with
      | sendInLoop data r => exact h.mem_queued_sendInLoop
      | handleWrite r => exact h.mem_queued_handleWrite
      | shutdown | handleClose | connectDestroyed => exact iff_of_false List.not_mem_nil id

/-- No call queues a callback twice. -/
theorem nodup_queued (s : Ledger) (a : Call) : (s.queued a).Nodup := by
  cases a with
  | connectEstablished => exact List.nodup_nil
  | op op =>
      cases op with
      | sendInLoop data r =>
          show (if s.conn.state_ = .kDisconnected then [] else _).Nodup
          split_ifs
          · exact List.nodup_nil
          · cases (s.conn.sendInLoop data r).2 <;> simp
      | handleWrite r =>
          show (if _ then [Notice.writeComplate] else []).Nodup
          split_ifs
          · exact List.nodup_singleton _
          · exact List.nodup_nil
      | shutdown | handleClose | connectDestroyed => exact List.nodup_nil

/-- A call that completes what there is to write leaves the buffer empty. -/
theorem Sound.content_of_completes (h : s.Sound) (hc : s.Completes a)
    (hs : s.step a = some s') : s'.conn.outputBuffer_.content = [] := by
  obtain ⟨c, hnext, rfl⟩ := Option.map_eq_some_iff.1 hs
  cases a with
  | connectEstablished => cases hc
  | op op =>
      cases op with
      | sendInLoop data r =>
          obtain ⟨hne, hd, n, rfl, hle⟩ := hc
          obtain rfl := Option.some.inj hnext
          have hn : s.conn.nwrote (.wrote n) = n := if_pos hd
          simp only [if_neg hne]
          rw [TcpConnection.content_sendInLoop, if_neg (by omega), List.append_nil]
          exact h.streams.content_of_direct hne hd
      | handleWrite r =>
          obtain rfl := Option.some.inj hnext
          exact hc.2
      | shutdown | handleClose | connectDestroyed => cases hc

/-- **Write-complete notifications are truthful and complete.**  In every run on the
loop's thread of a connection that has the callback, it is queued only by a call after
which all that is owed has been handed to the kernel; a call that completes what there
is to write queues it once, and no other call queues it. -/
theorem writeComplate_truthful {sockfd : ℤ} {mark : ℕ} {high : Bool} {calls : List Call}
    (hrun : exec step (ofConnection (.ofFd sockfd mark true high)) calls = some s)
    (hs : s.step a = some s') :
    (.writeComplate ∈ s.queued a → written s'.conn.fd = s'.due) ∧
      (s.Completes a → (s.queued a).count .writeComplate = 1) ∧
      (¬s.Completes a → .writeComplate ∉ s.queued a) := by
  have h : s.Sound :=
    exec_invariant' (fun _ _ _ h hs => h.step hs) (.ofConnection sockfd mark high) hrun
  have hiff := h.mem_queued_iff a
  refine ⟨fun hmem => ?_, fun hc => ?_, fun hc hmem => hc (hiff.1 hmem)⟩
  · have hstream : written s'.conn.fd ++ s'.conn.outputBuffer_.content = s'.due :=
      (h.step hs).streams.stream
    rwa [h.content_of_completes (hiff.1 hmem) hs, List.append_nil] at hstream
  · exact List.count_eq_one_of_mem (nodup_queued s a) (hiff.2 hc)

/-- The hypotheses are satisfiable: of `3` bytes one is written directly, and the
`handleWrite` that writes the other two queues the callback. -/
theorem writeComplate_truthful_partial :
    ∃ s s', exec step (ofConnection (.ofFd 5 64 true false))
        [.connectEstablished, .op (.sendInLoop [1, 2, 3] (.wrote 1))] = some s ∧
      s.step (.op (.handleWrite (.wrote 2))) = some s' ∧
      (s.queued (.op (.handleWrite (.wrote 2)))).count .writeComplate = 1 ∧
      written s'.conn.fd = s'.due := by
  have hrun : exec step (ofConnection (.ofFd 5 64 true false))
      [.connectEstablished, .op (.sendInLoop [1, 2, 3] (.wrote 1))] = some _ := rfl
  have hs := writeComplate_truthful hrun (a := .op (.handleWrite (.wrote 2))) rfl
  exact ⟨_, _, hrun, rfl, hs.2.1 ⟨by decide, by decide⟩, hs.1 (by decide)⟩

/-! ### The high-water mark -/

end Ledger

namespace TcpConnection

variable {c c' : TcpConnection}

/-- What is left over queues the callback when it takes the length to the mark. -/
theorem marks_sendInLoop (hcb : c.highWaterMarkCallback_ = true) (data : List UInt8)
    (r : WriteResult) :
    (c.sendInLoop data r).2.toList.filterMap Notice.mark =
      if c.outputBuffer_.content.length < c.highWaterMark_ ∧
          c.highWaterMark_ ≤ (c.sendInLoop data r).1.outputBuffer_.content.length then
        [(c.sendInLoop data r).1.outputBuffer_.content.length]
      else [] := by
  rw [content_sendInLoop]
  by_cases hrest : (!(c.direct && r.fault)) = true ∧ 0 < data.length - c.nwrote r
  · simp only [sendInLoop, if_pos hrest, List.length_append, List.length_drop,
      highWaterMarkNotice, hcb, and_true]
    by_cases hcross : c.outputBuffer_.content.length < c.highWaterMark_ ∧
        c.highWaterMark_ ≤ c.outputBuffer_.content.length + (data.length - c.nwrote r)
    · rw [if_pos hcross, if_pos hcross.symm]
      rfl
    · rw [if_neg hcross, if_neg (mt And.symm hcross)]
      rfl
  · have hnone : ¬(c.outputBuffer_.content.length < c.highWaterMark_ ∧
        c.highWaterMark_ ≤ c.outputBuffer_.content.length) := by omega
    simp only [sendInLoop, if_neg hrest, List.append_nil, if_neg hnone, writeComplateNotice]
    split_ifs <;> rfl

/-- `handleWrite` never makes the buffer longer. -/
theorem length_handleWriteAll_le (r : WriteResult) :
    (c.handleWriteAll r).outputBuffer_.content.length ≤ c.outputBuffer_.content.length := by
  rw [content_handleWriteAll]
  split_ifs
  · rw [List.length_drop]
    exact Nat.sub_le _ _
  · exact Nat.le_refl _

/-- **When the high-water-mark callback is queued**: by the call that takes the length
from below the mark to the mark or above, with the new length. -/
theorem marks_queued {op : Op} (hcb : c.highWaterMarkCallback_ = true)
    (hc : c.step op = some c') :
    (c.queued op).filterMap Notice.mark =
      if c.outputBuffer_.content.length < c.highWaterMark_ ∧
          c.highWaterMark_ ≤ c'.outputBuffer_.content.length then
        [c'.outputBuffer_.content.length]
      else [] := by
  cases op with
  | sendInLoop data r =>
      obtain rfl := Option.some.inj hc
      by_cases hs : c.state_ = .kDisconnected
      · rw [queued, if_pos hs, if_pos hs, if_neg (by omega)]
        rfl
      · rw [queued, if_neg hs, if_neg hs]
        exact marks_sendInLoop hcb data r
  | handleWrite r =>
      obtain rfl := Option.some.inj hc
      have hle := length_handleWriteAll_le (c := c) r
      rw [if_neg (by omega), queued]
      split_ifs <;> rfl
  | shutdown | handleClose | connectDestroyed =>
      rw [outputBuffer_of_step hc (by simp) (by simp), if_neg (by omega)]
      rfl

end TcpConnection

namespace Ledger

variable {s s' : Ledger} {a : Call}

/-- The log is that of the length, with an alarm at `mark`. -/
structure Marked (mark : ℕ) (s : Ledger) : Prop where
  mark_eq : s.conn.highWaterMark_ = mark
  callback : s.conn.highWaterMarkCallback_ = true
  level_eq : levelOf 0 s.log = s.conn.outputBuffer_.content.length
  rings : Rings mark 0 s.log

/-- **One step** keeps the mark and its callback. -/
theorem Marked.step {mark : ℕ} (h : s.Marked mark) (hs : s.step a = some s') :
    s'.Marked mark := by
  obtain ⟨c, hc, rfl⟩ := Option.map_eq_some_iff.1 hs
  cases a with
  | connectEstablished =>
      obtain ⟨-, hc⟩ := Option.ite_none_right_eq_some.1 hc
      obtain rfl := Option.some.inj hc
      refine ⟨h.mark_eq, h.callback, rfl, ?_, h.rings⟩
      rw [h.level_eq]
      exact (if_neg fun hcross => Nat.not_le_of_lt hcross.1 hcross.2).symm
  | op op =>
      obtain ⟨hmark, -, hcb⟩ := TcpConnection.settings_of_step hc
      refine ⟨hmark.trans h.mark_eq, hcb.trans h.callback, rfl, ?_, h.rings⟩
      rw [h.level_eq, ← h.mark_eq]
      exact TcpConnection.marks_queued h.callback hc

/-- **The high-water-mark law.**  For every mark and every run on the loop's thread
that starts with nothing buffered: while the buffer holds as much as the mark, one
callback has been queued since it last held less, with the length that the step over
the mark left; and while it holds less, none has been queued since it last held as
much. -/
theorem highWaterMark_once {c : TcpConnection} (hempty : c.outputBuffer_.content = [])
    (hcb : c.highWaterMarkCallback_ = true) (hmark : 0 < c.highWaterMark_) {calls : List Call}
    (hrun : exec step (ofConnection c) calls = some s) :
    (c.highWaterMark_ ≤ s.conn.outputBuffer_.content.length →
      ∃ e, (sinceBelow c.highWaterMark_ s.log).getLast? = some e ∧
        (sinceBelow c.highWaterMark_ s.log).flatMap Reading.alarms = [e.level]) ∧
      (s.conn.outputBuffer_.content.length < c.highWaterMark_ →
        (sinceAbove c.highWaterMark_ s.log).flatMap Reading.alarms = []) := by
  have h₀ : (ofConnection c).Marked c.highWaterMark_ :=
    ⟨rfl, hcb, (congrArg List.length hempty).symm, trivial⟩
  have h : s.Marked c.highWaterMark_ := exec_invariant' (fun _ _ _ h hs => h.step hs) h₀ hrun
  refine ⟨fun hle => h.rings.above hmark ?_, fun _ => h.rings.below⟩
  rw [h.level_eq]
  exact hle

/-- The hypotheses are satisfiable: with a mark of `2`, `3` of `4` bytes are left over,
one more comes behind them, and one is written; the callback has been queued once,
with `3`. -/
theorem highWaterMark_once_three :
    ∃ s, exec step (ofConnection (.ofFd 5 2 false true))
        [.connectEstablished, .op (.sendInLoop [1, 2, 3, 4] (.wrote 1)),
          .op (.sendInLoop [5] (.wrote 0)), .op (.handleWrite (.wrote 1))] = some s ∧
      s.conn.outputBuffer_.content.length = 3 ∧
      ∃ e, (sinceBelow 2 s.log).getLast? = some e ∧ e.level = 3 ∧
        (sinceBelow 2 s.log).flatMap Reading.alarms = [e.level] := by
  have hrun : exec step (ofConnection (.ofFd 5 2 false true))
      [.connectEstablished, .op (.sendInLoop [1, 2, 3, 4] (.wrote 1)),
        .op (.sendInLoop [5] (.wrote 0)), .op (.handleWrite (.wrote 1))] = some _ := rfl
  obtain ⟨e, hlast, halarms⟩ := (highWaterMark_once rfl rfl (by decide) hrun).1 (by decide)
  refine ⟨_, hrun, rfl, e, hlast, ?_, halarms⟩
  obtain rfl := Option.some.inj hlast
  rfl

end Ledger

end MuMuduo
