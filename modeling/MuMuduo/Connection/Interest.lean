/-
# What a connection is interested in

Of the member functions of a connection, five work on its channel, each by one
operation: `connectEstablished` enables reading, `sendInLoop` enables writing if it
leaves bytes over (`enables`), `handleWrite` disables writing when it has drained
the buffer (`drains`), a disconnection disables all, and `connectDestroyed` takes
the channel out of the poller.  The rest of the channel's mask, its tag and the
poller follow from the operation (`events_perform`, `index_perform`).
-/

import MuMuduo.Connection.Basic
import MuMuduo.Poller.Interest

namespace MuMuduo

namespace EPollPoller

variable {ι : Type*}

/-- `updateChannel` leaves the mask of the channel as it is. -/
theorem events_updateChannel (p : EPollPoller ι) (ptr : ι) (c : Channel) :
    (p.updateChannel ptr c).2.events_ = c.events_ := by
  unfold updateChannel
  split_ifs <;> rfl

end EPollPoller

namespace TcpConnection

variable (c : TcpConnection)

/-- The poller and the channel. -/
def watch : EPollPoller Unit × Channel := (c.poller, c.channel_)

def isReading : Bool := c.channel_.isReading

/-- The poller and the channel agree. -/
def Registered : Prop := c.poller.Registered () c.channel_ c.channel_.events_

/-- `channels_` and the interest set of the poller hold nothing of the channel. -/
def Removed : Prop :=
  c.poller.channels_ c.channel_.fd_ = none ∧ c.poller.interest c.channel_.fd_ = none

/-- `sendInLoop` calls `enableWriting`. -/
def enables (data : List UInt8) (r : WriteResult) : Bool :=
  !(c.direct && r.fault) && decide (0 < data.length - c.nwrote r) && !c.isWriting

/-- `handleWrite` calls `disableWriting`. -/
def drains (r : WriteResult) : Bool :=
  c.isWriting && decide (0 < r.count ∧ c.outputBuffer_.content.length ≤ r.count)

/-! ### Which operation a function makes -/

/-- What is left over makes a channel wait for room that does not wait already. -/
theorem watch_bufferRest (rest : List UInt8) :
    (c.bufferRest rest).watch =
      if c.isWriting then c.watch else (c.perform .enableWriting).watch := by
  unfold bufferRest
  split_ifs <;> rfl

/-- A direct write has nothing to do with the channel. -/
theorem watch_writeDirect (data : List UInt8) (r : WriteResult) :
    (c.writeDirect data r).watch = c.watch := by
  unfold writeDirect
  split_ifs <;> rfl

/-- **`sendInLoop` enables writing or leaves the channel alone.** -/
theorem watch_sendInLoop (data : List UInt8) (r : WriteResult) :
    (c.sendInLoop data r).1.watch =
      if c.enables data r then (c.perform .enableWriting).watch else c.watch := by
  have hdirect : ((c.accept data).writeDirect data r).watch = c.watch :=
    (c.accept data).watch_writeDirect data r
  have hwriting : ((c.accept data).writeDirect data r).isWriting = c.isWriting :=
    congrArg (fun w => w.2.isWriting) hdirect
  have hperform : (((c.accept data).writeDirect data r).perform .enableWriting).watch =
      (c.perform .enableWriting).watch :=
    congrArg (fun w => w.2.perform w.1 () .enableWriting) hdirect
  simp only [sendInLoop]
  by_cases hrest : (!(c.direct && r.fault)) = true ∧ 0 < data.length - c.nwrote r
  · rw [if_pos hrest, watch_bufferRest, hwriting, hdirect, hperform]
    cases hw : c.isWriting <;> simp [enables, hrest.1, hrest.2, hw]
  · have henables : c.enables data r = false := by
      rw [Bool.eq_false_iff]
      intro h
      simp only [enables, Bool.and_eq_true, decide_eq_true_eq] at h
      exact hrest h.1
    rw [if_neg hrest, henables, hdirect]
    rfl

/-- **`handleWrite` disables writing or leaves the channel alone.** -/
theorem watch_handleWrite (r : WriteResult) :
    (c.handleWrite r).1.watch =
      if c.drains r then (c.perform .disableWriting).watch else c.watch := by
  unfold handleWrite
  by_cases hw : c.isWriting = true
  · have hlen : (c.writeFd r).outputBuffer_.content.length = 0 ↔
        c.outputBuffer_.content.length ≤ r.count := by
      simp [writeFd, List.length_drop, Nat.sub_eq_zero_iff_le]
    rw [if_pos hw]
    by_cases hd : 0 < r.count ∧ c.outputBuffer_.content.length ≤ r.count
    · rw [if_pos ⟨hd.1, hlen.2 hd.2⟩, if_pos (by simp [drains, hw, hd.1, hd.2])]
      rfl
    · rw [if_neg fun h => hd ⟨h.1, hlen.1 h.2⟩, if_neg (by simpa [drains, hw] using hd)]
      rfl
  · rw [if_neg hw, if_neg (by simp [drains, hw])]

/-- To shut down the write side has nothing to do with the channel. -/
theorem watch_shutdownInLoop : c.shutdownInLoop.watch = c.watch := by
  unfold shutdownInLoop
  split_ifs <;> rfl

/-! ### What an operation does -/

variable {c}

/-- Every operation keeps the channel in step with the poller. -/
theorem Registered.perform (h : c.Registered) (op : Channel.Op) : (c.perform op).Registered :=
  (Channel.perform_registered h op).1

/-- Whether they agree depends on the poller and the channel alone. -/
theorem Registered.congr {c' : TcpConnection} (h : c.Registered) (hw : c'.watch = c.watch) :
    c'.Registered := by
  obtain ⟨hp, hc⟩ := Prod.mk.inj hw
  unfold Registered
  rw [hp, hc]
  exact h

/-- A new channel is in step with a poller that does not know it. -/
theorem Registered.ofFd (sockfd : ℤ) (mark : ℕ) (complete high : Bool) :
    (ofFd sockfd mark complete high).Registered :=
  ⟨.inl rfl, rfl, rfl⟩

/-- The tag tells whether the channel is in the poller. -/
theorem Registered.removed_iff (h : c.Registered) :
    c.Removed ↔ c.channel_.index_ = kNew := by
  unfold Removed
  rw [h.channels_eq, h.interest_eq]
  constructor
  · rintro ⟨hk, -⟩
    by_contra hne
    rw [if_neg hne] at hk
    cases hk
  · intro hk
    rw [if_pos hk, if_neg (by rw [hk]; decide)]
    exact ⟨rfl, rfl⟩

/-- The tag tells whether the kernel watches the descriptor. -/
theorem Registered.interest_none_iff (h : c.Registered) :
    c.poller.interest c.channel_.fd_ = none ↔ c.channel_.index_ ≠ kAdded := by
  rw [h.interest_eq]
  split_ifs with hk <;> simp [hk]

/-- An operation leaves the channel with the mask it has set. -/
theorem events_perform (op : Channel.Op) :
    (c.perform op).channel_.events_ = (c.channel_.masked op).events_ := by
  cases op with
  | remove => rfl
  | enableReading | disableReading | enableWriting | disableWriting | disableAll =>
      exact EPollPoller.events_updateChannel _ _ _

/-- **What an operation does to the tag.** -/
theorem Registered.index_perform (h : c.Registered) {op : Channel.Op} (hop : op ≠ .remove) :
    (c.perform op).channel_.index_ =
      if c.channel_.index_ = kAdded ∧ (c.channel_.masked op).events_ = 0 then kDeleted
      else kAdded := by
  have hreg : c.poller.Registered () (c.channel_.masked op) c.channel_.events_ := by
    cases op <;> exact ⟨h.index_mem, h.interest_eq, h.channels_eq⟩
  have hindex := EPollPoller.index_updateChannel hreg
  rw [Channel.masked_index_] at hindex
  show (c.channel_.perform c.poller () op).2.index_ = _
  rw [Channel.perform_of_ne_remove _ _ _ hop, hindex]

/-- `remove` takes the channel out of the poller. -/
theorem index_remove : (c.perform .remove).channel_.index_ = kNew := rfl

/-- **Every operation but `remove` puts the channel into the poller.** -/
theorem Registered.index_perform_ne (h : c.Registered) {op : Channel.Op} (hop : op ≠ .remove) :
    (c.perform op).channel_.index_ ≠ kNew := by
  rw [h.index_perform hop]
  split_ifs
  · exact EPollPoller.kNew_ne_kDeleted.symm
  · exact EPollPoller.kNew_ne_kAdded.symm

/-! ### Interest in reading after an operation -/

variable (c) in
/-- Once reading is enabled the channel waits for data. -/
theorem isReading_enableReading : (c.perform .enableReading).isReading = true := by
  have h : (c.channel_.events_ ||| Channel.kReadEvent) &&& Channel.kReadEvent =
      Channel.kReadEvent := by
    ext i hi
    simp only [BitVec.getElem_and, BitVec.getElem_or]
    cases c.channel_.events_[i] <;> cases Channel.kReadEvent[i] <;> rfl
  rw [isReading, Channel.isReading, events_perform, Channel.masked, Channel.enableReading, h]
  decide

variable (c) in
/-- To enable writing leaves the interest in reading alone. -/
theorem isReading_enableWriting : (c.perform .enableWriting).isReading = c.isReading := by
  rw [isReading, Channel.isReading, events_perform, Channel.masked, Channel.enableWriting,
    BitVec.and_or_distrib_right, show Channel.kWriteEvent &&& Channel.kReadEvent = 0#32 by decide,
    BitVec.or_zero]
  rfl

variable (c) in
/-- To disable writing leaves it alone too. -/
theorem isReading_disableWriting : (c.perform .disableWriting).isReading = c.isReading := by
  rw [isReading, Channel.isReading, events_perform, Channel.masked, Channel.disableWriting,
    BitVec.and_assoc,
    show ~~~Channel.kWriteEvent &&& Channel.kReadEvent = Channel.kReadEvent by decide]
  rfl

end TcpConnection

end MuMuduo
