/-
# A connection on its loop's thread

`TcpConnection.cc`: what the member functions do to the connection, its channel
and the descriptor.  Each function is cut where another thread can come in
between, at the loads and stores of `state_` and at the pushes to a loop's queue;
the pieces below are what is done in between, by the loop's own thread.  The
functions of the source are put together from these pieces, for a run on one
thread in `Connection.Stream` and for any interleaving in `Server.Machine`.

`outputBuffer_` is a queue of bytes (`Foundation.Fifo`), whose storage is put beside
it in `Connection.Storage`.  The poller is seen as far as it concerns the channel of
this connection.  Two fields are not in the source: `fd` lists the system calls made
on the descriptor, each with the content `outputBuffer_` had, and `accepted` is the
data of all calls of `sendInLoop` that were not given up because of `kDisconnected`.
-/

import MuMuduo.Foundation.Fifo
import MuMuduo.Poller.Agreement

namespace MuMuduo

open Foundation

/-- `TcpConnection::StateE`. -/
inductive StateE
  | kDisconnected
  | kConnecting
  | kConnected
  | kDisconnecting
  deriving DecidableEq

def EWOULDBLOCK : ℕ := 11
def EPIPE : ℕ := 32
def ECONNRESET : ℕ := 104

/-- What `::write` returns: a count, or `-1` with `errno`. -/
inductive WriteResult
  | wrote (n : ℕ)
  | failed (errno : ℕ)
  deriving DecidableEq

/-- A failure that `sendInLoop` takes for the end of the connection.  It logs between two
reads of `errno`, which is taken to be the same at both. -/
def WriteResult.fault : WriteResult → Bool
  | .wrote _ => false
  | .failed errno => errno != EWOULDBLOCK && (errno == EPIPE || errno == ECONNRESET)

/-- `nwrote >= 0`. -/
def WriteResult.ok : WriteResult → Bool
  | .wrote _ => true
  | .failed _ => false

/-- How many bytes the kernel took. -/
def WriteResult.count : WriteResult → ℕ
  | .wrote n => n
  | .failed _ => 0

/-- A system call on the descriptor: `::write` in `sendInLoop`, `::write` in
`Buffer::writeFd`, each with the bytes the kernel took, and
`::shutdown(SHUT_WR)`. -/
inductive FdEvent
  | write (bytes buffered : List UInt8)
  | writeFd (bytes buffered : List UInt8)
  | shutdownWrite (buffered : List UInt8)
  deriving DecidableEq

/-- The bytes one system call handed to the kernel. -/
def FdEvent.bytes : FdEvent → List UInt8
  | .write bytes _ => bytes
  | .writeFd bytes _ => bytes
  | .shutdownWrite _ => []

/-- The bytes handed to the kernel, in order. -/
def written (fd : List FdEvent) : List UInt8 := (fd.map FdEvent.bytes).flatten

@[simp] theorem written_nil : written [] = [] := rfl

@[simp] theorem written_append (fd fd' : List FdEvent) :
    written (fd ++ fd') = written fd ++ written fd' := by
  simp [written]

@[simp] theorem written_singleton (e : FdEvent) : written [e] = e.bytes := by
  simp [written]

/-- A user callback that a member function queues on the loop. -/
inductive Notice
  | writeComplate
  | highWaterMark (len : ℕ)
  deriving DecidableEq

/-- The members of `TcpConnection` that its output side works on. -/
structure TcpConnection where
  state_ : StateE
  channel_ : Channel
  poller : EPollPoller Unit
  outputBuffer_ : Fifo UInt8
  highWaterMark_ : ℕ
  writeComplateCallback_ : Bool
  highWaterMarkCallback_ : Bool
  fd : List FdEvent
  accepted : List UInt8

namespace TcpConnection

/-- The constructor and the setters: a connection on the descriptor `sockfd` with
or without a write-complete and a high-water-mark callback. -/
def ofFd (sockfd : ℤ) (highWaterMark : ℕ) (writeComplateCallback highWaterMarkCallback : Bool) :
    TcpConnection where
  state_ := .kConnecting
  channel_ := Channel.ofFd sockfd
  poller := .empty
  outputBuffer_ := .empty
  highWaterMark_ := highWaterMark
  writeComplateCallback_ := writeComplateCallback
  highWaterMarkCallback_ := highWaterMarkCallback
  fd := []
  accepted := []

/-- An operation of the channel. -/
def perform (c : TcpConnection) (op : Channel.Op) : TcpConnection :=
  let r := c.channel_.perform c.poller () op
  { c with poller := r.1, channel_ := r.2 }

def isWriting (c : TcpConnection) : Bool := c.channel_.isWriting

def setState (c : TcpConnection) (state : StateE) : TcpConnection := { c with state_ := state }

/-- `connectEstablished`, up to the connection callback. -/
def connectEstablished (c : TcpConnection) : TcpConnection :=
  (c.setState .kConnected).perform .enableReading

/-- The condition of the direct write in `sendInLoop`. -/
def direct (c : TcpConnection) : Bool := !c.isWriting || c.outputBuffer_.content.length == 0

/-- The bytes that the direct write takes. -/
def nwrote (c : TcpConnection) (r : WriteResult) : ℕ := if c.direct then r.count else 0

/-- The record of a call of `sendInLoop` that is not given up. -/
def accept (c : TcpConnection) (data : List UInt8) : TcpConnection :=
  { c with accepted := c.accepted ++ data }

/-- The direct write of `sendInLoop`, if there is one. -/
def writeDirect (c : TcpConnection) (data : List UInt8) (r : WriteResult) : TcpConnection :=
  if c.direct then
    { c with fd := c.fd ++ [.write (data.take r.count) c.outputBuffer_.content] }
  else c

/-- `outputBuffer_.append`. -/
def append (c : TcpConnection) (data : List UInt8) : TcpConnection :=
  { c with outputBuffer_ := c.outputBuffer_.push data }

/-- The end of `sendInLoop`: what is left goes into `outputBuffer_`, and the
channel is made to wait for the descriptor. -/
def bufferRest (c : TcpConnection) (rest : List UInt8) : TcpConnection :=
  if c.isWriting then c.append rest else (c.append rest).perform .enableWriting

/-- The high-water-mark callback is due when the length passes the mark. -/
def highWaterMarkNotice (c : TcpConnection) (remaining : ℕ) : Option Notice :=
  let oldLen := c.outputBuffer_.content.length
  if c.highWaterMark_ ≤ oldLen + remaining ∧ oldLen < c.highWaterMark_ ∧
      c.highWaterMarkCallback_ = true then
    some (.highWaterMark (oldLen + remaining))
  else none

/-- The write-complete callback is due when one direct write took everything. -/
def writeComplateNotice (c : TcpConnection) (data : List UInt8) (r : WriteResult) :
    Option Notice :=
  if c.direct ∧ r.ok ∧ data.length - r.count = 0 ∧ c.writeComplateCallback_ then
    some .writeComplate
  else none

/-- `sendInLoop` after the test for `kDisconnected`: the connection it leaves
behind and the callback it queues.  `r` is what `::write` returns if it is
called. -/
def sendInLoop (c : TcpConnection) (data : List UInt8) (r : WriteResult) :
    TcpConnection × Option Notice :=
  let faultError := c.direct && r.fault
  if !faultError ∧ 0 < data.length - c.nwrote r then
    (((c.accept data).writeDirect data r).bufferRest (data.drop (c.nwrote r)),
      c.highWaterMarkNotice (data.length - c.nwrote r))
  else ((c.accept data).writeDirect data r, c.writeComplateNotice data r)

/-- `outputBuffer_.writeFd`, and the `retrieve` of what it wrote, which is nothing
if the write failed. -/
def writeFd (c : TcpConnection) (r : WriteResult) : TcpConnection :=
  { c with
    fd := c.fd ++ [.writeFd (c.outputBuffer_.content.take r.count) c.outputBuffer_.content]
    outputBuffer_ := c.outputBuffer_.pop r.count }

/-- `handleWrite` up to its test of `state_`; the flag says that the buffer has
been drained. -/
def handleWrite (c : TcpConnection) (r : WriteResult) : TcpConnection × Bool :=
  if c.isWriting then
    if 0 < r.count ∧ (c.writeFd r).outputBuffer_.content.length = 0 then
      ((c.writeFd r).perform .disableWriting, true)
    else (c.writeFd r, false)
  else (c, false)

/-- `shutdownInLoop`. -/
def shutdownInLoop (c : TcpConnection) : TcpConnection :=
  if !c.isWriting then { c with fd := c.fd ++ [.shutdownWrite c.outputBuffer_.content] } else c

/-- `setState(kDisconnected)` and `disableAll()`. -/
def disconnect (c : TcpConnection) : TcpConnection :=
  (c.setState .kDisconnected).perform .disableAll

/-- `handleClose`, up to its callbacks. -/
def handleClose (c : TcpConnection) : TcpConnection := c.disconnect

/-- `connectDestroyed`, its connection callback left out. -/
def connectDestroyed (c : TcpConnection) : TcpConnection :=
  (if c.state_ = .kConnected then c.disconnect else c).perform .remove

/-- `handleWrite` as a whole. -/
def handleWriteAll (c : TcpConnection) (r : WriteResult) : TcpConnection :=
  if (c.handleWrite r).2 ∧ (c.handleWrite r).1.state_ = .kDisconnecting then
    (c.handleWrite r).1.shutdownInLoop
  else (c.handleWrite r).1

/-- `shutdown` called on the loop's own thread, where `runInLoop` makes the call at
once; `isInLoopThread()` is read as the comparison its body makes. -/
def shutdown (c : TcpConnection) : TcpConnection :=
  if c.state_ = .kConnected then (c.setState .kDisconnecting).shutdownInLoop else c

/-! ### What the pieces leave alone -/

section Simp

variable (c : TcpConnection) (op : Channel.Op)

@[simp] theorem perform_state_ : (c.perform op).state_ = c.state_ := rfl
@[simp] theorem perform_outputBuffer_ : (c.perform op).outputBuffer_ = c.outputBuffer_ := rfl
@[simp] theorem perform_fd : (c.perform op).fd = c.fd := rfl
@[simp] theorem perform_accepted : (c.perform op).accepted = c.accepted := rfl

@[simp] theorem setState_state_ (state : StateE) : (c.setState state).state_ = state := rfl
@[simp] theorem setState_isWriting (state : StateE) :
    (c.setState state).isWriting = c.isWriting := rfl
@[simp] theorem setState_outputBuffer_ (state : StateE) :
    (c.setState state).outputBuffer_ = c.outputBuffer_ := rfl
@[simp] theorem setState_fd (state : StateE) : (c.setState state).fd = c.fd := rfl
@[simp] theorem setState_accepted (state : StateE) :
    (c.setState state).accepted = c.accepted := rfl

end Simp

end TcpConnection

/-! ### Interest in writing after an operation -/

namespace Channel

variable (c : Channel)

/-- To enable reading leaves the interest in writing alone. -/
theorem isWriting_enableReading : c.enableReading.isWriting = c.isWriting := by
  rw [isWriting, enableReading, isWriting, BitVec.and_or_distrib_right,
    show kReadEvent &&& kWriteEvent = 0#32 by decide, BitVec.or_zero]

/-- Once writing is enabled the channel waits for room. -/
theorem isWriting_enableWriting : c.enableWriting.isWriting = true := by
  have h : (c.events_ ||| kWriteEvent) &&& kWriteEvent = kWriteEvent := by
    ext i hi
    simp only [BitVec.getElem_and, BitVec.getElem_or]
    cases c.events_[i] <;> cases kWriteEvent[i] <;> rfl
  rw [isWriting, enableWriting, h]
  decide

/-- Once it is disabled it does not. -/
theorem isWriting_disableWriting : c.disableWriting.isWriting = false := by
  rw [isWriting, disableWriting, BitVec.and_assoc,
    show ~~~kWriteEvent &&& kWriteEvent = 0#32 by decide, BitVec.and_zero]
  rfl

/-- Nor does it when all is disabled. -/
theorem isWriting_disableAll : c.disableAll.isWriting = false := by
  show (kNoneEvent &&& kWriteEvent != 0) = false
  decide

end Channel

/-- `updateChannel` registers the mask and leaves it as it is. -/
theorem EPollPoller.isWriting_updateChannel {ι : Type*} (p : EPollPoller ι) (ptr : ι)
    (c : Channel) : (p.updateChannel ptr c).2.isWriting = c.isWriting := by
  unfold EPollPoller.updateChannel
  split_ifs <;> rfl

namespace TcpConnection

variable (c : TcpConnection)

@[simp] theorem isWriting_enableReading : (c.perform .enableReading).isWriting = c.isWriting :=
  (EPollPoller.isWriting_updateChannel _ _ _).trans (Channel.isWriting_enableReading _)

@[simp] theorem isWriting_enableWriting : (c.perform .enableWriting).isWriting = true :=
  (EPollPoller.isWriting_updateChannel _ _ _).trans (Channel.isWriting_enableWriting _)

@[simp] theorem isWriting_disableWriting : (c.perform .disableWriting).isWriting = false :=
  (EPollPoller.isWriting_updateChannel _ _ _).trans (Channel.isWriting_disableWriting _)

@[simp] theorem isWriting_disableAll : (c.perform .disableAll).isWriting = false :=
  (EPollPoller.isWriting_updateChannel _ _ _).trans (Channel.isWriting_disableAll _)

@[simp] theorem isWriting_remove : (c.perform .remove).isWriting = c.isWriting := rfl

/-! ### The state after a piece -/

@[simp] theorem bufferRest_state_ (rest : List UInt8) : (c.bufferRest rest).state_ = c.state_ := by
  unfold bufferRest
  split_ifs <;> rfl

@[simp] theorem writeDirect_state_ (data : List UInt8) (r : WriteResult) :
    (c.writeDirect data r).state_ = c.state_ := by
  unfold writeDirect
  split_ifs <;> rfl

@[simp] theorem accept_state_ (data : List UInt8) : (c.accept data).state_ = c.state_ := rfl

@[simp] theorem sendInLoop_state_ (data : List UInt8) (r : WriteResult) :
    (c.sendInLoop data r).1.state_ = c.state_ := by
  simp only [sendInLoop]
  split_ifs <;> simp

@[simp] theorem handleWrite_state_ (r : WriteResult) : (c.handleWrite r).1.state_ = c.state_ := by
  unfold handleWrite
  split_ifs <;> rfl

@[simp] theorem shutdownInLoop_state_ : c.shutdownInLoop.state_ = c.state_ := by
  unfold shutdownInLoop
  split_ifs <;> rfl

@[simp] theorem disconnect_state_ : c.disconnect.state_ = .kDisconnected := rfl

end TcpConnection

end MuMuduo
