/-
# A server with all of its connections

`MuMuduo.Server.Machine` follows one connection through every interleaving.  Here a
server keeps all of them, from `accept4` to `~TcpConnection`: `TcpServer::newConnection`,
`removeConnection`, `removeConnectionInLoop` and `~TcpServer`, over the listener of
`MuMuduo.Server.Accept`, the connections of `MuMuduo.Connection.Basic` and one queue of
functors for each loop, first in first out as `MuMuduo.EventLoop.Queue` has it.

A step is what one thread does between two looks at its queue: a functor, or a member
function of a connection.  What the connection callback calls inside such a step comes
before or after it: in `connectEstablished` the callback is the last that is done, and in
the other two functions its calls on the connection find `kDisconnected`.  Different
threads meet in the queues only: `connections_` belongs to the thread of the base loop,
and a connection to the thread of its own loop.  There its member functions may be called
in any order and number once it has been established: by the handlers of an event, also
where an earlier handler of the same event has taken the channel out of the poller, by
callbacks, and by the functors of `send` and `shutdown`, which are not among the queued
ones here.  Applications may hold a connection as long as they like.

`~TcpServer` is a step of its own, so it may be called by a message callback, between two
handlers of an event.  Left out is its call by the connection callback inside
`handleClose`: the close callback that follows is then one on a server that is gone
(`MuMuduo.Server.Destructor`).  Left out is also the store that a `shutdown` of another
thread makes between two steps of the loop: here a `shutdown` is a step on the loop's own
thread, and `isInLoopThread()` is read as the comparison its body makes.
`MuMuduo.Server.Machine` has both.

`history` is not in the source: the calls made on each connection, with the loop on
whose thread.
-/

import Mathlib.Data.Fintype.Basic
import Mathlib.Data.List.Perm.Basic
import MuMuduo.Connection.Stream
import MuMuduo.Foundation.Queues
import MuMuduo.Server.Accept

namespace MuMuduo

open Foundation

namespace TcpConnection

/-- The member functions that a loop's thread calls. -/
inductive Call
  | connectEstablished
  | op (op : Op)

namespace Call

/-- A call of `connectDestroyed`. -/
def destroys : Call → Bool
  | .op .connectDestroyed => true
  | _ => false

/-- A call of `handleClose`. -/
def closes : Call → Bool
  | .op .handleClose => true
  | _ => false

end Call

def call (c : TcpConnection) : Call → Option TcpConnection
  | .connectEstablished => some c.connectEstablished
  | .op op => c.step op

end TcpConnection

open TcpConnection (Call)

/-- The functors of a server, each with the connection bound to it. -/
inductive Task
  | connectEstablished (conn : ℕ)
  | connectDestroyed (conn : ℕ)
  | removeConnectionInLoop (conn : ℕ)
  deriving DecidableEq

namespace Task

/-- The connection that the functor holds. -/
def conn : Task → ℕ
  | .connectEstablished i | .connectDestroyed i | .removeConnectionInLoop i => i

/-- The call on connection `i` that the functor will make. -/
def due (i : ℕ) : Task → Option Call
  | .connectEstablished j => if j = i then some .connectEstablished else none
  | .connectDestroyed j => if j = i then some (.op .connectDestroyed) else none
  | .removeConnectionInLoop _ => none

end Task

/-- `TcpServer` with its connections, and what is queued on the loops. -/
structure Roster (LoopId : Type*) where
  listener : Listener LoopId
  alive : Bool
  writeComplateCallback_ : Bool
  conn : ℕ → TcpConnection
  pendingFunctors_ : LoopId → List Task
  history : ℕ → List (LoopId × Call)

namespace Roster

variable {LoopId : Type*}

/-- What the threads do.  `order` is the one in which `~TcpServer` finds the entries of
its map. -/
inductive Label (LoopId : Type*)
  | handleRead (r : AcceptResult) (sockname : Option InetAddress)
  | doPendingFunctor (loop : LoopId)
  | handleEvent (conn : ℕ) (op : TcpConnection.Op)
  | destroyServer (order : List ℕ)
  | destroy (conn : ℕ)
  | openOther (fd : ℕ)
  | closeOther (fd : ℕ)

/-- A server that listens, its queues empty. -/
def ofServer (nameArg : List Char) (listenAddr : InetAddress) (baseLoop : LoopId)
    (loops : List LoopId) (used : ℤ → Bool) (writeComplateCallback : Bool) : Roster LoopId where
  listener := Listener.ofServer true nameArg listenAddr baseLoop loops used
  alive := true
  writeComplateCallback_ := writeComplateCallback
  conn := fun _ => TcpConnection.ofFd (-1) 0 false false
  pendingFunctors_ := fun _ => []
  history := fun _ => []

/-- `highWaterMark_` of a new connection. -/
def highWaterMark : ℕ := 64 * 1024 * 1024

def conns (s : Roster LoopId) : List (Endpoint LoopId) := s.listener.conns

/-- `loop_`. -/
def baseLoop (s : Roster LoopId) : LoopId := s.listener.threadPool_.baseLoop_

/-- `conn->getLoop()`. -/
def getLoop (s : Roster LoopId) (i : ℕ) : Option LoopId := s.conns[i]?.map Endpoint.loop_

/-- The connection as its constructor and the setters leave it. -/
def fresh (s : Roster LoopId) (conn : Endpoint LoopId) : TcpConnection :=
  TcpConnection.ofFd conn.socket_ highWaterMark s.writeComplateCallback_ false

/-- The map holds connection `i` under its name. -/
def holds (s : Roster LoopId) (i : ℕ) : Bool :=
  (s.conns[i]?.bind fun conn => s.listener.server.connections_ conn.name_) == some i

/-- The connections in the map. -/
def entries (s : Roster LoopId) : List ℕ := (List.range s.conns.length).filter s.holds

/-- Connection `i` has become `c` by a call made on the thread of `loop`. -/
def visited (s : Roster LoopId) (loop : LoopId) (i : ℕ) (call : Call) (c : TcpConnection) :
    Roster LoopId :=
  { s with
    conn := Function.update s.conn i c
    history := Function.update s.history i (s.history i ++ [(loop, call)]) }

/-- A call on connection `i`; none if it has been destroyed. -/
def callOn (s : Roster LoopId) (loop : LoopId) (i : ℕ) (call : Call) : Option (Roster LoopId) :=
  if i ∈ s.listener.destroyed then none
  else ((s.conn i).call call).map (s.visited loop i call)

/-- The removals so far, by a functor or by `~TcpServer`. -/
def removed (s : Roster LoopId) : List ℕ := s.listener.server.removed

/-- `connections_.erase(conn->name())`. -/
def erase (s : Roster LoopId) (i : ℕ) : Option (Roster LoopId) :=
  (s.listener.step (.removeConnectionInLoop i)).map fun listener => { s with listener := listener }

section Step

variable [DecidableEq LoopId]

/-- `queueInLoop`. -/
def queueInLoop (s : Roster LoopId) (loop : LoopId) (task : Task) : Roster LoopId :=
  { s with pendingFunctors_ := push s.pendingFunctors_ loop task }

/-- `removeConnectionInLoop`; none if the server is gone. -/
def removeConnectionInLoop (s : Roster LoopId) (i : ℕ) : Option (Roster LoopId) :=
  if s.alive then
    (s.erase i).bind fun s => (s.getLoop i).map fun ioLoop =>
      s.queueInLoop ioLoop (.connectDestroyed i)
  else none

/-- A functor, called by the thread of `loop`. -/
def startFunctor (s : Roster LoopId) (loop : LoopId) : Task → Option (Roster LoopId)
  | .connectEstablished i => s.callOn loop i .connectEstablished
  | .connectDestroyed i => s.callOn loop i (.op .connectDestroyed)
  | .removeConnectionInLoop i => s.removeConnectionInLoop i

/-- `loop->runInLoop`, called by `thread`. -/
def runInLoop (s : Roster LoopId) (thread loop : LoopId) (task : Task) : Option (Roster LoopId) :=
  if loop = thread then s.startFunctor loop task else some (s.queueInLoop loop task)

/-- `Acceptor::handleRead`, and the end of `newConnection` if it has made a
connection. -/
def handleRead (s : Roster LoopId) (r : AcceptResult) (sockname : Option InetAddress) :
    Option (Roster LoopId) :=
  (s.listener.step (.handleRead r sockname)).bind fun listener =>
    let i := s.conns.length
    match listener.conns[i]? with
    | none => some { s with listener := listener }
    | some conn =>
        runInLoop { s with listener := listener, conn := Function.update s.conn i (s.fresh conn) }
          s.baseLoop conn.loop_ (.connectEstablished i)

/-- `removeConnection`, called by the close callback on the thread of `loop`. -/
def removeConnection (s : Roster LoopId) (loop : LoopId) (i : ℕ) : Option (Roster LoopId) :=
  if s.alive then s.runInLoop loop s.baseLoop (.removeConnectionInLoop i) else none

/-- A member function called on the thread of the connection's loop, after
`connectEstablished`.  Whether the channel is still in the poller is not asked, as
`handleEventWithGuard` does not ask between two handlers; `handleClose` ends with the
close callback. -/
def handleEvent (s : Roster LoopId) (i : ℕ) (op : TcpConnection.Op) : Option (Roster LoopId) :=
  (s.getLoop i).bind fun loop =>
    if (s.conn i).state_ = .kConnecting then none
    else match op with
      | .connectDestroyed => none
      | .handleClose =>
          (s.callOn loop i (.op .handleClose)).bind fun s => s.removeConnection loop i
      | op => s.callOn loop i (.op op)

/-- The body of the loop in `~TcpServer`. -/
def release (s : Roster LoopId) (i : ℕ) : Option (Roster LoopId) :=
  (s.erase i).bind fun s => (s.getLoop i).bind fun loop =>
    s.runInLoop s.baseLoop loop (.connectDestroyed i)

/-- `~TcpServer`, on the thread of the base loop. -/
def destroyServer (s : Roster LoopId) (order : List ℕ) : Option (Roster LoopId) :=
  if s.alive ∧ order.Perm s.entries then
    (exec release s order).map fun s => { s with alive := false }
  else none

/-- The queue of the loop is `rest`. -/
def leave (s : Roster LoopId) (loop : LoopId) (rest : List Task) : Roster LoopId :=
  { s with pendingFunctors_ := Function.update s.pendingFunctors_ loop rest }

/-- The first functor of the loop, taken out of the queue and called. -/
def doPendingFunctor (s : Roster LoopId) (loop : LoopId) : Option (Roster LoopId) :=
  match s.pendingFunctors_ loop with
  | [] => none
  | task :: rest => (s.leave loop rest).startFunctor loop task

/-- A functor that has not been called holds connection `i`. -/
def Held (s : Roster LoopId) (i : ℕ) : Prop :=
  ∃ loop, ∃ task ∈ s.pendingFunctors_ loop, task.conn = i

instance [Fintype LoopId] (s : Roster LoopId) (i : ℕ) : Decidable (s.Held i) :=
  inferInstanceAs (Decidable (∃ loop, ∃ task ∈ s.pendingFunctors_ loop, task.conn = i))

/-- One step.  A connection goes when neither the map nor a functor holds it. -/
def step [Fintype LoopId] (s : Roster LoopId) : Label LoopId → Option (Roster LoopId)
  | .handleRead r sockname => if s.alive then s.handleRead r sockname else none
  | .doPendingFunctor loop => s.doPendingFunctor loop
  | .handleEvent i op => s.handleEvent i op
  | .destroyServer order => s.destroyServer order
  | .destroy i =>
      if s.Held i then none
      else (s.listener.step (.destroy i)).map fun listener => { s with listener := listener }
  | .openOther fd =>
      (s.listener.step (.openOther fd)).map fun listener => { s with listener := listener }
  | .closeOther fd =>
      (s.listener.step (.closeOther fd)).map fun listener => { s with listener := listener }

end Step

/-! ### What the pieces leave alone -/

section Simp

variable (s : Roster LoopId) (loop : LoopId) (i : ℕ) (call : Call) (c : TcpConnection)

@[simp] theorem visited_listener : (s.visited loop i call c).listener = s.listener := rfl
@[simp] theorem visited_alive : (s.visited loop i call c).alive = s.alive := rfl
@[simp] theorem visited_conns : (s.visited loop i call c).conns = s.conns := rfl
@[simp] theorem visited_baseLoop : (s.visited loop i call c).baseLoop = s.baseLoop := rfl
@[simp] theorem visited_removed : (s.visited loop i call c).removed = s.removed := rfl
@[simp] theorem visited_pendingFunctors_ :
    (s.visited loop i call c).pendingFunctors_ = s.pendingFunctors_ := rfl

variable [DecidableEq LoopId] (task : Task) (rest : List Task)

@[simp] theorem queueInLoop_listener : (s.queueInLoop loop task).listener = s.listener := rfl
@[simp] theorem queueInLoop_alive : (s.queueInLoop loop task).alive = s.alive := rfl
@[simp] theorem queueInLoop_conns : (s.queueInLoop loop task).conns = s.conns := rfl
@[simp] theorem queueInLoop_baseLoop : (s.queueInLoop loop task).baseLoop = s.baseLoop := rfl
@[simp] theorem queueInLoop_removed : (s.queueInLoop loop task).removed = s.removed := rfl
@[simp] theorem queueInLoop_conn : (s.queueInLoop loop task).conn = s.conn := rfl
@[simp] theorem queueInLoop_pendingFunctors_ :
    (s.queueInLoop loop task).pendingFunctors_ = push s.pendingFunctors_ loop task := rfl

@[simp] theorem leave_listener : (s.leave loop rest).listener = s.listener := rfl
@[simp] theorem leave_alive : (s.leave loop rest).alive = s.alive := rfl
@[simp] theorem leave_conns : (s.leave loop rest).conns = s.conns := rfl
@[simp] theorem leave_baseLoop : (s.leave loop rest).baseLoop = s.baseLoop := rfl
@[simp] theorem leave_removed : (s.leave loop rest).removed = s.removed := rfl
@[simp] theorem leave_conn : (s.leave loop rest).conn = s.conn := rfl
@[simp] theorem leave_pendingFunctors_ : (s.leave loop rest).pendingFunctors_ =
    Function.update s.pendingFunctors_ loop rest := rfl

end Simp

end Roster

end MuMuduo
