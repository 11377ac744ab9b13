/-
# A server with its loops and threads

`TcpServer.cc`, `TcpConnection.cc` and `Channel::handleEvent`, run by any number
of threads.  The state holds one connection, every event loop, and for each
thread the calls it is in.  A call is a `Frame`: what its function still has to
do.  A step is taken by one thread on its innermost frame and goes up to the next
load or store of `state_`, the next push to a queue or the next user callback, so
that lists of labels range over every interleaving.

The connection is one of many.  The others, the timers and the application's own
functors appear as user code: whatever they do to the loops is a label that any
thread may take wherever user code runs on it.

Some fields are not in the source.  `sends` lists the calls of `send` that found
`kConnected`, each with its thread and the string as it was when the call was
made; a pending `sendInLoop` carries the number of its call in this list.
`processed` lists the bytes `sendInLoop` worked on, under the same numbers.
`ran` lists the functions that were run on behalf of a loop, and `told` the calls
of the connection, message and close callbacks.
-/

import MuMuduo.Connection.Basic
import MuMuduo.EventLoop.Basic
import MuMuduo.Foundation.Run

namespace MuMuduo

open Foundation

/-- The loops of a server and the threads that constructed them.  A second loop
in a thread ends the process, so a thread has at most one
(`t_loopInThisThread`). -/
structure Threads (LoopId Tid : Type*) where
  baseLoop : LoopId
  ioLoop : LoopId
  threadId_ : LoopId → Tid
  loopInThisThread : Tid → Option LoopId
  loopInThisThread_eq : ∀ t l, loopInThisThread t = some l ↔ threadId_ l = t

/-- `isInLoopThread` of every loop, read as the comparison in its body. -/
def Threads.compared {LoopId Tid : Type*} [DecidableEq Tid] (cfg : Threads LoopId Tid)
    (l : LoopId) : Tid → Bool → Bool :=
  asCompared (cfg.threadId_ l)

/-- A base loop in thread `0`, one sub-loop in thread `1`, and a thread without a
loop. -/
def Threads.duo : Threads Bool (Fin 3) where
  baseLoop := false
  ioLoop := true
  threadId_ l := if l then 1 else 0
  loopInThisThread t := if t = 0 then some false else if t = 1 then some true else none
  loopInThisThread_eq := by decide

/-- One thread with one loop, which is the base loop and that of the connection. -/
def Threads.solo : Threads Unit Unit where
  baseLoop := ()
  ioLoop := ()
  threadId_ _ := ()
  loopInThisThread _ := some ()
  loopInThisThread_eq _ _ := iff_of_true rfl rfl

/-- The functors.  `sendInLoop` and `shutdownInLoop` are bound to `this`, the
other member functions and callbacks to a `shared_ptr`. -/
inductive Functor
  | sendInLoop (buf : ℕ) (len id : ℕ)
  | shutdownInLoop
  | connectEstablished
  | connectDestroyed
  | removeConnectionInLoop
  | writeComplate
  | highWaterMark (len : ℕ)
  | user (n : ℕ)
  deriving DecidableEq

/-- The functor holds a `shared_ptr` to the connection. -/
def Functor.owns : Functor → Bool
  | sendInLoop _ _ _ | shutdownInLoop | user _ => false
  | _ => true

/-- The functor of a callback that the connection queues. -/
def Functor.ofNotice : Notice → Functor
  | .writeComplate => .writeComplate
  | .highWaterMark len => .highWaterMark len

/-- The branches of `handleEventWithGuard`. -/
inductive Handler
  | close
  | error
  | read
  | write
  deriving DecidableEq

/-- `Channel::handleEventWithGuard`: which callbacks `revents_` asks for. -/
def handlers (revents_ : BitVec 32) : List Handler :=
  (if revents_ &&& EPOLLHUP != 0 ∧ ¬(revents_ &&& EPOLLIN != 0) then [.close] else []) ++
    (if revents_ &&& EPOLLERR != 0 then [.error] else []) ++
    (if revents_ &&& (EPOLLIN ||| EPOLLPRI) != 0 then [.read] else []) ++
    (if revents_ &&& EPOLLOUT != 0 then [.write] else [])

/-- What a call still has to do, from the next point at which another thread can
come in between. -/
inductive Frame (LoopId : Type*)
  /-- User code, which returns next. -/
  | callback
  /-- A local `shared_ptr`, dropped when the calls above it have returned. -/
  | hold
  /-- The call of a functor in `dopendingFunctors`. -/
  | functor (f : Functor)
  | runInLoop (l : LoopId) (f : Functor)
  /-- `queueInLoop`; the push is next. -/
  | queueInLoop (l : LoopId) (f : Functor)
  /-- `queueInLoop` or `quit` after the push or the store. -/
  | wakeup (l : LoopId)
  /-- `send`; the load of `state_` is next.  `data` is what the string holds. -/
  | send (buf : ℕ) (data : List UInt8)
  /-- `send` has found `kConnected`; `isInLoopThread` is next. -/
  | sendConnected (buf len id : ℕ)
  /-- `sendInLoop`; the load of `state_` is next. -/
  | sendInLoop (buf len id : ℕ)
  | sendInLoopRest (buf len id : ℕ)
  /-- `shutdown`; the load of `state_` is next. -/
  | shutdown
  /-- `shutdown` has found `kConnected`; the store is next. -/
  | shutdownStore
  | shutdownInLoop
  | connectEstablished
  /-- `connectDestroyed`; the load of `state_` is next. -/
  | connectDestroyed
  | connectDestroyedStore
  | connectDestroyedRemove
  /-- The connection callback is next: of `connectEstablished`, of `connectDestroyed`
  or of `handleClose`. -/
  | connectionCallback
  /-- `handleEventWithGuard` with the callbacks still to be made. -/
  | handleEvent (todo : List Handler)
  | handle (h : Handler)
  /-- `handleWrite` has drained the buffer; the load of `state_` is next. -/
  | handleWriteRest
  | removeConnection
  | removeConnectionInLoop
  deriving DecidableEq

/-- The function a functor calls. -/
def Functor.body {LoopId : Type*} : Functor → Frame LoopId
  | .sendInLoop buf len id => .sendInLoop buf len id
  | .shutdownInLoop => .shutdownInLoop
  | .connectEstablished => .connectEstablished
  | .connectDestroyed => .connectDestroyed
  | .removeConnectionInLoop => .removeConnectionInLoop
  | .writeComplate | .highWaterMark _ | .user _ => .callback

/-- A call of one of the callbacks that the connection makes itself; the connection
callback is shown `state_`. -/
inductive Told
  | connection (state : StateE)
  | message
  | close
  deriving DecidableEq

/-- What `readFd` returns in `handleRead`. -/
inductive ReadResult
  | data
  | closed
  | failed
  deriving DecidableEq

/-- The choices made in a step: the values of `isInLoopThread`, the results of
the system calls, and what is found in memory that holds nothing. -/
structure Oracle where
  raw : Bool
  write : WriteResult
  read : ReadResult
  garbage : ℕ → UInt8

/-- The oracle of a step that makes no choice. -/
def Oracle.plain : Oracle := ⟨false, .wrote 0, .failed, fun _ => 0⟩

/-- The connection and the server, the callers' strings, and the history. -/
structure Core (LoopId Tid : Type*) where
  conn : TcpConnection
  created : Bool
  /-- `connections_` holds the connection. -/
  inMap : Bool
  serverAlive : Bool
  /-- The connection's channel is in `activeChannels_`, with this `revents_`. -/
  active : Option (BitVec 32)
  /-- The bytes at `c_str()` of a string, `none` where there is no string. -/
  heap : ℕ → Option (List UInt8)
  sends : List (Tid × List UInt8)
  processed : List (ℕ × List UInt8)
  ran : List (LoopId × Functor × Tid)
  told : List Told

/-- The state of the program. -/
structure World (LoopId Tid : Type*) where
  core : Core LoopId Tid
  loops : LoopId → EventLoop Functor Tid
  frames : Tid → List (Frame LoopId)

/-- A call made by user code. -/
inductive UserCall (LoopId : Type*)
  | send (buf : ℕ)
  | shutdown
  | runInLoop (l : LoopId) (n : ℕ)
  | queueInLoop (l : LoopId) (n : ℕ)
  deriving DecidableEq

/-- The steps. -/
inductive Label (LoopId Tid : Type*)
  /-- A step of a loop's thread inside `loop()`.  Where `epoll_wait` returns,
  `reported` is what it reports for the connection's channel. -/
  | loop (l : LoopId) (a : LoopLabel Functor Tid) (reported : Option (BitVec 32))
  /-- `handleEvent` of the connection's channel. -/
  | event
  | newConnection
  /-- `~TcpServer`. -/
  | destroyServer
  | call (t : Tid) (c : UserCall LoopId)
  | quit (t : Tid) (l : LoopId) (raw : Bool)
  | wakeup (t : Tid) (l : LoopId)
  /-- A string is written, freed or allocated. -/
  | poke (buf : ℕ) (bytes : Option (List UInt8))
  /-- The next step of the innermost call of a thread. -/
  | step (t : Tid) (o : Oracle)

namespace Core

variable {LoopId Tid : Type*}

/-- A connection that has not been created yet, on the descriptor `sockfd`. -/
def init (conn : TcpConnection) : Core LoopId Tid where
  conn := conn
  created := false
  inMap := false
  serverAlive := true
  active := none
  heap := fun _ => none
  sends := []
  processed := []
  ran := []
  told := []

/-- The bytes that are read at `data`, `len` of them; where the string does not
reach, or is no more, whatever is there. -/
def bytesAt (w : Core LoopId Tid) (data len : ℕ) (garbage : ℕ → UInt8) : List UInt8 :=
  (List.range len).map fun i => ((w.heap data).bind (·[i]?)).getD (garbage i)

/-- `epoll_wait` may report `revents` for the connection's channel. -/
def reportable (w : Core LoopId Tid) (revents : BitVec 32) : Bool :=
  match w.conn.poller.interest w.conn.channel_.fd_ with
  | none => false
  | some event => revents != 0 && revents &&& ~~~(event.events ||| EPOLLERR ||| EPOLLHUP) == 0

variable (cfg : Threads LoopId Tid) (isIn : LoopId → Tid → Bool → Bool)

/-- One step of the innermost call of thread `t`: the state and the frames that
take its place.  The steps of `queueInLoop` are those of the loop and are taken
in `World.step`. -/
def frameStep (w : Core LoopId Tid) (t : Tid) (o : Oracle) :
    Frame LoopId → Core LoopId Tid × List (Frame LoopId)
  | .callback | .hold | .functor _ | .queueInLoop _ _ | .wakeup _ => (w, [])
  | .runInLoop l f =>
      if isIn l t o.raw then ({ w with ran := w.ran ++ [(l, f, t)] }, [f.body])
      else (w, [.queueInLoop l f])
  | .send buf data =>
      if w.conn.state_ = .kConnected then
        ({ w with sends := w.sends ++ [(t, data)] },
          [.sendConnected buf data.length w.sends.length])
      else (w, [])
  | .sendConnected buf len id =>
      if isIn cfg.ioLoop t o.raw then
        ({ w with ran := w.ran ++ [(cfg.ioLoop, .sendInLoop buf len id, t)] },
          [.sendInLoop buf len id])
      else (w, [.runInLoop cfg.ioLoop (.sendInLoop buf len id)])
  | .sendInLoop buf len id =>
      (w, if w.conn.state_ = .kDisconnected then [] else [.sendInLoopRest buf len id])
  | .sendInLoopRest buf len id =>
      let data := w.bytesAt buf len o.garbage
      let r := w.conn.sendInLoop data o.write
      ({ w with conn := r.1, processed := w.processed ++ [(id, data)] },
        r.2.toList.map fun n => .queueInLoop cfg.ioLoop (.ofNotice n))
  | .shutdown => (w, if w.conn.state_ = .kConnected then [.shutdownStore] else [])
  | .shutdownStore =>
      ({ w with conn := w.conn.setState .kDisconnecting }, [.runInLoop cfg.ioLoop .shutdownInLoop])
  | .shutdownInLoop => ({ w with conn := w.conn.shutdownInLoop }, [])
  | .connectEstablished =>
      ({ w with conn := w.conn.connectEstablished }, [.connectionCallback])
  | .connectDestroyed =>
      (w, if w.conn.state_ = .kConnected then [.connectDestroyedStore, .connectDestroyedRemove]
        else [.connectDestroyedRemove])
  | .connectDestroyedStore => ({ w with conn := w.conn.disconnect }, [.connectionCallback])
  | .connectDestroyedRemove => ({ w with conn := w.conn.perform .remove }, [])
  | .connectionCallback =>
      ({ w with told := w.told ++ [.connection w.conn.state_] }, [.callback])
  | .handleEvent [] => (w, [])
  | .handleEvent (h :: todo) => (w, [.handle h, .handleEvent todo])
  | .handle .close =>
      ({ w with conn := w.conn.handleClose }, [.connectionCallback, .removeConnection])
  | .handle .error => (w, [])
  | .handle .read => match o.read with
      | .data => ({ w with told := w.told ++ [.message] }, [.callback])
      | .closed => (w, [.handle .close])
      | .failed => (w, [])
  | .handle .write =>
      let r := w.conn.handleWrite o.write
      ({ w with conn := r.1 },
        if r.2 then
          (if w.conn.writeComplateCallback_ then [.queueInLoop cfg.ioLoop .writeComplate]
            else []) ++ [.handleWriteRest]
        else [])
  | .handleWriteRest =>
      if w.conn.state_ = .kDisconnecting then
        ({ w with ran := w.ran ++ [(cfg.ioLoop, .shutdownInLoop, t)] }, [.shutdownInLoop])
      else (w, [])
  | .removeConnection =>
      ({ w with told := w.told ++ [.close] }, [.runInLoop cfg.baseLoop .removeConnectionInLoop])
  | .removeConnectionInLoop =>
      ({ w with inMap := false }, [.queueInLoop cfg.ioLoop .connectDestroyed])

end Core

namespace World

variable {LoopId Tid : Type*} [DecidableEq LoopId] [DecidableEq Tid]

/-- Loops that have not been entered, and threads that are in no call. -/
def init (conn : TcpConnection) : World LoopId Tid where
  core := Core.init conn
  loops := fun _ => EventLoop.init
  frames := fun _ => []

variable (cfg : Threads LoopId Tid) (isIn : LoopId → Tid → Bool → Bool)

/-- User code is running on thread `t`, in none of the calls the model follows:
inside a callback, or outside of them on a thread that is not inside `loop()` or
is handling the event of some other channel. -/
def userCode (w : World LoopId Tid) (t : Tid) : Bool :=
  match w.frames t with
  | [] => match cfg.loopInThisThread t with
      | none => true
      | some l => match (w.loops l).pc with
          | .outside | .dispatch => true
          | _ => false
  | .callback :: _ => true
  | _ => false

/-- Put `frames` on the calls of thread `t`. -/
def push (w : World LoopId Tid) (t : Tid) (frames : List (Frame LoopId)) : World LoopId Tid :=
  { w with frames := Function.update w.frames t (frames ++ w.frames t) }

/-- Replace the calls of thread `t`. -/
def setStack (w : World LoopId Tid) (t : Tid) (frames : List (Frame LoopId)) : World LoopId Tid :=
  { w with frames := Function.update w.frames t frames }

def setLoop (w : World LoopId Tid) (l : LoopId) (s : EventLoop Functor Tid) : World LoopId Tid :=
  { w with loops := Function.update w.loops l s }

/-- What a step of the loop `l` asks of the dispatch: only registered channels
are reported, and the reported channel is handled before the functors are run. -/
def dispatches (w : World LoopId Tid) (l : LoopId) (a : LoopLabel Functor Tid)
    (reported : Option (BitVec 32)) : Bool :=
  match a with
  | .pollReturn => match reported with
      | none => true
      | some r => decide (l = cfg.ioLoop) && w.core.reportable r
  | .dispatched => decide (l ≠ cfg.ioLoop) || w.core.active.isNone
  | _ => true

/-- The functor that a step inside `loop()` starts. -/
def starts (w : World LoopId Tid) (l : LoopId) (a : LoopLabel Functor Tid) : Option Functor :=
  match a, (w.loops l).pc with
  | .start, .run _ (f :: _) => some f
  | _, _ => none

/-- The call of a functor in `dopendingFunctors`. -/
def startFunctor (w : World LoopId Tid) (l : LoopId) (f : Functor) : World LoopId Tid :=
  { w with core := { w.core with ran := w.core.ran ++ [(l, f, cfg.threadId_ l)] } }.setStack
    (cfg.threadId_ l) [f.body, .functor f]

def setActive (w : World LoopId Tid) (active : Option (BitVec 32)) : World LoopId Tid :=
  { w with core := { w.core with active := active } }

/-- A step of a loop's thread inside `loop()`. -/
def loopStep (w : World LoopId Tid) (l : LoopId) (a : LoopLabel Functor Tid)
    (reported : Option (BitVec 32)) : Option (World LoopId Tid) :=
  if w.frames (cfg.threadId_ l) = [] ∧ w.dispatches cfg l a reported then
    ((w.loops l).internal (cfg.threadId_ l) a).map fun s => match w.starts l a with
      | some f => (w.setLoop l s).startFunctor cfg l f
      | none => (w.setLoop l s).setActive
          (if l = cfg.ioLoop ∧ a.isPollReturn then reported else w.core.active)
  else none

/-- The frames of a call made by user code, which holds a `TcpConnectionPtr` for
the time of a call to the connection. -/
def callFrames (w : World LoopId Tid) : UserCall LoopId → Option (List (Frame LoopId))
  | .send buf => (w.core.heap buf).map fun data => [.send buf data, .hold]
  | .shutdown => some [.shutdown, .hold]
  | .runInLoop l n => some [.runInLoop l (.user n)]
  | .queueInLoop l n => some [.queueInLoop l (.user n)]

/-- The step of a thread whose innermost call is `queueInLoop` or `quit` after
its push or its store. -/
def wakeupStep (w : World LoopId Tid) (t : Tid) (l : LoopId) (rest : List (Frame LoopId)) :
    Option (World LoopId Tid) :=
  match (w.loops l).call t with
  | .checking => ((w.loops l).check t).map (w.setLoop l)
  | .waking => ((w.loops l).wake t).map (w.setLoop l)
  | .idle => some (w.setStack t rest)

/-- One step of the program. -/
def step (w : World LoopId Tid) : Label LoopId Tid → Option (World LoopId Tid)
  | .loop l a reported => w.loopStep cfg l a reported
  | .event => match w.core.active with
      | none => none
      | some revents =>
          if w.frames (cfg.threadId_ cfg.ioLoop) = [] ∧
              (w.loops cfg.ioLoop).pc.isDispatch then
            some ({ w with core := { w.core with active := none } }.push
              (cfg.threadId_ cfg.ioLoop) [.handleEvent (handlers revents), .hold])
          else none
  | .newConnection =>
      if w.core.created = false ∧ w.core.serverAlive ∧
          w.frames (cfg.threadId_ cfg.baseLoop) = [] ∧ (w.loops cfg.baseLoop).pc.isDispatch then
        some ({ w with core := { w.core with created := true, inMap := true } }.push
          (cfg.threadId_ cfg.baseLoop) [.runInLoop cfg.ioLoop .connectEstablished, .hold])
      else none
  | .destroyServer =>
      if w.core.serverAlive ∧ w.userCode cfg (cfg.threadId_ cfg.baseLoop) then
        if w.core.inMap then
          some ({ w with core := { w.core with inMap := false, serverAlive := false } }.push
            (cfg.threadId_ cfg.baseLoop) [.runInLoop cfg.ioLoop .connectDestroyed, .hold])
        else some { w with core := { w.core with serverAlive := false } }
      else none
  | .call t c =>
      if w.userCode cfg t then (w.callFrames c).map (w.push t) else none
  | .quit t l raw =>
      if w.userCode cfg t then
        ((w.loops l).quit (cfg.threadId_ l) (isIn l) t raw).map fun s =>
          (w.setLoop l s).push t [.wakeup l]
      else none
  | .wakeup t l =>
      if w.userCode cfg t then
        ((w.loops l).step (cfg.threadId_ l) (isIn l) (.wakeup t)).map (w.setLoop l)
      else none
  | .poke buf bytes =>
      some { w with core := { w.core with heap := Function.update w.core.heap buf bytes } }
  | .step t o => match w.frames t with
      | [] => none
      | .queueInLoop l f :: rest =>
          ((w.loops l).queueInLoop (cfg.threadId_ l) (isIn l) t f o.raw).map fun s =>
            (w.setLoop l s).setStack t (.wakeup l :: rest)
      | .wakeup l :: rest => w.wakeupStep t l rest
      | frame :: rest =>
          let r := w.core.frameStep cfg isIn t o frame
          some ({ w with core := r.1 }.setStack t (r.2 ++ rest))

/-! ### Runs -/

/-- Both loops are entered; the base loop accepts a connection and hands it to the
sub-loop, up to the query of `isInLoopThread` in `runInLoop`, which finds `raw`. -/
def accepting (raw : Bool) : List (Label Bool (Fin 3)) :=
  [.loop true .enter none, .loop true .clearQuit none, .loop true .test none,
    .loop false .enter none, .loop false .clearQuit none, .loop false .test none,
    .loop false .pollReturn none, .newConnection, .step 0 ⟨raw, .wrote 0, .failed, fun _ => 0⟩]

/-- The sub-loop wakes up with `reported` for the connection's channel, which it
does not handle, and goes on to its functors. -/
def waking (reported : Option (BitVec 32)) : List (Label Bool (Fin 3)) :=
  [.loop true .pollReturn reported, .loop true .headleRead none, .loop true .dispatched none,
    .loop true .raise none, .loop true .swap none]

/-- The sub-loop goes back to `epoll_wait`. -/
def sleeping : List (Label Bool (Fin 3)) := [.loop true .lower none, .loop true .test none]

/-- `n` steps of thread `t` that make no choice. -/
def steps (t : Fin 3) (n : ℕ) : List (Label Bool (Fin 3)) := List.replicate n (.step t .plain)

/-- Thread `2` calls `send` with the string at `7` and returns from it. -/
def sending : List (Label Bool (Fin 3)) :=
  [.poke 7 (some [1, 2, 3]), .call 2 (.send 7)] ++ steps 2 7

/-- The sub-loop wakes up and starts its first functor, of which it takes `n`
steps. -/
def starting (n : ℕ) : List (Label Bool (Fin 3)) :=
  waking none ++ [.loop true .start none] ++ steps 1 n

/-- A connection is accepted and established. -/
def opening : List (Label Bool (Fin 3)) :=
  accepting false ++ steps 0 4 ++ starting 4 ++ sleeping

/-- A step of the sub-loop's thread in which the kernel takes `n` bytes. -/
def taking (n : ℕ) : List (Label Bool (Fin 3)) :=
  [.step 1 ⟨false, .wrote n, .failed, fun _ => 0⟩]

/-- The channel is reported readable, and `handleRead` finds that the peer has closed:
`readFd` returns `0`. -/
def ending : List (Label Bool (Fin 3)) :=
  [.loop true .pollReturn (some EPOLLIN), .event] ++ steps 1 1 ++
    [.step 1 ⟨false, .wrote 0, .closed, fun _ => 0⟩]

/-- The peer hangs up: `handleClose` and `removeConnection` on the sub-loop, the
removal on the base loop, and `connectDestroyed` in the next batch of the
sub-loop. -/
def hangingUp : List (Label Bool (Fin 3)) :=
  ending ++ steps 1 10 ++
    [.loop false .dispatched none, .loop false .raise none, .loop false .swap none,
      .loop false .start none] ++ steps 0 5 ++
    [.loop false .lower none, .loop true .headleRead none, .loop true .dispatched none,
      .loop true .raise none, .loop true .swap none, .loop true .start none] ++ steps 1 3

/-- The sub-loop sees the peer hang up and handles it up to `removeConnection`, of
which it takes the first step. -/
def closing : List (Label Bool (Fin 3)) := ending ++ steps 1 4

/-- The connection callback sends the string at `7` and the kernel takes one byte of
it; thread `2` calls `send` and `shutdown`; then the channel is reported writable
and the kernel takes the rest. -/
def draining : List (Label Bool (Fin 3)) :=
  accepting false ++ steps 0 4 ++ starting 2 ++
    [.poke 7 (some [1, 2, 3]), .call 1 (.send 7)] ++ steps 1 3 ++ taking 1 ++ steps 1 3 ++
    sleeping ++ [.call 2 (.send 7)] ++ steps 2 7 ++ [.call 2 .shutdown] ++ steps 2 2 ++
    [.loop true .pollReturn (some EPOLLOUT), .event] ++ steps 1 1 ++ taking 2 ++ steps 1 5

/-- Thread `2` calls `send`; before the sub-loop runs its functor it handles an event of
the channel, and the message callback calls `send` on the sub-loop's own thread. -/
def overtaking : List (Label Bool (Fin 3)) :=
  opening ++ sending ++ [.loop true .pollReturn (some EPOLLIN), .event] ++ steps 1 1 ++
    [.step 1 ⟨false, .wrote 0, .data, fun _ => 0⟩, .call 1 (.send 7)] ++ steps 1 8 ++
    [.loop true .headleRead none, .loop true .dispatched none, .loop true .raise none,
      .loop true .swap none, .loop true .start none] ++ steps 1 2

/-- The connection callback sends the string at `7` and the kernel takes one byte of it;
thread `2` calls `send`, and `shutdown` up to its test; the peer hangs up; thread `2`
stores `kDisconnecting`, and the sub-loop runs the `sendInLoop` of thread `2`. -/
def late : List (Label Bool (Fin 3)) :=
  accepting false ++ steps 0 4 ++ starting 2 ++
    [.poke 7 (some [1, 2, 3]), .call 1 (.send 7)] ++ steps 1 3 ++ taking 1 ++ steps 1 3 ++
    sleeping ++ [.call 2 (.send 7)] ++ steps 2 7 ++ [.call 2 .shutdown] ++ steps 2 1 ++
    ending ++ steps 1 10 ++ steps 2 1 ++
    [.loop true .headleRead none, .loop true .dispatched none, .loop true .raise none,
      .loop true .swap none, .loop true .start none] ++ steps 1 1 ++ taking 3

/-- `n` steps of the only thread that make no choice. -/
def turns (n : ℕ) : List (Label Unit Unit) := List.replicate n (.step () .plain)

/-- On a server with one loop a connection is established, whose callback sends the string
at `7`, and the kernel takes one byte of it. -/
def greeting : List (Label Unit Unit) :=
  [.loop () .enter none, .loop () .clearQuit none, .loop () .test none,
    .loop () .pollReturn none, .newConnection] ++ turns 3 ++
    [.poke 7 (some [1, 2, 3]), .call () (.send 7)] ++ turns 3 ++
    [.step () ⟨true, .wrote 1, .failed, fun _ => 0⟩] ++ turns 3

/-- Then the channel is reported readable and writable; the message callback calls
`shutdown` and destroys the server, up to the last step of `connectDestroyed`. -/
def replying : List (Label Unit Unit) :=
  greeting ++ [.loop () .dispatched none, .loop () .raise none, .loop () .swap none,
    .loop () .lower none, .loop () .test none,
    .loop () .pollReturn (some (EPOLLIN ||| EPOLLOUT)), .event, .step () .plain,
    .step () ⟨true, .wrote 0, .data, fun _ => 0⟩, .call () .shutdown] ++ turns 5 ++
    [.destroyServer] ++ turns 2

/-- The callback returns, and `handleWrite` of the same event writes what was left. -/
def replied : List (Label Unit Unit) :=
  turns 3 ++ [.step () ⟨true, .wrote 2, .failed, fun _ => 0⟩] ++ turns 4

/-- The connection of these runs. -/
def fresh : World Bool (Fin 3) := init (TcpConnection.ofFd 5 64 true true)

example : (exec (step .duo Threads.duo.compared) fresh opening).map
    (fun w => (w.core.conn.state_, w.frames 0, w.frames 1)) = some (.kConnected, [], []) := by
  decide

end World

end MuMuduo
