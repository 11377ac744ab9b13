/-
# Accepted descriptors

The way of a descriptor from `accept4` into `connections_`: `Socket::accept`,
`Acceptor::handleRead`, `TcpServer::newConnection` and
`EventLoopThreadPool::getNextLoop`, over the map of `MuMuduo.Server.Names`.  The
kernel answers with a descriptor that is not open, or with an `errno`; the
connections go, and close their descriptors, whenever nothing holds them any more,
and the rest of the process opens and closes descriptors of its own.

`handleRead` takes a descriptor for a success from `0` on and `Socket::accept` only
from `1` on.  So descriptor `0` is accepted, stored and served like any other, but
its connection keeps the address `InetAddress peerAddr` was declared with
(`conserved_iff_labelled`, `not_conserved_zero`).
-/

import Mathlib.Data.List.Range
import MuMuduo.Server.Names

namespace MuMuduo

open Foundation

deriving instance DecidableEq for InetAddress

namespace InetAddress

/-- `InetAddress()`: the default arguments of the constructor. -/
def initial : InetAddress := ⟨(127, 0, 0, 1), 0⟩

/-- A `sockaddr_in` after `bzero`. -/
def zero : InetAddress := ⟨(0, 0, 0, 0), 0⟩

end InetAddress

/-- What `accept4` does: it returns a descriptor and fills in the address of the
peer, or it returns `-1` and sets `errno`. -/
inductive AcceptResult
  | accepted (fd : ℕ) (addr : InetAddress)
  | failed (errno : ℤ)

namespace AcceptResult

def connfd : AcceptResult → ℤ
  | .accepted fd _ => fd
  | .failed _ => -1

def addr : AcceptResult → InetAddress
  | .accepted _ addr => addr
  | .failed _ => InetAddress.zero

def errno : AcceptResult → ℤ
  | .accepted _ _ => 0
  | .failed errno => errno

end AcceptResult

/-- `Socket::accept`: the result, and what `*peeraddr` is afterwards. -/
def Socket.accept (peeraddr : InetAddress) (r : AcceptResult) : ℤ × InetAddress :=
  (r.connfd, if 0 < r.connfd then r.addr else peeraddr)

namespace Acceptor

/-- What `Acceptor::handleRead` does with the result: it calls the callback, closes
the descriptor, or logs the error, with a second line at the limit. -/
inductive Handling
  | newConnecionCallback (connfd : ℤ) (peerAddr : InetAddress)
  | close (connfd : ℤ)
  | error (reachedLimit : Bool)

/-- `EMFILE`. -/
def EMFILE : ℤ := 24

/-- `Acceptor::handleRead`. -/
def handleRead (newConnecionCallback_ : Bool) (r : AcceptResult) : Handling :=
  let (connfd, peerAddr) := Socket.accept InetAddress.initial r
  if 0 ≤ connfd then
    if newConnecionCallback_ then .newConnecionCallback connfd peerAddr else .close connfd
  else .error (r.errno = EMFILE)

/-- **The two tests of the descriptor.**  Every descriptor goes to the callback, and
all of them but `0` with the address of the peer. -/
theorem handleRead_accepted (fd : ℕ) (addr : InetAddress) :
    handleRead true (.accepted fd addr) =
      .newConnecionCallback fd (if fd = 0 then InetAddress.initial else addr) := by
  rcases Nat.eq_zero_or_pos fd with rfl | hpos
  · rfl
  · have hfd : (0 : ℤ) < fd := Int.natCast_pos.2 hpos
    simp [handleRead, Socket.accept, AcceptResult.connfd, AcceptResult.addr, hfd.le,
      Nat.pos_iff_ne_zero.1 hpos]

/-- Without a callback the descriptor is closed. -/
theorem handleRead_close (fd : ℕ) (addr : InetAddress) :
    handleRead false (.accepted fd addr) = .close fd := by
  simp [handleRead, Socket.accept, AcceptResult.connfd]

/-- A failure is logged, and at the limit of descriptors a second time. -/
theorem handleRead_failed (callback : Bool) (errno : ℤ) :
    handleRead callback (.failed errno) = .error (errno = EMFILE) := rfl

end Acceptor

/-! ### The next loop -/

/-- The members of `EventLoopThreadPool` that choose a loop; `next_` is in range. -/
structure EventLoopThreadPool (LoopId : Type*) where
  baseLoop_ : LoopId
  loops_ : List LoopId
  next_ : ℕ
  next_lt : loops_ ≠ [] → next_ < loops_.length

namespace EventLoopThreadPool

variable {LoopId : Type*}

/-- The pool as `start` leaves it, with one loop for each thread. -/
def ofLoops (baseLoop : LoopId) (loops : List LoopId) : EventLoopThreadPool LoopId where
  baseLoop_ := baseLoop
  loops_ := loops
  next_ := 0
  next_lt := List.length_pos_of_ne_nil

/-- `next_` after `next_++` and the wrap. -/
def advance (p : EventLoopThreadPool LoopId) : ℕ :=
  if p.loops_.length ≤ p.next_ + 1 then 0 else p.next_ + 1

/-- `next_` stays in the range of `loops_`. -/
theorem advance_lt (p : EventLoopThreadPool LoopId) (h : p.loops_ ≠ []) :
    p.advance < p.loops_.length := by
  have hpos := List.length_pos_of_ne_nil h
  unfold advance
  split <;> omega

/-- `getNextLoop`. -/
def getNextLoop (p : EventLoopThreadPool LoopId) : LoopId × EventLoopThreadPool LoopId :=
  if h : p.loops_ = [] then (p.baseLoop_, p)
  else (p.loops_.get ⟨p.next_, p.next_lt h⟩, { p with next_ := p.advance, next_lt := p.advance_lt })

/-- `getAllLoops`. -/
def getAllLoops (p : EventLoopThreadPool LoopId) : List LoopId :=
  if p.loops_ = [] then [p.baseLoop_] else p.loops_

/-- The pool has chosen `k` loops so far. -/
def Turn (p : EventLoopThreadPool LoopId) (k : ℕ) : Prop :=
  p.loops_ ≠ [] → p.next_ = k % p.loops_.length

/-- Round robin: the loop of the `k`-th connection. -/
def loopFor (p : EventLoopThreadPool LoopId) (k : ℕ) : Option LoopId :=
  p.getAllLoops[k % p.getAllLoops.length]?

/-- At the start no loop has been chosen. -/
theorem turn_ofLoops (baseLoop : LoopId) (loops : List LoopId) :
    (ofLoops baseLoop loops).Turn 0 := fun _ => (Nat.zero_mod _).symm

@[simp] theorem getAllLoops_getNextLoop (p : EventLoopThreadPool LoopId) :
    p.getNextLoop.2.getAllLoops = p.getAllLoops := by
  unfold getNextLoop
  split <;> rfl

@[simp] theorem loopFor_getNextLoop (p : EventLoopThreadPool LoopId) (k : ℕ) :
    p.getNextLoop.2.loopFor k = p.loopFor k := by
  simp only [loopFor, getAllLoops_getNextLoop]

/-- The loop chosen is one of the pool. -/
theorem getNextLoop_mem (p : EventLoopThreadPool LoopId) : p.getNextLoop.1 ∈ p.getAllLoops := by
  unfold getNextLoop getAllLoops
  split
  · exact List.mem_singleton_self _
  · exact List.get_mem _ _

/-- **Round robin.**  The `k`-th choice is loop `k` modulo their number, and the
base loop if there is no other. -/
theorem Turn.loopFor_eq {p : EventLoopThreadPool LoopId} {k : ℕ} (h : p.Turn k) :
    p.loopFor k = some p.getNextLoop.1 := by
  unfold loopFor getNextLoop getAllLoops
  split
  next he => simp [Nat.mod_one]
  next hne =>
    rw [← h hne, List.getElem?_eq_getElem (p.next_lt hne)]
    rfl

/-- **One more loop is chosen**, the next in turn. -/
theorem Turn.getNextLoop {p : EventLoopThreadPool LoopId} {k : ℕ} (h : p.Turn k) :
    p.getNextLoop.2.Turn (k + 1) := by
  by_cases he : p.loops_ = []
  · have hp : p.getNextLoop.2 = p := by rw [EventLoopThreadPool.getNextLoop, dif_pos he]
    rw [hp]
    exact fun hne => absurd he hne
  · have hnext : p.getNextLoop.2.next_ = p.advance := by
      rw [EventLoopThreadPool.getNextLoop, dif_neg he]
    have hloops : p.getNextLoop.2.loops_ = p.loops_ := by
      rw [EventLoopThreadPool.getNextLoop, dif_neg he]
    intro _
    have hlt := p.next_lt he
    rw [hnext, hloops, advance, Nat.add_mod, ← h he]
    split_ifs with hwrap
    · have hlen : p.next_ + 1 = p.loops_.length := by omega
      rw [Nat.add_mod_mod, hlen, Nat.mod_self]
    · rw [Nat.add_mod_mod, Nat.mod_eq_of_lt (Nat.lt_of_not_le hwrap)]

end EventLoopThreadPool

/-! ### The listener -/

/-- The members of `TcpConnection` that the constructor sets for good. -/
structure Endpoint (LoopId : Type*) where
  loop_ : LoopId
  name_ : List Char
  socket_ : ℤ
  localAddr_ : InetAddress
  peerAddr_ : InetAddress

/-- `TcpServer` with its `Acceptor` and its pool, the connections created so far and
those of them destroyed, the calls of `runInLoop(connectEstablished)` with the loop
and the connection of each, and the descriptors that are open in the process. -/
structure Listener (LoopId : Type*) where
  newConnecionCallback_ : Bool
  server : ConnectionMap
  threadPool_ : EventLoopThreadPool LoopId
  conns : List (Endpoint LoopId)
  destroyed : List ℕ
  handed : List (LoopId × ℕ)
  used : ℤ → Bool

namespace Listener

variable {LoopId : Type*}

/-- The steps: a return of `accept4` to `handleRead`, with what `getsockname` then
says; a removal from the map; the end of a connection that nothing holds any more; and
`open` and `close` in the rest of the process. -/
inductive Label
  | handleRead (r : AcceptResult) (sockname : Option InetAddress)
  | removeConnectionInLoop (conn : ℕ)
  | destroy (conn : ℕ)
  | openOther (fd : ℕ)
  | closeOther (fd : ℕ)

/-- A server that listens, with or without the callback that its constructor sets. -/
def ofServer (newConnecionCallback : Bool) (nameArg : List Char) (listenAddr : InetAddress)
    (baseLoop : LoopId) (loops : List LoopId) (used : ℤ → Bool) : Listener LoopId where
  newConnecionCallback_ := newConnecionCallback
  server := ConnectionMap.ofServer nameArg listenAddr
  threadPool_ := EventLoopThreadPool.ofLoops baseLoop loops
  conns := []
  destroyed := []
  handed := []
  used := used

/-- Connection `i` exists, and its `Socket` closes `fd` when it goes. -/
def owns (s : Listener LoopId) (fd : ℤ) (i : ℕ) : Bool :=
  decide (i ∉ s.destroyed) && decide (s.conns[i]?.map Endpoint.socket_ = some fd)

/-- The connections that own `fd`. -/
def owners (s : Listener LoopId) (fd : ℤ) : List ℕ := (List.range s.conns.length).filter (s.owns fd)

/-- The loops that connection `i` was handed over to. -/
def handedTo (s : Listener LoopId) (i : ℕ) : List (LoopId × ℕ) :=
  s.handed.filter fun p => decide (p.2 = i)

def opened (s : Listener LoopId) (fd : ℤ) : Listener LoopId :=
  { s with used := Function.update s.used fd true }

def closed (s : Listener LoopId) (fd : ℤ) : Listener LoopId :=
  { s with used := Function.update s.used fd false }

/-- `TcpServer::newConnection`.  When `getsockname` fails, `local` stays as `bzero`
left it. -/
def newConnection (s : Listener LoopId) (sockfd : ℤ) (peerAddr : InetAddress)
    (sockname : Option InetAddress) : Listener LoopId :=
  let (ioLoop, pool) := s.threadPool_.getNextLoop
  { s with
    threadPool_ := pool
    server := s.server.newConnection
    conns := s.conns ++ [⟨ioLoop, s.server.connName, sockfd, sockname.getD InetAddress.zero,
      peerAddr⟩]
    handed := s.handed ++ [(ioLoop, s.conns.length)] }

/-- `Acceptor::handleRead` under the server. -/
def handleRead (s : Listener LoopId) (r : AcceptResult) (sockname : Option InetAddress) :
    Listener LoopId :=
  match Acceptor.handleRead s.newConnecionCallback_ r with
  | .newConnecionCallback connfd peerAddr => s.newConnection connfd peerAddr sockname
  | .close connfd => s.closed connfd
  | .error _ => s

/-- `~TcpConnection` of connection `i`, whose `~Socket` closes the descriptor. -/
def destroy (s : Listener LoopId) (i : ℕ) (conn : Endpoint LoopId) : Listener LoopId :=
  { s.closed conn.socket_ with destroyed := i :: s.destroyed }

/-- One step.  A new descriptor is one that is not open, a connection goes when the
map does not hold it, and no other code closes the descriptor of a connection. -/
def step (s : Listener LoopId) : Label → Option (Listener LoopId)
  | .handleRead (.accepted fd addr) sockname =>
      if s.used fd then none else some ((s.opened fd).handleRead (.accepted fd addr) sockname)
  | .handleRead (.failed errno) sockname => some (s.handleRead (.failed errno) sockname)
  | .removeConnectionInLoop conn =>
      if conn ∈ s.destroyed then none
      else (s.server.step (.removeConnectionInLoop conn)).map fun m => { s with server := m }
  | .destroy i =>
      s.conns[i]?.bind fun conn =>
        if i ∈ s.destroyed ∨ s.server.connections_ conn.name_ = some i then none
        else some (s.destroy i conn)
  | .openOther fd => if s.used fd then none else some (s.opened fd)
  | .closeOther fd => if s.used fd ∧ s.owners fd = [] then some (s.closed fd) else none

variable {s s' : Listener LoopId} {fd : ℤ} {addr : InetAddress} {sockname : Option InetAddress}

section Simp

variable (s : Listener LoopId) (fd : ℤ)

@[simp] theorem owners_opened : (s.opened fd).owners = s.owners := rfl
@[simp] theorem owners_closed : (s.closed fd).owners = s.owners := rfl

end Simp

/-- The owners of a descriptor are the connections on it that have not been destroyed. -/
theorem mem_owners {i : ℕ} : i ∈ s.owners fd ↔
    i ∉ s.destroyed ∧ ∃ conn, s.conns[i]? = some conn ∧ conn.socket_ = fd := by
  simp only [owners, owns, List.mem_filter, List.mem_range, Bool.and_eq_true, decide_eq_true_eq,
    Option.map_eq_some_iff]
  refine ⟨fun h => h.2, fun h => ⟨?_, h⟩⟩
  obtain ⟨-, conn, hconn, -⟩ := h
  exact (List.getElem?_eq_some_iff.1 hconn).1

/-- The new connection is one more owner of its descriptor. -/
theorem owners_newConnection (hd : s.conns.length ∉ s.destroyed) (sockfd : ℤ) :
    (s.newConnection sockfd addr sockname).owners fd =
      s.owners fd ++ if sockfd = fd then [s.conns.length] else [] := by
  have hlen : (s.newConnection sockfd addr sockname).conns.length = s.conns.length + 1 :=
    List.length_append
  have hold : ∀ i ∈ List.range s.conns.length,
      (s.newConnection sockfd addr sockname).owns fd i = s.owns fd i := by
    intro i hi
    simp only [owns, newConnection, List.getElem?_append_left (List.mem_range.1 hi)]
    rfl
  have hnew : (s.newConnection sockfd addr sockname).owns fd s.conns.length =
      decide (sockfd = fd) := by
    simp [owns, newConnection, hd]
  rw [owners, hlen, List.range_succ, List.filter_append, List.filter_congr hold,
    List.filter_singleton, hnew, Bool.cond_decide]
  rfl

/-- A connection that goes is no owner any more. -/
theorem owners_destroy (i : ℕ) (conn : Endpoint LoopId) :
    (s.destroy i conn).owners fd = (s.owners fd).filter fun j => decide (j ≠ i) := by
  rw [owners, owners, List.filter_filter]
  refine List.filter_congr fun j _ => ?_
  simp only [owns, destroy, closed, List.mem_cons, not_or, Bool.decide_and, Bool.and_assoc]
  rfl

/-- What holds of a server that listens: no number is used before its connection
exists, a descriptor has one owner at most and is then open, and the pool has chosen as
many loops as there are connections. -/
structure Kept (s : Listener LoopId) : Prop where
  created_eq : s.server.created = s.conns.map Endpoint.name_
  destroyed_lt : ∀ i ∈ s.destroyed, i < s.conns.length
  handed_lt : ∀ p ∈ s.handed, p.2 < s.conns.length
  used_of_owner : ∀ fd i, i ∈ s.owners fd → s.used fd = true
  owner_unique : ∀ fd i j, i ∈ s.owners fd → j ∈ s.owners fd → i = j
  turn : s.threadPool_.Turn s.conns.length
  loop_eq : ∀ i conn, s.conns[i]? = some conn → s.threadPool_.loopFor i = some conn.loop_

/-- A server that has accepted nothing yet. -/
theorem Kept.ofServer (callback : Bool) (nameArg : List Char) (listenAddr : InetAddress)
    (baseLoop : LoopId) (loops : List LoopId) (used : ℤ → Bool) :
    Kept (ofServer callback nameArg listenAddr baseLoop loops used) where
  created_eq := rfl
  destroyed_lt := by simp [Listener.ofServer]
  handed_lt := by simp [Listener.ofServer]
  used_of_owner := by simp [mem_owners, Listener.ofServer]
  owner_unique := by simp [mem_owners, Listener.ofServer]
  turn := EventLoopThreadPool.turn_ofLoops baseLoop loops
  loop_eq := by simp [Listener.ofServer]

/-- The next number has not been destroyed. -/
theorem Kept.length_notMem (h : Kept s) : s.conns.length ∉ s.destroyed := fun hd =>
  Nat.lt_irrefl _ (h.destroyed_lt _ hd)

/-- A descriptor that is not open has no owner. -/
theorem Kept.owners_eq_nil (h : Kept s) (hu : s.used fd = false) : s.owners fd = [] :=
  List.eq_nil_iff_forall_not_mem.2 fun i hi => by simp [h.used_of_owner fd i hi] at hu

/-- A descriptor opened elsewhere is nobody's. -/
theorem Kept.opened (h : Kept s) (fd : ℤ) : Kept (s.opened fd) where
  created_eq := h.created_eq
  destroyed_lt := h.destroyed_lt
  handed_lt := h.handed_lt
  used_of_owner fd' i hi := by
    by_cases hfd : fd' = fd
    · rw [hfd]
      exact Function.update_self ..
    · exact (Function.update_of_ne hfd ..).trans (h.used_of_owner fd' i hi)
  owner_unique := h.owner_unique
  turn := h.turn
  loop_eq := h.loop_eq

/-- A descriptor may be closed that no connection owns. -/
theorem Kept.closed (h : Kept s) (ho : s.owners fd = []) : Kept (s.closed fd) where
  created_eq := h.created_eq
  destroyed_lt := h.destroyed_lt
  handed_lt := h.handed_lt
  used_of_owner fd' i hi := by
    have hfd : fd' ≠ fd := by
      rintro rfl
      rw [owners_closed, ho] at hi
      cases hi
    exact (Function.update_of_ne hfd ..).trans (h.used_of_owner fd' i hi)
  owner_unique := h.owner_unique
  turn := h.turn
  loop_eq := h.loop_eq

/-- The destruction of a connection takes its descriptor along. -/
theorem Kept.destroy (h : Kept s) {i : ℕ} {conn : Endpoint LoopId} (hi : s.conns[i]? = some conn)
    (hd : i ∉ s.destroyed) : Kept (s.destroy i conn) where
  created_eq := h.created_eq
  destroyed_lt j hj := by
    rcases List.mem_cons.1 hj with rfl | hj
    · exact (List.getElem?_eq_some_iff.1 hi).1
    · exact h.destroyed_lt j hj
  handed_lt := h.handed_lt
  used_of_owner fd j hj := by
    rw [owners_destroy, List.mem_filter, decide_eq_true_eq] at hj
    have hfd : fd ≠ conn.socket_ := by
      rintro rfl
      exact hj.2 (h.owner_unique _ j i hj.1 (mem_owners.2 ⟨hd, conn, hi, rfl⟩))
    exact (Function.update_of_ne hfd ..).trans (h.used_of_owner fd j hj.1)
  owner_unique fd j k hj hk := by
    rw [owners_destroy, List.mem_filter] at hj hk
    exact h.owner_unique fd j k hj.1 hk.1
  turn := h.turn
  loop_eq := h.loop_eq

/-- No connection but the new one becomes an owner. -/
theorem Kept.owner_newConnection (h : Kept s) {fd' : ℤ} {i : ℕ}
    (hi : i ∈ (s.newConnection fd addr sockname).owners fd') :
    i ∈ s.owners fd' ∨ fd = fd' ∧ i = s.conns.length := by
  rw [owners_newConnection h.length_notMem, List.mem_append] at hi
  refine hi.imp_right fun hi => ?_
  split_ifs at hi with hfd
  · exact ⟨hfd, List.mem_singleton.1 hi⟩
  · cases hi

/-- The new connection has the next loop in turn, the others keep theirs. -/
theorem Kept.loop_newConnection (h : Kept s) {i : ℕ} {conn : Endpoint LoopId}
    (hi : (s.newConnection fd addr sockname).conns[i]? = some conn) :
    s.threadPool_.loopFor i = some conn.loop_ := by
  rcases Nat.lt_or_ge i s.conns.length with hlt | hge
  · exact h.loop_eq i conn ((List.getElem?_append_left hlt).symm.trans hi)
  · have hi' := (List.getElem?_append_right hge).symm.trans hi
    rw [List.getElem?_singleton] at hi'
    split_ifs at hi' with h0
    obtain rfl := Option.some.inj hi'
    have hin : i = s.conns.length := by omega
    exact hin ▸ h.turn.loopFor_eq

/-- **A new connection** becomes the owner of its descriptor. -/
theorem Kept.newConnection (h : Kept s) (hu : s.used fd = true) (ho : s.owners fd = [])
    (addr : InetAddress) (sockname : Option InetAddress) :
    Kept (s.newConnection fd addr sockname) := by
  have hlen : (s.newConnection fd addr sockname).conns.length = s.conns.length + 1 :=
    List.length_append
  refine ⟨?_, fun i hi => ?_, fun p hp => ?_, fun fd' i hi => ?_, fun fd' i j hi hj => ?_, ?_,
    fun i conn hi => ?_⟩
  · show s.server.created ++ [s.server.connName] = _
    rw [h.created_eq, Listener.newConnection, List.map_append]
    rfl
  · exact hlen ▸ Nat.lt_succ_of_lt (h.destroyed_lt i hi)
  · rw [hlen]
    rcases List.mem_append.1 hp with hp | hp
    · exact Nat.lt_succ_of_lt (h.handed_lt p hp)
    · rw [List.mem_singleton.1 hp]
      exact Nat.lt_succ_self _
  · rcases h.owner_newConnection hi with hi | ⟨rfl, -⟩
    · exact h.used_of_owner fd' i hi
    · exact hu
  · rcases h.owner_newConnection hi with hi | ⟨rfl, rfl⟩ <;>
      rcases h.owner_newConnection hj with hj | ⟨he, rfl⟩
    · exact h.owner_unique fd' i j hi hj
    · rw [← he, ho] at hi
      cases hi
    · rw [ho] at hj
      cases hj
    · rfl
  · rw [hlen]
    exact h.turn.getNextLoop
  · show s.threadPool_.getNextLoop.2.loopFor i = _
    rw [EventLoopThreadPool.loopFor_getNextLoop]
    exact h.loop_newConnection hi

/-- What becomes of a descriptor; `0` leaves the address as it was. -/
theorem handleRead_accepted (s : Listener LoopId) (fd : ℕ) (addr : InetAddress)
    (sockname : Option InetAddress) :
    s.handleRead (.accepted fd addr) sockname =
      if s.newConnecionCallback_ then
        s.newConnection fd (if fd = 0 then InetAddress.initial else addr) sockname
      else s.closed fd := by
  rcases hcb : s.newConnecionCallback_ with - | -
  · simp [handleRead, hcb, Acceptor.handleRead_close]
  · simp [handleRead, hcb, Acceptor.handleRead_accepted]

/-- A failure of `accept4` changes nothing. -/
theorem handleRead_failed (s : Listener LoopId) (errno : ℤ) (sockname : Option InetAddress) :
    s.handleRead (.failed errno) sockname = s := by
  rw [handleRead, Acceptor.handleRead_failed]

/-- A descriptor that was not open is open when the callback gets it, and closed
without one. -/
theorem step_accepted_iff {fd : ℕ} :
    s.step (.handleRead (.accepted fd addr) sockname) = some s' ↔
      s.used fd = false ∧ s' = if s.newConnecionCallback_ then
        (s.opened fd).newConnection fd (if fd = 0 then InetAddress.initial else addr) sockname
      else (s.opened fd).closed fd := by
  have hcb : (s.opened fd).newConnecionCallback_ = s.newConnecionCallback_ := rfl
  rw [step, handleRead_accepted, hcb]
  rcases s.used fd with - | -
  · simpa using eq_comm
  · simp

/-- What a step can change. -/
inductive Change (s : Listener LoopId) : Listener LoopId → Prop
  | stored {fd : ℤ} (addr : InetAddress) (sockname : Option InetAddress)
      (hu : s.used fd = false) : Change s ((s.opened fd).newConnection fd addr sockname)
  | refused {fd : ℤ} (hu : s.used fd = false) : Change s ((s.opened fd).closed fd)
  | failed : Change s s
  | erased {i : ℕ} {m : ConnectionMap} (hm : s.server.step (.removeConnectionInLoop i) = some m) :
      Change s { s with server := m }
  | destroyed {i : ℕ} {conn : Endpoint LoopId} (hi : s.conns[i]? = some conn)
      (hd : i ∉ s.destroyed) : Change s (s.destroy i conn)
  | opened (fd : ℤ) : Change s (s.opened fd)
  | closed {fd : ℤ} (ho : s.owners fd = []) : Change s (s.closed fd)

/-- **What one step can do.** -/
theorem step_change {a : Label} (hs : s.step a = some s') : Change s s' := by
  cases a with
  | handleRead r sockname =>
      cases r with
      | accepted fd addr =>
          obtain ⟨hu, rfl⟩ := step_accepted_iff.1 hs
          split
          · exact .stored _ sockname hu
          · exact .refused hu
      | failed errno =>
          obtain rfl := Option.some.inj hs
          rw [handleRead_failed]
          exact .failed
  | removeConnectionInLoop conn =>
      obtain ⟨-, m, hm, rfl⟩ : _ ∧ _ := by simpa [step] using hs
      exact .erased hm
  | destroy i =>
      obtain ⟨conn, hi, hs⟩ := Option.bind_eq_some_iff.1 hs
      split_ifs at hs with hd
      obtain rfl := Option.some.inj hs
      exact .destroyed hi fun hmem => hd (Or.inl hmem)
  | openOther fd =>
      obtain ⟨-, rfl⟩ : _ ∧ _ := by simpa [step] using hs
      exact .opened fd
  | closeOther fd =>
      obtain ⟨⟨-, ho⟩, rfl⟩ : _ ∧ _ := by simpa [step] using hs
      exact .closed ho

/-- A step of the server is a call to its map, or leaves the map alone. -/
theorem Change.server (h : Change s s') :
    s'.server = s.server ∨ ∃ call, s.server.step call = some s'.server := by
  cases h with
  | stored addr sockname hu => exact Or.inr ⟨.newConnection, rfl⟩
  | erased hm => exact Or.inr ⟨_, hm⟩
  | _ => exact Or.inl rfl

/-- The loops of the pool stay the same. -/
theorem Change.getAllLoops (h : Change s s') :
    s'.threadPool_.getAllLoops = s.threadPool_.getAllLoops := by
  cases h with
  | stored addr sockname hu => exact EventLoopThreadPool.getAllLoops_getNextLoop _
  | _ => rfl

/-- **One step.** -/
theorem Kept.change (h : Kept s) (hs : Change s s') : Kept s' := by
  cases hs with
  | stored addr sockname hu =>
      exact (h.opened _).newConnection (Function.update_self ..) (h.owners_eq_nil hu) _ _
  | refused hu => exact (h.opened _).closed (h.owners_eq_nil hu)
  | failed => exact h
  | erased hm =>
      obtain ⟨name, -, rfl⟩ := Option.map_eq_some_iff.1 hm
      exact ⟨h.created_eq, h.destroyed_lt, h.handed_lt, h.used_of_owner, h.owner_unique, h.turn,
        h.loop_eq⟩
  | destroyed hi hd => exact h.destroy hi hd
  | opened fd => exact h.opened fd
  | closed ho => exact h.closed ho

section Run

variable {callback : Bool} {nameArg : List Char} {listenAddr : InetAddress} {baseLoop : LoopId}
  {loops : List LoopId} {used : ℤ → Bool} {as : List Label}

/-- **Along every run** a descriptor has one owner at most, and only while it is
open. -/
theorem Kept.of_exec
    (hs : exec step (Listener.ofServer callback nameArg listenAddr baseLoop loops used) as =
      some s) : Kept s :=
  exec_invariant' (fun _ _ _ h hs => h.change (step_change hs))
    (Kept.ofServer callback nameArg listenAddr baseLoop loops used) hs

/-- **The connections go round the loops**, in the order in which they were
accepted. -/
theorem loop_roundRobin
    (hs : exec step (ofServer callback nameArg listenAddr baseLoop loops used) as = some s)
    {i : ℕ} {conn : Endpoint LoopId} (hi : s.conns[i]? = some conn) :
    (EventLoopThreadPool.ofLoops baseLoop loops).loopFor i = some conn.loop_ := by
  have hall : s.threadPool_.getAllLoops =
      (EventLoopThreadPool.ofLoops baseLoop loops).getAllLoops :=
    exec_invariant' (I := fun s : Listener LoopId => s.threadPool_.getAllLoops =
      (EventLoopThreadPool.ofLoops baseLoop loops).getAllLoops)
      (fun _ _ _ h hs => (step_change hs).getAllLoops.trans h) rfl hs
  have hloop := (Kept.of_exec hs).loop_eq i conn hi
  rwa [EventLoopThreadPool.loopFor, hall] at hloop

/-- The next name is free as long as fewer than `2 ^ 31 - 1` connections have been
accepted. -/
theorem connName_free
    (hs : exec step (ofServer callback nameArg listenAddr baseLoop loops used) as = some s)
    (hlt : s.conns.length < 2 ^ 31 - 1) :
    s.server.connections_ s.server.connName = none := by
  obtain ⟨calls, hcalls⟩ := exec_project server (fun _ _ _ hs => (step_change hs).server) hs
  have hlen : s.server.created.length = s.conns.length := by
    rw [(Kept.of_exec hs).created_eq, List.length_map]
  have hlt' : s.server.created.length < 2 ^ 31 - 1 := hlen ▸ hlt
  exact (ConnectionMap.Kept.of_exec hcalls hlt').fresh hlt'

end Run

/-- The descriptor has found its place: the new connection is stored under a name that
was free, it alone owns the descriptor, it has the address of the peer, and it was
handed over once, to its own loop. -/
structure Housed (s s' : Listener LoopId) (fd : ℤ) (addr : InetAddress)
    (conn : Endpoint LoopId) : Prop where
  conns_eq : s'.conns = s.conns ++ [conn]
  socket_eq : conn.socket_ = fd
  owners_eq : s'.owners fd = [s.conns.length]
  used_eq : s'.used fd = true
  free : s.server.connections_ conn.name_ = none
  stored : s'.server.connections_ =
    Function.update s.server.connections_ conn.name_ (some s.conns.length)
  handed_eq : s'.handedTo s.conns.length = [(conn.loop_, s.conns.length)]
  loop_mem : conn.loop_ ∈ s.threadPool_.getAllLoops
  peerAddr_eq : conn.peerAddr_ = addr

/-- What becomes of the result of `accept4`: a descriptor is housed, or closed when
there is no callback, and a failure changes nothing. -/
def Settled (s s' : Listener LoopId) : AcceptResult → Prop
  | .accepted fd addr =>
      if s.newConnecionCallback_ then ∃ conn, Housed s s' fd addr conn
      else s'.used fd = false ∧ s'.owners fd = [] ∧ s'.conns = s.conns ∧ s'.server = s.server
  | .failed _ =>
      s'.server.connections_ = s.server.connections_ ∧
        s'.server.nextConnId_ = s.server.nextConnId_ ∧ s'.threadPool_.next_ = s.threadPool_.next_

/-- **Conserved and correctly labelled**, as a property of one step. -/
def Conserved (s : Listener LoopId) : Label → Prop
  | .handleRead r sockname => ∀ s', s.step (.handleRead r sockname) = some s' → Settled s s' r
  | _ => True

/-- The connection that is about to be made can be labelled correctly: its name is
free, and descriptor `0` comes from the address that stands there anyway. -/
def Labelled (s : Listener LoopId) : Label → Prop
  | .handleRead (.accepted fd addr) _ =>
      s.newConnecionCallback_ = true → s.used fd = false →
        s.server.connections_ s.server.connName = none ∧
          (fd = 0 → addr = InetAddress.initial)
  | _ => True

/-- The next number has not been handed to a loop. -/
theorem Kept.handedTo_eq_nil (h : Kept s) : s.handedTo s.conns.length = [] :=
  List.filter_eq_nil_iff.2 fun p hp => by
    simpa using Nat.ne_of_lt (h.handed_lt p hp)

/-- **Where a descriptor goes.**  All of it holds for every descriptor, but for the
address and the name. -/
theorem Kept.exists_housed_iff (h : Kept s) {fd : ℕ} (hu : s.used fd = false)
    (peerAddr addr : InetAddress) (sockname : Option InetAddress) :
    (∃ conn, Housed s ((s.opened fd).newConnection fd peerAddr sockname) fd addr conn) ↔
      s.server.connections_ s.server.connName = none ∧ peerAddr = addr := by
  have hconns : ((s.opened fd).newConnection fd peerAddr sockname).conns = s.conns ++
      [⟨s.threadPool_.getNextLoop.1, s.server.connName, fd, sockname.getD InetAddress.zero,
        peerAddr⟩] := rfl
  constructor
  · rintro ⟨conn, hc⟩
    have he := hconns.symm.trans hc.conns_eq
    rw [List.append_cancel_left_eq, List.cons.injEq] at he
    obtain rfl := he.1
    exact ⟨hc.free, hc.peerAddr_eq⟩
  · rintro ⟨hfree, rfl⟩
    refine ⟨_, hconns, rfl, ?_, Function.update_self .., hfree, ?_, ?_, ?_, rfl⟩
    · rw [owners_newConnection (h.opened fd).length_notMem, if_pos rfl, owners_opened,
        h.owners_eq_nil hu]
      rfl
    · have hlen : s.server.created.length = s.conns.length := by
        rw [h.created_eq, List.length_map]
      show Function.update s.server.connections_ _ (some s.server.created.length) = _
      rw [hlen]
      rfl
    · show (s.handed ++ [(s.threadPool_.getNextLoop.1, s.conns.length)]).filter _ = _
      rw [List.filter_append]
      show s.handedTo s.conns.length ++ _ = _
      rw [h.handedTo_eq_nil]
      simp
    · exact s.threadPool_.getNextLoop_mem

/-- **One step is conserved and labelled exactly when it can be.** -/
theorem Kept.conserved_iff (h : Kept s) (a : Label) : Conserved s a ↔ Labelled s a := by
  cases a with
  | handleRead r sockname =>
      cases r with
      | accepted fd addr =>
          rcases hu : s.used fd with - | -
          · have hs : s.step (.handleRead (.accepted fd addr) sockname) = some _ :=
              step_accepted_iff.2 ⟨hu, rfl⟩
            have hiff : Conserved s (.handleRead (.accepted fd addr) sockname) ↔
                Settled s _ (.accepted fd addr) :=
              ⟨fun hc => hc _ hs, fun hc s' hs' => Option.some.inj (hs.symm.trans hs') ▸ hc⟩
            rw [hiff, Settled]
            rcases hcb : s.newConnecionCallback_ with - | -
            · refine iff_of_true ⟨Function.update_self .., ?_, rfl, rfl⟩ fun hc => ?_
              · exact h.owners_eq_nil hu
              · simp [hcb] at hc
            · simp only [if_true, Labelled, hcb, hu, forall_const]
              rw [h.exists_housed_iff hu]
              refine and_congr_right fun _ => ?_
              split_ifs with h0
              · exact ⟨fun he _ => he.symm, fun he => (he h0).symm⟩
              · exact iff_of_true rfl fun hf => absurd hf h0
          · refine iff_of_true (fun s' hs' => ?_) fun _ hf => ?_
            · simp [(step_accepted_iff.1 hs').1] at hu
            · simp [hu] at hf
      | failed errno =>
          refine iff_of_true (fun s' hs' => ?_) trivial
          obtain rfl := Option.some.inj hs'
          rw [handleRead_failed]
          exact ⟨rfl, rfl, rfl⟩
  | _ => exact Iff.rfl

/-- **Accepted descriptors are conserved and correctly labelled exactly when** no
connection stands under the next name and descriptor `0` comes from
`InetAddress()`.  For every server, every pool, every choice of the callback and every
sequence of results of `accept4`, however connections go and descriptors are reused
between them. -/
theorem conserved_iff_labelled (callback : Bool) (nameArg : List Char) (listenAddr : InetAddress)
    (baseLoop : LoopId) (loops : List LoopId) (used : ℤ → Bool) (as : List Label) :
    Along step Conserved (ofServer callback nameArg listenAddr baseLoop loops used) as ↔
      Along step Labelled (ofServer callback nameArg listenAddr baseLoop loops used) as :=
  along_iff_along (fun _ _ _ h _ hs => h.change (step_change hs)) (fun _ a h => h.conserved_iff a)
    (Kept.ofServer callback nameArg listenAddr baseLoop loops used) as

/-- **Descriptor `0` gets another address.**  With standard input closed, a client
from `10.0.0.1:5000` is accepted as `0`, and its connection is that of
`127.0.0.1:0`. -/
theorem not_conserved_zero :
    ¬Along step Conserved
      (ofServer true ['s'] ⟨(127, 0, 0, 1), 8000⟩ () [] fun fd => decide (fd ∈ [1, 2, 3]))
      [.handleRead (.accepted 0 ⟨(10, 0, 0, 1), 5000⟩) (some ⟨(10, 0, 0, 9), 8000⟩)] := by
  rintro ⟨h, -⟩
  obtain ⟨conn, hc⟩ := h _ rfl
  have he := hc.conns_eq
  obtain rfl := (List.cons.inj he).1
  exact absurd hc.peerAddr_eq (by decide)

end Listener

end MuMuduo
