/-
# The life of a connection

Every call on a connection is made on the thread of its own loop, `connectEstablished`
is the first of them and comes once, and what the connection has become is what its own
calls make of it (`lifecycle`).  So every result on a single connection holds of each
connection of a server.

The calls made on a connection, followed by those that stand for it in the queue of its
loop, are one sequence (`Orderly`).  To take a functor from the queue and to call it
moves the border between the two parts and leaves the sequence as it is.
-/

import MuMuduo.Connection.Interest
import MuMuduo.Foundation.Rotation
import MuMuduo.Server.Roster

namespace MuMuduo

open Foundation

open TcpConnection (Call)

namespace TcpConnection

variable {c c' : TcpConnection}

/-- The operation that a call makes on the channel, `connectDestroyed` left out. -/
def operates (c : TcpConnection) : Op → Option Channel.Op
  | .sendInLoop data r =>
      if c.state_ ≠ .kDisconnected ∧ c.enables data r = true then some .enableWriting else none
  | .handleWrite r => if c.drains r then some .disableWriting else none
  | .handleClose => some .disableAll
  | .shutdown | .connectDestroyed => none

/-- **What a call does to the channel**: it makes this operation, or none. -/
theorem watch_of_step {op : Op} (hop : (Call.op op).destroys = false)
    (hc : c.step op = some c') :
    c'.watch = (c.operates op).elim c.watch fun o => (c.perform o).watch := by
  cases op with
  | sendInLoop data r =>
      obtain rfl := Option.some.inj hc
      rw [operates]
      by_cases hs : c.state_ = .kDisconnected
      · rw [if_pos hs, if_neg fun h => h.1 hs]
        rfl
      · rw [if_neg hs, watch_sendInLoop]
        cases henables : c.enables data r <;> simp [hs]
  | handleWrite r =>
      obtain rfl := Option.some.inj hc
      have hwatch : (c.handleWriteAll r).watch = (c.handleWrite r).1.watch := by
        unfold handleWriteAll
        split_ifs
        · exact watch_shutdownInLoop _
        · rfl
      rw [hwatch, watch_handleWrite, operates]
      split_ifs <;> rfl
  | shutdown =>
      obtain rfl := Option.some.inj hc
      unfold TcpConnection.shutdown
      split_ifs
      · exact watch_shutdownInLoop _
      · rfl
  | handleClose =>
      obtain rfl := Option.some.inj hc
      rfl
  | connectDestroyed => cases hop

/-- No call removes the channel, `connectDestroyed` left out. -/
theorem operates_ne_remove {op : Op} {o : Channel.Op} (h : c.operates op = some o) :
    o ≠ .remove := by
  rintro rfl
  cases op <;> simp [operates] at h

/-- What every operation on the channel keeps, every call keeps. -/
theorem call_invariant {P : EPollPoller Unit × Channel → Prop}
    (hperform : ∀ (c : TcpConnection) op, P c.watch → P (c.perform op).watch) (h : P c.watch)
    {call : Call} (hc : c.call call = some c') : P c'.watch := by
  cases call with
  | connectEstablished =>
      obtain rfl := Option.some.inj hc
      exact hperform (c.setState .kConnected) _ h
  | op op =>
      cases hop : (Call.op op).destroys with
      | false =>
          rw [watch_of_step hop hc]
          cases c.operates op with
          | none => exact h
          | some o => exact hperform c o h
      | true =>
          cases op with
          | connectDestroyed =>
              obtain rfl := Option.some.inj hc
              refine hperform _ .remove ?_
              split_ifs
              · exact hperform (c.setState .kDisconnected) _ h
              · exact h
          | _ => cases hop

/-- Every call can be made, in any state of the connection. -/
theorem exists_call (c : TcpConnection) (call : Call) : ∃ c', c.call call = some c' := by
  cases call with
  | connectEstablished => exact ⟨_, rfl⟩
  | op op => cases op <;> exact ⟨_, rfl⟩

/-- A run of calls after `connectEstablished` is a run of the connection. -/
theorem exec_call_map (ops : List Op) : ∀ c : TcpConnection,
    exec TcpConnection.call c (ops.map Call.op) = exec TcpConnection.step c ops := by
  induction ops with
  | nil => exact fun _ => rfl
  | cons op ops ih => exact fun c => congrArg (Option.bind (c.step op)) (funext ih)

/-- `connectDestroyed` takes the channel out of the poller. -/
theorem index_of_destroys {call : Call} (hcall : call.destroys = true)
    (hc : c.call call = some c') : c'.channel_.index_ = kNew := by
  cases call with
  | connectEstablished => cases hcall
  | op op =>
      cases op with
      | connectDestroyed =>
          obtain rfl := Option.some.inj hc
          exact index_remove
      | _ => cases hcall

end TcpConnection

/-! ### Calls made and calls to come -/

/-- The calls made and those that stand in the queue: `connectEstablished`, and then no
other call of it. -/
def Orderly (done due : List Call) : Prop :=
  ∃ ops : List TcpConnection.Op, done ++ due = .connectEstablished :: ops.map Call.op

section Orderly

variable {done due : List Call} {call : Call}

/-- The first call to come is made. -/
theorem Orderly.take (h : Orderly done (call :: due)) : Orderly (done ++ [call]) due := by
  obtain ⟨ops, h⟩ := h
  exact ⟨ops, by rw [List.append_assoc, List.singleton_append, h]⟩

/-- A call is queued behind those to come. -/
theorem Orderly.queue (h : Orderly done due) (op : TcpConnection.Op) :
    Orderly done (due ++ [.op op]) := by
  obtain ⟨ops, h⟩ := h
  exact ⟨ops ++ [op], by rw [← List.append_assoc, h, List.map_append]; rfl⟩

/-- A call is made in front of those to come. -/
theorem Orderly.insert (h : Orderly done due) (hne : done ≠ []) (op : TcpConnection.Op) :
    Orderly (done ++ [.op op]) due := by
  obtain ⟨ops, h⟩ := h
  obtain ⟨first, rest, rfl⟩ := List.exists_cons_of_ne_nil hne
  rw [List.cons_append, List.cons.injEq] at h
  obtain ⟨rfl, h⟩ := h
  obtain ⟨front, back, rfl, rfl, rfl⟩ := List.map_eq_append_iff.1 h.symm
  exact ⟨front ++ op :: back, by simp⟩

/-- What comes before `connectEstablished`: nothing. -/
theorem Orderly.eq_nil (h : Orderly done (.connectEstablished :: due)) : done = [] := by
  obtain ⟨ops, h⟩ := h
  cases done with
  | nil => rfl
  | cons first rest =>
      obtain ⟨-, h⟩ := List.cons.inj h
      have hmem : Call.connectEstablished ∈ ops.map Call.op := by
        rw [← h]
        exact List.mem_append_right _ List.mem_cons_self
      obtain ⟨op, -, hop⟩ := List.mem_map.1 hmem
      cases hop

/-- The calls made: none, or `connectEstablished` and others. -/
theorem Orderly.made (h : Orderly done due) :
    done = [] ∨ ∃ ops : List TcpConnection.Op, done = .connectEstablished :: ops.map Call.op := by
  obtain ⟨ops, h⟩ := h
  cases done with
  | nil => exact .inl rfl
  | cons first rest =>
      rw [List.cons_append, List.cons.injEq] at h
      obtain ⟨rfl, h⟩ := h
      obtain ⟨front, -, -, rfl, -⟩ := List.map_eq_append_iff.1 h.symm
      exact .inr ⟨front, rfl⟩

end Orderly

namespace EventLoopThreadPool

/-- To choose a loop leaves `baseLoop_` alone. -/
theorem baseLoop_getNextLoop {LoopId : Type*} (p : EventLoopThreadPool LoopId) :
    p.getNextLoop.2.baseLoop_ = p.baseLoop_ := by
  unfold getNextLoop
  split <;> rfl

end EventLoopThreadPool

namespace Listener

variable {LoopId : Type*}

/-- The connections, the map and the loops are the same. -/
structure Same (s' s : Listener LoopId) : Prop where
  conns_eq : s'.conns = s.conns
  baseLoop_eq : s'.threadPool_.baseLoop_ = s.threadPool_.baseLoop_
  destroyed_eq : s'.destroyed = s.destroyed
  server_eq : s'.server = s.server

/-- There is one connection more, also in the map. -/
structure Enrolled (s' s : Listener LoopId) (conn : Endpoint LoopId) : Prop where
  conns_eq : s'.conns = s.conns ++ [conn]
  baseLoop_eq : s'.threadPool_.baseLoop_ = s.threadPool_.baseLoop_
  destroyed_eq : s'.destroyed = s.destroyed
  server_eq : s'.server = s.server.newConnection
  name_eq : conn.name_ = s.server.connName

/-- What `~TcpConnection` asks for: the map does not hold the connection. -/
theorem destroy_cases {s s' : Listener LoopId} {i : ℕ} (hs : s.step (.destroy i) = some s') :
    ∃ conn, (s.conns[i]? = some conn ∧ i ∉ s.destroyed ∧
      s.server.connections_ conn.name_ ≠ some i) ∧ s' = s.destroy i conn := by
  obtain ⟨conn, hi, hs⟩ := Option.bind_eq_some_iff.1 hs
  obtain ⟨hno, hs⟩ := Option.ite_none_left_eq_some.1 hs
  rw [not_or] at hno
  exact ⟨conn, ⟨hi, hno⟩, (Option.some.inj hs).symm⟩

end Listener

namespace Roster

variable {LoopId : Type*}

/-- The calls made on connection `i`. -/
def calls (s : Roster LoopId) (i : ℕ) : List Call := (s.history i).map Prod.snd

/-- The calls on connection `i` that stand in the queue of the loop. -/
def dues (s : Roster LoopId) (loop : LoopId) (i : ℕ) : List Call :=
  (s.pendingFunctors_ loop).filterMap (Task.due i)

/-- The functor is in the queue where it belongs. -/
def Placed (s : Roster LoopId) (loop : LoopId) : Task → Prop
  | .connectEstablished i => s.getLoop i = some loop ∧ loop ≠ s.baseLoop
  | .connectDestroyed i => s.getLoop i = some loop
  | .removeConnectionInLoop i => loop = s.baseLoop ∧ i < s.conns.length

/-- What holds of a server with its connections, but for the order of the calls. -/
structure Seated (s : Roster LoopId) : Prop where
  listener : s.listener.Kept
  confined : ∀ i, ∀ visit ∈ s.history i, s.getLoop i = some visit.1
  placed : ∀ loop, ∀ task ∈ s.pendingFunctors_ loop, s.Placed loop task
  runs : ∀ i conn, s.conns[i]? = some conn →
    exec TcpConnection.call (s.fresh conn) (s.calls i) = some (s.conn i)
  spared : ∀ i ∈ s.listener.destroyed, ¬s.Held i

/-- What holds of a server with its connections. -/
structure Kept (s : Roster LoopId) : Prop extends s.Seated where
  orderly : ∀ i conn, s.conns[i]? = some conn → Orderly (s.calls i) (s.dues conn.loop_ i)

variable {s s' : Roster LoopId} {i : ℕ} {loop : LoopId} {conn : Endpoint LoopId}

/-- A server without connections. -/
theorem Kept.ofServer (nameArg : List Char) (listenAddr : InetAddress) (baseLoop : LoopId)
    (loops : List LoopId) (used : ℤ → Bool) (complete : Bool) :
    (ofServer nameArg listenAddr baseLoop loops used complete).Kept where
  listener := Listener.Kept.ofServer true nameArg listenAddr baseLoop loops used
  confined i visit hv := by cases hv
  placed loop task ht := by cases ht
  runs i conn hi := by cases hi
  orderly i conn hi := by cases hi
  spared i hi := by cases hi

/-- `getLoop` is the loop that the constructor was given. -/
theorem getLoop_eq_some (hi : s.conns[i]? = some conn) : s.getLoop i = some conn.loop_ := by
  rw [getLoop, hi, Option.map_some]

/-- What has a loop has been created. -/
theorem lt_of_getLoop (hi : s.getLoop i = some loop) : i < s.conns.length := by
  obtain ⟨conn, hi, -⟩ := Option.map_eq_some_iff.1 hi
  exact (List.getElem?_eq_some_iff.1 hi).1

/-- A functor in its place is one of a connection that has been created. -/
theorem Placed.conn_lt {task : Task} (h : s.Placed loop task) : task.conn < s.conns.length := by
  cases task with
  | connectEstablished i => exact lt_of_getLoop h.1
  | connectDestroyed i => exact lt_of_getLoop h
  | removeConnectionInLoop i => exact h.2

/-- What has no number yet has not been called, and no functor holds it. -/
theorem Seated.unborn (h : s.Seated) (hi : s.conns.length ≤ i) : s.history i = [] ∧ ¬s.Held i := by
  constructor
  · refine List.eq_nil_iff_forall_not_mem.2 fun visit hv => ?_
    exact absurd (lt_of_getLoop (h.confined i visit hv)) (Nat.not_lt.2 hi)
  · rintro ⟨loop, task, ht, rfl⟩
    exact absurd (h.placed loop task ht).conn_lt (Nat.not_lt.2 hi)

/-- A connection that no functor holds has no calls to come. -/
theorem dues_eq_nil (hi : ¬s.Held i) (loop : LoopId) : s.dues loop i = [] := by
  refine List.filterMap_eq_nil_iff.2 fun task ht => ?_
  have hne : task.conn ≠ i := fun he => hi ⟨loop, task, ht, he⟩
  cases task with
  | removeConnectionInLoop j => rfl
  | connectEstablished j | connectDestroyed j => exact if_neg hne

/-- A connection that is not connecting has been established. -/
theorem Seated.calls_ne_nil (h : s.Seated) (hi : s.conns[i]? = some conn)
    (hs : (s.conn i).state_ ≠ .kConnecting) : s.calls i ≠ [] := by
  intro hnil
  have hrun := h.runs i conn hi
  rw [hnil] at hrun
  exact hs (Option.some.inj hrun ▸ rfl)

/-- So has one of the base loop's. -/
theorem Kept.calls_ne_nil_base (h : s.Kept) (hi : s.conns[i]? = some conn)
    (hbase : conn.loop_ = s.baseLoop) : s.calls i ≠ [] := by
  intro hnil
  obtain ⟨ops, horder⟩ := h.orderly i conn hi
  rw [hnil, List.nil_append] at horder
  have hmem : Call.connectEstablished ∈ s.dues conn.loop_ i := by
    rw [horder]
    exact List.mem_cons_self
  obtain ⟨task, ht, hdue⟩ := List.mem_filterMap.1 hmem
  have hplaced := h.placed _ task ht
  cases task with
  | connectEstablished j => exact hplaced.2 hbase
  | connectDestroyed j =>
      obtain ⟨-, hdue⟩ := Option.ite_none_right_eq_some.1 hdue
      cases hdue
  | removeConnectionInLoop j => cases hdue

/-- The channel is in step with the poller, on the descriptor of the connection. -/
theorem Seated.registered (h : s.Seated) (hi : s.conns[i]? = some conn) :
    (s.conn i).Registered ∧ (s.conn i).channel_.fd_ = conn.socket_ := by
  refine exec_invariant' (I := fun c : TcpConnection => c.Registered ∧
      c.channel_.fd_ = conn.socket_) (fun c call c' hc hcall => ?_)
    ⟨TcpConnection.Registered.ofFd .., rfl⟩ (h.runs i conn hi)
  refine TcpConnection.call_invariant
    (P := fun w => w.1.Registered () w.2 w.2.events_ ∧ w.2.fd_ = conn.socket_)
    (fun u op hu => ?_) hc hcall
  obtain ⟨hr, -, hf⟩ := Channel.perform_registered hu.1 op
  exact ⟨hr, hf.trans hu.2⟩

/-! ### What a piece of a step keeps -/

section Simp

variable (s : Roster LoopId) (loop : LoopId) (i : ℕ) (call : Call) (c : TcpConnection)

/-- A call is recorded at its own connection. -/
theorem history_visited (j : ℕ) : (s.visited loop i call c).history j =
    if j = i then s.history i ++ [(loop, call)] else s.history j :=
  Function.update_apply ..

/-- A call changes its own connection. -/
theorem conn_visited (j : ℕ) :
    (s.visited loop i call c).conn j = if j = i then c else s.conn j :=
  Function.update_apply ..

/-- A call comes after those made before. -/
theorem calls_visited (j : ℕ) :
    (s.visited loop i call c).calls j = if j = i then s.calls i ++ [call] else s.calls j := by
  rw [calls, history_visited]
  split_ifs
  · rw [List.map_append, List.map_singleton]
    rfl
  · rfl

/-- What `queueInLoop` does to the queue of each loop. -/
theorem pendingFunctors_queueInLoop [DecidableEq LoopId] (task : Task) (loop' : LoopId) :
    (s.queueInLoop loop task).pendingFunctors_ loop' =
      if loop' = loop then s.pendingFunctors_ loop ++ [task] else s.pendingFunctors_ loop' :=
  Function.update_apply ..

/-- What taking a functor out does to the queue of each loop. -/
theorem pendingFunctors_leave [DecidableEq LoopId] (rest : List Task) (loop' : LoopId) :
    (s.leave loop rest).pendingFunctors_ loop' =
      if loop' = loop then rest else s.pendingFunctors_ loop' :=
  Function.update_apply ..

end Simp

/-- **When a call can be made**, and what it leads to: the connection is not destroyed. -/
theorem callOn_eq_some {call : Call} : s.callOn loop i call = some s' ↔
    i ∉ s.listener.destroyed ∧ ∃ c, (s.conn i).call call = some c ∧
      s' = s.visited loop i call c := by
  unfold callOn
  split_ifs with hd
  · exact iff_of_false (fun h => by cases h) fun h => h.1 hd
  · rw [Option.map_eq_some_iff]
    exact ⟨fun ⟨c, hc, hs⟩ => ⟨hd, c, hc, hs.symm⟩, fun ⟨_, c, hc, hs⟩ => ⟨c, hc, hs.symm⟩⟩

/-- **A call**, but for the order: it is made on the thread of the connection's loop. -/
theorem Seated.visited (h : s.Seated) {queue : LoopId → List Task} {call : Call}
    {c : TcpConnection} (hi : s.conns[i]? = some conn) (hc : (s.conn i).call call = some c)
    (hsub : ∀ loop, ∀ task ∈ queue loop, task ∈ s.pendingFunctors_ loop) :
    (visited { s with pendingFunctors_ := queue } conn.loop_ i call c).Seated where
  listener := h.listener
  confined j visit hv := by
    rw [history_visited] at hv
    split_ifs at hv with hj
    · subst hj
      rcases List.mem_append.1 hv with hv | hv
      · exact h.confined j visit hv
      · rw [List.mem_singleton.1 hv]
        exact getLoop_eq_some hi
    · exact h.confined j visit hv
  placed loop task ht := h.placed loop task (hsub loop task ht)
  runs j conn' hj := by
    rw [calls_visited, conn_visited]
    split_ifs with hji
    · subst hji
      obtain rfl := Option.some.inj (hi.symm.trans hj)
      exact exec_concat.2 ⟨_, h.runs j conn hi, hc⟩
    · exact h.runs j conn' hj
  spared j hj := fun ⟨loop, task, ht, he⟩ => h.spared j hj ⟨loop, task, hsub loop task ht, he⟩

/-- **A call**, made while the functors of other connections stay in the queues. -/
theorem Kept.visited (h : s.Kept) {queue : LoopId → List Task} {call : Call} {c : TcpConnection}
    (hi : s.conns[i]? = some conn) (hc : (s.conn i).call call = some c)
    (hsub : ∀ loop, ∀ task ∈ queue loop, task ∈ s.pendingFunctors_ loop)
    (hdues : ∀ j, j ≠ i → ∀ loop, (queue loop).filterMap (Task.due j) = s.dues loop j)
    (horder : Orderly (s.calls i ++ [call]) ((queue conn.loop_).filterMap (Task.due i))) :
    (visited { s with pendingFunctors_ := queue } conn.loop_ i call c).Kept where
  toSeated := h.toSeated.visited hi hc hsub
  orderly j conn' hj := by
    rw [calls_visited]
    split_ifs with hji
    · subst hji
      obtain rfl := Option.some.inj (hi.symm.trans hj)
      exact horder
    · show Orderly _ ((queue conn'.loop_).filterMap _)
      rw [hdues j hji]
      exact h.orderly j conn' hj

/-- A call in front of those to come. -/
theorem Kept.insert (h : s.Kept) {op : TcpConnection.Op} {c : TcpConnection}
    (hi : s.conns[i]? = some conn) (hc : (s.conn i).call (.op op) = some c)
    (hne : s.calls i ≠ []) : (s.visited conn.loop_ i (.op op) c).Kept :=
  h.visited hi hc (fun _ _ ht => ht) (fun _ _ _ => rfl) ((h.orderly i conn hi).insert hne op)

/-- A change of the listener that leaves the connections and the loops alone. -/
theorem Kept.listen (h : s.Kept) {listener : Listener LoopId} (hl : listener.Kept)
    (hconns : listener.conns = s.conns) (hbase : listener.threadPool_.baseLoop_ = s.baseLoop)
    (hspared : ∀ i ∈ listener.destroyed, ¬s.Held i) : Kept { s with listener := listener } where
  listener := hl
  confined i visit hv := by
    show listener.conns[i]?.map _ = _
    rw [hconns]
    exact h.confined i visit hv
  placed loop task ht := by
    have hplaced := h.placed loop task ht
    have hloop (i : ℕ) : getLoop { s with listener := listener } i = s.getLoop i :=
      congrArg (fun conns : List (Endpoint LoopId) => conns[i]?.map Endpoint.loop_) hconns
    cases task with
    | connectEstablished i =>
        exact ⟨(hloop i).trans hplaced.1, fun he => hplaced.2 (he.trans hbase)⟩
    | connectDestroyed i => exact (hloop i).trans hplaced
    | removeConnectionInLoop i =>
        exact ⟨hplaced.1.trans hbase.symm, hplaced.2.trans_eq (congrArg List.length hconns.symm)⟩
  runs i conn hi := h.runs i conn (hconns ▸ hi)
  orderly i conn hi := h.orderly i conn (hconns ▸ hi)
  spared := hspared

/-- What an erasure changes: the map and the record of the removals. -/
theorem erase_cases (hs : s.erase i = some s') : i ∉ s.listener.destroyed ∧
    ∃ m, s.listener.server.step (.removeConnectionInLoop i) = some m ∧
      s' = { s with listener := { s.listener with server := m } } := by
  obtain ⟨listener, hl, rfl⟩ := Option.map_eq_some_iff.1 hs
  rw [Listener.step, ite_eq_iff] at hl
  obtain ⟨-, hl⟩ | ⟨hd, hl⟩ := hl
  · cases hl
  · obtain ⟨m, hm, rfl⟩ := Option.map_eq_some_iff.1 hl
    exact ⟨hd, m, hm, rfl⟩

/-- **An erasure** touches no connection. -/
theorem Kept.erase (h : s.Kept) (hs : s.erase i = some s') : s'.Kept := by
  obtain ⟨-, m, hm, rfl⟩ := erase_cases hs
  exact h.listen (h.listener.change (.erased hm)) rfl rfl h.spared

/-- The call that an event leads to. -/
theorem Kept.event (h : s.Kept) {op : TcpConnection.Op} {c : TcpConnection}
    (hi : s.conns[i]? = some conn) (hs : (s.conn i).state_ ≠ .kConnecting)
    (hc : (s.conn i).call (.op op) = some c) : (s.visited conn.loop_ i (.op op) c).Kept :=
  h.insert hi hc (h.calls_ne_nil hi hs)

/-- A new connection, before its first call. -/
theorem Seated.enrol (h : s.Seated) {listener : Listener LoopId} (hl : listener.Kept)
    (hconns : listener.conns = s.conns ++ [conn])
    (hbase : listener.threadPool_.baseLoop_ = s.baseLoop)
    (hdestroyed : listener.destroyed = s.listener.destroyed) :
    Seated { s with
      listener := listener
      conn := Function.update s.conn s.conns.length (s.fresh conn) } := by
  obtain ⟨hnew, -⟩ := h.unborn (Nat.le_refl s.conns.length)
  have hold {i : ℕ} {loop : LoopId} (hi : s.getLoop i = some loop) :
      listener.conns[i]?.map Endpoint.loop_ = some loop := by
    rw [hconns, List.getElem?_append_left (lt_of_getLoop hi)]
    exact hi
  have hcalls : s.calls s.conns.length = [] := by rw [calls, hnew, List.map_nil]
  refine ⟨hl, fun i visit hv => hold (h.confined i visit hv), fun loop task ht => ?_,
    fun i conn' hi => ?_, hdestroyed ▸ h.spared⟩
  · have hplaced := h.placed loop task ht
    cases task with
    | connectEstablished i => exact ⟨hold hplaced.1, fun he => hplaced.2 (he.trans hbase)⟩
    | connectDestroyed i => exact hold hplaced
    | removeConnectionInLoop i =>
        refine ⟨hplaced.1.trans hbase.symm, ?_⟩
        show i < listener.conns.length
        rw [hconns, List.length_append]
        exact Nat.lt_add_right _ hplaced.2
  · show exec TcpConnection.call (s.fresh conn') (s.calls i) =
      some (Function.update s.conn s.conns.length (s.fresh conn) i)
    rw [Function.update_apply]
    replace hi : listener.conns[i]? = some conn' := hi
    rw [hconns] at hi
    split_ifs with hlast
    · subst hlast
      rw [List.getElem?_concat_length] at hi
      obtain rfl := Option.some.inj hi
      rw [hcalls]
      rfl
    · have hlt : i < s.conns.length := by
        have := (List.getElem?_eq_some_iff.1 hi).1
        rw [List.length_append, List.length_singleton] at this
        omega
      rw [List.getElem?_append_left hlt] at hi
      exact h.runs i conn' hi

/-- A return of `accept4`: nothing but descriptors changes, or one connection is new. -/
theorem handleRead_cases {r : AcceptResult} {sockname : Option InetAddress}
    {listener : Listener LoopId} (hl : s.listener.step (.handleRead r sockname) = some listener) :
    listener.Same s.listener ∨ ∃ conn, listener.Enrolled s.listener conn := by
  cases r with
  | accepted fd addr =>
      obtain ⟨-, rfl⟩ := Listener.step_accepted_iff.1 hl
      split
      · refine .inr ⟨_, rfl, ?_, rfl, rfl, rfl⟩
        show ((s.listener.opened fd).threadPool_.getNextLoop).2.baseLoop_ = _
        exact EventLoopThreadPool.baseLoop_getNextLoop _
      · exact .inl ⟨rfl, rfl, rfl, rfl⟩
  | failed errno =>
      obtain rfl := Option.some.inj hl
      rw [Listener.handleRead_failed]
      exact .inl ⟨rfl, rfl, rfl, rfl⟩

variable [DecidableEq LoopId]

@[simp] theorem calls_queueInLoop (s : Roster LoopId) (loop : LoopId) (task : Task) :
    (s.queueInLoop loop task).calls = s.calls := rfl

@[simp] theorem calls_leave (s : Roster LoopId) (loop : LoopId) (rest : List Task) :
    (s.leave loop rest).calls = s.calls := rfl

/-- What stands in the queues once one more functor is queued. -/
theorem mem_queueInLoop {task task' : Task} {loop' : LoopId} :
    task' ∈ (s.queueInLoop loop task).pendingFunctors_ loop' ↔
      task' ∈ s.pendingFunctors_ loop' ∨ loop' = loop ∧ task' = task :=
  mem_push

/-- A functor queued is a call to come, if it stands for one. -/
theorem dues_queueInLoop (task : Task) (loop' : LoopId) :
    (s.queueInLoop loop task).dues loop' i =
      s.dues loop' i ++ if loop' = loop then (task.due i).toList else [] := by
  rw [dues, pendingFunctors_queueInLoop]
  split_ifs with hl
  · subst hl
    rw [List.filterMap_append]
    cases hdue : task.due i <;> simp [dues, hdue]
  · rw [List.append_nil]
    rfl

/-- **A functor is queued**, but for the order: its connection is not destroyed. -/
theorem Seated.queueInLoop (h : s.Seated) {task : Task} (hplaced : s.Placed loop task)
    (hd : task.conn ∉ s.listener.destroyed) : (s.queueInLoop loop task).Seated where
  listener := h.listener
  confined := h.confined
  placed loop' task' ht := by
    rcases mem_queueInLoop.1 ht with ht | ⟨rfl, rfl⟩
    · exact h.placed loop' task' ht
    · exact hplaced
  runs := h.runs
  spared i hi := by
    rintro ⟨loop', task', ht, rfl⟩
    rcases mem_queueInLoop.1 ht with ht | ⟨-, rfl⟩
    · exact h.spared _ hi ⟨loop', task', ht, rfl⟩
    · exact hd hi

/-- **A functor is queued**: not `connectEstablished`, which comes first. -/
theorem Kept.queueInLoop (h : s.Kept) {task : Task} (hplaced : s.Placed loop task)
    (hd : task.conn ∉ s.listener.destroyed) (hnot : ∀ i, task ≠ .connectEstablished i) :
    (s.queueInLoop loop task).Kept where
  toSeated := h.toSeated.queueInLoop hplaced hd
  orderly i conn hi := by
    rw [dues_queueInLoop]
    have horder := h.orderly i conn hi
    split_ifs with hl
    · cases task with
      | connectEstablished j => exact absurd rfl (hnot j)
      | connectDestroyed j =>
          by_cases hji : j = i
          · rw [Task.due, if_pos hji]
            exact horder.queue _
          · rw [Task.due, if_neg hji, Option.toList_none, List.append_nil]
            exact horder
      | removeConnectionInLoop j =>
          rw [Task.due, Option.toList_none, List.append_nil]
          exact horder
    · rw [List.append_nil]
      exact horder

/-! ### The steps -/

/-- `removeConnectionInLoop` erases, and queues `connectDestroyed`. -/
theorem Kept.removeConnectionInLoop (h : s.Kept) (hs : s.removeConnectionInLoop i = some s') :
    s'.Kept := by
  obtain ⟨-, hs⟩ := Option.ite_none_right_eq_some.1 hs
  obtain ⟨u, hu, hs⟩ := Option.bind_eq_some_iff.1 hs
  obtain ⟨loop, hloop, rfl⟩ := Option.map_eq_some_iff.1 hs
  have hd : i ∉ u.listener.destroyed := by
    obtain ⟨hd, m, -, rfl⟩ := erase_cases hu
    exact hd
  exact (h.erase hu).queueInLoop hloop hd fun _ he => by cases he

/-- The functor in front of the queue of its loop. -/
theorem dues_cons {task : Task} {rest : List Task} (hq : s.pendingFunctors_ loop = task :: rest)
    (j : ℕ) (loop' : LoopId) : s.dues loop' j =
      (if loop' = loop then (task.due j).toList else []) ++ (s.leave loop rest).dues loop' j := by
  rw [dues, dues, pendingFunctors_leave]
  split_ifs with hl
  · rw [hl, hq, List.filterMap_cons]
    cases task.due j <;> rfl
  · rw [List.nil_append]

/-- What stands in the queues once the first functor of one is taken out. -/
theorem mem_leave {task task' : Task} {rest : List Task} {loop' : LoopId}
    (hq : s.pendingFunctors_ loop = task :: rest)
    (ht : task' ∈ (s.leave loop rest).pendingFunctors_ loop') :
    task' ∈ s.pendingFunctors_ loop' := by
  rw [pendingFunctors_leave] at ht
  split_ifs at ht with hl
  · rw [hl, hq]
    exact List.mem_cons_of_mem _ ht
  · exact ht

/-- **A call from the queue.** -/
theorem Kept.take (h : s.Kept) {task : Task} {rest : List Task} {call : Call}
    (hq : s.pendingFunctors_ loop = task :: rest) (hi : s.getLoop i = some loop)
    (hdue : ∀ j, task.due j = if i = j then some call else none)
    (hs : (s.leave loop rest).callOn loop i call = some s') : s'.Kept := by
  obtain ⟨conn, hconn, rfl⟩ := Option.map_eq_some_iff.1 hi
  obtain ⟨-, c, hc, rfl⟩ := callOn_eq_some.1 hs
  have horder := h.orderly i conn hconn
  rw [dues_cons hq, if_pos rfl, hdue, if_pos rfl] at horder
  refine h.visited hconn hc (fun _ _ ht => mem_leave hq ht) (fun j hj loop' => ?_) horder.take
  rw [dues_cons hq, hdue, if_neg (Ne.symm hj), Option.toList_none, ite_self, List.nil_append]
  rfl

/-- A functor that stands for no call is taken from the queue. -/
theorem Kept.leave (h : s.Kept) {task : Task} {rest : List Task}
    (hq : s.pendingFunctors_ loop = task :: rest) (hdue : ∀ j, task.due j = none) :
    (s.leave loop rest).Kept where
  listener := h.listener
  confined := h.confined
  placed loop' task' ht := h.placed loop' task' (mem_leave hq ht)
  runs := h.runs
  orderly i conn hi := by
    have horder := h.orderly i conn hi
    rwa [dues_cons hq, hdue, Option.toList_none, ite_self, List.nil_append] at horder
  spared i hi := fun ⟨loop', task', ht, he⟩ => h.spared i hi ⟨loop', task', mem_leave hq ht, he⟩

/-- **A functor is run**: the first in the queue of its loop. -/
theorem doPendingFunctor_eq_some : s.doPendingFunctor loop = some s' ↔
    ∃ task rest, s.pendingFunctors_ loop = task :: rest ∧
      (s.leave loop rest).startFunctor loop task = some s' := by
  unfold doPendingFunctor
  cases s.pendingFunctors_ loop with
  | nil => exact iff_of_false (fun h => by cases h) fun ⟨_, _, h, _⟩ => by cases h
  | cons task rest =>
      refine ⟨fun h => ⟨task, rest, rfl, h⟩, ?_⟩
      rintro ⟨task', rest', hq, h⟩
      obtain ⟨rfl, rfl⟩ := List.cons.inj hq
      exact h

/-- **The functors**, one case for each. -/
theorem Kept.doPendingFunctor (h : s.Kept) (hs : s.doPendingFunctor loop = some s') :
    s'.Kept := by
  obtain ⟨task, rest, hq, hs⟩ := doPendingFunctor_eq_some.1 hs
  have hplaced := h.placed loop task (by rw [hq]; exact List.mem_cons_self)
  cases task with
  | connectEstablished i => exact h.take hq hplaced.1 (fun _ => rfl) hs
  | connectDestroyed i => exact h.take hq hplaced (fun _ => rfl) hs
  | removeConnectionInLoop i => exact (h.leave hq fun _ => rfl).removeConnectionInLoop hs

/-- **What a call on an established connection leads to**; `handleClose` goes on to the
close callback. -/
theorem handleEvent_cases {op : TcpConnection.Op} (hs : s.handleEvent i op = some s') :
    ∃ conn c, s.conns[i]? = some conn ∧ i ∉ s.listener.destroyed ∧
      (s.conn i).state_ ≠ .kConnecting ∧ (s.conn i).call (.op op) = some c ∧
      (Call.op op).destroys = false ∧
      if (Call.op op).closes then
        (s.visited conn.loop_ i (.op op) c).removeConnection conn.loop_ i = some s'
      else s' = s.visited conn.loop_ i (.op op) c := by
  obtain ⟨loop, hloop, hs⟩ := Option.bind_eq_some_iff.1 hs
  obtain ⟨conn, hi, rfl⟩ := Option.map_eq_some_iff.1 hloop
  obtain ⟨hk, hs⟩ := Option.ite_none_left_eq_some.1 hs
  cases op with
  | connectDestroyed => cases hs
  | handleClose =>
      obtain ⟨u, hu, hs⟩ := Option.bind_eq_some_iff.1 hs
      obtain ⟨hd, c, hc, rfl⟩ := callOn_eq_some.1 hu
      exact ⟨conn, c, hi, hd, hk, hc, rfl, hs⟩
  | sendInLoop data r | handleWrite r | shutdown =>
      obtain ⟨hd, c, hc, rfl⟩ := callOn_eq_some.1 hs
      exact ⟨conn, c, hi, hd, hk, hc, rfl, rfl⟩

/-- The close callback removes the connection, or has the base loop do it. -/
theorem Kept.removeConnection (h : s.Kept) (hi : i < s.conns.length)
    (hd : i ∉ s.listener.destroyed) (hs : s.removeConnection loop i = some s') : s'.Kept := by
  obtain ⟨-, hs⟩ := Option.ite_none_right_eq_some.1 hs
  unfold runInLoop at hs
  split_ifs at hs with hl
  · exact h.removeConnectionInLoop hs
  · obtain rfl := Option.some.inj hs
    exact h.queueInLoop ⟨rfl, hi⟩ hd fun _ he => by cases he

/-- **A call on an established connection.** -/
theorem Kept.handleEvent (h : s.Kept) {op : TcpConnection.Op}
    (hs : s.handleEvent i op = some s') : s'.Kept := by
  obtain ⟨conn, c, hi, hd, hk, hc, -, hs⟩ := handleEvent_cases hs
  have h' := h.event hi hk hc
  split_ifs at hs
  · exact h'.removeConnection (List.getElem?_eq_some_iff.1 hi).1 hd hs
  · exact hs ▸ h'

/-- What `~TcpServer` does with one connection: `erase`, and `connectDestroyed` on the
connection's loop. -/
theorem release_cases (hs : s.release i = some s') : ∃ u conn, s.erase i = some u ∧
    u.conns[i]? = some conn ∧ i ∉ u.listener.destroyed ∧
      u.runInLoop u.baseLoop conn.loop_ (.connectDestroyed i) = some s' := by
  obtain ⟨u, hu, hs⟩ := Option.bind_eq_some_iff.1 hs
  obtain ⟨loop, hloop, hs⟩ := Option.bind_eq_some_iff.1 hs
  obtain ⟨conn, hi, rfl⟩ := Option.map_eq_some_iff.1 hloop
  obtain ⟨hd, m, -, rfl⟩ := erase_cases hu
  exact ⟨_, conn, hu, hi, hd, hs⟩

/-- On the base loop `connectDestroyed` is called at once, on another it is queued. -/
theorem Kept.release (h : s.Kept) (hs : s.release i = some s') : s'.Kept := by
  obtain ⟨u, conn, hu, hi, hd, hs⟩ := release_cases hs
  have hk := h.erase hu
  unfold runInLoop at hs
  split_ifs at hs with hl
  · obtain ⟨-, c, hc, rfl⟩ := callOn_eq_some.1 hs
    exact hk.insert hi hc (hk.calls_ne_nil_base hi hl)
  · obtain rfl := Option.some.inj hs
    exact hk.queueInLoop (getLoop_eq_some hi) hd fun _ he => by cases he

/-- **`~TcpServer`**, connection by connection. -/
theorem Kept.destroyServer (h : s.Kept) {order : List ℕ}
    (hs : s.destroyServer order = some s') : s'.Kept := by
  obtain ⟨-, hs⟩ := Option.ite_none_right_eq_some.1 hs
  obtain ⟨u, hu, rfl⟩ := Option.map_eq_some_iff.1 hs
  have hk : u.Kept := exec_invariant' (fun _ _ _ => Kept.release) h hu
  exact ⟨⟨hk.listener, hk.confined, hk.placed, hk.runs, hk.spared⟩, hk.orderly⟩

/-- **A return of `accept4`**: a new connection is entered, and established at once or by a
functor. -/
theorem Kept.handleRead (h : s.Kept) {r : AcceptResult} {sockname : Option InetAddress}
    (hs : s.handleRead r sockname = some s') : s'.Kept := by
  obtain ⟨listener, hl, hs⟩ := Option.bind_eq_some_iff.1 hs
  have hlk := h.listener.change (Listener.step_change hl)
  rcases handleRead_cases hl with hsame | ⟨conn, hnew⟩
  · have hnone : listener.conns[s.conns.length]? = none := by
      rw [hsame.conns_eq]
      exact List.getElem?_eq_none_iff.2 (Nat.le_refl _)
    simp only [hnone] at hs
    obtain rfl := Option.some.inj hs
    exact h.listen hlk hsame.conns_eq hsame.baseLoop_eq (hsame.destroyed_eq ▸ h.spared)
  · have hi : listener.conns[s.conns.length]? = some conn := by
      rw [hnew.conns_eq]
      exact List.getElem?_concat_length
    have hu := h.enrol hlk hnew.conns_eq hnew.baseLoop_eq hnew.destroyed_eq
    obtain ⟨hhist, hheld⟩ := h.unborn (Nat.le_refl s.conns.length)
    have hcalls : s.calls s.conns.length = [] := by rw [calls, hhist, List.map_nil]
    have hd : s.conns.length ∉ listener.destroyed := by
      rw [hnew.destroyed_eq]
      exact h.listener.length_notMem
    have hold {i : ℕ} {conn' : Endpoint LoopId} (hi : listener.conns[i]? = some conn')
        (hne : i ≠ s.conns.length) : Orderly (s.calls i) (s.dues conn'.loop_ i) := by
      rw [hnew.conns_eq] at hi
      have hlt : i < s.conns.length := by
        have := (List.getElem?_eq_some_iff.1 hi).1
        rw [List.length_append, List.length_singleton] at this
        exact Nat.lt_of_le_of_ne (Nat.le_of_lt_succ this) hne
      exact h.orderly i conn' ((List.getElem?_append_left hlt).symm.trans hi)
    simp only [hi, runInLoop] at hs
    split_ifs at hs with hbase
    · obtain ⟨-, c, hc, rfl⟩ := callOn_eq_some.1 hs
      refine ⟨hu.visited hi hc fun _ _ ht => ht, fun i conn' hi' => ?_⟩
      rw [calls_visited]
      split_ifs with hlast
      · subst hlast
        refine ⟨[], ?_⟩
        show s.calls s.conns.length ++ _ ++ s.dues _ _ = _
        rw [hcalls, dues_eq_nil hheld]
        rfl
      · exact hold hi' hlast
    · obtain rfl := Option.some.inj hs
      have hbase' : conn.loop_ ≠ listener.threadPool_.baseLoop_ := by rwa [hnew.baseLoop_eq]
      refine ⟨hu.queueInLoop ⟨getLoop_eq_some hi, hbase'⟩ hd, fun i conn' hi' => ?_⟩
      rw [dues_queueInLoop]
      by_cases hlast : i = s.conns.length
      · subst hlast
        obtain rfl := Option.some.inj (hi.symm.trans hi')
        refine ⟨[], ?_⟩
        show s.calls s.conns.length ++ (s.dues _ _ ++ _) = _
        rw [hcalls, dues_eq_nil hheld, if_pos rfl, Task.due, if_pos rfl]
        rfl
      · have hdue : (Task.connectEstablished s.conns.length).due i = none :=
          if_neg (Ne.symm hlast)
        rw [hdue, Option.toList_none, ite_self, List.append_nil]
        exact hold hi' hlast

/-- **One step.** -/
theorem Kept.step [Fintype LoopId] (h : s.Kept) {a : Label LoopId} (hs : s.step a = some s') :
    s'.Kept := by
  cases a with
  | handleRead r sockname => exact h.handleRead (Option.ite_none_right_eq_some.1 hs).2
  | doPendingFunctor loop => exact h.doPendingFunctor hs
  | handleEvent i op => exact h.handleEvent hs
  | destroyServer order => exact h.destroyServer hs
  | destroy i =>
      obtain ⟨hheld, hs⟩ := Option.ite_none_left_eq_some.1 hs
      obtain ⟨listener, hl, rfl⟩ := Option.map_eq_some_iff.1 hs
      obtain ⟨conn, -, rfl⟩ := Listener.destroy_cases hl
      refine h.listen (h.listener.change (Listener.step_change hl)) rfl rfl fun j hj => ?_
      rcases List.mem_cons.1 hj with rfl | hj
      · exact hheld
      · exact h.spared j hj
  | openOther fd =>
      obtain ⟨listener, hl, rfl⟩ := Option.map_eq_some_iff.1 hs
      obtain ⟨-, rfl⟩ : _ ∧ _ := by simpa [Listener.step] using hl
      exact h.listen (h.listener.change (Listener.step_change hl)) rfl rfl h.spared
  | closeOther fd =>
      obtain ⟨listener, hl, rfl⟩ := Option.map_eq_some_iff.1 hs
      obtain ⟨-, rfl⟩ : _ ∧ _ := by simpa [Listener.step] using hl
      exact h.listen (h.listener.change (Listener.step_change hl)) rfl rfl h.spared

/-! ### The listener's run -/

omit [DecidableEq LoopId] in
/-- A call on a connection is nothing to the listener. -/
theorem listener_callOn {call : Call} (hs : s.callOn loop i call = some s') :
    s'.listener = s.listener := by
  obtain ⟨-, c, -, rfl⟩ := callOn_eq_some.1 hs
  rfl

omit [DecidableEq LoopId] in
/-- An erasure is a step of the listener. -/
theorem erase_run (hs : s.erase i = some s') :
    ∃ bs, exec Listener.step s.listener bs = some s'.listener := by
  obtain ⟨listener, hl, rfl⟩ := Option.map_eq_some_iff.1 hs
  exact ⟨_, exec_singleton.2 hl⟩

/-- So is what `removeConnectionInLoop` does to it. -/
theorem removeConnectionInLoop_run (hs : s.removeConnectionInLoop i = some s') :
    ∃ bs, exec Listener.step s.listener bs = some s'.listener := by
  obtain ⟨-, hs⟩ := Option.ite_none_right_eq_some.1 hs
  obtain ⟨u, hu, hs⟩ := Option.bind_eq_some_iff.1 hs
  obtain ⟨loop, -, rfl⟩ := Option.map_eq_some_iff.1 hs
  show ∃ bs, exec Listener.step s.listener bs = some u.listener
  exact erase_run hu

/-- So is what a functor does to it, or nothing. -/
theorem startFunctor_run {task : Task} (hs : s.startFunctor loop task = some s') :
    ∃ bs, exec Listener.step s.listener bs = some s'.listener := by
  cases task with
  | connectEstablished i | connectDestroyed i =>
      exact ⟨[], congrArg some (listener_callOn hs).symm⟩
  | removeConnectionInLoop i => exact removeConnectionInLoop_run hs

/-- The same of what is run at once or queued. -/
theorem runInLoop_run {thread : LoopId} {task : Task}
    (hs : s.runInLoop thread loop task = some s') :
    ∃ bs, exec Listener.step s.listener bs = some s'.listener := by
  unfold runInLoop at hs
  split_ifs at hs
  · exact startFunctor_run hs
  · obtain rfl := Option.some.inj hs
    exact ⟨[], rfl⟩

/-- The same of one turn of the loop in `~TcpServer`. -/
theorem release_run (hs : s.release i = some s') :
    ∃ bs, exec Listener.step s.listener bs = some s'.listener := by
  obtain ⟨u, conn, hu, -, -, hs⟩ := release_cases hs
  obtain ⟨bs, hbs⟩ := erase_run hu
  obtain ⟨cs, hcs⟩ := runInLoop_run hs
  exact ⟨bs ++ cs, exec_append.2 ⟨_, hbs, hcs⟩⟩

/-- A step of the server is a run of its listener. -/
theorem step_run [Fintype LoopId] {a : Label LoopId} (hs : s.step a = some s') :
    ∃ bs, exec Listener.step s.listener bs = some s'.listener := by
  cases a with
  | handleRead r sockname =>
      obtain ⟨-, hs⟩ := Option.ite_none_right_eq_some.1 hs
      obtain ⟨listener, hl, hs⟩ := Option.bind_eq_some_iff.1 hs
      dsimp only at hs
      split at hs
      · obtain rfl := Option.some.inj hs
        exact ⟨_, exec_singleton.2 hl⟩
      · obtain ⟨bs, hbs⟩ := runInLoop_run hs
        exact ⟨_ :: bs, exec_cons.2 ⟨listener, hl, hbs⟩⟩
  | doPendingFunctor loop =>
      obtain ⟨task, rest, -, hs⟩ := doPendingFunctor_eq_some.1 hs
      exact startFunctor_run (s := s.leave loop rest) hs
  | handleEvent i op =>
      obtain ⟨conn, c, -, -, -, -, -, hs⟩ := handleEvent_cases hs
      split_ifs at hs
      · exact runInLoop_run (s := s.visited conn.loop_ i (.op op) c)
          (Option.ite_none_right_eq_some.1 hs).2
      · exact ⟨[], hs ▸ rfl⟩
  | destroyServer order =>
      obtain ⟨-, hs⟩ := Option.ite_none_right_eq_some.1 hs
      obtain ⟨u, hu, rfl⟩ := Option.map_eq_some_iff.1 hs
      obtain ⟨bs, hbs⟩ := exec_project_run listener (fun _ _ _ => release_run) hu
      exact ⟨bs, hbs⟩
  | destroy i =>
      obtain ⟨-, hs⟩ := Option.ite_none_left_eq_some.1 hs
      obtain ⟨listener, hl, rfl⟩ := Option.map_eq_some_iff.1 hs
      exact ⟨_, exec_singleton.2 hl⟩
  | openOther fd | closeOther fd =>
      obtain ⟨listener, hl, rfl⟩ := Option.map_eq_some_iff.1 hs
      exact ⟨_, exec_singleton.2 hl⟩

section Run

variable [Fintype LoopId] {nameArg : List Char} {listenAddr : InetAddress} {baseLoop : LoopId}
  {loops : List LoopId} {used : ℤ → Bool} {complete : Bool} {as : List (Label LoopId)}

/-- **What holds of a server holds in every run.** -/
theorem Kept.of_exec
    (hs : exec Roster.step (Roster.ofServer nameArg listenAddr baseLoop loops used complete) as =
      some s) : s.Kept :=
  exec_invariant' (fun _ _ _ h hs => h.step hs)
    (Kept.ofServer nameArg listenAddr baseLoop loops used complete) hs

/-- A run of the server is a run of its listener. -/
theorem listener_run
    (hs : exec step (ofServer nameArg listenAddr baseLoop loops used complete) as = some s) :
    ∃ bs, exec Listener.step (Listener.ofServer true nameArg listenAddr baseLoop loops used) bs =
      some s.listener :=
  exec_project_run listener (fun _ _ _ => step_run) hs

/-- **The loops get equal numbers of connections.**  In every run of a server, whatever
connections come and go, the loops of the pool have been given the same number of them,
but for one more on those that come first in the round that is under way. -/
theorem dealt_evenly
    (hs : exec step (ofServer nameArg listenAddr baseLoop loops used complete) as = some s)
    {pool : List LoopId} (hpool : (EventLoopThreadPool.ofLoops baseLoop loops).getAllLoops = pool)
    (hn : pool.Nodup) (hl : loop ∈ pool) :
    (s.conns.map Endpoint.loop_).count loop = s.conns.length / pool.length +
      if pool.idxOf loop < s.conns.length % pool.length then 1 else 0 := by
  obtain ⟨bs, hbs⟩ := listener_run hs
  have hdealt : Dealt pool (s.conns.map Endpoint.loop_) := by
    intro i l hi
    rw [List.getElem?_map] at hi
    obtain ⟨conn, hconn, rfl⟩ := Option.map_eq_some_iff.1 hi
    have hfor := Listener.loop_roundRobin hbs hconn
    rwa [EventLoopThreadPool.loopFor, hpool] at hfor
  rw [hdealt.count_eq hn hl, List.length_map]

/-- The hypotheses are satisfiable: of three connections two go to the first loop of the
pool. -/
theorem dealt_evenly_three : ∃ s : Roster (Fin 3), exec step
      (ofServer ['s'] ⟨(127, 0, 0, 1), 8000⟩ 0 [1, 2] (fun _ => false) false)
      [.handleRead (.accepted 5 ⟨(10, 0, 0, 1), 5000⟩) none,
        .handleRead (.accepted 6 ⟨(10, 0, 0, 1), 5001⟩) none,
        .handleRead (.accepted 7 ⟨(10, 0, 0, 1), 5002⟩) none] = some s ∧
    (s.conns.map Endpoint.loop_).count 1 = 2 ∧ (s.conns.map Endpoint.loop_).count 2 = 1 := by
  obtain ⟨s, hs, hlen⟩ : ∃ s : Roster (Fin 3), exec step
      (ofServer ['s'] ⟨(127, 0, 0, 1), 8000⟩ 0 [1, 2] (fun _ => false) false)
      [.handleRead (.accepted 5 ⟨(10, 0, 0, 1), 5000⟩) none,
        .handleRead (.accepted 6 ⟨(10, 0, 0, 1), 5001⟩) none,
        .handleRead (.accepted 7 ⟨(10, 0, 0, 1), 5002⟩) none] = some s ∧
      s.conns.length = 3 := ⟨_, rfl, rfl⟩
  have hfirst := dealt_evenly hs rfl (by decide) (show (1 : Fin 3) ∈ [1, 2] by decide)
  have hsecond := dealt_evenly hs rfl (by decide) (show (2 : Fin 3) ∈ [1, 2] by decide)
  rw [hlen] at hfirst hsecond
  exact ⟨s, hs, hfirst, hsecond⟩

/-- **The life of a connection.**  In every run of a server, whatever connections come
and go beside it: its loop is the next in turn, all calls on it are made on the thread
of that loop, they are `connectEstablished` and then others, the same calls put before
those still in the queue, and the connection is what these calls make of a new one. -/
theorem lifecycle
    (hs : exec step (ofServer nameArg listenAddr baseLoop loops used complete) as = some s)
    (hi : s.conns[i]? = some conn) :
    (EventLoopThreadPool.ofLoops baseLoop loops).loopFor i = some conn.loop_ ∧
      (∀ visit ∈ s.history i, visit.1 = conn.loop_) ∧
      Orderly (s.calls i) (s.dues conn.loop_ i) ∧
      (s.calls i = [] ∧ s.conn i = s.fresh conn ∨
        ∃ ops : List TcpConnection.Op, s.calls i = .connectEstablished :: ops.map Call.op ∧
          exec TcpConnection.step (s.fresh conn).connectEstablished ops = some (s.conn i)) := by
  have h := Kept.of_exec hs
  obtain ⟨bs, hbs⟩ := listener_run hs
  have hrun := h.runs i conn hi
  refine ⟨Listener.loop_roundRobin hbs hi, fun visit hv => ?_, h.orderly i conn hi, ?_⟩
  · have hloop := h.confined i visit hv
    rw [getLoop_eq_some hi] at hloop
    exact (Option.some.inj hloop).symm
  · rcases (h.orderly i conn hi).made with hnil | ⟨ops, hops⟩
    · rw [hnil] at hrun
      exact .inl ⟨hnil, (Option.some.inj hrun).symm⟩
    · rw [hops] at hrun
      obtain ⟨c, hc, hrun⟩ := exec_cons.1 hrun
      obtain rfl := Option.some.inj hc
      exact .inr ⟨ops, hops, TcpConnection.exec_call_map ops _ ▸ hrun⟩

/-- The hypotheses are satisfiable: a connection of a server with one other loop is
established there, closed by its peer, removed by the base loop and destroyed. -/
theorem lifecycle_closed : ∃ s, exec step
      (ofServer ['s'] ⟨(127, 0, 0, 1), 8000⟩ false [true] (fun _ => false) false)
      [.handleRead (.accepted 5 ⟨(10, 0, 0, 1), 5000⟩) none, .doPendingFunctor true,
        .handleEvent 0 .handleClose, .doPendingFunctor false, .doPendingFunctor true] = some s ∧
    (∀ visit ∈ s.history 0, visit.1 = true) ∧
    s.calls 0 = [.connectEstablished, .op .handleClose, .op .connectDestroyed] := by
  obtain ⟨s, hs, hcalls, conn, hconn, hloop⟩ : ∃ s, exec step
      (ofServer ['s'] ⟨(127, 0, 0, 1), 8000⟩ false [true] (fun _ => false) false)
      [.handleRead (.accepted 5 ⟨(10, 0, 0, 1), 5000⟩) none, .doPendingFunctor true,
        .handleEvent 0 .handleClose, .doPendingFunctor false, .doPendingFunctor true] = some s ∧
      s.calls 0 = [.connectEstablished, .op .handleClose, .op .connectDestroyed] ∧
      ∃ conn, s.conns[0]? = some conn ∧ conn.loop_ = true := ⟨_, rfl, rfl, _, rfl, rfl⟩
  exact ⟨s, hs, hloop ▸ (lifecycle hs hconn).2.1, hcalls⟩

end Run

end Roster

end MuMuduo
