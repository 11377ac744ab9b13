/-
# Every connection is settled

A connection leaves the map by `removeConnectionInLoop` or by `~TcpServer`, and each of
these has `connectDestroyed` called on it: at once, or through the queue of its loop.
So the calls of `connectDestroyed` made and those still queued are as many as the
removals, and the removals done and those still queued as many as the calls of
`handleClose` (`destroyed_exactly`).

The functors come to an end.  However the loops take turns, each functor takes one off
what is left to do, and when nothing is left the connections in the map are those that
have not been closed (`settles`).
-/

import MuMuduo.Server.Lifecycle

namespace MuMuduo

open Foundation

open TcpConnection (Call)

/-- The functors that a functor stands for: a removal queues another one. -/
def Task.work : Task → ℕ
  | .removeConnectionInLoop _ => 2
  | .connectEstablished _ | .connectDestroyed _ => 1

/-- Every functor is something to do. -/
theorem Task.work_pos (task : Task) : 0 < task.work := by
  cases task with
  | connectEstablished i | connectDestroyed i => exact Nat.one_pos
  | removeConnectionInLoop i => exact Nat.two_pos

namespace Roster

variable {LoopId : Type*} {s s' : Roster LoopId} {i : ℕ} {loop : LoopId}
  {conn : Endpoint LoopId}

/-- The calls of `connectDestroyed`, made and queued, are the removals but for those of
`due`, whose call is about to be made or queued. -/
structure Parting (s : Roster LoopId) (due : List ℕ) : Prop where
  removed_lt : ∀ i ∈ s.removed, i < s.conns.length
  count_eq : ∀ i conn, s.conns[i]? = some conn →
    (s.calls i).countP Call.destroys +
      (s.pendingFunctors_ conn.loop_).count (.connectDestroyed i) + due.count i = s.removed.count i

/-- The removals, done and queued, are the calls of `handleClose` but for those of `due`,
whose removal is about to be done or queued. -/
def Closing (s : Roster LoopId) (due : List ℕ) : Prop :=
  s.alive = true → ∀ i, (s.calls i).countP Call.closes =
    (s.pendingFunctors_ s.baseLoop).count (.removeConnectionInLoop i) + s.removed.count i +
      due.count i

/-! ### The counts -/

/-- One call more is counted at its own connection. -/
theorem countP_visited (s : Roster LoopId) (loop : LoopId) (i : ℕ) (call : Call)
    (c : TcpConnection) (p : Call → Bool) (j : ℕ) :
    ((s.visited loop i call c).calls j).countP p =
      (s.calls j).countP p + if j = i ∧ p call = true then 1 else 0 := by
  rw [calls_visited]
  by_cases hj : j = i
  · rw [if_pos hj, hj, List.countP_append, List.countP_singleton]
    simp
  · rw [if_neg hj, if_neg fun h => hj h.1, Nat.add_zero]

/-- What an erasure changes. -/
structure Erased (s s' : Roster LoopId) (i : ℕ) : Prop where
  notMem : i ∉ s.listener.destroyed
  removed_eq : s'.removed = i :: s.removed
  conns_eq : s'.conns = s.conns
  alive_eq : s'.alive = s.alive
  baseLoop_eq : s'.baseLoop = s.baseLoop
  destroyed_eq : s'.listener.destroyed = s.listener.destroyed
  calls_eq : s'.calls = s.calls
  pendingFunctors_eq : s'.pendingFunctors_ = s.pendingFunctors_
  lt : i < s.conns.length

/-- What an erasure changes, with the number of the connection in range. -/
theorem Kept.erased (h : s.Kept) (hs : s.erase i = some s') : Erased s s' i := by
  obtain ⟨hd, m, hm, rfl⟩ := erase_cases hs
  obtain ⟨name, hname, rfl⟩ := Option.map_eq_some_iff.1 hm
  refine ⟨hd, rfl, rfl, rfl, rfl, rfl, rfl, rfl, ?_⟩
  rw [h.listener.created_eq, List.getElem?_map] at hname
  obtain ⟨conn, hconn, -⟩ := Option.map_eq_some_iff.1 hname
  exact (List.getElem?_eq_some_iff.1 hconn).1

/-- **A removal**: one call of `connectDestroyed` is due. -/
theorem Parting.erase {due : List ℕ} (h : s.Parting due) (he : Erased s s' i) :
    s'.Parting (i :: due) := by
  refine ⟨fun j hj => ?_, fun j conn hj => ?_⟩
  · rw [he.removed_eq] at hj
    rw [he.conns_eq]
    rcases List.mem_cons.1 hj with rfl | hj
    · exact he.lt
    · exact h.removed_lt j hj
  · rw [he.conns_eq] at hj
    have hcount := h.count_eq j conn hj
    rw [he.removed_eq, he.calls_eq, he.pendingFunctors_eq, List.count_cons, List.count_cons]
    omega

/-- **A removal** that was due is done. -/
theorem Closing.erase {due : List ℕ} (h : s.Closing (i :: due)) (he : Erased s s' i) :
    s'.Closing due := by
  intro halive j
  have hcount := h (he.alive_eq ▸ halive) j
  rw [List.count_cons] at hcount
  rw [he.removed_eq, he.calls_eq, he.pendingFunctors_eq, he.baseLoop_eq, List.count_cons]
  omega

/-- A call, but for `connectDestroyed`. -/
theorem Parting.visited {due : List ℕ} (h : s.Parting due) {call : Call}
    (hcall : call.destroys = false) (c : TcpConnection) :
    (s.visited loop i call c).Parting due := by
  refine ⟨h.removed_lt, fun j conn hj => ?_⟩
  have hcount := h.count_eq j conn hj
  simp only [countP_visited, hcall, Bool.false_eq_true, and_false, if_false, Nat.add_zero,
    visited_pendingFunctors_, visited_removed]
  exact hcount

/-- The call of `connectDestroyed` that is due. -/
theorem Parting.destroy {due : List ℕ} (h : s.Parting (i :: due)) (c : TcpConnection) :
    (s.visited loop i (.op .connectDestroyed) c).Parting due := by
  refine ⟨h.removed_lt, fun j conn hj => ?_⟩
  have hcount := h.count_eq j conn hj
  simp only [List.count_cons, beq_iff_eq, eq_comm (a := i)] at hcount
  simp only [countP_visited, Call.destroys, and_true, visited_pendingFunctors_, visited_removed]
  omega

/-- It is queued instead. -/
theorem Parting.queueInLoop [DecidableEq LoopId] {due : List ℕ} (h : s.Parting (i :: due))
    (hi : s.getLoop i = some loop) : (s.queueInLoop loop (.connectDestroyed i)).Parting due := by
  refine ⟨h.removed_lt, fun j conn hj => ?_⟩
  have hcount := h.count_eq j conn hj
  have hloop (hij : i = j) : conn.loop_ = loop := by
    subst hij
    rw [queueInLoop_conns] at hj
    rw [getLoop_eq_some hj] at hi
    exact Option.some.inj hi
  simp only [List.count_cons, beq_iff_eq] at hcount
  simp only [queueInLoop_pendingFunctors_, count_push, calls_queueInLoop, queueInLoop_removed,
    Task.connectDestroyed.injEq, and_iff_right_of_imp hloop]
  omega

/-- Other functors do not count. -/
theorem Parting.queue [DecidableEq LoopId] {due : List ℕ} (h : s.Parting due) {task : Task}
    (htask : ∀ i, task ≠ .connectDestroyed i) : (s.queueInLoop loop task).Parting due := by
  refine ⟨h.removed_lt, fun j conn hj => ?_⟩
  have hcount := h.count_eq j conn hj
  simp only [queueInLoop_pendingFunctors_, count_push, calls_queueInLoop, queueInLoop_removed,
    htask, and_false, if_false, Nat.add_zero]
  exact hcount

/-- A call, but for `handleClose`. -/
theorem Closing.visited {due : List ℕ} (h : s.Closing due) {call : Call}
    (hcall : call.closes = false) (c : TcpConnection) :
    (s.visited loop i call c).Closing due := by
  intro halive j
  have hcount := h halive j
  simp only [countP_visited, hcall, Bool.false_eq_true, and_false, if_false, Nat.add_zero,
    visited_pendingFunctors_, visited_removed, visited_baseLoop]
  exact hcount

/-- **`handleClose`**: one removal is due. -/
theorem Closing.close {due : List ℕ} (h : s.Closing due) (c : TcpConnection) :
    (s.visited loop i (.op .handleClose) c).Closing (i :: due) := by
  intro halive j
  have hcount := h halive j
  simp only [countP_visited, Call.closes, and_true, visited_pendingFunctors_, visited_removed,
    visited_baseLoop, List.count_cons, beq_iff_eq, eq_comm (a := j)]
  omega

/-- It is queued on the base loop. -/
theorem Closing.queueInLoop [DecidableEq LoopId] {due : List ℕ} (h : s.Closing (i :: due)) :
    (s.queueInLoop s.baseLoop (.removeConnectionInLoop i)).Closing due := by
  intro halive j
  have hcount := h halive j
  simp only [List.count_cons, beq_iff_eq] at hcount
  simp only [queueInLoop_pendingFunctors_, count_push, calls_queueInLoop, queueInLoop_removed,
    queueInLoop_baseLoop, Task.removeConnectionInLoop.injEq, true_and]
  omega

/-- Other functors do not count. -/
theorem Closing.queue [DecidableEq LoopId] {due : List ℕ} (h : s.Closing due) {task : Task}
    (htask : ∀ i, task ≠ .removeConnectionInLoop i) : (s.queueInLoop loop task).Closing due := by
  intro halive j
  have hcount := h halive j
  simp only [queueInLoop_pendingFunctors_, count_push, calls_queueInLoop, queueInLoop_removed,
    queueInLoop_baseLoop, htask, and_false, if_false, Nat.add_zero]
  exact hcount

/-- `connectDestroyed` is taken from the queue. -/
theorem Parting.leave [DecidableEq LoopId] {due : List ℕ} {rest : List Task} (h : s.Parting due)
    (hq : s.pendingFunctors_ loop = .connectDestroyed i :: rest) (hi : s.getLoop i = some loop) :
    (s.leave loop rest).Parting (i :: due) := by
  refine ⟨h.removed_lt, fun j conn hj => ?_⟩
  have hcount := h.count_eq j conn hj
  have hloop (hij : i = j) : conn.loop_ = loop := by
    subst hij
    rw [leave_conns] at hj
    rw [getLoop_eq_some hj] at hi
    exact Option.some.inj hi
  simp only [count_pop hq, Task.connectDestroyed.injEq, and_iff_right_of_imp hloop] at hcount
  simp only [leave_pendingFunctors_, calls_leave, leave_removed, List.count_cons, beq_iff_eq]
  omega

/-- Another functor is taken from the queue. -/
theorem Parting.leave_other [DecidableEq LoopId] {due : List ℕ} {task : Task} {rest : List Task}
    (h : s.Parting due) (hq : s.pendingFunctors_ loop = task :: rest)
    (htask : ∀ i, task ≠ .connectDestroyed i) : (s.leave loop rest).Parting due := by
  refine ⟨h.removed_lt, fun j conn hj => ?_⟩
  have hcount := h.count_eq j conn hj
  simp only [count_pop hq, htask, and_false, if_false, Nat.add_zero] at hcount
  exact hcount

/-- `removeConnectionInLoop` is taken from the queue. -/
theorem Closing.leave [DecidableEq LoopId] {due : List ℕ} {rest : List Task} (h : s.Closing due)
    (hq : s.pendingFunctors_ s.baseLoop = .removeConnectionInLoop i :: rest) :
    (s.leave s.baseLoop rest).Closing (i :: due) := by
  intro halive j
  have hcount := h halive j
  simp only [count_pop hq, Task.removeConnectionInLoop.injEq, true_and] at hcount
  simp only [leave_pendingFunctors_, calls_leave, leave_removed, leave_baseLoop, List.count_cons,
    beq_iff_eq]
  omega

/-- Another functor is taken from the queue. -/
theorem Closing.leave_other [DecidableEq LoopId] {due : List ℕ} {task : Task} {rest : List Task}
    (h : s.Closing due) (hq : s.pendingFunctors_ loop = task :: rest)
    (htask : ∀ i, task ≠ .removeConnectionInLoop i) : (s.leave loop rest).Closing due := by
  intro halive j
  have hcount := h halive j
  simp only [count_pop hq, htask, and_false, if_false, Nat.add_zero] at hcount
  exact hcount

/-! ### The steps -/

/-- What no functor and no event changes or takes back. -/
structure Onward (s s' : Roster LoopId) : Prop where
  alive_eq : s'.alive = s.alive
  conns_eq : s'.conns = s.conns
  destroyed_eq : s'.listener.destroyed = s.listener.destroyed
  removed_sub : ∀ i ∈ s.removed, i ∈ s'.removed

/-- Two steps, one after the other. -/
theorem Onward.trans {u : Roster LoopId} (h : Onward s u) (h' : Onward u s') : Onward s s' where
  alive_eq := h'.alive_eq.trans h.alive_eq
  conns_eq := h'.conns_eq.trans h.conns_eq
  destroyed_eq := h'.destroyed_eq.trans h.destroyed_eq
  removed_sub i hi := h'.removed_sub i (h.removed_sub i hi)

/-- A step that leaves the listener alone. -/
theorem Onward.same (halive : s'.alive = s.alive) (hl : s'.listener = s.listener) :
    Onward s s' where
  alive_eq := halive
  conns_eq := congrArg Listener.conns hl
  destroyed_eq := congrArg Listener.destroyed hl
  removed_sub i hi := by
    rw [removed, hl]
    exact hi

/-- An erasure. -/
theorem Erased.onward (h : Erased s s' i) : Onward s s' where
  alive_eq := h.alive_eq
  conns_eq := h.conns_eq
  destroyed_eq := h.destroyed_eq
  removed_sub j hj := by
    rw [h.removed_eq]
    exact List.mem_cons_of_mem _ hj

/-- Every removal is settled or will be, and what is destroyed has been removed. -/
structure Settled (s : Roster LoopId) : Prop where
  parting : s.Parting []
  closing : s.Closing []
  dead : s.alive = false → ∀ i, i < s.conns.length → i ∈ s.removed
  buried : ∀ i ∈ s.listener.destroyed, i ∈ s.removed

/-- A server without connections. -/
theorem Settled.ofServer (nameArg : List Char) (listenAddr : InetAddress) (baseLoop : LoopId)
    (loops : List LoopId) (used : ℤ → Bool) (complete : Bool) :
    (ofServer nameArg listenAddr baseLoop loops used complete).Settled where
  parting := ⟨(fun i hi => by cases hi), fun i conn hi => by cases hi⟩
  closing _ _ := rfl
  dead h := by cases h
  buried i hi := by cases hi

/-- What is settled stays so, if the two counts do. -/
theorem Settled.onward (h : s.Settled) (hs : Onward s s') (hp : s'.Parting [])
    (hc : s'.Closing []) : s'.Settled where
  parting := hp
  closing := hc
  dead halive i hi := hs.removed_sub i (h.dead (hs.alive_eq ▸ halive) i (hs.conns_eq ▸ hi))
  buried i hi := hs.removed_sub i (h.buried i (hs.destroyed_eq ▸ hi))

variable [DecidableEq LoopId]

/-- `removeConnectionInLoop` erases, and queues `connectDestroyed` on the connection's
loop. -/
theorem removeConnectionInLoop_cases (hk : s.Kept) (hs : s.removeConnectionInLoop i = some s') :
    s.alive = true ∧ ∃ u loop, Erased s u i ∧ u.getLoop i = some loop ∧
      s' = u.queueInLoop loop (.connectDestroyed i) := by
  obtain ⟨halive, hs⟩ := Option.ite_none_right_eq_some.1 hs
  obtain ⟨u, hu, hs⟩ := Option.bind_eq_some_iff.1 hs
  obtain ⟨loop, hloop, rfl⟩ := Option.map_eq_some_iff.1 hs
  exact ⟨halive, u, loop, hk.erased hu, hloop, rfl⟩

/-- **A removal** that is due. -/
theorem removeConnectionInLoop_settles (hk : s.Kept)
    (hs : s.removeConnectionInLoop i = some s') (hp : s.Parting []) (hc : s.Closing [i]) :
    Onward s s' ∧ s'.Parting [] ∧ s'.Closing [] := by
  obtain ⟨-, u, loop, hu, hloop, rfl⟩ := removeConnectionInLoop_cases hk hs
  exact ⟨hu.onward.trans (.same rfl rfl), (hp.erase hu).queueInLoop hloop,
    (hc.erase hu).queue fun _ he => by cases he⟩

/-- **A functor.** -/
theorem doPendingFunctor_settles (hk : s.Kept) (hs : s.doPendingFunctor loop = some s')
    (hp : s.Parting []) (hc : s.Closing []) : Onward s s' ∧ s'.Parting [] ∧ s'.Closing [] := by
  obtain ⟨task, rest, hq, hs⟩ := doPendingFunctor_eq_some.1 hs
  have hplaced := hk.placed loop task (by rw [hq]; exact List.mem_cons_self)
  have hleave : Onward s (s.leave loop rest) := .same rfl rfl
  cases task with
  | connectEstablished i =>
      obtain ⟨-, c, -, rfl⟩ := callOn_eq_some.1 hs
      exact ⟨.same rfl rfl, (hp.leave_other hq fun _ he => by cases he).visited rfl c,
        (hc.leave_other hq fun _ he => by cases he).visited rfl c⟩
  | connectDestroyed i =>
      obtain ⟨-, c, -, rfl⟩ := callOn_eq_some.1 hs
      exact ⟨.same rfl rfl, (hp.leave hq hplaced).destroy c,
        (hc.leave_other hq fun _ he => by cases he).visited rfl c⟩
  | removeConnectionInLoop i =>
      obtain ⟨rfl, -⟩ := hplaced
      obtain ⟨hon, hp', hc'⟩ := removeConnectionInLoop_settles (hk.leave hq fun _ => rfl) hs
        (hp.leave_other hq fun _ he => by cases he) (hc.leave hq)
      exact ⟨hleave.trans hon, hp', hc'⟩

/-- **A functor** leaves all settled. -/
theorem Settled.doPendingFunctor (h : s.Settled) (hk : s.Kept)
    (hs : s.doPendingFunctor loop = some s') : s'.Settled := by
  obtain ⟨hon, hp, hc⟩ := doPendingFunctor_settles hk hs h.parting h.closing
  exact h.onward hon hp hc

/-- **A call on an established connection.** -/
theorem Settled.handleEvent (h : s.Settled) (hk : s.Kept) {op : TcpConnection.Op}
    (hs : s.handleEvent i op = some s') : s'.Settled := by
  obtain ⟨conn, c, hi, -, hindex, hc, hdestroys, hs⟩ := handleEvent_cases hs
  have hkv := hk.event hi hindex hc
  have hp : (s.visited conn.loop_ i (.op op) c).Parting [] := h.parting.visited hdestroys c
  split_ifs at hs with hcloses
  · have hcv : (s.visited conn.loop_ i (.op op) c).Closing [i] := by
      cases op with
      | handleClose => exact h.closing.close c
      | _ => cases hcloses
    obtain ⟨-, hs⟩ := Option.ite_none_right_eq_some.1 hs
    unfold runInLoop at hs
    split_ifs at hs
    · obtain ⟨hon, hp, hc⟩ := removeConnectionInLoop_settles hkv hs hp hcv
      exact h.onward (.trans (u := s.visited conn.loop_ i (.op op) c) (.same rfl rfl) hon) hp hc
    · obtain rfl := Option.some.inj hs
      exact h.onward (.same rfl rfl) (hp.queue fun _ he => by cases he) hcv.queueInLoop
  · obtain rfl := hs
    exact h.onward (.same rfl rfl) hp (h.closing.visited (Bool.eq_false_iff.2 hcloses) c)

/-- One turn of the loop in `~TcpServer`. -/
theorem release_settles (hk : s.Kept) (hs : s.release i = some s') (hp : s.Parting []) :
    Onward s s' ∧ s'.Parting [] ∧ i ∈ s'.removed := by
  obtain ⟨u, conn, hu, hi, -, hs⟩ := release_cases hs
  have he := hk.erased hu
  have hmem : i ∈ u.removed := by
    rw [he.removed_eq]
    exact List.mem_cons_self
  unfold runInLoop at hs
  split_ifs at hs
  · obtain ⟨-, c, -, rfl⟩ := callOn_eq_some.1 hs
    exact ⟨he.onward.trans (.same rfl rfl), (hp.erase he).destroy c, hmem⟩
  · obtain rfl := Option.some.inj hs
    exact ⟨he.onward.trans (.same rfl rfl), (hp.erase he).queueInLoop (getLoop_eq_some hi), hmem⟩

/-- The loop of `~TcpServer`. -/
theorem exec_release {order : List ℕ} (hk : s.Kept) (hp : s.Parting [])
    (hs : exec release s order = some s') :
    Onward s s' ∧ s'.Parting [] ∧ ∀ i ∈ order, i ∈ s'.removed := by
  induction order generalizing s with
  | nil =>
      obtain rfl := Option.some.inj hs
      exact ⟨.same rfl rfl, hp, fun i hi => by cases hi⟩
  | cons i order ih =>
      obtain ⟨u, hu, hs⟩ := exec_cons.1 hs
      obtain ⟨hon, hpu, hi⟩ := release_settles hk hu hp
      obtain ⟨hon', hp', hrest⟩ := ih (hk.release hu) hpu hs
      refine ⟨hon.trans hon', hp', fun j hj => ?_⟩
      rcases List.mem_cons.1 hj with rfl | hj
      · exact hon'.removed_sub j hi
      · exact hrest j hj

/-- The map holds the connections that have not been removed. -/
def Mapped (s : Roster LoopId) : Prop :=
  ∀ i, i < s.conns.length → (s.holds i = true ↔ i ∉ s.removed)

/-- **`~TcpServer`** removes what the map holds, so that all has been removed. -/
theorem Settled.destroyServer (h : s.Settled) (hk : s.Kept) (hm : s.Mapped) {order : List ℕ}
    (hs : s.destroyServer order = some s') : s'.Settled := by
  obtain ⟨⟨-, hperm⟩, hs⟩ := Option.ite_none_right_eq_some.1 hs
  obtain ⟨u, hu, rfl⟩ := Option.map_eq_some_iff.1 hs
  obtain ⟨hon, hp, hall⟩ := exec_release hk h.parting hu
  refine ⟨⟨hp.removed_lt, hp.count_eq⟩, fun halive => (by cases halive), fun _ i hi => ?_,
    fun i hi => hon.removed_sub i (h.buried i (hon.destroyed_eq ▸ hi))⟩
  have hlt : i < s.conns.length := (congrArg List.length hon.conns_eq) ▸ hi
  by_cases hmem : i ∈ s.removed
  · exact hon.removed_sub i hmem
  · refine hall i (hperm.mem_iff.2 ?_)
    rw [entries, List.mem_filter, List.mem_range]
    exact ⟨hlt, (hm i hlt).2 hmem⟩

omit [DecidableEq LoopId] in
/-- A new connection has nothing to settle. -/
theorem Settled.enrol (h : s.Settled) (hk : s.Kept) (halive : s.alive = true)
    {listener : Listener LoopId} (hnew : listener.Enrolled s.listener conn)
    (objects : ℕ → TcpConnection) :
    Settled { s with listener := listener, conn := objects } := by
  have hremoved : listener.server.removed = s.removed := by
    rw [hnew.server_eq]
    rfl
  obtain ⟨hhist, hheld⟩ := hk.unborn (Nat.le_refl s.conns.length)
  refine ⟨⟨fun i hi => ?_, fun i conn' hi => ?_⟩, fun _ i => ?_, fun hdead => ?_, fun i hi => ?_⟩
  · show i < listener.conns.length
    rw [hnew.conns_eq, List.length_append]
    exact Nat.lt_add_right _ (h.parting.removed_lt i (hremoved ▸ hi))
  · show (s.calls i).countP _ + (s.pendingFunctors_ conn'.loop_).count _ + 0 =
      listener.server.removed.count i
    rw [hremoved]
    replace hi : listener.conns[i]? = some conn' := hi
    rw [hnew.conns_eq] at hi
    rcases Nat.lt_or_ge i s.conns.length with hlt | hge
    · exact h.parting.count_eq i conn' ((List.getElem?_append_left hlt).symm.trans hi)
    · obtain rfl : i = s.conns.length := by
        have := (List.getElem?_eq_some_iff.1 hi).1
        rw [List.length_append, List.length_singleton] at this
        exact Nat.le_antisymm (Nat.le_of_lt_succ this) hge
      rw [calls, hhist, List.count_eq_zero_of_not_mem fun ht => hheld ⟨_, _, ht, rfl⟩,
        List.count_eq_zero_of_not_mem fun hr => Nat.lt_irrefl _ (h.parting.removed_lt _ hr)]
      rfl
  · show (s.calls i).countP _ = (s.pendingFunctors_ listener.threadPool_.baseLoop_).count _ +
      listener.server.removed.count i + 0
    rw [hnew.baseLoop_eq, hremoved]
    exact h.closing halive i
  · exact absurd halive (by rw [show s.alive = false from hdead]; exact Bool.false_ne_true)
  · show i ∈ listener.server.removed
    rw [hremoved]
    exact h.buried i (hnew.destroyed_eq ▸ hi)

/-- **A return of `accept4`.** -/
theorem Settled.handleRead (h : s.Settled) (hk : s.Kept) (halive : s.alive = true)
    {r : AcceptResult} {sockname : Option InetAddress} (hs : s.handleRead r sockname = some s') :
    s'.Settled := by
  obtain ⟨listener, hl, hs⟩ := Option.bind_eq_some_iff.1 hs
  rcases handleRead_cases hl with hsame | ⟨conn, hnew⟩
  · have hnone : listener.conns[s.conns.length]? = none := by
      rw [hsame.conns_eq]
      exact List.getElem?_eq_none_iff.2 (Nat.le_refl _)
    simp only [hnone] at hs
    obtain rfl := Option.some.inj hs
    have hon : Onward s { s with listener := listener } :=
      ⟨rfl, hsame.conns_eq, hsame.destroyed_eq, fun i hi => by
        rw [removed, hsame.server_eq]
        exact hi⟩
    refine h.onward hon ⟨fun i hi => ?_, fun i conn hi => ?_⟩ fun _ i => ?_
    · rw [hon.conns_eq]
      exact h.parting.removed_lt i (by rwa [removed, hsame.server_eq] at hi)
    · rw [removed, hsame.server_eq]
      exact h.parting.count_eq i conn (hon.conns_eq ▸ hi)
    · rw [removed, baseLoop, hsame.server_eq, hsame.baseLoop_eq]
      exact h.closing halive i
  · have hi : listener.conns[s.conns.length]? = some conn := by
      rw [hnew.conns_eq]
      exact List.getElem?_concat_length
    simp only [hi, runInLoop] at hs
    have hu := h.enrol hk halive hnew (Function.update s.conn s.conns.length (s.fresh conn))
    split_ifs at hs
    · obtain ⟨-, c, -, rfl⟩ := callOn_eq_some.1 hs
      exact hu.onward (.same rfl rfl) (hu.parting.visited rfl c) (hu.closing.visited rfl c)
    · obtain rfl := Option.some.inj hs
      exact hu.onward (.same rfl rfl) (hu.parting.queue fun _ he => by cases he)
        (hu.closing.queue fun _ he => by cases he)

/-- **One step.** -/
theorem Settled.step [Fintype LoopId] (h : s.Settled) (hk : s.Kept) (hm : s.Mapped)
    {a : Label LoopId} (hs : s.step a = some s') : s'.Settled := by
  cases a with
  | handleRead r sockname =>
      obtain ⟨halive, hs⟩ := Option.ite_none_right_eq_some.1 hs
      exact h.handleRead hk halive hs
  | doPendingFunctor loop => exact h.doPendingFunctor hk hs
  | handleEvent i op => exact h.handleEvent hk hs
  | destroyServer order => exact h.destroyServer hk hm hs
  | destroy i =>
      obtain ⟨-, hs⟩ := Option.ite_none_left_eq_some.1 hs
      obtain ⟨listener, hl, rfl⟩ := Option.map_eq_some_iff.1 hs
      obtain ⟨conn, ⟨hi, -, hno⟩, rfl⟩ := Listener.destroy_cases hl
      refine ⟨⟨h.parting.removed_lt, h.parting.count_eq⟩, h.closing, h.dead, fun j hj => ?_⟩
      rcases List.mem_cons.1 hj with rfl | hj
      · have hlt : j < s.conns.length := (List.getElem?_eq_some_iff.1 hi).1
        by_contra hmem
        have hholds := (hm j hlt).2 hmem
        rw [holds, beq_iff_eq, show s.conns[j]? = some conn from hi, Option.bind_some] at hholds
        exact hno hholds
      · exact h.buried j hj
  | openOther fd =>
      obtain ⟨listener, hl, rfl⟩ := Option.map_eq_some_iff.1 hs
      obtain ⟨-, rfl⟩ : _ ∧ _ := by simpa [Listener.step] using hl
      exact ⟨⟨h.parting.removed_lt, h.parting.count_eq⟩, h.closing, h.dead, h.buried⟩
  | closeOther fd =>
      obtain ⟨listener, hl, rfl⟩ := Option.map_eq_some_iff.1 hs
      obtain ⟨-, rfl⟩ : _ ∧ _ := by simpa [Listener.step] using hl
      exact ⟨⟨h.parting.removed_lt, h.parting.count_eq⟩, h.closing, h.dead, h.buried⟩

section Run

variable [Fintype LoopId] {nameArg : List Char} {listenAddr : InetAddress} {baseLoop : LoopId}
  {loops : List LoopId} {used : ℤ → Bool} {complete : Bool} {as : List (Label LoopId)}

/-- The map along a run of the server. -/
theorem mapped_of_exec
    (hs : exec step (ofServer nameArg listenAddr baseLoop loops used complete) as = some s)
    (hlt : s.conns.length < 2 ^ 31 - 1) : s.Mapped := by
  obtain ⟨bs, hbs⟩ := listener_run hs
  obtain ⟨calls, hcalls⟩ := exec_project Listener.server
    (fun _ _ _ hs => (Listener.step_change hs).server) hbs
  have hcreated := (Kept.of_exec hs).listener.created_eq
  have hlen : s.listener.server.created.length = s.conns.length := by
    rw [hcreated, List.length_map]
    rfl
  have hmap := ConnectionMap.Kept.of_exec hcalls (hlen ▸ hlt)
  intro i hi
  have hname := hmap.getElem?_created i
  rw [if_pos (hlen ▸ hi), hcreated, List.getElem?_map] at hname
  obtain ⟨conn, hconn, hname⟩ := Option.map_eq_some_iff.1 hname
  rw [holds, beq_iff_eq, show s.conns[i]? = some conn from hconn, Option.bind_some, hname,
    hmap.registry.mem_iff i]
  exact and_iff_right (hlen ▸ hi)

/-- No connection's number is taken back. -/
theorem length_le_of_step {a : Label LoopId} (hs : s.step a = some s') :
    s.conns.length ≤ s'.conns.length := by
  obtain ⟨bs, hbs⟩ := step_run hs
  refine exec_invariant' (I := fun l : Listener LoopId => s.conns.length ≤ l.conns.length)
    (fun l b l' hle hstep => Nat.le_trans hle ?_) (Nat.le_refl _) hbs
  cases Listener.step_change hstep with
  | stored addr sockname hu =>
      rw [Listener.newConnection, List.length_append]
      exact Nat.le_add_right _ _
  | _ => exact Nat.le_refl _

/-- What holds of the server holds along every run in the range of `int`. -/
theorem Settled.of_exec
    (hs : exec Roster.step (Roster.ofServer nameArg listenAddr baseLoop loops used complete) as =
      some s) (hlt : s.conns.length < 2 ^ 31 - 1) : s.Settled := by
  induction as using List.reverseRecOn generalizing s with
  | nil =>
      obtain rfl := Option.some.inj hs
      exact Settled.ofServer nameArg listenAddr baseLoop loops used complete
  | append_singleton as a ih =>
      obtain ⟨u, hu, hs⟩ := exec_concat.1 hs
      have hlt := Nat.lt_of_le_of_lt (length_le_of_step hs) hlt
      exact (ih hu hlt).step (Kept.of_exec hu) (mapped_of_exec hu hlt) hs

/-- **Every connection is destroyed as often as it is removed.**  In every state of every
run with fewer than `2 ^ 31 - 1` connections: the calls of `connectDestroyed` on a
connection, those in the queue included, are its removals; the map holds it if there
are none; before `~TcpServer` the removals, those in the queue included, are the calls
of `handleClose`, and after it no connection is left in the map. -/
theorem destroyed_exactly
    (hs : exec step (ofServer nameArg listenAddr baseLoop loops used complete) as = some s)
    (hlt : s.conns.length < 2 ^ 31 - 1) (hi : s.conns[i]? = some conn) :
    (s.calls i).countP Call.destroys +
        (s.pendingFunctors_ conn.loop_).count (.connectDestroyed i) = s.removed.count i ∧
      (s.holds i = true ↔ i ∉ s.removed) ∧
      (s.alive = true → (s.calls i).countP Call.closes =
        (s.pendingFunctors_ s.baseLoop).count (.removeConnectionInLoop i) + s.removed.count i) ∧
      (s.alive = false → s.holds i = false) := by
  have h := Settled.of_exec hs hlt
  have hilt : i < s.conns.length := (List.getElem?_eq_some_iff.1 hi).1
  have hm := mapped_of_exec hs hlt i hilt
  refine ⟨h.parting.count_eq i conn hi, hm, fun halive => h.closing halive i, fun hdead => ?_⟩
  rw [Bool.eq_false_iff]
  exact fun hholds => hm.1 hholds (h.dead hdead i hilt)

/-- The hypotheses are satisfiable: of two connections on one loop the first is closed by
its peer, and then `~TcpServer` destroys the second. -/
theorem destroyed_exactly_two : ∃ s, exec step
      (ofServer ['s'] ⟨(127, 0, 0, 1), 8000⟩ () [] (fun _ => false) false)
      [.handleRead (.accepted 5 ⟨(10, 0, 0, 1), 5000⟩) none,
        .handleRead (.accepted 6 ⟨(10, 0, 0, 1), 5001⟩) none, .handleEvent 0 .handleClose,
        .doPendingFunctor (), .destroyServer [1]] = some s ∧
    (s.calls 1).countP Call.destroys + (s.pendingFunctors_ ()).count (.connectDestroyed 1) = 1 := by
  obtain ⟨s, hs, hlen, hremoved, conn, hconn⟩ : ∃ s, exec step
      (ofServer ['s'] ⟨(127, 0, 0, 1), 8000⟩ () [] (fun _ => false) false)
      [.handleRead (.accepted 5 ⟨(10, 0, 0, 1), 5000⟩) none,
        .handleRead (.accepted 6 ⟨(10, 0, 0, 1), 5001⟩) none, .handleEvent 0 .handleClose,
        .doPendingFunctor (), .destroyServer [1]] = some s ∧ s.conns.length = 2 ∧
      s.removed = [1, 0] ∧ ∃ conn, s.conns[1]? = some conn := ⟨_, rfl, rfl, rfl, _, rfl⟩
  have hcount := (destroyed_exactly hs (by rw [hlen]; decide) hconn).1
  rw [hremoved] at hcount
  exact ⟨s, hs, hcount⟩

end Run

/-! ### Until the queues are empty -/

/-- The functors still to be run. -/
def work [Fintype LoopId] (s : Roster LoopId) : ℕ := totalWeight Task.work s.pendingFunctors_

/-- The server is there, or no functor will ask for it. -/
def Safe (s : Roster LoopId) : Prop :=
  s.alive = true ∨ ∀ i, .removeConnectionInLoop i ∉ s.pendingFunctors_ s.baseLoop

/-- A removal queues one functor more. -/
theorem work_removeConnectionInLoop [Fintype LoopId] (hk : s.Kept)
    (hs : s.removeConnectionInLoop i = some s') : s'.work = s.work + 1 := by
  obtain ⟨-, u, loop, hu, -, rfl⟩ := removeConnectionInLoop_cases hk hs
  rw [work, work, queueInLoop_pendingFunctors_, totalWeight_push, hu.pendingFunctors_eq]
  rfl

/-- **Each functor takes one off what is left to do.** -/
theorem work_doPendingFunctor [Fintype LoopId] (hk : s.Kept)
    (hs : s.doPendingFunctor loop = some s') : s.work = s'.work + 1 := by
  obtain ⟨task, rest, hq, hs⟩ := doPendingFunctor_eq_some.1 hs
  have hpop : s.work = (s.leave loop rest).work + task.work := totalWeight_pop Task.work hq
  cases task with
  | connectEstablished i | connectDestroyed i =>
      obtain ⟨-, c, -, rfl⟩ := callOn_eq_some.1 hs
      exact hpop
  | removeConnectionInLoop i =>
      rw [hpop, work_removeConnectionInLoop (hk.leave hq fun _ => rfl) hs]
      rfl

omit [DecidableEq LoopId] in
/-- A call can be made unless the connection is destroyed. -/
theorem exists_callOn {call : Call} (hi : i ∉ s.listener.destroyed) :
    ∃ s', s.callOn loop i call = some s' := by
  obtain ⟨c, hc⟩ := (s.conn i).exists_call call
  exact ⟨_, callOn_eq_some.2 ⟨hi, c, hc, rfl⟩⟩

omit [DecidableEq LoopId] in
/-- So can an erasure. -/
theorem exists_erase (hk : s.Kept) (hd : i ∉ s.listener.destroyed) (hi : i < s.conns.length) :
    ∃ s', s.erase i = some s' := by
  have hname : s.listener.server.created[i]? = some s.conns[i].name_ := by
    rw [hk.listener.created_eq, List.getElem?_map,
      show s.listener.conns[i]? = some s.conns[i] from List.getElem?_eq_getElem hi]
    rfl
  obtain ⟨listener, hl⟩ :
      ∃ listener, s.listener.step (.removeConnectionInLoop i) = some listener := by
    rw [Listener.step, if_neg hd, ConnectionMap.step, hname]
    exact ⟨_, rfl⟩
  exact ⟨{ s with listener := listener }, Option.map_eq_some_iff.2 ⟨listener, hl, rfl⟩⟩

/-- **No functor finds its connection destroyed**, or the server, if it is safe. -/
theorem exists_doPendingFunctor (hk : s.Kept) (hsafe : s.Safe)
    (hne : s.pendingFunctors_ loop ≠ []) : ∃ s', s.doPendingFunctor loop = some s' := by
  obtain ⟨task, rest, hq⟩ := List.exists_cons_of_ne_nil hne
  have hmem : task ∈ s.pendingFunctors_ loop := by
    rw [hq]
    exact List.mem_cons_self
  have hplaced := hk.placed loop task hmem
  have hd : task.conn ∉ s.listener.destroyed := fun hd => hk.spared _ hd ⟨loop, task, hmem, rfl⟩
  suffices hstart : ∃ s', (s.leave loop rest).startFunctor loop task = some s' by
    obtain ⟨s', hs'⟩ := hstart
    exact ⟨s', doPendingFunctor_eq_some.2 ⟨task, rest, hq, hs'⟩⟩
  cases task with
  | connectEstablished i | connectDestroyed i => exact exists_callOn hd
  | removeConnectionInLoop i =>
      obtain ⟨rfl, hlt⟩ := hplaced
      have halive : s.alive = true := hsafe.resolve_right fun hno => hno i hmem
      have hleave := hk.leave hq fun _ => rfl
      obtain ⟨u, hu⟩ : ∃ u, (s.leave s.baseLoop rest).erase i = some u :=
        exists_erase hleave hd hlt
      have hloop : u.getLoop i = some s.conns[i].loop_ := by
        rw [getLoop, (hleave.erased hu).conns_eq, leave_conns, List.getElem?_eq_getElem hlt]
        rfl
      refine ⟨u.queueInLoop s.conns[i].loop_ (.connectDestroyed i), ?_⟩
      rw [startFunctor, Roster.removeConnectionInLoop, leave_alive, if_pos halive, hu,
        Option.bind_some, hloop, Option.map_some]

/-- The server stays as safe as it is. -/
theorem Safe.doPendingFunctor (h : s.Safe) (hk : s.Kept)
    (hs : s.doPendingFunctor loop = some s') : s'.Safe := by
  obtain ⟨task, rest, hq, hs⟩ := doPendingFunctor_eq_some.1 hs
  have hplaced := hk.placed loop task (by rw [hq]; exact List.mem_cons_self)
  have hleave : (s.leave loop rest).Safe :=
    h.imp_right fun hno i hmem => hno i (mem_leave hq hmem)
  cases task with
  | connectEstablished i | connectDestroyed i =>
      obtain ⟨-, c, -, rfl⟩ := callOn_eq_some.1 hs
      exact hleave
  | removeConnectionInLoop i =>
      obtain ⟨halive, u, loop', hu, -, rfl⟩ :=
        removeConnectionInLoop_cases (hk.leave hq fun _ => rfl) hs
      exact .inl (hu.alive_eq.trans halive)

/-- With all queues empty, every connection has been established.  While the server is
there its map holds those of them that have not been closed, and `connectDestroyed` has
been called on the closed ones, as often as they were closed; without the server it has
been called on all. -/
def AtRest (s : Roster LoopId) : Prop :=
  ∀ i conn, s.conns[i]? = some conn → s.calls i ≠ [] ∧
    (s.alive = true → (s.holds i = true ↔ ∀ call ∈ s.calls i, call.closes = false) ∧
      (s.calls i).countP Call.destroys = (s.calls i).countP Call.closes) ∧
    (s.alive = false → ∃ call ∈ s.calls i, call.destroys = true)

omit [DecidableEq LoopId] in
/-- **With the queues empty all is at rest**: what was due has been done. -/
theorem Settled.atRest (h : s.Settled) (hk : s.Kept) (hm : s.Mapped)
    (hempty : ∀ loop, s.pendingFunctors_ loop = []) : s.AtRest := by
  intro i conn hi
  have hilt : i < s.conns.length := (List.getElem?_eq_some_iff.1 hi).1
  have hdestroys := h.parting.count_eq i conn hi
  rw [hempty, List.count_nil, List.count_nil, Nat.add_zero] at hdestroys
  refine ⟨fun hnil => ?_, fun halive => ?_, fun hdead => ?_⟩
  · obtain ⟨ops, horder⟩ := hk.orderly i conn hi
    rw [hnil, dues, hempty] at horder
    cases horder
  · have hcloses := h.closing halive i
    rw [hempty, List.count_nil, List.count_nil, Nat.add_zero, Nat.zero_add] at hcloses
    refine ⟨(hm i hilt).trans ?_, hdestroys.trans hcloses.symm⟩
    rw [← List.count_eq_zero, ← hcloses, List.countP_eq_zero]
    simp
  · have hpos := List.count_pos_iff.2 (h.dead hdead i hilt)
    exact List.countP_pos_iff.1 (hdestroys ▸ hpos)

section Run

variable [Fintype LoopId] {nameArg : List Char} {listenAddr : InetAddress} {baseLoop : LoopId}
  {loops : List LoopId} {used : ℤ → Bool} {complete : Bool} {as : List (Label LoopId)}

/-- **The functors come to an end, and all is settled.**  From every state of a run in
which the server is there, or no removal is queued: the loops may take turns as they
like, each functor takes one off what is left, there is always a way to go on until the
queues are empty, and then everything is at rest. -/
theorem settles
    (hs : exec step (ofServer nameArg listenAddr baseLoop loops used complete) as = some s)
    (hlt : s.conns.length < 2 ^ 31 - 1) (hsafe : s.Safe) {turns : List LoopId} {t : Roster LoopId}
    (ht : exec doPendingFunctor s turns = some t) :
    turns.length + t.work = s.work ∧
      (∃ turns' u, exec doPendingFunctor t turns' = some u ∧
        ∀ loop, u.pendingFunctors_ loop = []) ∧
      ((∀ loop, t.pendingFunctors_ loop = []) → t.AtRest) := by
  -- what holds between two functors
  let I (u : Roster LoopId) : Prop := (u.Kept ∧ u.Safe) ∧ u.Settled ∧ u.conns = s.conns
  have hstep (u : Roster LoopId) (loop : LoopId) (u' : Roster LoopId) (h : I u)
      (hu : u.doPendingFunctor loop = some u') : I u' ∧ u.work = u'.work + 1 := by
    obtain ⟨⟨hk, hsafe⟩, hset, hconns⟩ := h
    obtain ⟨hon, -⟩ := doPendingFunctor_settles hk hu hset.parting hset.closing
    exact ⟨⟨⟨hk.doPendingFunctor hu, hsafe.doPendingFunctor hk hu⟩, hset.doPendingFunctor hk hu,
      hon.conns_eq.trans hconns⟩, work_doPendingFunctor hk hu⟩
  have hwork (u : Roster LoopId) : u.work = 0 ↔ ∀ loop, u.pendingFunctors_ loop = [] :=
    totalWeight_eq_zero_iff Task.work_pos
  have hI : I s := ⟨⟨Kept.of_exec hs, hsafe⟩, Settled.of_exec hs hlt, rfl⟩
  have hIt : I t := exec_invariant' (fun u loop u' h hu => (hstep u loop u' h hu).1) hI ht
  refine ⟨length_add_of_exec hstep hI ht, ?_, fun hempty => ?_⟩
  · obtain ⟨turns', u, hu, hzero⟩ := exists_exec_left_eq_zero hstep (fun u h hne => by
      by_contra hno
      refine hne ((hwork u).2 fun loop => by_contra fun hloop => ?_)
      obtain ⟨u', hu'⟩ := exists_doPendingFunctor h.1.1 h.1.2 hloop
      exact hno ⟨loop, u', hu'⟩) hIt
    exact ⟨turns', u, hu, (hwork u).1 hzero⟩
  · -- the functors are steps of the server
    have hrun : ∃ bs, exec Roster.step s bs = some t :=
      exec_project_run id (fun u loop u' hu => ⟨[.doPendingFunctor loop], exec_singleton.2 hu⟩) ht
    obtain ⟨bs, hbs⟩ := hrun
    obtain ⟨⟨hk, -⟩, hset, hconns⟩ := hIt
    exact hset.atRest hk (mapped_of_exec (exec_append.2 ⟨s, hs, hbs⟩) (hconns ▸ hlt)) hempty

/-- The hypotheses are satisfiable: the functors of a connection that its peer closes as
soon as it is established, run one after the other. -/
theorem settles_closed : ∃ s t, exec step
      (ofServer ['s'] ⟨(127, 0, 0, 1), 8000⟩ false [true] (fun _ => false) false)
      [.handleRead (.accepted 5 ⟨(10, 0, 0, 1), 5000⟩) none, .doPendingFunctor true,
        .handleEvent 0 .handleClose] = some s ∧ s.work = 2 ∧
    exec doPendingFunctor s [false, true] = some t ∧ t.AtRest := by
  obtain ⟨s, t, hs, hlen, halive, hwork, ht, hempty⟩ : ∃ s t, exec step
      (ofServer ['s'] ⟨(127, 0, 0, 1), 8000⟩ false [true] (fun _ => false) false)
      [.handleRead (.accepted 5 ⟨(10, 0, 0, 1), 5000⟩) none, .doPendingFunctor true,
        .handleEvent 0 .handleClose] = some s ∧ s.conns.length = 1 ∧ s.alive = true ∧
      s.work = 2 ∧ exec doPendingFunctor s [false, true] = some t ∧
      ∀ loop, t.pendingFunctors_ loop = [] :=
    ⟨_, _, rfl, rfl, rfl, rfl, rfl, fun loop => by cases loop <;> rfl⟩
  exact ⟨s, t, hs, hwork, ht,
    (settles hs (by rw [hlen]; decide) (.inl halive) ht).2.2 hempty⟩

end Run

end Roster

end MuMuduo
