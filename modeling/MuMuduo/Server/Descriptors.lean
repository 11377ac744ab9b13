/-
# The descriptors in the pollers

`connectDestroyed` takes the channel out of the poller, and the connection is destroyed
after it.  In between, the calls that are still to come may put the channel back: in
`kDisconnecting` a `sendInLoop` that leaves bytes over and a `handleWrite` that drains
the buffer, and `handleClose` in every state.  All other calls leave a channel that is
out where it is (`TcpConnection.Underway.operates_iff`), so over the runs of a server
the channels of destroyed connections stay out exactly as long as no such call is made.

Then a channel in a poller belongs to a connection whose descriptor is open, and no two
of them to one descriptor (`watched_apart`).
-/

import MuMuduo.Server.Settlement

namespace MuMuduo

open Foundation

open TcpConnection (Call)

namespace TcpConnection

variable {c c' : TcpConnection}

/-- A call that leaves a channel alone that is out of its poller, by `state_`. -/
def Withholds (c : TcpConnection) : Op → Prop
  | .sendInLoop data r => c.state_ = .kDisconnecting → c.enables data r = false
  | .handleWrite r => c.state_ = .kDisconnecting → c.drains r = false
  | .handleClose => False
  | .shutdown | .connectDestroyed => True

/-- What holds of a connection from `connectEstablished` on. -/
structure Underway (c : TcpConnection) : Prop where
  registered : c.Registered
  begun : c.state_ ≠ .kConnecting
  idle : c.state_ = .kDisconnected → c.isWriting = false
  parted : c.channel_.index_ = kNew → c.state_ ≠ .kConnected

/-- Every call keeps the channel in step with the poller. -/
theorem Registered.step (h : c.Registered) {op : Op} (hc : c.step op = some c') :
    c'.Registered := by
  have hcall : c.call (.op op) = some c' := hc
  refine call_invariant (P := fun w => w.1.Registered () w.2 w.2.events_)
    (fun u op hu => ?_) h hcall
  exact (Channel.perform_registered hu op).1

/-- `connectEstablished` is where it begins. -/
theorem Underway.connectEstablished (h : c.Registered) : c.connectEstablished.Underway := by
  have hin : c.connectEstablished.channel_.index_ ≠ kNew :=
    h.index_perform_ne (c := c.setState .kConnected) (by rintro ⟨⟩)
  exact ⟨h.perform (c := c.setState .kConnected) _, (by rintro ⟨⟩), (by rintro ⟨⟩),
    fun hindex => absurd hindex hin⟩

/-- **The channel is out of the poller exactly if it was, and the call makes no
operation.** -/
theorem Registered.index_of_step (h : c.Registered) {op : Op}
    (hop : (Call.op op).destroys = false) (hc : c.step op = some c') :
    c'.channel_.index_ = kNew ↔ c.channel_.index_ = kNew ∧ c.operates op = none := by
  have hwatch := watch_of_step hop hc
  have hindex : c'.channel_.index_ =
      (c.operates op).elim c.channel_.index_ fun o => (c.perform o).channel_.index_ := by
    rw [(Prod.mk.inj hwatch).2]
    cases c.operates op <;> rfl
  rw [hindex]
  cases hoperates : c.operates op with
  | none => simp
  | some o =>
      exact iff_of_false (h.index_perform_ne (operates_ne_remove hoperates)) fun hno => by
        cases hno.2

/-- **On a channel that is out of the poller a call makes no operation exactly if it
withholds.** -/
theorem Underway.operates_iff (h : c.Underway) (hout : c.channel_.index_ = kNew) {op : Op} :
    c.operates op = none ↔ c.Withholds op := by
  -- neither connecting nor connected
  have hstate (hs : c.state_ ≠ .kDisconnected) : c.state_ = .kDisconnecting := by
    cases hstate : c.state_ with
    | kDisconnected => exact absurd hstate hs
    | kConnecting => exact absurd hstate h.begun
    | kConnected => exact absurd hstate (h.parted hout)
    | kDisconnecting => rfl
  cases op with
  | sendInLoop data r =>
      rw [operates, ite_eq_right_iff, Withholds]
      constructor
      · intro hno hs
        refine Bool.eq_false_iff.2 fun henables => ?_
        cases hno ⟨by rw [hs]; rintro ⟨⟩, henables⟩
      · rintro hno ⟨hs, henables⟩
        rw [hno (hstate hs)] at henables
        cases henables
  | handleWrite r =>
      rw [operates, ite_eq_right_iff, Withholds]
      constructor
      · intro hno _
        refine Bool.eq_false_iff.2 fun hdrains => ?_
        cases hno hdrains
      · intro hno hdrains
        by_cases hs : c.state_ = .kDisconnected
        · rw [drains, h.idle hs] at hdrains
          cases hdrains
        · rw [hno (hstate hs)] at hdrains
          cases hdrains
  | handleClose => exact iff_of_false (fun hno => by cases hno) id
  | shutdown | connectDestroyed => exact iff_of_true rfl trivial

/-- **One call.** -/
theorem Underway.step (h : c.Underway) {op : Op} (hc : c.step op = some c') : c'.Underway where
  registered := h.registered.step hc
  begun := state_ne_of_step (by rintro ⟨⟩) (by rintro ⟨⟩) h.begun hc
  idle := idle_of_step h.idle hc
  parted hindex := by
    cases hop : (Call.op op).destroys with
    | false =>
        have hout := ((h.registered.index_of_step hop hc).1 hindex).1
        exact state_ne_of_step (by rintro ⟨⟩) (by rintro ⟨⟩) (h.parted hout) hc
    | true =>
        cases op with
        | connectDestroyed =>
            obtain rfl := Option.some.inj hc
            unfold TcpConnection.connectDestroyed
            split_ifs with hs
            · rintro ⟨⟩
            · exact hs
        | _ => cases hop

end TcpConnection

namespace Roster

variable {LoopId : Type*} {s s' : Roster LoopId} {i : ℕ} {loop : LoopId}
  {conn : Endpoint LoopId}

/-- `connectDestroyed` has been called on connection `i`. -/
def Parted (s : Roster LoopId) (i : ℕ) : Prop := ∃ call ∈ s.calls i, call.destroys = true

/-- The channels of the connections on which `connectDestroyed` has been called are out
of their pollers. -/
def Vacated (s : Roster LoopId) : Prop := ∀ i, s.Parted i → (s.conn i).Removed

/-- A call on a connection whose channel is out of the poller withholds. -/
def Spares (s : Roster LoopId) : Label LoopId → Prop
  | .handleEvent i op => (s.conn i).channel_.index_ = kNew → (s.conn i).Withholds op
  | _ => True

/-- An established connection, as its calls have made it. -/
theorem Kept.underway (h : s.Kept) (hi : s.conns[i]? = some conn)
    (hs : (s.conn i).state_ ≠ .kConnecting) :
    (s.conn i).Underway ∧ ((s.conn i).channel_.index_ = kNew → s.Parted i) := by
  obtain ⟨ops, hops⟩ := (h.orderly i conn hi).made.resolve_left (h.calls_ne_nil hi hs)
  have hrun := h.runs i conn hi
  rw [hops] at hrun
  obtain ⟨c, hc, hrun⟩ := exec_cons.1 hrun
  obtain rfl := Option.some.inj hc
  rw [TcpConnection.exec_call_map] at hrun
  have hbegin : (s.fresh conn).connectEstablished.Underway :=
    .connectEstablished (TcpConnection.Registered.ofFd ..)
  refine ⟨exec_invariant' (fun _ _ _ h hc => h.step hc) hbegin hrun,
    fun hindex => by_contra fun hno => ?_⟩
  -- without `connectDestroyed` the channel has stayed in the poller
  have hnone : ∀ op ∈ ops, (Call.op op).destroys = false := fun op hop =>
    Bool.eq_false_iff.2 fun hd => hno ⟨.op op, by
      rw [hops]
      exact List.mem_cons_of_mem _ (List.mem_map_of_mem hop), hd⟩
  refine (exec_invariant (I := fun c : TcpConnection => c.Registered ∧ c.channel_.index_ ≠ kNew)
    (C := fun _ op => (Call.op op).destroys = false) (fun c op c' hI hd hc => ?_) ?_
    (along_of_forall_mem hnone _) hrun).2 hindex
  · exact ⟨hI.1.step hc, fun hindex => hI.2 ((hI.1.index_of_step hd hc).1 hindex).1⟩
  · exact ⟨hbegin.registered, fun hindex => hbegin.parted hindex rfl⟩

/-- One call more. -/
theorem parted_visited {call : Call} {c : TcpConnection} {j : ℕ} :
    (s.visited loop i call c).Parted j ↔ s.Parted j ∨ j = i ∧ call.destroys = true := by
  unfold Parted
  rw [calls_visited]
  split_ifs with hj
  · simp [hj, or_and_right, exists_or]
  · simp [hj]

/-- A call that keeps its channel out of the poller, if it is to be out. -/
theorem Vacated.visited (h : s.Vacated) {call : Call} {c : TcpConnection}
    (hc : s.Parted i ∨ call.destroys = true → c.Removed) :
    (s.visited loop i call c).Vacated := by
  intro j hj
  rw [conn_visited]
  rw [parted_visited] at hj
  split_ifs with hji
  · subst hji
    exact hc (hj.imp_right And.right)
  · exact h j (hj.resolve_right fun hd => hji hd.1)

/-- The first call of a connection. -/
theorem Vacated.connectEstablished (h : s.Vacated) (hnil : s.calls i = [])
    (hs : s.callOn loop i .connectEstablished = some s') : s'.Vacated := by
  obtain ⟨-, c, -, rfl⟩ := callOn_eq_some.1 hs
  refine h.visited fun hparted => ?_
  obtain ⟨call, hmem, -⟩ := hparted.resolve_right Bool.false_ne_true
  rw [hnil] at hmem
  cases hmem

/-- `connectDestroyed` itself. -/
theorem Vacated.connectDestroyed (h : s.Vacated) (hr : (s.conn i).Registered)
    (hs : s.callOn loop i (.op .connectDestroyed) = some s') : s'.Vacated := by
  obtain ⟨-, c, hc, rfl⟩ := callOn_eq_some.1 hs
  have hstep : (s.conn i).step .connectDestroyed = some c := hc
  exact h.visited fun _ => (hr.step hstep).removed_iff.2 (TcpConnection.index_of_destroys rfl hc)

/-- A new connection, before its first call. -/
theorem Vacated.enrol (h : s.Vacated) (hnil : s.calls i = []) (listener : Listener LoopId)
    (c : TcpConnection) :
    Vacated { s with listener := listener, conn := Function.update s.conn i c } := by
  intro j hj
  have hne : j ≠ i := by
    rintro rfl
    obtain ⟨call, hmem, -⟩ : s.Parted j := hj
    rw [hnil] at hmem
    cases hmem
  show (Function.update s.conn i c j).Removed
  rw [Function.update_of_ne hne]
  exact h j hj

/-- At the start no call has been made. -/
theorem Vacated.ofServer (nameArg : List Char) (listenAddr : InetAddress) (baseLoop : LoopId)
    (loops : List LoopId) (used : ℤ → Bool) (complete : Bool) :
    (ofServer nameArg listenAddr baseLoop loops used complete).Vacated := by
  rintro i ⟨call, hmem, -⟩
  cases hmem

/-- On a connection that has been destroyed `connectDestroyed` has been called. -/
theorem parted_of_destroyed (hk : s.Kept) (h : s.Settled) (hi : i ∈ s.listener.destroyed) :
    s.Parted i := by
  have hlt := hk.listener.destroyed_lt i hi
  have hconn : s.conns[i]? = some s.conns[i] := List.getElem?_eq_getElem hlt
  have hcount := h.parting.count_eq i _ hconn
  have hnone : (s.pendingFunctors_ s.conns[i].loop_).count (.connectDestroyed i) = 0 :=
    List.count_eq_zero_of_not_mem fun ht => hk.spared i hi ⟨_, _, ht, rfl⟩
  have hpos := List.count_pos_iff.2 (h.buried i hi)
  rw [hnone, List.count_nil, Nat.add_zero] at hcount
  exact List.countP_pos_iff.1 (hcount ▸ hpos)

variable [DecidableEq LoopId]

/-! ### The steps -/

/-- `removeConnectionInLoop` makes no call on the connection. -/
theorem Vacated.removeConnectionInLoop (hs : s.removeConnectionInLoop i = some s') :
    s'.Vacated ↔ s.Vacated := by
  obtain ⟨-, hs⟩ := Option.ite_none_right_eq_some.1 hs
  obtain ⟨u, hu, hs⟩ := Option.bind_eq_some_iff.1 hs
  obtain ⟨loop, -, rfl⟩ := Option.map_eq_some_iff.1 hs
  obtain ⟨-, m, -, rfl⟩ := erase_cases hu
  exact Iff.rfl

/-- Nor does the close callback. -/
theorem Vacated.removeConnection (hs : s.removeConnection loop i = some s') :
    s'.Vacated ↔ s.Vacated := by
  obtain ⟨-, hs⟩ := Option.ite_none_right_eq_some.1 hs
  unfold runInLoop at hs
  split_ifs at hs
  · exact removeConnectionInLoop hs
  · obtain rfl := Option.some.inj hs
    exact Iff.rfl

/-- **A functor.** -/
theorem Vacated.doPendingFunctor (h : s.Vacated) (hk : s.Kept)
    (hs : s.doPendingFunctor loop = some s') : s'.Vacated := by
  obtain ⟨task, rest, hq, hs⟩ := doPendingFunctor_eq_some.1 hs
  have hplaced := hk.placed loop task (by rw [hq]; exact List.mem_cons_self)
  have hleave : (s.leave loop rest).Vacated := h
  cases task with
  | connectEstablished i =>
      obtain ⟨conn, hi, rfl⟩ := Option.map_eq_some_iff.1 hplaced.1
      have horder := hk.orderly i conn hi
      rw [dues_cons hq, if_pos rfl, Task.due, if_pos rfl] at horder
      exact hleave.connectEstablished horder.eq_nil hs
  | connectDestroyed i =>
      obtain ⟨conn, hi, -⟩ := Option.map_eq_some_iff.1 hplaced
      exact hleave.connectDestroyed (hk.registered hi).1 hs
  | removeConnectionInLoop i => exact (removeConnectionInLoop hs).2 hleave

/-- **A call keeps all in place exactly if it withholds.** -/
theorem Vacated.handleEvent (h : s.Vacated) (hk : s.Kept) {op : TcpConnection.Op}
    (hs : s.handleEvent i op = some s') : s'.Vacated ↔ s.Spares (.handleEvent i op) := by
  obtain ⟨conn, c, hi, -, hstate, hc, hdestroys, hs⟩ := handleEvent_cases hs
  obtain ⟨hunder, hparted⟩ := hk.underway hi hstate
  have hremoved : c.Removed ↔ (s.conn i).channel_.index_ = kNew ∧ (s.conn i).operates op = none :=
    (hunder.step hc).registered.removed_iff.trans (hunder.registered.index_of_step hdestroys hc)
  have hvisited : s'.Vacated ↔ (s.visited conn.loop_ i (.op op) c).Vacated := by
    split_ifs at hs
    · exact removeConnection hs
    · rw [hs]
  rw [hvisited]
  constructor
  · intro hv hindex
    have hp : (s.visited conn.loop_ i (.op op) c).Parted i :=
      parted_visited.2 (.inl (hparted hindex))
    have hout := hv i hp
    rw [conn_visited, if_pos rfl, hremoved] at hout
    exact (hunder.operates_iff hindex).1 hout.2
  · intro hspares
    refine h.visited fun hp => ?_
    rw [hdestroys] at hp
    have hindex := hunder.registered.removed_iff.1 (h i (hp.resolve_right Bool.false_ne_true))
    exact hremoved.2 ⟨hindex, (hunder.operates_iff hindex).2 (hspares hindex)⟩

/-- The body of the loop in `~TcpServer` calls `connectDestroyed`, or queues it. -/
theorem Vacated.release (h : s.Vacated) (hk : s.Kept) (hs : s.release i = some s') :
    s'.Vacated := by
  obtain ⟨u, conn, hu, hi, -, hs⟩ := release_cases hs
  have hku := hk.erase hu
  have hvu : u.Vacated := by
    obtain ⟨-, m, -, rfl⟩ := erase_cases hu
    exact h
  unfold runInLoop at hs
  split_ifs at hs
  · exact hvu.connectDestroyed (hku.registered hi).1 hs
  · obtain rfl := Option.some.inj hs
    exact hvu

/-- A return of `accept4`. -/
theorem Vacated.handleRead (h : s.Vacated) (hk : s.Kept) {r : AcceptResult}
    {sockname : Option InetAddress} (hs : s.handleRead r sockname = some s') : s'.Vacated := by
  obtain ⟨listener, hl, hs⟩ := Option.bind_eq_some_iff.1 hs
  obtain ⟨hhist, -⟩ := hk.unborn (Nat.le_refl s.conns.length)
  have hcalls : s.calls s.conns.length = [] := by rw [calls, hhist, List.map_nil]
  cases hconn : listener.conns[s.conns.length]? with
  | none =>
      simp only [hconn] at hs
      obtain rfl := Option.some.inj hs
      exact h
  | some conn =>
      have hnew := h.enrol hcalls listener (s.fresh conn)
      simp only [hconn, runInLoop] at hs
      split_ifs at hs
      · exact hnew.connectEstablished hcalls hs
      · obtain rfl := Option.some.inj hs
        exact hnew

/-- **One step.** -/
theorem Vacated.step [Fintype LoopId] (h : s.Vacated) (hk : s.Kept) {a : Label LoopId}
    (hs : s.step a = some s') : s'.Vacated ↔ s.Spares a := by
  cases a with
  | handleRead r sockname =>
      exact iff_of_true (h.handleRead hk (Option.ite_none_right_eq_some.1 hs).2) trivial
  | doPendingFunctor loop => exact iff_of_true (h.doPendingFunctor hk hs) trivial
  | handleEvent i op => exact h.handleEvent hk hs
  | destroyServer order =>
      refine iff_of_true ?_ trivial
      obtain ⟨-, hs⟩ := Option.ite_none_right_eq_some.1 hs
      obtain ⟨u, hu, rfl⟩ := Option.map_eq_some_iff.1 hs
      exact (exec_invariant' (I := fun u : Roster LoopId => u.Kept ∧ u.Vacated)
        (fun _ _ _ hI hs => ⟨hI.1.release hs, hI.2.release hI.1 hs⟩) ⟨hk, h⟩ hu).2
  | destroy i =>
      obtain ⟨-, hs⟩ := Option.ite_none_left_eq_some.1 hs
      obtain ⟨listener, -, rfl⟩ := Option.map_eq_some_iff.1 hs
      exact iff_of_true h trivial
  | openOther fd | closeOther fd =>
      obtain ⟨listener, -, rfl⟩ := Option.map_eq_some_iff.1 hs
      exact iff_of_true h trivial

section Run

variable [Fintype LoopId] {nameArg : List Char} {listenAddr : InetAddress} {baseLoop : LoopId}
  {loops : List LoopId} {used : ℤ → Bool} {complete : Bool} {as : List (Label LoopId)}

/-- **What the pollers watch are open descriptors, each for one connection.**  In every
run the channels of the connections on which `connectDestroyed` has been called are out
of their pollers in all states, exactly if each call that finds a channel out of the
poller leaves it there.  Then a connection that has been destroyed has no channel in a
poller; and a channel in a poller is that of a descriptor that is open, and of no other
connection's. -/
theorem watched_apart
    (hs : exec step (ofServer nameArg listenAddr baseLoop loops used complete) as = some s)
    (hlt : s.conns.length < 2 ^ 31 - 1) :
    (Foundation.Safe step Vacated (ofServer nameArg listenAddr baseLoop loops used complete) as ↔
        Along step Spares (ofServer nameArg listenAddr baseLoop loops used complete) as) ∧
      (Along step Spares (ofServer nameArg listenAddr baseLoop loops used complete) as →
        (∀ i ∈ s.listener.destroyed, (s.conn i).Removed) ∧
          (∀ i conn, s.conns[i]? = some conn → ¬(s.conn i).Removed →
            (s.conn i).channel_.fd_ = conn.socket_ ∧ s.listener.used conn.socket_ = true) ∧
          ∀ i j, i < s.conns.length → j < s.conns.length → ¬(s.conn i).Removed →
            ¬(s.conn j).Removed → (s.conn i).channel_.fd_ = (s.conn j).channel_.fd_ → i = j) := by
  have hkept := Kept.ofServer nameArg listenAddr baseLoop loops used complete
  have hvacated := Vacated.ofServer nameArg listenAddr baseLoop loops used complete
  refine ⟨safe_iff_along_of_exec (fun _ _ _ h hs => h.step hs)
    (fun _ _ _ hk h hs => h.step hk hs) hkept hvacated hs, fun hspares => ?_⟩
  have hk := Kept.of_exec hs
  have h := Settled.of_exec hs hlt
  have hv : s.Vacated := (exec_invariant (I := fun u : Roster LoopId => u.Kept ∧ u.Vacated)
    (fun _ _ _ hI hC hs => ⟨hI.1.step hs, (hI.2.step hI.1 hs).2 hC⟩) ⟨hkept, hvacated⟩
    hspares hs).2
  have hgone : ∀ i ∈ s.listener.destroyed, (s.conn i).Removed :=
    fun i hi => hv i (parted_of_destroyed hk h hi)
  have howner {i : ℕ} {conn : Endpoint LoopId} (hi : s.conns[i]? = some conn)
      (hr : ¬(s.conn i).Removed) : i ∈ s.listener.owners conn.socket_ :=
    Listener.mem_owners.2 ⟨fun hd => hr (hgone i hd), conn, hi, rfl⟩
  refine ⟨hgone, fun i conn hi hr => ⟨(hk.registered hi).2,
    hk.listener.used_of_owner _ i (howner hi hr)⟩, fun i j hi hj hri hrj hfd => ?_⟩
  have hci : s.conns[i]? = some s.conns[i] := List.getElem?_eq_getElem hi
  have hcj : s.conns[j]? = some s.conns[j] := List.getElem?_eq_getElem hj
  rw [(hk.registered hci).2, (hk.registered hcj).2] at hfd
  exact hk.listener.owner_unique _ i j (howner hci hri) (hfd ▸ howner hcj hrj)

instance (c : TcpConnection) (op : TcpConnection.Op) : Decidable (c.Withholds op) :=
  match op with
  | .sendInLoop .. | .handleWrite _ => inferInstanceAs (Decidable (_ = _ → _ = _))
  | .handleClose => .isFalse id
  | .shutdown | .connectDestroyed => .isTrue trivial

omit [DecidableEq LoopId] [Fintype LoopId] in
instance (s : Roster LoopId) (a : Label LoopId) : Decidable (s.Spares a) :=
  match a with
  | .handleEvent i op => inferInstanceAs (Decidable (_ = _ → (s.conn i).Withholds op))
  | .handleRead .. | .doPendingFunctor _ | .destroyServer _ | .destroy _ | .openOther _
  | .closeOther _ => .isTrue trivial

/-- The hypotheses are satisfiable: descriptor `5` is accepted again after the connection
that had it is gone.  And `handleWrite` puts a channel back: in `kDisconnecting` a message
callback destroys the server, and then the same event writes what is left over. -/
theorem watched_apart_reused : (∃ s, exec step
      (ofServer ['s'] ⟨(127, 0, 0, 1), 8000⟩ () [] (fun _ => false) false)
      [.handleRead (.accepted 5 ⟨(10, 0, 0, 1), 5000⟩) none, .handleEvent 0 .handleClose,
        .doPendingFunctor (), .destroy 0,
        .handleRead (.accepted 5 ⟨(10, 0, 0, 2), 5000⟩) none] = some s ∧
    s.conns.map Endpoint.socket_ = [5, 5] ∧ (s.conn 0).Removed) ∧
    ¬Foundation.Safe step Vacated
      (ofServer ['s'] ⟨(127, 0, 0, 1), 8000⟩ () [] (fun _ => false) false)
      [.handleRead (.accepted 5 ⟨(10, 0, 0, 1), 5000⟩) none,
        .handleEvent 0 (.sendInLoop [1, 2, 3] (.wrote 1)), .handleEvent 0 .shutdown,
        .destroyServer [0], .handleEvent 0 (.handleWrite (.wrote 2))] := by
  constructor
  · obtain ⟨s, hs, hlen, hsocket, hdestroyed⟩ : ∃ s, exec step
        (ofServer ['s'] ⟨(127, 0, 0, 1), 8000⟩ () [] (fun _ => false) false)
        [.handleRead (.accepted 5 ⟨(10, 0, 0, 1), 5000⟩) none, .handleEvent 0 .handleClose,
          .doPendingFunctor (), .destroy 0,
          .handleRead (.accepted 5 ⟨(10, 0, 0, 2), 5000⟩) none] = some s ∧ s.conns.length = 2 ∧
        s.conns.map Endpoint.socket_ = [5, 5] ∧ 0 ∈ s.listener.destroyed :=
      ⟨_, rfl, rfl, rfl, List.mem_cons_self⟩
    exact ⟨s, hs, hsocket, ((watched_apart hs (by rw [hlen]; decide)).2
      (by decide +kernel)).1 0 hdestroyed⟩
  · obtain ⟨s, hs, hlen⟩ : ∃ s, exec step
        (ofServer ['s'] ⟨(127, 0, 0, 1), 8000⟩ () [] (fun _ => false) false)
        [.handleRead (.accepted 5 ⟨(10, 0, 0, 1), 5000⟩) none,
          .handleEvent 0 (.sendInLoop [1, 2, 3] (.wrote 1)), .handleEvent 0 .shutdown,
          .destroyServer [0], .handleEvent 0 (.handleWrite (.wrote 2))] = some s ∧
        s.conns.length = 1 := ⟨_, rfl, rfl⟩
    rw [(watched_apart hs (by rw [hlen]; decide)).1]
    decide +kernel

end Run

end Roster

end MuMuduo
