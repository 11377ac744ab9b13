/-
# What many threads send

Any number of threads call `send` on a connection, on the thread of its loop and on
others, while it is established, shut down and closed.  The bytes handed to the kernel,
and behind them those in `outputBuffer_`, are whole strings one after the other, none
mixed with another, and of each thread the first ones that it has sent, in its order
(`wire`).  Three things are asked for: no string is changed while a call of `send` with
it is under way (`Unread`), no `shutdown` stores `kDisconnecting` into a connection that
is disconnected (`InTime`), and the kernel reports the end of the connection to no direct
write (`Unfailing`).

Up to `handleClose` no call is lost (`Accounted`), so none is left behind one that has
been worked on; from then on nothing is worked on any more (`Wired.frozen`).  A `shutdown`
that comes late undoes this: `sendInLoop` tests `!isWriting() || readableBytes() == 0`,
and past a closed channel it writes in front of what is buffered (`not_wire_late`).
-/

import MuMuduo.Foundation.Merge
import MuMuduo.Server.Armed
import MuMuduo.Server.Order
import MuMuduo.Server.Snapshot

namespace MuMuduo

open Foundation

variable {LoopId Tid : Type*}

namespace TcpConnection

/-- The connection with the closings of its write side left out of the record. -/
def unshut (c : TcpConnection) : TcpConnection :=
  { c with fd := c.fd.filter fun e => !e.isShutdown }

variable (c : TcpConnection)

@[simp] theorem unshut_state_ : c.unshut.state_ = c.state_ := rfl
@[simp] theorem unshut_isWriting : c.unshut.isWriting = c.isWriting := rfl
@[simp] theorem unshut_outputBuffer_ : c.unshut.outputBuffer_ = c.outputBuffer_ := rfl
@[simp] theorem unshut_accepted : c.unshut.accepted = c.accepted := rfl
@[simp] theorem unshut_direct : c.unshut.direct = c.direct := rfl
@[simp] theorem unshut_nwrote (r : WriteResult) : c.unshut.nwrote r = c.nwrote r := rfl

/-- To shut down the write side hands no byte over. -/
theorem written_unshut : written c.unshut.fd = written c.fd := by
  show written (c.fd.filter _) = written c.fd
  induction c.fd with
  | nil => rfl
  | cons e fd ih =>
      rw [← List.singleton_append, written_append, ← ih, ← written_append]
      cases e <;> rfl

/-- A direct write does not look at the record. -/
theorem unshut_writeDirect (data : List UInt8) (r : WriteResult) :
    ((c.accept data).writeDirect data r).unshut = (c.unshut.accept data).writeDirect data r := by
  simp only [writeDirect, show (c.accept data).direct = c.direct from rfl,
    show (c.unshut.accept data).direct = c.direct from rfl]
  split_ifs
  · simp [unshut, accept, FdEvent.isShutdown]
  · rfl

/-- Nor does what follows it. -/
theorem unshut_bufferRest (rest : List UInt8) :
    (c.bufferRest rest).unshut = c.unshut.bufferRest rest := by
  by_cases hw : c.isWriting = true
  · rw [bufferRest, bufferRest, if_pos hw, if_pos (c.unshut_isWriting.trans hw)]
    rfl
  · rw [bufferRest, bufferRest, if_neg hw, if_neg (c.unshut_isWriting.trans_ne hw)]
    rfl

/-- Nor does `sendInLoop` as a whole. -/
theorem unshut_sendInLoop (data : List UInt8) (r : WriteResult) :
    (c.sendInLoop data r).1.unshut = (c.unshut.sendInLoop data r).1 := by
  unfold sendInLoop
  dsimp only
  by_cases hrest : (!(c.direct && r.fault)) = true ∧ 0 < data.length - c.nwrote r
  · have hrest' : (!(c.unshut.direct && r.fault)) = true ∧ 0 < data.length - c.unshut.nwrote r :=
      hrest
    rw [if_pos hrest, if_pos hrest', unshut_bufferRest, unshut_writeDirect]
    rfl
  · have hrest' : ¬((!(c.unshut.direct && r.fault)) = true ∧
        0 < data.length - c.unshut.nwrote r) := hrest
    rw [if_neg hrest, if_neg hrest']
    exact unshut_writeDirect c data r

/-- Nor does a write from the buffer. -/
theorem unshut_writeFd (r : WriteResult) : (c.writeFd r).unshut = c.unshut.writeFd r := by
  simp [unshut, writeFd, FdEvent.isShutdown]

/-- Nor does `handleWrite`, up to its test of `state_`. -/
theorem unshut_handleWrite (r : WriteResult) :
    (c.handleWrite r).1.unshut = (c.unshut.handleWrite r).1 := by
  simp only [handleWrite, unshut_isWriting, ← unshut_writeFd, unshut_outputBuffer_]
  split_ifs <;> rfl

/-- `shutdownInLoop` adds what is left out. -/
theorem unshut_shutdownInLoop : c.shutdownInLoop.unshut = c.unshut := by
  unfold shutdownInLoop
  split_ifs
  · simp [unshut, FdEvent.isShutdown]
  · rfl

end TcpConnection

/-! ### What a run keeps -/

/-- The string that call number `id` of `send` was made with. -/
def Core.sentData (c : Core LoopId Tid) (id : ℕ) : List UInt8 :=
  ((c.sends[id]?).map Prod.snd).getD []

/-- The thread that made call number `id` of `send`. -/
def Core.sender (c : Core LoopId Tid) (id : ℕ) : Option Tid := (c.sends[id]?).map Prod.fst

/-- The call is a `sendInLoop` that has not given up. -/
def Frame.admitted : Frame LoopId → Bool
  | .sendInLoopRest .. => true
  | _ => false

/-- No call is left behind one that its thread made later. -/
def Core.Unbroken (c : Core LoopId Tid) : Prop :=
  ∀ id' ∈ c.processed.map Prod.fst, ∀ id u, c.SentBy id u → c.SentBy id' u → id < id' →
    id ∈ c.processed.map Prod.fst

namespace World

/-- The kernel does not answer the direct write of a `sendInLoop` with the end of the
connection. -/
def Unfailing (w : World LoopId Tid) : Label LoopId Tid → Prop
  | .step t o => ∀ f ∈ (w.frames t).head?, f.admitted = true →
      (w.core.conn.direct && o.write.fault) = false
  | _ => True

/-- What holds along the run. -/
structure Wired (cfg : Threads LoopId Tid) (w : World LoopId Tid) [DecidableEq Tid] : Prop where
  armed : w.Armed cfg
  inOrder : w.InOrder cfg
  snapshots : w.Snapshots
  recorded : w.core.Recorded
  streams : w.core.conn.unshut.Streams
  accounted : w.core.conn.state_ ≠ .kDisconnected → w.Accounted
  unbroken : w.core.Unbroken

variable {cfg : Threads LoopId Tid} {w w' : World LoopId Tid} {a : Label LoopId Tid}

variable [DecidableEq LoopId] [DecidableEq Tid]

/-- A step of a call keeps the stream. -/
theorem Wired.streams_step (h : w.Wired cfg) (hin : w.InTime a) (hfail : w.Unfailing a)
    (hm : Moves cfg cfg.compared w a w') : w'.core.conn.unshut.Streams := by
  rcases conn_of_moves hm with ⟨hconn, -⟩ | ⟨t, o, f, rest, rfl, hstack, hcore, -⟩
  · rw [hconn]
    exact h.streams
  · have hmem : f ∈ w.frames t := hstack ▸ List.mem_cons_self
    have hconn : w'.core.conn = f.acts w.core o := by rw [hcore, Core.conn_frameStep]
    rw [hconn]
    cases f with
    | sendInLoopRest buf len id =>
        rw [Frame.acts, TcpConnection.unshut_sendInLoop]
        exact h.streams.sendInLoop (h.armed.succession.loaded t buf len id hmem)
          (hfail _ (by rw [hstack]; rfl) rfl)
    | shutdownStore => exact h.streams.setState (hin (by rw [hstack]; rfl)) _
    | shutdownInLoop =>
        rw [Frame.acts, TcpConnection.unshut_shutdownInLoop]
        exact h.streams
    | connectEstablished =>
        have hs := (h.armed.succession.regular.establishing.connecting hmem rfl).1
        exact h.streams.connectEstablished (by rw [TcpConnection.unshut_state_, hs]; decide)
    | connectDestroyedStore => exact h.streams.disconnect
    | connectDestroyedRemove => exact h.streams.remove
    | handle k =>
        cases k with
        | close => exact h.streams.disconnect
        | write =>
            rw [Frame.acts, TcpConnection.unshut_handleWrite]
            exact h.streams.handleWrite o.write
        | error | read => exact h.streams
    | _ => exact h.streams

/-- **Nothing is sent or worked on any more** once the connection is disconnected. -/
theorem Wired.frozen (h : w.Wired cfg) (hm : Moves cfg cfg.compared w a w')
    (hs : w.core.conn.state_ = .kDisconnected) :
    w'.core.processed = w.core.processed ∧ w'.core.sends = w.core.sends := by
  cases hm with
  | @frame t o f rest hstack =>
      have hmem : f ∈ w.frames t := hstack ▸ List.mem_cons_self
      have hprocesses : f.processes w.core o = [] := by
        cases f with
        | sendInLoopRest buf len id => exact absurd hs (h.armed.succession.loaded t buf len id hmem)
        | _ => rfl
      have hrecords : f.records w.core t = [] := by
        cases f with
        | send => exact if_neg (by simp [hs])
        | _ => rfl
      constructor
      · show (w.core.frameStep cfg cfg.compared t o f).1.processed = _
        rw [Core.processed_frameStep, hprocesses, List.append_nil]
      · show (w.core.frameStep cfg cfg.compared t o f).1.sends = _
        rw [Core.sends_frameStep, hrecords, List.append_nil]
  | _ => exact ⟨rfl, rfl⟩

omit [DecidableEq LoopId] in
/-- **No call is left behind** as long as none is lost: what is outstanding is behind
what has been worked on. -/
theorem InOrder.unbroken (h : w.InOrder cfg) (hacc : w.Accounted) : w.core.Unbroken := by
  intro id' hid' id u hid hu hlt
  by_contra hnot
  have hout : w.Outstanding id := by
    refine (hacc id hid.lt).resolve_left ?_
    rintro ⟨data, hdata⟩
    exact hnot (List.mem_map_of_mem hdata)
  obtain ⟨v, hv⟩ := h.mem_pipeline hout
  have hpair := h.ahead v
  rw [pipeline, taken, List.append_assoc] at hpair
  exact absurd hlt ((List.pairwise_append.1 hpair).2.2 id' hid' id hv u hu hid).asymm

/-- **One step.** -/
theorem Wired.step (h : w.Wired cfg) (hin : w.InTime a) (hun : w.Unread a)
    (hfail : w.Unfailing a) (hm : Moves cfg cfg.compared w a w') : w'.Wired cfg := by
  have hinOrder := h.inOrder.step hm
  have hup (hs' : w'.core.conn.state_ ≠ .kDisconnected) : w.core.conn.state_ ≠ .kDisconnected :=
    fun hs => hs' (h.armed.succession.regular.closed_of_moves hin hm hs)
  have hacc (hs : w.core.conn.state_ ≠ .kDisconnected) : w'.Accounted :=
    (h.accounted hs).step hs hm
  refine ⟨h.armed.step hin hm, hinOrder, h.snapshots.step hun hm, ?_, h.streams_step hin hfail hm,
    fun hs' => hacc (hup hs'), ?_⟩
  · cases hm with
    | frame => exact h.recorded.frameStep _ _ _
    | _ => exact h.recorded
  · by_cases hs : w.core.conn.state_ = .kDisconnected
    · obtain ⟨hprocessed, hsends⟩ := h.frozen hm hs
      intro id' hid' id u hid hu hlt
      rw [hprocessed] at hid' ⊢
      rw [Core.SentBy, hsends] at hid hu
      exact h.unbroken id' hid' id u hid hu hlt
    · exact hinOrder.unbroken (hacc hs)

omit [DecidableEq LoopId] in
/-- Before the server has the connection. -/
theorem Wired.init (sockfd : ℤ) (mark : ℕ) (complete high : Bool) :
    (World.init (.ofFd sockfd mark complete high) : World LoopId Tid).Wired cfg where
  armed := .init sockfd mark complete high
  inOrder := .init _
  snapshots := ⟨Holds.init _, fun _ _ h => by cases h⟩
  recorded := rfl
  streams := TcpConnection.Streams.ofFd sockfd mark complete high
  accounted _ _ h := absurd h (Nat.not_lt_zero _)
  unbroken _ hid := by cases hid

omit [DecidableEq LoopId] in
/-- What has been worked on are the strings as they were sent. -/
theorem Wired.processed_eq (h : w.Wired cfg) :
    w.core.processed.map Prod.snd = (w.core.processed.map Prod.fst).map w.core.sentData := by
  rw [List.map_map]
  refine List.map_congr_left fun p hp => ?_
  obtain ⟨t, ht⟩ := h.snapshots.processed p.1 p.2 hp
  rw [Function.comp_apply, Core.sentData, ht]
  rfl

omit [DecidableEq LoopId] in
/-- What has been worked on is a merge of what the threads have sent. -/
theorem Wired.merge (h : w.Wired cfg) :
    Merge w.core.sender (List.range w.core.sends.length) (w.core.processed.map Prod.fst) := by
  have hlt := h.inOrder.processed_lt
  refine .of_sorted List.pairwise_lt_range (fun id hid => List.mem_range.2 (hlt id hid)) ?_
    fun id' hid' id hid heq hbefore => ?_
  · refine h.inOrder.pairwise_processed.imp_of_mem fun {id id'} hid hid' hahead heq => ?_
    obtain ⟨u, hu⟩ := Core.exists_sentBy (hlt id hid)
    exact hahead u hu (heq.symm.trans hu)
  · obtain ⟨u, hu⟩ := Core.exists_sentBy (hlt id' hid')
    exact h.unbroken id' hid' id u (heq.trans hu) hu hbefore

omit [DecidableEq LoopId] in
/-- The bytes handed to the kernel and those in `outputBuffer_` are what has been worked
on. -/
theorem Wired.stream_eq (h : w.Wired cfg) :
    written w.core.conn.fd ++ w.core.conn.outputBuffer_.content =
      ((w.core.processed.map Prod.fst).map w.core.sentData).flatten := by
  rw [← h.processed_eq, ← h.recorded, ← TcpConnection.written_unshut]
  exact h.streams.stream

/-- **The stream of many threads.**  In every run of any number of threads in which no
string changes on the way, no `shutdown` comes late and no direct write fails for good,
the bytes handed to the kernel and those in `outputBuffer_` are the strings of calls of
`send`, each in one piece, and these calls are a merge of the first ones of each thread. -/
theorem wire {sockfd : ℤ} {mark : ℕ} {complete high : Bool} {as : List (Label LoopId Tid)}
    (hs : exec (step cfg cfg.compared) (init (.ofFd sockfd mark complete high)) as = some w)
    (htime : Along (step cfg cfg.compared) InTime (init (.ofFd sockfd mark complete high)) as)
    (hun : Along (step cfg cfg.compared) Unread (init (.ofFd sockfd mark complete high)) as)
    (hfail : Along (step cfg cfg.compared) Unfailing (init (.ofFd sockfd mark complete high))
      as) :
    written w.core.conn.fd ++ w.core.conn.outputBuffer_.content =
        ((w.core.processed.map Prod.fst).map w.core.sentData).flatten ∧
      Merge w.core.sender (List.range w.core.sends.length) (w.core.processed.map Prod.fst) := by
  have h : w.Wired cfg :=
    exec_invariant (I := fun w => w.Wired cfg)
      (fun _ _ _ h ha hs => h.step ha.1 ha.2.1 ha.2.2 (moves_of_step hs))
      (Wired.init sockfd mark complete high)
      (along_and.2 ⟨htime, along_and.2 ⟨hun, hfail⟩⟩) hs
  exact ⟨h.stream_eq, h.merge⟩

instance (w : World LoopId Tid) (a : Label LoopId Tid) : Decidable (w.Unfailing a) :=
  match a with
  | .step _ _ => by unfold Unfailing; infer_instance
  | .loop .. | .event | .newConnection | .destroyServer | .call .. | .quit .. | .wakeup ..
  | .poke .. => .isTrue trivial

/-- The hypotheses are satisfiable: the string of the sub-loop's thread overtakes that of
another thread. -/
theorem wire_overtaking :
    ∃ w, exec (step .duo Threads.duo.compared) fresh overtaking = some w ∧
      w.core.processed.map Prod.fst = [1, 0] ∧
      written w.core.conn.fd ++ w.core.conn.outputBuffer_.content = [1, 2, 3, 1, 2, 3] := by
  have hs : exec (step .duo Threads.duo.compared) fresh overtaking = some _ := rfl
  exact ⟨_, hs, by decide,
    (wire hs (by decide +kernel) (by decide +kernel) (by decide +kernel)).1.trans (by decide)⟩

/-- **A late `shutdown` puts the stream out of order.**  `sendInLoop` does not find
`kDisconnected`, nor the channel writing, and writes past the two bytes that are in the
buffer. -/
theorem not_wire_late :
    Along (step .duo Threads.duo.compared) Unread fresh late ∧
      Along (step .duo Threads.duo.compared) Unfailing fresh late ∧
      ∃ w, exec (step .duo Threads.duo.compared) fresh late = some w ∧
        written w.core.conn.fd = [1, 1, 2, 3] ∧ w.core.conn.outputBuffer_.content = [2, 3] ∧
        w.core.processed = [(0, [1, 2, 3]), (1, [1, 2, 3])] := by
  exact ⟨by decide +kernel, by decide +kernel, _, rfl, by decide, by decide, by decide⟩

end World

end MuMuduo
