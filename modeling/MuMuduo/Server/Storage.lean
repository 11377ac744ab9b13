/-
# Many threads on one storage

`MuMuduo.Connection.Storage` runs the calls of one thread next to the `Buffer` that
stores `outputBuffer_`.  Here the whole server runs next to it, with any number of
threads that send, shut down, close and destroy.  A step makes at most one operation on
the buffer, and only `sendInLoop` and `handleWrite` make one (`Frame.bufferOp`); where
`isInLoopThread` answers what its body compares, these run on the loop's thread and never
at the same time, so that the storage goes from one operation to the next.

Under the three conditions of `MuMuduo.Server.Wire` the bytes handed to the kernel and
the readable bytes of the storage are then whole strings, a merge of what the threads
have sent, in every state of every run that stays inside the storage; and a run stays
inside exactly if each length left over by the kernel is one that `makeSpace` judges
right (`delivers_iff_fits`).
-/

import MuMuduo.Connection.Storage
import MuMuduo.Server.Wire

namespace MuMuduo

open Foundation

variable {LoopId Tid : Type*}

/-- What an operation does to the queue that the buffer stands for. -/
def Buffer.Op.onQueue (q : Fifo UInt8) : Buffer.Op → Fifo UInt8
  | .append data => q.push data
  | .retrieve len | .retriveAsString len => q.pop len
  | .retrieveAll | .retrieveAllAsString => q.popAll
  | .ensureWriteableBytes _ => q

/-- The queue beside the storage makes the same operation. -/
theorem Buffer.Tracked.queue_of_step {s t : Buffer.Tracked} {op : Buffer.Op}
    (h : s.step op = some t) : t.queue = op.onQueue s.queue := by
  cases op with
  | append | retrieveAllAsString | retriveAsString | ensureWriteableBytes =>
      obtain ⟨_, -, rfl⟩ := Option.map_eq_some_iff.1 h
      rfl
  | retrieve | retrieveAll =>
      obtain rfl := Option.some.inj h
      rfl

/-- The operation on `outputBuffer_` that the next step of a call makes. -/
def Frame.bufferOp (c : Core LoopId Tid) (o : Oracle) : Frame LoopId → Option Buffer.Op
  | .sendInLoopRest buf len _ =>
      let data := c.bytesAt buf len o.garbage
      if (!(c.conn.direct && o.write.fault)) = true ∧ 0 < data.length - c.conn.nwrote o.write then
        some (.append (data.drop (c.conn.nwrote o.write)))
      else none
  | .handle .write => c.conn.bufferOp (.handleWrite o.write)
  | _ => none

/-- What `handleWrite` does to the queue, as one operation. -/
theorem TcpConnection.outputBuffer_handleWrite (c : TcpConnection) (r : WriteResult) :
    (c.handleWrite r).1.outputBuffer_ =
      (c.bufferOp (.handleWrite r)).elim c.outputBuffer_ (Buffer.Op.onQueue c.outputBuffer_) := by
  have hall : (c.handleWrite r).1.outputBuffer_ = (c.handleWriteAll r).outputBuffer_ := by
    unfold TcpConnection.handleWriteAll TcpConnection.shutdownInLoop
    split_ifs <;> rfl
  rw [hall, TcpConnection.outputBuffer_handleWriteAll, TcpConnection.bufferOp]
  by_cases hw : c.isWriting = true
  · rcases Nat.eq_zero_or_pos r.count with hzero | hpos
    · rw [if_pos hw, if_neg (by omega), hzero, Fifo.pop_zero]
      rfl
    · rw [if_pos hw, if_pos ⟨hw, hpos⟩]
      rfl
  · rw [if_neg hw, if_neg fun h => hw h.1]
    rfl

variable {cfg : Threads LoopId Tid} {isIn : LoopId → Tid → Bool → Bool}

/-- **What a step of a call does to `outputBuffer_`.** -/
theorem Core.outputBuffer_frameStep (c : Core LoopId Tid) (t : Tid) (o : Oracle)
    (f : Frame LoopId) :
    (c.frameStep cfg isIn t o f).1.conn.outputBuffer_ =
      (f.bufferOp c o).elim c.conn.outputBuffer_
        (Buffer.Op.onQueue c.conn.outputBuffer_) := by
  rw [conn_frameStep]
  cases f with
  | sendInLoopRest buf len id =>
      rw [Frame.acts, TcpConnection.outputBuffer_sendInLoop, Frame.bufferOp]
      split_ifs <;> rfl
  | shutdownInLoop =>
      rw [Frame.acts, TcpConnection.shutdownInLoop]
      split_ifs <;> rfl
  | handle k =>
      cases k with
      | write => exact c.conn.outputBuffer_handleWrite o.write
      | close | error | read => rfl
  | _ => rfl

namespace World

/-- The operation on `outputBuffer_` that a step makes. -/
def bufferOp (w : World LoopId Tid) : Label LoopId Tid → Option Buffer.Op
  | .step t o => (w.frames t).head?.bind (Frame.bufferOp w.core o)
  | _ => none

variable [DecidableEq LoopId] [DecidableEq Tid]
variable {w w' : World LoopId Tid} {a : Label LoopId Tid}

/-- **What a step does to the queue**, as one operation or none. -/
theorem outputBuffer_of_moves (hm : Moves cfg isIn w a w') :
    w'.core.conn.outputBuffer_ =
      (w.bufferOp a).elim w.core.conn.outputBuffer_
        (Buffer.Op.onQueue w.core.conn.outputBuffer_) := by
  cases hm with
  | @frame t o f rest hstack =>
      rw [bufferOp, hstack]
      exact w.core.outputBuffer_frameStep t o f
  | queueInLoop hstack | wakeupCall hstack | wakeupReturn hstack =>
      rw [bufferOp, hstack]
      rfl
  | _ => rfl

end World

/-- A server and the storage of the connection's `outputBuffer_`. -/
structure Backed (LoopId Tid : Type*) where
  world : World LoopId Tid
  buf : Buffer

namespace Backed

/-- The storage next to the queue it stands for. -/
def tracked (s : Backed LoopId Tid) : Buffer.Tracked := ⟨s.buf, s.world.core.conn.outputBuffer_⟩

/-- A server before the connection is accepted; the `Buffer` is the default one. -/
def init (sockfd : ℤ) (mark : ℕ) (complete high : Bool) : Backed LoopId Tid where
  world := World.init (.ofFd sockfd mark complete high)
  buf := Buffer.ofSize Buffer.kInitialSize

/-- The readable bytes of the storage are those of the queue. -/
def Agrees (s : Backed LoopId Tid) : Prop := s.tracked.Agrees

/-- A left-over length that `makeSpace` judges right. -/
def Fits (s : Backed LoopId Tid) (a : Label LoopId Tid) : Prop :=
  ∀ op ∈ s.world.bufferOp a, s.tracked.Fits op

/-- The bytes handed to the kernel and the readable bytes of the storage are the strings
of calls of `send`, each in one piece, and these calls are a merge of the first ones of
each thread. -/
def Delivers [DecidableEq Tid] (s : Backed LoopId Tid) : Prop :=
  s.Agrees ∧
    written s.world.core.conn.fd ++ s.buf.readable =
      ((s.world.core.processed.map Prod.fst).map s.world.core.sentData).flatten ∧
    Merge s.world.core.sender (List.range s.world.core.sends.length)
      (s.world.core.processed.map Prod.fst)

variable [DecidableEq LoopId] [DecidableEq Tid]

section

variable (cfg isIn)

/-- One step; `none` if it cannot be taken or touches a byte outside the storage. -/
def step (s : Backed LoopId Tid) (a : Label LoopId Tid) : Option (Backed LoopId Tid) :=
  (s.world.step cfg isIn a).bind fun w =>
    match s.world.bufferOp a with
    | none => some ⟨w, s.buf⟩
    | some op => (s.tracked.step op).map fun t => ⟨w, t.buf⟩

/-- The step can be taken, and `writerIndex_ + remaining` is a `size_t`. -/
def Pre (s : Backed LoopId Tid) (a : Label LoopId Tid) : Prop :=
  (s.world.step cfg isIn a).isSome ∧ ∀ op ∈ s.world.bufferOp a, s.tracked.Pre op

end

variable {s s' : Backed LoopId Tid} {a : Label LoopId Tid}

/-- The threads go their way as they do without the storage. -/
theorem world_of_step (hs : s.step cfg isIn a = some s') :
    s.world.step cfg isIn a = some s'.world := by
  obtain ⟨w, hw, hrest⟩ := Option.bind_eq_some_iff.1 hs
  cases hop : s.world.bufferOp a with
  | none =>
      rw [hop] at hrest
      obtain rfl := Option.some.inj hrest
      exact hw
  | some op =>
      rw [hop] at hrest
      obtain ⟨t, -, rfl⟩ := Option.map_eq_some_iff.1 hrest
      exact hw

/-- **One step.**  It stays inside the storage and leaves it in agreement exactly when
what it appends fits. -/
theorem step_iff (h : s.Agrees) (hpre : s.Pre cfg isIn a) :
    (∃ s', s.step cfg isIn a = some s' ∧ s'.Agrees) ↔ s.Fits a := by
  obtain ⟨w, hw⟩ := Option.isSome_iff_exists.1 hpre.1
  have hqueue := World.outputBuffer_of_moves (World.moves_of_step hw)
  cases hop : s.world.bufferOp a with
  | none =>
      rw [hop] at hqueue
      refine iff_of_true ⟨⟨w, s.buf⟩, ?_, ?_⟩ ?_
      · simp only [step, hw, Option.bind_some, hop]
      · rw [Agrees, tracked, hqueue]
        exact h
      · simp [Fits, hop]
  | some op =>
      rw [hop] at hqueue
      have hfits : s.Fits a ↔ s.tracked.Fits op := by simp [Fits, hop]
      have htracked {t : Buffer.Tracked} (ht : s.tracked.step op = some t) :
          (⟨w, t.buf⟩ : Backed LoopId Tid).tracked = t := by
        have ht' : t.queue = w.core.conn.outputBuffer_ :=
          (Buffer.Tracked.queue_of_step ht).trans hqueue.symm
        rw [tracked, ← ht']
      rw [hfits, ← Buffer.Tracked.step_iff h (hpre.2 op hop)]
      simp only [step, hw, Option.bind_some, hop]
      constructor
      · rintro ⟨s', hs', hag⟩
        obtain ⟨t, ht, rfl⟩ := Option.map_eq_some_iff.1 hs'
        exact ⟨t, ht, htracked ht ▸ hag⟩
      · rintro ⟨t, ht, hag⟩
        refine ⟨_, by rw [ht, Option.map_some], ?_⟩
        rwa [Agrees, htracked ht]

omit [DecidableEq LoopId] in
/-- What the threads have sent stands in the storage as it stands in the queue. -/
theorem delivers (h : s.world.Wired cfg) (hag : s.Agrees) : s.Delivers := by
  refine ⟨hag, ?_, h.merge⟩
  rw [show s.buf.readable = s.world.core.conn.outputBuffer_.content from hag.2]
  exact h.stream_eq

omit [DecidableEq LoopId] [DecidableEq Tid] in
/-- Before the server has the connection. -/
theorem agrees_init (sockfd : ℤ) (mark : ℕ) (complete high : Bool) :
    (init sockfd mark complete high : Backed LoopId Tid).Agrees :=
  (Buffer.Tracked.agrees_ofSize_iff (by decide)).2 (by decide)

/-- **The stream of many threads in its storage.**  In every run of any number of threads
in which no string changes on the way, no `shutdown` comes late and no direct write fails
for good, no byte outside the storage is touched, and in every state the bytes handed to
the kernel and the readable bytes of the storage are what the threads have sent, if and
only if each left-over length fits. -/
theorem delivers_iff_fits {sockfd : ℤ} {mark : ℕ} {complete high : Bool}
    {as : List (Label LoopId Tid)}
    (hpre : Along (step cfg cfg.compared) (Pre cfg cfg.compared)
      (init sockfd mark complete high) as)
    (hcond : Along (step cfg cfg.compared)
      (fun s a => s.world.InTime a ∧ s.world.Unread a ∧ s.world.Unfailing a)
      (init sockfd mark complete high) as) :
    Safe (step cfg cfg.compared) Delivers (init sockfd mark complete high) as ↔
      Along (step cfg cfg.compared) Fits (init sockfd mark complete high) as := by
  refine safe_iff_along_of_invariant (I := fun s => s.world.Wired cfg ∧ s.Agrees)
    (fun _ h => delivers h.1 h.2) ?_ ?_
    ⟨World.Wired.init sockfd mark complete high, agrees_init sockfd mark complete high⟩
    (along_and.2 ⟨hpre, hcond⟩)
  · rintro s a ⟨hw, hag⟩ ⟨hpre, hin, hun, hfail⟩
    rw [← step_iff hag hpre]
    constructor
    · rintro ⟨s', hs', hdel⟩
      exact ⟨s', hs', hdel.1⟩
    · rintro ⟨s', hs', hag'⟩
      have hm := World.moves_of_step (world_of_step hs')
      exact ⟨s', hs', delivers (hw.step hin hun hfail hm) hag'⟩
  · rintro s a s' ⟨hw, hag⟩ ⟨hpre, hin, hun, hfail⟩ hfits hs'
    obtain ⟨u, hu, hag'⟩ := (step_iff hag hpre).2 hfits
    obtain rfl := Option.some.inj (hu.symm.trans hs')
    exact ⟨hw.step hin hun hfail (World.moves_of_step (world_of_step hs')), hag'⟩

instance (s : Backed LoopId Tid) (a : Label LoopId Tid) : Decidable (s.Pre cfg isIn a) :=
  inferInstanceAs (Decidable (_ ∧ _))

instance (s : Backed LoopId Tid) (a : Label LoopId Tid) : Decidable (s.Fits a) :=
  inferInstanceAs (Decidable (∀ op ∈ s.world.bufferOp a, s.tracked.Fits op))

/-- The hypotheses are satisfiable: of two strings of three bytes the kernel takes none,
and both are in the storage. -/
theorem delivers_iff_fits_overtaking :
    Safe (step .duo Threads.duo.compared) Delivers (init 5 64 true true)
      (World.overtaking : List (Label Bool (Fin 3))) :=
  (delivers_iff_fits (by decide +kernel) (by decide +kernel)).2 (by decide +kernel)

end Backed

end MuMuduo
