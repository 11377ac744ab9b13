/-
# The channel in a running server

What the calls under way do to the channel and the poller: `Frame.op` is the one
operation that a step makes, if it makes any (`watch_frameStep`), so that the
channel and the poller agree in every state (`registered_of_moves`).

Where no query of `isInLoopThread` takes a foreign thread for a loop's own, the
member functions of the connection are under way on the thread of its loop only,
and `removeConnectionInLoop` on that of the base loop (`AtHome.step`).  One thread
is in one call at a time, so that what a member function has begun is not
interrupted by another (`Regular.head_of_mem`).
-/

import MuMuduo.Connection.Interest
import MuMuduo.Server.Confinement
import MuMuduo.Server.Motion
import MuMuduo.Server.States

namespace MuMuduo

open Foundation

variable {LoopId Tid : Type*}

/-- The operation on the channel that the next step of a call makes. -/
def Frame.op (c : Core LoopId Tid) (o : Oracle) : Frame LoopId → Option Channel.Op
  | .sendInLoopRest buf len _ =>
      if c.conn.enables (c.bytesAt buf len o.garbage) o.write then some .enableWriting else none
  | .connectEstablished => some .enableReading
  | .connectDestroyedStore | .handle .close => some .disableAll
  | .connectDestroyedRemove => some .remove
  | .handle .write => if c.conn.drains o.write then some .disableWriting else none
  | _ => none

/-- The call is under way on the thread it belongs to: a member function of the
connection on the thread of its loop, the removal on that of the base loop. -/
def Frame.AtHome (cfg : Threads LoopId Tid) (t : Tid) : Frame LoopId → Prop
  | .sendInLoop .. | .sendInLoopRest .. | .shutdownInLoop | .connectEstablished
  | .connectDestroyed | .connectDestroyedStore | .connectDestroyedRemove | .connectionCallback
  | .handleEvent _ | .handle _ | .handleWriteRest | .removeConnection =>
      t = cfg.threadId_ cfg.ioLoop
  | .removeConnectionInLoop => t = cfg.threadId_ cfg.baseLoop
  | .runInLoop l f | .queueInLoop l f => f.OnLoop cfg l
  | _ => True

variable {cfg : Threads LoopId Tid} {isIn : LoopId → Tid → Bool → Bool}

/-! ### The operations of the calls -/

namespace Core

variable (c : Core LoopId Tid) (t : Tid) (o : Oracle) (f : Frame LoopId)

/-- **What a step of a call does to the channel and the poller.** -/
theorem watch_frameStep :
    (c.frameStep cfg isIn t o f).1.conn.watch =
      (f.op c o).elim c.conn.watch fun op => (c.conn.perform op).watch := by
  rw [conn_frameStep]
  cases f with
  | sendInLoopRest buf len id =>
      rw [Frame.acts, TcpConnection.watch_sendInLoop, Frame.op]
      split_ifs <;> rfl
  | shutdownInLoop => exact c.conn.watch_shutdownInLoop
  | handle h =>
      cases h with
      | write =>
          rw [Frame.acts, TcpConnection.watch_handleWrite, Frame.op]
          split_ifs <;> rfl
      | close | error | read => rfl
  | _ => rfl

/-- A step that makes no operation leaves the channel and the poller alone. -/
theorem watch_of_op_none (hop : f.op c o = none) :
    (c.frameStep cfg isIn t o f).1.conn.watch = c.conn.watch := by
  rw [watch_frameStep, hop]
  rfl

/-- The operation is made. -/
theorem watch_of_op_some {op : Channel.Op} (hop : f.op c o = some op) :
    (c.frameStep cfg isIn t o f).1.conn.watch = (c.conn.perform op).watch := by
  rw [watch_frameStep, hop]
  rfl

/-- **What it does to the tag.** -/
theorem index_frameStep :
    (c.frameStep cfg isIn t o f).1.conn.channel_.index_ =
      (f.op c o).elim c.conn.channel_.index_ fun op => (c.conn.perform op).channel_.index_ := by
  have hindex := congrArg (fun w => w.2.index_)
    (c.watch_frameStep t o f : (c.frameStep cfg isIn t o f).1.conn.watch = _)
  cases hop : f.op c o <;> rw [hop] at hindex <;> exact hindex

end Core

/-- Which call makes which operation. -/
inductive Frame.Operates : Frame LoopId → Channel.Op → Prop
  | connectEstablished : Operates .connectEstablished .enableReading
  | sendInLoopRest (buf len id) : Operates (.sendInLoopRest buf len id) .enableWriting
  | drained : Operates (.handle .write) .disableWriting
  | connectDestroyedStore : Operates .connectDestroyedStore .disableAll
  | handleClose : Operates (.handle .close) .disableAll
  | connectDestroyedRemove : Operates .connectDestroyedRemove .remove

/-- Which call it comes from. -/
theorem Frame.operates_of_op {c : Core LoopId Tid} {o : Oracle} {f : Frame LoopId}
    {op : Channel.Op} (hop : f.op c o = some op) : f.Operates op := by
  cases f with
  | connectEstablished =>
      obtain rfl := Option.some.inj hop
      exact .connectEstablished
  | connectDestroyedStore =>
      obtain rfl := Option.some.inj hop
      exact .connectDestroyedStore
  | connectDestroyedRemove =>
      obtain rfl := Option.some.inj hop
      exact .connectDestroyedRemove
  | sendInLoopRest buf len id =>
      simp only [Frame.op, Option.ite_none_right_eq_some, Option.some.injEq] at hop
      obtain rfl := hop.2
      exact .sendInLoopRest buf len id
  | handle h =>
      cases h with
      | close =>
          obtain rfl := Option.some.inj hop
          exact .handleClose
      | write =>
          simp only [Frame.op, Option.ite_none_right_eq_some, Option.some.injEq] at hop
          obtain rfl := hop.2
          exact .drained
      | error | read => cases hop
  | _ => cases hop

namespace World

variable {w w' : World LoopId Tid} {a : Label LoopId Tid}
variable [DecidableEq LoopId] [DecidableEq Tid]

/-- **The connection is worked on by the innermost call of a thread**, and by
nothing else. -/
theorem conn_of_moves (hm : Moves cfg isIn w a w') :
    (w'.core.conn = w.core.conn ∧ w'.core.told = w.core.told) ∨
      ∃ t o f rest, a = .step t o ∧ w.frames t = f :: rest ∧
        w'.core = (w.core.frameStep cfg isIn t o f).1 ∧
        w'.frames = Function.update w.frames t ((w.core.frameStep cfg isIn t o f).2 ++ rest) := by
  cases hm with
  | @frame t o f rest hstack => exact .inr ⟨t, o, f, rest, rfl, hstack, rfl, rfl⟩
  | _ => exact .inl ⟨rfl, rfl⟩

/-- **The channel and the poller agree** after every step. -/
theorem registered_of_moves (h : w.core.conn.Registered) (hm : Moves cfg isIn w a w') :
    w'.core.conn.Registered := by
  rcases conn_of_moves hm with ⟨hconn, -⟩ | ⟨t, o, f, rest, -, -, hcore, -⟩
  · rwa [hconn]
  · rw [hcore]
    cases hop : f.op w.core o with
    | none => exact h.congr (w.core.watch_of_op_none t o f hop)
    | some op => exact (h.perform op).congr (w.core.watch_of_op_some t o f hop)

end World

/-! ### Calls at home -/

/-- The body of a functor is at home on the thread of its loop. -/
theorem Functor.atHome_body {l : LoopId} {f : Functor} (hf : f.OnLoop cfg l) :
    (f.body : Frame LoopId).AtHome cfg (cfg.threadId_ l) := by
  cases f with
  | user | writeComplate | highWaterMark => trivial
  | sendInLoop | shutdownInLoop | connectEstablished | connectDestroyed
  | removeConnectionInLoop =>
      obtain rfl := hf
      rfl

/-- A call leads to calls that are at home, if its query answers the truth. -/
theorem atHome_of_next {c : Core LoopId Tid} {t : Tid} {o : Oracle} {f g : Frame LoopId}
    (h : c.Next cfg isIn t o f g) (hf : f.AtHome cfg t)
    (htruth : ∀ l ∈ f.query cfg, isIn l t o.raw = true → t = cfg.threadId_ l) :
    g.AtHome cfg t := by
  cases h with
  | @runDirect l f hin =>
      obtain rfl := htruth l rfl hin
      exact Functor.atHome_body hf
  | sendDirect hin => exact htruth _ rfl hin
  | @notice _ _ _ n => cases n <;> rfl
  | sendQueued | shutdownStored | writeComplate | removeConnection | removed => rfl
  | sent | shutdown | called | message => trivial
  | runQueued | sendInLoop | established | destroyedStore | destroyedRemove | destroyedStored
  | handle | handleEvent | closed | closedRemove | readClosed | drained | shutdownRest => exact hf

namespace World

variable {w w' : World LoopId Tid} {a : Label LoopId Tid}

/-- Every call under way is at home. -/
def AtHome (cfg : Threads LoopId Tid) : World LoopId Tid → Prop :=
  Holds (fun _ t f => f.AtHome cfg t) fun _ l f => f.OnLoop cfg l

/-- Calls lead to calls that are at home, and a functor is run where it belongs. -/
theorem typing_atHome :
    Typing (fun _ t f => f.AtHome cfg t) (fun _ l f => f.OnLoop cfg l) cfg where
  queueInLoop _ _ _ _ h := h
  wakeup _ _ _ := trivial
  body _ _ _ h := Functor.atHome_body h
  functor _ _ _ _ := trivial
  hold _ _ := trivial

/-- What comes from outside is at home. -/
theorem entry_atHome (ha : w.Truthful cfg isIn a) (c : Core LoopId Tid) :
    Entry (fun _ t f => f.AtHome cfg t) cfg isIn w a c where
  step t o f rest hl hstack hf g hg := by
    subst hl
    refine atHome_of_next (Core.next_of_mem hg) hf fun l hl => ?_
    exact ha l (by rwa [hstack, List.head?_cons, Option.bind_some])
  event _ _ _ := rfl
  newConnection _ := rfl
  destroyServer _ _ := rfl
  send _ _ _ _ _ := trivial
  shutdown _ _ := trivial
  runInLoop _ _ _ := trivial
  queueInLoop _ _ _ := trivial

/-- What holds in every state of a run in which `isInLoopThread` does not take a
foreign thread for a loop's own. -/
structure Regular (cfg : Threads LoopId Tid) (w : World LoopId Tid) : Prop where
  establishing : w.Establishing
  home : w.AtHome cfg
  below : ∀ t, ∀ f ∈ (w.frames t).tail, f.below = true
  registered : w.core.conn.Registered

/-- Before the server has the connection. -/
theorem Regular.init (sockfd : ℤ) (mark : ℕ) (complete high : Bool) :
    (World.init (.ofFd sockfd mark complete high) : World LoopId Tid).Regular cfg where
  establishing := .init (cfg.threadId_ cfg.baseLoop) sockfd mark complete high
  home := Holds.init _
  below _ _ hf := by cases hf
  registered := .ofFd sockfd mark complete high

/-- **A call in the middle of its own steps is the innermost of its thread.** -/
theorem Regular.head_of_mem (h : w.Regular cfg) {t : Tid} {f : Frame LoopId}
    (hf : f ∈ w.frames t) (hbelow : f.below = false) : (w.frames t).head? = some f := by
  have htail := h.below t
  cases hst : w.frames t with
  | nil =>
      rw [hst] at hf
      cases hf
  | cons g rest =>
      rw [hst] at hf htail
      rcases List.mem_cons.1 hf with rfl | hf
      · rfl
      · exact absurd (htail f hf) (by simp [hbelow])

variable [DecidableEq LoopId] [DecidableEq Tid]

/-- **One step.** -/
theorem Regular.step (h : w.Regular cfg) (ha : w.Truthful cfg isIn a)
    (hm : Moves cfg isIn w a w') : w'.Regular cfg where
  establishing := h.establishing.step hm
  home := h.home.step typing_atHome (entry_atHome ha _)
    ⟨fun _ _ _ h => h, fun _ _ _ h => h⟩ hm
  below := below_of_moves h.below hm
  registered := registered_of_moves h.registered hm

end World
end MuMuduo
