/-
# On which thread a function runs

A functor given to a loop is meant for the loop's own thread, and the member
functions of a connection for the thread of its loop.  Where a function is called
by way of a queue or by the dispatch it is on that thread by construction.  The
two other places are the direct calls in `runInLoop` and in `send`, and there it
is `isInLoopThread` that decides, a function without a `return`.

Hence a run is confined exactly when none of these two queries, made by a thread
that is not the loop's, yields `true` (`confined_iff_truthful`).  Read as the
comparison in its body the query is always right (`truthful_compared`).
-/

import MuMuduo.Server.Frames

namespace MuMuduo

open Foundation

variable {LoopId Tid : Type*}

/-- The loop a functor is meant for. -/
def Functor.OnLoop (cfg : Threads LoopId Tid) (l : LoopId) : Functor → Prop
  | .user _ => True
  | .removeConnectionInLoop => l = cfg.baseLoop
  | _ => l = cfg.ioLoop

/-- The handlers of the connection's channel are called on its loop's thread, and
functors are given to the loop they are meant for. -/
def Frame.OnThread (cfg : Threads LoopId Tid) (t : Tid) : Frame LoopId → Prop
  | .handleEvent _ | .handle _ | .handleWriteRest => t = cfg.threadId_ cfg.ioLoop
  | .runInLoop l f | .queueInLoop l f => f.OnLoop cfg l
  | _ => True

/-- The loop whose `isInLoopThread` decides about a direct call in the next step
of a frame. -/
def Frame.query (cfg : Threads LoopId Tid) : Frame LoopId → Option LoopId
  | .runInLoop l _ => some l
  | .sendConnected _ _ _ => some cfg.ioLoop
  | _ => none

namespace World

variable (cfg : Threads LoopId Tid) (isIn : LoopId → Tid → Bool → Bool)

/-- Everything that was run on behalf of a loop was run by the thread that
constructed the loop, and the functions of the connection and of the server on
behalf of their loops. -/
def Confined (c : Core LoopId Tid) : Prop :=
  ∀ l f t, (l, f, t) ∈ c.ran → t = cfg.threadId_ l ∧ f.OnLoop cfg l

/-- The query of `isInLoopThread` in `runInLoop` or `send`, if this is the step,
does not take another thread for the loop's. -/
def Truthful (w : World LoopId Tid) : Label LoopId Tid → Prop
  | .step t o => ∀ l ∈ (w.frames t).head?.bind (Frame.query cfg),
      isIn l t o.raw = true → t = cfg.threadId_ l
  | _ => True

/-- Every call under way is on its thread. -/
def OnThreads : World LoopId Tid → Prop :=
  Holds (fun _ t f => f.OnThread cfg t) fun _ l f => f.OnLoop cfg l

variable {cfg isIn} {w w' : World LoopId Tid} {a : Label LoopId Tid}

/-- A call leads to calls that may be made on its own thread. -/
theorem onThread_of_next {c : Core LoopId Tid} {t : Tid} {o : Oracle} {f g : Frame LoopId}
    (h : c.Next cfg isIn t o f g) (hf : f.OnThread cfg t) : g.OnThread cfg t := by
  cases h with
  | @runDirect l f => cases f <;> trivial
  | @notice _ _ _ n => cases n <;> rfl
  | runQueued | handle | handleEvent | drained | readClosed => exact hf
  | sendQueued | shutdownStored | writeComplate | removeConnection | removed => rfl
  | _ => trivial

/-- Calls lead to calls on their own threads, and a functor is run on that of its loop. -/
theorem typing_onThread :
    Typing (fun _ t f => f.OnThread cfg t) (fun _ l f => f.OnLoop cfg l) cfg where
  queueInLoop _ _ _ _ h := h
  wakeup _ _ _ := trivial
  body c l f h := by cases f <;> trivial
  functor _ _ _ _ := trivial
  hold _ _ := trivial

/-- What comes from outside is called on the thread it belongs to. -/
theorem entry_onThread (w : World LoopId Tid) (a : Label LoopId Tid) (c : Core LoopId Tid) :
    Entry (fun _ t f => f.OnThread cfg t) cfg isIn w a c where
  step _ _ _ _ _ _ hf _ hg := onThread_of_next (Core.next_of_mem hg) hf
  event _ _ _ := rfl
  newConnection _ := rfl
  destroyServer _ _ := rfl
  send _ _ _ _ _ := trivial
  shutdown _ _ := trivial
  runInLoop _ _ _ := trivial
  queueInLoop _ _ _ := trivial

/-- More entries of the log. -/
theorem confined_append {c c' : Core LoopId Tid} {more : List (LoopId × Functor × Tid)}
    (hran : c'.ran = c.ran ++ more) :
    Confined cfg c' ↔
      Confined cfg c ∧ ∀ e ∈ more, e.2.2 = cfg.threadId_ e.1 ∧ e.2.1.OnLoop cfg e.1 := by
  unfold Confined
  rw [hran]
  constructor
  · intro h
    exact ⟨fun l f t hmem => h l f t (List.mem_append_left _ hmem),
      fun e hmem => h e.1 e.2.1 e.2.2 (List.mem_append_right _ hmem)⟩
  · rintro ⟨hold, hnew⟩ l f t hmem
    rcases List.mem_append.1 hmem with hmem | hmem
    · exact hold l f t hmem
    · exact hnew _ hmem

/-- The direct calls: what is run by the innermost call of a thread is confined
exactly if the query was truthful. -/
theorem confined_frameStep {t : Tid} {o : Oracle} {f : Frame LoopId} {rest : List (Frame LoopId)}
    (hstack : w.frames t = f :: rest) (hf : f.OnThread cfg t) :
    Confined cfg (w.core.frameStep cfg isIn t o f).1 ↔
      Confined cfg w.core ∧ w.Truthful cfg isIn (.step t o) := by
  rw [confined_append (w.core.ran_frameStep t o f)]
  refine and_congr_right fun _ => ?_
  simp only [Truthful, hstack, List.head?_cons, Option.bind_some]
  cases f with
  | runInLoop l f =>
      have hf : f.OnLoop cfg l := hf
      by_cases hin : isIn l t o.raw = true <;> simp [Frame.query, hin, hf]
  | sendConnected buf len id =>
      by_cases hin : isIn cfg.ioLoop t o.raw = true <;> simp [Frame.query, hin, Functor.OnLoop]
  | handleWriteRest =>
      have ht : t = cfg.threadId_ cfg.ioLoop := hf
      by_cases hs : w.core.conn.state_ = .kDisconnecting <;>
        simp [Frame.query, hs, ht, Functor.OnLoop]
  | _ => simp [Frame.query]

variable [DecidableEq LoopId] [DecidableEq Tid]

/-- **One step.** -/
theorem OnThreads.step (h : w.OnThreads cfg) (hm : Moves cfg isIn w a w') : w'.OnThreads cfg :=
  Holds.step typing_onThread (entry_onThread w _ _) ⟨fun _ _ _ h => h, fun _ _ _ h => h⟩ h hm

/-- **One step** keeps everything confined exactly if its query is truthful. -/
theorem confined_of_moves (h : w.OnThreads cfg) (hm : Moves cfg isIn w a w') :
    Confined cfg w'.core ↔ Confined cfg w.core ∧ w.Truthful cfg isIn a := by
  cases hm with
  | @start l _ _ f _ _ hstack _ hpc =>
      have hf : f.OnLoop cfg l := h.functors l f (by simp [queued, hpc, LoopPc.rest])
      rw [confined_append rfl, List.forall_mem_singleton]
      simp [Truthful, hf]
  | @frame t _ f _ hstack =>
      have hf : f.OnThread cfg t := h.frames t f (hstack ▸ List.mem_cons_self)
      exact confined_frameStep hstack hf
  | queueInLoop hstack | wakeupCall hstack | wakeupReturn hstack =>
      simp [Truthful, hstack, Frame.query]
  | _ => exact (and_iff_left trivial).symm

/-- **Thread confinement, exactly.**  In every run of any number of loops and
threads, everything run on behalf of a loop has been run by the loop's own thread
if and only if no query of `isInLoopThread` in `runInLoop` or `send` has taken
another thread for it. -/
theorem confined_iff_truthful {conn : TcpConnection} {as : List (Label LoopId Tid)}
    (hs : exec (step cfg isIn) (init conn) as = some w) :
    Confined cfg w.core ↔ Along (step cfg isIn) (Truthful cfg isIn) (init conn) as := by
  have h := exec_iff_along (I := OnThreads cfg) (P := fun w => Confined cfg w.core)
    (C := Truthful cfg isIn)
    (fun _ _ _ h hs => ⟨h.step (moves_of_step hs), confined_of_moves h (moves_of_step hs)⟩)
    (Holds.init conn) hs
  rw [h]
  exact and_iff_right fun _ _ _ hmem => by cases hmem

omit [DecidableEq LoopId] in
/-- The condition holds of every run if `isInLoopThread` is read as the comparison
in its body. -/
theorem truthful_compared (w : World LoopId Tid) (a : Label LoopId Tid) :
    w.Truthful cfg cfg.compared a := by
  unfold Truthful
  split
  · intro l _ h
    exact (of_decide_eq_true h).symm
  · trivial

omit [DecidableEq LoopId] in
instance (w : World LoopId Tid) (a : Label LoopId Tid) :
    Decidable (w.Truthful cfg isIn a) :=
  match a with
  | .step _ _ => by unfold Truthful; infer_instance
  | .loop .. | .event | .newConnection | .destroyServer | .call .. | .quit .. | .wakeup ..
  | .poke .. => .isTrue trivial

/-- The hypothesis is satisfiable: a server accepts a connection and hands it to
its sub-loop, which runs `connectEstablished`. -/
theorem confined_opening :
    ∃ w, exec (step .duo fun _ => asReturned) fresh opening = some w ∧
      w.core.ran = [(true, .connectEstablished, 1)] ∧ Confined .duo w.core := by
  have hs : exec (step .duo fun _ => asReturned) fresh opening = some _ := rfl
  exact ⟨_, hs, by decide, (confined_iff_truthful hs).2 (by decide)⟩

/-- **A foreign thread runs `connectEstablished`.**  Where `isInLoopThread` yields
`true` to the base loop's thread, that thread calls the function which belongs on
the sub-loop. -/
theorem not_confined_accepting :
    ∃ w, exec (step .duo fun _ => asReturned) fresh (accepting true) = some w ∧
      ¬Confined .duo w.core := by
  refine ⟨_, rfl, fun h => ?_⟩
  have h := (h true .connectEstablished 0 List.mem_cons_self).1
  exact absurd h (by decide)

end World
end MuMuduo
