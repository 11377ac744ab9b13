/-
# No dispatch to a dead channel

`activeChannels_` holds raw pointers, filled by `epoll_wait` and used until the end
of the dispatch.  Meanwhile the base loop may take the connection out of
`connections_`.  It stays alive because `removeConnectionInLoop` does not call
`connectDestroyed` but pushes it, with a `shared_ptr`, to the queue of the
connection's own loop: there it is held until the loop has left its dispatch, run
it, and with it taken the channel out of the poller.

For a server that is not being destroyed, with `send` and `shutdown` called by the
thread of the connection's loop, this holds in every run, whatever `isInLoopThread`
returns (`retained_of_local`).  The connection is in `connections_` or
`connectDestroyed` is being pushed or waits in the queue (`Held`), until the loop
takes it out of the queue; then it is run, and after that the channel is out of the
poller for good (`Gone`).
-/

import MuMuduo.Server.Ownership
import MuMuduo.Server.Parting

namespace MuMuduo

open Foundation

variable {LoopId Tid : Type*}

/-- The server is not destroyed, and `send` and `shutdown` are called by the thread
of the connection's loop only. -/
def Label.Local (cfg : Threads LoopId Tid) : Label LoopId Tid → Prop
  | .destroyServer => False
  | .call t (.send _) | .call t .shutdown => t = cfg.threadId_ cfg.ioLoop
  | _ => True

/-- The functor is as thread `t` can have it in hand for the loop `l`. -/
def Functor.Own (cfg : Threads LoopId Tid) (t : Tid) (l : LoopId) : Functor → Prop
  | .sendInLoop .. => l = cfg.ioLoop ∧ t = cfg.threadId_ cfg.ioLoop
  | .connectDestroyed => False
  | f => f.OnLoop cfg l

/-- What a call leads to that can touch the channel, `connectEstablished` apart, is
under way on the thread of the connection's loop. -/
def Frame.Own (cfg : Threads LoopId Tid) (t : Tid) : Frame LoopId → Prop
  | .send .. | .sendConnected .. | .sendInLoop .. | .sendInLoopRest .. | .shutdown
  | .shutdownStore | .connectDestroyed | .connectDestroyedStore | .connectDestroyedRemove
  | .handleEvent _ | .handle _ | .handleWriteRest => t = cfg.threadId_ cfg.ioLoop
  | .runInLoop l f => f.Own cfg t l
  | .queueInLoop l f => f.OnLoop cfg l
  | _ => True

/-- The call has found a state other than `kDisconnected` and acts on it. -/
def Frame.loaded : Frame LoopId → Bool
  | .sendInLoopRest .. | .shutdownStore | .connectDestroyedStore => true
  | _ => false

/-- The functor belongs to the removal of the connection. -/
def Functor.removing : Functor → Bool
  | .removeConnectionInLoop | .connectDestroyed => true
  | _ => false

/-- The call belongs to the removal of the connection. -/
def Frame.removing : Frame LoopId → Bool
  | .removeConnection | .removeConnectionInLoop | .connectDestroyed | .connectDestroyedStore
  | .connectDestroyedRemove => true
  | .runInLoop _ f | .queueInLoop _ f => f.removing
  | _ => false

/-- The call handles an event of the channel. -/
def Frame.handling : Frame LoopId → Bool
  | .handleEvent _ | .handle _ => true
  | _ => false

/-- The frame has a functor in hand that holds a `shared_ptr` to the connection, or
runs one. -/
def Frame.carries : Frame LoopId → Bool
  | .functor f | .runInLoop _ f | .queueInLoop _ f => f.owns
  | _ => false

namespace World

/-- The connection is held by `connections_` or by a pending or running functor. -/
def Retained (w : World LoopId Tid) : Prop :=
  w.core.inMap = true ∨ (∃ t, ∃ f ∈ w.frames t, f.carries = true) ∨
    ∃ l, ∃ f ∈ (w.loops l).pc.batch ++ (w.loops l).pendingFunctors_, f.owns = true

/-- The connection is in `connections_`, or `connectDestroyed` is about to be pushed,
or waits in the queue of the connection's loop. -/
def Held (cfg : Threads LoopId Tid) (w : World LoopId Tid) : Prop :=
  w.core.inMap = true ∨ (∃ t, .queueInLoop cfg.ioLoop .connectDestroyed ∈ w.frames t) ∨
    .connectDestroyed ∈ (w.loops cfg.ioLoop).pendingFunctors_

/-- `connectDestroyed` has been run, and the channel is out of the poller. -/
structure Gone (cfg : Threads LoopId Tid) (w : World LoopId Tid) : Prop where
  closed : w.core.conn.state_ = .kDisconnected
  removed : w.core.conn.channel_.index_ = kNew
  ran : (cfg.ioLoop, .connectDestroyed, cfg.threadId_ cfg.ioLoop) ∈ w.core.ran

/-- `connectDestroyed` is in the batch that is run, or is running. -/
def Destroying (cfg : Threads LoopId Tid) (w : World LoopId Tid) : Prop :=
  .connectDestroyed ∈ (w.loops cfg.ioLoop).pc.rest ∨
    .connectDestroyed ∈ w.frames (cfg.threadId_ cfg.ioLoop) ∨
    .connectDestroyedRemove ∈ w.frames (cfg.threadId_ cfg.ioLoop)

/-- What keeps the connection alive for the dispatch. -/
structure Dispatching (cfg : Threads LoopId Tid) (w : World LoopId Tid) : Prop where
  establishing : w.Establishing
  registered : w.core.conn.Registered
  below : ∀ t, ∀ f ∈ (w.frames t).tail, f.below = true
  own : Holds (fun _ t f => f.Own cfg t) (fun _ l f => f.OnLoop cfg l) w
  loaded : ∀ t, ∀ f ∈ w.frames t, f.loaded = true → w.core.conn.state_ ≠ .kDisconnected
  removing : Holds (fun c _ f => f.removing = true → c.conn.state_ = .kDisconnected)
    (fun c _ f => f.removing = true → c.conn.state_ = .kDisconnected) w
  alone : ∀ t, .connectDestroyed ∈ w.frames t ∨ .connectDestroyedRemove ∈ w.frames t →
    w.frames t = [.connectDestroyed, .functor .connectDestroyed] ∨
      w.frames t = [.connectDestroyedRemove, .functor .connectDestroyed]
  running : ∀ g, .functor g ∈ w.frames (cfg.threadId_ cfg.ioLoop) →
    (w.loops cfg.ioLoop).pc.isDispatch = false ∧
      (cfg.ioLoop, g, cfg.threadId_ cfg.ioLoop) ∈ w.core.ran
  awake : w.core.active ≠ none → (w.loops cfg.ioLoop).pc.isDispatch = true
  watched : w.core.active ≠ none → w.core.conn.channel_.index_ ≠ kNew
  handling : ∀ t, ∀ f ∈ w.frames t, f.handling = true → w.core.conn.channel_.index_ ≠ kNew
  kept : w.core.created = true → w.Held cfg ∨ w.Destroying cfg ∨ w.Gone cfg

variable {cfg : Threads LoopId Tid} {isIn : LoopId → Tid → Bool → Bool}
variable {w w' : World LoopId Tid} {a : Label LoopId Tid}

/-! ### On which thread, and in which state -/

/-- The body of a functor, on the thread of its loop. -/
theorem own_body {l : LoopId} {f : Functor} (hf : f.OnLoop cfg l) :
    (f.body : Frame LoopId).Own cfg (cfg.threadId_ l) := by
  cases f with
  | sendInLoop | connectDestroyed =>
      obtain rfl := hf
      rfl
  | _ => trivial

/-- A call leads to calls on its own thread. -/
theorem own_of_next {c : Core LoopId Tid} {t : Tid} {o : Oracle} {f g : Frame LoopId}
    (h : c.Next cfg isIn t o f g) (hf : f.Own cfg t) : g.Own cfg t := by
  cases h with
  | @runDirect l f =>
      cases f with
      | sendInLoop => exact hf.2
      | connectDestroyed => exact hf.elim
      | _ => trivial
  | @runQueued l f =>
      cases f with
      | sendInLoop => exact hf.1
      | connectDestroyed => exact hf.elim
      | _ => exact hf
  | sendQueued => exact ⟨rfl, hf⟩
  | @notice _ _ _ n => cases n <;> rfl
  | shutdownStored | writeComplate | removeConnection | removed => rfl
  | sent | sendDirect | sendInLoop | shutdown | destroyedStore | destroyedRemove | handle
  | handleEvent | readClosed | drained => exact hf
  | established | destroyedStored | called | closed | closedRemove | message | shutdownRest =>
      trivial

/-- Calls lead to calls on their own threads, and a functor is run on that of its loop. -/
theorem own_typing :
    Typing (fun _ t f => f.Own cfg t) (fun _ l f => f.OnLoop cfg l) cfg where
  queueInLoop _ _ _ _ h := h
  wakeup _ _ _ := trivial
  body _ _ _ h := own_body h
  functor _ _ _ _ := trivial
  hold _ _ := trivial

/-- What comes from outside is called on the thread it belongs to. -/
theorem own_entry (ha : a.Local cfg) (c : Core LoopId Tid) :
    Entry (fun _ t f => f.Own cfg t) cfg isIn w a c where
  step _ _ _ _ _ _ hf _ hg := own_of_next (Core.next_of_mem hg) hf
  event _ _ _ := rfl
  newConnection _ := rfl
  destroyServer hl _ := by
    subst hl
    exact ha.elim
  send t buf _ hl _ := by
    subst hl
    exact ha
  shutdown t hl := by
    subst hl
    exact ha
  runInLoop _ _ _ := trivial
  queueInLoop _ _ _ := trivial

/-- The calls of a removal are made in `kDisconnected`, and lead to such calls. -/
theorem removing_typing :
    Typing (fun (c : Core LoopId Tid) _ f => f.removing = true → c.conn.state_ = .kDisconnected)
      (fun c _ f => f.removing = true → c.conn.state_ = .kDisconnected) cfg where
  queueInLoop _ _ _ _ h := h
  wakeup _ _ _ h := by cases h
  body _ _ f h hf := h (by cases f <;> first | rfl | cases hf)
  functor _ _ _ _ h := by cases h
  hold _ _ h := by cases h

/-- The removal begins where the connection is closed. -/
theorem removing_of_next {c : Core LoopId Tid} {t : Tid} {o : Oracle} {f g : Frame LoopId}
    (h : c.Next cfg isIn t o f g) (hf : f.removing = true → c.conn.state_ = .kDisconnected)
    (hg : g.removing = true) :
    (c.frameStep cfg isIn t o f).1.conn.state_ = .kDisconnected := by
  rw [Core.state_frameStep]
  cases h with
  | closedRemove => rfl
  | @runDirect l f => exact hf (by cases f <;> first | rfl | cases hg)
  | runQueued => exact hf hg
  | @notice _ _ _ n => cases n <;> cases hg
  | destroyedStore | destroyedRemove | removeConnection | removed => exact hf rfl
  | _ => cases hg

/-- None comes from outside while the server is there. -/
theorem removing_entry (ha : a.Local cfg) (c : Core LoopId Tid) :
    Entry (fun (c : Core LoopId Tid) _ f =>
      f.removing = true → c.conn.state_ = .kDisconnected) cfg isIn w a c where
  step _ _ _ _ _ _ hf _ hg := removing_of_next (Core.next_of_mem hg) hf
  event _ _ _ h := by cases h
  newConnection _ h := by cases h
  destroyServer hl _ := by
    subst hl
    exact ha.elim
  send _ _ _ _ _ h := by cases h
  shutdown _ _ h := by cases h
  runInLoop _ _ _ h := by cases h
  queueInLoop _ _ _ h := by cases h

/-- The call that stores `kDisconnected` is on the thread of the connection's loop. -/
theorem own_of_stores {t : Tid} {f : Frame LoopId} (hf : f.Own cfg t)
    (hst : f.stores = some .kDisconnected) : t = cfg.threadId_ cfg.ioLoop := by
  cases f with
  | connectDestroyedStore | handle => exact hf
  | connectEstablished | shutdownStore => cases hst
  | _ => cases hst

/-- So is a call that acts on a state it has found. -/
theorem own_of_loaded {t : Tid} {f : Frame LoopId} (hf : f.Own cfg t) (hl : f.loaded = true) :
    t = cfg.threadId_ cfg.ioLoop := by
  cases f with
  | sendInLoopRest | shutdownStore | connectDestroyedStore => exact hf
  | _ => cases hl

/-- A call that acts on a state it has found is inside the connection. -/
theorem inner_of_loaded {f : Frame LoopId} (hl : f.loaded = true) : f.inner = true := by
  cases f with
  | sendInLoopRest | shutdownStore | connectDestroyedStore => rfl
  | _ => cases hl

/-- A call that acts on a state it has found is the innermost, -/
theorem below_of_loaded {f : Frame LoopId} (hl : f.loaded = true) : f.below = false := by
  cases f with
  | sendInLoopRest | shutdownStore | connectDestroyedStore => rfl
  | _ => cases hl

/-- and it has found a state other than `kDisconnected`. -/
theorem loaded_of_next {c : Core LoopId Tid} {t : Tid} {o : Oracle} {f g : Frame LoopId}
    (h : c.Next cfg isIn t o f g) (hl : g.loaded = true) :
    (c.frameStep cfg isIn t o f).1.conn.state_ ≠ .kDisconnected := by
  rw [Core.state_frameStep]
  cases h with
  | @runDirect l f => cases f <;> cases hl
  | sendInLoop hs => exact hs
  | shutdown hs | destroyedStore hs =>
      show c.conn.state_ ≠ .kDisconnected
      rw [hs]
      decide
  | _ => cases hl

variable [DecidableEq LoopId] [DecidableEq Tid]

/-- **`kDisconnected` stays.** -/
theorem Dispatching.closed_of_moves (h : w.Dispatching cfg) (hm : Moves cfg isIn w a w')
    (hs : w.core.conn.state_ = .kDisconnected) : w'.core.conn.state_ = .kDisconnected := by
  rcases conn_of_moves hm with ⟨hconn, -⟩ | ⟨t, o, f, rest, -, hstack, hcore, -⟩
  · rwa [hconn]
  · have hmem : f ∈ w.frames t := hstack ▸ List.mem_cons_self
    rw [hcore, Core.state_frameStep]
    cases hst : f.stores with
    | none => exact hs
    | some state =>
        cases f with
        | connectEstablished =>
            have := (h.establishing.connecting hmem rfl).1
            rw [hs] at this
            cases this
        | shutdownStore | connectDestroyedStore => exact absurd hs (h.loaded t _ hmem rfl)
        | handle k =>
            cases k with
            | close =>
                obtain rfl := Option.some.inj hst
                rfl
            | _ => cases hst
        | _ => cases hst

/-- While such a call is under way the state does not become `kDisconnected`. -/
theorem Dispatching.loaded_step (h : w.Dispatching cfg) (hm : Moves cfg isIn w a w') (t : Tid)
    (f : Frame LoopId) (hf : f ∈ w'.frames t) (hl : f.loaded = true) :
    w'.core.conn.state_ ≠ .kDisconnected := by
  rcases of_mem_stacks_inner hm hf (inner_of_loaded hl) with hold | ⟨o, g, rest, -, -, hcore, hf⟩
  · intro hs
    have hne := h.loaded t f hold hl
    rcases conn_of_moves hm with ⟨hconn, -⟩ | ⟨u, o, g, rest, -, hstack, hcore, hw⟩
    · exact hne (hconn ▸ hs)
    · -- `kDisconnected` is stored by the thread of the loop, whose innermost call is `f`
      have hmem : g ∈ w.frames u := hstack ▸ List.mem_cons_self
      have hst : g.stores = some .kDisconnected := by
        rw [hcore, Core.state_frameStep] at hs
        cases hst : g.stores with
        | none =>
            rw [hst] at hs
            exact absurd hs hne
        | some state =>
            rw [hst] at hs
            exact congrArg some hs
      obtain rfl := own_of_stores (h.own.frames u g hmem) hst
      obtain rfl := own_of_loaded (h.own.frames t f hold) hl
      have hrest : f ∉ rest := by
        intro hrest
        have := h.below _ f (by rw [hstack]; exact hrest)
        rw [below_of_loaded hl] at this
        cases this
      rw [hw, Function.update_self] at hf
      have hnew := (List.mem_append.1 hf).resolve_right hrest
      refine loaded_of_next (Core.next_of_mem hnew) hl ?_
      rw [← hcore]
      exact hs
  · rw [hcore]
    exact loaded_of_next (Core.next_of_mem hf) hl

/-- `connectDestroyed` is called by its loop, with nothing else under way on the
thread. -/
theorem Dispatching.alone_step (h : w.Dispatching cfg) (hm : Moves cfg isIn w a w') (t : Tid) :
    .connectDestroyed ∈ w'.frames t ∨ .connectDestroyedRemove ∈ w'.frames t →
      w'.frames t = [.connectDestroyed, .functor .connectDestroyed] ∨
        w'.frames t = [.connectDestroyedRemove, .functor .connectDestroyed] := by
  refine forall_stacks_of_moves (S := fun _ st =>
    .connectDestroyed ∈ st ∨ .connectDestroyedRemove ∈ st →
      st = [.connectDestroyed, .functor .connectDestroyed] ∨
        st = [.connectDestroyedRemove, .functor .connectDestroyed]) h.alone hm ?_ ?_ ?_ ?_ t
  · intro l f _ hmem
    cases f with
    | connectDestroyed => exact .inl rfl
    | _ => simp [Functor.body] at hmem
  · intro u frames hst hframes _ hs hmem
    have hnew : .connectDestroyed ∉ frames ∧ .connectDestroyedRemove ∉ frames := by
      cases hframes <;> simp
    simp only [List.mem_append, hnew.1, hnew.2, false_or] at hmem
    rcases hst with hst | ⟨rest, hst⟩ <;> rw [hst] at hs hmem
    · simp at hmem
    · rcases hs hmem with hs | hs <;> cases hs
  · intro u l f rest hs hmem
    have hold : .connectDestroyed ∈ (.queueInLoop l f :: rest : List (Frame LoopId)) ∨
        .connectDestroyedRemove ∈ (.queueInLoop l f :: rest : List (Frame LoopId)) := by
      simpa using hmem
    rcases hs hold with hs | hs <;> cases hs
  · intro u o f rest _ hstack _ hs hmem
    have hf : f ∈ w.frames u := hstack ▸ List.mem_cons_self
    by_cases hold : .connectDestroyed ∈ f :: rest ∨ .connectDestroyedRemove ∈ f :: rest
    · rcases hs hold with hs | hs <;> obtain ⟨rfl, rfl⟩ := List.cons.inj hs
      · have hclosed := h.removing.frames u _ hf rfl
        exact .inr (by simp [Core.frameStep, hclosed])
      · simp [Core.frameStep] at hmem
    · -- a call of `connectDestroyed` that is not made by the loop
      simp only [List.mem_cons, not_or] at hold
      simp only [List.mem_append, hold.1.2, hold.2.2, or_false] at hmem
      rcases hmem with hnew | hnew
      · generalize hg : Frame.connectDestroyed = g at hnew
        cases Core.next_of_mem hnew with
        | @runDirect l k =>
            cases k with
            | connectDestroyed => exact (h.own.frames u _ hf).elim
            | _ => cases hg
        | _ => cases hg
      · exact absurd (eq_of_next_remove (Core.next_of_mem hnew)) (Ne.symm hold.1.1)

/-- Functors are run after the dispatch. -/
theorem Dispatching.running_step (h : w.Dispatching cfg) (hm : Moves cfg isIn w a w') (g : Functor)
    (hg : .functor g ∈ w'.frames (cfg.threadId_ cfg.ioLoop)) :
    (w'.loops cfg.ioLoop).pc.isDispatch = false ∧
      (cfg.ioLoop, g, cfg.threadId_ cfg.ioLoop) ∈ w'.core.ran := by
  rcases functor_of_moves hm hg with hold | ⟨l, hl, -, hran, hpc⟩
  · obtain ⟨hpc, hran⟩ := h.running g hold
    refine ⟨?_, ran_of_moves hm hran⟩
    rcases pc_of_moves hm cfg.ioLoop with hsame | ⟨_, _, -, hstack, -⟩
    · rwa [hsame]
    · rw [hstack] at hold
      cases hold
  · -- a thread has at most one loop
    have hl := (cfg.loopInThisThread_eq _ l).2 hl.symm
    rw [(cfg.loopInThisThread_eq _ cfg.ioLoop).2 rfl] at hl
    obtain rfl := Option.some.inj hl
    exact ⟨hpc, hran⟩

/-- The channel is active only in the dispatch. -/
theorem Dispatching.awake_step (h : w.Dispatching cfg) (hm : Moves cfg isIn w a w')
    (hact : w'.core.active ≠ none) : (w'.loops cfg.ioLoop).pc.isDispatch = true := by
  obtain ⟨revents, hrev⟩ := Option.ne_none_iff_exists'.1 hact
  rcases active_of_moves hm hrev with hold | ⟨_, -, -, -, -, hpc⟩
  · have hdispatch := h.awake (by simp [hold])
    rcases pc_of_moves hm cfg.ioLoop with hpc | ⟨b, reported, rfl, -, hdisp, hs⟩
    · rwa [hpc]
    · rcases EventLoop.isDispatch_of_internal hs hdispatch with hpc | rfl
      · exact hpc
      · simp [dispatches, hold] at hdisp
  · exact hpc

/-- **Only `connectDestroyed` takes the channel out of the poller.** -/
theorem Dispatching.index_of_moves (h : w.Dispatching cfg) (hm : Moves cfg isIn w a w')
    (hnew : w'.core.conn.channel_.index_ = kNew) :
    w.core.conn.channel_.index_ = kNew ∨
      w.frames (cfg.threadId_ cfg.ioLoop) = [.connectDestroyedRemove, .functor .connectDestroyed] ∧
        w'.frames (cfg.threadId_ cfg.ioLoop) = [.functor .connectDestroyed] := by
  rcases conn_of_moves hm with ⟨hconn, -⟩ | ⟨t, o, f, rest, -, hstack, hcore, hw⟩
  · exact .inl (hconn ▸ hnew)
  · have hmem : f ∈ w.frames t := hstack ▸ List.mem_cons_self
    rw [hcore, Core.index_frameStep] at hnew
    cases hop : f.op w.core o with
    | none =>
        rw [hop] at hnew
        exact .inl hnew
    | some op =>
        rw [hop] at hnew
        by_cases hremove : op = .remove
        · subst hremove
          cases Frame.operates_of_op hop
          obtain rfl := h.own.frames t _ hmem
          rcases h.alone _ (.inr hmem) with halone | halone
          · rw [hstack] at halone
            cases halone
          · rw [hstack] at halone
            obtain ⟨-, rfl⟩ := List.cons.inj halone
            exact .inr ⟨hstack, by rw [hw, Function.update_self]; rfl⟩
        · exact absurd hnew (h.registered.index_perform_ne hremove)

/-- What is dispatched is in the poller. -/
theorem Dispatching.watched_step (h : w.Dispatching cfg) (hm : Moves cfg isIn w a w')
    (hact : w'.core.active ≠ none) : w'.core.conn.channel_.index_ ≠ kNew := by
  intro hnew
  obtain ⟨revents, hrev⟩ := Option.ne_none_iff_exists'.1 hact
  rcases h.index_of_moves hm hnew with hnew | ⟨hstack, -⟩
  · rcases active_of_moves hm hrev with hold | ⟨b, -, hb, hdisp, -⟩
    · exact h.watched (by simp [hold]) hnew
    · refine registered_of_dispatches hdisp hb (h.registered.interest_none_iff.2 ?_)
      rw [hnew]
      decide
  · rcases active_of_moves hm hrev with hold | ⟨_, -, -, -, hnil, -⟩
    · have hpc := h.awake (by simp [hold])
      rw [(h.running .connectDestroyed (by simp [hstack])).1] at hpc
      cases hpc
    · rw [hnil] at hstack
      cases hstack

omit [DecidableEq LoopId] [DecidableEq Tid] in
/-- The calls that handle an event find the channel in the poller. -/
theorem handling_typing :
    Typing (fun (c : Core LoopId Tid) _ f => f.handling = true → c.conn.channel_.index_ ≠ kNew)
      (fun _ _ _ => True) cfg where
  queueInLoop _ _ _ _ _ := trivial
  wakeup _ _ _ h := by cases h
  body _ _ f _ h := by cases f <;> cases h
  functor _ _ _ _ h := by cases h
  hold _ _ h := by cases h

/-- **A channel that is being handled is in the poller.** -/
theorem Dispatching.handling_step (h : w.Dispatching cfg) (ha : a.Local cfg)
    (hm : Moves cfg isIn w a w') : ∀ t, ∀ f ∈ w'.frames t, f.handling = true →
      w'.core.conn.channel_.index_ ≠ kNew := by
  have hentry : Entry (fun (c : Core LoopId Tid) _ f =>
      f.handling = true → c.conn.channel_.index_ ≠ kNew) cfg isIn w a w'.core := {
    step := fun t o f _ _ _ hf g hg hhandling => by
      -- what leads to a handler leaves the channel alone
      have hop : f.handling = true ∧ f.op w.core o = none := by
        cases Core.next_of_mem hg with
        | @runDirect l k => cases k <;> cases hhandling
        | handle | handleEvent | readClosed => exact ⟨rfl, rfl⟩
        | _ => cases hhandling
      rw [Core.index_frameStep, hop.2]
      exact hf hop.1
    event := fun revents hl hact _ => by
      subst hl
      rcases conn_of_moves hm with ⟨hconn, -⟩ | ⟨_, _, _, _, hl, -⟩
      · rw [hconn]
        exact h.watched (by simp [hact])
      · cases hl
    newConnection := fun _ h => by cases h
    destroyServer := fun _ _ h => by cases h
    send := fun _ _ _ _ _ h => by cases h
    shutdown := fun _ _ h => by cases h
    runInLoop := fun _ _ _ h => by cases h
    queueInLoop := fun _ _ _ h => by cases h }
  have hpersists : Persists (fun (c : Core LoopId Tid) _ f =>
      f.handling = true → c.conn.channel_.index_ ≠ kNew) (fun _ _ _ => True) w w'.core := by
    refine ⟨fun t f hf hold hhandling hnew => ?_, fun _ _ _ _ => trivial⟩
    rcases h.index_of_moves hm hnew with hnew | ⟨hstack, -⟩
    · exact hold hhandling hnew
    · -- `connectDestroyed` is alone on the thread that handles the events
      have hown : f.Own cfg t := h.own.frames t f hf
      obtain rfl : t = cfg.threadId_ cfg.ioLoop := by
        cases f with
        | handleEvent | handle => exact hown
        | _ => cases hhandling
      rw [hstack] at hf
      rcases List.mem_pair.1 hf with rfl | rfl <;> cases hhandling
  exact (Holds.step handling_typing hentry hpersists
    ⟨h.handling, fun _ _ _ => trivial⟩ hm).frames

/-! ### Who keeps the connection -/

/-- **The connection stays held** until the queue with its `connectDestroyed` becomes
the batch. -/
theorem Held.step (h : w.Held cfg) (ha : a.Local cfg) (hm : Moves cfg isIn w a w') :
    w'.Held cfg ∨ .connectDestroyed ∈ (w'.loops cfg.ioLoop).pc.rest := by
  rcases h with hmap | ⟨t, hpush⟩ | hpend
  · left
    cases hm with
    | newConnection => exact .inl rfl
    | destroyServer | destroyEmpty => exact ha.elim
    | @frame t o f rest =>
        cases hf : f.erases with
        | true =>
            obtain rfl : f = .removeConnectionInLoop := by cases f <;> first | rfl | cases hf
            exact .inr (.inl ⟨t, by simp [Core.frameStep]⟩)
        | false => exact .inl ((w.core.inMap_frameStep t o f).trans (by rw [hmap, hf]; rfl))
    | _ => exact .inl hmap
  · left
    rcases mem_stacks_of_moves hm hpush with hpush | ⟨l, g, hfg, hpend, -⟩ | ⟨o, hqueue, -⟩
    · exact .inr (.inl ⟨t, hpush⟩)
    · obtain ⟨rfl, rfl⟩ := Frame.queueInLoop.inj hfg
      exact .inr (.inr (by simp [hpend]))
    · exact absurd rfl (hqueue _ _)
  · rcases loopMove_of_moves hm cfg.ioLoop with ⟨hpend', -, -⟩ | ⟨-, -, -, -, hpc⟩ |
      ⟨-, -, -, -, hpend'⟩ | ⟨-, -, -, -, hpend'⟩
    · exact .inl (.inr (.inr (hpend' ▸ hpend)))
    · exact .inr (by simpa [hpc, LoopPc.rest] using hpend)
    · exact .inl (.inr (.inr (hpend' ▸ hpend)))
    · exact .inl (.inr (.inr (hpend' ▸ List.mem_append_left _ hpend)))

/-- **`connectDestroyed` is run to its end**, and takes the channel out of the
poller. -/
theorem Destroying.step (hd : w.Destroying cfg) (h : w.Dispatching cfg)
    (hm : Moves cfg isIn w a w') : w'.Held cfg ∨ w'.Destroying cfg ∨ w'.Gone cfg := by
  rcases hd with hrest | hcall | hcall
  · rcases mem_queued_of_moves hm (List.mem_append_left _ hrest) with hqueued | hrun
    · rcases List.mem_append.1 hqueued with hrest | hpend
      · exact .inr (.inl (.inl hrest))
      · exact .inl (.inr (.inr hpend))
    · exact .inr (.inl (.inr (.inl (by simp [hrun, Functor.body]))))
  · have hclosed := h.removing.frames _ _ hcall rfl
    rcases mem_stacks_of_moves hm hcall with hcall | ⟨_, _, hne, -⟩ | ⟨o, -, -, hnew, -⟩
    · exact .inr (.inl (.inr (.inl hcall)))
    · cases hne
    · exact .inr (.inl (.inr (.inr (hnew _ (by simp [Core.frameStep, hclosed])))))
  · have hclosed := h.removing.frames _ _ hcall rfl
    have hran : (cfg.ioLoop, .connectDestroyed, cfg.threadId_ cfg.ioLoop) ∈ w.core.ran := by
      refine (h.running .connectDestroyed ?_).2
      rcases h.alone _ (.inr hcall) with hst | hst <;> simp [hst]
    rcases mem_stacks_of_moves hm hcall with hcall | ⟨_, _, hne, -⟩ | ⟨o, -, hcore, -⟩
    · exact .inr (.inl (.inr (.inr hcall)))
    · cases hne
    · refine .inr (.inr ⟨h.closed_of_moves hm hclosed, ?_, ran_of_moves hm hran⟩)
      rw [hcore]
      exact TcpConnection.index_remove

/-- **Out of the poller for good.** -/
theorem Gone.step (hg : w.Gone cfg) (h : w.Dispatching cfg) (hm : Moves cfg isIn w a w') :
    w'.Gone cfg := by
  refine ⟨h.closed_of_moves hm hg.closed, ?_, ran_of_moves hm hg.ran⟩
  rcases conn_of_moves hm with ⟨hconn, -⟩ | ⟨t, o, f, rest, -, hstack, hcore, -⟩
  · exact hconn ▸ hg.removed
  · have hmem : f ∈ w.frames t := hstack ▸ List.mem_cons_self
    rw [hcore, Core.index_frameStep]
    cases hop : f.op w.core o with
    | none => exact hg.removed
    | some op =>
        cases Frame.operates_of_op hop with
        | connectDestroyedRemove => exact TcpConnection.index_remove
        | connectEstablished =>
            have hconnecting := (h.establishing.connecting hmem rfl).1
            rw [hg.closed] at hconnecting
            cases hconnecting
        | sendInLoopRest | connectDestroyedStore => exact absurd hg.closed (h.loaded t _ hmem rfl)
        | drained | handleClose => exact absurd hg.removed (h.handling t _ hmem rfl)

/-- The connection is held, or its removal is under way or done. -/
theorem Dispatching.kept_step (h : w.Dispatching cfg) (ha : a.Local cfg)
    (hm : Moves cfg isIn w a w') (hcreated : w'.core.created = true) :
    w'.Held cfg ∨ w'.Destroying cfg ∨ w'.Gone cfg := by
  by_cases hold : w.core.created = true
  · rcases h.kept hold with hheld | hdestroying | hgone
    · rcases hheld.step ha hm with hheld | hrest
      · exact .inl hheld
      · exact .inr (.inl (.inl hrest))
    · exact hdestroying.step h hm
    · exact .inr (.inr (hgone.step h hm))
  · cases hm with
    | newConnection => exact .inl (.inl rfl)
    | frame => exact absurd ((w.core.created_frameStep _ _ _).symm.trans hcreated) hold
    | _ => exact absurd hcreated hold

/-! ### Runs -/

/-- **One step** keeps the connection alive for the dispatch. -/
theorem Dispatching.step (h : w.Dispatching cfg) (ha : a.Local cfg)
    (hm : Moves cfg isIn w a w') : w'.Dispatching cfg where
  establishing := h.establishing.step hm
  registered := registered_of_moves h.registered hm
  below := below_of_moves h.below hm
  own := h.own.step own_typing (own_entry ha _) ⟨fun _ _ _ h => h, fun _ _ _ h => h⟩ hm
  loaded := h.loaded_step hm
  removing := h.removing.step removing_typing (removing_entry ha _)
    ⟨fun _ _ _ hf hr => h.closed_of_moves hm (hf hr),
      fun _ _ _ hf hr => h.closed_of_moves hm (hf hr)⟩ hm
  alone := h.alone_step hm
  running := h.running_step hm
  awake := h.awake_step hm
  watched := h.watched_step hm
  handling := h.handling_step ha hm
  kept := h.kept_step ha hm

omit [DecidableEq LoopId] [DecidableEq Tid] in
/-- Before the server has the connection. -/
theorem Dispatching.init (sockfd : ℤ) (mark : ℕ) (complete high : Bool) :
    (World.init (.ofFd sockfd mark complete high) : World LoopId Tid).Dispatching cfg where
  establishing := .init (cfg.threadId_ cfg.baseLoop) sockfd mark complete high
  registered := .ofFd sockfd mark complete high
  below _ _ hf := by cases hf
  own := Holds.init _
  loaded _ _ hf := by cases hf
  removing := Holds.init _
  alone _ h := by rcases h with h | h <;> cases h
  running _ h := by cases h
  awake h := absurd rfl h
  watched h := absurd rfl h
  handling _ _ hf := by cases hf
  kept h := by cases h

omit [DecidableEq LoopId] [DecidableEq Tid] in
/-- A channel that is to be handled belongs to a connection that is held. -/
theorem Dispatching.held (h : w.Dispatching cfg) (hact : w.core.active ≠ none) :
    w.Held cfg := by
  have hpc := h.awake hact
  have hcreated : w.core.created = true := by
    by_contra hne
    exact hact (h.establishing.silent (h.establishing.fresh (by simpa using hne))).1
  rcases h.kept hcreated with hheld | hdestroying | hgone
  · exact hheld
  · -- `connectDestroyed` is run after the dispatch
    have hcall (hst : .connectDestroyed ∈ w.frames (cfg.threadId_ cfg.ioLoop) ∨
        .connectDestroyedRemove ∈ w.frames (cfg.threadId_ cfg.ioLoop)) : w.Held cfg := by
      have hrun := h.running .connectDestroyed
        (by rcases h.alone _ hst with hst | hst <;> simp [hst])
      rw [hrun.1] at hpc
      cases hpc
    rcases hdestroying with hrest | hst | hst
    · rw [LoopPc.rest_of_isDispatch hpc] at hrest
      cases hrest
    · exact hcall (.inl hst)
    · exact hcall (.inr hst)
  · exact absurd hgone.removed (h.watched hact)

omit [DecidableEq LoopId] [DecidableEq Tid] in
/-- What holds the connection is the map or a functor. -/
theorem Held.retained (h : w.Held cfg) : w.Retained := by
  rcases h with hmap | ⟨t, hpush⟩ | hpend
  · exact .inl hmap
  · exact .inr (.inl ⟨t, _, hpush, rfl⟩)
  · exact .inr (.inr ⟨cfg.ioLoop, _, List.mem_append_right _ hpend, rfl⟩)

omit [DecidableEq LoopId] [DecidableEq Tid] in
/-- A connection that no `shared_ptr` owns has been destroyed by
`connectDestroyed`. -/
theorem Dispatching.gone (h : w.Dispatching cfg) (hcreated : w.core.created = true)
    (howned : ¬w.Owned) : w.Gone cfg := by
  have hcall (hst : .connectDestroyed ∈ w.frames (cfg.threadId_ cfg.ioLoop) ∨
      .connectDestroyedRemove ∈ w.frames (cfg.threadId_ cfg.ioLoop)) : w.Owned := by
    refine .inr (.inl ⟨cfg.threadId_ cfg.ioLoop, .functor .connectDestroyed, ?_, rfl⟩)
    rcases h.alone _ hst with hst | hst <;> simp [hst]
  rcases h.kept hcreated with (hmap | ⟨t, hpush⟩ | hpend) | (hrest | hst | hst) | hgone
  · exact absurd (.inl hmap) howned
  · exact absurd (.inr (.inl ⟨t, _, hpush, rfl⟩)) howned
  · exact absurd (.inr (.inr ⟨_, _, List.mem_append_right _ hpend, rfl⟩)) howned
  · refine absurd (.inr (.inr ⟨cfg.ioLoop, .connectDestroyed, ?_, rfl⟩)) howned
    exact List.mem_append_left _ (LoopPc.mem_batch_of_mem_rest hrest)
  · exact absurd (hcall (.inl hst)) howned
  · exact absurd (hcall (.inr hst)) howned
  · exact hgone

/-- **No step of the dispatch lets the connection go.** -/
theorem Held.step_dispatch (h : w.Held cfg) (hpc : (w.loops cfg.ioLoop).pc.isDispatch = true)
    (ha : a.Local cfg) (hdisp : ∀ reported, a ≠ .loop cfg.ioLoop .dispatched reported)
    (hm : Moves cfg isIn w a w') :
    w'.Held cfg ∧ (w'.loops cfg.ioLoop).pc.isDispatch = true := by
  have hpc' : (w'.loops cfg.ioLoop).pc.isDispatch = true := by
    rcases pc_of_moves hm cfg.ioLoop with hsame | ⟨b, reported, rfl, -, -, hs⟩
    · rwa [hsame]
    · refine (EventLoop.isDispatch_of_internal hs hpc).resolve_right ?_
      rintro rfl
      exact hdisp reported rfl
  refine ⟨(h.step ha hm).resolve_right fun hrest => ?_, hpc'⟩
  rw [LoopPc.rest_of_isDispatch hpc'] at hrest
  cases hrest

/-- **No dispatch to a dead channel.**  In every run in which the server is not
destroyed and `send` and `shutdown` are called by the thread of the connection's
loop, the connection is held while its channel is in `activeChannels_`, and from the
call of `handleEvent` until the loop has been through `activeChannels_`; and where
nobody owns it any more, its `connectDestroyed` has been run by its loop and the
channel is out of the poller. -/
theorem retained_of_local {sockfd : ℤ} {mark : ℕ} {complete high : Bool}
    {as : List (Label LoopId Tid)}
    (hs : exec (World.step cfg isIn) (init (.ofFd sockfd mark complete high)) as = some w)
    (hlocal : ∀ a ∈ as, a.Local cfg) :
    (w.core.active ≠ none → w.Retained) ∧
      (∀ bs w', exec (World.step cfg isIn) w (.event :: bs) = some w' →
        (∀ a ∈ bs, a.Local cfg ∧ ∀ reported, a ≠ .loop cfg.ioLoop .dispatched reported) →
        w'.Retained) ∧
      (w.core.created = true → ¬w.Owned → w.core.conn.Removed ∧
        (cfg.ioLoop, .connectDestroyed, cfg.threadId_ cfg.ioLoop) ∈ w.core.ran) := by
  have h : w.Dispatching cfg :=
    exec_invariant (fun _ _ _ h ha hs => h.step ha (moves_of_step hs))
      (Dispatching.init sockfd mark complete high) (along_of_forall_mem hlocal _) hs
  refine ⟨fun hact => (h.held hact).retained, fun bs w' hbs hdisp => ?_, fun hcreated howned => ?_⟩
  · obtain ⟨v, hv, hbs⟩ := exec_cons.1 hbs
    have hv₀ : v.Held cfg ∧ (v.loops cfg.ioLoop).pc.isDispatch = true := by
      have hm := moves_of_step hv
      have hact : w.core.active ≠ none := by
        cases hm with
        | event hact => simp [hact]
      exact (h.held hact).step_dispatch (a := .event) (h.awake hact) trivial (by simp) hm
    have hw' : w'.Held cfg ∧ (w'.loops cfg.ioLoop).pc.isDispatch = true :=
      exec_invariant
        (I := fun v => v.Held cfg ∧ (v.loops cfg.ioLoop).pc.isDispatch = true)
        (fun _ _ _ h ha hs => h.1.step_dispatch h.2 ha.1 ha.2 (moves_of_step hs)) hv₀
        (along_of_forall_mem hdisp _) hbs
    exact hw'.1.retained
  · have hgone := h.gone hcreated howned
    exact ⟨h.registered.removed_iff.2 hgone.removed, hgone.ran⟩

instance (a : Label LoopId Tid) : Decidable (a.Local cfg) :=
  match a with
  | .destroyServer => .isFalse id
  | .call _ (.send _) | .call _ .shutdown => inferInstanceAs (Decidable (_ = _))
  | .loop .. | .event | .newConnection | .call _ (.runInLoop ..) | .call _ (.queueInLoop ..)
  | .quit .. | .wakeup .. | .poke .. | .step .. => .isTrue trivial

/-- The hypotheses are satisfiable: the peer hangs up, and the base loop takes the
connection out of `connections_` while the sub-loop is in its dispatch; when
`connectDestroyed` has been run, nobody owns the connection. -/
theorem retained_of_local_hangingUp :
    (∃ w w', exec (step .duo Threads.duo.compared) fresh
          (opening ++ [.loop true .pollReturn (some EPOLLIN)]) = some w ∧
        exec (step .duo Threads.duo.compared) w (.event :: (steps 1 1 ++
          [.step 1 ⟨false, .wrote 0, .closed, fun _ => 0⟩] ++ steps 1 10 ++
          [.loop false .dispatched none, .loop false .raise none, .loop false .swap none,
            .loop false .start none] ++ steps 0 4)) = some w' ∧
        w'.core.inMap = false ∧ w.Retained ∧ w'.Retained) ∧
      ∃ w, exec (step .duo Threads.duo.compared) fresh (opening ++ hangingUp ++ sleeping) =
          some w ∧
        w.core.conn.Removed ∧ (true, .connectDestroyed, 1) ∈ w.core.ran := by
  have hs : exec (step .duo Threads.duo.compared) fresh
      (opening ++ [.loop true .pollReturn (some EPOLLIN)]) = some _ := rfl
  have hgone : exec (step .duo Threads.duo.compared) fresh (opening ++ hangingUp ++ sleeping) =
      some _ := rfl
  obtain ⟨hactive, hdispatch, -⟩ := retained_of_local hs (by decide)
  refine ⟨⟨_, _, hs, rfl, rfl, hactive (by decide), ?_⟩, _, hgone, ?_⟩
  · exact hdispatch (steps 1 1 ++ [.step 1 ⟨false, .wrote 0, .closed, fun _ => 0⟩] ++
      steps 1 10 ++ [.loop false .dispatched none, .loop false .raise none,
        .loop false .swap none, .loop false .start none] ++ steps 0 4) _ rfl
      (by simp [steps, Label.Local, Threads.duo])
  · exact (retained_of_local hgone (by decide)).2.2 rfl (by decide +kernel)

end World
end MuMuduo
