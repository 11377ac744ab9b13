/-
# Nothing after the close callback

`handleEventWithGuard` makes up to four calls from one word `revents_` and does not
look at what the earlier ones have done.  `handleClose` is reached from two of them,
from the branch for `EPOLLHUP` and from `handleRead`.  The first of these is taken
only without `EPOLLIN`, so that no read follows; but `handleRead` is called for
`EPOLLPRI` as well.  An event of `EPOLLHUP` and `EPOLLPRI` closes the connection and
then reads from it: what is read is handed to the message callback of a connection
that is down, and a read of no bytes closes it once more
(`not_last_close_urgent`).

Otherwise `handleClose` is the end (`last_close_of_spared`): it leaves no interest,
and for the channel to be reported again a `send` must have put it back, after a late
`shutdown` has stored over `kDisconnected`.
-/

import MuMuduo.Foundation.Fifo
import MuMuduo.Server.Custody
import MuMuduo.Server.Watching

namespace MuMuduo

open Foundation

variable {LoopId Tid : Type*}

/-- `handleEventWithGuard` has its branch for `EPOLLHUP` before it. -/
def Frame.hangs : Frame LoopId → Bool
  | .handleEvent todo => decide (.close ∈ todo)
  | _ => false

/-- It has that branch before it even after its next call. -/
def Frame.hangsLater : Frame LoopId → Bool
  | .handleEvent todo => decide (.close ∈ todo.tail)
  | _ => false

/-- The call leads to the connection or the close callback of an established
connection by itself. -/
def Frame.closes : Frame LoopId → Bool
  | .connectionCallback | .removeConnection | .connectDestroyedStore | .handle .close => true
  | f => f.hangs

/-- The call handles an event or is in the close callback. -/
def Frame.attends : Frame LoopId → Bool
  | .handleEvent _ | .handle _ | .removeConnection => true
  | _ => false

/-- The frame `g` may lie below the frame `f`: a call of `handleEventWithGuard` that
has begun has its branch for `EPOLLHUP` behind it, and the close callback is not
called within a handler or another close callback. -/
def Frame.Above (f g : Frame LoopId) : Prop :=
  g.hangs = false ∧ (g = .removeConnection → f.attends = false)

/-- The frame passes the scheduled `removeConnectionInLoop` on. -/
def Frame.schedules : Frame LoopId → Bool
  | .runInLoop _ f | .queueInLoop _ f => f == .removeConnectionInLoop
  | _ => false

/-- How often `removeConnectionInLoop` has been run. -/
def Core.removals (c : Core LoopId Tid) : ℕ :=
  c.ran.countP fun e => e.2.1 == .removeConnectionInLoop

/-- The close handler comes first or not at all. -/
theorem close_notMem_handlers_tail (revents_ : BitVec 32) :
    .close ∉ (handlers revents_).tail := by
  unfold handlers
  split_ifs <;> simp

namespace World

/-- What is known of the calls that tell of the end of the connection. -/
structure Farewell (cfg : Threads LoopId Tid) (w : World LoopId Tid) : Prop where
  regular : w.Regular cfg
  headed : Holds (fun _ _ f => f.hangsLater = false) (fun _ _ _ => True) w
  above : ∀ t, (w.frames t).Pairwise Frame.Above
  closing : ∀ t, .removeConnection ∈ w.frames t → w.core.conn.state_.Down
  down : .close ∈ w.core.told → w.core.conn.state_.Down
  quiet : .close ∈ w.core.told → ∀ t, ∀ f ∈ w.frames t, f.closes = false
  last : Last .close w.core.told

/-- How often a stack or a queue holds the scheduled `removeConnectionInLoop`. -/
def scheduled (w : World LoopId Tid) : Tid ⊕ LoopId → ℕ :=
  w.count Frame.schedules (· == .removeConnectionInLoop)

/-- Each close callback schedules one `removeConnectionInLoop`. -/
structure Scheduled (w : World LoopId Tid) : Prop where
  one : AtMostOne w.scheduled
  run : ∀ p, w.core.removals + w.scheduled p ≤ w.core.told.count .close

/-- `isInLoopThread` takes no foreign thread for a loop's own; and after the close
callback no event is handled with `EPOLLHUP` and without `EPOLLIN`, and every read
fails. -/
def Spared (cfg : Threads LoopId Tid) (isIn : LoopId → Tid → Bool → Bool)
    (w : World LoopId Tid) : Label LoopId Tid → Prop
  | .event => .close ∈ w.core.told → ∀ revents ∈ w.core.active, .close ∉ handlers revents
  | .step t o => w.Truthful cfg isIn (.step t o) ∧
      ((w.frames t).head? = some (.handle .read) → .close ∈ w.core.told → o.read = .failed)
  | _ => True

variable {cfg : Threads LoopId Tid} {isIn : LoopId → Tid → Bool → Bool}
variable {w w' : World LoopId Tid} {a : Label LoopId Tid}

/-- `isInLoopThread` takes no foreign thread for a loop's own. -/
theorem Spared.truthful (h : w.Spared cfg isIn a) : w.Truthful cfg isIn a := by
  cases a with
  | step => exact h.1
  | _ => trivial

/-! ### The calls of a handler -/

/-- After its first call `handleEventWithGuard` has the branch for `EPOLLHUP` behind it. -/
theorem headed_typing :
    Typing (fun (_ : Core LoopId Tid) (_ : Tid) (f : Frame LoopId) => f.hangsLater = false)
      (fun _ _ _ => True) cfg where
  queueInLoop _ _ _ _ _ := trivial
  wakeup _ _ _ := rfl
  body _ _ f _ := by cases f <;> rfl
  functor _ _ _ _ := rfl
  hold _ _ := rfl

/-- Once its first call is made, `handleEventWithGuard` is past its branch for
`EPOLLHUP`. -/
theorem hangs_of_next {c : Core LoopId Tid} {t : Tid} {o : Oracle} {f g : Frame LoopId}
    (h : c.Next cfg isIn t o f g) (hf : f.hangsLater = false) : g.hangs = false := by
  cases h with
  | @runDirect _ f => cases f <;> rfl
  | handleEvent => exact hf
  | _ => rfl

/-- An event starts with that branch. -/
theorem headed_entry (c : Core LoopId Tid) :
    Entry (fun _ _ f => f.hangsLater = false) cfg isIn w a c where
  step _ _ _ _ _ _ hf g hg := by
    have hhangs := hangs_of_next (Core.next_of_mem hg) hf
    cases g with
    | handleEvent todo =>
        refine decide_eq_false fun hmem => ?_
        exact of_decide_eq_false hhangs (List.mem_of_mem_tail hmem)
    | _ => rfl
  event revents _ _ := decide_eq_false (close_notMem_handlers_tail revents)
  newConnection _ := rfl
  destroyServer _ _ := rfl
  send _ _ _ _ _ := rfl
  shutdown _ _ := rfl
  runInLoop _ _ _ := rfl
  queueInLoop _ _ _ := rfl

/-- Only within a handler is a handler or the close callback called. -/
theorem attends_of_next {c : Core LoopId Tid} {t : Tid} {o : Oracle} {f g : Frame LoopId}
    (h : c.Next cfg isIn t o f g) (hf : f.attends = false) : g.attends = false := by
  cases h with
  | @runDirect _ f => cases f <;> rfl
  | handle | handleEvent | closedRemove | readClosed => cases hf
  | _ => rfl

/-- A function called by the connection handles no event. -/
theorem attends_of_called {f : Frame LoopId} (h : f.called = true) : f.attends = false := by
  cases f with
  | handleEvent | handle | removeConnection => cases h
  | _ => rfl

/-- The frames that a step makes lie on one another. -/
theorem above_frameStep (c : Core LoopId Tid) (t : Tid) (o : Oracle) {f : Frame LoopId}
    (hf : f.hangsLater = false) : (c.frameStep cfg isIn t o f).2.Pairwise Frame.Above := by
  cases f with
  | handleEvent todo =>
      cases todo with
      | nil => exact List.Pairwise.nil
      | cons h todo => exact List.pairwise_pair.2 ⟨hf, nofun⟩
  | handle h =>
      cases h with
      | close => exact List.pairwise_pair.2 ⟨rfl, fun _ => rfl⟩
      | error => exact List.Pairwise.nil
      | read => cases hr : o.read <;> simp [Core.frameStep, hr]
      | write =>
          simp only [Core.frameStep]
          split_ifs <;> simp [Frame.Above, Frame.hangs]
  | sendInLoopRest buf len id =>
      simp only [Core.frameStep]
      cases (c.conn.sendInLoop (c.bytesAt buf len o.garbage) o.write).2 <;> simp
  | _ =>
      simp only [Core.frameStep]
      try split_ifs
      all_goals simp [Frame.Above, Frame.hangs]

variable [DecidableEq LoopId] [DecidableEq Tid]

/-- **Handlers and close callbacks do not nest.** -/
theorem Farewell.above_step (h : w.Farewell cfg) (hm : Moves cfg isIn w a w') (t : Tid) :
    (w'.frames t).Pairwise Frame.Above := by
  refine forall_stacks_of_moves (S := fun _ st => st.Pairwise Frame.Above) h.above hm ?_ ?_ ?_ ?_ t
  · exact fun _ _ _ => List.pairwise_pair.2 ⟨rfl, nofun⟩
  · intro u frames hst hframes hcalled hpair
    refine List.pairwise_append.2 ⟨?_, hpair, fun f hf g hg => ?_⟩
    · cases hframes <;> simp [Frame.Above, Frame.hangs]
    · rcases hst with hst | ⟨rest, hst⟩ <;> rw [hst] at hg hpair
      · cases hg
      · refine ⟨?_, fun _ => ?_⟩
        · rcases List.mem_cons.1 hg with rfl | hg
          · rfl
          · exact ((List.pairwise_cons.1 hpair).1 g hg).1
        · rcases hcalled with hnil | hcalled
          · rw [hst] at hnil
            cases hnil
          · exact attends_of_called (hcalled f hf)
  · intro u l f rest hpair
    obtain ⟨habove, hrest⟩ := List.pairwise_cons.1 hpair
    exact List.pairwise_cons.2 ⟨fun g hg => ⟨(habove g hg).1, fun _ => rfl⟩, hrest⟩
  · intro u o f rest _ hstack _ hpair
    obtain ⟨habove, hrest⟩ := List.pairwise_cons.1 hpair
    have hheaded := h.headed.frames u f (hstack ▸ List.mem_cons_self)
    refine List.pairwise_append.2 ⟨above_frameStep w.core u o hheaded, hrest, ?_⟩
    intro g hg k hk
    refine ⟨(habove k hk).1, fun hclose => ?_⟩
    exact attends_of_next (Core.next_of_mem hg) ((habove k hk).2 hclose)

/-! ### After the close callback -/

/-- **The close callback is called with the connection down.** -/
theorem Farewell.closing_step (h : w.Farewell cfg) (hm : Moves cfg isIn w a w') (t : Tid)
    (hf : .removeConnection ∈ w'.frames t) : w'.core.conn.state_.Down := by
  rcases of_mem_stacks_inner hm hf rfl with hold | ⟨o, g, rest, -, -, hcore, hf⟩
  · exact h.regular.establishing.down_of_moves hm (h.closing t hold)
  · generalize hk : Frame.removeConnection = k at hf
    cases Core.next_of_mem hf with
    | @runDirect _ f => cases f <;> cases hk
    | closedRemove =>
        rw [hcore]
        exact ⟨nofun, nofun⟩
    | _ => cases hk

omit [DecidableEq LoopId] [DecidableEq Tid] in
/-- Only `removeConnection` tells of a close. -/
theorem close_notMem_tells {c : Core LoopId Tid} {o : Oracle} {f : Frame LoopId}
    (hf : f ≠ .removeConnection) : .close ∉ f.tells c o := by
  cases f with
  | removeConnection => exact absurd rfl hf
  | handle k =>
      cases k with
      | read => cases hr : o.read <;> simp [hr]
      | _ => exact List.not_mem_nil
  | connectionCallback => simp
  | _ => exact List.not_mem_nil

/-- The close callback is recorded by its call. -/
theorem told_of_moves (hm : Moves cfg isIn w a w') (hnew : .close ∈ w'.core.told)
    (hold : .close ∉ w.core.told) : ∃ t o rest, a = .step t o ∧
      w.frames t = .removeConnection :: rest ∧ w'.core.told = w.core.told ++ [.close] ∧
      w'.frames = Function.update w.frames t
        (.runInLoop cfg.baseLoop .removeConnectionInLoop :: rest) := by
  rcases conn_of_moves hm with ⟨-, htold⟩ | ⟨t, o, f, rest, ha, hstack, hcore, hw⟩
  · exact absurd (htold ▸ hnew) hold
  · have htold : w'.core.told = w.core.told ++ f.tells w.core o := by
      rw [hcore, Core.frameStep_core]
    rw [htold] at hnew
    have hclose := (List.mem_append.1 hnew).resolve_left hold
    by_cases hf : f = .removeConnection
    · subst hf
      exact ⟨t, o, rest, ha, hstack, htold, hw⟩
    · exact absurd hclose (close_notMem_tells hf)

/-- When the close callback is called the connection is down. -/
theorem Farewell.down_step (h : w.Farewell cfg) (hm : Moves cfg isIn w a w')
    (hnew : .close ∈ w'.core.told) : w'.core.conn.state_.Down := by
  refine h.regular.establishing.down_of_moves hm ?_
  by_cases hold : .close ∈ w.core.told
  · exact h.down hold
  · obtain ⟨t, o, rest, -, hstack, -⟩ := told_of_moves hm hnew hold
    exact h.closing t (hstack ▸ List.mem_cons_self)

omit [DecidableEq LoopId] [DecidableEq Tid] in
/-- Where the close callback is called, nothing below it closes the connection. -/
theorem Farewell.quiet_below (h : w.Farewell cfg) {t : Tid} {rest : List (Frame LoopId)}
    (hstack : w.frames t = .removeConnection :: rest) (f : Frame LoopId) (hf : f ∈ rest) :
    f.closes = false := by
  have hpair := h.above t
  have hbelow := h.regular.below t f (by rw [hstack]; exact hf)
  rw [hstack] at hpair
  obtain ⟨hhangs, hremove⟩ := (List.pairwise_cons.1 hpair).1 f hf
  cases f with
  | removeConnection => cases hremove rfl
  | connectionCallback | connectDestroyedStore | handle => cases hbelow
  | _ => exact hhangs

omit [DecidableEq LoopId] [DecidableEq Tid] in
/-- What does not close leads to nothing that does. -/
theorem quiet_typing :
    Typing (fun (_ : Core LoopId Tid) (_ : Tid) (f : Frame LoopId) => f.closes = false)
      (fun _ _ _ => True) cfg where
  queueInLoop _ _ _ _ _ := trivial
  wakeup _ _ _ := rfl
  body _ _ f _ := by cases f <;> rfl
  functor _ _ _ _ := rfl
  hold _ _ := rfl

omit [DecidableEq LoopId] [DecidableEq Tid] in
/-- What could close the connection once more. -/
theorem closes_of_next {c : Core LoopId Tid} {t : Tid} {o : Oracle} {f g : Frame LoopId}
    (h : c.Next cfg isIn t o f g) (hf : f.closes = false) (hs : c.conn.state_.Down)
    (hg : g.closes = true) :
    f = .connectEstablished ∨ f = .handle .read ∧ o.read = .closed := by
  cases h with
  | @runDirect _ f => cases f <;> cases hg
  | established => exact .inl rfl
  | readClosed hr => exact .inr ⟨rfl, hr⟩
  | destroyedStore hconn => exact absurd hconn hs.2
  | @handle k todo =>
      cases k with
      | close =>
          have hhangs : decide (Handler.close ∈ .close :: todo) = false := hf
          simp at hhangs
      | _ => cases hg
  | @handleEvent k todo =>
      have hhangs : decide (.close ∈ k :: todo) = false := hf
      exact absurd (List.mem_cons_of_mem k (of_decide_eq_true hg)) (of_decide_eq_false hhangs)
  | closed | closedRemove | destroyedStored => cases hf
  | _ => cases hg

/-- **After the close callback no call closes the connection.** -/
theorem Farewell.quiet_step (h : w.Farewell cfg) (ha : w.Spared cfg isIn a)
    (hm : Moves cfg isIn w a w') (hnew : .close ∈ w'.core.told) (t : Tid) (f : Frame LoopId)
    (hf : f ∈ w'.frames t) : f.closes = false := by
  by_cases hold : .close ∈ w.core.told
  · have hentry : Entry (fun _ _ f => f.closes = false) cfg isIn w a w'.core := {
      step := fun t o f rest hl hstack hf g hg => by
        subst hl
        have hmem : f ∈ w.frames t := hstack ▸ List.mem_cons_self
        rw [← Bool.not_eq_true]
        intro hcloses
        rcases closes_of_next (Core.next_of_mem hg) hf (h.down hold) hcloses with rfl | ⟨rfl, hr⟩
        · exact (h.down hold).1 (h.regular.establishing.connecting hmem rfl).1
        · have := ha.2 (by rw [hstack]; rfl) hold
          rw [hr] at this
          cases this
      event := fun revents hl hact => by
        subst hl
        exact decide_eq_false (ha hold revents hact)
      newConnection := fun _ => rfl
      destroyServer := fun _ _ => rfl
      send := fun _ _ _ _ _ => rfl
      shutdown := fun _ _ => rfl
      runInLoop := fun _ _ _ => rfl
      queueInLoop := fun _ _ _ => rfl }
    exact (Holds.step quiet_typing hentry ⟨fun _ _ _ h => h, fun _ _ _ _ => trivial⟩
      ⟨h.quiet hold, fun _ _ _ => trivial⟩ hm).frames t f hf
  · -- the close callback is called in this step, on the thread of the loop
    obtain ⟨u, o, rest, rfl, hstack, -, hw⟩ := told_of_moves hm hnew hold
    have hmem : .removeConnection ∈ w.frames u := hstack ▸ List.mem_cons_self
    have hhome : u = cfg.threadId_ cfg.ioLoop := h.regular.home.frames u _ hmem
    rw [hw] at hf
    by_cases htu : t = u
    · subst htu
      rw [Function.update_self] at hf
      rcases List.mem_cons.1 hf with rfl | hf
      · rfl
      · exact h.quiet_below hstack f hf
    · rw [Function.update_of_ne htu] at hf
      have hother : f.AtHome cfg t := h.regular.home.frames t f hf
      cases f with
      | connectionCallback | removeConnection | connectDestroyedStore | handle | handleEvent =>
          exact absurd (Eq.trans hother hhome.symm) htu
      | _ => rfl

/-- **Nothing is told after the close callback.** -/
theorem Farewell.last_step (h : w.Farewell cfg) (ha : w.Spared cfg isIn a)
    (hm : Moves cfg isIn w a w') : Last .close w'.core.told := by
  rcases conn_of_moves hm with ⟨-, htold⟩ | ⟨t, o, f, rest, rfl, hstack, hcore, -⟩
  · rw [htold]
    exact h.last
  · have hmem : f ∈ w.frames t := hstack ▸ List.mem_cons_self
    have htold : w'.core.told = w.core.told ++ f.tells w.core o := by
      rw [hcore, Core.frameStep_core]
    rw [htold]
    by_cases hold : .close ∈ w.core.told
    · have hquiet := h.quiet hold t f hmem
      have hnone : f.tells w.core o = [] := by
        cases f with
        | connectionCallback | removeConnection => cases hquiet
        | handle k =>
            cases k with
            | read =>
                have hr := ha.2 (by rw [hstack]; rfl) hold
                rw [Frame.tells, hr]
            | _ => rfl
        | _ => rfl
      rw [hnone, List.append_nil]
      exact h.last
    · -- at most one callback is called in a step
      have hone : f.tells w.core o = [] ∨ ∃ x, f.tells w.core o = [x] := by
        cases f with
        | connectionCallback | removeConnection => exact .inr ⟨_, rfl⟩
        | handle k =>
            cases k with
            | read => cases hr : o.read <;> simp [hr]
            | _ => exact .inl rfl
        | _ => exact .inl rfl
      rcases hone with hnone | ⟨x, hx⟩
      · rw [hnone, List.append_nil]
        exact h.last
      · rw [hx]
        exact last_concat hold x

/-- **One step.** -/
theorem Farewell.step (h : w.Farewell cfg) (ha : w.Spared cfg isIn a)
    (hm : Moves cfg isIn w a w') : w'.Farewell cfg where
  regular := h.regular.step ha.truthful hm
  headed := h.headed.step headed_typing (headed_entry _)
    ⟨fun _ _ _ h => h, fun _ _ _ _ => trivial⟩ hm
  above := h.above_step hm
  closing := h.closing_step hm
  down := h.down_step hm
  quiet := h.quiet_step ha hm
  last := h.last_step ha hm

omit [DecidableEq LoopId] [DecidableEq Tid] in
/-- Before the server has the connection. -/
theorem Farewell.init (sockfd : ℤ) (mark : ℕ) (complete high : Bool) :
    (World.init (.ofFd sockfd mark complete high) : World LoopId Tid).Farewell cfg where
  regular := .init sockfd mark complete high
  headed := Holds.init _
  above _ := List.Pairwise.nil
  closing _ h := by cases h
  down h := by cases h
  quiet h := by cases h
  last := last_of_notMem List.not_mem_nil

/-! ### What the close callback schedules -/

omit [DecidableEq LoopId] [DecidableEq Tid] in
/-- The scheduled removal is passed on from call to call. -/
theorem passed_schedules :
    Passed (Frame.schedules : Frame LoopId → Bool) (· == .removeConnectionInLoop) where
  body f := by cases f <;> exact Nat.zero_le _
  queueInLoop _ _ := rfl
  runInLoop _ _ := rfl
  functor _ := rfl
  hold := rfl
  wakeup _ := rfl
  handleEvent _ := rfl
  send _ _ := rfl
  shutdown := rfl
  user _ := rfl

omit [DecidableEq LoopId] [DecidableEq Tid] in
/-- Only the close callback makes the call. -/
theorem schedules_frameStep (c : Core LoopId Tid) (t : Tid) (o : Oracle) {f : Frame LoopId}
    (hf : f ≠ .removeConnection) :
    (c.frameStep cfg isIn t o f).2.countP Frame.schedules ≤ f.schedules.toNat := by
  cases f with
  | removeConnection => exact absurd rfl hf
  | runInLoop l f =>
      simp only [Core.frameStep]
      split_ifs <;> cases f <;> simp [Functor.body, Frame.schedules]
  | sendInLoopRest buf len id =>
      simp only [Core.frameStep]
      cases (c.conn.sendInLoop (c.bytesAt buf len o.garbage) o.write).2 with
      | none => simp
      | some n => cases n <;> simp [Functor.ofNotice, Frame.schedules]
  | handleEvent todo => cases todo <;> simp [Core.frameStep, Frame.schedules]
  | handle h =>
      cases h with
      | read => cases hr : o.read <;> simp [Core.frameStep, hr, Frame.schedules]
      | close | error => simp [Core.frameStep, Frame.schedules]
      | write =>
          simp only [Core.frameStep]
          split_ifs <;> simp [Frame.schedules]
  | _ =>
      simp only [Core.frameStep]
      try split_ifs
      all_goals simp [Frame.schedules]

omit [DecidableEq LoopId] [DecidableEq Tid] in
/-- What a step of a call adds to the count. -/
theorem removals_frameStep (c : Core LoopId Tid) (t : Tid) (o : Oracle) (f : Frame LoopId) :
    (c.frameStep cfg isIn t o f).1.removals = c.removals ∨
      (∃ l, f = .runInLoop l .removeConnectionInLoop ∧
        (c.frameStep cfg isIn t o f).2 = [.removeConnectionInLoop]) ∧
        (c.frameStep cfg isIn t o f).1.removals = c.removals + 1 := by
  unfold Core.removals
  rw [Core.ran_frameStep, List.countP_append]
  cases f with
  | runInLoop l f =>
      by_cases hin : isIn l t o.raw = true
      · cases f with
        | removeConnectionInLoop =>
            refine .inr ⟨⟨l, rfl, ?_⟩, by simp [hin]⟩
            rw [Core.frameStep, if_pos hin]
            rfl
        | _ => exact .inl (by simp [hin])
      · exact .inl (by simp [hin])
  | sendConnected | handleWriteRest =>
      rw [Frame.runs]
      split_ifs <;> exact .inl rfl
  | _ => exact .inl rfl

omit [DecidableEq LoopId] [DecidableEq Tid] in
/-- A step that hands the call on or drops it. -/
theorem Scheduled.passes (h : w.Scheduled) (hpasses : Passes w.scheduled w'.scheduled)
    (hran : w'.core.removals = w.core.removals)
    (htold : w'.core.told.count .close = w.core.told.count .close) : w'.Scheduled := by
  refine ⟨h.one.passes hpasses, fun p => ?_⟩
  rw [hran, htold]
  exact h.one.add_le_of_passes hpasses h.run p

omit [DecidableEq LoopId] [DecidableEq Tid] in
/-- A step that begins the call. -/
theorem Scheduled.used (h : w.Scheduled) (hle : ∀ p, w'.scheduled p ≤ w.scheduled p)
    {p : Tid ⊕ LoopId} (hp : w'.scheduled p + 1 ≤ w.scheduled p)
    (hran : w'.core.removals = w.core.removals + 1)
    (htold : w'.core.told.count .close = w.core.told.count .close) : w'.Scheduled := by
  refine ⟨⟨p, ?_, fun q _ => h.one.used hle hp q⟩, fun q => ?_⟩
  · rw [h.one.used hle hp p]
    exact Nat.zero_le 1
  · rw [hran, htold]
    exact h.one.add_le_of_used hle hp h.run q

omit [DecidableEq LoopId] in
/-- The close callback makes the call: if it is the first, nothing of it was there. -/
theorem Scheduled.made (h : w.Scheduled) {t : Tid} {rest : List (Frame LoopId)}
    (hlast : w'.core.told.count .close ≤ 1) (hstack : w.frames t = .removeConnection :: rest)
    (htold : w'.core.told.count .close = w.core.told.count .close + 1)
    (hran : w'.core.removals = w.core.removals) (hl : w'.loops = w.loops)
    (hw : w'.frames = Function.update w.frames t (.runInLoop cfg.baseLoop .removeConnectionInLoop
      :: rest)) : w'.Scheduled := by
  have hfirst : w.core.told.count .close = 0 := by omega
  have hnone (p : Tid ⊕ LoopId) : w.scheduled p = 0 := by
    have := h.run p
    omega
  have hran₀ : w.core.removals = 0 := by
    have := h.run (.inl t)
    omega
  have hrest : (w.frames t).countP Frame.schedules = 0 := hnone (.inl t)
  rw [hstack, List.countP_cons_of_neg (by simp [Frame.schedules])] at hrest
  have hone : w'.scheduled (.inl t) = 1 := by
    show (w'.frames t).countP Frame.schedules = 1
    rw [hw, Function.update_self, List.countP_cons_of_pos rfl, hrest]
  have hother (p : Tid ⊕ LoopId) (hp : p ≠ .inl t) : w'.scheduled p = 0 := by
    cases p with
    | inl u =>
        have hu : u ≠ t := fun hu => hp (congrArg _ hu)
        show (w'.frames u).countP Frame.schedules = 0
        rw [hw, Function.update_of_ne hu]
        exact hnone (.inl u)
    | inr l =>
        have : w'.scheduled (.inr l) = w.scheduled (.inr l) := by
          show (w'.queued l).countP _ = (w.queued l).countP _
          rw [queued, queued, hl]
        exact this.trans (hnone (.inr l))
  refine ⟨⟨.inl t, Nat.le_of_eq hone, hother⟩, fun p => ?_⟩
  by_cases hp : p = .inl t
  · subst hp
    omega
  · have := hother p hp
    omega

/-- **Scheduled once, run once.** -/
theorem Scheduled.step (h : w.Scheduled) (hlast : w'.core.told.count .close ≤ 1)
    (hm : Moves cfg isIn w a w') : w'.Scheduled := by
  have hpass (hne : ∀ t o rest, a = .step t o → w.frames t ≠ .removeConnection :: rest)
      (hran : w'.core.removals = w.core.removals)
      (htold : w'.core.told.count .close = w.core.told.count .close) : w'.Scheduled := by
    refine h.passes (passes_of_step passed_schedules hm (fun t o f rest hl hstack => ?_)
      (fun _ => rfl) fun _ => rfl) hran htold
    refine schedules_frameStep w.core t o ?_
    rintro rfl
    exact hne t o rest hl hstack
  cases hm with
  | @start l _ _ f _ _ _ _ hpc hpc' hpend =>
      have hran : (w.core.ran ++ [(l, f, cfg.threadId_ l)]).countP
          (fun e => e.2.1 == .removeConnectionInLoop) =
            w.core.removals + (f == .removeConnectionInLoop).toNat := by
        rw [List.countP_append, List.countP_singleton]
        cases f == .removeConnectionInLoop <;> rfl
      by_cases hf : f = .removeConnectionInLoop
      · subst hf
        refine h.used (p := .inr l) (count_le_of_start passed_schedules
          (queued_update_start hpc hpc' hpend) (fun k hk => queued_update_of_ne hk) rfl rfl) ?_
          hran rfl
        exact Nat.le_of_eq ((List.countP_cons_of_pos rfl).symm.trans
          (congrArg _ (queued_update_start hpc hpc' hpend)).symm)
      · refine hpass (fun _ _ _ hl => by cases hl) ?_ rfl
        rw [beq_false_of_ne hf] at hran
        exact hran
  | @frame t o f rest hstack =>
      by_cases hf : f = .removeConnection
      · subst hf
        refine h.made hlast hstack ?_ rfl rfl rfl
        rw [Core.frameStep_core, List.count_append]
        rfl
      · have htold : (w.core.frameStep cfg isIn t o f).1.told.count .close =
            w.core.told.count .close := by
          rw [Core.frameStep_core, List.count_append,
            List.count_eq_zero_of_not_mem (close_notMem_tells hf), Nat.add_zero]
        rcases removals_frameStep w.core t o f with hran | ⟨⟨l, rfl, hnew⟩, hran⟩
        · refine hpass (fun u o' rest' hl hst => ?_) hran htold
          obtain ⟨rfl, -⟩ := Label.step.inj hl
          rw [hstack] at hst
          exact hf (List.cons.inj hst).1
        · refine h.used (p := .inl t) (count_le_of_stack rfl rfl ?_) ?_ hran htold
          · rw [hnew, hstack]
            simp [Frame.schedules]
          · show (Function.update w.frames t _ t).countP _ + 1 ≤ (w.frames t).countP _
            rw [Function.update_self, hnew, hstack]
            simp [Frame.schedules]
  | queueInLoop hstack | wakeupCall hstack | wakeupReturn hstack =>
      refine hpass (fun t o rest hl hst => ?_) rfl rfl
      obtain ⟨rfl, -⟩ := Label.step.inj hl
      rw [hstack] at hst
      cases hst
  | _ => exact hpass (fun _ _ _ hl => by cases hl) rfl rfl

omit [DecidableEq LoopId] [DecidableEq Tid] in
/-- Before the server has the connection no removal is scheduled. -/
theorem Scheduled.init (t : Tid) (conn : TcpConnection) :
    (World.init conn : World LoopId Tid).Scheduled where
  one := ⟨.inl t, Nat.zero_le 1, fun p _ => by cases p <;> rfl⟩
  run p := by cases p <;> exact Nat.le_refl 0

/-! ### Runs -/

/-- **The close callback is the last**, and called once, in every run in which no event
is handled with `EPOLLHUP` and without `EPOLLIN` after it, and every read after it
fails; and `removeConnectionInLoop`, which queues `connectDestroyed`, is run at most
once. -/
theorem last_close_of_spared {sockfd : ℤ} {mark : ℕ} {complete high : Bool}
    {as : List (Label LoopId Tid)}
    (hs : exec (World.step cfg isIn) (init (.ofFd sockfd mark complete high)) as = some w)
    (hspared : Along (World.step cfg isIn) (Spared cfg isIn)
      (init (.ofFd sockfd mark complete high)) as) :
    Last .close w.core.told ∧ w.core.told.count .close ≤ 1 ∧ w.core.removals ≤ 1 := by
  have hinit : (World.init (.ofFd sockfd mark complete high) : World LoopId Tid).Farewell cfg ∧
      (World.init (.ofFd sockfd mark complete high) : World LoopId Tid).Scheduled :=
    ⟨.init sockfd mark complete high, .init (cfg.threadId_ cfg.baseLoop) _⟩
  obtain ⟨h, hscheduled⟩ : w.Farewell cfg ∧ w.Scheduled := by
    refine exec_invariant (I := fun w => w.Farewell cfg ∧ w.Scheduled)
      (fun w a w' h ha hs => ?_) hinit hspared hs
    have hm : Moves cfg isIn w a w' := moves_of_step hs
    have h' := h.1.step ha hm
    exact ⟨h', h.2.step h'.last.count_le hm⟩
  have hcount := h.last.count_le
  refine ⟨h.last, hcount, ?_⟩
  have hrun := hscheduled.run (.inr cfg.baseLoop)
  omega

section Decide

instance (w : World LoopId Tid) (a : Label LoopId Tid) : Decidable (w.Spared cfg isIn a) :=
  match a with
  | .step _ _ => by unfold Spared; infer_instance
  | .event => by unfold Spared; infer_instance
  | .loop .. | .newConnection | .destroyServer | .call .. | .quit .. | .wakeup ..
  | .poke .. => .isTrue trivial

end Decide

/-- The hypotheses are satisfiable: the peer hangs up with urgent data, of which the
read finds nothing any more. -/
theorem last_close_of_spared_urgent :
    ∃ w, exec (step .duo Threads.duo.compared) fresh
        (opening ++ [.loop true .pollReturn (some (EPOLLHUP ||| EPOLLPRI)), .event] ++
          steps 1 13) = some w ∧
      w.core.told = [.connection .kConnected, .connection .kDisconnected, .close] ∧
      Last .close w.core.told := by
  have hs : exec (step .duo Threads.duo.compared) fresh
      (opening ++ [.loop true .pollReturn (some (EPOLLHUP ||| EPOLLPRI)), .event] ++
        steps 1 13) = some _ := rfl
  exact ⟨_, hs, by decide +kernel, (last_close_of_spared hs (by decide +kernel)).1⟩

/-- **The connection is closed twice.**  The peer hangs up with urgent data; after
`handleClose` the same event calls `handleRead`, and a read of no bytes calls
`handleClose` again. -/
theorem not_last_close_urgent :
    ∃ w, exec (step .duo Threads.duo.compared) fresh
        (opening ++ [.loop true .pollReturn (some (EPOLLHUP ||| EPOLLPRI)), .event] ++
          steps 1 10 ++ [.step 1 ⟨false, .wrote 0, .closed, fun _ => 0⟩] ++ steps 1 4) = some w ∧
      ¬Last .close w.core.told ∧ w.core.told.count .close = 2 := by
  refine ⟨_, rfl, fun h => ?_, by decide +kernel⟩
  cases h [.connection .kConnected, .connection .kDisconnected]
    [.connection .kDisconnected, .close] rfl

end World
end MuMuduo
