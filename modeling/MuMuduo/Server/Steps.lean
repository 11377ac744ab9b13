/-
# What a step of the server can be

`Moves` lists the transitions of `World.step` once, with everything each of them
reads and changes; `moves_of_step` says that there are no others.  For a step of a
call `Core.Next` lists the frames that can take the place of its frame
(`next_of_mem`), and one equation says what the step does to the connection and
adds to the history (`frameStep_core`).  The invariants of the other modules are
proved by cases on these.  The loops inside the server move by steps of `EventLoop`
(`loops_of_step`), so that what is proved of one loop under arbitrary calls holds
of each of them (`history_of_exec`).
-/

import MuMuduo.EventLoop.Queue
import MuMuduo.Server.Machine

namespace MuMuduo

open Foundation

variable {LoopId Tid : Type*}

/-- The connection after the next step of a call. -/
def Frame.acts (c : Core LoopId Tid) (o : Oracle) : Frame LoopId → TcpConnection
  | .sendInLoopRest buf len _ => (c.conn.sendInLoop (c.bytesAt buf len o.garbage) o.write).1
  | .shutdownStore => c.conn.setState .kDisconnecting
  | .shutdownInLoop => c.conn.shutdownInLoop
  | .connectEstablished => c.conn.connectEstablished
  | .connectDestroyedStore | .handle .close => c.conn.disconnect
  | .connectDestroyedRemove => c.conn.perform .remove
  | .handle .write => (c.conn.handleWrite o.write).1
  | _ => c.conn

/-- The next step of a call takes the connection out of `connections_`. -/
@[simp] def Frame.erases : Frame LoopId → Bool
  | .removeConnectionInLoop => true
  | _ => false

/-- The call of `send` that the next step records. -/
@[simp] def Frame.records (c : Core LoopId Tid) (t : Tid) : Frame LoopId → List (Tid × List UInt8)
  | .send _ data => if c.conn.state_ = .kConnected then [(t, data)] else []
  | _ => []

/-- The bytes that the next step works on. -/
@[simp] def Frame.processes (c : Core LoopId Tid) (o : Oracle) :
    Frame LoopId → List (ℕ × List UInt8)
  | .sendInLoopRest buf len id => [(id, c.bytesAt buf len o.garbage)]
  | _ => []

/-- What the next step runs on behalf of a loop. -/
@[simp] def Frame.runs (cfg : Threads LoopId Tid) (isIn : LoopId → Tid → Bool → Bool)
    (c : Core LoopId Tid) (t : Tid) (o : Oracle) : Frame LoopId → List (LoopId × Functor × Tid)
  | .runInLoop l f => if isIn l t o.raw then [(l, f, t)] else []
  | .sendConnected buf len id =>
      if isIn cfg.ioLoop t o.raw then [(cfg.ioLoop, .sendInLoop buf len id, t)] else []
  | .handleWriteRest =>
      if c.conn.state_ = .kDisconnecting then [(cfg.ioLoop, .shutdownInLoop, t)] else []
  | _ => []

/-- The callbacks that the next step calls. -/
@[simp] def Frame.tells (c : Core LoopId Tid) (o : Oracle) : Frame LoopId → List Told
  | .connectionCallback => [.connection c.conn.state_]
  | .handle .read => match o.read with
      | .data => [.message]
      | _ => []
  | .removeConnection => [.close]
  | _ => []

namespace Core

/-- The frames that can take the place of a frame in the next step of thread `t`. -/
inductive Next (cfg : Threads LoopId Tid) (isIn : LoopId → Tid → Bool → Bool)
    (c : Core LoopId Tid) (t : Tid) (o : Oracle) : Frame LoopId → Frame LoopId → Prop
  | runDirect {l f} (hin : isIn l t o.raw = true) : Next cfg isIn c t o (.runInLoop l f) f.body
  | runQueued {l f} (hin : isIn l t o.raw = false) :
      Next cfg isIn c t o (.runInLoop l f) (.queueInLoop l f)
  | sent {buf data} (hs : c.conn.state_ = .kConnected) :
      Next cfg isIn c t o (.send buf data) (.sendConnected buf data.length c.sends.length)
  | sendDirect {buf len id} (hin : isIn cfg.ioLoop t o.raw = true) :
      Next cfg isIn c t o (.sendConnected buf len id) (.sendInLoop buf len id)
  | sendQueued {buf len id} (hin : isIn cfg.ioLoop t o.raw = false) :
      Next cfg isIn c t o (.sendConnected buf len id)
        (.runInLoop cfg.ioLoop (.sendInLoop buf len id))
  | sendInLoop {buf len id} (hs : c.conn.state_ ≠ .kDisconnected) :
      Next cfg isIn c t o (.sendInLoop buf len id) (.sendInLoopRest buf len id)
  | notice {buf len id n} :
      Next cfg isIn c t o (.sendInLoopRest buf len id) (.queueInLoop cfg.ioLoop (.ofNotice n))
  | shutdown (hs : c.conn.state_ = .kConnected) : Next cfg isIn c t o .shutdown .shutdownStore
  | shutdownStored :
      Next cfg isIn c t o .shutdownStore (.runInLoop cfg.ioLoop .shutdownInLoop)
  | established : Next cfg isIn c t o .connectEstablished .connectionCallback
  | destroyedStore (hs : c.conn.state_ = .kConnected) :
      Next cfg isIn c t o .connectDestroyed .connectDestroyedStore
  | destroyedRemove : Next cfg isIn c t o .connectDestroyed .connectDestroyedRemove
  | destroyedStored : Next cfg isIn c t o .connectDestroyedStore .connectionCallback
  | called : Next cfg isIn c t o .connectionCallback .callback
  | handle {h todo} : Next cfg isIn c t o (.handleEvent (h :: todo)) (.handle h)
  | handleEvent {h todo} : Next cfg isIn c t o (.handleEvent (h :: todo)) (.handleEvent todo)
  | closed : Next cfg isIn c t o (.handle .close) .connectionCallback
  | closedRemove : Next cfg isIn c t o (.handle .close) .removeConnection
  | message : Next cfg isIn c t o (.handle .read) .callback
  | readClosed (hr : o.read = .closed) : Next cfg isIn c t o (.handle .read) (.handle .close)
  | writeComplate :
      Next cfg isIn c t o (.handle .write) (.queueInLoop cfg.ioLoop .writeComplate)
  | drained : Next cfg isIn c t o (.handle .write) .handleWriteRest
  | shutdownRest (hs : c.conn.state_ = .kDisconnecting) :
      Next cfg isIn c t o .handleWriteRest .shutdownInLoop
  | removeConnection :
      Next cfg isIn c t o .removeConnection (.runInLoop cfg.baseLoop .removeConnectionInLoop)
  | removed :
      Next cfg isIn c t o .removeConnectionInLoop (.queueInLoop cfg.ioLoop .connectDestroyed)

variable {cfg : Threads LoopId Tid} {isIn : LoopId → Tid → Bool → Bool} {c : Core LoopId Tid}

/-- **Every frame that a step makes is listed in `Next`.** -/
theorem next_of_mem {t : Tid} {o : Oracle} {f g : Frame LoopId}
    (hg : g ∈ (c.frameStep cfg isIn t o f).2) : c.Next cfg isIn t o f g := by
  cases f with
  | callback | hold | functor | queueInLoop | wakeup | shutdownInLoop | connectDestroyedRemove =>
      cases hg
  | runInLoop l f =>
      simp only [frameStep] at hg
      split_ifs at hg with hin <;> obtain rfl := List.mem_singleton.1 hg
      · exact .runDirect hin
      · exact .runQueued (Bool.eq_false_iff.2 hin)
  | send buf data =>
      simp only [frameStep] at hg
      split_ifs at hg with hs
      · obtain rfl := List.mem_singleton.1 hg
        exact .sent hs
      · cases hg
  | sendConnected buf len id =>
      simp only [frameStep] at hg
      split_ifs at hg with hin <;> obtain rfl := List.mem_singleton.1 hg
      · exact .sendDirect hin
      · exact .sendQueued (Bool.eq_false_iff.2 hin)
  | sendInLoop buf len id =>
      simp only [frameStep] at hg
      split_ifs at hg with hs
      · cases hg
      · obtain rfl := List.mem_singleton.1 hg
        exact .sendInLoop hs
  | sendInLoopRest buf len id =>
      simp only [frameStep] at hg
      cases hn : (c.conn.sendInLoop (c.bytesAt buf len o.garbage) o.write).2 with
      | none => simp [hn] at hg
      | some n =>
          obtain rfl : g = .queueInLoop cfg.ioLoop (.ofNotice n) := by simpa [hn] using hg
          exact .notice
  | shutdown =>
      simp only [frameStep] at hg
      split_ifs at hg with hs
      · obtain rfl := List.mem_singleton.1 hg
        exact .shutdown hs
      · cases hg
  | connectDestroyed =>
      simp only [frameStep] at hg
      split_ifs at hg with hs
      · rcases List.mem_pair.1 hg with rfl | rfl
        · exact .destroyedStore hs
        · exact .destroyedRemove
      · obtain rfl := List.mem_singleton.1 hg
        exact .destroyedRemove
  | handleEvent todo =>
      cases todo with
      | nil => cases hg
      | cons h todo =>
          rcases List.mem_pair.1 hg with rfl | rfl
          · exact .handle
          · exact .handleEvent
  | handle h =>
      cases h with
      | close =>
          rcases List.mem_pair.1 hg with rfl | rfl
          · exact .closed
          · exact .closedRemove
      | error => cases hg
      | read =>
          cases hr : o.read <;> simp only [frameStep, hr] at hg
          · obtain rfl := List.mem_singleton.1 hg
            exact .message
          · obtain rfl := List.mem_singleton.1 hg
            exact .readClosed hr
          · cases hg
      | write =>
          simp only [frameStep] at hg
          split_ifs at hg
          · rcases List.mem_pair.1 hg with rfl | rfl
            · exact .writeComplate
            · exact .drained
          · obtain rfl := List.mem_singleton.1 hg
            exact .drained
          · cases hg
  | handleWriteRest =>
      simp only [frameStep] at hg
      split_ifs at hg with hs
      · obtain rfl := List.mem_singleton.1 hg
        exact .shutdownRest hs
      · cases hg
  | shutdownStore =>
      obtain rfl := List.mem_singleton.1 hg
      exact .shutdownStored
  | connectEstablished =>
      obtain rfl := List.mem_singleton.1 hg
      exact .established
  | connectDestroyedStore =>
      obtain rfl := List.mem_singleton.1 hg
      exact .destroyedStored
  | connectionCallback =>
      obtain rfl := List.mem_singleton.1 hg
      exact .called
  | removeConnection =>
      obtain rfl := List.mem_singleton.1 hg
      exact .removeConnection
  | removeConnectionInLoop =>
      obtain rfl := List.mem_singleton.1 hg
      exact .removed

/-- **What a step of a call does**: to the connection, to `connections_`, and to
the history.  The callers' strings and the dispatch are left alone. -/
theorem frameStep_core (c : Core LoopId Tid) (t : Tid) (o : Oracle) (f : Frame LoopId) :
    (c.frameStep cfg isIn t o f).1 = { c with
      conn := f.acts c o
      inMap := c.inMap && !f.erases
      sends := c.sends ++ f.records c t
      processed := c.processed ++ f.processes c o
      ran := c.ran ++ f.runs cfg isIn c t o
      told := c.told ++ f.tells c o } := by
  cases f with
  | handleEvent todo => cases todo <;> simp [frameStep, Frame.acts]
  | handle h =>
      cases h with
      | read => cases hr : o.read <;> simp [frameStep, Frame.acts, hr]
      | close => simp [frameStep, Frame.acts, TcpConnection.handleClose]
      | error | write => simp [frameStep, Frame.acts]
  | runInLoop | sendConnected | handleWriteRest | send =>
      simp only [frameStep]
      split_ifs with h <;> simp [Frame.acts, h]
  | _ => simp [frameStep, Frame.acts]

section Fields

variable (c : Core LoopId Tid) (t : Tid) (o : Oracle) (f : Frame LoopId)

/-- What a call does to the connection. -/
theorem conn_frameStep : (c.frameStep cfg isIn t o f).1.conn = f.acts c o := by
  rw [frameStep_core]

/-- No call creates one. -/
theorem created_frameStep : (c.frameStep cfg isIn t o f).1.created = c.created := by
  rw [frameStep_core]

/-- What it does to `connections_`. -/
theorem inMap_frameStep :
    (c.frameStep cfg isIn t o f).1.inMap = (c.inMap && !f.erases) := by
  rw [frameStep_core]

/-- It leaves the event alone that is being handled. -/
theorem active_frameStep : (c.frameStep cfg isIn t o f).1.active = c.active := by
  rw [frameStep_core]

/-- It writes no string of the user. -/
theorem heap_frameStep : (c.frameStep cfg isIn t o f).1.heap = c.heap := by
  rw [frameStep_core]

/-- What it adds to the calls of `send`. -/
theorem sends_frameStep : (c.frameStep cfg isIn t o f).1.sends = c.sends ++ f.records c t := by
  rw [frameStep_core]

/-- It takes none back. -/
theorem sends_prefix_frameStep : c.sends <+: (c.frameStep cfg isIn t o f).1.sends :=
  ⟨_, (c.sends_frameStep t o f).symm⟩

/-- What it adds to the data processed. -/
theorem processed_frameStep :
    (c.frameStep cfg isIn t o f).1.processed = c.processed ++ f.processes c o := by
  rw [frameStep_core]

/-- What it adds to the functors run. -/
theorem ran_frameStep :
    (c.frameStep cfg isIn t o f).1.ran = c.ran ++ f.runs cfg isIn c t o := by
  rw [frameStep_core]

end Fields

end Core

namespace World

variable [DecidableEq LoopId] [DecidableEq Tid]
variable (cfg : Threads LoopId Tid) (isIn : LoopId → Tid → Bool → Bool)

/-- The transitions out of `w`. -/
inductive Moves (w : World LoopId Tid) : Label LoopId Tid → World LoopId Tid → Prop
  | loop {l a reported s} (hstack : w.frames (cfg.threadId_ l) = [])
      (hdisp : w.dispatches cfg l a reported)
      (hs : (w.loops l).internal (cfg.threadId_ l) a = some s) (ha : a ≠ .start)
      {active : Option (BitVec 32)}
      (hactive : active = if l = cfg.ioLoop ∧ a.isPollReturn then reported else w.core.active) :
      Moves w (.loop l a reported)
        ⟨{ w.core with active := active }, Function.update w.loops l s, w.frames⟩
  | start {l reported started f rest s} (hstack : w.frames (cfg.threadId_ l) = [])
      (hs : (w.loops l).internal (cfg.threadId_ l) .start = some s)
      (hpc : (w.loops l).pc = .run started (f :: rest))
      (hpc' : s.pc = .run (started ++ [f]) rest)
      (hpend : s.pendingFunctors_ = (w.loops l).pendingFunctors_) :
      Moves w (.loop l .start reported)
        ⟨{ w.core with ran := w.core.ran ++ [(l, f, cfg.threadId_ l)] },
          Function.update w.loops l s,
          Function.update w.frames (cfg.threadId_ l) [f.body, .functor f]⟩
  | event {revents} (hactive : w.core.active = some revents)
      (hstack : w.frames (cfg.threadId_ cfg.ioLoop) = [])
      (hpc : (w.loops cfg.ioLoop).pc.isDispatch = true) :
      Moves w .event
        ⟨{ w.core with active := none }, w.loops,
          Function.update w.frames (cfg.threadId_ cfg.ioLoop)
            [.handleEvent (handlers revents), .hold]⟩
  | newConnection (hcreated : w.core.created = false)
      (hstack : w.frames (cfg.threadId_ cfg.baseLoop) = []) :
      Moves w .newConnection
        ⟨{ w.core with created := true, inMap := true }, w.loops,
          Function.update w.frames (cfg.threadId_ cfg.baseLoop)
            [.runInLoop cfg.ioLoop .connectEstablished, .hold]⟩
  | destroyServer (hmap : w.core.inMap = true)
      (huser : w.userCode cfg (cfg.threadId_ cfg.baseLoop)) :
      Moves w .destroyServer
        ⟨{ w.core with inMap := false, serverAlive := false }, w.loops,
          Function.update w.frames (cfg.threadId_ cfg.baseLoop)
            (.runInLoop cfg.ioLoop .connectDestroyed :: .hold ::
              w.frames (cfg.threadId_ cfg.baseLoop))⟩
  | destroyEmpty (hmap : w.core.inMap = false)
      (huser : w.userCode cfg (cfg.threadId_ cfg.baseLoop)) :
      Moves w .destroyServer ⟨{ w.core with serverAlive := false }, w.loops, w.frames⟩
  | call {t c frames} (huser : w.userCode cfg t) (hc : w.callFrames c = some frames) :
      Moves w (.call t c) ⟨w.core, w.loops, Function.update w.frames t (frames ++ w.frames t)⟩
  | quit {t l raw s} (huser : w.userCode cfg t)
      (hs : (w.loops l).step (cfg.threadId_ l) (isIn l) (.quit t raw) = some s)
      (hquiet : EventLoop.Quiet (w.loops l) s) :
      Moves w (.quit t l raw)
        ⟨w.core, Function.update w.loops l s, Function.update w.frames t (.wakeup l :: w.frames t)⟩
  | wakeup {t l s} (hs : (w.loops l).step (cfg.threadId_ l) (isIn l) (.wakeup t) = some s)
      (hquiet : EventLoop.Quiet (w.loops l) s) :
      Moves w (.wakeup t l) ⟨w.core, Function.update w.loops l s, w.frames⟩
  | poke {buf bytes} :
      Moves w (.poke buf bytes)
        ⟨{ w.core with heap := Function.update w.core.heap buf bytes }, w.loops, w.frames⟩
  | queueInLoop {t o l f rest s} (hstack : w.frames t = .queueInLoop l f :: rest)
      (hs : (w.loops l).step (cfg.threadId_ l) (isIn l) (.queueInLoop t f o.raw) = some s)
      (hpc : s.pc = (w.loops l).pc)
      (hpend : s.pendingFunctors_ = (w.loops l).pendingFunctors_ ++ [f]) :
      Moves w (.step t o)
        ⟨w.core, Function.update w.loops l s, Function.update w.frames t (.wakeup l :: rest)⟩
  | wakeupCall {t o l rest s} (hstack : w.frames t = .wakeup l :: rest)
      (hs : ∃ b, (w.loops l).step (cfg.threadId_ l) (isIn l) b = some s)
      (hquiet : EventLoop.Quiet (w.loops l) s) :
      Moves w (.step t o) ⟨w.core, Function.update w.loops l s, w.frames⟩
  | wakeupReturn {t o l rest} (hstack : w.frames t = .wakeup l :: rest) :
      Moves w (.step t o) ⟨w.core, w.loops, Function.update w.frames t rest⟩
  | frame {t o frame rest} (hstack : w.frames t = frame :: rest)
      (hqueue : ∀ l f, frame ≠ .queueInLoop l f) (hwake : ∀ l, frame ≠ .wakeup l) :
      Moves w (.step t o)
        ⟨(w.core.frameStep cfg isIn t o frame).1, w.loops,
          Function.update w.frames t ((w.core.frameStep cfg isIn t o frame).2 ++ rest)⟩

variable {cfg isIn} {w w' : World LoopId Tid} {a : Label LoopId Tid}

/-- A step of a loop is one of the moves. -/
theorem moves_of_loopStep {l : LoopId} {b : LoopLabel Functor Tid} {reported : Option (BitVec 32)}
    (h : w.loopStep cfg l b reported = some w') : Moves cfg isIn w (.loop l b reported) w' := by
  rw [loopStep, Option.ite_none_right_eq_some] at h
  obtain ⟨⟨hstack, hdisp⟩, h⟩ := h
  obtain ⟨s, hs, rfl⟩ := Option.map_eq_some_iff.1 h
  by_cases hb : b = .start
  · subst hb
    rcases EventLoop.internal_queue hs with ⟨hb, -⟩ |
      ⟨started, f, rest, -, hpc, hpc', -, -, hpend⟩ | ⟨hb, -⟩
    · cases hb
    · rw [show w.starts l .start = some f by simp [starts, hpc]]
      exact .start hstack hs hpc hpc' hpend
    · exact absurd rfl hb
  · have hstarts : w.starts l b = none := by
      unfold starts
      split
      · exact absurd rfl hb
      · rfl
    rw [hstarts]
    exact .loop hstack hdisp hs hb rfl

/-- **Every step is one of `Moves`.** -/
theorem moves_of_step (h : w.step cfg isIn a = some w') : Moves cfg isIn w a w' := by
  cases a with
  | loop l b reported => exact moves_of_loopStep h
  | event =>
      simp only [step] at h
      cases hact : w.core.active with
      | none => simp [hact] at h
      | some revents =>
          simp only [hact, Option.ite_none_right_eq_some, Option.some.injEq] at h
          obtain ⟨⟨hstack, hpc⟩, rfl⟩ := h
          have : Moves cfg isIn w .event _ := .event hact hstack hpc
          simpa [push, hstack] using this
  | newConnection =>
      simp only [step, Option.ite_none_right_eq_some, Option.some.injEq] at h
      obtain ⟨⟨hcreated, -, hstack, -⟩, rfl⟩ := h
      have : Moves cfg isIn w .newConnection _ := .newConnection hcreated hstack
      simpa [push, hstack] using this
  | destroyServer =>
      simp only [step, Option.ite_none_right_eq_some] at h
      obtain ⟨⟨-, huser⟩, h⟩ := h
      split_ifs at h with hmap
      · obtain rfl := Option.some.inj h
        exact .destroyServer hmap huser
      · obtain rfl := Option.some.inj h
        exact .destroyEmpty (by simpa using hmap) huser
  | call t c =>
      simp only [step, Option.ite_none_right_eq_some] at h
      obtain ⟨huser, h⟩ := h
      obtain ⟨frames, hc, rfl⟩ := Option.map_eq_some_iff.1 h
      exact .call huser hc
  | quit t l raw =>
      simp only [step, Option.ite_none_right_eq_some] at h
      obtain ⟨huser, h⟩ := h
      obtain ⟨s, hs, rfl⟩ := Option.map_eq_some_iff.1 h
      exact .quit huser hs (EventLoop.quit_quiet hs)
  | wakeup t l =>
      simp only [step, Option.ite_none_right_eq_some] at h
      obtain ⟨-, h⟩ := h
      obtain ⟨s, hs, rfl⟩ := Option.map_eq_some_iff.1 h
      exact .wakeup hs (EventLoop.wakeup_quiet hs)
  | poke buf bytes =>
      obtain rfl := Option.some.inj h
      exact .poke
  | step t o =>
      simp only [step] at h
      split at h
      · cases h
      · rename_i l f rest hstack
        obtain ⟨s, hs, rfl⟩ := Option.map_eq_some_iff.1 h
        obtain ⟨-, hpend, -, hpc⟩ := EventLoop.queueInLoop_queue hs
        exact .queueInLoop hstack hs hpc hpend
      · rename_i l rest hstack
        unfold wakeupStep at h
        split at h
        · obtain ⟨s, hs, rfl⟩ := Option.map_eq_some_iff.1 h
          exact .wakeupCall hstack ⟨.check t, hs⟩ (EventLoop.check_quiet hs)
        · obtain ⟨s, hs, rfl⟩ := Option.map_eq_some_iff.1 h
          exact .wakeupCall hstack ⟨.wake t, hs⟩ (EventLoop.wake_quiet hs)
        · obtain rfl := Option.some.inj h
          exact .wakeupReturn hstack
      · rename_i frame rest hqueue hwake hstack
        obtain rfl := Option.some.inj h
        exact .frame hstack hqueue hwake

/-! ### The loops of the server -/

/-- Each loop is left alone or moves by a step of `EventLoop`. -/
theorem loops_of_step (h : w.step cfg isIn a = some w') (l : LoopId) :
    w'.loops l = w.loops l ∨
      ∃ b, (w.loops l).step (cfg.threadId_ l) (isIn l) b = some (w'.loops l) := by
  -- a step replaces the state of one loop, by a step of that loop
  have hupdate {k : LoopId} {s : EventLoop Functor Tid}
      (hs : ∃ b, (w.loops k).step (cfg.threadId_ k) (isIn k) b = some s) :
      Function.update w.loops k s l = w.loops l ∨
        ∃ b, (w.loops l).step (cfg.threadId_ l) (isIn l) b =
          some (Function.update w.loops k s l) := by
    by_cases hl : l = k
    · subst hl
      rw [Function.update_self]
      exact .inr hs
    · rw [Function.update_of_ne hl]
      exact .inl rfl
  cases moves_of_step h with
  | loop _ _ hs => exact hupdate ⟨_, EventLoop.step_of_internal hs⟩
  | start _ hs => exact hupdate ⟨_, EventLoop.step_of_internal hs⟩
  | quit _ hs | wakeup hs => exact hupdate ⟨_, hs⟩
  | queueInLoop _ hs => exact hupdate ⟨_, hs⟩
  | wakeupCall _ hs => exact hupdate hs
  | event | newConnection | destroyServer | destroyEmpty | call | poke | wakeupReturn | frame =>
      exact .inl rfl

/-- **Every loop of a running server keeps its functors and their order.** -/
theorem history_of_exec {conn : TcpConnection} {as : List (Label LoopId Tid)}
    (h : exec (step cfg isIn) (init conn) as = some w) (l : LoopId) : (w.loops l).History := by
  obtain ⟨bs, hbs⟩ := exec_project (fun w : World LoopId Tid => w.loops l)
    (fun _ _ _ h => loops_of_step h l) h
  exact EventLoop.history_of_exec hbs

end World
end MuMuduo
