/-
# Calls while a thread shuts the connection down

Where one thread shuts the connection down and nothing else closes it, little can
be under way: the raw functors in the loop's queue come from other threads than
the loop's, `shutdownInLoop` comes after the store of `kDisconnecting`, and no
call on the way to `kDisconnected` exists (`Orderly`).  Such calls keep the output
side in order, and only `shutdownInLoop` closes it.
-/

import MuMuduo.Server.Confinement
import MuMuduo.Server.Sends
import MuMuduo.Server.States

namespace MuMuduo

open Foundation

variable {LoopId Tid : Type*}

/-- The write side is closed. -/
def FdEvent.isShutdown : FdEvent → Bool
  | .shutdownWrite _ => true
  | _ => false

/-- To shut down the write side hands no byte over. -/
theorem written_of_isShutdown {fd : List FdEvent} (h : ∀ e ∈ fd, e.isShutdown = true) :
    written fd = [] := by
  induction fd with
  | nil => rfl
  | cons e fd ih =>
      have he := h e List.mem_cons_self
      rw [← List.singleton_append, written_append, ih fun e he => h e (List.mem_cons_of_mem _ he)]
      cases e <;> first | rfl | cases he

/-! ### What the calls and functors are -/

/-- The functor is as it can be in the queue of `l`, where `t` is the thread that
shuts down: the raw functors come from other threads than the loop's, and nothing
is under way to close the connection. -/
def Functor.Orderly (cfg : Threads LoopId Tid) (t : Tid) (c : Core LoopId Tid) (l : LoopId) :
    Functor → Prop
  | .sendInLoop _ _ id => l = cfg.ioLoop ∧ ∃ u, u ≠ cfg.threadId_ cfg.ioLoop ∧ c.SentBy id u
  | .shutdownInLoop =>
      l = cfg.ioLoop ∧ t ≠ cfg.threadId_ cfg.ioLoop ∧ c.conn.state_ = .kDisconnecting
  | .connectDestroyed | .removeConnectionInLoop => False
  | _ => True

/-- The functor is as thread `u` can have it in hand. -/
def Functor.Handed (cfg : Threads LoopId Tid) (t : Tid) (c : Core LoopId Tid) (u : Tid)
    (l : LoopId) : Functor → Prop
  | .sendInLoop _ _ id => l = cfg.ioLoop ∧ u ≠ cfg.threadId_ cfg.ioLoop ∧ c.SentBy id u
  | .shutdownInLoop => l = cfg.ioLoop ∧ u = t ∧ c.conn.state_ = .kDisconnecting
  | .connectDestroyed | .removeConnectionInLoop => False
  | _ => True

/-- The frame is as it can be on the stack of thread `u`. -/
def Frame.Orderly (cfg : Threads LoopId Tid) (t : Tid) (c : Core LoopId Tid) (u : Tid) :
    Frame LoopId → Prop
  | .sendConnected _ _ id => c.SentBy id u
  | .sendInLoop _ _ _ | .sendInLoopRest _ _ _ => u = cfg.threadId_ cfg.ioLoop
  | .shutdown | .shutdownStore => u = t
  | .shutdownInLoop => u = cfg.threadId_ cfg.ioLoop ∧ c.conn.state_ = .kDisconnecting
  | .runInLoop l f => f.Handed cfg t c u l
  | .queueInLoop l f => f.Handed cfg t c u l ∧
      (f = .shutdownInLoop → u ≠ cfg.threadId_ cfg.ioLoop)
  | .handleEvent todo => .close ∉ todo
  | .handle h => h ≠ .close
  | .connectDestroyed | .connectDestroyedStore | .connectDestroyedRemove | .removeConnection
  | .removeConnectionInLoop => False
  | _ => True

section Orderly

variable {cfg : Threads LoopId Tid} {t u : Tid} {c c' : Core LoopId Tid} {l : LoopId}

/-- What a step has to keep for calls and functors to stay as they are. -/
structure Core.Goes (c c' : Core LoopId Tid) : Prop where
  sends : c.sends <+: c'.sends
  state : c.conn.state_ = .kDisconnecting → c'.conn.state_ = .kDisconnecting

/-- A functor stays as it is while the connection goes on. -/
theorem Functor.Orderly.mono {f : Functor} (h : f.Orderly cfg t c l) (hc : c.Goes c') :
    f.Orderly cfg t c' l := by
  cases f with
  | sendInLoop buf len id =>
      obtain ⟨hl, u, hu, hid⟩ := h
      exact ⟨hl, u, hu, hid.mono hc.sends⟩
  | shutdownInLoop => exact ⟨h.1, h.2.1, hc.state h.2.2⟩
  | _ => exact h

/-- So does one in hand. -/
theorem Functor.Handed.mono {f : Functor} (h : f.Handed cfg t c u l) (hc : c.Goes c') :
    f.Handed cfg t c' u l := by
  cases f with
  | sendInLoop buf len id => exact ⟨h.1, h.2.1, h.2.2.mono hc.sends⟩
  | shutdownInLoop => exact ⟨h.1, h.2.1, hc.state h.2.2⟩
  | _ => exact h

/-- And so does a frame. -/
theorem Frame.Orderly.mono {f : Frame LoopId} (h : f.Orderly cfg t c u) (hc : c.Goes c') :
    f.Orderly cfg t c' u := by
  cases f with
  | sendConnected => exact Core.SentBy.mono h hc.sends
  | shutdownInLoop => exact ⟨h.1, hc.state h.2⟩
  | runInLoop => exact Functor.Handed.mono h hc
  | queueInLoop => exact ⟨Functor.Handed.mono h.1 hc, h.2⟩
  | _ => exact h

variable [DecidableEq Tid]

/-- A step of an orderly call makes orderly calls, unless the peer closes. -/
theorem Frame.Orderly.next {o : Oracle} {f g : Frame LoopId} (h : f.Orderly cfg t c u)
    (hthread : f.OnThread cfg u) (hread : f = .handle .read → o.read ≠ .closed)
    (hc : c.Goes (c.frameStep cfg cfg.compared u o f).1)
    (hg : g ∈ (c.frameStep cfg cfg.compared u o f).2) :
    g.Orderly cfg t (c.frameStep cfg cfg.compared u o f).1 u := by
  have hin {l : LoopId} (hin : cfg.compared l u o.raw = true) : u = cfg.threadId_ l :=
    (of_decide_eq_true hin).symm
  have hout {l : LoopId} (hin : cfg.compared l u o.raw = false) : u ≠ cfg.threadId_ l :=
    fun hu => of_decide_eq_false hin hu.symm
  cases Core.next_of_mem hg with
  | @runDirect l f htrue =>
      have h : f.Handed cfg t c u l := h
      cases f with
      | sendInLoop => exact absurd (h.1 ▸ hin htrue) h.2.1
      | shutdownInLoop => exact ⟨h.1 ▸ hin htrue, hc.state h.2.2⟩
      | connectDestroyed | removeConnectionInLoop => exact h.elim
      | _ => trivial
  | @runQueued l f hfalse =>
      have h : f.Handed cfg t c u l := h
      refine ⟨h.mono hc, ?_⟩
      rintro rfl
      exact h.1 ▸ hout hfalse
  | @sent buf data hs => simp [Frame.Orderly, Core.SentBy, Core.frameStep, hs]
  | sendDirect htrue => exact hin htrue
  | sendQueued hfalse => exact ⟨rfl, hout hfalse, Core.SentBy.mono h hc.sends⟩
  | sendInLoop => exact h
  | @notice _ _ _ n => cases n <;> exact ⟨trivial, by rintro ⟨⟩⟩
  | shutdown => exact h
  | shutdownStored => exact ⟨rfl, h, rfl⟩
  | @handle k todo =>
      have h : Handler.close ∉ k :: todo := h
      exact fun hk => h (hk ▸ List.mem_cons_self)
  | @handleEvent k todo =>
      have h : Handler.close ∉ k :: todo := h
      exact fun hk => h (List.mem_cons_of_mem k hk)
  | closed | closedRemove => exact absurd rfl h
  | readClosed hr => exact absurd hr (hread rfl)
  | writeComplate => exact ⟨trivial, by rintro ⟨⟩⟩
  | shutdownRest hs => exact ⟨hthread, hc.state hs⟩
  | destroyedStore | destroyedRemove | destroyedStored | removeConnection | removed =>
      exact h.elim
  | established | called | message | drained => trivial

end Orderly

/-! ### What the pieces do to the descriptor -/

namespace TcpConnection

variable (c : TcpConnection)

/-- `sendInLoop` does not shut down the write side. -/
theorem sendInLoop_fd (data : List UInt8) (r : WriteResult) :
    ∃ more, (c.sendInLoop data r).1.fd = c.fd ++ more ∧ ∀ e ∈ more, e.isShutdown = false := by
  have hwrite : ∃ more, ((c.accept data).writeDirect data r).fd = c.fd ++ more ∧
      ∀ e ∈ more, e.isShutdown = false := by
    unfold writeDirect
    split_ifs
    · exact ⟨[.write (data.take r.count) c.outputBuffer_.content], rfl,
        by simp [FdEvent.isShutdown]⟩
    · exact ⟨[], (List.append_nil _).symm, by simp⟩
  unfold sendInLoop
  dsimp only
  split_ifs
  · rwa [bufferRest_fd]
  · exact hwrite

/-- Nor does `handleWrite`, up to its test of `state_`. -/
theorem handleWrite_fd (r : WriteResult) :
    ∃ more, (c.handleWrite r).1.fd = c.fd ++ more ∧ ∀ e ∈ more, e.isShutdown = false := by
  have hwrite : ∃ more, (c.writeFd r).fd = c.fd ++ more ∧ ∀ e ∈ more, e.isShutdown = false :=
    ⟨_, rfl, by simp [FdEvent.isShutdown]⟩
  unfold handleWrite
  split_ifs
  · exact hwrite
  · exact hwrite
  · exact ⟨[], (List.append_nil _).symm, by simp⟩

/-- Without interest in writing `handleWrite` does nothing. -/
theorem handleWrite_of_not_isWriting {c : TcpConnection} (h : c.isWriting = false)
    (r : WriteResult) : (c.handleWrite r).1 = c := by
  simp [handleWrite, h]

/-- `shutdownInLoop` does nothing else, and nothing at all while the channel waits for
room. -/
theorem shutdownInLoop_fd :
    ∃ more, c.shutdownInLoop.fd = c.fd ++ more ∧ (∀ e ∈ more, e.isShutdown = true) ∧
      (c.isWriting = true → more = []) := by
  unfold shutdownInLoop
  split_ifs with hw
  · rw [Bool.not_eq_true'] at hw
    exact ⟨[.shutdownWrite c.outputBuffer_.content], rfl, by simp [FdEvent.isShutdown],
      by simp [hw]⟩
  · exact ⟨[], (List.append_nil _).symm, by simp, fun _ => rfl⟩

@[simp] theorem shutdownInLoop_isWriting : c.shutdownInLoop.isWriting = c.isWriting := by
  unfold shutdownInLoop
  split_ifs <;> rfl

end TcpConnection

section Acts

variable {cfg : Threads LoopId Tid} {t u : Tid} {c : Core LoopId Tid} {o : Oracle}
variable {f : Frame LoopId}

/-- What an orderly call stores. -/
theorem stores_of_orderly (hf : f.Orderly cfg t c u) {state : StateE}
    (hst : f.stores = some state) : f = .connectEstablished ∨ state = .kDisconnecting := by
  cases f with
  | connectEstablished => exact .inl rfl
  | shutdownStore => exact .inr (Option.some.inj hst).symm
  | connectDestroyedStore => exact hf.elim
  | handle h =>
      cases h with
      | close => exact absurd rfl hf
      | _ => cases hst
  | _ => cases hst

/-- An orderly call keeps the stream in order. -/
theorem streams_of_orderly (h : c.conn.Streams) (hs : c.conn.state_ ≠ .kDisconnected)
    (hf : f.Orderly cfg t c u)
    (hfault : ∀ buf len id, f = .sendInLoopRest buf len id → o.write.fault = false) :
    (f.acts c o).Streams := by
  cases f with
  | sendInLoopRest buf len id =>
      exact h.sendInLoop hs (by rw [hfault buf len id rfl, Bool.and_false])
  | shutdownStore => exact h.setState hs _
  | shutdownInLoop => exact h.shutdownInLoop (h.content_of_not_isWriting hs)
  | connectEstablished => exact h.connectEstablished hs
  | connectDestroyedStore | connectDestroyedRemove => exact hf.elim
  | handle k =>
      cases k with
      | close => exact absurd rfl hf
      | write => exact h.handleWrite o.write
      | error | read => exact h
  | _ => exact h

/-- Only `shutdownInLoop` closes the write side, and only if the channel is not
writing. -/
theorem fd_of_orderly (hf : f.Orderly cfg t c u) :
    ∃ more, (f.acts c o).fd = c.conn.fd ++ more ∧
      ((∃ e ∈ more, e.isShutdown = true) → f = .shutdownInLoop ∧ c.conn.isWriting = false) := by
  have hnone {more : List FdEvent} (h : ∀ e ∈ more, e.isShutdown = false) :
      (∃ e ∈ more, e.isShutdown = true) → f = .shutdownInLoop ∧ c.conn.isWriting = false := by
    rintro ⟨e, he, hshut⟩
    exact absurd hshut (by simp [h e he])
  cases f with
  | sendInLoopRest buf len id =>
      obtain ⟨more, hfd, hmore⟩ := c.conn.sendInLoop_fd (c.bytesAt buf len o.garbage) o.write
      exact ⟨more, hfd, hnone hmore⟩
  | shutdownInLoop =>
      obtain ⟨more, hfd, -, hmore⟩ := c.conn.shutdownInLoop_fd
      refine ⟨more, hfd, fun ⟨e, he, _⟩ => ⟨rfl, ?_⟩⟩
      by_contra hw
      rw [hmore (by simpa using hw)] at he
      cases he
  | connectDestroyedStore | connectDestroyedRemove => exact hf.elim
  | handle k =>
      cases k with
      | close => exact absurd rfl hf
      | write =>
          obtain ⟨more, hfd, hmore⟩ := c.conn.handleWrite_fd o.write
          exact ⟨more, hfd, hnone hmore⟩
      | error | read => exact ⟨[], (List.append_nil _).symm, by simp⟩
  | _ => exact ⟨[], (List.append_nil _).symm, by simp⟩

/-- While the channel is not writing, and but for `sendInLoop` and the frame that
establishes the connection, a call only closes the write side again. -/
theorem sealed_of_orderly (hf : f.Orderly cfg t c u) (hw : c.conn.isWriting = false)
    (hsend : f.sendId = none) :
    (f.acts c o).isWriting = false ∧
      ∃ more, (f.acts c o).fd = c.conn.fd ++ more ∧ ∀ e ∈ more, e.isShutdown = true := by
  have hnone : ∃ more, c.conn.fd = c.conn.fd ++ more ∧ ∀ e ∈ more, e.isShutdown = true :=
    ⟨[], (List.append_nil _).symm, by simp⟩
  cases f with
  | sendInLoopRest => cases hsend
  | shutdownInLoop =>
      obtain ⟨more, hfd, hmore, -⟩ := c.conn.shutdownInLoop_fd
      exact ⟨by simpa [Frame.acts] using hw, more, hfd, hmore⟩
  | connectDestroyedStore | connectDestroyedRemove => exact hf.elim
  | connectEstablished =>
      exact ⟨by simpa [Frame.acts, TcpConnection.connectEstablished] using hw, hnone⟩
  | handle k =>
      cases k with
      | close => exact absurd rfl hf
      | write =>
          rw [Frame.acts, TcpConnection.handleWrite_of_not_isWriting hw]
          exact ⟨hw, hnone⟩
      | error | read => exact ⟨hw, hnone⟩
  | _ => exact ⟨hw, hnone⟩

end Acts

end MuMuduo
