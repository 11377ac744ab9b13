/-
# Every connection is told of its end

The connection callback is called when a connection is established, and should be
called again when it is disconnected.  Two functions do so: `handleClose`, whatever
the state is, and `connectDestroyed`, if it finds `kConnected`.  In the two other
states `connectDestroyed` only takes the channel out of the poller.  After
`handleClose` that is what is wanted; after `shutdown` it is not, and if
`~TcpServer` comes before the peer closes, nobody is told (`not_parted_shutdown`).

What has to be excluded is a `connectDestroyed` that finds neither `kConnected` nor
a channel without interest, and the store of a late `shutdown` between the store of
`kDisconnected` and the callback.  Otherwise the callback has been called with
`kDisconnected`, and the channel is out of the poller without an interest, whenever
`connectDestroyed` returns (`parted_of_heralded`).  The interest in reading is the
witness: it is given up in a disconnection only, and each of these is followed by
the callback (`Heralding.told`).
-/

import MuMuduo.Server.Watching
import Mathlib.Data.Fintype.Basic

namespace MuMuduo

open Foundation

variable {LoopId Tid : Type*}

/-- The functor does not work on a connection that is not connected. -/
def Functor.calm : Functor → Bool
  | .connectDestroyed | .user _ => true
  | _ => false

/-- The call leaves the interest of a connection alone that is not connected. -/
def Frame.calm : Frame LoopId → Bool
  | .callback | .hold | .functor _ | .wakeup _ | .send _ _ | .shutdown | .connectDestroyed
  | .connectDestroyedRemove | .connectionCallback => true
  | .runInLoop _ f | .queueInLoop _ f => f.calm
  | _ => false

namespace World

/-- The stack `st` of a thread that is in `connectDestroyed`: the connection is about
to be disconnected, or it is no longer connected and its channel has no interest. -/
def Tearing (c : Core LoopId Tid) (st : List (Frame LoopId)) : Prop :=
  (∃ rest, st = .connectDestroyedStore :: .connectDestroyedRemove :: rest ∧
      .connectDestroyedRemove ∉ rest) ∨
    c.conn.state_ ≠ .kConnected ∧ c.conn.channel_.events_ = 0 ∧
      st.Pairwise fun f g => g = .connectDestroyedRemove → f.calm = true

/-- What is known of the connection callback and the interest of the channel. -/
structure Heralding (cfg : Threads LoopId Tid) (w : World LoopId Tid) : Prop where
  regular : w.Regular cfg
  up : ∀ state, .connection state ∈ w.core.told → w.core.conn.state_ ≠ .kConnecting
  told : w.core.conn.state_ ≠ .kConnecting → w.core.conn.isReading = true ∨
    (.connectionCallback ∈ w.frames (cfg.threadId_ cfg.ioLoop) ∧
      w.core.conn.state_ = .kDisconnected) ∨ .connection .kDisconnected ∈ w.core.told
  tearing : .connectDestroyedRemove ∈ w.frames (cfg.threadId_ cfg.ioLoop) →
    Tearing w.core (w.frames (cfg.threadId_ cfg.ioLoop))

section

variable [DecidableEq LoopId] [DecidableEq Tid]
variable (cfg : Threads LoopId Tid) (isIn : LoopId → Tid → Bool → Bool)

/-- Where `connectDestroyed` returns, if this is the step, and the connection
callback has been called before, it has been called with `kDisconnected`, and the
channel is out of the poller and has no interest. -/
def Parted (w : World LoopId Tid) : Label LoopId Tid → Prop
  | .step t o => (w.frames t).head? = some .connectDestroyedRemove →
      (∃ state, .connection state ∈ w.core.told) → ∀ w' ∈ w.step cfg isIn (.step t o),
        .connection .kDisconnected ∈ w'.core.told ∧ w'.core.conn.channel_.events_ = 0 ∧
          w'.core.conn.Removed
  | _ => True

end

/-- `isInLoopThread` takes no foreign thread for a loop's own; `connectDestroyed`
finds `kConnected`, or a channel without an interest; and `shutdown` does not store
between the store of `kDisconnected` and the connection callback. -/
def Heralded (cfg : Threads LoopId Tid) (isIn : LoopId → Tid → Bool → Bool)
    (w : World LoopId Tid) : Label LoopId Tid → Prop
  | .step t o => w.Truthful cfg isIn (.step t o) ∧
      ((w.frames t).head? = some .connectDestroyed →
        w.core.conn.state_ = .kConnected ∨ w.core.conn.channel_.isNoeEvent = true) ∧
      ((w.frames t).head? = some .shutdownStore → w.core.conn.state_ = .kDisconnected →
        ∀ u, .connectionCallback ∉ w.frames u)
  | _ => True

variable {cfg : Threads LoopId Tid} {isIn : LoopId → Tid → Bool → Bool}
variable {w w' : World LoopId Tid} {a : Label LoopId Tid}

/-! ### Calls that leave the interest alone -/

/-- Away from the thread of its loop no call works on the channel, -/
theorem op_of_ne {c : Core LoopId Tid} {t : Tid} {o : Oracle} {f : Frame LoopId}
    (hf : f.AtHome cfg t) (ht : t ≠ cfg.threadId_ cfg.ioLoop) : f.op c o = none := by
  cases f with
  | sendInLoopRest | connectEstablished | connectDestroyedStore | connectDestroyedRemove | handle =>
      exact absurd hf ht
  | _ => rfl

/-- and only `shutdown` stores a state. -/
theorem stores_of_ne {t : Tid} {f : Frame LoopId} (hf : f.AtHome cfg t)
    (ht : t ≠ cfg.threadId_ cfg.ioLoop) : f.stores = none ∨ f = .shutdownStore := by
  cases f with
  | connectEstablished | connectDestroyedStore | handle => exact absurd hf ht
  | shutdownStore => exact .inr rfl
  | _ => exact .inl rfl

/-- What takes the place of a calm call is calm, where the connection is not
connected. -/
theorem calm_of_next {c : Core LoopId Tid} {t : Tid} {o : Oracle} {f g : Frame LoopId}
    (h : c.Next cfg isIn t o f g) (hf : f.calm = true) (hs : c.conn.state_ ≠ .kConnected) :
    g.calm = true := by
  cases h with
  | @runDirect l f => cases f <;> first | rfl | cases hf
  | runQueued => exact hf
  | sent hconn | shutdown hconn | destroyedStore hconn => exact absurd hconn hs
  | destroyedRemove | called => rfl
  | _ => cases hf

/-- A calm call changes neither the state nor the mask. -/
theorem core_of_calm {c : Core LoopId Tid} {t : Tid} {o : Oracle} {f : Frame LoopId}
    (hf : f.calm = true) :
    (c.frameStep cfg isIn t o f).1.conn.state_ = c.conn.state_ ∧
      (c.frameStep cfg isIn t o f).1.conn.channel_.events_ = c.conn.channel_.events_ := by
  rw [Core.conn_frameStep]
  cases f with
  | callback | hold | functor | wakeup | send | shutdown | connectDestroyed
  | connectDestroyedRemove | connectionCallback | runInLoop | queueInLoop => exact ⟨rfl, rfl⟩
  | _ => cases hf

/-- `connectDestroyed` is the only call that leads to `remove()`. -/
theorem eq_of_next_remove {c : Core LoopId Tid} {t : Tid} {o : Oracle} {f : Frame LoopId}
    (h : c.Next cfg isIn t o f .connectDestroyedRemove) : f = .connectDestroyed := by
  generalize hg : Frame.connectDestroyedRemove = g at h
  cases h with
  | destroyedRemove => rfl
  | @runDirect l f => cases f <;> cases hg
  | _ => cases hg

/-- The calls of user code are calm. -/
theorem calm_of_called {f : Frame LoopId} (h : f.called = true) :
    f.calm = true ∧ f ≠ .connectDestroyedRemove := by
  cases f with
  | runInLoop l f | queueInLoop l f =>
      cases f <;> first | exact ⟨rfl, by rintro ⟨⟩⟩ | cases h
  | hold | wakeup | send | shutdown => exact ⟨rfl, by rintro ⟨⟩⟩
  | _ => cases h

/-! ### Inside `connectDestroyed` -/

/-- Calls of user code on top of `connectDestroyed`. -/
theorem Tearing.push {c : Core LoopId Tid} {st frames : List (Frame LoopId)} (h : Tearing c st)
    (hst : st = [] ∨ ∃ rest, st = .callback :: rest)
    (hframes : ∀ f ∈ frames, f.calm = true) : Tearing c (frames ++ st) := by
  rcases h with ⟨rest, rfl, -⟩ | ⟨hs, he, hpair⟩
  · rcases hst with hst | ⟨rest, hst⟩ <;> cases hst
  · refine .inr ⟨hs, he, List.pairwise_append.2 ⟨?_, hpair, ?_⟩⟩
    · exact List.pairwise_of_forall_mem_list fun f hf _ _ _ => hframes f hf
    · exact fun f hf _ _ _ => hframes f hf

/-- The innermost call is replaced by calm ones. -/
theorem Tearing.replace {c c' : Core LoopId Tid} {f : Frame LoopId} {rest : List (Frame LoopId)}
    (h : Tearing c (f :: rest)) (frames : List (Frame LoopId))
    (hf : f ≠ .connectDestroyedStore) (hframes : ∀ f ∈ frames, f.calm = true)
    (hs : c'.conn.state_ = c.conn.state_)
    (he : c'.conn.channel_.events_ = c.conn.channel_.events_) : Tearing c' (frames ++ rest) := by
  rcases h with ⟨rest, hst, -⟩ | ⟨hs₀, he₀, hpair⟩
  · exact absurd (List.cons.inj hst).1 hf
  · refine .inr ⟨hs ▸ hs₀, he.trans he₀, List.pairwise_append.2 ⟨?_, ?_, ?_⟩⟩
    · exact List.pairwise_of_forall_mem_list fun f hf _ _ _ => hframes f hf
    · exact (List.pairwise_cons.1 hpair).2
    · exact fun f hf _ _ _ => hframes f hf

/-- **A step of the thread that is in `connectDestroyed`.** -/
theorem Tearing.turn {c : Core LoopId Tid} {t : Tid} {o : Oracle} {f : Frame LoopId}
    {rest : List (Frame LoopId)} (h : .connectDestroyedRemove ∈ f :: rest → Tearing c (f :: rest))
    (hentered : f = .connectDestroyed →
      c.conn.state_ = .kConnected ∨ c.conn.channel_.isNoeEvent = true)
    (hmem : .connectDestroyedRemove ∈ (c.frameStep cfg isIn t o f).2 ++ rest) :
    Tearing (c.frameStep cfg isIn t o f).1 ((c.frameStep cfg isIn t o f).2 ++ rest) := by
  by_cases hrest : .connectDestroyedRemove ∈ rest
  · have htear := h (List.mem_cons_of_mem f hrest)
    by_cases hf : f = .connectDestroyedStore
    · -- the interest is given up here
      subst hf
      rcases htear with ⟨rest, hst, hnot⟩ | ⟨-, -, hpair⟩
      · obtain ⟨-, rfl⟩ := List.cons.inj hst
        refine .inr ⟨by simp [Core.frameStep], ?_, ?_⟩
        · exact TcpConnection.events_perform _
        · refine List.pairwise_cons.2 ⟨fun _ _ _ => rfl, List.pairwise_cons.2 ⟨?_, ?_⟩⟩
          · rintro g hg rfl
            exact absurd hg hnot
          · refine List.pairwise_of_forall_mem_list fun _ _ g hg hgr => ?_
            subst hgr
            exact absurd hg hnot
      · cases (List.pairwise_cons.1 hpair).1 _ hrest rfl
    · have hcalm : f.calm = true ∧ c.conn.state_ ≠ .kConnected := by
        rcases htear with ⟨rest, hst, -⟩ | ⟨hs, -, hpair⟩
        · exact absurd (List.cons.inj hst).1 hf
        · exact ⟨(List.pairwise_cons.1 hpair).1 _ hrest rfl, hs⟩
      have hcore : (c.frameStep cfg isIn t o f).1.conn.state_ = _ ∧
          (c.frameStep cfg isIn t o f).1.conn.channel_.events_ = _ := core_of_calm hcalm.1
      obtain ⟨hs, he⟩ := hcore
      refine htear.replace _ hf (fun g hg => ?_) hs he
      exact calm_of_next (Core.next_of_mem hg) hcalm.1 hcalm.2
  · -- the call begins here
    have hnew := (List.mem_append.1 hmem).resolve_right hrest
    obtain rfl := eq_of_next_remove (Core.next_of_mem hnew)
    by_cases hs : c.conn.state_ = .kConnected
    · refine .inl ⟨rest, ?_, hrest⟩
      simp [Core.frameStep, hs]
    · have he := (hentered rfl).resolve_left hs
      refine .inr ⟨by simpa [Core.frameStep] using hs, ?_, ?_⟩
      · simpa [Channel.isNoeEvent, Channel.kNoneEvent, Core.frameStep] using he
      · simp only [Core.frameStep, if_neg hs, List.singleton_append]
        refine List.pairwise_cons.2 ⟨fun _ _ _ => rfl, ?_⟩
        refine List.pairwise_of_forall_mem_list fun _ _ g hg hgr => ?_
        subst hgr
        exact absurd hg hrest

/-- A step on another thread than the loop's. -/
theorem Tearing.abroad {c : Core LoopId Tid} {st : List (Frame LoopId)} (htear : Tearing c st)
    {t : Tid} {f : Frame LoopId} (hhome : f.AtHome cfg t) (ht : t ≠ cfg.threadId_ cfg.ioLoop)
    (o : Oracle) : Tearing (c.frameStep cfg isIn t o f).1 st := by
  have hwatch : (c.frameStep cfg isIn t o f).1.conn.watch = _ :=
    c.watch_of_op_none t o f (op_of_ne hhome ht)
  rcases htear with hstore | ⟨hs, he, hpair⟩
  · exact .inl hstore
  · refine .inr ⟨?_, (congrArg (fun w => w.2.events_) hwatch).trans he, hpair⟩
    rw [Core.state_frameStep]
    rcases stores_of_ne hhome ht with hst | rfl
    · rwa [hst]
    · simp [Frame.stores]

/-! ### Runs -/

variable [DecidableEq LoopId] [DecidableEq Tid]

/-- Inside `connectDestroyed` the connection is torn down in order. -/
theorem Heralding.tearing_step (h : w.Heralding cfg) (ha : w.Heralded cfg isIn a)
    (hm : Moves cfg isIn w a w')
    (hmem : .connectDestroyedRemove ∈ w'.frames (cfg.threadId_ cfg.ioLoop)) :
    Tearing w'.core (w'.frames (cfg.threadId_ cfg.ioLoop)) := by
  have hconn {st : List (Frame LoopId)} (hc : w'.core.conn = w.core.conn)
      (htear : Tearing w.core st) : Tearing w'.core st := by
    unfold Tearing at htear ⊢
    rwa [hc]
  have hother {t : Tid} {st : List (Frame LoopId)} (ht : cfg.threadId_ cfg.ioLoop ≠ t)
      (hw : w'.frames = Function.update w.frames t st) :
      w'.frames (cfg.threadId_ cfg.ioLoop) = w.frames (cfg.threadId_ cfg.ioLoop) := by
    rw [hw, Function.update_of_ne ht]
  have hstay {t : Tid} {st : List (Frame LoopId)} (ht : cfg.threadId_ cfg.ioLoop ≠ t)
      (hw : w'.frames = Function.update w.frames t st) (hc : w'.core.conn = w.core.conn) :
      Tearing w'.core (w'.frames (cfg.threadId_ cfg.ioLoop)) := by
    rw [hother ht hw] at hmem ⊢
    exact hconn hc (h.tearing hmem)
  rcases stackMove_of_moves hm with ⟨hw, hc⟩ | @⟨l, f, -, -, -, hw, hc⟩ |
    @⟨t, frames, hst, hframes, hw, hc, hcalled⟩ | @⟨t, l, f, rest, hstack, hw, -, hc⟩ |
    @⟨t, o, f, rest, rfl, hstack, -, hcore, hw⟩
  · rw [hw] at hmem ⊢
    exact hconn hc (h.tearing hmem)
  · by_cases ht : cfg.threadId_ cfg.ioLoop = cfg.threadId_ l
    · rw [hw, ht, Function.update_self] at hmem
      cases f <;> simp [Functor.body] at hmem
    · exact hstay ht hw hc
  · by_cases ht : cfg.threadId_ cfg.ioLoop = t
    · subst ht
      rw [hw, Function.update_self] at hmem ⊢
      rcases hcalled with hnil | hcalled
      · have hnew : .connectDestroyedRemove ∈ frames := by simpa [hnil] using hmem
        cases hframes <;> simp at hnew
      · have hold := (List.mem_append.1 hmem).resolve_left
          fun hnew => (calm_of_called (hcalled _ hnew)).2 rfl
        exact hconn hc ((h.tearing hold).push hst fun f hf => (calm_of_called (hcalled f hf)).1)
    · exact hstay ht hw hc
  · by_cases ht : cfg.threadId_ cfg.ioLoop = t
    · subst ht
      rw [hw, Function.update_self] at hmem ⊢
      have hold : .connectDestroyedRemove ∈ rest := by simpa using hmem
      have htear := h.tearing (hstack ▸ List.mem_cons_of_mem _ hold)
      rw [hstack] at htear
      exact htear.replace [.wakeup l] (by simp) (by simp [Frame.calm]) (by rw [hc]) (by rw [hc])
    · exact hstay ht hw hc
  · by_cases ht : cfg.threadId_ cfg.ioLoop = t
    · subst ht
      rw [hw, Function.update_self] at hmem ⊢
      rw [hcore]
      refine Tearing.turn (fun hold => hstack ▸ h.tearing (hstack ▸ hold)) ?_ hmem
      rintro rfl
      exact ha.2.1 (by rw [hstack]; rfl)
    · rw [hother ht hw] at hmem ⊢
      have hhome : f.AtHome cfg t := h.regular.home.frames t f (hstack ▸ List.mem_cons_self)
      rw [hcore]
      exact (h.tearing hmem).abroad hhome (Ne.symm ht) o

/-- The connection callback is called only after the connection is established. -/
theorem Heralding.up_step (h : w.Heralding cfg) (hm : Moves cfg isIn w a w') (state : StateE)
    (htold : .connection state ∈ w'.core.told) : w'.core.conn.state_ ≠ .kConnecting := by
  intro hs
  have hs₀ := connecting_of_moves hm hs
  rcases conn_of_moves hm with ⟨-, hsame⟩ | ⟨t, o, f, rest, -, hstack, hcore, -⟩
  · exact h.up state (hsame ▸ htold) hs₀
  · rw [hcore, Core.frameStep_core] at htold
    rcases List.mem_append.1 htold with hold | hnew
    · exact h.up state hold hs₀
    · have hearly := h.regular.establishing.early.frames t f (hstack ▸ List.mem_cons_self) hs₀
      cases f with
      | connectionCallback => cases hearly
      | handle => cases hearly
      | _ => simp at hnew

omit [DecidableEq LoopId] in
/-- A step that leaves the interest in reading as it is. -/
theorem Heralding.told_keep (h : w.Heralding cfg) {t : Tid} {o : Oracle} {f : Frame LoopId}
    {rest st : List (Frame LoopId)} (ha : w.Heralded cfg isIn (.step t o))
    (hstack : w.frames t = f :: rest) (hcore : w'.core = (w.core.frameStep cfg isIn t o f).1)
    (hw : w'.frames = Function.update w.frames t st)
    (hr : w'.core.conn.isReading = w.core.conn.isReading)
    (hs : w.core.conn.state_ ≠ .kConnecting) :
    w'.core.conn.isReading = true ∨
      (.connectionCallback ∈ w'.frames (cfg.threadId_ cfg.ioLoop) ∧
        w'.core.conn.state_ = .kDisconnected) ∨ .connection .kDisconnected ∈ w'.core.told := by
  rcases h.told hs with hread | ⟨hcall, hstate⟩ | hdown
  · exact .inl (hr.trans hread)
  · have htop := h.regular.head_of_mem hcall rfl
    by_cases ht : t = cfg.threadId_ cfg.ioLoop
    · subst ht
      obtain rfl : f = .connectionCallback := by simpa [hstack] using htop
      refine .inr (.inr ?_)
      rw [hcore, Core.frameStep_core]
      simp [hstate]
    · have hhome : f.AtHome cfg t := h.regular.home.frames t f (hstack ▸ List.mem_cons_self)
      refine .inr (.inl ⟨?_, ?_⟩)
      · rwa [hw, Function.update_of_ne (Ne.symm ht)]
      · rw [hcore, Core.state_frameStep]
        rcases stores_of_ne hhome ht with hst | rfl
        · rwa [hst]
        · exact absurd hcall (ha.2.2 (by rw [hstack]; rfl) hstate _)
  · refine .inr (.inr ?_)
    rw [hcore, Core.frameStep_core]
    exact List.mem_append_left _ hdown

/-- **Once it has been made, the interest in reading is given up only with the
callback to follow**, and the callback follows before anything is stored over
`kDisconnected`. -/
theorem Heralding.told_step (h : w.Heralding cfg) (ha : w.Heralded cfg isIn a)
    (hm : Moves cfg isIn w a w') (hs : w'.core.conn.state_ ≠ .kConnecting) :
    w'.core.conn.isReading = true ∨
      (.connectionCallback ∈ w'.frames (cfg.threadId_ cfg.ioLoop) ∧
        w'.core.conn.state_ = .kDisconnected) ∨ .connection .kDisconnected ∈ w'.core.told := by
  rcases conn_of_moves hm with ⟨hconn, htold⟩ | ⟨t, o, f, rest, rfl, hstack, hcore, hw⟩
  · rw [hconn] at hs ⊢
    rcases h.told hs with hread | ⟨hcall, hstate⟩ | hdown
    · exact .inl hread
    · rcases mem_stacks_of_moves hm hcall with hcall | ⟨_, _, hne, -⟩ | ⟨o, -, hcore, -⟩
      · exact .inr (.inl ⟨hcall, hstate⟩)
      · cases hne
      · refine .inr (.inr ?_)
        rw [hcore, Core.frameStep_core]
        simp [hstate]
    · exact .inr (.inr (htold ▸ hdown))
  · have hmem : f ∈ w.frames t := hstack ▸ List.mem_cons_self
    have hhome : f.AtHome cfg t := h.regular.home.frames t f hmem
    have hnew : ∀ g ∈ (w.core.frameStep cfg isIn t o f).2, g ∈ w'.frames t := by
      intro g hg
      rw [hw, Function.update_self]
      exact List.mem_append_left _ hg
    have hwatch : (w.core.frameStep cfg isIn t o f).1.conn.watch = _ :=
      w.core.watch_frameStep t o f
    rw [← hcore] at hwatch
    have hread : w'.core.conn.isReading = ((f.op w.core o).elim w.core.conn fun op =>
        w.core.conn.perform op).isReading := by
      have := congrArg (fun w => w.2.isReading) hwatch
      cases hop : f.op w.core o <;> rw [hop] at this <;> exact this
    have hkeep (hr : w'.core.conn.isReading = w.core.conn.isReading) :=
      h.told_keep ha hstack hcore hw hr
    have hdisconnected (hcall : .connectionCallback ∈ (w.core.frameStep cfg isIn t o f).2)
        (ht : t = cfg.threadId_ cfg.ioLoop) (hst : f.stores = some .kDisconnected) :
        .connectionCallback ∈ w'.frames (cfg.threadId_ cfg.ioLoop) ∧
          w'.core.conn.state_ = .kDisconnected := by
      refine ⟨ht ▸ hnew _ hcall, ?_⟩
      rw [hcore, Core.state_frameStep, hst]
      rfl
    by_cases hs₀ : w.core.conn.state_ = .kConnecting
    · -- the connection is established in this step
      obtain rfl := h.regular.establishing.eq_of_leaves hmem hs₀ (hcore ▸ hs)
      exact .inl (hread.trans (w.core.conn.isReading_enableReading))
    · cases hop : f.op w.core o with
      | none =>
          rw [hop] at hread
          exact hkeep hread hs₀
      | some op =>
          rw [hop] at hread
          cases Frame.operates_of_op hop with
          | connectDestroyedRemove => exact hkeep hread hs₀
          | connectEstablished => exact .inl (hread.trans w.core.conn.isReading_enableReading)
          | sendInLoopRest => exact hkeep (hread.trans w.core.conn.isReading_enableWriting) hs₀
          | drained => exact hkeep (hread.trans w.core.conn.isReading_disableWriting) hs₀
          | connectDestroyedStore | handleClose =>
              exact .inr (.inl (hdisconnected List.mem_cons_self hhome rfl))

/-- **One step.** -/
theorem Heralding.step (h : w.Heralding cfg) (ha : w.Heralded cfg isIn a)
    (hm : Moves cfg isIn w a w') : w'.Heralding cfg where
  regular := h.regular.step (by cases a <;> first | exact ha.1 | trivial) hm
  up := h.up_step hm
  told := h.told_step ha hm
  tearing := h.tearing_step ha hm

omit [DecidableEq LoopId] [DecidableEq Tid] in
/-- Before the server has the connection. -/
theorem Heralding.init (sockfd : ℤ) (mark : ℕ) (complete high : Bool) :
    (World.init (.ofFd sockfd mark complete high) : World LoopId Tid).Heralding cfg where
  regular := .init sockfd mark complete high
  up _ h := by cases h
  told h := absurd rfl h
  tearing h := by cases h

/-- **Where `connectDestroyed` returns**, the connection callback has been called with
`kDisconnected`. -/
theorem Heralding.parted (h : w.Heralding cfg) (a : Label LoopId Tid) : w.Parted cfg isIn a := by
  cases a with
  | step t o =>
      rintro hhead ⟨state, htold⟩ w' hw'
      obtain ⟨rest, hstack⟩ : ∃ rest, w.frames t = .connectDestroyedRemove :: rest :=
        List.head?_eq_some_iff.1 hhead
      have hmem : .connectDestroyedRemove ∈ w.frames t := hstack ▸ List.mem_cons_self
      obtain rfl : t = cfg.threadId_ cfg.ioLoop := h.regular.home.frames t _ hmem
      obtain rfl : w' =
          { w with core := { w.core with conn := w.core.conn.perform .remove } }.setStack
            (cfg.threadId_ cfg.ioLoop) rest := by
        simpa [World.step, hstack, Core.frameStep] using hw'.symm
      have hevents : w.core.conn.channel_.events_ = 0 := by
        rcases h.tearing hmem with ⟨_, hst, -⟩ | ⟨-, he, -⟩
        · rw [hstack] at hst
          cases hst
        · exact he
      refine ⟨?_, hevents, ?_⟩
      · rcases h.told (h.up state htold) with hread | ⟨hcall, -⟩ | hdown
        · exact absurd hread (by simp [TcpConnection.isReading, Channel.isReading, hevents])
        · have := h.regular.head_of_mem hcall rfl
          rw [hstack] at this
          cases this
        · exact hdown
      · exact (h.regular.registered.perform .remove).removed_iff.2 rfl
  | _ => trivial

section Decide

instance (w : World LoopId Tid) (a : Label LoopId Tid) : Decidable (w.Parted cfg isIn a) :=
  match a with
  | .step _ _ =>
      have (c : Core LoopId Tid) : Decidable (∃ state, .connection state ∈ c.told) :=
        decidable_of_iff (∃ e ∈ c.told, e ≠ .message ∧ e ≠ .close)
          ⟨fun ⟨e, he, hm, hc⟩ => match e with
            | .connection state => ⟨state, he⟩
            | .message => absurd rfl hm
            | .close => absurd rfl hc,
          fun ⟨state, he⟩ => ⟨_, he, nofun, nofun⟩⟩
      by unfold Parted TcpConnection.Removed; infer_instance
  | .loop .. | .event | .newConnection | .destroyServer | .call .. | .quit .. | .wakeup ..
  | .poke .. => .isTrue trivial

instance [Fintype Tid] (w : World LoopId Tid) (a : Label LoopId Tid) :
    Decidable (w.Heralded cfg isIn a) :=
  match a with
  | .step _ _ => by unfold Heralded; infer_instance
  | .loop .. | .event | .newConnection | .destroyServer | .call .. | .quit .. | .wakeup ..
  | .poke .. => .isTrue trivial

end Decide

end World
end MuMuduo
