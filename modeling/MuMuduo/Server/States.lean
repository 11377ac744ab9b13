/-
# The order of the states

`state_` is atomic, but `shutdown` loads it and stores it in two steps, and so does
`connectDestroyed`; `handleClose` and `connectEstablished` store without a load.
Four facts decide which stores keep the order `kConnecting`, `kConnected`,
`kDisconnecting`, `kDisconnected`: `connectEstablished` runs once, while the
connection is connecting (`Establishing.one`); before that nothing is dispatched
and no other store can be under way (`Establishing.early`); and the last state is
stored over any of the others.  What is left is the store of `shutdown`, which may
come after the connection has been closed.  A run keeps the order exactly when it
never does (`ordered_iff_inTime`).
-/

import MuMuduo.Server.Custody

namespace MuMuduo

open Foundation

variable {LoopId Tid : Type*}

/-- The moves between states: forward, possibly past `kDisconnecting`. -/
def StateE.next : StateE → StateE → Bool
  | .kConnecting, .kConnected | .kConnected, .kDisconnecting | .kConnected, .kDisconnected
  | .kDisconnecting, .kDisconnected => true
  | _, _ => false

/-- The connection was established and is not connected any more. -/
def StateE.Down (state : StateE) : Prop := state ≠ .kConnecting ∧ state ≠ .kConnected

/-- The state that the next step of a call stores. -/
def Frame.stores : Frame LoopId → Option StateE
  | .connectEstablished => some .kConnected
  | .shutdownStore => some .kDisconnecting
  | .connectDestroyedStore | .handle .close => some .kDisconnected
  | _ => none

/-- The functor may be waiting before the connection is established. -/
def Functor.early : Functor → Bool
  | .connectEstablished | .connectDestroyed | .user _ => true
  | _ => false

/-- The call may be under way before the connection is established. -/
def Frame.early : Frame LoopId → Bool
  | .callback | .hold | .functor _ | .wakeup _ | .send _ _ | .shutdown | .connectEstablished
  | .connectDestroyed | .connectDestroyedRemove => true
  | .runInLoop _ f | .queueInLoop _ f => f.early
  | _ => false

/-- The call is going to run `connectEstablished`. -/
def Frame.establishes : Frame LoopId → Bool
  | .connectEstablished => true
  | .runInLoop _ f | .queueInLoop _ f => f == .connectEstablished
  | _ => false

variable {cfg : Threads LoopId Tid} {isIn : LoopId → Tid → Bool → Bool}

/-- **The stores.**  A step of a call changes `state_` to what it stores. -/
theorem Core.state_frameStep (c : Core LoopId Tid) (t : Tid) (o : Oracle) (f : Frame LoopId) :
    (c.frameStep cfg isIn t o f).1.conn.state_ = f.stores.getD c.conn.state_ := by
  rw [conn_frameStep]
  cases f with
  | handle h => cases h <;> simp [Frame.acts, Frame.stores]
  | sendInLoopRest | shutdownInLoop => simp [Frame.acts, Frame.stores]
  | _ => rfl

/-- No call stores `kConnecting`. -/
theorem Frame.stores_ne_kConnecting {f : Frame LoopId} {state : StateE}
    (h : f.stores = some state) : state ≠ .kConnecting := by
  rintro rfl
  cases f with
  | handle k => cases k <;> simp [stores] at h
  | _ => simp [stores] at h

namespace World

/-- A call of `connectEstablished` is handed on, never doubled. -/
theorem establishes_frameStep (c : Core LoopId Tid) (t : Tid) (o : Oracle) (f : Frame LoopId) :
    (c.frameStep cfg isIn t o f).2.countP Frame.establishes ≤ f.establishes.toNat := by
  cases f with
  | runInLoop l f =>
      simp only [Core.frameStep]
      split_ifs <;> cases f <;> simp [Functor.body, Frame.establishes]
  | sendInLoopRest buf len id =>
      simp only [Core.frameStep]
      cases (c.conn.sendInLoop (c.bytesAt buf len o.garbage) o.write).2 with
      | none => simp
      | some n => cases n <;> simp [Functor.ofNotice, Frame.establishes]
  | handleEvent todo => cases todo <;> simp [Core.frameStep, Frame.establishes]
  | handle h =>
      cases h with
      | read => cases hr : o.read <;> simp [Core.frameStep, hr, Frame.establishes]
      | close | error => simp [Core.frameStep, Frame.establishes]
      | write =>
          simp only [Core.frameStep]
          split_ifs <;> simp [Frame.establishes]
  | _ =>
      simp only [Core.frameStep]
      try split_ifs
      all_goals simp [Frame.establishes]

/-- It is carried by frames and functors. -/
theorem carrier_establishes :
    Carrier (Frame.establishes : Frame LoopId → Bool) (· == .connectEstablished) cfg isIn where
  body f := by cases f <;> rfl
  queueInLoop _ _ := rfl
  runInLoop _ _ := rfl
  step := establishes_frameStep
  functor _ := rfl
  hold := rfl
  wakeup _ := rfl
  handleEvent _ := rfl
  send _ _ := rfl
  shutdown := rfl
  user _ := rfl

/-- How often a stack or a queue holds the call of `connectEstablished`. -/
def establishing (w : World LoopId Tid) : Tid ⊕ LoopId → ℕ :=
  w.count Frame.establishes (· == .connectEstablished)

/-- Where the connection is on its way from the constructor to
`connectEstablished`. -/
structure Establishing (w : World LoopId Tid) : Prop where
  one : AtMostOne w.establishing
  uncreated : w.core.created = false → ∀ p, w.establishing p = 0
  fresh : w.core.created = false → w.core.conn.state_ = .kConnecting
  established : w.core.conn.state_ ≠ .kConnecting → ∀ p, w.establishing p = 0
  early : Holds (fun c _ f => c.conn.state_ = .kConnecting → f.early = true)
    (fun c _ f => c.conn.state_ = .kConnecting → f.early = true) w
  silent : w.core.conn.state_ = .kConnecting →
    w.core.active = none ∧ w.core.conn.poller.interest w.core.conn.channel_.fd_ = none

/-- A step of a call that leaves the connection connecting stores nothing. -/
theorem stores_of_connecting {c : Core LoopId Tid} {t : Tid} {o : Oracle} {f : Frame LoopId}
    (hs : (c.frameStep cfg isIn t o f).1.conn.state_ = .kConnecting) : f.stores = none := by
  rw [Core.state_frameStep] at hs
  cases hst : f.stores with
  | none => rfl
  | some state =>
      rw [hst] at hs
      exact absurd hs (Frame.stores_ne_kConnecting hst)

/-- The frames that take the place of an early call are early, unless the
connection is established. -/
theorem early_of_next {c : Core LoopId Tid} {t : Tid} {o : Oracle} {f g : Frame LoopId}
    (h : c.Next cfg isIn t o f g) (hf : c.conn.state_ = .kConnecting → f.early = true)
    (hs : (c.frameStep cfg isIn t o f).1.conn.state_ = .kConnecting) : g.early = true := by
  have hst := stores_of_connecting hs
  have hc : c.conn.state_ = .kConnecting := by
    rw [Core.state_frameStep, hst] at hs
    exact hs
  have hearly := hf hc
  cases h with
  | @runDirect l f => cases f <;> first | rfl | cases hearly
  | runQueued => exact hearly
  | sent hconn => cases hconn.symm.trans hc
  | shutdown hconn => cases hconn.symm.trans hc
  | destroyedStore hconn => cases hconn.symm.trans hc
  | established => cases hst
  | destroyedRemove => rfl
  | _ => cases hearly

/-- What is under way before establishment leads to nothing else. -/
theorem typing_early :
    Typing (fun (c : Core LoopId Tid) _ f => c.conn.state_ = .kConnecting → f.early = true)
      (fun c _ f => c.conn.state_ = .kConnecting → f.early = true) cfg where
  queueInLoop _ _ _ _ h := h
  wakeup _ _ _ _ := rfl
  body _ _ f h hs := by
    have h := h hs
    cases f <;> first | rfl | cases h
  functor _ _ _ _ _ := rfl
  hold _ _ _ := rfl

/-- Before the connection is established a call does nothing to it but take its
channel out of the poller. -/
theorem acts_of_early {c : Core LoopId Tid} {o : Oracle} {f : Frame LoopId}
    (hearly : f.early = true) (hstores : f.stores = none) :
    f.acts c o = c.conn ∨ f.acts c o = c.conn.perform .remove := by
  cases f with
  | connectDestroyedRemove => exact .inr rfl
  | connectEstablished => cases hstores
  | callback | hold | functor | wakeup | queueInLoop | shutdown | connectDestroyed | runInLoop
  | send => exact .inl rfl
  | _ => cases hearly

/-- Taking a channel out of the poller registers nothing. -/
theorem interest_remove {conn : TcpConnection}
    (h : conn.poller.interest conn.channel_.fd_ = none) :
    (conn.perform .remove).poller.interest (conn.perform .remove).channel_.fd_ = none := by
  show (conn.poller.removeChannel () conn.channel_).1.interest conn.channel_.fd_ = none
  unfold EPollPoller.removeChannel EPollPoller.update
  dsimp only
  split_ifs
  · simp only [epollCtl, h]
  · exact h

variable {w w' : World LoopId Tid} {a : Label LoopId Tid}

/-- The call of `connectEstablished` under way: the connection is connecting. -/
theorem Establishing.connecting (h : w.Establishing) {t : Tid} {f : Frame LoopId}
    (hf : f ∈ w.frames t) (he : f.establishes = true) :
    w.core.conn.state_ = .kConnecting ∧ w.core.created = true := by
  have hpos : 0 < w.establishing (.inl t) := List.countP_pos_iff.2 ⟨f, hf, he⟩
  constructor
  · by_contra hne
    have := h.established hne (.inl t)
    omega
  · by_contra hne
    have := h.uncreated (by simpa using hne) (.inl t)
    omega

/-- Every other store is under way only when the connection is established. -/
theorem Establishing.established_of_stores (h : w.Establishing) {t : Tid} {f : Frame LoopId}
    (hf : f ∈ w.frames t) {state : StateE} (hst : f.stores = some state) :
    f = .connectEstablished ∨ w.core.conn.state_ ≠ .kConnecting := by
  by_cases hs : w.core.conn.state_ = .kConnecting
  · have hearly := h.early.frames t f hf hs
    cases f with
    | connectEstablished => exact .inl rfl
    | shutdownStore | connectDestroyedStore | handle => cases hearly
    | _ => cases hst
  · exact .inr hs

/-- Only `connectEstablished` takes the connection out of `kConnecting`. -/
theorem Establishing.eq_of_leaves (h : w.Establishing) {t : Tid} {o : Oracle} {f : Frame LoopId}
    (hf : f ∈ w.frames t) (hs : w.core.conn.state_ = .kConnecting)
    (hs' : (w.core.frameStep cfg isIn t o f).1.conn.state_ ≠ .kConnecting) :
    f = .connectEstablished := by
  rw [Core.state_frameStep] at hs'
  cases hst : f.stores with
  | none =>
      rw [hst] at hs'
      exact absurd hs hs'
  | some state => exact (h.established_of_stores hf hst).resolve_right fun hne => hne hs

variable [DecidableEq LoopId] [DecidableEq Tid]

/-- No step goes back to `kConnecting`. -/
theorem connecting_of_moves (hm : Moves cfg isIn w a w')
    (hs : w'.core.conn.state_ = .kConnecting) : w.core.conn.state_ = .kConnecting := by
  cases hm with
  | @frame t o f rest hstack =>
      have hstate := (w.core.state_frameStep t o f).symm.trans hs
      rwa [stores_of_connecting hs] at hstate
  | _ => exact hs

/-- A connection stays created. -/
theorem created_of_moves (hm : Moves cfg isIn w a w') (hcreated : w.core.created = true) :
    w'.core.created = true := by
  cases hm with
  | newConnection => rfl
  | frame => exact (Core.created_frameStep ..).trans hcreated
  | _ => exact hcreated

/-- **`kConnected` comes from `kConnecting` only.** -/
theorem Establishing.connected_of_moves (h : w.Establishing) (hm : Moves cfg isIn w a w')
    (hs : w'.core.conn.state_ = .kConnected) :
    w.core.conn.state_ = .kConnected ∨ w.core.conn.state_ = .kConnecting := by
  cases hm with
  | @frame t o f rest hstack =>
      have hstate := (w.core.state_frameStep t o f).symm.trans hs
      cases f with
      | connectEstablished => exact .inr (h.connecting (hstack ▸ List.mem_cons_self) rfl).1
      | shutdownStore | connectDestroyedStore => cases hstate
      | handle k =>
          cases k with
          | close => cases hstate
          | _ => exact .inl hstate
      | _ => exact .inl hstate
  | _ => exact .inl hs

/-- A connection that is not connected any more stays so. -/
theorem Establishing.down_of_moves (h : w.Establishing) (hm : Moves cfg isIn w a w')
    (hs : w.core.conn.state_.Down) : w'.core.conn.state_.Down := by
  refine ⟨fun hs' => hs.1 (connecting_of_moves hm hs'), fun hs' => ?_⟩
  rcases h.connected_of_moves hm hs' with hs' | hs'
  · exact hs.2 hs'
  · exact hs.1 hs'

/-- **One step** keeps to that. -/
theorem Establishing.early_step (h : w.Establishing) (hm : Moves cfg isIn w a w') :
    Holds (fun c _ f => c.conn.state_ = .kConnecting → f.early = true)
      (fun c _ f => c.conn.state_ = .kConnecting → f.early = true) w' := by
  have hback := connecting_of_moves hm
  refine h.early.step typing_early ⟨?_, ?_, ?_, ?_, ?_, ?_, ?_, ?_⟩
    ⟨fun t f _ hf hs => hf (hback hs), fun l f _ hf hs => hf (hback hs)⟩ hm
  · exact fun _ _ _ _ _ _ hf _ hg => early_of_next (Core.next_of_mem hg) hf
  · intro revents _ hactive hs
    rw [(h.silent (hback hs)).1] at hactive
    cases hactive
  · exact fun _ _ => rfl
  · exact fun _ _ _ => rfl
  · exact fun _ _ _ _ _ _ => rfl
  · exact fun _ _ _ => rfl
  · exact fun _ _ _ _ => rfl
  · exact fun _ _ _ _ => rfl

omit [DecidableEq Tid] in
/-- A report of `epoll_wait` is about a registered channel. -/
theorem registered_of_dispatches {l : LoopId} {b : LoopLabel Functor Tid} {revents : BitVec 32}
    (h : w.dispatches cfg l b (some revents) = true) (hb : b.isPollReturn = true) :
    w.core.conn.poller.interest w.core.conn.channel_.fd_ ≠ none := by
  cases b with
  | pollReturn =>
      simp only [dispatches, Bool.and_eq_true, Core.reportable] at h
      intro hnone
      rw [hnone] at h
      exact absurd h.2 (by simp)
  | _ => cases hb

/-- Before establishment no event is handled, and the kernel watches nothing. -/
theorem Establishing.silent_step (h : w.Establishing) (hm : Moves cfg isIn w a w')
    (hs : w'.core.conn.state_ = .kConnecting) :
    w'.core.active = none ∧
      w'.core.conn.poller.interest w'.core.conn.channel_.fd_ = none := by
  have hs₀ := connecting_of_moves hm hs
  obtain ⟨hactive, hinterest⟩ := h.silent hs₀
  cases hm with
  | @loop l b reported _ _ hdisp _ _ active hact =>
      refine ⟨?_, hinterest⟩
      show active = none
      rw [hact]
      split_ifs with hio
      · cases reported with
        | none => rfl
        | some revents => exact absurd hinterest (registered_of_dispatches hdisp hio.2)
      · exact hactive
  | event => exact ⟨rfl, hinterest⟩
  | @frame t o f rest hstack =>
      have hearly := h.early.frames t f (hstack ▸ List.mem_cons_self) hs₀
      refine ⟨(w.core.active_frameStep t o f).trans hactive, ?_⟩
      show (w.core.frameStep cfg isIn t o f).1.conn.poller.interest
        (w.core.frameStep cfg isIn t o f).1.conn.channel_.fd_ = none
      rw [Core.conn_frameStep]
      rcases acts_of_early hearly (stores_of_connecting hs) with hconn | hconn
      · rw [hconn]
        exact hinterest
      · rw [hconn]
        exact interest_remove hinterest
  | _ => exact ⟨hactive, hinterest⟩

/-- **One step keeps `connectEstablished` unique.** -/
theorem Establishing.step (h : w.Establishing) (hm : Moves cfg isIn w a w') :
    w'.Establishing := by
  have hpass (hne : a ≠ .newConnection) : Passes w.establishing w'.establishing :=
    passes_of_moves carrier_establishes hm (fun ha => absurd ha hne) fun _ => rfl
  have hearly := h.early_step hm
  have hsilent := h.silent_step hm
  cases hm with
  | newConnection hcreated hstack =>
      -- the call is made here, for the first time
      have hzero := h.uncreated hcreated
      refine ⟨⟨.inl (cfg.threadId_ cfg.baseLoop), ?_, fun p hp => ?_⟩, fun hc => ?_, fun hc => ?_,
        fun hs => ?_, hearly, hsilent⟩
      · simp [establishing, count, Frame.establishes]
      · cases p with
        | inl u =>
            have hu : u ≠ cfg.threadId_ cfg.baseLoop := fun hu => hp (congrArg _ hu)
            have := hzero (.inl u)
            simpa [establishing, count, Function.update_of_ne hu] using this
        | inr l => exact hzero (.inr l)
      · cases hc
      · cases hc
      · exact absurd (h.fresh hcreated) hs
  | @frame t o f rest hstack =>
      have hmem : f ∈ w.frames t := hstack ▸ List.mem_cons_self
      have hpass := hpass (by simp)
      have hcreated : (w.core.frameStep cfg isIn t o f).1.created = w.core.created :=
        w.core.created_frameStep t o f
      refine ⟨h.one.passes hpass, fun hc => ?_, fun hc => ?_, fun hs => ?_, hearly, hsilent⟩
      · exact hpass.eq_zero (h.uncreated (hcreated ▸ hc))
      · have hfresh : w.core.created = false := hcreated ▸ hc
        by_contra hs
        obtain rfl := h.eq_of_leaves hmem (h.fresh hfresh) hs
        exact absurd ((h.connecting hmem rfl).2.symm.trans hfresh) (by simp)
      · by_cases hs₀ : w.core.conn.state_ = .kConnecting
        · -- the only store there is now: the call is used up
          obtain rfl := h.eq_of_leaves hmem hs₀ hs
          refine h.one.used (p := .inl t) (count_le_of_stack rfl rfl ?_) ?_
          · simp [hstack, Core.frameStep, Frame.establishes, List.countP_cons]
          · simp [establishing, count, hstack, Core.frameStep, Frame.establishes, List.countP_cons]
        · exact hpass.eq_zero (h.established hs₀)
  | _ =>
      have hpass := hpass (by simp)
      exact ⟨h.one.passes hpass, fun hc => hpass.eq_zero (h.uncreated hc), h.fresh,
        fun hs => hpass.eq_zero (h.established hs), hearly, hsilent⟩

omit [DecidableEq LoopId] [DecidableEq Tid] in
/-- Before the server has the connection. -/
theorem Establishing.init (t : Tid) (sockfd : ℤ) (mark : ℕ) (complete high : Bool) :
    (World.init (.ofFd sockfd mark complete high) : World LoopId Tid).Establishing where
  one := ⟨.inl t, Nat.zero_le 1, fun p _ => by cases p <;> rfl⟩
  uncreated _ p := by cases p <;> rfl
  fresh _ := rfl
  established h := absurd rfl h
  early := Holds.init _
  silent _ := ⟨rfl, rfl⟩

variable (cfg isIn)

/-- The step moves `state_` along the order, or leaves it where it is. -/
def Ordered (w : World LoopId Tid) (a : Label LoopId Tid) : Prop :=
  ∀ w' ∈ w.step cfg isIn a,
    w'.core.conn.state_ = w.core.conn.state_ ∨
      w.core.conn.state_.next w'.core.conn.state_ = true

/-- The store of `shutdown`, if this is the step, comes before the connection is
disconnected. -/
def InTime (w : World LoopId Tid) : Label LoopId Tid → Prop
  | .step t _ => (w.frames t).head? = some .shutdownStore → w.core.conn.state_ ≠ .kDisconnected
  | _ => True

variable {cfg isIn}

/-- **One step** keeps the order exactly if it is not a late store. -/
theorem Establishing.ordered_iff (h : w.Establishing) (a : Label LoopId Tid) :
    w.Ordered cfg isIn a ↔ w.InTime a := by
  constructor
  · intro hord
    cases a with
    | step t o =>
        intro hhead hs
        obtain ⟨rest, hstack⟩ := List.head?_eq_some_iff.1 hhead
        have hstep : w.step cfg isIn (.step t o) =
            some ({ w with core := (w.core.frameStep cfg isIn t o .shutdownStore).1 }.setStack t
              ((w.core.frameStep cfg isIn t o .shutdownStore).2 ++ rest)) := by
          simp only [World.step, hstack]
        have := hord _ hstep
        simp [Core.frameStep, setStack, hs, StateE.next] at this
    | _ => trivial
  · intro htime w' hstep
    cases moves_of_step hstep with
    | @frame t o f rest hstack =>
        have hmem : f ∈ w.frames t := hstack ▸ List.mem_cons_self
        have hstate : (w.core.frameStep cfg isIn t o f).1.conn.state_ = _ :=
          w.core.state_frameStep t o f
        show (w.core.frameStep cfg isIn t o f).1.conn.state_ = _ ∨
          StateE.next _ (w.core.frameStep cfg isIn t o f).1.conn.state_ = true
        rw [hstate]
        cases hst : f.stores with
        | none => exact .inl rfl
        | some state =>
            rcases h.established_of_stores hmem hst with rfl | hne
            · obtain rfl := Option.some.inj hst
              rw [(h.connecting hmem rfl).1]
              exact .inr rfl
            · have hlate : state = .kDisconnecting → w.core.conn.state_ ≠ .kDisconnected := by
                rintro rfl
                refine htime ?_
                rw [hstack, List.head?_cons, Option.some.injEq]
                cases f with
                | shutdownStore => rfl
                | handle k => cases k <;> cases hst
                | _ => cases hst
              have hstore : state = .kDisconnecting ∨ state = .kDisconnected := by
                cases f with
                | shutdownStore => exact .inl (Option.some.inj hst).symm
                | connectDestroyedStore => exact .inr (Option.some.inj hst).symm
                | handle k => cases k <;> first | exact .inr (Option.some.inj hst).symm | cases hst
                | connectEstablished => exact absurd (h.connecting hmem rfl).1 hne
                | _ => cases hst
              rcases hstore with rfl | rfl <;> cases hcur : w.core.conn.state_ <;>
                simp_all [StateE.next]
    | _ => exact .inl rfl

/-- **The order of the states, exactly.**  In every run of any number of threads
`state_` moves only along the order, and stays once it is `kDisconnected`, if and
only if no `shutdown` that has found `kConnected` stores `kDisconnecting` after
the connection has been disconnected. -/
theorem ordered_iff_inTime (cfg : Threads LoopId Tid) (isIn : LoopId → Tid → Bool → Bool)
    (sockfd : ℤ) (mark : ℕ) (complete high : Bool) (as : List (Label LoopId Tid)) :
    Along (step cfg isIn) (Ordered cfg isIn) (init (.ofFd sockfd mark complete high)) as ↔
      Along (step cfg isIn) InTime (init (.ofFd sockfd mark complete high)) as :=
  along_iff_along (fun _ _ _ h _ hs => h.step (moves_of_step hs)) (fun _ a h => h.ordered_iff a)
    (Establishing.init (cfg.threadId_ cfg.baseLoop) sockfd mark complete high) as

instance (w : World LoopId Tid) (a : Label LoopId Tid) : Decidable (w.Ordered cfg isIn a) := by
  unfold Ordered
  infer_instance

instance (w : World LoopId Tid) (a : Label LoopId Tid) : Decidable (w.InTime a) :=
  match a with
  | .step _ _ => by unfold InTime; infer_instance
  | .loop .. | .event | .newConnection | .destroyServer | .call .. | .quit .. | .wakeup ..
  | .poke .. => .isTrue trivial

/-- **`shutdown` stores into a closed connection.**  Thread `2` finds `kConnected`;
the peer hangs up and `handleClose` stores `kDisconnected`; then thread `2` stores
`kDisconnecting`. -/
theorem not_ordered_shutdown :
    ¬Along (step .duo Threads.duo.compared) (Ordered .duo Threads.duo.compared) fresh
      (opening ++ [.call 2 .shutdown] ++ steps 2 1 ++ ending ++ steps 1 1 ++ steps 2 1) := by
  decide

end World
end MuMuduo
