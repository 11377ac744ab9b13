/-
# No resurrection after removal

`connectDestroyed` ends with `channel_->remove()`.  Every other operation on a
channel puts it into the poller again, whatever its tag is, so that what runs later
decides whether the poller keeps a pointer to the channel.

Two of the functions that work on the channel never run later, if `isInLoopThread`
answers what its body compares.  `connectEstablished` has gone first: it is handed
over before `connectDestroyed`, over the same queue or on the same thread
(`Foremost`).  And a second `connectDestroyed` finds a state other than
`kConnected`.

What the others do depends on `state_`.  Where it is `kDisconnected` a `sendInLoop`
gives up and the channel does not wait for room (`Loaded`, `Succession.idle`), so that
only `handleClose` is left.  But a `connectDestroyed` that finds the `kDisconnecting` of
a `shutdown` leaves it so.  Then a `sendInLoop` that was queued before takes the
connection for open, and the channel still waits for room if it did: where
`~TcpServer` is called by a callback of the connection, the `handleWrite` of the same
event goes on after the removal (`kept_out_iff_withheld`, `not_kept_out_replying`).
-/

import MuMuduo.Foundation.Fifo
import MuMuduo.Server.Ownership
import MuMuduo.Server.Parting

namespace MuMuduo

open Foundation

variable {LoopId Tid : Type*}

/-- The frame has `connectDestroyed` in hand. -/
def Frame.destroys : Frame LoopId → Bool
  | .runInLoop _ f | .queueInLoop _ f => f == .connectDestroyed
  | _ => false

/-- The frame is in `connectDestroyed`. -/
def Frame.inDestroyed : Frame LoopId → Bool
  | .connectDestroyed | .connectDestroyedStore | .connectDestroyedRemove => true
  | _ => false

/-- A call that finds `kDisconnecting` in `state_` is no `sendInLoop` that leaves bytes
over for a channel that does not wait for room, and no `handleWrite` that drains the
buffer; and no call is one of `handleClose`. -/
def Frame.Withholds (c : Core LoopId Tid) (o : Oracle) : Frame LoopId → Prop
  | .sendInLoopRest buf len _ => c.conn.state_ = .kDisconnecting →
      c.conn.enables (c.bytesAt buf len o.garbage) o.write = false
  | .handle .write => c.conn.state_ = .kDisconnecting → c.conn.drains o.write = false
  | .handle .close => False
  | _ => True

namespace World

/-- `connectEstablished` goes before every `connectDestroyed`: it is the innermost
call of the loop's thread, or is on its way there from the base loop with none in
front. -/
def Foremost (cfg : Threads LoopId Tid) (w : World LoopId Tid) : Prop :=
  (.runInLoop cfg.ioLoop .connectEstablished ∈ w.frames (cfg.threadId_ cfg.ioLoop) ∨
      .connectEstablished ∈ w.frames (cfg.threadId_ cfg.ioLoop)) ∨
    cfg.threadId_ cfg.baseLoop ≠ cfg.threadId_ cfg.ioLoop ∧
      (Leads .connectEstablished .connectDestroyed (w.queued cfg.ioLoop) ∨
        .connectDestroyed ∉ w.queued cfg.ioLoop ∧
          (.runInLoop cfg.ioLoop .connectEstablished ∈ w.frames (cfg.threadId_ cfg.baseLoop) ∨
            .queueInLoop cfg.ioLoop .connectEstablished ∈
              w.frames (cfg.threadId_ cfg.baseLoop)))

/-- `connectDestroyed` has been handed over, and before `connectEstablished` has run
only by the base loop to another thread. -/
def HandedOver (cfg : Threads LoopId Tid) (c : Core LoopId Tid) (t : Tid) : Prop :=
  c.created = true ∧ (c.conn.state_ = .kConnecting →
    t = cfg.threadId_ cfg.baseLoop ∧ cfg.threadId_ cfg.baseLoop ≠ cfg.threadId_ cfg.ioLoop)

/-- A `sendInLoop` that has not given up is under way on a connection that is not
disconnected. -/
def Loaded (w : World LoopId Tid) : Prop :=
  ∀ t buf len id, .sendInLoopRest buf len id ∈ w.frames t →
    w.core.conn.state_ ≠ .kDisconnected

/-- `connectEstablished` runs before `connectDestroyed`, and that does not end with a
connection that is connected. -/
structure Succession (cfg : Threads LoopId Tid) (w : World LoopId Tid) : Prop where
  regular : w.Regular cfg
  mapped : w.core.inMap = true → w.core.created = true
  foremost : w.core.created = true → w.core.conn.state_ = .kConnecting → w.Foremost cfg
  handed : Holds (fun c t f => f.destroys = true → HandedOver cfg c t)
    (fun c _ f => f = .connectDestroyed → c.created = true) w
  unrun : w.core.conn.state_ = .kConnecting → ∀ t, ∀ f ∈ w.frames t, f.inDestroyed = false
  storing : w.core.conn.state_ = .kConnected → ∀ t, .connectDestroyedRemove ∈ w.frames t →
    .connectDestroyedStore ∈ w.frames t
  loaded : w.Loaded
  idle : w.core.conn.state_ = .kDisconnected → w.core.conn.isWriting = false

/-- The channel is out of the poller, `connectEstablished` has run, and no
`connectDestroyed` has found `kConnected`. -/
structure Out (cfg : Threads LoopId Tid) (w : World LoopId Tid) : Prop where
  regular : w.Regular cfg
  down : w.core.conn.state_.Down
  storing : ∀ t, .connectDestroyedStore ∉ w.frames t
  removed : w.core.conn.channel_.index_ = kNew
  loaded : w.Loaded
  idle : w.core.conn.state_ = .kDisconnected → w.core.conn.isWriting = false

section

variable (cfg : Threads LoopId Tid) (isIn : LoopId → Tid → Bool → Bool)

/-- The query of `isInLoopThread` in `runInLoop` or `send`, if this is the step,
answers what its body compares. -/
def Answered [DecidableEq Tid] (w : World LoopId Tid) : Label LoopId Tid → Prop
  | .step t o => ∀ l ∈ (w.frames t).head?.bind (Frame.query cfg),
      isIn l t o.raw = decide (cfg.threadId_ l = t)
  | _ => True

/-- The step leaves the channel out of the poller. -/
def KeptOut [DecidableEq LoopId] [DecidableEq Tid] (w : World LoopId Tid)
    (a : Label LoopId Tid) : Prop :=
  ∀ w' ∈ w.step cfg isIn a, w'.core.conn.Removed

/-- The innermost call, if this is its step, leaves the channel alone. -/
def Withheld (w : World LoopId Tid) : Label LoopId Tid → Prop
  | .step t o => ∀ f ∈ (w.frames t).head?, f.Withholds w.core o
  | _ => True

/-- The step is not the one of `handleClose`. -/
def Unclosed (w : World LoopId Tid) : Label LoopId Tid → Prop
  | .step t _ => (w.frames t).head? ≠ some (.handle .close)
  | _ => True

end

variable {cfg : Threads LoopId Tid} {isIn : LoopId → Tid → Bool → Bool}
variable {w w' : World LoopId Tid} {a : Label LoopId Tid}

/-- A query that answers the comparison takes no foreign thread for a loop's own. -/
theorem Answered.truthful [DecidableEq Tid] (h : w.Answered cfg isIn a) :
    w.Truthful cfg isIn a := by
  cases a with
  | step t o =>
      intro l hl hin
      rw [h l hl] at hin
      exact (of_decide_eq_true hin).symm
  | _ => trivial

/-- `connectDestroyed` is handed over before it is in hand. -/
theorem handed_typing :
    Typing (fun (c : Core LoopId Tid) t f => f.destroys = true → HandedOver cfg c t)
      (fun c _ f => f = .connectDestroyed → c.created = true) cfg where
  queueInLoop _ _ _ f h hf := by
    subst hf
    exact (h rfl).1
  wakeup _ _ _ h := by cases h
  body _ _ f _ h := by cases f <;> cases h
  functor _ _ _ _ h := by cases h
  hold _ _ h := by cases h

/-- No step of `connectDestroyed` is under way where `connectEstablished` is
awaited. -/
theorem inDestroyed_of_next {c : Core LoopId Tid} {t : Tid} {o : Oracle} {f g : Frame LoopId}
    (h : c.Next cfg isIn t o f g) (hg : g.inDestroyed = true) :
    f.inDestroyed = true ∨ ∃ l, f = .runInLoop l .connectDestroyed ∧ isIn l t o.raw = true := by
  cases h with
  | @runDirect l f hin =>
      cases f with
      | connectDestroyed => exact .inr ⟨l, rfl, hin⟩
      | _ => cases hg
  | destroyedStore | destroyedRemove => exact .inl rfl
  | _ => cases hg

/-- A step that hands `connectDestroyed` over goes on with it, or takes the connection
out of `connections_`. -/
theorem destroys_of_next {c : Core LoopId Tid} {t : Tid} {o : Oracle} {f g : Frame LoopId}
    (h : c.Next cfg isIn t o f g) (hg : g.destroys = true) :
    f.stores = none ∧ (f.destroys = true ∨ f = .removeConnectionInLoop) := by
  cases h with
  | @runDirect l f => cases f <;> cases hg
  | runQueued => exact ⟨rfl, .inl hg⟩
  | @notice _ _ _ n => cases n <;> cases hg
  | removed => exact ⟨rfl, .inr rfl⟩
  | _ => cases hg

/-- The call that stores `kDisconnected` is on the thread of the connection's loop. -/
theorem home_of_stores {t : Tid} {f : Frame LoopId} (hf : f.AtHome cfg t)
    (hst : f.stores = some .kDisconnected) : t = cfg.threadId_ cfg.ioLoop := by
  cases f with
  | connectDestroyedStore | handle => exact hf
  | connectEstablished | shutdownStore => cases hst
  | _ => cases hst

/-- A call that stores `kDisconnected` disables all with it. -/
theorem Frame.op_of_stores {c : Core LoopId Tid} {o : Oracle} {f : Frame LoopId}
    (hst : f.stores = some .kDisconnected) : f.op c o = some .disableAll := by
  cases f with
  | connectDestroyedStore => rfl
  | handle k =>
      cases k with
      | close => rfl
      | _ => cases hst
  | connectEstablished | shutdownStore => cases hst
  | _ => cases hst

variable [DecidableEq LoopId] [DecidableEq Tid]

/-! ### What `kDisconnected` means -/

/-- **`kDisconnected` stays**, but for a late store. -/
theorem Regular.closed_of_moves (h : w.Regular cfg) (hin : w.InTime a)
    (hm : Moves cfg isIn w a w') (hs : w.core.conn.state_ = .kDisconnected) :
    w'.core.conn.state_ = .kDisconnected := by
  rcases conn_of_moves hm with ⟨hconn, -⟩ | ⟨t, o, f, rest, rfl, hstack, hcore, -⟩
  · rwa [hconn]
  · have hmem : f ∈ w.frames t := hstack ▸ List.mem_cons_self
    rw [hcore, Core.state_frameStep]
    cases f with
    | connectEstablished =>
        have := (h.establishing.connecting hmem rfl).1
        rw [hs] at this
        cases this
    | shutdownStore => exact absurd hs (hin (by rw [hstack]; rfl))
    | connectDestroyedStore => rfl
    | handle k =>
        cases k with
        | close => rfl
        | _ => exact hs
    | _ => exact hs

/-- A `sendInLoop` that has found another state than `kDisconnected` goes through before
the connection is disconnected. -/
theorem Loaded.step (h : w.Loaded) (hregular : w.Regular cfg) (hm : Moves cfg isIn w a w') :
    w'.Loaded := by
  intro t buf len id hf
  rcases of_mem_stacks_inner hm hf rfl with hold | ⟨o, g, rest, -, -, hcore, hf⟩
  · intro hs
    have hne := h t buf len id hold
    rcases conn_of_moves hm with ⟨hconn, -⟩ | ⟨u, o, g, rest, -, hstack, hcore, -⟩
    · exact hne (hconn ▸ hs)
    · -- `kDisconnected` is stored by the thread of the loop, whose innermost call this is
      have hst : g.stores = some .kDisconnected := by
        rw [hcore, Core.state_frameStep] at hs
        cases hst : g.stores with
        | none =>
            rw [hst] at hs
            exact absurd hs hne
        | some state =>
            rw [hst] at hs
            exact congrArg some hs
      obtain rfl := home_of_stores (hregular.home.frames u g (hstack ▸ List.mem_cons_self)) hst
      obtain rfl : t = cfg.threadId_ cfg.ioLoop := hregular.home.frames t _ hold
      have hhead := hregular.head_of_mem hold rfl
      rw [hstack] at hhead
      obtain rfl := Option.some.inj hhead
      cases hst
  · rw [hcore, Core.state_frameStep]
    generalize hk : Frame.sendInLoopRest buf len id = k at hf
    cases Core.next_of_mem hf with
    | @runDirect _ f => cases f <;> cases hk
    | sendInLoop hs => exact hs
    | _ => cases hk

/-- **A channel that is disconnected does not wait for room.** -/
theorem Loaded.idle_step (h : w.Loaded)
    (hidle : w.core.conn.state_ = .kDisconnected → w.core.conn.isWriting = false)
    (hm : Moves cfg isIn w a w') (hs' : w'.core.conn.state_ = .kDisconnected) :
    w'.core.conn.isWriting = false := by
  rcases conn_of_moves hm with ⟨hconn, -⟩ | ⟨t, o, f, rest, rfl, hstack, hcore, -⟩
  · rw [hconn] at hs' ⊢
    exact hidle hs'
  · have hmem : f ∈ w.frames t := hstack ▸ List.mem_cons_self
    rw [hcore, Core.state_frameStep] at hs'
    have hwriting : w'.core.conn.isWriting =
        (f.op w.core o).elim w.core.conn.isWriting
          fun op => (w.core.conn.perform op).isWriting := by
      have hwatch := congrArg (fun w => w.2.isWriting)
        (w.core.watch_frameStep t o f : (w.core.frameStep cfg isIn t o f).1.conn.watch = _)
      rw [hcore]
      cases hop : f.op w.core o <;> rw [hop] at hwatch <;> exact hwatch
    rw [hwriting]
    by_cases hst : f.stores = some .kDisconnected
    · rw [Frame.op_of_stores hst]
      exact TcpConnection.isWriting_disableAll _
    · have hs : w.core.conn.state_ = .kDisconnected := by
        cases hstores : f.stores with
        | none =>
            rw [hstores] at hs'
            exact hs'
        | some state =>
            rw [hstores] at hs'
            exact absurd (hstores.trans (congrArg some hs')) hst
      cases hop : f.op w.core o with
      | none => exact hidle hs
      | some op =>
          cases Frame.operates_of_op hop with
          | connectEstablished => cases hs'
          | sendInLoopRest buf len id => exact absurd hs (h t buf len id hmem)
          | drained => exact TcpConnection.isWriting_disableWriting _
          | connectDestroyedStore | handleClose => exact absurd rfl hst
          | connectDestroyedRemove => exact hidle hs

/-! ### `connectEstablished` goes first -/

omit [DecidableEq LoopId] [DecidableEq Tid] in
/-- User code does not run where the innermost call is another. -/
theorem Regular.not_userCode (h : w.Regular cfg) {t : Tid} {f : Frame LoopId}
    (hf : f ∈ w.frames t) (hbelow : f.below = false) : w.userCode cfg t ≠ true := by
  intro huser
  have hhead := h.head_of_mem hf hbelow
  rcases stack_of_userCode huser with hst | ⟨rest, hst⟩ <;> rw [hst] at hhead
  · cases hhead
  · obtain rfl := Option.some.inj hhead
    cases hbelow

/-- **One step** hands it over in order. -/
theorem Succession.handed_step (h : w.Succession cfg) (hm : Moves cfg isIn w a w') :
    Holds (fun c t f => f.destroys = true → HandedOver cfg c t)
      (fun c _ f => f = .connectDestroyed → c.created = true) w' := by
  refine h.handed.step handed_typing ⟨?_, ?_, ?_, ?_, ?_, ?_, ?_, ?_⟩ ⟨?_, ?_⟩ hm
  · rintro t o f rest - hstack hf g hg hdestroys
    have hmem : f ∈ w.frames t := hstack ▸ List.mem_cons_self
    obtain ⟨hst, hdest | rfl⟩ := destroys_of_next (Core.next_of_mem hg) hdestroys
    · obtain ⟨hcreated, hbase⟩ := hf hdest
      refine ⟨(w.core.created_frameStep t o f).trans hcreated, fun hs => hbase ?_⟩
      rwa [Core.state_frameStep, hst] at hs
    · -- the removal begins after the connection is established
      have hs : w.core.conn.state_ ≠ .kConnecting := by
        intro hs
        cases h.regular.establishing.early.frames t _ hmem hs
      refine ⟨(w.core.created_frameStep t o _).trans ?_, fun hs' => absurd hs' hs⟩
      by_contra hne
      exact hs (h.regular.establishing.fresh (by simpa using hne))
  · intro _ _ _ hd
    cases hd
  · intro _ hd
    cases hd
  · rintro rfl hmap -
    refine ⟨created_of_moves hm (h.mapped hmap), fun hs' => ⟨rfl, fun heq => ?_⟩⟩
    have hs := connecting_of_moves hm hs'
    have huser : w.userCode cfg (cfg.threadId_ cfg.baseLoop) = true := by
      cases hm <;> assumption
    rcases h.foremost (h.mapped hmap) hs with (hf | hf) | ⟨hne, -⟩
    · exact h.regular.not_userCode hf rfl (heq ▸ huser)
    · exact h.regular.not_userCode hf rfl (heq ▸ huser)
    · exact hne heq
  · intro _ _ _ _ _ hd
    cases hd
  · intro _ _ hd
    cases hd
  · intro _ _ _ hd
    cases hd
  · intro _ _ _ hd
    cases hd
  · intro t f _ hf hd
    exact ⟨created_of_moves hm (hf hd).1, fun hs => (hf hd).2 (connecting_of_moves hm hs)⟩
  · intro l f _ hf hd
    exact created_of_moves hm (hf hd)

/-- **`connectDestroyed` does not run before `connectEstablished`.** -/
theorem Succession.unrun_step (h : w.Succession cfg) (ha : w.Answered cfg isIn a)
    (hm : Moves cfg isIn w a w') (hs' : w'.core.conn.state_ = .kConnecting) (t : Tid)
    (f : Frame LoopId) (hf : f ∈ w'.frames t) : f.inDestroyed = false := by
  have hs := connecting_of_moves hm hs'
  rw [← Bool.not_eq_true]
  intro hin
  rcases of_mem_stacks hm hf with hold | ⟨l, g, rfl, hstack, hg, hq, rfl | rfl⟩ |
    ⟨frames, hframes, hf⟩ | ⟨l, rfl⟩ | ⟨o, g, rest, rfl, hstack, -, hf⟩
  · rw [h.unrun hs t f hold] at hin
    cases hin
  · -- a functor that waits comes after `connectEstablished`
    obtain rfl : g = .connectDestroyed := by cases g <;> first | rfl | cases hin
    have hmem : .connectDestroyed ∈ w.queued l := List.mem_append_left _ hg
    obtain rfl : l = cfg.ioLoop := h.regular.home.functors l _ hmem
    rcases h.foremost (h.handed.functors _ _ hmem rfl) hs with hst | ⟨-, hlead | ⟨hnot, -⟩⟩
    · rw [hstack] at hst
      rcases hst with hst | hst <;> cases hst
    · rw [hq] at hlead
      rcases hlead.of_cons with heq | ⟨hne, -⟩
      · cases heq
      · exact hne rfl
    · exact hnot hmem
  · cases hin
  · cases hframes <;> simp only [List.mem_cons, List.not_mem_nil, or_false] at hf
    all_goals rcases hf with rfl | rfl <;> cases hin
  · cases hin
  · have hmem : g ∈ w.frames t := hstack ▸ List.mem_cons_self
    rcases inDestroyed_of_next (Core.next_of_mem hf) hin with hg | ⟨l, rfl, hdirect⟩
    · rw [h.unrun hs t g hmem] at hg
      cases hg
    · obtain rfl : l = cfg.ioLoop := h.regular.home.frames t _ hmem
      obtain ⟨rfl, hne⟩ := (h.handed.frames t _ hmem rfl).2 hs
      have hanswer := ha cfg.ioLoop (by rw [hstack]; rfl)
      rw [hdirect] at hanswer
      exact hne (of_decide_eq_true hanswer.symm).symm

/-- Where `connectDestroyed` ends, it has stored `kDisconnected` or has found another
state than `kConnected`. -/
theorem Succession.storing_step (h : w.Succession cfg) (hm : Moves cfg isIn w a w')
    (hs' : w'.core.conn.state_ = .kConnected) (t : Tid) :
    .connectDestroyedRemove ∈ w'.frames t → .connectDestroyedStore ∈ w'.frames t := by
  have hold (t : Tid) (hf : .connectDestroyedRemove ∈ w.frames t) :
      .connectDestroyedStore ∈ w.frames t := by
    rcases h.regular.establishing.connected_of_moves hm hs' with hs | hs
    · exact h.storing hs t hf
    · cases h.unrun hs t _ hf
  refine forall_stacks_of_moves (S := fun _ st =>
    .connectDestroyedRemove ∈ st → .connectDestroyedStore ∈ st) hold hm ?_ ?_ ?_ ?_ t
  · intro l f _ hmem
    cases f <;> simp [Functor.body] at hmem
  · intro u frames _ hframes _ hst hmem
    have hnew : .connectDestroyedRemove ∉ frames := by cases hframes <;> simp
    exact List.mem_append_right _ (hst ((List.mem_append.1 hmem).resolve_left hnew))
  · intro u l f rest hst hmem
    simpa using hst (by simpa using hmem)
  · intro u o f rest _ _ hcore hst hmem
    have hne : f ≠ .connectDestroyedStore := by
      rintro rfl
      rw [hcore] at hs'
      cases hs'
    rcases List.mem_append.1 hmem with hnew | hrest
    · obtain rfl := eq_of_next_remove (Core.next_of_mem hnew)
      have hs : w.core.conn.state_ = .kConnected := by
        rw [hcore] at hs'
        exact hs'
      simp [Core.frameStep, hs]
    · refine List.mem_append_right _ ?_
      exact (List.mem_cons.1 (hst (List.mem_cons_of_mem f hrest))).resolve_left (Ne.symm hne)

/-- What waits in front stays there until it is started. -/
theorem leads_of_moves {l : LoopId} {f g : Functor} (hm : Moves cfg isIn w a w')
    (hlead : Leads f g (w.queued l)) :
    w'.frames (cfg.threadId_ l) = [f.body, .functor f] ∨ Leads f g (w'.queued l) := by
  rcases queued_of_moves hm with ⟨k, f', hk, hother, hstart⟩ | ⟨t, k, f', rest, -, hk, hother⟩ |
    hsame
  · by_cases hl : l = k
    · subst hl
      rw [hk] at hlead
      rcases hlead.of_cons with rfl | ⟨-, hlead⟩
      · exact .inl hstart
      · exact .inr hlead
    · exact .inr (by rwa [hother _ hl])
  · by_cases hl : l = k
    · subst hl
      exact .inr (hk ▸ hlead.append _)
    · exact .inr (by rwa [hother _ hl])
  · exact .inr (by rwa [hsame])

omit [DecidableEq LoopId] in
/-- `runInLoop` makes the call on the thread of the loop, and queues it elsewhere. -/
theorem Answered.runInLoop {t : Tid} {o : Oracle} {l : LoopId} {f : Functor}
    (ha : w.Answered cfg isIn (.step t o))
    (hhead : (w.frames t).head? = some (.runInLoop l f)) :
    (w.core.frameStep cfg isIn t o (.runInLoop l f)).2 =
      if cfg.threadId_ l = t then [f.body] else [.queueInLoop l f] := by
  have hanswer := ha l (by rw [hhead]; rfl)
  by_cases ht : cfg.threadId_ l = t
  · rw [if_pos ht, Core.frameStep, if_pos (hanswer.trans (decide_eq_true ht))]
  · rw [if_neg ht, Core.frameStep, if_neg (by rw [hanswer]; exact mt of_decide_eq_true ht)]

/-- **`connectEstablished` stays in front** on its way from the base loop. -/
theorem Succession.foremost_of_moves (h : w.Succession cfg) (hfore : w.Foremost cfg)
    (ha : w.Answered cfg isIn a) (hm : Moves cfg isIn w a w')
    (hs' : w'.core.conn.state_ = .kConnecting) : w'.Foremost cfg := by
  have hs := connecting_of_moves hm hs'
  rcases hfore with (hf | hf) | ⟨hne, hlead | ⟨hnot, hf⟩⟩
  · left
    rcases mem_stacks_of_moves hm hf with hf | ⟨_, _, hfg, -⟩ | ⟨o, -, -, hnew, hl, hhead⟩
    · exact .inl hf
    · cases hfg
    · subst hl
      exact .inr (hnew _ (by rw [ha.runInLoop hhead, if_pos rfl]; exact List.mem_singleton_self _))
  · left
    rcases mem_stacks_of_moves hm hf with hf | ⟨_, _, hfg, -⟩ | ⟨o, -, hcore, -⟩
    · exact .inr hf
    · cases hfg
    · rw [hcore] at hs'
      cases hs'
  · rcases leads_of_moves hm hlead with hstart | hlead
    · exact .inl (.inr (by rw [hstart]; exact List.mem_cons_self))
    · exact .inr ⟨hne, .inl hlead⟩
  · -- while the base loop has it in hand it pushes nothing else
    have hnot' : .connectDestroyed ∉ w'.queued cfg.ioLoop := by
      intro hmem
      rcases of_mem_queued hm hmem with hmem | ⟨t, o, rest, -, hstack, -⟩
      · exact hnot hmem
      · have hpush : .queueInLoop cfg.ioLoop .connectDestroyed ∈ w.frames t :=
          hstack ▸ List.mem_cons_self
        obtain ⟨rfl, -⟩ := (h.handed.frames t _ hpush rfl).2 hs
        have hhead := h.regular.head_of_mem hpush rfl
        rcases hf with hf | hf
        · cases hhead.symm.trans (h.regular.head_of_mem hf rfl)
        · cases hhead.symm.trans (h.regular.head_of_mem hf rfl)
    refine .inr ⟨hne, ?_⟩
    rcases hf with hf | hf
    · rcases mem_stacks_of_moves hm hf with hf | ⟨_, _, hfg, -⟩ | ⟨o, -, -, hnew, hl, hhead⟩
      · exact .inr ⟨hnot', .inl hf⟩
      · cases hfg
      · subst hl
        refine .inr ⟨hnot', .inr (hnew _ ?_)⟩
        rw [ha.runInLoop hhead, if_neg (Ne.symm hne)]
        exact List.mem_singleton_self _
    · rcases mem_stacks_of_moves hm hf with hf | ⟨l, g, hfg, -, hq⟩ | ⟨o, hqueue, -⟩
      · exact .inr ⟨hnot', .inr hf⟩
      · obtain ⟨rfl, rfl⟩ := Frame.queueInLoop.inj hfg
        exact .inl (hq ▸ leads_concat hnot)
      · exact absurd rfl (hqueue _ _)

/-- `connectEstablished` stays in front until it has run. -/
theorem Succession.foremost_step (h : w.Succession cfg) (ha : w.Answered cfg isIn a)
    (hm : Moves cfg isIn w a w') (hcreated : w'.core.created = true)
    (hs' : w'.core.conn.state_ = .kConnecting) : w'.Foremost cfg := by
  by_cases hold : w.core.created = true
  · exact h.foremost_of_moves (h.foremost hold (connecting_of_moves hm hs')) ha hm hs'
  · cases hm with
    | newConnection =>
        -- the call is made here, by the base loop
        by_cases hne : cfg.threadId_ cfg.baseLoop = cfg.threadId_ cfg.ioLoop
        · exact .inl (.inl (by simp [hne]))
        · refine .inr ⟨hne, .inr ⟨fun hmem => ?_, .inl ?_⟩⟩
          · exact hold (h.handed.functors cfg.ioLoop _ hmem rfl)
          · simp
    | frame => exact absurd ((Core.created_frameStep ..).symm.trans hcreated) hold
    | _ => exact absurd hcreated hold

/-- `connections_` holds a connection that has been created. -/
theorem Succession.mapped_step (h : w.Succession cfg) (hm : Moves cfg isIn w a w')
    (hmap : w'.core.inMap = true) : w'.core.created = true := by
  cases hm with
  | newConnection => rfl
  | @frame t o f =>
      rw [Core.inMap_frameStep, Bool.and_eq_true] at hmap
      exact (w.core.created_frameStep t o f).trans (h.mapped hmap.1)
  | destroyServer => cases hmap
  | _ => exact h.mapped hmap

/-- **One step.** -/
theorem Succession.step (h : w.Succession cfg) (ha : w.Answered cfg isIn a)
    (hm : Moves cfg isIn w a w') : w'.Succession cfg where
  regular := h.regular.step ha.truthful hm
  mapped := h.mapped_step hm
  foremost := h.foremost_step ha hm
  handed := h.handed_step hm
  unrun := h.unrun_step ha hm
  storing := h.storing_step hm
  loaded := h.loaded.step h.regular hm
  idle := h.loaded.idle_step h.idle hm

omit [DecidableEq LoopId] [DecidableEq Tid] in
/-- Before the server has the connection. -/
theorem Succession.init (sockfd : ℤ) (mark : ℕ) (complete high : Bool) :
    (World.init (.ofFd sockfd mark complete high) : World LoopId Tid).Succession cfg where
  regular := .init sockfd mark complete high
  mapped h := by cases h
  foremost h := by cases h
  handed := Holds.init _
  unrun _ _ _ h := by cases h
  storing h := by cases h
  loaded _ _ _ _ hf := by cases hf
  idle h := by cases h

/-! ### After the removal -/

/-- **Where `connectDestroyed` returns** the channel is out of the poller. -/
theorem Succession.out (h : w.Succession cfg) {t : Tid} {o : Oracle}
    (hhead : (w.frames t).head? = some .connectDestroyedRemove)
    (hs : w.step cfg isIn (.step t o) = some w') : w'.Out cfg := by
  obtain ⟨rest, hstack⟩ : ∃ rest, w.frames t = .connectDestroyedRemove :: rest :=
    List.head?_eq_some_iff.1 hhead
  have hmem : .connectDestroyedRemove ∈ w.frames t := hstack ▸ List.mem_cons_self
  have hstore (u : Tid) : .connectDestroyedStore ∉ w.frames u := by
    intro hstore
    obtain rfl : t = cfg.threadId_ cfg.ioLoop := h.regular.home.frames t _ hmem
    obtain rfl : u = cfg.threadId_ cfg.ioLoop := h.regular.home.frames u _ hstore
    cases hhead.symm.trans (h.regular.head_of_mem hstore rfl)
  have htruth : w.Truthful cfg isIn (.step t o) := by simp [Truthful, hstack, Frame.query]
  have hregular := h.regular.step htruth (moves_of_step hs)
  obtain rfl : w' =
      { w with core := { w.core with conn := w.core.conn.perform .remove } }.setStack t rest := by
    simpa [World.step, hstack, Core.frameStep] using hs.symm
  refine ⟨hregular, ⟨fun hs => ?_, fun hs => hstore t (h.storing hs t hmem)⟩, fun u hu => ?_, rfl,
    h.loaded.step h.regular (moves_of_step hs),
    h.loaded.idle_step h.idle (moves_of_step hs)⟩
  · cases h.unrun hs t _ hmem
  · refine hstore u ?_
    by_cases hut : u = t
    · subst hut
      have hu : .connectDestroyedStore ∈ rest := by simpa [setStack] using hu
      exact hstack ▸ List.mem_cons_of_mem _ hu
    · simpa [setStack, hut] using hu

/-- No step goes back to a connection that is connected. -/
theorem Out.storing_step (h : w.Out cfg) (hm : Moves cfg isIn w a w') (t : Tid) :
    .connectDestroyedStore ∉ w'.frames t := by
  intro hf
  rcases of_mem_stacks_inner hm hf rfl with hold | ⟨o, g, rest, -, -, -, hf⟩
  · exact h.storing t hold
  · generalize hk : Frame.connectDestroyedStore = k at hf
    cases Core.next_of_mem hf with
    | @runDirect _ f => cases f <;> cases hk
    | destroyedStore hs => exact h.down.2 hs
    | _ => cases hk

/-- A call that works on the channel takes its step. -/
theorem step_of_op {t : Tid} {o : Oracle} {f : Frame LoopId} {rest : List (Frame LoopId)}
    {op : Channel.Op} (hstack : w.frames t = f :: rest) (hop : f.op w.core o = some op) :
    w.step cfg isIn (.step t o) =
      some ({ w with core := (w.core.frameStep cfg isIn t o f).1 }.setStack t
        ((w.core.frameStep cfg isIn t o f).2 ++ rest)) := by
  cases Frame.operates_of_op hop <;> simp [World.step, hstack]

/-- An operation other than `remove` puts the channel into the poller. -/
theorem Out.not_kept_out (h : w.Out cfg) {t : Tid} {o : Oracle} {f : Frame LoopId}
    {rest : List (Frame LoopId)} {op : Channel.Op} (hstack : w.frames t = f :: rest)
    (hop : f.op w.core o = some op) (hne : op ≠ .remove) :
    ¬w.KeptOut cfg isIn (.step t o) := by
  intro hkept
  have hs : w.step cfg isIn (.step t o) = some _ := step_of_op hstack hop
  have hremoved := hkept _ hs
  have hregistered := registered_of_moves h.regular.registered (moves_of_step hs)
  have hindex : (w.core.frameStep cfg isIn t o f).1.conn.channel_.index_ = kNew :=
    hregistered.removed_iff.1 hremoved
  rw [Core.index_frameStep, hop] at hindex
  exact h.regular.registered.index_perform_ne hne hindex

omit [DecidableEq LoopId] [DecidableEq Tid] in
/-- What is not disconnected is disconnecting. -/
theorem Out.disconnecting (h : w.Out cfg) (hs : w.core.conn.state_ ≠ .kDisconnected) :
    w.core.conn.state_ = .kDisconnecting := by
  obtain ⟨hconnecting, hconnected⟩ := h.down
  cases hcur : w.core.conn.state_ with
  | kDisconnecting => rfl
  | kDisconnected => exact absurd hcur hs
  | kConnecting => exact absurd hcur hconnecting
  | kConnected => exact absurd hcur hconnected

/-- **What can put the channel into the poller again.** -/
theorem Out.kept_out_iff (h : w.Out cfg) (a : Label LoopId Tid) :
    w.KeptOut cfg isIn a ↔ w.Withheld a := by
  constructor
  · intro hkept
    cases a with
    | step t o =>
        intro f hf
        obtain ⟨rest, hstack⟩ : ∃ rest, w.frames t = f :: rest := List.head?_eq_some_iff.1 hf
        cases f with
        | sendInLoopRest buf len id =>
            refine fun _ => Bool.eq_false_iff.2 fun henables => ?_
            have hop : (.sendInLoopRest buf len id : Frame LoopId).op w.core o =
                some .enableWriting := if_pos henables
            exact h.not_kept_out hstack hop (by simp) hkept
        | handle k =>
            cases k with
            | write =>
                refine fun _ => Bool.eq_false_iff.2 fun hdrains => ?_
                have hop : (.handle .write : Frame LoopId).op w.core o = some .disableWriting :=
                  if_pos hdrains
                exact h.not_kept_out hstack hop (by simp) hkept
            | close => exact absurd hkept (h.not_kept_out hstack rfl (by simp))
            | error | read => trivial
        | _ => trivial
    | _ => trivial
  · intro hheld w' hs
    have hm : Moves cfg isIn w a w' := moves_of_step hs
    refine (registered_of_moves h.regular.registered hm).removed_iff.2 ?_
    rcases conn_of_moves hm with ⟨hconn, -⟩ | ⟨t, o, f, rest, rfl, hstack, hcore, -⟩
    · rw [hconn]
      exact h.removed
    · have hmem : f ∈ w.frames t := hstack ▸ List.mem_cons_self
      have hf := hheld f (by rw [hstack]; rfl)
      rw [hcore, Core.index_frameStep]
      cases hop : f.op w.core o with
      | none => exact h.removed
      | some op =>
          cases Frame.operates_of_op hop with
          | connectDestroyedRemove => exact TcpConnection.index_remove
          | connectEstablished =>
              exact absurd (h.regular.establishing.connecting hmem rfl).1 h.down.1
          | connectDestroyedStore => exact absurd hmem (h.storing t)
          | sendInLoopRest buf len id =>
              -- it has found `kDisconnecting`, as the state cannot be another
              have hs := h.disconnecting (h.loaded t buf len id hmem)
              have henables :
                  w.core.conn.enables (w.core.bytesAt buf len o.garbage) o.write = true := by
                by_contra hno
                rw [Frame.op, if_neg hno] at hop
                cases hop
              exact absurd henables (by rw [hf hs]; exact Bool.false_ne_true)
          | drained =>
              have hdrains : w.core.conn.drains o.write = true := by
                by_contra hno
                rw [Frame.op, if_neg hno] at hop
                cases hop
              have hs := h.disconnecting fun hs => by
                rw [TcpConnection.drains, h.idle hs] at hdrains
                cases hdrains
              exact absurd hdrains (by rw [hf hs]; exact Bool.false_ne_true)
          | handleClose => exact hf.elim

omit [DecidableEq LoopId] [DecidableEq Tid] in
/-- On a disconnected connection only `handleClose` can. -/
theorem withheld_iff_unclosed (hs : w.core.conn.state_ = .kDisconnected)
    (a : Label LoopId Tid) : w.Withheld a ↔ w.Unclosed a := by
  have hne : w.core.conn.state_ ≠ .kDisconnecting := by
    rw [hs]
    decide
  cases a with
  | step t o =>
      rw [Withheld, Unclosed]
      cases (w.frames t).head? with
      | none => simp
      | some f =>
          cases f with
          | sendInLoopRest buf len id => simp [Frame.Withholds, hne]
          | handle k => cases k <;> simp [Frame.Withholds, hne]
          | _ => simp [Frame.Withholds]
  | _ => exact Iff.rfl

/-- **One step** that leaves the channel out of the poller. -/
theorem Out.step (h : w.Out cfg) (ha : w.Answered cfg isIn a) (hkept : w.KeptOut cfg isIn a)
    (hs : w.step cfg isIn a = some w') : w'.Out cfg := by
  have hm : Moves cfg isIn w a w' := moves_of_step hs
  have hregular := h.regular.step ha.truthful hm
  exact ⟨hregular, h.regular.establishing.down_of_moves hm h.down, h.storing_step hm,
    hregular.registered.removed_iff.1 (hkept w' hs), h.loaded.step h.regular hm,
    h.loaded.idle_step h.idle hm⟩

/-- **No resurrection, exactly when.**  In every run in which `isInLoopThread` answers
what its body compares, once `connectDestroyed` has returned the channel is out of the
poller.  It stays out exactly as long as no `sendInLoop` that finds `kDisconnecting`
leaves bytes over for a channel that does not wait, no `handleWrite` that finds it drains
the buffer, and `handleClose` is not called.  So where `connectDestroyed` leaves
`kDisconnected` behind, and no late `shutdown` stores over it, the channel stays out
exactly as long as `handleClose` is not called. -/
theorem kept_out_iff_withheld {sockfd : ℤ} {mark : ℕ} {complete high : Bool}
    {as : List (Label LoopId Tid)} (bs : List (Label LoopId Tid)) {t : Tid} {o : Oracle}
    (hs : exec (World.step cfg isIn) (init (.ofFd sockfd mark complete high)) as = some w)
    (hbefore : Along (World.step cfg isIn) (Answered cfg isIn)
      (init (.ofFd sockfd mark complete high)) as)
    (hhead : (w.frames t).head? = some .connectDestroyedRemove)
    (hreturn : w.step cfg isIn (.step t o) = some w')
    (hafter : Along (World.step cfg isIn) (Answered cfg isIn) w' bs) :
    w'.core.conn.Removed ∧
      (Along (World.step cfg isIn) (KeptOut cfg isIn) w' bs ↔
        Along (World.step cfg isIn) Withheld w' bs) ∧
      (w'.core.conn.state_ = .kDisconnected → Along (World.step cfg isIn) InTime w' bs →
        (Along (World.step cfg isIn) (KeptOut cfg isIn) w' bs ↔
          Along (World.step cfg isIn) Unclosed w' bs)) := by
  have h : w.Succession cfg :=
    exec_invariant (fun _ _ _ h ha hs => h.step ha (moves_of_step hs))
      (Succession.init sockfd mark complete high) hbefore hs
  have hout : w'.Out cfg := h.out hhead hreturn
  refine ⟨hout.regular.registered.removed_iff.2 hout.removed, ?_, fun hclosed hin => ?_⟩
  · have hiff := along_iff_along (I := Out cfg)
      (C := fun w a => w.Answered cfg isIn a ∧ w.KeptOut cfg isIn a)
      (D := fun w a => w.Answered cfg isIn a ∧ w.Withheld a)
      (fun _ _ _ h ha hs => h.step ha.1 ha.2 hs)
      (fun _ a h => and_congr_right fun _ => h.kept_out_iff a) hout bs
    rw [along_and, along_and] at hiff
    simpa only [hafter, true_and] using hiff
  · have hiff := along_iff_along
      (I := fun w : World LoopId Tid => w.Out cfg ∧ w.core.conn.state_ = .kDisconnected)
      (C := fun w a => (w.Answered cfg isIn a ∧ w.InTime a) ∧ w.KeptOut cfg isIn a)
      (D := fun w a => (w.Answered cfg isIn a ∧ w.InTime a) ∧ w.Unclosed a)
      (fun _ _ _ h ha hs => ⟨h.1.step ha.1.1 ha.2 hs,
        h.1.regular.closed_of_moves ha.1.2 (moves_of_step hs) h.2⟩)
      (fun _ a h => and_congr_right fun _ =>
        (h.1.kept_out_iff a).trans (withheld_iff_unclosed h.2 a)) ⟨hout, hclosed⟩ bs
    simpa only [along_and, hafter, hin, true_and] using hiff

section Decide

instance (w : World LoopId Tid) (a : Label LoopId Tid) : Decidable (w.Answered cfg isIn a) :=
  match a with
  | .step _ _ => by unfold Answered; infer_instance
  | .loop .. | .event | .newConnection | .destroyServer | .call .. | .quit .. | .wakeup ..
  | .poke .. => .isTrue trivial

instance (w : World LoopId Tid) (a : Label LoopId Tid) : Decidable (w.KeptOut cfg isIn a) := by
  unfold KeptOut TcpConnection.Removed
  infer_instance

omit [DecidableEq LoopId] [DecidableEq Tid] in
instance (c : Core LoopId Tid) (o : Oracle) (f : Frame LoopId) : Decidable (f.Withholds c o) :=
  match f with
  | .sendInLoopRest .. | .handle .write => inferInstanceAs (Decidable (_ = _ → _ = _))
  | .handle .close => .isFalse id
  | .callback | .hold | .functor _ | .runInLoop .. | .queueInLoop .. | .wakeup _ | .send ..
  | .sendConnected .. | .sendInLoop .. | .shutdown | .shutdownStore | .shutdownInLoop
  | .connectEstablished | .connectDestroyed | .connectDestroyedStore | .connectDestroyedRemove
  | .connectionCallback | .handleEvent _ | .handle .error | .handle .read | .handleWriteRest
  | .removeConnection | .removeConnectionInLoop => .isTrue trivial

omit [DecidableEq LoopId] [DecidableEq Tid] in
instance (w : World LoopId Tid) (a : Label LoopId Tid) : Decidable (w.Withheld a) :=
  match a with
  | .step _ _ => by unfold Withheld; infer_instance
  | .loop .. | .event | .newConnection | .destroyServer | .call .. | .quit .. | .wakeup ..
  | .poke .. => .isTrue trivial

omit [DecidableEq Tid] in
instance (w : World LoopId Tid) (a : Label LoopId Tid) : Decidable (w.Unclosed a) :=
  match a with
  | .step _ _ => by unfold Unclosed; infer_instance
  | .loop .. | .event | .newConnection | .destroyServer | .call .. | .quit .. | .wakeup ..
  | .poke .. => .isTrue trivial

end Decide

/-- The hypotheses are satisfiable: the server is destroyed while thread `2` is in
`send`, and the `sendInLoop` that it queues finds `kDisconnected`. -/
theorem kept_out_iff_withheld_destroyServer :
    ∃ w w', exec (step .duo Threads.duo.compared) fresh
        (opening ++ [.poke 7 (some [1, 2, 3]), .call 2 (.send 7)] ++ steps 2 1 ++
          [.destroyServer] ++ steps 0 4 ++ starting 4) = some w ∧
      w.step .duo Threads.duo.compared (.step 1 .plain) = some w' ∧ w'.core.conn.Removed ∧
      Along (step .duo Threads.duo.compared) (KeptOut .duo Threads.duo.compared) w'
        (steps 1 1 ++ steps 2 4 ++ sleeping ++ starting 1) := by
  have hs : exec (step .duo Threads.duo.compared) fresh
      (opening ++ [.poke 7 (some [1, 2, 3]), .call 2 (.send 7)] ++ steps 2 1 ++
        [.destroyServer] ++ steps 0 4 ++ starting 4) = some _ := rfl
  refine ⟨_, _, hs, rfl, ?_⟩
  have h := kept_out_iff_withheld (steps 1 1 ++ steps 2 4 ++ sleeping ++ starting 1) (t := 1)
    (o := .plain) hs (by decide +kernel) rfl rfl (by decide +kernel)
  exact ⟨h.1, (h.2.2 (by decide +kernel) (by decide +kernel)).2 (by decide +kernel)⟩

/-- **The channel comes back.**  On a server with one loop the connection callback sends
the string at `7`, of which the kernel takes one byte.  Then the channel is reported
readable and writable, and the message callback calls `shutdown`, which stores
`kDisconnecting`, and destroys the server: `connectDestroyed` takes the channel out of
the poller and leaves its mask.  Back from the callback, `handleWrite` of the same event
writes the other two bytes, and `disableWriting` puts the channel back.  When nobody owns
the connection any more, the poller still holds the channel. -/
theorem not_kept_out_replying :
    ∃ w w' u, exec (step .solo Threads.solo.compared) (init (.ofFd 5 64 false false))
        replying = some w ∧
      w.core.conn.fd = [.write [1] []] ∧
      (w.frames ()).head? = some .connectDestroyedRemove ∧
      w.step .solo Threads.solo.compared (.step () .plain) = some w' ∧
      Along (step .solo Threads.solo.compared) (fun w _ => w.Alive) w' replied ∧
      ¬Along (step .solo Threads.solo.compared) (KeptOut .solo Threads.solo.compared) w'
        replied ∧
      exec (step .solo Threads.solo.compared) w' replied = some u ∧ ¬u.Owned ∧
      u.core.conn.poller.channels_ u.core.conn.channel_.fd_ = some () :=
  ⟨_, _, _, rfl, by decide +kernel, rfl, rfl, by decide +kernel, by decide +kernel, rfl,
    by decide +kernel, by decide +kernel⟩

end World
end MuMuduo
