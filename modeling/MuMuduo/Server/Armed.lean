/-
# What the poller is asked to watch for

`epoll_wait` is level-triggered: a connection that asks for `EPOLLOUT` with nothing to
write keeps its loop busy, and one that does not ask for it with bytes in
`outputBuffer_` never gets rid of them.  `wanted` says what a connection should ask for:
to hear of what comes in while it is established, and of room for output as long as
some is waiting.

Calls of `send` and `shutdown` come from any number of threads, and the state and the
buffer change in different steps.  Yet the mask of the channel is what is wanted after
every step, the kernel is asked for this or for nothing, and it is asked as long as the
connection is connected (`Attended`), up to the one store that `MuMuduo.Server.States`
finds out of order: that of a `shutdown` into a connection that is disconnected
(`attended_iff_inTime`).
-/

import MuMuduo.Server.Closing
import MuMuduo.Server.Dispatch
import MuMuduo.Server.Removal

namespace MuMuduo

open Foundation

namespace TcpConnection

/-- The events that a connection should be told of. -/
def wanted (c : TcpConnection) : BitVec 32 :=
  match c.state_ with
  | .kConnected | .kDisconnecting =>
      Channel.kReadEvent ||| if c.outputBuffer_.content = [] then 0 else Channel.kWriteEvent
  | .kConnecting | .kDisconnected => 0

/-- The channel's mask is what the connection wants, and the kernel has been asked for
this, or for nothing where the connection is not connected. -/
structure Attended (c : TcpConnection) : Prop where
  mask : c.channel_.events_ = c.wanted
  interest : c.poller.interest c.channel_.fd_ = none ∨
    c.poller.interest c.channel_.fd_ = some ⟨c.wanted, ()⟩
  connected : c.state_ = .kConnected → c.poller.interest c.channel_.fd_ = some ⟨c.wanted, ()⟩

variable {c : TcpConnection}

/-- Between establishment and disconnection: reading, and writing while something is
buffered. -/
theorem wanted_of_ne (hs : c.state_ ≠ .kConnecting) (hs' : c.state_ ≠ .kDisconnected) :
    c.wanted =
      Channel.kReadEvent ||| if c.outputBuffer_.content = [] then 0 else Channel.kWriteEvent := by
  unfold wanted
  cases h : c.state_ with
  | kConnecting => exact absurd h hs
  | kDisconnected => exact absurd h hs'
  | kConnected | kDisconnecting => rfl

/-- A connected channel waits for something. -/
theorem wanted_ne_zero (hs : c.state_ = .kConnected) : c.wanted ≠ 0 := by
  rw [wanted, hs]
  split_ifs <;> decide

/-- What is wanted depends on the state and on `outputBuffer_` alone. -/
theorem wanted_congr {c' : TcpConnection} (hs : c'.state_ = c.state_)
    (hout : c'.outputBuffer_ = c.outputBuffer_) : c'.wanted = c.wanted := by
  unfold wanted
  rw [hs, hout]

/-- A channel with the right mask waits for room exactly while some output is waiting. -/
theorem isWriting_iff_of_mask (h : c.channel_.events_ = c.wanted) (hs : c.state_ ≠ .kConnecting)
    (hs' : c.state_ ≠ .kDisconnected) :
    c.isWriting = true ↔ c.outputBuffer_.content ≠ [] := by
  rw [isWriting, Channel.isWriting, h, wanted_of_ne hs hs']
  split_ifs with hnil
  · exact iff_of_false (by decide) (not_not_intro hnil)
  · exact iff_of_true (by decide) hnil

/-- Otherwise it does not wait. -/
theorem isWriting_of_disconnected (h : c.channel_.events_ = c.wanted)
    (hs : c.state_ = .kDisconnected) : c.isWriting = false := by
  have hzero : c.wanted = 0 := by rw [wanted, hs]
  rw [isWriting, Channel.isWriting, h, hzero]
  decide

/-! ### What the member functions do to the mask -/

/-- The mask is part of what the poller and the channel are. -/
theorem events_of_watch {c' : TcpConnection} (h : c'.watch = c.watch) :
    c'.channel_.events_ = c.channel_.events_ :=
  congrArg (fun w => w.2.events_) h

/-- The mask stays the wanted one through a `sendInLoop`. -/
theorem mask_sendInLoop (h : c.channel_.events_ = c.wanted) (hs : c.state_ ≠ .kConnecting)
    (hs' : c.state_ ≠ .kDisconnected) (data : List UInt8) (r : WriteResult) :
    (c.sendInLoop data r).1.channel_.events_ = (c.sendInLoop data r).1.wanted := by
  have hwatch := c.watch_sendInLoop data r
  have hout := c.outputBuffer_sendInLoop data r
  have hwriting := isWriting_iff_of_mask h hs hs'
  by_cases hrest : (!(c.direct && r.fault)) = true ∧ 0 < data.length - c.nwrote r
  · -- some output is waiting now
    have hne : (c.sendInLoop data r).1.outputBuffer_.content ≠ [] := by
      rw [hout, if_pos hrest, Fifo.content_push]
      intro hnil
      have hdrop := congrArg List.length (List.append_eq_nil_iff.1 hnil).2
      rw [List.length_drop, List.length_nil] at hdrop
      omega
    rw [wanted_of_ne (by rwa [sendInLoop_state_]) (by rwa [sendInLoop_state_]), if_neg hne]
    cases hw : c.isWriting with
    | true =>
        have henables : c.enables data r = false := by
          rw [enables, hw, Bool.not_true, Bool.and_false]
        rw [henables] at hwatch
        rw [events_of_watch hwatch, h, wanted_of_ne hs hs', if_neg (hwriting.1 hw)]
    | false =>
        have henables : c.enables data r = true := by
          rw [enables, hw, hrest.1, decide_eq_true hrest.2]
          rfl
        rw [henables, if_pos rfl] at hwatch
        have hnil : c.outputBuffer_.content = [] := by
          by_contra hne
          rw [hwriting.2 hne] at hw
          cases hw
        rw [events_of_watch hwatch, events_perform]
        show c.channel_.events_ ||| Channel.kWriteEvent = _
        rw [h, wanted_of_ne hs hs', if_pos hnil]
        decide
  · have henables : c.enables data r = false := by
      rw [Bool.eq_false_iff]
      intro h
      simp only [enables, Bool.and_eq_true, decide_eq_true_eq] at h
      exact hrest h.1
    rw [henables] at hwatch
    rw [if_neg hrest] at hout
    rw [events_of_watch hwatch, wanted_congr (sendInLoop_state_ ..) hout, h]

/-- So it does through a `handleWrite`. -/
theorem mask_handleWrite (h : c.channel_.events_ = c.wanted) (hs : c.state_ ≠ .kConnecting)
    (r : WriteResult) : (c.handleWrite r).1.channel_.events_ = (c.handleWrite r).1.wanted := by
  cases hw : c.isWriting with
  | false => rwa [handleWrite_of_not_isWriting hw]
  | true =>
      have hs' : c.state_ ≠ .kDisconnected := fun hs' => by
        rw [isWriting_of_disconnected h hs'] at hw
        cases hw
      have hne := (isWriting_iff_of_mask h hs hs').1 hw
      have hevents : c.channel_.events_ = Channel.kReadEvent ||| Channel.kWriteEvent := by
        rw [h, wanted_of_ne hs hs', if_neg hne]
      rw [wanted_of_ne (by rwa [handleWrite_state_]) (by rwa [handleWrite_state_]), handleWrite,
        if_pos hw]
      split_ifs with hd hnil hnil
      · show ((c.writeFd r).perform .disableWriting).channel_.events_ = _
        rw [events_perform]
        show c.channel_.events_ &&& ~~~Channel.kWriteEvent = _
        rw [hevents]
        decide
      · exact absurd (List.length_eq_zero_iff.1 hd.2) hnil
      · -- nothing was taken, and the buffer was not empty
        have hzero : r.count = 0 := by
          by_contra hpos
          exact hd ⟨Nat.pos_of_ne_zero hpos, List.length_eq_zero_iff.2 hnil⟩
        rw [writeFd, hzero, Fifo.pop_zero] at hnil
        exact absurd hnil hne
      · exact hevents

/-- `connectEstablished` sets the wanted mask. -/
theorem mask_connectEstablished (h : c.channel_.events_ = c.wanted)
    (hs : c.state_ = .kConnecting) (hnil : c.outputBuffer_.content = []) :
    c.connectEstablished.channel_.events_ = c.connectEstablished.wanted := by
  have hwanted : c.wanted = 0 := by rw [wanted, hs]
  have hwanted' : c.connectEstablished.wanted = Channel.kReadEvent := by
    show (Channel.kReadEvent ||| if c.outputBuffer_.content = [] then 0 else _) = _
    rw [if_pos hnil]
    decide
  rw [hwanted', connectEstablished, events_perform]
  show c.channel_.events_ ||| Channel.kReadEvent = Channel.kReadEvent
  rw [h, hwanted]
  decide

/-- After a disconnection nothing is waited for. -/
theorem mask_disconnect (c : TcpConnection) :
    c.disconnect.channel_.events_ = c.disconnect.wanted := by
  rw [disconnect, events_perform]
  rfl

end TcpConnection

variable {LoopId Tid : Type*} {cfg : Threads LoopId Tid}

namespace World

variable {w w' : World LoopId Tid} {a : Label LoopId Tid}

/-! ### What a run keeps -/

/-- What holds along a run in which no `shutdown` stores late. -/
structure Armed (cfg : Threads LoopId Tid) (w : World LoopId Tid) : Prop where
  succession : w.Succession cfg
  mask : w.core.conn.channel_.events_ = w.core.conn.wanted
  blank : w.core.conn.state_ = .kConnecting → w.core.conn.outputBuffer_.content = []
  added : w.core.conn.state_ = .kConnected → w.core.conn.channel_.index_ = kAdded

/-- An armed channel is registered for what the connection wants. -/
theorem Armed.attended (h : w.Armed cfg) : w.core.conn.Attended := by
  have hreg := h.succession.regular.registered.interest_eq
  rw [h.mask] at hreg
  refine ⟨h.mask, ?_, fun hs => ?_⟩
  · rw [hreg]
    split_ifs
    · exact .inr rfl
    · exact .inl rfl
  · rw [hreg, if_pos (h.added hs)]

/-- Before the server has the connection. -/
theorem Armed.init (sockfd : ℤ) (mark : ℕ) (complete high : Bool) :
    (World.init (.ofFd sockfd mark complete high) : World LoopId Tid).Armed cfg where
  succession := .init sockfd mark complete high
  mask := rfl
  blank _ := rfl
  added h := by cases h

variable [DecidableEq LoopId] [DecidableEq Tid]

omit [DecidableEq LoopId] [DecidableEq Tid] in
/-- A call that is not early is under way on a connection that has been established. -/
theorem Armed.ne_connecting (h : w.Armed cfg) {t : Tid} {f : Frame LoopId}
    (hf : f ∈ w.frames t) (hearly : f.early = false) : w.core.conn.state_ ≠ .kConnecting :=
  fun hs => by
    rw [h.succession.regular.establishing.early.frames t f hf hs] at hearly
    cases hearly

/-- **The mask stays right.** -/
theorem Armed.mask_step (h : w.Armed cfg) (hin : w.InTime a)
    (hm : Moves cfg cfg.compared w a w') :
    w'.core.conn.channel_.events_ = w'.core.conn.wanted := by
  rcases conn_of_moves hm with ⟨hconn, -⟩ | ⟨t, o, f, rest, rfl, hstack, hcore, -⟩
  · rw [hconn]
    exact h.mask
  · have hmem : f ∈ w.frames t := hstack ▸ List.mem_cons_self
    have hconn : w'.core.conn = f.acts w.core o := by rw [hcore, Core.conn_frameStep]
    rw [hconn]
    cases f with
    | sendInLoopRest buf len id =>
        exact TcpConnection.mask_sendInLoop h.mask (h.ne_connecting hmem rfl)
          (h.succession.loaded t buf len id hmem) _ _
    | shutdownStore =>
        have hs := h.ne_connecting hmem rfl
        have hs' : w.core.conn.state_ ≠ .kDisconnected := hin (by rw [hstack]; rfl)
        exact h.mask.trans (TcpConnection.wanted_of_ne hs hs')
    | shutdownInLoop =>
        rw [Frame.acts, TcpConnection.events_of_watch (TcpConnection.watch_shutdownInLoop _),
          h.mask]
        refine (TcpConnection.wanted_congr (TcpConnection.shutdownInLoop_state_ _) ?_).symm
        unfold TcpConnection.shutdownInLoop
        split_ifs <;> rfl
    | connectEstablished =>
        have hs := (h.succession.regular.establishing.connecting hmem rfl).1
        exact TcpConnection.mask_connectEstablished h.mask hs (h.blank hs)
    | connectDestroyedStore => exact TcpConnection.mask_disconnect _
    | connectDestroyedRemove => exact (TcpConnection.events_perform .remove).trans h.mask
    | handle k =>
        cases k with
        | close => exact TcpConnection.mask_disconnect _
        | write => exact TcpConnection.mask_handleWrite h.mask (h.ne_connecting hmem rfl) o.write
        | error | read => exact h.mask
    | _ => exact h.mask

/-- Nothing is buffered before the connection is established. -/
theorem Armed.blank_step (h : w.Armed cfg) (hm : Moves cfg cfg.compared w a w')
    (hs' : w'.core.conn.state_ = .kConnecting) : w'.core.conn.outputBuffer_.content = [] := by
  have hs := connecting_of_moves hm hs'
  have hnil := h.blank hs
  rcases conn_of_moves hm with ⟨hconn, -⟩ | ⟨t, o, f, rest, rfl, hstack, hcore, -⟩
  · rwa [hconn]
  · have hmem : f ∈ w.frames t := hstack ▸ List.mem_cons_self
    have hearly := h.succession.regular.establishing.early.frames t f hmem hs
    rw [hcore] at hs' ⊢
    rw [Core.conn_frameStep]
    rcases acts_of_early hearly (stores_of_connecting hs') with hconn | hconn
    · rwa [hconn]
    · rwa [hconn]

/-- **A connected connection stays in the poller.** -/
theorem Armed.added_step (h : w.Armed cfg) (hin : w.InTime a)
    (hm : Moves cfg cfg.compared w a w') (hs' : w'.core.conn.state_ = .kConnected) :
    w'.core.conn.channel_.index_ = kAdded := by
  have hregular := h.succession.regular
  have hmask := h.mask_step hin hm
  have hback := hregular.establishing.connected_of_moves hm hs'
  rcases conn_of_moves hm with ⟨hconn, -⟩ | ⟨t, o, f, rest, rfl, hstack, hcore, -⟩
  · rw [hconn] at hs' ⊢
    exact h.added hs'
  · have hmem : f ∈ w.frames t := hstack ▸ List.mem_cons_self
    have hne : w'.core.conn.channel_.events_ ≠ 0 :=
      hmask.trans_ne (TcpConnection.wanted_ne_zero hs')
    rw [hcore] at hs' hne ⊢
    rw [Core.index_frameStep]
    cases hop : f.op w.core o with
    | none =>
        refine h.added (hback.resolve_right fun hs => ?_)
        obtain rfl := hregular.establishing.eq_of_leaves hmem hs (by rw [hs']; decide)
        cases hop
    | some op =>
        have hop' : op ≠ .remove := by
          rintro rfl
          -- `connectDestroyed` takes the channel out after it has stored `kDisconnected`
          cases Frame.operates_of_op hop with
          | connectDestroyedRemove =>
              rcases hback with hs | hs
              · have hhead := hregular.head_of_mem (h.succession.storing hs t hmem) rfl
                rw [hstack] at hhead
                cases hhead
              · cases h.succession.unrun hs t _ hmem
        rw [TcpConnection.events_of_watch (w.core.watch_of_op_some t o f hop),
          TcpConnection.events_perform] at hne
        exact (hregular.registered.index_perform hop').trans (if_neg fun hzero => hne hzero.2)

omit [DecidableEq LoopId] in
/-- With the comparison `isInLoopThread` answers what its body compares. -/
theorem answered_compared (w : World LoopId Tid) (a : Label LoopId Tid) :
    w.Answered cfg cfg.compared a := by
  cases a with
  | step t o => exact fun _ _ => rfl
  | _ => trivial

/-- **One step.** -/
theorem Armed.step (h : w.Armed cfg) (hin : w.InTime a) (hm : Moves cfg cfg.compared w a w') :
    w'.Armed cfg where
  succession := h.succession.step (answered_compared w a) hm
  mask := h.mask_step hin hm
  blank := h.blank_step hm
  added := h.added_step hin hm

/-- **One step** leaves the connection attended exactly if it is not a late store. -/
theorem Armed.attended_iff (h : w.Armed cfg) (a : Label LoopId Tid) :
    (∀ w' ∈ w.step cfg cfg.compared a, w'.core.conn.Attended) ↔ w.InTime a := by
  constructor
  · intro hatt
    cases a with
    | step t o =>
        intro hhead hs
        obtain ⟨rest, hstack⟩ := List.head?_eq_some_iff.1 hhead
        have hstep : w.step cfg cfg.compared (.step t o) =
            some ({ w with core := { w.core with conn := w.core.conn.setState .kDisconnecting } }
              |>.setStack t (.runInLoop cfg.ioLoop .shutdownInLoop :: rest)) := by
          simp [World.step, hstack, Core.frameStep]
        -- the mask is empty, and `kDisconnecting` asks for more
        have hmask : w.core.conn.channel_.events_ =
            (w.core.conn.setState .kDisconnecting).wanted := (hatt _ hstep).mask
        have hzero : w.core.conn.wanted = 0 := by rw [TcpConnection.wanted, hs]
        rw [h.mask, hzero, TcpConnection.wanted_of_ne (fun h => by cases h) fun h => by cases h]
          at hmask
        split_ifs at hmask <;> exact absurd hmask (by decide)
    | _ => trivial
  · exact fun hin w' hs => (h.step hin (moves_of_step hs)).attended

/-- **The poller watches for what the connection wants.**  In every run of any number of
threads the mask of the channel is right in every state, the kernel is asked for it or for
nothing, and asked for it while the connection is connected, if and only if no `shutdown`
stores `kDisconnecting` after the connection has been disconnected. -/
theorem attended_iff_inTime (cfg : Threads LoopId Tid) (sockfd : ℤ) (mark : ℕ)
    (complete high : Bool) (as : List (Label LoopId Tid)) :
    Along (step cfg cfg.compared)
        (fun w a => ∀ w' ∈ w.step cfg cfg.compared a, w'.core.conn.Attended)
        (init (.ofFd sockfd mark complete high)) as ↔
      Along (step cfg cfg.compared) InTime (init (.ofFd sockfd mark complete high)) as :=
  along_iff_along
    (fun _ a _ h hatt hs => h.step ((h.attended_iff a).1 hatt) (moves_of_step hs))
    (fun _ a h => h.attended_iff a) (Armed.init sockfd mark complete high) as

end World

end MuMuduo
