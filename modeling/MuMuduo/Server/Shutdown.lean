/-
# Graceful shutdown

`shutdown` stores `kDisconnecting` at once and defers `shutdownInLoop`, `send`
defers `sendInLoop`.  The queue of the loop is in order, so the `shutdownInLoop`
of a thread is behind the `sendInLoop` of its own earlier calls (`Behind`), and
the write side is closed when they have been worked on.  Two things break this.
`handleWrite` calls `shutdownInLoop` itself when it has drained `outputBuffer_`
and finds `kDisconnecting`, whatever is still in the queue
(`not_graceful_drained`); and the calls of other threads may be anywhere.  In
every run in which neither meets an outstanding call the thread's data has been
handed to the kernel before the write side is closed, and nothing is written
afterwards (`graceful_of_settled`).
-/

import MuMuduo.Server.Closing
import MuMuduo.Server.Snapshot

namespace MuMuduo

open Foundation

variable {LoopId Tid : Type*}

/-- Once the write side is closed nothing is written, and it was closed when
everything processed had been written, the data of every call of `send` by thread
`t` that found `kConnected` included. -/
def Core.Graceful (c : Core LoopId Tid) (t : Tid) : Prop :=
  ∀ before b after, c.conn.fd = before ++ .shutdownWrite b :: after →
    (∀ e ∈ after, e.isShutdown = true) ∧
      written before = (c.processed.map Prod.snd).flatten ∧
      ∀ id data, c.sends[id]? = some (t, data) → (id, data) ∈ c.processed

namespace World

/-- The write side has been closed. -/
def Closed (w : World LoopId Tid) : Prop := ∃ e ∈ w.core.conn.fd, e.isShutdown = true

/-- A call of `send` by thread `t` is outstanding. -/
def Sending (w : World LoopId Tid) (t : Tid) : Prop :=
  ∃ id, w.core.SentBy id t ∧ w.Outstanding id

/-- The run is one of a thread `t` that shuts the connection down: no other thread
calls `shutdown`, the peer does not close, the server is not destroyed, and no
write fails with `EPIPE` or `ECONNRESET` before the write side is closed. -/
def Peaceful (t : Tid) (w : World LoopId Tid) : Label LoopId Tid → Prop
  | .call u .shutdown => u = t
  | .event => .close ∉ (w.core.active.map handlers).getD []
  | .destroyServer => False
  | .step u o => ((w.frames u).head? = some (.handle .read) → o.read ≠ .closed) ∧
      (o.write.fault = true → w.Closed)
  | _ => True

/-- When `shutdownInLoop` is about to close the write side no call of `send` by
another thread is outstanding, and when `handleWrite` is about to call it none by
the thread that shuts down. -/
def Settled (t : Tid) (w : World LoopId Tid) : Label LoopId Tid → Prop
  | .step u _ =>
      ((w.frames u).head? = some .shutdownInLoop → w.core.conn.isWriting = false →
        ∀ v, w.Sending v → v = t) ∧
      ((w.frames u).head? = some .handleWriteRest → w.core.conn.state_ = .kDisconnecting →
        ¬w.Sending t)
  | _ => True

/-- The state of a run in which thread `t` shuts the connection down. -/
structure Quitting (cfg : Threads LoopId Tid) (t : Tid) (w : World LoopId Tid) : Prop where
  threads : w.OnThreads cfg
  establishing : w.Establishing
  snapshots : w.Snapshots
  below : ∀ u, ∀ f ∈ (w.frames u).tail, f.below = true
  orderly : Holds (fun c u f => f.Orderly cfg t c u) (fun c l f => f.Orderly cfg t c l) w
  accounted : w.Accounted
  recorded : w.core.Recorded
  streams : w.core.conn.Streams
  up : w.core.conn.state_ ≠ .kDisconnected
  /-- The `sendInLoop` behind a `shutdownInLoop` are those of other threads. -/
  behind : ∀ before after, w.queued cfg.ioLoop = before ++ .shutdownInLoop :: after →
    ∀ f ∈ after, ∀ id, f.sendId = some id → ¬w.core.SentBy id t
  /-- Thread `t` is in no `send` once its `shutdownInLoop` is in the queue. -/
  caller : .shutdownInLoop ∈ w.queued cfg.ioLoop → ∀ f ∈ w.frames t, f.sendId = none
  running : ∀ u, .shutdownInLoop ∈ w.frames u → ¬w.Sending t
  closed : w.Closed → (∀ id, ¬w.Outstanding id) ∧ w.core.conn.isWriting = false ∧
    w.core.conn.state_ = .kDisconnecting
  sealed : w.core.conn.fd.Pairwise fun e e' => e.isShutdown = true → e'.isShutdown = true

variable {cfg : Threads LoopId Tid} {t : Tid} {w w' : World LoopId Tid} {a : Label LoopId Tid}

/-- Everything outstanding has been sent by a thread. -/
theorem Snapshots.sentBy (h : w.Snapshots) {id : ℕ} (ho : w.Outstanding id) :
    ∃ u, w.core.SentBy id u := by
  have hintact {buf len : ℕ} (h : w.core.Intact buf len id) : ∃ u, w.core.SentBy id u := by
    obtain ⟨u, data, hid, -, -⟩ := h
    exact ⟨u, by simp [Core.SentBy, hid]⟩
  have hfunctor {f : Functor} (h : f.Intact w.core) (hid : f.sendId = some id) :
      ∃ u, w.core.SentBy id u := by
    cases f with
    | sendInLoop =>
        obtain rfl := Option.some.inj hid
        exact hintact h
    | _ => cases hid
  rcases ho with ⟨u, f, hf, hid⟩ | ⟨l, f, hf, hid⟩
  · have hint := h.intact.frames u f hf
    cases f with
    | sendConnected | sendInLoop | sendInLoopRest =>
        obtain rfl := Option.some.inj hid
        exact hintact hint
    | runInLoop | queueInLoop => exact hfunctor hint hid
    | _ => cases hid
  · exact hfunctor (h.intact.functors l f hf) hid

variable [DecidableEq Tid]

/-- The innermost call keeps the calls of `send` and the state `kDisconnecting`. -/
theorem Quitting.goes_frameStep (h : w.Quitting cfg t) {u : Tid} {f : Frame LoopId}
    (hf : f ∈ w.frames u) (o : Oracle) :
    w.core.Goes (w.core.frameStep cfg cfg.compared u o f).1 := by
  refine ⟨w.core.sends_prefix_frameStep u o f, fun hs => ?_⟩
  rw [Core.state_frameStep]
  cases hst : f.stores with
  | none => exact hs
  | some state =>
      rcases stores_of_orderly (h.orderly.frames u f hf) hst with rfl | rfl
      · exact absurd (h.establishing.connecting hf rfl).1 (by simp [hs])
      · rfl

variable [DecidableEq LoopId]

/-- The connection goes on. -/
theorem Quitting.goes (h : w.Quitting cfg t) (hm : Moves cfg cfg.compared w a w') :
    w.core.Goes w'.core := by
  cases hm with
  | frame hstack => exact h.goes_frameStep (hstack ▸ List.mem_cons_self) _
  | _ => exact ⟨List.prefix_rfl, id⟩

/-- It is not disconnected. -/
theorem Quitting.up_step (h : w.Quitting cfg t) (hm : Moves cfg cfg.compared w a w') :
    w'.core.conn.state_ ≠ .kDisconnected := by
  cases hm with
  | @frame u o f rest hstack =>
      have hf := h.orderly.frames u f (hstack ▸ List.mem_cons_self)
      rw [Core.state_frameStep]
      cases hst : f.stores with
      | none => exact h.up
      | some state =>
          rcases stores_of_orderly hf hst with rfl | rfl
          · obtain rfl := Option.some.inj hst
            simp
          · simp
  | _ => exact h.up

/-- Where the state is not `kConnected`, no thread gets into `send`. -/
theorem Quitting.sending_of_moves (h : w.Quitting cfg t) (hm : Moves cfg cfg.compared w a w')
    (hs : w.core.conn.state_ ≠ .kConnected) {u : Tid} (hu : w'.Sending u) : w.Sending u := by
  obtain ⟨id, hid, ho⟩ := hu
  have ho : w.Outstanding id := (ho.of_moves hm).resolve_right fun hnew => hs hnew.1
  obtain ⟨v, hv⟩ := h.snapshots.sentBy ho
  obtain rfl := (hv.mono (h.goes hm).sends).unique hid
  exact ⟨id, hv, ho⟩

omit [DecidableEq LoopId] [DecidableEq Tid] in
/-- Frames and functors stay as they can be, from step to step. -/
theorem typing_orderly :
    Typing (fun c u f => f.Orderly cfg t c u) (fun c l f => f.Orderly cfg t c l) cfg where
  queueInLoop c u l f h := by
    cases f with
    | sendInLoop => exact ⟨h.1.1, u, h.1.2⟩
    | shutdownInLoop => exact ⟨h.1.1, h.1.2.1 ▸ h.2 rfl, h.1.2.2⟩
    | connectDestroyed | removeConnectionInLoop => exact h.1
    | _ => trivial
  wakeup _ _ _ := trivial
  body c l f h := by
    cases f with
    | sendInLoop => exact congrArg cfg.threadId_ h.1
    | shutdownInLoop => exact ⟨congrArg cfg.threadId_ h.1, h.2.2⟩
    | connectDestroyed | removeConnectionInLoop => exact h.elim
    | _ => trivial
  functor _ _ _ _ := trivial
  hold _ _ := trivial

/-- **One step** keeps them as they can be. -/
theorem Quitting.orderly_step (h : w.Quitting cfg t) (ha : w.Peaceful t a)
    (hm : Moves cfg cfg.compared w a w') :
    Holds (fun c u f => f.Orderly cfg t c u) (fun c l f => f.Orderly cfg t c l) w' := by
  have hgoes := h.goes hm
  refine h.orderly.step typing_orderly ⟨?_, ?_, ?_, ?_, ?_, ?_, ?_, ?_⟩
    ⟨fun u f _ hf => hf.mono hgoes, fun l f _ hf => hf.mono hgoes⟩ hm
  · rintro u o f rest rfl hstack hf g hg
    have hmem : f ∈ w.frames u := hstack ▸ List.mem_cons_self
    refine hf.next (h.threads.frames u f hmem) ?_ (h.goes_frameStep hmem o) hg
    rintro rfl
    exact ha.1 (by rw [hstack]; rfl)
  · rintro revents rfl hactive
    have ha : .close ∉ (w.core.active.map handlers).getD [] := ha
    rw [hactive] at ha
    exact ha
  · exact fun _ => trivial
  · rintro rfl
    exact ha.elim
  · exact fun _ _ _ _ _ => trivial
  · rintro u rfl
    exact ha
  · exact fun _ _ _ => trivial
  · exact fun _ _ _ => ⟨trivial, by rintro ⟨⟩⟩

/-! ### The order of the queue -/

omit [DecidableEq Tid] [DecidableEq LoopId] in
/-- What a thread is about to push. -/
theorem Quitting.pushes (h : w.Quitting cfg t) {u : Tid} {l : LoopId} {f : Functor}
    {rest : List (Frame LoopId)} (hstack : w.frames u = .queueInLoop l f :: rest) :
    f.Handed cfg t w.core u l ∧ (f = .shutdownInLoop → u ≠ cfg.threadId_ cfg.ioLoop) :=
  h.orderly.frames u (.queueInLoop l f) (hstack ▸ List.mem_cons_self)

/-- **The calls of `send` by the thread stay ahead of its `shutdownInLoop`.** -/
theorem Quitting.behind_step (h : w.Quitting cfg t) (hm : Moves cfg cfg.compared w a w') :
    ∀ before after, w'.queued cfg.ioLoop = before ++ .shutdownInLoop :: after →
      ∀ f ∈ after, ∀ id, f.sendId = some id → ¬w'.core.SentBy id t := by
  intro before after hq f hf id hid ht
  -- the call was made by a thread that is not `t`
  have hother {u : Tid} (hu : u ≠ t) (hsent : w.core.SentBy id u) : False :=
    hu ((hsent.mono (h.goes hm).sends).unique ht)
  have hold {before after : List Functor}
      (hq : w.queued cfg.ioLoop = before ++ .shutdownInLoop :: after) (hf : f ∈ after) : False := by
    have ho : w.Outstanding id := .inr ⟨cfg.ioLoop, f, by simp [hq, hf], hid⟩
    obtain ⟨u, hu⟩ := h.snapshots.sentBy ho
    refine hother (fun hut => ?_) hu
    exact h.behind before after hq f hf id hid (hut ▸ hu)
  rcases queued_of_moves hm with ⟨l, g, hl, hk, -⟩ | ⟨u, l, g, rest, hstack, hl, hk⟩ | hsame
  · by_cases hio : cfg.ioLoop = l
    · subst hio
      have hq : w.queued cfg.ioLoop = (g :: before) ++ .shutdownInLoop :: after := by
        rw [hl, hq]
        rfl
      exact hold hq hf
    · exact hold (hk _ hio ▸ hq) hf
  · by_cases hio : cfg.ioLoop = l
    · subst hio
      rw [hl] at hq
      rcases List.eq_nil_or_concat after with rfl | ⟨after, k, rfl⟩
      · cases hf
      · rw [List.concat_eq_append, ← List.cons_append, ← List.append_assoc] at hq
        obtain ⟨hqueue, hgk⟩ := List.append_inj' hq rfl
        obtain rfl := List.singleton_inj.1 hgk
        rw [List.concat_eq_append] at hf
        rcases List.mem_append.1 hf with hf | hf
        · exact hold hqueue hf
        · -- the functor that is pushed belongs to the thread that pushes it
          obtain rfl := List.mem_singleton.1 hf
          have hmem : .queueInLoop cfg.ioLoop f ∈ w.frames u := hstack ▸ List.mem_cons_self
          have hut : u ≠ t := by
            rintro rfl
            have hnone := h.caller (by simp [hqueue]) _ hmem
            exact absurd (hnone.symm.trans hid) (by simp)
          have hpush := (h.pushes hstack).1
          cases f with
          | sendInLoop =>
              obtain rfl := Option.some.inj hid
              exact hother hut hpush.2.2
          | _ => cases hid
    · exact hold (hk _ hio ▸ hq) hf
  · exact hold (hsame ▸ hq) hf

omit [DecidableEq Tid] [DecidableEq LoopId] in
/-- A frame that may have others above it works on no call of `send`. -/
theorem sendId_of_below {f : Frame LoopId} (h : f.below = true) : f.sendId = none := by
  cases f <;> first | rfl | cases h

/-- Once `shutdownInLoop` is queued its caller has no `send` in hand. -/
theorem Quitting.caller_step (h : w.Quitting cfg t) (hm : Moves cfg cfg.compared w a w')
    (hq : .shutdownInLoop ∈ w'.queued cfg.ioLoop) : ∀ f ∈ w'.frames t, f.sendId = none := by
  intro f hf
  by_contra hne
  obtain ⟨id, hid⟩ := Option.ne_none_iff_exists'.1 hne
  -- the functor was in the queue, or it is pushed by the thread itself
  have hcases : (.shutdownInLoop ∈ w.queued cfg.ioLoop) ∨ ∃ o rest, a = .step t o ∧
      w.frames t = .queueInLoop cfg.ioLoop .shutdownInLoop :: rest := by
    rcases of_mem_queued hm hq with hq | ⟨u, o, rest, ha, hstack, -⟩
    · exact .inl hq
    · obtain rfl : u = t := (h.pushes hstack).1.2.1
      exact .inr ⟨o, rest, ha, hstack⟩
  have hfacts : t ≠ cfg.threadId_ cfg.ioLoop ∧ w.core.conn.state_ = .kDisconnecting := by
    rcases hcases with hq | ⟨o, rest, -, hstack⟩
    · exact (h.orderly.functors _ _ hq).2
    · have hpush := h.pushes hstack
      exact ⟨hpush.2 rfl, hpush.1.2.2⟩
  have hstacks : ∀ g ∈ w.frames t, g.sendId = none := by
    rcases hcases with hq | ⟨o, rest, -, hstack⟩
    · exact h.caller hq
    · intro g hg
      rw [hstack] at hg
      rcases List.mem_cons.1 hg with rfl | hg
      · rfl
      · exact sendId_of_below (h.below t g (by rw [hstack]; exact hg))
  rcases of_mem_stacks hm hf with hf | ⟨l, g, ht, -, hg, -, hfg⟩ | ⟨frames, hframes, hf⟩ |
    ⟨l, rfl⟩ | ⟨o, g, rest, -, hstack, -, hf⟩
  · exact hne (hstacks f hf)
  · -- `sendInLoop` is run on the loop's thread
    rcases hfg with rfl | rfl
    · cases g with
      | sendInLoop =>
          have hl := (h.orderly.functors l _ (List.mem_append_left _ hg)).1
          exact hfacts.1 (hl ▸ ht)
      | _ => cases hid
    · cases hid
  · exact hne (sendId_of_enters hframes f hf)
  · cases hid
  · rcases Core.sendId_of_next (Core.next_of_mem hf) hid with hg | ⟨hs, -⟩
    · exact absurd (hg.symm.trans (hstacks g (hstack ▸ List.mem_cons_self))) (by simp)
    · exact absurd (hs.symm.trans hfacts.2) (by simp)

omit [DecidableEq Tid] [DecidableEq LoopId] in
/-- Where a call of `send` by thread `t` can be outstanding: on its own stack, on
that of the loop's thread, or, from another thread than the loop's, in the
queue. -/
theorem Quitting.places (h : w.Quitting cfg t) {id : ℕ} (hid : w.core.SentBy id t)
    (ho : w.Outstanding id) :
    (∃ u, (u = t ∨ u = cfg.threadId_ cfg.ioLoop) ∧ ∃ f ∈ w.frames u, f.sendId = some id) ∨
      t ≠ cfg.threadId_ cfg.ioLoop ∧ ∃ f ∈ w.queued cfg.ioLoop, f.sendId = some id := by
  rcases ho with ⟨u, f, hf, hfid⟩ | ⟨l, f, hf, hfid⟩
  · refine .inl ⟨u, ?_, f, hf, hfid⟩
    have hord := h.orderly.frames u f hf
    have hhanded {l : LoopId} {g : Functor} (hg : g.Handed cfg t w.core u l)
        (hgid : g.sendId = some id) : u = t := by
      cases g with
      | sendInLoop =>
          obtain rfl := Option.some.inj hgid
          exact hg.2.2.unique hid
      | _ => cases hgid
    cases f with
    | sendConnected =>
        obtain rfl := Option.some.inj hfid
        exact .inl (hord.unique hid)
    | sendInLoop | sendInLoopRest => exact .inr hord
    | runInLoop => exact .inl (hhanded hord hfid)
    | queueInLoop => exact .inl (hhanded hord.1 hfid)
    | _ => cases hfid
  · have hord := h.orderly.functors l f hf
    cases f with
    | sendInLoop =>
        obtain rfl := Option.some.inj hfid
        obtain ⟨rfl, u, hu, hsent⟩ := hord
        exact .inr ⟨hsent.unique hid ▸ hu, _, hf, rfl⟩
    | _ => cases hfid

/-- **When `shutdownInLoop` runs, the thread has no outstanding call of `send`.** -/
theorem Quitting.running_step (h : w.Quitting cfg t) (ha : w.Settled t a)
    (hm : Moves cfg cfg.compared w a w') (u : Tid) (hu : .shutdownInLoop ∈ w'.frames u) :
    ¬w'.Sending t := by
  have hback (hs : w.core.conn.state_ = .kDisconnecting) (hnot : ¬w.Sending t) : ¬w'.Sending t :=
    fun hsend => hnot (h.sending_of_moves hm (by simp [hs]) hsend)
  rcases of_mem_stacks hm hu with hu | ⟨l, g, rfl, hempty, hg, hq, hfg⟩ | ⟨frames, hframes, hf⟩ |
    ⟨l, hl⟩ | ⟨o, g, rest, rfl, hstack, -, hf⟩
  · exact hback (h.orderly.frames u _ hu).2 (h.running u hu)
  · -- it is the first of the queue, and the thread's calls would be ahead of it
    obtain rfl : g = .shutdownInLoop := by
      rcases hfg with hfg | hfg
      · cases g <;> first | rfl | cases hfg
      · cases hfg
    obtain ⟨rfl, hio, hs⟩ := h.orderly.functors l _ (List.mem_append_left _ hg)
    refine hback hs ?_
    rintro ⟨id, hid, ho⟩
    rcases h.places hid ho with ⟨v, hv, f, hf, hfid⟩ | ⟨-, f, hf, hfid⟩
    · rcases hv with rfl | rfl
      · have hnone := h.caller (List.mem_append_left _ hg) f hf
        exact absurd (hnone.symm.trans hfid) (by simp)
      · rw [hempty] at hf
        cases hf
    · rw [hq] at hf
      rcases List.mem_cons.1 hf with rfl | hf
      · cases hfid
      · exact h.behind [] _ hq f hf id hfid hid
  · cases hframes <;> simp at hf
  · cases hl
  · have hmem : g ∈ w.frames u := hstack ▸ List.mem_cons_self
    generalize hfg : Frame.shutdownInLoop = f' at hf
    cases Core.next_of_mem hf with
    | @runDirect l k hin =>
        -- the loop's own thread calls it at once, and its calls of `send` are direct as well
        obtain rfl : k = .shutdownInLoop := by cases k <;> first | rfl | cases hfg
        obtain ⟨rfl, rfl, hs⟩ := h.orderly.frames u _ hmem
        have hu : cfg.threadId_ cfg.ioLoop = u := of_decide_eq_true hin
        refine hback hs ?_
        rintro ⟨id, hid, ho⟩
        rcases h.places hid ho with ⟨v, hv, k, hk, hkid⟩ | ⟨hne, -⟩
        · obtain rfl : v = u := by rcases hv with rfl | rfl <;> first | rfl | exact hu
          rw [hstack] at hk
          rcases List.mem_cons.1 hk with rfl | hk
          · cases hkid
          · have hnone := sendId_of_below (h.below v k (by rw [hstack]; exact hk))
            exact absurd (hnone.symm.trans hkid) (by simp)
        · exact hne hu.symm
    | shutdownRest hs => exact hback hs (ha.2 (by rw [hstack]; rfl) hs)
    | _ => cases hfg

/-! ### The end of the stream -/

/-- What a step does to the descriptor: it makes other system calls, or it is a
`shutdownInLoop` that finds the channel not writing. -/
theorem Quitting.fd_of_moves (h : w.Quitting cfg t) (hm : Moves cfg cfg.compared w a w') :
    ∃ more, w'.core.conn.fd = w.core.conn.fd ++ more ∧
      ((∃ e ∈ more, e.isShutdown = true) → ∃ u o, a = .step u o ∧
        (w.frames u).head? = some .shutdownInLoop ∧ w.core.conn.isWriting = false) := by
  have hnone : ∃ more, w.core.conn.fd = w.core.conn.fd ++ more ∧
      ((∃ e ∈ more, e.isShutdown = true) → ∃ u o, a = .step u o ∧
        (w.frames u).head? = some .shutdownInLoop ∧ w.core.conn.isWriting = false) :=
    ⟨[], (List.append_nil _).symm, by simp⟩
  cases hm with
  | @frame u o f rest hstack =>
      have hf := h.orderly.frames u f (hstack ▸ List.mem_cons_self)
      obtain ⟨more, hfd, hmore⟩ := fd_of_orderly (o := o) hf
      refine ⟨more, (congrArg TcpConnection.fd (Core.conn_frameStep ..)).trans hfd, fun he => ?_⟩
      obtain ⟨rfl, hw⟩ := hmore he
      exact ⟨u, o, rfl, by rw [hstack]; rfl, hw⟩
  | _ => exact hnone

/-- While nothing is outstanding and the channel is not writing, the write side is
closed at most. -/
theorem Quitting.sealed_of_moves (h : w.Quitting cfg t) (hm : Moves cfg cfg.compared w a w')
    (hout : ∀ id, ¬w.Outstanding id) (hw : w.core.conn.isWriting = false) :
    w'.core.conn.isWriting = false ∧
      ∃ more, w'.core.conn.fd = w.core.conn.fd ++ more ∧ ∀ e ∈ more, e.isShutdown = true := by
  cases hm with
  | @frame u o f rest hstack =>
      have hmem : f ∈ w.frames u := hstack ▸ List.mem_cons_self
      have hsend : f.sendId = none := by
        by_contra hne
        obtain ⟨id, hid⟩ := Option.ne_none_iff_exists'.1 hne
        exact hout id (.inl ⟨u, f, hmem, hid⟩)
      have hconn : (w.core.frameStep cfg cfg.compared u o f).1.conn = f.acts w.core o :=
        Core.conn_frameStep ..
      show (w.core.frameStep cfg cfg.compared u o f).1.conn.isWriting = false ∧
        ∃ more, (w.core.frameStep cfg cfg.compared u o f).1.conn.fd = _ ∧ _
      rw [hconn]
      exact sealed_of_orderly (h.orderly.frames u f hmem) hw hsend
  | _ => exact ⟨hw, [], (List.append_nil _).symm, by simp⟩

omit [DecidableEq Tid] [DecidableEq LoopId] in
/-- **When the write side is about to be closed nothing is outstanding**: no call
of the thread, whose `shutdownInLoop` is behind them, and none of another. -/
theorem Quitting.not_outstanding (h : w.Quitting cfg t) {u : Tid} {o : Oracle}
    (ha : w.Settled t (.step u o)) (hhead : (w.frames u).head? = some .shutdownInLoop)
    (hw : w.core.conn.isWriting = false) (id : ℕ) : ¬w.Outstanding id := by
  intro ho
  obtain ⟨v, hv⟩ := h.snapshots.sentBy ho
  have hvt : v = t := ha.1 hhead hw v ⟨id, hv, ho⟩
  exact h.running u (List.mem_of_mem_head? hhead) ⟨id, hvt ▸ hv, ho⟩

/-- When the write side is closed no call of `send` is outstanding. -/
theorem Quitting.closed_step (h : w.Quitting cfg t) (ha : w.Settled t a)
    (hm : Moves cfg cfg.compared w a w') (hclosed : w'.Closed) :
    (∀ id, ¬w'.Outstanding id) ∧ w'.core.conn.isWriting = false ∧
      w'.core.conn.state_ = .kDisconnecting := by
  have hkeep (hout : ∀ id, ¬w.Outstanding id) (hw : w.core.conn.isWriting = false)
      (hs : w.core.conn.state_ = .kDisconnecting) :
      (∀ id, ¬w'.Outstanding id) ∧ w'.core.conn.isWriting = false ∧
        w'.core.conn.state_ = .kDisconnecting := by
    refine ⟨fun id ho => ?_, (h.sealed_of_moves hm hout hw).1, (h.goes hm).state hs⟩
    rcases ho.of_moves hm with ho | ⟨hs', -⟩
    · exact hout id ho
    · cases hs.symm.trans hs'
  by_cases hold : w.Closed
  · obtain ⟨hout, hw, hs⟩ := h.closed hold
    exact hkeep hout hw hs
  · -- the write side is closed in this step
    obtain ⟨e, he, hshut⟩ := hclosed
    obtain ⟨more, hfd, hmore⟩ := h.fd_of_moves hm
    rw [hfd] at he
    have he : e ∈ more := (List.mem_append.1 he).resolve_left fun he => hold ⟨e, he, hshut⟩
    obtain ⟨u, o, rfl, hhead, hw⟩ := hmore ⟨e, he, hshut⟩
    exact hkeep (h.not_outstanding ha hhead hw) hw
      (h.orderly.frames u _ (List.mem_of_mem_head? hhead)).2

/-- Once it is closed nothing is written. -/
theorem Quitting.sealed_step (h : w.Quitting cfg t) (ha : w.Settled t a)
    (hm : Moves cfg cfg.compared w a w') :
    w'.core.conn.fd.Pairwise fun e e' => e.isShutdown = true → e'.isShutdown = true := by
  have hkeep (hout : ∀ id, ¬w.Outstanding id) (hw : w.core.conn.isWriting = false) :
      w'.core.conn.fd.Pairwise fun e e' => e.isShutdown = true → e'.isShutdown = true := by
    obtain ⟨-, more, hfd, hmore⟩ := h.sealed_of_moves hm hout hw
    rw [hfd, List.pairwise_append]
    exact ⟨h.sealed, List.pairwise_of_forall_mem_list fun _ _ e he _ => hmore e he,
      fun _ _ e he _ => hmore e he⟩
  obtain ⟨more, hfd, hmore⟩ := h.fd_of_moves hm
  by_cases hshut : ∃ e ∈ more, e.isShutdown = true
  · obtain ⟨u, o, rfl, hhead, hw⟩ := hmore hshut
    exact hkeep (h.not_outstanding ha hhead hw) hw
  · by_cases hclosed : w.Closed
    · exact hkeep (h.closed hclosed).1 (h.closed hclosed).2.1
    · rw [hfd, List.pairwise_append]
      exact ⟨h.sealed,
        List.pairwise_of_forall_mem_list fun e he _ _ hs => absurd ⟨e, he, hs⟩ hshut,
        fun e he _ _ hs => absurd ⟨e, he, hs⟩ hclosed⟩

/-- The bytes stay in order. -/
theorem Quitting.streams_step (h : w.Quitting cfg t) (ha : w.Peaceful t a)
    (hm : Moves cfg cfg.compared w a w') : w'.core.conn.Streams := by
  cases hm with
  | @frame u o f rest hstack =>
      have hmem : f ∈ w.frames u := hstack ▸ List.mem_cons_self
      have hconn : (w.core.frameStep cfg cfg.compared u o f).1.conn = f.acts w.core o :=
        Core.conn_frameStep ..
      show (w.core.frameStep cfg cfg.compared u o f).1.conn.Streams
      rw [hconn]
      refine streams_of_orderly h.streams h.up (h.orderly.frames u f hmem) ?_
      rintro buf len id rfl
      -- nothing is outstanding once the write side is closed
      rw [← Bool.not_eq_true]
      exact fun hfault => (h.closed (ha.2 hfault)).1 id (.inl ⟨u, _, hmem, rfl⟩)
  | _ => exact h.streams

/-! ### Runs -/

/-- **One step.** -/
theorem Quitting.step (h : w.Quitting cfg t) (hp : w.Peaceful t a) (hs : w.Settled t a)
    (hun : w.Unread a) (hm : Moves cfg cfg.compared w a w') : w'.Quitting cfg t where
  threads := h.threads.step hm
  establishing := h.establishing.step hm
  snapshots := h.snapshots.step hun hm
  below := below_of_moves h.below hm
  orderly := h.orderly_step hp hm
  accounted := h.accounted.step h.up hm
  recorded := by
    cases hm with
    | frame => exact h.recorded.frameStep _ _ _
    | _ => exact h.recorded
  streams := h.streams_step hp hm
  up := h.up_step hm
  behind := h.behind_step hm
  caller := h.caller_step hm
  running := h.running_step hs hm
  closed := h.closed_step hs hm
  sealed := h.sealed_step hs hm

omit [DecidableEq Tid] [DecidableEq LoopId] in
/-- Before the server has the connection. -/
theorem Quitting.init (sockfd : ℤ) (mark : ℕ) (complete high : Bool) :
    (World.init (.ofFd sockfd mark complete high) : World LoopId Tid).Quitting cfg t where
  threads := Holds.init _
  establishing := Establishing.init t sockfd mark complete high
  snapshots := ⟨Holds.init _, fun _ _ h => by cases h⟩
  below _ _ h := by cases h
  orderly := Holds.init _
  accounted _ h := absurd h (Nat.not_lt_zero _)
  recorded := rfl
  streams := TcpConnection.Streams.ofFd sockfd mark complete high
  up := by
    show StateE.kConnecting ≠ .kDisconnected
    decide
  behind before after hq := by
    have h : [] = before ++ Functor.shutdownInLoop :: after := hq
    simp at h
  caller h := by cases h
  running _ h := by cases h
  closed h := by
    obtain ⟨_, he, -⟩ := h
    cases he
  sealed := .nil

omit [DecidableEq Tid] [DecidableEq LoopId] in
/-- So the close is graceful. -/
theorem Quitting.graceful (h : w.Quitting cfg t) : w.core.Graceful t := by
  intro before b after hfd
  have hpair := h.sealed
  rw [hfd, List.pairwise_append, List.pairwise_cons] at hpair
  have hafter : ∀ e ∈ after, e.isShutdown = true := fun e he => hpair.2.1.1 e he rfl
  obtain ⟨hout, hw, -⟩ := h.closed ⟨.shutdownWrite b, by simp [hfd], rfl⟩
  refine ⟨hafter, ?_, fun id data hid => ?_⟩
  · have hstream := h.streams.stream
    rw [h.streams.content_of_not_isWriting h.up hw, List.append_nil, h.recorded, hfd,
      List.append_cons, written_append, written_append, written_of_isShutdown hafter] at hstream
    simpa [FdEvent.bytes] using hstream
  · obtain ⟨data', hdone⟩ :=
      (h.accounted id (List.getElem?_eq_some_iff.1 hid).1).resolve_right (hout id)
    obtain ⟨u, hu⟩ := h.snapshots.processed id data' hdone
    obtain ⟨-, rfl⟩ := Prod.mk.inj (Option.some.inj (hid.symm.trans hu))
    exact hdone

/-- **Graceful shutdown loses nothing** in every run of one thread that shuts the
connection down in which `shutdownInLoop` meets no outstanding call of `send`. -/
theorem graceful_of_settled {sockfd : ℤ} {mark : ℕ} {complete high : Bool}
    {as : List (Label LoopId Tid)}
    (hs : exec (World.step cfg cfg.compared) (init (.ofFd sockfd mark complete high)) as = some w)
    (hpeace : Along (World.step cfg cfg.compared) (Peaceful t)
      (init (.ofFd sockfd mark complete high)) as)
    (hun : Along (World.step cfg cfg.compared) Unread (init (.ofFd sockfd mark complete high)) as)
    (hsettled : Along (World.step cfg cfg.compared) (Settled t)
      (init (.ofFd sockfd mark complete high)) as) :
    w.core.Graceful t := by
  have h : w.Quitting cfg t :=
    exec_invariant (fun _ _ _ h ha hs => h.step ha.1 ha.2.2 ha.2.1 (moves_of_step hs))
      (Quitting.init sockfd mark complete high)
      (along_and.2 ⟨hpeace, along_and.2 ⟨hun, hsettled⟩⟩) hs
  exact h.graceful

omit [DecidableEq Tid] [DecidableEq LoopId] in
instance (w : World LoopId Tid) : Decidable w.Closed := by
  unfold Closed
  infer_instance

section Decide

variable [Fintype LoopId] [Fintype Tid]

omit [DecidableEq Tid] [DecidableEq LoopId] in
instance (w : World LoopId Tid) (id : ℕ) : Decidable (w.Outstanding id) := by
  unfold Outstanding
  infer_instance

omit [DecidableEq LoopId] in
instance (w : World LoopId Tid) (t : Tid) : Decidable (w.Sending t) :=
  decidable_of_iff (∃ id < w.core.sends.length,
      (w.core.sends[id]?).map Prod.fst = some t ∧ w.Outstanding id)
    ⟨fun ⟨id, _, hid, ho⟩ => ⟨id, hid, ho⟩, fun ⟨id, hid, ho⟩ => ⟨id, hid.lt, hid, ho⟩⟩

instance (t : Tid) (w : World LoopId Tid) (a : Label LoopId Tid) :
    Decidable (w.Peaceful t a) :=
  match a with
  | .call u .shutdown => inferInstanceAs (Decidable (u = t))
  | .event => by unfold Peaceful; infer_instance
  | .destroyServer => .isFalse not_false
  | .step _ _ => by unfold Peaceful; infer_instance
  | .call _ (.send _) | .call _ (.runInLoop ..) | .call _ (.queueInLoop ..) | .loop ..
  | .newConnection | .quit .. | .wakeup .. | .poke .. => .isTrue trivial

instance (t : Tid) (w : World LoopId Tid) (a : Label LoopId Tid) : Decidable (w.Settled t a) :=
  match a with
  | .step _ _ => by unfold Settled; infer_instance
  | .loop .. | .event | .newConnection | .destroyServer | .call .. | .quit .. | .wakeup ..
  | .poke .. => .isTrue trivial

end Decide

/-- The hypotheses are satisfiable: thread `2` sends and shuts down, and the
sub-loop runs its two functors. -/
theorem graceful_of_settled_sending :
    ∃ w, exec (World.step .duo Threads.duo.compared) fresh
        (opening ++ sending ++ [.call 2 .shutdown] ++ steps 2 7 ++ starting 1 ++ taking 3 ++
          steps 1 5 ++ [.loop true .start none] ++ steps 1 1) = some w ∧
      w.core.conn.fd = [.write [1, 2, 3] [], .shutdownWrite []] ∧ w.core.Graceful 2 := by
  have hs : exec (World.step .duo Threads.duo.compared) fresh
      (opening ++ sending ++ [.call 2 .shutdown] ++ steps 2 7 ++ starting 1 ++ taking 3 ++
        steps 1 5 ++ [.loop true .start none] ++ steps 1 1) = some _ := rfl
  exact ⟨_, hs, by decide +kernel, graceful_of_settled hs (by decide +kernel)
    (by decide +kernel) (by decide +kernel)⟩

/-- **`handleWrite` closes the write side too early.**  It has drained the buffer
and finds `kDisconnecting`, while the `sendInLoop` of thread `2` is still in the
queue. -/
theorem not_graceful_drained :
    Along (World.step .duo Threads.duo.compared) (Peaceful 2) fresh draining ∧
      Along (World.step .duo Threads.duo.compared) Unread fresh draining ∧
      ∃ w, exec (World.step .duo Threads.duo.compared) fresh draining = some w ∧
        ¬w.core.Graceful 2 := by
  refine ⟨by decide +kernel, by decide +kernel, _, rfl, fun h => ?_⟩
  obtain ⟨-, -, hsent⟩ := h [.write [1] [], .writeFd [2, 3] [2, 3]] [] [] rfl
  exact absurd (hsent 1 [1, 2, 3] rfl) (by decide +kernel)

end World

end MuMuduo
