/-
# Where calls and functors go in a step

A step changes the stack of at most one thread and the queue of at most one loop.
`StackMove` and `LoopMove` say in which ways; from them come the rules by which a
particular frame or functor is followed through a step, forward
(`mem_stacks_of_moves`, `mem_queued_of_moves`) and backward (`of_mem_stacks`,
`of_mem_queued`).
-/

import MuMuduo.Server.Frames

namespace MuMuduo

variable {LoopId Tid : Type*}

/-- The frame may have the frames of other calls above it. -/
def Frame.below : Frame LoopId → Bool
  | .callback | .hold | .functor _ | .handleEvent _ | .handleWriteRest | .removeConnection
  | .connectDestroyedRemove => true
  | _ => false

/-- The frame belongs to a call that user code can make. -/
def Frame.called : Frame LoopId → Bool
  | .hold | .wakeup _ | .send _ _ | .shutdown | .runInLoop _ .connectDestroyed
  | .runInLoop _ (.user _) | .queueInLoop _ (.user _) => true
  | _ => false

/-- The frame is made by a step of another call only. -/
def Frame.inner : Frame LoopId → Bool
  | .sendConnected .. | .sendInLoopRest .. | .shutdownStore | .connectDestroyedStore
  | .connectDestroyedRemove | .connectionCallback | .handle _ | .handleWriteRest
  | .removeConnection => true
  | _ => false

namespace World

variable [DecidableEq LoopId] [DecidableEq Tid]
variable (cfg : Threads LoopId Tid) (isIn : LoopId → Tid → Bool → Bool)

/-! ### The stacks -/

/-- The frames that are put on a stack from outside. -/
inductive Enters : List (Frame LoopId) → Prop
  | event (revents) : Enters [.handleEvent (handlers revents), .hold]
  | newConnection : Enters [.runInLoop cfg.ioLoop .connectEstablished, .hold]
  | destroyServer : Enters [.runInLoop cfg.ioLoop .connectDestroyed, .hold]
  | send (buf data) : Enters [.send buf data, .hold]
  | shutdown : Enters [.shutdown, .hold]
  | runInLoop (l n) : Enters [.runInLoop l (.user n)]
  | queueInLoop (l n) : Enters [.queueInLoop l (.user n)]
  | quit (l) : Enters [.wakeup l]

/-- A step changes the stack of one thread: a functor is started on an empty one,
a call is made where no other is under way or by user code in a callback, or the
innermost call goes on.  Only that works on the connection. -/
inductive StackMove (w : World LoopId Tid) (a : Label LoopId Tid) (w' : World LoopId Tid) : Prop
  | keep (h : w'.frames = w.frames) (hconn : w'.core.conn = w.core.conn)
  | start {l f} (hstack : w.frames (cfg.threadId_ l) = []) (hf : f ∈ (w.loops l).pc.rest)
      (hq : w.queued l = f :: w'.queued l)
      (h : w'.frames = Function.update w.frames (cfg.threadId_ l) [f.body, .functor f])
      (hconn : w'.core.conn = w.core.conn)
      (hran : w'.core.ran = w.core.ran ++ [(l, f, cfg.threadId_ l)])
      (hpc : (w'.loops l).pc.isDispatch = false)
  | enter {t frames} (hstack : w.frames t = [] ∨ ∃ rest, w.frames t = .callback :: rest)
      (hframes : Enters cfg frames)
      (h : w'.frames = Function.update w.frames t (frames ++ w.frames t))
      (hconn : w'.core.conn = w.core.conn)
      (hcalled : w.frames t = [] ∨ ∀ f ∈ frames, f.called = true)
  | pushed {t l f rest} (hstack : w.frames t = .queueInLoop l f :: rest)
      (h : w'.frames = Function.update w.frames t (.wakeup l :: rest))
      (hpend : (w'.loops l).pendingFunctors_ = (w.loops l).pendingFunctors_ ++ [f])
      (hconn : w'.core.conn = w.core.conn) (hq : w'.queued l = w.queued l ++ [f])
  | turn {t o f rest} (ha : a = .step t o) (hstack : w.frames t = f :: rest)
      (hqueue : ∀ l g, f ≠ .queueInLoop l g)
      (hcore : w'.core = (w.core.frameStep cfg isIn t o f).1)
      (h : w'.frames = Function.update w.frames t ((w.core.frameStep cfg isIn t o f).2 ++ rest))

variable {cfg isIn} {w w' : World LoopId Tid} {a : Label LoopId Tid}

omit [DecidableEq LoopId] [DecidableEq Tid] in
/-- User code runs outside of the calls that are followed, or in a callback. -/
theorem stack_of_userCode {t : Tid} (h : w.userCode cfg t = true) :
    w.frames t = [] ∨ ∃ rest, w.frames t = .callback :: rest := by
  unfold userCode at h
  split at h
  · exact .inl ‹_›
  · exact .inr ⟨_, ‹_›⟩
  · cases h

/-- **Every step moves the stacks in one of these ways.** -/
theorem stackMove_of_moves (hm : Moves cfg isIn w a w') : StackMove cfg isIn w a w' := by
  cases hm with
  | loop | destroyEmpty | wakeup | poke | wakeupCall => exact .keep rfl rfl
  | start hstack _ hpc hpc' hpend =>
      exact .start hstack (by simp [hpc, LoopPc.rest]) (queued_update_start hpc hpc' hpend)
        rfl rfl rfl (by simp [hpc', LoopPc.isDispatch])
  | @event revents _ hstack =>
      exact .enter (.inl hstack) (.event revents) (by simp [hstack]) rfl (.inl hstack)
  | newConnection _ hstack =>
      exact .enter (.inl hstack) .newConnection (by simp [hstack]) rfl (.inl hstack)
  | destroyServer _ huser =>
      exact .enter (stack_of_userCode huser) .destroyServer rfl rfl (.inr (by simp [Frame.called]))
  | @call t c frames huser hc =>
      have hst := stack_of_userCode huser
      cases c with
      | send buf =>
          obtain ⟨data, -, rfl⟩ := Option.map_eq_some_iff.1 hc
          exact .enter hst (.send buf data) rfl rfl (.inr (by simp [Frame.called]))
      | shutdown =>
          obtain rfl := Option.some.inj hc
          exact .enter hst .shutdown rfl rfl (.inr (by simp [Frame.called]))
      | runInLoop l n =>
          obtain rfl := Option.some.inj hc
          exact .enter hst (.runInLoop l n) rfl rfl (.inr (by simp [Frame.called]))
      | queueInLoop l n =>
          obtain rfl := Option.some.inj hc
          exact .enter hst (.queueInLoop l n) rfl rfl (.inr (by simp [Frame.called]))
  | quit huser =>
      exact .enter (stack_of_userCode huser) (.quit _) rfl rfl (.inr (by simp [Frame.called]))
  | queueInLoop hstack _ hpc hpend =>
      exact .pushed hstack rfl (by simpa using hpend) rfl (queued_update_push hpc hpend)
  | wakeupReturn hstack => exact .turn rfl hstack (by simp) rfl rfl
  | frame hstack hqueue => exact .turn rfl hstack hqueue rfl rfl

/-- **A property of stacks.**  If every stack that a step can make of one with the
property has it again, all stacks keep it. -/
theorem forall_stacks_of_moves {S : Tid → List (Frame LoopId) → Prop}
    (h : ∀ t, S t (w.frames t)) (hm : Moves cfg isIn w a w')
    (hstart : ∀ l, ∀ f ∈ (w.loops l).pc.rest, S (cfg.threadId_ l) [f.body, .functor f])
    (henter : ∀ t frames, w.frames t = [] ∨ (∃ rest, w.frames t = .callback :: rest) →
      Enters cfg frames → (w.frames t = [] ∨ ∀ f ∈ frames, f.called = true) →
      S t (w.frames t) → S t (frames ++ w.frames t))
    (hpushed : ∀ t l f rest, S t (.queueInLoop l f :: rest) → S t (.wakeup l :: rest))
    (hturn : ∀ t o f rest, a = .step t o → w.frames t = f :: rest →
      w'.core = (w.core.frameStep cfg isIn t o f).1 → S t (f :: rest) →
      S t ((w.core.frameStep cfg isIn t o f).2 ++ rest))
    (t : Tid) : S t (w'.frames t) := by
  have hupdate {u : Tid} {st : List (Frame LoopId)} (hst : S u st)
      (hw : w'.frames = Function.update w.frames u st) : S t (w'.frames t) := by
    rw [hw]
    by_cases htu : t = u
    · subst htu
      rwa [Function.update_self]
    · rw [Function.update_of_ne htu]
      exact h t
  rcases stackMove_of_moves hm with hw | @⟨l, f, -, hf, -, hw⟩ |
    ⟨hstack, hframes, hw, -, hcalled⟩ | @⟨u, l, f, rest, hstack, hw, -⟩ |
    @⟨u, o, f, rest, ha, hstack, -, hcore, hw⟩
  · rw [hw]
    exact h t
  · exact hupdate (hstart l f hf) hw
  · exact hupdate (henter _ _ hstack hframes hcalled (h _)) hw
  · exact hupdate (hpushed u l f rest (hstack ▸ h u)) hw
  · exact hupdate (hturn u o f rest ha hstack hcore (hstack ▸ h u)) hw

/-- **A call stays under way** until its own thread takes its next step: then its
functor has been pushed, or other frames have taken its place. -/
theorem mem_stacks_of_moves (hm : Moves cfg isIn w a w') {t : Tid} {f : Frame LoopId}
    (hf : f ∈ w.frames t) :
    f ∈ w'.frames t ∨
      (∃ l g, f = .queueInLoop l g ∧
        (w'.loops l).pendingFunctors_ = (w.loops l).pendingFunctors_ ++ [g] ∧
        w'.queued l = w.queued l ++ [g]) ∨
      ∃ o, (∀ l g, f ≠ .queueInLoop l g) ∧ w'.core = (w.core.frameStep cfg isIn t o f).1 ∧
        (∀ g ∈ (w.core.frameStep cfg isIn t o f).2, g ∈ w'.frames t) ∧
        a = .step t o ∧ (w.frames t).head? = some f := by
  have hother {u : Tid} {st : List (Frame LoopId)} (hut : t ≠ u)
      (hw : w'.frames = Function.update w.frames u st) : f ∈ w'.frames t := by
    rw [hw, Function.update_of_ne hut]
    exact hf
  rcases stackMove_of_moves hm with hw | @⟨l, g, hstack, -, -, hw⟩ | @⟨u, frames, -, -, hw⟩ |
    @⟨u, l, g, rest, hstack, hw, hpend, -, hq⟩ | @⟨u, o, g, rest, ha, hstack, hqueue, hcore, hw⟩
  · exact .inl (hw ▸ hf)
  · refine .inl (hother ?_ hw)
    rintro rfl
    rw [hstack] at hf
    cases hf
  · by_cases htu : t = u
    · subst htu
      rw [hw, Function.update_self]
      exact .inl (List.mem_append_right _ hf)
    · exact .inl (hother htu hw)
  · by_cases htu : t = u
    · subst htu
      rw [hstack] at hf
      rcases List.mem_cons.1 hf with rfl | hf
      · exact .inr (.inl ⟨l, g, rfl, hpend, hq⟩)
      · rw [hw, Function.update_self]
        exact .inl (List.mem_cons_of_mem _ hf)
    · exact .inl (hother htu hw)
  · by_cases htu : t = u
    · subst htu
      rw [hw, Function.update_self]
      rw [hstack] at hf
      rcases List.mem_cons.1 hf with rfl | hf
      · exact .inr (.inr ⟨o, hqueue, hcore, fun h hh => List.mem_append_left _ hh, ha,
          by rw [hstack]; rfl⟩)
      · exact .inl (List.mem_append_right _ hf)
    · exact .inl (hother htu hw)

/-- **Where a frame comes from**: it was there, it is the call of a functor of a
batch, it was put on the stack from outside, it is what is left of a push, or it
has taken the place of the frame that its thread stepped on. -/
theorem of_mem_stacks (hm : Moves cfg isIn w a w') {t : Tid} {f : Frame LoopId}
    (hf : f ∈ w'.frames t) :
    f ∈ w.frames t ∨
      (∃ l g, t = cfg.threadId_ l ∧ w.frames t = [] ∧ g ∈ (w.loops l).pc.rest ∧
        w.queued l = g :: w'.queued l ∧ (f = g.body ∨ f = .functor g)) ∨
      (∃ frames, Enters cfg frames ∧ f ∈ frames) ∨ (∃ l, f = .wakeup l) ∨
      ∃ o g rest, a = .step t o ∧ w.frames t = g :: rest ∧
        w'.core = (w.core.frameStep cfg isIn t o g).1 ∧
        f ∈ (w.core.frameStep cfg isIn t o g).2 := by
  have hother {u : Tid} {st : List (Frame LoopId)} (hut : t ≠ u)
      (hw : w'.frames = Function.update w.frames u st) : f ∈ w.frames t := by
    rwa [hw, Function.update_of_ne hut] at hf
  have hself {st : List (Frame LoopId)} (hw : w'.frames = Function.update w.frames t st) :
      f ∈ st := by
    rwa [hw, Function.update_self] at hf
  rcases stackMove_of_moves hm with hw | @⟨l, g, hstack, hg, hq, hw⟩ |
    @⟨u, frames, -, hframes, hw⟩ | @⟨u, l, g, rest, hstack, hw, -⟩ |
    @⟨u, o, g, rest, ha, hstack, -, hcore, hw⟩
  · exact .inl (hw ▸ hf)
  · by_cases htu : t = cfg.threadId_ l
    · subst htu
      exact .inr (.inl ⟨l, g, rfl, hstack, hg, hq, List.mem_pair.1 (hself hw)⟩)
    · exact .inl (hother htu hw)
  · by_cases htu : t = u
    · subst htu
      rcases List.mem_append.1 (hself hw) with hf | hf
      · exact .inr (.inr (.inl ⟨frames, hframes, hf⟩))
      · exact .inl hf
    · exact .inl (hother htu hw)
  · by_cases htu : t = u
    · subst htu
      rcases List.mem_cons.1 (hself hw) with hf | hf
      · exact .inr (.inr (.inr (.inl ⟨l, hf⟩)))
      · exact .inl (hstack ▸ List.mem_cons_of_mem _ hf)
    · exact .inl (hother htu hw)
  · by_cases htu : t = u
    · subst htu
      rcases List.mem_append.1 (hself hw) with hf | hf
      · exact .inr (.inr (.inr (.inr ⟨o, g, rest, ha, hstack, hcore, hf⟩)))
      · exact .inl (hstack ▸ List.mem_cons_of_mem _ hf)
    · exact .inl (hother htu hw)

/-- The case of a frame in the middle of a call. -/
theorem of_mem_stacks_inner (hm : Moves cfg isIn w a w') {t : Tid} {f : Frame LoopId}
    (hf : f ∈ w'.frames t) (hinner : f.inner = true) :
    f ∈ w.frames t ∨ ∃ o g rest, a = .step t o ∧ w.frames t = g :: rest ∧
      w'.core = (w.core.frameStep cfg isIn t o g).1 ∧
      f ∈ (w.core.frameStep cfg isIn t o g).2 := by
  rcases of_mem_stacks hm hf with hold | ⟨l, g, -, -, -, -, rfl | rfl⟩ |
    ⟨frames, hframes, hmem⟩ | ⟨l, rfl⟩ | hnew
  · exact .inl hold
  · cases g <;> cases hinner
  · cases hinner
  · cases hframes <;> simp only [List.mem_cons, List.not_mem_nil, or_false] at hmem
    all_goals rcases hmem with rfl | rfl <;> cases hinner
  · cases hinner
  · exact .inr hnew

/-- **A functor that is running was waiting in the batch of its loop**, which is
past its dispatch and has recorded the call, or was running before. -/
theorem functor_of_moves (hm : Moves cfg isIn w a w') {t : Tid} {g : Functor}
    (hg : .functor g ∈ w'.frames t) :
    .functor g ∈ w.frames t ∨ ∃ l, t = cfg.threadId_ l ∧ g ∈ (w.loops l).pc.rest ∧
      (l, g, t) ∈ w'.core.ran ∧ (w'.loops l).pc.isDispatch = false := by
  have hupdate {u : Tid} {st : List (Frame LoopId)}
      (hw : w'.frames = Function.update w.frames u st) :
      .functor g ∈ w.frames t ∨ t = u ∧ .functor g ∈ st := by
    by_cases ht : t = u
    · subst ht
      rw [hw, Function.update_self] at hg
      exact .inr ⟨rfl, hg⟩
    · rw [hw, Function.update_of_ne ht] at hg
      exact .inl hg
  rcases stackMove_of_moves hm with ⟨hw, -⟩ | @⟨l, f, -, hf, -, hw, -, hran, hpc⟩ |
    @⟨u, frames, -, hframes, hw, -⟩ | @⟨u, l, f, rest, hstack, hw, -⟩ |
    @⟨u, o, f, rest, -, hstack, -, -, hw⟩
  · exact .inl (hw ▸ hg)
  · rcases hupdate hw with hold | ⟨rfl, hnew⟩
    · exact .inl hold
    · have hgf : g = f := by cases f <;> simpa [Functor.body] using hnew
      subst hgf
      exact .inr ⟨l, rfl, hf, by simp [hran], hpc⟩
  · rcases hupdate hw with hold | ⟨rfl, hnew⟩
    · exact .inl hold
    · have hframes : .functor g ∉ frames := by cases hframes <;> simp
      exact .inl ((List.mem_append.1 hnew).resolve_left hframes)
  · rcases hupdate hw with hold | ⟨rfl, hnew⟩
    · exact .inl hold
    · rw [hstack]
      exact .inl (List.mem_cons_of_mem _ (by simpa using hnew))
  · rcases hupdate hw with hold | ⟨rfl, hnew⟩
    · exact .inl hold
    · rcases List.mem_append.1 hnew with hnew | hrest
      · -- no step of a call starts a functor of a batch
        generalize hfg : Frame.functor g = f' at hnew
        cases Core.next_of_mem hnew with
        | @runDirect _ k => cases k <;> cases hfg
        | _ => cases hfg
      · rw [hstack]
        exact .inl (List.mem_cons_of_mem _ hrest)

/-- What has been run stays recorded. -/
theorem ran_of_moves (hm : Moves cfg isIn w a w') {e : LoopId × Functor × Tid}
    (he : e ∈ w.core.ran) : e ∈ w'.core.ran := by
  cases hm with
  | start => exact List.mem_append_left _ he
  | @frame t o f =>
      show e ∈ (w.core.frameStep cfg isIn t o f).1.ran
      rw [Core.ran_frameStep]
      exact List.mem_append_left _ he
  | _ => exact he

/-! ### The innermost call -/

omit [DecidableEq LoopId] [DecidableEq Tid] in
/-- Of the frames that a call leads to, all but the innermost may have others above. -/
theorem below_frameStep (c : Core LoopId Tid) (t : Tid) (o : Oracle) (f : Frame LoopId) :
    ∀ g ∈ (c.frameStep cfg isIn t o f).2.tail, g.below = true := by
  cases f with
  | sendInLoopRest buf len id =>
      simp only [Core.frameStep]
      cases (c.conn.sendInLoop (c.bytesAt buf len o.garbage) o.write).2 <;> simp
  | handleEvent todo => cases todo <;> simp [Core.frameStep, Frame.below]
  | handle h =>
      cases h with
      | read => cases hr : o.read <;> simp [Core.frameStep, hr]
      | close | error => simp [Core.frameStep, Frame.below]
      | write =>
          simp only [Core.frameStep]
          split_ifs <;> simp [Frame.below]
  | _ =>
      simp only [Core.frameStep]
      try split_ifs
      all_goals simp [Frame.below]

/-- **A call in the middle of its own steps is the innermost.** -/
theorem below_of_moves (h : ∀ t, ∀ f ∈ (w.frames t).tail, f.below = true)
    (hm : Moves cfg isIn w a w') (t : Tid) : ∀ f ∈ (w'.frames t).tail, f.below = true := by
  refine forall_stacks_of_moves (S := fun _ st => ∀ f ∈ st.tail, f.below = true) h hm ?_ ?_ ?_ ?_ t
  · intro l f _ g hg
    obtain rfl : g = .functor f := by simpa using hg
    rfl
  · intro u frames hst hframes _ hs g hg
    have hrest : ∀ g ∈ w.frames u, g.below = true := by
      rcases hst with hst | ⟨rest, hst⟩ <;> rw [hst] at hs ⊢
      · simp
      · exact List.forall_mem_cons.2 ⟨rfl, hs⟩
    cases hframes with
    | runInLoop | queueInLoop | quit => exact hrest g hg
    | event | newConnection | destroyServer | send | shutdown =>
        rcases List.mem_cons.1 hg with rfl | hg
        · rfl
        · exact hrest g hg
  · exact fun _ _ _ _ hs => hs
  · intro u o f rest _ _ _ hs g hg
    cases hnew : (w.core.frameStep cfg isIn u o f).2 with
    | nil =>
        rw [hnew] at hg
        exact hs g (List.mem_of_mem_tail hg)
    | cons k frames =>
        have hframes : ∀ g ∈ (w.core.frameStep cfg isIn u o f).2.tail, g.below = true :=
          below_frameStep w.core u o f
        rw [hnew] at hg hframes
        rcases List.mem_append.1 hg with hg | hg
        · exact hframes g hg
        · exact hs g hg

/-! ### The queues -/

/-- **A functor stays in its queue** until the loop starts it. -/
theorem mem_queued_of_moves (hm : Moves cfg isIn w a w') {l : LoopId} {f : Functor}
    (hf : f ∈ w.queued l) :
    f ∈ w'.queued l ∨ w'.frames (cfg.threadId_ l) = [f.body, .functor f] := by
  rcases queued_of_moves hm with ⟨k, g, hstart, hother, hrun⟩ | ⟨_, k, g, _, -, hpush, hother⟩ |
    hsame
  · by_cases hk : l = k
    · subst hk
      rw [hstart] at hf
      rcases List.mem_cons.1 hf with rfl | hf
      · exact .inr hrun
      · exact .inl hf
    · exact .inl (hother l hk ▸ hf)
  · by_cases hk : l = k
    · subst hk
      exact .inl (hpush ▸ List.mem_append_left _ hf)
    · exact .inl (hother l hk ▸ hf)
  · exact .inl (hsame ▸ hf)

/-- **Where a waiting functor comes from**: it was waiting, or it has been
pushed. -/
theorem of_mem_queued (hm : Moves cfg isIn w a w') {l : LoopId} {f : Functor}
    (hf : f ∈ w'.queued l) :
    f ∈ w.queued l ∨ ∃ t o rest, a = .step t o ∧ w.frames t = .queueInLoop l f :: rest ∧
      w'.core = w.core := by
  cases hm with
  | @start k _ _ g _ _ _ _ hpc hpc' hpend =>
      by_cases hk : l = k
      · subst hk
        rw [queued_update_start hpc hpc' hpend]
        exact .inl (List.mem_cons_of_mem g hf)
      · exact .inl (by rwa [queued_update_of_ne hk] at hf)
  | @queueInLoop t o k g rest _ hstack _ hpc hpend =>
      by_cases hk : l = k
      · subst hk
        rw [queued_update_push hpc hpend] at hf
        rcases List.mem_append.1 hf with hf | hf
        · exact .inl hf
        · obtain rfl := List.mem_singleton.1 hf
          exact .inr ⟨t, o, rest, rfl, hstack, rfl⟩
      · exact .inl (by rwa [queued_update_of_ne hk] at hf)
  | loop _ _ hs ha => exact .inl (by rwa [queued_update_same (queued_of_internal hs ha)] at hf)
  | quit _ _ hq | wakeup _ hq | wakeupCall _ _ hq =>
      exact .inl (by rwa [queued_update_quiet hq] at hf)
  | event | newConnection | destroyServer | destroyEmpty | call | poke | wakeupReturn | frame =>
      exact .inl hf

/-- What a step does to the queue and the batch of the loop `l`: nothing, but that
it may start a functor of the batch; the queue becomes the batch; the loop goes on
between two batches; or a functor is pushed. -/
inductive LoopMove (cfg : Threads LoopId Tid) (w : World LoopId Tid) (a : Label LoopId Tid)
    (w' : World LoopId Tid) (l : LoopId) : Prop
  | keep (hpend : (w'.loops l).pendingFunctors_ = (w.loops l).pendingFunctors_)
      (hbatch : (w'.loops l).pc.batch = (w.loops l).pc.batch)
      (hrest : (w'.loops l).pc.rest ⊆ (w.loops l).pc.rest)
  | swap (hstacks : w'.frames = w.frames) (hstack : w.frames (cfg.threadId_ l) = [])
      (hrest : (w.loops l).pc.rest = [])
      (hpend : (w'.loops l).pendingFunctors_ = [])
      (hpc : (w'.loops l).pc = .run [] (w.loops l).pendingFunctors_)
      (ha : ∃ reported, a = .loop l .swap reported)
  | idle (hstacks : w'.frames = w.frames) (hstack : w.frames (cfg.threadId_ l) = [])
      (hrest : (w.loops l).pc.rest = []) (hrest' : (w'.loops l).pc.rest = [])
      (hpend : (w'.loops l).pendingFunctors_ = (w.loops l).pendingFunctors_)
  | push {t f rest} (hstack : w.frames t = .queueInLoop l f :: rest) (hcore : w'.core = w.core)
      (ha : ∃ o, a = .step t o)
      (hpc : (w'.loops l).pc = (w.loops l).pc)
      (hpend : (w'.loops l).pendingFunctors_ = (w.loops l).pendingFunctors_ ++ [f])

/-- **Every step moves a queue in one of these ways.** -/
theorem loopMove_of_moves (hm : Moves cfg isIn w a w') (l : LoopId) : LoopMove cfg w a w' l := by
  have hkeep (h : w'.loops l = w.loops l) : LoopMove cfg w a w' l :=
    .keep (by rw [h]) (by rw [h]) (by rw [h]; exact List.Subset.refl _)
  have hquiet (h : EventLoop.Quiet (w.loops l) (w'.loops l)) : LoopMove cfg w a w' l := by
    obtain ⟨-, -, hpend, hpc⟩ := h
    exact .keep hpend (by rw [hpc]) (by rw [hpc]; exact List.Subset.refl _)
  have hother {k : LoopId} {s : EventLoop Functor Tid} (hk : l ≠ k)
      (hw : w'.loops = Function.update w.loops k s) : LoopMove cfg w a w' l :=
    hkeep (by rw [hw, Function.update_of_ne hk])
  cases hm with
  | event | newConnection | destroyServer | destroyEmpty | call | poke | wakeupReturn | frame =>
      exact hkeep rfl
  | @loop k b _ s hstack _ hs ha =>
      by_cases hk : l = k
      · subst hk
        rcases EventLoop.internal_queue hs with ⟨rfl, hpc, hpc', hpend, -⟩ | ⟨_, _, _, hb, -⟩ |
          ⟨-, -, -, hpend, hpc | ⟨hrest, hrest', -⟩⟩
        · exact .swap rfl hstack (by rw [hpc]; rfl) (by simpa using hpend) (by simpa using hpc')
            ⟨_, rfl⟩
        · exact absurd hb ha
        · exact .keep (by simpa using hpend) (by simp [hpc]) (by simp [hpc])
        · exact .idle rfl hstack hrest (by simpa using hrest') (by simpa using hpend)
      · exact hother hk rfl
  | @start k _ _ f rest s _ _ hpc hpc' hpend =>
      by_cases hk : l = k
      · subst hk
        refine .keep ?_ ?_ ?_
        · simp [hpend]
        · simp [hpc, hpc', LoopPc.batch]
        · simp [hpc, hpc', LoopPc.rest]
      · exact hother hk rfl
  | @quit _ k _ _ _ _ hq | @wakeup _ k _ _ hq | @wakeupCall _ _ k _ _ _ _ hq =>
      by_cases hk : l = k
      · subst hk
        exact hquiet (by simpa using hq)
      · exact hother hk rfl
  | @queueInLoop t o k f rest s hstack _ hpc hpend =>
      by_cases hk : l = k
      · subst hk
        exact .push hstack rfl ⟨o, rfl⟩ (by simpa using hpc) (by simpa using hpend)
      · exact hother hk rfl

/-! ### The dispatch -/

/-- A loop goes on only while its thread is in no call. -/
theorem pc_of_moves (hm : Moves cfg isIn w a w') (l : LoopId) :
    (w'.loops l).pc = (w.loops l).pc ∨ ∃ b reported, a = .loop l b reported ∧
      w.frames (cfg.threadId_ l) = [] ∧ w.dispatches cfg l b reported = true ∧
      (w.loops l).internal (cfg.threadId_ l) b = some (w'.loops l) := by
  have hother {k : LoopId} {s : EventLoop Functor Tid} (hw : w'.loops = Function.update w.loops k s)
      (hs : l = k → s.pc = (w.loops l).pc) : (w'.loops l).pc = (w.loops l).pc := by
    by_cases hk : l = k
    · rw [hw, ← hk, Function.update_self]
      exact hs hk
    · rw [hw, Function.update_of_ne hk]
  cases hm with
  | event | newConnection | destroyServer | destroyEmpty | call | poke | wakeupReturn | frame =>
      exact .inl rfl
  | @loop k b reported s hstack hdisp hs =>
      by_cases hk : l = k
      · subst hk
        exact .inr ⟨b, reported, rfl, hstack, hdisp, by simpa using hs⟩
      · exact .inl (hother rfl fun h => absurd h hk)
  | @start k reported _ f rest s hstack hs =>
      by_cases hk : l = k
      · subst hk
        exact .inr ⟨.start, reported, rfl, hstack, rfl, by simpa using hs⟩
      · exact .inl (hother rfl fun h => absurd h hk)
  | quit _ _ hq | wakeup _ hq | wakeupCall _ _ hq =>
      exact .inl (hother rfl fun h => by subst h; exact hq.2.2.2)
  | queueInLoop _ _ hpc => exact .inl (hother rfl fun h => by subst h; exact hpc)

/-- **Where an active channel comes from**: it was active, or `epoll_wait` has
reported it and the dispatch begins. -/
theorem active_of_moves (hm : Moves cfg isIn w a w') {revents : BitVec 32}
    (hact : w'.core.active = some revents) :
    w.core.active = some revents ∨ ∃ b, a = .loop cfg.ioLoop b (some revents) ∧
      b.isPollReturn = true ∧ w.dispatches cfg cfg.ioLoop b (some revents) = true ∧
      w.frames (cfg.threadId_ cfg.ioLoop) = [] ∧ (w'.loops cfg.ioLoop).pc.isDispatch = true := by
  cases hm with
  | @loop l b reported s hstack hdisp hs _ active hactive =>
      have hset : active = some revents := hact
      rw [hactive] at hset
      split_ifs at hset with hl
      · obtain ⟨rfl, hb⟩ := hl
        refine .inr ⟨b, by rw [hset], hb, hset ▸ hdisp, hstack, ?_⟩
        simpa using EventLoop.isDispatch_of_pollReturn hs hb
      · exact .inl hset
  | event => cases hact
  | @frame t o f => exact .inl ((w.core.active_frameStep t o f).symm.trans hact)
  | _ => exact .inl hact

end World
end MuMuduo
