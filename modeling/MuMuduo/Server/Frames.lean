/-
# Properties of the calls under way

Most invariants say something about every frame on a thread's stack and every
functor waiting in a loop's queue.  Such a property is given by `P`, for the
frames, and `Q`, for the functors, each relative to the state of the connection.
`Typing` collects what `P` and `Q` have to satisfy so that a functor keeps the
property on its way through a queue, and `Entry` what a particular step has to
satisfy so that the frames it makes have it; `Holds.step` is the step lemma that
follows, once for all of them.
-/

import MuMuduo.Server.Steps

namespace MuMuduo

variable {LoopId Tid : Type*}

namespace World

/-- The functors of a loop that have not been started, in their order. -/
def queued (w : World LoopId Tid) (l : LoopId) : List Functor :=
  (w.loops l).pc.rest ++ (w.loops l).pendingFunctors_

variable (P : Core LoopId Tid → Tid → Frame LoopId → Prop)
variable (Q : Core LoopId Tid → LoopId → Functor → Prop)

/-- Every frame has property `P` and every waiting functor has property `Q`. -/
structure Holds (w : World LoopId Tid) : Prop where
  frames : ∀ t, ∀ f ∈ w.frames t, P w.core t f
  functors : ∀ l, ∀ f ∈ w.queued l, Q w.core l f

variable [DecidableEq LoopId] [DecidableEq Tid]
variable (cfg : Threads LoopId Tid) (isIn : LoopId → Tid → Bool → Bool)

/-- The properties go from a push to the functor pushed, and from a functor to its
call. -/
structure Typing : Prop where
  queueInLoop : ∀ c t l f, P c t (.queueInLoop l f) → Q c l f
  wakeup : ∀ c t l, P c t (.wakeup l)
  body : ∀ c l f, Q c l f → P c (cfg.threadId_ l) f.body
  functor : ∀ c l f, Q c l f → P c (cfg.threadId_ l) (.functor f)
  hold : ∀ c t, P c t .hold

/-- The frames that the step `a` out of `w` makes have the property: those that
take the place of a frame, and in the state `c` after the step those that are put
on a stack from outside. -/
structure Entry (w : World LoopId Tid) (a : Label LoopId Tid) (c : Core LoopId Tid) : Prop where
  step : ∀ t o f rest, a = .step t o → w.frames t = f :: rest → P w.core t f →
    ∀ f' ∈ (w.core.frameStep cfg isIn t o f).2, P (w.core.frameStep cfg isIn t o f).1 t f'
  event : ∀ revents, a = .event → w.core.active = some revents →
    P c (cfg.threadId_ cfg.ioLoop) (.handleEvent (handlers revents))
  newConnection : w.core.created = false →
    P c (cfg.threadId_ cfg.baseLoop) (.runInLoop cfg.ioLoop .connectEstablished)
  destroyServer : a = .destroyServer → w.core.inMap = true →
    P c (cfg.threadId_ cfg.baseLoop) (.runInLoop cfg.ioLoop .connectDestroyed)
  send : ∀ t buf data, a = .call t (.send buf) → c.heap buf = some data →
    P c t (.send buf data)
  shutdown : ∀ t, a = .call t .shutdown → P c t .shutdown
  runInLoop : ∀ t l n, P c t (.runInLoop l (.user n))
  queueInLoop : ∀ t l n, P c t (.queueInLoop l (.user n))

/-- The frames and functors of `w` that have the property keep it in the state
`c`. -/
def Persists (w : World LoopId Tid) (c : Core LoopId Tid) : Prop :=
  (∀ t, ∀ f ∈ w.frames t, P w.core t f → P c t f) ∧
    ∀ l, ∀ f ∈ w.queued l, Q w.core l f → Q c l f

variable {P Q cfg isIn} {w w' : World LoopId Tid} {a : Label LoopId Tid}

omit [DecidableEq Tid] in
/-- The functors of a loop after a step inside `loop()`. -/
theorem queued_of_internal {s s' : EventLoop Functor Tid} {t : Tid} {b : LoopLabel Functor Tid}
    (hs : s.internal t b = some s') (hb : b ≠ .start) :
    s'.pc.rest ++ s'.pendingFunctors_ = s.pc.rest ++ s.pendingFunctors_ := by
  rcases EventLoop.internal_queue hs with ⟨-, hpc, hpc', hpend, -⟩ | ⟨_, _, _, h, -⟩ |
    ⟨-, -, -, hpend, hpc | ⟨hr, hr', -⟩⟩
  · rw [hpc, hpc', hpend]
    simp [LoopPc.rest]
  · exact absurd h hb
  · rw [hpc, hpend]
  · rw [hr, hr', hpend]

section Queued

variable {l : LoopId} {s : EventLoop Functor Tid} {c : Core LoopId Tid} {f : Functor}
variable {st : Tid → List (Frame LoopId)}

omit [DecidableEq Tid] in
/-- The other queues are not touched when the state of one loop is replaced. -/
theorem queued_update_of_ne {k : LoopId} (hk : k ≠ l) :
    (⟨c, Function.update w.loops l s, st⟩ : World LoopId Tid).queued k = w.queued k := by
  simp [queued, Function.update_of_ne hk]

omit [DecidableEq Tid] in
/-- A step that leaves the unstarted functors of its loop alone. -/
theorem queued_update_same
    (hs : s.pc.rest ++ s.pendingFunctors_ =
      (w.loops l).pc.rest ++ (w.loops l).pendingFunctors_) :
    (⟨c, Function.update w.loops l s, st⟩ : World LoopId Tid).queued = w.queued := by
  funext k
  by_cases hk : k = l
  · subst hk
    simpa [queued] using hs
  · exact queued_update_of_ne hk

omit [DecidableEq Tid] in
/-- A quiet step of a loop leaves the queues as they are. -/
theorem queued_update_quiet (hs : EventLoop.Quiet (w.loops l) s) :
    (⟨c, Function.update w.loops l s, st⟩ : World LoopId Tid).queued = w.queued := by
  obtain ⟨-, -, hpend, hpc⟩ := hs
  exact queued_update_same (by rw [hpc, hpend])

omit [DecidableEq Tid] in
/-- The start of the first functor. -/
theorem queued_update_start {started rest : List Functor}
    (hpc : (w.loops l).pc = .run started (f :: rest)) (hpc' : s.pc = .run (started ++ [f]) rest)
    (hpend : s.pendingFunctors_ = (w.loops l).pendingFunctors_) :
    w.queued l = f :: (⟨c, Function.update w.loops l s, st⟩ : World LoopId Tid).queued l := by
  simp [queued, hpc, hpc', hpend, LoopPc.rest]

omit [DecidableEq Tid] in
/-- The push of a functor. -/
theorem queued_update_push (hpc : s.pc = (w.loops l).pc)
    (hpend : s.pendingFunctors_ = (w.loops l).pendingFunctors_ ++ [f]) :
    (⟨c, Function.update w.loops l s, st⟩ : World LoopId Tid).queued l = w.queued l ++ [f] := by
  simp [queued, hpc, hpend]

end Queued

/-- **What a step does to the queues**: it starts the first functor of one, pushes
at the end of one, or leaves all of them alone. -/
theorem queued_of_moves (h : Moves cfg isIn w a w') :
    (∃ l f, w.queued l = f :: w'.queued l ∧ (∀ k, k ≠ l → w'.queued k = w.queued k) ∧
        w'.frames (cfg.threadId_ l) = [f.body, .functor f]) ∨
      (∃ t l f rest, w.frames t = .queueInLoop l f :: rest ∧ w'.queued l = w.queued l ++ [f] ∧
        ∀ k, k ≠ l → w'.queued k = w.queued k) ∨
      w'.queued = w.queued := by
  cases h with
  | loop _ _ hs ha => exact .inr (.inr (queued_update_same (queued_of_internal hs ha)))
  | @start l _ _ f _ _ _ _ hpc hpc' hpend =>
      exact .inl ⟨l, f, queued_update_start hpc hpc' hpend, fun k hk => queued_update_of_ne hk,
        Function.update_self ..⟩
  | @queueInLoop t _ l f rest _ hstack _ hpc hpend =>
      exact .inr (.inl ⟨t, l, f, rest, hstack, queued_update_push hpc hpend,
        fun k hk => queued_update_of_ne hk⟩)
  | quit _ _ hq | wakeup _ hq | wakeupCall _ _ hq => exact .inr (.inr (queued_update_quiet hq))
  | event | newConnection | destroyServer | destroyEmpty | call | poke | wakeupReturn | frame =>
      exact .inr (.inr rfl)

/-- **Properties of calls persist.**  A step that takes the property from no frame
or functor which it leaves in place keeps it for all. -/
theorem Holds.step (hty : Typing P Q cfg) (hent : Entry P cfg isIn w a w'.core)
    (hper : Persists P Q w w'.core) (h : Holds P Q w) (hm : Moves cfg isIn w a w') :
    Holds P Q w' := by
  -- a step replaces the stack of one thread
  have hupdate {t : Tid} {st : List (Frame LoopId)} (hst : ∀ f ∈ st, P w'.core t f)
      (u : Tid) (f : Frame LoopId) (hf : f ∈ Function.update w.frames t st u) :
      P w'.core u f := by
    by_cases hu : u = t
    · subst hu
      rw [Function.update_self] at hf
      exact hst f hf
    · rw [Function.update_of_ne hu] at hf
      exact hper.1 u f hf (h.frames u f hf)
  have hkeep (t : Tid) (f : Frame LoopId) (hf : f ∈ w.frames t) : P w'.core t f :=
    hper.1 t f hf (h.frames t f hf)
  have hrest {t : Tid} {f : Frame LoopId} {rest : List (Frame LoopId)}
      (hstack : w.frames t = f :: rest) : ∀ g ∈ rest, P w'.core t g := by
    intro g hg
    exact hkeep t g (hstack ▸ List.mem_cons_of_mem f hg)
  constructor
  · cases hm with
    | loop | destroyEmpty | wakeup | poke | wakeupCall => exact hkeep
    | @start l _ _ f rest _ hstack hs hpc =>
        have hmem : f ∈ w.queued l := by simp [queued, hpc, LoopPc.rest]
        have hf := hper.2 l f hmem (h.functors l f hmem)
        refine hupdate fun g hg => ?_
        rcases List.mem_pair.1 hg with rfl | rfl
        · exact hty.body _ _ _ hf
        · exact hty.functor _ _ _ hf
    | event hact =>
        refine hupdate fun g hg => ?_
        rcases List.mem_pair.1 hg with rfl | rfl
        · exact hent.event _ rfl hact
        · exact hty.hold _ _
    | newConnection hcreated =>
        refine hupdate fun g hg => ?_
        rcases List.mem_pair.1 hg with rfl | rfl
        · exact hent.newConnection hcreated
        · exact hty.hold _ _
    | destroyServer hmap =>
        refine hupdate fun g hg => ?_
        rcases List.mem_cons.1 hg with rfl | hg
        · exact hent.destroyServer rfl hmap
        · rcases List.mem_cons.1 hg with rfl | hg
          · exact hty.hold _ _
          · exact hkeep _ g hg
    | @call t c frames huser hc =>
        have hframes : ∀ g ∈ frames, P w.core t g := by
          cases c with
          | send buf =>
              obtain ⟨data, hbuf, rfl⟩ := Option.map_eq_some_iff.1 hc
              simpa using ⟨hent.send t buf data rfl hbuf, hty.hold _ _⟩
          | shutdown =>
              obtain rfl := Option.some.inj hc
              simpa using ⟨hent.shutdown t rfl, hty.hold _ _⟩
          | runInLoop l n =>
              obtain rfl := Option.some.inj hc
              simpa using hent.runInLoop t l n
          | queueInLoop l n =>
              obtain rfl := Option.some.inj hc
              simpa using hent.queueInLoop t l n
        refine hupdate fun g hg => ?_
        rcases List.mem_append.1 hg with hg | hg
        · exact hframes g hg
        · exact hkeep t g hg
    | quit =>
        refine hupdate fun g hg => ?_
        rcases List.mem_cons.1 hg with rfl | hg
        · exact hty.wakeup _ _ _
        · exact hkeep _ g hg
    | queueInLoop hstack =>
        refine hupdate fun g hg => ?_
        rcases List.mem_cons.1 hg with rfl | hg
        · exact hty.wakeup _ _ _
        · exact hrest hstack g hg
    | wakeupReturn hstack => exact hupdate (hrest hstack)
    | @frame t o f rest hstack =>
        have hf := hent.step t o f rest rfl hstack (h.frames t f (hstack ▸ List.mem_cons_self))
        refine hupdate fun g hg => ?_
        rcases List.mem_append.1 hg with hg | hg
        · exact hf g hg
        · exact hrest hstack g hg
  · intro k f hf
    have hkeep (hf : f ∈ w.queued k) : Q w'.core k f := hper.2 k f hf (h.functors k f hf)
    rcases queued_of_moves hm with ⟨l, g, hl, hk, -⟩ | ⟨t, l, g, rest, hstack, hl, hk⟩ | hq
    · by_cases hkl : k = l
      · subst hkl
        exact hkeep (hl ▸ List.mem_cons_of_mem g hf)
      · exact hkeep (hk k hkl ▸ hf)
    · by_cases hkl : k = l
      · subst hkl
        rw [hl] at hf
        rcases List.mem_append.1 hf with hf | hf
        · exact hkeep hf
        · obtain rfl := List.mem_singleton.1 hf
          have hg : Frame.queueInLoop k f ∈ w.frames t := hstack ▸ List.mem_cons_self
          exact hty.queueInLoop _ t k f (hper.1 t _ hg (h.frames t _ hg))
      · exact hkeep (hk k hkl ▸ hf)
    · exact hkeep (hq ▸ hf)

omit [DecidableEq LoopId] [DecidableEq Tid] in
/-- Nothing is under way at the start. -/
theorem Holds.init (conn : TcpConnection) : Holds P Q (World.init conn) where
  frames t f hf := by cases hf
  functors l f hf := by cases hf

end World
end MuMuduo
