/-
# A call that exists once

Where a call like `connectEstablished` is made, it goes from a frame of the caller
to a queue, from the queue to a frame of the loop's thread, and is used up there.
`count` counts such a call over all stacks and queues.  A step hands it on or drops
it (`passes_of_moves`), so that a call made once exists at most once.  Of a call that is
only counted until it begins this holds as well, apart from the steps that make it
(`passes_of_step`).
-/

import MuMuduo.Foundation.Token
import MuMuduo.Server.Frames

namespace MuMuduo
namespace World

open Foundation

variable {LoopId Tid : Type*}
variable (carries : Frame LoopId → Bool) (carried : Functor → Bool)

/-- How often a stack or a queue holds the call. -/
def count (w : World LoopId Tid) : Tid ⊕ LoopId → ℕ
  | .inl t => (w.frames t).countP carries
  | .inr l => (w.queued l).countP carried

/-- The call is carried by a functor, by the frames that pass the functor on, and
by the frame that runs it, and no step makes two of one. -/
structure Carrier (cfg : Threads LoopId Tid) (isIn : LoopId → Tid → Bool → Bool) : Prop where
  body : ∀ f, carries f.body = carried f
  queueInLoop : ∀ l f, carries (.queueInLoop l f) = carried f
  runInLoop : ∀ l f, carries (.runInLoop l f) = carried f
  step : ∀ c t o f, (Core.frameStep cfg isIn c t o f).2.countP carries ≤ (carries f).toNat
  functor : ∀ f, carries (.functor f) = false
  hold : carries .hold = false
  wakeup : ∀ l, carries (.wakeup l) = false
  handleEvent : ∀ todo, carries (.handleEvent todo) = false
  send : ∀ buf data, carries (.send buf data) = false
  shutdown : carries .shutdown = false
  user : ∀ n, carried (.user n) = false

/-- The call is carried by a functor and by the frames that pass the functor on, and
perhaps by the frame that runs it. -/
structure Passed : Prop where
  body : ∀ f, (carries f.body).toNat ≤ (carried f).toNat
  queueInLoop : ∀ l f, carries (.queueInLoop l f) = carried f
  runInLoop : ∀ l f, carries (.runInLoop l f) = carried f
  functor : ∀ f, carries (.functor f) = false
  hold : carries .hold = false
  wakeup : ∀ l, carries (.wakeup l) = false
  handleEvent : ∀ todo, carries (.handleEvent todo) = false
  send : ∀ buf data, carries (.send buf data) = false
  shutdown : carries .shutdown = false
  user : ∀ n, carried (.user n) = false

variable {carries carried} {cfg : Threads LoopId Tid} {isIn : LoopId → Tid → Bool → Bool}
variable {w w' : World LoopId Tid} {a : Label LoopId Tid} [DecidableEq LoopId] [DecidableEq Tid]

omit [DecidableEq LoopId] [DecidableEq Tid] in
/-- What is carried is passed on. -/
theorem Carrier.passed (hc : Carrier carries carried cfg isIn) :
    Passed (carries : Frame LoopId → Bool) carried where
  body f := Nat.le_of_eq (by rw [hc.body])
  queueInLoop := hc.queueInLoop
  runInLoop := hc.runInLoop
  functor := hc.functor
  hold := hc.hold
  wakeup := hc.wakeup
  handleEvent := hc.handleEvent
  send := hc.send
  shutdown := hc.shutdown
  user := hc.user

omit [DecidableEq LoopId] in
/-- Where one stack is new, it decides for all stacks. -/
theorem countP_frames_le {t : Tid} {st : List (Frame LoopId)}
    (hst : w'.frames = Function.update w.frames t st)
    (hle : st.countP carries ≤ (w.frames t).countP carries) (u : Tid) :
    (w'.frames u).countP carries ≤ (w.frames u).countP carries := by
  rw [hst]
  by_cases hu : u = t
  · subst hu
    rwa [Function.update_self]
  · exact Nat.le_of_eq (by rw [Function.update_of_ne hu])

omit [DecidableEq LoopId] in
/-- Where the queues stay the same, the stack of one thread decides. -/
theorem count_le_of_stack {t : Tid} {st : List (Frame LoopId)}
    (hst : w'.frames = Function.update w.frames t st) (hq : w'.queued = w.queued)
    (hle : st.countP carries ≤ (w.frames t).countP carries) (p : Tid ⊕ LoopId) :
    w'.count carries carried p ≤ w.count carries carried p := by
  cases p with
  | inl u => exact countP_frames_le hst hle u
  | inr l =>
      exact Nat.le_of_eq (congrArg (List.countP carried) (congrFun hq l))

omit [DecidableEq LoopId] in
/-- A step on one stack that does not carry more than before. -/
theorem passes_of_stack {t : Tid} {st : List (Frame LoopId)}
    (hst : w'.frames = Function.update w.frames t st) (hq : w'.queued = w.queued)
    (hle : st.countP carries ≤ (w.frames t).countP carries) :
    Passes (w.count carries carried) (w'.count carries carried) :=
  .drop (count_le_of_stack hst hq hle)

omit [DecidableEq LoopId] in
/-- The start of a functor whose call is not counted. -/
theorem count_le_of_start (hc : Passed carries carried) {l : LoopId} {f : Functor}
    (hl : w.queued l = f :: w'.queued l)
    (hk : ∀ k, k ≠ l → w'.queued k = w.queued k)
    (hst : w'.frames = Function.update w.frames (cfg.threadId_ l) [f.body, .functor f])
    (hbody : carries f.body = false) (p : Tid ⊕ LoopId) :
    w'.count carries carried p ≤ w.count carries carried p := by
  cases p with
  | inl u =>
      refine countP_frames_le hst ?_ u
      simp [hbody, hc.functor]
  | inr k =>
      show (w'.queued k).countP carried ≤ (w.queued k).countP carried
      by_cases hkl : k = l
      · subst hkl
        rw [hl, List.countP_cons]
        exact Nat.le_add_right _ _
      · exact Nat.le_of_eq (by rw [hk k hkl])

omit [DecidableEq LoopId] in
/-- From the head of a queue to the frame that runs the functor. -/
theorem passes_of_start (hc : Passed carries carried) {l : LoopId} {f : Functor}
    (hl : w.queued l = f :: w'.queued l)
    (hk : ∀ k, k ≠ l → w'.queued k = w.queued k)
    (hst : w'.frames = Function.update w.frames (cfg.threadId_ l) [f.body, .functor f]) :
    Passes (w.count carries carried) (w'.count carries carried) := by
  have hhead : w.count carries carried (.inr l) =
      w'.count carries carried (.inr l) + (carried f).toNat := by
    show (w.queued l).countP carried = (w'.queued l).countP carried + _
    rw [hl, List.countP_cons]
    cases carried f <;> rfl
  have hrun : w'.count carries carried (.inl (cfg.threadId_ l)) ≤
      w.count carries carried (.inl (cfg.threadId_ l)) + (carried f).toNat := by
    show (w'.frames (cfg.threadId_ l)).countP carries ≤ _
    rw [hst, Function.update_self]
    refine Nat.le_trans ?_ (Nat.le_trans (hc.body f) (Nat.le_add_left _ _))
    cases hf : carries f.body <;> simp [hc.functor, hf]
  refine passes_of_moved (Bool.toNat_le _) hhead hrun fun p hp hp' => ?_
  cases p with
  | inl u =>
      show (w'.frames u).countP carries ≤ (w.frames u).countP carries
      exact Nat.le_of_eq (by rw [hst, Function.update_of_ne fun h => hp' (congrArg _ h)])
  | inr k => exact Nat.le_of_eq (congrArg (List.countP carried) (hk k fun h => hp (congrArg _ h)))

omit [DecidableEq LoopId] in
/-- From the frame that pushes the functor to the end of a queue. -/
theorem passes_of_push (hc : Passed carries carried) {t : Tid} {l : LoopId} {f : Functor}
    {rest : List (Frame LoopId)} (hstack : w.frames t = .queueInLoop l f :: rest)
    (hl : w'.queued l = w.queued l ++ [f]) (hk : ∀ k, k ≠ l → w'.queued k = w.queued k)
    (hst : w'.frames = Function.update w.frames t (.wakeup l :: rest)) :
    Passes (w.count carries carried) (w'.count carries carried) := by
  have hend : w'.count carries carried (.inr l) =
      w.count carries carried (.inr l) + (carried f).toNat := by
    show (w'.queued l).countP carried = (w.queued l).countP carried + _
    rw [hl, List.countP_append]
    cases hf : carried f <;> simp [hf]
  have hpush : w.count carries carried (.inl t) =
      w'.count carries carried (.inl t) + (carried f).toNat := by
    show (w.frames t).countP carries = (w'.frames t).countP carries + _
    rw [hst, Function.update_self, hstack]
    cases hf : carried f <;> simp [hc.queueInLoop, hc.wakeup, hf]
  refine passes_of_moved (Bool.toNat_le _) hpush (Nat.le_of_eq hend) fun p hp hp' => ?_
  cases p with
  | inl u =>
      show (w'.frames u).countP carries ≤ (w.frames u).countP carries
      exact Nat.le_of_eq (by rw [hst, Function.update_of_ne fun h => hp (congrArg _ h)])
  | inr k => exact Nat.le_of_eq (congrArg (List.countP carried) (hk k fun h => hp' (congrArg _ h)))

/-- **A step hands the call on or drops it**, unless it is a step that makes it. -/
theorem passes_of_step (hc : Passed carries carried) (hm : Moves cfg isIn w a w')
    (hstep : ∀ t o f rest, a = .step t o → w.frames t = f :: rest →
      (w.core.frameStep cfg isIn t o f).2.countP carries ≤ (carries f).toNat)
    (hnew : a = .newConnection → carried .connectEstablished = false)
    (hdestroy : a = .destroyServer → carried .connectDestroyed = false) :
    Passes (w.count carries carried) (w'.count carries carried) := by
  have hsame (hst : w'.frames = w.frames) (hq : w'.queued = w.queued) :
      Passes (w.count carries carried) (w'.count carries carried) := by
    refine .drop fun p => ?_
    cases p with
    | inl u => exact Nat.le_of_eq (congrArg (List.countP carries) (congrFun hst u))
    | inr l => exact Nat.le_of_eq (congrArg (List.countP carried) (congrFun hq l))
  cases hm with
  | loop _ _ hs ha => exact hsame rfl (queued_update_same (queued_of_internal hs ha))
  | wakeup _ hq | wakeupCall _ _ hq => exact hsame rfl (queued_update_quiet hq)
  | destroyEmpty | poke => exact hsame rfl rfl
  | start _ _ hpc hpc' hpend =>
      refine passes_of_start hc (queued_update_start hpc hpc' hpend)
        (fun k hk => queued_update_of_ne hk) rfl
  | event _ hstack =>
      refine passes_of_stack rfl rfl ?_
      simp [hstack, hc.handleEvent, hc.hold]
  | newConnection _ hstack =>
      refine passes_of_stack rfl rfl ?_
      simp [hstack, hc.runInLoop, hc.hold, hnew rfl]
  | destroyServer =>
      refine passes_of_stack rfl rfl ?_
      simp [hc.runInLoop, hc.hold, hdestroy rfl]
  | @call t c frames _ hframes =>
      have hzero : frames.countP carries = 0 := by
        cases c with
        | send buf =>
            obtain ⟨data, -, rfl⟩ := Option.map_eq_some_iff.1 hframes
            simp [hc.send, hc.hold]
        | shutdown =>
            obtain rfl := Option.some.inj hframes
            simp [hc.shutdown, hc.hold]
        | runInLoop l n =>
            obtain rfl := Option.some.inj hframes
            simp [hc.runInLoop, hc.user]
        | queueInLoop l n =>
            obtain rfl := Option.some.inj hframes
            simp [hc.queueInLoop, hc.user]
      refine passes_of_stack rfl rfl ?_
      exact Nat.le_of_eq (by rw [List.countP_append, hzero, Nat.zero_add])
  | quit _ _ hq =>
      refine passes_of_stack rfl (queued_update_quiet hq) ?_
      simp [hc.wakeup]
  | wakeupReturn hstack =>
      refine passes_of_stack rfl rfl ?_
      rw [hstack, List.countP_cons]
      exact Nat.le_add_right _ _
  | queueInLoop hstack _ hpc hpend =>
      exact passes_of_push hc hstack (queued_update_push hpc hpend)
        (fun k hk => queued_update_of_ne hk) rfl
  | @frame t o f rest hstack =>
      have hstep := hstep t o f rest rfl hstack
      refine passes_of_stack rfl rfl ?_
      rw [hstack, List.countP_append, List.countP_cons]
      cases hf : carries f <;> simp only [hf, Bool.toNat_true, Bool.toNat_false] at hstep <;>
        simp only [if_true, Bool.false_eq_true, if_false] <;> omega

/-- No step makes two of a call that is carried all the way. -/
theorem passes_of_moves (hc : Carrier carries carried cfg isIn) (hm : Moves cfg isIn w a w')
    (hnew : a = .newConnection → carried .connectEstablished = false)
    (hdestroy : a = .destroyServer → carried .connectDestroyed = false) :
    Passes (w.count carries carried) (w'.count carries carried) :=
  passes_of_step hc.passed hm (fun t o f _ _ _ => hc.step w.core t o f) hnew hdestroy

end World
end MuMuduo
