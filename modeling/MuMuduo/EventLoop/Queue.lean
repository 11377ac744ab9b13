/-
# The functor queue neither loses, duplicates nor reorders

Whatever the threads do, the functors pushed so far, in the order in which they
got the lock, are the functors already started, then the rest of the current
batch, then `pendingFunctors_` (`History`).  Which functors have been pushed is read
off the calls of the run (`pushed_of_exec`), so that none is lost on the way to the
queue either.  A batch is what was pending at the
swap: between the swap and the return of `dopendingFunctors` exactly these
functors are started, and what is queued meanwhile waits for the next call
(`InBatch`).  Nothing here depends on what `isInLoopThread` returns.
-/

import MuMuduo.EventLoop.Basic

namespace MuMuduo

/-- The functor that a call pushes: that of every `queueInLoop`, and of a `runInLoop`
that does not find itself on the loop's thread. -/
def LoopLabel.pushes {F Tid : Type*} (isIn : Tid → Bool → Bool) : LoopLabel F Tid → List F
  | .queueInLoop _ f _ => [f]
  | .runInLoop t f raw _ => if isIn t raw then [] else [f]
  | _ => []

namespace EventLoop

open Foundation

variable {F Tid : Type*} [DecidableEq Tid] {threadId_ : Tid} {isIn : Tid → Bool → Bool}
variable {s s' : EventLoop F Tid}

/-- What has been pushed is what was started, what the batch still holds, and
what is pending. -/
def History (s : EventLoop F Tid) : Prop :=
  s.pushed = s.begun ++ s.pc.rest ++ s.pendingFunctors_

omit [DecidableEq Tid] in
/-- What a step inside `loop()` does to the queue: it swaps the queue out, starts
the next functor of the batch, or leaves both alone. -/
theorem internal_queue {a : LoopLabel F Tid} (h : s.internal threadId_ a = some s') :
    (a = .swap ∧ s.pc = .swap ∧ s'.pc = .run [] s.pendingFunctors_ ∧ s'.pendingFunctors_ = [] ∧
        s'.pushed = s.pushed ∧ s'.begun = s.begun) ∨
      (∃ started f rest, a = .start ∧ s.pc = .run started (f :: rest) ∧
        s'.pc = .run (started ++ [f]) rest ∧ s'.begun = s.begun ++ [f] ∧ s'.pushed = s.pushed ∧
        s'.pendingFunctors_ = s.pendingFunctors_) ∨
      (a ≠ .start ∧ s'.pushed = s.pushed ∧ s'.begun = s.begun ∧
        s'.pendingFunctors_ = s.pendingFunctors_ ∧
        (s'.pc = s.pc ∨ s.pc.rest = [] ∧ s'.pc.rest = [] ∧
          ((∃ started, s.pc = .run started []) → a = .lower))) := by
  rw [internal, Option.ite_none_right_eq_some] at h
  cases advance_of_loopStep h.2 with
  | swap hpc => exact .inl ⟨rfl, hpc, rfl, rfl, rfl, rfl⟩
  | start hpc => exact .inr (.inl ⟨_, _, _, rfl, hpc, rfl, rfl, rfl, rfl⟩)
  | headleRead => exact .inr (.inr ⟨by simp, rfl, rfl, rfl, .inl rfl⟩)
  | enter hpc | clearQuit hpc | testQuit hpc | testPoll hpc | pollReturn hpc | dispatched hpc
  | raise hpc | lower hpc | leave hpc =>
      exact .inr (.inr ⟨by simp, rfl, rfl, rfl, .inr ⟨by rw [hpc]; rfl, rfl, by simp [hpc]⟩⟩)

omit [DecidableEq Tid] in
/-- The dispatch goes on until the loop has been through `activeChannels_`. -/
theorem isDispatch_of_internal {a : LoopLabel F Tid} (h : s.internal threadId_ a = some s')
    (hpc : s.pc.isDispatch = true) : s'.pc.isDispatch = true ∨ a = .dispatched := by
  rw [internal, Option.ite_none_right_eq_some] at h
  cases advance_of_loopStep h.2 with
  | headleRead => exact .inl hpc
  | dispatched => exact .inr rfl
  | enter hold | clearQuit hold | testQuit hold | testPoll hold | pollReturn hold | raise hold
  | swap hold | start hold | lower hold | leave hold =>
      rw [hold] at hpc
      cases hpc

omit [DecidableEq Tid] in
/-- Where `epoll_wait` returns the dispatch begins. -/
theorem isDispatch_of_pollReturn {a : LoopLabel F Tid} (h : s.internal threadId_ a = some s')
    (ha : a.isPollReturn = true) : s'.pc.isDispatch = true := by
  rw [internal, Option.ite_none_right_eq_some] at h
  cases advance_of_loopStep h.2 with
  | pollReturn => rfl
  | _ => cases ha

/-- The push of `queueInLoop`. -/
theorem queueInLoop_queue {t : Tid} {f : F} {raw : Bool}
    (h : s.queueInLoop threadId_ isIn t f raw = some s') :
    s'.pushed = s.pushed ++ [f] ∧ s'.pendingFunctors_ = s.pendingFunctors_ ++ [f] ∧
      s'.begun = s.begun ∧ s'.pc = s.pc := by
  rw [queueInLoop, Option.ite_none_right_eq_some] at h
  obtain ⟨-, h⟩ := h
  obtain rfl := Option.some.inj h
  exact ⟨rfl, rfl, rfl, rfl⟩

/-- The queue and the position in `loop()` are left as they are. -/
def Quiet (s s' : EventLoop F Tid) : Prop :=
  s'.pushed = s.pushed ∧ s'.begun = s.begun ∧ s'.pendingFunctors_ = s.pendingFunctors_ ∧
    s'.pc = s.pc

omit [DecidableEq Tid] in
/-- A step that changes nothing is quiet. -/
theorem Quiet.refl (s : EventLoop F Tid) : Quiet s s := ⟨rfl, rfl, rfl, rfl⟩

omit [DecidableEq Tid] in
/-- A call with a guard, whose effect leaves the queue alone. -/
theorem quiet_of_ite {u : EventLoop F Tid} {c : Prop} [Decidable c]
    (h : (if c then some u else none) = some s') (hu : Quiet s u) : Quiet s s' := by
  obtain ⟨-, h⟩ := Option.ite_none_right_eq_some.1 h
  exact Option.some.inj h ▸ hu

/-- To look whether a wake-up is due changes no functor. -/
theorem check_quiet {t : Tid} (h : s.check t = some s') : Quiet s s' :=
  quiet_of_ite h ⟨rfl, rfl, rfl, rfl⟩

/-- Nor does a wake-up. -/
theorem wake_quiet {t : Tid} (h : s.wake t = some s') : Quiet s s' :=
  quiet_of_ite h ⟨rfl, rfl, rfl, rfl⟩

/-- Nor does `quit`. -/
theorem quit_quiet {t : Tid} {raw : Bool} (h : s.quit threadId_ isIn t raw = some s') :
    Quiet s s' :=
  quiet_of_ite h ⟨rfl, rfl, rfl, rfl⟩

/-- Nor does a call of `wakeup` from outside. -/
theorem wakeup_quiet {t : Tid} (h : s.step threadId_ isIn (.wakeup t) = some s') :
    Quiet s s' :=
  quiet_of_ite h ⟨rfl, rfl, rfl, rfl⟩

/-- The steps of the loop's own thread are steps. -/
theorem step_of_internal {a : LoopLabel F Tid} (h : s.internal threadId_ a = some s') :
    s.step threadId_ isIn a = some s' := by
  cases a with
  | queueInLoop | runInLoop | check | wake | quit | wakeup => simp [internal, loopStep] at h
  | enter | clearQuit | test | pollReturn | headleRead | dispatched | raise | swap | start | lower
  | leave => exact h

/-- A call pushes a functor at the end, or leaves the queue alone; everything
else happens inside `loop()`. -/
theorem step_queue {a : LoopLabel F Tid} (h : s.step threadId_ isIn a = some s') :
    (∃ f, s'.pushed = s.pushed ++ [f] ∧ s'.pendingFunctors_ = s.pendingFunctors_ ++ [f] ∧
        s'.begun = s.begun ∧ s'.pc = s.pc) ∨ Quiet s s' ∨ s.internal threadId_ a = some s' := by
  cases a with
  | queueInLoop t f raw => exact .inl ⟨f, queueInLoop_queue h⟩
  | runInLoop t f raw raw' =>
      simp only [step, runInLoop] at h
      split_ifs at h
      · obtain rfl := Option.some.inj h
        exact .inr (.inl (Quiet.refl _))
      · exact .inl ⟨f, queueInLoop_queue h⟩
  | check t => exact .inr (.inl (check_quiet h))
  | wake t => exact .inr (.inl (wake_quiet h))
  | quit t raw => exact .inr (.inl (quit_quiet h))
  | wakeup t => exact .inr (.inl (wakeup_quiet h))
  | enter | clearQuit | test | pollReturn | headleRead | dispatched | raise | swap | start | lower
  | leave => exact .inr (.inr h)

/-- **One step.** -/
theorem History.step {a : LoopLabel F Tid} (hi : s.History)
    (h : s.step threadId_ isIn a = some s') : s'.History := by
  unfold History at *
  rcases step_queue h with ⟨f, hp, hq, hb, hpc⟩ | ⟨hp, hb, hq, hpc⟩ | h
  · rw [hp, hq, hb, hpc, hi, List.append_assoc _ _ [f]]
  · rw [hp, hq, hb, hpc, hi]
  · rcases internal_queue h with ⟨-, hpc, hpc', hq, hp, hb⟩ |
      ⟨started, f, rest, -, hpc, hpc', hb, hp, hq⟩ | ⟨-, hp, hb, hq, hpc⟩
    · rw [hp, hq, hb, hpc', hi, hpc]
      simp [LoopPc.rest]
    · rw [hp, hq, hb, hpc', hi, hpc]
      simp [LoopPc.rest]
    · rcases hpc with hpc | ⟨hr, hr', -⟩
      · rw [hp, hq, hb, hpc, hi]
      · rw [hp, hq, hb, hr', hi, hr]

/-- The history in every reachable state. -/
theorem history_of_exec {as : List (LoopLabel F Tid)}
    (h : exec (step threadId_ isIn) init as = some s) : s.History :=
  exec_invariant' (fun _ _ _ hi h => History.step hi h) (show History init from rfl) h

/-- **A step pushes what its call is given**, and nothing else. -/
theorem pushed_of_step {a : LoopLabel F Tid} (h : s.step threadId_ isIn a = some s') :
    s'.pushed = s.pushed ++ a.pushes isIn := by
  cases a with
  | queueInLoop t f raw => exact (queueInLoop_queue h).1
  | runInLoop t f raw raw' =>
      simp only [step, runInLoop] at h
      rw [LoopLabel.pushes]
      split_ifs at h ⊢
      · obtain rfl := Option.some.inj h
        exact (List.append_nil _).symm
      · exact (queueInLoop_queue h).1
  | check t => exact (check_quiet h).1.trans (List.append_nil _).symm
  | wake t => exact (wake_quiet h).1.trans (List.append_nil _).symm
  | quit t raw => exact (quit_quiet h).1.trans (List.append_nil _).symm
  | wakeup t => exact (wakeup_quiet h).1.trans (List.append_nil _).symm
  | enter | clearQuit | test | pollReturn | headleRead | dispatched | raise | swap | start | lower
  | leave =>
      refine Eq.trans ?_ (List.append_nil _).symm
      rcases internal_queue h with ⟨-, -, -, -, hp, -⟩ | ⟨-, -, -, -, -, -, -, hp, -⟩ |
        ⟨-, hp, -⟩ <;> exact hp

/-- **What has been pushed is what the calls of the run were given**, in the order of
their pushes. -/
theorem pushed_of_exec {as : List (LoopLabel F Tid)}
    (h : exec (step threadId_ isIn) init as = some s) :
    s.pushed = as.flatMap (LoopLabel.pushes isIn) := by
  rw [← collect_label h]
  exact exec_collect (fun _ _ _ => pushed_of_step) h

/-- The batch `batch` is being run: `started` of it were started, after the
functors in `before`. -/
def InBatch (before batch : List F) (s : EventLoop F Tid) : Prop :=
  ∃ started rest, s.pc = .run started rest ∧ started ++ rest = batch ∧
    s.begun = before ++ started

/-- Until `dopendingFunctors` returns, every step stays in the batch. -/
theorem InBatch.step {before batch : List F} {a : LoopLabel F Tid}
    (hi : s.InBatch before batch) (ha : a ≠ .lower) (h : s.step threadId_ isIn a = some s') :
    s'.InBatch before batch := by
  obtain ⟨started, rest, hpc, hb, hbeg⟩ := hi
  rcases step_queue h with ⟨f, -, -, hb', hpc'⟩ | ⟨-, hb', -, hpc'⟩ | h
  · exact ⟨started, rest, hpc' ▸ hpc, hb, hb' ▸ hbeg⟩
  · exact ⟨started, rest, hpc' ▸ hpc, hb, hb' ▸ hbeg⟩
  · rcases internal_queue h with ⟨-, hpc', -⟩ |
      ⟨started', f, rest', -, hpc', hpc'', hb', -, -⟩ | ⟨-, -, hb', -, hpc'⟩
    · rw [hpc] at hpc'
      cases hpc'
    · rw [hpc, LoopPc.run.injEq] at hpc'
      obtain ⟨rfl, rfl⟩ := hpc'
      exact ⟨_, _, hpc'', by simpa using hb, by rw [hb', hbeg, List.append_assoc]⟩
    · rcases hpc' with hpc' | ⟨hr, -, hlower⟩
      · exact ⟨started, rest, hpc' ▸ hpc, hb, hb' ▸ hbeg⟩
      · rw [hpc, LoopPc.rest] at hr
        exact absurd (hlower ⟨started, hr ▸ hpc⟩) ha

/-- **The queue keeps its functors and their order.**  In every reachable state
the pushed functors, which are those of the calls of the run, are the started ones, the
rest of the batch and the pending ones, in this order; and a call of `dopendingFunctors`,
from its swap to its return, starts the functors that were pending at the swap and no
other. -/
theorem queue_in_order {as : List (LoopLabel F Tid)}
    (hs : exec (step threadId_ isIn) init as = some s) :
    s.pushed = as.flatMap (LoopLabel.pushes isIn) ∧
      s.pushed = s.begun ++ s.pc.rest ++ s.pendingFunctors_ ∧
      ∀ bs u, s.pc = .swap → LoopLabel.lower ∉ bs →
        exec (step threadId_ isIn) s (.swap :: bs ++ [.lower]) = some u →
          u.begun = s.begun ++ s.pendingFunctors_ := by
  refine ⟨pushed_of_exec hs, history_of_exec hs, fun bs u hpc hbs hu => ?_⟩
  obtain ⟨v, hv, hlower⟩ := exec_concat.1 hu
  obtain ⟨s₁, hs₁, hv⟩ := exec_cons.1 hv
  have h₁ : s₁.InBatch s.begun s.pendingFunctors_ := by
    simp only [step, internal, loopStep, hpc, Option.ite_none_right_eq_some,
      Option.some.injEq] at hs₁
    obtain ⟨-, rfl⟩ := hs₁
    exact ⟨[], s.pendingFunctors_, rfl, rfl, (List.append_nil _).symm⟩
  have hne : ∀ a ∈ bs, a ≠ LoopLabel.lower := by
    rintro a ha rfl
    exact hbs ha
  obtain ⟨started, rest, hpcv, hbatch, hbeg⟩ : v.InBatch s.begun s.pendingFunctors_ :=
    exec_invariant (fun _ _ _ hi ha h => hi.step ha h) h₁ (along_of_forall_mem hne s₁) hv
  -- the return of `dopendingFunctors` finds the batch exhausted
  cases rest with
  | nil =>
      simp only [step, internal, loopStep, hpcv, Option.ite_none_right_eq_some,
        Option.some.injEq] at hlower
      obtain ⟨-, rfl⟩ := hlower
      simpa [hbatch] using hbeg.trans (by rw [← hbatch, List.append_nil])
  | cons f rest =>
      simp [step, internal, loopStep, hpcv] at hlower

/-- The hypothesis is satisfiable: of two functors pending at a swap the first
pushes a third, which the batch does not start. -/
theorem queue_in_order_reentrant :
    ∃ s u : EventLoop ℕ ℕ,
      exec (step 0 (asCompared 0)) init
        [.queueInLoop 1 7 false, .wake 1, .queueInLoop 1 8 false, .wake 1, .enter, .clearQuit,
          .test, .pollReturn, .headleRead, .dispatched, .raise] = some s ∧
      exec (step 0 (asCompared 0)) s
          (.swap :: [.start, .queueInLoop 0 9 false, .check 0, .wake 0, .start] ++ [.lower]) =
        some u ∧
      s.begun ++ s.pc.rest ++ s.pendingFunctors_ = [7, 8] ∧
      u.begun = s.begun ++ s.pendingFunctors_ ∧ u.pendingFunctors_ = [9] := by
  have hs : exec (step 0 (asCompared 0)) (init : EventLoop ℕ ℕ)
      [.queueInLoop 1 7 false, .wake 1, .queueInLoop 1 8 false, .wake 1, .enter, .clearQuit, .test,
        .pollReturn, .headleRead, .dispatched, .raise] = some _ := rfl
  obtain ⟨hpushed, hqueue, hbatch⟩ := queue_in_order hs
  refine ⟨_, _, hs, rfl, hqueue.symm.trans hpushed, ?_, rfl⟩
  exact hbatch [.start, .queueInLoop 0 9 false, .check 0, .wake 0, .start] _ rfl
    (by simp) rfl

end EventLoop
end MuMuduo
