/-
# No lost wakeup

`queueInLoop` skips the write to `wakeupFd_` when the caller is the loop's own
thread and `callingPendFunctors_` is false, and `headleRead` drains the counter
in the middle of an iteration.  That neither can strand a functor rests on where
the swap stands: whenever a functor is pending, either the counter is positive,
or another thread still owes its write, or the swap of this iteration is ahead,
or the loop's own thread pushed it from a functor and has not returned from
`queueInLoop` (`Signalled`, `Woken.pending`).

`isInLoopThread` is read as the comparison in its body throughout.
-/

import MuMuduo.EventLoop.Basic

namespace MuMuduo

namespace LoopPc

variable {F : Type*}

/-- The thread is inside `loop()`. -/
def inside : LoopPc F → Bool
  | outside => false
  | _ => true

/-- The swap of the current iteration is still to come. -/
def swapAhead : LoopPc F → Bool
  | dispatch | raise | swap => true
  | _ => false

/-- A batch is being run. -/
def running : LoopPc F → Bool
  | run _ _ => true
  | _ => false

end LoopPc

namespace EventLoop

open Foundation

variable {F Tid : Type*} {threadId_ : Tid} {s s' : EventLoop F Tid}

/-- The loop's own thread calls `queueInLoop`, `runInLoop` and `quit` from inside
`loop()` only. -/
def InsideLoop (threadId_ : Tid) (s : EventLoop F Tid) : LoopLabel F Tid → Prop
  | .queueInLoop t _ _ | .runInLoop t _ _ _ | .quit t _ => t = threadId_ → s.pc.inside
  | _ => True

/-- The counter is positive, or another thread is about to write to it. -/
def Signalled (threadId_ : Tid) (s : EventLoop F Tid) : Prop :=
  0 < s.wakeupFd_ ∨ ∃ t, t ≠ threadId_ ∧ s.call t = .waking

/-- What ties the program counters, the flag, the queue and the counter
together. -/
structure Woken (threadId_ : Tid) (s : EventLoop F Tid) : Prop where
  calling : s.pc = .swap ∨ s.pc.running → s.callingPendFunctors_ = true
  own : s.call threadId_ ≠ .idle → s.pc = .dispatch ∨ s.pc.running
  checking : ∀ t, s.call t = .checking → t = threadId_
  pending : s.pendingFunctors_ ≠ [] → s.Signalled threadId_ ∨ s.pc.swapAhead ∨
    s.pc.running ∧ s.call threadId_ ≠ .idle
  quit : s.pc = .poll → s.quit_ = true → s.Signalled threadId_

/-- Before `loop()` is entered. -/
theorem woken_init : Woken threadId_ (init : EventLoop F Tid) where
  calling h := by simp [init, LoopPc.running] at h
  own h := absurd rfl h
  checking t h := by cases h
  pending h := absurd rfl h
  quit h := by cases h

/-- A thread that has entered its wakeup leaves the loop signalled, if it is not
the loop's own. -/
theorem signalled_waking {t : Tid} (ht : t ≠ threadId_) (h : s.call t = .waking) :
    s.Signalled threadId_ :=
  .inr ⟨t, ht, h⟩

/-- A signal outlives every step that drains nothing and takes no other thread
out of its wakeup. -/
theorem Signalled.mono (h : s.Signalled threadId_) (hw : s.wakeupFd_ ≤ s'.wakeupFd_)
    (hc : ∀ t, t ≠ threadId_ → s.call t = .waking → s'.call t = .waking) :
    s'.Signalled threadId_ := by
  rcases h with h | ⟨t, ht, h⟩
  · exact .inl (Nat.lt_of_lt_of_le h hw)
  · exact .inr ⟨t, ht, hc t ht h⟩

/-- A step inside `loop()`: the counter is drained only while the swap is ahead,
`epoll_wait` is entered only after `quit_` was found false, and a batch ends with
the own thread in no call. -/
theorem Woken.loopStep (hi : Woken threadId_ s) (hidle : s.call threadId_ = .idle)
    {a : LoopLabel F Tid} (h : s.loopStep a = some s') : Woken threadId_ s' := by
  have hpend (hr : s.pc.swapAhead = false) (hp : s.pendingFunctors_ ≠ []) :
      s.Signalled threadId_ := by
    rcases hi.pending hp with h | h | ⟨-, h⟩
    · exact h
    · rw [hr] at h
      cases h
    · exact absurd hidle h
  cases advance_of_loopStep h with
  | swap hpc =>
      exact ⟨fun _ => hi.calling (.inl hpc), fun hc => absurd hidle hc, hi.checking,
        fun hp => absurd rfl hp, by simp⟩
  | start hpc =>
      exact ⟨fun _ => hi.calling (.inr (by rw [hpc]; rfl)), fun hc => absurd hidle hc, hi.checking,
        fun hp => .inl (hpend (by rw [hpc]; rfl) hp), by simp⟩
  | raise =>
      exact ⟨fun _ => rfl, fun hc => absurd hidle hc, hi.checking, fun _ => .inr (.inl rfl),
        by simp⟩
  | headleRead hpc =>
      exact ⟨hi.calling, fun hc => absurd hidle hc, hi.checking,
        fun _ => .inr (.inl (by rw [hpc]; rfl)), fun hp => by rw [hpc] at hp; cases hp⟩
  | pollReturn | dispatched =>
      exact ⟨by simp [LoopPc.running], fun hc => absurd hidle hc, hi.checking,
        fun _ => .inr (.inl rfl), by simp⟩
  | testPoll hpc hquit =>
      -- the thread goes to `epoll_wait` with `quit_` unset
      exact ⟨by simp [LoopPc.running], fun hc => absurd hidle hc, hi.checking,
        fun hp => .inl (hpend (by rw [hpc]; rfl) hp), fun _ hq => by simp [hquit] at hq⟩
  | enter hpc | clearQuit hpc | testQuit hpc | lower hpc | leave hpc =>
      exact ⟨by simp [LoopPc.running], fun hc => absurd hidle hc, hi.checking,
        fun hp => .inl (hpend (by rw [hpc]; rfl) hp), by simp⟩

variable [DecidableEq Tid]

/-- User code on the loop's own thread, inside `loop()`. -/
theorem own_userCode (h : s.canCall threadId_ threadId_ = true) (hin : s.pc.inside) :
    s.pc = .dispatch ∨ s.pc.running := by
  simp only [canCall, bne_self_eq_false, Bool.false_or, Bool.and_eq_true] at h
  obtain ⟨-, h⟩ := h
  cases hpc : s.pc <;> simp_all [LoopPc.userCode, LoopPc.running, LoopPc.inside]

omit [DecidableEq Tid] in
/-- Inside a callback or a functor the thread does not wait in `epoll_wait`. -/
theorem ne_poll (h : s.pc = .dispatch ∨ s.pc.running) : s.pc ≠ .poll := by
  intro hp
  rw [hp] at h
  rcases h with h | h <;> cases h

/-- Another thread that has pushed, or set `quit_`, owes the wakeup from here on,
and so the loop is signalled whatever it finds. -/
theorem Woken.of_waking (hi : Woken threadId_ s) {t : Tid} (ht : t ≠ threadId_)
    (hpc : s'.pc = s.pc) (hcalling : s'.callingPendFunctors_ = s.callingPendFunctors_)
    (hcall : s'.call = Function.update s.call t .waking) : Woken threadId_ s' := by
  have hsig : s'.Signalled threadId_ := signalled_waking ht (by rw [hcall, Function.update_self])
  refine ⟨by rw [hpc, hcalling]; exact hi.calling, fun hc => ?_, fun u hu => ?_,
    fun _ => .inl hsig, fun _ _ => hsig⟩
  · rw [hcall, Function.update_of_ne (Ne.symm ht)] at hc
    rw [hpc]
    exact hi.own hc
  · rw [hcall] at hu
    by_cases hut : u = t
    · rw [hut, Function.update_self] at hu
      cases hu
    · rw [Function.update_of_ne hut] at hu
      exact hi.checking u hu

/-- `queueInLoop` wakes the loop up unless its own thread will look at the queue. -/
theorem Woken.queueInLoop (hi : Woken threadId_ s) {t : Tid} {f : F} {raw : Bool}
    (hin : t = threadId_ → s.pc.inside)
    (h : s.queueInLoop threadId_ (asCompared threadId_) t f raw = some s') :
    Woken threadId_ s' := by
  rw [EventLoop.queueInLoop, Option.ite_none_right_eq_some] at h
  obtain ⟨hcan, h⟩ := h
  obtain rfl := Option.some.inj h
  by_cases ht : t = threadId_
  · -- the own thread: `callingPendFunctors_` is read next
    subst ht
    have hpc := own_userCode hcan (hin rfl)
    refine ⟨hi.calling, fun _ => hpc, fun u hu => ?_, fun _ => ?_,
      fun hp => absurd hp (ne_poll hpc)⟩
    · by_contra hne
      exact hne (hi.checking u (by simpa [Function.update_of_ne hne] using hu))
    · rcases hpc with hpc | hpc
      · exact .inr (.inl (by rw [show _ = LoopPc.dispatch from hpc]; rfl))
      · exact .inr (.inr ⟨hpc, by simp [asCompared]⟩)
  · exact hi.of_waking ht rfl rfl (by simp [asCompared, Ne.symm ht])

/-- So does `quit`, from another thread. -/
theorem Woken.quit_call (hi : Woken threadId_ s) {t : Tid} {raw : Bool}
    (hin : t = threadId_ → s.pc.inside)
    (h : s.quit threadId_ (asCompared threadId_) t raw = some s') : Woken threadId_ s' := by
  rw [EventLoop.quit, Option.ite_none_right_eq_some] at h
  obtain ⟨hcan, h⟩ := h
  obtain rfl := Option.some.inj h
  by_cases ht : t = threadId_
  · -- the own thread is not in `epoll_wait`, and finds the new `quit_` before it is
    subst ht
    have hidle : s.call t = .idle := by
      simp only [canCall, Bool.and_eq_true, beq_iff_eq] at hcan
      exact hcan.1
    have hcall : Function.update s.call t (if asCompared t t raw then .idle else .waking) =
        s.call := by
      simp [asCompared, ← hidle]
    simp only [hcall]
    exact ⟨hi.calling, hi.own, hi.checking, hi.pending,
      fun hp => absurd hp (ne_poll (own_userCode hcan (hin rfl)))⟩
  · exact hi.of_waking ht rfl rfl (by simp [asCompared, Ne.symm ht])

/-- Only the loop's own thread reads `callingPendFunctors_`; inside a batch it
finds `true`. -/
theorem Woken.check (hi : Woken threadId_ s) {t : Tid} (h : s.check t = some s') :
    Woken threadId_ s' := by
  rw [EventLoop.check, Option.ite_none_right_eq_some] at h
  obtain ⟨hchk, h⟩ := h
  obtain rfl := Option.some.inj h
  obtain rfl := hi.checking t hchk
  have hsig : s.Signalled t → ({ s with
      call := Function.update s.call t
        (if s.callingPendFunctors_ then .waking else .idle) } : EventLoop F Tid).Signalled t :=
    fun hs => hs.mono (Nat.le_refl _) fun u hu hw => by simpa [Function.update_of_ne hu] using hw
  have hpc := hi.own (by simp [hchk])
  refine ⟨hi.calling, fun _ => hpc, fun u hu => ?_, fun hp => ?_, fun hp hq => hsig (hi.quit hp hq)⟩
  · by_contra hne
    exact hne (hi.checking u (by simpa [Function.update_of_ne hne] using hu))
  · rcases hi.pending hp with h | h | ⟨hr, -⟩
    · exact .inl (hsig h)
    · exact .inr (.inl h)
    · exact .inr (.inr ⟨hr, by simp [hi.calling (.inr hr)]⟩)

/-- After a write the counter is positive. -/
theorem Woken.wake (hi : Woken threadId_ s) {t : Tid} (h : s.wake t = some s') :
    Woken threadId_ s' := by
  rw [EventLoop.wake, Option.ite_none_right_eq_some] at h
  obtain ⟨-, h⟩ := h
  obtain rfl := Option.some.inj h
  have hsig : ({ s with
      wakeupFd_ := eventfdWrite s.wakeupFd_
      call := Function.update s.call t .idle } : EventLoop F Tid).Signalled threadId_ :=
    .inl (eventfdWrite_pos _)
  refine ⟨hi.calling, fun hc => hi.own fun hidle => hc ?_, fun u hu => hi.checking u ?_,
    fun _ => .inl hsig, fun _ _ => hsig⟩
  · by_cases ht : threadId_ = t <;> simp [Function.update, ht, hidle]
  · by_cases hut : u = t
    · simp [hut] at hu
    · simpa [Function.update_of_ne hut] using hu

/-- **One step.** -/
theorem Woken.step (hi : Woken threadId_ s) {a : LoopLabel F Tid} (hin : InsideLoop threadId_ s a)
    (h : s.step threadId_ (asCompared threadId_) a = some s') : Woken threadId_ s' := by
  cases a with
  | queueInLoop t f raw => exact hi.queueInLoop hin h
  | runInLoop t f raw raw' =>
      simp only [EventLoop.step, runInLoop] at h
      split_ifs at h
      · obtain rfl := Option.some.inj h
        exact ⟨hi.calling, hi.own, hi.checking, hi.pending, hi.quit⟩
      · exact hi.queueInLoop hin h
  | check t => exact hi.check h
  | wake t => exact hi.wake h
  | quit t raw => exact hi.quit_call hin h
  | wakeup t =>
      simp only [EventLoop.step, Option.ite_none_right_eq_some] at h
      obtain ⟨-, h⟩ := h
      obtain rfl := Option.some.inj h
      have hsig : ({ s with wakeupFd_ := eventfdWrite s.wakeupFd_ } : EventLoop F Tid).Signalled
          threadId_ :=
        .inl (eventfdWrite_pos _)
      exact ⟨hi.calling, hi.own, hi.checking, fun _ => .inl hsig, fun _ _ => hsig⟩
  | enter | clearQuit | test | pollReturn | headleRead | dispatched | raise | swap | start | lower
  | leave =>
      simp only [EventLoop.step, internal, Option.ite_none_right_eq_some] at h
      exact hi.loopStep h.1 h.2

/-- **No lost wakeup.**  Where the loop's thread enters `epoll_wait` with a
functor pending or with `quit_` set, the counter of `wakeupFd_` is positive or
another thread has pushed, or set `quit_`, and its write is still to come. -/
theorem signalled_of_poll {as : List (LoopLabel F Tid)}
    (hin : Along (step threadId_ (asCompared threadId_)) (InsideLoop threadId_) init as)
    (hs : exec (step threadId_ (asCompared threadId_)) init as = some s) (hpc : s.pc = .poll)
    (hwork : s.pendingFunctors_ ≠ [] ∨ s.quit_ = true) :
    0 < s.wakeupFd_ ∨ ∃ t, t ≠ threadId_ ∧ s.call t = .waking := by
  have hi : Woken threadId_ s :=
    exec_invariant (fun _ _ _ hi hin h => hi.step hin h) woken_init hin hs
  rcases hwork with hp | hq
  · rcases hi.pending hp with h | h | ⟨h, -⟩
    · exact h
    · rw [hpc] at h
      cases h
    · rw [hpc] at h
      cases h
  · exact hi.quit hpc hq

instance (s : EventLoop F Tid) (a : LoopLabel F Tid) : Decidable (InsideLoop threadId_ s a) := by
  cases a <;> unfold InsideLoop <;> infer_instance

/-- The hypotheses are satisfiable: thread `1` pushes while the loop of thread
`0` waits for its first event, and has not written to the descriptor yet. -/
theorem signalled_of_poll_pending :
    ∃ s : EventLoop ℕ ℕ,
      exec (step 0 (asCompared 0)) init
          [.enter, .clearQuit, .test, .queueInLoop 1 7 false] = some s ∧
        s.pendingFunctors_ = [7] ∧ (0 < s.wakeupFd_ ∨ ∃ t, t ≠ 0 ∧ s.call t = .waking) := by
  have hs : exec (step 0 (asCompared 0)) (init : EventLoop ℕ ℕ)
      [.enter, .clearQuit, .test, .queueInLoop 1 7 false] = some _ := rfl
  exact ⟨_, hs, rfl, signalled_of_poll (by decide) hs rfl (.inl (by decide))⟩

end EventLoop
end MuMuduo
