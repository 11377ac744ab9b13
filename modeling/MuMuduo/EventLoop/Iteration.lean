/-
# Rounds of the loop

A round of `loop()` waits, dispatches, and ends with `dopendingFunctors()`.  What these
rounds promise, whatever the threads do in between:

A functor that has been queued is started before `dopendingFunctors()` has returned
twice (`started_within`).  Once is not enough: what is queued while a batch is being
run waits for the next one.

Once `quit_` is set, `epoll_wait` returns once more if the thread is at it, and
`dopendingFunctors()` returns once more if the thread is in a round; then `loop()`
returns, whatever is queued (`quits_within`).
-/

import MuMuduo.EventLoop.Queue
import MuMuduo.EventLoop.Wakeup

namespace MuMuduo

open Foundation

/-- `dopendingFunctors` returns. -/
def LoopLabel.isLower {F Tid : Type*} : LoopLabel F Tid → Bool
  | .lower => true
  | _ => false

/-- `loop()` executes `quit_ = false`. -/
def LoopLabel.isClear {F Tid : Type*} : LoopLabel F Tid → Bool
  | .clearQuit => true
  | _ => false

namespace LoopPc

variable {F : Type*}

/-- `epoll_wait` is still to return in this round. -/
def waits : LoopPc F → Bool
  | poll => true
  | _ => false

/-- `dopendingFunctors` is still to return in this round. -/
def inRound : LoopPc F → Bool
  | poll | dispatch | raise | swap | run _ _ => true
  | _ => false

end LoopPc

namespace EventLoop

variable {F Tid : Type*} [DecidableEq Tid] {threadId_ : Tid} {isIn : Tid → Bool → Bool}
variable {s s' : EventLoop F Tid} {a : LoopLabel F Tid}

/-! ### What is queued is started -/

/-- How far the functors `queued` have come after `k` returns of `dopendingFunctors`. -/
structure Served (queued : List F) (k : ℕ) (s : EventLoop F Tid) : Prop where
  pushed : queued <+: s.pushed
  taken : 1 ≤ k → s.pc.running = true → queued <+: s.begun ++ s.pc.rest
  begun : 2 ≤ k → queued <+: s.begun

omit [DecidableEq Tid] in
/-- The return of `dopendingFunctors` is that of a batch that has been run. -/
theorem internal_lower (h : s.internal threadId_ .lower = some s') :
    s.pc.running = true ∧ s.pc.rest = [] ∧ s'.pc.running = false ∧ s'.begun = s.begun ∧
      s'.pushed = s.pushed := by
  rw [internal, Option.ite_none_right_eq_some] at h
  cases advance_of_loopStep h.2 with
  | lower hpc =>
      rw [hpc]
      exact ⟨rfl, rfl, rfl, rfl, rfl⟩

omit [DecidableEq Tid] in
/-- A batch comes from the swap. -/
theorem running_of_internal (ha : a.isLower = false) (h : s.internal threadId_ a = some s')
    (hr : s'.pc.running = true) :
    s'.begun ++ s'.pc.rest = s.begun ++ s.pc.rest ∧ s.pc.running = true ∨
      a = .swap ∧ s'.begun ++ s'.pc.rest = s.begun ++ s.pendingFunctors_ := by
  rw [internal, Option.ite_none_right_eq_some] at h
  cases advance_of_loopStep h.2 with
  | swap => exact .inr ⟨rfl, rfl⟩
  | start hpc =>
      rw [hpc]
      exact .inl ⟨by simp [LoopPc.rest], rfl⟩
  | headleRead => exact .inl ⟨rfl, hr⟩
  | lower => cases ha
  | _ => cases hr

/-- What has been pushed stays pushed, and what has been started stays started. -/
theorem prefix_of_step (h : s.step threadId_ isIn a = some s') :
    s.pushed <+: s'.pushed ∧ s.begun <+: s'.begun := by
  rcases step_queue h with ⟨f, hp, -, hb, -⟩ | ⟨hp, hb, -, -⟩ | h
  · exact ⟨hp ▸ List.prefix_append _ _, hb ▸ List.prefix_refl _⟩
  · exact ⟨hp ▸ List.prefix_refl _, hb ▸ List.prefix_refl _⟩
  · rcases internal_queue h with ⟨-, -, -, -, hp, hb⟩ | ⟨_, f, _, -, -, -, hb, hp, -⟩ |
      ⟨-, hp, hb, -⟩
    · exact ⟨hp ▸ List.prefix_refl _, hb ▸ List.prefix_refl _⟩
    · exact ⟨hp ▸ List.prefix_refl _, hb ▸ List.prefix_append _ _⟩
    · exact ⟨hp ▸ List.prefix_refl _, hb ▸ List.prefix_refl _⟩

/-- **One step.**  A swap takes all that is pending, and the return of
`dopendingFunctors` finds all of its batch started. -/
theorem Served.step {queued : List F} {k : ℕ} (hi : s.Served queued k) (hh : s.History)
    (h : s.step threadId_ isIn a = some s') :
    s'.Served queued (k + if a.isLower then 1 else 0) := by
  obtain ⟨hpushed, hbegun⟩ := prefix_of_step h
  cases ha : a.isLower with
  | true =>
      obtain rfl : a = .lower := by cases a <;> first | rfl | cases ha
      obtain ⟨hrun, hrest, hrun', hb, -⟩ := internal_lower (s := s) h
      refine ⟨hi.pushed.trans hpushed, fun _ hr => ?_, fun hk => ?_⟩
      · rw [hrun'] at hr
        cases hr
      · have htaken := hi.taken (Nat.le_of_succ_le_succ hk) hrun
        rw [hrest, List.append_nil] at htaken
        exact hb ▸ htaken
  | false =>
      refine ⟨hi.pushed.trans hpushed, fun hk hr => ?_, fun hk => (hi.begun hk).trans hbegun⟩
      rcases step_queue h with ⟨f, -, -, hb, hpc⟩ | ⟨-, hb, -, hpc⟩ | h
      · rw [hb, hpc]
        exact hi.taken hk (hpc ▸ hr)
      · rw [hb, hpc]
        exact hi.taken hk (hpc ▸ hr)
      · rcases running_of_internal ha h hr with ⟨he, hr⟩ | ⟨rfl, he⟩
        · rw [he]
          exact hi.taken hk hr
        · have hrest : s.pc.rest = [] := by
            rw [internal, Option.ite_none_right_eq_some] at h
            cases advance_of_loopStep h.2 with
            | swap hpc => rw [hpc]; rfl
          have hqueued := hi.pushed
          rw [show s.pushed = _ from hh, hrest, List.append_nil] at hqueued
          rw [he]
          exact hqueued

/-- **Along a run**, counted by the returns of `dopendingFunctors`. -/
theorem Served.exec {queued : List F} {bs : List (LoopLabel F Tid)} {k : ℕ}
    (hi : s.Served queued k) (hh : s.History)
    (hs : Foundation.exec (EventLoop.step threadId_ isIn) s bs = some s') :
    s'.Served queued (k + bs.countP LoopLabel.isLower) := by
  induction bs generalizing s k with
  | nil =>
      obtain rfl := Option.some.inj hs
      exact hi
  | cons a bs ih =>
      obtain ⟨u, hu, hs⟩ := exec_cons.1 hs
      have hnext := ih (hi.step hh hu) (hh.step hu) hs
      rwa [List.countP_cons, Nat.add_comm (bs.countP _), ← Nat.add_assoc]

/-- **What is queued is started within two returns of `dopendingFunctors`**, in front of
all that is queued later, whatever the threads and the functors do.  A functor that is
pending outside a batch needs only one. -/
theorem started_within {as bs : List (LoopLabel F Tid)} {u : EventLoop F Tid}
    (hs : Foundation.exec (EventLoop.step threadId_ isIn) init as = some s)
    (hu : Foundation.exec (EventLoop.step threadId_ isIn) s bs = some u) :
    (2 ≤ bs.countP LoopLabel.isLower → s.pushed <+: u.begun) ∧
      (s.pc.running = false → 1 ≤ bs.countP LoopLabel.isLower → s.pushed <+: u.begun) := by
  have hh := history_of_exec hs
  have h₀ : s.Served s.pushed 0 :=
    ⟨List.prefix_refl _, fun hk => absurd hk (by decide), fun hk => absurd hk (by decide)⟩
  refine ⟨fun hk => ?_, fun hrun hk => ?_⟩
  · have h := h₀.exec hh hu
    rw [Nat.zero_add] at h
    exact h.begun hk
  · -- outside a batch it is as if one had just returned
    have h₁ : s.Served s.pushed 1 := by
      refine ⟨List.prefix_refl _, fun _ hr => ?_, fun hk => absurd hk (by decide)⟩
      rw [hrun] at hr
      cases hr
    exact (h₁.exec hh hu).begun (by omega)

/-- The hypotheses are satisfiable: functor `8` is queued by `7`, which is being run, so
that the batch of `7` returns without it. -/
theorem started_within_two : ∃ s u v : EventLoop ℕ ℕ,
    Foundation.exec (EventLoop.step 0 (asCompared 0)) init
        [.queueInLoop 1 7 false, .wake 1, .enter, .clearQuit, .test, .pollReturn, .dispatched,
          .raise, .swap, .start, .queueInLoop 0 8 false, .check 0, .wake 0] = some s ∧
      Foundation.exec (EventLoop.step 0 (asCompared 0)) s [.lower] = some u ∧ u.begun = [7] ∧
      Foundation.exec (EventLoop.step 0 (asCompared 0)) s
        [.lower, .test, .pollReturn, .headleRead, .dispatched, .raise, .swap, .start, .lower] =
          some v ∧ [7, 8] <+: v.begun := by
  obtain ⟨s, v, hs, hpushed, hu, hv⟩ : ∃ s v : EventLoop ℕ ℕ,
      Foundation.exec (EventLoop.step 0 (asCompared 0)) init
        [.queueInLoop 1 7 false, .wake 1, .enter, .clearQuit, .test, .pollReturn, .dispatched,
          .raise, .swap, .start, .queueInLoop 0 8 false, .check 0, .wake 0] = some s ∧
      s.pushed = [7, 8] ∧
      (∃ u, Foundation.exec (EventLoop.step 0 (asCompared 0)) s [.lower] = some u ∧
        u.begun = [7]) ∧
      Foundation.exec (EventLoop.step 0 (asCompared 0)) s
        [.lower, .test, .pollReturn, .headleRead, .dispatched, .raise, .swap, .start, .lower] =
          some v := ⟨_, _, rfl, rfl, ⟨_, rfl, rfl⟩, rfl⟩
  obtain ⟨u, hu, hbegun⟩ := hu
  exact ⟨s, u, v, hs, hu, hbegun, hv, hpushed ▸ (started_within hs hv).1 (by decide)⟩

/-! ### The end of the loop -/

/-- `quit_` stays set until `loop()` starts again. -/
theorem quit_of_step (hq : s.quit_ = true) (ha : a.isClear = false)
    (h : s.step threadId_ isIn a = some s') : s'.quit_ = true := by
  cases a with
  | clearQuit => cases ha
  | queueInLoop t f raw =>
      obtain ⟨-, h⟩ := Option.ite_none_right_eq_some.1 h
      exact Option.some.inj h ▸ hq
  | runInLoop t f raw raw' =>
      simp only [EventLoop.step, runInLoop] at h
      split_ifs at h
      · exact Option.some.inj h ▸ hq
      · obtain ⟨-, h⟩ := Option.ite_none_right_eq_some.1 h
        exact Option.some.inj h ▸ hq
  | quit t raw =>
      obtain ⟨-, h⟩ := Option.ite_none_right_eq_some.1 h
      exact Option.some.inj h ▸ rfl
  | check t | wake t | wakeup t =>
      obtain ⟨-, h⟩ := Option.ite_none_right_eq_some.1 h
      exact Option.some.inj h ▸ hq
  | enter | test | pollReturn | headleRead | dispatched | raise | swap | start | lower | leave =>
      obtain ⟨-, h⟩ := Option.ite_none_right_eq_some.1 h
      cases advance_of_loopStep h <;> exact hq

omit [DecidableEq Tid] in
/-- Inside `loop()` the thread does not go back to `epoll_wait`. -/
theorem round_of_internal (hq : s.quit_ = true) (h : s.internal threadId_ a = some s') :
    (if s.pc.waits then 1 else 0) =
        (if s'.pc.waits then 1 else 0) + (if a.isPollReturn = true then 1 else 0) ∧
      (if s.pc.inRound then 1 else 0) =
        (if s'.pc.inRound then 1 else 0) + if a.isLower = true then 1 else 0 := by
  obtain ⟨-, h⟩ := Option.ite_none_right_eq_some.1 h
  cases advance_of_loopStep h with
  | testPoll hpc hno => exact absurd (hno.symm.trans hq) Bool.false_ne_true
  | headleRead => exact ⟨rfl, rfl⟩
  | enter hpc | clearQuit hpc | testQuit hpc | pollReturn hpc | dispatched hpc | raise hpc
  | swap hpc | start hpc | lower hpc | leave hpc => rw [hpc]; exact ⟨rfl, rfl⟩

/-- **One step with `quit_` set.** -/
theorem round_of_step (hq : s.quit_ = true) (h : s.step threadId_ isIn a = some s') :
    (if s.pc.waits then 1 else 0) =
        (if s'.pc.waits then 1 else 0) + (if a.isPollReturn = true then 1 else 0) ∧
      (if s.pc.inRound then 1 else 0) =
        (if s'.pc.inRound then 1 else 0) + if a.isLower = true then 1 else 0 := by
  cases a with
  | queueInLoop t f raw => rw [(queueInLoop_queue h).2.2.2]; exact ⟨rfl, rfl⟩
  | runInLoop t f raw raw' =>
      simp only [EventLoop.step, runInLoop] at h
      split_ifs at h
      · exact Option.some.inj h ▸ ⟨rfl, rfl⟩
      · rw [(queueInLoop_queue h).2.2.2]
        exact ⟨rfl, rfl⟩
  | check t => rw [(check_quiet h).2.2.2]; exact ⟨rfl, rfl⟩
  | wake t => rw [(wake_quiet h).2.2.2]; exact ⟨rfl, rfl⟩
  | quit t raw => rw [(quit_quiet h).2.2.2]; exact ⟨rfl, rfl⟩
  | wakeup t => rw [(wakeup_quiet h).2.2.2]; exact ⟨rfl, rfl⟩
  | enter | clearQuit | test | pollReturn | headleRead | dispatched | raise | swap | start | lower
  | leave => exact round_of_internal hq h

/-- **`loop()` ends within one round.**  From a store of `true` to `quit_` until
`loop()` executes its `quit_ = false`: `epoll_wait` returns once if the thread is at it,
and never otherwise; `dopendingFunctors` returns once if the thread is in a round, and
never otherwise; and `quit_` stays set. -/
theorem quits_within {bs : List (LoopLabel F Tid)} {u : EventLoop F Tid} (hq : s.quit_ = true)
    (hclear : ∀ a ∈ bs, a.isClear = false)
    (hu : Foundation.exec (EventLoop.step threadId_ isIn) s bs = some u) :
    bs.countP LoopLabel.isPollReturn + (if u.pc.waits then 1 else 0) =
        (if s.pc.waits then 1 else 0) ∧
      bs.countP LoopLabel.isLower + (if u.pc.inRound then 1 else 0) =
        (if s.pc.inRound then 1 else 0) ∧
      u.quit_ = true := by
  have hC : Along (EventLoop.step threadId_ isIn) (fun _ a => a.isClear = false) s bs :=
    along_of_forall_mem hclear s
  have hstep (v : EventLoop F Tid) (a : LoopLabel F Tid) (v' : EventLoop F Tid)
      (hv : v.quit_ = true) (ha : a.isClear = false) (h : v.step threadId_ isIn a = some v') :=
    And.intro (quit_of_step hv ha h) (round_of_step hv h)
  refine ⟨?_, ?_, exec_invariant (fun v a v' hv ha h => (hstep v a v' hv ha h).1) hq hC hu⟩
  · exact countP_add_of_exec (fun v : EventLoop F Tid => if v.pc.waits then 1 else 0)
      (fun v a v' hv ha h => (hstep v a v' hv ha h).imp_right And.left) hq hC hu
  · exact countP_add_of_exec (fun v : EventLoop F Tid => if v.pc.inRound then 1 else 0)
      (fun v a v' hv ha h => (hstep v a v' hv ha h).imp_right And.right) hq hC hu

/-- The hypotheses are satisfiable: thread `1` calls `quit` while the loop waits, and
queues a functor that is not run any more. -/
theorem quits_within_waiting : ∃ s u : EventLoop ℕ ℕ,
    Foundation.exec (EventLoop.step 0 (asCompared 0)) init
        [.enter, .clearQuit, .test, .quit 1 false] = some s ∧
      Foundation.exec (EventLoop.step 0 (asCompared 0)) s
        [.wake 1, .pollReturn, .headleRead, .dispatched, .raise, .swap, .queueInLoop 1 7 false,
          .lower, .test, .leave] = some u ∧
      u.pendingFunctors_ = [7] ∧ 1 + (if u.pc.waits then 1 else 0) = 1 := by
  obtain ⟨s, u, hs, hq, hwaits, hu, hpending⟩ : ∃ s u : EventLoop ℕ ℕ,
      Foundation.exec (EventLoop.step 0 (asCompared 0)) init
        [.enter, .clearQuit, .test, .quit 1 false] = some s ∧ s.quit_ = true ∧
      s.pc.waits = true ∧
      Foundation.exec (EventLoop.step 0 (asCompared 0)) s
        [.wake 1, .pollReturn, .headleRead, .dispatched, .raise, .swap, .queueInLoop 1 7 false,
          .lower, .test, .leave] = some u ∧ u.pendingFunctors_ = [7] :=
    ⟨_, _, rfl, rfl, rfl, rfl, rfl⟩
  have hcount := (quits_within hq (by decide) hu).1
  rw [if_pos hwaits] at hcount
  exact ⟨s, u, hs, hu, hpending, hcount⟩

end EventLoop

end MuMuduo
