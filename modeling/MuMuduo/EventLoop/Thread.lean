/-
# A loop in a thread of its own

`EventLoopThread.h`, `EventLoopThread.cc` and `Thread.cc`.  The owner constructs
an `EventLoopThread`, calls `startLoop` and destroys it; the child runs
`threadFunc`, which has the `EventLoop` on its stack.  What the two share is
`loop_`, which the child sets once the loop is constructed and resets once
`loop()` has returned.  `startLoop` waits for the former, the destructor joins
the child unless it finds `loop_` reset.

Between two of these points any thread that has the pointer may call the loop:
the owner from the return of `startLoop` to the destructor, the child from
`callback_` and from inside `loop()`, others as long as the loop exists.

`exiting_`, the thread's name and the detaching of a thread that was never joined
are left out: nothing reads the first two, and the last has no effect on the
loop.
-/

import MuMuduo.EventLoop.Wakeup

namespace MuMuduo

open Foundation

/-- Where the owner is. -/
inductive OwnerPc
  | constructed
  /-- In `Thread::start`; `sem_wait` is next. -/
  | starting
  /-- In `startLoop`, until `loop_` is set. -/
  | waiting
  /-- `startLoop` has returned the loop. -/
  | owning
  /-- In the destructor; the test of `loop_` is next. -/
  | destroying
  /-- `loop_ = nullptr` is next. -/
  | clearing
  /-- `thread_.join()` is next. -/
  | cleared
  /-- Blocked in `thread_.join()`. -/
  | joining
  | destroyed
  deriving DecidableEq

/-- Where the child is in `threadFunc`. -/
inductive ChildPc
  | absent
  /-- `sem_post` is next. -/
  | spawned
  /-- `EventLoop loop` is next. -/
  | constructing
  /-- In `callback_`; `loop_ = &loop` is next. -/
  | initialising
  /-- `loop_` is set; the child is at `loop.loop()` or inside it. -/
  | looping
  /-- `loop()` has returned; `loop_ = nullptr` is next. -/
  | returned
  | done
  deriving DecidableEq

/-- The owner has the loop from `startLoop`, or is on its way to join the child. -/
def OwnerPc.holds : OwnerPc → Bool
  | owning | clearing | cleared | joining => true
  | _ => false

/-- The loop exists. -/
def ChildPc.alive : ChildPc → Bool
  | initialising | looping | returned => true
  | _ => false

/-- `loop_` has been set. -/
def ChildPc.published : ChildPc → Bool
  | looping | returned | done => true
  | _ => false

/-- `loop()` has executed `quit_ = false`. -/
def LoopPc.begun {F : Type*} : LoopPc F → Bool
  | outside | entered => false
  | _ => true

/-- The thread that makes a call. -/
def LoopLabel.caller {F Tid : Type*} : LoopLabel F Tid → Option Tid
  | queueInLoop t _ _ | runInLoop t _ _ _ | check t | wake t | quit t _ | wakeup t => some t
  | _ => none

/-- `loop()` returns. -/
def LoopLabel.isLeave {F Tid : Type*} : LoopLabel F Tid → Bool
  | leave => true
  | _ => false

/-- The steps of the owner, of the child, and the calls of the loop. -/
inductive ThreadLabel (F Tid : Type*)
  | start
  | started
  | startLoop
  | destroy
  | test
  | clear
  | join
  | joined
  | post
  | construct
  | publish
  /-- A step inside `loop()`. -/
  | loop (a : LoopLabel F Tid)
  | unpublish
  /-- A step of a call of the loop. -/
  | use (a : LoopLabel F Tid)

/-- `loop_ != nullptr`, the loop, and the two program counters. -/
structure EventLoopThread (F Tid : Type*) where
  loop_ : Bool
  loop : EventLoop F Tid
  owner : OwnerPc
  child : ChildPc

namespace EventLoopThread

variable {F Tid : Type*} [DecidableEq Tid]

/-- `EventLoopThread(cb, name)`. -/
def init : EventLoopThread F Tid := ⟨false, .init, .constructed, .absent⟩

variable (ownerId childId : Tid) (isIn : Tid → Bool → Bool)

/-- Thread `t` may call the loop. -/
def mayUse (s : EventLoopThread F Tid) (t : Tid) : Bool :=
  s.child.alive &&
    (if t = childId then s.child == .initialising || s.child == .looping && s.loop.pc.inside
      else t != ownerId || s.owner == .owning)

/-- One step of one thread. -/
def step (s : EventLoopThread F Tid) : ThreadLabel F Tid → Option (EventLoopThread F Tid)
  | .start =>
      if s.owner = .constructed then some { s with owner := .starting, child := .spawned }
      else none
  | .started =>
      if s.owner = .starting ∧ s.child ≠ .spawned then some { s with owner := .waiting } else none
  | .startLoop =>
      if s.owner = .waiting ∧ s.loop_ then some { s with owner := .owning } else none
  | .destroy =>
      if (s.owner = .constructed ∨ s.owner = .owning) ∧ s.loop.call ownerId = .idle then
        some { s with owner := .destroying }
      else none
  | .test =>
      if s.owner = .destroying then
        some { s with owner := if s.loop_ then .clearing else .destroyed }
      else none
  | .clear =>
      if s.owner = .clearing then some { s with loop_ := false, owner := .cleared } else none
  | .join => if s.owner = .cleared then some { s with owner := .joining } else none
  | .joined =>
      if s.owner = .joining ∧ s.child = .done then some { s with owner := .destroyed } else none
  | .post => if s.child = .spawned then some { s with child := .constructing } else none
  | .construct => if s.child = .constructing then some { s with child := .initialising } else none
  | .publish =>
      if s.child = .initialising ∧ s.loop.call childId = .idle then
        some { s with loop_ := true, child := .looping }
      else none
  | .loop a =>
      if s.child = .looping then
        (s.loop.internal childId a).map fun l =>
          { s with loop := l, child := if a.isLeave then .returned else .looping }
      else none
  | .unpublish =>
      if s.child = .returned then some { s with loop_ := false, child := .done } else none
  | .use a => match a.caller with
      | none => none
      | some t =>
          if s.mayUse ownerId childId t then
            (s.loop.step childId isIn a).map fun l => { s with loop := l }
          else none

end EventLoopThread

/-! ### What a step does to `quit_` -/

namespace EventLoop

variable {F Tid : Type*} [DecidableEq Tid] {threadId_ : Tid} {isIn : Tid → Bool → Bool}
variable {s s' : EventLoop F Tid}

/-- A call leaves the position in `loop()` alone, sets `quit_` or leaves it as it
is, and moves the calling thread only. -/
theorem call_step {a : LoopLabel F Tid} {t : Tid} (ha : a.caller = some t)
    (h : s.step threadId_ isIn a = some s') :
    s'.pc = s.pc ∧ (s.quit_ = true → s'.quit_ = true) ∧ ∀ u, u ≠ t → s'.call u = s.call u := by
  have hother {x : CallPc} : ∀ u, u ≠ t → Function.update s.call t x u = s.call u :=
    fun u hu => Function.update_of_ne hu x s.call
  have hpush {f : F} {raw : Bool} (h : s.queueInLoop threadId_ isIn t f raw = some s') :
      s'.pc = s.pc ∧ (s.quit_ = true → s'.quit_ = true) ∧ ∀ u, u ≠ t → s'.call u = s.call u := by
    obtain ⟨-, h⟩ := Option.ite_none_right_eq_some.1 h
    obtain rfl := Option.some.inj h
    exact ⟨rfl, id, hother⟩
  cases a with
  | queueInLoop u f raw =>
      obtain rfl := Option.some.inj ha
      exact hpush h
  | runInLoop u f raw raw' =>
      obtain rfl := Option.some.inj ha
      simp only [step, runInLoop] at h
      split_ifs at h
      · obtain rfl := Option.some.inj h
        exact ⟨rfl, id, fun _ _ => rfl⟩
      · exact hpush h
  | check u | wake u | quit u raw =>
      obtain rfl := Option.some.inj ha
      obtain ⟨-, h⟩ := Option.ite_none_right_eq_some.1 h
      obtain rfl := Option.some.inj h
      exact ⟨rfl, by simp, hother⟩
  | wakeup u =>
      obtain ⟨-, h⟩ := Option.ite_none_right_eq_some.1 h
      obtain rfl := Option.some.inj h
      exact ⟨rfl, id, fun _ _ => rfl⟩
  | enter | clearQuit | test | pollReturn | headleRead | dispatched | raise | swap | start | lower
  | leave => cases ha

/-- Before the first test of `quit_` no user code runs on the loop's own thread. -/
theorem caller_ne {a : LoopLabel F Tid} {t : Tid} (ha : a.caller = some t)
    (hpc : s.pc = .entered) (hidle : s.call threadId_ = .idle)
    (h : s.step threadId_ isIn a = some s') : t ≠ threadId_ := by
  rintro rfl
  have hcan : s.canCall t t = false := by
    simp [canCall, hpc, LoopPc.userCode]
  cases a with
  | queueInLoop u f raw =>
      obtain rfl := Option.some.inj ha
      simp [step, queueInLoop, hcan] at h
  | runInLoop u f raw raw' =>
      obtain rfl := Option.some.inj ha
      simp [step, runInLoop, queueInLoop, hcan] at h
  | check u | wake u =>
      obtain rfl := Option.some.inj ha
      simp [step, check, wake, hidle] at h
  | quit u raw =>
      obtain rfl := Option.some.inj ha
      simp [step, quit, hcan] at h
  | wakeup u =>
      obtain rfl := Option.some.inj ha
      simp [step, hcan] at h
  | enter | clearQuit | test | pollReturn | headleRead | dispatched | raise | swap | start | lower
  | leave => cases ha

omit [DecidableEq Tid] in
/-- **Inside `loop()` only its own first assignments reset `quit_`.** -/
theorem internal_quit {a : LoopLabel F Tid} (h : s.internal threadId_ a = some s') :
    s'.call = s.call ∧ (s'.pc = .outside ↔ a.isLeave = true) ∧
      (s.pc.begun = true →
        (s.quit_ = true → s'.quit_ = true) ∧ (s'.pc.begun = true ∨ a.isLeave = true)) := by
  rw [internal, Option.ite_none_right_eq_some] at h
  cases advance_of_loopStep h.2 with
  | clearQuit hpc | enter hpc =>
      exact ⟨rfl, by simp [LoopLabel.isLeave], fun hb => by simp [hpc, LoopPc.begun] at hb⟩
  | leave => exact ⟨rfl, by simp [LoopLabel.isLeave], fun _ => ⟨id, .inr rfl⟩⟩
  | headleRead hpc =>
      exact ⟨rfl, by simp [hpc, LoopLabel.isLeave], fun hb => ⟨id, .inl hb⟩⟩
  | testQuit | testPoll | pollReturn | dispatched | raise | swap | start | lower =>
      exact ⟨rfl, by simp [LoopLabel.isLeave], fun _ => ⟨id, .inl rfl⟩⟩

end EventLoop

namespace EventLoopThread

variable {F Tid : Type*} [DecidableEq Tid]
variable {ownerId childId : Tid} {isIn : Tid → Bool → Bool} {s s' : EventLoopThread F Tid}

/-- `loop()` has executed `quit_ = false`. -/
def begun (s : EventLoopThread F Tid) : Bool :=
  match s.child with
  | .looping => s.loop.pc.begun
  | .returned | .done => true
  | _ => false

/-- What ties the two program counters, `loop_` and the loop together. -/
structure Placed (childId : Tid) (s : EventLoopThread F Tid) : Prop where
  outside : s.child ≠ .looping → s.loop.pc = .outside
  idle : s.child = .looping → s.loop.pc.begun = false → s.loop.call childId = .idle
  absent : s.owner = .constructed → s.child = .absent
  loop_published : s.loop_ = true → s.child.published = true
  owner_published : s.owner.holds = true → s.child.published = true

omit [DecidableEq Tid] in
/-- Before the thread is started. -/
theorem placed_init : Placed childId (init : EventLoopThread F Tid) :=
  ⟨fun _ => rfl, by simp [init], fun _ => rfl, by simp [init], by simp [init, OwnerPc.holds]⟩

omit [DecidableEq Tid] in
/-- The owner moves on, to where it may be; the child and the loop stay. -/
theorem Placed.owner_step (hi : Placed childId s) {owner : OwnerPc}
    (hne : owner ≠ .constructed) (h : owner.holds = true → s.child.published = true) :
    Placed childId { s with owner := owner } :=
  ⟨hi.outside, hi.idle, fun hc => absurd hc hne, hi.loop_published, h⟩

omit [DecidableEq Tid] in
/-- The child moves on before it has set `loop_`. -/
theorem Placed.child_step (hi : Placed childId s) (hch : s.child.published = false)
    {owner : OwnerPc} {child : ChildPc} (hne : owner ≠ .constructed)
    (hh : owner.holds = true → s.owner.holds = true) (hl : child ≠ .looping) :
    Placed childId { s with owner := owner, child := child } :=
  ⟨fun _ => hi.outside fun hc => by simp [hc, ChildPc.published] at hch, fun hc => absurd hc hl,
    fun hc => absurd hc hne, fun hc => by simp [hi.loop_published hc] at hch,
    fun hc => by simp [hi.owner_published (hh hc)] at hch⟩

/-- A call of the loop is made by a thread that may make it. -/
theorem exists_of_use {a : LoopLabel F Tid} (h : s.step ownerId childId isIn (.use a) = some s') :
    ∃ t l, a.caller = some t ∧ s.mayUse ownerId childId t = true ∧
      s.loop.step childId isIn a = some l ∧ s' = { s with loop := l } := by
  rw [step] at h
  cases hc : a.caller with
  | none => simp [hc] at h
  | some t =>
      simp only [hc] at h
      obtain ⟨huse, h⟩ := Option.ite_none_right_eq_some.1 h
      obtain ⟨l, hl, rfl⟩ := Option.map_eq_some_iff.1 h
      exact ⟨t, l, rfl, huse, hl, rfl⟩

/-- **One step.** -/
theorem Placed.step {a : ThreadLabel F Tid} (hi : Placed childId s)
    (h : s.step ownerId childId isIn a = some s') : Placed childId s' := by
  cases a with
  | start =>
      obtain ⟨hpc, h⟩ := Option.ite_none_right_eq_some.1 h
      obtain rfl := Option.some.inj h
      exact hi.child_step (by simp [hi.absent hpc, ChildPc.published]) (by simp)
        (by simp [OwnerPc.holds]) (by simp)
  | started | joined | destroy =>
      obtain ⟨hpc, h⟩ := Option.ite_none_right_eq_some.1 h
      obtain rfl := Option.some.inj h
      exact hi.owner_step (by simp) (by simp [OwnerPc.holds])
  | startLoop =>
      obtain ⟨hpc, h⟩ := Option.ite_none_right_eq_some.1 h
      obtain rfl := Option.some.inj h
      exact hi.owner_step (by simp) fun _ => hi.loop_published hpc.2
  | test =>
      obtain ⟨hpc, h⟩ := Option.ite_none_right_eq_some.1 h
      obtain rfl := Option.some.inj h
      refine hi.owner_step (by split_ifs <;> simp) fun hh => ?_
      split_ifs at hh with hl
      · exact hi.loop_published hl
      · cases hh
  | clear =>
      obtain ⟨hpc, h⟩ := Option.ite_none_right_eq_some.1 h
      obtain rfl := Option.some.inj h
      exact ⟨hi.outside, hi.idle, by simp, by simp, fun _ => hi.owner_published (by rw [hpc]; rfl)⟩
  | join =>
      obtain ⟨hpc, h⟩ := Option.ite_none_right_eq_some.1 h
      obtain rfl := Option.some.inj h
      exact hi.owner_step (by simp) fun _ => hi.owner_published (by rw [hpc]; rfl)
  | post | construct =>
      obtain ⟨hpc, h⟩ := Option.ite_none_right_eq_some.1 h
      obtain rfl := Option.some.inj h
      exact hi.child_step (by simp [hpc, ChildPc.published])
        (fun hc => by simp [hi.absent hc] at hpc) id (by simp)
  | publish =>
      obtain ⟨hpc, h⟩ := Option.ite_none_right_eq_some.1 h
      obtain rfl := Option.some.inj h
      exact ⟨fun hne => absurd rfl hne, fun _ _ => hpc.2,
        fun hc => by simp [hi.absent hc] at hpc, fun _ => rfl, fun _ => rfl⟩
  | unpublish =>
      obtain ⟨hpc, h⟩ := Option.ite_none_right_eq_some.1 h
      obtain rfl := Option.some.inj h
      exact ⟨fun _ => hi.outside (by simp [hpc]), by simp, fun hc => by simp [hi.absent hc] at hpc,
        by simp, fun _ => rfl⟩
  | loop a =>
      obtain ⟨hpc, h⟩ := Option.ite_none_right_eq_some.1 h
      obtain ⟨l, hl, rfl⟩ := Option.map_eq_some_iff.1 h
      obtain ⟨hcall, hout, hbeg⟩ := EventLoop.internal_quit hl
      have hidle : s.loop.call childId = .idle := (Option.ite_none_right_eq_some.1 hl).1
      refine ⟨fun hne => hout.2 ?_, fun _ _ => hcall ▸ hidle,
        fun hc => by simp [hi.absent hc] at hpc, fun _ => ?_, fun _ => ?_⟩
      · by_contra hleave
        exact hne (if_neg hleave)
      all_goals simp only; split_ifs <;> rfl
  | use a =>
      obtain ⟨t, l, hc, huse, hl, rfl⟩ := exists_of_use h
      obtain ⟨hpc, -, hcall⟩ := EventLoop.call_step hc hl
      refine ⟨fun hne => hpc.trans (hi.outside hne), fun hch hb => ?_, hi.absent,
        hi.loop_published, hi.owner_published⟩
      simp only [hpc] at hb
      have hidle := hi.idle hch hb
      -- the child itself is not in user code before the first test of `quit_`
      have hne : childId ≠ t := by
        rintro rfl
        have hin : s.loop.pc = .entered := by
          simp only [mayUse, if_true, show s.child = .looping from hch] at huse
          cases hp : s.loop.pc <;> simp_all [LoopPc.begun, LoopPc.inside]
        exact EventLoop.caller_ne hc hin hidle hl rfl
      rw [hcall childId hne, hidle]

/-- A call of the loop moves neither the child nor the owner. -/
theorem use_step {a : LoopLabel F Tid} (h : s.step ownerId childId isIn (.use a) = some s') :
    s'.child = s.child ∧ s'.owner = s.owner ∧ s'.loop.pc = s.loop.pc ∧ s.child.alive = true ∧
      (s.loop.quit_ = true → s'.loop.quit_ = true) ∧
      s.loop.step childId isIn a = some s'.loop := by
  obtain ⟨t, l, hc, huse, hl, rfl⟩ := exists_of_use h
  obtain ⟨hpc, hquit, -⟩ := EventLoop.call_step hc hl
  rw [mayUse, Bool.and_eq_true] at huse
  exact ⟨rfl, rfl, hpc, huse.1, hquit, hl⟩

/-- **Once `loop()` has begun, `quit_` is not reset.** -/
theorem begun_step {a : ThreadLabel F Tid} (hi : Placed childId s) (hb : s.begun = true)
    (h : s.step ownerId childId isIn a = some s') :
    s'.begun = true ∧ (s.loop.quit_ = true → s'.loop.quit_ = true) := by
  cases a with
  | start =>
      obtain ⟨hpc, -⟩ := Option.ite_none_right_eq_some.1 h
      simp [begun, hi.absent hpc] at hb
  | post | construct =>
      obtain ⟨hpc, -⟩ := Option.ite_none_right_eq_some.1 h
      simp [begun, hpc] at hb
  | publish =>
      obtain ⟨hpc, -⟩ := Option.ite_none_right_eq_some.1 h
      simp [begun, hpc.1] at hb
  | started | startLoop | destroy | test | clear | join | joined =>
      obtain ⟨-, h⟩ := Option.ite_none_right_eq_some.1 h
      obtain rfl := Option.some.inj h
      exact ⟨hb, id⟩
  | unpublish =>
      obtain ⟨-, h⟩ := Option.ite_none_right_eq_some.1 h
      obtain rfl := Option.some.inj h
      exact ⟨rfl, id⟩
  | loop a =>
      obtain ⟨hpc, h⟩ := Option.ite_none_right_eq_some.1 h
      obtain ⟨l, hl, rfl⟩ := Option.map_eq_some_iff.1 h
      have hbl : s.loop.pc.begun = true := by simpa [begun, hpc] using hb
      obtain ⟨hquit, hb'⟩ := (EventLoop.internal_quit hl).2.2 hbl
      refine ⟨?_, hquit⟩
      simp only [begun]
      split_ifs with hleave
      · rfl
      · exact hb'.resolve_right hleave
  | use a =>
      obtain ⟨hch, -, hpc, -, hquit, -⟩ := use_step h
      exact ⟨by rw [begun, hch, hpc]; exact hb, hquit⟩

section Continuations

variable (ownerId isIn)

/-- The two assignments at the head of `loop()`. -/
theorem step_enter (hch : s.child = .looping) (hidle : s.loop.call childId = .idle)
    (hpc : s.loop.pc = .outside) :
    s.step ownerId childId isIn (.loop .enter) =
      some { s with loop := { s.loop with looping_ := true, pc := .entered } } := by
  simp [step, hch, EventLoop.internal, hidle, EventLoop.loopStep, hpc, LoopLabel.isLeave]

/-- The child's `quit_ = false`, which can be executed when it has entered `loop()`. -/
theorem step_clearQuit (hch : s.child = .looping) (hidle : s.loop.call childId = .idle)
    (hpc : s.loop.pc = .entered) :
    s.step ownerId childId isIn (.loop .clearQuit) =
      some { s with loop := { s.loop with quit_ := false, pc := .test } } := by
  simp [step, hch, EventLoop.internal, hidle, EventLoop.loopStep, hpc, LoopLabel.isLeave]

/-- A child on its way into `loop()` can go on to the first test of `quit_`, and
has reset it by then. -/
theorem exists_cleared (hi : Placed childId s) (hch : s.child = .looping)
    (hb : s.loop.pc.begun = false) :
    ∃ as u, exec (step ownerId childId isIn) s as = some u ∧ u.owner = s.owner ∧
      u.loop.pc = .test ∧ u.loop.quit_ = false := by
  have hidle := hi.idle hch hb
  cases hpc : s.loop.pc with
  | outside =>
      have h₁ := step_enter ownerId isIn hch hidle hpc
      set v : EventLoopThread F Tid :=
        { s with loop := { s.loop with looping_ := true, pc := .entered } }
      have h₂ : v.step ownerId childId isIn (.loop .clearQuit) = some _ :=
        step_clearQuit ownerId isIn hch hidle rfl
      exact ⟨_, _, exec_cons.2 ⟨v, h₁, exec_singleton.2 h₂⟩, rfl, rfl, rfl⟩
  | entered =>
      exact ⟨_, _, exec_singleton.2 (step_clearQuit ownerId isIn hch hidle hpc), rfl, rfl, rfl⟩
  | test | poll | dispatch | raise | swap | run | leave => simp [hpc, LoopPc.begun] at hb

/-- A child in `callback_` can finish the call it is in. -/
theorem exists_idle (childId : Tid) (hch : s.child = .initialising) (hpc : s.loop.pc = .outside) :
    ∃ as u, exec (step ownerId childId isIn) s as = some u ∧ u.child = .initialising ∧
      u.loop.pc = .outside ∧ u.loop.call childId = .idle := by
  have hwaking (v : EventLoopThread F Tid) (hv : v.child = .initialising)
      (hp : v.loop.pc = .outside) (hc : v.loop.call childId = .waking) :
      ∃ u, v.step ownerId childId isIn (.use (.wake childId)) = some u ∧ u.child = .initialising ∧
        u.loop.pc = .outside ∧ u.loop.call childId = .idle := by
    simp [step, LoopLabel.caller, mayUse, hv, ChildPc.alive, EventLoop.step, EventLoop.wake, hc, hp]
  cases hc : s.loop.call childId with
  | idle => exact ⟨[], s, rfl, hch, hpc, hc⟩
  | waking =>
      obtain ⟨u, hu, hrest⟩ := hwaking s hch hpc hc
      exact ⟨_, u, exec_singleton.2 hu, hrest⟩
  | checking =>
      obtain ⟨v, hv, hvch, hvpc, hvc⟩ :
          ∃ v, s.step ownerId childId isIn (.use (.check childId)) = some v ∧
            v.child = .initialising ∧ v.loop.pc = .outside ∧
            v.loop.call childId = if s.loop.callingPendFunctors_ then .waking else .idle := by
        simp [step, LoopLabel.caller, mayUse, hch, ChildPc.alive, EventLoop.step, EventLoop.check,
          hc, hpc]
      split_ifs at hvc with hcalling
      · obtain ⟨u, hu, hrest⟩ := hwaking v hvch hvpc hvc
        exact ⟨_, u, exec_cons.2 ⟨v, hv, exec_singleton.2 hu⟩, hrest⟩
      · exact ⟨_, v, exec_singleton.2 hv, hvch, hvpc, hvc⟩

/-- The two assignments can still come as long as `loop()` has not begun. -/
theorem exists_reset (hi : Placed childId s) (halive : s.child.alive = true)
    (hb : s.begun = false) :
    ∃ as u, exec (step ownerId childId isIn) s as = some u ∧ u.loop.pc = .test ∧
      u.loop.quit_ = false := by
  cases hch : s.child with
  | looping =>
      obtain ⟨as, u, hu, -, hrest⟩ :=
        exists_cleared ownerId isIn hi hch (by simpa [begun, hch] using hb)
      exact ⟨as, u, hu, hrest⟩
  | initialising =>
      have hpc := hi.outside (by simp [hch])
      obtain ⟨as, v, hv, hvch, hvpc, hvc⟩ := exists_idle ownerId isIn childId hch hpc
      have hpub : v.step ownerId childId isIn .publish =
          some { v with loop_ := true, child := .looping } := by
        simp [step, hvch, hvc]
      have hv' := exec_concat.2 ⟨v, hv, hpub⟩
      have hi' := exec_invariant' (fun _ _ _ h hs => Placed.step h hs) hi hv'
      obtain ⟨bs, u, hu, -, hrest⟩ :=
        exists_cleared ownerId isIn hi' rfl (by simp [hvpc, LoopPc.begun])
      exact ⟨_, u, exec_append.2 ⟨_, hv', hu⟩, hrest⟩
  | returned | done => simp [begun, hch] at hb
  | absent | spawned | constructing => simp [hch, ChildPc.alive] at halive

end Continuations

/-! ### A request to quit -/

/-- `quit_` is set, and the next test of `while(!quit_)` leaves the loop. -/
def Heeded (ownerId childId : Tid) (isIn : Tid → Bool → Bool) (s : EventLoopThread F Tid) : Prop :=
  s.loop.quit_ = true ∧
    ∀ s', s.step ownerId childId isIn (.loop .test) = some s' → s'.loop.pc = .leave

/-- A `quit_` that is set is heeded. -/
theorem heeded_of_quit (h : s.loop.quit_ = true) : Heeded ownerId childId isIn s := by
  refine ⟨h, fun s' hs => ?_⟩
  obtain ⟨-, hs⟩ := Option.ite_none_right_eq_some.1 hs
  obtain ⟨l, hl, rfl⟩ := Option.map_eq_some_iff.1 hs
  cases EventLoop.advance_of_loopStep (Option.ite_none_right_eq_some.1 hl).2 with
  | testQuit => rfl
  | testPoll hpc hquit => simp [h] at hquit

/-- **When a request to quit is heeded.**  At whatever moment a thread calls
`quit()`, `quit_` stays set in every continuation, and the next test leaves the
loop, exactly when `loop()` has executed its own `quit_ = false` before. -/
theorem heeded_iff_begun {as : List (ThreadLabel F Tid)}
    (hs : exec (step ownerId childId isIn) init as = some s) {t : Tid} {raw : Bool}
    (hq : s.step ownerId childId isIn (.use (.quit t raw)) = some s') :
    (∀ bs u, exec (step ownerId childId isIn) s' bs = some u → Heeded ownerId childId isIn u) ↔
      s.begun = true := by
  have hi : Placed childId s := exec_invariant' (fun _ _ _ h hs => Placed.step h hs) placed_init hs
  obtain ⟨hch, -, hpc, halive, -, hl⟩ := use_step hq
  have hset : s'.loop.quit_ = true := by
    obtain ⟨-, hl⟩ := Option.ite_none_right_eq_some.1 hl
    rw [← Option.some.inj hl]
  have hbs : s'.begun = s.begun := by rw [begun, begun, hch, hpc]
  constructor
  · intro h
    by_contra hb
    obtain ⟨bs, u, hu, -, hquit⟩ := exists_reset ownerId isIn (hi.step hq) (hch ▸ halive)
      (hbs.trans (Bool.eq_false_iff.2 hb))
    simp [(h bs u hu).1] at hquit
  · intro hb bs u hu
    have hkept : Placed childId u ∧ u.begun = true ∧ u.loop.quit_ = true := by
      refine exec_invariant' (I := fun v => Placed childId v ∧ v.begun = true ∧ v.loop.quit_ = true)
        (fun v a v' hv hstep => ?_) ⟨hi.step hq, hbs.trans hb, hset⟩ hu
      obtain ⟨hb', hq'⟩ := begun_step hv.1 hv.2.1 hstep
      exact ⟨hv.1.step hstep, hb', hq' hv.2.2⟩
    exact heeded_of_quit hkept.2.2

/-- The owner has the loop and the child is inside `loop()`. -/
def serving : List (ThreadLabel ℕ ℕ) :=
  [.start, .post, .construct, .started, .publish, .startLoop, .loop .enter, .loop .clearQuit]

/-- The state after `serving`. -/
def served : EventLoopThread ℕ ℕ :=
  ⟨true, { EventLoop.init with looping_ := true, pc := .test }, .owning, .looping⟩

/-- The hypotheses are satisfiable: the owner `0` calls `quit()` once the child `1`
is inside `loop()`. -/
theorem heeded_serving :
    ∃ s' : EventLoopThread ℕ ℕ, exec (step 0 1 (asCompared 1)) init serving = some served ∧
      served.step 0 1 (asCompared 1) (.use (.quit 0 false)) = some s' ∧
      ∀ bs u, exec (step 0 1 (asCompared 1)) s' bs = some u → Heeded 0 1 (asCompared 1) u := by
  have hs : exec (step 0 1 (asCompared 1)) init serving = some served := rfl
  have hq : served.step 0 1 (asCompared 1) (.use (.quit 0 false)) = some { served with
      loop := { served.loop with
        quit_ := true
        call := Function.update served.loop.call 0 .waking } } := rfl
  exact ⟨_, hs, hq, (heeded_iff_begun hs hq).2 rfl⟩

/-- **A request to quit is lost.**  `startLoop` returns as soon as `loop_` is set;
the owner calls `quit()` at once, and then the child enters `loop()`, resets
`quit_` and waits for events. -/
theorem not_heeded_early :
    ∃ s s' u : EventLoopThread ℕ ℕ,
      exec (step 0 1 (asCompared 1)) init
        [.start, .post, .construct, .started, .publish, .startLoop] = some s ∧
      s.step 0 1 (asCompared 1) (.use (.quit 0 false)) = some s' ∧ s'.loop.quit_ = true ∧
      exec (step 0 1 (asCompared 1)) s'
        [.use (.wake 0), .loop .enter, .loop .clearQuit, .loop .test] = some u ∧
      u.loop.quit_ = false ∧ u.loop.pc = .poll :=
  ⟨_, _, _, rfl, rfl, rfl, rfl, rfl, rfl⟩

/-! ### The join -/

/-- Where the destructor is blocked in `thread_.join()` and the child is inside
`loop()`, `quit_` is set. -/
def AskedToQuit (s : EventLoopThread F Tid) : Prop :=
  s.owner = .joining → s.loop.pc.inside = true → s.loop.quit_ = true

/-- `loop()` has executed its own `quit_ = false`, and it has returned, or `quit()`
has been called since. -/
def Dismissed (s : EventLoopThread F Tid) : Prop :=
  s.begun = true ∧ (s.loop.pc.inside = true → s.loop.quit_ = true)

/-- The destructor joins a child that has been dismissed. -/
def JoinsDismissed (s : EventLoopThread F Tid) : ThreadLabel F Tid → Prop
  | .join => s.Dismissed
  | _ => True

/-- Only the child, between `publish` and the return of `loop()`, moves inside it. -/
theorem pc_step {a : ThreadLabel F Tid} (h : s.step ownerId childId isIn a = some s') :
    s.child = .looping ∨ s'.loop.pc = s.loop.pc := by
  cases a with
  | loop a => exact .inl (Option.ite_none_right_eq_some.1 h).1
  | use a => exact .inr (use_step h).2.2.1
  | start | started | startLoop | destroy | test | clear | join | joined | post | construct
  | publish | unpublish =>
      obtain ⟨-, h⟩ := Option.ite_none_right_eq_some.1 h
      obtain rfl := Option.some.inj h
      exact .inr rfl

/-- **A child that has been dismissed stays so.** -/
theorem Dismissed.step {a : ThreadLabel F Tid} (hi : Placed childId s) (hd : s.Dismissed)
    (h : s.step ownerId childId isIn a = some s') : s'.Dismissed := by
  obtain ⟨hb, hq⟩ := hd
  obtain ⟨hb', hq'⟩ := begun_step hi hb h
  refine ⟨hb', fun hin => ?_⟩
  rcases pc_step h with hch | hpc
  · -- begun and not yet returned: inside `loop()`
    refine hq' (hq ?_)
    simp only [begun, hch] at hb
    cases hpc : s.loop.pc <;> simp_all [LoopPc.begun, LoopPc.inside]
  · exact hq' (hq (hpc ▸ hin))

/-- The owner comes to be blocked in `thread_.join()` by calling it. -/
theorem joining_step {a : ThreadLabel F Tid} (h : s.step ownerId childId isIn a = some s')
    (hj : s'.owner = .joining) :
    s.owner = .joining ∨ a = .join := by
  cases a with
  | join => exact .inr rfl
  | use a => exact .inl ((use_step h).2.1 ▸ hj)
  | loop a =>
      obtain ⟨-, h⟩ := Option.ite_none_right_eq_some.1 h
      obtain ⟨l, -, rfl⟩ := Option.map_eq_some_iff.1 h
      exact .inl hj
  | post | construct | publish | unpublish =>
      obtain ⟨-, h⟩ := Option.ite_none_right_eq_some.1 h
      obtain rfl := Option.some.inj h
      exact .inl hj
  | start | started | startLoop | destroy | clear | joined =>
      obtain ⟨-, h⟩ := Option.ite_none_right_eq_some.1 h
      obtain rfl := Option.some.inj h
      cases hj
  | test =>
      obtain ⟨-, h⟩ := Option.ite_none_right_eq_some.1 h
      obtain rfl := Option.some.inj h
      simp only at hj
      split_ifs at hj

/-- **When the join is a wait for something asked for.**  In a run whose
destructor joins a dismissed child only, `quit_` is set wherever the destructor is
blocked with the child inside `loop()`.  And a join is followed by such states
only if the child was dismissed where it was made: the destructor itself asks
for nothing. -/
theorem asked_iff_dismissed {as : List (ThreadLabel F Tid)}
    (hs : exec (step ownerId childId isIn) init as = some s) :
    (Along (step ownerId childId isIn) JoinsDismissed init as → s.AskedToQuit) ∧
      ∀ s', s.step ownerId childId isIn .join = some s' →
        ((∀ bs u, exec (step ownerId childId isIn) s' bs = some u → u.AskedToQuit) ↔
          s.Dismissed) := by
  constructor
  · intro hal
    have hd : Placed childId s ∧ (s.owner = .joining → s.Dismissed) := by
      refine exec_invariant (I := fun v => Placed childId v ∧ (v.owner = .joining → v.Dismissed))
        (fun v a v' hv hj hstep => ⟨hv.1.step hstep, fun hown => ?_⟩)
        ⟨placed_init, by simp [init]⟩ hal hs
      refine Dismissed.step hv.1 ?_ hstep
      rcases joining_step hstep hown with hown | rfl
      · exact hv.2 hown
      · exact hj
    exact fun hown => (hd.2 hown).2
  · intro s' hj
    have hi : Placed childId s :=
      exec_invariant' (fun _ _ _ h hs => Placed.step h hs) placed_init hs
    have hi' := hi.step hj
    obtain ⟨hown, hj⟩ := Option.ite_none_right_eq_some.1 hj
    obtain rfl := Option.some.inj hj
    have hpub := hi.owner_published (by rw [hown]; rfl)
    constructor
    · intro h
      have hnow : AskedToQuit { s with owner := .joining } := h [] _ rfl
      refine ⟨?_, hnow rfl⟩
      by_contra hb
      -- the child is at the head of `loop()`, and goes on to its first test
      have hch : s.child = .looping := by
        cases hch : s.child <;> simp_all [begun, ChildPc.published]
      have hb' : s.loop.pc.begun = false := by
        simpa [begun, hch] using hb
      obtain ⟨bs, u, hu, howner, hpc, hquit⟩ := exists_cleared ownerId isIn hi' hch hb'
      have hq := h bs u hu howner (by rw [hpc]; rfl)
      simp [hq] at hquit
    · intro hd bs u hu
      have hkept : Placed childId u ∧ u.Dismissed :=
        exec_invariant' (I := fun v => Placed childId v ∧ v.Dismissed)
          (fun v a v' hv hstep => ⟨hv.1.step hstep, hv.2.step hv.1 hstep⟩) ⟨hi', hd⟩ hu
      exact fun _ => hkept.2.2

/-- The hypotheses are satisfiable: the owner `0` calls `quit()` before it destroys
the thread, and goes into the join while the child is still inside `loop()`. -/
theorem asked_serving :
    ∃ s s' : EventLoopThread ℕ ℕ,
      exec (step 0 1 (asCompared 1)) init
        (serving ++ [.use (.quit 0 false), .use (.wake 0), .destroy, .test, .clear]) = some s ∧
      s.step 0 1 (asCompared 1) .join = some s' ∧ s'.loop.pc.inside = true ∧
      ∀ bs u, exec (step 0 1 (asCompared 1)) s' bs = some u → u.AskedToQuit := by
  set call := Function.update (Function.update served.loop.call 0 .waking) 0 .idle with hcall
  have hs : exec (step 0 1 (asCompared 1)) (init : EventLoopThread ℕ ℕ)
      (serving ++ [.use (.quit 0 false), .use (.wake 0), .destroy, .test, .clear]) =
      some ⟨false, { served.loop with quit_ := true, wakeupFd_ := 1, call := call }, .cleared,
        .looping⟩ := rfl
  exact ⟨_, _, hs, rfl, rfl, ((asked_iff_dismissed hs).2 _ rfl).2 ⟨rfl, fun _ => rfl⟩⟩

/-- **The destructor waits for a loop that nobody has asked to quit.**  The owner
destroys the thread while the child waits for events: `loop_` is reset, `quit()` is
not called, and the destructor is blocked in `thread_.join()`. -/
theorem not_asked_destroyed :
    ∃ s : EventLoopThread ℕ ℕ,
      exec (step 0 1 (asCompared 1)) init
        (serving ++ [.loop .test, .destroy, .test, .clear, .join]) = some s ∧
      s.owner = .joining ∧ s.loop.pc = .poll ∧ s.loop.quit_ = false ∧ ¬s.AskedToQuit :=
  ⟨_, rfl, rfl, rfl, rfl, fun h => by cases h rfl rfl⟩

end EventLoopThread

end MuMuduo
