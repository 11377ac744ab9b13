/-
# One event loop and the threads that call it

`EventLoop.h` and `EventLoop.cc` as a step function.  One thread, `threadId_`,
runs `loop()`; every thread may call `queueInLoop`, `runInLoop`, `quit` and
`wakeup`.  A mutex section, an access to an atomic member and a read or write of
`wakeupFd_` is one step, and where a thread is between two steps is its program
counter: `pc` inside `loop()`, `call t` inside a call made by `t`.

The functors are opaque.  What a functor or an event handler does to this loop
is a call by the loop's own thread, which may be made at any moment at which
user code runs on it (`LoopPc.userCode`), so a list of labels ranges over every
behaviour of every functor.

`isInLoopThread` has no `return`: it computes `threadId_ == CurrentThread::tid()`
and drops it.  The value a call finds is therefore part of the label (`raw`),
and `isIn` says what is made of it: nothing (`asReturned`), or the comparison
that is written in the body (`asCompared`).
-/

import MuMuduo.Foundation.Run
import Mathlib.Algebra.Group.Nat.Defs
import Mathlib.Logic.Function.Basic

namespace MuMuduo

open Foundation

/-- Where the loop's thread is inside `loop()` and `dopendingFunctors()`.  The
local vector `functors` is split at the functor that is running: `started` ends
with it, `rest` has not been started. -/
inductive LoopPc (F : Type*)
  | outside
  /-- `looping_` is set, `quit_ = false` is next. -/
  | entered
  /-- The test of `while(!quit_)` is next. -/
  | test
  /-- In `epoll_wait`, or about to call it. -/
  | poll
  /-- In the loop over `activeChannels_`. -/
  | dispatch
  /-- `callingPendFunctors_ = true` is next. -/
  | raise
  /-- The swap under the mutex is next. -/
  | swap
  | run (started rest : List F)
  /-- `looping_ = false` is next. -/
  | leave

/-- Where a thread is inside a call. -/
inductive CallPc
  | idle
  /-- It is the loop's own thread as far as it can tell; it reads
  `callingPendFunctors_` next. -/
  | checking
  /-- It has pushed its functor, or set `quit_`; the write of `wakeup()` is
  next. -/
  | waking
  deriving DecidableEq

namespace LoopPc

variable {F : Type*}

/-- User code may be running on the loop's thread. -/
def userCode : LoopPc F → Bool
  | outside | dispatch | run _ _ => true
  | _ => false

/-- The loop over `activeChannels_`. -/
def isDispatch : LoopPc F → Bool
  | dispatch => true
  | _ => false

/-- The part of the current batch that has not been started. -/
def rest : LoopPc F → List F
  | run _ rest => rest
  | _ => []

/-- The vector `functors` of the running `dopendingFunctors()`. -/
def batch : LoopPc F → List F
  | run started rest => started ++ rest
  | _ => []

/-- What is left of the batch is in it. -/
theorem mem_batch_of_mem_rest {pc : LoopPc F} {f : F} (h : f ∈ pc.rest) : f ∈ pc.batch := by
  cases pc with
  | run started rest => exact List.mem_append_right started h
  | _ => cases h

/-- In the dispatch there is no batch. -/
theorem rest_of_isDispatch {pc : LoopPc F} (h : pc.isDispatch = true) : pc.rest = [] := by
  cases pc with
  | dispatch => rfl
  | _ => cases h

end LoopPc

/-- The members of `EventLoop`, the program counters, and the history: the
functors pushed in the order of the lock, and those started from a batch. -/
structure EventLoop (F Tid : Type*) where
  looping_ : Bool
  quit_ : Bool
  callingPendFunctors_ : Bool
  pendingFunctors_ : List F
  wakeupFd_ : ℕ
  pc : LoopPc F
  call : Tid → CallPc
  pushed : List F
  begun : List F

/-- The steps of the loop's thread inside `loop()`, and the calls. -/
inductive LoopLabel (F Tid : Type*)
  | enter
  | clearQuit
  | test
  | pollReturn
  | headleRead
  | dispatched
  | raise
  | swap
  | start
  | lower
  | leave
  | queueInLoop (t : Tid) (f : F) (raw : Bool)
  | runInLoop (t : Tid) (f : F) (raw raw' : Bool)
  | check (t : Tid)
  | wake (t : Tid)
  | quit (t : Tid) (raw : Bool)
  | wakeup (t : Tid)

/-- `epoll_wait` returns. -/
def LoopLabel.isPollReturn {F Tid : Type*} : LoopLabel F Tid → Bool
  | .pollReturn => true
  | _ => false

/-- The body of `isInLoopThread` read as what it compares. -/
def asCompared {Tid : Type*} [DecidableEq Tid] (threadId_ : Tid) (t : Tid) (_ : Bool) : Bool :=
  decide (threadId_ = t)

/-- `isInLoopThread` as it stands: the value is whatever the caller finds. -/
def asReturned {Tid : Type*} (_ : Tid) (raw : Bool) : Bool := raw

/-- The largest value an eventfd counter takes. -/
def eventfdMax : ℕ := 2 ^ 64 - 2

/-- `write(wakeupFd_, &one, 8)` on a non-blocking eventfd: refused if the counter
would pass its maximum. -/
def eventfdWrite (counter : ℕ) : ℕ := if counter < eventfdMax then counter + 1 else counter

/-- After a `write` the counter of the eventfd is not zero. -/
theorem eventfdWrite_pos (counter : ℕ) : 0 < eventfdWrite counter := by
  unfold eventfdWrite eventfdMax
  split_ifs <;> omega

namespace EventLoop

variable {F Tid : Type*} [DecidableEq Tid]

/-- `EventLoop::EventLoop()`. -/
def init : EventLoop F Tid where
  looping_ := false
  quit_ := false
  callingPendFunctors_ := false
  pendingFunctors_ := []
  wakeupFd_ := 0
  pc := .outside
  call := fun _ => .idle
  pushed := []
  begun := []

variable (threadId_ : Tid) (isIn : Tid → Bool → Bool)

/-- Thread `t` may make a call: it is in none, and user code runs on it. -/
def canCall (s : EventLoop F Tid) (t : Tid) : Bool :=
  s.call t == .idle && (t != threadId_ || s.pc.userCode)

/-- `queueInLoop`: the push under the lock, up to the wakeup decision. -/
def queueInLoop (s : EventLoop F Tid) (t : Tid) (f : F) (raw : Bool) : Option (EventLoop F Tid) :=
  if s.canCall threadId_ t then
    some { s with
      pendingFunctors_ := s.pendingFunctors_ ++ [f]
      pushed := s.pushed ++ [f]
      call := Function.update s.call t (if isIn t raw then .checking else .waking) }
  else none

/-- `runInLoop`: `cb()` at once, which leaves the loop as it is, or
`queueInLoop(cb)`. -/
def runInLoop (s : EventLoop F Tid) (t : Tid) (f : F) (raw raw' : Bool) :
    Option (EventLoop F Tid) :=
  if isIn t raw then
    if s.canCall threadId_ t then some s else none
  else s.queueInLoop threadId_ isIn t f raw'

/-- `quit`: the store to `quit_`, up to the wakeup decision. -/
def quit (s : EventLoop F Tid) (t : Tid) (raw : Bool) : Option (EventLoop F Tid) :=
  if s.canCall threadId_ t then
    some { s with
      quit_ := true
      call := Function.update s.call t (if isIn t raw then .idle else .waking) }
  else none

/-- The read of `callingPendFunctors_` in `queueInLoop`. -/
def check (s : EventLoop F Tid) (t : Tid) : Option (EventLoop F Tid) :=
  if s.call t = .checking then
    some { s with
      call := Function.update s.call t (if s.callingPendFunctors_ then .waking else .idle) }
  else none

/-- The write of `wakeup()` at the end of `queueInLoop` or `quit`. -/
def wake (s : EventLoop F Tid) (t : Tid) : Option (EventLoop F Tid) :=
  if s.call t = .waking then
    some { s with
      wakeupFd_ := eventfdWrite s.wakeupFd_
      call := Function.update s.call t .idle }
  else none

/-- A step of the loop's own thread inside `loop()`. -/
def loopStep (s : EventLoop F Tid) : LoopLabel F Tid → Option (EventLoop F Tid)
  | .enter => match s.pc with
      | .outside => some { s with looping_ := true, pc := .entered }
      | _ => none
  | .clearQuit => match s.pc with
      | .entered => some { s with quit_ := false, pc := .test }
      | _ => none
  | .test => match s.pc with
      | .test => some { s with pc := if s.quit_ then .leave else .poll }
      | _ => none
  | .pollReturn => match s.pc with
      | .poll => some { s with pc := .dispatch }
      | _ => none
  | .headleRead => match s.pc with
      | .dispatch => some { s with wakeupFd_ := 0 }
      | _ => none
  | .dispatched => match s.pc with
      | .dispatch => some { s with pc := .raise }
      | _ => none
  | .raise => match s.pc with
      | .raise => some { s with callingPendFunctors_ := true, pc := .swap }
      | _ => none
  | .swap => match s.pc with
      | .swap => some { s with pendingFunctors_ := [], pc := .run [] s.pendingFunctors_ }
      | _ => none
  | .start => match s.pc with
      | .run started (f :: rest) => some { s with
          pc := .run (started ++ [f]) rest
          begun := s.begun ++ [f] }
      | _ => none
  | .lower => match s.pc with
      | .run _ [] => some { s with callingPendFunctors_ := false, pc := .test }
      | _ => none
  | .leave => match s.pc with
      | .leave => some { s with looping_ := false, pc := .outside }
      | _ => none
  | _ => none

/-- What a step inside `loop()` can do: one constructor for each statement, and
two for the test of `quit_`. -/
inductive Advance (s : EventLoop F Tid) : LoopLabel F Tid → EventLoop F Tid → Prop
  | enter (hpc : s.pc = .outside) : Advance s .enter { s with looping_ := true, pc := .entered }
  | clearQuit (hpc : s.pc = .entered) : Advance s .clearQuit { s with quit_ := false, pc := .test }
  | testQuit (hpc : s.pc = .test) (hquit : s.quit_ = true) :
      Advance s .test { s with pc := .leave }
  | testPoll (hpc : s.pc = .test) (hquit : s.quit_ = false) :
      Advance s .test { s with pc := .poll }
  | pollReturn (hpc : s.pc = .poll) : Advance s .pollReturn { s with pc := .dispatch }
  | headleRead (hpc : s.pc = .dispatch) : Advance s .headleRead { s with wakeupFd_ := 0 }
  | dispatched (hpc : s.pc = .dispatch) : Advance s .dispatched { s with pc := .raise }
  | raise (hpc : s.pc = .raise) :
      Advance s .raise { s with callingPendFunctors_ := true, pc := .swap }
  | swap (hpc : s.pc = .swap) :
      Advance s .swap { s with pendingFunctors_ := [], pc := .run [] s.pendingFunctors_ }
  | start {started : List F} {f : F} {rest : List F} (hpc : s.pc = .run started (f :: rest)) :
      Advance s .start { s with pc := .run (started ++ [f]) rest, begun := s.begun ++ [f] }
  | lower {started : List F} (hpc : s.pc = .run started []) :
      Advance s .lower { s with callingPendFunctors_ := false, pc := .test }
  | leave (hpc : s.pc = .leave) : Advance s .leave { s with looping_ := false, pc := .outside }

omit [DecidableEq Tid] in
/-- **What the loop's own thread does in one step**, by the place it is at. -/
theorem advance_of_loopStep {s s' : EventLoop F Tid} {a : LoopLabel F Tid}
    (h : s.loopStep a = some s') : Advance s a s' := by
  cases a with
  | queueInLoop | runInLoop | check | wake | quit | wakeup => simp [loopStep] at h
  | test =>
      simp only [loopStep] at h
      split at h <;> simp only [Option.some.injEq, reduceCtorEq] at h
      subst h
      split_ifs with hquit
      · exact .testQuit ‹_› hquit
      · exact .testPoll ‹_› (Bool.eq_false_iff.2 hquit)
  | enter | clearQuit | pollReturn | headleRead | dispatched | raise | swap | start | lower
  | leave =>
      simp only [loopStep] at h
      split at h <;> simp only [Option.some.injEq, reduceCtorEq] at h
      subst h
      constructor
      assumption

/-- A step inside `loop()` is taken when the thread is in no call. -/
def internal (s : EventLoop F Tid) (a : LoopLabel F Tid) : Option (EventLoop F Tid) :=
  if s.call threadId_ = .idle then s.loopStep a else none

/-- One step of one thread. -/
def step (s : EventLoop F Tid) : LoopLabel F Tid → Option (EventLoop F Tid)
  | .queueInLoop t f raw => s.queueInLoop threadId_ isIn t f raw
  | .runInLoop t f raw raw' => s.runInLoop threadId_ isIn t f raw raw'
  | .check t => s.check t
  | .wake t => s.wake t
  | .quit t raw => s.quit threadId_ isIn t raw
  | .wakeup t =>
      if s.canCall threadId_ t then some { s with wakeupFd_ := eventfdWrite s.wakeupFd_ } else none
  | a => s.internal threadId_ a

end EventLoop

end MuMuduo
