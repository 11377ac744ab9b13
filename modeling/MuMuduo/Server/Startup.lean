/-
# Starting a server

`TcpServer::start` may be called by any number of threads at once.  The one that finds
`started_` at zero starts the thread pool, which makes one loop after the other, and then
has the base loop call `Acceptor::listen`: at once if it is the base loop's thread, by
way of the queue otherwise.  Meanwhile the base loop may be running.  Nothing protects
`loops_`, which `start` fills and `getNextLoop` reads; what keeps them apart is that a
connection is accepted after `listen` only, and that only one call gets past `started_`
(`Phase`).

So `listen` is called at most once, and whatever thread has called `start`, every
connection finds the pool complete, with one loop of its own for each thread
(`started_once`): it is the pool that `Listener.ofServer` begins with.  The counter is
an `int`, and goes round after `2 ^ 32` calls (`listened_twice`).
-/

import MuMuduo.Server.Accept

namespace MuMuduo

open Foundation

/-- Where a thread is in `TcpServer::start`. -/
inductive StartPc
  | idle
  /-- In `EventLoopThreadPool::start`; thread number `i` is next. -/
  | creating (i : ℕ)
  /-- The pool has been started; `runInLoop` is next. -/
  | created
  deriving DecidableEq

/-- The members of a server and of its pool that `start` works on, the calls of
`Acceptor::listen` that wait in the base loop's queue, and where each thread is.  Not in
the source are `calls` and `listened`, which count the calls of `start` and of `listen`,
`initialised`, the loops that `threadInitCallback_` was called with, and `seen`, what each
`getNextLoop` has found in `loops_`. -/
structure Startup (LoopId Tid : Type*) where
  name_ : List Char
  numThreads_ : BitVec 32
  baseLoop_ : LoopId
  started_ : BitVec 32
  threads_ : List (List Char)
  loops_ : List LoopId
  pendingFunctors_ : ℕ
  pc : Tid → StartPc
  calls : ℕ
  listened : ℕ
  initialised : List LoopId
  seen : List (List LoopId)

/-- The characters at `c_str()`, up to the first zero. -/
def cStr (text : List Char) : List Char := text.takeWhile fun c => c.toNat ≠ 0

/-- `name_` of a `Thread`, as `setDefaultName` leaves it. -/
def Thread.nameOf (name : List Char) (num : ℤ) : List Char :=
  if name = [] then snprintf 32 (['T', 'h', 'r', 'e', 'a', 'd'] ++ decimalInt num) else name

namespace Startup

variable {LoopId Tid : Type*}

/-- The steps. -/
inductive Label (LoopId Tid : Type*)
  /-- `TcpServer::start`, up to `threadPool_->start`. -/
  | start (t : Tid)
  /-- One round of the loop in `EventLoopThreadPool::start`; `startLoop` returns `loop`,
  and `num` is the result of `++numCreated_`. -/
  | startLoop (t : Tid) (loop : LoopId) (num : ℤ)
  /-- The end of `EventLoopThreadPool::start`. -/
  | poolStarted (t : Tid)
  | runInLoop (t : Tid)
  /-- The base loop calls `Acceptor::listen`. -/
  | doPendingFunctor
  /-- The base loop accepts a connection. -/
  | newConnection

/-- A server that has been constructed, after `setThreadNum`. -/
def ofServer (nameArg : List Char) (numThread : BitVec 32) (loop : LoopId) :
    Startup LoopId Tid where
  name_ := nameArg
  numThreads_ := numThread
  baseLoop_ := loop
  started_ := 0
  threads_ := []
  loops_ := []
  pendingFunctors_ := 0
  pc _ := .idle
  calls := 0
  listened := 0
  initialised := []
  seen := []

/-- How often the loop in `EventLoopThreadPool::start` goes round. -/
def rounds (s : Startup LoopId Tid) : ℕ := s.numThreads_.toInt.toNat

/-- `"%s%d"` in a buffer of `name_.size() + 32` characters. -/
def threadName (nameArg : List Char) (i : ℕ) : List Char :=
  snprintf (nameArg.length + 32) (cStr nameArg ++ decimalInt i)

/-- The pool as the members have it. -/
def pool (s : Startup LoopId Tid) : EventLoopThreadPool LoopId :=
  EventLoopThreadPool.ofLoops s.baseLoop_ s.loops_

variable [DecidableEq LoopId] [DecidableEq Tid]

def setPc (s : Startup LoopId Tid) (t : Tid) (pc : StartPc) : Startup LoopId Tid :=
  { s with pc := Function.update s.pc t pc }

/-- One step, where `baseThread` is the thread of the base loop and `callback` says
whether there is a `threadInitCallback_`.  That may call `start` in turn.  A loop that
`startLoop` returns is none of those that are there: each is an object of its own. -/
def step (baseThread : Tid) (callback : Bool) (s : Startup LoopId Tid) :
    Label LoopId Tid → Option (Startup LoopId Tid)
  | .start t =>
      if s.started_ = 0 then
        if s.pc t = .idle then
          some ({ s with started_ := s.started_ + 1, calls := s.calls + 1 }.setPc t (.creating 0))
        else none
      else some { s with started_ := s.started_ + 1, calls := s.calls + 1 }
  | .startLoop t loop num => match s.pc t with
      | .creating i =>
          if i < s.rounds ∧ loop ∉ s.baseLoop_ :: s.loops_ then
            some ({ s with
              threads_ := s.threads_ ++ [Thread.nameOf (threadName s.name_ i) num]
              loops_ := s.loops_ ++ [loop]
              initialised := s.initialised ++ if callback then [loop] else [] }.setPc t
                (.creating (i + 1)))
          else none
      | _ => none
  | .poolStarted t => match s.pc t with
      | .creating i =>
          if i < s.rounds then none
          else some ({ s with
            initialised := s.initialised ++
              if s.numThreads_ = 0 ∧ callback then [s.baseLoop_] else [] }.setPc t .created)
      | _ => none
  | .runInLoop t =>
      if s.pc t = .created then
        some ((if t = baseThread then { s with listened := s.listened + 1 }
          else { s with pendingFunctors_ := s.pendingFunctors_ + 1 }).setPc t .idle)
      else none
  | .doPendingFunctor =>
      if 0 < s.pendingFunctors_ ∧ s.pc baseThread = .idle then
        some { s with
          pendingFunctors_ := s.pendingFunctors_ - 1
          listened := s.listened + 1 }
      else none
  | .newConnection =>
      if 0 < s.listened ∧ s.pc baseThread = .idle then some { s with seen := s.seen ++ [s.loops_] }
      else none

/-! ### The names of the threads -/

omit [DecidableEq LoopId] [DecidableEq Tid] in
/-- The rounds are in the range of `int`. -/
theorem rounds_lt (s : Startup LoopId Tid) : s.rounds < 2 ^ 31 := by
  have h : s.numThreads_.toInt < 2 ^ (32 - 1) := BitVec.toInt_lt
  unfold rounds
  omega

/-- The characters up to the first zero are not more than all. -/
theorem length_cStr_le (text : List Char) : (cStr text).length ≤ text.length :=
  (List.takeWhile_sublist _).length_le

/-- No name is cut off. -/
theorem threadName_eq (nameArg : List Char) {i : ℕ} (hi : i < 2 ^ 31) :
    threadName nameArg i = cStr nameArg ++ decimal i := by
  have hlen : (decimal i).length ≤ 10 := length_decimal_le (by decide) (by omega)
  have hname := length_cStr_le nameArg
  rw [threadName, decimalInt_natCast, snprintf_eq]
  rw [List.length_append]
  omega

/-- No thread of the pool gets a name of the form `Thread%d` for lack of its own. -/
theorem nameOf_threadName (nameArg : List Char) {i : ℕ} (hi : i < 2 ^ 31) (num : ℤ) :
    Thread.nameOf (threadName nameArg i) num = cStr nameArg ++ decimal i := by
  have hne : decimal i ≠ [] := Nat.toDigits_ne_nil
  rw [Thread.nameOf, threadName_eq nameArg hi, if_neg]
  simp [hne]

/-! ### The one call that gets past `started_` -/

/-- The pool is complete, and `threadInitCallback_` has been called for what
`getAllLoops` returns; not for the base loop if the number of threads is negative. -/
structure Complete (callback : Bool) (s : Startup LoopId Tid) : Prop where
  length_eq : s.loops_.length = s.rounds
  initialised_eq : s.initialised =
    if callback ∧ 0 ≤ s.numThreads_.toInt then s.pool.getAllLoops else []

/-- How far the start has come. -/
inductive Phase (callback : Bool) (s : Startup LoopId Tid) : Prop
  /-- `start` has not been called. -/
  | fresh (hcalls : s.calls = 0) (hpc : ∀ t, s.pc t = .idle) (hloops : s.loops_ = [])
      (hinit : s.initialised = []) (hlisten : s.pendingFunctors_ + s.listened = 0)
  /-- Thread `t` is in `EventLoopThreadPool::start`, and no other thread is. -/
  | creating (t : Tid) (hcalls : s.calls ≠ 0) (ht : s.pc t = .creating s.loops_.length)
      (hpc : ∀ u, u ≠ t → s.pc u = .idle) (hloops : s.loops_.length ≤ s.rounds)
      (hinit : s.initialised = if callback then s.loops_ else [])
      (hlisten : s.pendingFunctors_ + s.listened = 0)
  /-- Thread `t` is about to have `listen` called. -/
  | created (t : Tid) (hcalls : s.calls ≠ 0) (ht : s.pc t = .created)
      (hpc : ∀ u, u ≠ t → s.pc u = .idle) (hdone : s.Complete callback)
      (hlisten : s.pendingFunctors_ + s.listened = 0)
  /-- `listen` has been called or waits in the queue. -/
  | started (hcalls : s.calls ≠ 0) (hpc : ∀ t, s.pc t = .idle) (hdone : s.Complete callback)
      (hlisten : s.pendingFunctors_ + s.listened = 1)

/-- What holds while the counter is in its range. -/
structure Kept (callback : Bool) (s : Startup LoopId Tid) : Prop where
  started_eq : s.started_ = BitVec.ofNat 32 s.calls
  threads_eq : s.threads_ = (List.range s.loops_.length).map fun i => cStr s.name_ ++ decimal i
  nodup : (s.baseLoop_ :: s.loops_).Nodup
  phase : s.Phase callback
  seen_eq : ∀ loops ∈ s.seen, loops = s.loops_ ∧ 0 < s.listened

variable {baseThread : Tid} {callback : Bool} {s s' : Startup LoopId Tid}

omit [DecidableEq LoopId] [DecidableEq Tid] in
/-- Before the first call of `start`. -/
theorem Kept.ofServer (nameArg : List Char) (numThread : BitVec 32) (loop : LoopId) :
    (ofServer nameArg numThread loop : Startup LoopId Tid).Kept callback where
  started_eq := rfl
  threads_eq := rfl
  nodup := List.nodup_singleton loop
  phase := .fresh rfl (fun _ => rfl) rfl rfl rfl
  seen_eq := by simp [Startup.ofServer]

omit [DecidableEq LoopId] [DecidableEq Tid] in
/-- In its range the counter finds the first call and no other. -/
theorem Kept.started_eq_zero_iff (h : s.Kept callback) (hcalls : s.calls < 2 ^ 32) :
    s.started_ = 0 ↔ s.calls = 0 := by
  rw [h.started_eq, BitVec.toNat_eq, BitVec.toNat_ofNat, Nat.mod_eq_of_lt hcalls]
  rfl

omit [DecidableEq LoopId] [DecidableEq Tid] in
/-- Another call changes the counter and nothing else. -/
theorem Phase.again (h : s.Phase callback) (hcalls : s.calls ≠ 0) :
    ({ s with started_ := s.started_ + 1, calls := s.calls + 1 } : Startup LoopId Tid).Phase
      callback := by
  have hne : s.calls + 1 ≠ 0 := Nat.succ_ne_zero _
  cases h with
  | fresh hzero => exact absurd hzero hcalls
  | creating t _ ht hpc hloops hinit hlisten =>
      exact .creating t hne ht hpc hloops hinit hlisten
  | created t _ ht hpc hdone hlisten =>
      exact .created t hne ht hpc ⟨hdone.length_eq, hdone.initialised_eq⟩ hlisten
  | started _ hpc hdone hlisten =>
      exact .started hne hpc ⟨hdone.length_eq, hdone.initialised_eq⟩ hlisten

/-- **A call of `start`**: the first one goes on, the others only count. -/
theorem Kept.step_start {t : Tid} (h : s.Kept callback)
    (hs : step baseThread callback s (.start t) = some s') (hcalls : s'.calls ≤ 2 ^ 32) :
    s'.Kept callback := by
  simp only [step] at hs
  split at hs
  · next hzero =>
    split at hs <;> cases hs
    have hcalls' : s.calls = 0 := (h.started_eq_zero_iff (Nat.lt_of_succ_le hcalls)).1 hzero
    cases h.phase with
    | creating _ hne | created _ hne | started hne => exact absurd hcalls' hne
    | fresh _ hpc hloops hinit hlisten =>
        refine ⟨?_, h.threads_eq, h.nodup, .creating t (Nat.succ_ne_zero _) ?_ ?_ ?_ ?_ hlisten,
          h.seen_eq⟩
        · simp [setPc, h.started_eq, BitVec.ofNat_add]
        · simp [setPc, hloops]
        · intro u hu
          simpa [setPc, hu] using hpc u
        · simp [setPc, hloops]
        · simp [setPc, hloops, hinit]
  · next hne =>
    cases hs
    have hcalls' : s.calls ≠ 0 := mt (h.started_eq_zero_iff (Nat.lt_of_succ_le hcalls)).2 hne
    refine ⟨?_, h.threads_eq, h.nodup, h.phase.again hcalls', h.seen_eq⟩
    simp [h.started_eq, BitVec.ofNat_add]

omit [DecidableEq LoopId] [DecidableEq Tid] in
/-- A thread in the loop of `EventLoopThreadPool::start` is the one that has begun. -/
theorem Phase.of_creating {t : Tid} {i : ℕ} (h : s.Phase callback) (ht : s.pc t = .creating i) :
    s.calls ≠ 0 ∧ i = s.loops_.length ∧ (∀ u, u ≠ t → s.pc u = .idle) ∧
      s.loops_.length ≤ s.rounds ∧ s.initialised = (if callback then s.loops_ else []) ∧
      s.pendingFunctors_ + s.listened = 0 := by
  cases h with
  | fresh _ hpc | started _ hpc => simp [hpc t] at ht
  | created u _ hu hpc =>
      rcases eq_or_ne t u with rfl | hne
      · simp [hu] at ht
      · simp [hpc t hne] at ht
  | creating u hcalls hu hpc hloops hinit hlisten =>
      rcases eq_or_ne t u with rfl | hne
      · refine ⟨hcalls, ?_, hpc, hloops, hinit, hlisten⟩
        simpa [hu] using ht.symm
      · simp [hpc t hne] at ht

/-- **A thread is started** and its loop put into the pool. -/
theorem Kept.step_startLoop {t : Tid} {loop : LoopId} {num : ℤ} (h : s.Kept callback)
    (hs : step baseThread callback s (.startLoop t loop num) = some s') : s'.Kept callback := by
  simp only [step] at hs
  split at hs
  case h_2 => cases hs
  case h_1 i ht =>
  split at hs <;> cases hs
  next hnew =>
  obtain ⟨hi, hfresh⟩ := hnew
  obtain ⟨hcalls, rfl, hpc, hloops, hinit, hlisten⟩ := h.phase.of_creating ht
  have hlen : (s.loops_ ++ [loop]).length = s.loops_.length + 1 := by simp
  refine ⟨h.started_eq, ?_, ?_, .creating t hcalls ?_ ?_ ?_ ?_ hlisten, ?_⟩
  · simp only [setPc, List.length_append, List.length_singleton, List.range_succ, List.map_append,
      List.map_cons, List.map_nil, h.threads_eq]
    rw [nameOf_threadName _ (hi.trans s.rounds_lt)]
  · have happ := h.nodup.append (List.nodup_singleton loop) (List.disjoint_singleton.2 hfresh)
    exact happ
  · simp [setPc]
  · intro u hu
    simpa [setPc, hu] using hpc u hu
  · exact hlen.trans_le (Nat.succ_le_of_lt hi)
  · simp only [setPc, hinit]
    cases callback <;> simp
  · intro loops hmem
    have := (h.seen_eq loops hmem).2
    omega

omit [DecidableEq LoopId] [DecidableEq Tid] in
/-- The callback for the base loop comes in when there is no other loop. -/
theorem initialised_append (hloops : s.loops_.length = s.rounds)
    (hinit : s.initialised = if callback then s.loops_ else []) :
    (s.initialised ++ if s.numThreads_ = 0 ∧ callback then [s.baseLoop_] else []) =
      if callback ∧ 0 ≤ s.numThreads_.toInt then s.pool.getAllLoops else [] := by
  have hzero : s.numThreads_ = 0#32 ↔ s.numThreads_.toInt = 0 := by
    rw [← BitVec.toInt_inj]
    rfl
  have hempty : s.loops_ = [] ↔ s.numThreads_.toInt ≤ 0 := by
    rw [← List.length_eq_zero_iff, hloops, rounds]
    omega
  rw [hinit, pool, EventLoopThreadPool.getAllLoops, EventLoopThreadPool.ofLoops]
  rcases lt_trichotomy s.numThreads_.toInt 0 with hneg | hnone | hpos
  · simp [hzero, hempty.2 hneg.le, hneg.ne, hneg.not_ge]
  · simp [hzero, hempty.2 hnone.le, hnone]
  · simp [hzero, mt hempty.1 hpos.not_ge, hpos.ne', hpos.le]

/-- **The pool is complete.** -/
theorem Kept.step_poolStarted {t : Tid} (h : s.Kept callback)
    (hs : step baseThread callback s (.poolStarted t) = some s') : s'.Kept callback := by
  simp only [step] at hs
  split at hs
  case h_2 => cases hs
  case h_1 i ht =>
  split at hs <;> cases hs
  next hi =>
  obtain ⟨hcalls, rfl, hpc, hloops, hinit, hlisten⟩ := h.phase.of_creating ht
  have hlen : s.loops_.length = s.rounds := hloops.antisymm (Nat.le_of_not_lt hi)
  refine ⟨h.started_eq, h.threads_eq, h.nodup, .created t hcalls ?_ ?_
    ⟨hlen, initialised_append hlen hinit⟩ hlisten, h.seen_eq⟩
  · simp [setPc]
  · intro u hu
    simpa [setPc, hu] using hpc u hu

omit [DecidableEq LoopId] [DecidableEq Tid] in
/-- A thread that is about to have `listen` called is the only one under way. -/
theorem Phase.of_created {t : Tid} (h : s.Phase callback) (ht : s.pc t = .created) :
    s.calls ≠ 0 ∧ (∀ u, u ≠ t → s.pc u = .idle) ∧ s.Complete callback ∧
      s.pendingFunctors_ + s.listened = 0 := by
  cases h with
  | fresh _ hpc | started _ hpc => simp [hpc t] at ht
  | creating u _ hu hpc =>
      rcases eq_or_ne t u with rfl | hne
      · simp [hu] at ht
      · simp [hpc t hne] at ht
  | created u hcalls hu hpc hdone hlisten =>
      rcases eq_or_ne t u with rfl | hne
      · exact ⟨hcalls, hpc, hdone, hlisten⟩
      · simp [hpc t hne] at ht

/-- **`listen`** is called at once, or queued on the base loop. -/
theorem Kept.step_runInLoop {t : Tid} (h : s.Kept callback)
    (hs : step baseThread callback s (.runInLoop t) = some s') : s'.Kept callback := by
  simp only [step] at hs
  split at hs <;> cases hs
  next ht =>
  obtain ⟨hcalls, hpc, hdone, hlisten⟩ := h.phase.of_created ht
  have hidle : ∀ u, Function.update s.pc t .idle u = .idle := by
    intro u
    rcases eq_or_ne u t with rfl | hne
    · simp
    · simpa [hne] using hpc u hne
  split
  · refine ⟨h.started_eq, h.threads_eq, h.nodup,
      .started hcalls hidle ⟨hdone.length_eq, hdone.initialised_eq⟩ ?_, ?_⟩
    · simp only [setPc]
      omega
    · intro loops hmem
      exact ⟨(h.seen_eq loops hmem).1, Nat.succ_pos _⟩
  · refine ⟨h.started_eq, h.threads_eq, h.nodup,
      .started hcalls hidle ⟨hdone.length_eq, hdone.initialised_eq⟩ ?_, h.seen_eq⟩
    simp only [setPc]
    omega

omit [DecidableEq LoopId] [DecidableEq Tid] in
/-- With a call of `listen` behind or ahead the pool is complete and all threads are
through. -/
theorem Phase.of_pos (h : s.Phase callback) (hpos : 0 < s.pendingFunctors_ + s.listened) :
    s.calls ≠ 0 ∧ (∀ t, s.pc t = .idle) ∧ s.Complete callback ∧
      s.pendingFunctors_ + s.listened = 1 := by
  cases h with
  | fresh _ _ _ _ hlisten | creating _ _ _ _ _ _ hlisten | created _ _ _ _ _ hlisten => omega
  | started hcalls hpc hdone hlisten => exact ⟨hcalls, hpc, hdone, hlisten⟩

/-- **`listen`** is called from the queue. -/
theorem Kept.step_doPendingFunctor (h : s.Kept callback)
    (hs : step baseThread callback s .doPendingFunctor = some s') : s'.Kept callback := by
  simp only [step] at hs
  split at hs <;> cases hs
  next hpos =>
  obtain ⟨hcalls, hpc, hdone, hlisten⟩ := h.phase.of_pos (Nat.add_pos_left hpos.1 _)
  refine ⟨h.started_eq, h.threads_eq, h.nodup,
    .started hcalls hpc ⟨hdone.length_eq, hdone.initialised_eq⟩ ?_, ?_⟩
  · simp only
    omega
  · intro loops hmem
    exact ⟨(h.seen_eq loops hmem).1, Nat.succ_pos _⟩

/-- To choose a loop does nothing to the start. -/
theorem Kept.step_newConnection (h : s.Kept callback)
    (hs : step baseThread callback s .newConnection = some s') : s'.Kept callback := by
  simp only [step] at hs
  split at hs <;> cases hs
  next hpos =>
  obtain ⟨hcalls, hpc, hdone, hlisten⟩ := h.phase.of_pos (Nat.add_pos_right _ hpos.1)
  refine ⟨h.started_eq, h.threads_eq, h.nodup,
    .started hcalls hpc ⟨hdone.length_eq, hdone.initialised_eq⟩ hlisten, ?_⟩
  intro loops hmem
  rcases List.mem_append.1 hmem with hmem | hmem
  · exact h.seen_eq loops hmem
  · exact ⟨List.mem_singleton.1 hmem, hpos.1⟩

/-- The configuration stays, and the calls are counted up. -/
theorem static_of_step {a : Label LoopId Tid}
    (hs : step baseThread callback s a = some s') :
    s'.name_ = s.name_ ∧ s'.numThreads_ = s.numThreads_ ∧ s'.baseLoop_ = s.baseLoop_ ∧
      s.calls ≤ s'.calls := by
  cases a <;> simp only [step] at hs <;> repeat' split at hs
  all_goals cases hs
  all_goals simp [setPc]

/-- One step keeps it, as long as the counter stays in its range. -/
theorem Kept.step {a : Label LoopId Tid} (h : s.Kept callback)
    (hs : Startup.step baseThread callback s a = some s') (hcalls : s'.calls ≤ 2 ^ 32) :
    s'.Kept callback := by
  cases a with
  | start t => exact h.step_start hs hcalls
  | startLoop t loop num => exact h.step_startLoop hs
  | poolStarted t => exact h.step_poolStarted hs
  | runInLoop t => exact h.step_runInLoop hs
  | doPendingFunctor => exact h.step_doPendingFunctor hs
  | newConnection => exact h.step_newConnection hs

/-- **Along a run** in which the counter does not come round. -/
theorem kept_of_exec {as : List (Label LoopId Tid)} (h : s.Kept callback)
    (hs : exec (step baseThread callback) s as = some s') (hcalls : s'.calls ≤ 2 ^ 32) :
    s'.Kept callback := by
  refine exec_invariant' (I := fun s => s.calls ≤ 2 ^ 32 → s.Kept callback) ?_ (fun _ => h) hs
    hcalls
  intro s a s' hkept hstep hle
  exact (hkept ((static_of_step hstep).2.2.2.trans hle)).step hstep hle

/-- The name, the number of threads and the base loop stay as they were constructed. -/
theorem static_of_exec {as : List (Label LoopId Tid)}
    (hs : exec (step baseThread callback) s as = some s') :
    s'.name_ = s.name_ ∧ s'.numThreads_ = s.numThreads_ ∧ s'.baseLoop_ = s.baseLoop_ := by
  refine exec_invariant'
    (I := fun u => u.name_ = s.name_ ∧ u.numThreads_ = s.numThreads_ ∧ u.baseLoop_ = s.baseLoop_)
    ?_ ⟨rfl, rfl, rfl⟩ hs
  rintro u a u' ⟨hname, hnum, hbase⟩ hstep
  obtain ⟨hname', hnum', hbase', -⟩ := static_of_step hstep
  exact ⟨hname'.trans hname, hnum'.trans hnum, hbase'.trans hbase⟩

/-- **A server starts once.**  However many threads call `start` at once, and up to
`2 ^ 32` times: `listen` is called at most once; each connection finds the pool with one
loop for each thread, all different and none of them the base loop; the threads have the
server's name with a number; and `threadInitCallback_` has been called for exactly the
loops that the connections will be dealt to, unless the number of threads is negative. -/
theorem started_once (baseThread : Tid) (callback : Bool) (nameArg : List Char)
    (numThread : BitVec 32) (loop : LoopId) {as : List (Label LoopId Tid)}
    (hs : exec (step baseThread callback) (Startup.ofServer nameArg numThread loop) as = some s)
    (hcalls : s.calls ≤ 2 ^ 32) :
    s.listened ≤ 1 ∧
      (∀ loops ∈ s.seen, loops = s.loops_ ∧ loops.length = numThread.toInt.toNat) ∧
      (loop :: s.loops_).Nodup ∧
      s.threads_ = (List.range s.loops_.length).map (fun i => cStr nameArg ++ decimal i) ∧
      (0 < s.listened → s.initialised = if callback ∧ 0 ≤ numThread.toInt
        then (EventLoopThreadPool.ofLoops loop s.loops_).getAllLoops else []) := by
  have h := kept_of_exec (Kept.ofServer nameArg numThread loop) hs hcalls
  obtain ⟨hname, hnum, hbase⟩ := static_of_exec hs
  have hdone (hpos : 0 < s.listened) := h.phase.of_pos (Nat.add_pos_right _ hpos)
  refine ⟨?_, ?_, ?_, ?_, ?_⟩
  · by_contra! hmore
    obtain ⟨-, -, -, hone⟩ := hdone (by omega)
    omega
  · intro loops hmem
    obtain ⟨rfl, hpos⟩ := h.seen_eq loops hmem
    obtain ⟨-, -, hdone, -⟩ := hdone hpos
    exact ⟨rfl, hdone.length_eq.trans (congrArg (fun n => n.toInt.toNat) hnum)⟩
  · have hnodup := h.nodup
    rwa [hbase] at hnodup
  · have hthreads := h.threads_eq
    rwa [hname] at hthreads
  · intro hpos
    obtain ⟨-, -, hdone, -⟩ := hdone hpos
    have hinit := hdone.initialised_eq
    rwa [pool, hnum, hbase] at hinit

/-- The hypotheses are satisfiable: thread `1` starts the server, with two more, while
thread `2` calls `start` in vain; thread `0` has the base loop. -/
theorem started_once_race :
    ∃ s : Startup (Fin 4) (Fin 3),
      exec (step 0 true) (Startup.ofServer ['s'] 2 0)
        [.start 1, .start 2, .startLoop 1 1 1, .startLoop 1 2 2, .poolStarted 1, .runInLoop 1,
          .doPendingFunctor, .newConnection] = some s ∧
      s.listened ≤ 1 ∧ (∀ loops ∈ s.seen, loops.length = 2) ∧
      s.threads_ = [['s', '0'], ['s', '1']] ∧ s.initialised = [1, 2] := by
  obtain ⟨s, hs, hcalls, hloops, hlistened⟩ : ∃ s : Startup (Fin 4) (Fin 3),
      exec (step 0 true) (Startup.ofServer ['s'] 2 0)
        [.start 1, .start 2, .startLoop 1 1 1, .startLoop 1 2 2, .poolStarted 1, .runInLoop 1,
          .doPendingFunctor, .newConnection] = some s ∧
      s.calls = 2 ∧ s.loops_ = [1, 2] ∧ s.listened = 1 := ⟨_, rfl, rfl, rfl, rfl⟩
  obtain ⟨hle, hseen, -, hthreads, hinit⟩ :=
    started_once 0 true ['s'] 2 0 hs (hcalls.trans_le (by decide))
  rw [hloops] at hthreads hinit
  refine ⟨s, hs, hle, fun loops hmem => (hseen loops hmem).2, hthreads.trans (by decide), ?_⟩
  exact (hinit (hlistened ▸ Nat.one_pos)).trans (by decide)

/-! ### The counter goes round -/

/-- Calls that find `started_` set leave everything but the counter. -/
theorem exec_start_again (baseThread : Tid) (callback : Bool) (t : Tid) (k : ℕ)
    (s : Startup LoopId Tid)
    (hne : ∀ j < k, s.started_ + BitVec.ofNat 32 j ≠ 0) :
    exec (step baseThread callback) s (List.replicate k (.start t)) = some
      { s with started_ := s.started_ + BitVec.ofNat 32 k, calls := s.calls + k } := by
  induction k generalizing s with
  | zero => simp
  | succ k ih =>
      have hset : s.started_ ≠ 0 := by simpa using hne 0 (Nat.succ_pos k)
      have hnext (n : ℕ) :
          s.started_ + 1 + BitVec.ofNat 32 n = s.started_ + BitVec.ofNat 32 (n + 1) := by
        rw [BitVec.ofNat_add, BitVec.add_assoc, BitVec.add_comm (1 : BitVec 32)]
        rfl
      rw [List.replicate_succ, exec_cons]
      refine ⟨_, if_neg hset, ?_⟩
      rw [ih]
      · simp only [hnext, Nat.add_assoc, Nat.add_comm 1]
      · intro j hj
        rw [hnext]
        exact hne (j + 1) (Nat.succ_lt_succ hj)

/-- The thread of the base loop starts a server without threads. -/
theorem exec_start_base (baseThread : Tid) (callback : Bool) (s : Startup LoopId Tid)
    (hstarted : s.started_ = 0) (hpc : s.pc baseThread = .idle) (hnum : s.numThreads_ = 0) :
    ∃ s', exec (step baseThread callback) s
        [.start baseThread, .poolStarted baseThread, .runInLoop baseThread] = some s' ∧
      s'.started_ = 1 ∧ s'.pc baseThread = .idle ∧ s'.numThreads_ = 0 ∧
      s'.calls = s.calls + 1 ∧ s'.listened = s.listened + 1 := by
  simp [exec, step, setPc, rounds, hstarted, hpc, hnum]

/-- **The bound is sharp**: the call after `2 ^ 32` others starts the server again. -/
theorem listened_twice (baseThread : Tid) (callback : Bool) (nameArg : List Char)
    (loop : LoopId) :
    ∃ (as : List (Label LoopId Tid)) (s : Startup LoopId Tid),
      exec (step baseThread callback) (Startup.ofServer nameArg 0 loop) as = some s ∧
        s.calls = 2 ^ 32 + 1 ∧ s.listened = 2 := by
  obtain ⟨s, hs, hstarted, hpc, hnum, hcalls, hlistened⟩ :=
    exec_start_base baseThread callback (Startup.ofServer nameArg 0 loop) rfl rfl rfl
  have hzero : (Startup.ofServer nameArg 0 loop : Startup LoopId Tid).calls = 0 := rfl
  have hround := exec_start_again baseThread callback baseThread (2 ^ 32 - 1) s ?_
  · have hwrap : s.started_ + BitVec.ofNat 32 (2 ^ 32 - 1) = 0 := by
      rw [hstarted]
      rfl
    obtain ⟨s', hs', -, -, -, hcalls', hlistened'⟩ :=
      exec_start_base baseThread callback { s with
        started_ := s.started_ + BitVec.ofNat 32 (2 ^ 32 - 1)
        calls := s.calls + (2 ^ 32 - 1) } hwrap hpc hnum
    refine ⟨_, s', exec_append.2 ⟨s, hs, exec_append.2 ⟨_, hround, hs'⟩⟩, ?_, ?_⟩
    · simp only [hcalls', hcalls, hzero]
      omega
    · rw [hlistened', hlistened]
      rfl
  · intro j hj
    rw [hstarted]
    bv_omega

end Startup

end MuMuduo
