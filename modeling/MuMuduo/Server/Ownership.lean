/-
# Who keeps the connection alive

A connection lives as long as a `shared_ptr` to it: in `connections_`, in a local
variable of a call under way, in a functor that is waiting or in the batch that is
being run.  Most functors hold one; `sendInLoop` and `shutdownInLoop` are bound to
`this`, so that somebody else has to keep the connection until they have run.

While the connection is in `connections_` nothing can go wrong.  Its removal leads
through the base loop to a `connectDestroyed` in the queue of its own loop, which
holds it until the batch it is run in is over; a raw functor pushed before is run
in that batch or an earlier one.  A raw functor pushed later finds nobody to wait
with (`not_alive_removed`).  So the connection outlives every functor in each run
in which a raw functor is pushed only while the connection is in `connections_`,
its removal is under way or an owner waits in the same queue, and the server is
not destroyed on the loop's own thread past such a functor (`alive_of_timely`).
-/

import MuMuduo.Server.Confinement
import MuMuduo.Server.Motion
import Mathlib.Data.Fintype.Basic

namespace MuMuduo

open Foundation

variable {LoopId Tid : Type*}

/-- The functor is bound to `this`. -/
def Functor.raw : Functor → Bool
  | .sendInLoop _ _ _ | .shutdownInLoop => true
  | _ => false

/-- The frame holds a `shared_ptr` to the connection. -/
def Frame.owns : Frame LoopId → Bool
  | .hold => true
  | .functor f | .runInLoop _ f | .queueInLoop _ f => f.owns
  | _ => false

/-- The frame holds a `shared_ptr` until it is the innermost again. -/
def Frame.shelters : Frame LoopId → Bool
  | .hold => true
  | .functor f => f.owns
  | _ => false

/-- The frame is in a member function of the connection, or has a functor of the
connection in hand. -/
def Frame.member : Frame LoopId → Bool
  | .callback | .hold | .wakeup _ => false
  | .functor f | .runInLoop _ f | .queueInLoop _ f => f.raw || f.owns
  | _ => true

/-- The frame may stand above the call of a raw functor. -/
def Frame.light : Frame LoopId → Bool
  | .sendInLoop _ _ _ | .sendInLoopRest _ _ _ | .shutdownInLoop | .queueInLoop _ _
  | .wakeup _ => true
  | _ => false

/-- The frame is the call of a raw functor. -/
def Frame.runsRaw : Frame LoopId → Bool
  | .functor f => f.raw
  | _ => false

/-- The next step pushes a raw functor. -/
def Frame.pushesRaw : Frame LoopId → Bool
  | .queueInLoop _ f => f.raw
  | _ => false

/-- The frame is on the way from `removeConnection` to the push of
`connectDestroyed` on the connection's loop. -/
def Frame.removes [DecidableEq Tid] (cfg : Threads LoopId Tid) (t : Tid) : Frame LoopId → Bool
  | .removeConnection | .removeConnectionInLoop => true
  | .runInLoop _ f => f == .removeConnectionInLoop ||
      f == .connectDestroyed && decide (t ≠ cfg.threadId_ cfg.ioLoop)
  | .queueInLoop _ f => f == .removeConnectionInLoop || f == .connectDestroyed
  | _ => false

namespace World

/-- Some `shared_ptr` owns the connection. -/
def Owned (w : World LoopId Tid) : Prop :=
  w.core.inMap = true ∨ (∃ t, ∃ f ∈ w.frames t, f.owns = true) ∨
    ∃ l, ∃ f ∈ (w.loops l).pc.batch ++ (w.loops l).pendingFunctors_, f.owns = true

/-- Whoever is in a member function of the connection, or runs a functor of the
connection, does so while the connection is owned. -/
def Alive (w : World LoopId Tid) : Prop :=
  ∀ t, ∀ f ∈ w.frames t, f.member = true → w.Owned

section

variable [DecidableEq Tid] (cfg : Threads LoopId Tid)

/-- The removal is under way or an owner waits in the queue of the connection's
loop: there will be an owner in that queue, or in the batch made of it. -/
def Lasting (w : World LoopId Tid) : Prop :=
  (∃ t, ∃ f ∈ w.frames t, f.removes cfg t = true) ∨
    .removeConnectionInLoop ∈ w.queued cfg.baseLoop ∨
    ∃ f ∈ (w.loops cfg.ioLoop).pendingFunctors_, f.owns = true

/-- Every raw functor has an owner to wait with, `connections_` apart. -/
structure Waits (w : World LoopId Tid) : Prop where
  pending : (∃ f ∈ (w.loops cfg.ioLoop).pendingFunctors_, f.raw = true) → w.Lasting cfg
  batch : (∃ f ∈ (w.loops cfg.ioLoop).pc.rest, f.raw = true) ∨
      (∃ f ∈ w.frames (cfg.threadId_ cfg.ioLoop), f.runsRaw = true) →
    w.Lasting cfg ∨ ∃ f ∈ (w.loops cfg.ioLoop).pc.batch, f.owns = true

end

/-- A call is made with a `TcpConnectionPtr`, and `handleEvent` goes on only if
`tie_.lock()` yields one. -/
def Acquires (w : World LoopId Tid) : Label LoopId Tid → Prop
  | .event | .call _ (.send _) | .call _ .shutdown => w.Owned
  | _ => True

/-- A raw functor is pushed in time, and the server is not destroyed on the
thread of the connection's loop while only `connections_` keeps the connection
for one. -/
def Timely [DecidableEq Tid] (cfg : Threads LoopId Tid) (w : World LoopId Tid) :
    Label LoopId Tid → Prop
  | .step t _ => (∃ f ∈ (w.frames t).head?, f.pushesRaw = true) →
      w.core.inMap = true ∨ w.Lasting cfg
  | .destroyServer => w.core.inMap = true →
      cfg.threadId_ cfg.baseLoop = cfg.threadId_ cfg.ioLoop → w.Waits cfg
  | _ => True

variable {cfg : Threads LoopId Tid} {isIn : LoopId → Tid → Bool → Bool}
variable {w w' : World LoopId Tid} {a : Label LoopId Tid}

/-! ### The owner below a call -/

/-- Every call of a member has an owner below it on its stack. -/
def Kept : List (Frame LoopId) → Prop
  | [] => True
  | f :: rest => (f.member = true → ∃ g ∈ f :: rest, g.shelters = true) ∧ Kept rest

/-- A frame that is no member function goes on top. -/
theorem Kept.cons {f : Frame LoopId} {rest : List (Frame LoopId)} (h : Kept rest)
    (hf : f.member = false) : Kept (f :: rest) :=
  ⟨fun hmem => absurd hmem (by simp [hf]), h⟩

/-- So does a call with its frames, if there is an owner below. -/
theorem Kept.append {frames rest : List (Frame LoopId)} (h : Kept rest)
    (hframes : (∃ f ∈ frames, f.member = true) → ∃ g ∈ rest, g.shelters = true) :
    Kept (frames ++ rest) := by
  induction frames with
  | nil => exact h
  | cons f frames ih =>
      refine ⟨fun hf => ?_, ih ?_⟩
      · obtain ⟨g, hg, hown⟩ := hframes ⟨f, List.mem_cons_self, hf⟩
        exact ⟨g, List.mem_append_right (f :: frames) hg, hown⟩
      · rintro ⟨g, hg, hmem⟩
        exact hframes ⟨g, List.mem_cons_of_mem f hg, hmem⟩

/-- A call of a member has its owner on the same stack. -/
theorem Kept.exists_of_mem {st : List (Frame LoopId)} (h : Kept st) {f : Frame LoopId}
    (hf : f ∈ st) (hmem : f.member = true) : ∃ g ∈ st, g.shelters = true := by
  induction st with
  | nil => cases hf
  | cons g rest ih =>
      rcases List.mem_cons.1 hf with rfl | hf
      · exact h.1 hmem
      · obtain ⟨k, hk, hown⟩ := ih h.2 hf
        exact ⟨k, List.mem_cons_of_mem g hk, hown⟩

/-- What shelters holds a `shared_ptr`. -/
theorem owns_of_shelters {f : Frame LoopId} (h : f.shelters = true) : f.owns = true := by
  cases f with
  | hold => rfl
  | functor => exact h
  | _ => cases h

/-- The frames of a call: each call of a member has an owner below it, or the
stack is that of a raw functor. -/
def Sheltered (cfg : Threads LoopId Tid) (t : Tid) (st : List (Frame LoopId)) : Prop :=
  Kept st ∨ t = cfg.threadId_ cfg.ioLoop ∧ ∃ frames f, st = frames ++ [.functor f] ∧
    f.raw = true ∧ ∀ g ∈ frames, g.light = true

/-- A call goes on in members of the connection only if it was in one. -/
theorem member_of_next {c : Core LoopId Tid} {t : Tid} {o : Oracle} {f g : Frame LoopId}
    (h : c.Next cfg isIn t o f g) (hmem : g.member = true) :
    f.member = true ∧ f.shelters = false := by
  refine ⟨?_, by cases h <;> rfl⟩
  cases h with
  | @runDirect l f => cases f <;> first | rfl | cases hmem
  | runQueued => exact hmem
  | _ => rfl

/-- What is above a raw functor goes on in kind. -/
theorem light_of_next {c : Core LoopId Tid} {t : Tid} {o : Oracle} {f g : Frame LoopId}
    (h : c.Next cfg isIn t o f g) (hf : f.light = true) : g.light = true := by
  cases h with
  | sendInLoop | notice => rfl
  | _ => cases hf

/-- **The innermost call goes on** under the same owner. -/
theorem Sheltered.turn {c : Core LoopId Tid} {t : Tid} {o : Oracle} {f : Frame LoopId}
    {rest : List (Frame LoopId)} (h : Sheltered cfg t (f :: rest)) :
    Sheltered cfg t ((c.frameStep cfg isIn t o f).2 ++ rest) := by
  rcases h with ⟨hf, hrest⟩ | ⟨ht, frames, g, hst, hraw, hlight⟩
  · refine .inl (hrest.append ?_)
    rintro ⟨g, hg, hmem⟩
    obtain ⟨hmember, hshelters⟩ := member_of_next (Core.next_of_mem hg) hmem
    obtain ⟨k, hk, hown⟩ := hf hmember
    rcases List.mem_cons.1 hk with rfl | hk
    · exact absurd hown (by simp [hshelters])
    · exact ⟨k, hk, hown⟩
  · cases frames with
    | nil =>
        obtain ⟨rfl, rfl⟩ := List.cons.inj hst
        exact .inl trivial
    | cons k frames =>
        obtain ⟨rfl, rfl⟩ := List.cons.inj hst
        refine .inr ⟨ht, (c.frameStep cfg isIn t o f).2 ++ frames, g, by simp, hraw, fun k hk => ?_⟩
        rcases List.mem_append.1 hk with hk | hk
        · exact light_of_next (Core.next_of_mem hk) (hlight f List.mem_cons_self)
        · exact hlight k (List.mem_cons_of_mem _ hk)

/-- **A call from outside** brings its owner along. -/
theorem Sheltered.enter {t : Tid} {frames st : List (Frame LoopId)} (h : Sheltered cfg t st)
    (hst : st = [] ∨ ∃ rest, st = .callback :: rest) (hframes : Enters cfg frames) :
    Sheltered cfg t (frames ++ st) := by
  have hkept : Kept st := by
    rcases h with h | ⟨-, lights, f, rfl, -, hlight⟩
    · exact h
    · -- user code never runs above a raw functor
      rcases hst with hst | ⟨rest, hst⟩
      · simp at hst
      · cases lights with
        | nil => cases hst
        | cons g lights =>
            obtain rfl := (List.cons.inj hst).1
            exact absurd (hlight _ List.mem_cons_self) (by simp [Frame.light])
  refine .inl ?_
  cases hframes with
  | event | newConnection | destroyServer | send | shutdown =>
      exact ⟨fun _ => ⟨.hold, by simp, rfl⟩, hkept.cons rfl⟩
  | runInLoop | queueInLoop | quit => exact hkept.cons rfl

/-- **A functor is started**: it holds a `shared_ptr`, or it is a raw one. -/
theorem Sheltered.start {l : LoopId} {f : Functor} (hf : f.OnLoop cfg l) :
    Sheltered cfg (cfg.threadId_ l) [f.body, .functor f] := by
  cases f with
  | sendInLoop buf len id =>
      obtain rfl : l = cfg.ioLoop := hf
      exact .inr ⟨rfl, [.sendInLoop buf len id], _, rfl, rfl, by simp [Frame.light]⟩
  | shutdownInLoop =>
      obtain rfl : l = cfg.ioLoop := hf
      exact .inr ⟨rfl, [.shutdownInLoop], _, rfl, rfl, by simp [Frame.light]⟩
  | user n => exact .inl (Kept.cons (Kept.cons trivial rfl) rfl)
  | connectEstablished | connectDestroyed | removeConnectionInLoop | writeComplate
  | highWaterMark =>
      exact .inl ⟨fun _ => ⟨_, List.mem_cons_of_mem _ List.mem_cons_self, rfl⟩,
        fun _ => ⟨_, List.mem_cons_self, rfl⟩, trivial⟩

/-- A push leaves the rest of the stack as it was. -/
theorem Sheltered.pushed {t : Tid} {l : LoopId} {f : Functor} {rest : List (Frame LoopId)}
    (h : Sheltered cfg t (.queueInLoop l f :: rest)) : Sheltered cfg t (.wakeup l :: rest) := by
  rcases h with ⟨-, hrest⟩ | ⟨ht, frames, g, hst, hraw, hlight⟩
  · exact .inl (hrest.cons rfl)
  · cases frames with
    | nil => cases hst
    | cons k frames =>
        obtain ⟨rfl, rfl⟩ := List.cons.inj hst
        refine .inr ⟨ht, .wakeup l :: frames, g, rfl, hraw, fun k hk => ?_⟩
        rcases List.mem_cons.1 hk with rfl | hk
        · rfl
        · exact hlight k (List.mem_cons_of_mem _ hk)

variable [DecidableEq LoopId] [DecidableEq Tid]

/-- **Every step keeps the calls under their owners.** -/
theorem sheltered_of_moves (h : ∀ t, Sheltered cfg t (w.frames t)) (hthreads : w.OnThreads cfg)
    (hm : Moves cfg isIn w a w') (t : Tid) : Sheltered cfg t (w'.frames t) := by
  refine forall_stacks_of_moves h hm (fun l f hf => ?_)
    (fun _ _ hst hframes _ hs => hs.enter hst hframes) (fun _ _ _ _ hs => hs.pushed)
    (fun _ _ _ _ _ _ _ hs => hs.turn) t
  exact Sheltered.start (hthreads.functors l f (List.mem_append_left _ hf))

/-! ### The owner that a raw functor waits with -/

omit [DecidableEq LoopId] in
/-- The removal and the owners in the queue keep the connection. -/
theorem Lasting.owned (h : w.Lasting cfg) (hsh : ∀ t, Sheltered cfg t (w.frames t)) :
    w.Owned := by
  rcases h with ⟨t, f, hf, hrem⟩ | hbase | ⟨f, hf, hown⟩
  · -- where the frame itself owns nothing, the stack below does
    have hstack (hmem : f.member = true) (hlight : f.light = false) (hruns : f.runsRaw = false) :
        w.Owned := by
      rcases hsh t with hkept | ⟨-, frames, g, hst, hraw, hall⟩
      · obtain ⟨g, hg, hown⟩ := hkept.exists_of_mem hf hmem
        exact .inr (.inl ⟨t, g, hg, owns_of_shelters hown⟩)
      · rw [hst] at hf
        rcases List.mem_append.1 hf with hf | hf
        · exact absurd (hall f hf) (by simp [hlight])
        · obtain rfl := List.mem_singleton.1 hf
          exact absurd hraw (by simpa [Frame.runsRaw] using hruns)
    cases f with
    | removeConnection | removeConnectionInLoop => exact hstack rfl rfl rfl
    | runInLoop l f =>
        refine .inr (.inl ⟨t, _, hf, ?_⟩)
        cases f <;> first | rfl | cases hrem
    | queueInLoop l f =>
        refine .inr (.inl ⟨t, _, hf, ?_⟩)
        cases f <;> first | rfl | cases hrem
    | _ => cases hrem
  · refine .inr (.inr ⟨cfg.baseLoop, .removeConnectionInLoop, ?_, rfl⟩)
    rcases List.mem_append.1 hbase with hbase | hbase
    · exact List.mem_append_left _ (LoopPc.mem_batch_of_mem_rest hbase)
    · exact List.mem_append_right _ hbase
  · exact .inr (.inr ⟨cfg.ioLoop, f, List.mem_append_right _ hf, hown⟩)

/-- **The removal goes on** until its `connectDestroyed` is in the queue, and that
waits there until the queue becomes the batch. -/
theorem Lasting.step (h : w.Lasting cfg) (hthreads : w.OnThreads cfg)
    (hm : Moves cfg cfg.compared w a w') :
    w'.Lasting cfg ∨ (w'.loops cfg.ioLoop).pendingFunctors_ = [] ∧
      ∃ f ∈ (w'.loops cfg.ioLoop).pc.batch, f.owns = true := by
  rcases h with ⟨t, f, hf, hrem⟩ | hbase | ⟨f, hf, hown⟩
  · have hon : f.OnThread cfg t := hthreads.frames t f hf
    left
    rcases mem_stacks_of_moves hm hf with hf' | ⟨l, g, rfl, hpend, -⟩ | ⟨o, hqueue, -, hnew, -⟩
    · exact .inl ⟨t, f, hf', hrem⟩
    · have hg : g = .removeConnectionInLoop ∨ g = .connectDestroyed := by
        simpa [Frame.removes] using hrem
      rcases hg with rfl | rfl
      · obtain rfl : l = cfg.baseLoop := hon
        exact .inr (.inl (List.mem_append_right _ (by simp [hpend])))
      · obtain rfl : l = cfg.ioLoop := hon
        exact .inr (.inr ⟨.connectDestroyed, by simp [hpend], rfl⟩)
    · cases f with
      | removeConnection =>
          exact .inl ⟨t, _, hnew _ List.mem_cons_self, by simp [Frame.removes]⟩
      | removeConnectionInLoop =>
          exact .inl ⟨t, _, hnew _ List.mem_cons_self, by simp [Frame.removes]⟩
      | runInLoop l g =>
          simp only [Core.frameStep] at hnew
          by_cases hin : cfg.compared l t o.raw = true
          · rw [if_pos hin] at hnew
            refine .inl ⟨t, _, hnew _ List.mem_cons_self, ?_⟩
            have ht : cfg.threadId_ l = t := of_decide_eq_true hin
            cases g with
            | removeConnectionInLoop => rfl
            | connectDestroyed =>
                obtain rfl : l = cfg.ioLoop := hon
                simp [Frame.removes, ht] at hrem
            | _ => cases hrem
          · rw [if_neg hin] at hnew
            refine .inl ⟨t, _, hnew _ List.mem_cons_self, ?_⟩
            cases g <;> first | rfl | cases hrem
      | queueInLoop l g => exact absurd rfl (hqueue l g)
      | _ => cases hrem
  · rcases mem_queued_of_moves hm hbase with hbase | hrun
    · exact .inl (.inr (.inl hbase))
    · exact .inl (.inl ⟨_, _, hrun ▸ List.mem_cons_self, rfl⟩)
  · rcases loopMove_of_moves hm cfg.ioLoop with ⟨hpend, -, -⟩ | ⟨-, -, -, hpend, hpc⟩ |
      ⟨-, -, -, -, hpend⟩ | ⟨-, -, -, -, hpend⟩
    · exact .inl (.inr (.inr ⟨f, hpend ▸ hf, hown⟩))
    · exact .inr ⟨hpend, f, by simpa [hpc, LoopPc.batch] using hf, hown⟩
    · exact .inl (.inr (.inr ⟨f, hpend ▸ hf, hown⟩))
    · exact .inl (.inr (.inr ⟨f, hpend ▸ List.mem_append_left _ hf, hown⟩))

/-- A raw functor in the queue has an owner to wait with, after a step too. -/
theorem Waits.pending_step (h : w.Waits cfg) (hthreads : w.OnThreads cfg)
    (hm : Moves cfg cfg.compared w a w')
    (hpush : ∀ t o l f rest, a = .step t o → w.frames t = .queueInLoop l f :: rest →
      f.raw = true → w.Lasting cfg) :
    (∃ f ∈ (w'.loops cfg.ioLoop).pendingFunctors_, f.raw = true) → w'.Lasting cfg := by
  rintro ⟨f, hf, hraw⟩
  have hl : w.Lasting cfg := by
    rcases loopMove_of_moves hm cfg.ioLoop with ⟨hpend, -, -⟩ | ⟨-, -, -, hpend, -⟩ |
      ⟨-, -, -, -, hpend⟩ | @⟨t, g, rest, hstack, -, ⟨o, ha⟩, -, hpend⟩
    · exact h.pending ⟨f, hpend ▸ hf, hraw⟩
    · rw [hpend] at hf
      cases hf
    · exact h.pending ⟨f, hpend ▸ hf, hraw⟩
    · rw [hpend] at hf
      rcases List.mem_append.1 hf with hf | hf
      · exact h.pending ⟨f, hf, hraw⟩
      · obtain rfl := List.mem_singleton.1 hf
        exact hpush t o _ f rest ha hstack hraw
  rcases hl.step hthreads hm with hl | ⟨hpend, -⟩
  · exact hl
  · rw [hpend] at hf
    cases hf

/-- So has one in the batch, or under way. -/
theorem Waits.batch_step (h : w.Waits cfg) (hthreads : w.OnThreads cfg)
    (hm : Moves cfg cfg.compared w a w')
    (hbusy : (∃ f ∈ (w'.loops cfg.ioLoop).pc.rest, f.raw = true) ∨
      ∃ f ∈ w'.frames (cfg.threadId_ cfg.ioLoop), f.runsRaw = true) :
    w'.Lasting cfg ∨ ∃ f ∈ (w'.loops cfg.ioLoop).pc.batch, f.owns = true := by
  have hlasting (hl : w.Lasting cfg) :
      w'.Lasting cfg ∨ ∃ f ∈ (w'.loops cfg.ioLoop).pc.batch, f.owns = true :=
    (hl.step hthreads hm).imp_right And.right
  -- the raw functor of this batch was in it before, unless the batch is new
  have hback (hrest : (w'.loops cfg.ioLoop).pc.rest ⊆ (w.loops cfg.ioLoop).pc.rest) :
      w.Lasting cfg ∨ ∃ f ∈ (w.loops cfg.ioLoop).pc.batch, f.owns = true := by
    refine h.batch ?_
    rcases hbusy with ⟨f, hf, hraw⟩ | ⟨f, hf, hraw⟩
    · exact .inl ⟨f, hrest hf, hraw⟩
    · cases f with
      | functor g =>
          rcases functor_of_moves hm hf with hf | ⟨l, hl, hg, -⟩
          · exact .inr ⟨_, hf, hraw⟩
          · -- a thread has at most one loop
            have hl := (cfg.loopInThisThread_eq _ l).2 hl.symm
            rw [(cfg.loopInThisThread_eq _ cfg.ioLoop).2 rfl] at hl
            obtain rfl := Option.some.inj hl
            exact .inl ⟨g, hg, hraw⟩
      | _ => cases hraw
  have hidle (hstacks : w'.frames = w.frames)
      (hstack : w.frames (cfg.threadId_ cfg.ioLoop) = []) :
      ∃ f ∈ (w'.loops cfg.ioLoop).pc.rest, f.raw = true := by
    rcases hbusy with hrest | ⟨f, hf, -⟩
    · exact hrest
    · rw [hstacks, hstack] at hf
      cases hf
  rcases loopMove_of_moves hm cfg.ioLoop with ⟨-, hbatch, hrest⟩ | ⟨hstacks, hstack, -, -, hpc⟩ |
    ⟨hstacks, hstack, -, hrest', -⟩ | ⟨-, -, -, hpc, -⟩
  · rcases hback hrest with hl | hown
    · exact hlasting hl
    · exact .inr (hbatch ▸ hown)
  · obtain ⟨f, hf, hraw⟩ := hidle hstacks hstack
    rw [hpc] at hf
    exact hlasting (h.pending ⟨f, hf, hraw⟩)
  · obtain ⟨f, hf, -⟩ := hidle hstacks hstack
    rw [hrest'] at hf
    cases hf
  · rcases hback (by rw [hpc]; exact List.Subset.refl _) with hl | hown
    · exact hlasting hl
    · exact .inr (hpc ▸ hown)

/-- **Every raw functor keeps an owner to wait with**, if one that is pushed has
one. -/
theorem Waits.step (h : w.Waits cfg) (hthreads : w.OnThreads cfg)
    (hm : Moves cfg cfg.compared w a w')
    (hpush : ∀ t o l f rest, a = .step t o → w.frames t = .queueInLoop l f :: rest →
      f.raw = true → w.Lasting cfg) : w'.Waits cfg where
  pending := h.pending_step hthreads hm hpush
  batch := h.batch_step hthreads hm

omit [DecidableEq LoopId] in
/-- While the removal lasts nothing more is asked for. -/
theorem Lasting.waits (h : w.Lasting cfg) : w.Waits cfg := ⟨fun _ => h, fun _ => .inl h⟩

/-! ### Runs -/

/-- What keeps the connection alive. -/
structure Keeping (cfg : Threads LoopId Tid) (w : World LoopId Tid) : Prop where
  threads : w.OnThreads cfg
  sheltered : ∀ t, Sheltered cfg t (w.frames t)
  waits : w.core.inMap = true ∨ w.Waits cfg

omit [DecidableEq LoopId] in
/-- So no member function runs on a connection that nobody owns. -/
theorem Keeping.alive (h : w.Keeping cfg) : w.Alive := by
  intro t f hf hmem
  have hlasting (hl : w.Lasting cfg) : w.Owned := hl.owned h.sheltered
  rcases h.sheltered t with hkept | ⟨rfl, frames, g, hst, hraw, -⟩
  · obtain ⟨g, hg, hown⟩ := hkept.exists_of_mem hf hmem
    exact .inr (.inl ⟨t, g, hg, owns_of_shelters hown⟩)
  · rcases h.waits with hmap | hwaits
    · exact .inl hmap
    · have hg : Frame.functor g ∈ w.frames (cfg.threadId_ cfg.ioLoop) := by simp [hst]
      rcases hwaits.batch (.inr ⟨_, hg, hraw⟩) with hl | ⟨f, hf, hown⟩
      · exact hlasting hl
      · exact .inr (.inr ⟨cfg.ioLoop, f, List.mem_append_left _ hf, hown⟩)

/-- **One step** keeps every call of a member and every raw functor with an
owner. -/
theorem Keeping.step (h : w.Keeping cfg) (ha : w.Timely cfg a)
    (hm : Moves cfg cfg.compared w a w') : w'.Keeping cfg := by
  refine ⟨h.threads.step hm, sheltered_of_moves h.sheltered h.threads hm, ?_⟩
  by_cases hmap : w.core.inMap = true
  · cases hm with
    | destroyServer =>
        right
        by_cases hio : cfg.threadId_ cfg.baseLoop = cfg.threadId_ cfg.ioLoop
        · exact (ha hmap hio).step h.threads (.destroyServer hmap ‹_›) (by rintro _ _ _ _ _ ⟨⟩)
        · refine Lasting.waits (.inl ⟨cfg.threadId_ cfg.baseLoop,
            .runInLoop cfg.ioLoop .connectDestroyed, ?_, ?_⟩)
          · simp
          · simp [Frame.removes, hio]
    | @frame t o f rest =>
        cases hf : f.erases with
        | true =>
            right
            obtain rfl : f = .removeConnectionInLoop := by cases f <;> first | rfl | cases hf
            refine Lasting.waits (.inl ⟨t, .queueInLoop cfg.ioLoop .connectDestroyed, ?_, ?_⟩)
            · simp [Core.frameStep]
            · simp [Frame.removes]
        | false => exact .inl ((w.core.inMap_frameStep t o f).trans (by rw [hmap, hf]; rfl))
    | newConnection => exact .inl rfl
    | destroyEmpty hempty => exact absurd hmap (by simp [hempty])
    | _ => exact .inl hmap
  · refine .inr ((h.waits.resolve_left hmap).step h.threads hm ?_)
    rintro t o l f rest rfl hstack hraw
    have htop : .queueInLoop l f ∈ (w.frames t).head? := by simp [hstack]
    exact (ha ⟨_, htop, hraw⟩).resolve_left hmap

/-- **Deferred calls keep their connection alive** in every run in which each raw
functor is pushed in time and the server is not destroyed past one. -/
theorem alive_of_timely {conn : TcpConnection} {as : List (Label LoopId Tid)}
    (hs : exec (step cfg cfg.compared) (init conn) as = some w)
    (htime : Along (step cfg cfg.compared) (Timely cfg) (init conn) as) : w.Alive := by
  have h₀ : (World.init conn : World LoopId Tid).Keeping cfg := by
    refine ⟨Holds.init conn, fun _ => .inl trivial, .inr ⟨?_, ?_⟩⟩
    · rintro ⟨f, hf, -⟩
      cases hf
    · rintro (⟨f, hf, -⟩ | ⟨f, hf, -⟩) <;> cases hf
  have h : w.Keeping cfg :=
    exec_invariant (fun _ _ _ h ha hs => h.step ha (moves_of_step hs)) h₀ htime hs
  exact h.alive

section Decide

variable [Fintype LoopId] [Fintype Tid]

instance (w : World LoopId Tid) : Decidable w.Owned := by
  unfold Owned
  infer_instance

instance (w : World LoopId Tid) : Decidable w.Alive := by
  unfold Alive
  infer_instance

instance (w : World LoopId Tid) : Decidable (w.Lasting cfg) := by
  unfold Lasting
  infer_instance

instance (w : World LoopId Tid) : Decidable (w.Waits cfg) :=
  decidable_of_iff (_ ∧ _) ⟨fun h => ⟨h.1, h.2⟩, fun h => ⟨h.pending, h.batch⟩⟩

instance (w : World LoopId Tid) (a : Label LoopId Tid) : Decidable (w.Acquires a) :=
  match a with
  | .event | .call _ (.send _) | .call _ .shutdown => inferInstanceAs (Decidable w.Owned)
  | .call _ (.runInLoop ..) | .call _ (.queueInLoop ..) | .loop .. | .newConnection
  | .destroyServer | .quit .. | .wakeup .. | .poke .. | .step .. => .isTrue trivial

instance (w : World LoopId Tid) (a : Label LoopId Tid) : Decidable (w.Timely cfg a) :=
  match a with
  | .step _ _ => by unfold Timely; infer_instance
  | .destroyServer => by unfold Timely; infer_instance
  | .loop .. | .event | .newConnection | .call .. | .quit .. | .wakeup ..
  | .poke .. => .isTrue trivial

end Decide

/-- The hypotheses are satisfiable: `sendInLoop` runs while the connection is in
`connections_`. -/
theorem alive_of_timely_sending :
    ∃ w, exec (step .duo Threads.duo.compared) fresh (opening ++ sending ++ starting 0) =
        some w ∧ (∃ f ∈ w.frames 1, f.runsRaw = true) ∧ w.Alive := by
  have hs : exec (step .duo Threads.duo.compared) fresh (opening ++ sending ++ starting 0) =
      some _ := rfl
  exact ⟨_, hs, by decide, alive_of_timely hs (by decide)⟩

/-- **A functor outlives the connection.**  Thread `2` is in `send`, about to push
`sendInLoop`; the peer hangs up and the connection is removed; then the thread
pushes and returns, and the sub-loop runs `sendInLoop` with nobody left who owns
the connection.  The calls and events were made on a live connection. -/
theorem not_alive_removed :
    Along (step .duo Threads.duo.compared) Acquires fresh
        (opening ++ [.poke 7 (some [1, 2, 3]), .call 2 (.send 7)] ++ steps 2 3 ++ hangingUp ++
          sleeping ++ steps 2 4 ++ starting 0) ∧
      ∃ w, exec (step .duo Threads.duo.compared) fresh
          (opening ++ [.poke 7 (some [1, 2, 3]), .call 2 (.send 7)] ++ steps 2 3 ++ hangingUp ++
            sleeping ++ steps 2 4 ++ starting 0) = some w ∧ ¬w.Alive :=
  ⟨by decide +kernel, _, rfl, by decide +kernel⟩

end World
end MuMuduo
