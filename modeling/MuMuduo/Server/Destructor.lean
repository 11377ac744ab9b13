/-
# Removal and the destructor

The close callback of a connection is bound to the server by a raw pointer and is
never taken out, and so is a `removeConnectionInLoop` that waits in the queue of
the base loop.  `~TcpServer` takes back neither of them.  It only hands
`connectDestroyed` to the connection's loop, where the peer may be seen to close
before it is run (`not_serving_hangingUp`).

Three things decide whether a removal is executed on a server whose destructor has
begun: a removal that a thread is in the middle of, or that is in the batch of the
base loop, when the destructor begins; a `handleClose` after that; and a batch
that the base loop takes out of its queue after that with a removal in it.  In
every other run the server is alive whenever one of its functions is executed
(`serving_of_dismissed`).
-/

import MuMuduo.Server.Confinement
import MuMuduo.Server.Motion
import Mathlib.Data.Fintype.Basic

namespace MuMuduo

open Foundation

variable {LoopId Tid : Type*}

/-- The next step of the call is in `removeConnection` or `removeConnectionInLoop`
of the server. -/
def Frame.onServer : Frame LoopId → Bool
  | .removeConnection | .removeConnectionInLoop => true
  | _ => false

namespace World

/-- A step in a function of the server is taken before the destructor begins. -/
def Serving (w : World LoopId Tid) : Label LoopId Tid → Prop
  | .step t _ => (∃ f ∈ (w.frames t).head?, f.onServer = true) → w.core.serverAlive = true
  | _ => True

/-- When the destructor begins no thread is in a removal and none is in the batch
of the base loop; after it has begun `handleClose` is not executed and the base loop
takes no removal out of its queue. -/
def Dismissed (cfg : Threads LoopId Tid) (w : World LoopId Tid) : Label LoopId Tid → Prop
  | .destroyServer => (∀ t, ∀ f ∈ w.frames t, f.onServer = false) ∧
      .removeConnectionInLoop ∉ (w.loops cfg.baseLoop).pc.rest
  | .step t _ => (w.frames t).head? = some (.handle .close) → w.core.serverAlive = true
  | .loop l .swap _ => l = cfg.baseLoop →
      .removeConnectionInLoop ∈ (w.loops l).pendingFunctors_ → w.core.serverAlive = true
  | _ => True

/-- No removal is under way, but for one that has not reached the queue of the base
loop, or waits there. -/
structure Cleared (cfg : Threads LoopId Tid) (w : World LoopId Tid) : Prop where
  frames : ∀ t, ∀ f ∈ w.frames t, f.onServer = false
  handed : ∀ l, .runInLoop l .removeConnectionInLoop ∉ w.frames (cfg.threadId_ cfg.baseLoop)
  batch : .removeConnectionInLoop ∉ (w.loops cfg.baseLoop).pc.rest

/-- What holds of the removals before and after the destructor. -/
structure Dismissing (cfg : Threads LoopId Tid) (w : World LoopId Tid) : Prop where
  threads : w.OnThreads cfg
  below : ∀ t, ∀ f ∈ (w.frames t).tail, f.below = true
  cleared : w.core.serverAlive = false → w.Cleared cfg

variable {cfg : Threads LoopId Tid} {w w' : World LoopId Tid} {a : Label LoopId Tid}
variable [DecidableEq LoopId] [DecidableEq Tid]

/-- Where the destructor has begun it had begun before, or begins in this step. -/
theorem serverAlive_of_moves {isIn : LoopId → Tid → Bool → Bool} (hm : Moves cfg isIn w a w')
    (hdead : w'.core.serverAlive = false) : w.core.serverAlive = false ∨ a = .destroyServer := by
  cases hm with
  | destroyServer | destroyEmpty => exact .inr rfl
  | @frame t o f => exact .inl (by rwa [Core.frameStep_core] at hdead)
  | _ => exact .inl hdead

omit [DecidableEq LoopId] [DecidableEq Tid] in
/-- Where user code runs, no functor is about to be handed to a loop. -/
theorem not_mem_of_userCode {t : Tid} (hbelow : ∀ f ∈ (w.frames t).tail, f.below = true)
    (huser : w.userCode cfg t = true) {f : Frame LoopId} (hf : f.below = false) :
    f ∉ w.frames t := by
  intro hmem
  rcases stack_of_userCode huser with hst | ⟨rest, hst⟩ <;> rw [hst] at hmem hbelow
  · cases hmem
  · rcases List.mem_cons.1 hmem with rfl | hmem
    · cases hf
    · exact absurd (hbelow f hmem) (by simp [hf])

/-- **The destructor begins** with no removal under way. -/
theorem Cleared.destroyServer (h : w.Dismissing cfg) (ha : w.Dismissed cfg .destroyServer)
    (hm : Moves cfg cfg.compared w .destroyServer w') : w'.Cleared cfg := by
  obtain ⟨hframes, hbatch⟩ := ha
  cases hm with
  | destroyEmpty _ huser =>
      exact ⟨hframes, fun l => not_mem_of_userCode (h.below _) huser rfl, hbatch⟩
  | destroyServer _ huser =>
      refine ⟨fun t f hf => ?_, fun l hl => ?_, hbatch⟩
      · by_cases ht : t = cfg.threadId_ cfg.baseLoop
        · subst ht
          simp only [Function.update_self, List.mem_cons] at hf
          rcases hf with rfl | rfl | hf
          · rfl
          · rfl
          · exact hframes _ f hf
        · simp only [Function.update_of_ne ht] at hf
          exact hframes t f hf
      · simp only [Function.update_self, List.mem_cons] at hl
        rcases hl with hl | hl | hl
        · cases hl
        · cases hl
        · exact not_mem_of_userCode (h.below _) huser rfl hl

/-- After a step, too, no call is in a function of the server. -/
theorem Cleared.frames_step (h : w.Cleared cfg) (hthreads : w.OnThreads cfg)
    (hdead : w.core.serverAlive = false) (ha : w.Dismissed cfg a)
    (hm : Moves cfg cfg.compared w a w') (t : Tid) :
    ∀ f ∈ w'.frames t, f.onServer = false := by
  intro f hf
  rcases of_mem_stacks hm hf with hf | ⟨l, g, -, -, hg, -, rfl | rfl⟩ | ⟨frames, hframes, hf⟩ |
    ⟨l, rfl⟩ | ⟨o, g, rest, rfl, hstack, -, hf⟩
  · exact h.frames t f hf
  · -- a functor of a batch is started
    have hloop : g.OnLoop cfg l := hthreads.functors l g (List.mem_append_left _ hg)
    cases g with
    | removeConnectionInLoop =>
        obtain rfl : l = cfg.baseLoop := hloop
        exact absurd hg h.batch
    | _ => rfl
  · rfl
  · cases hframes <;> simp only [List.mem_cons, List.not_mem_nil, or_false] at hf
    all_goals rcases hf with rfl | rfl <;> rfl
  · rfl
  · have hmem : g ∈ w.frames t := hstack ▸ List.mem_cons_self
    have hon : g.OnThread cfg t := hthreads.frames t g hmem
    have hserver := h.frames t g hmem
    cases Core.next_of_mem hf with
    | @runDirect l g hin =>
        cases g with
        | removeConnectionInLoop =>
            -- the direct call is made by the thread of the base loop only
            obtain rfl : l = cfg.baseLoop := hon
            obtain rfl : cfg.threadId_ cfg.baseLoop = t := of_decide_eq_true hin
            exact absurd hmem (h.handed _)
        | _ => rfl
    | closedRemove =>
        have halive : w.core.serverAlive = true := ha (by rw [hstack, List.head?_cons])
        rw [hdead] at halive
        cases halive
    | removeConnection | removed => cases hserver
    | _ => rfl

/-- No removal is on its way to the base loop any more. -/
theorem Cleared.handed_step (h : w.Cleared cfg) (hm : Moves cfg cfg.compared w a w')
    (k : LoopId) :
    .runInLoop k .removeConnectionInLoop ∉ w'.frames (cfg.threadId_ cfg.baseLoop) := by
  intro hf
  rcases of_mem_stacks hm hf with hf | ⟨l, g, -, -, -, -, hg | hg⟩ | ⟨frames, hframes, hf⟩ |
    ⟨l, hl⟩ | ⟨o, g, rest, -, hstack, -, hf⟩
  · exact h.handed k hf
  · cases g <;> cases hg
  · cases hg
  · cases hframes <;> simp at hf
  · cases hl
  · have hserver := h.frames _ g (hstack ▸ List.mem_cons_self)
    generalize hrun : Frame.runInLoop k .removeConnectionInLoop = f at hf
    cases Core.next_of_mem hf with
    | @runDirect l g => cases g <;> cases hrun
    | removeConnection => cases hserver
    | _ => cases hrun

/-- None is in its batch. -/
theorem Cleared.batch_step (h : w.Cleared cfg) (hdead : w.core.serverAlive = false)
    (ha : w.Dismissed cfg a) (hm : Moves cfg cfg.compared w a w') :
    .removeConnectionInLoop ∉ (w'.loops cfg.baseLoop).pc.rest := by
  intro hmem
  rcases loopMove_of_moves hm cfg.baseLoop with ⟨-, -, hrest⟩ | ⟨-, -, -, -, hpc, reported, rfl⟩ |
    ⟨-, -, -, hrest, -⟩ | ⟨-, -, -, hpc, -⟩
  · exact h.batch (hrest hmem)
  · rw [hpc] at hmem
    have halive : w.core.serverAlive = true := ha rfl hmem
    rw [hdead] at halive
    cases halive
  · rw [hrest] at hmem
    cases hmem
  · exact h.batch (hpc ▸ hmem)

/-- **After the destructor has begun** no removal begins, if `handleClose` is not
executed and no removal gets into a batch of the base loop. -/
theorem Cleared.step (h : w.Cleared cfg) (hthreads : w.OnThreads cfg)
    (hdead : w.core.serverAlive = false) (ha : w.Dismissed cfg a)
    (hm : Moves cfg cfg.compared w a w') : w'.Cleared cfg where
  frames := h.frames_step hthreads hdead ha hm
  handed := h.handed_step hm
  batch := h.batch_step hdead ha hm

/-- **One step** keeps the removals away from a server that is gone. -/
theorem Dismissing.step (h : w.Dismissing cfg) (ha : w.Dismissed cfg a)
    (hm : Moves cfg cfg.compared w a w') : w'.Dismissing cfg := by
  refine ⟨h.threads.step hm, below_of_moves h.below hm, fun hdead => ?_⟩
  by_cases hw : w.core.serverAlive = false
  · exact (h.cleared hw).step h.threads hw ha hm
  · obtain rfl := (serverAlive_of_moves hm hdead).resolve_left hw
    exact Cleared.destroyServer h ha hm

omit [DecidableEq LoopId] [DecidableEq Tid] in
/-- Before the server has the connection. -/
theorem Dismissing.init (conn : TcpConnection) :
    (World.init conn : World LoopId Tid).Dismissing cfg :=
  ⟨Holds.init conn, by simp [World.init], by simp [World.init, Core.init]⟩

omit [DecidableEq LoopId] [DecidableEq Tid] in
/-- No step in a function of the server is taken after the destructor has begun. -/
theorem Dismissing.serving (h : w.Dismissing cfg) (a : Label LoopId Tid) : w.Serving a := by
  cases a with
  | step t o =>
      rintro ⟨f, hf, hserver⟩
      by_contra hdead
      have := (h.cleared (by simpa using hdead)).frames t f (List.mem_of_mem_head? hf)
      rw [hserver] at this
      cases this
  | _ => trivial

/-- **No call into a dead server** in every run of any number of loops and threads
in which the destructor begins with no removal under way and is followed by no
`handleClose` and by no batch of the base loop with a removal in it. -/
theorem serving_of_dismissed {conn : TcpConnection} {as : List (Label LoopId Tid)}
    (hdismissed : Along (step cfg cfg.compared) (Dismissed cfg) (init conn) as) :
    Along (step cfg cfg.compared) Serving (init conn) as :=
  hdismissed.of_invariant (fun _ _ _ h ha hs => h.step ha (moves_of_step hs))
    (fun _ a h _ => h.serving a) (Dismissing.init conn)

section Decide

omit [DecidableEq LoopId] [DecidableEq Tid] in
instance (w : World LoopId Tid) (a : Label LoopId Tid) : Decidable (w.Serving a) :=
  match a with
  | .step _ _ => by unfold Serving; infer_instance
  | .loop .. | .event | .newConnection | .destroyServer | .call .. | .quit .. | .wakeup ..
  | .poke .. => .isTrue trivial

instance [Fintype Tid] (w : World LoopId Tid) (a : Label LoopId Tid) :
    Decidable (w.Dismissed cfg a) :=
  match a with
  | .step _ _ | .destroyServer | .loop _ .swap _ => by unfold Dismissed; infer_instance
  | .loop _ .enter _ | .loop _ .clearQuit _ | .loop _ .test _ | .loop _ .pollReturn _
  | .loop _ .headleRead _ | .loop _ .dispatched _ | .loop _ .raise _ | .loop _ .start _
  | .loop _ .lower _ | .loop _ .leave _ | .loop _ (.queueInLoop ..) _ | .loop _ (.runInLoop ..) _
  | .loop _ (.check _) _ | .loop _ (.wake _) _ | .loop _ (.quit ..) _ | .loop _ (.wakeup _) _
  | .event | .newConnection | .call .. | .quit .. | .wakeup .. | .poke .. => .isTrue trivial

end Decide

/-- The hypothesis is satisfiable: the peer hangs up, the connection is removed, and
then the server is destroyed in the next dispatch of the base loop. -/
theorem serving_of_dismissed_hangingUp :
    (∃ w, exec (step .duo Threads.duo.compared) fresh (opening ++ hangingUp ++
          [.loop false .test none, .loop false .pollReturn none, .destroyServer]) = some w ∧
        w.core.serverAlive = false ∧ (false, .removeConnectionInLoop, 0) ∈ w.core.ran) ∧
      Along (step .duo Threads.duo.compared) Serving fresh (opening ++ hangingUp ++
        [.loop false .test none, .loop false .pollReturn none, .destroyServer]) :=
  ⟨⟨_, rfl, by decide, by decide⟩, serving_of_dismissed (by decide +kernel)⟩

/-- **`removeConnection` is called on a server that is gone.**  The destructor has
pushed `connectDestroyed` to the sub-loop; before it is run the peer hangs up, and
`handleClose` calls the close callback. -/
theorem not_serving_hangingUp :
    (exec (step .duo Threads.duo.compared) fresh
        (opening ++ [.destroyServer] ++ steps 0 4 ++ closing)).isSome = true ∧
      ¬Along (step .duo Threads.duo.compared) Serving fresh
        (opening ++ [.destroyServer] ++ steps 0 4 ++ closing) := by
  decide +kernel

end World
end MuMuduo
