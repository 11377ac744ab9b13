/-
# The bytes of a call of `send`

`send` binds `buf.c_str()` and `buf.size()`.  On the loop's thread `sendInLoop`
reads the string at once; on any other the pointer waits in a queue while the
caller goes on.  The bytes that `sendInLoop` works on are the ones `send` was
called with as long as nobody writes to the string, or frees it, while a call of
`send` with it is under way or a functor with the pointer is waiting
(`processed_eq_sends`).  A caller that reuses its string after `send` has returned
breaks this (`not_processed_reused`).
-/

import MuMuduo.Server.Frames
import Mathlib.Data.Fintype.Basic

namespace MuMuduo

open Foundation

variable {LoopId Tid : Type*}

/-- The functor reads the string at `buf`. -/
def Functor.reads (buf : ℕ) : Functor → Bool
  | .sendInLoop b _ _ => b == buf
  | _ => false

/-- The call reads the string at `buf`. -/
def Frame.reads (buf : ℕ) : Frame LoopId → Bool
  | .send b _ | .sendConnected b _ _ | .sendInLoop b _ _ | .sendInLoopRest b _ _ => b == buf
  | .runInLoop _ f | .queueInLoop _ f => f.reads buf
  | _ => false

namespace Core

/-- The string at `buf` is what the call of `send` number `id` was made with. -/
def Intact (c : Core LoopId Tid) (buf len id : ℕ) : Prop :=
  ∃ t data, c.sends[id]? = some (t, data) ∧ c.heap buf = some data ∧ len = data.length

/-- An intact string is read as it was. -/
theorem Intact.bytesAt {c : Core LoopId Tid} {buf len id : ℕ} (h : c.Intact buf len id)
    (garbage : ℕ → UInt8) : ∃ t, c.sends[id]? = some (t, c.bytesAt buf len garbage) := by
  obtain ⟨t, data, hid, hbuf, rfl⟩ := h
  refine ⟨t, ?_⟩
  have hdata : c.bytesAt buf data.length garbage = data := by
    apply List.ext_getElem
    · simp [Core.bytesAt]
    · intro i hi hi'
      simp [Core.bytesAt, hbuf, hi']
  rw [hdata, hid]

/-- A string stays intact while nobody writes it. -/
theorem Intact.mono {c c' : Core LoopId Tid} {buf len id : ℕ} (h : c.Intact buf len id)
    (hheap : c'.heap buf = c.heap buf) (hsends : c.sends <+: c'.sends) :
    c'.Intact buf len id := by
  obtain ⟨t, data, hid, hbuf, hlen⟩ := h
  obtain ⟨more, hmore⟩ := hsends
  refine ⟨t, data, ?_, hheap.trans hbuf, hlen⟩
  rw [← hmore, List.getElem?_append_left (List.getElem?_eq_some_iff.1 hid).1, hid]

end Core

/-- The string of a waiting `sendInLoop` is intact. -/
def Functor.Intact (c : Core LoopId Tid) : Functor → Prop
  | .sendInLoop buf len id => c.Intact buf len id
  | _ => True

/-- The string of a call under way is intact. -/
def Frame.Intact (c : Core LoopId Tid) : Frame LoopId → Prop
  | .send buf data => c.heap buf = some data
  | .sendConnected buf len id | .sendInLoop buf len id | .sendInLoopRest buf len id =>
      c.Intact buf len id
  | .runInLoop _ f | .queueInLoop _ f => f.Intact c
  | _ => True

/-- So does that of a waiting functor, as far as it reads it. -/
theorem Functor.Intact.mono {c c' : Core LoopId Tid} {f : Functor} (h : f.Intact c)
    (hheap : ∀ buf, f.reads buf = true → c'.heap buf = c.heap buf)
    (hsends : c.sends <+: c'.sends) : f.Intact c' := by
  cases f with
  | sendInLoop buf len id => exact Core.Intact.mono h (hheap buf (by simp [reads])) hsends
  | _ => trivial

/-- And that of a call under way. -/
theorem Frame.Intact.mono {c c' : Core LoopId Tid} {f : Frame LoopId} (h : f.Intact c)
    (hheap : ∀ buf, f.reads buf = true → c'.heap buf = c.heap buf)
    (hsends : c.sends <+: c'.sends) : f.Intact c' := by
  cases f with
  | send buf data => exact (hheap buf (by simp [reads])).trans h
  | sendConnected buf len id | sendInLoop buf len id | sendInLoopRest buf len id =>
      exact Core.Intact.mono h (hheap buf (by simp [reads])) hsends
  | runInLoop l f | queueInLoop l f => exact Functor.Intact.mono h hheap hsends
  | _ => trivial

namespace World

/-- A call under way or a waiting functor reads the string at `buf`. -/
def Reads (w : World LoopId Tid) (buf : ℕ) : Prop :=
  (∃ t, ∃ f ∈ w.frames t, f.reads buf = true) ∨ ∃ l, ∃ f ∈ w.queued l, f.reads buf = true

/-- A string is written or freed only when nobody is going to read it. -/
def Unread (w : World LoopId Tid) : Label LoopId Tid → Prop
  | .poke buf _ => ¬w.Reads buf
  | _ => True

/-- Every string that is going to be read is intact, and what was processed is
what was sent. -/
structure Snapshots (w : World LoopId Tid) : Prop where
  intact : Holds (fun c _ f => f.Intact c) (fun c _ f => f.Intact c) w
  processed : ∀ id data, (id, data) ∈ w.core.processed → ∃ t, w.core.sends[id]? = some (t, data)

variable {cfg : Threads LoopId Tid} {isIn : LoopId → Tid → Bool → Bool}

/-- The frames that take the place of an intact call are intact. -/
theorem intact_frameStep {c : Core LoopId Tid} {t : Tid} {o : Oracle} {f g : Frame LoopId}
    (hf : f.Intact c) (hg : g ∈ (c.frameStep cfg isIn t o f).2) :
    g.Intact (c.frameStep cfg isIn t o f).1 := by
  have hmono (h : g.Intact c) : g.Intact (c.frameStep cfg isIn t o f).1 :=
    h.mono (fun buf _ => congrFun (c.heap_frameStep t o f) buf) (c.sends_prefix_frameStep t o f)
  cases Core.next_of_mem hg with
  | @sent buf data hs =>
      have hheap : c.heap buf = some data := hf
      exact ⟨t, data, by simp [Core.frameStep, hs], by simpa [Core.frameStep, hs] using hheap, rfl⟩
  | @runDirect l f =>
      cases f with
      | sendInLoop => exact hmono hf
      | _ => trivial
  | runQueued | sendDirect | sendQueued | sendInLoop => exact hmono hf
  | @notice _ _ _ n => cases n <;> trivial
  | _ => trivial

/-- What a call leads to reads the same string. -/
theorem typing_intact :
    Typing (fun c _ f => f.Intact c) (fun c _ f => f.Intact c) cfg where
  queueInLoop _ _ _ _ h := h
  wakeup _ _ _ := trivial
  body _ _ f h := by
    cases f with
    | sendInLoop => exact h
    | _ => trivial
  functor _ _ _ _ := trivial
  hold _ _ := trivial

/-- What comes from outside reads none, or one that is intact. -/
theorem entry_intact (w : World LoopId Tid) (a : Label LoopId Tid) (c : Core LoopId Tid) :
    Entry (fun c _ f => f.Intact c) cfg isIn w a c where
  step _ _ _ _ _ _ hf _ hg := intact_frameStep hf hg
  event _ _ _ := trivial
  newConnection _ := trivial
  destroyServer _ _ := trivial
  send _ _ _ _ h := h
  shutdown _ _ := trivial
  runInLoop _ _ _ := trivial
  queueInLoop _ _ _ := trivial

variable {w w' : World LoopId Tid} {a : Label LoopId Tid}

/-- What a step works on is read from an intact string. -/
theorem of_mem_processes {c : Core LoopId Tid} {o : Oracle} {f : Frame LoopId} (hf : f.Intact c)
    {id : ℕ} {data : List UInt8} (hid : (id, data) ∈ f.processes c o) :
    ∃ t, c.sends[id]? = some (t, data) := by
  cases f with
  | sendInLoopRest buf len k =>
      obtain ⟨rfl, rfl⟩ := Prod.mk.inj (List.mem_singleton.1 hid)
      exact Core.Intact.bytesAt hf o.garbage
  | _ => cases hid

variable [DecidableEq LoopId] [DecidableEq Tid]

/-- **One step** that changes no string under a reader. -/
theorem Snapshots.step (h : w.Snapshots) (ha : w.Unread a) (hm : Moves cfg isIn w a w') :
    w'.Snapshots := by
  obtain ⟨hint, hproc⟩ := h
  -- a step that reads no string and records nothing
  have hsame (hheap : ∀ buf, w.Reads buf → w'.core.heap buf = w.core.heap buf)
      (hsends : w.core.sends <+: w'.core.sends) :
      Holds (fun c _ f => f.Intact c) (fun c _ f => f.Intact c) w' := by
    refine hint.step typing_intact (entry_intact w _ _)
      ⟨fun t f hf hP => ?_, fun l f hf hQ => ?_⟩ hm
    · exact hP.mono (fun buf hr => hheap buf (.inl ⟨t, f, hf, hr⟩)) hsends
    · exact hQ.mono (fun buf hr => hheap buf (.inr ⟨l, f, hf, hr⟩)) hsends
  cases hm with
  | @poke buf bytes =>
      refine ⟨hsame (fun b hb => ?_) List.prefix_rfl, hproc⟩
      have hne : b ≠ buf := by
        rintro rfl
        exact ha hb
      simp [Function.update_of_ne hne]
  | @frame t o f rest hstack =>
      have hsends : w.core.sends <+: (w.core.frameStep cfg isIn t o f).1.sends :=
        w.core.sends_prefix_frameStep t o f
      have hf : f.Intact w.core := hint.frames t f (hstack ▸ List.mem_cons_self)
      refine ⟨hsame (fun b _ => congrFun (w.core.heap_frameStep t o f) b) hsends,
        fun id data hid => ?_⟩
      obtain ⟨u, hu⟩ : ∃ u, w.core.sends[id]? = some (u, data) := by
        rw [Core.processed_frameStep] at hid
        rcases List.mem_append.1 hid with hold | hnew
        · exact hproc id data hold
        · exact of_mem_processes hf hnew
      obtain ⟨more, hmore⟩ := hsends
      refine ⟨u, ?_⟩
      show (w.core.frameStep cfg isIn t o f).1.sends[id]? = _
      rw [← hmore, List.getElem?_append_left (List.getElem?_eq_some_iff.1 hu).1, hu]
  | _ => exact ⟨hsame (fun _ _ => rfl) List.prefix_rfl, hproc⟩

/-- **`send` takes a snapshot** in every run in which no string is written or
freed while a call of `send` with it is under way or waiting. -/
theorem processed_eq_sends {conn : TcpConnection} {as : List (Label LoopId Tid)}
    (hs : exec (step cfg isIn) (init conn) as = some w)
    (hun : Along (step cfg isIn) Unread (init conn) as) :
    ∀ id data, (id, data) ∈ w.core.processed → ∃ t, w.core.sends[id]? = some (t, data) := by
  have h₀ : (World.init conn : World LoopId Tid).Snapshots :=
    ⟨Holds.init conn, fun _ _ h => by cases h⟩
  have h : w.Snapshots :=
    exec_invariant (fun _ _ _ h ha hs => h.step ha (moves_of_step hs)) h₀ hun hs
  exact h.processed

instance [Fintype LoopId] [Fintype Tid] (w : World LoopId Tid) (a : Label LoopId Tid) :
    Decidable (w.Unread a) :=
  match a with
  | .poke _ _ => by unfold Unread Reads; infer_instance
  | .loop .. | .event | .newConnection | .destroyServer | .call .. | .quit .. | .wakeup ..
  | .step .. => .isTrue trivial

/-- The hypotheses are satisfiable: a string sent from another thread is processed
while it still is as it was. -/
theorem processed_eq_sends_sending :
    ∃ w, exec (step .duo Threads.duo.compared) fresh (opening ++ sending ++ starting 2) =
        some w ∧ w.core.processed = [(0, [1, 2, 3])] ∧
      ∀ id data, (id, data) ∈ w.core.processed → ∃ t, w.core.sends[id]? = some (t, data) := by
  have hs : exec (step .duo Threads.duo.compared) fresh (opening ++ sending ++ starting 2) =
      some _ := rfl
  exact ⟨_, hs, rfl, processed_eq_sends hs (by decide)⟩

/-- **A caller reuses its string.**  Thread `2` sends `1, 2, 3`, `send` returns,
and the thread writes `9, 9, 9` over them before the functor is run: these are the
bytes `sendInLoop` works on. -/
theorem not_processed_reused :
    ∃ w, exec (step .duo Threads.duo.compared) fresh
        (opening ++ sending ++ [.poke 7 (some [9, 9, 9])] ++ starting 2) = some w ∧
      ¬∀ id data, (id, data) ∈ w.core.processed → ∃ t, w.core.sends[id]? = some (t, data) := by
  refine ⟨_, rfl, fun h => ?_⟩
  obtain ⟨t, ht⟩ := h 0 [9, 9, 9] List.mem_cons_self
  have hsent : some ((2 : Fin 3), [(1 : UInt8), 2, 3]) = some (t, [9, 9, 9]) := ht
  simp at hsent

end World
end MuMuduo
