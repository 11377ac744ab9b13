/-
# The order of the calls of `send`

A call of `send` on the loop's own thread goes straight to `sendInLoop`; one on any
other thread waits in the loop's queue.  Calls of different threads may overtake each
other on the way.  Those of one thread do not: what the loop's thread has worked on,
what it has in hand and what waits in its queue, followed by what a thread is carrying
there, has the calls of each thread in the order in which they were made
(`InOrder.ahead`), whatever the others do, `shutdown`, a close and the destruction of
the server included.

So the data of one thread reaches the descriptor in the order of its calls and no call
is worked on twice (`sends_in_order`), and as long as the connection is not disconnected
each call has been worked on once or is still on its way (`sent_once`).
-/

import MuMuduo.Server.Sends

namespace MuMuduo

open Foundation

variable {LoopId Tid : Type*}

/-- The calls of `send` that the frames of a stack are working on. -/
def sendIds (frames : List (Frame LoopId)) : List ℕ := frames.filterMap Frame.sendId

/-- If calls `id` and `id'` were made by one thread, `id` came first. -/
def Core.Ahead (c : Core LoopId Tid) (id id' : ℕ) : Prop :=
  ∀ u, c.SentBy id u → c.SentBy id' u → id < id'

/-- The functor is as it can be in the queue of `l`: a `sendInLoop` comes from another
thread than the loop's. -/
def Functor.Placed (cfg : Threads LoopId Tid) (c : Core LoopId Tid) (l : LoopId) :
    Functor → Prop
  | .sendInLoop _ _ id => l = cfg.ioLoop ∧ ∃ u, u ≠ cfg.threadId_ cfg.ioLoop ∧ c.SentBy id u
  | _ => True

/-- The functor is as thread `u` can have it in hand. -/
def Functor.Carried (cfg : Threads LoopId Tid) (c : Core LoopId Tid) (u : Tid) (l : LoopId) :
    Functor → Prop
  | .sendInLoop _ _ id => l = cfg.ioLoop ∧ u ≠ cfg.threadId_ cfg.ioLoop ∧ c.SentBy id u
  | _ => True

/-- The frame is as it can be on the stack of thread `u`. -/
def Frame.Placed (cfg : Threads LoopId Tid) (c : Core LoopId Tid) (u : Tid) :
    Frame LoopId → Prop
  | .sendConnected _ _ id => c.SentBy id u
  | .sendInLoop _ _ id | .sendInLoopRest _ _ id =>
      u = cfg.threadId_ cfg.ioLoop ∧ id < c.sends.length
  | .runInLoop l f | .queueInLoop l f => f.Carried cfg c u l
  | _ => True

/-! ### The frames of one step -/

section Placed

variable {cfg : Threads LoopId Tid} {c c' : Core LoopId Tid} {u : Tid} {l : LoopId} {o : Oracle}
variable {f g : Frame LoopId} {k : Functor} {id id' : ℕ}

/-- A functor stays in its place while more calls are made. -/
theorem Functor.Placed.mono (h : k.Placed cfg c l) (hc : c.sends <+: c'.sends) :
    k.Placed cfg c' l := by
  cases k with
  | sendInLoop buf len id =>
      obtain ⟨hl, u, hu, hid⟩ := h
      exact ⟨hl, u, hu, hid.mono hc⟩
  | _ => trivial

/-- So does one in hand. -/
theorem Functor.Carried.mono (h : k.Carried cfg c u l) (hc : c.sends <+: c'.sends) :
    k.Carried cfg c' u l := by
  cases k with
  | sendInLoop buf len id => exact ⟨h.1, h.2.1, h.2.2.mono hc⟩
  | _ => trivial

/-- And so does a frame. -/
theorem Frame.Placed.mono (h : f.Placed cfg c u) (hc : c.sends <+: c'.sends) :
    f.Placed cfg c' u := by
  cases f with
  | sendConnected => exact Core.SentBy.mono h hc
  | sendInLoop | sendInLoopRest => exact ⟨h.1, Nat.lt_of_lt_of_le h.2 hc.length_le⟩
  | runInLoop | queueInLoop => exact Functor.Carried.mono h hc
  | _ => trivial

/-- Two calls that have been made stay in their order. -/
theorem Core.Ahead.mono (h : c.Ahead id id') (hc : c.sends <+: c'.sends)
    (hid : id < c.sends.length) (hid' : id' < c.sends.length) : c'.Ahead id id' := by
  obtain ⟨more, hmore⟩ := hc
  intro u hu hu'
  rw [SentBy, ← hmore, List.getElem?_append_left hid] at hu
  rw [SentBy, ← hmore, List.getElem?_append_left hid'] at hu'
  exact h u hu hu'

/-- Every call is ahead of the calls of other threads. -/
theorem Core.Ahead.of_ne {u v : Tid} (hid : c.SentBy id u) (hid' : c.SentBy id' v)
    (huv : u ≠ v) : c.Ahead id id' := fun _ ht ht' =>
  absurd ((hid.unique ht).trans (ht'.unique hid')) huv

variable [DecidableEq Tid]

/-- **A frame leads to frames in their places**, on the same thread. -/
theorem Frame.Placed.next (h : f.Placed cfg c u)
    (hg : g ∈ (c.frameStep cfg cfg.compared u o f).2) :
    g.Placed cfg (c.frameStep cfg cfg.compared u o f).1 u := by
  have hc : c.sends <+: (c.frameStep cfg cfg.compared u o f).1.sends :=
    c.sends_prefix_frameStep u o f
  have hin {l : LoopId} (hin : cfg.compared l u o.raw = true) : u = cfg.threadId_ l :=
    (of_decide_eq_true hin).symm
  have hout {l : LoopId} (hin : cfg.compared l u o.raw = false) : u ≠ cfg.threadId_ l :=
    fun hu => of_decide_eq_false hin hu.symm
  cases Core.next_of_mem hg with
  | @runDirect l k htrue =>
      cases k with
      | sendInLoop => exact absurd (h.1 ▸ hin htrue) h.2.1
      | _ => trivial
  | runQueued => exact Functor.Carried.mono h hc
  | @sent buf data hs => simp [Frame.Placed, Core.SentBy, Core.frameStep, hs]
  | sendDirect htrue => exact ⟨hin htrue, Nat.lt_of_lt_of_le (Core.SentBy.lt h) hc.length_le⟩
  | sendQueued hfalse => exact ⟨rfl, hout hfalse, Core.SentBy.mono h hc⟩
  | sendInLoop => exact ⟨h.1, Nat.lt_of_lt_of_le h.2 hc.length_le⟩
  | @notice _ _ _ n => cases n <;> trivial
  | _ => trivial

omit [DecidableEq Tid] in
/-- **What becomes of a call of `send` in one step**: it is worked on, it goes on, it is
given up, or it is a new one. -/
theorem sendIds_frameStep (cfg : Threads LoopId Tid) (isIn : LoopId → Tid → Bool → Bool)
    (c : Core LoopId Tid) (u : Tid) (o : Oracle) (hqueue : ∀ l k, f ≠ .queueInLoop l k) :
    ((f.processes c o).map Prod.fst ++ sendIds (c.frameStep cfg isIn u o f).2).Sublist
      (f.sendId.toList ++ (f.records c u).map fun _ => c.sends.length) := by
  cases f with
  | queueInLoop l k => exact absurd rfl (hqueue l k)
  | send buf data =>
      by_cases hs : c.conn.state_ = .kConnected <;>
        simp [Core.frameStep, hs, sendIds, Frame.sendId]
  | sendConnected buf len id =>
      simp only [Core.frameStep]
      split_ifs <;> simp [sendIds, Frame.sendId, Functor.sendId]
  | runInLoop l k =>
      simp only [Core.frameStep]
      split_ifs <;> cases k <;> simp [sendIds, Frame.sendId, Functor.sendId, Functor.body]
  | sendInLoop buf len id =>
      simp only [Core.frameStep]
      split_ifs <;> simp [sendIds, Frame.sendId]
  | sendInLoopRest buf len id =>
      simp only [Core.frameStep]
      cases hn : (c.conn.sendInLoop (c.bytesAt buf len o.garbage) o.write).2 with
      | none => simp [sendIds, Frame.sendId]
      | some n => cases n <;> simp [sendIds, Frame.sendId, Functor.sendId, Functor.ofNotice]
  | handleEvent todo => cases todo <;> simp [Core.frameStep, sendIds, Frame.sendId]
  | handle h =>
      cases h with
      | read => cases hr : o.read <;> simp [Core.frameStep, hr, sendIds, Frame.sendId]
      | close | error => simp [Core.frameStep, sendIds, Frame.sendId]
      | write =>
          simp only [Core.frameStep]
          split_ifs <;> simp [sendIds, Frame.sendId, Functor.sendId]
  | _ =>
      simp only [Core.frameStep]
      try split_ifs
      all_goals simp [sendIds, Frame.sendId, Functor.sendId]

end Placed

section Ids

variable {cfg : Threads LoopId Tid} {c : Core LoopId Tid} {u : Tid} {l : LoopId} {id : ℕ}

/-- A call that has been made was made by a thread. -/
theorem Core.exists_sentBy (hid : id < c.sends.length) : ∃ u, c.SentBy id u :=
  ⟨_, by rw [SentBy, List.getElem?_eq_getElem hid]; rfl⟩

/-- A `sendInLoop` in a queue is in that of the connection's loop, sent by another thread. -/
theorem Functor.Placed.sentBy {k : Functor} (h : k.Placed cfg c l) (hid : k.sendId = some id) :
    l = cfg.ioLoop ∧ ∃ v, v ≠ cfg.threadId_ cfg.ioLoop ∧ c.SentBy id v := by
  cases k with
  | sendInLoop =>
      obtain rfl := Option.some.inj hid
      exact h
  | _ => cases hid

/-- One in hand is on its way there, sent by the thread that has it. -/
theorem Functor.Carried.sentBy {k : Functor} (h : k.Carried cfg c u l)
    (hid : k.sendId = some id) :
    l = cfg.ioLoop ∧ u ≠ cfg.threadId_ cfg.ioLoop ∧ c.SentBy id u := by
  cases k with
  | sendInLoop =>
      obtain rfl := Option.some.inj hid
      exact h
  | _ => cases hid

/-- A frame works on a call that has been made. -/
theorem Frame.Placed.lt {f : Frame LoopId} (h : f.Placed cfg c u) (hid : f.sendId = some id) :
    id < c.sends.length := by
  cases f with
  | sendConnected =>
      obtain rfl := Option.some.inj hid
      exact Core.SentBy.lt h
  | sendInLoop | sendInLoopRest =>
      obtain rfl := Option.some.inj hid
      exact h.2
  | runInLoop | queueInLoop => exact (Functor.Carried.sentBy h hid).2.2.lt
  | _ => cases hid

/-- What a thread other than the loop's has in hand are its own calls. -/
theorem Frame.Placed.sentBy {f : Frame LoopId} (h : f.Placed cfg c u)
    (hu : u ≠ cfg.threadId_ cfg.ioLoop) (hid : f.sendId = some id) : c.SentBy id u := by
  cases f with
  | sendConnected =>
      obtain rfl := Option.some.inj hid
      exact h
  | sendInLoop | sendInLoopRest => exact absurd h.1 hu
  | runInLoop | queueInLoop => exact (Functor.Carried.sentBy h hid).2.2
  | _ => cases hid

/-- The calls that the frames of a stack work on, one by one. -/
theorem mem_sendIds {frames : List (Frame LoopId)} :
    id ∈ sendIds frames ↔ ∃ f ∈ frames, f.sendId = some id := List.mem_filterMap

/-- The calls of two parts of a stack. -/
theorem sendIds_append (frames rest : List (Frame LoopId)) :
    sendIds (frames ++ rest) = sendIds frames ++ sendIds rest := List.filterMap_append

/-- Frames that may have others above them work on no call of `send`. -/
theorem sendIds_of_below {rest : List (Frame LoopId)} (h : ∀ g ∈ rest, g.below = true) :
    sendIds rest = [] := by
  refine List.filterMap_eq_nil_iff.2 fun g hg => ?_
  have hbelow := h g hg
  cases g <;> first | rfl | cases hbelow

/-- Only the innermost call works on a call of `send`. -/
theorem sendIds_cons {f : Frame LoopId} {rest : List (Frame LoopId)}
    (h : ∀ g ∈ rest, g.below = true) : sendIds (f :: rest) = f.sendId.toList := by
  rw [← List.singleton_append, sendIds_append, sendIds_of_below h, List.append_nil, sendIds,
    List.filterMap_cons]
  cases f.sendId <;> rfl

/-- The call that a step records is one of its own thread. -/
theorem records_cases (cfg : Threads LoopId Tid) (isIn : LoopId → Tid → Bool → Bool)
    (c : Core LoopId Tid) (u : Tid) (o : Oracle) (f : Frame LoopId) :
    f.records c u = [] ∨ (f.records c u).map (fun _ => c.sends.length) = [c.sends.length] ∧
      (c.frameStep cfg isIn u o f).1.SentBy c.sends.length u := by
  rw [Core.SentBy, Core.sends_frameStep]
  cases f with
  | send buf data =>
      by_cases hs : c.conn.state_ = .kConnected
      · exact .inr (by simp [hs])
      · exact .inl (by simp [hs])
  | _ => exact .inl rfl

end Ids

/-- An item goes where it is in order with what is in front of it and behind it. -/
theorem pairwise_insert {α : Type*} {R : α → α → Prop} {xs ys : List α} {a : α}
    (h : (xs ++ ys).Pairwise R) (hx : ∀ x ∈ xs, R x a) (hy : ∀ y ∈ ys, R a y) :
    (xs ++ a :: ys).Pairwise R := by
  obtain ⟨hxs, hys, hcross⟩ := List.pairwise_append.1 h
  refine List.pairwise_append.2 ⟨hxs, List.pairwise_cons.2 ⟨hy, hys⟩, fun x hmem y hy' => ?_⟩
  rcases List.mem_cons.1 hy' with rfl | hy'
  · exact hx x hmem
  · exact hcross x hmem y hy'

/-! ### The calls on their way -/

namespace World

section Pipeline

variable [DecidableEq Tid] (cfg : Threads LoopId Tid) (w : World LoopId Tid)

/-- The calls that wait in the loop's queue. -/
def waiting : List ℕ := (w.queued cfg.ioLoop).filterMap Functor.sendId

/-- The calls that the loop's thread has worked on or has in hand. -/
def taken : List ℕ :=
  w.core.processed.map Prod.fst ++ sendIds (w.frames (cfg.threadId_ cfg.ioLoop))

/-- The calls that thread `u` is carrying to the queue. -/
def carried (u : Tid) : List ℕ :=
  if u = cfg.threadId_ cfg.ioLoop then [] else sendIds (w.frames u)

/-- The calls in front of the loop, and those of thread `u` that are coming. -/
def pipeline (u : Tid) : List ℕ := w.taken cfg ++ (w.waiting cfg ++ w.carried cfg u)

/-- The calls of each thread are on their way in the order in which they were made. -/
structure InOrder : Prop where
  below : ∀ u, ∀ f ∈ (w.frames u).tail, f.below = true
  placed : Holds (fun c u f => f.Placed cfg c u) (fun c l f => f.Placed cfg c l) w
  processed_lt : ∀ id ∈ w.core.processed.map Prod.fst, id < w.core.sends.length
  ahead : ∀ u, (w.pipeline cfg u).Pairwise w.core.Ahead

end Pipeline

variable [DecidableEq Tid] {cfg : Threads LoopId Tid} {w w' : World LoopId Tid}
variable {a : Label LoopId Tid} {u t : Tid} {id : ℕ}

omit [DecidableEq Tid] in
/-- Frames and functors stay in their places from step to step. -/
theorem typing_placed :
    Typing (fun c u f => f.Placed cfg c u) (fun c l f => f.Placed cfg c l) cfg where
  queueInLoop c u l f h := by
    cases f with
    | sendInLoop => exact ⟨h.1, u, h.2⟩
    | _ => trivial
  wakeup _ _ _ := trivial
  body c l f h := by
    cases f with
    | sendInLoop =>
        obtain ⟨hl, v, -, hid⟩ := h
        exact ⟨congrArg cfg.threadId_ hl, hid.lt⟩
    | _ => trivial
  functor _ _ _ _ := trivial
  hold _ _ := trivial

/-- What comes from outside comes into its place. -/
theorem entry_placed (w : World LoopId Tid) (a : Label LoopId Tid) (c : Core LoopId Tid) :
    Entry (fun c u f => f.Placed cfg c u) cfg cfg.compared w a c where
  step _ _ _ _ _ _ hf _ hg := hf.next hg
  event _ _ _ := trivial
  newConnection _ := trivial
  destroyServer _ _ := trivial
  send _ _ _ _ _ := trivial
  shutdown _ _ := trivial
  runInLoop _ _ _ := trivial
  queueInLoop _ _ _ := trivial

/-- What waits in the queue was sent by another thread than the loop's. -/
theorem InOrder.waiting_sentBy (h : w.InOrder cfg) (hid : id ∈ w.waiting cfg) :
    ∃ v, v ≠ cfg.threadId_ cfg.ioLoop ∧ w.core.SentBy id v := by
  obtain ⟨f, hf, hfid⟩ := List.mem_filterMap.1 hid
  exact ((h.placed.functors _ f hf).sentBy hfid).2

/-- What a thread carries there it has sent itself. -/
theorem InOrder.carried_sentBy (h : w.InOrder cfg) (hid : id ∈ w.carried cfg u) :
    u ≠ cfg.threadId_ cfg.ioLoop ∧ w.core.SentBy id u := by
  unfold carried at hid
  split_ifs at hid with hu
  · cases hid
  · obtain ⟨f, hf, hfid⟩ := mem_sendIds.1 hid
    exact ⟨hu, (h.placed.frames u f hf).sentBy hu hfid⟩

/-- Everything on its way has been sent. -/
theorem InOrder.lt (h : w.InOrder cfg) (hid : id ∈ w.pipeline cfg u) :
    id < w.core.sends.length := by
  rcases List.mem_append.1 hid with hid | hid
  · rcases List.mem_append.1 hid with hid | hid
    · exact h.processed_lt id hid
    · obtain ⟨f, hf, hfid⟩ := mem_sendIds.1 hid
      exact (h.placed.frames _ f hf).lt hfid
  · rcases List.mem_append.1 hid with hid | hid
    · obtain ⟨v, -, hv⟩ := h.waiting_sentBy hid
      exact hv.lt
    · exact (h.carried_sentBy hid).2.lt

/-- The calls under way stay in their order while others are made. -/
theorem InOrder.ahead_mono (h : w.InOrder cfg) (u : Tid) {c : Core LoopId Tid}
    (hc : w.core.sends <+: c.sends) : (w.pipeline cfg u).Pairwise c.Ahead :=
  (h.ahead u).imp_of_mem fun hid hid' hahead => hahead.mono hc (h.lt hid) (h.lt hid')

/-- The pipeline depends on what is processed, on the queue and on the stacks. -/
theorem pipeline_congr (hp : w'.core.processed = w.core.processed)
    (hq : w'.waiting cfg = w.waiting cfg) (hf : ∀ u, sendIds (w'.frames u) = sendIds (w.frames u)) :
    w'.pipeline cfg u = w.pipeline cfg u := by
  simp only [pipeline, taken, carried, hp, hq, hf]

/-- A stack is replaced by one that works on the same calls. -/
theorem sendIds_update {st : List (Frame LoopId)} (h : sendIds st = sendIds (w.frames t))
    (u : Tid) : sendIds (Function.update w.frames t st u) = sendIds (w.frames u) := by
  by_cases hu : u = t
  · rw [hu, Function.update_self, h]
  · rw [Function.update_of_ne hu]

/-- **The start of a functor** hands the first call of the queue to the loop's thread. -/
theorem InOrder.pipeline_start (h : w.InOrder cfg) {l : LoopId} {f : Functor}
    (hstack : w.frames (cfg.threadId_ l) = []) (hp : w'.core.processed = w.core.processed)
    (hl : w.queued l = f :: w'.queued l) (hother : ∀ k, k ≠ l → w'.queued k = w.queued k)
    (hw : w'.frames = Function.update w.frames (cfg.threadId_ l) [f.body, .functor f]) (u : Tid) :
    w'.pipeline cfg u = w.pipeline cfg u := by
  have hnew : sendIds [f.body, (.functor f : Frame LoopId)] = f.sendId.toList := by
    cases f <;> rfl
  by_cases hio : l = cfg.ioLoop
  · subst hio
    have hwaiting : w.waiting cfg = f.sendId.toList ++ w'.waiting cfg := by
      rw [waiting, hl, List.filterMap_cons, waiting]
      cases f.sendId <;> rfl
    have htaken : w'.taken cfg = w.taken cfg ++ f.sendId.toList := by
      rw [taken, taken, hw, Function.update_self, hnew, hp, hstack, sendIds, List.filterMap_nil,
        List.append_nil]
    have hcarried : w'.carried cfg u = w.carried cfg u := by
      unfold carried
      split_ifs with hu
      · rfl
      · rw [hw, Function.update_of_ne hu]
    simp only [pipeline, hwaiting, htaken, hcarried, List.append_assoc]
  · have hnone : f.sendId = none := by
      by_contra hne
      obtain ⟨id, hid⟩ := Option.ne_none_iff_exists'.1 hne
      exact hio ((h.placed.functors l f (hl ▸ List.mem_cons_self)).sentBy hid).1
    refine pipeline_congr hp ?_ fun v => ?_
    · rw [waiting, waiting, hother _ (Ne.symm hio)]
    · rw [hw]
      exact sendIds_update (by rw [hnew, hnone, hstack]; rfl) v

/-- **A push** puts the call of a thread behind those of the others. -/
theorem InOrder.ahead_push (h : w.InOrder cfg) {l : LoopId} {g : Functor}
    {rest : List (Frame LoopId)} (hstack : w.frames t = .queueInLoop l g :: rest)
    (hc : w'.core = w.core) (hl : w'.queued l = w.queued l ++ [g])
    (hother : ∀ k, k ≠ l → w'.queued k = w.queued k)
    (hw : w'.frames = Function.update w.frames t (.wakeup l :: rest)) (u : Tid) :
    (w'.pipeline cfg u).Pairwise w'.core.Ahead := by
  have hrest : ∀ f ∈ rest, f.below = true := by
    have hbelow := h.below t
    rwa [hstack] at hbelow
  have hold : sendIds (w.frames t) = g.sendId.toList := by
    rw [hstack, sendIds_cons hrest]
    rfl
  have hnew : sendIds (.wakeup l :: rest) = [] := by
    rw [sendIds_cons hrest]
    rfl
  have hp := congrArg Core.processed hc
  rw [hc]
  cases hg : g.sendId with
  | none =>
      have hsame : w'.pipeline cfg u = w.pipeline cfg u := by
        refine pipeline_congr hp ?_ fun v => ?_
        · by_cases hio : cfg.ioLoop = l
          · rw [waiting, waiting, hio, hl, List.filterMap_append, List.filterMap_cons, hg]
            exact List.append_nil _
          · rw [waiting, waiting, hother _ hio]
        · rw [hw]
          exact sendIds_update (by rw [hold, hnew, hg]; rfl) v
      rw [hsame]
      exact h.ahead u
  | some id =>
      have hcarried : (.queueInLoop l g : Frame LoopId).Placed cfg w.core t :=
        h.placed.frames t _ (hstack ▸ List.mem_cons_self)
      obtain ⟨rfl, ht, hid⟩ := Functor.Carried.sentBy hcarried hg
      have hwaiting : w'.waiting cfg = w.waiting cfg ++ [id] := by
        rw [waiting, hl, List.filterMap_append, List.filterMap_cons, hg]
        rfl
      have htaken : w'.taken cfg = w.taken cfg := by
        rw [taken, taken, hp, hw, Function.update_of_ne (Ne.symm ht)]
      have hmine : w.carried cfg t = [id] := by
        rw [carried, if_neg ht, hold, hg]
        rfl
      have hfront : ∀ x ∈ w.taken cfg ++ w.waiting cfg, w.core.Ahead x id := by
        have hpair := h.ahead t
        rw [pipeline, hmine, ← List.append_assoc] at hpair
        exact fun x hx => (List.pairwise_append.1 hpair).2.2 x hx id List.mem_cons_self
      by_cases hu : u = t
      · have hcarried' : w'.carried cfg u = [] := by
          rw [hu, carried, if_neg ht, hw, Function.update_self, hnew]
        have hpair := h.ahead t
        rw [pipeline, hmine] at hpair
        rwa [pipeline, htaken, hwaiting, hcarried', List.append_nil]
      · have hcarried' : w'.carried cfg u = w.carried cfg u := by
          rw [carried, carried, hw, Function.update_of_ne hu]
        have hpair := h.ahead u
        rw [pipeline, ← List.append_assoc] at hpair
        rw [pipeline, htaken, hwaiting, hcarried', List.append_assoc, ← List.append_assoc]
        exact pairwise_insert hpair hfront fun y hy =>
          .of_ne hid (h.carried_sentBy hy).2 (Ne.symm hu)

/-- **A step of a call** takes its call of `send` further, or makes one. -/
theorem InOrder.ahead_frame (h : w.InOrder cfg) {o : Oracle} {f : Frame LoopId}
    {rest : List (Frame LoopId)} (hstack : w.frames t = f :: rest)
    (hqueue : ∀ l g, f ≠ .queueInLoop l g)
    (hc : w'.core = (w.core.frameStep cfg cfg.compared t o f).1) (hl : w'.queued = w.queued)
    (hw : w'.frames = Function.update w.frames t
      ((w.core.frameStep cfg cfg.compared t o f).2 ++ rest)) (u : Tid) :
    (w'.pipeline cfg u).Pairwise w'.core.Ahead := by
  have hrest : ∀ g ∈ rest, g.below = true := by
    have hbelow := h.below t
    rwa [hstack] at hbelow
  have hmem : f ∈ w.frames t := hstack ▸ List.mem_cons_self
  have hold : sendIds (w.frames t) = f.sendId.toList := by rw [hstack, sendIds_cons hrest]
  have hnew : sendIds ((w.core.frameStep cfg cfg.compared t o f).2 ++ rest) =
      sendIds (w.core.frameStep cfg cfg.compared t o f).2 := by
    rw [sendIds_append, sendIds_of_below hrest, List.append_nil]
  have hsub := sendIds_frameStep cfg cfg.compared w.core t o hqueue
  have hrecord := records_cases cfg cfg.compared w.core t o f
  have hsends : w.core.sends <+: w'.core.sends := by
    rw [hc]
    exact w.core.sends_prefix_frameStep t o f
  have hp : w'.core.processed.map Prod.fst =
      w.core.processed.map Prod.fst ++ (f.processes w.core o).map Prod.fst := by
    rw [hc, Core.processed_frameStep, List.map_append]
  have hwaiting : w'.waiting cfg = w.waiting cfg := by rw [waiting, waiting, hl]
  have hpair := h.ahead_mono u hsends
  have hlast {x : ℕ} (hx : x ∈ w.pipeline cfg u) : w'.core.Ahead x w.core.sends.length :=
    fun _ _ _ => h.lt hx
  rw [← hc] at hrecord
  by_cases ht : t = cfg.threadId_ cfg.ioLoop
  · -- the loop's thread: the call goes on in front of the queue
    have htaken : w.taken cfg = w.core.processed.map Prod.fst ++ f.sendId.toList := by
      rw [taken, ← ht, hold]
    have htaken' : w'.taken cfg = w.core.processed.map Prod.fst ++
        ((f.processes w.core o).map Prod.fst ++
          sendIds (w.core.frameStep cfg cfg.compared t o f).2) := by
      rw [taken, hp, ← ht, hw, Function.update_self, hnew, List.append_assoc]
    have hcarried : w'.carried cfg u = w.carried cfg u := by
      unfold carried
      split_ifs with hu
      · rfl
      · rw [hw, Function.update_of_ne fun hut => hu (hut.trans ht)]
    rw [pipeline, htaken', hwaiting, hcarried]
    refine List.Pairwise.sublist ((hsub.append_left _).append_right _) ?_
    rw [pipeline, htaken] at hpair hlast
    rcases hrecord with hnil | ⟨hone, hsent⟩
    · rwa [hnil, List.map_nil, List.append_nil]
    · have hshape (xs ys zs : List ℕ) (x : ℕ) :
          xs ++ (ys ++ [x]) ++ zs = xs ++ ys ++ x :: zs := by simp
      rw [hone, hshape]
      refine pairwise_insert hpair (fun x hx => hlast (List.mem_append_left _ hx)) fun y hy => ?_
      -- what comes behind is of other threads
      obtain ⟨v, hv, hy⟩ : ∃ v, v ≠ cfg.threadId_ cfg.ioLoop ∧ w.core.SentBy y v := by
        rcases List.mem_append.1 hy with hy | hy
        · exact h.waiting_sentBy hy
        · exact ⟨u, h.carried_sentBy hy⟩
      exact .of_ne hsent (hy.mono hsends) fun htv => hv (htv.symm.trans ht)
  · -- another thread: the call goes on in its hands
    have hprocess : f.processes w.core o = [] := by
      have hf := h.placed.frames t f hmem
      cases f with
      | sendInLoopRest => exact absurd hf.1 ht
      | _ => rfl
    have htaken : w'.taken cfg = w.taken cfg := by
      rw [taken, taken, hp, hprocess, List.map_nil, List.append_nil, hw,
        Function.update_of_ne (Ne.symm ht)]
    by_cases hu : u = t
    · subst hu
      have hmine : w.carried cfg u = f.sendId.toList := by rw [carried, if_neg ht, hold]
      have hmine' : w'.carried cfg u =
          sendIds (w.core.frameStep cfg cfg.compared u o f).2 := by
        rw [carried, if_neg ht, hw, Function.update_self, hnew]
      rw [hprocess, List.map_nil, List.nil_append] at hsub
      rw [pipeline, htaken, hwaiting, hmine']
      refine List.Pairwise.sublist ((hsub.append_left _).append_left _) ?_
      rw [pipeline, hmine] at hpair hlast
      rcases hrecord with hnil | ⟨hone, -⟩
      · rwa [hnil, List.map_nil, List.append_nil]
      · rw [hone, ← List.append_assoc, ← List.append_assoc]
        rw [← List.append_assoc] at hpair hlast
        exact List.pairwise_append.2 ⟨hpair, List.pairwise_singleton _ _,
          fun x hx y hy => List.mem_singleton.1 hy ▸ hlast hx⟩
    · have hcarried : w'.carried cfg u = w.carried cfg u := by
        rw [carried, carried, hw, Function.update_of_ne hu]
      rwa [pipeline, htaken, hwaiting, hcarried]

variable [DecidableEq LoopId]

/-- **The calls of each thread stay in their order.** -/
theorem InOrder.ahead_step (h : w.InOrder cfg) (hm : Moves cfg cfg.compared w a w') (u : Tid) :
    (w'.pipeline cfg u).Pairwise w'.core.Ahead := by
  have hsame (hs : w'.core.sends = w.core.sends) (hp : w'.pipeline cfg u = w.pipeline cfg u) :
      (w'.pipeline cfg u).Pairwise w'.core.Ahead := by
    rw [hp]
    exact h.ahead_mono u (hs ▸ List.prefix_rfl)
  have hkeep (hs : w'.core.sends = w.core.sends) (hp : w'.core.processed = w.core.processed)
      (hl : w'.queued = w.queued) (hf : ∀ u, sendIds (w'.frames u) = sendIds (w.frames u)) :
      (w'.pipeline cfg u).Pairwise w'.core.Ahead :=
    hsame hs (pipeline_congr hp (by rw [waiting, waiting, hl]) hf)
  cases hm with
  | loop _ _ hs ha =>
      exact hkeep rfl rfl (queued_update_same (queued_of_internal hs ha)) fun _ => rfl
  | @start l _ _ f _ s hstack _ hpc hpc' hpend =>
      refine hsame rfl (h.pipeline_start (f := f) hstack ?_ ?_ ?_ ?_ u)
      · rfl
      · exact queued_update_start hpc hpc' hpend
      · exact fun k hk => queued_update_of_ne hk
      · rfl
  | @event revents _ hstack =>
      refine hkeep rfl rfl rfl (sendIds_update ?_)
      rw [hstack]
      rfl
  | newConnection _ hstack =>
      refine hkeep rfl rfl rfl (sendIds_update ?_)
      rw [hstack]
      rfl
  | destroyServer => exact hkeep rfl rfl rfl (sendIds_update rfl)
  | destroyEmpty | poke => exact hkeep rfl rfl rfl fun _ => rfl
  | @call t c frames huser hc =>
      refine hkeep rfl rfl rfl (sendIds_update ?_)
      cases c with
      | send buf =>
          obtain ⟨data, -, rfl⟩ := Option.map_eq_some_iff.1 hc
          rfl
      | shutdown | runInLoop | queueInLoop =>
          obtain rfl := Option.some.inj hc
          rfl
  | quit _ _ hq =>
      exact hkeep rfl rfl (queued_update_quiet hq) (sendIds_update rfl)
  | wakeup _ hq | wakeupCall _ _ hq =>
      exact hkeep rfl rfl (queued_update_quiet hq) fun _ => rfl
  | wakeupReturn hstack =>
      refine hkeep rfl rfl rfl (sendIds_update ?_)
      rw [hstack]
      rfl
  | @queueInLoop t o l g rest s hstack _ hpc hpend =>
      refine h.ahead_push hstack ?_ ?_ ?_ ?_ u
      · rfl
      · exact queued_update_push hpc hpend
      · exact fun k hk => queued_update_of_ne hk
      · rfl
  | @frame t o f rest hstack hqueue =>
      refine h.ahead_frame (o := o) hstack hqueue ?_ ?_ ?_ u
      · rfl
      · rfl
      · rfl

/-- Only calls that have been made are processed. -/
theorem InOrder.processed_step (h : w.InOrder cfg) (hm : Moves cfg cfg.compared w a w') :
    ∀ id ∈ w'.core.processed.map Prod.fst, id < w'.core.sends.length := by
  cases hm with
  | @frame t o f rest hstack =>
      have hsends : w.core.sends <+: (w.core.frameStep cfg cfg.compared t o f).1.sends :=
        w.core.sends_prefix_frameStep t o f
      intro id hid
      refine Nat.lt_of_lt_of_le ?_ hsends.length_le
      rw [Core.processed_frameStep, List.map_append] at hid
      rcases List.mem_append.1 hid with hid | hid
      · exact h.processed_lt id hid
      · have hf := h.placed.frames t f (hstack ▸ List.mem_cons_self)
        cases f with
        | sendInLoopRest =>
            obtain rfl := List.mem_singleton.1 hid
            exact hf.2
        | _ => cases hid
  | _ => exact h.processed_lt

/-- No call is taken back. -/
theorem sends_prefix_of_moves (hm : Moves cfg cfg.compared w a w') :
    w.core.sends <+: w'.core.sends := by
  cases hm with
  | frame => exact w.core.sends_prefix_frameStep _ _ _
  | _ => exact List.prefix_rfl

/-- **One step.** -/
theorem InOrder.step (h : w.InOrder cfg) (hm : Moves cfg cfg.compared w a w') :
    w'.InOrder cfg where
  below := below_of_moves h.below hm
  placed := h.placed.step typing_placed (entry_placed w _ _)
    ⟨fun _ _ _ hf => hf.mono (sends_prefix_of_moves hm),
      fun _ _ _ hf => hf.mono (sends_prefix_of_moves hm)⟩ hm
  processed_lt := h.processed_step hm
  ahead := h.ahead_step hm

omit [DecidableEq LoopId] in
/-- Before the first call. -/
theorem InOrder.init (conn : TcpConnection) :
    (World.init conn : World LoopId Tid).InOrder cfg where
  below _ _ hf := by cases hf
  placed := Holds.init conn
  processed_lt _ hid := by cases hid
  ahead u := by
    have hnil : (World.init conn : World LoopId Tid).pipeline cfg u = [] := by
      unfold pipeline carried
      split_ifs <;> rfl
    rw [hnil]
    exact .nil

/-- **The order in every reachable state.** -/
theorem inOrder_of_exec {conn : TcpConnection} {as : List (Label LoopId Tid)}
    (hs : exec (step cfg cfg.compared) (init conn) as = some w) : w.InOrder cfg :=
  exec_invariant' (fun _ _ _ h hs => h.step (moves_of_step hs)) (.init conn) hs

omit [DecidableEq LoopId] in
/-- What has been worked on is in order. -/
theorem InOrder.pairwise_processed (h : w.InOrder cfg) :
    (w.core.processed.map Prod.fst).Pairwise w.core.Ahead := by
  have hpair := h.ahead (cfg.threadId_ cfg.ioLoop)
  rw [pipeline, taken, List.append_assoc] at hpair
  exact (List.pairwise_append.1 hpair).1

/-- **The calls of one thread are worked on in their order, none of them twice.**  In
every run of any number of threads, among the calls of `send` that `sendInLoop` has
worked on, in the order in which it has, those of each thread stand in the order in
which the thread made them; and each was made. -/
theorem sends_in_order {conn : TcpConnection} {as : List (Label LoopId Tid)}
    (hs : exec (step cfg cfg.compared) (init conn) as = some w) :
    (∀ id ∈ w.core.processed.map Prod.fst, id < w.core.sends.length) ∧
      (w.core.processed.map Prod.fst).Pairwise fun id id' =>
        ∀ u, w.core.SentBy id u → w.core.SentBy id' u → id < id' := by
  have h := inOrder_of_exec hs
  exact ⟨h.processed_lt, h.pairwise_processed⟩

/-- The hypothesis is satisfiable: call `1` of the sub-loop's thread is worked on before
call `0` of another thread. -/
theorem sends_in_order_overtaking :
    ∃ w, exec (step .duo Threads.duo.compared) fresh overtaking = some w ∧
      w.core.processed.map Prod.fst = [1, 0] ∧
      (w.core.processed.map Prod.fst).Pairwise fun id id' =>
        ∀ u, w.core.SentBy id u → w.core.SentBy id' u → id < id' := by
  have hs : exec (step .duo Threads.duo.compared) fresh overtaking = some _ := rfl
  exact ⟨_, hs, by decide, (sends_in_order hs).2⟩

omit [DecidableEq LoopId] in
/-- What is outstanding is behind what has been worked on. -/
theorem InOrder.mem_pipeline (h : w.InOrder cfg) (ho : w.Outstanding id) :
    ∃ u, id ∈ sendIds (w.frames (cfg.threadId_ cfg.ioLoop)) ++
      (w.waiting cfg ++ w.carried cfg u) := by
  rcases ho with ⟨u, f, hf, hid⟩ | ⟨l, f, hf, hid⟩
  · refine ⟨u, ?_⟩
    by_cases hu : u = cfg.threadId_ cfg.ioLoop
    · subst hu
      exact List.mem_append_left _ (mem_sendIds.2 ⟨f, hf, hid⟩)
    · refine List.mem_append_right _ (List.mem_append_right _ ?_)
      rw [carried, if_neg hu]
      exact mem_sendIds.2 ⟨f, hf, hid⟩
  · obtain ⟨rfl, u, -⟩ := (h.placed.functors l f hf).sentBy hid
    exact ⟨u, List.mem_append_right _ (List.mem_append_left _ (List.mem_filterMap.2 ⟨f, hf, hid⟩))⟩

/-- **Each call of `send` is worked on once.**  In every run in which the connection is
not disconnected, a call that has found `kConnected` has been worked on exactly once and
is not on its way any more, or it is on its way and has not been worked on. -/
theorem sent_once {conn : TcpConnection} {as : List (Label LoopId Tid)}
    (hs : exec (step cfg cfg.compared) (init conn) as = some w)
    (hup : Along (step cfg cfg.compared) (fun w _ => w.core.conn.state_ ≠ .kDisconnected)
      (init conn) as) (hid : id < w.core.sends.length) :
    (w.core.processed.map Prod.fst).count id = 1 ∧ ¬w.Outstanding id ∨
      (w.core.processed.map Prod.fst).count id = 0 ∧ w.Outstanding id := by
  have h := inOrder_of_exec hs
  have hacc : w.Accounted :=
    exec_invariant (I := Accounted) (fun _ _ _ h hup hs => h.step hup (moves_of_step hs))
      (fun _ hid => by cases hid) hup hs
  obtain ⟨u, hu⟩ := Core.exists_sentBy hid
  have hnot : ¬w.core.Ahead id id := fun hahead => Nat.lt_irrefl id (hahead u hu hu)
  by_cases hmem : id ∈ w.core.processed.map Prod.fst
  · refine .inl ⟨?_, fun ho => ?_⟩
    · -- no call is ahead of itself
      have hpair := h.pairwise_processed
      refine Nat.le_antisymm ?_ (List.count_pos_iff.2 hmem)
      by_contra htwice
      have htwo := hpair.sublist (List.replicate_sublist_iff.2 (Nat.lt_of_not_le htwice))
      exact hnot (List.rel_of_pairwise_cons htwo List.mem_cons_self)
    · obtain ⟨v, hv⟩ := h.mem_pipeline ho
      have hpair := h.ahead v
      rw [pipeline, taken, List.append_assoc] at hpair
      exact hnot ((List.pairwise_append.1 hpair).2.2 id hmem id hv)
  · refine .inr ⟨List.count_eq_zero.2 hmem, (hacc id hid).resolve_left ?_⟩
    rintro ⟨data, hdata⟩
    exact hmem (List.mem_map_of_mem hdata)

/-- The hypotheses are satisfiable: a string sent from another thread has been worked
on. -/
theorem sent_once_sending :
    ∃ w, exec (step .duo Threads.duo.compared) fresh (opening ++ sending ++ starting 2) =
        some w ∧ (w.core.processed.map Prod.fst).count 0 = 1 ∧ ¬w.Outstanding 0 := by
  have hs : exec (step .duo Threads.duo.compared) fresh (opening ++ sending ++ starting 2) =
      some _ := rfl
  have honce := sent_once hs (by decide) Nat.zero_lt_one
  exact ⟨_, hs, honce.resolve_right fun h => absurd h.1 (by decide)⟩

end World
end MuMuduo
