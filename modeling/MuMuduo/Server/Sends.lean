/-
# The calls of `send` that are outstanding

A call of `send` that has found `kConnected` is outstanding until `sendInLoop`
works on its bytes: it is carried by the frames of its caller, from a thread other
than the loop's then by a functor in the loop's queue, and last by the frame of
`sendInLoop`.  As long as the connection is not disconnected no call is lost on
the way (`Outstanding.step`), so that every call is outstanding or has been worked
on (`Accounted.step`); and none appears but by a call that finds `kConnected`
(`Outstanding.of_moves`).
-/

import MuMuduo.Connection.Stream
import MuMuduo.Server.Motion

namespace MuMuduo

variable {LoopId Tid : Type*}

/-- The number of the call of `send` that the functor belongs to. -/
def Functor.sendId : Functor → Option ℕ
  | .sendInLoop _ _ id => some id
  | _ => none

/-- The number of the call of `send` that the frame belongs to, once it has found
`kConnected`. -/
def Frame.sendId : Frame LoopId → Option ℕ
  | .sendConnected _ _ id | .sendInLoop _ _ id | .sendInLoopRest _ _ id => some id
  | .runInLoop _ f | .queueInLoop _ f => f.sendId
  | _ => none

/-- The call of `send` number `id` was made by thread `t`. -/
def Core.SentBy (c : Core LoopId Tid) (id : ℕ) (t : Tid) : Prop :=
  (c.sends[id]?).map Prod.fst = some t

/-- What `sendInLoop` has accepted is what was processed. -/
def Core.Recorded (c : Core LoopId Tid) : Prop :=
  c.conn.accepted = (c.processed.map Prod.snd).flatten

namespace Core

variable {cfg : Threads LoopId Tid} {isIn : LoopId → Tid → Bool → Bool} {c : Core LoopId Tid}

/-- Who has sent a call does not change. -/
theorem SentBy.mono {c' : Core LoopId Tid} {id : ℕ} {t : Tid} (h : c.SentBy id t)
    (hsends : c.sends <+: c'.sends) : c'.SentBy id t := by
  obtain ⟨⟨u, data⟩, hid, hu⟩ := Option.map_eq_some_iff.1 h
  obtain ⟨more, hmore⟩ := hsends
  have hlt := (List.getElem?_eq_some_iff.1 hid).1
  rw [SentBy, ← hmore, List.getElem?_append_left hlt]
  exact h

/-- A call was sent by one thread. -/
theorem SentBy.unique {id : ℕ} {t u : Tid} (ht : c.SentBy id t) (hu : c.SentBy id u) : t = u :=
  Option.some.inj (ht.symm.trans hu)

/-- The number of a call that was sent has been given out. -/
theorem SentBy.lt {id : ℕ} {t : Tid} (h : c.SentBy id t) : id < c.sends.length := by
  obtain ⟨_, hid, -⟩ := Option.map_eq_some_iff.1 h
  exact (List.getElem?_eq_some_iff.1 hid).1

/-- A step of a call takes a call of `send` further, or works on its bytes. -/
theorem sendId_frameStep {t : Tid} {o : Oracle} {f : Frame LoopId} {id : ℕ}
    (hs : c.conn.state_ ≠ .kDisconnected) (hf : f.sendId = some id)
    (hqueue : ∀ l g, f ≠ .queueInLoop l g) :
    (∃ g ∈ (c.frameStep cfg isIn t o f).2, g.sendId = some id) ∨
      ∃ data, (id, data) ∈ (c.frameStep cfg isIn t o f).1.processed := by
  cases f with
  | sendConnected buf len k =>
      simp only [frameStep]
      split_ifs <;> exact .inl ⟨_, List.mem_cons_self, hf⟩
  | sendInLoop buf len k =>
      simp only [frameStep, hs, if_false]
      exact .inl ⟨_, List.mem_cons_self, hf⟩
  | sendInLoopRest buf len k =>
      obtain rfl := Option.some.inj hf
      exact .inr ⟨_, List.mem_append_right _ List.mem_cons_self⟩
  | runInLoop l f =>
      simp only [frameStep]
      split_ifs
      · refine .inl ⟨_, List.mem_cons_self, ?_⟩
        cases f <;> exact hf
      · exact .inl ⟨_, List.mem_cons_self, hf⟩
  | queueInLoop l f => exact absurd rfl (hqueue l f)
  | _ => cases hf

/-- Only `send` makes a call outstanding that was not. -/
theorem sendId_of_next {t : Tid} {o : Oracle} {f g : Frame LoopId} {id : ℕ}
    (h : c.Next cfg isIn t o f g) (hid : g.sendId = some id) :
    f.sendId = some id ∨ c.conn.state_ = .kConnected ∧ id = c.sends.length := by
  cases h with
  | sent hs => exact .inr ⟨hs, (Option.some.inj hid).symm⟩
  | @runDirect l f => exact .inl (by cases f <;> exact hid)
  | runQueued | sendDirect | sendQueued | sendInLoop => exact .inl hid
  | @notice _ _ _ n => cases n <;> cases hid
  | _ => cases hid

/-- A call that `send` records is outstanding. -/
theorem sent_frameStep {t : Tid} {o : Oracle} {f : Frame LoopId} {id : ℕ}
    (h : id < (c.frameStep cfg isIn t o f).1.sends.length) :
    id < c.sends.length ∨ ∃ g ∈ (c.frameStep cfg isIn t o f).2, g.sendId = some id := by
  rcases Nat.lt_or_ge id c.sends.length with hlt | hge
  · exact .inl hlt
  · rw [sends_frameStep, List.length_append] at h
    cases f with
    | send buf data =>
        by_cases hs : c.conn.state_ = .kConnected
        · simp only [Frame.records, hs, if_true, List.length_singleton] at h
          refine .inr ⟨.sendConnected buf data.length c.sends.length, by simp [frameStep, hs], ?_⟩
          rw [Frame.sendId, Option.some.injEq]
          omega
        · simp only [Frame.records, hs, if_false, List.length_nil] at h
          omega
    | _ =>
        simp only [Frame.records, List.length_nil] at h
        omega

/-- What has been processed stays so. -/
theorem processed_mono (t : Tid) (o : Oracle) (f : Frame LoopId) {p : ℕ × List UInt8}
    (h : p ∈ c.processed) : p ∈ (c.frameStep cfg isIn t o f).1.processed := by
  rw [processed_frameStep]
  exact List.mem_append_left _ h

/-- A step accepts the bytes that it works on. -/
theorem accepted_acts (c : Core LoopId Tid) (o : Oracle) (f : Frame LoopId) :
    (f.acts c o).accepted = c.conn.accepted ++ ((f.processes c o).map Prod.snd).flatten := by
  cases f with
  | handle h => cases h <;> simp [Frame.acts, TcpConnection.disconnect]
  | _ =>
      simp [Frame.acts, TcpConnection.connectEstablished, TcpConnection.disconnect]

/-- `sendInLoop` records what it accepts. -/
theorem Recorded.frameStep (h : c.Recorded) (t : Tid) (o : Oracle) (f : Frame LoopId) :
    (c.frameStep cfg isIn t o f).1.Recorded := by
  rw [Recorded, conn_frameStep, processed_frameStep, accepted_acts, List.map_append,
    List.flatten_append, h]

end Core

namespace World

/-- A call of `send` is on its way to `sendInLoop`. -/
def Outstanding (w : World LoopId Tid) (id : ℕ) : Prop :=
  (∃ t, ∃ f ∈ w.frames t, f.sendId = some id) ∨ ∃ l, ∃ f ∈ w.queued l, f.sendId = some id

/-- Every call of `send` that has found `kConnected` is outstanding or has been
worked on. -/
def Accounted (w : World LoopId Tid) : Prop :=
  ∀ id < w.core.sends.length, (∃ data, (id, data) ∈ w.core.processed) ∨ w.Outstanding id

variable [DecidableEq LoopId] [DecidableEq Tid]
variable {cfg : Threads LoopId Tid} {isIn : LoopId → Tid → Bool → Bool}
variable {w w' : World LoopId Tid} {a : Label LoopId Tid}

omit [DecidableEq LoopId] [DecidableEq Tid] in
/-- What comes from outside works on no call of `send` yet. -/
theorem sendId_of_enters {frames : List (Frame LoopId)} (h : Enters cfg frames) :
    ∀ f ∈ frames, f.sendId = none := by
  cases h <;> simp [Frame.sendId, Functor.sendId]

/-- **No call of `send` is lost**: it stays outstanding until `sendInLoop` works on
its bytes, while the connection is not disconnected. -/
theorem Outstanding.step {id : ℕ} (h : w.Outstanding id) (hs : w.core.conn.state_ ≠ .kDisconnected)
    (hm : Moves cfg isIn w a w') :
    w'.Outstanding id ∨ ∃ data, (id, data) ∈ w'.core.processed := by
  rcases h with ⟨t, f, hf, hid⟩ | ⟨l, f, hf, hid⟩
  · rcases mem_stacks_of_moves hm hf with hf | ⟨l, g, rfl, hpend, -⟩ | ⟨o, hqueue, hcore, hnew, -⟩
    · exact .inl (.inl ⟨t, f, hf, hid⟩)
    · exact .inl (.inr ⟨l, g, List.mem_append_right _ (by simp [hpend]), hid⟩)
    · rcases Core.sendId_frameStep hs hid hqueue with ⟨g, hg, hid⟩ | hdone
      · exact .inl (.inl ⟨t, g, hnew g hg, hid⟩)
      · exact .inr (hcore ▸ hdone)
  · rcases mem_queued_of_moves hm hf with hf | hrun
    · exact .inl (.inr ⟨l, f, hf, hid⟩)
    · refine .inl (.inl ⟨_, f.body, hrun ▸ List.mem_cons_self, ?_⟩)
      cases f <;> exact hid

/-- **No call of `send` appears** but by one that finds `kConnected`. -/
theorem Outstanding.of_moves {id : ℕ} (hm : Moves cfg isIn w a w') (h : w'.Outstanding id) :
    w.Outstanding id ∨ w.core.conn.state_ = .kConnected ∧ id = w.core.sends.length := by
  rcases h with ⟨t, f, hf, hid⟩ | ⟨l, f, hf, hid⟩
  · rcases of_mem_stacks hm hf with hf | ⟨l, g, -, -, hg, -, hfg⟩ | ⟨frames, hframes, hf⟩ |
      ⟨l, rfl⟩ | ⟨o, g, rest, -, hstack, -, hf⟩
    · exact .inl (.inl ⟨t, f, hf, hid⟩)
    · refine .inl (.inr ⟨l, g, List.mem_append_left _ hg, ?_⟩)
      rcases hfg with rfl | rfl
      · cases g <;> exact hid
      · cases hid
    · rw [sendId_of_enters hframes f hf] at hid
      cases hid
    · cases hid
    · exact (Core.sendId_of_next (Core.next_of_mem hf) hid).imp_left fun hid =>
        .inl ⟨t, g, hstack ▸ List.mem_cons_self, hid⟩
  · rcases of_mem_queued hm hf with hf | ⟨t, o, rest, -, hstack, -⟩
    · exact .inl (.inr ⟨l, f, hf, hid⟩)
    · exact .inl (.inl ⟨t, .queueInLoop l f, hstack ▸ List.mem_cons_self, hid⟩)

/-- **Every call of `send` is accounted for.** -/
theorem Accounted.step (h : w.Accounted) (hs : w.core.conn.state_ ≠ .kDisconnected)
    (hm : Moves cfg isIn w a w') : w'.Accounted := by
  intro id hid
  have hold (hid : id < w.core.sends.length)
      (hproc : ∀ data, (id, data) ∈ w.core.processed → (id, data) ∈ w'.core.processed) :
      (∃ data, (id, data) ∈ w'.core.processed) ∨ w'.Outstanding id := by
    rcases h id hid with ⟨data, hdone⟩ | hout
    · exact .inl ⟨data, hproc data hdone⟩
    · exact (hout.step hs hm).symm
  cases hm with
  | @frame t o f rest hstack =>
      rcases Core.sent_frameStep hid with hid | ⟨g, hg, hgid⟩
      · exact hold hid fun data => Core.processed_mono t o f
      · refine .inr (.inl ⟨t, g, ?_, hgid⟩)
        simpa using .inl hg
  | _ => exact hold hid fun _ h => h

end World
end MuMuduo
