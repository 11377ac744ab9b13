/-
# Closing the write side

`shutdown` closes the write side at once if the channel is not writing, and leaves it
to the `handleWrite` that drains `outputBuffer_` otherwise.  Both go through
`shutdownInLoop`, whose only test is `isWriting`, while `sendInLoop` gives up for
`kDisconnected` only.  What makes the write side close once, and behind all that is
owed, is that it is open as long as the state is `kConnected` and, from then on, as long
as something is buffered (`Closes`).

So a call of `sendInLoop` does no harm on a closing connection that still has something
to write: its data goes behind the rest, in front of the close.  On one that has drained
it writes to a descriptor whose write side is closed.  This is the only call that does
(`closed_last_iff`).  A connection that has been shut down does close its write side
once the kernel has taken what is buffered, however it is cut up (`closes_once_taken`).
-/

import Mathlib.Algebra.GroupWithZero.Nat
import MuMuduo.Connection.Notices

namespace MuMuduo

open Foundation

/-- The write side has not been shut down. -/
def Unshut (fd : List FdEvent) : Prop := ∀ event ∈ fd, ∀ buffered, event ≠ .shutdownWrite buffered

/-- The bytes have been written, and then the write side was shut down, with nothing
buffered; nothing has been done since. -/
def Finished (fd : List FdEvent) (bytes : List UInt8) : Prop :=
  ∃ ws, fd = ws ++ [.shutdownWrite []] ∧ Unshut ws ∧ written ws = bytes

/-- Before any system call the write side is open. -/
theorem unshut_nil : Unshut [] := fun _ he => by cases he

/-- It stays open after a system call that does not shut it down. -/
theorem Unshut.concat {fd : List FdEvent} {event : FdEvent} (h : Unshut fd)
    (he : ∀ buffered, event ≠ .shutdownWrite buffered) : Unshut (fd ++ [event]) := by
  intro e hmem
  rcases List.mem_append.1 hmem with hmem | hmem
  · exact h e hmem
  · obtain rfl := List.mem_singleton.1 hmem
    exact he

/-- Nothing may follow. -/
theorem Finished.not_concat {fd : List FdEvent} {bytes bytes' : List UInt8} {event : FdEvent}
    (h : Finished fd bytes) (he : ∀ buffered, event ≠ .shutdownWrite buffered) :
    ¬(Unshut (fd ++ [event]) ∨ Finished (fd ++ [event]) bytes') := by
  obtain ⟨ws, rfl, -, -⟩ := h
  rintro (hopen | ⟨ws', heq, -, -⟩)
  · exact hopen (.shutdownWrite []) (by simp) [] rfl
  · obtain ⟨-, heq⟩ := List.append_inj' heq rfl
    exact he [] (List.cons.inj heq).1

namespace TcpConnection

/-- A call that does not come too late: `sendInLoop` on a connection that is closing and
has nothing buffered does. -/
def InGoodTime (c : TcpConnection) : Op → Prop
  | .sendInLoop _ _ => ¬(c.state_ = .kDisconnecting ∧ c.outputBuffer_.content = [])
  | .shutdown | .handleWrite _ | .handleClose | .connectDestroyed => True

instance : ∀ c op, Decidable (InGoodTime c op)
  | c, .sendInLoop _ _ =>
      inferInstanceAs (Decidable ¬(c.state_ = .kDisconnecting ∧ c.outputBuffer_.content = []))
  | _, .shutdown | _, .handleWrite _ | _, .handleClose | _, .connectDestroyed =>
      inferInstanceAs (Decidable True)

/-- The write side is closed behind what is owed, or is still open. -/
structure Closes (due : List UInt8) (c : TcpConnection) : Prop where
  streams : (c.recount due).Streams
  idle : c.state_ = .kDisconnected → c.isWriting = false
  early : c.state_ ≠ .kDisconnecting → c.state_ ≠ .kDisconnected → Unshut c.fd
  waiting : c.outputBuffer_.content ≠ [] → Unshut c.fd
  drained : c.state_ = .kDisconnecting → c.outputBuffer_.content = [] → Finished c.fd due
  shut : Unshut c.fd ∨ Finished c.fd due

/-- The connection with a write-complete callback. -/
def notified (c : TcpConnection) : TcpConnection := { c with writeComplateCallback_ := true }

variable {c c' : TcpConnection} {due data : List UInt8} {r : WriteResult} {op : Op}

/-- Nothing has been sent when a connection is established. -/
theorem closes_established (sockfd : ℤ) (mark : ℕ) (complete high : Bool) :
    (ofFd sockfd mark complete high).connectEstablished.Closes [] where
  streams := (Streams.ofFd sockfd mark complete high).connectEstablished fun h => by cases h
  idle h := by cases h
  early _ _ := unshut_nil
  waiting _ := unshut_nil
  drained h := by cases h
  shut := .inl unshut_nil

/-- No step looks at the callback. -/
theorem step_notified (hc : c.step op = some c') : c.notified.step op = some c'.notified := by
  cases op with
  | sendInLoop data r =>
      obtain rfl := Option.some.inj hc
      simp only [step, sendInLoop, writeDirect, bufferRest]
      simp only [show c.notified.direct = c.direct from rfl,
        show c.notified.nwrote r = c.nwrote r from rfl]
      split_ifs <;> first | rfl | contradiction
  | shutdown =>
      obtain rfl := Option.some.inj hc
      simp only [step, shutdown, shutdownInLoop]
      split_ifs <;> first | rfl | contradiction
  | handleWrite r =>
      obtain rfl := Option.some.inj hc
      simp only [step, handleWriteAll, handleWrite, shutdownInLoop]
      split_ifs <;> first | rfl | contradiction
  | handleClose =>
      obtain rfl := Option.some.inj hc
      rfl
  | connectDestroyed =>
      obtain rfl := Option.some.inj hc
      simp only [step, connectDestroyed]
      split_ifs <;> first | rfl | contradiction

/-- What `Ledger.Sound` says of a connection that has the callback holds of any. -/
theorem Closes.sound (h : c.Closes due) : (⟨c.notified, due, []⟩ : Ledger).Sound where
  streams := ⟨h.streams.waiting, h.streams.stream, h.streams.orderly⟩
  idle := h.idle
  callback := rfl

/-- The bytes on their way are those owed, after a call too. -/
theorem Closes.streams_step (h : c.Closes due) (hc : c.step op = some c') :
    (c'.recount (c.owed due op)).Streams := by
  have hsound := h.sound.streams_step (step_notified hc)
  have howed : c.notified.owed due op = c.owed due op := by cases op <;> rfl
  rw [show (⟨c.notified, due, []⟩ : Ledger).conn.owed due op = c.owed due op from howed] at hsound
  exact ⟨hsound.waiting, hsound.stream, hsound.orderly⟩

/-! ### One call -/

/-- The system call that `sendInLoop` makes, if it makes one. -/
theorem fd_sendInLoop (c : TcpConnection) (data : List UInt8) (r : WriteResult) :
    (c.sendInLoop data r).1.fd =
      if c.direct = true then c.fd ++ [.write (data.take r.count) c.outputBuffer_.content]
      else c.fd := by
  have hwrite : ((c.accept data).writeDirect data r).fd =
      if c.direct = true then c.fd ++ [.write (data.take r.count) c.outputBuffer_.content]
      else c.fd := by
    rw [writeDirect, show (c.accept data).direct = c.direct from rfl]
    split_ifs <;> rfl
  rw [← hwrite, TcpConnection.sendInLoop]
  split_ifs
  · exact bufferRest_fd _ _
  · rfl

/-- `sendInLoop` in good time finds the write side open and leaves it open. -/
theorem Closes.unshut_sendInLoop (h : c.Closes due) (hs : c.state_ ≠ .kDisconnected)
    (hop : c.InGoodTime (.sendInLoop data r)) : Unshut (c.sendInLoop data r).1.fd := by
  have hopen : Unshut c.fd := by
    by_cases hclosing : c.state_ = .kDisconnecting
    · exact h.waiting fun hnil => hop ⟨hclosing, hnil⟩
    · exact h.early hclosing hs
  rw [fd_sendInLoop]
  split_ifs
  · exact hopen.concat fun _ he => by cases he
  · exact hopen

/-- On a closing connection `sendInLoop` in good time finds something to go behind. -/
theorem content_sendInLoop_ne_nil (h : c.state_ = .kDisconnecting)
    (hop : c.InGoodTime (.sendInLoop data r)) :
    (c.sendInLoop data r).1.outputBuffer_.content ≠ [] := by
  rw [content_sendInLoop]
  exact fun hnil => hop ⟨h, (List.append_eq_nil_iff.1 hnil).1⟩

/-- **A `sendInLoop`** that comes in good time. -/
theorem Closes.sendInLoop (h : c.Closes due) (hs : c.state_ ≠ .kDisconnected)
    (hop : c.InGoodTime (.sendInLoop data r)) :
    (c.sendInLoop data r).1.Closes (c.owed due (.sendInLoop data r)) := by
  have hc : c.step (.sendInLoop data r) = some (c.sendInLoop data r).1 := by
    rw [step, if_neg hs]
  have hopen := h.unshut_sendInLoop hs hop
  refine ⟨h.streams_step hc, idle_of_step h.idle hc, fun _ _ => hopen, fun _ => hopen,
    fun hclosing hnil => ?_, .inl hopen⟩
  rw [sendInLoop_state_] at hclosing
  exact absurd hnil (content_sendInLoop_ne_nil hclosing hop)

/-- **`sendInLoop` on a closing connection that has drained writes behind the close.** -/
theorem Closes.not_closes_late (h : c.Closes due) (hs : c.state_ = .kDisconnecting)
    (hnil : c.outputBuffer_.content = []) {due' : List UInt8} :
    ¬(Unshut (c.sendInLoop data r).1.fd ∨ Finished (c.sendInLoop data r).1.fd due') := by
  have hdirect : c.direct = true := by
    rw [direct, hnil, List.length_nil, beq_self_eq_true, Bool.or_true]
  rw [fd_sendInLoop, if_pos hdirect]
  exact (h.drained hs hnil).not_concat fun _ he => by cases he

/-- `shutdownInLoop` where it is called: all that is owed has been written, or the rest
is still waiting. -/
theorem Closes.shutdownInLoop (h : (c.recount due).Streams) (hs : c.state_ = .kDisconnecting)
    (hfd : Unshut c.fd) : c.shutdownInLoop.Closes due := by
  have hne : c.state_ ≠ .kDisconnected := by rw [hs]; decide
  have hc : (c.shutdownInLoop.recount due).Streams := by
    have hcs := h.shutdownInLoop (h.content_of_not_isWriting hne)
    have hsame : (c.recount due).shutdownInLoop = c.shutdownInLoop.recount due := by
      simp only [TcpConnection.shutdownInLoop]
      split_ifs <;> first | rfl | contradiction
    rwa [hsame] at hcs
  unfold TcpConnection.shutdownInLoop at hc ⊢
  split_ifs at hc ⊢ with hidle
  · rw [Bool.not_eq_true'] at hidle
    have hnil : c.outputBuffer_.content = [] := h.content_of_not_isWriting hne hidle
    have hdue : written c.fd = due := by
      have hstream : written c.fd ++ c.outputBuffer_.content = due := h.stream
      rwa [hnil, List.append_nil] at hstream
    have hfin : Finished (c.fd ++ [.shutdownWrite c.outputBuffer_.content]) due :=
      ⟨c.fd, by rw [hnil], hfd, hdue⟩
    exact ⟨hc, fun hd => absurd hd hne, fun hd => absurd hs hd, fun hd => absurd hnil hd,
      fun _ _ => hfin, .inr hfin⟩
  · rw [Bool.not_eq_true', Bool.not_eq_false] at hidle
    exact ⟨hc, fun hd => absurd hd hne, fun hd => absurd hs hd, fun _ => hfd,
      fun _ hnil => absurd hnil ((h.waiting hne).1 hidle), .inl hfd⟩

/-- **A `shutdown`** closes the write side at once or leaves it to `handleWrite`. -/
theorem Closes.shutdown (h : c.Closes due) : c.shutdown.Closes due := by
  unfold TcpConnection.shutdown
  split_ifs with hs
  · have hne : c.state_ ≠ .kDisconnected := by rw [hs]; decide
    exact .shutdownInLoop (h.streams.setState hne .kDisconnecting) rfl
      (h.early (by rw [hs]; decide) hne)
  · exact h

/-- **`handleWrite` goes on with what is owed**, and closes the write side behind its
last byte. -/
theorem Closes.handleWriteAll (h : c.Closes due) (r : WriteResult) :
    (c.handleWriteAll r).Closes due := by
  cases hw : c.isWriting with
  | false =>
      have hsame : c.handleWrite r = (c, false) := by
        rw [TcpConnection.handleWrite, hw]
        exact if_neg Bool.false_ne_true
      rw [TcpConnection.handleWriteAll, hsame]
      exact h
  | true =>
      have hne : c.state_ ≠ .kDisconnected := fun hs =>
        Bool.false_ne_true ((h.idle hs).symm.trans hw)
      have hfd : Unshut (c.writeFd r).fd :=
        (h.waiting ((h.streams.waiting hne).1 hw)).concat fun _ he => by cases he
      have hstreams : ((c.handleWrite r).1.recount due).Streams := by
        have hcs := h.streams.handleWrite r
        have hsame : ((c.recount due).handleWrite r).1 = (c.handleWrite r).1.recount due := by
          simp only [TcpConnection.handleWrite]
          split_ifs <;> first | rfl | contradiction
        rwa [hsame] at hcs
      have hopen : Unshut (c.handleWrite r).1.fd := by
        rw [TcpConnection.handleWrite, if_pos hw]
        split_ifs <;> exact hfd
      rw [TcpConnection.handleWriteAll]
      split_ifs with hd
      · exact .shutdownInLoop hstreams hd.2 hopen
      · have hne' : (c.handleWrite r).1.state_ ≠ .kDisconnected := by
          rw [handleWrite_state_]
          exact hne
        refine ⟨hstreams, fun hs => absurd hs hne', fun _ _ => hopen,
          fun _ => hopen, fun hs hnil => ?_, .inl hopen⟩
        -- the flag is unset, so the channel still waits and something is left
        have hflag : (c.handleWrite r).2 ≠ true := fun hf => hd ⟨hf, hs⟩
        have hstill : (c.handleWrite r).1.isWriting = true := by
          rw [TcpConnection.handleWrite, if_pos hw] at hflag ⊢
          split_ifs at hflag ⊢
          · exact absurd rfl hflag
          · exact hw
        exact absurd hnil ((hstreams.waiting hne').1 hstill)

/-- `kDisconnected` settles it. -/
theorem Closes.of_disconnected (h : c.Closes due) (op : Op) (hc : c.step op = some c')
    (howed : c.owed due op = due) (hs : c'.state_ = .kDisconnected) (hfd : c'.fd = c.fd)
    (hbuf : c'.outputBuffer_ = c.outputBuffer_) : c'.Closes due where
  streams := howed ▸ h.streams_step hc
  idle := idle_of_step h.idle hc
  early _ hd := absurd hs hd
  waiting := by rw [hfd, hbuf]; exact h.waiting
  drained hd := by rw [hs] at hd; cases hd
  shut := by rw [hfd]; exact h.shut

/-- **One call.** -/
theorem Closes.step (h : c.Closes due) (hop : c.InGoodTime op) (hc : c.step op = some c') :
    c'.Closes (c.owed due op) := by
  cases op with
  | sendInLoop data r =>
      obtain rfl := Option.some.inj hc
      split_ifs with hs
      · rw [owed, if_pos (.inl hs)]
        exact h
      · exact h.sendInLoop hs hop
  | shutdown =>
      obtain rfl := Option.some.inj hc
      exact h.shutdown
  | handleWrite r =>
      obtain rfl := Option.some.inj hc
      exact h.handleWriteAll r
  | handleClose =>
      obtain rfl := Option.some.inj hc
      exact h.of_disconnected .handleClose rfl rfl rfl rfl rfl
  | connectDestroyed =>
      obtain rfl := Option.some.inj hc
      unfold TcpConnection.connectDestroyed
      split_ifs with hs
      · exact h.of_disconnected .connectDestroyed (by
          rw [TcpConnection.step, TcpConnection.connectDestroyed, if_pos hs]) rfl rfl rfl rfl
      · exact ⟨⟨h.streams.waiting, h.streams.stream, h.streams.orderly⟩, h.idle, h.early,
          h.waiting, h.drained, h.shut⟩

/-- **Which calls keep the close last.** -/
theorem Closes.step_iff (h : c.Closes due) (hc : c.step op = some c') :
    (Unshut c'.fd ∨ Finished c'.fd (c.owed due op)) ↔ c.InGoodTime op := by
  refine ⟨fun hshut => ?_, fun hop => (h.step hop hc).shut⟩
  cases op with
  | sendInLoop data r =>
      rintro ⟨hs, hnil⟩
      obtain rfl := Option.some.inj hc
      rw [if_neg (by rw [hs]; decide)] at hshut
      exact h.not_closes_late hs hnil hshut
  | shutdown | handleWrite | handleClose | connectDestroyed => trivial

end TcpConnection

/-! ### Runs -/

namespace Ledger

/-- A connection that has been established, with nothing owed yet. -/
def established (sockfd : ℤ) (mark : ℕ) (complete high : Bool) : Ledger :=
  ofConnection (TcpConnection.ofFd sockfd mark complete high).connectEstablished

/-- The call of a member function is not too late. -/
def InGoodTime (s : Ledger) : Call → Prop
  | .connectEstablished => False
  | .op op => s.conn.InGoodTime op

instance : ∀ s a, Decidable (InGoodTime s a)
  | _, .connectEstablished => inferInstanceAs (Decidable False)
  | s, .op op => inferInstanceAs (Decidable (s.conn.InGoodTime op))

/-- The write side is closed last, behind all that is owed, if it is closed. -/
def ClosedLast (s : Ledger) : Prop := Unshut s.conn.fd ∨ Finished s.conn.fd s.due

variable {s s' : Ledger}

/-- A call of a member function. -/
theorem step_op {op : TcpConnection.Op} (hs : s.step (.op op) = some s') :
    s.conn.step op = some s'.conn ∧ s'.due = s.conn.owed s.due op := by
  obtain ⟨c, hc, rfl⟩ := Option.map_eq_some_iff.1 hs
  exact ⟨hc, rfl⟩

/-- A call can always be made. -/
theorem exists_step_op (s : Ledger) (op : TcpConnection.Op) : ∃ s', s.step (.op op) = some s' := by
  obtain ⟨c, hc⟩ : ∃ c, s.conn.step op = some c := by cases op <;> exact ⟨_, rfl⟩
  exact ⟨_, Option.map_eq_some_iff.2 ⟨c, hc, rfl⟩⟩

/-- The calls of a run without records. -/
theorem along_op (ops : List TcpConnection.Op) (s : Ledger) :
    Along step (fun _ a => ∃ op, a = .op op) s (ops.map .op) := by
  refine along_of_forall_mem (fun a ha => ?_) s
  obtain ⟨op, -, rfl⟩ := List.mem_map.1 ha
  exact ⟨op, rfl⟩

/-- **The write side is closed last exactly when no call comes too late.**  In every run
on the loop's thread of a connection that has been established, whatever the kernel
answers: no system call is made behind `::shutdown(SHUT_WR)`, which is made behind all
that is owed, if and only if `sendInLoop` is never called on a connection that is
`kDisconnecting` and has nothing buffered. -/
theorem closed_last_iff (sockfd : ℤ) (mark : ℕ) (complete high : Bool)
    (ops : List TcpConnection.Op) :
    Safe step ClosedLast (established sockfd mark complete high) (ops.map .op) ↔
      Along step InGoodTime (established sockfd mark complete high) (ops.map .op) := by
  refine safe_iff_along_of_invariant (I := fun s => s.conn.Closes s.due)
    (B := fun _ a => ∃ op, a = .op op) (fun s h => h.shut) ?_ ?_
    (TcpConnection.closes_established sockfd mark complete high)
    (along_op ops _)
  · rintro s _ h ⟨op, rfl⟩
    obtain ⟨s', hs'⟩ := s.exists_step_op op
    obtain ⟨hc, hdue⟩ := step_op hs'
    have hiff : s'.ClosedLast ↔ s.conn.InGoodTime op := by
      rw [ClosedLast, hdue]
      exact h.step_iff hc
    refine ⟨?_, fun hop => ⟨s', hs', hiff.2 hop⟩⟩
    rintro ⟨t, ht, hshut⟩
    obtain rfl := Option.some.inj (hs'.symm.trans ht)
    exact hiff.1 hshut
  · rintro s _ s' h ⟨op, rfl⟩ hop hs'
    obtain ⟨hc, hdue⟩ := step_op hs'
    rw [hdue]
    exact h.step hop hc

/-- A run in good time. -/
theorem closes_of_exec {sockfd : ℤ} {mark : ℕ} {complete high : Bool}
    {ops : List TcpConnection.Op}
    (hops : Along step InGoodTime (established sockfd mark complete high) (ops.map .op))
    (hrun : exec step (established sockfd mark complete high) (ops.map .op) = some s) :
    s.conn.Closes s.due := by
  refine exec_invariant (I := fun s => s.conn.Closes s.due) (fun s a s' h hop hs' => ?_)
    (TcpConnection.closes_established sockfd mark complete high) hops hrun
  cases a with
  | connectEstablished => exact hop.elim
  | op op =>
      obtain ⟨hc, hdue⟩ := step_op hs'
      rw [hdue]
      exact h.step hop hc

/-- What `handleWrite`s leave of a closing connection. -/
theorem exec_handleWrites (h : s.conn.Closes s.due) (hs : s.conn.state_ = .kDisconnecting)
    (rs : List WriteResult) :
    ∃ s', exec step s (rs.map fun r => .op (.handleWrite r)) = some s' ∧
      s'.conn.Closes s'.due ∧ s'.conn.state_ = .kDisconnecting ∧ s'.due = s.due ∧
      s'.conn.outputBuffer_.content =
        s.conn.outputBuffer_.content.drop (rs.map WriteResult.count).sum := by
  induction rs generalizing s with
  | nil => exact ⟨s, rfl, h, hs, rfl, rfl⟩
  | cons r rs ih =>
      obtain ⟨s₁, hs₁⟩ := s.exists_step_op (.handleWrite r)
      obtain ⟨hc, hdue⟩ := step_op hs₁
      have hclose : s₁.conn.Closes s₁.due := by
        rw [hdue]
        exact h.step trivial hc
      have hconn : s₁.conn = s.conn.handleWriteAll r := (Option.some.inj hc).symm
      have hstate : s₁.conn.state_ = .kDisconnecting := by
        rw [hconn, TcpConnection.handleWriteAll]
        split_ifs <;> simpa using hs
      have hcontent : s₁.conn.outputBuffer_.content =
          s.conn.outputBuffer_.content.drop r.count := by
        rw [hconn, TcpConnection.content_handleWriteAll]
        split_ifs with hw
        · rfl
        · -- an idle channel has nothing to take from
          rw [Bool.not_eq_true] at hw
          have hnil : s.conn.outputBuffer_.content = [] :=
            h.streams.content_of_not_isWriting (by
              show s.conn.state_ ≠ _
              rw [hs]
              decide) hw
          rw [hnil, List.drop_nil]
      obtain ⟨s', hs', hclose', hstate', hdue', hcontent'⟩ := ih hclose hstate
      refine ⟨s', exec_cons.2 ⟨s₁, hs₁, hs'⟩, hclose', hstate', hdue'.trans hdue, ?_⟩
      rw [hcontent', hcontent, List.drop_drop, List.map_cons, List.sum_cons]

/-- **A connection that has been shut down closes its write side** when the kernel has
taken what is buffered, in however many parts, and not before: after any run in good
time that has left it `kDisconnecting`, and any calls of `handleWrite`, the write side
has been closed behind all that is owed if these have written as much as was buffered,
and is open otherwise. -/
theorem closes_once_taken {sockfd : ℤ} {mark : ℕ} {complete high : Bool}
    {ops : List TcpConnection.Op}
    (hops : Along step InGoodTime (established sockfd mark complete high) (ops.map .op))
    (hrun : exec step (established sockfd mark complete high) (ops.map .op) = some s)
    (hs : s.conn.state_ = .kDisconnecting) (rs : List WriteResult) :
    ∃ s', exec step s (rs.map fun r => .op (.handleWrite r)) = some s' ∧
      if s.conn.outputBuffer_.content.length ≤ (rs.map WriteResult.count).sum then
        Finished s'.conn.fd s.due
      else Unshut s'.conn.fd := by
  obtain ⟨s', hs', h, hstate, hdue, hcontent⟩ :=
    exec_handleWrites (closes_of_exec hops hrun) hs rs
  refine ⟨s', hs', ?_⟩
  split_ifs with hlen
  · rw [← hdue]
    refine h.drained hstate ?_
    rw [hcontent]
    exact List.drop_eq_nil_of_le hlen
  · refine h.waiting fun hnil => hlen ?_
    rw [hcontent] at hnil
    exact List.drop_eq_nil_iff.1 hnil

/-- The hypotheses are satisfiable: two bytes of `3` are waiting when the connection is
shut down, and `handleWrite` is called three times, once to no avail. -/
theorem closes_once_taken_parts :
    ∃ s s', exec step (established 5 64 true false)
        [.op (.sendInLoop [1, 2, 3] (.wrote 1)), .op .shutdown] = some s ∧
      exec step s [.op (.handleWrite (.wrote 1)), .op (.handleWrite (.failed EWOULDBLOCK)),
        .op (.handleWrite (.wrote 1))] = some s' ∧ Finished s'.conn.fd [1, 2, 3] := by
  have hrun : exec step (established 5 64 true false)
      ([.sendInLoop [1, 2, 3] (.wrote 1), .shutdown].map .op) = some _ := rfl
  obtain ⟨s', hs', hclosed⟩ := closes_once_taken (by decide) hrun rfl
    [.wrote 1, .failed EWOULDBLOCK, .wrote 1]
  exact ⟨_, s', hrun, hs', hclosed⟩

end Ledger

end MuMuduo
