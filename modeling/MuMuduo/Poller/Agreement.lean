/-
# The poller's bookkeeping agrees with the kernel

A poller with all of its channels, under any sequence of the five mask
operations of `Channel.h` and `Channel::remove`.  The descriptors of the
channels are pairwise distinct, so an operation on one of them leaves the
entries of the others alone (`EPollPoller.OnlyAt`), and the three copies of each
registration stay in step (`Agrees.step`).  Hence no call to `epoll_ctl` fails
and `LOG_FATAL` is never reached, in any order of the operations
(`bookkeeping_agrees`).
-/

import MuMuduo.Foundation.Run
import MuMuduo.Poller.Basic

namespace MuMuduo

open Foundation

variable {ι : Type*}

namespace Channel

/-- The operations on a channel that reach the poller. -/
inductive Op
  | enableReading
  | disableReading
  | enableWriting
  | disableWriting
  | disableAll
  | remove
  deriving DecidableEq

def enableReading (c : Channel) : Channel := { c with events_ := c.events_ ||| kReadEvent }
def disableReading (c : Channel) : Channel := { c with events_ := c.events_ &&& ~~~kReadEvent }
def enableWriting (c : Channel) : Channel := { c with events_ := c.events_ ||| kWriteEvent }
def disableWriting (c : Channel) : Channel := { c with events_ := c.events_ &&& ~~~kWriteEvent }
def disableAll (c : Channel) : Channel := { c with events_ := kNoneEvent }

/-- An operation on the channel and on its poller: a mask operation changes the
mask and calls `update()`, `remove()` goes to `removeChannel`. -/
def perform (p : EPollPoller ι) (ptr : ι) (c : Channel) : Op → EPollPoller ι × Channel
  | .enableReading => p.updateChannel ptr c.enableReading
  | .disableReading => p.updateChannel ptr c.disableReading
  | .enableWriting => p.updateChannel ptr c.enableWriting
  | .disableWriting => p.updateChannel ptr c.disableWriting
  | .disableAll => p.updateChannel ptr c.disableAll
  | .remove => p.removeChannel ptr c

/-- Whatever the operation, a channel registered with its own mask stays so. -/
theorem perform_registered {p : EPollPoller ι} {ptr : ι} {c : Channel}
    (h : p.Registered ptr c c.events_) (op : Op) :
    (perform p ptr c op).1.Registered ptr (perform p ptr c op).2 (perform p ptr c op).2.events_ ∧
      EPollPoller.OnlyAt c.fd_ p (perform p ptr c op).1 ∧ (perform p ptr c op).2.fd_ = c.fd_ := by
  -- a mask operation hands `updateChannel` the same channel with another mask
  have hmask (events : BitVec 32) :
      let r := p.updateChannel ptr { c with events_ := events }
      r.1.Registered ptr r.2 r.2.events_ ∧ EPollPoller.OnlyAt c.fd_ p r.1 ∧ r.2.fd_ = c.fd_ := by
    have h' : p.Registered ptr { c with events_ := events } c.events_ :=
      ⟨h.index_mem, h.interest_eq, h.channels_eq⟩
    obtain ⟨hr, ho, hf, he⟩ := EPollPoller.updateChannel_registered h'
    exact ⟨by rw [he]; exact hr, ho, hf⟩
  cases op with
  | enableReading => exact hmask _
  | disableReading => exact hmask _
  | enableWriting => exact hmask _
  | disableWriting => exact hmask _
  | disableAll => exact hmask _
  | remove =>
      obtain ⟨hr, ho, hf, he⟩ := EPollPoller.removeChannel_registered h
      exact ⟨by rw [perform, he]; exact hr, ho, hf⟩

end Channel

/-- A poller and all of its channels. -/
structure Watch (ι : Type*) where
  poller : EPollPoller ι
  chan : ι → Channel

namespace Watch

/-- New channels on the descriptors `fd`, none of them registered. -/
def ofFds (fd : ι → ℤ) : Watch ι := ⟨.empty, fun i => Channel.ofFd (fd i)⟩

/-- Every channel is registered with its own mask, and no `epoll_ctl` failed. -/
structure Agrees (fd : ι → ℤ) (s : Watch ι) : Prop where
  fd_eq : ∀ i, (s.chan i).fd_ = fd i
  registered : ∀ i, s.poller.Registered i (s.chan i) (s.chan i).events_
  failed_eq : s.poller.failed = 0
  exited_eq : s.poller.exited = false

/-- At the start the poller knows none of the channels. -/
theorem Agrees.ofFds (fd : ι → ℤ) : Agrees fd (Watch.ofFds fd) :=
  ⟨fun _ => rfl, fun _ => ⟨.inl rfl, rfl, rfl⟩, rfl, rfl⟩

variable [DecidableEq ι]

/-- One operation on one channel. -/
def step (s : Watch ι) (a : ι × Channel.Op) : Option (Watch ι) :=
  let r := (s.chan a.1).perform s.poller a.1 a.2
  some ⟨r.1, Function.update s.chan a.1 r.2⟩

/-- **One operation keeps all registrations**, its own by `perform_registered` and
those of the other descriptors because they are not touched. -/
theorem Agrees.step {fd : ι → ℤ} (hfd : Function.Injective fd) {s s' : Watch ι}
    {a : ι × Channel.Op} (h : Agrees fd s) (hs : s.step a = some s') : Agrees fd s' := by
  obtain ⟨i, op⟩ := a
  obtain rfl := Option.some.inj hs
  obtain ⟨hr, ho, hf⟩ := Channel.perform_registered (h.registered i) op
  refine ⟨fun j => ?_, fun j => ?_, ?_, ?_⟩
  · by_cases hj : j = i
    · subst hj
      simp only [Function.update_self]
      rw [hf, h.fd_eq]
    · simp only [Function.update_of_ne hj]
      exact h.fd_eq j
  · by_cases hj : j = i
    · subst hj
      simpa only [Function.update_self] using hr
    · have hne : (s.chan j).fd_ ≠ (s.chan i).fd_ := by
        rw [h.fd_eq, h.fd_eq]
        exact fun he => hj (hfd he)
      obtain ⟨hidx, hint, hch⟩ := h.registered j
      simp only [Function.update_of_ne hj]
      exact ⟨hidx, by rw [ho.interest_of_ne _ hne, hint], by rw [ho.channels_of_ne _ hne, hch]⟩
  · rw [ho.failed_eq, h.failed_eq]
  · rw [ho.exited_eq, h.exited_eq]

/-- **The poller's bookkeeping agrees with the kernel** after every sequence of
operations: a descriptor is in the interest set exactly when its channel is
tagged `kAdded`, with the channel's mask and address; `channels_` holds the
channel exactly when it is tagged `kAdded` or `kDeleted`, so that `hasChannel` is
exact; and no `epoll_ctl` has failed, so that the process has not exited. -/
theorem bookkeeping_agrees {fd : ι → ℤ} (hfd : Function.Injective fd)
    {ops : List (ι × Channel.Op)} {s : Watch ι}
    (hs : exec Watch.step (Watch.ofFds fd) ops = some s) :
    (∀ i, ((s.poller.interest (fd i)).isSome ↔ (s.chan i).index_ = kAdded) ∧
      (∀ event, s.poller.interest (fd i) = some event →
        event.events = (s.chan i).events_ ∧ event.ptr = i) ∧
      (s.poller.channels_ (fd i) = some i ↔
        (s.chan i).index_ = kAdded ∨ (s.chan i).index_ = kDeleted) ∧
      (s.poller.hasChannel i (s.chan i) = true ↔
        (s.chan i).index_ = kAdded ∨ (s.chan i).index_ = kDeleted)) ∧
      s.poller.failed = 0 ∧ s.poller.exited = false := by
  have h : Agrees fd s := exec_invariant' (fun _ _ _ => Agrees.step hfd) (Agrees.ofFds fd) hs
  refine ⟨fun i => ?_, h.failed_eq, h.exited_eq⟩
  obtain ⟨hidx, hint, hch⟩ := h.registered i
  rw [h.fd_eq] at hint hch
  have htag : s.poller.channels_ (fd i) = some i ↔
      (s.chan i).index_ = kAdded ∨ (s.chan i).index_ = kDeleted := by
    rw [hch]
    rcases hidx with hk | hk | hk <;> rw [hk] <;> simp [kNew, kAdded, kDeleted]
  refine ⟨?_, fun event he => ?_, htag, ?_⟩
  · rw [hint]
    split_ifs with hk <;> simp [hk]
  · rw [hint] at he
    split_ifs at he with hk
    obtain rfl := Option.some.inj he
    exact ⟨rfl, rfl⟩
  · rw [EPollPoller.hasChannel, h.fd_eq, beq_iff_eq]
    exact htag

/-- The hypotheses are satisfiable: two channels on the descriptors `3` and `4`,
one of them emptied, removed and enabled again. -/
theorem bookkeeping_agrees_pair :
    ∃ s, exec Watch.step (Watch.ofFds fun i : Bool => if i then 3 else 4)
        [(true, .enableReading), (false, .enableWriting), (true, .disableAll), (true, .disableAll),
          (true, .remove), (true, .enableReading)] = some s ∧
      (s.chan true).index_ = kAdded ∧ s.poller.failed = 0 ∧ s.poller.exited = false := by
  have hfd : Function.Injective fun i : Bool => if i then (3 : ℤ) else 4 := by
    intro i j h
    cases i <;> cases j <;> simp_all
  have hs : exec Watch.step (Watch.ofFds fun i : Bool => if i then 3 else 4)
      [(true, .enableReading), (false, .enableWriting), (true, .disableAll), (true, .disableAll),
        (true, .remove), (true, .enableReading)] = some _ := rfl
  exact ⟨_, hs, rfl, (bookkeeping_agrees hfd hs).2⟩

end Watch

end MuMuduo
