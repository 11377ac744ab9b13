/-
# Channels and the epoll poller

`Channel.h`, `Channel.cc` (the event mask of one descriptor), `EPollPoller.cc`
and `Poller.cc` (the table of channels and the calls to `epoll_ctl`).

A channel is identified by a value of `ι`, which stands for its address: it is
what `channels_` maps a descriptor to and what the kernel hands back as
`data.ptr`.  The kernel's side of the epoll instance is its interest set, a map
from descriptors to registered events.  `epoll_ctl` adds a descriptor that is
not there and modifies or deletes one that is; any other call returns `-1`.

Two fields of `EPollPoller` are not in the source: `failed` counts the
`epoll_ctl` calls that returned `-1`, and `exited` says that `LOG_FATAL` has
ended the process.
-/

import Mathlib.Data.Int.Notation
import Mathlib.Logic.Function.Basic
import Mathlib.Tactic.Common

namespace MuMuduo

/-! ### Event masks -/

def EPOLLIN : BitVec 32 := 0x001
def EPOLLPRI : BitVec 32 := 0x002
def EPOLLOUT : BitVec 32 := 0x004
def EPOLLERR : BitVec 32 := 0x008
def EPOLLHUP : BitVec 32 := 0x010

namespace Channel

def kNoneEvent : BitVec 32 := 0
def kReadEvent : BitVec 32 := EPOLLIN ||| EPOLLPRI
def kWriteEvent : BitVec 32 := EPOLLOUT

end Channel

/-- The tags of `Channel::index_`: never added, in the interest set, taken out of
it but still in `channels_`. -/
def kNew : ℤ := -1
def kAdded : ℤ := 1
def kDeleted : ℤ := 2

/-- The part of `Channel` the poller works on. -/
structure Channel where
  fd_ : ℤ
  events_ : BitVec 32
  revents_ : BitVec 32
  index_ : ℤ

namespace Channel

/-- `Channel(loop, fd)`. -/
def ofFd (fd : ℤ) : Channel := ⟨fd, 0, 0, kNew⟩

def isNoeEvent (c : Channel) : Bool := c.events_ == kNoneEvent
def isReading (c : Channel) : Bool := c.events_ &&& kReadEvent != 0
def isWriting (c : Channel) : Bool := c.events_ &&& kWriteEvent != 0

end Channel

/-! ### The kernel -/

/-- `struct epoll_event`: the mask and `data.ptr`. -/
structure EpollEvent (ι : Type*) where
  events : BitVec 32
  ptr : ι

/-- The operations of `epoll_ctl`. -/
inductive CtlOp
  | add
  | mod
  | del
  deriving DecidableEq

variable {ι : Type*}

/-- `epoll_ctl` on an interest set, `none` if it returns `-1`. -/
def epollCtl (set : ℤ → Option (EpollEvent ι)) (op : CtlOp) (fd : ℤ) (event : EpollEvent ι) :
    Option (ℤ → Option (EpollEvent ι)) :=
  match op, set fd with
  | .add, none => some (Function.update set fd (some event))
  | .mod, some _ => some (Function.update set fd (some event))
  | .del, some _ => some (Function.update set fd none)
  | _, _ => none

/-! ### The poller -/

/-- `channels_`, the kernel's interest set, and what went wrong so far. -/
structure EPollPoller (ι : Type*) where
  channels_ : ℤ → Option ι
  interest : ℤ → Option (EpollEvent ι)
  failed : ℕ
  exited : Bool

namespace EPollPoller

/-- A fresh poller. -/
def empty : EPollPoller ι := ⟨fun _ => none, fun _ => none, 0, false⟩

/-- `EPollPoller::update`: a failed `EPOLL_CTL_DEL` is logged, any other failure
is fatal. -/
def update (p : EPollPoller ι) (operation : CtlOp) (ptr : ι) (channel : Channel) :
    EPollPoller ι :=
  match epollCtl p.interest operation channel.fd_ ⟨channel.events_, ptr⟩ with
  | some set => { p with interest := set }
  | none => { p with failed := p.failed + 1, exited := p.exited || operation != .del }

/-- `EPollPoller::updateChannel`. -/
def updateChannel (p : EPollPoller ι) (ptr : ι) (channel : Channel) :
    EPollPoller ι × Channel :=
  if channel.index_ = kNew ∨ channel.index_ = kDeleted then
    let p := if channel.index_ = kNew then
        { p with channels_ := Function.update p.channels_ channel.fd_ (some ptr) } else p
    let channel := { channel with index_ := kAdded }
    (p.update .add ptr channel, channel)
  else if channel.isNoeEvent then
    let channel := { channel with index_ := kDeleted }
    (p.update .del ptr channel, channel)
  else (p.update .mod ptr channel, channel)

/-- `EPollPoller::removeChannel`. -/
def removeChannel (p : EPollPoller ι) (ptr : ι) (channel : Channel) :
    EPollPoller ι × Channel :=
  let p := { p with channels_ := Function.update p.channels_ channel.fd_ none }
  let p := if channel.index_ = kAdded then p.update .del ptr channel else p
  (p, { channel with index_ := kNew })

/-- `Poller::hasChannel`. -/
def hasChannel [DecidableEq ι] (p : EPollPoller ι) (ptr : ι) (channel : Channel) : Bool :=
  p.channels_ channel.fd_ == some ptr

/-! ### The three copies of one fact -/

/-- The tag of the channel, its entry in `channels_` and its entry in the
interest set say the same, for the mask `events`. -/
structure Registered (p : EPollPoller ι) (ptr : ι) (channel : Channel) (events : BitVec 32) :
    Prop where
  index_mem : channel.index_ = kNew ∨ channel.index_ = kAdded ∨ channel.index_ = kDeleted
  interest_eq : p.interest channel.fd_ =
    if channel.index_ = kAdded then some ⟨events, ptr⟩ else none
  channels_eq : p.channels_ channel.fd_ = if channel.index_ = kNew then none else some ptr

/-- What an operation on the channel of `fd` may change: the entries of `fd`. -/
structure OnlyAt (fd : ℤ) (p p' : EPollPoller ι) : Prop where
  interest_of_ne : ∀ n, n ≠ fd → p'.interest n = p.interest n
  channels_of_ne : ∀ n, n ≠ fd → p'.channels_ n = p.channels_ n
  failed_eq : p'.failed = p.failed
  exited_eq : p'.exited = p.exited

/-- The three tags are different. -/
theorem kNew_ne_kAdded : kNew ≠ kAdded := by decide
theorem kNew_ne_kDeleted : kNew ≠ kDeleted := by decide
theorem kDeleted_ne_kAdded : kDeleted ≠ kAdded := by decide

/-- **`updateChannel` keeps the copies in step.**  The channel comes with a new
mask; whatever mask it was registered with before, it leaves with the tag, the
table and the kernel agreeing on the new one. -/
theorem updateChannel_registered {p : EPollPoller ι} {ptr : ι} {c : Channel} {old : BitVec 32}
    (h : p.Registered ptr c old) :
    (p.updateChannel ptr c).1.Registered ptr (p.updateChannel ptr c).2 c.events_ ∧
      OnlyAt c.fd_ p (p.updateChannel ptr c).1 ∧
      (p.updateChannel ptr c).2.fd_ = c.fd_ ∧ (p.updateChannel ptr c).2.events_ = c.events_ := by
  obtain ⟨hidx, hint, hch⟩ := h
  rcases hidx with hk | hk | hk
  · -- never added: entered into `channels_` and added
    rw [hk, if_neg kNew_ne_kAdded] at hint
    simp only [updateChannel, hk, true_or, if_true, update, epollCtl, hint]
    exact ⟨⟨.inr (.inl rfl), by simp, by simp [kNew_ne_kAdded.symm]⟩,
      ⟨fun n hn => by simp [hn], fun n hn => by simp [hn], rfl, rfl⟩, trivial, trivial⟩
  · -- in the interest set: deleted if the mask is empty, modified otherwise
    rw [hk, if_pos rfl] at hint
    rw [hk, if_neg kNew_ne_kAdded.symm] at hch
    have hne : ¬(c.index_ = kNew ∨ c.index_ = kDeleted) := by
      rw [hk]
      decide
    rw [updateChannel, if_neg hne]
    split_ifs with hnone
    · simp only [update, epollCtl, hint]
      exact ⟨⟨.inr (.inr rfl), by simp [kDeleted_ne_kAdded],
          by simp [hch, kNew_ne_kDeleted.symm]⟩,
        ⟨fun n hn => by simp [hn], fun _ _ => rfl, rfl, rfl⟩, trivial, trivial⟩
    · simp only [update, epollCtl, hint]
      exact ⟨⟨.inr (.inl hk), by simp [hk], by simp [hch, hk, kNew_ne_kAdded.symm]⟩,
        ⟨fun n hn => by simp [hn], fun _ _ => rfl, rfl, rfl⟩, trivial, trivial⟩
  · -- deleted earlier: still in `channels_`, added again
    rw [hk, if_neg kDeleted_ne_kAdded] at hint
    rw [hk, if_neg kNew_ne_kDeleted.symm] at hch
    simp only [updateChannel, hk, kNew_ne_kDeleted.symm, or_true, if_true, if_false, update,
      epollCtl, hint]
    exact ⟨⟨.inr (.inl rfl), by simp, by simp [hch, kNew_ne_kAdded.symm]⟩,
      ⟨fun n hn => by simp [hn], fun _ _ => rfl, rfl, rfl⟩, trivial, trivial⟩

/-- **`removeChannel` keeps the copies in step** and leaves the channel as new. -/
theorem removeChannel_registered {p : EPollPoller ι} {ptr : ι} {c : Channel}
    (h : p.Registered ptr c c.events_) :
    (p.removeChannel ptr c).1.Registered ptr (p.removeChannel ptr c).2 c.events_ ∧
      OnlyAt c.fd_ p (p.removeChannel ptr c).1 ∧
      (p.removeChannel ptr c).2.fd_ = c.fd_ ∧ (p.removeChannel ptr c).2.events_ = c.events_ := by
  obtain ⟨hidx, hint, -⟩ := h
  by_cases hk : c.index_ = kAdded
  · rw [if_pos hk] at hint
    simp only [removeChannel, hk, if_true, update, epollCtl, hint]
    exact ⟨⟨.inl rfl, by simp [kNew_ne_kAdded], by simp⟩,
      ⟨fun n hn => by simp [hn], fun n hn => by simp [hn], rfl, rfl⟩, trivial, trivial⟩
  · rw [if_neg hk] at hint
    simp only [removeChannel, hk, if_false]
    exact ⟨⟨.inl rfl, by simp [hint, kNew_ne_kAdded], by simp⟩,
      ⟨fun _ _ => rfl, fun n hn => by simp [hn], rfl, rfl⟩, trivial, trivial⟩

end EPollPoller

end MuMuduo
