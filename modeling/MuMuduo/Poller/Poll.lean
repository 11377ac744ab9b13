/-
# Waiting for events

`EPollPoller::poll` and `fillActiveChannls` (`EPollPoller.cc`).  `epoll_wait` writes
its answer into the first entries of `events_`; `fillActiveChannls` reads them back,
takes each `data.ptr` for the address of a channel, stores the reported events in it
and enters it into `activeChannels`.  If the answer has filled `events_`, the vector is
doubled.

The kernel reports a descriptor of the interest set while one of the events it is
registered with, or `EPOLLERR` or `EPOLLHUP`, is there.  If more descriptors are ready
than the call has room for, successive calls go round among them
(`Foundation.Rotation`): `ready` is the kernel's list of the descriptors to look at.

An entry of `events_` that the kernel has not written yet is zeroed, and a channel is
found at its address only while it is alive; to read one that is not has no result.
-/

import MuMuduo.Foundation.Rotation
import MuMuduo.Poller.Basic

namespace MuMuduo

open Foundation

variable {ι : Type*}

/-! ### The kernel -/

namespace EPollPoller

/-- What `epoll_wait` says of a descriptor when `happened` is the state of the files. -/
def report (p : EPollPoller ι) (happened : ℤ → BitVec 32) (fd : ℤ) : Option (EpollEvent ι) :=
  (p.interest fd).bind fun event =>
    let revents := happened fd &&& (event.events ||| EPOLLERR ||| EPOLLHUP)
    if revents = 0 then none else some ⟨revents, event.ptr⟩

def isReady (p : EPollPoller ι) (happened : ℤ → BitVec 32) (fd : ℤ) : Bool :=
  (p.report happened fd).isSome

/-- `epoll_wait`: the events it hands over, and the descriptors to look at next.  That
the kernel goes through its list in turn, and puts what it has handed over at the end, is
an assumption on the kernel. -/
def epollWait (p : EPollPoller ι) (ready : List ℤ) (happened : ℤ → BitVec 32) (maxevents : ℕ) :
    List (EpollEvent ι) × List ℤ :=
  ((serve (p.isReady happened) maxevents ready).1.filterMap (p.report happened),
    rotate (p.isReady happened) maxevents ready)

end EPollPoller

/-! ### `poll` -/

/-- `events_`, with the entries that the kernel has written. -/
abbrev EventList (ι : Type*) := List (Option (EpollEvent ι))

def KInitEventListSize : ℕ := 16

/-- The channels by their addresses, `none` where none is alive. -/
abbrev Channels (ι : Type*) := ι → Option Channel

variable [DecidableEq ι]

/-- `fillActiveChannls(numEvents, activeChannel)`. -/
def fillActiveChannls : ℕ → EventList ι → Channels ι → List ι → Option (Channels ι × List ι)
  | 0, _, chan, activeChannel => some (chan, activeChannel)
  | _ + 1, [], _, _ => none
  | _ + 1, none :: _, _, _ => none
  | numEvents + 1, some event :: events, chan, activeChannel =>
      (chan event.ptr).bind fun channel =>
        fillActiveChannls numEvents events
          (Function.update chan event.ptr (some { channel with revents_ := event.events }))
          (activeChannel ++ [event.ptr])

/-- `poll(timeoutMS, activeChannels)` after `epoll_wait` has handed over `answer`. -/
def poll (events : EventList ι) (chan : Channels ι) (activeChannels : List ι)
    (answer : List (EpollEvent ι)) : Option (EventList ι × Channels ι × List ι) :=
  let events := answer.map some ++ events.drop answer.length
  let numEvents := answer.length
  if 0 < numEvents then
    (fillActiveChannls numEvents events chan activeChannels).map fun (chan, activeChannels) =>
      (if numEvents = events.length then events ++ List.replicate events.length none else events,
        chan, activeChannels)
  else some (events, chan, activeChannels)

/-- The events last reported of the channel at `i`, `old` if it is not in the answer. -/
def reventsOf (answer : List (EpollEvent ι)) (i : ι) (old : BitVec 32) : BitVec 32 :=
  answer.foldl (fun revents event => if event.ptr = i then event.events else revents) old

/-- The channels with the reported events stored in them. -/
def noted (answer : List (EpollEvent ι)) (chan : Channels ι) : Channels ι := fun i =>
  (chan i).map fun channel => { channel with revents_ := reventsOf answer i channel.revents_ }

/-- No channel comes or goes while the answer is noted. -/
theorem noted_eq_none {answer : List (EpollEvent ι)} {chan : Channels ι} {i : ι} :
    noted answer chan i = none ↔ chan i = none := by
  simp [noted]

/-- An empty answer notes nothing. -/
theorem noted_nil (chan : Channels ι) : noted [] chan = chan := by
  funext i
  simp [noted, reventsOf]

/-- The first event is noted, and then the others. -/
theorem noted_cons {event : EpollEvent ι} {chan : Channels ι} {channel : Channel}
    (hc : chan event.ptr = some channel) (answer : List (EpollEvent ι)) :
    noted answer (Function.update chan event.ptr
      (some { channel with revents_ := event.events })) = noted (event :: answer) chan := by
  funext i
  by_cases hi : i = event.ptr
  · subst hi
    simp [noted, reventsOf, hc]
  · simp [noted, reventsOf, Function.update_of_ne hi, Ne.symm hi]

/-- A channel that is not in the answer keeps what was reported of it before. -/
theorem reventsOf_of_forall_ne {answer : List (EpollEvent ι)} {i : ι}
    (h : ∀ event ∈ answer, event.ptr ≠ i) (old : BitVec 32) : reventsOf answer i old = old := by
  induction answer generalizing old with
  | nil => rfl
  | cons event answer ih =>
      obtain ⟨he, h⟩ := List.forall_mem_cons.1 h
      rw [reventsOf, List.foldl_cons, if_neg he]
      exact ih h old

/-- A channel that is once in the answer holds what is said of it there. -/
theorem reventsOf_of_mem {answer : List (EpollEvent ι)} {event : EpollEvent ι}
    (hn : (answer.map EpollEvent.ptr).Nodup) (he : event ∈ answer) (old : BitVec 32) :
    reventsOf answer event.ptr old = event.events := by
  induction answer generalizing old with
  | nil => cases he
  | cons e answer ih =>
      rw [List.map_cons, List.nodup_cons] at hn
      rw [reventsOf, List.foldl_cons]
      rcases List.mem_cons.1 he with rfl | he
      · rw [if_pos rfl]
        exact reventsOf_of_forall_ne (fun d hd hde => hn.1 (List.mem_map.2 ⟨d, hd, hde⟩)) _
      · exact ih hn.2 he _

/-- **`fillActiveChannls` goes through** exactly where each event names a channel that
is alive. -/
theorem fillActiveChannls_eq (answer : List (EpollEvent ι)) (rest : EventList ι)
    (chan : Channels ι) (activeChannel : List ι) :
    fillActiveChannls answer.length (answer.map some ++ rest) chan activeChannel =
      if ∀ event ∈ answer, chan event.ptr ≠ none then
        some (noted answer chan, activeChannel ++ answer.map EpollEvent.ptr)
      else none := by
  induction answer generalizing chan activeChannel with
  | nil => simp [fillActiveChannls, noted_nil]
  | cons event answer ih =>
      cases hc : chan event.ptr with
      | none =>
          rw [if_neg fun h => h event List.mem_cons_self hc]
          simp [fillActiveChannls, hc]
      | some channel =>
          have hlive : (∀ e ∈ event :: answer, chan e.ptr ≠ none) ↔
              ∀ e ∈ answer, Function.update chan event.ptr
                (some { channel with revents_ := event.events }) e.ptr ≠ none := by
            rw [List.forall_mem_cons, and_iff_right (by simp [hc])]
            refine forall₂_congr fun e _ => ?_
            by_cases he : e.ptr = event.ptr
            · simp [he, hc]
            · rw [Function.update_of_ne he]
          rw [List.length_cons, List.map_cons, List.cons_append, fillActiveChannls, hc,
            Option.bind_some, ih, noted_cons hc]
          simp only [hlive, List.map_cons, List.append_assoc, List.singleton_append]

/-- **`poll` on an answer that names channels that are alive.** -/
theorem poll_eq {events : EventList ι} {chan : Channels ι} {answer : List (EpollEvent ι)}
    (activeChannels : List ι) (hlive : ∀ event ∈ answer, chan event.ptr ≠ none) :
    ∃ events', poll events chan activeChannels answer =
      some (events', noted answer chan, activeChannels ++ answer.map EpollEvent.ptr) := by
  by_cases hpos : 0 < answer.length
  · simp only [poll, if_pos hpos, fillActiveChannls_eq, if_pos hlive, Option.map_some]
    exact ⟨_, rfl⟩
  · obtain rfl := List.length_eq_zero_iff.1 (Nat.eq_zero_of_not_pos hpos)
    exact ⟨events, by simp [poll, noted_nil]⟩

/-- **`events_` grows** when it was too short for the answer, or just long enough. -/
theorem length_of_poll {events : EventList ι} {chan : Channels ι} {activeChannels : List ι}
    {answer : List (EpollEvent ι)} {r : EventList ι × Channels ι × List ι}
    (hle : answer.length ≤ events.length)
    (hr : poll events chan activeChannels answer = some r) :
    r.1.length = if answer.length = events.length then 2 * events.length else events.length := by
  have hlen : (answer.map some ++ events.drop answer.length).length = events.length := by
    rw [List.length_append, List.length_map, List.length_drop]
    omega
  by_cases hpos : 0 < answer.length
  · simp only [poll, if_pos hpos, hlen] at hr
    obtain ⟨⟨chan', active⟩, -, rfl⟩ := Option.map_eq_some_iff.1 hr
    by_cases hfull : answer.length = events.length
    · simp only [if_pos hfull]
      rw [List.length_append, hlen, List.length_replicate, Nat.two_mul]
    · simp only [if_neg hfull]
      exact hlen
  · simp only [poll, if_neg hpos] at hr
    obtain rfl := Option.some.inj hr
    rw [hlen]
    split_ifs <;> omega

end MuMuduo
