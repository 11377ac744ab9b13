/-
# The reactor and the channels that come and go

`EventLoop::loop` on its poller: a round waits for events, and then `handleEvent` is
called on each channel that `poll` has entered into `activeChannels_`.  Between these
calls, in the callbacks and in the pending functors, channels are constructed,
registered, emptied, removed and destroyed; a new channel may come to lie where a dead
one was.

A channel is known by its address in three tables: `channels_` of the poller, the
kernel's interest set, and `activeChannels_`.  None of them owns it.  `Sound` says that
they hold no address of a dead channel, and that the poller's bookkeeping is right for
each living one.  It holds throughout a run exactly when every channel is destroyed
removed and not waiting to be handled (`sound_iff_retired`); then no step of the reactor
reads a dead channel, and a round handles exactly the events that `epoll_wait` has
handed over, whatever the callbacks do (`round_exact`).
-/

import Mathlib.Data.Fintype.Basic
import Mathlib.Data.List.Nodup
import MuMuduo.Poller.Agreement
import MuMuduo.Poller.Poll

namespace MuMuduo

open Foundation

/-- The poller with all channels of its loop.  `ready` is the kernel's; `handled` is
not in the source: the calls of `handleEvent` in this round, with `revents_`. -/
structure Reactor (ι : Type*) where
  poller : EPollPoller ι
  chan : Channels ι
  events_ : EventList ι
  activeChannels_ : List ι
  ready : List ℤ
  handled : List (ι × BitVec 32)

namespace Reactor

variable {ι : Type*}

/-- A new loop, without its wake-up channel. -/
def empty : Reactor ι :=
  ⟨.empty, fun _ => none, List.replicate KInitEventListSize none, [], [], []⟩

/-- What the loop's thread does, and `arrive` by which the kernel takes note that a
descriptor may be ready. -/
inductive Label (ι : Type*)
  | construct (i : ι) (fd : ℤ)
  | destroy (i : ι)
  | perform (i : ι) (op : Channel.Op)
  | arrive (fd : ℤ)
  | wait (happened : ℤ → BitVec 32)
  | interrupted
  | handleEvent

/-- What `epoll_wait` hands over in a state of the files. -/
def answer (s : Reactor ι) (happened : ℤ → BitVec 32) : List (EpollEvent ι) :=
  (s.poller.epollWait s.ready happened s.events_.length).1

/-- What was reported last of the channel at `i`. -/
def revents (s : Reactor ι) (i : ι) : BitVec 32 := ((s.chan i).map Channel.revents_).getD 0

/-- One step; `none` if a channel that is not alive is touched, or the loop is not
there. -/
def step [DecidableEq ι] (s : Reactor ι) : Label ι → Option (Reactor ι)
  | .construct i fd =>
      if s.chan i = none then
        some { s with chan := Function.update s.chan i (some (Channel.ofFd fd)) }
      else none
  | .destroy i => (s.chan i).map fun _ => { s with chan := Function.update s.chan i none }
  | .perform i op => (s.chan i).map fun channel =>
      let r := channel.perform s.poller i op
      { s with
        poller := r.1
        chan := Function.update s.chan i (some r.2)
        -- the kernel forgets what has left the interest set
        ready := s.ready.filter fun fd => (r.1.interest fd).isSome }
  | .arrive fd =>
      some (if (s.poller.interest fd).isSome ∧ fd ∉ s.ready then
        { s with ready := s.ready ++ [fd] } else s)
  | .wait happened =>
      if s.activeChannels_ = [] then
        (poll s.events_ s.chan [] (s.answer happened)).map fun (events, chan, active) =>
          { s with
            events_ := events
            chan := chan
            activeChannels_ := active
            ready := (s.poller.epollWait s.ready happened s.events_.length).2
            handled := [] }
      else none
  | .interrupted => if s.activeChannels_ = [] then some { s with handled := [] } else none
  | .handleEvent =>
      match s.activeChannels_ with
      | [] => none
      | i :: active => (s.chan i).map fun channel =>
          { s with activeChannels_ := active, handled := s.handled ++ [(i, channel.revents_)] }

/-! ### The tables -/

/-- The tables hold living channels only, and each living channel is registered with
its own mask. -/
structure Tables (p : EPollPoller ι) (chan : Channels ι) (active : List ι) : Prop where
  registered : ∀ i c, chan i = some c → p.Registered i c c.events_
  channels_live : ∀ fd i, p.channels_ fd = some i → ∃ c, chan i = some c ∧ c.fd_ = fd
  interest_live : ∀ fd event, p.interest fd = some event →
    ∃ c, chan event.ptr = some c ∧ c.fd_ = fd
  fd_inj : ∀ i j c d, chan i = some c → chan j = some d → c.fd_ = d.fd_ → i = j
  active_live : ∀ i ∈ active, chan i ≠ none
  failed_eq : p.failed = 0
  exited_eq : p.exited = false

/-- No table of the reactor holds a dead channel. -/
def Sound (s : Reactor ι) : Prop := Tables s.poller s.chan s.activeChannels_

/-- The C++ runtime and the kernel hand out an address and a descriptor that are not
in use, and the loop's thread follows the loop. -/
def Pre (s : Reactor ι) : Label ι → Prop
  | .construct i fd => s.chan i = none ∧ ∀ j, ∀ c ∈ s.chan j, c.fd_ ≠ fd
  | .destroy i => s.chan i ≠ none
  | .perform i _ => s.chan i ≠ none
  | .arrive _ => True
  | .wait _ => s.activeChannels_ = []
  | .interrupted => s.activeChannels_ = []
  | .handleEvent => s.activeChannels_ ≠ []

/-- A channel is destroyed after `remove()`, and not while it waits to be handled. -/
def Retired (s : Reactor ι) : Label ι → Prop
  | .destroy i => (∀ c ∈ s.chan i, c.index_ = kNew) ∧ i ∉ s.activeChannels_
  | _ => True

/-- A new loop. -/
theorem sound_empty : (empty : Reactor ι).Sound where
  registered _ _ h := by cases h
  channels_live _ _ h := by cases h
  interest_live _ _ h := by cases h
  fd_inj _ _ _ _ h := by cases h
  active_live _ h := by cases h
  failed_eq := rfl
  exited_eq := rfl

section Tables

variable {p : EPollPoller ι} {chan : Channels ι} {active : List ι}

/-- A living channel that is tagged as new is in none of the poller's tables. -/
theorem Tables.not_mem_of_kNew (h : Tables p chan active) {i : ι} {c : Channel}
    (hc : chan i = some c) (hk : c.index_ = kNew) :
    (∀ fd, p.channels_ fd ≠ some i) ∧ ∀ fd event, p.interest fd = some event → event.ptr ≠ i := by
  obtain ⟨-, hint, hch⟩ := h.registered i c hc
  rw [hk, if_neg EPollPoller.kNew_ne_kAdded] at hint
  rw [if_pos hk] at hch
  refine ⟨fun fd hfd => ?_, fun fd event he hi => ?_⟩
  · obtain ⟨d, hd, rfl⟩ := h.channels_live fd i hfd
    obtain rfl := Option.some.inj (hc.symm.trans hd)
    rw [hch] at hfd
    cases hfd
  · obtain ⟨d, hd, rfl⟩ := h.interest_live fd event he
    rw [hi] at hd
    obtain rfl := Option.some.inj (hc.symm.trans hd)
    rw [hint] at he
    cases he

variable [DecidableEq ι]

/-- A new channel on a descriptor that no living channel has. -/
theorem Tables.construct (h : Tables p chan active) {i : ι} {fd : ℤ} (hi : chan i = none)
    (hfd : ∀ j c, chan j = some c → c.fd_ ≠ fd) :
    Tables p (Function.update chan i (some (Channel.ofFd fd))) active := by
  -- the living channels stay, and none of them is at `i`
  have hold {j : ι} {c : Channel} (hj : chan j = some c) :
      Function.update chan i (some (Channel.ofFd fd)) j = some c := by
    rw [Function.update_of_ne (by rintro rfl; rw [hi] at hj; cases hj), hj]
  have hnew {j : ι} {c : Channel}
      (hj : Function.update chan i (some (Channel.ofFd fd)) j = some c) :
      (j = i ∧ c = Channel.ofFd fd) ∨ chan j = some c := by
    by_cases hji : j = i
    · subst hji
      rw [Function.update_self] at hj
      exact .inl ⟨rfl, (Option.some.inj hj).symm⟩
    · rw [Function.update_of_ne hji] at hj
      exact .inr hj
  refine ⟨fun j c hj => ?_, fun n j hj => ?_, fun n event he => ?_, fun j k c d hj hk hcd => ?_,
    fun j hj => ?_, h.failed_eq, h.exited_eq⟩
  · rcases hnew hj with ⟨rfl, rfl⟩ | hj
    · refine ⟨.inl rfl, ?_, ?_⟩
      · show p.interest fd = if kNew = kAdded then _ else none
        rw [if_neg EPollPoller.kNew_ne_kAdded, Option.eq_none_iff_forall_ne_some]
        intro event he
        obtain ⟨d, hd, hdfd⟩ := h.interest_live fd event he
        exact hfd _ d hd hdfd
      · show p.channels_ fd = if kNew = kNew then none else _
        rw [if_pos rfl, Option.eq_none_iff_forall_ne_some]
        intro k hk
        obtain ⟨d, hd, hdfd⟩ := h.channels_live fd k hk
        exact hfd k d hd hdfd
    · exact h.registered j c hj
  · obtain ⟨c, hc, hcn⟩ := h.channels_live n j hj
    exact ⟨c, hold hc, hcn⟩
  · obtain ⟨c, hc, hcn⟩ := h.interest_live n event he
    exact ⟨c, hold hc, hcn⟩
  · rcases hnew hj with ⟨hji, rfl⟩ | hj <;> rcases hnew hk with ⟨hki, rfl⟩ | hk
    · exact hji.trans hki.symm
    · exact absurd hcd.symm (hfd k d hk)
    · exact absurd hcd (hfd j c hj)
    · exact h.fd_inj j k c d hj hk hcd
  · obtain ⟨c, hc⟩ := Option.ne_none_iff_exists'.1 (h.active_live j hj)
    rw [hold hc]
    exact Option.some_ne_none c

/-- **A destroyed channel is left in no table** exactly if it was removed and is not
waiting to be handled. -/
theorem Tables.destroy_iff (h : Tables p chan active) {i : ι} {c : Channel}
    (hc : chan i = some c) :
    Tables p (Function.update chan i none) active ↔ c.index_ = kNew ∧ i ∉ active := by
  have hat : Function.update chan i none i = none := Function.update_self ..
  constructor
  · intro h'
    refine ⟨?_, fun hi => h'.active_live i hi hat⟩
    by_contra hk
    have hch := (h.registered i c hc).channels_eq
    rw [if_neg hk] at hch
    obtain ⟨d, hd, -⟩ := h'.channels_live c.fd_ i hch
    rw [hat] at hd
    cases hd
  · rintro ⟨hk, hact⟩
    obtain ⟨hno, hnoint⟩ := h.not_mem_of_kNew hc hk
    have hsub {j : ι} {d : Channel} (hj : Function.update chan i none j = some d) :
        chan j = some d := by
      by_cases hji : j = i
      · rw [hji, hat] at hj
        cases hj
      · rwa [Function.update_of_ne hji] at hj
    refine ⟨fun j d hj => h.registered j d (hsub hj), fun fd j hj => ?_, fun fd event he => ?_,
      fun j k c d hj hk => h.fd_inj j k c d (hsub hj) (hsub hk), fun j hj => ?_, h.failed_eq,
      h.exited_eq⟩
    · obtain ⟨d, hd, hfd⟩ := h.channels_live fd j hj
      exact ⟨d, by rw [Function.update_of_ne (by rintro rfl; exact hno fd hj), hd], hfd⟩
    · obtain ⟨d, hd, hfd⟩ := h.interest_live fd event he
      exact ⟨d, by rw [Function.update_of_ne (hnoint fd event he), hd], hfd⟩
    · rw [Function.update_of_ne (by rintro rfl; exact hact hj)]
      exact h.active_live j hj

/-- An operation on one living channel: the entries under its descriptor are its own,
and no others change. -/
theorem Tables.perform (h : Tables p chan active) {i : ι} {c : Channel} (hc : chan i = some c)
    (op : Channel.Op) :
    Tables (c.perform p i op).1 (Function.update chan i (some (c.perform p i op).2)) active := by
  obtain ⟨hr, ho, hf⟩ := Channel.perform_registered (h.registered i c hc) op
  generalize (c.perform p i op).1 = p' at *
  generalize (c.perform p i op).2 = c' at *
  have hat : Function.update chan i (some c') i = some c' := Function.update_self ..
  have hof {j : ι} (hj : j ≠ i) : Function.update chan i (some c') j = chan j :=
    Function.update_of_ne hj ..
  have hback {j : ι} {d : Channel} (hj : Function.update chan i (some c') j = some d) :
      (j = i ∧ d = c') ∨ (j ≠ i ∧ chan j = some d ∧ d.fd_ ≠ c.fd_) := by
    by_cases hji : j = i
    · subst hji
      exact .inl ⟨rfl, (Option.some.inj (hat.symm.trans hj)).symm⟩
    · rw [hof hji] at hj
      exact .inr ⟨hji, hj, fun he => hji (h.fd_inj j i d c hj hc he)⟩
  have hlive {j : ι} {n : ℤ} (hn : n ≠ c.fd_) (hj : ∃ d, chan j = some d ∧ d.fd_ = n) :
      ∃ d, Function.update chan i (some c') j = some d ∧ d.fd_ = n := by
    obtain ⟨d, hd, rfl⟩ := hj
    refine ⟨d, ?_, rfl⟩
    rw [hof (by rintro rfl; exact hn (congrArg Channel.fd_ (Option.some.inj (hd.symm.trans hc)))),
      hd]
  refine ⟨fun j d hj => ?_, fun n j hj => ?_, fun n event he => ?_, fun j k d e hj hk hde => ?_,
    fun j hj => ?_, ho.failed_eq.trans h.failed_eq, ho.exited_eq.trans h.exited_eq⟩
  · rcases hback hj with ⟨rfl, rfl⟩ | ⟨-, hj, hne⟩
    · exact hr
    · obtain ⟨hidx, hint, hch⟩ := h.registered j d hj
      exact ⟨hidx, (ho.interest_of_ne _ hne).trans hint, (ho.channels_of_ne _ hne).trans hch⟩
  · by_cases hn : n = c.fd_
    · have hch := hr.channels_eq
      rw [hf, ← hn, hj] at hch
      split_ifs at hch
      obtain rfl := Option.some.inj hch
      exact ⟨c', hat, hf.trans hn.symm⟩
    · exact hlive hn (h.channels_live n j ((ho.channels_of_ne n hn).symm.trans hj))
  · by_cases hn : n = c.fd_
    · have hint := hr.interest_eq
      rw [hf, ← hn, he] at hint
      split_ifs at hint
      obtain rfl := Option.some.inj hint
      exact ⟨c', hat, hf.trans hn.symm⟩
    · exact hlive hn (h.interest_live n event ((ho.interest_of_ne n hn).symm.trans he))
  · rcases hback hj with ⟨hji, rfl⟩ | ⟨-, hj, hne⟩ <;>
      rcases hback hk with ⟨hki, rfl⟩ | ⟨-, hk, hne'⟩
    · exact hji.trans hki.symm
    · exact absurd (hde.symm.trans hf) hne'
    · exact absurd (hde.trans hf) hne
    · exact h.fd_inj j k d e hj hk hde
  · by_cases hji : j = i
    · rw [hji, hat]
      exact Option.some_ne_none c'
    · rw [hof hji]
      exact h.active_live j hj

/-- Storing what was reported touches no table. -/
theorem Tables.noted (h : Tables p chan active) {answer : List (EpollEvent ι)}
    (hlive : ∀ event ∈ answer, chan event.ptr ≠ none) :
    Tables p (MuMuduo.noted answer chan) (answer.map EpollEvent.ptr) := by
  have hback {i : ι} {c : Channel} (hi : MuMuduo.noted answer chan i = some c) :
      ∃ d, chan i = some d ∧ c = { d with revents_ := reventsOf answer i d.revents_ } := by
    obtain ⟨d, hd, rfl⟩ := Option.map_eq_some_iff.1 hi
    exact ⟨d, hd, rfl⟩
  have hlive' {i : ι} {n : ℤ} (hi : ∃ d, chan i = some d ∧ d.fd_ = n) :
      ∃ d, MuMuduo.noted answer chan i = some d ∧ d.fd_ = n := by
    obtain ⟨d, hd, hn⟩ := hi
    exact ⟨{ d with revents_ := reventsOf answer i d.revents_ },
      by rw [MuMuduo.noted, hd, Option.map_some], hn⟩
  refine ⟨fun i c hi => ?_, fun n i hi => hlive' (h.channels_live n i hi),
    fun n event he => hlive' (h.interest_live n event he), fun i j c d hi hj hcd => ?_,
    fun i hi => ?_, h.failed_eq, h.exited_eq⟩
  · obtain ⟨d, hd, rfl⟩ := hback hi
    obtain ⟨hidx, hint, hch⟩ := h.registered i d hd
    exact ⟨hidx, hint, hch⟩
  · obtain ⟨c, hc, rfl⟩ := hback hi
    obtain ⟨d, hd, rfl⟩ := hback hj
    exact h.fd_inj i j c d hc hd hcd
  · obtain ⟨event, he, rfl⟩ := List.mem_map.1 hi
    exact fun hnone => hlive event he (noted_eq_none.1 hnone)

end Tables

/-! ### What is handed over -/

section Answer

variable {s : Reactor ι} {happened : ℤ → BitVec 32}

/-- An event of the answer, and the registration that it answers. -/
theorem exists_of_mem_answer {event : EpollEvent ι} (he : event ∈ s.answer happened) :
    ∃ fd ∈ s.ready, ∃ e, s.poller.interest fd = some e ∧ event.ptr = e.ptr ∧
      event.events = happened fd &&& (e.events ||| EPOLLERR ||| EPOLLHUP) ∧ event.events ≠ 0 := by
  obtain ⟨fd, hfd, hrep⟩ := List.mem_filterMap.1 he
  obtain ⟨e, hint, hrep⟩ := Option.bind_eq_some_iff.1 hrep
  obtain ⟨hne, hev⟩ := Option.ite_none_left_eq_some.1 hrep
  obtain rfl := Option.some.inj hev
  exact ⟨fd, (serve_sublist _ _).subset (List.mem_append_left _ hfd), e, hint, rfl, rfl, hne⟩

/-- `epoll_wait` hands over no more events than there is room for. -/
theorem length_answer_le (s : Reactor ι) (happened : ℤ → BitVec 32) :
    (s.answer happened).length ≤ s.events_.length :=
  Nat.le_trans (List.length_filterMap_le _ _) (length_serve_le _ _)

/-- It names living channels. -/
theorem Sound.answer_live (h : s.Sound) : ∀ event ∈ s.answer happened, s.chan event.ptr ≠ none := by
  intro event he
  obtain ⟨fd, -, e, hint, hptr, -⟩ := exists_of_mem_answer he
  obtain ⟨c, hc, -⟩ := h.interest_live fd e hint
  rw [hptr, hc]
  exact Option.some_ne_none c

/-- **An answer names a channel once**: its descriptors are distinct, and no two of
them are registered by one channel. -/
theorem Sound.nodup_answer (h : s.Sound) (hn : s.ready.Nodup) :
    ((s.answer happened).map EpollEvent.ptr).Nodup := by
  have hsub := @serve_sublist _ (s.poller.isReady happened) s.events_.length s.ready
  have hserved := (List.nodup_append.1 (hsub.nodup hn)).1
  rw [answer, EPollPoller.epollWait, List.map_filterMap]
  refine List.Nodup.filterMap (fun fd fd' i hi hi' => ?_) hserved
  obtain ⟨event, he, rfl⟩ := Option.map_eq_some_iff.1 hi
  obtain ⟨event', he', hptr⟩ := Option.map_eq_some_iff.1 hi'
  -- both descriptors are the one of the channel
  have hfd {n : ℤ} {d : EpollEvent ι} (hd : s.poller.report happened n = some d) :
      ∃ c, s.chan d.ptr = some c ∧ c.fd_ = n := by
    obtain ⟨e, hint, hrep⟩ := Option.bind_eq_some_iff.1 hd
    obtain ⟨-, hev⟩ := Option.ite_none_left_eq_some.1 hrep
    obtain rfl := Option.some.inj hev
    exact h.interest_live n e hint
  obtain ⟨c, hc, rfl⟩ := hfd he
  obtain ⟨d, hd, rfl⟩ := hfd he'
  rw [hptr] at hd
  exact congrArg Channel.fd_ (Option.some.inj (hc.symm.trans hd))

end Answer

/-! ### Runs -/

variable [DecidableEq ι] {s s' t : Reactor ι}

/-- **A round begins** with the events of the answer stored in their channels. -/
theorem Sound.step_wait (h : s.Sound) (hact : s.activeChannels_ = [])
    (happened : ℤ → BitVec 32) :
    ∃ events, s.step (.wait happened) = some { s with
      events_ := events
      chan := noted (s.answer happened) s.chan
      activeChannels_ := (s.answer happened).map EpollEvent.ptr
      ready := (s.poller.epollWait s.ready happened s.events_.length).2
      handled := [] } := by
  obtain ⟨events, hpoll⟩ := @poll_eq _ _ s.events_ _ _ [] (@Sound.answer_live _ s happened h)
  exact ⟨events, by simp only [step, if_pos hact, hpoll, Option.map_some, List.nil_append]⟩

/-- **One step.**  It reads no dead channel and leaves none in a table exactly when
the channel that it destroys, if any, is retired. -/
theorem Sound.step_iff (h : s.Sound) {a : Label ι} (hpre : s.Pre a) :
    (∃ s', s.step a = some s' ∧ s'.Sound) ↔ s.Retired a := by
  cases a with
  | construct i fd =>
      exact iff_of_true ⟨_, if_pos hpre.1, Tables.construct h hpre.1 hpre.2⟩ trivial
  | destroy i =>
      obtain ⟨c, hc⟩ := Option.ne_none_iff_exists'.1 hpre
      rw [step, hc, Option.map_some]
      constructor
      · rintro ⟨s', hs', hsound⟩
        obtain rfl := Option.some.inj hs'
        obtain ⟨hk, hact⟩ := (Tables.destroy_iff h hc).1 hsound
        refine ⟨fun d hd => ?_, hact⟩
        obtain rfl := Option.some.inj (hc.symm.trans hd)
        exact hk
      · rintro ⟨hk, hact⟩
        exact ⟨_, rfl, (Tables.destroy_iff h hc).2 ⟨hk c hc, hact⟩⟩
  | perform i op =>
      obtain ⟨c, hc⟩ := Option.ne_none_iff_exists'.1 hpre
      rw [step, hc, Option.map_some]
      exact iff_of_true ⟨_, rfl, Tables.perform h hc op⟩ trivial
  | arrive fd =>
      refine iff_of_true ⟨_, rfl, ?_⟩ trivial
      split_ifs <;> exact h
  | wait happened =>
      obtain ⟨events, hs'⟩ := h.step_wait hpre happened
      exact iff_of_true ⟨_, hs', Tables.noted h h.answer_live⟩ trivial
  | interrupted => exact iff_of_true ⟨_, if_pos hpre, h⟩ trivial
  | handleEvent =>
      obtain ⟨i, active, hact⟩ := List.exists_cons_of_ne_nil hpre
      have hlive := h.active_live
      rw [hact] at hlive
      obtain ⟨c, hc⟩ := Option.ne_none_iff_exists'.1 (hlive i List.mem_cons_self)
      have hs' : s.step .handleEvent =
          some { s with activeChannels_ := active, handled := s.handled ++ [(i, c.revents_)] } := by
        simp only [step, hact, hc, Option.map_some]
      exact iff_of_true ⟨_, hs', h.registered, h.channels_live, h.interest_live, h.fd_inj,
        fun j hj => hlive j (List.mem_cons_of_mem i hj), h.failed_eq, h.exited_eq⟩ trivial

/-- **No table ever holds a dead channel** exactly if every channel is destroyed
removed, and not between `poll` and its own `handleEvent`.  Then no round reads a dead
channel, no `epoll_ctl` fails, and the bookkeeping of every living channel is right, in
any order of the calls and for whatever the kernel reports. -/
theorem sound_iff_retired {as : List (Label ι)} (hpre : Along step Pre empty as) :
    Safe step Sound (empty : Reactor ι) as ↔ Along step Retired empty as :=
  safe_iff_along (fun _ _ h => h.step_iff) sound_empty hpre

instance [Fintype ι] (s : Reactor ι) : ∀ a, Decidable (s.Pre a)
  | .construct i fd =>
      inferInstanceAs (Decidable (s.chan i = none ∧ ∀ j, ∀ c ∈ s.chan j, c.fd_ ≠ fd))
  | .destroy i => inferInstanceAs (Decidable (s.chan i ≠ none))
  | .perform i _ => inferInstanceAs (Decidable (s.chan i ≠ none))
  | .arrive _ => isTrue trivial
  | .wait _ => inferInstanceAs (Decidable (s.activeChannels_ = []))
  | .interrupted => inferInstanceAs (Decidable (s.activeChannels_ = []))
  | .handleEvent => inferInstanceAs (Decidable (s.activeChannels_ ≠ []))

instance (s : Reactor ι) : ∀ a, Decidable (s.Retired a)
  | .destroy i =>
      inferInstanceAs (Decidable ((∀ c ∈ s.chan i, c.index_ = kNew) ∧ i ∉ s.activeChannels_))
  | .construct .. | .perform .. | .arrive _ | .wait _ | .interrupted | .handleEvent =>
      isTrue trivial

/-- Two channels, and an event for each of them. -/
def pair : List (Label Bool) :=
  [.construct true 3, .construct false 4, .perform true .enableReading,
    .perform false .enableReading, .arrive 3, .arrive 4, .wait fun _ => EPOLLIN]

/-- The hypothesis is satisfiable: the callback of the first channel removes and
destroys the second, before or after its turn. -/
theorem sound_iff_retired_pair :
    ¬Safe step Sound empty (pair ++ [.handleEvent, .perform false .remove, .destroy false]) ∧
      Safe step Sound empty
        (pair ++ [.handleEvent, .handleEvent, .perform false .remove, .destroy false]) :=
  ⟨fun h => absurd ((sound_iff_retired (by decide)).1 h) (by decide),
    (sound_iff_retired (by decide)).2 (by decide)⟩

/-! ### One round -/

/-- **One step** that meets the conditions. -/
theorem Sound.of_step (h : s.Sound) {a : Label ι} (ha : s.Pre a ∧ s.Retired a)
    (hs : s.step a = some s') : s'.Sound := by
  obtain ⟨u, hu, hsound⟩ := (h.step_iff ha.1).2 ha.2
  obtain rfl := Option.some.inj (hu.symm.trans hs)
  exact hsound

/-- The kernel looks at a descriptor once. -/
theorem nodup_ready_of_step {a : Label ι} (h : s.ready.Nodup) (hs : s.step a = some s') :
    s'.ready.Nodup := by
  cases a with
  | construct i fd =>
      obtain ⟨-, hs⟩ := Option.ite_none_right_eq_some.1 hs
      obtain rfl := Option.some.inj hs
      exact h
  | destroy i =>
      obtain ⟨c, -, rfl⟩ := Option.map_eq_some_iff.1 hs
      exact h
  | perform i op =>
      obtain ⟨c, -, rfl⟩ := Option.map_eq_some_iff.1 hs
      exact h.filter _
  | arrive fd =>
      obtain rfl := Option.some.inj hs
      split_ifs with hfd
      · exact List.perm_append_comm.nodup_iff.1 (List.nodup_cons.2 ⟨hfd.2, h⟩)
      · exact h
  | wait happened =>
      obtain ⟨-, hs⟩ := Option.ite_none_right_eq_some.1 hs
      obtain ⟨r, -, rfl⟩ := Option.map_eq_some_iff.1 hs
      exact nodup_rotate h
  | interrupted =>
      obtain ⟨-, hs⟩ := Option.ite_none_right_eq_some.1 hs
      obtain rfl := Option.some.inj hs
      exact h
  | handleEvent =>
      rw [step] at hs
      split at hs
      · cases hs
      · obtain ⟨c, -, rfl⟩ := Option.map_eq_some_iff.1 hs
        exact h

/-- The channels still to be handled in this round, with what was reported of them. -/
def pending (s : Reactor ι) : List (ι × BitVec 32) :=
  s.activeChannels_.map fun i => (i, s.revents i)

end Reactor

/-- No operation touches `revents_`. -/
theorem Channel.revents_perform {ι : Type*} (p : EPollPoller ι) (ptr : ι) (c : Channel)
    (op : Op) : (c.perform p ptr op).2.revents_ = c.revents_ := by
  have hupdate (d : Channel) : (p.updateChannel ptr d).2.revents_ = d.revents_ := by
    unfold EPollPoller.updateChannel
    split_ifs <;> rfl
  cases op with
  | remove => rfl
  | _ => exact hupdate _

namespace Reactor

variable {ι : Type*} [DecidableEq ι] {s s' t : Reactor ι}

/-- **A step within a round** moves a channel from the pending ones to the handled
ones, with what was reported of it, or changes neither. -/
theorem Sound.step_round (h : s.Sound) {a : Label ι} (hret : s.Retired a)
    (hwait : ∀ happened, a ≠ .wait happened) (hint : a ≠ .interrupted)
    (hs : s.step a = some s') : s'.handled ++ s'.pending = s.handled ++ s.pending := by
  -- what happens to a channel that is not pending is not seen
  have hof {chan : Channels ι} (hchan : ∀ j ∈ s.activeChannels_,
      (chan j).map Channel.revents_ = (s.chan j).map Channel.revents_) :
      (s.activeChannels_.map fun j => (j, ((chan j).map Channel.revents_).getD 0)) =
        s.pending :=
    List.map_congr_left fun j hj => by rw [hchan j hj, revents]
  cases a with
  | construct i fd =>
      obtain ⟨hi, hs⟩ := Option.ite_none_right_eq_some.1 hs
      obtain rfl := Option.some.inj hs
      refine congrArg (s.handled ++ ·) (hof fun j hj => ?_)
      dsimp only
      rw [Function.update_of_ne (by rintro rfl; exact h.active_live j hj hi)]
  | destroy i =>
      obtain ⟨c, -, rfl⟩ := Option.map_eq_some_iff.1 hs
      refine congrArg (s.handled ++ ·) (hof fun j hj => ?_)
      dsimp only
      rw [Function.update_of_ne (by rintro rfl; exact hret.2 hj)]
  | perform i op =>
      obtain ⟨c, hc, rfl⟩ := Option.map_eq_some_iff.1 hs
      refine congrArg (s.handled ++ ·) (hof fun j _ => ?_)
      dsimp only
      by_cases hj : j = i
      · subst hj
        rw [Function.update_self, hc, Option.map_some, Option.map_some, Channel.revents_perform]
      · rw [Function.update_of_ne hj]
  | arrive fd =>
      obtain rfl := Option.some.inj hs
      split_ifs <;> rfl
  | wait happened => exact absurd rfl (hwait happened)
  | interrupted => exact absurd rfl hint
  | handleEvent =>
      rw [step] at hs
      split at hs
      · cases hs
      · rename_i i active hact
        obtain ⟨c, hc, rfl⟩ := Option.map_eq_some_iff.1 hs
        have hi : s.revents i = c.revents_ := by rw [revents, hc, Option.map_some, Option.getD_some]
        rw [pending, pending, hact, List.map_cons, hi, List.append_assoc]
        rfl

/-- **A round handles what `epoll_wait` has handed over.**  From the `wait` to the next
one, whatever the callbacks construct, empty or remove, and as long as they destroy only
channels that have been removed and are not pending, the channels handled so far and then
the pending ones are those of the answer, once each, in its order and with its events;
each of them was registered when the kernel answered, and is told no more than it has
asked for, `EPOLLERR` and `EPOLLHUP`. -/
theorem round_exact {as bs : List (Label ι)} {happened : ℤ → BitVec 32} {s₁ : Reactor ι}
    (has : Along step (fun s a => s.Pre a ∧ s.Retired a) empty as)
    (hs : exec step empty as = some s) (hs₁ : s.step (.wait happened) = some s₁)
    (hbs : Along step (fun s a => s.Pre a ∧ s.Retired a) s₁ bs)
    (hround : ∀ a ∈ bs, (∀ happened, a ≠ .wait happened) ∧ a ≠ .interrupted)
    (ht : exec step s₁ bs = some t) :
    t.handled ++ t.pending = (s.answer happened).map (fun event => (event.ptr, event.events)) ∧
      ((s.answer happened).map EpollEvent.ptr).Nodup ∧
      ∀ event ∈ s.answer happened, ∃ c, s.chan event.ptr = some c ∧ c.index_ = kAdded ∧
        event.events = happened c.fd_ &&& (c.events_ ||| EPOLLERR ||| EPOLLHUP) ∧
        event.events ≠ 0 := by
  have hsound : s.Sound :=
    exec_invariant (fun _ _ _ h ha hs => h.of_step ha hs) sound_empty has hs
  have hn : s.ready.Nodup :=
    exec_invariant' (I := fun s : Reactor ι => s.ready.Nodup)
      (fun _ _ _ h hs => nodup_ready_of_step h hs) List.nodup_nil hs
  have hanswer := @Sound.nodup_answer _ s happened hsound hn
  refine ⟨?_, hanswer, fun event he => ?_⟩
  · obtain ⟨hact, -⟩ := Option.ite_none_right_eq_some.1 hs₁
    have hsound₁ := hsound.of_step (a := .wait happened) ⟨hact, trivial⟩ hs₁
    obtain ⟨events, hs'⟩ := hsound.step_wait hact happened
    obtain rfl := Option.some.inj (hs'.symm.trans hs₁)
    -- at the beginning of the round all are pending
    have hbegin : (s.answer happened).map (fun event => (event.ptr,
        ((noted (s.answer happened) s.chan event.ptr).map Channel.revents_).getD 0)) =
        (s.answer happened).map (fun event => (event.ptr, event.events)) := by
      refine List.map_congr_left fun event he => ?_
      obtain ⟨c, hc⟩ := Option.ne_none_iff_exists'.1 (hsound.answer_live event he)
      rw [noted, hc, Option.map_some, Option.map_some, Option.getD_some,
        reventsOf_of_mem hanswer he]
    have hrun := exec_invariant
      (I := fun u : Reactor ι => u.Sound ∧ u.handled ++ u.pending =
        (s.answer happened).map (fun event => (event.ptr, event.events)))
      (fun u a u' hu ha hu' => ⟨hu.1.of_step ha.1 hu',
        (hu.1.step_round ha.1.2 ha.2.1 ha.2.2 hu').trans hu.2⟩)
      ⟨hsound₁, ?_⟩ (along_and.2 ⟨hbs, along_of_forall_mem hround _⟩) ht
    · exact hrun.2
    · rw [pending, List.nil_append, List.map_map]
      exact hbegin
  · obtain ⟨fd, -, e, hint, hptr, hev, hne⟩ := exists_of_mem_answer he
    obtain ⟨c, hc, rfl⟩ := hsound.interest_live fd e hint
    have hreg := (hsound.registered _ c hc).interest_eq
    rw [hint] at hreg
    split_ifs at hreg with hk
    rw [Option.some.inj hreg] at hev
    exact ⟨c, hptr ▸ hc, hk, hev, hne⟩

/-- The hypotheses are satisfiable: the first of two channels is handled and removes
itself, the second is pending. -/
theorem round_exact_pair : ∃ s t : Reactor Bool, exec step empty pair.dropLast = some s ∧
    t.handled ++ t.pending =
      (s.answer fun _ => EPOLLIN).map (fun event => (event.ptr, event.events)) ∧
    t.pending = [(false, EPOLLIN)] := by
  obtain ⟨s, hs⟩ : ∃ s : Reactor Bool, exec step empty pair.dropLast = some s := ⟨_, rfl⟩
  obtain ⟨s₁, hs₁⟩ : ∃ s₁, s.step (.wait fun _ => EPOLLIN) = some s₁ := by
    obtain rfl := Option.some.inj hs
    exact ⟨_, rfl⟩
  obtain ⟨t, ht⟩ : ∃ t, exec step s₁ [.handleEvent, .perform true .remove] = some t := by
    obtain rfl := Option.some.inj hs
    obtain rfl := Option.some.inj hs₁
    exact ⟨_, rfl⟩
  have hbs : Along step (fun s a => s.Pre a ∧ s.Retired a) s₁
      [.handleEvent, .perform true .remove] := by
    obtain rfl := Option.some.inj hs
    obtain rfl := Option.some.inj hs₁
    decide
  refine ⟨s, t, hs, (round_exact (by decide) hs hs₁ hbs (by simp) ht).1, ?_⟩
  obtain rfl := Option.some.inj hs
  obtain rfl := Option.some.inj hs₁
  obtain rfl := Option.some.inj ht
  decide

end Reactor

end MuMuduo
