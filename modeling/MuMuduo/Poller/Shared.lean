/-
# One poller for all channels of a loop

All channels of a loop share one `EPollPoller`, whereas a connection is modelled with
a poller of its own (`MuMuduo.Connection.Basic`).  Nothing is lost by this: every entry
of `channels_` and of the interest set belongs to one descriptor, an operation on a
channel looks at the entries of its own descriptor only (`view_perform`) and leaves the
others as they are (`view_of_onlyAt`).  So what a channel sees of the shared poller is
what it would see of a poller of its own under its own operations, however those of the
other channels come in between (`view_exec`).
-/

import MuMuduo.Poller.Agreement

namespace MuMuduo

open Foundation

variable {ι : Type*}

/-! ### The kernel's side -/

/-- The entry of one descriptor, without the address. -/
def seen (fd : ℤ) (set : ℤ → Option (EpollEvent ι)) : ℤ → Option (EpollEvent Unit) := fun n =>
  if n = fd then (set fd).map fun event => ⟨event.events, ()⟩ else none

/-- What is seen at the descriptor itself. -/
theorem seen_self (fd : ℤ) (set : ℤ → Option (EpollEvent ι)) :
    seen fd set fd = (set fd).map fun event => ⟨event.events, ()⟩ := if_pos rfl

/-- A change at the descriptor, as it is seen from there. -/
theorem seen_update (fd : ℤ) (set : ℤ → Option (EpollEvent ι)) (event : Option (EpollEvent ι)) :
    seen fd (Function.update set fd event) =
      Function.update (seen fd set) fd (event.map fun event => ⟨event.events, ()⟩) := by
  funext n
  by_cases hn : n = fd
  · subst hn
    rw [seen_self, Function.update_self, Function.update_self]
  · rw [Function.update_of_ne hn, seen, if_neg hn, seen, if_neg hn]

/-- `epoll_ctl` looks at the entry of its descriptor and changes no other. -/
theorem seen_epollCtl (set : ℤ → Option (EpollEvent ι)) (op : CtlOp) (fd : ℤ)
    (event : EpollEvent ι) :
    (epollCtl set op fd event).map (seen fd) = epollCtl (seen fd set) op fd ⟨event.events, ()⟩ := by
  cases hset : set fd with
  | none => cases op <;> simp [epollCtl, seen_self, seen_update, hset]
  | some old => cases op <;> simp [epollCtl, seen_self, seen_update, hset]

/-! ### The poller's side -/

namespace EPollPoller

/-- What the channel `ptr` on `fd` sees of the poller: the entries of its descriptor. -/
def view [DecidableEq ι] (p : EPollPoller ι) (ptr : ι) (fd : ℤ) : EPollPoller Unit where
  channels_ n := if n = fd ∧ p.channels_ fd = some ptr then some () else none
  interest := seen fd p.interest
  failed := p.failed
  exited := p.exited

variable [DecidableEq ι] {p p' : EPollPoller ι} {ptr : ι} {fd : ℤ}

/-- What is done under another descriptor is not seen. -/
theorem view_of_onlyAt {n : ℤ} (h : OnlyAt n p p') (hn : fd ≠ n) :
    p'.view ptr fd = p.view ptr fd := by
  unfold view seen
  rw [h.channels_of_ne fd hn, h.interest_of_ne fd hn, h.failed_eq, h.exited_eq]

/-- Entering the channel itself. -/
theorem view_enter (p : EPollPoller ι) (ptr : ι) (fd : ℤ) :
    view { p with channels_ := Function.update p.channels_ fd (some ptr) } ptr fd =
      { p.view ptr fd with
        channels_ := Function.update (p.view ptr fd).channels_ fd (some ()) } := by
  unfold view
  congr 1
  funext n
  by_cases hn : n = fd
  · subst hn
    simp
  · simp [hn]

/-- An erasure from `channels_`, seen from its descriptor. -/
theorem view_erase (p : EPollPoller ι) (ptr : ι) (fd : ℤ) :
    view { p with channels_ := Function.update p.channels_ fd none } ptr fd =
      { p.view ptr fd with channels_ := Function.update (p.view ptr fd).channels_ fd none } := by
  unfold view
  congr 1
  funext n
  by_cases hn : n = fd
  · subst hn
    simp
  · simp [hn]

/-- **`update`**, seen from the descriptor of its channel. -/
theorem view_update (p : EPollPoller ι) (ptr : ι) (channel : Channel) (operation : CtlOp) :
    (p.update operation ptr channel).view ptr channel.fd_ =
      (p.view ptr channel.fd_).update operation () channel := by
  have hctl := seen_epollCtl p.interest operation channel.fd_ ⟨channel.events_, ptr⟩
  rw [update, update, show (p.view ptr channel.fd_).interest = seen channel.fd_ p.interest from rfl,
    ← hctl]
  cases epollCtl p.interest operation channel.fd_ ⟨channel.events_, ptr⟩ <;> rfl

/-- **`updateChannel` on the shared poller** is `updateChannel` on what the channel sees
of it. -/
theorem view_updateChannel (p : EPollPoller ι) (ptr : ι) (channel : Channel) :
    (p.updateChannel ptr channel).1.view ptr channel.fd_ =
        ((p.view ptr channel.fd_).updateChannel () channel).1 ∧
      (p.updateChannel ptr channel).2 = ((p.view ptr channel.fd_).updateChannel () channel).2 := by
  unfold updateChannel
  split_ifs with hadd hnew hnone
  · refine ⟨?_, rfl⟩
    show ((update _ .add ptr { channel with index_ := kAdded }).view ptr channel.fd_) = _
    rw [← view_enter]
    exact view_update _ ptr { channel with index_ := kAdded } .add
  · exact ⟨view_update p ptr { channel with index_ := kAdded } .add, rfl⟩
  · exact ⟨view_update p ptr { channel with index_ := kDeleted } .del, rfl⟩
  · exact ⟨view_update p ptr channel .mod, rfl⟩

/-- **`removeChannel`**, seen from the descriptor of its channel. -/
theorem view_removeChannel (p : EPollPoller ι) (ptr : ι) (channel : Channel) :
    (p.removeChannel ptr channel).1.view ptr channel.fd_ =
        ((p.view ptr channel.fd_).removeChannel () channel).1 ∧
      (p.removeChannel ptr channel).2 = ((p.view ptr channel.fd_).removeChannel () channel).2 := by
  refine ⟨?_, rfl⟩
  simp only [removeChannel]
  rw [← view_erase]
  split_ifs
  · exact view_update _ ptr channel .del
  · rfl

end EPollPoller

/-- **An operation on the shared poller** is the operation on what the channel sees. -/
theorem Channel.view_perform [DecidableEq ι] (p : EPollPoller ι) (ptr : ι) (c : Channel)
    (op : Op) :
    (c.perform p ptr op).1.view ptr c.fd_ = (c.perform (p.view ptr c.fd_) () op).1 ∧
      (c.perform p ptr op).2 = (c.perform (p.view ptr c.fd_) () op).2 := by
  cases op with
  | enableReading => exact EPollPoller.view_updateChannel p ptr c.enableReading
  | disableReading => exact EPollPoller.view_updateChannel p ptr c.disableReading
  | enableWriting => exact EPollPoller.view_updateChannel p ptr c.enableWriting
  | disableWriting => exact EPollPoller.view_updateChannel p ptr c.disableWriting
  | disableAll => exact EPollPoller.view_updateChannel p ptr c.disableAll
  | remove => exact EPollPoller.view_removeChannel p ptr c

namespace Watch

variable [DecidableEq ι]

/-- The poller with one channel alone. -/
def view (s : Watch ι) (i : ι) : Watch Unit :=
  ⟨s.poller.view i (s.chan i).fd_, fun _ => s.chan i⟩

/-- The operations on one channel. -/
def opsOf (i : ι) (ops : List (ι × Channel.Op)) : List (Unit × Channel.Op) :=
  (ops.filter (·.1 = i)).map fun a => ((), a.2)

/-- At the start, seen from one descriptor. -/
theorem view_ofFds (fd : ι → ℤ) (i : ι) :
    (ofFds fd).view i = ofFds fun _ => fd i := by
  refine congrArg₂ Watch.mk ?_ rfl
  refine congrArg₂ (fun channels set => EPollPoller.mk channels set 0 false) ?_ ?_ <;>
    funext n
  · exact if_neg fun h => by cases h.2
  · show (if n = _ then Option.map _ none else none) = none
    rw [Option.map_none, ite_self]

variable {fd : ι → ℤ} {s s' : Watch ι} {i j : ι} {op : Channel.Op}

/-- A step of the channel's own. -/
theorem view_step_self (hs : s.step (i, op) = some s') :
    (s.view i).step ((), op) = some (s'.view i) := by
  obtain rfl := Option.some.inj hs
  obtain ⟨hp, hc⟩ := Channel.view_perform s.poller i (s.chan i) op
  have hfd : ((s.chan i).perform s.poller i op).2.fd_ = (s.chan i).fd_ := by
    have hupdate (c : Channel) : (s.poller.updateChannel i c).2.fd_ = c.fd_ := by
      unfold EPollPoller.updateChannel
      split_ifs <;> rfl
    cases op with
    | remove => rfl
    | _ => exact hupdate _
  refine congrArg some (congrArg₂ Watch.mk ?_ (funext fun u => ?_))
  · show _ = EPollPoller.view _ i (Function.update s.chan i _ i).fd_
    rw [Function.update_self, hfd]
    exact hp.symm
  · cases u
    dsimp only
    rw [view, Function.update_self, Function.update_self]
    exact hc.symm

/-- A step of another channel. -/
theorem view_step_other (hfd : Function.Injective fd) (h : Agrees fd s) (hij : i ≠ j)
    (hs : s.step (j, op) = some s') : s'.view i = s.view i := by
  obtain rfl := Option.some.inj hs
  obtain ⟨-, ho, -⟩ := Channel.perform_registered (h.registered j) op
  have hchan : Function.update s.chan j ((s.chan j).perform s.poller j op).2 i = s.chan i :=
    Function.update_of_ne hij ..
  have hne : (s.chan i).fd_ ≠ (s.chan j).fd_ := by
    rw [h.fd_eq, h.fd_eq]
    exact fun he => hij (hfd he)
  rw [view, view]
  dsimp only
  rw [hchan, EPollPoller.view_of_onlyAt ho hne]

/-- **Channels do not interfere.**  After every sequence of operations on the channels
of a loop, each of them has the tag and the mask, and sees the entries of the poller,
that its own operations would have led to with a poller of its own. -/
theorem view_exec (hfd : Function.Injective fd) {ops : List (ι × Channel.Op)}
    (hs : exec step (ofFds fd) ops = some s) (i : ι) :
    exec step (ofFds fun _ : Unit => fd i) (opsOf i ops) = some (s.view i) := by
  rw [← view_ofFds]
  -- the run taken from any state of the shared poller in which the bookkeeping is right
  suffices hrun : ∀ u : Watch ι, Agrees fd u → exec step u ops = some s →
      exec step (u.view i) (opsOf i ops) = some (s.view i) from
    hrun _ (Agrees.ofFds fd) hs
  clear hs
  induction ops with
  | nil =>
      intro u _ hs
      obtain rfl := Option.some.inj hs
      rfl
  | cons a ops ih =>
      intro u h hs
      obtain ⟨u', hu', hs'⟩ := exec_cons.1 hs
      obtain ⟨j, op⟩ := a
      have hrest := ih u' (h.step hfd hu') hs'
      by_cases hj : j = i
      · subst hj
        rw [opsOf, List.filter_cons_of_pos (by simp), List.map_cons]
        exact exec_cons.2 ⟨_, view_step_self hu', hrest⟩
      · rw [opsOf, List.filter_cons_of_neg (by simpa using hj),
          ← view_step_other hfd h (Ne.symm hj) hu']
        exact hrest

/-- The hypotheses are satisfiable: two channels in turn. -/
theorem view_exec_pair : ∃ s, exec step (ofFds fun i : Bool => if i then 3 else 4)
      [(true, .enableReading), (false, .enableWriting), (true, .disableAll)] = some s ∧
    exec step (ofFds fun _ : Unit => 3) [((), .enableReading), ((), .disableAll)] =
      some (s.view true) := by
  have hfd : Function.Injective fun i : Bool => if i then (3 : ℤ) else 4 := by
    intro i j h
    cases i <;> cases j <;> simp_all
  obtain ⟨s, hs⟩ : ∃ s, exec step (ofFds fun i : Bool => if i then 3 else 4)
      [(true, .enableReading), (false, .enableWriting), (true, .disableAll)] = some s := ⟨_, rfl⟩
  exact ⟨s, hs, view_exec hfd hs true⟩

end Watch

end MuMuduo
