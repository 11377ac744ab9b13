/-
# Which channels are watched

`EPollPoller::updateChannel` is meant to keep a descriptor in the interest set
exactly as long as its channel is interested in something: a channel that is
tagged `kAdded` and comes with an empty mask is taken out.  The other branch does
not look at the mask.  A channel tagged `kNew` or `kDeleted` is added whatever
its mask is, so that `disableAll()` on a channel that was never enabled, or a
second `disableAll()`, registers it with an empty mask
(`watched_fails_on_new_channel`), as `~Acceptor` does when `listen()` was never
called.  `EPOLLHUP` and `EPOLLERR` are reported for such a channel.

A run keeps the law exactly when no mask operation leaves the mask empty on a
channel that is not tagged `kAdded` (`watched_iff_added`).
-/

import MuMuduo.Poller.Agreement

namespace MuMuduo

open Foundation

variable {ι : Type*}

namespace Channel

/-- The channel that an operation hands to the poller: a mask operation has
changed the mask by then. -/
def masked (c : Channel) : Op → Channel
  | .enableReading => c.enableReading
  | .disableReading => c.disableReading
  | .enableWriting => c.enableWriting
  | .disableWriting => c.disableWriting
  | .disableAll => c.disableAll
  | .remove => c

/-- Every operation but `remove` sets a mask and hands the channel to `updateChannel`. -/
theorem perform_of_ne_remove (p : EPollPoller ι) (ptr : ι) (c : Channel) {op : Op}
    (h : op ≠ .remove) : c.perform p ptr op = p.updateChannel ptr (c.masked op) := by
  cases op with
  | remove => exact absurd rfl h
  | enableReading | disableReading | enableWriting | disableWriting | disableAll => rfl

@[simp] theorem masked_index_ (c : Channel) (op : Op) : (c.masked op).index_ = c.index_ := by
  cases op <;> rfl

end Channel

namespace EPollPoller

/-- **What `updateChannel` does to the tag.**  Only a channel that is in the
interest set can be taken out of it; any other is added. -/
theorem index_updateChannel {p : EPollPoller ι} {ptr : ι} {c : Channel} {old : BitVec 32}
    (h : p.Registered ptr c old) :
    (p.updateChannel ptr c).2.index_ =
      if c.index_ = kAdded ∧ c.events_ = 0 then kDeleted else kAdded := by
  have hadd (hk : c.index_ = kNew ∨ c.index_ = kDeleted) :
      ¬(c.index_ = kAdded ∧ c.events_ = 0) := by
    rintro ⟨hc, -⟩
    rw [hc] at hk
    exact absurd hk (by decide)
  rcases h.index_mem with hk | hk | hk
  · rw [updateChannel, if_pos (.inl hk), if_neg (hadd (.inl hk))]
  · rw [updateChannel, if_neg (by rw [hk]; decide), Channel.isNoeEvent, Channel.kNoneEvent]
    by_cases hnone : c.events_ = 0
    · rw [if_pos (by simpa using hnone), if_pos ⟨hk, hnone⟩]
    · rw [if_neg (by simpa using hnone), if_neg (fun hc => hnone hc.2)]
      exact hk
  · rw [updateChannel, if_pos (.inr hk), if_neg (hadd (.inr hk))]

end EPollPoller

namespace Watch

/-- The descriptor of channel `i` is in the interest set. -/
def Watched (s : Watch ι) (i : ι) : Prop := (s.poller.interest (s.chan i).fd_).isSome

/-- The kernel watches the channels that are tagged `kAdded`. -/
theorem Agrees.watched_iff {fd : ι → ℤ} {s : Watch ι} (h : Agrees fd s) (i : ι) :
    s.Watched i ↔ (s.chan i).index_ = kAdded := by
  rw [Watched, (h.registered i).interest_eq]
  split_ifs with hk <;> simp [hk]

/-- No channel is watched without an interest. -/
def Interested (s : Watch ι) : Prop := ∀ i, s.Watched i → (s.chan i).events_ ≠ 0

variable [DecidableEq ι]

/-- What is promised of one operation: a mask operation leaves its channel
watched exactly when it is interested in something, and no channel is watched
without an interest. -/
def Promised (s : Watch ι) (a : ι × Channel.Op) : Prop :=
  ∀ s', s.step a = some s' →
    (a.2 ≠ .remove → (s'.Watched a.1 ↔ (s'.chan a.1).events_ ≠ 0)) ∧ s'.Interested

/-- The channel is in the interest set where a mask operation leaves its mask
empty. -/
def AddedWhereEmptied (s : Watch ι) (a : ι × Channel.Op) : Prop :=
  a.2 ≠ .remove → ((s.chan a.1).masked a.2).events_ = 0 → (s.chan a.1).index_ = kAdded

omit [DecidableEq ι] in
/-- A mask operation leaves the channel with the tag `updateChannel` gives it. -/
theorem Agrees.perform_index {fd : ι → ℤ} {s : Watch ι} (h : Agrees fd s) {i : ι} {op : Channel.Op}
    (hop : op ≠ .remove) :
    (((s.chan i).perform s.poller i op).2.index_ = kAdded ↔
      ((s.chan i).index_ = kAdded → ((s.chan i).masked op).events_ ≠ 0)) ∧
      ((s.chan i).perform s.poller i op).2.events_ = ((s.chan i).masked op).events_ := by
  obtain ⟨hidx, hint, hch⟩ := h.registered i
  have hreg : s.poller.Registered i ((s.chan i).masked op) (s.chan i).events_ := by
    cases op <;> exact ⟨hidx, hint, hch⟩
  rw [Channel.perform_of_ne_remove _ _ _ hop]
  refine ⟨?_, (EPollPoller.updateChannel_registered hreg).2.2.2⟩
  rw [EPollPoller.index_updateChannel hreg, Channel.masked_index_]
  split_ifs with hc
  · exact iff_of_false EPollPoller.kDeleted_ne_kAdded fun hne => hne hc.1 hc.2
  · exact iff_of_true rfl fun hk hz => hc ⟨hk, hz⟩

/-- **One operation.**  Where the law holds, an operation keeps its promise exactly
when it empties no mask but that of a watched channel. -/
theorem promised_iff {fd : ι → ℤ} (hfd : Function.Injective fd) {s : Watch ι}
    {a : ι × Channel.Op} (h : Agrees fd s) (hi : s.Interested) :
    s.Promised a ↔ s.AddedWhereEmptied a := by
  obtain ⟨i, op⟩ := a
  set s' : Watch ι := ⟨((s.chan i).perform s.poller i op).1,
    Function.update s.chan i ((s.chan i).perform s.poller i op).2⟩ with hs'
  have hs : s.step (i, op) = some s' := rfl
  have h' : Agrees fd s' := h.step hfd hs
  have hself : s'.chan i = ((s.chan i).perform s.poller i op).2 := Function.update_self ..
  -- the other channels are as they were
  have hother : ∀ j, j ≠ i → s'.Watched j → (s'.chan j).events_ ≠ 0 := by
    intro j hj hw
    rw [h'.watched_iff, show s'.chan j = s.chan j from Function.update_of_ne hj _ _] at hw
    rw [show s'.chan j = s.chan j from Function.update_of_ne hj _ _]
    exact hi j ((h.watched_iff j).2 hw)
  constructor
  · intro hp hop hz
    by_contra hk
    obtain ⟨hidx, hev⟩ := h.perform_index (i := i) hop
    have hw : s'.Watched i := by
      rw [h'.watched_iff, hself, hidx]
      exact fun hk' => absurd hk' hk
    exact (((hp s' hs).1 hop).1 hw) (by rw [hself, hev, hz])
  · rintro hadd u hu
    obtain rfl := Option.some.inj (hs.symm.trans hu)
    by_cases hop : op = .remove
    · -- a removed channel is not watched
      refine ⟨fun hne => absurd hop hne, fun j hw => ?_⟩
      by_cases hj : j = i
      · subst hj hop
        rw [h'.watched_iff, hself] at hw
        exact absurd hw EPollPoller.kNew_ne_kAdded
      · exact hother j hj hw
    · obtain ⟨hidx, hev⟩ := h.perform_index (i := i) hop
      have hw : s'.Watched i ↔ (s'.chan i).events_ ≠ 0 := by
        rw [h'.watched_iff, hself, hidx, hev]
        constructor
        · intro hne hz
          exact hne (hadd hop hz) hz
        · intro hne _
          exact hne
      refine ⟨fun _ => hw, fun j hwj => ?_⟩
      by_cases hj : j = i
      · subst hj
        exact hw.1 hwj
      · exact hother j hj hwj

/-- **When a channel is watched exactly while it is interested.**  Along every
sequence of operations each mask operation leaves its channel in the interest set
exactly when the mask is not empty, and no channel is ever registered with an
empty mask, if and only if masks are emptied on channels tagged `kAdded` only. -/
theorem watched_iff_added {fd : ι → ℤ} (hfd : Function.Injective fd)
    (ops : List (ι × Channel.Op)) :
    Along Watch.step Promised (Watch.ofFds fd) ops ↔
      Along Watch.step AddedWhereEmptied (Watch.ofFds fd) ops := by
  refine along_iff_along (I := fun s => Agrees fd s ∧ s.Interested)
    (fun s a s' hI hp hs => ⟨hI.1.step hfd hs, (hp s' hs).2⟩)
    (fun s a hI => promised_iff hfd hI.1 hI.2) ⟨.ofFds fd, fun i hw => ?_⟩ ops
  exact absurd ((Agrees.ofFds fd).watched_iff i |>.1 hw) EPollPoller.kNew_ne_kAdded

instance (s : Watch ι) (a : ι × Channel.Op) : Decidable (s.AddedWhereEmptied a) := by
  unfold AddedWhereEmptied
  infer_instance

/-- The hypothesis is satisfiable: a connection's channel that is enabled, waits
for the descriptor once, is disabled and removed. -/
theorem watched_connection :
    Along Watch.step Promised (Watch.ofFds fun _ : Unit => 5)
      [((), .enableReading), ((), .enableWriting), ((), .disableWriting), ((), .disableAll),
        ((), .remove)] :=
  (watched_iff_added (fun _ _ _ => rfl) _).2 (by decide)

/-- **A channel without an interest is registered.**  A new channel, on which
`disableAll()` and `remove()` are called, is added to the interest set. -/
theorem watched_fails_on_new_channel :
    ¬Along Watch.step Promised (Watch.ofFds fun _ : Unit => 5)
      [((), .disableAll), ((), .remove)] := by
  rintro ⟨hp, -⟩
  obtain ⟨hw, -⟩ := hp _ rfl
  exact (hw (by decide)).1 rfl rfl

end Watch

end MuMuduo
