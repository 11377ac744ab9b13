/-
# Nobody is left waiting

`epoll_wait` hands over at most `events_.size()` events, so that a channel which is
ready may have to wait for a later call.  The kernel goes round among the descriptors
that are ready, and a call that has filled `events_` makes `poll` double it.  Either
rule works for the one who waits: what stands in front of it becomes less by the length
of `events_`, and `events_` gains the same length (`Neglects.step_wait`).  Their sum
does not grow, while `events_` doubles, so the number of calls that pass over a channel
is logarithmic in the number of descriptors in front of it (`reported_within`).

The doubling stops: `events_` is never longer than twice the number of the descriptors
that were ready at once (`length_events_le`).
-/

import MuMuduo.Poller.Reactor

namespace MuMuduo

open Foundation

namespace Reactor

variable {ι : Type*} [DecidableEq ι] {s s' t : Reactor ι}

/-- A call of `epoll_wait` that returns. -/
def Label.isWait : Label ι → Bool
  | .wait _ => true
  | _ => false

/-- What a wait does to `events_` and to the kernel's list. -/
theorem step_wait_eq {happened : ℤ → BitVec 32} (hs : s.step (.wait happened) = some s') :
    s'.events_.length =
        (if (s.answer happened).length = s.events_.length then 2 * s.events_.length
          else s.events_.length) ∧
      s'.ready = rotate (s.poller.isReady happened) s.events_.length s.ready := by
  obtain ⟨-, hs⟩ := Option.ite_none_right_eq_some.1 hs
  obtain ⟨r, hr, rfl⟩ := Option.map_eq_some_iff.1 hs
  exact ⟨length_of_poll (s.length_answer_le happened) hr, rfl⟩

/-- Nothing else changes `events_`, and the kernel's list changes at its end or loses
descriptors that are not registered any more. -/
theorem step_other {a : Label ι} (ha : a.isWait = false) (hs : s.step a = some s') :
    s'.events_ = s.events_ ∧ (s'.ready = s.ready ∨ (∃ fd, s'.ready = s.ready ++ [fd]) ∨
      s'.ready = s.ready.filter fun fd => (s'.poller.interest fd).isSome) := by
  cases a with
  | construct i fd =>
      obtain ⟨-, hs⟩ := Option.ite_none_right_eq_some.1 hs
      obtain rfl := Option.some.inj hs
      exact ⟨rfl, .inl rfl⟩
  | destroy i =>
      obtain ⟨c, -, rfl⟩ := Option.map_eq_some_iff.1 hs
      exact ⟨rfl, .inl rfl⟩
  | perform i op =>
      obtain ⟨c, -, rfl⟩ := Option.map_eq_some_iff.1 hs
      exact ⟨rfl, .inr (.inr rfl)⟩
  | arrive fd =>
      obtain rfl := Option.some.inj hs
      split_ifs
      · exact ⟨rfl, .inr (.inl ⟨fd, rfl⟩)⟩
      · exact ⟨rfl, .inl rfl⟩
  | wait happened => cases ha
  | interrupted =>
      obtain ⟨-, hs⟩ := Option.ite_none_right_eq_some.1 hs
      obtain rfl := Option.some.inj hs
      exact ⟨rfl, .inl rfl⟩
  | handleEvent =>
      rw [step] at hs
      split at hs
      · cases hs
      · obtain ⟨c, -, rfl⟩ := Option.map_eq_some_iff.1 hs
        exact ⟨rfl, .inl rfl⟩

/-! ### The length of `events_` -/

/-- The initial length has been doubled, and the last time because `ready` was longer
than half of it. -/
def Grown (n : ℕ) (s : Reactor ι) : Prop :=
  ∃ k, s.events_.length = KInitEventListSize * 2 ^ k ∧ (k = 0 ∨ s.events_.length ≤ 2 * n)

/-- **One step.** -/
theorem Grown.step {n : ℕ} (h : s.Grown n) {a : Label ι}
    (ha : a.isWait = true → s.ready.length ≤ n) (hs : s.step a = some s') : s'.Grown n := by
  obtain ⟨k, hk, hle⟩ := h
  cases hw : a.isWait with
  | false => exact ⟨k, by rw [(step_other hw hs).1, hk], by rwa [(step_other hw hs).1]⟩
  | true =>
      cases a with
      | wait happened =>
          have hanswer : (s.answer happened).length ≤ s.ready.length :=
            Nat.le_trans (List.length_filterMap_le _ _)
              ((List.sublist_append_left _ _).trans (serve_sublist _ _)).length_le
          have hready := ha rfl
          obtain ⟨hlen, -⟩ := step_wait_eq hs
          by_cases hfull : (s.answer happened).length = s.events_.length
          · rw [if_pos hfull] at hlen
            refine ⟨k + 1, ?_, .inr (by omega)⟩
            rw [hlen, hk, Nat.pow_succ, Nat.mul_left_comm, Nat.mul_comm 2]
          · rw [if_neg hfull] at hlen
            exact ⟨k, hlen.trans hk, by rwa [hlen]⟩
      | _ => cases hw

/-- **`events_` stays in proportion.**  If no more than `n` descriptors are ready
whenever the loop waits, its length is `16` doubled a number of times, and not more than
twice `n` once it has been doubled. -/
theorem length_events_le {n : ℕ} {as : List (Label ι)}
    (has : Along step (fun s a => a.isWait = true → s.ready.length ≤ n) empty as)
    (ht : exec step empty as = some t) :
    (∃ k, t.events_.length = KInitEventListSize * 2 ^ k) ∧
      t.events_.length ≤ max KInitEventListSize (2 * n) := by
  have h₀ : (empty : Reactor ι).Grown n := ⟨0, List.length_replicate, .inl rfl⟩
  obtain ⟨k, hk, hle⟩ := exec_invariant (fun _ _ _ h ha hs => h.step ha hs) h₀ has ht
  refine ⟨⟨k, hk⟩, ?_⟩
  rcases hle with rfl | hle
  · rw [hk]
    exact Nat.le_max_left _ _
  · exact Nat.le_trans hle (Nat.le_max_right _ _)

/-- The hypotheses are satisfiable: two descriptors are ready, and `events_` keeps its
length. -/
theorem length_events_le_pair : ∃ t : Reactor Bool, exec step empty pair = some t ∧
    t.events_.length ≤ max KInitEventListSize (2 * 2) := by
  obtain ⟨t, ht⟩ : ∃ t : Reactor Bool, exec step empty pair = some t := ⟨_, rfl⟩
  exact ⟨t, ht, (length_events_le (by decide) ht).2⟩

/-! ### Who waits -/

/-- The channel at `i` is registered on `fd`, and ready whenever the loop waits. -/
def Stays (fd : ℤ) (i : ι) (s : Reactor ι) : Label ι → Prop
  | .wait happened => ∃ event, s.poller.report happened fd = some event ∧ event.ptr = i
  | _ => (s.poller.interest fd).isSome = true

/-- It is not handed over. -/
def Neglects (i : ι) (s : Reactor ι) : Label ι → Prop
  | .wait happened => ∀ event ∈ s.answer happened, event.ptr ≠ i
  | _ => True

variable {fd : ℤ} {i : ι}

/-- **A wait that passes over a channel** has filled `events_`, and as many have gone
behind it. -/
theorem Neglects.step_wait {happened : ℤ → BitVec 32} (hmem : fd ∈ s.ready)
    (hstay : Stays fd i s (.wait happened)) (hneg : Neglects i s (.wait happened))
    (hs : s.step (.wait happened) = some s') :
    fd ∈ s'.ready ∧ s'.events_.length = 2 * s.events_.length ∧
      s'.ready.idxOf fd + s'.events_.length ≤ s.ready.idxOf fd + s.events_.length := by
  obtain ⟨event, hrep, hptr⟩ := hstay
  have hkeep : s.poller.isReady happened fd = true := by
    rw [EPollPoller.isReady, hrep, Option.isSome_some]
  have hserve : fd ∉ (serve (s.poller.isReady happened) s.events_.length s.ready).1 :=
    fun h => hneg event (List.mem_filterMap.2 ⟨fd, h, hrep⟩) hptr
  obtain ⟨hlen, hready⟩ := step_wait_eq hs
  obtain ⟨hmem', hidx⟩ := idxOf_rotate_add_le hkeep hmem hserve
  -- each of those who were served is in the answer
  have hfull : (s.answer happened).length = s.events_.length := by
    rw [← (serve_not_mem hkeep hmem hserve).1]
    exact List.filterMap_length_eq_length.2 fun n hn =>
      (keep_of_mem_serve hn : s.poller.isReady happened n = true)
  rw [if_pos hfull] at hlen
  rw [← hready] at hmem' hidx
  exact ⟨hmem', hlen, by omega⟩

/-- Everything else leaves a registered channel where it is, or brings it to the front. -/
theorem Stays.step_other (hmem : fd ∈ s.ready) {a : Label ι} (ha : a.isWait = false)
    (hs : s.step a = some s') (hreg : (s'.poller.interest fd).isSome = true) :
    fd ∈ s'.ready ∧ s'.ready.idxOf fd ≤ s.ready.idxOf fd := by
  rcases (Reactor.step_other ha hs).2 with hr | ⟨n, hr⟩ | hr <;> rw [hr]
  · exact ⟨hmem, Nat.le_refl _⟩
  · exact ⟨List.mem_append_left _ hmem, Nat.le_of_eq (List.idxOf_append_of_mem hmem)⟩
  · exact ⟨List.mem_filter.2 ⟨hmem, hreg⟩,
      @idxOf_filter_le _ _ _ (fun n => (s'.poller.interest n).isSome) hreg _ hmem⟩

omit [DecidableEq ι] in
/-- While it stays, the descriptor is in the interest set. -/
theorem Stays.isSome {a : Label ι} (h : Stays fd i s a) : (s.poller.interest fd).isSome = true := by
  cases a with
  | wait happened =>
      obtain ⟨event, hrep, -⟩ := h
      obtain ⟨e, he, -⟩ := Option.bind_eq_some_iff.1 hrep
      rw [he, Option.isSome_some]
  | _ => exact h

/-- **The waits that pass over a channel**, from any state in which the kernel has it
on its list. -/
theorem length_mul_pow_le {as : List (Label ι)} (hmem : fd ∈ s.ready)
    (hstay : Along step (Stays fd i) s as) (hneg : Along step (Neglects i) s as)
    (ht : exec step s as = some t) :
    s.events_.length * 2 ^ as.countP Label.isWait ≤ s.ready.idxOf fd + s.events_.length := by
  induction as generalizing s with
  | nil =>
      rw [List.countP_nil, Nat.pow_zero, Nat.mul_one]
      exact Nat.le_add_left _ _
  | cons a as ih =>
      obtain ⟨s', hs', ht'⟩ := exec_cons.1 ht
      have hstay' := hstay.2 s' hs'
      have hneg' := hneg.2 s' hs'
      cases hw : a.isWait with
      | true =>
          cases a with
          | wait happened =>
              obtain ⟨hmem', hlen, hle⟩ := Neglects.step_wait hmem hstay.1 hneg.1 hs'
              have h := ih hmem' hstay' hneg' ht'
              rw [List.countP_cons_of_pos hw, Nat.pow_succ]
              calc s.events_.length * (2 ^ as.countP Label.isWait * 2)
                  = s'.events_.length * 2 ^ as.countP Label.isWait := by
                    rw [hlen, Nat.mul_comm 2, Nat.mul_assoc, Nat.mul_comm 2]
                _ ≤ s'.ready.idxOf fd + s'.events_.length := h
                _ ≤ s.ready.idxOf fd + s.events_.length := hle
          | _ => cases hw
      | false =>
          rw [List.countP_cons_of_neg (by rw [hw]; exact Bool.false_ne_true)]
          cases as with
          | nil =>
              rw [List.countP_nil, Nat.pow_zero, Nat.mul_one]
              exact Nat.le_add_left _ _
          | cons b bs =>
              obtain ⟨hmem', hle⟩ := Stays.step_other hmem hw hs' hstay'.1.isSome
              have h := ih hmem' hstay' hneg' ht'
              rw [(Reactor.step_other hw hs').1] at h
              omega

/-- **No channel starves.**  In any state that the loop reaches, a channel that the
kernel has on its list behind `k` others, and that stays registered and ready, is handed
over by one of the next calls: at the latest when `16 * 2 ^ n` exceeds `k + 16` for
their number `n`, however many become ready or are registered meanwhile. -/
theorem reported_within {as bs : List (Label ι)} (hs : exec step empty as = some s)
    (hmem : fd ∈ s.ready) (hstay : Along step (Stays fd i) s bs) (ht : exec step s bs = some t)
    (hn : s.ready.idxOf fd + KInitEventListSize <
      KInitEventListSize * 2 ^ bs.countP Label.isWait) :
    ∃ cs happened ds u, bs = cs ++ .wait happened :: ds ∧ exec step s cs = some u ∧
      ∃ event ∈ u.answer happened, event.ptr = i := by
  have hlen : KInitEventListSize ≤ s.events_.length := by
    refine exec_invariant' (I := fun s : Reactor ι => KInitEventListSize ≤ s.events_.length)
      (fun u a u' hu hu' => ?_) (Nat.le_of_eq List.length_replicate.symm) hs
    cases hw : a.isWait with
    | false => rwa [(Reactor.step_other hw hu').1]
    | true =>
        cases a with
        | wait happened =>
            rw [(step_wait_eq hu').1]
            split_ifs <;> omega
        | _ => cases hw
  have hnot : ¬Along step (Neglects i) s bs := by
    intro hneg
    have hbound := length_mul_pow_le hmem hstay hneg ht
    -- a longer `events_` has been passed over less often
    obtain ⟨d, hd⟩ := Nat.exists_eq_add_of_le hlen
    obtain ⟨m, hm⟩ := Nat.exists_eq_add_of_le (Nat.one_le_two_pow (n := bs.countP Label.isWait))
    rw [hm, Nat.mul_add, Nat.mul_one] at hbound hn
    have hmul := Nat.mul_le_mul_right m hlen
    omega
  obtain ⟨cs, a, ds, u, rfl, hu, ha⟩ := exists_of_not_along hnot
  cases a with
  | wait happened =>
      refine ⟨cs, happened, ds, u, rfl, hu, ?_⟩
      by_contra hno
      exact ha fun event he hptr => hno ⟨event, he, hptr⟩
  | _ => exact absurd trivial ha

/-- The hypotheses are satisfiable: the second of two channels is handed over by the
first call. -/
theorem reported_within_pair : ∃ s : Reactor Bool, exec step empty pair.dropLast = some s ∧
    ∃ cs happened ds u, [Label.wait fun _ => EPOLLIN] = cs ++ .wait happened :: ds ∧
      exec step s cs = some u ∧ ∃ event ∈ u.answer happened, event.ptr = false := by
  obtain ⟨s, hs⟩ : ∃ s : Reactor Bool, exec step empty pair.dropLast = some s := ⟨_, rfl⟩
  have hmem : (4 : ℤ) ∈ s.ready := by
    obtain rfl := Option.some.inj hs
    decide
  have hstay : Along step (Stays 4 false) s [.wait fun _ => EPOLLIN] := by
    obtain rfl := Option.some.inj hs
    exact ⟨⟨⟨EPOLLIN, false⟩, by rfl, rfl⟩, fun _ _ => trivial⟩
  obtain ⟨t, ht⟩ : ∃ t, exec step s [.wait fun _ => EPOLLIN] = some t := by
    obtain rfl := Option.some.inj hs
    exact ⟨_, rfl⟩
  have hn : s.ready.idxOf 4 + KInitEventListSize <
      KInitEventListSize * 2 ^ [Label.wait (ι := Bool) fun _ => EPOLLIN].countP Label.isWait := by
    obtain rfl := Option.some.inj hs
    decide
  exact ⟨s, hs, reported_within hs hmem hstay ht hn⟩

end Reactor

end MuMuduo
