/-
# Queues side by side

One queue for each key.  What is put at the end of one queue (`push`) or taken from its
front (`Function.update`) changes the number of the copies of an item in that queue by
one if it is that item, and the total weight of everything queued (`totalWeight`) by its
weight.
-/

import Mathlib.Algebra.BigOperators.Group.Finset.Piecewise
import Mathlib.Algebra.GroupWithZero.Nat
import Mathlib.Algebra.Order.BigOperators.Group.Finset

namespace MuMuduo
namespace Foundation

variable {κ α : Type*} [DecidableEq κ] {queues : κ → List α} {k : κ} {a : α} {rest : List α}

/-- `a` is put at the end of queue `k`. -/
def push (queues : κ → List α) (k : κ) (a : α) : κ → List α :=
  Function.update queues k (queues k ++ [a])

/-- What stands in the queues after one more has been put in. -/
theorem mem_push {k' : κ} {b : α} : b ∈ push queues k a k' ↔ b ∈ queues k' ∨ k' = k ∧ b = a := by
  rw [push, Function.update_apply]
  split_ifs with hk
  · rw [hk, List.mem_append, List.mem_singleton]
    exact or_congr_right (and_iff_right rfl).symm
  · exact (or_iff_left fun h => hk h.1).symm

section Count

variable [DecidableEq α]

/-- How often, after one more has been put in. -/
theorem count_push (queues : κ → List α) (k : κ) (a : α) (k' : κ) (b : α) :
    (push queues k a k').count b = (queues k').count b + if k' = k ∧ a = b then 1 else 0 := by
  rw [push, Function.update_apply]
  by_cases hk : k' = k
  · rw [if_pos hk, hk, List.count_append, List.count_singleton]
    simp
  · rw [if_neg hk, if_neg fun h => hk h.1, Nat.add_zero]

/-- How often, before the first of a queue has been taken out. -/
theorem count_pop (hq : queues k = a :: rest) (k' : κ) (b : α) : (queues k').count b =
    (Function.update queues k rest k').count b + if k' = k ∧ a = b then 1 else 0 := by
  rw [Function.update_apply]
  by_cases hk : k' = k
  · rw [if_pos hk, hk, hq, List.count_cons]
    simp
  · rw [if_neg hk, if_neg fun h => hk h.1, Nat.add_zero]

end Count

section Weight

variable [Fintype κ] (weight : α → ℕ)

/-- The weight of everything in the queues. -/
def totalWeight (queues : κ → List α) : ℕ := ∑ k, ((queues k).map weight).sum

/-- A change of one queue, in the total. -/
theorem totalWeight_update (queues : κ → List α) (k : κ) (q : List α) :
    totalWeight weight (Function.update queues k q) + ((queues k).map weight).sum =
      totalWeight weight queues + (q.map weight).sum := by
  have hup (k' : κ) : ((Function.update queues k q k').map weight).sum =
      Function.update (fun k' => ((queues k').map weight).sum) k (q.map weight).sum k' :=
    Function.apply_update (fun _ q => (q.map weight).sum) queues k q k'
  have hsplit := Finset.add_sum_erase Finset.univ (fun k' => ((queues k').map weight).sum)
    (Finset.mem_univ k)
  rw [totalWeight, totalWeight, Finset.sum_congr rfl fun k' _ => hup k',
    Finset.sum_update_of_mem (Finset.mem_univ k), Finset.sdiff_singleton_eq_erase, ← hsplit]
  omega

/-- What is put in adds its weight. -/
theorem totalWeight_push (queues : κ → List α) (k : κ) (a : α) :
    totalWeight weight (push queues k a) = totalWeight weight queues + weight a := by
  have h := totalWeight_update weight queues k (queues k ++ [a])
  rw [List.map_append, List.sum_append, List.map_singleton, List.sum_singleton] at h
  exact Nat.add_right_cancel (h.trans (by omega))

/-- What is taken out takes its weight away. -/
theorem totalWeight_pop (hq : queues k = a :: rest) :
    totalWeight weight queues = totalWeight weight (Function.update queues k rest) + weight a := by
  have h := totalWeight_update weight queues k rest
  rw [hq, List.map_cons, List.sum_cons] at h
  omega

omit [DecidableEq κ] in
/-- Where everything has a weight, nothing weighs nothing. -/
theorem totalWeight_eq_zero_iff {weight : α → ℕ} (hpos : ∀ a, 0 < weight a) :
    totalWeight weight queues = 0 ↔ ∀ k, queues k = [] := by
  rw [totalWeight, Finset.sum_eq_zero_iff]
  refine ⟨fun h k => ?_, fun h k _ => by rw [h k]; rfl⟩
  cases hq : queues k with
  | nil => rfl
  | cons a rest =>
      have hk := h k (Finset.mem_univ k)
      rw [hq, List.map_cons, List.sum_cons] at hk
      have := hpos a
      omega

end Weight

end Foundation
end MuMuduo
