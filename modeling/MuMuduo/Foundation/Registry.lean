/-
# A map keyed by the names of its items

Items are numbered in the order in which they are made, item `i` is called
`name i`, and a map holds items under their names.  `Registry` says that the map is
exactly the set of the items made and not removed: each of them stands under its
own name, and nothing else does.  With different names a new item finds its key
free (`Registry.fresh`, `Registry.insert`), and erasing the name of an item takes
out that item or nothing, also if it has been removed before (`Registry.own`,
`Registry.erase`).
-/

import Mathlib.Data.Set.Insert
import Mathlib.Logic.Function.Basic

namespace MuMuduo
namespace Foundation

variable {κ : Type*}

/-- The map holds the items below `n` that are not in `removed`, under their
names. -/
structure Registry (name : ℕ → κ) (n : ℕ) (removed : Set ℕ) (map : κ → Option ℕ) : Prop where
  key_eq : ∀ key i, map key = some i → key = name i
  mem_iff : ∀ i, map (name i) = some i ↔ i < n ∧ i ∉ removed

namespace Registry

variable {name : ℕ → κ} {n : ℕ} {removed : Set ℕ} {map : κ → Option ℕ}

/-- A registry in which nothing has been entered. -/
theorem empty (name : ℕ → κ) : Registry name 0 ∅ fun _ => none where
  key_eq key i h := by cases h
  mem_iff i := iff_of_false (by simp) fun h => Nat.not_lt_zero i h.1

/-- Whatever stands in the map stands under its own name and has not been removed. -/
theorem of_mem (h : Registry name n removed map) {key : κ} {i : ℕ} (hk : map key = some i) :
    key = name i ∧ i < n ∧ i ∉ removed := by
  obtain rfl := h.key_eq key i hk
  exact ⟨rfl, (h.mem_iff i).1 hk⟩

/-- The numbers in the map are those given out and not removed. -/
theorem exists_iff (h : Registry name n removed map) (i : ℕ) :
    (∃ key, map key = some i) ↔ i < n ∧ i ∉ removed :=
  ⟨fun ⟨_, hk⟩ => (h.of_mem hk).2, fun hi => ⟨name i, (h.mem_iff i).2 hi⟩⟩

/-- Under the name of an item stands that item or nothing. -/
theorem own (h : Registry name n removed map) (hname : Function.Injective name) {i j : ℕ}
    (hj : map (name i) = some j) : j = i :=
  (hname (h.key_eq _ _ hj)).symm

/-- The name of the next item is free. -/
theorem fresh (h : Registry name n removed map) (hname : Function.Injective name) :
    map (name n) = none := by
  by_contra hne
  obtain ⟨j, hj⟩ := Option.ne_none_iff_exists'.1 hne
  obtain rfl := h.own hname hj
  exact Nat.lt_irrefl _ (h.of_mem hj).2.1

variable [DecidableEq κ]

/-- **A new entry**, under the next number. -/
theorem insert (h : Registry name n removed map) (hname : Function.Injective name)
    (hlt : ∀ i ∈ removed, i < n) :
    Registry name (n + 1) removed (Function.update map (name n) (some n)) := by
  constructor
  · intro key i hi
    by_cases hk : key = name n
    · subst hk
      rw [Function.update_self, Option.some.injEq] at hi
      rw [hi]
    · rw [Function.update_of_ne hk] at hi
      exact h.key_eq key i hi
  · intro i
    by_cases hin : i = n
    · subst hin
      rw [Function.update_self]
      exact iff_of_true rfl ⟨Nat.lt_succ_self i, fun hi => Nat.lt_irrefl i (hlt i hi)⟩
    · rw [Function.update_of_ne fun he => hin (hname he), h.mem_iff]
      refine and_congr_left fun _ => ?_
      omega

/-- **An erasure**, by the name of a number. -/
theorem erase (h : Registry name n removed map) (hname : Function.Injective name) (i : ℕ) :
    Registry name n (Insert.insert i removed) (Function.update map (name i) none) := by
  constructor
  · intro key j hj
    by_cases hk : key = name i
    · rw [hk, Function.update_self] at hj
      cases hj
    · rw [Function.update_of_ne hk] at hj
      exact h.key_eq key j hj
  · intro j
    rw [Set.mem_insert_iff, not_or]
    by_cases hji : j = i
    · rw [hji, Function.update_self]
      exact iff_of_false (by simp) fun hc => hc.2.1 rfl
    · rw [Function.update_of_ne fun he => hji (hname he), h.mem_iff]
      exact and_congr_right fun _ => (and_iff_right hji).symm

end Registry

end Foundation
end MuMuduo
