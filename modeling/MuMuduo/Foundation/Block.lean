/-
# A block of memory and the loops that move bytes in it

A block is the list of its cells.  `load`, `copyIn` and `copyWithin` are the
loops of a string constructor and of `std::copy`: they touch one cell after the
other, in increasing order, and the result is `none` as soon as a read or a
write falls outside the block.  `copyWithin` reads from the block it writes to,
so that a cell may already have been overwritten when it is read.

Each loop has one equation: with all its positions inside the block it is a
`take`/`drop` expression (`load_eq`, `copyIn_eq`, `copyWithin_eq`), the last one
for a copy to a lower or equal address, where the loop reads every cell before
it overwrites it.  `of_load` and `copyIn_eq_none` are the converse for a load and a
copy that end outside.
-/

import Mathlib.Data.List.Basic
import Mathlib.Tactic.Common

namespace MuMuduo
namespace Foundation

variable {α : Type*}

/-- Write `b` to cell `i`. -/
def store (m : List α) (i : ℕ) (b : α) : Option (List α) :=
  if i < m.length then some (m.set i b) else none

/-- The `n` cells from `i` on, read one by one. -/
def load (m : List α) (i : ℕ) : ℕ → Option (List α)
  | 0 => some []
  | n + 1 => m[i]?.bind fun b => (load m (i + 1) n).map (b :: ·)

/-- Copy the cells `bs`, which lie outside the block, to `dst`, `dst + 1`, …. -/
def copyIn (m : List α) (dst : ℕ) : List α → Option (List α)
  | [] => some m
  | b :: bs => (store m dst b).bind fun m' => copyIn m' (dst + 1) bs

/-- Copy `n` cells of the block from `src` to `dst`, in increasing order. -/
def copyWithin (m : List α) (src dst : ℕ) : ℕ → Option (List α)
  | 0 => some m
  | n + 1 => m[src]?.bind fun b =>
      (store m dst b).bind fun m' => copyWithin m' (src + 1) (dst + 1) n

/-- The block cut down or filled up with `z` to `n` cells. -/
def resize (z : α) (m : List α) (n : ℕ) : List α :=
  m.take n ++ List.replicate (n - m.length) z

/-- A store inside the block. -/
theorem store_eq {m : List α} {i : ℕ} (b : α) (h : i < m.length) :
    store m i b = some (m.set i b) := if_pos h

@[simp] theorem length_resize (z : α) (m : List α) (n : ℕ) : (resize z m n).length = n := by
  simp [resize]; omega

/-- A block that grows is filled up at its end. -/
theorem resize_eq_append (z : α) {m : List α} {n : ℕ} (h : m.length ≤ n) :
    resize z m n = m ++ List.replicate (n - m.length) z := by
  rw [resize, List.take_of_length_le h]

/-- A load inside the block. -/
theorem load_eq {m : List α} {i n : ℕ} (h : i + n ≤ m.length) :
    load m i n = some ((m.drop i).take n) := by
  induction n generalizing i with
  | zero => simp [load]
  | succ n ih =>
      have hi : i < m.length := by omega
      rw [load, List.getElem?_eq_getElem hi, Option.bind_some, ih (by omega), Option.map_some,
        List.drop_eq_getElem_cons hi, List.take_succ_cons]

/-- A load succeeds inside the block only. -/
theorem of_load {m : List α} {i n : ℕ} {bs : List α} (h : load m i n = some bs) :
    bs.length = n ∧ (n = 0 ∨ i + n ≤ m.length) := by
  induction n generalizing i bs with
  | zero =>
      obtain rfl := Option.some.inj h
      exact ⟨rfl, .inl rfl⟩
  | succ n ih =>
      obtain ⟨b, hb, h⟩ := Option.bind_eq_some_iff.1 h
      obtain ⟨cs, hcs, rfl⟩ := Option.map_eq_some_iff.1 h
      obtain ⟨hi, -⟩ := List.getElem?_eq_some_iff.1 hb
      obtain ⟨hlen, hin⟩ := ih hcs
      exact ⟨by rw [List.length_cons, hlen], .inr (by omega)⟩

/-- The cells up to the one just written. -/
theorem take_succ_set {m : List α} {i : ℕ} (b : α) (h : i < m.length) :
    (m.set i b).take (i + 1) = m.take i ++ [b] := by
  rw [List.take_add_one, List.take_set_of_le (Nat.le_refl i), List.getElem?_set_self h,
    Option.toList_some]

/-- A copy into the block. -/
theorem copyIn_eq {m : List α} {dst : ℕ} {bs : List α} (h : dst + bs.length ≤ m.length) :
    copyIn m dst bs = some (m.take dst ++ bs ++ m.drop (dst + bs.length)) := by
  induction bs generalizing m dst with
  | nil => simp [copyIn]
  | cons b bs ih =>
      rw [List.length_cons] at h
      have hd : dst < m.length := by omega
      rw [copyIn, store_eq b hd, Option.bind_some, ih (by rw [List.length_set]; omega),
        List.drop_set_of_lt (by omega), List.length_cons, take_succ_set b hd]
      simp [Nat.add_assoc, Nat.add_comm 1]

/-- A copy that would run past the end of the block. -/
theorem copyIn_eq_none {m : List α} {dst : ℕ} {bs : List α} (hne : bs ≠ [])
    (h : m.length < dst + bs.length) : copyIn m dst bs = none := by
  induction bs generalizing m dst with
  | nil => exact absurd rfl hne
  | cons b bs ih =>
      rw [List.length_cons] at h
      by_cases hd : dst < m.length
      · have hbs : bs ≠ [] := by
          rintro rfl
          simp at h
          omega
        rw [copyIn, store_eq b hd, Option.bind_some]
        exact ih hbs (by rw [List.length_set]; omega)
      · rw [copyIn, store, if_neg hd, Option.bind_none]

/-- **A copy to a lower address keeps the copied bytes**, however the two ranges
overlap: the loop has read cell `src + i` before it writes to it. -/
theorem copyWithin_eq {m : List α} {src dst n : ℕ} (hle : dst ≤ src) (h : src + n ≤ m.length) :
    copyWithin m src dst n =
      some (m.take dst ++ (m.drop src).take n ++ m.drop (dst + n)) := by
  induction n generalizing m src dst with
  | zero => simp [copyWithin]
  | succ n ih =>
      have hs : src < m.length := by omega
      have hd : dst < m.length := by omega
      rw [copyWithin, List.getElem?_eq_getElem hs, Option.bind_some, store_eq _ hd,
        Option.bind_some, ih (by omega) (by rw [List.length_set]; omega)]
      rw [take_succ_set _ hd, List.drop_set_of_lt (by omega), List.drop_set_of_lt (by omega),
        List.drop_eq_getElem_cons hs, List.take_succ_cons]
      simp [Nat.add_assoc, Nat.add_comm 1]

/-- A copy succeeds inside the block only, and keeps its length. -/
theorem length_of_copyIn {m m' : List α} {dst : ℕ} {bs : List α}
    (h : copyIn m dst bs = some m') :
    m'.length = m.length ∧ (bs = [] ∨ dst + bs.length ≤ m.length) := by
  by_cases hbs : bs = []
  · subst hbs
    obtain rfl := Option.some.inj h
    exact ⟨rfl, .inl rfl⟩
  · by_cases hle : dst + bs.length ≤ m.length
    · rw [copyIn_eq hle, Option.some.injEq] at h
      refine ⟨?_, .inr hle⟩
      rw [← h]
      simp only [List.length_append, List.length_take, List.length_drop]
      omega
    · rw [copyIn_eq_none hbs (by omega)] at h
      cases h

/-- A copy inside the block keeps its length. -/
theorem length_of_copyWithin {m m' : List α} {src dst n : ℕ}
    (h : copyWithin m src dst n = some m') : m'.length = m.length := by
  induction n generalizing m src dst with
  | zero =>
      obtain rfl := Option.some.inj h
      rfl
  | succ n ih =>
      simp only [copyWithin, store, Option.bind_eq_some_iff, Option.ite_none_right_eq_some,
        Option.some.injEq] at h
      obtain ⟨b, -, m₁, ⟨-, rfl⟩, h⟩ := h
      rw [ih h, List.length_set]

end Foundation
end MuMuduo
