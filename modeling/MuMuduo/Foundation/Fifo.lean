/-
# A queue with its history

What a buffer is for: bytes go in at one end and come out at the other, in the
same order.  `Fifo` keeps the whole history, everything that was appended and
how much of it has been consumed, and its content is the rest.  The consumed
part is never longer than the appended one, which is a field of the structure.

Where a list is looked at item by item, `Leads a b` says that `a` waits in a queue
with no `b` in front, and `Last a` that nothing in a history comes after `a`.
-/

import Mathlib.Data.List.Basic
import Mathlib.Tactic.Common

namespace MuMuduo
namespace Foundation

variable {α : Type*}

/-- Everything appended so far, of which the first `consumed` items are gone. -/
structure Fifo (α : Type*) where
  appended : List α
  consumed : ℕ
  consumed_le : consumed ≤ appended.length

namespace Fifo

/-- The empty queue with an empty history. -/
def empty : Fifo α := ⟨[], 0, Nat.le_refl 0⟩

/-- What has been appended and not yet consumed. -/
def content (q : Fifo α) : List α := q.appended.drop q.consumed

/-- Append `bs`. -/
def push (q : Fifo α) (bs : List α) : Fifo α :=
  ⟨q.appended ++ bs, q.consumed, by have := q.consumed_le; rw [List.length_append]; omega⟩

/-- Consume the first `n` items, or all of them if there are fewer. -/
def pop (q : Fifo α) (n : ℕ) : Fifo α :=
  ⟨q.appended, min (q.consumed + n) q.appended.length, Nat.min_le_right _ _⟩

@[simp] theorem pop_zero (q : Fifo α) : q.pop 0 = q := by
  rw [pop]
  congr 1
  exact Nat.min_eq_left q.consumed_le

/-- Consume everything. -/
def popAll (q : Fifo α) : Fifo α := q.pop q.content.length

@[simp] theorem content_empty : (empty : Fifo α).content = [] := rfl

@[simp] theorem content_push (q : Fifo α) (bs : List α) :
    (q.push bs).content = q.content ++ bs :=
  List.drop_append_of_le_length q.consumed_le

@[simp] theorem content_pop (q : Fifo α) (n : ℕ) : (q.pop n).content = q.content.drop n := by
  rw [content, content, List.drop_drop]
  change q.appended.drop (min (q.consumed + n) q.appended.length) = _
  rcases Nat.le_total (q.consumed + n) q.appended.length with h | h
  · rw [Nat.min_eq_left h]
  · rw [Nat.min_eq_right h, List.drop_length, List.drop_of_length_le h]

@[simp] theorem content_popAll (q : Fifo α) : q.popAll.content = [] := by
  rw [popAll, content_pop, List.drop_length]

end Fifo

/-- `a` waits in the queue, and no `b` in front of it. -/
def Leads (a b : α) (queue : List α) : Prop :=
  ∃ front back, queue = front ++ a :: back ∧ b ∉ front

section Leads

variable {a b x : α} {queue : List α}

/-- What is appended comes behind. -/
theorem Leads.append (h : Leads a b queue) (more : List α) : Leads a b (queue ++ more) := by
  obtain ⟨front, back, rfl, hb⟩ := h
  exact ⟨front, back ++ more, by simp, hb⟩

/-- What is put in last comes behind the rest. -/
theorem leads_concat (hb : b ∉ queue) : Leads a b (queue ++ [a]) := ⟨queue, [], rfl, hb⟩

/-- The first item is `a`, or it is no `b` and `a` goes on waiting. -/
theorem Leads.of_cons (h : Leads a b (x :: queue)) : x = a ∨ x ≠ b ∧ Leads a b queue := by
  obtain ⟨front, back, hq, hb⟩ := h
  cases front with
  | nil => exact .inl (List.cons.inj hq).1
  | cons y front =>
      obtain ⟨rfl, rfl⟩ := List.cons.inj hq
      rw [List.mem_cons, not_or] at hb
      exact .inr ⟨Ne.symm hb.1, front, back, rfl, hb.2⟩

end Leads

/-- Nothing comes after `a`. -/
def Last (a : α) (history : List α) : Prop :=
  ∀ before after, history = before ++ a :: after → after = []

section Last

variable {a : α} {history : List α}

/-- What has not happened has nothing after it. -/
theorem last_of_notMem (ha : a ∉ history) : Last a history := by
  rintro before after rfl
  exact absurd (List.mem_append_right _ List.mem_cons_self) ha

/-- Nor does it if one more has happened. -/
theorem last_concat (ha : a ∉ history) (x : α) : Last a (history ++ [x]) := by
  intro before after hsplit
  rcases List.eq_nil_or_concat after with rfl | ⟨middle, y, rfl⟩
  · rfl
  · -- then `a` would have been there before `x`
    rw [List.concat_eq_append, ← List.cons_append, ← List.append_assoc] at hsplit
    obtain ⟨rfl, -⟩ := List.append_inj' hsplit rfl
    exact absurd (List.mem_append_right _ List.mem_cons_self) ha

/-- What comes last comes once. -/
theorem Last.count_le [DecidableEq α] (h : Last a history) : history.count a ≤ 1 := by
  by_cases ha : a ∈ history
  · obtain ⟨before, after, hsplit⟩ := List.append_of_mem ha
    obtain rfl := h before after hsplit
    have hbefore : a ∉ before := by
      intro hmem
      obtain ⟨front, back, rfl⟩ := List.append_of_mem hmem
      have := h front (back ++ [a]) (by rw [hsplit, List.append_assoc]; rfl)
      simp at this
    rw [hsplit, List.count_append, List.count_eq_zero_of_not_mem hbefore]
    simp
  · rw [List.count_eq_zero_of_not_mem ha]
    exact Nat.zero_le 1

end Last

end Foundation
end MuMuduo
