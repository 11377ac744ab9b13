/-
# Taking turns

Entries of a queue are served from the front, at most `max` at a time, and a served entry goes
to the end of the queue.  An entry with nothing to report is passed over and dropped.

What matters about such a queue is how far an entry stands from its front.  A round
that does not reach `x` has served `max` others, all of them in front of `x`, and has
put them behind it (`idxOf_rotate_add_le`), so `x` comes closer by `max` each time.

Items that are dealt to places in turn fall to each of them in equal numbers, up to one
(`Dealt.count_eq`).
-/

import Mathlib.Data.Int.CardIntervalMod
import Mathlib.Data.List.Basic
import Mathlib.Tactic.Common

namespace MuMuduo
namespace Foundation

variable {α : Type*}

/-- One round: the entries that are served, and the queue in front of which they
stood. -/
def serve (keep : α → Bool) : ℕ → List α → List α × List α
  | 0, q => ([], q)
  | _ + 1, [] => ([], [])
  | max + 1, a :: q =>
      if keep a then (a :: (serve keep max q).1, (serve keep max q).2)
      else serve keep (max + 1) q

/-- The queue after the round. -/
def rotate (keep : α → Bool) (max : ℕ) (q : List α) : List α :=
  (serve keep max q).2 ++ (serve keep max q).1

variable {keep : α → Bool}

/-- Served entries and the ones left stand in the queue in this order. -/
theorem serve_sublist (max : ℕ) (q : List α) :
    ((serve keep max q).1 ++ (serve keep max q).2).Sublist q := by
  induction q generalizing max with
  | nil => cases max <;> exact List.Sublist.refl _
  | cons a q ih =>
      cases max with
      | zero => exact List.Sublist.refl _
      | succ max =>
          rw [serve]
          split_ifs
          · exact (ih max).cons_cons a
          · exact (ih (max + 1)).cons a

/-- No more are served than asked for. -/
theorem length_serve_le (max : ℕ) (q : List α) : (serve keep max q).1.length ≤ max := by
  induction q generalizing max with
  | nil => cases max <;> exact Nat.zero_le _
  | cons a q ih =>
      cases max with
      | zero => exact Nat.zero_le _
      | succ max =>
          rw [serve]
          split_ifs
          · exact Nat.succ_le_succ (ih max)
          · exact ih (max + 1)

/-- Only those that are to be kept are served. -/
theorem keep_of_mem_serve {max : ℕ} {q : List α} {a : α} (ha : a ∈ (serve keep max q).1) :
    keep a = true := by
  induction q generalizing max with
  | nil => cases max <;> cases ha
  | cons b q ih =>
      cases max with
      | zero => cases ha
      | succ max =>
          rw [serve] at ha
          split_ifs at ha with hb
          · rcases List.mem_cons.1 ha with rfl | ha
            · exact hb
            · exact ih ha
          · exact ih ha

/-- No one is entered twice. -/
theorem nodup_rotate {max : ℕ} {q : List α} (hq : q.Nodup) : (rotate keep max q).Nodup :=
  List.perm_append_comm.nodup_iff.1 ((serve_sublist max q).nodup hq)

/-- **A round that does not reach `x`.**  It has served as many as it may, and each
of them stood in front of `x`. -/
theorem serve_not_mem [DecidableEq α] {x : α} (hx : keep x = true) {max : ℕ} {q : List α}
    (hq : x ∈ q) (hs : x ∉ (serve keep max q).1) :
    (serve keep max q).1.length = max ∧ x ∈ (serve keep max q).2 ∧
      (serve keep max q).2.idxOf x + max ≤ q.idxOf x := by
  induction q generalizing max with
  | nil => cases hq
  | cons a q ih =>
      cases max with
      | zero => exact ⟨rfl, hq, Nat.le_refl _⟩
      | succ max =>
          have hne : a ≠ x := by
            rintro rfl
            rw [serve, if_pos hx] at hs
            exact hs List.mem_cons_self
          have hmem : x ∈ q := (List.mem_cons.1 hq).resolve_left hne.symm
          rw [List.idxOf_cons_ne _ hne]
          rw [serve] at hs ⊢
          split_ifs at hs ⊢
          · obtain ⟨hlen, hin, hle⟩ := ih hmem fun h => hs (List.mem_cons_of_mem a h)
            exact ⟨congrArg Nat.succ hlen, hin, Nat.succ_le_succ hle⟩
          · obtain ⟨hlen, hin, hle⟩ := ih hmem hs
            exact ⟨hlen, hin, Nat.le_succ_of_le hle⟩

/-- **`x` comes closer** by the length of the round. -/
theorem idxOf_rotate_add_le [DecidableEq α] {x : α} (hx : keep x = true) {max : ℕ} {q : List α}
    (hq : x ∈ q) (hs : x ∉ (serve keep max q).1) :
    x ∈ rotate keep max q ∧ (rotate keep max q).idxOf x + max ≤ q.idxOf x := by
  obtain ⟨-, hin, hle⟩ := serve_not_mem hx hq hs
  refine ⟨List.mem_append_left _ hin, ?_⟩
  rw [rotate, List.idxOf_append_of_mem hin]
  exact hle

/-- Who leaves the queue brings nobody further from the front. -/
theorem idxOf_filter_le [DecidableEq α] {x : α} {p : α → Bool} (hx : p x = true) {q : List α}
    (hq : x ∈ q) : (q.filter p).idxOf x ≤ q.idxOf x := by
  induction q with
  | nil => cases hq
  | cons a q ih =>
      by_cases hax : a = x
      · subst hax
        rw [List.filter_cons_of_pos hx, List.idxOf_cons_self]
        exact Nat.zero_le _
      · have h := ih ((List.mem_cons.1 hq).resolve_left (Ne.symm hax))
        rw [List.idxOf_cons_ne _ hax, List.filter_cons]
        split_ifs
        · rw [List.idxOf_cons_ne _ hax]
          exact Nat.succ_le_succ h
        · exact Nat.le_succ_of_le h

/-! ### Dealing in turn -/

/-- The items stand for the places they are dealt to, one after the other and then from
the first place again. -/
def Dealt (places items : List α) : Prop :=
  ∀ i a, items[i]? = some a → places[i % places.length]? = some a

/-- **Each place gets its share**, the first ones one more where it does not come out
even. -/
theorem Dealt.count_eq [DecidableEq α] {places items : List α} (h : Dealt places items)
    (hn : places.Nodup) {a : α} (ha : a ∈ places) :
    items.count a =
      items.length / places.length +
        if places.idxOf a < items.length % places.length then 1 else 0 := by
  have hpos : 0 < places.length := List.length_pos_of_mem ha
  have hidx : places.idxOf a < places.length := List.idxOf_lt_length_of_mem ha
  have hcount : items.count a =
      Nat.count (· ≡ places.idxOf a [MOD places.length]) items.length := by
    induction items using List.reverseRecOn with
    | nil => rfl
    | append_singleton items b ih =>
        have hinit : Dealt places items := fun i c hi =>
          h i c ((List.getElem?_append_left (List.getElem?_eq_some_iff.1 hi).1).trans hi)
        have hb := h items.length b (by simp)
        have hiff : b = a ↔ items.length ≡ places.idxOf a [MOD places.length] := by
          rw [Nat.ModEq, Nat.mod_eq_of_lt hidx]
          constructor
          · rintro rfl
            obtain ⟨hlt, hb⟩ := List.getElem?_eq_some_iff.1 hb
            rw [← hb, hn.idxOf_getElem]
          · intro hmod
            rw [hmod, List.getElem?_eq_getElem hidx, List.getElem_idxOf] at hb
            exact (Option.some.inj hb).symm
        rw [List.count_append, ih hinit, List.count_singleton, List.length_append,
          List.length_singleton, Nat.count_succ]
        simp only [beq_iff_eq, hiff]
  rw [hcount, Nat.count_modEq_card _ hpos, Nat.mod_eq_of_lt hidx]

end Foundation
end MuMuduo
