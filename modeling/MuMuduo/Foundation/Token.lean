/-
# A token that is handed on

Something that exists at most once, wherever it is: counted over all places, one
place holds at most one and every other none.  A step that drops what some places
hold, or hands one on from a place to another, keeps it so; and where the token
is used up it is gone everywhere.
-/

import Mathlib.Tactic.Common

namespace MuMuduo
namespace Foundation

variable {ι : Type*}

/-- At most one token in all places together. -/
def AtMostOne (n : ι → ℕ) : Prop := ∃ p, n p ≤ 1 ∧ ∀ q, q ≠ p → n q = 0

/-- Tokens are dropped, or one of them is handed on. -/
inductive Passes (n n' : ι → ℕ) : Prop
  | drop (h : ∀ p, n' p ≤ n p)
  | hand (p q : ι) (hp : n' p + 1 ≤ n p) (hq : n' q ≤ n q + 1)
      (h : ∀ r, r ≠ p → r ≠ q → n' r ≤ n r)

/-- What one place loses another gains, and that is at most one token. -/
theorem passes_of_moved {n n' : ι → ℕ} {p q : ι} {k : ℕ} (hk : k ≤ 1) (hp : n p = n' p + k)
    (hq : n' q ≤ n q + k) (h : ∀ r, r ≠ p → r ≠ q → n' r ≤ n r) : Passes n n' := by
  rcases Nat.le_one_iff_eq_zero_or_eq_one.1 hk with rfl | rfl
  · refine .drop fun r => ?_
    by_cases hrp : r = p
    · subst hrp
      omega
    · by_cases hrq : r = q
      · subst hrq
        omega
      · exact h r hrp hrq
  · exact .hand p q (by omega) hq h

/-- Whoever holds a token holds the only one. -/
theorem AtMostOne.eq_zero {n : ι → ℕ} (hn : AtMostOne n) {p : ι} (hp : 0 < n p) :
    n p = 1 ∧ ∀ q, q ≠ p → n q = 0 := by
  obtain ⟨r, hr, h⟩ := hn
  by_cases hpr : p = r
  · subst hpr
    exact ⟨by omega, h⟩
  · have := h p hpr
    omega

/-- A token that is passed on stays the only one. -/
theorem AtMostOne.passes {n n' : ι → ℕ} (hn : AtMostOne n) (hpass : Passes n n') :
    AtMostOne n' := by
  rcases hpass with h | ⟨p, q, hp, hq, h⟩
  · obtain ⟨r, hr, hz⟩ := hn
    refine ⟨r, Nat.le_trans (h r) hr, fun q hq => ?_⟩
    have h₁ := h q
    have h₂ := hz q hq
    omega
  · -- the token was at `p`, so it is the only one, and now it is at `q`
    obtain ⟨h1, hz⟩ := hn.eq_zero (show 0 < n p by omega)
    by_cases hpq : q = p
    · subst hpq
      refine ⟨q, by omega, fun r hr => ?_⟩
      have h₁ := h r hr hr
      have h₂ := hz r hr
      omega
    · have hzq := hz q hpq
      refine ⟨q, by omega, fun r hr => ?_⟩
      by_cases hrp : r = p
      · subst hrp
        omega
      · have h₁ := h r hrp hr
        have h₂ := hz r hrp
        omega

/-- Where there is no token, none appears. -/
theorem Passes.eq_zero {n n' : ι → ℕ} (hpass : Passes n n') (hn : ∀ p, n p = 0) (p : ι) :
    n' p = 0 := by
  rcases hpass with h | ⟨q, r, hq, -, -⟩
  · have h₁ := h p
    have h₂ := hn p
    omega
  · have := hn q
    omega

/-- A bound on what has been used and what is held goes with the token, -/
theorem AtMostOne.add_le_of_passes {n n' : ι → ℕ} (hn : AtMostOne n) (hpass : Passes n n')
    {k m : ℕ} (hle : ∀ p, k + n p ≤ m) (p : ι) : k + n' p ≤ m := by
  have h₁ : n' p ≤ 1 := by
    by_cases hp : 0 < n' p
    · exact Nat.le_of_eq ((hn.passes hpass).eq_zero hp).1
    · omega
  rcases hpass with h | ⟨q, r, hq, hr, h⟩
  · have h₂ := h p
    have h₃ := hle p
    omega
  · have := hle q
    omega

/-- A token that is used up is gone. -/
theorem AtMostOne.used {n n' : ι → ℕ} (hn : AtMostOne n) (h : ∀ p, n' p ≤ n p) {p : ι}
    (hp : n' p + 1 ≤ n p) (q : ι) : n' q = 0 := by
  obtain ⟨h1, hz⟩ := hn.eq_zero (show 0 < n p by omega)
  by_cases hqp : q = p
  · subst hqp
    omega
  · have h₁ := h q
    have h₂ := hz q hqp
    omega

/-- and where the token is used up it has been counted. -/
theorem AtMostOne.add_le_of_used {n n' : ι → ℕ} (hn : AtMostOne n) (h : ∀ p, n' p ≤ n p) {p : ι}
    (hp : n' p + 1 ≤ n p) {k m : ℕ} (hle : ∀ p, k + n p ≤ m) (q : ι) : k + 1 + n' q ≤ m := by
  have h₁ := hn.used h hp q
  have h₂ := hle p
  omega

end Foundation
end MuMuduo
