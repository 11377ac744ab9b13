/-
# A level and its alarm

A level goes up and down in steps, and some steps raise an alarm.  The log keeps a
`Reading` of every step, the newest first: the level the step has left and the
alarms it has raised.  `Rings mark start` says that the level began at `start` and
that a step raises one alarm, with the level it leaves, when it takes the level from
below `mark` to `mark` or above, and none otherwise.

This is a condition on each step with the one before it.  Seen from the present it is
a law on stretches of the log: as long as the level has stayed at `mark` or above
there has been one alarm, with the level that began the stretch (`Rings.above`), and
as long as it has stayed below there has been none (`Rings.below`).
-/

import Mathlib.Data.List.Basic
import Mathlib.Tactic.Common

namespace MuMuduo
namespace Foundation

/-- What is noted of a step. -/
structure Reading where
  level : ℕ
  alarms : List ℕ

/-- The level a log ends with. -/
def levelOf (start : ℕ) : List Reading → ℕ
  | [] => start
  | e :: _ => e.level

/-- The steps since the level was last below `mark`. -/
def sinceBelow (mark : ℕ) (log : List Reading) : List Reading := log.takeWhile (mark ≤ ·.level)

/-- The steps since the level was last at `mark` or above. -/
def sinceAbove (mark : ℕ) (log : List Reading) : List Reading := log.takeWhile (·.level < mark)

/-- Every step raises an alarm when the level reaches the mark, and only then. -/
def Rings (mark start : ℕ) : List Reading → Prop
  | [] => True
  | e :: log =>
      e.alarms = (if levelOf start log < mark ∧ mark ≤ e.level then [e.level] else []) ∧
        Rings mark start log

variable {mark start : ℕ} {log : List Reading}

/-- Below the mark nothing has been logged since. -/
theorem sinceBelow_eq_nil (h : levelOf start log < mark) : sinceBelow mark log = [] := by
  cases log with
  | nil => rfl
  | cons e log => exact List.takeWhile_cons_of_neg (by simpa [levelOf] using h)

/-- **One alarm since the level was below the mark**, with the level of the step that
reached it. -/
theorem Rings.above (h : Rings mark start log) (hstart : start < mark)
    (hnow : mark ≤ levelOf start log) :
    ∃ e, (sinceBelow mark log).getLast? = some e ∧
      (sinceBelow mark log).flatMap Reading.alarms = [e.level] := by
  induction log with
  | nil => exact absurd hnow (Nat.not_le_of_lt hstart)
  | cons e log ih =>
      obtain ⟨hring, h⟩ := h
      have hcons : sinceBelow mark (e :: log) = e :: sinceBelow mark log :=
        List.takeWhile_cons_of_pos (decide_eq_true hnow)
      rw [hcons, List.flatMap_cons, hring]
      by_cases hbefore : levelOf start log < mark
      · -- the level reaches the mark in this step
        rw [sinceBelow_eq_nil hbefore, if_pos ⟨hbefore, hnow⟩]
        exact ⟨e, rfl, rfl⟩
      · obtain ⟨e', hlast, halarms⟩ := ih h (Nat.le_of_not_lt hbefore)
        rw [if_neg fun hc => hbefore hc.1, List.nil_append, List.getLast?_cons, hlast]
        exact ⟨e', rfl, halarms⟩

/-- **No alarm while the level is below the mark.** -/
theorem Rings.below (h : Rings mark start log) :
    (sinceAbove mark log).flatMap Reading.alarms = [] := by
  induction log with
  | nil => rfl
  | cons e log ih =>
      obtain ⟨hring, h⟩ := h
      by_cases hnow : e.level < mark
      · have hcons : sinceAbove mark (e :: log) = e :: sinceAbove mark log :=
          List.takeWhile_cons_of_pos (decide_eq_true hnow)
        rw [hcons, List.flatMap_cons, hring, if_neg fun hc => by omega, ih h]
        rfl
      · have hnil : sinceAbove mark (e :: log) = [] :=
          List.takeWhile_cons_of_neg (by simpa using hnow)
        rw [hnil]
        rfl

end Foundation
end MuMuduo
