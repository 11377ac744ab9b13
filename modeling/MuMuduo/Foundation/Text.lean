/-
# Numbers written out, and buffers that cut off

A string is the list of its characters.  `decimal` is the text of a natural
number without leading zeros, `decimalInt` that of a signed one, as `%u` and `%d`
write them, and `snprintf` keeps what fits into a buffer in front of the
terminating zero.  Two numbers have different texts (`decimal_injective`), and a
number below `10 ^ k` takes at most `k` characters (`length_decimal_le`).
-/

import Mathlib.Algebra.Group.Nat.Defs
import Mathlib.Data.Int.Notation
import Mathlib.Logic.Function.Basic
import Mathlib.Tactic.Common

namespace MuMuduo
namespace Foundation

/-- `%u`. -/
def decimal (n : ℕ) : List Char := Nat.toDigits 10 n

/-- `%d`. -/
def decimalInt (n : ℤ) : List Char := if n < 0 then '-' :: decimal n.natAbs else decimal n.toNat

/-- What `snprintf` leaves of `text` in a buffer of `size` characters. -/
def snprintf (size : ℕ) (text : List Char) : List Char := text.take (size - 1)

/-- Different numbers have different numerals. -/
theorem decimal_injective : Function.Injective decimal := by
  intro m n h
  have hval := congrArg (fun ds => Nat.ofDigitChars 10 ds 0) h
  simpa only [decimal, Nat.ofDigitChars_ten_toDigits] using hval

/-- A number below `10 ^ k` has a numeral of at most `k` digits. -/
theorem length_decimal_le {n k : ℕ} (hk : 0 < k) (h : n < 10 ^ k) : (decimal n).length ≤ k :=
  (Nat.length_toDigits_le_iff (by decide) hk).2 h

@[simp] theorem decimalInt_natCast (n : ℕ) : decimalInt n = decimal n := by
  rw [decimalInt, if_neg (Int.not_lt.2 (Int.natCast_nonneg n)), Int.toNat_natCast]

/-- A text that fits is written whole. -/
theorem snprintf_eq {size : ℕ} {text : List Char} (h : text.length < size) :
    snprintf size text = text :=
  List.take_of_length_le (by omega)

end Foundation
end MuMuduo
