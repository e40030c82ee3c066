import Aimw.Lib.JsonText
import Mathlib.Algebra.Order.Floor.Ring
import Mathlib.Data.Rat.Floor

/-!
# Doubles and their texts

The double nearest to a number, and the number that a float's text names.  Doubles are exact rational numbers here.
-/

namespace Aimw.Lib

/-- A number rounded to an integer, a half to the even one. -/
def roundHalfEven (q : ℚ) : ℤ :=
  let n := ⌊q⌋
  if q - n < 1 / 2 then n else if 1 / 2 < q - n then n + 1 else if n % 2 = 0 then n else n + 1

/-- `b ^ e`, for exponents of both signs. -/
def scale (b : ℕ) (e : ℤ) : ℚ := if 0 ≤ e then (b ^ e.toNat : ℕ) else 1 / (b ^ (-e).toNat : ℕ)

/-- The exponent of the leading binary digit. -/
def leading (q : ℚ) : ℤ :=
  let e : ℤ := Nat.log2 q.num.natAbs - Nat.log2 q.den
  if scale 2 e ≤ |q| then e else e - 1

/-- The double nearest to a number: 53 binary digits, and none below `2 ^ (-1074)`. -/
def nearestDouble (q : ℚ) : ℚ :=
  let ulp := scale 2 (max (leading q - 52) (-1074))
  roundHalfEven (q / ulp) * ulp

/-! ## Texts -/

/-- The exponent after the `e`. -/
def readExponent : List Char → ℤ
  | '-' :: ds => -(Nat.ofDigitChars 10 ds 0 : ℕ)
  | '+' :: ds => (Nat.ofDigitChars 10 ds 0 : ℕ)
  | ds => (Nat.ofDigitChars 10 ds 0 : ℕ)

/-- The number of an unsigned decimal text, with a point or an exponent or both. -/
def readDecimal (s : List Char) : ℚ :=
  let mantissa := s.takeWhile (· ≠ 'e')
  let fraction := (mantissa.dropWhile (· ≠ '.')).length - 1
  Nat.ofDigitChars 10 (mantissa.filter Char.isDigit) 0 * scale 10 (readExponent (s.drop (mantissa.length + 1)) - fraction)

/-- The double that the text of a finite float stands for. -/
def FloatLit.value (x : FloatLit) : ℚ :=
  match x.text with
  | '-' :: s => -nearestDouble (readDecimal s)
  | s => nearestDouble (readDecimal s)

-- the text names `10 ^ 23`, which is no double
example : FloatLit.value ⟨['1', 'e', '+', '2', '3'], rfl⟩ = 99999999999999991611392 := by decide +kernel

example : FloatLit.value ⟨['-', '2', '.', '5'], rfl⟩ = -5 / 2 := by decide +kernel

end Aimw.Lib
