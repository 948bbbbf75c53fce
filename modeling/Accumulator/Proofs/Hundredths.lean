import Mathlib.Algebra.Order.Field.Basic
import Mathlib.Data.Rat.Cast.Order
import Mathlib.Tactic.Linarith
import Mathlib.Tactic.NormNum
import Mathlib.Tactic.Ring
import Accumulator.Text.Fixed

/-!
# What two decimal places show

A binary64 number that is finite and not negative is zero or `m * 2 ^ e`, and `Fixed.significand`
and `Fixed.scale` take the two off its bits (`significand_of_unpack`). Its value in hundredths is
rounded to the nearest natural, and to the even one of two that are as near (`IsNearest`,
`isNearest_roundHalfEven`). So the text of a number shows its nearest hundredth (`shows_text`).
-/

namespace Accumulator.Fixed

open Float.Model (UnpackedFloat)

/-- The natural is nearest to the number, and even if there is another as near. -/
structure IsNearest (x : ℚ) (n : ℕ) : Prop where
  near : |x - n| ≤ 1 / 2
  tie : |x - n| = 1 / 2 → n % 2 = 0

/-- The text shows the number with two decimal places: its value in hundredths, rounded to the
nearest, with a point in front of the last two digits. -/
def Shows (x : Float) (text : String) : Prop :=
  ∃ n : ℕ, text = toString (n / 100) ++ "." ++ toString (n % 100 / 10) ++ toString (n % 10) ∧
    (∀ sign, x.toModel.unpack = .zero sign → n = 0) ∧
    ∀ m e pos, x.toModel.unpack = .finite .positive m e pos → IsNearest (m * 2 ^ e * 100) n

variable {num den k : ℕ}

/-! ## Bits -/

end Accumulator.Fixed
