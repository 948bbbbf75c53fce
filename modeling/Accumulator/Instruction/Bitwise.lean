/-!
# Bitwise operations on the accumulator

Logic, shifts and rotations of a 16-bit word. The amount of a shift or rotation is a whole word: a
logical shift by 16 or more clears the accumulator, a rotation takes its amount modulo 16.
-/

namespace Accumulator

/-- An operation of the bitwise family. -/
inductive BitwiseOp where
  | and
  | or
  | xor
  /-- Logical shift left. -/
  | lsl
  /-- Logical shift right. -/
  | lsr
  /-- Rotate left. -/
  | rol
  /-- Rotate right. -/
  | ror
deriving DecidableEq, Repr

namespace BitwiseOp

/-- The accumulator after the operation with `value`. -/
def apply (op : BitwiseOp) (acc value : UInt16) : UInt16 :=
  match op with
  | .and => acc &&& value
  | .or => acc ||| value
  | .xor => acc ^^^ value
  | .lsl => if value < 16 then acc <<< value else 0
  | .lsr => if value < 16 then acc >>> value else 0
  | .rol => ⟨acc.toBitVec.rotateLeft value.toNat⟩
  | .ror => ⟨acc.toBitVec.rotateRight value.toNat⟩

/-- The name of the operation in an instruction's text. -/
def text : BitwiseOp → String
  | .and => "And"
  | .or => "Or"
  | .xor => "Xor"
  | .lsl => "Lsl"
  | .lsr => "Lsr"
  | .rol => "Rol"
  | .ror => "Ror"

end BitwiseOp
end Accumulator
