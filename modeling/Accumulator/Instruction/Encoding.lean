import Accumulator.Instruction

/-!
# Instruction words

An instruction is one 16-bit word:

```text
 15    12 11     8 7              0
+--------+--------+----------------+
| family |  mode  |    operand     |
+--------+--------+----------------+
```

`Instruction.decode?` dispatches on the family nibble and then on the mode nibble. In the bitwise
family the three high bits of the mode pick the operation and the low bit immediate or direct; in
the family of cell updates the low bit picks direct or indirect. `Instruction.encode` puts an
instruction's opcode byte, family and mode together, above its operand. `Instruction.opcodes`
lists the opcode bytes in use.
-/

namespace Accumulator

/-! ## The three fields of a word -/

/-- A word split into its fields: two nibbles and a byte. -/
structure Fields where
  family : Nat
  mode : Nat
  operand : UInt8
deriving DecidableEq, Repr

namespace Fields

/-- The position of the family nibble. -/
def familyShift : UInt16 := 12

/-- The position of the mode nibble. -/
def modeShift : UInt16 := 8

/-- The mask of a nibble. -/
def nibbleMask : UInt16 := 0xF

/-- The mask of the operand byte. -/
def operandMask : UInt16 := 0xFF

/-- The fields of a word. -/
def ofWord (word : UInt16) : Fields where
  family := ((word >>> familyShift) &&& nibbleMask).toNat
  mode := ((word >>> modeShift) &&& nibbleMask).toNat
  operand := (word &&& operandMask).toUInt8

end Fields

/-! ## Decoding -/

/-- The operand of a mode whose low bit is clear for immediate and set for direct. -/
def Operand.ofMode (mode : Nat) (operand : UInt8) : Operand :=
  if mode % 2 = 0 then .immediate operand else .direct operand

/-- The target of a mode whose low bit is clear for direct and set for indirect. -/
def Target.ofMode (mode : Nat) (operand : UInt8) : Target :=
  if mode % 2 = 0 then .direct operand else .indirect operand

/-- The bitwise family: every mode is in use. -/
def Instruction.ofBitwiseMode (mode : Nat) (operand : UInt8) : Instruction :=
  let source := Operand.ofMode mode operand
  match mode / 2 with
  | 0 => .bitwise .and source
  | 1 => .bit source
  | 2 => .bitwise .or source
  | 3 => .bitwise .xor source
  | 4 => .bitwise .lsl source
  | 5 => .bitwise .lsr source
  | 6 => .bitwise .rol source
  | _ => .bitwise .ror source

/-- The family of cell updates, for modes 0 to 5. -/
def Instruction.ofUpdateMode (mode : Nat) (operand : UInt8) : Instruction :=
  let target := Target.ofMode mode operand
  match mode / 2 with
  | 0 => .zero target
  | 1 => .inc target
  | _ => .dec target

/-- The instruction with the given fields, if the family has the mode. -/
def Instruction.ofFields? (f : Fields) : Option Instruction :=
  match f.family, f.mode with
  | 0x0, 0x0 => some .halt
  | 0x1, 0x0 => some (.load (.immediate f.operand))
  | 0x1, 0x1 => some (.load (.direct f.operand))
  | 0x1, 0x2 => some (.store (.direct f.operand))
  | 0x1, 0x3 => some (.store (.indirect f.operand))
  | 0x1, 0x4 => some (.load (.indirect f.operand))
  | 0x2, 0x0 => some (.add (.immediate f.operand))
  | 0x2, 0x1 => some (.add (.direct f.operand))
  | 0x2, 0x4 => some (.sub (.immediate f.operand))
  | 0x2, 0x5 => some (.sub (.direct f.operand))
  | 0x2, 0x6 => some (.cmp (.immediate f.operand))
  | 0x2, 0x7 => some (.cmp (.direct f.operand))
  | 0x3, 0x0 => some (.breq f.operand)
  | 0x3, 0x2 => some (.brne f.operand)
  | 0x4, 0x0 => some (.jump f.operand)
  | 0x5, mode => some (.ofBitwiseMode mode f.operand)
  | 0x6, mode => if mode ≤ 5 then some (.ofUpdateMode mode f.operand) else none
  | 0xF, 0x2 => some (.noop f.operand)
  | _, _ => none

/-- The instruction that a word encodes, if it encodes one. A word whose opcode byte is that of
`halt` decodes whatever its operand. -/
def Instruction.decode? (word : UInt16) : Option Instruction :=
  ofFields? (Fields.ofWord word)

/-! ## Encoding -/

/-- The opcode byte of a form with an immediate and a direct encoding. -/
def Operand.opcode (immediate direct : UInt8) : Operand → UInt8
  | .immediate _ => immediate
  | .direct _ => direct

/-- The opcode byte of a form with a direct and an indirect encoding. -/
def Target.opcode (direct indirect : UInt8) : Target → UInt8
  | .direct _ => direct
  | .indirect _ => indirect

/-- The operand byte. -/
def LoadOperand.byte : LoadOperand → UInt8
  | .immediate b | .direct b | .indirect b => b

/-- The operand byte. -/
def Operand.byte : Operand → UInt8
  | .immediate b | .direct b => b

/-- The operand byte. -/
def Target.byte : Target → UInt8
  | .direct b | .indirect b => b

/-- The high byte of the encoding. -/
def Instruction.opcode : Instruction → UInt8
  | .halt => 0x00
  | .load (.immediate _) => 0x10
  | .load (.direct _) => 0x11
  | .store t => t.opcode 0x12 0x13
  | .load (.indirect _) => 0x14
  | .add o => o.opcode 0x20 0x21
  | .sub o => o.opcode 0x24 0x25
  | .cmp o => o.opcode 0x26 0x27
  | .breq _ => 0x30
  | .brne _ => 0x32
  | .jump _ => 0x40
  | .bitwise .and o => o.opcode 0x50 0x51
  | .bit o => o.opcode 0x52 0x53
  | .bitwise .or o => o.opcode 0x54 0x55
  | .bitwise .xor o => o.opcode 0x56 0x57
  | .bitwise .lsl o => o.opcode 0x58 0x59
  | .bitwise .lsr o => o.opcode 0x5A 0x5B
  | .bitwise .rol o => o.opcode 0x5C 0x5D
  | .bitwise .ror o => o.opcode 0x5E 0x5F
  | .zero t => t.opcode 0x60 0x61
  | .inc t => t.opcode 0x62 0x63
  | .dec t => t.opcode 0x64 0x65
  | .noop _ => 0xF2

/-- The low byte of the encoding; that of `halt` is zero. -/
def Instruction.operand : Instruction → UInt8
  | .halt => 0
  | .load s => s.byte
  | .store t | .zero t | .inc t | .dec t => t.byte
  | .add o | .sub o | .cmp o | .bit o | .bitwise _ o => o.byte
  | .breq b | .brne b | .jump b | .noop b => b

/-- The word that encodes an instruction. -/
def Instruction.encode (i : Instruction) : UInt16 :=
  (i.opcode.toUInt16 <<< 8) ||| i.operand.toUInt16

/-- The opcode bytes in use, in ascending order. -/
def Instruction.opcodes : List UInt8 :=
  [0x00, 0x10, 0x11, 0x12, 0x13, 0x14, 0x20, 0x21, 0x24, 0x25, 0x26, 0x27, 0x30, 0x32, 0x40,
    0x50, 0x51, 0x52, 0x53, 0x54, 0x55, 0x56, 0x57, 0x58, 0x59, 0x5A, 0x5B, 0x5C, 0x5D, 0x5E, 0x5F,
    0x60, 0x61, 0x62, 0x63, 0x64, 0x65, 0xF2]

end Accumulator
