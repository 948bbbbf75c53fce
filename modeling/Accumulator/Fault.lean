import Accumulator.Address

/-!
# Faults and failures

A `Fault` is the reason why a step stopped the machine for good. A `Failure` is what loading an
image or a run with a budget reports instead of a result; a fault is one kind of it, and the only
one that leaves the machine unable to go on.
-/

namespace Accumulator

/-- What a memory access was for. -/
inductive Access where
  /-- The instruction fetch at the program counter. -/
  | fetch
  /-- A data read, the read of a pointer cell included. -/
  | read
  /-- A data write. -/
  | write
deriving DecidableEq, Repr

namespace Access

/-- The kind of access in one word. -/
def text : Access → String
  | .fetch => "fetch"
  | .read => "read"
  | .write => "write"

end Access

/-- Why a step stopped the machine. -/
inductive Fault where
  /-- The word fetched at `pc` is no instruction. -/
  | invalidOpcode (pc : Address) (word : UInt16)
  /-- An access touched an address outside memory. -/
  | outOfBounds (address : Address) (access : Access)
deriving DecidableEq, Repr

namespace Fault

/-- The fault in words. -/
def message : Fault → String
  | .invalidOpcode pc word => "invalid opcode 0x" ++ Hex.lower 4 word.toNat ++ " at " ++ pc.text
  | .outOfBounds address access => "out-of-bounds " ++ access.text ++ " at " ++ address.text

end Fault

/-- Why a load or a run with a budget did not succeed. -/
inductive Failure where
  /-- The machine stopped on a fault. -/
  | fault (fault : Fault)
  /-- An image of `length` words does not fit behind `origin`. -/
  | imageTooLong (origin : Address) (length : Nat)
  /-- The budget ran out after `steps` instructions; the machine can go on. -/
  | budgetSpent (steps : UInt64)
deriving DecidableEq, Repr

namespace Failure

/-- Does the failure leave the machine stopped for good? -/
def isFault : Failure → Bool
  | .fault _ => true
  | _ => false

/-- The failure in words; a fault speaks for itself. -/
def message : Failure → String
  | .fault f => f.message
  | .imageTooLong origin length =>
    "image of " ++ toString length ++ " words does not fit in memory at origin " ++ origin.text
  | .budgetSpent steps => "step limit of " ++ toString steps.toNat ++ " exceeded without halting"

end Failure
end Accumulator
