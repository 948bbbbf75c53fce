import Accumulator.Fault

/-!
# Word memory

`Memory` is 256 words. Single reads and writes are checked against its bounds and answer with a
fault that names the kind of access. An image is placed as a whole or not at all: `Memory.load`
checks that the origin names a cell and that the image ends inside memory before any word changes,
so an empty image is refused at an origin outside memory and accepted at the last cell.
-/

namespace Accumulator

/-- The contents of memory, one word a cell. -/
structure Memory where
  cells : Vector UInt16 memoryWords
deriving DecidableEq, Repr

namespace Memory

/-- Memory filled with zeros. -/
def zeros : Memory :=
  ⟨Vector.replicate memoryWords 0⟩

/-- The word at an address, or a fault with the kind of access. -/
def read (m : Memory) (a : Address) (access : Access) : Except Fault UInt16 :=
  match a.cell? with
  | some i => .ok m.cells[i]
  | none => .error (.outOfBounds a access)

/-- Memory after a write to one cell. -/
def write (m : Memory) (a : Address) (word : UInt16) : Except Fault Memory :=
  match a.cell? with
  | some i => .ok ⟨m.cells.set i word⟩
  | none => .error (.outOfBounds a .write)

/-- The cells from `start` on replaced by the words of `image`, those past the end dropped. -/
def overlay (m : Memory) (image : List UInt16) (start : Nat) : Memory :=
  ⟨Vector.ofFn fun i => if start ≤ i.val then image.getD (i.val - start) m.cells[i] else m.cells[i]⟩

/-- Memory after an image was placed at `origin`. -/
def load (m : Memory) (image : List UInt16) (origin : Address) : Except Failure Memory :=
  match origin.cell? with
  | some start =>
    if start.val + image.length ≤ memoryWords then .ok (m.overlay image start)
    else .error (.imageTooLong origin image.length)
  | none => .error (.imageTooLong origin image.length)

/-- All words in address order. -/
def toList (m : Memory) : List UInt16 :=
  m.cells.toList

/-- The words from `start` up to but not including `stop`, if the range lies in memory. -/
def range (m : Memory) (start stop : Nat) : Option (List UInt16) :=
  if start ≤ stop ∧ stop ≤ memoryWords then some ((m.toList.drop start).take (stop - start))
  else none

end Memory
end Accumulator
