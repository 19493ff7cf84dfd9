import OnePass.Machine.Instruction
import OnePass.Source.Position

/-! # Program images

    The instructions placed so far, by address, each with the source line it
    came from. -/

namespace OnePass

/-- A placed instruction. -/
structure Entry where
  origin : Position
  instruction : Instruction
  deriving DecidableEq, Repr

/-- Placed instructions; the index of an entry is its address. -/
structure Image where
  entries : Array Entry := #[]
  deriving DecidableEq, Repr

/-- Addresses are counted modulo this number, which is 2^32. -/
def addressSpan : Nat := 0x100000000

namespace Image

def size (i : Image) : Nat :=
  i.entries.size

/-- The address of the next instruction. -/
def here (i : Image) : Nat :=
  i.size % addressSpan

def push (i : Image) (e : Entry) : Image :=
  { i with entries := i.entries.push e }

@[simp] theorem size_push (i : Image) (e : Entry) : (i.push e).size = i.size + 1 := by
  simp [push, size]

@[simp] theorem toList_push (i : Image) (e : Entry) :
    (i.push e).entries.toList = i.entries.toList ++ [e] := by
  simp [push]

/-- The words of the image, by address. -/
def words (i : Image) : List Word :=
  i.entries.toList.map (·.instruction.encode)

/-- The image as a byte sequence. -/
def bytes (i : Image) : List UInt8 :=
  OnePass.bytes i.words

/-- One line for each word: the place in the source that it came from. -/
def debugText (i : Image) : String :=
  String.join (i.entries.toList.map (·.origin.text ++ "\n"))

end Image

end OnePass
