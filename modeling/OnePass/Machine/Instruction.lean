import OnePass.Numeral
import OnePass.Machine.Register
import OnePass.Machine.Mnemonic

/-! # Instructions

    Instructions, how operands become their fields, and how they are packed
    into 16-bit words.

    * `fit` : what a field takes of a value, and what it loses.
    * `Instruction.build`  : an instruction from a mnemonic and its operands,
      with a record of the operand that did not fit its field, if any.
    * `Instruction.encode` : the word of an instruction.
    * `Instruction.decode` : the instruction of a word, if its opcode is
      assigned.
    * `bytes` : words as a big-endian byte sequence. -/

namespace OnePass

/-- The unit of a program image. -/
abbrev Word := BitVec 16

/-- A resolved operand. -/
inductive Operand where
  | register (r : Register)
  | integer (n : Nat)
  deriving DecidableEq, Repr

/-- Instructions with their operand fields. -/
inductive Instruction where
  | lri (dest : Register) (imm : BitVec 8)
  | move (src dest : Register)
  | load (reg : Register) (addr : BitVec 8)
  | add (src1 src2 dest : Register)
  /-- The field is as wide as a word; `build` and `decode` only ever fill its
      low twelve bits. -/
  | jmp (dest : BitVec 16)
  deriving DecidableEq, Repr

/-- A value that was cut down to the width of its field. -/
structure Overflow where
  /-- The value before it was cut. -/
  value : Nat
  /-- The width of the field in bits. -/
  width : Nat
  deriving DecidableEq, Repr

def Overflow.message (o : Overflow) : String :=
  "0x" ++ hex o.value ++ " too big, will truncate"

/-! ## Building -/

/-- The low `width` bits of a value in a word, with a record of the value if
    that is not all of it. -/
def fit (width value : Nat) : Word × Option Overflow :=
  let mask := (1 <<< width) - 1
  (BitVec.ofNat 16 (value &&& mask), if mask < value then some ⟨value, width⟩ else none)

namespace Instruction

/-- The instruction of a mnemonic on given operands, provided that they are
    laid out as `Mnemonic.parameters` says.  An integer is made to fit its
    field. -/
def build (m : Mnemonic) (operands : List Operand) : Option (Instruction × Option Overflow) :=
  match m, operands with
  | .lri, [.register dest, .integer n] =>
    let imm := fit 8 n
    some (.lri dest (imm.1.setWidth 8), imm.2)
  | .move, [.register src, .register dest] =>
    some (.move src dest, none)
  | .load, [.register reg, .integer n] =>
    let addr := fit 8 n
    some (.load reg (addr.1.setWidth 8), addr.2)
  | .add, [.register src1, .register src2, .register dest] =>
    some (.add src1 src2 dest, none)
  | .jmp, [.integer n] =>
    let dest := fit 12 n
    some (.jmp dest.1, dest.2)
  | _, _ => none

/-- The mnemonic of an instruction. -/
def mnemonic : Instruction → Mnemonic
  | lri ..  => .lri
  | move .. => .move
  | load .. => .load
  | add ..  => .add
  | jmp ..  => .jmp

/-! ## Words -/

/-- The word of an instruction: the opcode in the top four bits, then the
    fields.  The low four bits of a `move` are zero. -/
def encode : Instruction → Word
  | lri dest imm       => Mnemonic.lri.opcode ++ imm ++ dest.index
  | move src dest      => Mnemonic.move.opcode ++ src.index ++ dest.index ++ 0#4
  | load reg addr      => Mnemonic.load.opcode ++ reg.index ++ addr
  | add src1 src2 dest => Mnemonic.add.opcode ++ src1.index ++ src2.index ++ dest.index
  | jmp dest           => (Mnemonic.jmp.opcode ++ 0#12) ||| dest

/-- The register in the four bits of `w` that start at bit `start`. -/
def registerAt (w : Word) (start : Nat) : Register :=
  ⟨w.extractLsb' start 4⟩

/-- The instruction of a word.  The low four bits of a `move` do not matter. -/
def decode (w : Word) : Option Instruction :=
  (Mnemonic.ofCode? (w.extractLsb' 12 4).toNat).map fun
    | .lri  => lri (registerAt w 0) (w.extractLsb' 4 8)
    | .move => move (registerAt w 8) (registerAt w 4)
    | .load => load (registerAt w 8) (w.extractLsb' 0 8)
    | .add  => add (registerAt w 8) (registerAt w 4) (registerAt w 0)
    | .jmp  => jmp ((w.extractLsb' 0 12).setWidth 16)

end Instruction

/-! ## Bytes -/

/-- The bytes of a word, high byte first. -/
def Word.bytes (w : Word) : List UInt8 :=
  [⟨w.extractLsb' 8 8⟩, ⟨w.extractLsb' 0 8⟩]

/-- Words as a byte sequence, each word high byte first. -/
def bytes (ws : List Word) : List UInt8 :=
  ws.flatMap Word.bytes

end OnePass
