import OnePass.Assembly.Symbols
import OnePass.Machine.Instruction
import OnePass.Source.Statement

/-! # Operands

    Arguments resolved through the symbols: names of registers become
    registers, names of labels become addresses.  A mnemonic's arguments then
    give an instruction, or the fault that they are refused with. -/

namespace OnePass.Symbols

/-- The register that an argument names. -/
def register (t : Symbols) (a : Argument) : Except Fault Register :=
  match a with
  | .name s =>
    match t.meaning? s with
    | some (.register r) => .ok r
    | some _             => .error (.registerExpected s)
    | none               => .error (.undefined s)
  | other => .error (.registerExpected other.render)

/-- The integer that an argument stands for: a literal, or the address of a
    label. -/
def integer (t : Symbols) (a : Argument) : Except Fault Nat :=
  match a with
  | .number n => .ok n
  | .name s   =>
    match t.meaning? s with
    | some (.address n) => .ok n
    | some _            => .error (.integerExpected s)
    | none              => .error (.undefined s)
  | other     => .error (.integerExpected other.render)

/-- An argument as the operand that a parameter asks for. -/
def operand (t : Symbols) (p : Parameter) (a : Argument) : Except Fault Operand :=
  match p with
  | .register  => (t.register a).map .register
  | .immediate => (t.integer a).map .integer
  | .address   => (t.integer a).map .integer

/-- Arguments as operands, from left to right; the leftmost one that does not
    fit decides the fault. -/
def operands (t : Symbols) : List Parameter → List Argument → Except Fault (List Operand)
  | p :: ps, a :: as =>
    match t.operand p a with
    | .error f => .error f
    | .ok o    => (t.operands ps as).map (o :: ·)
  | _, _ => .ok []

/-- The instruction of a mnemonic on given arguments. -/
def instruction (t : Symbols) (m : Mnemonic) (args : List Argument) :
    Except Fault (Instruction × Option Overflow) :=
  let count := Fault.argumentCount m.name m.parameters.length args.length
  if args.length ≠ m.parameters.length then .error count
  else match t.operands m.parameters args with
    | .error f => .error f
    | .ok os   =>
      match Instruction.build m os with
      | some built => .ok built
      | none       => .error count

end OnePass.Symbols
