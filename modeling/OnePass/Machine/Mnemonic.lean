/-! # Mnemonics

    The five operations, their opcodes, and the parameters each one takes in
    source order. -/

namespace OnePass

/-- What an instruction expects at one argument place. -/
inductive Parameter where
  | register
  | immediate
  | address
  deriving DecidableEq, Repr

/-- The operations of the machine. -/
inductive Mnemonic where
  /-- Load an immediate into a register. -/
  | lri
  /-- Copy one register to another. -/
  | move
  /-- Load a register from memory. -/
  | load
  /-- Add two registers into a third. -/
  | add
  /-- Continue at an address. -/
  | jmp
  deriving DecidableEq, Repr

namespace Mnemonic

/-- Every mnemonic, by opcode. -/
def all : List Mnemonic := [lri, move, load, add, jmp]

/-- The spelling of a mnemonic in source text. -/
def name : Mnemonic → String
  | lri  => "lri"
  | move => "move"
  | load => "load"
  | add  => "add"
  | jmp  => "jmp"

/-- The opcode as a number. -/
def code : Mnemonic → Nat
  | lri  => 1
  | move => 2
  | load => 3
  | add  => 4
  | jmp  => 5

/-- The opcode field of an instruction word. -/
def opcode (m : Mnemonic) : BitVec 4 :=
  BitVec.ofNat 4 m.code

/-- The parameters in source order. -/
def parameters : Mnemonic → List Parameter
  | lri  => [.register, .immediate]
  | move => [.register, .register]
  | load => [.register, .address]
  | add  => [.register, .register, .register]
  | jmp  => [.address]

/-- The mnemonic of a given spelling. -/
def ofName? (text : String) : Option Mnemonic :=
  all.find? (·.name == text)

/-- The mnemonic of a given opcode. -/
def ofCode? (n : Nat) : Option Mnemonic :=
  all.find? (·.code == n)

theorem ofName?_name (m : Mnemonic) : ofName? m.name = some m := by
  cases m <;> decide

/-- A text that names no operation. -/
structure Unknown where
  text : String
  deriving DecidableEq, Repr

def Unknown.message (u : Unknown) : String :=
  "Unknown Operation Name: `" ++ u.text ++ "`"

/-- The mnemonic of a given spelling, or the text that spelled none. -/
def parse (text : String) : Except Unknown Mnemonic :=
  match ofName? text with
  | some m => .ok m
  | none   => .error ⟨text⟩

end Mnemonic

end OnePass
