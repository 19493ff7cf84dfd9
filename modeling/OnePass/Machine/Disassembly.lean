import OnePass.Machine.Instruction
import OnePass.Text.Style

/-! # Instructions as text

    `Instruction.text` writes an instruction as a source statement;
    `Instruction.styled` writes it in the coloured columns of a listing. -/

namespace OnePass.Instruction

/-- An instruction as a source statement. -/
def text (i : Instruction) : String :=
  let arguments := match i with
    | lri dest imm       => dest.name ++ ", 0x" ++ hexPadded 2 imm.toNat
    | move src dest      => src.name ++ ", " ++ dest.name
    | load reg addr      => reg.name ++ ", 0x" ++ hexPadded 2 addr.toNat
    | add src1 src2 dest => src1.name ++ ", " ++ src2.name ++ ", " ++ dest.name
    | jmp dest           => "0x" ++ hexPadded 3 dest.toNat
  i.mnemonic.name ++ "(" ++ arguments ++ ")"

/-- A number in the colour of numbers. -/
def styledNumber (width n : Nat) : String :=
  Text.Style.escape .yellow ++ "0x" ++ hexPadded width n ++ Text.Style.escape .plainColour

/-- The operand columns of an instruction. -/
def columns : Instruction → String × String × String
  | lri dest imm       => (dest.name, styledNumber 2 imm.toNat, "")
  | move src dest      => (src.name, dest.name, "")
  | load reg addr      => (reg.name, styledNumber 2 addr.toNat, "")
  | add src1 src2 dest => (src1.name, src2.name, dest.name)
  | jmp dest           => (styledNumber 3 dest.toNat, "", "")

/-- An instruction in the columns of a listing. -/
def styled (i : Instruction) : String :=
  let (a, b, c) := i.columns
  Text.Style.escape .red ++ Text.padRight 6 i.mnemonic.name
    ++ Text.Style.escape .blue ++ Text.padRight 4 a ++ " " ++ Text.padRight 4 b ++ " "
    ++ Text.padRight 6 c ++ Text.Style.escape .plainColour

end OnePass.Instruction
