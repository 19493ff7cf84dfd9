import OnePass.Numeral

/-! # Positions

    Tokens, statements, instructions and reports carry the file and line they
    came from. -/

namespace OnePass

/-- A line of a source file; lines count from one. -/
structure Position where
  file : String
  line : Nat
  deriving DecidableEq, Repr, Inhabited

namespace Position

/-- Before any source text. -/
def origin : Position := ⟨"", 0⟩

def text (p : Position) : String :=
  p.file ++ ":" ++ decimal p.line

end Position

end OnePass
