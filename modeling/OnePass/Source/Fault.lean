import OnePass.Source.Position

/-! # Faults in source text

    Why a source text is refused, and where.  The wording of each fault is in
    `Fault.message`. -/

namespace OnePass

/-- The reasons for refusing a source text. -/
inductive Fault where
  /-- A character that starts no token. -/
  | strayCharacter (c : Char)
  /-- A quoted text without its closing quote. -/
  | unclosedText
  /-- A token where the grammar allows none like it. -/
  | unexpected (spelling : String)
  /-- A statement broken off by the end of its line. -/
  | unexpectedEndOfLine
  /-- A number that is no literal, or too large. -/
  | malformedNumber (literal : String)
  /-- A name that nothing declares. -/
  | undefined (name : String)
  /-- A statement headed by a name that is no operation. -/
  | notCallable (name : String)
  /-- A statement with too few or too many arguments. -/
  | argumentCount (name : String) (expected given : Nat)
  /-- An argument that should be a register. -/
  | registerExpected (found : String)
  /-- An argument that should be an integer. -/
  | integerExpected (found : String)
  /-- A label declaration whose argument is not a quoted text. -/
  | labelNameExpected (found : String)
  /-- A label declaration for a name that is taken from the start. -/
  | predeclared (name : String)
  deriving DecidableEq, Repr

/-- The wording of a fault. -/
def Fault.message : Fault → String
  | strayCharacter c        => "invalid character `" ++ String.ofList [c] ++ "`"
  | unclosedText            => "unterminated string"
  | unexpected s            => "invalid syntax: unexpected `" ++ s ++ "`"
  | unexpectedEndOfLine     => "invalid syntax: unexpected end of line"
  | malformedNumber s       => "cannot parse `" ++ s ++ "` as integer"
  | undefined name          => "name `" ++ name ++ "` is not defined"
  | notCallable name        => "`" ++ name ++ "` is not callable"
  | argumentCount name m n  =>
    name ++ "() takes " ++ decimal m ++ " arguments (" ++ decimal n ++ " given)"
  | registerExpected s      => "expected register, found `" ++ s ++ "`"
  | integerExpected s       => "expected integer, found `" ++ s ++ "`"
  | labelNameExpected s     => "label name must be a string, found `" ++ s ++ "`"
  | predeclared name        => "cannot redefine builtin `" ++ name ++ "`"

/-- A fault and the place it is charged to. -/
structure SourceFault where
  position : Position
  fault : Fault
  deriving DecidableEq, Repr

def SourceFault.message (f : SourceFault) : String :=
  f.position.text ++ ": " ++ f.fault.message

end OnePass
