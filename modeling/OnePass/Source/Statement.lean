import OnePass.Source.Position

/-! # Statements

    A statement is a name applied to arguments.  What the name means is not
    decided here. -/

namespace OnePass

/-- An argument as written. -/
inductive Argument where
  | number (n : Nat)
  | name (s : String)
  | text (s : String)
  deriving DecidableEq, Repr

/-- An argument written out: numbers in decimal, texts in double quotes. -/
def Argument.render : Argument → String
  | number n => decimal n
  | name s   => s
  | text s   => "\"" ++ s ++ "\""

/-- A name applied to arguments. -/
structure Statement where
  /-- Where the name stands. -/
  position : Position
  name : String
  arguments : List Argument
  deriving DecidableEq, Repr

/-- A statement written out on one line. -/
def Statement.render (s : Statement) : String :=
  s.name ++ "(" ++ String.intercalate ", " (s.arguments.map Argument.render) ++ ")"

end OnePass
