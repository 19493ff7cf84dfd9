/-! # Styled text

    Terminal escape codes and column alignment.  Widths count characters,
    escape codes included, so a styled field is usually wider than it looks. -/

namespace OnePass.Text

/-- The styles that reports and listings use. -/
inductive Style where
  | red
  | green
  | yellow
  | blue
  | plainColour
  | bold
  | plainWeight
  deriving DecidableEq, Repr

/-- The number that selects a style. -/
def Style.code : Style → String
  | red         => "31"
  | green       => "32"
  | yellow      => "33"
  | blue        => "34"
  | plainColour => "39"
  | bold        => "1"
  | plainWeight => "22"

/-- The escape code that switches to a style. -/
def Style.escape (s : Style) : String :=
  "\x1b[" ++ s.code ++ "m"

/-- `n` copies of a character. -/
def fill (n : Nat) (c : Char) : String :=
  String.ofList (List.replicate n c)

/-- `text` followed by blanks up to `width` characters. -/
def padRight (width : Nat) (text : String) : String :=
  text ++ fill (width - text.length) ' '

/-- `text` preceded by blanks up to `width` characters. -/
def padLeft (width : Nat) (text : String) : String :=
  fill (width - text.length) ' ' ++ text

end OnePass.Text
