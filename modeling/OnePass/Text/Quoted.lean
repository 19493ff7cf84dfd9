import OnePass.Numeral
import OnePass.Text.Hidden

/-! # Quoted text

    Text between double quotes on one line, with escapes for what would not
    show or would end it. -/

namespace OnePass.Text

/-- A character by its code point. -/
def codeEscape (c : Char) : String :=
  "\\u\x7b" ++ String.ofList ((Radix.hexadecimal.write c.toNat).map Char.toLower) ++ "\x7d"

/-- How a character is written inside a quoted text. -/
def quotedChar (c : Char) : String :=
  match c with
  | '\x00' => "\\0"
  | '\t'   => "\\t"
  | '\r'   => "\\r"
  | '\n'   => "\\n"
  | '"'    => "\\\""
  | '\\'   => "\\\\"
  | c      =>
    if c.toNat < 0x20 || c.toNat == 0x7F || isHidden c then codeEscape c
    else String.ofList [c]

/-- A text between double quotes. -/
def quoted (s : String) : String :=
  "\"" ++ String.join (s.toList.map quotedChar) ++ "\""

end OnePass.Text
