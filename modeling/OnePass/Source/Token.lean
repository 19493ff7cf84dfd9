import OnePass.Source.Position
import OnePass.Text.Blank
import OnePass.Text.Lines

/-! # Tokens

    Source text is scanned line by line.  `lexemes` cuts one line;
    `Token.ofLine` adds the position and the mark for the line's end;
    `Token.ofSource` does so for every line of a text.

    Every character of a line belongs to a lexeme or is a blank between
    lexemes; nothing is refused here.  A character that starts no token
    becomes a `stray` lexeme, and a quote that is never closed takes the rest
    of the line as an `unclosed` one. -/

namespace OnePass

/-- The pieces that source text is made of. -/
inductive Lexeme where
  | openParen
  | closeParen
  | comma
  | semicolon
  /-- The end of a line. -/
  | endOfLine
  /-- A name. -/
  | word (s : String)
  /-- A word that starts with a digit. -/
  | number (s : String)
  /-- What stood between two quotes. -/
  | text (s : String)
  /-- What followed a `#`, trimmed. -/
  | comment (s : String)
  /-- A quote and all that followed it, with no closing quote. -/
  | unclosed (s : String)
  /-- Anything else. -/
  | stray (s : String)
  deriving DecidableEq, Repr

/-- How a report spells a lexeme. -/
def Lexeme.spelling : Lexeme → String
  | openParen  => "("
  | closeParen => ")"
  | comma      => ","
  | semicolon  => ";"
  | endOfLine  => "\\n"
  | word s     => s
  | number s   => s
  | text s     => "\"" ++ s ++ "\""
  | comment s  => "#" ++ s
  | unclosed s => s
  | stray s    => s

/-- A lexeme and where it stands. -/
structure Token where
  lexeme : Lexeme
  position : Position
  deriving DecidableEq, Repr

def Token.isComment (t : Token) : Bool :=
  match t.lexeme with
  | .comment _ => true
  | _          => false

/-! ## Scanning a line -/

namespace Lexeme

/-- The characters that words and numbers are made of. -/
def isWordChar (c : Char) : Bool :=
  c == '_' || c.isAlphanum

/-- The characters that words start with. -/
def isWordStart (c : Char) : Bool :=
  c == '_' || c.isAlpha

/-- Lexemes of a single character. -/
def punctuation? : Char → Option Lexeme
  | '(' => some openParen
  | ')' => some closeParen
  | ',' => some comma
  | ';' => some semicolon
  | _   => none

/-- A quoted text, after its opening `quote`. -/
def scanText (quote : Char) (cs : List Char) : Lexeme × List Char :=
  let body := cs.takeWhile (· != quote)
  match cs.dropWhile (· != quote) with
  | _ :: rest => (text (String.ofList body), rest)
  | []        => (unclosed (String.ofList (quote :: body)), [])

/-- The lexeme that starts with the non-blank character `c`, and what is left
    of the line after it. -/
def scan (c : Char) (cs : List Char) : Lexeme × List Char :=
  match punctuation? c with
  | some p => (p, cs)
  | none   =>
    if c = '#' then
      (comment (String.ofList (Text.trim cs)), [])
    else if c.isDigit then
      (number (String.ofList (c :: cs.takeWhile isWordChar)), cs.dropWhile isWordChar)
    else if c = '"' ∨ c = '\'' then
      scanText c cs
    else if isWordStart c then
      (word (String.ofList (c :: cs.takeWhile isWordChar)), cs.dropWhile isWordChar)
    else
      (stray (String.ofList [c]), cs)

theorem length_dropWhile_le {α : Type} (p : α → Bool) (xs : List α) :
    (xs.dropWhile p).length ≤ xs.length :=
  (List.dropWhile_sublist p).length_le

theorem length_scanText_le (quote : Char) (cs : List Char) :
    (scanText quote cs).2.length ≤ cs.length := by
  have h := length_dropWhile_le (· != quote) cs
  unfold scanText
  split
  · next heq =>
    rw [heq, List.length_cons] at h
    exact Nat.le_of_lt h
  · exact Nat.zero_le _

/-- What is left after a lexeme is no longer than what followed its first
    character. -/
theorem length_scan_le (c : Char) (cs : List Char) : (scan c cs).2.length ≤ cs.length := by
  unfold scan
  split
  · exact Nat.le_refl _
  · split
    · exact Nat.zero_le _
    · split
      · exact length_dropWhile_le ..
      · split
        · exact length_scanText_le ..
        · split
          · exact length_dropWhile_le ..
          · exact Nat.le_refl _

end Lexeme

/-- The lexemes of a line, in order. -/
def lexemes : List Char → List Lexeme
  | []      => []
  | c :: cs =>
    if Text.isBlank c then lexemes cs
    else (Lexeme.scan c cs).1 :: lexemes (Lexeme.scan c cs).2
termination_by cs => cs.length
decreasing_by
  · simp
  · exact Nat.lt_succ_of_le (Lexeme.length_scan_le c cs)

/-! ## Tokens of a source text -/

namespace Token

/-- The tokens of one line.  Lines are counted from `index` zero, positions
    from line one.  The last token marks the end of the line. -/
def ofLine (file : String) (index : Nat) (line : List Char) : List Token :=
  (lexemes line ++ [Lexeme.endOfLine]).map fun l => ⟨l, ⟨file, index + 1⟩⟩

/-- The tokens of a whole text. -/
def ofSource (file : String) (source : String) : List Token :=
  (Text.lines source.toList).zipIdx.flatMap fun (line, index) => ofLine file index line

end Token

end OnePass
