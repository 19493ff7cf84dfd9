import OnePass.Literal
import OnePass.Source.Cursor
import OnePass.Source.Statement

/-! # Reading statements

    The grammar, on tokens without comments:

        source     = { separator } [ statement { separator { separator } statement } { separator } ]
        separator  = ";" | end of line
        statement  = word "(" [ argument { "," argument } [ "," ] ] ")"
        argument   = number | word | text

    Reading stops at the first token that does not fit. -/

namespace OnePass

/-! ## What fits where -/

namespace Token

def separator? (t : Token) : Option Unit :=
  match t.lexeme with
  | .endOfLine => some ()
  | .semicolon => some ()
  | _          => none

def openParen? (t : Token) : Option Unit :=
  if t.lexeme = .openParen then some () else none

def closeParen? (t : Token) : Option Unit :=
  if t.lexeme = .closeParen then some () else none

def comma? (t : Token) : Option Unit :=
  if t.lexeme = .comma then some () else none

/-- The name at the head of a statement, and where it stands. -/
def head? (t : Token) : Option (String × Position) :=
  match t.lexeme with
  | .word s => some (s, t.position)
  | _       => none

/-- A token in an argument's place.  A number may fit there and still be no
    literal. -/
def argument? (t : Token) : Option (Except SourceFault Argument) :=
  match t.lexeme with
  | .number s =>
    match Literal.value? s with
    | some n => some (.ok (.number n))
    | none   => some (.error ⟨t.position, .malformedNumber s⟩)
  | .word s   => some (.ok (.name s))
  | .text s   => some (.ok (.text s))
  | _         => none

end Token

/-! ## Reading -/

namespace Cursor

-- The equations named in the matches below serve the termination proofs only.
set_option linter.unusedVariables false

/-- Read one argument. -/
def argument (c : Cursor) : Except SourceFault (Argument × Cursor) :=
  match c.expect Token.argument? with
  | (.ok (.ok a), rest) => .ok (a, rest)
  | (.ok (.error f), _) => .error f
  | (.error f, _)       => .error f

theorem length_argument_lt {c c' : Cursor} {a : Argument} (h : c.argument = .ok (a, c')) :
    c'.pending.length < c.pending.length := by
  unfold argument at h
  split at h
  · next he =>
    cases h
    exact length_expect_lt he
  · cases h
  · cases h

/-- Read arguments up to, but not with, the closing parenthesis.  The last
    argument may be followed by a comma. -/
def arguments (c : Cursor) : Except SourceFault (List Argument × Cursor) :=
  if c.check Token.closeParen? then .ok ([], c)
  else match hArg : c.argument with
    | .error f      => .error f
    | .ok (a, rest) =>
      match hComma : rest.consume Token.comma? with
      | (none, rest)    => .ok ([a], rest)
      | (some _, rest') =>
        match rest'.arguments with
        | .error f       => .error f
        | .ok (as, last) => .ok (a :: as, last)
termination_by c.pending.length
decreasing_by
  exact Nat.lt_trans (length_consume_lt hComma) (length_argument_lt hArg)

/-- Read one statement. -/
def statement (c : Cursor) : Except SourceFault (Statement × Cursor) :=
  match c.expect Token.head? with
  | (.error f, _) => .error f
  | (.ok (name, position), afterName) =>
    match afterName.expect Token.openParen? with
    | (.error f, _) => .error f
    | (.ok _, inside) =>
      match inside.arguments with
      | .error f => .error f
      | .ok (args, afterArgs) =>
        match afterArgs.expect Token.closeParen? with
        | (.error f, _) => .error f
        | (.ok _, rest) => .ok (⟨position, name, args⟩, rest)

/-- Arguments never give tokens back. -/
theorem length_arguments_le {c c' : Cursor} {as : List Argument}
    (h : c.arguments = .ok (as, c')) : c'.pending.length ≤ c.pending.length := by
  fun_induction arguments c generalizing as c' with
  | case1 => cases h; exact Nat.le_refl _
  | case2 => cases h
  | case3 c _ a rest hArg rest' hComma =>
    cases h
    rw [eq_of_consume_none hComma]
    exact Nat.le_of_lt (length_argument_lt hArg)
  | case4 => cases h
  | case5 c _ a rest hArg u rest' hComma as last hRest ih =>
    cases h
    have h₁ := length_argument_lt hArg
    have h₂ := length_consume_lt hComma
    have h₃ := ih hRest
    omega

theorem length_statement_lt {c c' : Cursor} {s : Statement} (h : c.statement = .ok (s, c')) :
    c'.pending.length < c.pending.length := by
  unfold statement at h
  split at h
  · cases h
  · next hHead =>
    split at h
    · cases h
    · next hOpen =>
      split at h
      · cases h
      · next hArgs =>
        split at h
        · cases h
        · next hClose =>
          cases h
          have h₁ := length_expect_lt hHead
          have h₂ := length_expect_lt hOpen
          have h₃ := length_arguments_le hArgs
          have h₄ := length_expect_lt hClose
          omega

/-- Read statements to the end of the tokens, after those already `done`
    (latest first). -/
def statementsAfter (done : List Statement) (c : Cursor) :
    Except SourceFault (List Statement) :=
  match c.peek? with
  | none   => .ok done.reverse
  | some _ =>
    match hSep : c.consume Token.separator? with
    | (some _, rest) => statementsAfter done rest
    | (none, _)      =>
      match hStmt : c.statement with
      | .error f      => .error f
      | .ok (s, rest) =>
        match rest.peek? with
        | none   => .ok (s :: done).reverse
        | some _ =>
          match hEnd : rest.expect Token.separator? with
          | (.error f, _)  => .error f
          | (.ok _, rest') => statementsAfter (s :: done) rest'
termination_by c.pending.length
decreasing_by
  · exact length_consume_lt hSep
  · exact Nat.lt_trans (length_expect_lt hEnd) (length_statement_lt hStmt)

/-- Read all statements. -/
def statements (c : Cursor) : Except SourceFault (List Statement) :=
  c.statementsAfter []

end Cursor

/-- The statements of a source text. -/
def readSource (file source : String) : Except SourceFault (List Statement) :=
  (Cursor.ofTokens (Token.ofSource file source)).statements

end OnePass
