import OnePass.Source.Fault
import OnePass.Source.Token

/-! # Cursors

    A cursor walks over a token list and never shows a comment.  It also
    remembers the last token it gave out, which is where a statement that is
    broken off by the end of the tokens is charged.

    What to do with a token is decided by an `accept` function: it gives
    `none` for a token that does not fit. -/

namespace OnePass

/-- A place in a token list. -/
structure Cursor where
  /-- The tokens still to come, comments included. -/
  pending : List Token
  /-- Where the last token given out stands. -/
  last : Position
  deriving DecidableEq, Repr

/-- The fault of a token that does not fit where it stands. -/
def Token.misplaced (t : Token) : SourceFault :=
  let fault := match t.lexeme with
    | .endOfLine  => .unexpectedEndOfLine
    | .unclosed _ => .unclosedText
    | .stray s    =>
      match s.toList with
      | c :: _ => .strayCharacter c
      | []     => .unexpected s
    | lexeme      => .unexpected lexeme.spelling
  ⟨t.position, fault⟩

namespace Cursor

/-- The cursor before all tokens. -/
def ofTokens (ts : List Token) : Cursor :=
  ⟨ts, Position.origin⟩

/-- The tokens still to come, from the first that is no comment. -/
def upcoming (c : Cursor) : List Token :=
  c.pending.dropWhile Token.isComment

/-- The next token, without taking it. -/
def peek? (c : Cursor) : Option Token :=
  c.upcoming.head?

/-- Take the next token, if there is one. -/
def next (c : Cursor) : Option Token × Cursor :=
  match c.upcoming with
  | []      => (none, { c with pending := [] })
  | t :: ts => (some t, ⟨ts, t.position⟩)

/-- Is there a next token, and does it fit? -/
def check {α : Type} (c : Cursor) (accept : Token → Option α) : Bool :=
  match c.peek? with
  | some t => (accept t).isSome
  | none   => false

/-- Take the next token if it fits; otherwise stay. -/
def consume {α : Type} (c : Cursor) (accept : Token → Option α) : Option α × Cursor :=
  match c.next with
  | (some t, rest) =>
    match accept t with
    | some a => (some a, rest)
    | none   => (none, c)
  | (none, _) => (none, c)

/-- Take the next token, which must fit.  It is taken even if it does not. -/
def expect {α : Type} (c : Cursor) (accept : Token → Option α) :
    Except SourceFault α × Cursor :=
  match c.next with
  | (some t, rest) =>
    match accept t with
    | some a => (.ok a, rest)
    | none   => (.error t.misplaced, rest)
  | (none, rest) => (.error ⟨c.last, .unexpectedEndOfLine⟩, rest)

/-! ### Progress -/

/-- Taking a token leaves fewer of them. -/
theorem length_next_lt {c c' : Cursor} {t : Token} (h : c.next = (some t, c')) :
    c'.pending.length < c.pending.length := by
  have hle : c.upcoming.length ≤ c.pending.length := (List.dropWhile_sublist _).length_le
  unfold next at h
  split at h
  · cases h
  · next heq =>
    cases h
    rw [heq, List.length_cons] at hle
    exact hle

theorem length_consume_lt {α : Type} {c c' : Cursor} {accept : Token → Option α} {a : α}
    (h : c.consume accept = (some a, c')) : c'.pending.length < c.pending.length := by
  unfold consume at h
  split at h
  · next hn =>
    split at h
    · cases h
      exact length_next_lt hn
    · cases h
  · cases h

/-- A cursor that takes nothing stays where it is. -/
theorem eq_of_consume_none {α : Type} {c c' : Cursor} {accept : Token → Option α}
    (h : c.consume accept = (none, c')) : c' = c := by
  unfold consume at h
  split at h
  · split at h
    · cases h
    · cases h; rfl
  · cases h; rfl

theorem length_expect_lt {α : Type} {c c' : Cursor} {accept : Token → Option α} {a : α}
    (h : c.expect accept = (.ok a, c')) : c'.pending.length < c.pending.length := by
  unfold expect at h
  split at h
  · next hn =>
    split at h
    · cases h
      exact length_next_lt hn
    · cases h
  · cases h

end Cursor

end OnePass
