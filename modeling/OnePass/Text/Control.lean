/-! # Control codes

    A text that is read by people and not obeyed by a terminal shows no
    control codes.  Printing characters, all characters outside ASCII and the
    ASCII blanks (tab, newline, form feed, carriage return) stay.  The other
    control characters go, and so does every sequence that ESC opens:

    * ESC, intermediate characters and a final one;
    * ESC `[` with parameters and a final character;
    * ESC `P`, `X`, `^` or `_` and a string up to its terminator;
    * ESC `]` and a command up to BEL.

    ESC opens a new sequence wherever it stands, and CAN and SUB give up the
    one that is open.

    * `Sequence.next`   : what one character does to an open sequence.
    * `View.step`       : what one character does to the view of a text.
    * `withoutControls` : a text without its control codes. -/

namespace OnePass.Text

/-- What ESC has opened. -/
inductive Sequence where
  /-- Nothing has followed ESC. -/
  | escape
  /-- Intermediate characters have followed, a final one ends it. -/
  | short
  /-- Parameters, which a final character ends. -/
  | parameters
  /-- The head of a device string. -/
  | deviceHead
  /-- The head of a device string, after a parameter. -/
  | deviceParameters
  /-- The head of a device string, after an intermediate character. -/
  | deviceIntermediates
  /-- The body of a string, up to its terminator. -/
  | body
  /-- A command of the operating system, up to BEL. -/
  | command
  deriving DecidableEq, Repr

/-- Is the octet 0x9C, which terminates a string, part of the character's
    UTF-8 form? -/
def hasTerminator (c : Char) : Bool :=
  (String.utf8EncodeChar c).contains 0x9C

/-- The sequence after one more character; none when the character ends it. -/
def Sequence.next (s : Sequence) (c : Char) : Option Sequence :=
  let n := c.toNat
  let intermediate := 0x20 ≤ n && n ≤ 0x2F
  let parameter := 0x30 ≤ n && n ≤ 0x3F
  let final := 0x40 ≤ n && n ≤ 0x7E
  match s with
  | escape              =>
    if intermediate then some short
    else if c = '[' then some parameters
    else if c = ']' then some command
    else if c = 'P' then some deviceHead
    else if c = 'X' || c = '^' || c = '_' then some body
    else if parameter || final then none
    else some escape
  | short               => if parameter || final then none else some short
  | parameters          => if final then none else some parameters
  | deviceHead          =>
    if intermediate then some deviceIntermediates
    else if parameter then some deviceParameters
    else if final then some body
    else some deviceHead
  | deviceParameters    =>
    if intermediate then some deviceIntermediates
    else if final || (0x3C ≤ n && n ≤ 0x3F) then some body
    else some deviceParameters
  | deviceIntermediates =>
    if parameter || final then some body else some deviceIntermediates
  | body                => if hasTerminator c then none else some body
  | command             => if c = '\x07' then none else some command

/-- Do blank characters inside the sequence show?  A string or a command
    takes them in. -/
def Sequence.showsBlanks : Sequence → Bool
  | escape     => true
  | short      => true
  | parameters => true
  | _          => false

/-- Is the character one of the ASCII control characters that show as blank
    space? -/
def isBlankControl (c : Char) : Bool :=
  c = '\t' || c = '\n' || c = '\x0C' || c = '\r'

/-- Does the character show outside of a sequence? -/
def isPlain (c : Char) : Bool :=
  (0x20 ≤ c.toNat && c.toNat ≠ 0x7F) || isBlankControl c

/-- How the next character of a text is seen. -/
inductive View where
  /-- It shows if it is plain.  `pending` is the sequence that a blank
      character interrupted, if one did: the next control character takes it
      up again, a character outside ASCII drops it. -/
  | shown (pending : Option Sequence)
  /-- It belongs to a sequence. -/
  | inside (s : Sequence)
  deriving DecidableEq, Repr

/-- The view after one more character, and whether that character shows. -/
def View.step (v : View) (c : Char) : View × Bool :=
  if c = '\x1B' then (inside .escape, false)
  else if c = '\x18' || c = '\x1A' then (shown none, false)
  else match v with
    | shown pending =>
      if isPlain c then (shown (if c.toNat < 0x80 then pending else none), true)
      else match pending with
        | some s => (inside s, false)
        | none   => (shown none, false)
    | inside s      =>
      if s.showsBlanks && isBlankControl c then (shown (some s), true)
      else match s.next c with
        | some s => (inside s, false)
        | none   => (shown none, false)

/-- One step of a scan: the view, and the characters that have shown, the
    last one first. -/
def View.keep (seen : View × List Char) (c : Char) : View × List Char :=
  let after := seen.1.step c
  (after.1, if after.2 then c :: seen.2 else seen.2)

/-- A text without its control codes. -/
def withoutControls (s : String) : String :=
  String.ofList (s.toList.foldl View.keep (.shown none, [])).2.reverse

end OnePass.Text
