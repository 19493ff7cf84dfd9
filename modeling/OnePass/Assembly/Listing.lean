import OnePass.Assembly.State

/-! # Listings

    A listing shows the image row by row.  A heading row stands wherever the
    source file changes, and the labels of an address stand directly before
    its instruction. -/

namespace OnePass

/-- A row of a listing. -/
inductive Row where
  | heading (file : String)
  | label (name : String)
  | entry (address : Nat) (e : Entry)
  | footing
  deriving DecidableEq, Repr

namespace Row

/-- Width of the column left of the divider. -/
def gutter : Nat := 19

def render : Row → String
  | heading file =>
    Text.fill gutter '-' ++ "+------[" ++ file ++ "]" ++ Text.fill (45 - file.utf8ByteSize) '-'
  | label name =>
    Text.fill gutter ' ' ++ "| " ++ Text.Style.escape .green ++ name ++ ":"
      ++ Text.Style.escape .plainColour
  | entry address e =>
    let w := e.instruction.encode
    "[" ++ hexPadded 4 address ++ "] "
      ++ hexPadded 2 (w.toNat / 256) ++ " " ++ hexPadded 2 (w.toNat % 256)
      ++ "     | " ++ Text.padLeft 4 (decimal e.origin.line) ++ ":   " ++ e.instruction.styled
  | footing =>
    Text.fill gutter '-' ++ "+" ++ Text.fill 53 '-'

end Row

namespace Listing

/-- The rows of the labels at an address. -/
def labelRows (t : Symbols) (address : Nat) : List Row :=
  (t.labelsAt address).map fun l => .label l.name

/-- A heading for `file` unless the entry before is from the same file. -/
def headingRows (before : Option String) (file : String) : List Row :=
  if before = some file then [] else [.heading file]

/-- The rows of an entry: heading, labels, instruction. -/
def entryRows (t : Symbols) (before : Option String) (address : Nat) (e : Entry) : List Row :=
  headingRows before e.origin.file ++ labelRows t address ++ [.entry address e]

/-- For each entry, the file of the entry before it. -/
def filesBefore (es : List Entry) : List (Option String) :=
  none :: es.map fun e => some e.origin.file

/-- The rows of all entries. -/
def bodyRows (t : Symbols) (es : List Entry) : List Row :=
  (es.zip (filesBefore es)).zipIdx.flatMap fun ((e, before), index) =>
    entryRows t before (index % addressSpan) e

/-- The rows of a listing.  Labels at the current address come last. -/
def rows (s : Assembly) : List Row :=
  bodyRows s.symbols s.image.entries.toList ++ labelRows s.symbols s.image.here ++ [.footing]

/-- A listing as lines of text. -/
def lines (s : Assembly) : List String :=
  (rows s).map Row.render

end Listing

end OnePass
