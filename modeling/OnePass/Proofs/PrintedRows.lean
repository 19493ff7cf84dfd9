import Mathlib.Data.List.SplitBy
import OnePass.Assembly.Listing
import OnePass.Proofs.Literals

/-! # Printed rows

    Who reads a listing has its text only.  The reader below knows the layout
    of the lines by their fixed parts and finds what stands between them, and
    it is shown to find what was printed: no label or file, however odd its
    name, makes a line look like another one.

    * `Line`, `Line.read?` : what a line says, read from its text.
    * `Line.read?_render` : a printed row says what the row holds. -/

namespace OnePass

/-- What a line of a listing says. -/
inductive Line where
  | heading (file : String)
  | label (name : String)
  | word (address : Nat) (high low : UInt8) (line : Nat) (code : String)
  | footing
  deriving DecidableEq, Repr

namespace Line

/-- A heading has its file in brackets, with dashes on both sides.  The file may
    have brackets and dashes of its own, so that it ends at the last bracket. -/
def heading? (text : String) : Option Line := do
  let rest ← text.toList.dropPrefix? "-------------------+------[".toList
  match rest.reverse.dropWhile (· == '-') with
  | ']' :: file => some (.heading (String.ofList file.reverse))
  | _           => none

/-- A label has its name and a colon in green. -/
def label? (text : String) : Option Line := do
  let rest ← text.toList.dropPrefix? "                   | \x1b[32m".toList
  let name ← rest.dropSuffix? ":\x1b[39m".toList
  some (.label (String.ofList name))

/-- The line number behind the divider, and the instruction behind its colon. -/
def source? (cs : List Char) : Option (Nat × String) := do
  let rest ← cs.dropPrefix? "     | ".toList
  let number := rest.dropWhile (· == ' ')
  let line ← Radix.decimal.read? (number.takeWhile (· != ':'))
  let code ← (number.dropWhile (· != ':')).dropPrefix? ":   ".toList
  some (line, String.ofList code)

/-- A word has its address as a hexadecimal number in brackets, then its two
    bytes in two hexadecimal digits each, and then its source. -/
def word? (text : String) : Option Line := do
  let rest ← text.toList.dropPrefix? "[".toList
  let address ← Radix.hexadecimal.read? (rest.takeWhile (· != ']'))
  match rest.dropWhile (· != ']') with
  | ']' :: ' ' :: a :: b :: ' ' :: c :: d :: source => do
    let high ← Radix.hexadecimal.read? [a, b]
    let low ← Radix.hexadecimal.read? [c, d]
    let (line, code) ← source? source
    some (.word address (.ofNat high) (.ofNat low) line code)
  | _ => none

def footing? (text : String) : Option Line :=
  if text = "-------------------+-----------------------------------------------------" then
    some .footing
  else
    none

/-- What a text says as a line.  Its first character tells which kind of line it
    can be. -/
def read? (text : String) : Option Line :=
  match text.toList.head? with
  | some '[' => word? text
  | some ' ' => label? text
  | some '-' => heading? text <|> footing? text
  | _        => none

/-- The name that a line declares. -/
def name? : Line → Option String
  | label name => some name
  | _          => none

/-- The address and the two bytes that a line shows. -/
def columns? : Line → Option (Nat × UInt8 × UInt8)
  | word address high low _ _ => some (address, high, low)
  | _                         => none

end Line

/-- The word of an entry at an address. -/
def Entry.line (e : Entry) (address : Nat) : Line :=
  .word address (.ofNat (e.instruction.encode.toNat / 256))
    (.ofNat (e.instruction.encode.toNat % 256)) e.origin.line e.instruction.styled

/-- What a row holds. -/
def Row.line : Row → Line
  | heading file    => .heading file
  | label name      => .label name
  | entry address e => e.line address
  | footing         => .footing

namespace Line

open Row

/-! ## Fixed parts -/

theorem dropPrefix?_self (first rest : List Char) :
    (first ++ rest).dropPrefix? first = some rest :=
  List.dropPrefix?_append_of_beq rest (beq_self_eq_true first)

theorem beq_of_mem_fill {n : Nat} {c d : Char} (h : d ∈ (Text.fill n c).toList) :
    (d == c) = true := by
  rw [Text.fill, String.toList_ofList] at h
  exact beq_iff_eq.2 (List.eq_of_mem_replicate h)

/-! ## Headings and labels -/

theorem read?_heading (file : String) : read? (render (.heading file)) = some (.heading file) := by
  have hrule : Text.fill gutter '-' ++ "+------[" = "-------------------+------[" := by decide
  have htext : (render (.heading file)).toList = "-------------------+------[".toList ++
      (file.toList ++ ("]".toList ++ (Text.fill (45 - file.utf8ByteSize) '-').toList)) := by
    show (Text.fill gutter '-' ++ "+------[" ++ file ++ "]"
      ++ Text.fill (45 - file.utf8ByteSize) '-').toList = _
    simp only [hrule, String.toList_append, List.append_assoc]
  generalize hfill : Text.fill (45 - file.utf8ByteSize) '-' = dashes at htext
  have hdashes : ∀ c ∈ dashes.toList.reverse, (c == '-') = true := by
    intro c hc
    rw [← hfill, List.mem_reverse] at hc
    exact beq_of_mem_fill hc
  have hheading : heading? (render (.heading file)) = some (.heading file) := by
    rw [heading?, htext, dropPrefix?_self]
    -- Seen from the end there are only dashes before the last bracket.
    show (match (file.toList ++ ("]".toList ++ dashes.toList)).reverse.dropWhile (· == '-') with
      | ']' :: file => some (Line.heading (String.ofList file.reverse))
      | _           => none) = _
    rw [List.reverse_append, List.reverse_append, List.append_assoc,
      List.dropWhile_append_of_pos hdashes]
    show some (Line.heading (String.ofList file.toList.reverse.reverse)) = _
    rw [List.reverse_reverse, String.ofList_toList]
  rw [read?, hheading, htext]
  rfl

theorem read?_label (name : String) : read? (render (.label name)) = some (.label name) := by
  have hrule : Text.fill gutter ' ' ++ "| " ++ Text.Style.escape .green =
      "                   | \x1b[32m" := by decide
  have hplain : ":" ++ Text.Style.escape .plainColour = ":\x1b[39m" := by decide
  have htext : (render (.label name)).toList = "                   | \x1b[32m".toList ++
      (name.toList ++ ":\x1b[39m".toList) := by
    show (Text.fill gutter ' ' ++ "| " ++ Text.Style.escape .green ++ name ++ ":"
      ++ Text.Style.escape .plainColour).toList = _
    simp only [hrule, ← hplain, String.toList_append, List.append_assoc]
  have hname : (name.toList ++ ":\x1b[39m".toList).dropSuffix? ":\x1b[39m".toList =
      some name.toList :=
    List.dropSuffix?_eq_some_iff.2 ⟨_, rfl, beq_self_eq_true _⟩
  have hlabel : label? (render (.label name)) = some (.label name) := by
    rw [label?, htext, dropPrefix?_self, Option.bind_eq_bind, Option.bind_some, hname,
      Option.bind_some, String.ofList_toList]
  rw [read?, hlabel, htext]
  rfl

/-! ## Words -/

theorem read?_decimal (n : Nat) : Radix.decimal.read? (decimal n).toList = some n := by
  rw [toList_decimal, Radix.read?_write]

/-- A number has no blank in front. -/
theorem dropWhile_decimal (n : Nat) (rest : List Char) :
    ((decimal n).toList ++ rest).dropWhile (· == ' ') = (decimal n).toList ++ rest := by
  have hblank := decimal_forall (P := fun c => (c == ' ') = false) (by decide) n
  have hread := read?_decimal n
  cases hn : (decimal n).toList with
  | nil =>
    rw [hn] at hread
    cases hread
  | cons c cs =>
    rw [hn] at hblank
    rw [List.cons_append, List.dropWhile_cons, hblank c (List.mem_cons_self ..)]
    rfl

theorem source?_padLeft (width line : Nat) (code : String) :
    source? ("     | " ++ Text.padLeft width (decimal line) ++ ":   " ++ code).toList =
      some (line, code) := by
  have hblanks : ∀ c ∈ (Text.fill (width - (decimal line).length) ' ').toList,
      (c == ' ') = true := by
    intro c hc
    exact beq_of_mem_fill hc
  have hcolon : ∀ c ∈ (decimal line).toList, (c != ':') = true :=
    decimal_forall (P := fun c => (c != ':') = true) (by decide) line
  have hstop : ∀ rest : List Char, (":   ".toList ++ rest).takeWhile (· != ':') = [] ∧
      (":   ".toList ++ rest).dropWhile (· != ':') = ":   ".toList ++ rest :=
    fun _ => ⟨rfl, rfl⟩
  simp only [source?, String.toList_append, Text.padLeft, List.append_assoc,
    dropPrefix?_self, Option.bind_eq_bind, Option.bind_some,
    List.dropWhile_append_of_pos hblanks, dropWhile_decimal,
    List.takeWhile_append_of_pos hcolon, List.dropWhile_append_of_pos hcolon, hstop,
    List.append_nil, read?_decimal, String.ofList_toList]

theorem toList_render_entry (address : Nat) (e : Entry) :
    (render (.entry address e)).toList =
      "[".toList ++ ((hexPadded 4 address).toList ++ ("] ".toList ++
        ((hexPadded 2 (e.instruction.encode.toNat / 256)).toList ++ (" ".toList ++
          ((hexPadded 2 (e.instruction.encode.toNat % 256)).toList ++
            ("     | " ++ Text.padLeft 4 (decimal e.origin.line) ++ ":   "
              ++ e.instruction.styled).toList))))) := by
  show ("[" ++ hexPadded 4 address ++ "] " ++ hexPadded 2 (e.instruction.encode.toNat / 256)
    ++ " " ++ hexPadded 2 (e.instruction.encode.toNat % 256) ++ "     | "
    ++ Text.padLeft 4 (decimal e.origin.line) ++ ":   " ++ e.instruction.styled).toList = _
  simp only [String.toList_append, List.append_assoc]

theorem read?_entry (address : Nat) (e : Entry) :
    read? (render (.entry address e)) = some (e.line address) := by
  have htext := toList_render_entry address e
  have hsource := source?_padLeft 4 e.origin.line e.instruction.styled
  have hword : e.instruction.encode.toNat < 65536 := e.instruction.encode.isLt
  unfold Entry.line
  generalize e.instruction.encode.toNat = w at htext hword ⊢
  generalize ("     | " ++ Text.padLeft 4 (decimal e.origin.line) ++ ":   "
    ++ e.instruction.styled).toList = source at htext hsource
  have hbracket : ∀ c ∈ (hexPadded 4 address).toList, (c != ']') = true :=
    hexPadded_forall (P := fun c => (c != ']') = true) (by decide) 4 address
  -- Each byte takes exactly two places, so that the columns are where they are
  -- looked for.
  have hquotient : w / 256 < 256 := by omega
  have hremainder : w % 256 < 256 := by omega
  obtain ⟨a, b, hab⟩ := List.length_eq_two.1 (length_hexPadded_byte hquotient)
  obtain ⟨c, d, hcd⟩ := List.length_eq_two.1 (length_hexPadded_byte hremainder)
  have hhigh := read?_hexPadded 2 (w / 256)
  have hlow := read?_hexPadded 2 (w % 256)
  rw [hab] at hhigh
  rw [hcd] at hlow
  rw [hab, hcd] at htext
  have hentry : word? (render (.entry address e)) =
      some (.word address (.ofNat (w / 256)) (.ofNat (w % 256)) e.origin.line
        e.instruction.styled) := by
    rw [word?, htext, dropPrefix?_self, Option.bind_eq_bind, Option.bind_some,
      List.takeWhile_append_of_pos hbracket, List.dropWhile_append_of_pos hbracket]
    simp [hhigh, hlow, hsource, read?_hexPadded]
  rw [read?, hentry, htext]
  rfl

/-- A printed row says what the row holds. -/
theorem read?_render (r : Row) : read? r.render = some r.line := by
  cases r with
  | heading file => exact read?_heading file
  | label name => exact read?_label name
  | entry address e => exact read?_entry address e
  | footing => decide +kernel

end Line

end OnePass
