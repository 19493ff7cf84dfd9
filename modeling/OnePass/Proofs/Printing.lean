import OnePass.Proofs.Composition
import OnePass.Proofs.Literals
import OnePass.Proofs.Written

/-! # Printed statements read back

    The text of a statement determines the statement, as long as its names
    are names, its numbers are in range and its texts can be quoted.

    * `IsName`, `Argument.Printable`, `Statement.Printable` : what can be
      printed.
    * `Argument.written`, `Statement.written` : the printed text as a written
      statement.
    * `Text.lines_terminated` : lines that each end in a newline.
    * `readSource_render` : printing statements and reading them. -/

namespace OnePass

/-! ## What can be printed -/

/-- A name: letters, digits and underscores, and not a digit in front. -/
def IsName (s : String) : Prop :=
  s ≠ "" ∧ (∀ c ∈ s.toList, c.isAlphanum = true ∨ c = '_') ∧
    ∀ c ∈ s.toList.head?, c.isDigit = false

instance (s : String) : Decidable (IsName s) :=
  -- Named, so that no instance is found that goes through all characters there are.
  @instDecidableAnd _ _ _
    (@instDecidableAnd _ _ (List.decidableBAll _ _) (Option.decidableForallMem _))

/-- An argument whose text is that of no other argument.  A text may hold
    anything that ends neither the text nor the line. -/
def Argument.Printable : Argument → Prop
  | number n => n < Literal.bound
  | name s   => IsName s
  | text s   => '"' ∉ s.toList ∧ '\n' ∉ s.toList

instance (a : Argument) : Decidable a.Printable :=
  match a with
  | .number n => inferInstanceAs (Decidable (n < Literal.bound))
  | .name s   => inferInstanceAs (Decidable (IsName s))
  | .text s   => inferInstanceAs (Decidable ('"' ∉ s.toList ∧ '\n' ∉ s.toList))

/-- A statement all of whose parts can be printed. -/
def Statement.Printable (s : Statement) : Prop :=
  IsName s.name ∧ ∀ a ∈ s.arguments, a.Printable

instance (s : Statement) : Decidable s.Printable :=
  inferInstanceAs (Decidable (_ ∧ _))

/-- A name is cut as one word. -/
theorem IsName.isWord {s : String} (h : IsName s) : Lexeme.isWord s.toList = true := by
  obtain ⟨hne, hchars, hhead⟩ := h
  have hwordChar : ∀ c ∈ s.toList, Lexeme.isWordChar c = true := by
    intro c hc
    rcases hchars c hc with halphanum | rfl
    · simp [Lexeme.isWordChar, halphanum]
    · rfl
  cases hcs : s.toList with
  | nil => exact absurd (String.toList_eq_nil_iff.1 hcs) hne
  | cons c cs =>
    rw [hcs] at hwordChar hhead
    rw [List.forall_mem_cons] at hwordChar
    -- The first character is a word character and no digit.
    have hstart : Lexeme.isWordStart c = true := by
      have hc := hwordChar.1
      rwa [Lexeme.isWordChar_eq, hhead c rfl, Bool.false_or] at hc
    have hrest : cs.all Lexeme.isWordChar = true := List.all_eq_true.2 hwordChar.2
    rw [Lexeme.isWord, hstart, hrest]
    rfl

/-! ## Printed arguments -/

namespace WrittenArgument

/-- A number in decimal. -/
def decimal (n : Nat) (h : n < Literal.bound) : WrittenArgument where
  text := (OnePass.decimal n).toList
  lexeme := .number (OnePass.decimal n)
  argument := .number n
  cut := by
    have hdigits : ∀ c ∈ (OnePass.decimal n).toList, c.isDigit = true :=
      decimal_forall (P := fun c => c.isDigit = true) (by decide) n
    -- There is a first digit, and digits go on as long as word characters do.
    cases hcs : (OnePass.decimal n).toList with
    | nil =>
      rw [toList_decimal] at hcs
      exact absurd (List.map_eq_nil_iff.1 hcs) (Radix.digits_ne_nil _ n)
    | cons c cs =>
      rw [hcs, List.forall_mem_cons] at hdigits
      have hcut := Lexeme.cutFrom_number hdigits.1 fun d hd =>
        Lexeme.isWordChar_of_isDigit (hdigits.2 d hd)
      rwa [← hcs, String.ofList_toList, hcs] at hcut
  spells _ := .number (Literal.value?_decimal h)
  newline_not_mem := Lexeme.newline_not_mem_of_isWordChar
    (decimal_forall (P := fun c => Lexeme.isWordChar c = true) (by decide) n)

/-- A name, as it is. -/
def word (s : String) (h : IsName s) : WrittenArgument where
  text := s.toList
  lexeme := .word s
  argument := .name s
  cut := by
    have hcut := Lexeme.cutFrom_word h.isWord
    rwa [String.ofList_toList] at hcut
  spells _ := .word
  newline_not_mem :=
    Lexeme.newline_not_mem_of_isWordChar (Lexeme.isWordChar_of_isWord h.isWord)

/-- A text in double quotes. -/
def quoted (s : String) (hquote : '"' ∉ s.toList) (hnewline : '\n' ∉ s.toList) :
    WrittenArgument where
  text := '"' :: (s.toList ++ ['"'])
  lexeme := .text s
  argument := .text s
  cut := by
    have hcut := Lexeme.cutFrom_text (.inl rfl) hquote
    rwa [String.ofList_toList] at hcut
  spells _ := .text
  newline_not_mem := by simp [hnewline]

end WrittenArgument

/-- The text of a printable argument, with the proof that it is read as that
    argument. -/
def Argument.written : (a : Argument) → a.Printable → WrittenArgument
  | number n, h => .decimal n h
  | name s, h   => .word s h
  | text s, h   => .quoted s h.1 h.2

@[simp] theorem Argument.text_written (a : Argument) (h : a.Printable) :
    (a.written h).text = a.render.toList := by
  cases a with
  | number n => rfl
  | name s => rfl
  | text s => simp [written, WrittenArgument.quoted, render]

@[simp] theorem Argument.argument_written (a : Argument) (h : a.Printable) :
    (a.written h).argument = a := by
  cases a <;> rfl

/-! ## Printed statements -/

namespace Statement

/-- The line of a printable statement. -/
def written (s : Statement) (h : s.Printable) : WrittenStatement where
  name := s.name
  isWord := h.1.isWord
  arguments := s.arguments.pmap Argument.written h.2

@[simp] theorem text_written (s : Statement) (h : s.Printable) :
    (s.written h).text = s.render.toList := by
  have harguments : WrittenStatement.argumentsText (s.arguments.pmap Argument.written h.2) =
      (String.intercalate ", " (s.arguments.map Argument.render)).toList := by
    simp [WrittenStatement.argumentsText, List.map_pmap, Function.comp_def]
  unfold WrittenStatement.text
  rw [written, harguments]
  simp [render]

@[simp] theorem statement_written (s : Statement) (h : s.Printable) (p : Position) :
    (s.written h).statement p = { s with position := p } := by
  simp [WrittenStatement.statement, written, List.map_pmap]

/-- The statements of a printed list, line by line. -/
theorem map_statement_written (file : String) {ss : List Statement}
    (h : ∀ s ∈ ss, s.Printable) :
    ((ss.pmap written h).zipIdx.map fun (s, index) => s.statement ⟨file, index + 1⟩) =
      ss.zipIdx.map fun (s, index) => { s with position := ⟨file, index + 1⟩ } := by
  apply List.ext_getElem
  · simp
  · intro i _ _
    simp

end Statement

/-! ## Printed sources -/

/-- Lines that each end in a newline are cut apart again. -/
theorem Text.lines_terminated {ls : List (List Char)} (h : ∀ l ∈ ls, IsLine l) :
    lines (ls.flatMap fun l => l ++ ['\n']) = ls := by
  induction ls with
  | nil => rfl
  | cons l ls ih =>
    rw [List.forall_mem_cons] at h
    rw [List.flatMap_cons, List.append_assoc, List.singleton_append, lines_append_newline,
      pieces_of_not_mem h.1.newline_not_mem, ih h.2, List.map_singleton,
      dropReturn_of_isLine h.1]
    rfl

/-- Statements that are printed one to a line, with newlines between them or
    with one after each, are read back as they were, each on its own line. -/
theorem readSource_render (file : String) {ss : List Statement}
    (h : ∀ s ∈ ss, s.Printable) :
    readSource file (String.intercalate "\n" (ss.map Statement.render)) =
        .ok (ss.zipIdx.map fun (s, index) => { s with position := ⟨file, index + 1⟩ }) ∧
      readSource file (String.join (ss.map fun s => s.render ++ "\n")) =
        .ok (ss.zipIdx.map fun (s, index) => { s with position := ⟨file, index + 1⟩ }) := by
  have htexts : (ss.pmap Statement.written h).map (·.text) =
      ss.map fun s => s.render.toList := by
    simp [List.map_pmap]
  have hlines : ∀ l ∈ ss.map fun s => s.render.toList, Text.IsLine l := by
    intro l hl
    rw [← htexts] at hl
    obtain ⟨w, _, rfl⟩ := List.mem_map.1 hl
    exact w.isLine_text
  have hread : ∀ source : String,
      Text.lines source.toList = (ss.map fun s => s.render.toList) →
      readSource file source =
        .ok (ss.zipIdx.map fun (s, index) => { s with position := ⟨file, index + 1⟩ }) := by
    intro source hsource
    rw [← htexts] at hsource
    rw [readSource_of_lines file hsource, Statement.map_statement_written]
  -- Both layouts have the same lines.
  constructor
  · apply hread
    have hjoined := Text.lines_intercalate hlines
    simpa [Function.comp_def] using hjoined
  · apply hread
    have hterminated := Text.lines_terminated hlines
    simpa [List.flatMap_map] using hterminated

/-- A text with a comment mark, punctuation, a carriage return and a quote of
    the other kind, and the largest number. -/
def hardStatements : List Statement :=
  [⟨⟨"", 0⟩, "_x1", [.text "#,(;)\r'λ", .name "R_0"]⟩,
    ⟨⟨"", 0⟩, "y", [.number 0xFFFFFFFFFFFFFFFFFFFFFFFFFFFFFFFF]⟩]

theorem readSource_render_hard_text :
    (∀ s ∈ hardStatements, s.Printable) ∧
      readSource "t.s"
          "_x1(\"#,(;)\r'λ\", R_0)\ny(340282366920938463463374607431768211455)\n" =
        .ok [⟨⟨"t.s", 1⟩, "_x1", [.text "#,(;)\r'λ", .name "R_0"]⟩,
          ⟨⟨"t.s", 2⟩, "y", [.number 0xFFFFFFFFFFFFFFFFFFFFFFFFFFFFFFFF]⟩] := by
  have hprintable : ∀ s ∈ hardStatements, s.Printable := by
    decide +kernel
  have htext : String.join (hardStatements.map fun s => s.render ++ "\n") =
      "_x1(\"#,(;)\r'λ\", R_0)\ny(340282366920938463463374607431768211455)\n" := by
    decide +kernel
  refine ⟨hprintable, ?_⟩
  rw [← htext]
  exact (readSource_render "t.s" hprintable).2

end OnePass
