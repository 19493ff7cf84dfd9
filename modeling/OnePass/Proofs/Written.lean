import OnePass.Proofs.Parsing
import OnePass.Proofs.Scanning

/-! # Statements written out, one to a line

    A written statement carries the proofs that its parts are cut as they
    were meant, so a text made of written statements can only be read in one
    way.

    * `Text.lines_intercalate` : joining lines and cutting them again.
    * `WrittenArgument`, `WrittenStatement` : texts and what they stand for.
    * `WrittenStatement.ofLine_text` : the tokens of a written statement are
      those of its derivation tree.
    * `readSource_of_lines`, `readSource_written` : a source of written
      statements reads back. -/

namespace OnePass

/-! ## Lines -/

namespace Text

theorem pieces_intercalate {cut : Char} {ls : List (List Char)} (hne : ls ≠ [])
    (h : ∀ l ∈ ls, cut ∉ l) : pieces cut ([cut].intercalate ls) = ls := by
  induction ls with
  | nil => exact absurd rfl hne
  | cons l ls ih =>
    rw [List.forall_mem_cons] at h
    cases ls with
    | nil =>
      rw [List.intercalate_singleton]
      exact pieces_of_not_mem h.1
    | cons l' ls =>
      rw [List.intercalate_cons_cons, List.append_assoc, List.singleton_append,
        pieces_append_cut, pieces_of_not_mem h.1, ih (List.cons_ne_nil _ _) h.2]
      rfl

/-- A line whose end cannot be mistaken: it is not empty, and no carriage
    return stands where a line's ending begins. -/
structure IsLine (l : List Char) : Prop where
  newline_not_mem : '\n' ∉ l
  ne_nil : l ≠ []
  getLast?_ne : l.getLast? ≠ some '\r'

theorem dropReturn_of_isLine {l : List Char} (h : IsLine l) : dropReturn l = l :=
  if_neg h.getLast?_ne

/-- Lines that are joined by newlines are cut apart again. -/
theorem lines_intercalate {ls : List (List Char)} (h : ∀ l ∈ ls, IsLine l) :
    lines (['\n'].intercalate ls) = ls := by
  by_cases hne : ls = []
  · subst hne
    rfl
  · have hpieces : pieces '\n' (['\n'].intercalate ls) = ls :=
      pieces_intercalate hne fun l hl => (h l hl).newline_not_mem
    have hkept : ls.dropLast.map dropReturn = ls.dropLast := by
      refine List.map_congr_left (fun l hl => ?_) |>.trans (List.map_id _)
      exact dropReturn_of_isLine (h l ((List.dropLast_sublist ls).mem hl))
    have hlast := List.getLast_mem hne
    unfold lines
    dsimp only
    rw [hpieces, hkept, List.getLast?_eq_some_getLast hne]
    -- The last line is kept because it is not empty.
    cases hl : ls.getLast hne with
    | nil => exact absurd hl (h _ hlast).ne_nil
    | cons c r =>
      dsimp only
      rw [← hl]
      exact List.dropLast_append_getLast hne

end Text

/-! ## Written statements -/

/-- The text of an argument: it is cut as one lexeme, and that lexeme spells
    the argument. -/
structure WrittenArgument where
  text : List Char
  lexeme : Lexeme
  argument : Argument
  cut : lexeme.CutFrom text
  spells : ∀ p : Position, Spells ⟨lexeme, p⟩ argument
  newline_not_mem : '\n' ∉ text

/-- A name and written arguments. -/
structure WrittenStatement where
  name : String
  isWord : Lexeme.isWord name.toList = true
  arguments : List WrittenArgument

namespace WrittenStatement

/-- The arguments after the first, each with the comma and the blank before
    it. -/
def moreText (as : List WrittenArgument) : List Char :=
  as.flatMap fun a => ',' :: ' ' :: a.text

def argumentsText (as : List WrittenArgument) : List Char :=
  [',', ' '].intercalate (as.map (·.text))

/-- The line of a written statement. -/
def text (s : WrittenStatement) : List Char :=
  s.name.toList ++ '(' :: (argumentsText s.arguments ++ [')'])

/-- The statement that is written, standing at `p`. -/
def statement (s : WrittenStatement) (p : Position) : Statement :=
  ⟨p, s.name, s.arguments.map (·.argument)⟩

theorem argumentsText_cons (a : WrittenArgument) (as : List WrittenArgument) :
    argumentsText (a :: as) = a.text ++ moreText as := by
  induction as generalizing a with
  | nil => simp [argumentsText, moreText]
  | cons b as ih =>
    have hb := ih b
    unfold argumentsText moreText at hb ⊢
    rw [List.map_cons] at hb
    rw [List.map_cons, List.map_cons, List.intercalate_cons_cons, hb, List.flatMap_cons]
    simp

theorem newline_not_mem_text (s : WrittenStatement) : '\n' ∉ s.text := by
  have hname := Lexeme.newline_not_mem_of_isWordChar (Lexeme.isWordChar_of_isWord s.isWord)
  have hmore : ∀ as : List WrittenArgument, '\n' ∉ moreText as := by
    intro as
    simp only [moreText, List.mem_flatMap, List.mem_cons, not_exists, not_and]
    rintro a - (h | h | h)
    · cases h
    · cases h
    · exact a.newline_not_mem h
  have harguments : '\n' ∉ argumentsText s.arguments := by
    cases s.arguments with
    | nil => simp [argumentsText]
    | cons a as =>
      rw [argumentsText_cons, List.mem_append]
      exact not_or.2 ⟨a.newline_not_mem, hmore as⟩
  simp [text, hname, harguments]

theorem isLine_text (s : WrittenStatement) : Text.IsLine s.text where
  newline_not_mem := s.newline_not_mem_text
  ne_nil := by simp [text]
  getLast?_ne := by
    -- A written statement ends in its closing parenthesis.
    have hlast : s.text = s.name.toList ++ '(' :: argumentsText s.arguments ++ [')'] := by
      simp [text]
    rw [hlast, List.getLast?_concat]
    decide

/-! ## Scanning a written statement -/

theorem breaks_moreText (as : List WrittenArgument) (rest : List Char) :
    Breaks (moreText as ++ ')' :: rest) := by
  cases as with
  | nil => exact .cons _ (by decide)
  | cons a as => exact .cons _ (by decide)

theorem lexemes_closeParen : lexemes [')'] = [.closeParen] := by
  rw [lexemes_punctuation [] rfl, lexemes_nil]

theorem lexemes_moreText (as : List WrittenArgument) :
    lexemes (moreText as ++ [')']) =
      as.flatMap (fun a => [.comma, a.lexeme]) ++ [.closeParen] := by
  induction as with
  | nil => exact lexemes_closeParen
  | cons a as ih =>
    have hcut := a.cut _ (breaks_moreText as [])
    have htext : moreText (a :: as) ++ [')'] =
        ',' :: ' ' :: (a.text ++ (moreText as ++ [')'])) := by
      simp [moreText]
    rw [htext, lexemes_punctuation _ rfl, lexemes_blank (by decide), hcut, ih]
    rfl

/-- The lexemes between the parentheses. -/
def argumentLexemes : List WrittenArgument → List Lexeme
  | []      => []
  | a :: as => a.lexeme :: as.flatMap fun b => [.comma, b.lexeme]

theorem lexemes_argumentsText (as : List WrittenArgument) :
    lexemes (argumentsText as ++ [')']) = argumentLexemes as ++ [.closeParen] := by
  cases as with
  | nil => exact lexemes_closeParen
  | cons a as =>
    rw [argumentsText_cons, List.append_assoc, a.cut _ (breaks_moreText as []),
      lexemes_moreText]
    rfl

theorem lexemes_text (s : WrittenStatement) :
    lexemes s.text =
      .word s.name :: .openParen :: (argumentLexemes s.arguments ++ [.closeParen]) := by
  have hname := Lexeme.cutFrom_word s.isWord
  rw [String.ofList_toList] at hname
  -- The name ends at `(`, and every argument at `,` or `)`.
  rw [text, hname _ (.cons _ (by decide)), lexemes_punctuation _ rfl, lexemes_argumentsText]

/-! ## The derivation tree of a written statement -/

/-- A written argument as a node of a tree, at `p`. -/
def argumentNode (p : Position) (a : WrittenArgument) : ArgumentNode :=
  ⟨⟨a.lexeme, p⟩, a.argument, a.spells p⟩

def argumentsNode (p : Position) : List WrittenArgument → Option ArgumentsNode
  | []      => none
  | a :: as =>
    some ⟨argumentNode p a, as.map fun b => (⟨⟨.comma, p⟩, rfl⟩, argumentNode p b), none⟩

/-- A written statement as a tree, at `p`. -/
def node (s : WrittenStatement) (p : Position) : StatementNode where
  head := ⟨.word s.name, p⟩
  name := s.name
  head_eq := rfl
  opening := ⟨⟨.openParen, p⟩, rfl⟩
  arguments := argumentsNode p s.arguments
  closing := ⟨⟨.closeParen, p⟩, rfl⟩

theorem argumentTokens_argumentsNode (p : Position) (as : List WrittenArgument) :
    StatementNode.argumentTokens (argumentsNode p as) =
      (argumentLexemes as).map fun l => ⟨l, p⟩ := by
  cases as with
  | nil => rfl
  | cons a as =>
    simp [argumentsNode, argumentLexemes, StatementNode.argumentTokens, ArgumentsNode.tokens,
      ArgumentsNode.tailTokens, argumentNode, List.flatMap_map, List.map_flatMap]

theorem argumentValues_argumentsNode (p : Position) (as : List WrittenArgument) :
    StatementNode.argumentValues (argumentsNode p as) = as.map (·.argument) := by
  cases as with
  | nil => rfl
  | cons a as =>
    simp [argumentsNode, StatementNode.argumentValues, ArgumentsNode.arguments, argumentNode]

theorem statement_node (s : WrittenStatement) (p : Position) :
    (s.node p).statement = s.statement p := by
  unfold StatementNode.statement statement
  rw [← argumentValues_argumentsNode p s.arguments]
  rfl

/-- The tokens of a written statement's line are those of its tree, and the
    mark for the line's end. -/
theorem ofLine_text (file : String) (index : Nat) (s : WrittenStatement) :
    Token.ofLine file index s.text =
      (s.node ⟨file, index + 1⟩).tokens ++ [⟨.endOfLine, ⟨file, index + 1⟩⟩] := by
  unfold Token.ofLine StatementNode.tokens
  rw [lexemes_text]
  simp [node, argumentTokens_argumentsNode]

/-! ## A source of written statements -/

/-- The tree of written statements on consecutive lines, from `index` on. -/
def derivation (file : String) (index : Nat) : List WrittenStatement → Derivation
  | []      => .empty
  | s :: ss =>
    .stated (s.node ⟨file, index + 1⟩) ⟨⟨.endOfLine, ⟨file, index + 1⟩⟩, .inr rfl⟩
      (derivation file (index + 1) ss)

theorem tokens_derivation (file : String) (index : Nat) (ss : List WrittenStatement) :
    (derivation file index ss).tokens =
      ((ss.map (·.text)).zipIdx index).flatMap fun (line, index) =>
        Token.ofLine file index line := by
  induction ss generalizing index with
  | nil => rfl
  | cons s ss ih =>
    rw [derivation, Derivation.tokens_stated, ih, List.map_cons, List.zipIdx_cons,
      List.flatMap_cons]
    dsimp only
    rw [ofLine_text, List.append_assoc, List.singleton_append]

theorem statements_derivation (file : String) (index : Nat) (ss : List WrittenStatement) :
    (derivation file index ss).statements =
      (ss.zipIdx index).map fun (s, index) => s.statement ⟨file, index + 1⟩ := by
  induction ss generalizing index with
  | nil => rfl
  | cons s ss ih =>
    rw [derivation, Derivation.statements_stated, ih, List.zipIdx_cons, List.map_cons,
      statement_node]

end WrittenStatement

/-- A source whose lines are written statements reads back as the statements
    that they stand for, each on its own line. -/
theorem readSource_of_lines (file : String) {source : String} {ss : List WrittenStatement}
    (hlines : Text.lines source.toList = ss.map (·.text)) :
    readSource file source =
      .ok (ss.zipIdx.map fun (s, index) => s.statement ⟨file, index + 1⟩) := by
  have htokens : Token.ofSource file source =
      (WrittenStatement.derivation file 0 ss).tokens := by
    rw [Token.ofSource, hlines, WrittenStatement.tokens_derivation]
  -- The reader is never followed: it finds whatever derivation there is.
  unfold readSource
  rw [Cursor.statements_eq_ok_iff, htokens]
  refine ⟨WrittenStatement.derivation file 0 ss, ?_, ?_⟩
  · exact (Derivation.withoutComments_tokens _).symm
  · exact WrittenStatement.statements_derivation file 0 ss

/-- Written statements that are joined by newlines read back. -/
theorem readSource_written (file : String) (ss : List WrittenStatement) :
    readSource file (String.ofList (['\n'].intercalate (ss.map (·.text)))) =
      .ok (ss.zipIdx.map fun (s, index) => s.statement ⟨file, index + 1⟩) := by
  apply readSource_of_lines
  rw [String.toList_ofList]
  refine Text.lines_intercalate fun l hl => ?_
  obtain ⟨s, _, rfl⟩ := List.mem_map.1 hl
  exact s.isLine_text

end OnePass
