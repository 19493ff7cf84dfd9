import OnePass.Proofs.LexicalGrammar

/-! # Lexemes spelled out again

    The spelling of a lexeme in reports is also one of its spellings in source
    text, with one exception: it has double quotes around a text, whatever
    quotes stood there, and a text in single quotes may contain a double quote.

    So the spellings of a line's lexemes, with blanks between them, make up a
    line of their own, and it has the same lexemes just if no text holds a
    double quote.

    * `Lexeme.Plain` : not such a text.
    * `Lexical.Spelling.respell` : the spelling of a plain lexeme spells it.
    * `Lexical.lexemes_respelled_iff` : all lexemes of a line.
    * `Lexical.ofLine_respelled` : its tokens. -/

namespace OnePass

/-- A lexeme other than a text with a double quote in it. -/
def Lexeme.Plain (l : Lexeme) : Prop :=
  ∀ s, l = .text s → '"' ∉ s.toList

/-- The spellings of lexemes, joined by blanks. -/
def respelled (ls : List Lexeme) : String :=
  String.intercalate " " (ls.map Lexeme.spelling)

namespace Lexical

/-! ## One lexeme -/

/-- A lexeme may be followed by anything that does not extend a word, and by
    nothing at all if it reached the end of its line. -/
theorem Spelling.respell {l : Lexeme} {cs rest rest' : List Char} (h : Spelling l cs rest)
    (hplain : l.Plain) (hbreaks : ∀ d ∈ rest'.head?, ¬ WordCharacter d)
    (hend : rest = [] → rest' = []) : Spelling l l.spelling.toList rest' := by
  cases h with
  | openParen => exact .openParen
  | closeParen => exact .closeParen
  | comma => exact .comma
  | semicolon => exact .semicolon
  | @word c cs _ hc hdigit hcs _ =>
    show Spelling _ (String.ofList (c :: cs)).toList rest'
    rw [String.toList_ofList]
    exact .word hc hdigit hcs hbreaks
  | @number c cs _ hc hcs _ =>
    show Spelling _ (String.ofList (c :: cs)).toList rest'
    rw [String.toList_ofList]
    exact .number hc hcs hbreaks
  | @text quote cs _ _ _ =>
    -- Whatever the quotes were, they are double quotes now.
    have hinside : '"' ∉ cs := by
      have hnone := hplain _ rfl
      rwa [String.toList_ofList] at hnone
    have hspelling : (Lexeme.text (String.ofList cs)).spelling.toList = '"' :: (cs ++ ['"']) := by
      simp [Lexeme.spelling]
    rw [hspelling]
    exact .text (.inl rfl) hinside
  | @unclosed quote cs hquote hcs =>
    show Spelling _ (String.ofList (quote :: cs)).toList rest'
    rw [String.toList_ofList, hend rfl]
    exact .unclosed hquote hcs
  | @comment cs ds htrimmed =>
    -- There is nothing left to trim.
    have hspelling : (Lexeme.comment (String.ofList ds)).spelling.toList = '#' :: ds := by
      simp [Lexeme.spelling]
    have htrimmed' : Trimmed ds ds := by
      refine ⟨⟨[], [], ?_, ?_, ?_⟩, htrimmed.head, htrimmed.last⟩
      · simp
      · simp
      · simp
    rw [hspelling, hend rfl]
    exact .comment htrimmed'
  | @stray c _ hblank hstarts =>
    show Spelling _ (String.ofList [c]).toList rest'
    rw [String.toList_ofList]
    exact .stray hblank hstarts

/-- A text with a double quote in it is cut off at that quote. -/
theorem exists_of_not_plain {l : Lexeme} (h : ¬ l.Plain) (rest : List Char) :
    ∃ l' more, lexemes (l.spelling.toList ++ rest) = l' :: more ∧ l' ≠ l := by
  obtain ⟨s, hs⟩ := Classical.not_forall.1 h
  obtain ⟨hl, hquote⟩ := Classical.not_imp.1 hs
  obtain ⟨before, after, hsplit, hbefore⟩ :=
    List.eq_append_cons_of_mem (Classical.not_not.1 hquote)
  have htext : l.spelling.toList ++ rest =
      '"' :: (before ++ '"' :: (after ++ '"' :: rest)) := by
    rw [hl]
    simp [Lexeme.spelling, hsplit]
  have hscan : lexemes (l.spelling.toList ++ rest) =
      .text (String.ofList before) :: lexemes (after ++ '"' :: rest) := by
    rw [htext, Lexeme.lexemes_quote (.inl rfl), Lexeme.scanText_append hbefore]
  refine ⟨_, _, hscan, ?_⟩
  -- What is cut off is shorter than the text.
  intro hsame
  rw [hl] at hsame
  have hcut : (String.ofList before).toList = s.toList :=
    congrArg String.toList (Lexeme.text.inj hsame)
  rw [String.toList_ofList, hsplit] at hcut
  have hlength := congrArg List.length hcut
  rw [List.length_append, List.length_cons] at hlength
  omega

/-! ## The lexemes of a line -/

/-- What follows a lexeme when a list is spelled out. -/
def afterFirst (ls : List Lexeme) : List Char :=
  if ls = [] then [] else ' ' :: (respelled ls).toList

theorem toList_respelled_cons (l : Lexeme) (ls : List Lexeme) :
    (respelled (l :: ls)).toList = l.spelling.toList ++ afterFirst ls := by
  cases ls with
  | nil => simp [respelled, afterFirst]
  | cons l' ls => simp [respelled, afterFirst]

theorem lexemes_afterFirst (ls : List Lexeme) :
    lexemes (afterFirst ls) = lexemes (respelled ls).toList := by
  unfold afterFirst
  by_cases hnil : ls = []
  · rw [if_pos hnil, hnil]
    rfl
  · rw [if_neg hnil, lexemes_blank (by decide)]

theorem breaks_afterFirst (ls : List Lexeme) :
    ∀ d ∈ (afterFirst ls).head?, ¬ WordCharacter d := by
  unfold afterFirst
  by_cases hnil : ls = []
  · rw [if_pos hnil]
    intro d hd
    cases hd
  · rw [if_neg hnil, ← breaks_iff]
    exact .cons _ (by decide)

theorem AllFit.respelled_iff {ps : List Piece} (h : AllFit ps) :
    lexemes (respelled (ps.filterMap Piece.lexeme?)).toList = ps.filterMap Piece.lexeme? ↔
      ∀ l ∈ ps.filterMap Piece.lexeme?, l.Plain := by
  induction ps with
  | nil =>
    show lexemes [] = [] ↔ ∀ l ∈ ([] : List Lexeme), l.Plain
    simp
  | cons p ps ih =>
    obtain ⟨hp, hps⟩ := h
    cases p with
    | blanks cs => exact ih hps
    | lexeme l cs =>
      show lexemes (respelled (l :: ps.filterMap Piece.lexeme?)).toList =
          l :: ps.filterMap Piece.lexeme? ↔ ∀ k ∈ l :: ps.filterMap Piece.lexeme?, k.Plain
      rw [toList_respelled_cons, List.forall_mem_cons]
      by_cases hplain : l.Plain
      · -- Nothing can follow a lexeme that reached the end of its line.
        have hend : ps.flatMap Piece.characters = [] →
            afterFirst (ps.filterMap Piece.lexeme?) = [] := by
          intro hnil
          rw [← hps.lexemes_eq, hnil, lexemes_nil]
          rfl
        have hspelling := Spelling.respell hp hplain (breaks_afterFirst _) hend
        rw [hspelling.lexemes_append, lexemes_afterFirst, List.cons_inj_right, ih hps]
        exact (and_iff_right hplain).symm
      · -- The first lexeme already comes out another one.
        obtain ⟨l', more, hscan, hne⟩ := exists_of_not_plain hplain _
        rw [hscan]
        constructor
        · intro hsame
          exact absurd (List.cons.inj hsame).1 hne
        · intro hall
          exact absurd hall.1 hplain

theorem lexemes_respelled_iff (line : List Char) :
    lexemes (respelled (lexemes line)).toList = lexemes line ↔
      ∀ l ∈ lexemes line, l.Plain := by
  obtain ⟨d, hd⟩ := exists_cutting line
  rw [← hd]
  exact d.allFit.respelled_iff

/-- Spell out the lexemes of a line, without the mark for its end, with blanks
    between them, and scan that as a line: the lexemes are the same as before
    just if no text among them has a double quote in it. -/
theorem ofLine_respelled (file file' : String) (index index' : Nat) (line : List Char) :
    (Token.ofLine file' index'
        (respelled ((Token.ofLine file index line).dropLast.map (·.lexeme))).toList).map
          (·.lexeme) =
        (Token.ofLine file index line).map (·.lexeme) ↔
      ∀ s, Lexeme.text s ∈ (Token.ofLine file index line).map (·.lexeme) → '"' ∉ s.toList := by
  have hlexemes : ∀ (file : String) (index : Nat) (line : List Char),
      (Token.ofLine file index line).map (·.lexeme) = lexemes line ++ [.endOfLine] := by
    intro file index line
    unfold Token.ofLine
    rw [List.map_map]
    exact List.map_id _
  have hdropped : (Token.ofLine file index line).dropLast.map (·.lexeme) = lexemes line := by
    rw [List.map_dropLast, hlexemes, List.dropLast_concat]
  rw [hlexemes, hlexemes, hdropped, List.append_cancel_right_eq, lexemes_respelled_iff]
  constructor
  · intro hplain s hs
    rcases List.mem_append.1 hs with hmem | hmark
    · exact hplain _ hmem s rfl
    · cases List.mem_singleton.1 hmark
  · intro hall l hl s hs
    rw [hs] at hl
    exact hall s (List.mem_append_left _ hl)

end Lexical

end OnePass
