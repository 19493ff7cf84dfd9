import OnePass.Proofs.Scanning

/-! # The lexical grammar

    A line is a row of pieces, each of them a run of blanks or the spelling of
    a lexeme:

        punctuation = "(" | ")" | "," | ";"
        word        = letters, digits and "_", not starting with a digit
        number      = letters, digits and "_", starting with a digit
        text        = a quote, characters other than it, the same quote
        unclosed    = a quote and characters other than it
        comment     = "#" and any characters
        stray       = any other character

    Three kinds of piece look beyond their end: words and numbers are as long
    as they can be, and comments and unclosed texts reach the end of the line.
    So a piece fits or does not fit in front of a given rest.

    The rules do not mention the scanner.

    * `Spelling` : the rules.
    * `Cutting` : a line cut into pieces that fit.
    * `exists_cutting` : the scanner cuts every line, and loses nothing.
    * `Cutting.lexemes_eq` : no line can be cut in another way, as far as its
      lexemes go.
    * `ofLine_cutting` : what this means for the tokens of a line. -/

namespace OnePass

/-! ## The rules -/

namespace Lexical

/-- ASCII digits. -/
def Digit (c : Char) : Prop :=
  '0' ≤ c ∧ c ≤ '9'

/-- ASCII letters, digits and the underscore. -/
def WordCharacter (c : Char) : Prop :=
  c = '_' ∨ Digit c ∨ ('a' ≤ c ∧ c ≤ 'z') ∨ ('A' ≤ c ∧ c ≤ 'Z')

/-- The two quotes. -/
def Quote (c : Char) : Prop :=
  c = '"' ∨ c = '\''

/-- The characters that start something other than a stray lexeme. -/
def Starts (c : Char) : Prop :=
  c ∈ ['(', ')', ',', ';', '#'] ∨ WordCharacter c ∨ Quote c

/-- `Trimmed cs ds`: `ds` is `cs` without the blanks at its two ends. -/
structure Trimmed (cs ds : List Char) : Prop where
  blanks : ∃ before after, cs = before ++ (ds ++ after) ∧
    (∀ c ∈ before, Text.isBlank c = true) ∧ ∀ c ∈ after, Text.isBlank c = true
  head : ∀ c ∈ ds.head?, Text.isBlank c = false
  last : ∀ c ∈ ds.getLast?, Text.isBlank c = false

/-- `Spelling l cs rest`: in front of `rest`, the characters `cs` spell the
    lexeme `l`. -/
inductive Spelling : Lexeme → List Char → List Char → Prop
  | openParen {rest : List Char} : Spelling .openParen ['('] rest
  | closeParen {rest : List Char} : Spelling .closeParen [')'] rest
  | comma {rest : List Char} : Spelling .comma [','] rest
  | semicolon {rest : List Char} : Spelling .semicolon [';'] rest
  /-- A word ends where its characters do. -/
  | word {c : Char} {cs rest : List Char} :
      WordCharacter c → ¬ Digit c → (∀ d ∈ cs, WordCharacter d) →
      (∀ d ∈ rest.head?, ¬ WordCharacter d) →
      Spelling (.word (String.ofList (c :: cs))) (c :: cs) rest
  /-- So does a number; its first character tells it from a word. -/
  | number {c : Char} {cs rest : List Char} :
      Digit c → (∀ d ∈ cs, WordCharacter d) → (∀ d ∈ rest.head?, ¬ WordCharacter d) →
      Spelling (.number (String.ofList (c :: cs))) (c :: cs) rest
  /-- The other quote may stand inside. -/
  | text {quote : Char} {cs rest : List Char} :
      Quote quote → quote ∉ cs →
      Spelling (.text (String.ofList cs)) (quote :: (cs ++ [quote])) rest
  | unclosed {quote : Char} {cs : List Char} :
      Quote quote → quote ∉ cs →
      Spelling (.unclosed (String.ofList (quote :: cs))) (quote :: cs) []
  | comment {cs ds : List Char} :
      Trimmed cs ds → Spelling (.comment (String.ofList ds)) ('#' :: cs) []
  | stray {c : Char} {rest : List Char} :
      Text.isBlank c = false → ¬ Starts c → Spelling (.stray (String.ofList [c])) [c] rest

/-! ## Lines in pieces -/

/-- A piece of a line. -/
inductive Piece where
  /-- A run of blanks. -/
  | blanks (cs : List Char)
  /-- A lexeme and its spelling. -/
  | lexeme (l : Lexeme) (cs : List Char)

namespace Piece

/-- The characters of a piece. -/
def characters : Piece → List Char
  | blanks cs   => cs
  | lexeme _ cs => cs

def lexeme? : Piece → Option Lexeme
  | blanks _   => none
  | lexeme l _ => some l

/-- May the piece stand in front of `rest`? -/
def Fits (rest : List Char) : Piece → Prop
  | blanks cs   => cs ≠ [] ∧ ∀ c ∈ cs, Text.isBlank c = true
  | lexeme l cs => Spelling l cs rest

end Piece

/-- Every piece fits in front of those that follow it. -/
def AllFit : List Piece → Prop
  | []      => True
  | p :: ps => p.Fits (ps.flatMap Piece.characters) ∧ AllFit ps

/-- A line cut into pieces: put together again, they are the line. -/
structure Cutting (line : List Char) where
  pieces : List Piece
  allFit : AllFit pieces
  line_eq : pieces.flatMap Piece.characters = line

namespace Cutting

/-- The lexemes of the pieces, in order. -/
def lexemes {line : List Char} (d : Cutting line) : List Lexeme :=
  d.pieces.filterMap Piece.lexeme?

/-- The empty line. -/
def nil : Cutting [] :=
  ⟨[], trivial, rfl⟩

/-- One more piece in front of a line that is cut already. -/
def cons {rest : List Char} (p : Piece) (d : Cutting rest) (h : p.Fits rest) :
    Cutting (p.characters ++ rest) where
  pieces := p :: d.pieces
  allFit := ⟨by rw [d.line_eq]; exact h, d.allFit⟩
  line_eq := by rw [List.flatMap_cons, d.line_eq]

end Cutting

/-! ## Character classes

    The scanner has two tests for the characters of words, one for the first
    and one for all; the grammar has one class and its digits. -/

theorem isDigit_iff {c : Char} : c.isDigit = true ↔ Digit c := by
  constructor
  · intro h
    obtain ⟨hlow, hhigh⟩ := Bool.and_eq_true_iff.1 h
    exact ⟨of_decide_eq_true hlow, of_decide_eq_true hhigh⟩
  · intro h
    exact Bool.and_eq_true_iff.2 ⟨decide_eq_true h.1, decide_eq_true h.2⟩

theorem isAlpha_iff {c : Char} :
    c.isAlpha = true ↔ ('a' ≤ c ∧ c ≤ 'z') ∨ ('A' ≤ c ∧ c ≤ 'Z') := by
  have hupper : c.isUpper = true ↔ 'A' ≤ c ∧ c ≤ 'Z' :=
    ⟨fun h => of_decide_eq_true h, fun h => decide_eq_true h⟩
  have hlower : c.isLower = true ↔ 'a' ≤ c ∧ c ≤ 'z' := by
    constructor
    · intro h
      obtain ⟨hlow, hhigh⟩ := Bool.and_eq_true_iff.1 h
      exact ⟨of_decide_eq_true hlow, of_decide_eq_true hhigh⟩
    · intro h
      exact Bool.and_eq_true_iff.2 ⟨decide_eq_true h.1, decide_eq_true h.2⟩
  have halpha : c.isAlpha = true ↔ c.isUpper = true ∨ c.isLower = true :=
    Bool.or_eq_true_iff
  rw [halpha, hupper, hlower]
  exact Or.comm

theorem isWordChar_iff {c : Char} : Lexeme.isWordChar c = true ↔ WordCharacter c := by
  have hstart : Lexeme.isWordStart c = true ↔ c = '_' ∨ c.isAlpha = true := by
    unfold Lexeme.isWordStart
    rw [Bool.or_eq_true, beq_iff_eq]
  rw [Lexeme.isWordChar_eq, Bool.or_eq_true, hstart, isDigit_iff, isAlpha_iff]
  unfold WordCharacter
  constructor
  · intro h
    rcases h with hdigit | hunderscore | hletter
    · exact .inr (.inl hdigit)
    · exact .inl hunderscore
    · exact .inr (.inr hletter)
  · intro h
    rcases h with hunderscore | hdigit | hletter
    · exact .inr (.inl hunderscore)
    · exact .inl hdigit
    · exact .inr (.inr hletter)

theorem isWordChar_eq_false_iff {c : Char} :
    Lexeme.isWordChar c = false ↔ ¬ WordCharacter c := by
  rw [← isWordChar_iff, Bool.not_eq_true]

theorem breaks_iff {rest : List Char} :
    Breaks rest ↔ ∀ d ∈ rest.head?, ¬ WordCharacter d := by
  unfold Breaks
  simp only [isWordChar_eq_false_iff]

/-! ## Trimming -/

theorem head_dropWhile_isBlank (cs : List Char) :
    ∀ c ∈ (cs.dropWhile Text.isBlank).head?, Text.isBlank c = false := by
  intro c hc
  have hhead := List.head?_dropWhile_not Text.isBlank cs
  rw [Option.mem_def.1 hc] at hhead
  exact hhead

theorem blank_of_mem_takeWhile (cs : List Char) :
    ∀ c ∈ cs.takeWhile Text.isBlank, Text.isBlank c = true := by
  have hall : (cs.takeWhile Text.isBlank).all Text.isBlank = true := List.all_takeWhile
  rwa [List.all_eq_true] at hall

theorem trimmed_trim (cs : List Char) : Trimmed cs (Text.trim cs) := by
  -- First the blanks in front, then, read from its end, those behind what is left.
  generalize hmid : cs.dropWhile Text.isBlank = mid
  have htrim : Text.trim cs = (mid.reverse.dropWhile Text.isBlank).reverse := by
    rw [Text.trim, hmid]
  have hsplit : mid = Text.trim cs ++ (mid.reverse.takeWhile Text.isBlank).reverse := by
    rw [htrim, ← List.reverse_append, List.takeWhile_append_dropWhile, List.reverse_reverse]
  have hhead : ∀ c ∈ mid.head?, Text.isBlank c = false := by
    rw [← hmid]
    exact head_dropWhile_isBlank cs
  refine ⟨⟨cs.takeWhile Text.isBlank, (mid.reverse.takeWhile Text.isBlank).reverse, ?_, ?_, ?_⟩,
    ?_, ?_⟩
  · rw [← hsplit, ← hmid, List.takeWhile_append_dropWhile]
  · exact blank_of_mem_takeWhile cs
  · intro c hc
    exact blank_of_mem_takeWhile mid.reverse c (List.mem_reverse.1 hc)
  · intro c hc
    apply hhead
    rw [hsplit, List.head?_append, Option.mem_def.1 hc]
    rfl
  · intro c hc
    rw [htrim, List.getLast?_reverse] at hc
    exact head_dropWhile_isBlank mid.reverse c hc

/-- There is only one way to trim. -/
theorem Trimmed.trim_eq {cs ds : List Char} (h : Trimmed cs ds) : Text.trim cs = ds := by
  obtain ⟨⟨before, after, rfl, hbefore, hafter⟩, hhead, hlast⟩ := h
  unfold Text.trim
  rw [List.dropWhile_append_of_pos hbefore]
  have hafter' : ∀ c ∈ after.reverse, Text.isBlank c = true := by
    intro c hc
    exact hafter c (List.mem_reverse.1 hc)
  cases ds with
  | nil =>
    have hnone : (after ++ []).dropWhile Text.isBlank = [] :=
      List.dropWhile_append_of_pos hafter
    rw [List.append_nil] at hnone
    rw [List.nil_append, hnone]
    rfl
  | cons d ds =>
    have hd : Text.isBlank d = false := hhead d rfl
    have hfront : (d :: ds ++ after).dropWhile Text.isBlank = d :: ds ++ after := by
      rw [List.cons_append, List.dropWhile_cons_of_neg (by simp [hd])]
    rw [hfront, List.reverse_append, List.dropWhile_append_of_pos hafter']
    -- The last character is not blank, so read from the end nothing is dropped.
    cases hrev : (d :: ds).reverse with
    | nil => simp at hrev
    | cons e es =>
      have he : Text.isBlank e = false := by
        apply hlast
        rw [← List.head?_reverse, hrev]
        rfl
      rw [List.dropWhile_cons_of_neg (by simp [he]), ← hrev, List.reverse_reverse]

/-! ## The scanner follows the rules -/

theorem spelling_punctuation {c : Char} {p : Lexeme} (h : Lexeme.punctuation? c = some p)
    (rest : List Char) : Spelling p [c] rest := by
  unfold Lexeme.punctuation? at h
  split at h
  · cases h; exact .openParen
  · cases h; exact .closeParen
  · cases h; exact .comma
  · cases h; exact .semicolon
  · cases h

theorem wordCharacter_of_mem_takeWhile {cs : List Char} :
    ∀ c ∈ cs.takeWhile Lexeme.isWordChar, WordCharacter c := by
  have hall : (cs.takeWhile Lexeme.isWordChar).all Lexeme.isWordChar = true :=
    List.all_takeWhile
  intro c hc
  exact isWordChar_iff.1 (List.all_eq_true.1 hall c hc)

theorem maximal_dropWhile (cs : List Char) :
    ∀ d ∈ (cs.dropWhile Lexeme.isWordChar).head?, ¬ WordCharacter d := by
  intro d hd
  have hhead := List.head?_dropWhile_not Lexeme.isWordChar cs
  rw [Option.mem_def.1 hd] at hhead
  exact isWordChar_eq_false_iff.1 hhead

theorem spelling_scanText {quote : Char} (hquote : Quote quote) (cs : List Char) :
    ∃ taken, quote :: cs = taken ++ (Lexeme.scanText quote cs).2 ∧
      Spelling (Lexeme.scanText quote cs).1 taken (Lexeme.scanText quote cs).2 := by
  have hbody : quote ∉ cs.takeWhile (· != quote) := by
    intro hmem
    have hall : (cs.takeWhile (· != quote)).all (· != quote) = true := List.all_takeWhile
    have hne := List.all_eq_true.1 hall quote hmem
    simp at hne
  have hsplit : cs = cs.takeWhile (· != quote) ++ cs.dropWhile (· != quote) :=
    List.takeWhile_append_dropWhile.symm
  unfold Lexeme.scanText
  dsimp only
  split
  · next q rest hrest =>
    -- The scan stops at a quote of the same kind.
    have hq : q = quote := by
      have hhead := List.head?_dropWhile_not (· != quote) cs
      rw [hrest] at hhead
      simpa using hhead
    subst hq
    refine ⟨q :: (cs.takeWhile (· != q) ++ [q]), ?_, .text hquote hbody⟩
    rw [List.cons_append, List.append_assoc, List.singleton_append, ← hrest, ← hsplit]
  · next hrest =>
    refine ⟨quote :: cs.takeWhile (· != quote), ?_, .unclosed hquote hbody⟩
    rw [hrest, List.append_nil] at hsplit
    rw [List.append_nil, ← hsplit]

/-- One step of the scanner: it splits what it is given, and the part that it
    takes is spelled as the lexeme that it gives. -/
theorem spelling_scan {c : Char} (cs : List Char) (hblank : Text.isBlank c = false) :
    ∃ taken, c :: cs = taken ++ (Lexeme.scan c cs).2 ∧
      Spelling (Lexeme.scan c cs).1 taken (Lexeme.scan c cs).2 := by
  unfold Lexeme.scan
  split
  · next p hp => exact ⟨[c], rfl, spelling_punctuation hp cs⟩
  · next hpunctuation =>
    by_cases hhash : c = '#'
    · rw [if_pos hhash, hhash]
      exact ⟨'#' :: cs, (List.append_nil _).symm, .comment (trimmed_trim cs)⟩
    rw [if_neg hhash]
    have hword : c :: cs = c :: cs.takeWhile Lexeme.isWordChar ++ cs.dropWhile Lexeme.isWordChar := by
      rw [List.cons_append, List.takeWhile_append_dropWhile]
    by_cases hdigit : c.isDigit = true
    · rw [if_pos hdigit]
      exact ⟨_, hword, .number (isDigit_iff.1 hdigit) wordCharacter_of_mem_takeWhile
        (maximal_dropWhile cs)⟩
    rw [if_neg hdigit]
    by_cases hquote : c = '"' ∨ c = '\''
    · rw [if_pos hquote]
      exact spelling_scanText hquote cs
    rw [if_neg hquote]
    by_cases hstart : Lexeme.isWordStart c = true
    · rw [if_pos hstart]
      have hc : WordCharacter c := isWordChar_iff.1 (Lexeme.isWordChar_of_isWordStart hstart)
      have hnot : ¬ Digit c := by
        rw [← isDigit_iff]
        exact hdigit
      exact ⟨_, hword, .word hc hnot wordCharacter_of_mem_takeWhile (maximal_dropWhile cs)⟩
    rw [if_neg hstart]
    -- What is left starts nothing: each test has failed.
    refine ⟨[c], rfl, .stray hblank ?_⟩
    intro hstarts
    rcases hstarts with hmem | hc | hq
    · simp only [List.mem_cons, List.not_mem_nil, or_false] at hmem
      rcases hmem with rfl | rfl | rfl | rfl | rfl
      · cases hpunctuation
      · cases hpunctuation
      · cases hpunctuation
      · cases hpunctuation
      · exact hhash rfl
    · have hchar := isWordChar_iff.2 hc
      rw [Lexeme.isWordChar_eq, Bool.or_eq_true] at hchar
      rcases hchar with hd | hs
      · exact hdigit hd
      · exact hstart hs
    · exact hquote hq

/-- Every line can be cut, and the scanner finds the lexemes of a cutting. -/
theorem exists_cutting (line : List Char) :
    ∃ d : Cutting line, d.lexemes = lexemes line := by
  fun_induction lexemes line with
  | case1 => exact ⟨.nil, rfl⟩
  | case2 c cs hblank ih =>
    obtain ⟨d, hd⟩ := ih
    have hfits : (Piece.blanks [c]).Fits cs := by
      refine ⟨List.cons_ne_nil _ _, ?_⟩
      intro b hb
      rw [List.mem_singleton.1 hb]
      exact hblank
    exact ⟨d.cons (.blanks [c]) hfits, hd⟩
  | case3 c cs hblank ih =>
    obtain ⟨d, hd⟩ := ih
    obtain ⟨taken, hsplit, hspelling⟩ := spelling_scan cs (by simpa using hblank)
    have hline : (Piece.lexeme (Lexeme.scan c cs).1 taken).characters ++ (Lexeme.scan c cs).2 =
        c :: cs := hsplit.symm
    rw [← hline]
    refine ⟨d.cons (.lexeme (Lexeme.scan c cs).1 taken) hspelling, ?_⟩
    rw [← hd]
    rfl

/-! ## The rules leave no choice -/

theorem lexemes_blanks {cs : List Char} (h : ∀ c ∈ cs, Text.isBlank c = true)
    (rest : List Char) : lexemes (cs ++ rest) = lexemes rest := by
  induction cs with
  | nil => rfl
  | cons c cs ih =>
    rw [List.cons_append, lexemes_blank (h c (List.mem_cons_self ..))]
    exact ih fun d hd => h d (List.mem_cons_of_mem _ hd)

theorem scan_stray {c : Char} (h : ¬ Starts c) (cs : List Char) :
    Lexeme.scan c cs = (.stray (String.ofList [c]), cs) := by
  have hmark : ∀ m ∈ ['(', ')', ',', ';', '#'], c ≠ m := by
    intro m hm hc
    exact h (.inl (hc ▸ hm))
  have hpunctuation : Lexeme.punctuation? c = none := by
    unfold Lexeme.punctuation?
    split
    · exact absurd rfl (hmark '(' (by decide))
    · exact absurd rfl (hmark ')' (by decide))
    · exact absurd rfl (hmark ',' (by decide))
    · exact absurd rfl (hmark ';' (by decide))
    · rfl
  have hchar : Lexeme.isWordChar c = false := by
    rw [isWordChar_eq_false_iff]
    intro hc
    exact h (.inr (.inl hc))
  rw [Lexeme.isWordChar_eq, Bool.or_eq_false_iff] at hchar
  have hquote : ¬ (c = '"' ∨ c = '\'') := by
    intro hq
    exact h (.inr (.inr hq))
  have hhash : ¬ c = '#' := hmark '#' (by decide)
  rw [Lexeme.scan, hpunctuation]
  simp only [if_neg hhash, if_neg hquote, hchar.1, hchar.2]
  rfl

/-- A spelled lexeme is cut off as such, whatever the rest looks like. -/
theorem Spelling.lexemes_append {l : Lexeme} {cs rest : List Char} (h : Spelling l cs rest) :
    lexemes (cs ++ rest) = l :: lexemes rest := by
  cases h with
  | openParen => exact lexemes_punctuation rest rfl
  | closeParen => exact lexemes_punctuation rest rfl
  | comma => exact lexemes_punctuation rest rfl
  | semicolon => exact lexemes_punctuation rest rfl
  | @word c cs _ hc hdigit hcs hrest =>
    have hall : ∀ d ∈ cs, Lexeme.isWordChar d = true := fun d hd => isWordChar_iff.2 (hcs d hd)
    rw [Lexeme.lexemes_wordChars (isWordChar_iff.2 hc) hall (breaks_iff.2 hrest)]
    rw [← isDigit_iff] at hdigit
    rw [if_neg hdigit]
  | @number c cs _ hdigit hcs hrest =>
    have hall : ∀ d ∈ cs, Lexeme.isWordChar d = true := fun d hd => isWordChar_iff.2 (hcs d hd)
    exact Lexeme.cutFrom_number (isDigit_iff.2 hdigit) hall rest (breaks_iff.2 hrest)
  | @text quote cs _ hquote hcs =>
    rw [List.cons_append, List.append_assoc, List.singleton_append,
      Lexeme.lexemes_quote hquote, Lexeme.scanText_append hcs]
  | @unclosed quote cs hquote hcs =>
    rw [List.append_nil, Lexeme.lexemes_quote hquote, Lexeme.scanText_of_not_mem hcs]
  | @comment cs ds htrimmed =>
    have hscan : Lexeme.scan '#' cs = (.comment (String.ofList (Text.trim cs)), []) := rfl
    rw [List.append_nil, lexemes_scan (by decide), hscan, htrimmed.trim_eq]
  | @stray c _ hblank hstarts =>
    rw [List.singleton_append, lexemes_scan hblank, scan_stray hstarts]

theorem AllFit.lexemes_eq {ps : List Piece} (h : AllFit ps) :
    lexemes (ps.flatMap Piece.characters) = ps.filterMap Piece.lexeme? := by
  induction ps with
  | nil => exact lexemes_nil
  | cons p ps ih =>
    obtain ⟨hp, hps⟩ := h
    have hrest := ih hps
    rw [List.flatMap_cons]
    cases p with
    | blanks cs => exact (lexemes_blanks hp.2 _).trans hrest
    | lexeme l cs =>
      have hfirst := Spelling.lexemes_append hp
      rw [hrest] at hfirst
      exact hfirst

/-- Whichever way a line is cut, its lexemes are those of the scanner. -/
theorem Cutting.lexemes_eq {line : List Char} (d : Cutting line) :
    d.lexemes = OnePass.lexemes line := by
  have h := d.allFit.lexemes_eq
  rw [d.line_eq] at h
  exact h.symm

/-! ## Tokens of a line -/

theorem Spelling.ne_nil {l : Lexeme} {cs rest : List Char} (h : Spelling l cs rest) :
    cs ≠ [] := by
  cases h <;> exact List.cons_ne_nil _ _

theorem Spelling.ne_endOfLine {l : Lexeme} {cs rest : List Char} (h : Spelling l cs rest) :
    l ≠ .endOfLine := by
  cases h <;> exact nofun

theorem AllFit.forall_mem {ps : List Piece} (h : AllFit ps) :
    ∀ p ∈ ps, ∃ rest, p.Fits rest := by
  induction ps with
  | nil => exact fun p hp => nomatch hp
  | cons q ps ih =>
    intro p hp
    rcases List.mem_cons.1 hp with rfl | hmem
    · exact ⟨_, h.1⟩
    · exact ih h.2 p hmem

/-- No piece is empty. -/
theorem Cutting.characters_ne_nil {line : List Char} (d : Cutting line) :
    ∀ p ∈ d.pieces, p.characters ≠ [] := by
  intro p hp
  obtain ⟨rest, hfits⟩ := d.allFit.forall_mem p hp
  cases p with
  | blanks cs => exact hfits.1
  | lexeme l cs => exact Spelling.ne_nil hfits

theorem Cutting.endOfLine_not_mem {line : List Char} (d : Cutting line) :
    Lexeme.endOfLine ∉ d.lexemes := by
  intro hmem
  obtain ⟨p, hp, hlexeme⟩ := List.mem_filterMap.1 hmem
  obtain ⟨rest, hfits⟩ := d.allFit.forall_mem p hp
  cases p with
  | blanks cs => cases hlexeme
  | lexeme l cs =>
    cases hlexeme
    exact Spelling.ne_endOfLine hfits rfl

/-- The tokens of a line are the lexemes of a cutting and, once and at the
    end, the mark for the line's end; all of them stand on that line.  The
    pieces of the cutting put together are the line, and none of them is empty.
    Every other cutting of the line has the same lexemes. -/
theorem ofLine_cutting (file : String) (index : Nat) (line : List Char) :
    ∃ ls : List Lexeme,
      Token.ofLine file index line =
        ls.map (fun l => ⟨l, ⟨file, index + 1⟩⟩) ++ [⟨.endOfLine, ⟨file, index + 1⟩⟩] ∧
      Lexeme.endOfLine ∉ ls ∧
      (∃ d : Cutting line, d.lexemes = ls ∧ ∀ p ∈ d.pieces, p.characters ≠ []) ∧
      ∀ d : Cutting line, d.lexemes = ls := by
  obtain ⟨d, hd⟩ := exists_cutting line
  refine ⟨lexemes line, ?_, ?_, ⟨d, hd, d.characters_ne_nil⟩, fun d' => d'.lexemes_eq⟩
  · rw [Token.ofLine, List.map_append]
    rfl
  · rw [← hd]
    exact d.endOfLine_not_mem

end Lexical

end OnePass
