import Mathlib.Data.List.Forall2
import OnePass.Assembly.Execution
import OnePass.Proofs.Composition
import OnePass.Proofs.LexicalGrammar
import OnePass.Proofs.ViablePrefix

/-! # Line endings

    A source reads the same whether its lines end in a newline or in a
    carriage return and a newline.

    One carriage return belongs to the ending of a line and is dropped.  In a
    line that had one before, the one that is added is left over and gets to
    the scanner.  There it is a blank: it ends the word before it, it is
    trimmed from a comment, and only in a text that is never closed does it
    stay.  The reader refuses such a text without looking at it.

    * `Text.lines_withReturns` : lines have at most one carriage return more.
    * `Lexical.lexemes_append_blank` : what a blank at the end of a line does.
    * `Cursor.statements_congr` : the reader never looks into unclosed texts.
    * `readSource_withReturns` : the same statements or the same fault. -/

namespace OnePass

/-! ## Lines -/

namespace Text

/-- A carriage return in front of every newline. -/
def addReturns (cs : List Char) : List Char :=
  cs.flatMap fun c => if c = '\n' then ['\r', '\n'] else [c]

/-- The text with every newline replaced by a carriage return and a newline. -/
def withReturns (source : String) : String :=
  String.ofList (addReturns source.toList)

theorem addReturns_of_not_mem {cs : List Char} (h : '\n' ∉ cs) : addReturns cs = cs := by
  induction cs with
  | nil => rfl
  | cons c cs ih =>
    rw [List.mem_cons, not_or] at h
    have hc : ¬ c = '\n' := fun heq => h.1 heq.symm
    show (if c = '\n' then ['\r', '\n'] else [c]) ++ addReturns cs = c :: cs
    rw [if_neg hc, ih h.2]
    rfl

theorem addReturns_append_newline {line : List Char} (h : '\n' ∉ line) (rest : List Char) :
    addReturns (line ++ '\n' :: rest) = (line ++ ['\r']) ++ '\n' :: addReturns rest := by
  have hline : addReturns line = line := addReturns_of_not_mem h
  unfold addReturns at hline ⊢
  rw [List.flatMap_append, List.flatMap_cons, hline]
  simp

theorem lines_cons {line : List Char} (h : '\n' ∉ line) (rest : List Char) :
    lines (line ++ '\n' :: rest) = dropReturn line :: lines rest := by
  rw [lines_append_newline, pieces_of_not_mem h]
  rfl

/-- `line'` is `line` with at most one carriage return more at its end. -/
def SameButReturn (line line' : List Char) : Prop :=
  line' = line ∨ line' = line ++ ['\r']

theorem sameButReturn_dropReturn (line : List Char) : SameButReturn (dropReturn line) line := by
  unfold dropReturn
  by_cases hlast : line.getLast? = some '\r'
  · rw [if_pos hlast]
    obtain ⟨front, hfront⟩ := List.getLast?_eq_some_iff.1 hlast
    right
    rw [hfront, List.dropLast_concat]
  · rw [if_neg hlast]
    exact .inl rfl

theorem lines_withReturns (cs : List Char) :
    List.Forall₂ SameButReturn (lines cs) (lines (addReturns cs)) := by
  -- The induction takes off one line after the other.
  induction hlen : cs.length using Nat.strongRecOn generalizing cs with
  | ind n ih =>
    by_cases hmem : '\n' ∈ cs
    · obtain ⟨line, rest, hcs, hline⟩ := List.eq_append_cons_of_mem hmem
      have hlt : rest.length < n := by
        rw [← hlen, hcs, List.length_append, List.length_cons]
        omega
      have hreturn : '\n' ∉ line ++ ['\r'] := by simp [hline]
      have hdropped : dropReturn (line ++ ['\r']) = line := by simp [dropReturn]
      rw [hcs, addReturns_append_newline hline, lines_cons hline, lines_cons hreturn, hdropped]
      exact .cons (sameButReturn_dropReturn line) (ih _ hlt rest rfl)
    · -- What follows the last newline stays as it is.
      rw [addReturns_of_not_mem hmem]
      apply List.forall₂_same.2
      intro line _
      exact .inl rfl

end Text

/-! ## Lexemes -/

/-- Lexemes that are the same, unless both are unclosed texts. -/
inductive Lexeme.Alike : Lexeme → Lexeme → Prop
  | same {l : Lexeme} : Alike l l
  | unclosed {s s' : String} : Alike (.unclosed s) (.unclosed s')

namespace Lexical

theorem not_wordCharacter_of_isBlank {b : Char} (hb : Text.isBlank b = true) :
    ¬ WordCharacter b := by
  intro hword
  have hblank := Lexeme.isBlank_of_isWordChar (isWordChar_iff.2 hword)
  rw [hb] at hblank
  cases hblank

theorem not_quote_of_isBlank {b : Char} (hb : Text.isBlank b = true) : ¬ Quote b := by
  intro hquote
  rcases hquote with h | h
  · rw [h] at hb
    cases hb
  · rw [h] at hb
    cases hb

theorem Trimmed.append_blank {b : Char} (hb : Text.isBlank b = true) {cs ds : List Char}
    (h : Trimmed cs ds) : Trimmed (cs ++ [b]) ds := by
  obtain ⟨before, after, hcs, hbefore, hafter⟩ := h.blanks
  refine ⟨⟨before, after ++ [b], ?_, hbefore, ?_⟩, h.head, h.last⟩
  · rw [hcs, List.append_assoc, List.append_assoc]
  · intro c hc
    rcases List.mem_append.1 hc with hold | hnew
    · exact hafter c hold
    · rw [List.mem_singleton.1 hnew]
      exact hb

/-- A blank behind the rest of the line.  What reaches the end of the line
    takes it in, and then it shows in unclosed texts only; everything else is
    spelled as before. -/
theorem Spelling.append_blank {b : Char} (hb : Text.isBlank b = true) {l : Lexeme}
    {cs rest : List Char} (h : Spelling l cs rest) :
    Spelling l cs (rest ++ [b]) ∨
      rest = [] ∧ ∃ l', Lexeme.Alike l l' ∧ Spelling l' (cs ++ [b]) [] := by
  -- A blank does not extend a word either.
  have hbreaks : (∀ d ∈ rest.head?, ¬ WordCharacter d) →
      ∀ d ∈ (rest ++ [b]).head?, ¬ WordCharacter d := by
    intro hrest d hd
    cases rest with
    | nil =>
      cases hd
      exact not_wordCharacter_of_isBlank hb
    | cons c rest => exact hrest d hd
  cases h with
  | openParen => exact .inl .openParen
  | closeParen => exact .inl .closeParen
  | comma => exact .inl .comma
  | semicolon => exact .inl .semicolon
  | word hc hdigit hcs hrest => exact .inl (.word hc hdigit hcs (hbreaks hrest))
  | number hc hcs hrest => exact .inl (.number hc hcs (hbreaks hrest))
  | text hquote hcs => exact .inl (.text hquote hcs)
  | stray hblank hstarts => exact .inl (.stray hblank hstarts)
  | @unclosed quote cs hquote hcs =>
    have hother : quote ∉ cs ++ [b] := by
      intro hmem
      rcases List.mem_append.1 hmem with hold | hnew
      · exact hcs hold
      · rw [List.mem_singleton.1 hnew] at hquote
        exact not_quote_of_isBlank hb hquote
    exact .inr ⟨rfl, _, .unclosed, .unclosed hquote hother⟩
  | comment htrimmed => exact .inr ⟨rfl, _, .same, .comment (htrimmed.append_blank hb)⟩

theorem AllFit.append_blank {b : Char} (hb : Text.isBlank b = true) {ps : List Piece}
    (h : AllFit ps) :
    List.Forall₂ Lexeme.Alike (ps.filterMap Piece.lexeme?)
      (lexemes (ps.flatMap Piece.characters ++ [b])) := by
  induction ps with
  | nil =>
    show List.Forall₂ Lexeme.Alike [] (lexemes [b])
    rw [lexemes_blank hb, lexemes_nil]
    exact .nil
  | cons p ps ih =>
    obtain ⟨hp, hps⟩ := h
    rw [List.flatMap_cons, List.append_assoc]
    cases p with
    | blanks cs =>
      have hskip := lexemes_blanks hp.2 (ps.flatMap Piece.characters ++ [b])
      show List.Forall₂ Lexeme.Alike (ps.filterMap Piece.lexeme?) (lexemes (cs ++ _))
      rw [hskip]
      exact ih hps
    | lexeme l cs =>
      show List.Forall₂ Lexeme.Alike (l :: ps.filterMap Piece.lexeme?) (lexemes (cs ++ _))
      rcases Spelling.append_blank hb hp with hspelling | ⟨hnil, l', halike, hspelling⟩
      · rw [hspelling.lexemes_append]
        exact .cons .same (ih hps)
      · -- Nothing follows a lexeme that reaches the end of the line.
        have hlast : ps.filterMap Piece.lexeme? = [] := by
          rw [← hps.lexemes_eq, hnil, lexemes_nil]
        have hscanned := hspelling.lexemes_append
        rw [List.append_nil, lexemes_nil] at hscanned
        rw [hlast, hnil, List.nil_append, hscanned]
        exact .cons halike .nil

theorem lexemes_append_blank {b : Char} (hb : Text.isBlank b = true) (line : List Char) :
    List.Forall₂ Lexeme.Alike (lexemes line) (lexemes (line ++ [b])) := by
  obtain ⟨d, hd⟩ := exists_cutting line
  have halike := d.allFit.append_blank hb
  rw [d.line_eq] at halike
  rw [← hd]
  exact halike

end Lexical

/-! ## Tokens -/

namespace Token

/-- Tokens in the same place whose lexemes are alike. -/
structure Alike (t u : Token) : Prop where
  lexeme : t.lexeme.Alike u.lexeme
  position : t.position = u.position

theorem Alike.isComment_eq {t u : Token} (h : t.Alike u) : t.isComment = u.isComment := by
  obtain ⟨l, p⟩ := t
  obtain ⟨l', p'⟩ := u
  cases h.lexeme with
  | same => rfl
  | unclosed => rfl

theorem forall₂_ofLine (file : String) (index : Nat) {line line' : List Char}
    (h : Text.SameButReturn line line') :
    List.Forall₂ Alike (ofLine file index line) (ofLine file index line') := by
  have hlexemes : List.Forall₂ Lexeme.Alike (lexemes line) (lexemes line') := by
    rcases h with hsame | hreturn
    · rw [hsame]
      apply List.forall₂_same.2
      intro l _
      exact .same
    · rw [hreturn]
      exact Lexical.lexemes_append_blank (by decide) line
  unfold ofLine
  rw [List.forall₂_map_left_iff, List.forall₂_map_right_iff]
  have hmark : List.Forall₂ Lexeme.Alike [.endOfLine] [.endOfLine] := .cons .same .nil
  exact (List.rel_append hlexemes hmark).imp fun l l' hl => ⟨hl, rfl⟩

theorem forall₂_ofLines (file : String) (index : Nat) {lines lines' : List (List Char)}
    (h : List.Forall₂ Text.SameButReturn lines lines') :
    List.Forall₂ Alike (ofLines file index lines) (ofLines file index lines') := by
  induction h generalizing index with
  | nil => exact .nil
  | cons hline _ ih =>
    rw [ofLines_cons, ofLines_cons]
    exact List.rel_append (forall₂_ofLine file index hline) (ih (index + 1))

theorem forall₂_withoutComments {ts us : List Token} (h : List.Forall₂ Alike ts us) :
    List.Forall₂ Alike (withoutComments ts) (withoutComments us) := by
  refine List.rel_filter ?_ h
  intro t u htu
  show (!t.isComment) = true ↔ (!u.isComment) = true
  rw [htu.isComment_eq]

end Token

/-! ## Statements -/

namespace Place

/-- An unclosed text fits nowhere, and the fault does not quote it. -/
theorem next?_unclosed (place : Place) (s : String) (p : Position) :
    place.next? ⟨.unclosed s, p⟩ = none ∧
      place.refuse ⟨.unclosed s, p⟩ = ⟨p, .unclosedText⟩ := by
  cases place <;> exact ⟨rfl, rfl⟩

/-- Tokens that are alike are equal or fit nowhere. -/
theorem eq_or_stuck {t u : Token} (h : t.Alike u) (place : Place) :
    t = u ∨ place.next? t = none ∧ place.next? u = none ∧ place.refuse t = place.refuse u := by
  obtain ⟨l, p⟩ := t
  obtain ⟨l', p'⟩ := u
  obtain ⟨hlexeme, hposition⟩ := h
  cases hposition
  cases hlexeme with
  | same => exact .inl rfl
  | @unclosed s s' =>
    obtain ⟨hnext, hrefuse⟩ := place.next?_unclosed s p
    obtain ⟨hnext', hrefuse'⟩ := place.next?_unclosed s' p
    exact .inr ⟨hnext, hnext', hrefuse.trans hrefuse'.symm⟩

theorem fault?_congr {ts us : List Token} (h : List.Forall₂ Token.Alike ts us) (place : Place)
    (last : Position) : place.fault? last ts = place.fault? last us := by
  induction h generalizing place last with
  | nil => rfl
  | @cons t u ts us htu _ ih =>
    rcases eq_or_stuck htu place with hsame | ⟨ht, hu, hrefuse⟩
    · rw [hsame]
      cases hnext : place.next? u with
      | none => rw [fault?_of_stuck hnext, fault?_of_stuck hnext]
      | some place' =>
        rw [fault?_of_next? hnext, fault?_of_next? hnext]
        exact ih place' u.position
    · rw [fault?_of_stuck ht, fault?_of_stuck hu, hrefuse]

/-- Tokens that can be walked over have no unclosed text among them. -/
theorem eq_of_fault?_eq_none {ts us : List Token} (h : List.Forall₂ Token.Alike ts us)
    {place : Place} {last : Position} (hnone : place.fault? last ts = none) : ts = us := by
  induction h generalizing place last with
  | nil => rfl
  | @cons t u ts us htu _ ih =>
    cases hnext : place.next? t with
    | none =>
      rw [fault?_of_stuck hnext] at hnone
      cases hnone
    | some place' =>
      rw [fault?_of_next? hnext] at hnone
      rcases eq_or_stuck htu place with hsame | ⟨hstuck, _⟩
      · rw [hsame, ih hnone]
      · rw [hstuck] at hnext
        cases hnext

end Place

/-- Token lists that are alike have the same statements or the same fault. -/
theorem Cursor.statements_congr {ts us : List Token} (h : List.Forall₂ Token.Alike ts us) :
    (ofTokens ts).statements = (ofTokens us).statements := by
  have hvisible := Token.forall₂_withoutComments h
  have hfault := Place.fault?_congr hvisible .outside .origin
  have hts : Place.outside.fault? .origin (withoutComments ts) = _ :=
    fault?_outside [] (ofTokens ts)
  have hus : Place.outside.fault? .origin (withoutComments us) = _ :=
    fault?_outside [] (ofTokens us)
  cases hread : (ofTokens ts).statements with
  | error f =>
    -- Both walks find the fault.
    unfold statements at hread ⊢
    rw [hread] at hts
    rw [← hfault, hts] at hus
    cases hread' : statementsAfter [] (ofTokens us) with
    | error f' =>
      rw [hread'] at hus
      cases hus
      rfl
    | ok ss =>
      rw [hread'] at hus
      cases hus
  | ok ss =>
    -- Without a fault the tokens are the same, and so are their derivations.
    obtain ⟨d, hd, hss⟩ := statements_eq_ok_iff.1 hread
    have hnone : Place.outside.fault? .origin (withoutComments ts) = none :=
      accepted_iff.1 ⟨ss, hread⟩
    rw [Place.eq_of_fault?_eq_none hvisible hnone] at hd
    exact (statements_eq_ok_iff.2 ⟨d, hd, hss⟩).symm

/-- The style of line endings does not matter.  Replacing every newline of a
    source by a carriage return and a newline leaves its statements or its
    fault as they are, positions included, and so assembling it from any state
    does the same. -/
theorem readSource_withReturns (file source : String) :
    readSource file (Text.withReturns source) = readSource file source ∧
      ∀ s : Assembly, Assembler.assemble file (Text.withReturns source) s =
        Assembler.assemble file source s := by
  have hlines : List.Forall₂ Text.SameButReturn (Text.lines source.toList)
      (Text.lines (Text.withReturns source).toList) := by
    unfold Text.withReturns
    rw [String.toList_ofList]
    exact Text.lines_withReturns source.toList
  have htokens : List.Forall₂ Token.Alike (Token.ofSource file source)
      (Token.ofSource file (Text.withReturns source)) :=
    Token.forall₂_ofLines file 0 hlines
  have hread : readSource file (Text.withReturns source) = readSource file source :=
    (Cursor.statements_congr htokens).symm
  refine ⟨hread, ?_⟩
  intro s
  unfold Assembler.assemble
  rw [hread]

end OnePass
