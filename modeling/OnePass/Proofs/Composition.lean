import OnePass.Proofs.Locality

/-! # Sources compose line by line

    A source text can be cut after any newline: its second part is read as if
    it were a source of its own, only further down.

    * `Text.lines_append` : the lines of both parts.
    * `Token.ofSource_append` : their tokens.
    * `readSource_append` : their statements, or the first fault in them. -/

namespace OnePass

/-! ## Lines -/

namespace Text

/-- A text after which a new line starts. -/
def EndsLine (cs : List Char) : Prop :=
  cs = [] ∨ cs.getLast? = some '\n'

theorem lines_append_newline (xs ys : List Char) :
    lines (xs ++ '\n' :: ys) = (pieces '\n' xs).map dropReturn ++ lines ys := by
  have hne := pieces_ne_nil '\n' ys
  unfold lines
  dsimp only
  rw [pieces_append_cut, List.dropLast_append_of_ne_nil hne, List.map_append,
    List.getLast?_append_of_ne_nil _ hne, List.append_assoc]

theorem lines_append {xs : List Char} (h : EndsLine xs) (ys : List Char) :
    lines (xs ++ ys) = lines xs ++ lines ys := by
  rcases h with rfl | hlast
  · rfl
  · obtain ⟨init, rfl⟩ := List.getLast?_eq_some_iff.1 hlast
    have hinit : lines (init ++ ['\n']) = (pieces '\n' init).map dropReturn := by
      rw [lines_append_newline]
      exact List.append_nil _
    rw [List.append_assoc, List.singleton_append, lines_append_newline, hinit]

/-- How many lines a text has. -/
def lineCount (text : String) : Nat :=
  (lines text.toList).length

end Text

/-! ## Tokens -/

/-- The position `n` lines further down. -/
def Position.down (n : Nat) (p : Position) : Position :=
  { p with line := p.line + n }

namespace Token

theorem ofLine_add (file : String) (index n : Nat) (line : List Char) :
    ofLine file (index + n) line = (ofLine file index line).map (·.reposition (.down n)) := by
  unfold ofLine
  rw [List.map_map]
  refine List.map_congr_left fun l _ => ?_
  show Token.mk l ⟨file, index + n + 1⟩ = Token.mk l ⟨file, index + 1 + n⟩
  rw [Nat.add_right_comm]

/-- The tokens of consecutive lines, from `index` on. -/
def ofLines (file : String) (index : Nat) (lines : List (List Char)) : List Token :=
  (lines.zipIdx index).flatMap fun (line, index) => ofLine file index line

theorem ofLines_cons (file : String) (index : Nat) (line : List Char)
    (lines : List (List Char)) :
    ofLines file index (line :: lines) = ofLine file index line ++ ofLines file (index + 1) lines := by
  simp [ofLines]

theorem ofLines_append (file : String) (index : Nat) (xs ys : List (List Char)) :
    ofLines file index (xs ++ ys) = ofLines file index xs ++ ofLines file (index + xs.length) ys := by
  unfold ofLines
  rw [List.zipIdx_append, List.flatMap_append]

theorem ofLines_add (file : String) (index n : Nat) (lines : List (List Char)) :
    ofLines file (index + n) lines = (ofLines file index lines).map (·.reposition (.down n)) := by
  induction lines generalizing index with
  | nil => rfl
  | cons line lines ih =>
    rw [ofLines_cons, ofLines_cons, List.map_append, ofLine_add, Nat.add_right_comm, ih]

/-- The tokens of the second part stand as many lines further down as the
    first part has. -/
theorem ofSource_append (file : String) {a b : String} (ha : Text.EndsLine a.toList) :
    ofSource file (a ++ b) =
      ofSource file a ++ (ofSource file b).map (·.reposition (.down (Text.lineCount a))) := by
  have hb := ofLines_add file 0 (Text.lineCount a) (Text.lines b.toList)
  have htext := ofLines_append file 0 (Text.lines a.toList) (Text.lines b.toList)
  rw [← Text.lines_append ha, ← String.toList_append] at htext
  exact htext.trans (congrArg _ hb)

theorem wholeLines_ofLine (file : String) (index : Nat) (line : List Char) :
    WholeLines (ofLine file index line) := by
  intro t ht
  rw [ofLine, List.map_append, List.map_singleton, List.getLast?_concat] at ht
  cases ht
  rfl

/-- Every line brings its own mark, also the last one of a text that does not
    end in a newline. -/
theorem wholeLines_ofLines (file : String) (index : Nat) (lines : List (List Char)) :
    WholeLines (ofLines file index lines) := by
  induction lines generalizing index with
  | nil => exact wholeLines_nil
  | cons line lines ih =>
    rw [ofLines_cons]
    exact (wholeLines_ofLine file index line).append (ih (index + 1))

theorem wholeLines_ofSource (file source : String) : WholeLines (ofSource file source) :=
  wholeLines_ofLines file 0 (Text.lines source.toList)

theorem position_of_mem_ofLines {file : String} {index : Nat} {lines : List (List Char)}
    {t : Token} (h : t ∈ ofLines file index lines) :
    t.position.file = file ∧ index < t.position.line ∧
      t.position.line ≤ index + lines.length := by
  induction lines generalizing index with
  | nil => cases h
  | cons line lines ih =>
    rw [ofLines_cons, List.mem_append] at h
    rw [List.length_cons]
    rcases h with hline | hrest
    · obtain ⟨l, _, rfl⟩ := List.mem_map.1 hline
      exact ⟨rfl, Nat.lt_succ_self index, by dsimp only; omega⟩
    · obtain ⟨hfile, hlow, hhigh⟩ := ih hrest
      exact ⟨hfile, by omega, by omega⟩

end Token

/-! ## Sources -/

/-- A fault in a source names the file and one of the lines of the text. -/
theorem position_of_readSource_error {file source : String} {f : SourceFault}
    (h : readSource file source = .error f) :
    f.position.file = file ∧ 1 ≤ f.position.line ∧
      f.position.line ≤ Text.lineCount source := by
  obtain ⟨t, ht, hpos⟩ :=
    Cursor.position_of_statements_error (Token.wholeLines_ofSource file source) h
  obtain ⟨hfile, hlow, hhigh⟩ := Token.position_of_mem_ofLines ht
  rw [← hpos]
  rw [Nat.zero_add] at hhigh
  exact ⟨hfile, hlow, hhigh⟩

/-- Cut a source after a newline.  A fault in the first part is the fault of
    the whole; otherwise the second part decides, and its statements or its
    fault stand further down by the number of lines of the first.  Every fault
    of a source names the file and one of the lines of the text. -/
theorem readSource_append (file : String) {a : String} (ha : Text.EndsLine a.toList)
    (b : String) :
    (readSource file (a ++ b) =
      match readSource file a, readSource file b with
      | .error f, _      => .error f
      | .ok _, .error f  => .error (f.reposition (.down (Text.lineCount a)))
      | .ok sa, .ok sb   => .ok (sa ++ sb.map (·.reposition (.down (Text.lineCount a))))) ∧
    ∀ (source : String) (f : SourceFault), readSource file source = .error f →
      f.position.file = file ∧ 1 ≤ f.position.line ∧
        f.position.line ≤ Text.lineCount source := by
  refine ⟨?_, fun source f hf => position_of_readSource_error hf⟩
  have hlinesA := Token.wholeLines_ofSource file a
  have hlinesB := Token.wholeLines_ofSource file b
  have hmoved := Cursor.statements_reposition (.down (Text.lineCount a)) hlinesB
  unfold readSource
  rw [Token.ofSource_append file ha, Cursor.statements_append hlinesA (hlinesB.reposition _),
    hmoved]
  cases (Cursor.ofTokens (Token.ofSource file a)).statements with
  | error f => rfl
  | ok sa => cases (Cursor.ofTokens (Token.ofSource file b)).statements <;> rfl

/-- The first part leaves a parenthesis, a comma and a quote open inside
    comments and texts, and has a carriage return in its last line ending; the
    fault is in line three of the whole. -/
theorem readSource_append_second_part :
    Text.EndsLine "label('(,') # \"\r\n".toList ∧
      readSource "t.s" ("label('(,') # \"\r\n" ++ "lri(r1, 2)\njmp(") =
        .error ⟨⟨"t.s", 3⟩, .unexpectedEndOfLine⟩ := by
  have hends : Text.EndsLine "label('(,') # \"\r\n".toList := .inr (by decide)
  refine ⟨hends, (readSource_append "t.s" hends _).1.trans ?_⟩
  decide +kernel

end OnePass
