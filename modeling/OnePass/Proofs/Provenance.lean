import OnePass.Proofs.Composition
import OnePass.Proofs.Literals
import OnePass.Proofs.Warnings

/-! # Where the words come from

    The debug file has one record for each word: the file and the line that
    the word comes from.  Which line that is can be told without reading any
    statement: a statement is headed by a word that an opening parenthesis
    follows, and nothing else in a source that is accepted looks like that.

    * `Lexeme.heads` : the names that head statements, by looking at lexemes.
    * `headLines`, `operationLines` : the lines of a text that they stand in.
    * `readSource_heads` : the statements of a source stand in these lines.
    * `Image.pieces_debugText` : the records of a debug file.
    * `Assembler.debugText_operationLines` : the records name the lines of the
      operations. -/

namespace OnePass

/-! ## Heads of statements -/

namespace Lexeme

/-- The names that head statements: the words that an opening parenthesis
    follows. -/
def heads : List Lexeme → List String
  | []               => []
  | .word name :: ls => if ls.head? = some .openParen then name :: heads ls else heads ls
  | _ :: ls          => heads ls

/-- Can the lexeme neither head a statement nor follow a head? -/
def divides : Lexeme → Bool
  | .word _    => false
  | .openParen => false
  | _          => true

/-- Heads on the two sides of a lexeme that divides have nothing to do with
    each other. -/
theorem heads_append_cons {l : Lexeme} (hl : l.divides = true) (xs ys : List Lexeme) :
    heads (xs ++ l :: ys) = heads xs ++ heads ys := by
  induction xs with
  | nil =>
    cases l with
    | word s => cases hl
    | _ => rfl
  | cons x xs ih =>
    cases x with
    | word name =>
      have hopen : l ≠ .openParen := by
        rintro rfl
        cases hl
      have hnext : (xs ++ l :: ys).head? = some .openParen ↔ xs.head? = some .openParen := by
        cases xs with
        | nil => simp [hopen]
        | cons x' xs => rfl
      simp only [List.cons_append, heads, hnext, ih]
      by_cases hhead : xs.head? = some .openParen
      · rw [if_pos hhead, if_pos hhead]
        rfl
      · rw [if_neg hhead, if_neg hhead]
    | _ => exact ih

/-- Without an opening parenthesis there is no head. -/
theorem heads_of_not_mem {ls : List Lexeme} (h : .openParen ∉ ls) : heads ls = [] := by
  induction ls with
  | nil => rfl
  | cons l ls ih =>
    rw [List.mem_cons, not_or] at h
    have hrest := ih h.2
    cases l with
    | word name =>
      have hnext : ls.head? ≠ some .openParen := by
        intro hhead
        exact h.2 (List.mem_of_mem_head? hhead)
      rw [heads, if_neg hnext, hrest]
    | _ => exact hrest

def isComment : Lexeme → Bool
  | comment _ => true
  | _         => false

end Lexeme

/-! ## Heads of derivation trees -/

theorem StatementNode.openParen_not_mem (arguments : Option ArgumentsNode) :
    .openParen ∉ (argumentTokens arguments).map (·.lexeme) := by
  have hargument : ∀ a : ArgumentNode, a.token.lexeme ≠ .openParen := by
    intro a ha
    have hspells := a.spells
    cases htoken : a.token with
    | mk lexeme position =>
      rw [htoken] at ha hspells
      cases ha
      cases hspells
  intro hmem
  obtain ⟨t, ht, hopen⟩ := List.mem_map.1 hmem
  cases arguments with
  | none => cases ht
  | some n =>
    simp only [argumentTokens, ArgumentsNode.tokens, ArgumentsNode.tailTokens, List.mem_cons,
      List.mem_append, List.mem_flatMap, List.mem_map, Option.mem_toList] at ht
    rcases ht with rfl | ⟨m, _, rfl | rfl | ht⟩ | ⟨k, _, rfl⟩
    · exact hargument n.first hopen
    · rw [m.1.property] at hopen
      cases hopen
    · exact hargument m.2 hopen
    · cases ht
    · rw [k.property] at hopen
      cases hopen

/-- A statement is headed by its name, and nothing inside it is a head. -/
theorem StatementNode.heads_tokens (n : StatementNode) (rest : List Lexeme) :
    Lexeme.heads (n.tokens.map (·.lexeme) ++ rest) = n.name :: Lexeme.heads rest := by
  have hinside := Lexeme.heads_of_not_mem (openParen_not_mem n.arguments)
  simp only [tokens, List.map_cons, List.map_append, List.map_nil, n.head_eq,
    n.opening.property, n.closing.property, List.cons_append, List.append_assoc, List.nil_append]
  rw [Lexeme.heads, List.head?_cons, if_pos rfl]
  refine congrArg (n.name :: ·) ?_
  show Lexeme.heads ((argumentTokens n.arguments).map (·.lexeme) ++ .closeParen :: rest) = _
  rw [Lexeme.heads_append_cons rfl, hinside, List.nil_append]

theorem Item.heads_tokens (items : List Item) :
    Lexeme.heads ((items.flatMap Item.tokens).map (·.lexeme)) =
      (items.filterMap Item.statement?).map (·.name) := by
  induction items with
  | nil => rfl
  | cons item items ih =>
    rw [List.flatMap_cons, List.map_append]
    cases item with
    | separator t =>
      have hdivides : t.val.lexeme.divides = true := by
        rcases t.property with h | h
        · rw [h]
          rfl
        · rw [h]
          rfl
      exact (Lexeme.heads_append_cons hdivides [] _).trans ih
    | statement n =>
      show Lexeme.heads (n.tokens.map (·.lexeme) ++ _) = _
      rw [n.heads_tokens, ih]
      rfl

theorem Derivation.heads_tokens (d : Derivation) :
    Lexeme.heads (d.tokens.map (·.lexeme)) = d.statements.map (·.name) :=
  Item.heads_tokens d.items

/-- A statement stands where one of the tokens does. -/
theorem Derivation.position_of_mem {d : Derivation} {st : Statement} (h : st ∈ d.statements) :
    ∃ t ∈ d.tokens, t.position = st.position := by
  obtain ⟨item, hitem, hst⟩ := List.mem_filterMap.1 h
  cases item with
  | separator t => cases hst
  | statement n =>
    cases hst
    refine ⟨n.head, List.mem_flatMap.2 ⟨_, hitem, ?_⟩, rfl⟩
    exact List.mem_cons_self ..

/-! ## Heads in a line -/

/-- A comment takes the rest of the line. -/
theorem Lexeme.scan_comment {c : Char} {cs : List Char}
    (h : (Lexeme.scan c cs).1.isComment = true) : (Lexeme.scan c cs).2 = [] := by
  unfold Lexeme.scan at h ⊢
  split at h
  · next p hp =>
    unfold punctuation? at hp
    split at hp <;> cases hp <;> cases h
  · split at h
    · next hhash => rw [if_pos hhash]
    · split at h
      · cases h
      · split at h
        · unfold scanText at h
          split at h <;> cases h
        · split at h <;> cases h

/-- Only the last lexeme of a line can be a comment. -/
theorem lexemes_comment_last (line : List Char) :
    ∃ ls : List Lexeme, (∀ l ∈ ls, l.isComment = false) ∧
      (lexemes line = ls ∨ ∃ s, lexemes line = ls ++ [.comment s]) := by
  fun_induction lexemes line with
  | case1 => exact ⟨[], by simp, .inl rfl⟩
  | case2 c cs hblank ih => exact ih
  | case3 c cs hblank ih =>
    cases hcomment : (Lexeme.scan c cs).1.isComment with
    | true =>
      have hrest := Lexeme.scan_comment hcomment
      refine ⟨[], by simp, .inr ?_⟩
      rw [hrest, lexemes_nil]
      cases hl : (Lexeme.scan c cs).1 with
      | comment s => exact ⟨s, rfl⟩
      | _ =>
        rw [hl] at hcomment
        cases hcomment
    | false =>
      obtain ⟨ls, hls, hrest⟩ := ih
      refine ⟨(Lexeme.scan c cs).1 :: ls, List.forall_mem_cons.2 ⟨hcomment, hls⟩, ?_⟩
      rcases hrest with hrest | ⟨s, hrest⟩
      · exact .inl (by rw [hrest])
      · exact .inr ⟨s, by rw [hrest, List.cons_append]⟩

theorem Token.isComment_eq (t : Token) : t.isComment = t.lexeme.isComment := by
  unfold isComment Lexeme.isComment
  split <;> simp_all

theorem lexeme_withoutComments_ofLine (file : String) (index : Nat) (line : List Char) :
    (withoutComments (Token.ofLine file index line)).map (·.lexeme) =
      (lexemes line ++ [Lexeme.endOfLine]).filter fun l => !l.isComment := by
  unfold withoutComments Token.ofLine
  rw [List.filter_map, List.map_map]
  simp only [Function.comp_def, Token.isComment_eq]
  exact List.map_id _

/-- Neither the comment nor the mark at the end of a line makes a head. -/
theorem heads_ofLine (file : String) (index : Nat) (line : List Char) :
    Lexeme.heads ((withoutComments (Token.ofLine file index line)).map (·.lexeme)) =
      Lexeme.heads (lexemes line) := by
  have hlast : ∀ (ls : List Lexeme) {l : Lexeme}, l.divides = true →
      Lexeme.heads (ls ++ [l]) = Lexeme.heads ls := by
    intro ls l hl
    rw [Lexeme.heads_append_cons hl]
    exact List.append_nil _
  obtain ⟨ls, hls, hline⟩ := lexemes_comment_last line
  have hkept : ls.filter (fun l => !l.isComment) = ls := by
    refine List.filter_eq_self.2 fun l hl => ?_
    rw [hls l hl]
    rfl
  rw [lexeme_withoutComments_ofLine, List.filter_append]
  rcases hline with hline | ⟨s, hline⟩
  · rw [hline, hkept]
    exact hlast ls rfl
  · have hcomment : (Lexeme.comment s).divides = true := rfl
    rw [hline, List.filter_append, hkept, hlast ls hcomment]
    show Lexeme.heads (ls ++ [] ++ [.endOfLine]) = Lexeme.heads ls
    rw [List.append_nil]
    exact hlast ls rfl

/-- The statements of a single line. -/
theorem statements_ofLine {file : String} {index : Nat} {line : List Char} {ss : List Statement}
    (h : (Cursor.ofTokens (Token.ofLine file index line)).statements = .ok ss) :
    ss.map (fun st => (st.name, st.position)) =
      (Lexeme.heads (lexemes line)).map fun name => (name, ⟨file, index + 1⟩) := by
  obtain ⟨d, htokens, rfl⟩ := Cursor.statements_eq_ok_iff.1 h
  have hposition : ∀ st ∈ d.statements, st.position = ⟨file, index + 1⟩ := by
    intro st hst
    obtain ⟨t, ht, hpos⟩ := Derivation.position_of_mem hst
    rw [htokens] at ht
    obtain ⟨l, _, rfl⟩ := List.mem_map.1 (List.mem_filter.1 ht).1
    exact hpos.symm
  rw [← heads_ofLine file index, ← htokens, d.heads_tokens, List.map_map]
  refine List.map_congr_left fun st hst => ?_
  rw [hposition st hst]
  rfl

/-! ## Heads in a text -/

/-- The heads of statements in a text, each with the number of its line. -/
def headLines (source : String) : List (String × Nat) :=
  (Text.lines source.toList).zipIdx.flatMap fun (line, index) =>
    (Lexeme.heads (lexemes line)).map fun name => (name, index + 1)

/-- The lines of the operations of a text, one number for each operation. -/
def operationLines (source : String) : List Nat :=
  ((headLines source).filter fun head => (Mnemonic.ofName? head.1).isSome).map (·.2)

theorem statements_ofLines {file : String} {index : Nat} {lines : List (List Char)}
    {ss : List Statement}
    (h : (Cursor.ofTokens (Token.ofLines file index lines)).statements = .ok ss) :
    ss.map (fun st => (st.name, st.position)) =
      (lines.zipIdx index).flatMap fun (line, index) =>
        (Lexeme.heads (lexemes line)).map fun name => (name, ⟨file, index + 1⟩) := by
  induction lines generalizing index ss with
  | nil =>
    obtain ⟨d, htokens, rfl⟩ := Cursor.statements_eq_ok_iff.1 h
    have hnames := d.heads_tokens
    rw [htokens] at hnames
    have hnone : d.statements = [] := List.map_eq_nil_iff.1 hnames.symm
    rw [hnone]
    rfl
  | cons line lines ih =>
    -- No statement gets past the end of its line.
    rw [Token.ofLines_cons, Cursor.statements_append (Token.wholeLines_ofLine file index line)
      (Token.wholeLines_ofLines file (index + 1) lines)] at h
    cases hfirst : (Cursor.ofTokens (Token.ofLine file index line)).statements with
    | error f =>
      rw [hfirst] at h
      cases h
    | ok first =>
      rw [hfirst] at h
      cases hrest : (Cursor.ofTokens (Token.ofLines file (index + 1) lines)).statements with
      | error f =>
        rw [hrest] at h
        cases h
      | ok rest =>
        rw [hrest] at h
        cases h
        rw [List.map_append, List.zipIdx_cons, List.flatMap_cons, statements_ofLine hfirst,
          ih hrest]

/-- The statements of a source stand in the lines that hold their heads. -/
theorem readSource_heads {file source : String} {ss : List Statement}
    (h : readSource file source = .ok ss) :
    ss.map (fun st => (st.name, st.position)) =
      (headLines source).map fun head => (head.1, ⟨file, head.2⟩) := by
  have hlines := @statements_ofLines file 0 _ _ h
  rw [hlines, headLines, List.map_flatMap]
  simp only [List.map_map]
  rfl

/-! ## The order of the lines -/

theorem headLines_bounds (lines : List (List Char)) (index : Nat) :
    let heads := (lines.zipIdx index).flatMap fun (line, index) =>
      (Lexeme.heads (lexemes line)).map fun name => (name, index + 1)
    heads.Pairwise (·.2 ≤ ·.2) ∧ ∀ head ∈ heads, index < head.2 ∧ head.2 ≤ index + lines.length := by
  induction lines generalizing index with
  | nil => simp
  | cons line lines ih =>
    obtain ⟨hsorted, hbounds⟩ := ih (index + 1)
    have hfirst : ∀ head ∈ (Lexeme.heads (lexemes line)).map fun name => (name, index + 1),
        head.2 = index + 1 := by
      intro head hhead
      obtain ⟨name, _, rfl⟩ := List.mem_map.1 hhead
      rfl
    simp only [List.zipIdx_cons, List.flatMap_cons, List.length_cons]
    constructor
    · refine List.pairwise_append.2 ⟨?_, hsorted, ?_⟩
      · refine List.pairwise_of_forall_mem_list fun a ha b hb => ?_
        rw [hfirst a ha, hfirst b hb]
      · intro a ha b hb
        have hlow := (hbounds b hb).1
        rw [hfirst a ha]
        omega
    · intro head hhead
      rcases List.mem_append.1 hhead with hhead | hhead
      · rw [hfirst head hhead]
        omega
      · have hhead' := hbounds head hhead
        omega

theorem operationLines_sorted (source : String) : (operationLines source).Pairwise (· ≤ ·) := by
  have hsorted := (headLines_bounds (Text.lines source.toList) 0).1
  exact List.pairwise_map.2 (hsorted.filter _)

theorem operationLines_bounds {source : String} {n : Nat} (h : n ∈ operationLines source) :
    1 ≤ n ∧ n ≤ Text.lineCount source := by
  obtain ⟨head, hhead, rfl⟩ := List.mem_map.1 h
  obtain ⟨hlow, hhigh⟩ :=
    (headLines_bounds (Text.lines source.toList) 0).2 head (List.mem_filter.1 hhead).1
  rw [Nat.zero_add] at hhigh
  exact ⟨hlow, hhigh⟩

/-! ## Records -/

namespace Text

/-- Cut a text at the last occurrence of `cut`, if there is one. -/
def splitLast (cut : Char) (cs : List Char) : Option (List Char × List Char) :=
  match cs.reverse.dropWhile (· != cut) with
  | []          => none
  | _ :: before => some (before.reverse, (cs.reverse.takeWhile (· != cut)).reverse)

theorem splitLast_append_cons {cut : Char} (xs : List Char) {ys : List Char} (h : cut ∉ ys) :
    splitLast cut (xs ++ cut :: ys) = some (xs, ys) := by
  obtain ⟨hafter, hbefore⟩ := reverse_append_cut xs h
  unfold splitLast
  rw [hafter, hbefore]
  dsimp only
  rw [List.reverse_reverse, List.reverse_reverse]

/-- Pieces that each end in a cut are found again, with nothing behind the
    last one. -/
theorem pieces_terminated {cut : Char} {ps : List (List Char)} (h : ∀ p ∈ ps, cut ∉ p) :
    pieces cut (ps.flatMap (· ++ [cut])) = ps ++ [[]] := by
  induction ps with
  | nil => rfl
  | cons p ps ih =>
    rw [List.forall_mem_cons] at h
    rw [List.flatMap_cons, List.append_assoc, List.singleton_append, pieces_append_cut,
      pieces_of_not_mem h.1, ih h.2]
    rfl

end Text

theorem Position.toList_text (p : Position) :
    p.text.toList = p.file.toList ++ ':' :: Nat.toDigits 10 p.line := by
  simp [Position.text, toList_decimal, write_decimal]

theorem Position.newline_not_mem_text {p : Position} (h : '\n' ∉ p.file.toList) :
    '\n' ∉ p.text.toList := by
  have hdigits : '\n' ∉ (decimal p.line).toList := by
    intro hmem
    exact decimal_forall (P := (· ≠ '\n')) (by decide) p.line '\n' hmem rfl
  simp [Position.text, h, hdigits]

/-- The file name may have colons in it; the number has none. -/
theorem Position.splitLast_text (p : Position) :
    Text.splitLast ':' p.text.toList = some (p.file.toList, Nat.toDigits 10 p.line) := by
  have hdigits : ':' ∉ Nat.toDigits 10 p.line := by
    intro hmem
    rw [← write_decimal, ← toList_decimal] at hmem
    exact decimal_forall (P := (· ≠ ':')) (by decide) p.line ':' hmem rfl
  rw [toList_text, Text.splitLast_append_cons _ hdigits]

/-- A debug file is cut into the positions of the words. -/
theorem Image.pieces_debugText (i : Image)
    (h : ∀ e ∈ i.entries.toList, '\n' ∉ e.origin.file.toList) :
    Text.pieces '\n' i.debugText.toList =
      (i.entries.toList.map fun e => e.origin.text.toList) ++ [[]] := by
  have htext : i.debugText.toList =
      (i.entries.toList.map fun e => e.origin.text.toList).flatMap (· ++ ['\n']) := by
    simp [Image.debugText, String.toList_join, List.flatMap_map]
  rw [htext]
  refine Text.pieces_terminated fun p hp => ?_
  obtain ⟨e, he, rfl⟩ := List.mem_map.1 hp
  exact Position.newline_not_mem_text (h e he)

/-! ## Runs -/

/-- The words of an image come from the operations executed so far. -/
def Originates (history : List Statement) (s : Assembly) : Prop :=
  s.image.entries.toList.map (·.origin) =
    (history.filter Statement.isOperation).map (·.position)

theorem originates_step {history : List Statement} {st : Statement} {s s' : Assembly}
    (h : Originates history s) (hstep : Assembler.Executes s st s') :
    Originates (history ++ [st]) s' := by
  unfold Originates at h ⊢
  cases hstep with
  | @operation pos m args i lost hbuilt =>
    show (s.image.push ⟨pos, i⟩).entries.toList.map (·.origin) = _
    rw [Image.toList_push, List.map_append, h, List.filter_append, List.map_append,
      List.filter_singleton, Denotation.isOperation_mnemonic]
    rfl
  | @label pos name hfree =>
    show s.image.entries.toList.map (·.origin) = _
    rw [h, List.filter_append, List.filter_singleton, Denotation.isOperation_label]
    simp

/-- The words of a source come from its operations, line by line. -/
theorem origins_of_assemble {file source : String} {s : Assembly}
    (h : Assembler.assemble file source {} = .ok () s) :
    s.image.entries.toList.map (·.origin) =
      (operationLines source).map fun n => ⟨file, n⟩ := by
  obtain ⟨ss, hread, hrun⟩ := Assembler.assemble_eq_ok_iff.1 h
  have hstart : Originates [] {} := rfl
  have horigins : Originates ([] ++ ss) s :=
    Assembler.executeAll_invariant originates_step hstart hrun
  have hheads := readSource_heads hread
  -- Whether a statement is an operation is decided by its head alone.
  have hoperations : (ss.filter Statement.isOperation).map (·.position) =
      ((ss.map fun st => (st.name, st.position)).filter
        fun head => (Mnemonic.ofName? head.1).isSome).map (·.2) := by
    rw [List.filter_map, List.map_map]
    rfl
  rw [List.nil_append, Originates, hoperations, hheads, List.filter_map, List.map_map] at horigins
  rw [horigins, operationLines, List.map_map]
  rfl

/-- Assemble a source, and cut its debug file at newlines: there is one record
    for each word, and nothing behind the last newline.  Cut at its last
    colon, a record gives the name of the file and a decimal number: the line
    that holds the head of the statement which the word comes from.  These
    lines are in order and belong to the text. -/
theorem Assembler.debugText_operationLines {file source : String} {s : Assembly}
    (hfile : '\n' ∉ file.toList) (h : assemble file source {} = .ok () s) :
    ∃ (ss : List Statement) (records : List (List Char)),
      readSource file source = .ok ss ∧
      ss.map (fun st => (st.name, st.position.line)) = headLines source ∧
      Text.pieces '\n' s.image.debugText.toList = records ++ [[]] ∧
      records.length = s.image.words.length ∧
      records.map (Text.splitLast ':') =
        (operationLines source).map (fun n => some (file.toList, Nat.toDigits 10 n)) ∧
      (operationLines source).Pairwise (· ≤ ·) ∧
      ∀ n ∈ operationLines source, 1 ≤ n ∧ n ≤ Text.lineCount source := by
  obtain ⟨ss, hread, _⟩ := assemble_eq_ok_iff.1 h
  have horigins := origins_of_assemble h
  have hfiles : ∀ e ∈ s.image.entries.toList, '\n' ∉ e.origin.file.toList := by
    intro e he
    have hmem : e.origin ∈ (operationLines source).map fun n => Position.mk file n := by
      rw [← horigins]
      exact List.mem_map_of_mem he
    obtain ⟨n, _, hn⟩ := List.mem_map.1 hmem
    rw [← hn]
    exact hfile
  refine ⟨ss, s.image.entries.toList.map fun e => e.origin.text.toList, hread, ?_,
    s.image.pieces_debugText hfiles, ?_, ?_, operationLines_sorted source,
    fun n hn => operationLines_bounds hn⟩
  · have hheads := congrArg (List.map fun head => (head.1, head.2.line)) (readSource_heads hread)
    rw [List.map_map, List.map_map] at hheads
    exact hheads.trans (List.map_id _)
  · simp [Image.words]
  · calc (s.image.entries.toList.map fun e => e.origin.text.toList).map (Text.splitLast ':')
        = (s.image.entries.toList.map (·.origin)).map fun p =>
            some (p.file.toList, Nat.toDigits 10 p.line) := by
          rw [List.map_map, List.map_map]
          exact List.map_congr_left fun e _ => e.origin.splitLast_text
      _ = (operationLines source).map fun n => some (file.toList, Nat.toDigits 10 n) := by
          rw [horigins, List.map_map]
          rfl

/-- A file name with a colon, a label, two operations in one line, an
    operation inside a comment and one inside a text, and a carriage return. -/
theorem Assembler.debugText_operationLines_hard_text :
    let source := "# jmp(1)\r\nlabel('jmp(x'); lri(r1, 2);jmp ( 3 ,) # add(\n\nadd(r1, r1, r2)"
    '\n' ∉ "a:1.s".toList ∧
    ∃ (s : Assembly) (records : List (List Char)), assemble "a:1.s" source {} = .ok () s ∧
      Text.pieces '\n' s.image.debugText.toList = records ++ [[]] ∧
      records.map (Text.splitLast ':') =
        [some ("a:1.s".toList, ['2']), some ("a:1.s".toList, ['2']),
         some ("a:1.s".toList, ['4'])] := by
  intro source
  have hfile : '\n' ∉ "a:1.s".toList := by decide
  have houtcome : value? (assemble "a:1.s" source {}) = some () := by decide +kernel
  obtain ⟨s, hs⟩ := exists_of_value? houtcome
  obtain ⟨_, records, _, _, hpieces, _, hrecords, _⟩ := debugText_operationLines hfile hs
  have hlines : operationLines source = [2, 2, 4] := by decide +kernel
  refine ⟨hfile, s, records, hs, hpieces, ?_⟩
  rw [hrecords, hlines]
  rfl

end OnePass
