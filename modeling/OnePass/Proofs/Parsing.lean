import OnePass.Proofs.Grammar
import OnePass.Proofs.Visible
import OnePass.Source.Reading

/-! # Reading is parsing

    The reader accepts exactly what the grammar derives.

    * `statementsAfter_sound` : what is read has a derivation.
    * `statementsAfter_complete` : what has a derivation is read.
    * `statements_eq_ok_iff` : both together, for a whole token list.

    Both directions follow the reader from arguments to sources, and both are
    stated for a cursor at any place, with the tokens that come after. -/

namespace OnePass

/-! ## What fits where -/

namespace Token

variable {t : Token}

theorem separator?_eq_some_iff :
    t.separator? = some () ↔ t.lexeme = .semicolon ∨ t.lexeme = .endOfLine := by
  unfold separator?
  cases t.lexeme <;> simp

theorem openParen?_eq_some_iff : t.openParen? = some () ↔ t.lexeme = .openParen := by
  simp [openParen?]

theorem closeParen?_eq_some_iff : t.closeParen? = some () ↔ t.lexeme = .closeParen := by
  simp [closeParen?]

theorem comma?_eq_some_iff : t.comma? = some () ↔ t.lexeme = .comma := by
  simp [comma?]

theorem head?_eq_some_iff {name : String} {p : Position} :
    t.head? = some (name, p) ↔ t.lexeme = .word name ∧ p = t.position := by
  unfold head?
  cases t.lexeme <;> simp [eq_comm]

theorem argument?_eq_ok_iff {a : Argument} : t.argument? = some (.ok a) ↔ Spells t a := by
  obtain ⟨lexeme, p⟩ := t
  constructor
  · intro h
    cases lexeme with
    | number s =>
      simp only [argument?] at h
      split at h
      · next n hn =>
        cases h
        exact .number hn
      · cases h
    | word s => cases h; exact .word
    | text s => cases h; exact .text
    | _ => cases h
  · intro h
    cases h with
    | number hn => simp only [argument?, hn]
    | word => rfl
    | text => rfl

end Token

namespace Cursor

variable {c c' : Cursor}

/-! ## Soundness -/

theorem argument_sound {a : Argument} (h : c.argument = .ok (a, c')) :
    ∃ n : ArgumentNode, c.visible = n.token :: c'.visible ∧ n.argument = a := by
  unfold argument at h
  split at h
  · next hexpect =>
    cases h
    obtain ⟨t, ha, hv, _⟩ := expect_ok hexpect
    exact ⟨⟨t, a, Token.argument?_eq_ok_iff.1 ha⟩, hv, rfl⟩
  · cases h
  · cases h

theorem arguments_sound {as : List Argument} (h : c.arguments = .ok (as, c')) :
    ∃ ns : Option ArgumentsNode,
      c.visible = StatementNode.argumentTokens ns ++ c'.visible ∧
        StatementNode.argumentValues ns = as := by
  -- The tree grows with the reader: nothing before `)`, a last argument
  -- without a comma, or an argument and a comma in front of what follows.
  fun_induction arguments c generalizing as c' with
  | case1 c hclose =>
    cases h
    exact ⟨none, rfl, rfl⟩
  | case2 => cases h
  | case3 c _ a rest hArg rest' hComma =>
    cases h
    obtain ⟨n, hv, rfl⟩ := argument_sound hArg
    rw [eq_of_consume_none hComma]
    exact ⟨some ⟨n, [], none⟩, hv, rfl⟩
  | case4 => cases h
  | case5 c _ a rest hArg u rest' hComma as last hRest ih =>
    cases h
    obtain ⟨n, hv, rfl⟩ := argument_sound hArg
    obtain ⟨k, hk, hv', _⟩ := consume_some hComma
    obtain ⟨ns, hns, rfl⟩ := ih hRest
    have hcomma := Token.comma?_eq_some_iff.1 hk
    refine ⟨some (StatementNode.consArgument n ⟨k, hcomma⟩ ns), ?_, ?_⟩
    · rw [hv, hv', hns, StatementNode.argumentTokens_consArgument]
      rfl
    · rw [StatementNode.argumentValues_consArgument]

theorem statement_sound {s : Statement} (h : c.statement = .ok (s, c')) :
    ∃ n : StatementNode, c.visible = n.tokens ++ c'.visible ∧ n.statement = s := by
  unfold statement at h
  split at h
  · cases h
  · next name position afterName hHead =>
    split at h
    · cases h
    · next inside hOpen =>
      split at h
      · cases h
      · next args afterArgs hArgs =>
        split at h
        · cases h
        · next rest hClose =>
          cases h
          obtain ⟨head, hhead, hv, _⟩ := expect_ok hHead
          obtain ⟨opening, hopening, hv₁, _⟩ := expect_ok hOpen
          obtain ⟨ns, hv₂, rfl⟩ := arguments_sound hArgs
          obtain ⟨closing, hclosing, hv₃, _⟩ := expect_ok hClose
          obtain ⟨hname, rfl⟩ := Token.head?_eq_some_iff.1 hhead
          refine ⟨⟨head, name, hname, ⟨opening, Token.openParen?_eq_some_iff.1 hopening⟩, ns,
            ⟨closing, Token.closeParen?_eq_some_iff.1 hclosing⟩⟩, ?_, rfl⟩
          rw [hv, hv₁, hv₂, hv₃]
          simp [StatementNode.tokens]

theorem visible_eq_nil_of_peek? (h : c.peek? = none) : c.visible = [] := by
  rw [peek?_eq_head?] at h
  exact List.head?_eq_none_iff.1 h

/-- What is read has a derivation. -/
theorem statementsAfter_sound {done ss : List Statement}
    (h : statementsAfter done c = .ok ss) :
    ∃ d : Derivation, d.tokens = c.visible ∧ ss = done.reverse ++ d.statements := by
  fun_induction statementsAfter done c with
  | case1 done c hpeek =>
    cases h
    exact ⟨.empty, (visible_eq_nil_of_peek? hpeek).symm, by simp⟩
  | case2 done c _ _ u rest hSep ih =>
    obtain ⟨d, htokens, rfl⟩ := ih h
    obtain ⟨t, ht, hv, _⟩ := consume_some hSep
    have hsep := Token.separator?_eq_some_iff.1 ht
    exact ⟨.separated ⟨t, hsep⟩ d, by simp [hv, htokens], by simp⟩
  | case3 => cases h
  | case4 done c _ _ _ _ s rest hStmt hpeek =>
    cases h
    obtain ⟨n, hv, rfl⟩ := statement_sound hStmt
    have hnil := visible_eq_nil_of_peek? hpeek
    exact ⟨.single n, by simp [hv, hnil], by simp⟩
  | case5 => cases h
  | case6 done c _ _ _ _ s rest hStmt _ _ u rest' hEnd ih =>
    obtain ⟨d, htokens, rfl⟩ := ih h
    obtain ⟨n, hv, rfl⟩ := statement_sound hStmt
    obtain ⟨t, ht, hv', _⟩ := expect_ok hEnd
    have hsep := Token.separator?_eq_some_iff.1 ht
    exact ⟨.stated n ⟨t, hsep⟩ d, by simp [hv, hv', htokens], by simp⟩

/-! ## Completeness -/

theorem argument_complete {n : ArgumentNode} {ts : List Token}
    (h : c.visible = n.token :: ts) :
    ∃ c', c.argument = .ok (n.argument, c') ∧ c'.visible = ts := by
  obtain ⟨c', he, hv, _⟩ := expect_of_visible h (Token.argument?_eq_ok_iff.2 n.spells)
  exact ⟨c', by simp only [argument, he], hv⟩

theorem check_closeParen_of_argument {n : ArgumentNode} {ts : List Token}
    (h : c.visible = n.token :: ts) : c.check Token.closeParen? = false := by
  rw [← Bool.not_eq_true, check_eq_true_iff]
  rintro ⟨t, ht, hclose⟩
  rw [h] at ht
  cases ht
  obtain ⟨u, hu⟩ := Option.isSome_iff_exists.1 hclose
  exact n.spells.ne_closeParen (Token.closeParen?_eq_some_iff.1 hu)

theorem arguments_of_close {close : Mark .closeParen} {ts : List Token}
    (h : c.visible = close.val :: ts) : c.arguments = .ok ([], c) := by
  have hcheck : c.check Token.closeParen? = true := by
    refine check_eq_true_iff.2 ⟨close.val, by rw [h]; rfl, ?_⟩
    simp [Token.closeParen?, close.property]
  unfold arguments
  rw [if_pos hcheck]

/-- `arguments` at an argument. -/
theorem arguments_of_argument {n : ArgumentNode} {ts : List Token} {c₁ : Cursor}
    (h : c.visible = n.token :: ts) (harg : c.argument = .ok (n.argument, c₁)) :
    c.arguments = match c₁.consume Token.comma? with
      | (none, rest)    => .ok ([n.argument], rest)
      | (some _, rest') => rest'.arguments.map fun r => (n.argument :: r.1, r.2) := by
  have hcheck := check_closeParen_of_argument h
  rw [arguments, if_neg (by simp [hcheck])]
  split
  · next hf =>
    rw [harg] at hf
    cases hf
  · next hok =>
    rw [harg] at hok
    cases hok
    split
    · next hcomma => rw [hcomma]
    · next rest' hcomma =>
      rw [hcomma]
      show _ = rest'.arguments.map _
      cases rest'.arguments <;> rfl

theorem arguments_complete {ns : Option ArgumentsNode} {close : Mark .closeParen}
    {ts : List Token}
    (h : c.visible = StatementNode.argumentTokens ns ++ close.val :: ts) :
    ∃ c', c.arguments = .ok (StatementNode.argumentValues ns, c') ∧
      c'.visible = close.val :: ts := by
  cases ns with
  | none => exact ⟨c, arguments_of_close h, h⟩
  | some n =>
    obtain ⟨first, more, trailing⟩ := n
    induction more generalizing first c with
    | nil =>
      obtain ⟨c₁, harg, hv₁⟩ := argument_complete h
      rw [arguments_of_argument h harg]
      cases trailing with
      | none =>
        have hnone : c₁.consume Token.comma? = (none, c₁) := by
          refine consume_of_head fun t ht => ?_
          rw [hv₁] at ht
          cases ht
          simp [Token.comma?, close.property]
        rw [hnone]
        exact ⟨c₁, rfl, hv₁⟩
      | some k =>
        -- After a trailing comma the reader is at `)` and finds no argument.
        obtain ⟨c₂, hsome, hv₂, _⟩ :=
          consume_of_visible hv₁ (Token.comma?_eq_some_iff.2 k.property)
        rw [hsome]
        show ∃ c', c₂.arguments.map _ = _ ∧ _
        rw [arguments_of_close hv₂]
        exact ⟨c₂, rfl, hv₂⟩
    | cons m more ih =>
      obtain ⟨k, a⟩ := m
      obtain ⟨c₁, harg, hv₁⟩ := argument_complete h
      obtain ⟨c₂, hsome, hv₂, _⟩ :=
        consume_of_visible hv₁ (Token.comma?_eq_some_iff.2 k.property)
      obtain ⟨c', hrest, hv'⟩ := ih a hv₂
      rw [arguments_of_argument h harg, hsome]
      show ∃ c', c₂.arguments.map _ = _ ∧ _
      rw [hrest]
      exact ⟨c', rfl, hv'⟩

theorem statement_complete {n : StatementNode} {ts : List Token}
    (h : c.visible = n.tokens ++ ts) :
    ∃ c', c.statement = .ok (n.statement, c') ∧ c'.visible = ts := by
  obtain ⟨head, name, head_eq, opening, arguments, closing⟩ := n
  have hv : c.visible =
      head :: opening.val :: (StatementNode.argumentTokens arguments ++ closing.val :: ts) := by
    rw [h]
    simp [StatementNode.tokens]
  obtain ⟨c₁, hhead, hv₁, _⟩ := expect_of_visible hv (Token.head?_eq_some_iff.2 ⟨head_eq, rfl⟩)
  obtain ⟨c₂, hopen, hv₂, _⟩ :=
    expect_of_visible hv₁ (Token.openParen?_eq_some_iff.2 opening.property)
  obtain ⟨c₃, hargs, hv₃⟩ := arguments_complete hv₂
  obtain ⟨c₄, hclose, hv₄, _⟩ :=
    expect_of_visible hv₃ (Token.closeParen?_eq_some_iff.2 closing.property)
  refine ⟨c₄, ?_, hv₄⟩
  simp only [statement, hhead, hopen, hargs, hclose]
  rfl

/-! ### The steps of the reader -/

theorem statementsAfter_of_nil (done : List Statement) (h : c.visible = []) :
    statementsAfter done c = .ok done.reverse := by
  have hpeek : c.peek? = none := by
    rw [peek?_eq_head?, h]
    rfl
  unfold statementsAfter
  split
  · rfl
  · next hsome =>
    rw [hpeek] at hsome
    cases hsome

/-- A separator is passed over. -/
theorem statementsAfter_of_separator (done : List Statement) {t : Separator}
    {ts : List Token} {c₁ : Cursor} (h : c.visible = t.val :: ts)
    (hnext : c.next = (some t.val, c₁)) :
    statementsAfter done c = statementsAfter done c₁ := by
  have hpeek : c.peek? = some t.val := by
    rw [peek?_eq_head?, h]
    rfl
  have hsep : t.val.separator? = some () := Token.separator?_eq_some_iff.2 t.property
  have hconsume : c.consume Token.separator? = (some (), c₁) := by
    simp only [consume, hnext, hsep]
  rw [statementsAfter]
  split
  · next hnone =>
    rw [hpeek] at hnone
    cases hnone
  · split
    · next hsome =>
      rw [hconsume] at hsome
      cases hsome
      rfl
    · next hnone =>
      rw [hconsume] at hnone
      cases hnone

/-- A statement is read, and what follows it is read as if the statement had
    been done already, provided that a separator follows if anything does. -/
theorem statementsAfter_of_statement (done : List Statement) {n : StatementNode}
    {ts : List Token} (h : c.visible = n.tokens ++ ts)
    (hts : ∀ t, ts.head? = some t → t.lexeme = .semicolon ∨ t.lexeme = .endOfLine) :
    ∃ c', c'.visible = ts ∧
      statementsAfter done c = statementsAfter (n.statement :: done) c' := by
  obtain ⟨c₁, hstmt, hv₁⟩ := statement_complete h
  refine ⟨c₁, hv₁, ?_⟩
  have hpeek : c.peek? = some n.head := by
    rw [peek?_eq_head?, h]
    rfl
  have hconsume : c.consume Token.separator? = (none, c) := by
    refine consume_of_head fun t ht => ?_
    rw [h] at ht
    cases ht
    simp [Token.separator?, n.head_eq]
  rw [statementsAfter]
  split
  · next hnone =>
    rw [hpeek] at hnone
    cases hnone
  · split
    · next hsome =>
      rw [hconsume] at hsome
      cases hsome
    · split
      · next herr =>
        rw [hstmt] at herr
        cases herr
      · next hok =>
        rw [hstmt] at hok
        cases hok
        split
        · next hnone => rw [statementsAfter_of_nil _ (visible_eq_nil_of_peek? hnone)]
        · next t hsome =>
          -- `expect` after the statement and the loop's own `consume` take the
          -- same separator.
          rw [peek?_eq_head?, hv₁] at hsome
          have hsep := Token.separator?_eq_some_iff.2 (hts t hsome)
          obtain ⟨rest, rfl⟩ : ∃ rest, ts = t :: rest := List.head?_eq_some_iff.1 hsome
          obtain ⟨c₂, hnext, _⟩ := next_of_visible hv₁
          have hexpect : c₁.expect Token.separator? = (.ok (), c₂) := by
            simp only [expect, hnext, hsep]
          rw [statementsAfter_of_separator (t := ⟨t, hts t hsome⟩) _ hv₁ hnext]
          split
          · next herr =>
            rw [hexpect] at herr
            cases herr
          · next hok =>
            rw [hexpect] at hok
            cases hok
            rfl

/-- What has a derivation is read. -/
theorem statementsAfter_complete (done : List Statement) {d : Derivation}
    (h : c.visible = d.tokens) :
    statementsAfter done c = .ok (done.reverse ++ d.statements) := by
  obtain ⟨items, divided⟩ := d
  induction items generalizing c done with
  | nil =>
    rw [statementsAfter_of_nil done h]
    simp [Derivation.statements]
  | cons item items ih =>
    have hrest := divided.tail
    cases item with
    | separator t =>
      obtain ⟨c₁, hnext, hv₁, _⟩ := next_of_visible h
      rw [statementsAfter_of_separator done h hnext]
      exact ih done hrest hv₁
    | statement n =>
      -- Another statement may not follow directly, so what follows, if
      -- anything does, is a separator.
      have hts : ∀ t, (items.flatMap Item.tokens).head? = some t →
          t.lexeme = .semicolon ∨ t.lexeme = .endOfLine := by
        intro t ht
        cases items with
        | nil => cases ht
        | cons item' items =>
          cases item' with
          | separator t' =>
            cases ht
            exact t'.property
          | statement n' =>
            obtain ⟨hsep, _⟩ := List.isChain_cons_cons.1 divided
            simp [Item.isSeparator] at hsep
      obtain ⟨c₁, hv₁, heq⟩ := statementsAfter_of_statement done h hts
      rw [heq, ih (n.statement :: done) hrest hv₁]
      simp [Derivation.statements, Item.statement?]

theorem statements_eq_ok_iff {ts : List Token} {ss : List Statement} :
    (ofTokens ts).statements = .ok ss ↔
      ∃ d : Derivation, d.tokens = withoutComments ts ∧ d.statements = ss := by
  constructor
  · intro h
    obtain ⟨d, htokens, rfl⟩ := statementsAfter_sound h
    exact ⟨d, htokens, rfl⟩
  · rintro ⟨d, htokens, rfl⟩
    exact statementsAfter_complete [] htokens.symm

end Cursor

/-! ## Trees derive no comments -/

theorem Token.isComment_of_ne {t : Token} (h : ∀ s, t.lexeme ≠ .comment s) :
    t.isComment = false := by
  unfold isComment
  split
  · next s hs => exact absurd hs (h s)
  · rfl

theorem StatementNode.isComment_of_mem_argumentTokens {arguments : Option ArgumentsNode}
    {t : Token} (ht : t ∈ argumentTokens arguments) : t.isComment = false := by
  have hargument : ∀ a : ArgumentNode, a.token.isComment = false := by
    rintro ⟨token, argument, spells⟩
    cases spells <;> rfl
  have hcomma : ∀ k : Mark .comma, k.val.isComment = false := by
    intro k
    exact Token.isComment_of_ne (by simp [k.property])
  cases arguments with
  | none => cases ht
  | some n =>
    simp only [argumentTokens, ArgumentsNode.tokens, ArgumentsNode.tailTokens, List.mem_cons,
      List.mem_append, List.mem_flatMap, List.mem_map, List.not_mem_nil, or_false] at ht
    rcases ht with rfl | ⟨m, _, rfl | rfl⟩ | ⟨k, _, rfl⟩
    · exact hargument n.first
    · exact hcomma m.1
    · exact hargument m.2
    · exact hcomma k

theorem Item.isComment_of_mem_tokens {item : Item} {t : Token} (ht : t ∈ item.tokens) :
    t.isComment = false := by
  cases item with
  | separator k =>
    obtain rfl := List.mem_singleton.1 ht
    rcases k.property with hk | hk
    · exact Token.isComment_of_ne (by simp [hk])
    · exact Token.isComment_of_ne (by simp [hk])
  | statement n =>
    simp only [tokens, StatementNode.tokens, List.mem_cons, List.mem_append,
      List.not_mem_nil, or_false] at ht
    rcases ht with rfl | rfl | harguments | rfl
    · exact Token.isComment_of_ne (by simp [n.head_eq])
    · exact Token.isComment_of_ne (by simp [n.opening.property])
    · exact StatementNode.isComment_of_mem_argumentTokens harguments
    · exact Token.isComment_of_ne (by simp [n.closing.property])

theorem Derivation.withoutComments_tokens (d : Derivation) :
    withoutComments d.tokens = d.tokens := by
  refine List.filter_eq_self.2 fun t ht => ?_
  obtain ⟨item, _, hitem⟩ := List.mem_flatMap.1 ht
  rw [Item.isComment_of_mem_tokens hitem]
  rfl

/-! ## Tests before parts

    A head or an argument can also be read in two steps: test the token, then
    take it apart.  The second step has no answer for a token of another kind,
    and after the test it never meets one. -/

def Token.isWord (t : Token) : Bool :=
  match t.lexeme with
  | .word _ => true
  | _       => false

def Token.isArgument (t : Token) : Bool :=
  match t.lexeme with
  | .number _ => true
  | .word _   => true
  | .text _   => true
  | _         => false

theorem Token.isSome_head? (t : Token) : t.head?.isSome = t.isWord := by
  unfold head? isWord
  cases t.lexeme <;> rfl

theorem Token.isSome_argument? (t : Token) : t.argument?.isSome = t.isArgument := by
  unfold argument? isArgument
  cases t.lexeme with
  | number s =>
    dsimp only
    split <;> rfl
  | _ => rfl

namespace Cursor

/-- Take the next token, which must pass a test, and take it apart.  There is
    no result if a token passes and cannot be taken apart. -/
def expectTested {α : Type} (c : Cursor) (test : Token → Bool) (parts : Token → Option α) :
    Option (Except SourceFault α × Cursor) :=
  match c.expect fun t => if test t then some t else none with
  | (.ok t, rest)    => (parts t).map fun a => (.ok a, rest)
  | (.error f, rest) => some (.error f, rest)

theorem expectTested_eq {α : Type} {test : Token → Bool} {parts : Token → Option α}
    (h : ∀ t, (parts t).isSome = test t) (c : Cursor) :
    c.expectTested test parts = some (c.expect parts) := by
  unfold expectTested expect
  cases c.next with
  | mk answer rest =>
    cases answer with
    | none => rfl
    | some t =>
      have ht := h t
      cases hparts : parts t with
      | none =>
        rw [hparts] at ht
        simp [← ht, hparts]
      | some a =>
        rw [hparts] at ht
        simp [← ht, hparts]

/-- The reader accepts exactly the token lists that have a derivation once
    their comments are removed, and gives the statements of that derivation;
    there is never more than one.  Reading a head or an argument by a test
    first never gets stuck on a token that passed. -/
theorem statements_iff_derivation (ts : List Token) :
    (∀ ss : List Statement, (ofTokens ts).statements = .ok ss ↔
      ∃ d : Derivation, d.tokens = withoutComments ts ∧ d.statements = ss) ∧
    (∀ d d' : Derivation, d.tokens = d'.tokens → d = d') ∧
    ∀ c : Cursor,
      c.expectTested Token.isWord Token.head? = some (c.expect Token.head?) ∧
      c.expectTested Token.isArgument Token.argument? = some (c.expect Token.argument?) := by
  refine ⟨fun ss => statements_eq_ok_iff, fun d d' => Derivation.tokens_injective, fun c => ?_⟩
  exact ⟨expectTested_eq Token.isSome_head? c, expectTested_eq Token.isSome_argument? c⟩

end Cursor

end OnePass
