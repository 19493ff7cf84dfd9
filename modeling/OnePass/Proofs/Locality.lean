import OnePass.Proofs.Parsing

/-! # Reading is local

    Two facts about the reader, for token lists that consist of whole lines.

    The reader carries positions along but never looks at them: giving every
    token another position changes the result in the same way.  And no
    statement gets past the end of its line: what follows whole lines is read
    as if it stood alone.

    Both are one simulation.  A cursor `d` is `Ahead` of `c` if it sees the
    tokens of `c`, repositioned, and further ones behind them; as long as `c`
    is inside a line, every reading function does the same on both.

    * `statementsAfter_ahead` : the simulation, for all statements.
    * `statements_append`, `statements_reposition` : the two facts.
    * `position_of_statements_error` : a fault is charged to a token that is
      there. -/

namespace OnePass

/-! ## Other positions -/

section reposition

variable (g : Position → Position)

def Token.reposition (t : Token) : Token :=
  { t with position := g t.position }

def Statement.reposition (s : Statement) : Statement :=
  { s with position := g s.position }

def SourceFault.reposition (f : SourceFault) : SourceFault :=
  { f with position := g f.position }

/-- The result of reading, with every position replaced. -/
def repositionResult : Except SourceFault (List Statement) → Except SourceFault (List Statement)
  | .ok ss   => .ok (ss.map (·.reposition g))
  | .error f => .error (f.reposition g)

namespace Token

@[simp] theorem lexeme_reposition (t : Token) : (t.reposition g).lexeme = t.lexeme := rfl

theorem misplaced_reposition (t : Token) :
    (t.reposition g).misplaced = t.misplaced.reposition g := rfl

theorem head?_reposition (t : Token) :
    (t.reposition g).head? = t.head?.map fun (name, p) => (name, g p) := by
  unfold head?
  rw [lexeme_reposition]
  cases t.lexeme <;> rfl

theorem argument?_reposition (t : Token) :
    (t.reposition g).argument? = t.argument?.map (·.mapError (·.reposition g)) := by
  unfold argument?
  rw [lexeme_reposition]
  cases t.lexeme with
  | number s =>
    dsimp only
    cases Literal.value? s <;> rfl
  | _ => rfl

end Token

theorem withoutComments_reposition (ts : List Token) :
    withoutComments (ts.map (·.reposition g)) = (withoutComments ts).map (·.reposition g) := by
  unfold withoutComments
  rw [List.filter_map]
  rfl

end reposition

/-! ## Whole lines -/

/-- The tokens end with the mark for the end of a line, if there are any. -/
def WholeLines (ts : List Token) : Prop :=
  ∀ t ∈ ts.getLast?, t.lexeme = .endOfLine

theorem wholeLines_nil : WholeLines [] := by
  intro t ht
  cases ht

theorem WholeLines.append {ts us : List Token} (ht : WholeLines ts) (hu : WholeLines us) :
    WholeLines (ts ++ us) := by
  intro t hlast
  rw [List.getLast?_append, Option.mem_def, Option.or_eq_some_iff] at hlast
  rcases hlast with hlast | ⟨_, hlast⟩
  · exact hu t hlast
  · exact ht t hlast

theorem WholeLines.tail {t : Token} {ts : List Token} (h : WholeLines (t :: ts)) :
    WholeLines ts := by
  intro u hu
  refine h u ?_
  rw [List.getLast?_cons, Option.mem_def.1 hu]
  rfl

theorem WholeLines.reposition {ts : List Token} (h : WholeLines ts) (g : Position → Position) :
    WholeLines (ts.map (·.reposition g)) := by
  intro t ht
  rw [List.getLast?_map, Option.mem_def, Option.map_eq_some_iff] at ht
  obtain ⟨u, hu, rfl⟩ := ht
  exact h u hu

/-- Inside a line there is always a token left to read. -/
theorem WholeLines.ne_nil_of_cons {t : Token} {ts : List Token} (h : WholeLines (t :: ts))
    (ht : t.lexeme ≠ .endOfLine) : ts ≠ [] := by
  rintro rfl
  exact ht (h t rfl)

/-- The marks for line ends are no comments, so the last one stays. -/
theorem WholeLines.withoutComments {ts : List Token} (h : WholeLines ts) :
    WholeLines (withoutComments ts) := by
  rcases List.eq_nil_or_concat ts with rfl | ⟨before, t, rfl⟩
  · exact wholeLines_nil
  · have hline : t.lexeme = .endOfLine := h t (by simp)
    have hkept : OnePass.withoutComments (before.concat t) =
        OnePass.withoutComments before ++ [t] := by
      simp [OnePass.withoutComments, Token.isComment, hline]
    intro u hu
    rw [hkept, List.getLast?_concat] at hu
    cases hu
    exact hline

/-! ## The simulation -/

namespace Cursor

/-- `d` sees what `c` sees, repositioned by `g`, and `more` behind it; and `c`
    is inside whole lines. -/
structure Ahead (g : Position → Position) (more : List Token) (c d : Cursor) : Prop where
  visible_eq : d.visible = c.visible.map (·.reposition g) ++ more
  wholeLines : WholeLines c.visible

variable {g : Position → Position} {more : List Token} {c d : Cursor}

theorem Ahead.visible_ne_nil (h : Ahead g more c d) (hne : c.visible ≠ []) :
    d.visible ≠ [] := by
  rw [h.visible_eq]
  simp [hne]

/-- Both cursors take the same token. -/
theorem Ahead.next (h : Ahead g more c d) (hne : c.visible ≠ []) :
    ∃ t c' d', c.next = (some t, c') ∧ d.next = (some (t.reposition g), d') ∧
      c.visible = t :: c'.visible ∧ Ahead g more c' d' := by
  obtain ⟨t, ts, hv⟩ := List.exists_cons_of_ne_nil hne
  have hv' : d.visible = t.reposition g :: (ts.map (·.reposition g) ++ more) := by
    rw [h.visible_eq, hv]
    rfl
  obtain ⟨c', hc', hts, _⟩ := next_of_visible hv
  obtain ⟨d', hd', hts', _⟩ := next_of_visible hv'
  refine ⟨t, c', d', hc', hd', by rw [hv, hts], ?_, ?_⟩
  · rw [hts', hts]
  · have hlines := h.wholeLines
    rw [hv] at hlines
    rw [hts]
    exact hlines.tail

section tests

variable {α : Type} {accept : Token → Option α} {f : α → α}

/-- An acceptance test that carries positions along and does not look at
    them. -/
def Placeless (g : Position → Position) (accept : Token → Option α) (f : α → α) : Prop :=
  ∀ t, accept (t.reposition g) = (accept t).map f

/-- An acceptance test that the end of a line does not pass. -/
def WithinLine (accept : Token → Option α) : Prop :=
  ∀ t, t.lexeme = .endOfLine → accept t = none

/-- The next tokens of the two cursors pass a test together or fail it
    together. -/
theorem Ahead.offer (h : Ahead g more c d) (hne : c.visible ≠ []) (ha : Placeless g accept f) :
    ∃ t c' d', c.next = (some t, c') ∧ d.next = (some (t.reposition g), d') ∧
      ((∃ a, accept t = some a ∧ accept (t.reposition g) = some (f a) ∧
          Ahead g more c' d' ∧ (WithinLine accept → c'.visible ≠ [])) ∨
        accept t = none ∧ accept (t.reposition g) = none) := by
  obtain ⟨t, c', d', hc, hd, hv, h'⟩ := h.next hne
  refine ⟨t, c', d', hc, hd, ?_⟩
  rw [ha t]
  cases hat : accept t with
  | none => exact .inr ⟨rfl, rfl⟩
  | some a =>
    refine .inl ⟨a, rfl, rfl, h', fun hline => ?_⟩
    have hmid : t.lexeme ≠ .endOfLine := by
      intro ht
      rw [hline t ht] at hat
      cases hat
    have hlines := h.wholeLines
    rw [hv] at hlines
    exact hlines.ne_nil_of_cons hmid

theorem Ahead.expect (h : Ahead g more c d) (hne : c.visible ≠ []) (ha : Placeless g accept f) :
    (∃ a c' d', c.expect accept = (.ok a, c') ∧ d.expect accept = (.ok (f a), d') ∧
        Ahead g more c' d' ∧ (WithinLine accept → c'.visible ≠ [])) ∨
      ∃ e c' d', c.expect accept = (.error e, c') ∧
        d.expect accept = (.error (e.reposition g), d') := by
  obtain ⟨t, c', d', hc, hd, hanswer⟩ := h.offer hne ha
  rcases hanswer with ⟨a, hat, hat', h', hne'⟩ | ⟨hat, hat'⟩
  · refine .inl ⟨a, c', d', ?_, ?_, h', hne'⟩
    · simp only [Cursor.expect, hc, hat]
    · simp only [Cursor.expect, hd, hat']
  · refine .inr ⟨t.misplaced, c', d', ?_, ?_⟩
    · simp only [Cursor.expect, hc, hat]
    · simp only [Cursor.expect, hd, hat', Token.misplaced_reposition]

theorem Ahead.consume (h : Ahead g more c d) (hne : c.visible ≠ []) (ha : Placeless g accept f) :
    (∃ a c' d', c.consume accept = (some a, c') ∧ d.consume accept = (some (f a), d') ∧
        Ahead g more c' d' ∧ (WithinLine accept → c'.visible ≠ [])) ∨
      c.consume accept = (none, c) ∧ d.consume accept = (none, d) := by
  obtain ⟨t, c', d', hc, hd, hanswer⟩ := h.offer hne ha
  rcases hanswer with ⟨a, hat, hat', h', hne'⟩ | ⟨hat, hat'⟩
  · refine .inl ⟨a, c', d', ?_, ?_, h', hne'⟩
    · simp only [Cursor.consume, hc, hat]
    · simp only [Cursor.consume, hd, hat']
  · refine .inr ⟨?_, ?_⟩
    · simp only [Cursor.consume, hc, hat]
    · simp only [Cursor.consume, hd, hat']

theorem Ahead.check (h : Ahead g more c d) (hne : c.visible ≠ []) (ha : Placeless g accept f) :
    d.check accept = c.check accept := by
  obtain ⟨t, ts, hv⟩ := List.exists_cons_of_ne_nil hne
  have hc : c.peek? = some t := by
    rw [peek?_eq_head?, hv]
    rfl
  have hd : d.peek? = some (t.reposition g) := by
    rw [peek?_eq_head?, h.visible_eq, hv]
    rfl
  simp only [Cursor.check, hc, hd, ha t, Option.isSome_map]

end tests

/-! ### The tests of the reader -/

theorem placeless_head : Placeless g Token.head? fun (name, p) => (name, g p) :=
  Token.head?_reposition g

theorem withinLine_head : WithinLine Token.head? := by
  intro t ht
  simp [Token.head?, ht]

theorem placeless_argument : Placeless g Token.argument? (·.mapError (·.reposition g)) :=
  Token.argument?_reposition g

theorem withinLine_argument : WithinLine Token.argument? := by
  intro t ht
  simp [Token.argument?, ht]

/-- Tests that only ask which lexeme it is. -/
theorem placeless_of_lexeme {accept : Token → Option Unit}
    (h : ∀ t u : Token, t.lexeme = u.lexeme → accept t = accept u) : Placeless g accept id := by
  intro t
  rw [Option.map_id, h (t.reposition g) t rfl]
  rfl

theorem placeless_separator : Placeless g Token.separator? id :=
  placeless_of_lexeme fun t u h => by rw [Token.separator?, Token.separator?, h]

theorem placeless_openParen : Placeless g Token.openParen? id :=
  placeless_of_lexeme fun t u h => by rw [Token.openParen?, Token.openParen?, h]

theorem placeless_closeParen : Placeless g Token.closeParen? id :=
  placeless_of_lexeme fun t u h => by rw [Token.closeParen?, Token.closeParen?, h]

theorem placeless_comma : Placeless g Token.comma? id :=
  placeless_of_lexeme fun t u h => by rw [Token.comma?, Token.comma?, h]

theorem withinLine_openParen : WithinLine Token.openParen? := by
  intro t ht
  simp [Token.openParen?, ht]

theorem withinLine_closeParen : WithinLine Token.closeParen? := by
  intro t ht
  simp [Token.closeParen?, ht]

theorem withinLine_comma : WithinLine Token.comma? := by
  intro t ht
  simp [Token.comma?, ht]

/-! ### Arguments and statements -/

/-- Two results that differ only in positions, reached at cursors that are
    still inside a line, one ahead of the other. -/
inductive Alike (g : Position → Position) (more : List Token) {α : Type} (f : α → α) :
    Except SourceFault (α × Cursor) → Except SourceFault (α × Cursor) → Prop
  | ok {a : α} {c d : Cursor} :
      Ahead g more c d → c.visible ≠ [] → Alike g more f (.ok (a, c)) (.ok (f a, d))
  | error {e : SourceFault} : Alike g more f (.error e) (.error (e.reposition g))

theorem Alike.of_error {α : Type} {f : α → α} {e : SourceFault}
    {r : Except SourceFault (α × Cursor)} (h : Alike g more f (.error e) r) :
    r = .error (e.reposition g) := by
  cases h
  rfl

theorem Alike.of_ok {α : Type} {f : α → α} {a : α} {r : Except SourceFault (α × Cursor)}
    (h : Alike g more f (.ok (a, c)) r) :
    ∃ d, r = .ok (f a, d) ∧ Ahead g more c d ∧ c.visible ≠ [] := by
  cases h with
  | ok h' hne => exact ⟨_, rfl, h', hne⟩

theorem Alike.map_cons {r r' : Except SourceFault (List Argument × Cursor)}
    (h : Alike g more id r r') (a : Argument) :
    Alike g more id (r.map fun r => (a :: r.1, r.2)) (r'.map fun r => (a :: r.1, r.2)) := by
  cases h with
  | ok h' hne => exact .ok h' hne
  | error => exact .error

theorem Ahead.argument (h : Ahead g more c d) (hne : c.visible ≠ []) :
    Alike g more id c.argument d.argument := by
  rcases h.expect hne placeless_argument with
    ⟨answer, c', d', hc, hd, h', hne'⟩ | ⟨e, c', d', hc, hd⟩
  · cases answer with
    | ok a =>
      simp only [Cursor.argument, hc, hd]
      exact .ok h' (hne' withinLine_argument)
    | error e =>
      simp only [Cursor.argument, hc, hd]
      exact .error
  · simp only [Cursor.argument, hc, hd]
    exact .error

/-- One argument and, after a comma, the others. -/
theorem arguments_eq (c : Cursor) :
    c.arguments =
      if c.check Token.closeParen? then .ok ([], c)
      else match c.argument with
        | .error f      => .error f
        | .ok (a, rest) =>
          match rest.consume Token.comma? with
          | (none, rest)    => .ok ([a], rest)
          | (some _, rest') => rest'.arguments.map fun r => (a :: r.1, r.2) := by
  rw [arguments]
  by_cases hclose : c.check Token.closeParen? = true
  · rw [if_pos hclose, if_pos hclose]
  · rw [if_neg hclose, if_neg hclose]
    split
    · next hArg => rw [hArg]
    · next hArg =>
      rw [hArg]
      dsimp only
      split
      · next hComma => rw [hComma]
      · next rest' hComma =>
        rw [hComma]
        show _ = rest'.arguments.map _
        cases rest'.arguments <;> rfl

theorem Ahead.arguments (h : Ahead g more c d) (hne : c.visible ≠ []) :
    Alike g more id c.arguments d.arguments := by
  -- Both cursors are unfolded in step, so the induction is on what `c` has left.
  induction hlen : c.pending.length using Nat.strongRecOn generalizing c d with
  | ind n ih =>
    rw [arguments_eq c, arguments_eq d, h.check hne placeless_closeParen]
    by_cases hclose : c.check Token.closeParen? = true
    · rw [if_pos hclose, if_pos hclose]
      exact .ok h hne
    · rw [if_neg hclose, if_neg hclose]
      have harg := h.argument hne
      cases hc : c.argument with
      | error e =>
        rw [hc] at harg
        rw [harg.of_error]
        exact .error
      | ok r =>
        obtain ⟨a, c₁⟩ := r
        rw [hc] at harg
        obtain ⟨d₁, hd, h₁, hne₁⟩ := harg.of_ok
        rw [hd]
        rcases h₁.consume hne₁ placeless_comma with
          ⟨u, c₂, d₂, hc₂, hd₂, h₂, hne₂⟩ | ⟨hc₂, hd₂⟩
        · have hlt : c₂.pending.length < n := by
            have hlt₁ := length_argument_lt hc
            have hlt₂ := length_consume_lt hc₂
            omega
          simp only [hc₂, hd₂]
          exact (ih _ hlt h₂ (hne₂ withinLine_comma) rfl).map_cons a
        · simp only [hc₂, hd₂]
          exact .ok h₁ hne₁

theorem Ahead.statement (h : Ahead g more c d) (hne : c.visible ≠ []) :
    Alike g more (·.reposition g) c.statement d.statement := by
  unfold Cursor.statement
  rcases h.expect hne placeless_head with
    ⟨⟨name, p⟩, c₁, d₁, hc₁, hd₁, h₁, hne₁⟩ | ⟨e, _, _, hc, hd⟩
  · rcases h₁.expect (hne₁ withinLine_head) placeless_openParen with
      ⟨_, c₂, d₂, hc₂, hd₂, h₂, hne₂⟩ | ⟨e, _, _, hc, hd⟩
    · have hargs := h₂.arguments (hne₂ withinLine_openParen)
      cases hc₃ : c₂.arguments with
      | error e =>
        rw [hc₃] at hargs
        simp only [hc₁, hd₁, hc₂, hd₂, hc₃, hargs.of_error]
        exact .error
      | ok r =>
        obtain ⟨as, c₃⟩ := r
        rw [hc₃] at hargs
        obtain ⟨d₃, hd₃, h₃, hne₃⟩ := hargs.of_ok
        rcases h₃.expect hne₃ placeless_closeParen with
          ⟨_, c₄, d₄, hc₄, hd₄, h₄, hne₄⟩ | ⟨e, _, _, hc, hd⟩
        · simp only [hc₁, hd₁, hc₂, hd₂, hc₃, hd₃, hc₄, hd₄]
          exact .ok h₄ (hne₄ withinLine_closeParen)
        · simp only [hc₁, hd₁, hc₂, hd₂, hc₃, hd₃, hc, hd]
          exact .error
    · simp only [hc₁, hd₁, hc, hd]
      exact .error
  · simp only [hc, hd]
    exact .error

/-! ### All statements -/

/-- One round of the reader. -/
theorem statementsAfter_eq (done : List Statement) (c : Cursor) :
    statementsAfter done c =
      match c.peek? with
      | none   => .ok done.reverse
      | some _ =>
        match c.consume Token.separator? with
        | (some _, rest) => statementsAfter done rest
        | (none, _)      =>
          match c.statement with
          | .error f      => .error f
          | .ok (s, rest) =>
            match rest.peek? with
            | none   => .ok (s :: done).reverse
            | some _ =>
              match rest.expect Token.separator? with
              | (.error f, _)  => .error f
              | (.ok _, rest') => statementsAfter (s :: done) rest' := by
  rw [statementsAfter]
  cases c.peek? with
  | none => rfl
  | some t =>
    dsimp only
    split
    · next hSep => rw [hSep]
    · next hSep =>
      rw [hSep]
      dsimp only
      split
      · next hStmt => rw [hStmt]
      · next s rest hStmt =>
        rw [hStmt]
        dsimp only
        cases rest.peek? with
        | none => rfl
        | some t =>
          dsimp only
          split
          · next hEnd => rw [hEnd]
          · next hEnd => rw [hEnd]

theorem peek?_of_ne_nil (hne : c.visible ≠ []) : ∃ t, c.peek? = some t := by
  obtain ⟨t, ts, hv⟩ := List.exists_cons_of_ne_nil hne
  rw [peek?_eq_head?, hv]
  exact ⟨t, rfl⟩

/-- The simulation.  If `c` reads to its end, `d` has read the same by the time
    it gets to the tokens behind; if `c` fails, `d` fails in the same way and
    never gets there.  Before, `d` may have read other statements (`base`). -/
theorem statementsAfter_ahead (done base : List Statement) (h : Ahead g more c d) :
    (∀ e, statementsAfter done c = .error e →
      statementsAfter (done.map (·.reposition g) ++ base) d = .error (e.reposition g)) ∧
    (∀ ss, statementsAfter done c = .ok ss →
      ∃ d', d'.visible = more ∧
        statementsAfter (done.map (·.reposition g) ++ base) d =
          statementsAfter (ss.reverse.map (·.reposition g) ++ base) d') := by
  induction hlen : c.pending.length using Nat.strongRecOn generalizing c d done with
  | ind n ih =>
    by_cases hnil : c.visible = []
    · -- `c` is at its end, and what `d` sees is what comes behind.
      rw [statementsAfter_of_nil done hnil]
      refine ⟨fun e he => (nomatch he), fun ss hss => ?_⟩
      cases hss
      refine ⟨d, ?_, by rw [List.reverse_reverse]⟩
      rw [h.visible_eq, hnil]
      rfl
    · obtain ⟨t, hc⟩ := peek?_of_ne_nil hnil
      obtain ⟨t', hd⟩ := peek?_of_ne_nil (h.visible_ne_nil hnil)
      rw [statementsAfter_eq done c, statementsAfter_eq _ d, hc, hd]
      dsimp only
      rcases h.consume hnil placeless_separator with
        ⟨_, c₁, d₁, hc₁, hd₁, h₁, _⟩ | ⟨hc₁, hd₁⟩
      · -- A separator: both pass over it.
        have hlt : c₁.pending.length < n := by
          have hlt₁ := length_consume_lt hc₁
          omega
        rw [hc₁, hd₁]
        exact ih _ hlt done h₁ rfl
      · rw [hc₁, hd₁]
        dsimp only
        have hstmt := h.statement hnil
        cases hc₂ : c.statement with
        | error e =>
          rw [hc₂] at hstmt
          rw [hstmt.of_error]
          refine ⟨fun e' he => ?_, fun ss hss => nomatch hss⟩
          cases he
          rfl
        | ok r =>
          obtain ⟨s, c₂⟩ := r
          rw [hc₂] at hstmt
          obtain ⟨d₂, hd₂, h₂, hne₂⟩ := hstmt.of_ok
          rw [hd₂]
          dsimp only
          -- A statement never takes the last token of its line, so that there
          -- is one left for the separator.
          obtain ⟨u, hcu⟩ := peek?_of_ne_nil hne₂
          obtain ⟨u', hdu⟩ := peek?_of_ne_nil (h₂.visible_ne_nil hne₂)
          rw [hcu, hdu]
          dsimp only
          rcases h₂.expect hne₂ placeless_separator with
            ⟨_, c₃, d₃, hc₃, hd₃, h₃, _⟩ | ⟨e, _, _, hc₃, hd₃⟩
          · have hlt : c₃.pending.length < n := by
              have hlt₁ := length_statement_lt hc₂
              have hlt₂ := length_expect_lt hc₃
              omega
            rw [hc₃, hd₃]
            exact ih _ hlt (s :: done) h₃ rfl
          · rw [hc₃, hd₃]
            refine ⟨fun e' he => ?_, fun ss hss => nomatch hss⟩
            cases he
            rfl

/-! ## What the simulation says about whole lines -/

/-- Whole lines read the same from any cursor that sees nothing else. -/
theorem statementsAfter_of_wholeLines (base : List Statement) (h : Ahead g [] c d) :
    statementsAfter base d = (repositionResult g c.statements).map (base.reverse ++ ·) := by
  obtain ⟨herror, hok⟩ := statementsAfter_ahead [] base h
  unfold statements
  cases hc : statementsAfter [] c with
  | error e => exact herror e hc
  | ok ss =>
    obtain ⟨d', hnil, heq⟩ := hok ss hc
    have hread : statementsAfter base d = _ := heq
    rw [hread, statementsAfter_of_nil _ hnil]
    simp [repositionResult, Except.map]

/-- The reader carries positions along. -/
theorem statements_reposition (g : Position → Position) {ts : List Token} (h : WholeLines ts) :
    (ofTokens (ts.map (·.reposition g))).statements =
      repositionResult g (ofTokens ts).statements := by
  have hahead : Ahead g [] (ofTokens ts) (ofTokens (ts.map (·.reposition g))) := by
    refine ⟨?_, h.withoutComments⟩
    rw [visible_ofTokens, visible_ofTokens, withoutComments_reposition, List.append_nil]
  have hread := statementsAfter_of_wholeLines [] hahead
  unfold statements at hread ⊢
  rw [hread]
  cases repositionResult g (statementsAfter [] (ofTokens ts)) <;> rfl

theorem map_reposition_id (ts : List Token) : ts.map (·.reposition id) = ts :=
  List.map_id ts

theorem repositionResult_id (r : Except SourceFault (List Statement)) :
    repositionResult id r = r := by
  cases r with
  | error f => rfl
  | ok ss => exact congrArg Except.ok (List.map_id ss)

/-- What follows whole lines is read as if it stood alone, unless they are
    refused. -/
theorem statements_append {ts us : List Token} (ht : WholeLines ts) (hu : WholeLines us) :
    (ofTokens (ts ++ us)).statements =
      match (ofTokens ts).statements with
      | .error f => .error f
      | .ok ss   => (ofTokens us).statements.map (ss ++ ·) := by
  have hvisible : (ofTokens (ts ++ us)).visible =
      (ofTokens ts).visible.map (·.reposition id) ++ withoutComments us := by
    rw [map_reposition_id]
    exact withoutComments_append ts us
  obtain ⟨herror, hok⟩ := statementsAfter_ahead [] [] ⟨hvisible, ht.withoutComments⟩
  unfold statements
  cases hc : statementsAfter [] (ofTokens ts) with
  | error e => exact herror e hc
  | ok ss =>
    obtain ⟨d', hd', heq⟩ := hok ss hc
    have hread : statementsAfter [] (ofTokens (ts ++ us)) =
        statementsAfter (ss.reverse.map (·.reposition id) ++ []) d' := heq
    -- Behind the first lines there is a cursor of its own, which remembers
    -- another last token than a new one would.
    have hahead : Ahead id [] (ofTokens us) d' := by
      refine ⟨?_, hu.withoutComments⟩
      rw [hd', map_reposition_id, List.append_nil]
      rfl
    have hsame : ss.reverse.map (·.reposition id) ++ [] = ss.reverse := by
      rw [List.append_nil]
      exact List.map_id _
    rw [hread, hsame, statementsAfter_of_wholeLines _ hahead, repositionResult_id,
      List.reverse_reverse]
    rfl

/-- A fault in whole lines is charged to one of their tokens. -/
theorem position_of_statements_error {ts : List Token} (h : WholeLines ts) {f : SourceFault}
    (hf : (ofTokens ts).statements = .error f) : ∃ t ∈ ts, t.position = f.position := by
  -- Move everything that is not the position of a token.  The tokens stay, so
  -- the fault stays too.
  let moved (p : Position) : Position :=
    if p ∈ ts.map (·.position) then p else ⟨p.file, p.line + 1⟩
  have hstay : ts.map (·.reposition moved) = ts := by
    refine (List.map_congr_left fun t ht => ?_).trans (List.map_id ts)
    have hmem : t.position ∈ ts.map (·.position) := List.mem_map_of_mem ht
    simp only [Token.reposition, moved, if_pos hmem, id]
  have hfault := statements_reposition moved h
  rw [hstay, hf] at hfault
  have hfixed : f.position = moved f.position :=
    congrArg SourceFault.position (Except.error.inj hfault)
  by_cases hmem : f.position ∈ ts.map (·.position)
  · exact List.mem_map.1 hmem
  · have hline := congrArg Position.line hfixed
    simp only [moved, if_neg hmem] at hline
    omega

end Cursor

end OnePass
