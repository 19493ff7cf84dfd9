import OnePass.Proofs.Parsing

/-! # Where reading breaks off

    A token list is viable if further tokens can turn it into one that is
    accepted.  The reader keeps going as long as what it has taken is viable:
    it stops at the first token that nothing can make good, or at the end of a
    list that is viable and not complete.

    Between two tokens the reader is at one of five places, and the place alone
    decides which tokens may come next.  The reader itself never says where it
    is; its functions and the cursor do.

    * `Place.next?` : which tokens fit at a place, and where they lead.
    * `Place.fault?` : walk over tokens, up to the first that does not fit.
    * `Cursor.fault?_outside` : the reader reports what the walk finds.
    * `viable_iff` : viable are the lists that can be walked over.
    * `Cursor.statements_stops` : the fault of a list that is refused. -/

namespace OnePass

/-! ## Places -/

/-- Where the reader can be between two tokens. -/
inductive Place where
  /-- Before a statement or a separator. -/
  | outside
  /-- After the name of a statement. -/
  | named
  /-- After an opening parenthesis or a comma. -/
  | opened
  /-- After an argument. -/
  | filled
  /-- After a closing parenthesis. -/
  | closed
  deriving DecidableEq, Repr

namespace Place

/-- The place that a token leads to, if it fits. -/
def next? (place : Place) (t : Token) : Option Place :=
  match place, t.lexeme with
  | outside, .semicolon  => some outside
  | outside, .endOfLine  => some outside
  | outside, .word _     => some named
  | named,   .openParen  => some opened
  | opened,  .number s   => (Literal.value? s).map fun _ => filled
  | opened,  .word _     => some filled
  | opened,  .text _     => some filled
  | opened,  .closeParen => some closed
  | filled,  .comma      => some opened
  | filled,  .closeParen => some closed
  | closed,  .semicolon  => some outside
  | closed,  .endOfLine  => some outside
  | _,       _           => none

/-- May the tokens end here? -/
def isFinal : Place → Bool
  | outside => true
  | closed  => true
  | _       => false

/-- The fault of a token that does not fit.  In an argument's place a number is
    not misplaced, so it must be malformed. -/
def refuse (place : Place) (t : Token) : SourceFault :=
  match place, t.lexeme with
  | opened, .number s => ⟨t.position, .malformedNumber s⟩
  | _,      _         => t.misplaced

/-- Walk over tokens and give the fault of the first that does not fit.  The
    token before them stands at `last`; it is blamed if they end too early. -/
def fault? (place : Place) (last : Position) : List Token → Option SourceFault
  | []      => if place.isFinal then none else some ⟨last, .unexpectedEndOfLine⟩
  | t :: ts =>
    match place.next? t with
    | some place' => place'.fault? t.position ts
    | none        => some (place.refuse t)

/-- The place after all tokens, if each of them fits. -/
def after? (place : Place) : List Token → Option Place
  | []      => some place
  | t :: ts =>
    match place.next? t with
    | some place' => place'.after? ts
    | none        => none

/-- Tokens that complete what has been read up to a place. -/
def completion : Place → List Token
  | outside => []
  | named   => [⟨.openParen, .origin⟩, ⟨.closeParen, .origin⟩]
  | opened  => [⟨.closeParen, .origin⟩]
  | filled  => [⟨.closeParen, .origin⟩]
  | closed  => []

variable {place place' : Place} {last : Position} {t : Token} {ts us : List Token}

/-- What fits depends on the lexeme only. -/
theorem next?_of_lexeme {l : Lexeme} (place : Place) (h : t.lexeme = l) :
    place.next? t = place.next? ⟨l, .origin⟩ := by
  obtain ⟨l', p⟩ := t
  cases h
  rfl

theorem next?_number (s : String) (p : Position) :
    opened.next? ⟨.number s, p⟩ = (Literal.value? s).map fun _ => filled := rfl

theorem fault?_of_next? (h : place.next? t = some place') :
    place.fault? last (t :: ts) = place'.fault? t.position ts := by
  simp only [fault?, h]

theorem fault?_of_stuck (h : place.next? t = none) :
    place.fault? last (t :: ts) = some (place.refuse t) := by
  simp only [fault?, h]

/-- No place is a dead end. -/
theorem fault?_completion (place : Place) (last : Position) :
    place.fault? last place.completion = none := by
  cases place <;> rfl

theorem completion_ne_nil (h : place.isFinal = false) : place.completion ≠ [] := by
  cases place with
  | outside => cases h
  | closed => cases h
  | _ => exact List.cons_ne_nil _ _

theorem after?_of_next? (h : place.next? t = some place') :
    place.after? (t :: ts) = place'.after? ts := by
  simp only [after?, h]

theorem after?_append (h : place.after? ts = some place') (us : List Token) :
    place.after? (ts ++ us) = place'.after? us := by
  induction ts generalizing place with
  | nil =>
    cases h
    rfl
  | cons t ts ih =>
    cases hq : place.next? t with
    | none =>
      simp only [after?, hq] at h
      cases h
    | some q =>
      rw [after?_of_next? hq] at h
      rw [List.cons_append, after?_of_next? hq]
      exact ih h

theorem after?_concat (h : place.after? ts = some place') (t : Token) :
    place.after? (ts ++ [t]) = place'.next? t := by
  rw [after?_append h]
  simp only [after?]
  cases place'.next? t <;> rfl

/-- Over tokens that fit, the walk goes on from where they lead. -/
theorem fault?_append (h : place.after? ts = some place') (last : Position) (us : List Token) :
    ∃ last', place.fault? last (ts ++ us) = place'.fault? last' us := by
  induction ts generalizing place last with
  | nil =>
    cases h
    exact ⟨last, rfl⟩
  | cons t ts ih =>
    cases hq : place.next? t with
    | none =>
      simp only [after?, hq] at h
      cases h
    | some q =>
      rw [after?_of_next? hq] at h
      rw [List.cons_append, fault?_of_next? hq]
      exact ih h t.position

/-- Tokens of which one does not fit stay unfit, whatever follows. -/
theorem fault?_ne_none_of_stuck (h : place.after? ts = none) (last : Position)
    (us : List Token) : place.fault? last (ts ++ us) ≠ none := by
  induction ts generalizing place last with
  | nil => cases h
  | cons t ts ih =>
    rw [List.cons_append]
    cases hq : place.next? t with
    | none =>
      rw [fault?_of_stuck hq]
      exact Option.some_ne_none _
    | some q =>
      rw [after?_of_next? hq] at h
      rw [fault?_of_next? hq]
      exact ih h t.position

/-- The two ways in which a walk fails. -/
theorem fault?_eq_some {f : SourceFault} (h : place.fault? last ts = some f) :
    (∃ before t after q, ts = before ++ t :: after ∧ place.after? before = some q ∧
        q.next? t = none ∧ f = q.refuse t) ∨
      ∃ q, place.after? ts = some q ∧ q.isFinal = false ∧
        f = ⟨(ts.getLast?.map (·.position)).getD last, .unexpectedEndOfLine⟩ := by
  induction ts generalizing place last with
  | nil =>
    simp only [fault?] at h
    split at h
    · cases h
    · next hfinal =>
      cases h
      exact .inr ⟨place, rfl, by simpa using hfinal, rfl⟩
  | cons t ts ih =>
    cases hq : place.next? t with
    | none =>
      rw [fault?_of_stuck hq] at h
      cases h
      exact .inl ⟨[], t, ts, place, rfl, rfl, hq, rfl⟩
    | some q =>
      rw [fault?_of_next? hq] at h
      -- The first token fits, so the fault is found further on.
      rcases ih h with ⟨before, u, after, p, rfl, hbefore, hu, rfl⟩ | ⟨p, hp, hfinal, rfl⟩
      · refine .inl ⟨t :: before, u, after, p, rfl, ?_, hu, rfl⟩
        rw [after?_of_next? hq]
        exact hbefore
      · refine .inr ⟨p, ?_, hfinal, ?_⟩
        · rw [after?_of_next? hq]
          exact hp
        · cases ts with
          | nil => rfl
          | cons u us => rw [List.getLast?_cons_cons, List.getLast?_cons]; rfl

end Place

/-! ## The reader walks

    One lemma for each answer of each reading function: either it leads from
    one place to another, or it fails as the walk does. -/

namespace Cursor

open Place

variable {c c' : Cursor} {place place' : Place} {f : SourceFault}

section tests

variable {α : Type} {accept : Token → Option α} {a : α}

theorem fault?_of_taken {t : Token} (hv : c.visible = t :: c'.visible) (hl : c'.last = t.position)
    (h : place.next? t = some place') :
    place.fault? c.last c.visible = place'.fault? c'.last c'.visible := by
  rw [hv, hl, fault?_of_next? h]

theorem fault?_of_expect_ok (h : c.expect accept = (.ok a, c'))
    (hnext : ∀ t, accept t = some a → place.next? t = some place') :
    place.fault? c.last c.visible = place'.fault? c'.last c'.visible := by
  obtain ⟨t, ht, hv, hl⟩ := expect_ok h
  exact fault?_of_taken hv hl (hnext t ht)

theorem fault?_of_expect_error (h : c.expect accept = (.error f, c'))
    (hend : c.visible = [] → place.isFinal = false)
    (hstuck : ∀ t, c.visible.head? = some t → accept t = none →
      place.next? t = none ∧ place.refuse t = t.misplaced) :
    place.fault? c.last c.visible = some f := by
  rcases expect_error h with ⟨hnil, rfl⟩ | ⟨t, ht, hnone, rfl⟩
  · rw [hnil]
    simp only [fault?, hend hnil]
    rfl
  · obtain ⟨ts, hv⟩ := List.head?_eq_some_iff.1 ht
    obtain ⟨hnext, hrefuse⟩ := hstuck t ht hnone
    rw [hv, fault?_of_stuck hnext, hrefuse]

end tests

/-- A separator may stand wherever a statement is not under way. -/
theorem next?_of_separator? {t : Token} (h : t.separator? = some ()) :
    outside.next? t = some outside ∧ closed.next? t = some outside := by
  rcases Token.separator?_eq_some_iff.1 h with hlexeme | hlexeme
  · exact ⟨next?_of_lexeme outside hlexeme, next?_of_lexeme closed hlexeme⟩
  · exact ⟨next?_of_lexeme outside hlexeme, next?_of_lexeme closed hlexeme⟩

theorem fault?_of_comma (h : c.consume Token.comma? = (some (), c')) :
    filled.fault? c.last c.visible = opened.fault? c'.last c'.visible := by
  obtain ⟨t, ht, hv, hl⟩ := consume_some h
  exact fault?_of_taken hv hl (next?_of_lexeme filled (Token.comma?_eq_some_iff.1 ht))

/-! ### Arguments -/

theorem fault?_of_argument_ok {a : Argument} (h : c.argument = .ok (a, c')) :
    opened.fault? c.last c.visible = filled.fault? c'.last c'.visible := by
  unfold argument at h
  split at h
  · next hexpect =>
    cases h
    refine fault?_of_expect_ok hexpect ?_
    intro t ht
    obtain ⟨l, p⟩ := t
    cases Token.argument?_eq_ok_iff.1 ht with
    | number hn => rw [next?_number, hn, Option.map_some]
    | word => rfl
    | text => rfl
  · cases h
  · cases h

theorem fault?_of_argument_error (h : c.argument = .error f)
    (hclose : c.check Token.closeParen? = false) :
    opened.fault? c.last c.visible = some f := by
  unfold argument at h
  split at h
  · cases h
  · next hexpect =>
    -- The token is taken for an argument, and then it is no literal.
    cases h
    obtain ⟨t, ht, hv, _⟩ := expect_ok hexpect
    obtain ⟨l, p⟩ := t
    cases l with
    | number s =>
      simp only [Token.argument?] at ht
      split at ht
      · cases ht
      · next hs =>
        cases ht
        have hstuck : opened.next? ⟨.number s, p⟩ = none := by
          rw [next?_number, hs, Option.map_none]
        rw [hv, fault?_of_stuck hstuck]
        rfl
    | word s => cases ht
    | text s => cases ht
    | _ => cases ht
  · next hexpect =>
    cases h
    refine fault?_of_expect_error hexpect (fun _ => rfl) ?_
    intro t ht hnone
    have hopen : t.lexeme ≠ .closeParen := by
      intro hl
      have hcheck : c.check Token.closeParen? = true := by
        refine check_eq_true_iff.2 ⟨t, ht, ?_⟩
        simp [Token.closeParen?, hl]
      rw [hclose] at hcheck
      cases hcheck
    obtain ⟨l, p⟩ := t
    cases l with
    | closeParen => exact absurd rfl hopen
    | number s =>
      simp only [Token.argument?] at hnone
      split at hnone
      · cases hnone
      · cases hnone
    | word s => cases hnone
    | text s => cases hnone
    | _ => exact ⟨rfl, rfl⟩

/-- Arguments end in front of a token that is no comma.  Whether they end after
    an argument or after a comma in front of `)` makes no difference. -/
theorem fault?_of_arguments_ok {as : List Argument} (h : c.arguments = .ok (as, c')) :
    opened.fault? c.last c.visible = filled.fault? c'.last c'.visible ∧
      ∀ t, c'.visible.head? = some t → t.lexeme ≠ .comma := by
  fun_induction arguments c generalizing as c' with
  | case1 c hclose =>
    cases h
    obtain ⟨t, ht, hsome⟩ := check_eq_true_iff.1 hclose
    obtain ⟨u, hu⟩ := Option.isSome_iff_exists.1 hsome
    have hl : t.lexeme = .closeParen := Token.closeParen?_eq_some_iff.1 hu
    obtain ⟨ts, hv⟩ := List.head?_eq_some_iff.1 ht
    constructor
    · have hopened : opened.next? t = some closed := next?_of_lexeme opened hl
      have hfilled : filled.next? t = some closed := next?_of_lexeme filled hl
      rw [hv, fault?_of_next? hopened, fault?_of_next? hfilled]
    · intro t' ht' hcomma
      rw [ht] at ht'
      cases ht'
      rw [hl] at hcomma
      cases hcomma
  | case2 => cases h
  | case3 c _ a rest hArg rest' hComma =>
    cases h
    have hrest := eq_of_consume_none hComma
    subst hrest
    refine ⟨fault?_of_argument_ok hArg, ?_⟩
    intro t ht hcomma
    have hnone := consume_none hComma t ht
    rw [Token.comma?_eq_some_iff.2 hcomma] at hnone
    cases hnone
  | case4 => cases h
  | case5 c _ a rest hArg u rest' hComma as last hRest ih =>
    cases h
    obtain ⟨hfault, hcomma⟩ := ih hRest
    refine ⟨?_, hcomma⟩
    rw [fault?_of_argument_ok hArg, fault?_of_comma hComma, hfault]

theorem fault?_of_arguments_error (h : c.arguments = .error f) :
    opened.fault? c.last c.visible = some f := by
  fun_induction arguments c with
  | case1 => cases h
  | case2 c hclose f' hArg =>
    cases h
    exact fault?_of_argument_error hArg (by simpa using hclose)
  | case3 => cases h
  | case4 c _ a rest hArg u rest' hComma f' hRest ih =>
    cases h
    rw [fault?_of_argument_ok hArg, fault?_of_comma hComma]
    exact ih hRest
  | case5 => cases h

/-! ### Statements -/

theorem fault?_of_head {name : String} {p : Position}
    (h : c.expect Token.head? = (.ok (name, p), c')) :
    outside.fault? c.last c.visible = named.fault? c'.last c'.visible := by
  refine fault?_of_expect_ok h ?_
  intro t ht
  exact next?_of_lexeme outside (Token.head?_eq_some_iff.1 ht).1

theorem fault?_of_openParen (h : c.expect Token.openParen? = (.ok (), c')) :
    named.fault? c.last c.visible = opened.fault? c'.last c'.visible := by
  refine fault?_of_expect_ok h ?_
  intro t ht
  exact next?_of_lexeme named (Token.openParen?_eq_some_iff.1 ht)

theorem fault?_of_statement_ok {s : Statement} (h : c.statement = .ok (s, c')) :
    outside.fault? c.last c.visible = closed.fault? c'.last c'.visible := by
  unfold statement at h
  split at h
  · cases h
  · next hHead =>
    split at h
    · cases h
    · next hOpen =>
      split at h
      · cases h
      · next hArgs =>
        split at h
        · cases h
        · next hClose =>
          cases h
          rw [fault?_of_head hHead, fault?_of_openParen hOpen, (fault?_of_arguments_ok hArgs).1]
          refine fault?_of_expect_ok hClose ?_
          intro t ht
          exact next?_of_lexeme filled (Token.closeParen?_eq_some_iff.1 ht)

/-- A statement is begun only if there is a token, and that is no separator. -/
theorem fault?_of_statement_error (h : c.statement = .error f) (hne : c.visible ≠ [])
    (hsep : ∀ t, c.visible.head? = some t → t.separator? = none) :
    outside.fault? c.last c.visible = some f := by
  unfold statement at h
  split at h
  · next hHead =>
    cases h
    refine fault?_of_expect_error hHead (fun hnil => absurd hnil hne) ?_
    intro t ht hnone
    have hother := hsep t ht
    obtain ⟨l, p⟩ := t
    cases l with
    | word s => cases hnone
    | semicolon => cases hother
    | endOfLine => cases hother
    | _ => exact ⟨rfl, rfl⟩
  · next hHead =>
    rw [fault?_of_head hHead]
    split at h
    · next hOpen =>
      cases h
      refine fault?_of_expect_error hOpen (fun _ => rfl) ?_
      intro t ht hnone
      obtain ⟨l, p⟩ := t
      cases l with
      | openParen => cases hnone
      | _ => exact ⟨rfl, rfl⟩
    · next hOpen =>
      rw [fault?_of_openParen hOpen]
      split at h
      · next hArgs =>
        cases h
        exact fault?_of_arguments_error hArgs
      · next hArgs =>
        obtain ⟨hfault, hcomma⟩ := fault?_of_arguments_ok hArgs
        rw [hfault]
        split at h
        · next hClose =>
          -- A comma would fit here, but the arguments end in front of none.
          cases h
          refine fault?_of_expect_error hClose (fun _ => rfl) ?_
          intro t ht hnone
          have hother := hcomma t ht
          obtain ⟨l, p⟩ := t
          cases l with
          | comma => exact absurd rfl hother
          | closeParen => cases hnone
          | _ => exact ⟨rfl, rfl⟩
        · cases h

/-! ### All statements -/

theorem visible_ne_nil_of_peek? {t : Token} (h : c.peek? = some t) : c.visible ≠ [] := by
  intro hnil
  rw [peek?_eq_head?, hnil] at h
  cases h

/-- The reader accepts what can be walked over to a place where tokens may end,
    and otherwise reports the fault that the walk finds. -/
theorem fault?_outside (done : List Statement) (c : Cursor) :
    outside.fault? c.last c.visible =
      match statementsAfter done c with
      | .ok _    => none
      | .error f => some f := by
  fun_induction statementsAfter done c with
  | case1 done c hpeek =>
    rw [visible_eq_nil_of_peek? hpeek]
    rfl
  | case2 done c _ _ u rest hSep ih =>
    obtain ⟨t, ht, hv, hl⟩ := consume_some hSep
    rw [fault?_of_taken hv hl (next?_of_separator? ht).1]
    exact ih
  | case3 done c _ hpeek _ hSep f hStmt =>
    exact fault?_of_statement_error hStmt (visible_ne_nil_of_peek? hpeek)
      (consume_none hSep)
  | case4 done c _ _ _ _ s rest hStmt hpeek =>
    rw [fault?_of_statement_ok hStmt, visible_eq_nil_of_peek? hpeek]
    rfl
  | case5 done c _ _ _ _ s rest hStmt _ hpeek f _ hEnd =>
    rw [fault?_of_statement_ok hStmt]
    refine fault?_of_expect_error hEnd (fun hnil => absurd hnil (visible_ne_nil_of_peek? hpeek)) ?_
    intro t ht hnone
    obtain ⟨l, p⟩ := t
    cases l with
    | semicolon => cases hnone
    | endOfLine => cases hnone
    | _ => exact ⟨rfl, rfl⟩
  | case6 done c _ _ _ _ s rest hStmt _ _ u rest' hEnd ih =>
    have hsep : closed.fault? rest.last rest.visible =
        outside.fault? rest'.last rest'.visible := by
      refine fault?_of_expect_ok hEnd ?_
      intro t ht
      exact (next?_of_separator? ht).2
    rw [fault?_of_statement_ok hStmt, hsep]
    exact ih

end Cursor

/-! ## Viable lists -/

/-- More tokens can turn `ts` into a list that is accepted. -/
def Viable (ts : List Token) : Prop :=
  ∃ more ss, (Cursor.ofTokens (ts ++ more)).statements = .ok ss

theorem accepted_iff {ts : List Token} :
    (∃ ss, (Cursor.ofTokens ts).statements = .ok ss) ↔
      Place.outside.fault? .origin (withoutComments ts) = none := by
  have hwalk : Place.outside.fault? .origin (withoutComments ts) = _ :=
    Cursor.fault?_outside [] (Cursor.ofTokens ts)
  unfold Cursor.statements
  rw [hwalk]
  cases Cursor.statementsAfter [] (Cursor.ofTokens ts) with
  | ok ss => simp
  | error f => simp

/-- The completion of a place makes every list good that leads there. -/
theorem accepted_completion {ts : List Token} {place : Place}
    (h : Place.outside.after? (withoutComments ts) = some place) :
    ∃ ss, (Cursor.ofTokens (ts ++ place.completion)).statements = .ok ss := by
  have hplain : withoutComments place.completion = place.completion := by
    cases place <;> rfl
  rw [accepted_iff, withoutComments_append, hplain]
  obtain ⟨last, hlast⟩ := Place.fault?_append h .origin place.completion
  rw [hlast, Place.fault?_completion]

/-- The viable lists are those that can be walked over. -/
theorem viable_iff {ts : List Token} :
    Viable ts ↔ ∃ place, Place.outside.after? (withoutComments ts) = some place := by
  constructor
  · intro h
    obtain ⟨more, haccepted⟩ := h
    have hwalk := accepted_iff.1 haccepted
    rw [withoutComments_append] at hwalk
    cases hafter : Place.outside.after? (withoutComments ts) with
    | none => exact absurd hwalk (Place.fault?_ne_none_of_stuck hafter _ _)
    | some place => exact ⟨place, rfl⟩
  · intro h
    obtain ⟨place, hplace⟩ := h
    exact ⟨place.completion, accepted_completion hplace⟩

/-- Every argument may stand behind `ts`. -/
def AdmitsArgument (ts : List Token) : Prop :=
  ∀ t a, Spells t a → Viable (ts ++ [t])

/-- A part of a list without comments has none. -/
theorem withoutComments_of_append {ts before after : List Token}
    (h : withoutComments ts = before ++ after) : withoutComments before = before := by
  refine List.filter_eq_self.2 ?_
  intro t ht
  have hmem : t ∈ withoutComments ts := by
    rw [h]
    exact List.mem_append_left _ ht
  exact (List.mem_filter.1 hmem).2

/-- One more token, which may be anything but a comment. -/
theorem viable_concat_iff {before : List Token} {t : Token} {place : Place}
    (hbefore : withoutComments before = before) (ht : t.isComment = false)
    (hplace : Place.outside.after? before = some place) :
    Viable (before ++ [t]) ↔ ∃ place', place.next? t = some place' := by
  have hsingle : withoutComments [t] = [t] := by simp [withoutComments, ht]
  rw [viable_iff, withoutComments_append, hbefore, hsingle, Place.after?_concat hplace]

/-- Arguments may stand behind `(` and behind a comma, and nowhere else. -/
theorem admitsArgument_iff {before : List Token} {place : Place}
    (hbefore : withoutComments before = before)
    (hplace : Place.outside.after? before = some place) :
    AdmitsArgument before ↔ place = .opened := by
  constructor
  · intro h
    -- A quoted text can be nothing but an argument.
    have htext := h ⟨.text "", .origin⟩ (.text "") .text
    obtain ⟨place', hnext⟩ := (viable_concat_iff hbefore rfl hplace).1 htext
    cases place with
    | opened => rfl
    | _ => cases hnext
  · intro h t a hspells
    subst h
    have hcomment : t.isComment = false := by cases hspells <;> rfl
    refine (viable_concat_iff hbefore hcomment hplace).2 ⟨.filled, ?_⟩
    cases hspells with
    | number hn => rw [Place.next?_number, hn, Option.map_some]
    | word => rfl
    | text => rfl

/-! ## The fault of a list that is refused -/

/-- `Complaint argument l f`: a lexeme `l` that cannot be read on from is
    reported as `f`.  It matters whether an argument may stand where it
    stands. -/
inductive Complaint (argument : Prop) : Lexeme → Fault → Prop
  | malformedNumber {s : String} :
      argument → Literal.value? s = none → Complaint argument (.number s) (.malformedNumber s)
  | endOfLine : Complaint argument .endOfLine .unexpectedEndOfLine
  | unclosed {s : String} : Complaint argument (.unclosed s) .unclosedText
  | stray {s : String} {c : Char} {cs : List Char} :
      s.toList = c :: cs → Complaint argument (.stray s) (.strayCharacter c)
  | other {l : Lexeme} :
      (∀ s, l = .number s → ¬ (argument ∧ Literal.value? s = none)) →
      l ≠ .endOfLine → (∀ s, l ≠ .unclosed s) → (∀ s, l = .stray s → s.toList = []) →
      Complaint argument l (.unexpected l.spelling)

/-- `Stops ts f`: the tokens `ts`, none of them a comment, are refused with
    `f`. -/
inductive Stops (ts : List Token) (f : SourceFault) : Prop
  /-- The tokens in front of `t` can be completed; with `t` they cannot. -/
  | stuck {before after : List Token} {t : Token} :
      ts = before ++ t :: after → Viable before → ¬ Viable (before ++ [t]) →
      f.position = t.position → Complaint (AdmitsArgument before) t.lexeme f.fault →
      Stops ts f
  /-- All of them can be completed, and have to be; `t` is the last one. -/
  | incomplete {before more : List Token} {t : Token} {ss : List Statement} :
      ts = before ++ [t] → more ≠ [] → (Cursor.ofTokens (ts ++ more)).statements = .ok ss →
      f = ⟨t.position, .unexpectedEndOfLine⟩ → Stops ts f

theorem Place.position_refuse (place : Place) (t : Token) :
    (place.refuse t).position = t.position := by
  unfold refuse
  split <;> rfl

theorem Place.refuse_of_ne_number {place : Place} {t : Token}
    (h : place ≠ .opened ∨ ∀ s, t.lexeme ≠ .number s) : place.refuse t = t.misplaced := by
  unfold refuse
  split
  · next s hs =>
    rcases h with hplace | hnumber
    · exact absurd rfl hplace
    · exact absurd hs (hnumber s)
  · rfl

theorem complaint_of_stuck {argument : Prop} {place : Place} {t : Token}
    (hargument : argument ↔ place = .opened) (h : place.next? t = none) :
    Complaint argument t.lexeme (place.refuse t).fault := by
  obtain ⟨l, p⟩ := t
  by_cases hnumber : ∃ s, l = .number s
  · obtain ⟨s, rfl⟩ := hnumber
    by_cases hplace : place = .opened
    · subst hplace
      have hs : Literal.value? s = none := by
        rwa [Place.next?_number, Option.map_eq_none_iff] at h
      exact .malformedNumber (hargument.2 rfl) hs
    · rw [Place.refuse_of_ne_number (.inl hplace)]
      refine .other ?_ nofun nofun nofun
      intro s' _ hboth
      exact hplace (hargument.1 hboth.1)
  · have hother : ∀ s, l ≠ .number s := fun s hs => hnumber ⟨s, hs⟩
    rw [Place.refuse_of_ne_number (.inr hother)]
    have hnot : ∀ s, l = .number s → ¬ (argument ∧ Literal.value? s = none) :=
      fun s hs => absurd hs (hother s)
    cases l with
    | endOfLine => exact .endOfLine
    | unclosed s => exact .unclosed
    | stray s =>
      cases hs : s.toList with
      | nil =>
        have hfault : (Token.misplaced ⟨.stray s, p⟩).fault = .unexpected s := by
          simp only [Token.misplaced, hs]
        rw [hfault]
        refine .other hnot nofun nofun ?_
        intro s' hs'
        cases hs'
        exact hs
      | cons c cs =>
        have hfault : (Token.misplaced ⟨.stray s, p⟩).fault = .strayCharacter c := by
          simp only [Token.misplaced, hs]
        rw [hfault]
        exact .stray hs
    | _ => exact .other hnot nofun nofun nofun

/-- A fault is charged to the first token that no further tokens can make good,
    and says what is wrong with it; or there is no such token, and the last one
    is charged with the missing rest. -/
theorem Cursor.statements_stops {ts : List Token} {f : SourceFault}
    (h : (ofTokens ts).statements = .error f) : Stops (withoutComments ts) f := by
  have hwalk : Place.outside.fault? .origin (withoutComments ts) = some f := by
    have hreader : Place.outside.fault? .origin (withoutComments ts) = _ :=
      fault?_outside [] (ofTokens ts)
    unfold statements at h
    rw [hreader, h]
  rcases Place.fault?_eq_some hwalk with
    ⟨before, t, after, place, hts, hbefore, hstuck, rfl⟩ | ⟨place, hplace, hfinal, rfl⟩
  · have hplain := withoutComments_of_append hts
    have ht : t.isComment = false := by
      have hmem : t ∈ withoutComments ts := by
        rw [hts]
        exact List.mem_append_right _ (List.mem_cons_self ..)
      simpa using (List.mem_filter.1 hmem).2
    have hviable : Viable before := by
      rw [viable_iff, hplain]
      exact ⟨place, hbefore⟩
    have hdead : ¬ Viable (before ++ [t]) := by
      rw [viable_concat_iff hplain ht hbefore, hstuck]
      exact nofun
    refine .stuck hts hviable hdead (place.position_refuse t) ?_
    exact complaint_of_stuck (admitsArgument_iff hplain hbefore) hstuck
  · -- Tokens may end at the start, so there is at least one.
    have hne : withoutComments ts ≠ [] := by
      intro hnil
      rw [hnil] at hplace
      cases hplace
      cases hfinal
    obtain ⟨before, t, hlast⟩ : ∃ before t, withoutComments ts = before ++ [t] :=
      ⟨_, _, (List.dropLast_append_getLast hne).symm⟩
    have hplain : withoutComments (withoutComments ts) = withoutComments ts :=
      withoutComments_of_append (List.append_nil _).symm
    rw [← hplain] at hplace
    obtain ⟨ss, hss⟩ := accepted_completion hplace
    refine .incomplete hlast (Place.completion_ne_nil hfinal) hss ?_
    rw [hlast, List.getLast?_concat]
    rfl

/-- Two lists with a comment inside: in the first a number is no literal, the
    second breaks off behind a comma. -/
theorem Cursor.statements_stops_beside_comments :
    ((ofTokens [⟨.word "jmp", ⟨"t.s", 4⟩⟩, ⟨.openParen, ⟨"t.s", 4⟩⟩, ⟨.comment ")", ⟨"t.s", 4⟩⟩,
        ⟨.number "12ab", ⟨"t.s", 5⟩⟩, ⟨.closeParen, ⟨"t.s", 6⟩⟩]).statements =
          .error ⟨⟨"t.s", 5⟩, .malformedNumber "12ab"⟩ ∧
      Stops [⟨.word "jmp", ⟨"t.s", 4⟩⟩, ⟨.openParen, ⟨"t.s", 4⟩⟩, ⟨.number "12ab", ⟨"t.s", 5⟩⟩,
        ⟨.closeParen, ⟨"t.s", 6⟩⟩] ⟨⟨"t.s", 5⟩, .malformedNumber "12ab"⟩) ∧
    (ofTokens [⟨.word "move", ⟨"t.s", 4⟩⟩, ⟨.openParen, ⟨"t.s", 4⟩⟩, ⟨.word "r1", ⟨"t.s", 4⟩⟩,
        ⟨.comma, ⟨"t.s", 4⟩⟩, ⟨.comment "r2)", ⟨"t.s", 5⟩⟩]).statements =
          .error ⟨⟨"t.s", 4⟩, .unexpectedEndOfLine⟩ ∧
      Stops [⟨.word "move", ⟨"t.s", 4⟩⟩, ⟨.openParen, ⟨"t.s", 4⟩⟩, ⟨.word "r1", ⟨"t.s", 4⟩⟩,
        ⟨.comma, ⟨"t.s", 4⟩⟩] ⟨⟨"t.s", 4⟩, .unexpectedEndOfLine⟩ := by
  have hnumber : (ofTokens [⟨.word "jmp", ⟨"t.s", 4⟩⟩, ⟨.openParen, ⟨"t.s", 4⟩⟩,
      ⟨.comment ")", ⟨"t.s", 4⟩⟩, ⟨.number "12ab", ⟨"t.s", 5⟩⟩, ⟨.closeParen, ⟨"t.s", 6⟩⟩]).statements =
        .error ⟨⟨"t.s", 5⟩, .malformedNumber "12ab"⟩ := by
    decide +kernel
  have hbroken : (ofTokens [⟨.word "move", ⟨"t.s", 4⟩⟩, ⟨.openParen, ⟨"t.s", 4⟩⟩,
      ⟨.word "r1", ⟨"t.s", 4⟩⟩, ⟨.comma, ⟨"t.s", 4⟩⟩, ⟨.comment "r2)", ⟨"t.s", 5⟩⟩]).statements =
        .error ⟨⟨"t.s", 4⟩, .unexpectedEndOfLine⟩ := by
    decide +kernel
  exact ⟨⟨hnumber, statements_stops hnumber⟩, hbroken, statements_stops hbroken⟩

end OnePass
