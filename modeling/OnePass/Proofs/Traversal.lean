import OnePass.Proofs.Visible

/-! # Traversals

    A cursor may be asked to show, to test and to take tokens in any order.
    Inside, comments wait among the tokens still to come until something drops
    them, and the position of the last token is kept apart from the tokens.

    None of this shows.  A plain cursor is a list without comments and the
    number of its tokens that have been passed; asked the same, both cursors
    answer the same.

    * `Cursor.Request`, `Cursor.Answer` : what a cursor can be asked, and what it
      says.
    * `Cursor.answers`, `Cursor.taken` : what it says and which tokens it takes
      in the course of a sequence of requests.
    * `PlainCursor` : the plain cursor and its answers.
    * `Cursor.Follows` : a cursor and a plain one are at the same place.  A
      request keeps them together (`Follows.request`), and so does a sequence
      of requests (`Follows.traversal`).
    * `Cursor.answers_plain` : what a cursor over any tokens answers to any
      sequence of requests. -/

namespace OnePass

namespace Cursor

/-! ## Requests -/

/-- What a cursor can be asked.  Whether a token fits is up to the one who
    asks. -/
inductive Request where
  /-- Drop the comments that come next, as a look at the tokens may do on its
      way. -/
  | skip
  /-- Show the next token. -/
  | peek
  /-- Take the next token. -/
  | next
  /-- Is there a next token, and does it fit? -/
  | check (fits : Token → Bool)
  /-- Take the next token if it fits. -/
  | consume (fits : Token → Bool)
  /-- Take the next token, which must fit. -/
  | expect (fits : Token → Bool)

/-- What a cursor says to a request. -/
inductive Answer where
  /-- To `skip`. -/
  | done
  /-- To `peek`, `next` and `consume`. -/
  | token (t : Option Token)
  /-- To `check`. -/
  | verdict (b : Bool)
  /-- To `expect`. -/
  | outcome (r : Except SourceFault Token)

/-- The same place, without the comments that come next. -/
def skip (c : Cursor) : Cursor :=
  { c with pending := c.upcoming }

/-- The answer to a request. -/
def answer (c : Cursor) : Request → Answer
  | .skip         => .done
  | .peek         => .token c.peek?
  | .next         => .token c.next.1
  | .check fits   => .verdict (c.check (Option.guard fits))
  | .consume fits => .token (c.consume (Option.guard fits)).1
  | .expect fits  => .outcome (c.expect (Option.guard fits)).1

/-- The cursor after a request. -/
def move (c : Cursor) : Request → Cursor
  | .skip         => c.skip
  | .peek         => c
  | .next         => c.next.2
  | .check _      => c
  | .consume fits => (c.consume (Option.guard fits)).2
  | .expect fits  => (c.expect (Option.guard fits)).2

/-- The token that a request takes.  `expect` takes the token that it tests,
    whether it gives it out or refuses it. -/
def takes? (c : Cursor) : Request → Option Token
  | .skip         => none
  | .peek         => none
  | .next         => c.next.1
  | .check _      => none
  | .consume fits => (c.consume (Option.guard fits)).1
  | .expect _     => c.next.1

/-- The answers to a sequence of requests. -/
def answers (c : Cursor) : List Request → List Answer
  | []      => []
  | r :: rs => c.answer r :: (c.move r).answers rs

/-- The tokens that a sequence of requests takes, in order. -/
def taken (c : Cursor) : List Request → List Token
  | []      => []
  | r :: rs => (c.takes? r).toList ++ (c.move r).taken rs

/-- The cursor after a sequence of requests. -/
def after (c : Cursor) (rs : List Request) : Cursor :=
  rs.foldl move c

end Cursor

/-! ## The plain cursor -/

open Cursor (Request Answer)

/-- How many tokens of a list have been passed. -/
structure PlainCursor (ts : List Token) where
  passed : Nat
  passed_le : passed ≤ ts.length

namespace PlainCursor

variable {ts : List Token}

/-- Before all tokens. -/
def start (ts : List Token) : PlainCursor ts :=
  ⟨0, Nat.zero_le _⟩

/-- The token under the cursor. -/
def here? (p : PlainCursor ts) : Option Token :=
  ts[p.passed]?

/-- The tokens that have been passed. -/
def before (p : PlainCursor ts) : List Token :=
  ts.take p.passed

/-- Where the last of them stands. -/
def last (p : PlainCursor ts) : Position :=
  match p.before.getLast? with
  | some t => t.position
  | none   => ⟨"", 0⟩

/-- Pass one token, if there is one. -/
def advance (p : PlainCursor ts) : PlainCursor ts :=
  if h : p.passed < ts.length then ⟨p.passed + 1, h⟩ else p

/-- The answer to a request. -/
def answer (p : PlainCursor ts) : Request → Answer
  | .skip         => .done
  | .peek         => .token p.here?
  | .next         => .token p.here?
  | .check fits   => .verdict (p.here?.any fits)
  | .consume fits => .token (p.here?.filter fits)
  | .expect fits  =>
    match p.here? with
    | some t => .outcome (if fits t then .ok t else .error t.misplaced)
    | none   => .outcome (.error ⟨p.last, .unexpectedEndOfLine⟩)

/-- The cursor after a request. -/
def move (p : PlainCursor ts) : Request → PlainCursor ts
  | .skip         => p
  | .peek         => p
  | .next         => p.advance
  | .check _      => p
  | .consume fits => if p.here?.any fits then p.advance else p
  | .expect _     => p.advance

/-- The answers to a sequence of requests. -/
def answers (p : PlainCursor ts) : List Request → List Answer
  | []      => []
  | r :: rs => p.answer r :: (p.move r).answers rs

/-- The cursor after a sequence of requests. -/
def after (p : PlainCursor ts) (rs : List Request) : PlainCursor ts :=
  rs.foldl move p

variable {p : PlainCursor ts} {t : Token}

theorem passed_advance (h : p.here? = some t) : p.advance.passed = p.passed + 1 := by
  have hlt : p.passed < ts.length := (List.getElem?_eq_some_iff.1 h).1
  rw [advance, dif_pos hlt]

theorem advance_of_end (h : p.here? = none) : p.advance = p := by
  have hle : ts.length ≤ p.passed := List.getElem?_eq_none_iff.1 h
  exact dif_neg (by omega)

theorem drop_of_here (h : p.here? = some t) :
    ts.drop p.passed = t :: ts.drop p.advance.passed := by
  obtain ⟨hlt, ht⟩ := List.getElem?_eq_some_iff.1 h
  rw [passed_advance h, List.drop_eq_getElem_cons hlt, ht]

/-- The token under the cursor is the next to be passed. -/
theorem before_advance (p : PlainCursor ts) :
    p.advance.before = p.before ++ p.here?.toList := by
  cases hhere : p.here? with
  | none =>
    rw [advance_of_end hhere, Option.toList_none, List.append_nil]
  | some t =>
    have ht : ts[p.passed]? = some t := hhere
    unfold before
    rw [passed_advance hhere, List.take_add_one, ht]

theorem filter_here (p : PlainCursor ts) (fits : Token → Bool) :
    p.here?.filter fits = if p.here?.any fits then p.here? else none := by
  cases p.here? with
  | none => rfl
  | some t => rfl

theorem last_advance (h : p.here? = some t) : p.advance.last = t.position := by
  unfold last
  rw [before_advance, h, Option.toList_some, List.getLast?_concat]

end PlainCursor

/-! ## Side by side -/

namespace Cursor

/-- `c.Follows p`: the cursor `c` has still to come what the plain cursor `p`
    has not passed, and remembers where the last token that `p` has passed
    stands. -/
structure Follows {ts : List Token} (c : Cursor) (p : PlainCursor ts) : Prop where
  visible_eq : c.visible = ts.drop p.passed
  last_eq : c.last = p.last

variable {ts : List Token} {c : Cursor} {p : PlainCursor ts}

theorem follows_start (ts : List Token) :
    (ofTokens ts).Follows (PlainCursor.start (withoutComments ts)) :=
  ⟨rfl, rfl⟩

namespace Follows

theorem peek?_eq (h : c.Follows p) : c.peek? = p.here? := by
  rw [peek?_eq_head?, h.visible_eq, List.head?_drop]
  rfl

/-- Dropping comments early makes no difference. -/
theorem skip (h : c.Follows p) : c.skip.Follows p where
  visible_eq := by
    rw [← h.visible_eq]
    exact withoutComments_dropWhile c.pending
  last_eq := h.last_eq

/-- Both cursors pass the same token.  At the end both stay, and the cursor
    drops the comments that are left. -/
theorem next (h : c.Follows p) : c.next.1 = p.here? ∧ c.next.2.Follows p.advance := by
  have hvisible := h.visible_eq
  cases hhere : p.here? with
  | some t =>
    rw [PlainCursor.drop_of_here hhere] at hvisible
    obtain ⟨c', hnext, hrest, hlast⟩ := next_of_visible hvisible
    rw [hnext]
    refine ⟨rfl, hrest, ?_⟩
    rw [hlast, PlainCursor.last_advance hhere]
  | none =>
    rw [PlainCursor.advance_of_end hhere]
    cases hnext : c.next with
    | mk answer c' =>
      cases answer with
      | none =>
        obtain ⟨hnil, hrest, hlast⟩ := next_none hnext
        refine ⟨rfl, ?_, ?_⟩
        · rw [hrest, ← hvisible, hnil]
        · rw [hlast, h.last_eq]
      | some t =>
        -- A token that is given out is under the plain cursor as well.
        have hpeek := h.peek?_eq
        rw [peek?_eq_head?, (next_some hnext).1, hhere] at hpeek
        cases hpeek

end Follows

/-! ## One request -/

theorem check_guard (c : Cursor) (fits : Token → Bool) :
    c.check (Option.guard fits) = c.peek?.any fits := by
  unfold check
  cases c.peek? with
  | none => rfl
  | some t => exact Option.isSome_guard

theorem consume_guard (c : Cursor) (fits : Token → Bool) :
    c.consume (Option.guard fits) = if c.next.1.any fits then c.next else (none, c) := by
  unfold consume
  cases c.next with
  | mk answer rest =>
    cases answer with
    | none => rfl
    | some t =>
      by_cases ht : fits t = true
      · simp [Option.guard, ht]
      · simp [Option.guard, ht]

theorem expect_guard (c : Cursor) (fits : Token → Bool) :
    c.expect (Option.guard fits) =
      (match c.next.1 with
        | some t => if fits t then .ok t else .error t.misplaced
        | none   => .error ⟨c.last, .unexpectedEndOfLine⟩, c.next.2) := by
  unfold expect
  cases c.next with
  | mk answer rest =>
    cases answer with
    | none => rfl
    | some t =>
      by_cases ht : fits t = true
      · simp [Option.guard, ht]
      · simp [Option.guard, ht]

/-- `c.Agrees p r`: on the request `r` both cursors give the same answer and stay
    together, and the plain one passes the token that the other takes. -/
structure Agrees (c : Cursor) (p : PlainCursor ts) (r : Request) : Prop where
  answer_eq : c.answer r = p.answer r
  follows : (c.move r).Follows (p.move r)
  before_eq : (p.move r).before = p.before ++ (c.takes? r).toList

namespace Follows

/-- `next` passes the token under the cursor, and `before` grows by it. -/
theorem agrees_next (h : c.Follows p) : c.Agrees p .next := by
  obtain ⟨hnext, hfollows⟩ := h.next
  refine ⟨congrArg Answer.token hnext, hfollows, ?_⟩
  show p.advance.before = p.before ++ c.next.1.toList
  rw [hnext, PlainCursor.before_advance]

theorem agrees_consume (h : c.Follows p) (fits : Token → Bool) :
    c.Agrees p (.consume fits) := by
  obtain ⟨hnext, hfollows⟩ := h.next
  have hconsume := consume_guard c fits
  rw [hnext] at hconsume
  by_cases hany : p.here?.any fits = true
  · -- A token that fits is taken, as `next` takes it.
    rw [if_pos hany] at hconsume
    refine ⟨?_, ?_, ?_⟩
    · show Answer.token (c.consume (Option.guard fits)).1 = .token (p.here?.filter fits)
      rw [hconsume, hnext, PlainCursor.filter_here, if_pos hany]
    · show (c.consume (Option.guard fits)).2.Follows (if p.here?.any fits then p.advance else p)
      rw [hconsume, if_pos hany]
      exact hfollows
    · show (if p.here?.any fits then p.advance else p).before =
        p.before ++ (c.consume (Option.guard fits)).1.toList
      rw [hconsume, hnext, if_pos hany, PlainCursor.before_advance]
  · -- Otherwise neither cursor moves.
    rw [if_neg hany] at hconsume
    refine ⟨?_, ?_, ?_⟩
    · show Answer.token (c.consume (Option.guard fits)).1 = .token (p.here?.filter fits)
      rw [hconsume, PlainCursor.filter_here, if_neg hany]
    · show (c.consume (Option.guard fits)).2.Follows (if p.here?.any fits then p.advance else p)
      rw [hconsume, if_neg hany]
      exact h
    · show (if p.here?.any fits then p.advance else p).before =
        p.before ++ (c.consume (Option.guard fits)).1.toList
      rw [hconsume, if_neg hany, Option.toList_none, List.append_nil]

theorem agrees_expect (h : c.Follows p) (fits : Token → Bool) : c.Agrees p (.expect fits) := by
  obtain ⟨hnext, hfollows⟩ := h.next
  have hexpect := expect_guard c fits
  rw [hnext, h.last_eq] at hexpect
  refine ⟨?_, ?_, ?_⟩
  · show Answer.outcome (c.expect (Option.guard fits)).1 = p.answer (.expect fits)
    rw [hexpect, PlainCursor.answer]
    cases p.here? <;> rfl
  · show (c.expect (Option.guard fits)).2.Follows p.advance
    rw [hexpect]
    exact hfollows
  · show p.advance.before = p.before ++ c.next.1.toList
    rw [hnext, PlainCursor.before_advance]

/-- The step lemma: both cursors agree on any request. -/
theorem request (h : c.Follows p) (r : Request) : c.Agrees p r := by
  have hstay : p.before = p.before ++ (none : Option Token).toList := (List.append_nil _).symm
  cases r with
  | skip => exact ⟨rfl, h.skip, hstay⟩
  | peek => exact ⟨congrArg Answer.token h.peek?_eq, h, hstay⟩
  | check fits =>
    refine ⟨?_, h, hstay⟩
    show Answer.verdict (c.check (Option.guard fits)) = .verdict (p.here?.any fits)
    rw [check_guard, h.peek?_eq]
  | next => exact h.agrees_next
  | consume fits => exact h.agrees_consume fits
  | expect fits => exact h.agrees_expect fits

/-! ## Any sequence of requests -/

/-- The run lemma: after any requests both cursors have given the same answers
    and are still together, and the plain one has passed what the other has
    taken. -/
theorem traversal (h : c.Follows p) (rs : List Request) :
    c.answers rs = p.answers rs ∧ (c.after rs).Follows (p.after rs) ∧
      (p.after rs).before = p.before ++ c.taken rs := by
  induction rs generalizing c p with
  | nil => exact ⟨rfl, h, (List.append_nil _).symm⟩
  | cons r rs ih =>
    have hr := h.request r
    obtain ⟨hanswers, hfollows, hbefore⟩ := ih hr.follows
    refine ⟨?_, hfollows, ?_⟩
    · rw [answers, PlainCursor.answers, hr.answer_eq, hanswers]
    · show ((p.move r).after rs).before = p.before ++ ((c.takes? r).toList ++ (c.move r).taken rs)
      rw [hbefore, hr.before_eq, List.append_assoc]

end Follows

/-- A cursor over any tokens answers any sequence of requests as a plain cursor
    over the tokens without comments does.  The tokens that it takes on the way
    are those that the plain cursor passes, and together with those still to
    come they are the whole list: none is lost, none is taken twice. -/
theorem answers_plain (ts : List Token) (rs : List Request) :
    (ofTokens ts).answers rs = (PlainCursor.start (withoutComments ts)).answers rs ∧
    (ofTokens ts).taken rs = ((PlainCursor.start (withoutComments ts)).after rs).before ∧
    (ofTokens ts).taken rs ++ ((ofTokens ts).after rs).visible = withoutComments ts := by
  obtain ⟨hanswers, hfollows, hbefore⟩ := (follows_start ts).traversal rs
  have htaken : (ofTokens ts).taken rs =
      ((PlainCursor.start (withoutComments ts)).after rs).before := hbefore.symm
  refine ⟨hanswers, htaken, ?_⟩
  rw [htaken, hfollows.visible_eq]
  exact List.take_append_drop ..

/-- A token that is refused counts as taken, so it is blamed at the end. -/
example :
    (ofTokens [⟨.comment "c", ⟨"f", 1⟩⟩, ⟨.comma, ⟨"f", 2⟩⟩, ⟨.comment "d", ⟨"f", 3⟩⟩]).answers
        [.consume fun _ => false, .expect fun _ => false, .peek, .expect fun _ => true] =
      [.token none, .outcome (.error ⟨⟨"f", 2⟩, .unexpected ","⟩), .token none,
        .outcome (.error ⟨⟨"f", 2⟩, .unexpectedEndOfLine⟩)] := by
  rfl

end Cursor

end OnePass
