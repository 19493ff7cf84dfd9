import Mathlib.Data.List.Chain
import OnePass.Literal
import OnePass.Source.Statement
import OnePass.Source.Token

/-! # The grammar as derivation trees

    On tokens without comments:

        source     = { separator | statement }, no two statements in a row
        separator  = ";" | end of line
        statement  = word "(" [ argument { "," argument } [ "," ] ] ")"
        argument   = number | word | text

    A tree carries its tokens and the proof that each of them fits its place,
    so a tree that can be built is a derivation.  `tokens` is the text that a
    tree derives, `statements` the meaning that is read off it.

    The grammar is unambiguous: a tree is determined by its tokens
    (`Derivation.tokens_injective`). -/

namespace OnePass

/-- `Spells t a`: the token `t` in an argument's place stands for `a`.  A
    number has to be a literal. -/
inductive Spells : Token → Argument → Prop
  | number {s : String} {n : Nat} {p : Position} :
      Literal.value? s = some n → Spells ⟨.number s, p⟩ (.number n)
  | word {s : String} {p : Position} : Spells ⟨.word s, p⟩ (.name s)
  | text {s : String} {p : Position} : Spells ⟨.text s, p⟩ (.text s)

theorem Spells.unique {t : Token} {a b : Argument} (ha : Spells t a) (hb : Spells t b) :
    a = b := by
  cases ha with
  | number hn =>
    cases hb with
    | number hm =>
      rw [hn] at hm
      cases hm
      rfl
  | word => cases hb; rfl
  | text => cases hb; rfl

theorem Spells.ne_closeParen {t : Token} {a : Argument} (h : Spells t a) :
    t.lexeme ≠ .closeParen := by
  cases h <;> simp

/-! ## Trees -/

/-- A token that is a given lexeme. -/
abbrev Mark (l : Lexeme) := { t : Token // t.lexeme = l }

/-- A token between statements. -/
abbrev Separator := { t : Token // t.lexeme = .semicolon ∨ t.lexeme = .endOfLine }

/-- An argument and the token that spells it. -/
structure ArgumentNode where
  token : Token
  argument : Argument
  spells : Spells token argument

/-- One or more arguments. -/
structure ArgumentsNode where
  first : ArgumentNode
  /-- The others, each with the comma before it. -/
  more : List (Mark .comma × ArgumentNode)
  /-- The comma after the last one, if there is one. -/
  trailing : Option (Mark .comma)

/-- A statement. -/
structure StatementNode where
  head : Token
  name : String
  head_eq : head.lexeme = .word name
  opening : Mark .openParen
  arguments : Option ArgumentsNode
  closing : Mark .closeParen

/-- What a source is a sequence of. -/
inductive Item where
  | separator (t : Separator)
  | statement (s : StatementNode)

def Item.isSeparator : Item → Bool
  | separator _ => true
  | statement _ => false

/-- A derivation of a source. -/
structure Derivation where
  items : List Item
  /-- Of two neighbours at least one is a separator. -/
  divided : items.IsChain fun a b => a.isSeparator ∨ b.isSeparator

/-! ## Tokens and meaning -/

namespace ArgumentsNode

/-- The tokens after the first argument. -/
def tailTokens (more : List (Mark .comma × ArgumentNode)) (trailing : Option (Mark .comma)) :
    List Token :=
  more.flatMap (fun m => [m.1.val, m.2.token]) ++ trailing.toList.map (·.val)

@[simp] theorem tailTokens_nil_none : tailTokens [] none = [] := rfl

@[simp] theorem tailTokens_nil_some (k : Mark .comma) : tailTokens [] (some k) = [k.val] := rfl

@[simp] theorem tailTokens_cons (m : Mark .comma × ArgumentNode)
    (more : List (Mark .comma × ArgumentNode)) (trailing : Option (Mark .comma)) :
    tailTokens (m :: more) trailing = m.1.val :: m.2.token :: tailTokens more trailing := rfl

def tokens (n : ArgumentsNode) : List Token :=
  n.first.token :: tailTokens n.more n.trailing

def arguments (n : ArgumentsNode) : List Argument :=
  n.first.argument :: n.more.map (·.2.argument)

end ArgumentsNode

namespace StatementNode

/-- The tokens between the parentheses. -/
def argumentTokens (arguments : Option ArgumentsNode) : List Token :=
  match arguments with
  | some n => n.tokens
  | none   => []

def tokens (s : StatementNode) : List Token :=
  s.head :: s.opening.val :: (argumentTokens s.arguments ++ [s.closing.val])

def argumentValues (arguments : Option ArgumentsNode) : List Argument :=
  match arguments with
  | some n => n.arguments
  | none   => []

/-- An argument and a comma in front of further arguments, if there are any. -/
def consArgument (a : ArgumentNode) (k : Mark .comma) : Option ArgumentsNode → ArgumentsNode
  | none   => ⟨a, [], some k⟩
  | some n => ⟨a, (k, n.first) :: n.more, n.trailing⟩

theorem argumentTokens_consArgument (a : ArgumentNode) (k : Mark .comma)
    (ns : Option ArgumentsNode) :
    argumentTokens (some (consArgument a k ns)) = a.token :: k.val :: argumentTokens ns := by
  cases ns <;> rfl

theorem argumentValues_consArgument (a : ArgumentNode) (k : Mark .comma)
    (ns : Option ArgumentsNode) :
    argumentValues (some (consArgument a k ns)) = a.argument :: argumentValues ns := by
  cases ns <;> rfl

/-- The statement stands where its head does. -/
def statement (s : StatementNode) : Statement :=
  ⟨s.head.position, s.name, argumentValues s.arguments⟩

end StatementNode

namespace Item

def tokens : Item → List Token
  | separator t => [t.val]
  | statement s => s.tokens

def statement? : Item → Option Statement
  | separator _ => none
  | statement s => some s.statement

end Item

namespace Derivation

def tokens (d : Derivation) : List Token :=
  d.items.flatMap Item.tokens

def statements (d : Derivation) : List Statement :=
  d.items.filterMap Item.statement?

/-- The derivation of no tokens. -/
def empty : Derivation :=
  ⟨[], .nil⟩

/-- A separator in front of a derivation. -/
def separated (t : Separator) (d : Derivation) : Derivation :=
  ⟨.separator t :: d.items, d.divided.cons fun _ _ => .inl rfl⟩

/-- A statement that is not divided from anything. -/
def single (n : StatementNode) : Derivation :=
  ⟨[.statement n], .singleton _⟩

/-- A statement and its separator in front of a derivation. -/
def stated (n : StatementNode) (t : Separator) (d : Derivation) : Derivation :=
  ⟨.statement n :: (separated t d).items, .cons_cons (.inr rfl) (separated t d).divided⟩

@[simp] theorem tokens_empty : empty.tokens = [] := rfl

@[simp] theorem tokens_separated (t : Separator) (d : Derivation) :
    (separated t d).tokens = t.val :: d.tokens := rfl

@[simp] theorem tokens_single (n : StatementNode) : (single n).tokens = n.tokens := by
  simp [single, tokens, Item.tokens]

@[simp] theorem tokens_stated (n : StatementNode) (t : Separator) (d : Derivation) :
    (stated n t d).tokens = n.tokens ++ t.val :: d.tokens := rfl

@[simp] theorem statements_empty : empty.statements = [] := rfl

@[simp] theorem statements_separated (t : Separator) (d : Derivation) :
    (separated t d).statements = d.statements := rfl

@[simp] theorem statements_single (n : StatementNode) :
    (single n).statements = [n.statement] := rfl

@[simp] theorem statements_stated (n : StatementNode) (t : Separator) (d : Derivation) :
    (stated n t d).statements = n.statement :: d.statements := rfl

end Derivation

/-! ## A tree is determined by its tokens

    Statements and argument lists are compared in front of arbitrary further
    tokens: their last token tells where they end. -/

theorem ArgumentNode.eq_of_token_eq {a b : ArgumentNode} (h : a.token = b.token) : a = b := by
  obtain ⟨ta, va, ha⟩ := a
  obtain ⟨tb, vb, hb⟩ := b
  obtain rfl : ta = tb := h
  obtain rfl := ha.unique hb
  rfl

theorem Mark.lexeme_ne {l l' : Lexeme} (hne : l ≠ l') (a : Mark l) (b : Mark l') :
    a.val ≠ b.val := by
  intro h
  have hl := a.property
  rw [h, b.property] at hl
  exact hne hl.symm

theorem Mark.ne_argument_of_close (k : Mark .closeParen) (a : ArgumentNode) :
    k.val ≠ a.token := by
  intro h
  exact a.spells.ne_closeParen (h ▸ k.property)

theorem ArgumentsNode.tailTokens_injective {more more' : List (Mark .comma × ArgumentNode)}
    {trailing trailing' : Option (Mark .comma)} {close close' : Mark .closeParen}
    {rest rest' : List Token}
    (h : tailTokens more trailing ++ close.val :: rest =
      tailTokens more' trailing' ++ close'.val :: rest') :
    more = more' ∧ trailing = trailing' ∧ close = close' ∧ rest = rest' := by
  have hne : (.comma : Lexeme) ≠ .closeParen := by decide
  induction more generalizing more' with
  | nil =>
    cases more' with
    | nil =>
      cases trailing with
      | none =>
        cases trailing' with
        | none => simpa [Subtype.ext_iff] using h
        | some k =>
          simp only [tailTokens_nil_none, tailTokens_nil_some, List.nil_append,
            List.cons_append, List.cons.injEq] at h
          exact absurd h.1.symm (Mark.lexeme_ne hne k close)
      | some k =>
        cases trailing' with
        | none =>
          simp only [tailTokens_nil_none, tailTokens_nil_some, List.nil_append,
            List.cons_append, List.cons.injEq] at h
          exact absurd h.1 (Mark.lexeme_ne hne k close')
        | some k' => simpa [Subtype.ext_iff] using h
    | cons m' more' =>
      cases trailing with
      | none =>
        simp only [tailTokens_nil_none, tailTokens_cons, List.nil_append, List.cons_append,
          List.cons.injEq] at h
        exact absurd h.1.symm (Mark.lexeme_ne hne m'.1 close)
      | some k =>
        -- The commas agree, but one ends the list and an argument follows the
        -- other.
        simp only [tailTokens_nil_some, tailTokens_cons, List.nil_append, List.cons_append,
          List.cons.injEq] at h
        exact absurd h.2.1 (Mark.ne_argument_of_close close m'.2)
  | cons m more ih =>
    cases more' with
    | nil =>
      cases trailing' with
      | none =>
        simp only [tailTokens_nil_none, tailTokens_cons, List.nil_append, List.cons_append,
          List.cons.injEq] at h
        exact absurd h.1 (Mark.lexeme_ne hne m.1 close')
      | some k =>
        simp only [tailTokens_nil_some, tailTokens_cons, List.nil_append, List.cons_append,
          List.cons.injEq] at h
        exact absurd h.2.1.symm (Mark.ne_argument_of_close close' m.2)
    | cons m' more' =>
      obtain ⟨k, a⟩ := m
      obtain ⟨k', a'⟩ := m'
      simp only [tailTokens_cons, List.cons_append, List.cons.injEq] at h
      obtain ⟨hk, ha, hrest⟩ := h
      obtain ⟨rfl, rfl, rfl, rfl⟩ := ih hrest
      obtain rfl := Subtype.ext hk
      obtain rfl := ArgumentNode.eq_of_token_eq ha
      exact ⟨rfl, rfl, rfl, rfl⟩

theorem StatementNode.argumentTokens_injective {arguments arguments' : Option ArgumentsNode}
    {close close' : Mark .closeParen} {rest rest' : List Token}
    (h : argumentTokens arguments ++ close.val :: rest =
      argumentTokens arguments' ++ close'.val :: rest') :
    arguments = arguments' ∧ close = close' ∧ rest = rest' := by
  cases arguments with
  | none =>
    cases arguments' with
    | none => simpa [argumentTokens, Subtype.ext_iff] using h
    | some n' => exact absurd (List.cons.inj h).1 (Mark.ne_argument_of_close close n'.first)
  | some n =>
    cases arguments' with
    | none => exact absurd (List.cons.inj h).1.symm (Mark.ne_argument_of_close close' n.first)
    | some n' =>
      obtain ⟨first, more, trailing⟩ := n
      obtain ⟨first', more', trailing'⟩ := n'
      obtain ⟨hfirst, htail⟩ := List.cons.inj h
      obtain rfl := ArgumentNode.eq_of_token_eq hfirst
      obtain ⟨rfl, rfl, rfl, rfl⟩ := ArgumentsNode.tailTokens_injective htail
      exact ⟨rfl, rfl, rfl⟩

theorem StatementNode.tokens_append_injective {s s' : StatementNode} {rest rest' : List Token}
    (h : s.tokens ++ rest = s'.tokens ++ rest') : s = s' ∧ rest = rest' := by
  obtain ⟨head, name, head_eq, opening, arguments, closing⟩ := s
  obtain ⟨head', name', head_eq', opening', arguments', closing'⟩ := s'
  simp only [tokens, List.cons_append, List.append_assoc, List.nil_append,
    List.cons.injEq] at h
  obtain ⟨rfl, hopening, hrest⟩ := h
  obtain ⟨rfl, rfl, rfl⟩ := argumentTokens_injective hrest
  obtain rfl := Subtype.ext hopening
  obtain rfl : name = name' := by
    rw [head_eq] at head_eq'
    exact Lexeme.word.inj head_eq'
  exact ⟨rfl, rfl⟩

/-- No separator heads a statement. -/
theorem StatementNode.head_ne_separator (s : StatementNode) (t : Separator) : s.head ≠ t.val := by
  intro h
  have hlexeme := t.property
  rw [← h, s.head_eq] at hlexeme
  simp at hlexeme

theorem Item.flatMap_tokens_injective {items items' : List Item}
    (h : items.flatMap Item.tokens = items'.flatMap Item.tokens) : items = items' := by
  induction items generalizing items' with
  | nil =>
    cases items' with
    | nil => rfl
    | cons item items' =>
      cases item with
      | separator t => simp [Item.tokens] at h
      | statement s => simp [Item.tokens, StatementNode.tokens] at h
  | cons item items ih =>
    cases items' with
    | nil =>
      cases item with
      | separator t => simp [Item.tokens] at h
      | statement s => simp [Item.tokens, StatementNode.tokens] at h
    | cons item' items' =>
      rw [List.flatMap_cons, List.flatMap_cons] at h
      cases item with
      | separator t =>
        cases item' with
        | separator t' =>
          obtain ⟨ht, hrest⟩ := List.cons.inj h
          rw [Subtype.ext ht, ih hrest]
        | statement s' =>
          exact absurd (List.cons.inj h).1.symm (s'.head_ne_separator t)
      | statement s =>
        cases item' with
        | separator t' => exact absurd (List.cons.inj h).1 (s.head_ne_separator t')
        | statement s' =>
          obtain ⟨rfl, hrest⟩ := StatementNode.tokens_append_injective h
          rw [ih hrest]

/-- Two derivations of the same tokens are the same. -/
theorem Derivation.tokens_injective {d d' : Derivation} (h : d.tokens = d'.tokens) : d = d' := by
  obtain ⟨items, divided⟩ := d
  obtain ⟨items', divided'⟩ := d'
  obtain rfl : items = items' := Item.flatMap_tokens_injective h
  rfl

end OnePass
