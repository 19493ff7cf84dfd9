/-! # Lines of a text

    A line ends at a newline character, and one carriage return directly
    before that newline belongs to the line's ending.  What follows the last
    newline is a line of its own unless it is empty; a carriage return at its
    end is part of it.

    * `pieces` : cut at every newline, nothing dropped.
    * `lines`  : the lines, without their endings. -/

namespace OnePass.Text

/-- Put one character in front of the pieces that follow it: a cut opens a
    new piece, any other character extends the first one. -/
def pieceStep (cut : Char) (c : Char) (ps : List (List Char)) : List (List Char) :=
  if c = cut then [] :: ps
  else match ps with
    | []      => [[c]]
    | p :: ps => (c :: p) :: ps

/-- What stands between the occurrences of `cut`, in order.  There is one
    piece more than there are occurrences. -/
def pieces (cut : Char) (cs : List Char) : List (List Char) :=
  cs.foldr (pieceStep cut) [[]]

@[simp] theorem pieces_nil (cut : Char) : pieces cut [] = [[]] := rfl

@[simp] theorem pieces_cons (cut c : Char) (cs : List Char) :
    pieces cut (c :: cs) = pieceStep cut c (pieces cut cs) := rfl

theorem pieces_ne_nil (cut : Char) (cs : List Char) : pieces cut cs ≠ [] := by
  cases cs with
  | nil => simp
  | cons c cs =>
    rw [pieces_cons]
    unfold pieceStep
    split
    · simp
    · split <;> simp

/-- A text with no cut in it is one piece. -/
theorem pieces_of_not_mem {cut : Char} {cs : List Char} (h : cut ∉ cs) :
    pieces cut cs = [cs] := by
  induction cs with
  | nil => rfl
  | cons c cs ih =>
    rw [List.mem_cons, not_or] at h
    rw [pieces_cons, ih h.2, pieceStep, if_neg (Ne.symm h.1)]

/-- Cutting distributes over a cut character. -/
theorem pieces_append_cut (cut : Char) (xs ys : List Char) :
    pieces cut (xs ++ cut :: ys) = pieces cut xs ++ pieces cut ys := by
  induction xs with
  | nil => simp [pieceStep]
  | cons x xs ih =>
    have hne := pieces_ne_nil cut xs
    rw [List.cons_append, pieces_cons, ih, pieces_cons]
    unfold pieceStep
    split
    · rfl
    · cases h : pieces cut xs with
      | nil => exact absurd h hne
      | cons p ps => rfl

/-- Read from its end, a text runs up to its last cut. -/
theorem reverse_append_cut {cut : Char} (xs : List Char) {ys : List Char} (h : cut ∉ ys) :
    (xs ++ cut :: ys).reverse.takeWhile (· != cut) = ys.reverse ∧
      (xs ++ cut :: ys).reverse.dropWhile (· != cut) = cut :: xs.reverse := by
  have hother : ∀ c ∈ ys.reverse, (c != cut) = true := by
    intro c hc
    rw [bne_iff_ne]
    intro heq
    exact h (heq ▸ List.mem_reverse.1 hc)
  have hreverse : (xs ++ cut :: ys).reverse = ys.reverse ++ cut :: xs.reverse := by simp
  rw [hreverse, List.takeWhile_append_of_pos hother, List.dropWhile_append_of_pos hother]
  simp

/-- A line without the carriage return that belongs to its ending. -/
def dropReturn (line : List Char) : List Char :=
  if line.getLast? = some '\r' then line.dropLast else line

/-- The lines of a text, without their endings. -/
def lines (cs : List Char) : List (List Char) :=
  let ps := pieces '\n' cs
  let rest := match ps.getLast? with
    | some (c :: r) => [c :: r]
    | _             => []
  ps.dropLast.map dropReturn ++ rest

end OnePass.Text
