import OnePass.Numeral

/-! # Integer literals

    A literal is a numeral with an optional radix mark (`0x`, `0b` or `0o`,
    either case), an optional `+` before its digits, and underscores
    anywhere.  Literals of 2^128 or more are refused. -/

namespace OnePass

namespace Radix

/-- Continue reading digits on top of the value read so far. -/
def readFrom (r : Radix) (v : Nat) : List Char → Option Nat
  | []      => some v
  | c :: cs =>
    match r.digit? c with
    | some d => r.readFrom (v * r.base + d) cs
    | none   => none

/-- The value of a non-empty sequence of digits. -/
def read? (r : Radix) (cs : List Char) : Option Nat :=
  match cs with
  | []     => none
  | _ :: _ => r.readFrom 0 cs

theorem readFrom_map_digitChar (r : Radix) (ds : List Nat) (v : Nat)
    (h : ∀ d ∈ ds, d < r.base) :
    r.readFrom v (ds.map digitChar) = some (ds.foldl (fun v d => v * r.base + d) v) := by
  induction ds generalizing v with
  | nil => rfl
  | cons d ds ih =>
    simp only [List.map_cons, readFrom, r.digit?_digitChar (h d (List.mem_cons_self ..)),
      List.foldl_cons]
    exact ih _ fun e he => h e (List.mem_cons_of_mem _ he)

/-- A written number reads back. -/
theorem read?_write (r : Radix) (n : Nat) : r.read? (r.write n) = some n := by
  have hne : r.write n ≠ [] := by simp [write, digits_ne_nil]
  unfold read?
  split
  · next h => exact absurd h hne
  · rw [write, readFrom_map_digitChar r _ 0 (r.lt_base_of_mem_digits n)]
    exact congrArg some (r.value_digits n)

end Radix

namespace Literal

/-- Literals stay below this bound, which is 2^128. -/
def bound : Nat := 0x100000000000000000000000000000000

/-- The radix that a literal's mark names, and what follows the mark.
    Without a mark the radix is ten. -/
def splitMark : List Char → Radix × List Char
  | '0' :: 'x' :: cs => (.hexadecimal, cs)
  | '0' :: 'X' :: cs => (.hexadecimal, cs)
  | '0' :: 'b' :: cs => (.binary, cs)
  | '0' :: 'B' :: cs => (.binary, cs)
  | '0' :: 'o' :: cs => (.octal, cs)
  | '0' :: 'O' :: cs => (.octal, cs)
  | cs               => (.decimal, cs)

/-- Drop one leading `+`. -/
def dropPlus : List Char → List Char
  | '+' :: cs => cs
  | cs        => cs

/-- The value of a literal's characters, underscores already removed. -/
def valueOf? (cs : List Char) : Option Nat :=
  let (radix, body) := splitMark cs
  match radix.read? (dropPlus body) with
  | some v => if v < bound then some v else none
  | none   => none

/-- The value of a literal, if it is well-formed and small enough. -/
def value? (text : String) : Option Nat :=
  valueOf? (text.toList.filter (· != '_'))

end Literal

end OnePass
