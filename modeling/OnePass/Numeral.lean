/-! # Positional numerals

    Natural numbers written in one of four radices.

    * `Radix.digits` : the digits of a number, most significant first, with
      no leading zero (zero itself has the single digit `0`).
    * `Radix.value`  : the number that a digit sequence stands for.
    * `decimal`, `hexPadded` : the two written forms that the assembler's
      reports use.

    Writing then valuing is the identity (`Radix.value_digits`). -/

namespace OnePass

/-- The radices in which an integer can be written. -/
inductive Radix where
  | binary
  | octal
  | decimal
  | hexadecimal
  deriving DecidableEq, Repr

namespace Radix

/-- How many digits the radix has. -/
def base : Radix → Nat
  | binary      => 2
  | octal       => 8
  | decimal     => 10
  | hexadecimal => 16

theorem one_lt_base (r : Radix) : 1 < r.base := by
  cases r <;> decide

/-- The digits of `n`, most significant first. -/
def digits (r : Radix) (n : Nat) : List Nat :=
  if n < r.base then [n] else r.digits (n / r.base) ++ [n % r.base]
termination_by n
decreasing_by
  have := r.one_lt_base
  exact Nat.div_lt_self (by omega) this

/-- The number that a digit sequence stands for. -/
def value (r : Radix) (ds : List Nat) : Nat :=
  ds.foldl (fun v d => v * r.base + d) 0

theorem value_append_singleton (r : Radix) (ds : List Nat) (d : Nat) :
    r.value (ds ++ [d]) = r.value ds * r.base + d := by
  simp [value]

/-- Writing a number and valuing its digits gives the number back. -/
theorem value_digits (r : Radix) (n : Nat) : r.value (r.digits n) = n := by
  fun_induction digits r n with
  | case1 n h => simp [value]
  | case2 n h ih =>
    rw [value_append_singleton, ih]
    exact Nat.div_add_mod' n r.base

/-- Every digit of a written number is a digit of the radix. -/
theorem lt_base_of_mem_digits (r : Radix) (n : Nat) :
    ∀ d ∈ r.digits n, d < r.base := by
  fun_induction digits r n with
  | case1 n h => simpa using h
  | case2 n h ih =>
    have := r.one_lt_base
    intro d hd
    rcases List.mem_append.1 hd with hd | hd
    · exact ih d hd
    · rw [List.mem_singleton.1 hd]
      exact Nat.mod_lt _ (by omega)

theorem digits_ne_nil (r : Radix) (n : Nat) : r.digits n ≠ [] := by
  unfold digits
  split <;> simp

end Radix

/-! ## Digit characters -/

/-- The character of a digit; letters are upper-case. -/
def digitChar (d : Nat) : Char :=
  if d < 10 then Char.ofNat (48 + d) else Char.ofNat (55 + d)

/-- The digit that a character stands for; letters of either case count. -/
def digitValue? (c : Char) : Option Nat :=
  if '0' ≤ c ∧ c ≤ '9' then some (c.toNat - 48)
  else if 'A' ≤ c ∧ c ≤ 'Z' then some (c.toNat - 55)
  else if 'a' ≤ c ∧ c ≤ 'z' then some (c.toNat - 87)
  else none

/-- The digit that a character stands for in radix `r`. -/
def Radix.digit? (r : Radix) (c : Char) : Option Nat :=
  match digitValue? c with
  | some d => if d < r.base then some d else none
  | none   => none

/-- A digit's character reads back as that digit. -/
theorem Radix.digit?_digitChar (r : Radix) {d : Nat} (h : d < r.base) :
    r.digit? (digitChar d) = some d := by
  have hd : d < 16 := by cases r <;> simp only [base] at h <;> omega
  have hv : ∀ i : Fin 16, digitValue? (digitChar i.val) = some i.val := by decide
  simp [digit?, hv ⟨d, hd⟩, h]

/-! ## Written forms -/

/-- `n` written in radix `r`. -/
def Radix.write (r : Radix) (n : Nat) : List Char :=
  (r.digits n).map digitChar

/-- `n` in decimal. -/
def decimal (n : Nat) : String :=
  String.ofList (Radix.decimal.write n)

/-- `n` in upper-case hexadecimal, filled up with leading zeros to at least
    `width` digits. -/
def hexPadded (width n : Nat) : String :=
  let ds := Radix.hexadecimal.write n
  String.ofList (List.replicate (width - ds.length) '0' ++ ds)

/-- `n` in upper-case hexadecimal. -/
def hex (n : Nat) : String :=
  hexPadded 0 n

end OnePass
