import OnePass.Literal
import OnePass.Proofs.Scanning

/-! # Written numbers as literals

    * `Radix.read?_padded` : leading zeros do not change the value that is
      read.
    * `Radix.write_eq_map_toDigits` : the digits are those of the standard
      library.
    * `Literal.value?_hexPadded` : a padded hexadecimal number with its mark
      is a literal of that value.
    * `Literal.value?_decimal` : so is a decimal number, which has no mark. -/

namespace OnePass

/-! ## Leading zeros -/

namespace Radix

/-- The digits of `n` after `k` zeros. -/
def paddedDigits (r : Radix) (k n : Nat) : List Nat :=
  List.replicate k 0 ++ r.digits n

theorem lt_base_of_mem_paddedDigits (r : Radix) (k n : Nat) :
    ∀ d ∈ r.paddedDigits k n, d < r.base := by
  intro d hd
  rcases List.mem_append.1 hd with hzero | hdigit
  · have hbase := r.one_lt_base
    rw [List.eq_of_mem_replicate hzero]
    omega
  · exact r.lt_base_of_mem_digits n d hdigit

theorem value_paddedDigits (r : Radix) (k n : Nat) : r.value (r.paddedDigits k n) = n := by
  have hzeros : r.value (List.replicate k 0) = 0 := by
    induction k with
    | zero => rfl
    | succ k ih => rw [List.replicate_succ', value_append_singleton, ih, Nat.zero_mul]
  unfold value at hzeros
  rw [value, paddedDigits, List.foldl_append, hzeros]
  exact r.value_digits n

theorem map_digitChar_paddedDigits (r : Radix) (k n : Nat) :
    (r.paddedDigits k n).map digitChar = List.replicate k '0' ++ r.write n := by
  rw [paddedDigits, List.map_append, List.map_replicate]
  rfl

/-- Leading zeros do not change the value that is read. -/
theorem read?_padded (r : Radix) (k n : Nat) :
    r.read? (List.replicate k '0' ++ r.write n) = some n := by
  have hne : List.replicate k '0' ++ r.write n ≠ [] := by simp [write, digits_ne_nil]
  unfold read?
  split
  · next h => exact absurd h hne
  · rw [← map_digitChar_paddedDigits, readFrom_map_digitChar r _ 0
      (r.lt_base_of_mem_paddedDigits k n)]
    exact congrArg some (r.value_paddedDigits k n)

theorem length_digits_le_two (r : Radix) {n : Nat} (h : n < r.base * r.base) :
    (r.digits n).length ≤ 2 := by
  rw [digits]
  by_cases hlt : n < r.base
  · rw [if_pos hlt]
    exact Nat.le_succ 1
  · have hquotient : n / r.base < r.base := Nat.div_lt_of_lt_mul h
    rw [if_neg hlt, digits, if_pos hquotient]
    exact Nat.le_refl 2

end Radix

/-! ## Digits of the standard library -/

/-- Both ways of writing a number take the last digit off the end. -/
theorem Radix.write_eq_map_toDigits (r : Radix) {g : Char → Char}
    (hg : ∀ d < r.base, digitChar d = g (Nat.digitChar d)) (n : Nat) :
    r.write n = (Nat.toDigits r.base n).map g := by
  have hbase := r.one_lt_base
  unfold Radix.write
  fun_induction Radix.digits r n with
  | case1 n h =>
    rw [Nat.toDigits_of_lt_base h, List.map_singleton, List.map_singleton, hg n h]
  | case2 n h ih =>
    have hge : r.base ≤ n := Nat.le_of_not_lt h
    have hlast : n % r.base < r.base := Nat.mod_lt n (by omega)
    rw [Nat.toDigits_of_base_le hbase hge, List.map_append, List.map_append, ih,
      List.map_singleton, List.map_singleton, hg _ hlast]

theorem Radix.base_le_sixteen (r : Radix) : r.base ≤ 16 := by
  cases r <;> decide

/-- The library writes letters in lower case. -/
theorem Radix.write_eq_map_toUpper (r : Radix) (n : Nat) :
    r.write n = (Nat.toDigits r.base n).map Char.toUpper := by
  have hall : ∀ i : Fin 16, digitChar i.val = (Nat.digitChar i.val).toUpper := by decide
  have hbase := r.base_le_sixteen
  refine r.write_eq_map_toDigits ?_ n
  intro d hd
  exact hall ⟨d, by omega⟩

theorem write_decimal (n : Nat) : Radix.decimal.write n = Nat.toDigits 10 n := by
  have hall : ∀ i : Fin 10, digitChar i.val = Nat.digitChar i.val := by decide
  have hwrite := Radix.decimal.write_eq_map_toDigits (g := id) (fun d hd => hall ⟨d, hd⟩) n
  rwa [List.map_id] at hwrite

/-! ## Padded hexadecimal numbers -/

theorem toList_hexPadded (width n : Nat) :
    ∃ k, (hexPadded width n).toList = List.replicate k '0' ++ Radix.hexadecimal.write n :=
  ⟨_, String.toList_ofList⟩

theorem read?_hexPadded (width n : Nat) :
    Radix.hexadecimal.read? (hexPadded width n).toList = some n := by
  obtain ⟨k, hk⟩ := toList_hexPadded width n
  rw [hk]
  exact Radix.read?_padded _ k n

/-- A byte fills two places. -/
theorem length_hexPadded_byte {n : Nat} (h : n < 256) : (hexPadded 2 n).toList.length = 2 := by
  have hwrite : (Radix.hexadecimal.write n).length ≤ 2 := by
    rw [Radix.write, List.length_map]
    exact Radix.hexadecimal.length_digits_le_two h
  unfold hexPadded
  rw [String.toList_ofList, List.length_append, List.length_replicate]
  omega

/-- What is true of the sixteen digit characters is true throughout a padded
    number. -/
theorem hexPadded_forall {P : Char → Prop} (h : ∀ i : Fin 16, P (digitChar i.val))
    (width n : Nat) : ∀ c ∈ (hexPadded width n).toList, P c := by
  obtain ⟨k, hk⟩ := toList_hexPadded width n
  intro c hc
  rw [hk, ← Radix.map_digitChar_paddedDigits] at hc
  obtain ⟨d, hd, rfl⟩ := List.mem_map.1 hc
  exact h ⟨d, Radix.lt_base_of_mem_paddedDigits _ k n d hd⟩

namespace Literal

theorem dropPlus_of_not_mem {cs : List Char} (h : '+' ∉ cs) : dropPlus cs = cs := by
  unfold dropPlus
  split
  · exact absurd (List.mem_cons_self ..) h
  · rfl

/-- A padded number with the hexadecimal mark is a literal. -/
theorem value?_hexPadded {n : Nat} (width : Nat) (h : n < bound) :
    value? ("0x" ++ hexPadded width n) = some n := by
  have hunderscore : ∀ c ∈ (hexPadded width n).toList, (c != '_') = true :=
    hexPadded_forall (P := fun c => (c != '_') = true) (by decide) width n
  have hplus : ∀ c ∈ (hexPadded width n).toList, c ≠ '+' :=
    hexPadded_forall (P := fun c => c ≠ '+') (by decide) width n
  have hfilter : ("0x" ++ hexPadded width n).toList.filter (· != '_') =
      '0' :: 'x' :: (hexPadded width n).toList := by
    rw [String.toList_append, List.filter_append, List.filter_eq_self.2 hunderscore]
    rfl
  -- The mark decides the radix; what follows it has neither `_` nor `+`.
  rw [value?, hfilter]
  simp only [valueOf?, splitMark]
  rw [dropPlus_of_not_mem fun hmem => hplus _ hmem rfl, read?_hexPadded]
  exact if_pos h

end Literal

/-! ## Decimal numbers -/

theorem toList_decimal (n : Nat) : (decimal n).toList = Radix.decimal.write n :=
  String.toList_ofList

/-- What is true of the ten digit characters is true throughout a decimal
    number. -/
theorem decimal_forall {P : Char → Prop} (h : ∀ i : Fin 10, P (digitChar i.val)) (n : Nat) :
    ∀ c ∈ (decimal n).toList, P c := by
  intro c hc
  rw [toList_decimal] at hc
  obtain ⟨d, hd, rfl⟩ := List.mem_map.1 hc
  exact h ⟨d, Radix.lt_base_of_mem_digits _ n d hd⟩

namespace Literal

/-- Every mark has a letter in it. -/
theorem splitMark_of_isDigit {cs : List Char} (h : ∀ c ∈ cs, c.isDigit = true) :
    splitMark cs = (.decimal, cs) := by
  have hsecond : ∀ (c d : Char) (ds : List Char), cs = c :: d :: ds → d.isDigit = true := by
    rintro c d ds rfl
    exact h d (by simp)
  unfold splitMark
  split
  case h_7 => rfl
  all_goals
    have hdigit := hsecond _ _ _ rfl
    cases hdigit

/-- A decimal number is a literal. -/
theorem value?_decimal {n : Nat} (h : n < bound) : value? (decimal n) = some n := by
  have hdigits : ∀ c ∈ (decimal n).toList, c.isDigit = true :=
    decimal_forall (P := fun c => c.isDigit = true) (by decide) n
  have hunderscore : ∀ c ∈ (decimal n).toList, (c != '_') = true :=
    decimal_forall (P := fun c => (c != '_') = true) (by decide) n
  have hplus : '+' ∉ (decimal n).toList := by
    intro hmem
    have hdigit := hdigits '+' hmem
    cases hdigit
  rw [value?, List.filter_eq_self.2 hunderscore]
  simp only [valueOf?, splitMark_of_isDigit hdigits]
  rw [dropPlus_of_not_mem hplus, toList_decimal, Radix.read?_write]
  exact if_pos h

end Literal

end OnePass
