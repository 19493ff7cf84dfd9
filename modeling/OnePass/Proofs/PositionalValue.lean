import Mathlib.Data.List.Forall2
import Mathlib.Data.List.Induction
import Mathlib.Data.Nat.Digits.Defs
import OnePass.Proofs.Literals

/-! # What a literal stands for

    Underscores aside, a literal is a mark that names a radix, at most one `+`
    and digits.  It stands for the positional value of these digits.

    The rules do not mention the reader of literals: digit characters are
    looked up in two rows, and values are those of `Nat.ofDigits`.

    * `Radix.Denotes` : a digit sequence and its positional value.
    * `Literal.Denotes` : a literal and its value, of any size.
    * `Literal.Writes` : the ways of writing a number as a literal.
    * `Radix.read?_eq_some_iff`, `Literal.splitMark_eq_iff` : the reader
      follows the rules.
    * `Literal.value?_positional` : the reader accepts exactly the literals
      that stand for a number below 2^128, and gives that number. -/

namespace OnePass

/-! ## The rules -/

namespace Radix

/-- The digit characters in order, letters in upper case. -/
def upperRow : List Char :=
  "0123456789ABCDEF".toList

/-- The digit characters in order, letters in lower case. -/
def lowerRow : List Char :=
  "0123456789abcdef".toList

/-- `c` is a character for the digit `d` of the radix. -/
def IsDigit (r : Radix) (c : Char) (d : Nat) : Prop :=
  d < r.base ∧ (upperRow[d]? = some c ∨ lowerRow[d]? = some c)

/-- `cs` is a non-empty sequence of digits of the radix, and `v` is their
    positional value. -/
def Denotes (r : Radix) (cs : List Char) (v : Nat) : Prop :=
  ∃ ds : List Nat, ds ≠ [] ∧ List.Forall₂ r.IsDigit cs ds ∧
    -- `Nat.ofDigits` has the least significant digit first.
    Nat.ofDigits r.base ds.reverse = v

end Radix

namespace Literal

/-- The characters of a literal that count. -/
def withoutUnderscores (s : String) : List Char :=
  s.toList.filter (· != '_')

/-- `Marked cs r body`: a mark for the radix `r` stands in front of `body`.
    Where there is no mark the radix is ten. -/
inductive Marked : List Char → Radix → List Char → Prop
  | hexadecimal {x : Char} {body : List Char} :
      x = 'x' ∨ x = 'X' → Marked ('0' :: x :: body) .hexadecimal body
  | binary {x : Char} {body : List Char} :
      x = 'b' ∨ x = 'B' → Marked ('0' :: x :: body) .binary body
  | octal {x : Char} {body : List Char} :
      x = 'o' ∨ x = 'O' → Marked ('0' :: x :: body) .octal body
  | unmarked {body : List Char} :
      (∀ x ∈ ['x', 'X', 'b', 'B', 'o', 'O'], ¬ ['0', x] <+: body) → Marked body .decimal body

/-- `Denotes s v`: underscores aside, `s` is a mark, at most one `+` and
    digits of positional value `v`. -/
def Denotes (s : String) (v : Nat) : Prop :=
  ∃ (r : Radix) (body digits : List Char), Marked (withoutUnderscores s) r body ∧
    (body = digits ∨ body = '+' :: digits) ∧ r.Denotes digits v

/-- The mark that is put in front of a number. -/
def mark : Radix → List Char
  | .hexadecimal => ['0', 'x']
  | .binary      => ['0', 'b']
  | .octal       => ['0', 'o']
  | .decimal     => []

/-- `Writes s r zeros v`: underscores and the case of letters aside, `s` is the
    mark of the radix `r`, then `zeros` zeros, then `v`. -/
def Writes (s : String) (r : Radix) (zeros v : Nat) : Prop :=
  (withoutUnderscores s).map Char.toUpper =
    (mark r ++ (List.replicate zeros '0' ++ Nat.toDigits r.base v)).map Char.toUpper

end Literal

/-! ## Digits -/

/-- An answer that counts only if it is below a bound. -/
theorem bounded_eq_some_iff {answer : Option Nat} {b v : Nat} :
    (match answer with
      | some w => if w < b then some w else none
      | none   => none) = some v ↔ answer = some v ∧ v < b := by
  cases answer with
  | none => simp
  | some w =>
    show (if w < b then some w else none) = some v ↔ _
    by_cases hw : w < b
    · rw [if_pos hw]
      constructor
      · intro h
        cases h
        exact ⟨rfl, hw⟩
      · exact And.left
    · rw [if_neg hw]
      constructor
      · intro h
        cases h
      · intro h
        obtain ⟨hsame, hlt⟩ := h
        cases hsame
        exact absurd hlt hw

namespace Radix

/-- Both rows hold digit characters in their places. -/
theorem digitValue?_of_row {c : Char} {d : Nat} (hd : d < 16)
    (h : upperRow[d]? = some c ∨ lowerRow[d]? = some c) : digitValue? c = some d := by
  have hall : ∀ i : Fin 16, upperRow[i.val]?.bind digitValue? = some i.val ∧
      lowerRow[i.val]?.bind digitValue? = some i.val := by decide
  obtain ⟨hupper, hlower⟩ := hall ⟨d, hd⟩
  rcases h with h | h
  · rwa [h] at hupper
  · rwa [h] at hlower

/-- Every digit character stands in one of the rows. -/
theorem row_of_digitValue? {c : Char} {d : Nat} (hd : d < 16) (h : digitValue? c = some d) :
    upperRow[d]? = some c ∨ lowerRow[d]? = some c := by
  have hdecimal : ∀ i : Fin 10, upperRow[i.val]? = some (Char.ofNat (48 + i.val)) := by decide
  have hletter : ∀ i : Fin 6, upperRow[10 + i.val]? = some (Char.ofNat (65 + i.val)) ∧
      lowerRow[10 + i.val]? = some (Char.ofNat (97 + i.val)) := by decide
  -- The range of the character tells where it stands in its row.
  have hplace : ∀ n, c.toNat = n → c = Char.ofNat n := by
    intro n hn
    rw [← hn, Char.ofNat_toNat]
  unfold digitValue? at h
  split at h
  · next hrange =>
    have hlow : 48 ≤ c.toNat := hrange.1
    have hhigh : c.toNat ≤ 57 := hrange.2
    cases h
    left
    rw [hdecimal ⟨c.toNat - 48, by omega⟩, ← hplace _ (by dsimp only; omega)]
  split at h
  · next hrange =>
    have hlow : 65 ≤ c.toNat := hrange.1
    cases h
    left
    have hrow := (hletter ⟨c.toNat - 65, by omega⟩).1
    rw [← hplace (65 + (c.toNat - 65)) (by omega)] at hrow
    rwa [show c.toNat - 55 = 10 + (c.toNat - 65) by omega]
  split at h
  · next hrange =>
    have hlow : 97 ≤ c.toNat := hrange.1
    cases h
    right
    have hrow := (hletter ⟨c.toNat - 97, by omega⟩).2
    rw [← hplace (97 + (c.toNat - 97)) (by omega)] at hrow
    rwa [show c.toNat - 87 = 10 + (c.toNat - 97) by omega]
  · cases h

theorem digit?_eq_some_iff {r : Radix} {c : Char} {d : Nat} :
    r.digit? c = some d ↔ r.IsDigit c d := by
  have hbase := r.base_le_sixteen
  have hsplit : r.digit? c = some d ↔ digitValue? c = some d ∧ d < r.base :=
    bounded_eq_some_iff
  rw [hsplit]
  constructor
  · intro h
    obtain ⟨hvalue, hlt⟩ := h
    exact ⟨hlt, row_of_digitValue? (by omega) hvalue⟩
  · intro h
    obtain ⟨hlt, hrow⟩ := h
    exact ⟨digitValue?_of_row (by omega) hrow, hlt⟩

/-! ## Digit sequences -/

/-- Valuing from the front is positional value. -/
theorem value_eq_ofDigits (r : Radix) (ds : List Nat) :
    r.value ds = Nat.ofDigits r.base ds.reverse := by
  induction ds using List.reverseRecOn with
  | nil => rfl
  | append_singleton ds d ih =>
    rw [value_append_singleton, List.reverse_append, List.reverse_singleton,
      List.singleton_append, Nat.ofDigits_cons, ih, Nat.mul_comm, Nat.add_comm]

/-- Reading goes on from any value `v` read so far. -/
theorem readFrom_eq_some_iff {r : Radix} {v w : Nat} {cs : List Char} :
    r.readFrom v cs = some w ↔
      ∃ ds, List.Forall₂ r.IsDigit cs ds ∧ ds.foldl (fun v d => v * r.base + d) v = w := by
  induction cs generalizing v with
  | nil =>
    constructor
    · intro h
      exact ⟨[], .nil, Option.some.inj h⟩
    · intro h
      obtain ⟨ds, hds, rfl⟩ := h
      cases hds
      rfl
  | cons c cs ih =>
    constructor
    · intro h
      unfold readFrom at h
      cases hc : r.digit? c with
      | none =>
        rw [hc] at h
        cases h
      | some d =>
        rw [hc] at h
        obtain ⟨ds, hds, hw⟩ := ih.1 h
        exact ⟨d :: ds, .cons (digit?_eq_some_iff.1 hc) hds, hw⟩
    · intro h
      obtain ⟨ds, hds, hw⟩ := h
      cases hds with
      | cons hd htail =>
        unfold readFrom
        rw [digit?_eq_some_iff.2 hd]
        exact ih.2 ⟨_, htail, hw⟩

/-- What is read is what the digits stand for. -/
theorem read?_eq_some_iff {r : Radix} {cs : List Char} {v : Nat} :
    r.read? cs = some v ↔ r.Denotes cs v := by
  cases cs with
  | nil =>
    constructor
    · intro h
      cases h
    · intro h
      obtain ⟨ds, hne, hds, -⟩ := h
      cases hds
      exact absurd rfl hne
  | cons c cs =>
    show r.readFrom 0 (c :: cs) = some v ↔ _
    rw [readFrom_eq_some_iff]
    constructor
    · intro h
      obtain ⟨ds, hds, hv⟩ := h
      refine ⟨ds, ?_, hds, ?_⟩
      · intro hnil
        rw [hnil] at hds
        cases hds
      · rw [← value_eq_ofDigits]
        exact hv
    · intro h
      obtain ⟨ds, -, hds, hv⟩ := h
      rw [← value_eq_ofDigits] at hv
      exact ⟨ds, hds, hv⟩

end Radix

/-! ## Literals -/

namespace Literal

theorem bound_eq : bound = 2 ^ 128 := by
  norm_num [bound]

theorem splitMark_eq_iff {cs body : List Char} {r : Radix} :
    splitMark cs = (r, body) ↔ Marked cs r body := by
  constructor
  · intro h
    unfold splitMark at h
    split at h
    · cases h
      exact .hexadecimal (.inl rfl)
    · cases h
      exact .hexadecimal (.inr rfl)
    · cases h
      exact .binary (.inl rfl)
    · cases h
      exact .binary (.inr rfl)
    · cases h
      exact .octal (.inl rfl)
    · cases h
      exact .octal (.inr rfl)
    · next hx hX hb hB ho hO =>
      cases h
      refine .unmarked ?_
      intro x hmem hprefix
      obtain ⟨rest, rfl⟩ := hprefix
      simp only [List.mem_cons, List.not_mem_nil, or_false] at hmem
      rcases hmem with rfl | rfl | rfl | rfl | rfl | rfl
      · exact hx _ rfl
      · exact hX _ rfl
      · exact hb _ rfl
      · exact hB _ rfl
      · exact ho _ rfl
      · exact hO _ rfl
  · intro h
    cases h with
    | hexadecimal hx => rcases hx with rfl | rfl <;> rfl
    | binary hx => rcases hx with rfl | rfl <;> rfl
    | octal hx => rcases hx with rfl | rfl <;> rfl
    | unmarked hnone =>
      unfold splitMark
      split
      case h_7 => rfl
      all_goals exact absurd ⟨_, rfl⟩ (hnone _ (by decide))

/-- A digit sequence does not start with `+`, so there is one way to drop
    it. -/
theorem denotes_dropPlus_iff {r : Radix} {body : List Char} {v : Nat} :
    r.Denotes (dropPlus body) v ↔
      ∃ digits, (body = digits ∨ body = '+' :: digits) ∧ r.Denotes digits v := by
  constructor
  · intro h
    unfold dropPlus at h
    split at h
    · exact ⟨_, .inr rfl, h⟩
    · exact ⟨body, .inl rfl, h⟩
  · intro h
    obtain ⟨digits, rfl | rfl, hdigits⟩ := h
    · obtain ⟨ds, hne, hds, hv⟩ := hdigits
      cases hds with
      | nil => exact absurd rfl hne
      | @cons c d cs ds hd htail =>
        have hc : c ≠ '+' := by
          rintro rfl
          have hdigit := Radix.digit?_eq_some_iff.2 hd
          cases hdigit
        have hkeep : dropPlus (c :: cs) = c :: cs := by
          unfold dropPlus
          split
          · next heq => exact absurd (List.cons.inj heq).1 hc
          · rfl
        rw [hkeep]
        exact ⟨d :: ds, hne, .cons hd htail, hv⟩
    · exact hdigits

/-- A literal stands for what the reader reads before it looks at the bound. -/
theorem denotes_iff {s : String} {v : Nat} {r : Radix} {body : List Char}
    (h : splitMark (withoutUnderscores s) = (r, body)) :
    Denotes s v ↔ r.read? (dropPlus body) = some v := by
  rw [Radix.read?_eq_some_iff, denotes_dropPlus_iff]
  constructor
  · intro hdenotes
    obtain ⟨r', body', digits, hmarked, hplus, hdigits⟩ := hdenotes
    have hsame := splitMark_eq_iff.2 hmarked
    rw [h] at hsame
    cases hsame
    exact ⟨digits, hplus, hdigits⟩
  · intro hread
    obtain ⟨digits, hplus, hdigits⟩ := hread
    exact ⟨r, body, digits, splitMark_eq_iff.1 h, hplus, hdigits⟩

theorem Denotes.unique {s : String} {v w : Nat} (hv : Denotes s v) (hw : Denotes s w) :
    v = w := by
  have hsplit : splitMark (withoutUnderscores s) = _ := rfl
  have hread := (denotes_iff hsplit).1 hv
  rw [(denotes_iff hsplit).1 hw] at hread
  exact (Option.some.inj hread).symm

theorem value?_eq_some_iff {s : String} {v : Nat} :
    value? s = some v ↔ Denotes s v ∧ v < 2 ^ 128 := by
  have hsplit : splitMark (withoutUnderscores s) = _ := rfl
  rw [denotes_iff hsplit, ← bound_eq]
  exact bounded_eq_some_iff

theorem value?_eq_none {s : String} (h : ∀ v, Denotes s v → ¬ v < 2 ^ 128) :
    value? s = none := by
  rw [Option.eq_none_iff_forall_ne_some]
  intro v hv
  obtain ⟨hdenotes, hlt⟩ := value?_eq_some_iff.1 hv
  exact h v hdenotes hlt

/-! ## Written numbers -/

/-- A character has at most one other character of the same upper case. -/
theorem eq_or_eq_toLower {c u : Char} (h : c.toUpper = u) : c = u ∨ c = u.toLower := by
  have hletter : ∀ i : Fin 26,
      (Char.ofNat (97 + i.val)).toUpper.toLower = Char.ofNat (97 + i.val) := by decide
  by_cases hrange : 'a'.val ≤ c.val ∧ c.val ≤ 'z'.val
  · -- A small letter.
    right
    have hlow : 97 ≤ c.toNat := hrange.1
    have hhigh : c.toNat ≤ 122 := hrange.2
    have hback := hletter ⟨c.toNat - 97, by omega⟩
    rw [show 97 + (c.toNat - 97) = c.toNat by omega, Char.ofNat_toNat, h] at hback
    exact hback.symm
  · -- Any other character stays as it is.
    left
    have hsame : c.toUpper = c := dif_neg hrange
    rw [← h, hsame]

theorem isDigit_of_toUpper {r : Radix} {c : Char} {d : Nat} (hd : d < r.base)
    (h : c.toUpper = digitChar d) : r.IsDigit c d := by
  have hall : ∀ i : Fin 16, Radix.upperRow[i.val]? = some (digitChar i.val) ∧
      Radix.lowerRow[i.val]? = some (digitChar i.val).toLower := by decide
  have hbase := r.base_le_sixteen
  obtain ⟨hupper, hlower⟩ := hall ⟨d, by omega⟩
  refine ⟨hd, ?_⟩
  rcases eq_or_eq_toLower h with hc | hc
  · rw [hc]
    exact .inl hupper
  · rw [hc]
    exact .inr hlower

theorem forall₂_isDigit {r : Radix} {cs : List Char} {ds : List Nat}
    (hds : ∀ d ∈ ds, d < r.base) (h : cs.map Char.toUpper = ds.map digitChar) :
    List.Forall₂ r.IsDigit cs ds := by
  induction ds generalizing cs with
  | nil =>
    rw [List.map_eq_nil_iff.1 h]
    exact .nil
  | cons d ds ih =>
    obtain ⟨c, rest, hcs, hc, hrest⟩ := List.map_eq_cons_iff.1 h
    rw [List.forall_mem_cons] at hds
    rw [hcs]
    exact .cons (isDigit_of_toUpper hds.1 hc) (ih hds.2 hrest)

/-- Zeros in front and the case of letters do not change the value. -/
theorem denotes_of_toUpper {r : Radix} {cs : List Char} {zeros v : Nat}
    (h : cs.map Char.toUpper =
      (List.replicate zeros '0' ++ Nat.toDigits r.base v).map Char.toUpper) :
    r.Denotes cs v := by
  have hzeros : (List.replicate zeros '0').map Char.toUpper = List.replicate zeros '0' :=
    List.map_replicate
  rw [List.map_append, hzeros, ← r.write_eq_map_toUpper, ← r.map_digitChar_paddedDigits] at h
  refine ⟨r.paddedDigits zeros v, ?_, ?_, ?_⟩
  · simp [Radix.paddedDigits, Radix.digits_ne_nil]
  · exact forall₂_isDigit (r.lt_base_of_mem_paddedDigits zeros v) h
  · rw [← Radix.value_eq_ofDigits, Radix.value_paddedDigits]

/-- A mark is found whatever its case. -/
theorem exists_body {cs rest : List Char} {x : Char}
    (h : cs.map Char.toUpper = ('0' :: x :: rest).map Char.toUpper) :
    ∃ y body, cs = '0' :: y :: body ∧ (y = x.toUpper ∨ y = x.toUpper.toLower) ∧
      body.map Char.toUpper = rest.map Char.toUpper := by
  obtain ⟨c, cs', hcs, hc, htail⟩ := List.map_eq_cons_iff.1 h
  obtain ⟨y, body, hcs', hy, hbody⟩ := List.map_eq_cons_iff.1 htail
  have hzero : c = '0' := by
    rcases eq_or_eq_toLower hc with hc | hc
    · exact hc
    · exact hc
  refine ⟨y, body, ?_, eq_or_eq_toLower hy, hbody⟩
  rw [hcs, hcs', hzero]

/-- Marks have a letter in second place, decimal numbers do not. -/
theorem marked_of_denotes {body : List Char} {v : Nat} (h : Radix.decimal.Denotes body v) :
    Marked body .decimal body := by
  refine .unmarked ?_
  intro x hx hprefix
  obtain ⟨rest, hbody⟩ := hprefix
  obtain ⟨ds, -, hds, -⟩ := h
  rw [← hbody] at hds
  cases hds with
  | cons _ htail =>
    cases htail with
    | cons hsecond _ =>
      have hletters :
          ['x', 'X', 'b', 'B', 'o', 'O'].all (Radix.decimal.digit? · == none) = true := by
        decide
      have hletter := List.all_eq_true.1 hletters x hx
      have hdigit := Radix.digit?_eq_some_iff.2 hsecond
      rw [hdigit] at hletter
      cases hletter

/-- A written number is a literal of that value. -/
theorem Writes.denotes {s : String} {r : Radix} {zeros v : Nat} (h : Writes s r zeros v) :
    Denotes s v := by
  have hbody : ∃ body, Marked (withoutUnderscores s) r body ∧
      body.map Char.toUpper =
        (List.replicate zeros '0' ++ Nat.toDigits r.base v).map Char.toUpper := by
    cases r with
    | hexadecimal =>
      obtain ⟨y, body, hs, hy, hdigits⟩ := exists_body h
      rw [hs]
      exact ⟨body, .hexadecimal hy.symm, hdigits⟩
    | binary =>
      obtain ⟨y, body, hs, hy, hdigits⟩ := exists_body h
      rw [hs]
      exact ⟨body, .binary hy.symm, hdigits⟩
    | octal =>
      obtain ⟨y, body, hs, hy, hdigits⟩ := exists_body h
      rw [hs]
      exact ⟨body, .octal hy.symm, hdigits⟩
    | decimal => exact ⟨_, marked_of_denotes (denotes_of_toUpper h), h⟩
  obtain ⟨body, hmarked, hdigits⟩ := hbody
  exact ⟨r, body, body, hmarked, .inl rfl, denotes_of_toUpper hdigits⟩

/-- Literals have their positional value, up to 128 bits: the reader gives `v`
    just if the text denotes `v` and `v` is below 2^128, and gives nothing
    otherwise.  So every number below 2^128 reads back from each of its written
    forms, and no literal of 2^128 or more is accepted. -/
theorem value?_positional (s : String) :
    (∀ v, value? s = some v ↔ Denotes s v ∧ v < 2 ^ 128) ∧
    ((∀ v, ¬ (Denotes s v ∧ v < 2 ^ 128)) → value? s = none) ∧
    (∀ r zeros v, Writes s r zeros v → v < 2 ^ 128 → value? s = some v) ∧
    ∀ v, Denotes s v → 2 ^ 128 ≤ v → value? s = none := by
  refine ⟨fun v => value?_eq_some_iff, ?_, ?_, ?_⟩
  · intro h
    apply value?_eq_none
    intro v hdenotes hlt
    exact h v ⟨hdenotes, hlt⟩
  · intro r zeros v hwrites hlt
    exact value?_eq_some_iff.2 ⟨hwrites.denotes, hlt⟩
  · intro v hdenotes hle
    apply value?_eq_none
    intro w hw
    -- The text denotes no other number.
    rw [hw.unique hdenotes]
    omega

/-- Underscores inside the mark, letters of both cases and zeros in front; and
    the first literal that is too large. -/
theorem value?_positional_scattered :
    Writes "_0__X_00_fF_" .hexadecimal 2 255 ∧ value? "_0__X_00_fF_" = some 255 ∧
    Writes "0x1_00000000_00000000_00000000_00000000" .hexadecimal 0 (2 ^ 128) ∧
      value? "0x1_00000000_00000000_00000000_00000000" = none := by
  have hsmall : Writes "_0__X_00_fF_" .hexadecimal 2 255 := by
    unfold Writes
    decide +kernel
  have hlarge : Writes "0x1_00000000_00000000_00000000_00000000" .hexadecimal 0 (2 ^ 128) := by
    unfold Writes
    decide +kernel
  refine ⟨hsmall, ?_, hlarge, ?_⟩
  · exact (value?_positional _).2.2.1 .hexadecimal 2 255 hsmall (by norm_num)
  · exact (value?_positional _).2.2.2 (2 ^ 128) hlarge.denotes (le_refl _)

end Literal

end OnePass
