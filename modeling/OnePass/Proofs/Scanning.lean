import OnePass.Source.Token

/-! # How a line is cut into lexemes

    Words and numbers reach as far as their characters do, so the text of one
    is cut off as a whole only if what follows cannot extend it.

    * `lexemes_blank`, `lexemes_scan` : one step of the scanner.
    * `Breaks` : a text that does not extend a word or a number in front of
      it.
    * `Lexeme.CutFrom` : a text that is cut as one lexeme, whatever follows,
      as long as it breaks.
    * `Lexeme.cutFrom_word`, `Lexeme.cutFrom_number`, `Lexeme.cutFrom_text` :
      words, numbers and quoted texts. -/

namespace OnePass

/-! ## One step -/

@[simp] theorem lexemes_nil : lexemes [] = [] := by
  rw [lexemes]

theorem lexemes_blank {c : Char} {cs : List Char} (h : Text.isBlank c = true) :
    lexemes (c :: cs) = lexemes cs := by
  rw [lexemes, if_pos h]

theorem lexemes_scan {c : Char} {cs : List Char} (h : Text.isBlank c = false) :
    lexemes (c :: cs) = (Lexeme.scan c cs).1 :: lexemes (Lexeme.scan c cs).2 := by
  rw [lexemes, if_neg (by simp [h])]

/-- Punctuation is never blank, so it always stands for itself. -/
theorem lexemes_punctuation {c : Char} {p : Lexeme} (cs : List Char)
    (h : Lexeme.punctuation? c = some p) : lexemes (c :: cs) = p :: lexemes cs := by
  have hblank : Text.isBlank c = false := by
    unfold Lexeme.punctuation? at h
    split at h
    case h_5 => cases h
    all_goals decide
  rw [lexemes_scan hblank, Lexeme.scan, h]

namespace Lexeme

/-! ## The characters of words -/

/-- Word characters are either digits or can start a word. -/
theorem isWordChar_eq (c : Char) : isWordChar c = (c.isDigit || isWordStart c) := by
  simp only [isWordChar, isWordStart, Char.isAlphanum]
  cases c == '_' <;> cases c.isAlpha <;> cases c.isDigit <;> rfl

theorem isWordChar_of_isDigit {c : Char} (h : c.isDigit = true) : isWordChar c = true := by
  rw [isWordChar_eq, h, Bool.true_or]

theorem isWordChar_of_isWordStart {c : Char} (h : isWordStart c = true) :
    isWordChar c = true := by
  rw [isWordChar_eq, h, Bool.or_true]

theorem toNat_of_isDigit {c : Char} (h : c.isDigit = true) :
    48 ≤ c.toNat ∧ c.toNat ≤ 57 := by
  obtain ⟨hlow, hhigh⟩ := Bool.and_eq_true_iff.1 h
  exact ⟨of_decide_eq_true hlow, of_decide_eq_true hhigh⟩

theorem toNat_of_isAlpha {c : Char} (h : c.isAlpha = true) :
    65 ≤ c.toNat ∧ c.toNat ≤ 122 := by
  rcases Bool.or_eq_true_iff.1 h with hupper | hlower
  · have hrange : 65 ≤ c.toNat ∧ c.toNat ≤ 90 := of_decide_eq_true hupper
    omega
  · obtain ⟨hlow, hhigh⟩ := Bool.and_eq_true_iff.1 hlower
    have hlow' : 97 ≤ c.toNat := of_decide_eq_true hlow
    have hhigh' : c.toNat ≤ 122 := of_decide_eq_true hhigh
    omega

theorem toNat_of_isWordStart {c : Char} (h : isWordStart c = true) :
    65 ≤ c.toNat ∧ c.toNat ≤ 122 := by
  rcases Bool.or_eq_true_iff.1 h with hunderscore | halpha
  · obtain rfl := beq_iff_eq.1 hunderscore
    decide
  · exact toNat_of_isAlpha halpha

theorem isDigit_of_isWordStart {c : Char} (h : isWordStart c = true) : c.isDigit = false := by
  have hstart := toNat_of_isWordStart h
  cases hdigit : c.isDigit with
  | false => rfl
  | true =>
    have hrange := toNat_of_isDigit hdigit
    omega

theorem isBlank_of_isWordChar {c : Char} (h : isWordChar c = true) :
    Text.isBlank c = false := by
  have hrange : 48 ≤ c.toNat ∧ c.toNat ≤ 122 := by
    rw [isWordChar_eq, Bool.or_eq_true] at h
    rcases h with hdigit | hstart
    · have := toNat_of_isDigit hdigit
      omega
    · have := toNat_of_isWordStart hstart
      omega
  -- The ASCII blanks lie below the digits, all others above ASCII.
  have h₁ : ¬ c.toNat = 0x20 := by omega
  have h₂ : ¬ c.toNat ≤ 0x0D := by omega
  have h₃ : ¬ 0x80 ≤ c.toNat := by omega
  simp [Text.isBlank, h₁, h₂, h₃]

theorem newline_not_mem_of_isWordChar {cs : List Char} (h : ∀ c ∈ cs, isWordChar c = true) :
    '\n' ∉ cs := by
  intro hmem
  have hc := h '\n' hmem
  cases hc

/-- A word or a number is scanned by its first character. -/
theorem scan_of_isWordChar {c : Char} (cs : List Char) (h : isWordChar c = true) :
    scan c cs =
      (if c.isDigit then number (String.ofList (c :: cs.takeWhile isWordChar))
        else word (String.ofList (c :: cs.takeWhile isWordChar)),
       cs.dropWhile isWordChar) := by
  have hpunctuation : punctuation? c = none := by
    unfold punctuation?
    split
    case h_5 => rfl
    all_goals cases h
  have hhash : ¬ c = '#' := by
    rintro rfl
    cases h
  have hquote : ¬ (c = '"' ∨ c = '\'') := by
    rintro (rfl | rfl) <;> cases h
  rw [scan, hpunctuation]
  simp only [if_neg hhash, if_neg hquote]
  -- `scan` asks for a digit before it asks for the start of a word.
  by_cases hdigit : c.isDigit = true
  · rw [if_pos hdigit, if_pos hdigit]
  · have hstart : isWordStart c = true := by
      rw [isWordChar_eq] at h
      simpa [hdigit] using h
    rw [if_neg hdigit, if_neg hdigit, if_pos hstart]

end Lexeme

/-! ## Words and numbers in front of other text -/

/-- A text that does not extend a word or a number in front of it. -/
def Breaks (rest : List Char) : Prop :=
  ∀ c ∈ rest.head?, Lexeme.isWordChar c = false

theorem Breaks.cons {c : Char} (cs : List Char) (h : Lexeme.isWordChar c = false) :
    Breaks (c :: cs) := by
  intro d hd
  cases hd
  exact h

namespace Lexeme

/-- A text that is cut as the lexeme `l`, whatever breaks off after it. -/
def CutFrom (l : Lexeme) (cs : List Char) : Prop :=
  ∀ rest, Breaks rest → lexemes (cs ++ rest) = l :: lexemes rest

/-- Word characters are taken to the last one, and no further. -/
theorem span_of_breaks {cs rest : List Char} (hcs : ∀ c ∈ cs, isWordChar c = true)
    (hrest : Breaks rest) :
    (cs ++ rest).takeWhile isWordChar = cs ∧ (cs ++ rest).dropWhile isWordChar = rest := by
  rw [List.takeWhile_append_of_pos hcs, List.dropWhile_append_of_pos hcs]
  cases rest with
  | nil => simp
  | cons d rest =>
    have hd : isWordChar d = false := hrest d rfl
    simp [hd]

theorem lexemes_wordChars {c : Char} {cs rest : List Char} (hc : isWordChar c = true)
    (hcs : ∀ d ∈ cs, isWordChar d = true) (hrest : Breaks rest) :
    lexemes (c :: cs ++ rest) =
      (if c.isDigit then number (String.ofList (c :: cs)) else word (String.ofList (c :: cs)))
        :: lexemes rest := by
  obtain ⟨htake, hdrop⟩ := span_of_breaks hcs hrest
  rw [List.cons_append, lexemes_scan (isBlank_of_isWordChar hc), scan_of_isWordChar _ hc,
    htake, hdrop]

/-- The texts that are words. -/
def isWord : List Char → Bool
  | []      => false
  | c :: cs => isWordStart c && cs.all isWordChar

theorem isWordChar_of_isWord {cs : List Char} (h : isWord cs = true) :
    ∀ c ∈ cs, isWordChar c = true := by
  cases cs with
  | nil => cases h
  | cons c cs =>
    simp only [isWord, Bool.and_eq_true, List.all_eq_true] at h
    exact List.forall_mem_cons.2 ⟨isWordChar_of_isWordStart h.1, h.2⟩

theorem cutFrom_word {cs : List Char} (h : isWord cs = true) :
    (word (String.ofList cs)).CutFrom cs := by
  intro rest hrest
  cases cs with
  | nil => cases h
  | cons c cs =>
    simp only [isWord, Bool.and_eq_true, List.all_eq_true] at h
    obtain ⟨hc, hcs⟩ := h
    rw [lexemes_wordChars (isWordChar_of_isWordStart hc) hcs hrest, isDigit_of_isWordStart hc]
    rfl

theorem cutFrom_number {c : Char} {cs : List Char} (hc : c.isDigit = true)
    (hcs : ∀ d ∈ cs, isWordChar d = true) :
    (number (String.ofList (c :: cs))).CutFrom (c :: cs) := by
  intro rest hrest
  rw [lexemes_wordChars (isWordChar_of_isDigit hc) hcs hrest, if_pos hc]

/-! ## Quoted texts -/

theorem forall_bne_of_not_mem {quote : Char} {cs : List Char} (h : quote ∉ cs) :
    ∀ c ∈ cs, (c != quote) = true := by
  intro c hc
  have hcq : c ≠ quote := fun heq => h (heq ▸ hc)
  simpa using hcq

/-- A quoted text ends at the next quote of its own kind. -/
theorem scanText_append {quote : Char} {cs : List Char} (h : quote ∉ cs) (rest : List Char) :
    scanText quote (cs ++ quote :: rest) = (text (String.ofList cs), rest) := by
  have hne := forall_bne_of_not_mem h
  unfold scanText
  dsimp only
  rw [List.takeWhile_append_of_pos hne, List.dropWhile_append_of_pos hne]
  simp

/-- Without one it takes all that is left. -/
theorem scanText_of_not_mem {quote : Char} {cs : List Char} (h : quote ∉ cs) :
    scanText quote cs = (unclosed (String.ofList (quote :: cs)), []) := by
  have hne := forall_bne_of_not_mem h
  have htake : (cs ++ []).takeWhile (· != quote) = cs ++ [] :=
    List.takeWhile_append_of_pos hne
  have hdrop : (cs ++ []).dropWhile (· != quote) = [] :=
    List.dropWhile_append_of_pos hne
  rw [List.append_nil] at htake hdrop
  unfold scanText
  rw [htake, hdrop]

/-- A quote is never blank and always opens a text. -/
theorem lexemes_quote {quote : Char} (hquote : quote = '"' ∨ quote = '\'') (cs : List Char) :
    lexemes (quote :: cs) = (scanText quote cs).1 :: lexemes (scanText quote cs).2 := by
  have hscan : scan quote cs = scanText quote cs := by
    rcases hquote with rfl | rfl <;> rfl
  have hblank : Text.isBlank quote = false := by
    rcases hquote with rfl | rfl <;> decide
  rw [lexemes_scan hblank, hscan]

/-- Unlike a word, a quoted text does not depend on what follows it. -/
theorem cutFrom_text {quote : Char} (hquote : quote = '"' ∨ quote = '\'') {cs : List Char}
    (h : quote ∉ cs) : (text (String.ofList cs)).CutFrom (quote :: (cs ++ [quote])) := by
  intro rest _
  rw [List.cons_append, List.append_assoc, List.singleton_append, lexemes_quote hquote,
    scanText_append h]

end Lexeme

end OnePass
