import OnePass.Proofs.Steps

/-! # The meaning of a statement list

    A reading of statement lists that knows no state: a word is a sum of
    numbers that stand in its statement, and the address of a label is found
    by looking back over the statements before its use.

    * `Denotation.labelAddress?` : the address of a label, by looking back.
    * `Denotation.word?` : the word of an operation, by plain arithmetic.
    * `Denotation.lines` : one line for each operation of a statement list.
    * `Assembler.executeAll_denotes` : a run that succeeds computes exactly
      these lines and addresses. -/

namespace OnePass

namespace Statement

/-- Is the statement headed by a mnemonic? -/
def isOperation (st : Statement) : Bool :=
  (Mnemonic.ofName? st.name).isSome

/-- Does the statement declare the label `name`? -/
def declares (st : Statement) (name : String) : Bool :=
  st.name = labelDirectiveName ∧ st.arguments = [.text name]

end Statement

namespace Denotation

/-- How many words the statements give. -/
def size (ss : List Statement) : Nat :=
  ss.countP Statement.isOperation

/-- The address of a label after the statements of `history`: look back to
    its most recent declaration and count the operations before that. -/
def labelAddress? (history : List Statement) (name : String) : Option Nat :=
  match history.reverse.dropWhile (fun st => !st.declares name) with
  | []          => none
  | _ :: before => some (size before)

/-- The number of the register that an argument names. -/
def registerNumber? : Argument → Option Nat
  | .name s => Register.names.idxOf? s
  | _       => none

/-- The integer that an argument stands for after `history`. -/
def value? (history : List Statement) : Argument → Option Nat
  | .number n => some n
  | .name s   => labelAddress? history s
  | .text _   => none

/-- The word of a statement that stands after `history`, as a number. -/
def word? (history : List Statement) (st : Statement) : Option Nat :=
  match st.name, st.arguments with
  | "lri", [dest, imm] => do
    return 4096 * 1 + 16 * ((← value? history imm) % 256) + (← registerNumber? dest)
  | "move", [src, dest] => do
    return 4096 * 2 + 256 * (← registerNumber? src) + 16 * (← registerNumber? dest)
  | "load", [reg, addr] => do
    return 4096 * 3 + 256 * (← registerNumber? reg) + (← value? history addr) % 256
  | "add", [src1, src2, dest] => do
    return 4096 * 4 + 256 * (← registerNumber? src1) + 16 * (← registerNumber? src2)
      + (← registerNumber? dest)
  | "jmp", [dest] => do
    return 4096 * 5 + (← value? history dest) % 4096
  | _, _ => none

/-- The lines of `ss` standing after `history`: for each operation, its
    position and its word. -/
def linesAfter (history : List Statement) : List Statement → List (Position × Option Nat)
  | []       => []
  | st :: ss =>
    (if st.isOperation then [(st.position, word? history st)] else [])
      ++ linesAfter (history ++ [st]) ss

/-- The lines of a statement list. -/
def lines (ss : List Statement) : List (Position × Option Nat) :=
  linesAfter [] ss

/-! ## One statement more -/

theorem size_append_singleton (history : List Statement) (st : Statement) :
    size (history ++ [st]) = size history + if st.isOperation then 1 else 0 := by
  simp [size]

theorem labelAddress?_append_singleton (history : List Statement) (st : Statement)
    (name : String) :
    labelAddress? (history ++ [st]) name =
      if st.declares name then some (size history) else labelAddress? history name := by
  unfold labelAddress?
  rw [List.reverse_append, List.reverse_singleton, List.singleton_append,
    List.dropWhile_cons]
  by_cases h : st.declares name
  · simp [h, size]
  · simp [h]

theorem linesAfter_append (history ss rest : List Statement) :
    linesAfter history (ss ++ rest) =
      linesAfter history ss ++ linesAfter (history ++ ss) rest := by
  induction ss generalizing history with
  | nil => simp [linesAfter]
  | cons st ss ih => simp [linesAfter, ih]

theorem lines_append_singleton (history : List Statement) (st : Statement) :
    lines (history ++ [st]) =
      lines history ++ if st.isOperation then [(st.position, word? history st)] else [] := by
  simp [lines, linesAfter_append, linesAfter]

/-! ## Operands and words -/

theorem registerNumber?_of_register {t : Symbols} {a : Argument} {r : Register}
    (h : t.register a = .ok r) : registerNumber? a = some r.index.toNat := by
  obtain ⟨s, rfl, hs⟩ := Symbols.register_eq_ok_iff.1 h
  obtain ⟨k, hk, rfl⟩ := Option.map_eq_some_iff.1 hs
  have hlt : k < 16 := by
    obtain ⟨hlt, _⟩ := List.findIdx?_eq_some_iff_getElem.1 hk
    exact hlt
  have hnibble : (Register.ofNibble k).index.toNat = k := by
    rw [Register.ofNibble, BitVec.toNat_ofNat]
    omega
  rw [registerNumber?, hk, hnibble]

/-- The symbols know the labels that looking back over `history` finds. -/
def LabelsAgree (history : List Statement) (t : Symbols) : Prop :=
  ∀ name, t.address? name = labelAddress? history name

theorem value?_of_integer {history : List Statement} {t : Symbols}
    (hl : LabelsAgree history t) {a : Argument} {n : Nat} (h : t.integer a = .ok n) :
    value? history a = some n := by
  rcases Symbols.integer_eq_ok_iff.1 h with rfl | ⟨s, rfl, _, hs⟩
  · rfl
  · rw [value?, ← hl s, hs]

/-- The word of an instruction is the one that its statement denotes. -/
theorem word?_of_built {history : List Statement} {t : Symbols} (hl : LabelsAgree history t)
    {pos : Position} {m : Mnemonic} {args : List Argument} {i : Instruction}
    {lost : Option Overflow} (h : t.Built m args i lost) :
    word? history ⟨pos, m.name, args⟩ = some i.encode.toNat := by
  cases h with
  | lri ha hb =>
    simp [word?, Mnemonic.name, registerNumber?_of_register ha, value?_of_integer hl hb,
      Instruction.toNat_encode_lri]
  | move ha hb =>
    simp [word?, Mnemonic.name, registerNumber?_of_register ha,
      registerNumber?_of_register hb, Instruction.toNat_encode_move]
  | load ha hb =>
    simp [word?, Mnemonic.name, registerNumber?_of_register ha, value?_of_integer hl hb,
      Instruction.toNat_encode_load]
  | add ha hb hc =>
    simp [word?, Mnemonic.name, registerNumber?_of_register ha,
      registerNumber?_of_register hb, registerNumber?_of_register hc,
      Instruction.toNat_encode_add]
  | @jmp a n ha =>
    have hdest : ((BitVec.ofNat 12 n).setWidth 16).toNat = n % 4096 := by
      rw [BitVec.toNat_setWidth, BitVec.toNat_ofNat]
      omega
    have hfits : ((BitVec.ofNat 12 n).setWidth 16).toNat < 4096 := by omega
    simp [word?, Mnemonic.name, value?_of_integer hl ha,
      Instruction.toNat_encode_jmp hfits, hdest]

/-! ## Runs -/

/-- The lines of an image, in the form of `lines`. -/
def imageLines (i : Image) : List (Position × Option Nat) :=
  i.entries.toList.map fun e => (e.origin, some e.instruction.encode.toNat)

/-- What ties an assembly to the statements executed so far.  Addresses wrap
    around at `addressSpan`, so beyond it labels are no longer followed. -/
structure Agrees (history : List Statement) (s : Assembly) : Prop where
  size_eq : s.image.size = size history
  lines_eq : size history < addressSpan → imageLines s.image = lines history
  labels : size history < addressSpan → LabelsAgree history s.symbols

theorem isOperation_mnemonic (pos : Position) (m : Mnemonic) (args : List Argument) :
    Statement.isOperation ⟨pos, m.name, args⟩ = true := by
  rw [Statement.isOperation, Mnemonic.ofName?_name]
  rfl

theorem declares_mnemonic (pos : Position) (m : Mnemonic) (args : List Argument)
    (name : String) : Statement.declares ⟨pos, m.name, args⟩ name = false := by
  cases m <;> simp [Statement.declares, Mnemonic.name, labelDirectiveName]

theorem isOperation_label (pos : Position) (args : List Argument) :
    Statement.isOperation ⟨pos, labelDirectiveName, args⟩ = false := by
  show (Mnemonic.ofName? labelDirectiveName).isSome = false
  decide

theorem declares_label (pos : Position) (name other : String) :
    Statement.declares ⟨pos, labelDirectiveName, [.text name]⟩ other = decide (other = name) := by
  simp [Statement.declares, eq_comm]

theorem agrees_start : Agrees [] {} where
  size_eq := rfl
  lines_eq _ := rfl
  labels _ _ := rfl

/-- One statement more on both sides. -/
theorem agrees_step {history : List Statement} {st : Statement} {s s' : Assembly}
    (h : Agrees history s) (hstep : Assembler.Executes s st s') :
    Agrees (history ++ [st]) s' := by
  cases hstep with
  | @operation pos m args i lost hbuilt =>
    have hop := isOperation_mnemonic pos m args
    have hsize : size (history ++ [⟨pos, m.name, args⟩]) = size history + 1 := by
      rw [size_append_singleton, hop]
      rfl
    refine ⟨?_, fun hlt => ?_, fun hlt name => ?_⟩
    · show (s.image.push ⟨pos, i⟩).size = _
      rw [Image.size_push, h.size_eq, hsize]
    · -- The word is computed from the labels as they stand before the statement.
      have hlt' : size history < addressSpan := by omega
      have hword : word? history ⟨pos, m.name, args⟩ = some i.encode.toNat :=
        word?_of_built (h.labels hlt') hbuilt
      show imageLines (s.image.push ⟨pos, i⟩) = _
      rw [lines_append_singleton, if_pos hop, hword, ← h.lines_eq hlt']
      simp [imageLines]
    · have hlt' : size history < addressSpan := by omega
      rw [labelAddress?_append_singleton, declares_mnemonic]
      exact h.labels hlt' name
  | @label pos name hfree =>
    have hop := isOperation_label pos [.text name]
    have hsize : size (history ++ [⟨pos, labelDirectiveName, [.text name]⟩]) =
        size history := by
      rw [size_append_singleton, hop]
      rfl
    refine ⟨?_, fun hlt => ?_, fun hlt other => ?_⟩
    · rw [hsize]
      exact h.size_eq
    · rw [hsize] at hlt
      rw [lines_append_singleton, hop]
      show imageLines s.image = lines history ++ []
      rw [List.append_nil, h.lines_eq hlt]
    · -- Below the span an address does not wrap around, so it counts operations.
      rw [hsize] at hlt
      have hhere : s.image.here = size history := by
        rw [Image.here, h.size_eq, Nat.mod_eq_of_lt hlt]
      show (s.symbols.bind name s.image.here).address? other = _
      rw [Symbols.address?_bind, labelAddress?_append_singleton, declares_label, hhere,
        h.labels hlt other]
      simp

end Denotation

/-- A run that succeeds from the start computes what the statements denote:
    the image has one line for each operation, in order, with its position
    and its word, and every label is bound to the number of operations
    before its last declaration. -/
theorem Assembler.executeAll_denotes {ss : List Statement} {s : Assembly}
    (hrun : executeAll ss {} = .ok () s) (hsize : s.image.size < addressSpan) :
    Denotation.imageLines s.image = Denotation.lines ss ∧
      ∀ name, s.symbols.address? name = Denotation.labelAddress? ss name := by
  have h : Denotation.Agrees ([] ++ ss) s :=
    executeAll_invariant Denotation.agrees_step Denotation.agrees_start hrun
  rw [List.nil_append] at h
  rw [h.size_eq] at hsize
  exact ⟨h.lines_eq hsize, h.labels hsize⟩

/-- A label that is declared twice: the use between the declarations sees
    the first, the end of the run the second. -/
theorem Assembler.executeAll_denotes_redeclared :
    let ss : List Statement :=
      [⟨⟨"t.s", 1⟩, "label", [.text "top"]⟩,
       ⟨⟨"t.s", 2⟩, "lri", [.name "r3", .number 511]⟩,
       ⟨⟨"t.s", 3⟩, "load", [.name "r15", .name "top"]⟩,
       ⟨⟨"t.s", 4⟩, "label", [.text "top"]⟩,
       ⟨⟨"t.s", 5⟩, "jmp", [.name "top"]⟩]
    ∃ s : Assembly, executeAll ss {} = .ok () s ∧ s.image.size < addressSpan ∧
      Denotation.imageLines s.image =
        [(⟨"t.s", 2⟩, some 0x1FF3), (⟨"t.s", 3⟩, some 0x3F00), (⟨"t.s", 5⟩, some 0x5002)] ∧
      s.symbols.address? "top" = some 2 := by
  intro ss
  have hruns : ∃ s : Assembly, executeAll ss {} = .ok () s ∧ s.image.size < addressSpan :=
    ⟨_, rfl, by decide⟩
  obtain ⟨s, hrun, hsize⟩ := hruns
  obtain ⟨hlines, hlabels⟩ := executeAll_denotes hrun hsize
  exact ⟨s, hrun, hsize, hlines.trans (by decide), (hlabels "top").trans (by decide)⟩

end OnePass
