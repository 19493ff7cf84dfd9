import OnePass.Proofs.Construction
import OnePass.Proofs.Denotation
import OnePass.Proofs.Literals
import OnePass.Proofs.Sessions

/-! # What a run warns about

    A field that is too narrow for its operand is filled all the same, so a
    warning is the only trace of what was lost.  The warnings of a run are
    read off the statement list, by looking back over the statements before
    each one and comparing plain numbers.

    * `Denotation.warnings` : one warning for each operand that is too wide.
    * `Denotation.operations` : the operands that each operation was meant to
      have.
    * `Assembler.executeAll_warns` : a run that succeeds reports exactly these
      warnings, and if there are none, its words decode to these operands. -/

namespace OnePass

/-! ## Upper-case hexadecimal -/

/-- `n` in upper-case hexadecimal, by the digits of the standard library. -/
def upperHex (n : Nat) : String :=
  String.ofList ((Nat.toDigits 16 n).map Char.toUpper)

theorem hex_eq_upperHex (n : Nat) : hex n = upperHex n := by
  have hpad : 0 - (Radix.hexadecimal.write n).length = 0 := Nat.zero_sub _
  unfold hex hexPadded upperHex
  dsimp only
  rw [hpad, List.replicate_zero, List.nil_append, Radix.write_eq_map_toUpper]
  rfl

/-! ## Operands, by looking back -/

namespace Denotation

/-- The address that a label has for a statement after `history`.  Addresses
    are counted modulo `addressSpan`. -/
def boundAddress? (history : List Statement) (name : String) : Option Nat :=
  (labelAddress? history name).map (· % addressSpan)

/-- The integer that an argument stands for after `history`: a literal as it
    is written, or the address of a label. -/
def integer? (history : List Statement) : Argument → Option Nat
  | .number n => some n
  | .name s   => boundAddress? history s
  | .text _   => none

/-- The operand that an argument stands for after `history`. -/
def operand? (history : List Statement) (a : Argument) : Option Operand :=
  match registerNumber? a with
  | some k => some (.register (Register.ofNibble k))
  | none   => (integer? history a).map .integer

/-- The operation that a statement asks for, with nothing cut off. -/
def operation? (history : List Statement) (st : Statement) : Option (Mnemonic × List Operand) := do
  return (← Mnemonic.ofName? st.name, ← st.arguments.mapM (operand? history))

/-- The integer operand of a statement, if it has more bits than its field:
    eight for `lri` and `load`, twelve for `jmp`. -/
def tooWide? (history : List Statement) (st : Statement) : Option Nat :=
  match st.name, st.arguments with
  | "lri", [_, imm]   => (integer? history imm).filter (256 ≤ ·)
  | "load", [_, addr] => (integer? history addr).filter (256 ≤ ·)
  | "jmp", [dest]     => (integer? history dest).filter (4096 ≤ ·)
  | _, _              => none

/-- The warning about a value that is too wide. -/
def widthWarning (pos : Position) (n : Nat) : Diagnostic :=
  ⟨.warning, pos, "0x" ++ upperHex n ++ " too big, will truncate"⟩

/-- The warning that a statement deserves after `history`. -/
def warning? (history : List Statement) (st : Statement) : Option Diagnostic :=
  (tooWide? history st).map (widthWarning st.position)

/-! ## Statement lists -/

/-- What `f` gives for the statements of `ss`, each seen after all that stand
    before it. -/
def collectAfter {α : Type} (f : List Statement → Statement → Option α)
    (history : List Statement) : List Statement → List α
  | []       => []
  | st :: ss => (f history st).toList ++ collectAfter f (history ++ [st]) ss

/-- The warnings that a statement list deserves, in order. -/
def warnings (ss : List Statement) : List Diagnostic :=
  collectAfter warning? [] ss

/-- What the operations of a statement list ask for, in order. -/
def operations (ss : List Statement) : List (Option (Mnemonic × List Operand)) :=
  collectAfter (fun history st => if st.isOperation then some (operation? history st) else none)
    [] ss

theorem collectAfter_append {α : Type} (f : List Statement → Statement → Option α)
    (history ss rest : List Statement) :
    collectAfter f history (ss ++ rest) =
      collectAfter f history ss ++ collectAfter f (history ++ ss) rest := by
  induction ss generalizing history with
  | nil => simp [collectAfter]
  | cons st ss ih => simp [collectAfter, ih]

theorem warnings_append_singleton (history : List Statement) (st : Statement) :
    warnings (history ++ [st]) = warnings history ++ (warning? history st).toList := by
  simp [warnings, collectAfter_append, collectAfter]

theorem operations_append_singleton (history : List Statement) (st : Statement) :
    operations (history ++ [st]) =
      operations history ++ if st.isOperation then [operation? history st] else [] := by
  unfold operations
  rw [collectAfter_append]
  by_cases h : st.isOperation <;> simp [collectAfter, h]

end Denotation

/-! ## Operands, by the symbols -/

namespace Denotation

/-- The symbols know the addresses that looking back over `history` finds,
    however long it is. -/
def LabelsFollow (history : List Statement) (t : Symbols) : Prop :=
  ∀ name, t.address? name = boundAddress? history name

variable {history : List Statement} {t : Symbols}

theorem operand?_of_register {a : Argument} {r : Register} (h : t.register a = .ok r) :
    operand? history a = some (.register r) := by
  have hnumber := registerNumber?_of_register h
  have hback : Register.ofNibble r.index.toNat = r := by
    rw [Register.ofNibble, BitVec.ofNat_toNat, BitVec.setWidth_eq]
  simp only [operand?, hnumber, hback]

theorem integer?_of_integer (hl : LabelsFollow history t) {a : Argument} {n : Nat}
    (h : t.integer a = .ok n) : integer? history a = some n := by
  rcases Symbols.integer_eq_ok_iff.1 h with rfl | ⟨s, rfl, _, hs⟩
  · rfl
  · rw [integer?, ← hl s, hs]

/-- No name that can be a label is the name of a register. -/
theorem registerNumber?_of_integer {a : Argument} {n : Nat} (h : t.integer a = .ok n) :
    registerNumber? a = none := by
  rcases Symbols.integer_eq_ok_iff.1 h with rfl | ⟨s, rfl, hfree, _⟩
  · rfl
  · cases hk : Register.names.idxOf? s with
    | none => exact hk
    | some k =>
      have hregister : Register.ofName? s = some (Register.ofNibble k) := by
        rw [Register.ofName?, hk]
        rfl
      have htaken : predeclared? s = some (.register (Register.ofNibble k)) :=
        predeclared?_eq_some_iff.2 (.inl ⟨_, hregister, rfl⟩)
      rw [hfree] at htaken
      cases htaken

theorem operand?_of_integer (hl : LabelsFollow history t) {a : Argument} {n : Nat}
    (h : t.integer a = .ok n) : operand? history a = some (.integer n) := by
  have hnumber := registerNumber?_of_integer h
  have hinteger := integer?_of_integer hl h
  simp only [operand?, hnumber, hinteger, Option.map_some]

/-! ## One operation -/

/-- What a field cuts off is reported with the value as it was before. -/
theorem map_widthWarning_filter {width bound : Nat} (hbound : 1 <<< width = bound)
    (pos : Position) (n : Nat) :
    ((some n).filter (bound ≤ ·)).map (widthWarning pos) =
      (overflow? width n).map fun o => ⟨.warning, pos, o.message⟩ := by
  rw [overflow?_eq hbound]
  by_cases hwide : bound ≤ n
  · simp [hwide, widthWarning, Overflow.message, hex_eq_upperHex]
  · simp [hwide, Nat.lt_of_not_le hwide]

/-- A statement deserves the warnings that its instruction is placed with. -/
theorem warning?_of_built (hl : LabelsFollow history t) (pos : Position) {m : Mnemonic}
    {args : List Argument} {i : Instruction} {lost : Option Overflow}
    (h : t.Built m args i lost) :
    (warning? history ⟨pos, m.name, args⟩).toList = Assembly.overflowWarnings pos lost := by
  unfold Assembly.overflowWarnings
  rw [← Option.toList_map]
  cases h with
  | lri ha hb =>
    rw [← map_widthWarning_filter rfl, ← integer?_of_integer hl hb]
    rfl
  | move ha hb => rfl
  | load ha hb =>
    rw [← map_widthWarning_filter rfl, ← integer?_of_integer hl hb]
    rfl
  | add ha hb hc => rfl
  | jmp ha =>
    rw [← map_widthWarning_filter rfl, ← integer?_of_integer hl ha]
    rfl

/-- An instruction that is placed without a warning holds exactly the operands
    that its statement asks for. -/
theorem operation?_of_built (hl : LabelsFollow history t) (pos : Position) {m : Mnemonic}
    {args : List Argument} {i : Instruction} {lost : Option Overflow}
    (h : t.Built m args i lost) (hlost : lost = none) :
    operation? history ⟨pos, m.name, args⟩ = some i.operation := by
  unfold operation?
  rw [Mnemonic.ofName?_name]
  cases h with
  | lri ha hb =>
    simp [operand?_of_register ha, operand?_of_integer hl hb, Instruction.operation,
      toNat_ofNat_of_overflow? hlost]
  | move ha hb =>
    simp [operand?_of_register ha, operand?_of_register hb, Instruction.operation]
  | load ha hb =>
    simp [operand?_of_register ha, operand?_of_integer hl hb, Instruction.operation,
      toNat_ofNat_of_overflow? hlost]
  | add ha hb hc =>
    simp [operand?_of_register ha, operand?_of_register hb, operand?_of_register hc,
      Instruction.operation]
  | @jmp a n ha =>
    have hkept := toNat_ofNat_of_overflow? hlost
    have hlt : n < 4096 := by
      rw [← hkept]
      exact (BitVec.ofNat 12 n).isLt
    have hdest : ((BitVec.ofNat 12 n).setWidth 16).toNat = n := by
      rw [BitVec.toNat_setWidth, hkept]
      omega
    simp only [List.mapM_cons, List.mapM_nil, operand?_of_integer hl ha, Instruction.operation,
      hdest]
    rfl

/-! ## Runs -/

theorem boundAddress?_append_singleton (history : List Statement) (st : Statement)
    (name : String) :
    boundAddress? (history ++ [st]) name =
      if st.declares name then some (size history % addressSpan)
      else boundAddress? history name := by
  unfold boundAddress?
  rw [labelAddress?_append_singleton]
  by_cases h : st.declares name <;> simp [h]

/-- The operations that the instructions of an image carry out. -/
def imageOperations (i : Image) : List (Option (Mnemonic × List Operand)) :=
  i.entries.toList.map fun e => some e.instruction.operation

/-- What ties the reports of an assembly to the statements executed so far. -/
structure Reports (j : Journal) (history : List Statement) (s : Assembly) : Prop where
  size_eq : s.image.size = size history
  labels : LabelsFollow history s.symbols
  diagnostics_eq : s.journal.diagnostics = j.diagnostics ++ warnings history
  operations_eq : warnings history = [] → imageOperations s.image = operations history

theorem reports_start (j : Journal) : Reports j [] { journal := j } where
  size_eq := rfl
  labels _ := rfl
  diagnostics_eq := (List.append_nil _).symm
  operations_eq _ := rfl

end Denotation

theorem Assembly.diagnostics_withInstruction (s : Assembly) (pos : Position) (i : Instruction)
    (lost : Option Overflow) :
    (s.withInstruction pos i lost).journal.diagnostics =
      s.journal.diagnostics ++ overflowWarnings pos lost := by
  unfold withInstruction
  dsimp only
  rw [Journal.diagnostics_log]
  cases lost with
  | none => exact (List.append_nil _).symm
  | some o => exact Journal.diagnostics_report ..

namespace Denotation

/-- One statement more on both sides. -/
theorem reports_step {j : Journal} {history : List Statement} {st : Statement} {s s' : Assembly}
    (h : Reports j history s) (hstep : Assembler.Executes s st s') :
    Reports j (history ++ [st]) s' := by
  cases hstep with
  | @operation pos m args i lost hbuilt =>
    have hop := isOperation_mnemonic pos m args
    have hwarning := warning?_of_built h.labels pos hbuilt
    refine ⟨?_, ?_, ?_, ?_⟩
    · show (s.image.push ⟨pos, i⟩).size = _
      rw [Image.size_push, h.size_eq, size_append_singleton, if_pos hop]
    · intro name
      rw [boundAddress?_append_singleton, declares_mnemonic]
      exact h.labels name
    · rw [Assembly.diagnostics_withInstruction, warnings_append_singleton, hwarning,
        h.diagnostics_eq, List.append_assoc]
    · intro hnone
      rw [warnings_append_singleton, hwarning, List.append_eq_nil_iff] at hnone
      obtain ⟨hbefore, hnow⟩ := hnone
      -- No warning for this statement means that its field lost nothing.
      have hlost : lost = none := by
        cases lost with
        | none => rfl
        | some o => cases hnow
      have hoperation := operation?_of_built h.labels pos hbuilt hlost
      show imageOperations (s.image.push ⟨pos, i⟩) = _
      rw [operations_append_singleton, if_pos hop, hoperation, ← h.operations_eq hbefore]
      simp [imageOperations]
  | @label pos name hfree =>
    have hop := isOperation_label pos [.text name]
    have hwarning : warning? history ⟨pos, labelDirectiveName, [.text name]⟩ = none := rfl
    have hhere : s.image.here = size history % addressSpan := by
      rw [Image.here, h.size_eq]
    refine ⟨?_, ?_, ?_, ?_⟩
    · rw [size_append_singleton, hop]
      exact h.size_eq
    · intro other
      show (s.symbols.bind name s.image.here).address? other = _
      rw [Symbols.address?_bind, boundAddress?_append_singleton, declares_label, hhere,
        h.labels other]
      simp
    · show (s.journal.log _).diagnostics = _
      rw [Journal.diagnostics_log, warnings_append_singleton, hwarning, h.diagnostics_eq]
      simp
    · intro hnone
      rw [warnings_append_singleton, hwarning, Option.toList_none, List.append_nil] at hnone
      show imageOperations s.image = _
      rw [operations_append_singleton, hop, h.operations_eq hnone]
      simp

/-- A run from the start reports the warnings that its statements deserve. -/
theorem diagnostics_of_run {ss : List Statement} {s : Assembly}
    (hrun : Assembler.executeAll ss {} = .ok () s) : s.journal.diagnostics = warnings ss := by
  have hstart : Reports {} [] {} := reports_start {}
  have h : Reports {} ([] ++ ss) s := Assembler.executeAll_invariant reports_step hstart hrun
  exact h.diagnostics_eq

theorem severity_of_mem_warnings {ss : List Statement} {d : Diagnostic} (h : d ∈ warnings ss) :
    d.severity = .warning := by
  have hcollect : ∀ (history ss : List Statement),
      d ∈ collectAfter warning? history ss → d.severity = .warning := by
    intro history ss
    induction ss generalizing history with
    | nil => simp [collectAfter]
    | cons st ss ih =>
      intro hmem
      rcases List.mem_append.1 hmem with hnow | hlater
      · obtain ⟨n, _, rfl⟩ := Option.map_eq_some_iff.1 (Option.mem_toList.1 hnow)
        rfl
      · exact ih _ hlater
  exact hcollect [] ss h

end Denotation

/-- A run that succeeds warns about exactly the operands that are too wide for
    their fields, in statement order, and reports nothing else.  If it does
    not warn at all, its words decode to the registers and integers that the
    operations were given. -/
theorem Assembler.executeAll_warns {ss : List Statement} {j : Journal} {s : Assembly}
    (hj : j.diagnostics = []) (hrun : executeAll ss { journal := j } = .ok () s) :
    s.journal.diagnostics = Denotation.warnings ss ∧
      (s.journal.diagnostics = [] →
        s.image.words.map (fun w => (Instruction.decode w).map Instruction.operation) =
            Denotation.operations ss ∧
          ∀ o ∈ Denotation.operations ss, o.isSome = true) := by
  have hstart := Denotation.reports_start j
  have h : Denotation.Reports j ([] ++ ss) s :=
    executeAll_invariant Denotation.reports_step hstart hrun
  have hempty : Session.ImageFits { journal := j } := by
    intro e he
    cases he
  have hfits : Session.ImageFits s :=
    @executeAll_invariant (fun _ s => Session.ImageFits s) Session.imageFits_step [] _ _ _
      hempty hrun
  have hdiagnostics : s.journal.diagnostics = Denotation.warnings ss := by
    rw [h.diagnostics_eq, hj]
    rfl
  refine ⟨hdiagnostics, fun hnone => ?_⟩
  have hoperations : Denotation.imageOperations s.image = Denotation.operations ss :=
    h.operations_eq (hdiagnostics.symm.trans hnone)
  constructor
  · have hdecoded := congrArg (List.map (Option.map Instruction.operation))
      (Session.map_decode_words hfits)
    rw [List.map_map, List.map_map] at hdecoded
    exact hdecoded.trans hoperations
  · intro o ho
    rw [← hoperations] at ho
    obtain ⟨e, _, rfl⟩ := List.mem_map.1 ho
    rfl

/-- Two literals and a label that are too wide, then a program in which
    everything fits.  The label stands after 256 operations, one too many for
    the field of a `load` and far from the bound of a `jmp`. -/
theorem Assembler.executeAll_warns_far_label :
    let wide : List Statement :=
      List.replicate 256 ⟨⟨"t.s", 1⟩, "add", [.name "r1", .name "r2", .name "r3"]⟩ ++
        [⟨⟨"t.s", 2⟩, "label", [.text "far"]⟩,
         ⟨⟨"t.s", 3⟩, "lri", [.name "r1", .number 0x100000005]⟩,
         ⟨⟨"t.s", 4⟩, "load", [.name "r2", .name "far"]⟩,
         ⟨⟨"t.s", 5⟩, "jmp", [.name "far"]⟩,
         ⟨⟨"t.s", 6⟩, "jmp", [.number 0x12345]⟩]
    let narrow : List Statement :=
      [⟨⟨"t.s", 1⟩, "lri", [.name "r3", .number 255]⟩,
       ⟨⟨"t.s", 2⟩, "label", [.text "end"]⟩,
       ⟨⟨"t.s", 3⟩, "jmp", [.name "end"]⟩]
    (∃ s : Assembly, executeAll wide {} = .ok () s ∧
      s.journal.diagnostics =
        [⟨.warning, ⟨"t.s", 3⟩, "0x100000005 too big, will truncate"⟩,
         ⟨.warning, ⟨"t.s", 4⟩, "0x100 too big, will truncate"⟩,
         ⟨.warning, ⟨"t.s", 6⟩, "0x12345 too big, will truncate"⟩]) ∧
    ∃ s : Assembly, executeAll narrow {} = .ok () s ∧
      s.journal.diagnostics = [] ∧
      s.image.words.map (fun w => (Instruction.decode w).map Instruction.operation) =
        [some (.lri, [.register ⟨3⟩, .integer 255]), some (.jmp, [.integer 1])] := by
  intro wide narrow
  constructor
  · -- The run is too long to be unfolded by `rfl`, so only its outcome is computed.
    have houtcome : value? (executeAll wide {}) = some () := by decide +kernel
    obtain ⟨s, hrun⟩ := exists_of_value? houtcome
    exact ⟨s, hrun, (executeAll_warns rfl hrun).1.trans (by decide +kernel)⟩
  · obtain ⟨s, hrun⟩ : ∃ s : Assembly, executeAll narrow {} = .ok () s := ⟨_, rfl⟩
    obtain ⟨hdiagnostics, hdecoded⟩ := executeAll_warns rfl hrun
    have hnone : s.journal.diagnostics = [] := hdiagnostics.trans (by decide +kernel)
    exact ⟨s, hrun, hnone, (hdecoded hnone).1.trans (by decide +kernel)⟩

end OnePass
