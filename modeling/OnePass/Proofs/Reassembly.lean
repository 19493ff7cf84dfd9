import OnePass.Machine.Disassembly
import OnePass.Proofs.Literals
import OnePass.Proofs.Steps
import OnePass.Proofs.Written

/-! # Disassembling and assembling again

    The text of an instruction is a written statement, and executing that
    statement places the instruction with nothing cut off.

    * `Instruction.toList_text` : an instruction's text, as a written
      statement.
    * `Instruction.executes_written` : what executing it does.
    * `Assembler.executeAll_written` : the same for a list of instructions.
    * `Assembler.assemble_disassembly` : the disassembly of a program
      assembles to the program. -/

namespace OnePass

/-! ## Instructions as written statements -/

theorem Register.isWord_name (r : Register) : Lexeme.isWord r.name.toList = true := by
  have h : ∀ i : BitVec 4, Lexeme.isWord (name ⟨i⟩).toList = true := by decide
  exact h r.index

theorem Mnemonic.isWord_name (m : Mnemonic) : Lexeme.isWord m.name.toList = true := by
  cases m <;> decide

namespace WrittenArgument

/-- The name of a register. -/
def register (r : Register) : WrittenArgument where
  text := r.name.toList
  lexeme := .word r.name
  argument := .name r.name
  cut := by
    have h := Lexeme.cutFrom_word r.isWord_name
    rwa [String.ofList_toList] at h
  spells _ := .word
  newline_not_mem :=
    Lexeme.newline_not_mem_of_isWordChar (Lexeme.isWordChar_of_isWord r.isWord_name)

theorem isWordChar_hexPadded (width n : Nat) :
    ∀ c ∈ 'x' :: (hexPadded width n).toList, Lexeme.isWordChar c = true := by
  have hdigits : ∀ c ∈ (hexPadded width n).toList, Lexeme.isWordChar c = true :=
    hexPadded_forall (P := fun c => Lexeme.isWordChar c = true) (by decide) width n
  exact List.forall_mem_cons.2 ⟨by decide, hdigits⟩

/-- A padded hexadecimal number with its mark. -/
def hexadecimal (width n : Nat) (h : n < Literal.bound) : WrittenArgument where
  text := '0' :: 'x' :: (hexPadded width n).toList
  lexeme := .number ("0x" ++ hexPadded width n)
  argument := .number n
  cut := by
    have hcut := Lexeme.cutFrom_number (c := '0') (by decide) (isWordChar_hexPadded width n)
    have htext : String.ofList ('0' :: 'x' :: (hexPadded width n).toList) =
        "0x" ++ hexPadded width n := by
      rw [← String.toList_inj]
      simp
    rwa [htext] at hcut
  spells _ := .number (Literal.value?_hexPadded width h)
  newline_not_mem := Lexeme.newline_not_mem_of_isWordChar
    (List.forall_mem_cons.2 ⟨by decide, isWordChar_hexPadded width n⟩)

/-- The fields of instructions are far from the bound of literals. -/
theorem toNat_lt_bound {w : Nat} (b : BitVec w) (h : w ≤ 16) : b.toNat < Literal.bound := by
  have hw : b.toNat < 65536 := Nat.lt_of_lt_of_le b.isLt (Nat.pow_le_pow_right (by decide) h)
  exact Nat.lt_trans hw (by decide)

/-- The value of a field of an instruction. -/
def field (width : Nat) {w : Nat} (b : BitVec w) (h : w ≤ 16) : WrittenArgument :=
  hexadecimal width b.toNat (toNat_lt_bound b h)

end WrittenArgument

namespace Instruction

def writtenArguments : Instruction → List WrittenArgument
  | lri dest imm       => [.register dest, .field 2 imm (by decide)]
  | move src dest      => [.register src, .register dest]
  | load reg addr      => [.register reg, .field 2 addr (by decide)]
  | add src1 src2 dest => [.register src1, .register src2, .register dest]
  | jmp dest           => [.field 3 dest (by decide)]

/-- An instruction as a written statement. -/
def written (i : Instruction) : WrittenStatement where
  name := i.mnemonic.name
  isWord := i.mnemonic.isWord_name
  arguments := i.writtenArguments

theorem toList_text (i : Instruction) : i.text.toList = i.written.text := by
  cases i <;>
    simp [text, written, writtenArguments, WrittenStatement.text,
      WrittenStatement.argumentsText, WrittenArgument.register, WrittenArgument.field,
      WrittenArgument.hexadecimal, List.intercalate]

/-! ## Executing what is written -/

/-- The arguments of a written instruction give it back with nothing cut
    off, whatever the labels are. -/
theorem built_written {i : Instruction} (h : i.Fits) (t : Symbols) :
    t.Built i.mnemonic (i.writtenArguments.map (·.argument)) i none := by
  have hregister : ∀ r : Register, t.register (.name r.name) = .ok r := by
    intro r
    exact Symbols.register_eq_ok_iff.2 ⟨r.name, rfl, r.ofName?_name⟩
  have hinteger : ∀ n : Nat, t.integer (.number n) = .ok n := by
    intro n
    exact Symbols.integer_eq_ok_iff.2 (.inl rfl)
  have hbyte : ∀ b : BitVec 8, BitVec.ofNat 8 b.toNat = b ∧ overflow? 8 b.toNat = none := by
    intro b
    have hb : BitVec.ofNat 8 b.toNat = b := by
      rw [BitVec.ofNat_toNat, BitVec.setWidth_eq]
    exact ⟨hb, if_pos (by rw [hb])⟩
  cases i with
  | lri dest imm =>
    have hbuilt := Symbols.Built.lri (hregister dest) (hinteger imm.toNat)
    rwa [(hbyte imm).1, (hbyte imm).2] at hbuilt
  | move src dest => exact .move (hregister src) (hregister dest)
  | load reg addr =>
    have hbuilt := Symbols.Built.load (hregister reg) (hinteger addr.toNat)
    rwa [(hbyte addr).1, (hbyte addr).2] at hbuilt
  | add src1 src2 dest => exact .add (hregister src1) (hregister src2) (hregister dest)
  | jmp dest =>
    -- The field is wider than the room in the word; here `Fits` is needed.
    have hlt : dest.toNat < 4096 := h
    have hvalue : (BitVec.ofNat 12 dest.toNat).toNat = dest.toNat := by
      rw [BitVec.toNat_ofNat]
      omega
    have hdest : (BitVec.ofNat 12 dest.toNat).setWidth 16 = dest := by
      refine BitVec.eq_of_toNat_eq ?_
      rw [BitVec.toNat_setWidth, hvalue]
      omega
    have hbuilt := Symbols.Built.jmp (hinteger dest.toNat)
    rwa [hdest, overflow?, if_pos hvalue] at hbuilt

theorem executes_written {i : Instruction} (h : i.Fits) (s : Assembly) (p : Position) :
    Assembler.Executes s (i.written.statement p) (s.withInstruction p i none) :=
  .operation (built_written h s.symbols)

/-- The text of the instructions of `ws`, one to a line. -/
def disassembly (ws : List Word) : String :=
  "\n".intercalate ((ws.filterMap decode).map text)

theorem disassembly_eq_written (ws : List Word) :
    disassembly ws = String.ofList
      (['\n'].intercalate (((ws.filterMap decode).map written).map (·.text))) := by
  have htexts : ((ws.filterMap decode).map text).map String.toList =
      ((ws.filterMap decode).map written).map (·.text) := by
    rw [List.map_map, List.map_map]
    exact List.map_congr_left fun i _ => i.toList_text
  rw [← String.toList_inj, disassembly, String.toList_intercalate, htexts]
  exact String.toList_ofList.symm

/-- The words of decoded instructions are the words that they were decoded
    from, in normal form. -/
theorem map_encode_filterMap_decode {ws : List Word}
    (h : ∀ w ∈ ws, (decode w).isSome = true) :
    (ws.filterMap decode).map encode = ws.map Word.normal := by
  induction ws with
  | nil => rfl
  | cons w ws ih =>
    rw [List.forall_mem_cons] at h
    obtain ⟨i, hi⟩ := Option.isSome_iff_exists.1 h.1
    rw [List.filterMap_cons_some hi, List.map_cons, List.map_cons, ih h.2, encode_of_decode hi]

end Instruction

namespace Assembler

/-- The entries that instructions on consecutive lines, from `index` on,
    leave in an image. -/
def entriesFrom (file : String) (index : Nat) (is : List Instruction) : List Entry :=
  (is.zipIdx index).map fun (i, index) => ⟨⟨file, index + 1⟩, i⟩

theorem map_instruction_entriesFrom (file : String) (index : Nat) (is : List Instruction) :
    (entriesFrom file index is).map (·.instruction) = is := by
  rw [entriesFrom, List.map_map]
  exact List.zipIdx_map_fst index is

/-- Executing written instructions places them in order, reports nothing and
    binds nothing. -/
theorem executeAll_written (file : String) (index : Nat) {is : List Instruction}
    (h : ∀ i ∈ is, i.Fits) (s : Assembly) :
    ∃ s' : Assembly,
      executeAll (((is.map Instruction.written).zipIdx index).map fun (w, index) =>
          w.statement ⟨file, index + 1⟩) s = .ok () s' ∧
        s'.journal.diagnostics = s.journal.diagnostics ∧
        s'.symbols = s.symbols ∧
        s'.image.entries.toList = s.image.entries.toList ++ entriesFrom file index is := by
  induction is generalizing index s with
  | nil => exact ⟨s, rfl, rfl, rfl, by simp [entriesFrom]⟩
  | cons i is ih =>
    rw [List.forall_mem_cons] at h
    have hstep := Instruction.executes_written h.1 s ⟨file, index + 1⟩
    obtain ⟨s', hrun, hdiagnostics, hsymbols, hentries⟩ :=
      ih (index + 1) h.2 (s.withInstruction ⟨file, index + 1⟩ i none)
    refine ⟨s', executeAll_cons_eq_ok_iff.2 ⟨_, hstep, hrun⟩, ?_, hsymbols, ?_⟩
    · rw [hdiagnostics]
      exact Journal.diagnostics_log ..
    · rw [hentries]
      show (s.image.push ⟨⟨file, index + 1⟩, i⟩).entries.toList ++ _ = _
      rw [Image.toList_push, List.append_assoc]
      rfl

/-- The disassembly of a program in which every word has an assigned opcode
    assembles, with no diagnostic and no label, to the decoded instructions,
    each on the line where it stands in the text, and to the same words in
    normal form. -/
theorem assemble_disassembly (file : String) (ws : List Word) (j : Journal)
    (h : ∀ w ∈ ws, (Instruction.decode w).isSome = true) :
    ∃ s : Assembly,
      assemble file (Instruction.disassembly ws) { journal := j } = .ok () s ∧
        s.journal.diagnostics = j.diagnostics ∧
        s.symbols.labels = [] ∧
        s.image.entries.toList = ((ws.filterMap Instruction.decode).zipIdx.map
          fun (i, index) => ⟨⟨file, index + 1⟩, i⟩) ∧
        s.image.words = ws.map Word.normal := by
  have hfits : ∀ i ∈ ws.filterMap Instruction.decode, i.Fits := by
    intro i hi
    obtain ⟨w, _, hw⟩ := List.mem_filterMap.1 hi
    exact Instruction.fits_of_decode hw
  obtain ⟨s, hrun, hdiagnostics, hsymbols, hentries⟩ :=
    executeAll_written file 0 hfits { journal := j }
  have hwords : s.image.words = (ws.filterMap Instruction.decode).map Instruction.encode := by
    have hinstructions : s.image.entries.toList.map (·.instruction) =
        ws.filterMap Instruction.decode := by
      rw [hentries]
      exact map_instruction_entriesFrom file 0 _
    rw [← hinstructions, List.map_map]
    rfl
  refine ⟨s, ?_, hdiagnostics, ?_, hentries, ?_⟩
  · rw [assemble, Instruction.disassembly_eq_written, readSource_written]
    exact hrun
  · rw [hsymbols]
  · rw [hwords, Instruction.map_encode_filterMap_decode h]

/-- One word of each operation; the low bits of the `move` are lost. -/
theorem assemble_disassembly_each_operation :
    (∀ w ∈ [0x1A03#16, 0x21F7#16, 0x3800#16, 0x4ABC#16, 0x5FFF#16],
        (Instruction.decode w).isSome = true) ∧
      ∃ s : Assembly,
        assemble "boot"
            "lri(r3, 0xA0)\nmove(r1, r15)\nload(r8, 0x00)\nadd(r10, r11, r12)\njmp(0xFFF)" {} =
          .ok () s ∧
        s.image.words = [0x1A03#16, 0x21F0#16, 0x3800#16, 0x4ABC#16, 0x5FFF#16] := by
  have h : ∀ w ∈ [0x1A03#16, 0x21F7#16, 0x3800#16, 0x4ABC#16, 0x5FFF#16],
      (Instruction.decode w).isSome = true := by
    -- As it stands, `decide` would go through all words there are.
    rw [← List.all_eq_true]
    decide
  obtain ⟨s, hok, _, _, _, hwords⟩ := assemble_disassembly "boot" _ {} h
  have htext : Instruction.disassembly [0x1A03#16, 0x21F7#16, 0x3800#16, 0x4ABC#16, 0x5FFF#16] =
      "lri(r3, 0xA0)\nmove(r1, r15)\nload(r8, 0x00)\nadd(r10, r11, r12)\njmp(0xFFF)" := by
    decide +kernel
  rw [htext] at hok
  exact ⟨h, s, hok, hwords.trans (by decide +kernel)⟩

end Assembler

end OnePass
