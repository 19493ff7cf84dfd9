import Mathlib.Algebra.Group.Nat.Defs
import Mathlib.Data.List.Forall2
import OnePass.Proofs.Encoding

/-! # Instructions from operands

    A mnemonic says twice what it takes: once in its list of parameters, and
    once in the operand lists that an instruction is built from.  Both say the
    same.  An instruction then holds its operands, except that an integer is
    reduced to its field, and what the field could not hold is on record.

    * `Parameter.Admits` : which operands may stand for a parameter.
    * `Instruction.operation` : what an instruction holds.
    * `Operand.reduce`, `Mnemonic.fieldWidth` : what a field leaves of an
      integer, by plain arithmetic.
    * `Instruction.Builds` : everything that building can give.
    * `Instruction.build_follows_parameters` : when there is an instruction, and
      what it holds. -/

namespace OnePass

/-! ## Parameters and fields -/

/-- `p.Admits o`: the operand `o` may stand for the parameter `p`. -/
inductive Parameter.Admits : Parameter → Operand → Prop
  | register (r : Register) : Admits .register (.register r)
  | immediate (n : Nat) : Admits .immediate (.integer n)
  | address (n : Nat) : Admits .address (.integer n)

/-- The width of the field that an operation has for an integer, in bits.  The
    operations on registers alone have none. -/
def Mnemonic.fieldWidth : Mnemonic → Nat
  | lri  => 8
  | move => 0
  | load => 8
  | add  => 0
  | jmp  => 12

/-- What is left of an operand in a field of `width` bits.  Registers always
    fit. -/
def Operand.reduce (width : Nat) : Operand → Operand
  | register r => register r
  | integer n  => integer (n % 2 ^ width)

/-- What an instruction holds, as a mnemonic and its operands in source
    order. -/
def Instruction.operation : Instruction → Mnemonic × List Operand
  | lri dest imm       => (.lri, [.register dest, .integer imm.toNat])
  | move src dest      => (.move, [.register src, .register dest])
  | load reg addr      => (.load, [.register reg, .integer addr.toNat])
  | add src1 src2 dest => (.add, [.register src1, .register src2, .register dest])
  | jmp dest           => (.jmp, [.integer dest.toNat])

/-! ## Values that do not fit -/

/-- A field that reports nothing holds all of its value. -/
theorem toNat_ofNat_of_overflow? {width n : Nat} (h : overflow? width n = none) :
    (BitVec.ofNat width n).toNat = n := by
  unfold overflow? at h
  split at h
  · assumption
  · cases h

theorem overflow?_eq_some_iff {width n : Nat} {o : Overflow} :
    overflow? width n = some o ↔ 2 ^ width ≤ n ∧ o = ⟨n, width⟩ := by
  rw [overflow?_eq (Nat.one_shiftLeft width)]
  by_cases h : 2 ^ width ≤ n
  · rw [if_pos h]
    simp [h, eq_comm]
  · rw [if_neg h]
    simp [h]

/-! ## Building -/

namespace Instruction

/-- `Builds m os i lost`: on the operands `os`, the mnemonic `m` gives the
    instruction `i`, and `lost` records the operand that was cut. -/
inductive Builds : Mnemonic → List Operand → Instruction → Option Overflow → Prop
  | lri (dest : Register) (n : Nat) :
      Builds .lri [.register dest, .integer n] (.lri dest (BitVec.ofNat 8 n)) (overflow? 8 n)
  | move (src dest : Register) :
      Builds .move [.register src, .register dest] (.move src dest) none
  | load (reg : Register) (n : Nat) :
      Builds .load [.register reg, .integer n] (.load reg (BitVec.ofNat 8 n)) (overflow? 8 n)
  | add (src1 src2 dest : Register) :
      Builds .add [.register src1, .register src2, .register dest] (.add src1 src2 dest) none
  | jmp (n : Nat) :
      Builds .jmp [.integer n] (.jmp ((BitVec.ofNat 12 n).setWidth 16)) (overflow? 12 n)

variable {m : Mnemonic} {os : List Operand} {i : Instruction} {lost : Option Overflow}

theorem build_eq_some_iff : build m os = some (i, lost) ↔ Builds m os i lost := by
  constructor
  · intro h
    unfold build at h
    -- Each branch fixes the mnemonic and the operands; what it gives is known.
    split at h
    case h_1 dest n =>
      cases h.symm.trans (build_lri dest n)
      exact .lri dest n
    case h_2 src dest =>
      cases h
      exact .move src dest
    case h_3 reg n =>
      cases h.symm.trans (build_load reg n)
      exact .load reg n
    case h_4 src1 src2 dest =>
      cases h
      exact .add src1 src2 dest
    case h_5 n =>
      cases h.symm.trans (build_jmp n)
      exact .jmp n
    case h_6 => cases h
  · intro h
    cases h with
    | lri dest n => exact build_lri dest n
    | load reg n => exact build_load reg n
    | jmp n => exact build_jmp n
    | move | add => rfl

/-- What is built from is what the parameters ask for. -/
theorem Builds.admitted (h : Builds m os i lost) :
    List.Forall₂ Parameter.Admits m.parameters os := by
  cases h with
  | lri dest n => exact .cons (.register dest) (.cons (.immediate n) .nil)
  | move src dest => exact .cons (.register src) (.cons (.register dest) .nil)
  | load reg n => exact .cons (.register reg) (.cons (.address n) .nil)
  | add src1 src2 dest =>
    exact .cons (.register src1) (.cons (.register src2) (.cons (.register dest) .nil))
  | jmp n => exact .cons (.address n) .nil

/-- What the parameters ask for can be built from. -/
theorem exists_builds (h : List.Forall₂ Parameter.Admits m.parameters os) :
    ∃ i lost, Builds m os i lost := by
  -- The parameters fix the number of operands and the kind of each.
  match m, os, h with
  | .lri, _, .cons (.register dest) (.cons (.immediate n) .nil) =>
    exact ⟨_, _, .lri dest n⟩
  | .move, _, .cons (.register src) (.cons (.register dest) .nil) =>
    exact ⟨_, _, .move src dest⟩
  | .load, _, .cons (.register reg) (.cons (.address n) .nil) =>
    exact ⟨_, _, .load reg n⟩
  | .add, _, .cons (.register src1) (.cons (.register src2) (.cons (.register dest) .nil)) =>
    exact ⟨_, _, .add src1 src2 dest⟩
  | .jmp, _, .cons (.address n) .nil =>
    exact ⟨_, _, .jmp n⟩

theorem isSome_build_iff :
    (build m os).isSome = true ↔ List.Forall₂ Parameter.Admits m.parameters os := by
  constructor
  · intro h
    obtain ⟨⟨i, lost⟩, hbuild⟩ := Option.isSome_iff_exists.1 h
    exact (build_eq_some_iff.1 hbuild).admitted
  · intro h
    obtain ⟨i, lost, hbuilds⟩ := exists_builds h
    rw [build_eq_some_iff.2 hbuilds]
    rfl

theorem Builds.mnemonic_eq (h : Builds m os i lost) : i.mnemonic = m := by
  cases h with
  | _ => rfl

/-- The fields hold the operands in source order, an integer reduced to the
    width of its field. -/
theorem Builds.operation_eq (h : Builds m os i lost) :
    i.operation = (m, os.map (Operand.reduce m.fieldWidth)) := by
  cases h with
  | lri dest n =>
    show (_, [_, Operand.integer (BitVec.ofNat 8 n).toNat]) =
      (_, [Operand.register dest, .integer (n % 2 ^ 8)])
    rw [BitVec.toNat_ofNat]
  | move src dest => rfl
  | load reg n =>
    show (_, [_, Operand.integer (BitVec.ofNat 8 n).toNat]) =
      (_, [Operand.register reg, .integer (n % 2 ^ 8)])
    rw [BitVec.toNat_ofNat]
  | add src1 src2 dest => rfl
  | jmp n =>
    -- The destination is kept in a wider field than it may fill.
    have hdest : ((BitVec.ofNat 12 n).setWidth 16).toNat = n % 2 ^ 12 := by
      rw [BitVec.toNat_setWidth, BitVec.toNat_ofNat]
      omega
    show (_, [Operand.integer ((BitVec.ofNat 12 n).setWidth 16).toNat]) =
      (_, [.integer (n % 2 ^ 12)])
    rw [hdest]

/-- What is on record is the operand that is too wide for its field. -/
theorem Builds.lost_eq_some_iff (h : Builds m os i lost) {o : Overflow} :
    lost = some o ↔
      ∃ n, .integer n ∈ os ∧ 2 ^ m.fieldWidth ≤ n ∧ o = ⟨n, m.fieldWidth⟩ := by
  cases h with
  | lri dest n => simp [overflow?_eq_some_iff, Mnemonic.fieldWidth]
  | move src dest => simp
  | load reg n => simp [overflow?_eq_some_iff, Mnemonic.fieldWidth]
  | add src1 src2 dest => simp
  | jmp n => simp [overflow?_eq_some_iff, Mnemonic.fieldWidth]

/-- An instruction can be built exactly if the operands match the parameters one
    by one.  It then has the mnemonic it was built for, is read back from its
    word, and holds the operands in source order, an integer modulo the power
    of two that bounds its field; an overflow is recorded exactly if an integer
    reaches that power, with its value and the width of the field. -/
theorem build_follows_parameters (m : Mnemonic) (os : List Operand) :
    ((build m os).isSome = true ↔ List.Forall₂ Parameter.Admits m.parameters os) ∧
    ∀ i lost, build m os = some (i, lost) →
      i.mnemonic = m ∧
      decode i.encode = some i ∧
      i.operation = (m, os.map (Operand.reduce m.fieldWidth)) ∧
      ∀ o, lost = some o ↔
        ∃ n, .integer n ∈ os ∧ 2 ^ m.fieldWidth ≤ n ∧ o = ⟨n, m.fieldWidth⟩ := by
  refine ⟨isSome_build_iff, ?_⟩
  intro i lost hbuild
  have hbuilds := build_eq_some_iff.1 hbuild
  refine ⟨hbuilds.mnemonic_eq, decode_encode (fits_of_build hbuild), hbuilds.operation_eq, ?_⟩
  intro o
  exact hbuilds.lost_eq_some_iff

/-- A destination with every bit set keeps to its field and leaves the opcode
    alone. -/
theorem build_follows_parameters_all_ones :
    build .jmp [.integer (2 ^ 128 - 1)] = some (.jmp 4095, some ⟨2 ^ 128 - 1, 12⟩) ∧
    List.Forall₂ Parameter.Admits Mnemonic.jmp.parameters [.integer (2 ^ 128 - 1)] ∧
    decode (jmp 4095).encode = some (.jmp 4095) ∧
    (jmp 4095).operation = (.jmp, [.integer ((2 ^ 128 - 1) % 2 ^ 12)]) := by
  have hbuild : build .jmp [.integer (2 ^ 128 - 1)] =
      some (.jmp 4095, some ⟨2 ^ 128 - 1, 12⟩) := by decide +kernel
  obtain ⟨hadmitted, hbuilt⟩ :=
    build_follows_parameters .jmp [.integer (2 ^ 128 - 1)]
  obtain ⟨_, hdecode, hoperation, _⟩ := hbuilt _ _ hbuild
  refine ⟨hbuild, hadmitted.1 ?_, hdecode, hoperation⟩
  rw [hbuild]
  rfl

end Instruction

end OnePass
