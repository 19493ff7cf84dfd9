import Mathlib.Data.List.Basic
import OnePass.Assembly.Operands
import OnePass.Proofs.Encoding

/-! # What names and arguments resolve to

    One lemma for each question that is asked of the symbols, and from them
    everything that `Symbols.instruction` can answer.

    * `predeclared?_eq_some_iff`, `predeclaredNames` : the names that are taken
      from the start.
    * `address?_bind` : what a binding changes.  It commutes with a change of all
      labels (`bind_map`).
    * `register_eq_ok_iff`, `integer_eq_ok_iff` : single arguments.  Which
      register an argument names does not depend on the labels
      (`register_unique`).
    * `instruction_eq_ok_iff` : a mnemonic's arguments, one case for each
      mnemonic (`Built`).
    * `instruction_eq_error_iff` : the faults they are refused with. -/

namespace OnePass

/-! ## Names taken from the start -/

theorem predeclared?_mnemonic (m : Mnemonic) : predeclared? m.name = some (.operation m) := by
  cases m <;> decide

/-- Registers, mnemonics and the label directive, and nothing else. -/
theorem predeclared?_eq_some_iff {name : String} {m : Meaning} :
    predeclared? name = some m ↔
      (∃ r, Register.ofName? name = some r ∧ m = .register r) ∨
      (∃ o : Mnemonic, name = o.name ∧ m = .operation o) ∨
      (name = labelDirectiveName ∧ m = .labelDirective) := by
  constructor
  · intro h
    unfold predeclared? at h
    split at h
    · next r hr =>
      cases h
      exact .inl ⟨r, hr, rfl⟩
    · split at h
      · next o ho =>
        cases h
        exact .inr (.inl ⟨o, Mnemonic.ofName?_eq_some_iff.1 ho, rfl⟩)
      · split at h
        · next hl =>
          cases h
          exact .inr (.inr ⟨hl, rfl⟩)
        · cases h
  · rintro (⟨r, hr, rfl⟩ | ⟨o, rfl, rfl⟩ | ⟨rfl, rfl⟩)
    · rw [predeclared?, hr]
    · exact predeclared?_mnemonic o
    · decide

/-- The names that are taken from the start. -/
def predeclaredNames : List String :=
  Register.names ++ Mnemonic.all.map Mnemonic.name ++ [labelDirectiveName]

example : predeclaredNames.length = 22 := rfl

theorem Register.exists_ofName?_iff {name : String} :
    (∃ r, Register.ofName? name = some r) ↔ name ∈ Register.names := by
  rw [← Option.isSome_iff_exists, Register.ofName?, Option.isSome_map, List.isSome_idxOf?]

theorem isSome_predeclared?_iff {name : String} :
    (predeclared? name).isSome = true ↔ name ∈ predeclaredNames := by
  have hmnemonic : (∃ m : Mnemonic, name = m.name) ↔ name ∈ Mnemonic.all.map Mnemonic.name := by
    rw [List.mem_map]
    constructor
    · rintro ⟨m, rfl⟩
      exact ⟨m, by cases m <;> decide, rfl⟩
    · rintro ⟨m, _, rfl⟩
      exact ⟨m, rfl⟩
  rw [Option.isSome_iff_exists, predeclaredNames, List.mem_append, List.mem_append,
    List.mem_singleton, ← Register.exists_ofName?_iff, ← hmnemonic]
  simp only [predeclared?_eq_some_iff]
  constructor
  · rintro ⟨m, ⟨r, hr, _⟩ | ⟨o, ho, _⟩ | ⟨hl, _⟩⟩
    · exact .inl (.inl ⟨r, hr⟩)
    · exact .inl (.inr ⟨o, ho⟩)
    · exact .inr hl
  · rintro ((⟨r, hr⟩ | ⟨o, ho⟩) | hl)
    · exact ⟨_, .inl ⟨r, hr, rfl⟩⟩
    · exact ⟨_, .inr (.inl ⟨o, ho, rfl⟩)⟩
    · exact ⟨_, .inr (.inr ⟨hl, rfl⟩)⟩

theorem predeclared?_eq_none_iff {name : String} :
    predeclared? name = none ↔ name ∉ predeclaredNames := by
  rw [← isSome_predeclared?_iff, Bool.not_eq_true, Option.isSome_eq_false_iff,
    Option.isNone_iff_eq_none]

/-- No name is a label from the start. -/
theorem predeclared?_ne_address (name : String) (n : Nat) :
    predeclared? name ≠ some (.address n) := by
  simp [predeclared?_eq_some_iff]

namespace Symbols

variable {t : Symbols}

/-- A name is a label exactly if it is bound and not taken from the start. -/
theorem meaning?_eq_address_iff {name : String} {n : Nat} :
    t.meaning? name = some (.address n) ↔
      predeclared? name = none ∧ t.address? name = some n := by
  have hne := predeclared?_ne_address name n
  unfold meaning?
  cases h : predeclared? name with
  | some m =>
    rw [h] at hne
    simpa using hne
  | none => simp

/-- Labels do not change what the names taken from the start mean. -/
theorem meaning?_eq_predeclared_iff {name : String} {m : Meaning}
    (hm : m.isPredeclared = true) :
    t.meaning? name = some m ↔ predeclared? name = some m := by
  unfold meaning?
  cases h : predeclared? name with
  | some m' => rfl
  | none =>
    cases m with
    | address n => cases hm
    | _ => simp

theorem meaning?_eq_register_iff {name : String} {r : Register} :
    t.meaning? name = some (.register r) ↔ Register.ofName? name = some r := by
  rw [meaning?_eq_predeclared_iff rfl, predeclared?_eq_some_iff]
  simp

theorem meaning?_eq_operation_iff {name : String} {m : Mnemonic} :
    t.meaning? name = some (.operation m) ↔ name = m.name := by
  rw [meaning?_eq_predeclared_iff rfl, predeclared?_eq_some_iff]
  simp

theorem meaning?_eq_labelDirective_iff {name : String} :
    t.meaning? name = some .labelDirective ↔ name = labelDirectiveName := by
  rw [meaning?_eq_predeclared_iff rfl, predeclared?_eq_some_iff]
  simp

/-! ## Binding -/

/-- Replacing an address moves no label. -/
theorem find?_rebound (ls : List Label) (name other : String) (n : Nat) :
    (ls.map fun l => if l.name == name then { l with address := n } else l).find?
        (·.name == other) =
      (ls.find? (·.name == other)).map fun l =>
        if l.name == name then { l with address := n } else l := by
  rw [List.find?_map]
  congr 2
  funext l
  simp only [Function.comp]
  split <;> rfl

/-- The last binding of a name decides; all other names keep theirs. -/
theorem address?_bind (t : Symbols) (name other : String) (n : Nat) :
    (t.bind name n).address? other = if other = name then some n else t.address? other := by
  unfold bind
  split
  · next hany =>
    obtain ⟨l, hl, hname⟩ := List.any_eq_true.1 hany
    rw [beq_iff_eq] at hname
    -- The label keeps its place, so looking up and rebinding commute.
    simp only [address?, find?_rebound, Option.map_map]
    by_cases h : other = name
    · subst h
      have hfound : (t.labels.find? (·.name == other)).isSome := by
        rw [List.find?_isSome]
        exact ⟨l, hl, by simpa using hname⟩
      obtain ⟨l', hl'⟩ := Option.isSome_iff_exists.1 hfound
      have hname' : l'.name = other := by simpa using List.find?_some hl'
      simp [hl', hname']
    · rw [if_neg h]
      cases hl' : t.labels.find? (·.name == other) with
      | none => rfl
      | some l' =>
        have hname' : l'.name = other := by simpa using List.find?_some hl'
        have hne : ¬ l'.name = name := fun hn => h (hname'.symm.trans hn)
        simp [hne]
  · next hany =>
    -- The label goes to the end, behind all others, none of which has its name.
    have hnew : ∀ l ∈ t.labels, ¬ l.name = name := by simpa using hany
    simp only [address?, List.find?_append]
    by_cases h : other = name
    · subst h
      have hnone : t.labels.find? (·.name == other) = none := by
        simpa using hnew
      simp [hnone]
    · have hne : ¬ name = other := fun hn => h hn.symm
      simp [h, hne]

theorem define_of_taken {name : String} {n : Nat} (h : name ∈ predeclaredNames) :
    t.define name n = .error (.predeclared name) := by
  obtain ⟨m, hm⟩ := Option.isSome_iff_exists.1 (isSome_predeclared?_iff.2 h)
  simp only [define, hm]

theorem define_of_free {name : String} {n : Nat} (h : name ∉ predeclaredNames) :
    t.define name n = .ok (t.address? name, t.bind name n) := by
  have hfree : predeclared? name = none := predeclared?_eq_none_iff.2 h
  simp only [define, hfree]

/-! ## Changing all labels

    `g` changes every label, in such a way that `name` becomes `name'`. -/

section changed

variable {g : Label → Label} {name name' : String}
  (hname : ∀ l, ((g l).name == name') = (l.name == name))
include hname

theorem address?_map (t : Symbols) :
    address? ⟨t.labels.map g⟩ name' =
      (t.labels.find? (·.name == name)).map fun l => (g l).address := by
  have hsame : ((fun l : Label => l.name == name') ∘ g) = fun l => l.name == name :=
    funext hname
  unfold address?
  rw [List.find?_map, Option.map_map, hsame]
  rfl

/-- Changing all labels and then binding is binding and then changing. -/
theorem bind_map (t : Symbols) {n n' : Nat}
    (haddress : ∀ l, g { l with address := n } = { g l with address := n' })
    (hnew : g ⟨name, n⟩ = ⟨name', n'⟩) :
    bind ⟨t.labels.map g⟩ name' n' = ⟨(t.bind name n).labels.map g⟩ := by
  have hany : (t.labels.map g).any (·.name == name') = t.labels.any (·.name == name) := by
    rw [List.any_map]
    exact congrArg t.labels.any (funext hname)
  unfold bind
  rw [hany]
  by_cases hbound : t.labels.any (·.name == name) = true
  · rw [if_pos hbound, if_pos hbound]
    dsimp only
    rw [List.map_map, List.map_map]
    refine congrArg Symbols.mk (List.map_congr_left fun l _ => ?_)
    simp only [Function.comp, hname]
    by_cases hl : (l.name == name) = true
    · rw [if_pos hl, if_pos hl, haddress]
    · rw [if_neg hl, if_neg hl]
  · rw [if_neg hbound, if_neg hbound, List.map_append, List.map_singleton, hnew]

end changed

/-! ## Single arguments -/

theorem register_eq_ok_iff {a : Argument} {r : Register} :
    t.register a = .ok r ↔ ∃ s, a = .name s ∧ Register.ofName? s = some r := by
  cases a with
  | name s =>
    simp only [register, Argument.name.injEq, exists_eq_left',
      ← meaning?_eq_register_iff (t := t)]
    split <;> simp_all
  | number n => simp [register]
  | text s => simp [register]

/-- Which register an argument names does not depend on the labels. -/
theorem register_unique {t' : Symbols} {a : Argument} {r r' : Register}
    (h : t.register a = .ok r) (h' : t'.register a = .ok r') : r' = r := by
  obtain ⟨name, rfl, hr⟩ := register_eq_ok_iff.1 h
  obtain ⟨name', hname, hr'⟩ := register_eq_ok_iff.1 h'
  cases hname
  rw [hr] at hr'
  cases hr'
  rfl

theorem integer_eq_ok_iff {a : Argument} {n : Nat} :
    t.integer a = .ok n ↔
      a = .number n ∨ ∃ s, a = .name s ∧ predeclared? s = none ∧ t.address? s = some n := by
  cases a with
  | name s =>
    simp only [integer, reduceCtorEq, false_or, Argument.name.injEq, exists_eq_left',
      ← meaning?_eq_address_iff]
    split <;> simp_all
  | number m => simp [integer]
  | text s => simp [integer]

theorem operand_register_eq_ok_iff {a : Argument} {o : Operand} :
    t.operand .register a = .ok o ↔ ∃ r, t.register a = .ok r ∧ o = .register r := by
  unfold operand
  cases t.register a <;> simp [Except.map, eq_comm]

theorem operand_immediate_eq_ok_iff {a : Argument} {o : Operand} :
    t.operand .immediate a = .ok o ↔ ∃ n, t.integer a = .ok n ∧ o = .integer n := by
  unfold operand
  cases t.integer a <;> simp [Except.map, eq_comm]

theorem operand_address_eq_ok_iff {a : Argument} {o : Operand} :
    t.operand .address a = .ok o ↔ ∃ n, t.integer a = .ok n ∧ o = .integer n :=
  operand_immediate_eq_ok_iff

/-! ## A mnemonic's arguments -/

theorem operands_cons_eq_ok_iff {p : Parameter} {ps : List Parameter} {a : Argument}
    {as : List Argument} {os : List Operand} :
    t.operands (p :: ps) (a :: as) = .ok os ↔
      ∃ o rest, t.operand p a = .ok o ∧ t.operands ps as = .ok rest ∧ os = o :: rest := by
  rw [operands]
  cases t.operand p a with
  | error f => simp
  | ok o => cases t.operands ps as <;> simp [Except.map, eq_comm]

/-- `t.Built m args i lost`: on the arguments `args`, the mnemonic `m` gives
    the instruction `i`, and `lost` records the operand that was cut. -/
inductive Built (t : Symbols) :
    Mnemonic → List Argument → Instruction → Option Overflow → Prop
  | lri {a b : Argument} {dest : Register} {n : Nat} :
      t.register a = .ok dest → t.integer b = .ok n →
      t.Built .lri [a, b] (.lri dest (BitVec.ofNat 8 n)) (overflow? 8 n)
  | move {a b : Argument} {src dest : Register} :
      t.register a = .ok src → t.register b = .ok dest →
      t.Built .move [a, b] (.move src dest) none
  | load {a b : Argument} {reg : Register} {n : Nat} :
      t.register a = .ok reg → t.integer b = .ok n →
      t.Built .load [a, b] (.load reg (BitVec.ofNat 8 n)) (overflow? 8 n)
  | add {a b c : Argument} {src1 src2 dest : Register} :
      t.register a = .ok src1 → t.register b = .ok src2 → t.register c = .ok dest →
      t.Built .add [a, b, c] (.add src1 src2 dest) none
  | jmp {a : Argument} {n : Nat} :
      t.integer a = .ok n →
      t.Built .jmp [a] (.jmp ((BitVec.ofNat 12 n).setWidth 16)) (overflow? 12 n)

/-- The three stages of `instruction`: the number of arguments, the
    operands, the instruction. -/
theorem instruction_eq_ok_iff_stages {m : Mnemonic} {args : List Argument} {i : Instruction}
    {lost : Option Overflow} :
    t.instruction m args = .ok (i, lost) ↔
      args.length = m.parameters.length ∧
        ∃ os, t.operands m.parameters args = .ok os ∧
          Instruction.build m os = some (i, lost) := by
  unfold instruction
  by_cases hlen : args.length = m.parameters.length
  · cases hos : t.operands m.parameters args with
    | error f => simp [hlen]
    | ok os =>
      cases hb : Instruction.build m os with
      | none => simp [hlen, hb]
      | some built => simp [hlen, hb]
  · simp [hlen]

/-- Operands that were found one by one always fit together, so only the
    number of arguments and the single arguments can be at fault. -/
theorem exists_built {m : Mnemonic} {args : List Argument} {os : List Operand}
    (hlen : args.length = m.parameters.length) (hos : t.operands m.parameters args = .ok os) :
    ∃ i lost, Instruction.build m os = some (i, lost) ∧ t.Built m args i lost := by
  -- The number of arguments is known in each case, so they can be taken
  -- apart together with the parameters.
  cases m with
  | lri =>
    obtain ⟨a, b, rfl⟩ := List.length_eq_two.1 hlen
    obtain ⟨_, _, ha, hrest, rfl⟩ := operands_cons_eq_ok_iff.1 hos
    obtain ⟨_, _, hb, hnil, rfl⟩ := operands_cons_eq_ok_iff.1 hrest
    obtain ⟨dest, hdest, rfl⟩ := operand_register_eq_ok_iff.1 ha
    obtain ⟨n, hn, rfl⟩ := operand_immediate_eq_ok_iff.1 hb
    cases hnil
    exact ⟨_, _, Instruction.build_lri .., .lri hdest hn⟩
  | move =>
    obtain ⟨a, b, rfl⟩ := List.length_eq_two.1 hlen
    obtain ⟨_, _, ha, hrest, rfl⟩ := operands_cons_eq_ok_iff.1 hos
    obtain ⟨_, _, hb, hnil, rfl⟩ := operands_cons_eq_ok_iff.1 hrest
    obtain ⟨src, hsrc, rfl⟩ := operand_register_eq_ok_iff.1 ha
    obtain ⟨dest, hdest, rfl⟩ := operand_register_eq_ok_iff.1 hb
    cases hnil
    exact ⟨_, _, rfl, .move hsrc hdest⟩
  | load =>
    obtain ⟨a, b, rfl⟩ := List.length_eq_two.1 hlen
    obtain ⟨_, _, ha, hrest, rfl⟩ := operands_cons_eq_ok_iff.1 hos
    obtain ⟨_, _, hb, hnil, rfl⟩ := operands_cons_eq_ok_iff.1 hrest
    obtain ⟨reg, hreg, rfl⟩ := operand_register_eq_ok_iff.1 ha
    obtain ⟨n, hn, rfl⟩ := operand_address_eq_ok_iff.1 hb
    cases hnil
    exact ⟨_, _, Instruction.build_load .., .load hreg hn⟩
  | add =>
    obtain ⟨a, b, c, rfl⟩ := List.length_eq_three.1 hlen
    obtain ⟨_, _, ha, hrest, rfl⟩ := operands_cons_eq_ok_iff.1 hos
    obtain ⟨_, _, hb, hrest', rfl⟩ := operands_cons_eq_ok_iff.1 hrest
    obtain ⟨_, _, hc, hnil, rfl⟩ := operands_cons_eq_ok_iff.1 hrest'
    obtain ⟨src1, hsrc1, rfl⟩ := operand_register_eq_ok_iff.1 ha
    obtain ⟨src2, hsrc2, rfl⟩ := operand_register_eq_ok_iff.1 hb
    obtain ⟨dest, hdest, rfl⟩ := operand_register_eq_ok_iff.1 hc
    cases hnil
    exact ⟨_, _, rfl, .add hsrc1 hsrc2 hdest⟩
  | jmp =>
    obtain ⟨a, rfl⟩ := List.length_eq_one_iff.1 hlen
    obtain ⟨_, _, ha, hnil, rfl⟩ := operands_cons_eq_ok_iff.1 hos
    obtain ⟨n, hn, rfl⟩ := operand_address_eq_ok_iff.1 ha
    cases hnil
    exact ⟨_, _, Instruction.build_jmp .., .jmp hn⟩

theorem Built.of_instruction {m : Mnemonic} {args : List Argument} {i : Instruction}
    {lost : Option Overflow} (h : t.instruction m args = .ok (i, lost)) :
    t.Built m args i lost := by
  obtain ⟨hlen, os, hos, hb⟩ := instruction_eq_ok_iff_stages.1 h
  obtain ⟨i', lost', hb', hbuilt⟩ := exists_built hlen hos
  rw [hb] at hb'
  cases hb'
  exact hbuilt

theorem Built.instruction {m : Mnemonic} {args : List Argument} {i : Instruction}
    {lost : Option Overflow} (h : t.Built m args i lost) :
    t.instruction m args = .ok (i, lost) := by
  refine instruction_eq_ok_iff_stages.2 ?_
  cases h with
  | @lri a b dest n ha hb =>
    have hos : t.operands [.register, .immediate] [a, b] =
        .ok [.register dest, .integer n] := by
      simp [operands, operand, ha, hb, Except.map]
    exact ⟨rfl, _, hos, Instruction.build_lri dest n⟩
  | @move a b src dest ha hb =>
    have hos : t.operands [.register, .register] [a, b] =
        .ok [.register src, .register dest] := by
      simp [operands, operand, ha, hb, Except.map]
    exact ⟨rfl, _, hos, rfl⟩
  | @load a b reg n ha hb =>
    have hos : t.operands [.register, .address] [a, b] =
        .ok [.register reg, .integer n] := by
      simp [operands, operand, ha, hb, Except.map]
    exact ⟨rfl, _, hos, Instruction.build_load reg n⟩
  | @add a b c src1 src2 dest ha hb hc =>
    have hos : t.operands [.register, .register, .register] [a, b, c] =
        .ok [.register src1, .register src2, .register dest] := by
      simp [operands, operand, ha, hb, hc, Except.map]
    exact ⟨rfl, _, hos, rfl⟩
  | @jmp a n ha =>
    have hos : t.operands [.address] [a] = .ok [.integer n] := by
      simp [operands, operand, ha, Except.map]
    exact ⟨rfl, _, hos, Instruction.build_jmp n⟩

/-- Everything that a mnemonic's arguments can give. -/
theorem instruction_eq_ok_iff {m : Mnemonic} {args : List Argument} {i : Instruction}
    {lost : Option Overflow} :
    t.instruction m args = .ok (i, lost) ↔ t.Built m args i lost :=
  ⟨Built.of_instruction, Built.instruction⟩

/-- Why a mnemonic's arguments are refused: their number is asked first, then
    the arguments one by one. -/
theorem instruction_eq_error_iff {m : Mnemonic} {args : List Argument} {f : Fault} :
    t.instruction m args = .error f ↔
      (args.length ≠ m.parameters.length ∧
        f = .argumentCount m.name m.parameters.length args.length) ∨
      (args.length = m.parameters.length ∧ t.operands m.parameters args = .error f) := by
  unfold instruction
  by_cases hlen : args.length = m.parameters.length
  · cases hos : t.operands m.parameters args with
    | error g => simp [hlen]
    | ok os =>
      obtain ⟨i, lost, hb, _⟩ := exists_built hlen hos
      simp [hlen, hb]
  · simp [hlen, eq_comm]

/-- What is built fits its word. -/
theorem Built.fits {m : Mnemonic} {args : List Argument} {i : Instruction}
    {lost : Option Overflow} (h : t.Built m args i lost) : i.Fits := by
  obtain ⟨_, _, _, hb⟩ := instruction_eq_ok_iff_stages.1 h.instruction
  exact Instruction.fits_of_build hb

end Symbols

end OnePass
