import OnePass.Proofs.Lockstep

/-! # The values of literals decide nothing

    A literal goes into the field that it was written for and nowhere else.
    So two statement lists that differ in the values of literals only are
    executed in lockstep: the same statements succeed, the same labels are
    bound to the same addresses, and the instructions differ at most in the
    fields that the literals fill.

    * `Statement.SameForm` : statements that differ in literals only.
    * `Typing.WellTyped.sameForm`, `Typing.IllTyped.sameForm` : the rules for
      statements do not look at values.
    * `SameFields` : what two entries of one operation have in common.
    * `Assembler.executeAll_ignores_values` : the two runs. -/

namespace OnePass

/-- Arguments that are the same, or both literals. -/
inductive Argument.SameForm : Argument → Argument → Prop
  | literal (n n' : Nat) : SameForm (.number n) (.number n')
  | same (a : Argument) : SameForm a a

/-- Statements that differ in the values of literals only. -/
structure Statement.SameForm (st st' : Statement) : Prop where
  position_eq : st'.position = st.position
  name_eq : st'.name = st.name
  arguments : List.Forall₂ Argument.SameForm st.arguments st'.arguments

/-- Without literals there is nothing to differ in. -/
theorem eq_of_forall₂_sameForm {args args' : List Argument}
    (h : List.Forall₂ Argument.SameForm args args') (hnumber : ∀ n, .number n ∉ args) :
    args' = args := by
  induction h with
  | nil => rfl
  | @cons a a' args args' ha _ ih =>
    have hrest := ih fun n hn => hnumber n (List.mem_cons_of_mem _ hn)
    cases ha with
    | same => rw [hrest]
    | literal n n' => exact absurd (List.mem_cons_self ..) (hnumber n)

theorem Statement.SameForm.eq_of_text {st st' : Statement} (h : st.SameForm st') {name : String}
    (hargs : st.arguments = [.text name]) : st' = st := by
  have hnumber : ∀ n, .number n ∉ st.arguments := by
    intro n hn
    rw [hargs, List.mem_singleton] at hn
    cases hn
  have hsame := eq_of_forall₂_sameForm h.arguments hnumber
  have hpos := h.position_eq
  have hname := h.name_eq
  cases st
  cases st'
  simp only at hpos hname hsame
  rw [hpos, hname, hsame]

/-! ## The rules for statements -/

namespace Typing

variable {scope : List String}

theorem suits_sameForm_iff {p : Parameter} {a a' : Argument} (ha : a.SameForm a') :
    Suits scope p a ↔ Suits scope p a' := by
  cases ha with
  | same => rfl
  | literal n n' =>
    constructor
    · rintro (_ | hp | _)
      exact .literal hp
    · rintro (_ | hp | _)
      exact .literal hp

theorem complaint_sameForm (p : Parameter) {a a' : Argument} (ha : a.SameForm a') :
    (complaint scope p a).SameVariant (complaint scope p a') := by
  cases ha with
  | same => rfl
  | literal n n' => cases p <;> rfl

theorem forall₂_suits_sameForm {ps : List Parameter} {args args' : List Argument}
    (h : List.Forall₂ (Suits scope) ps args) (hargs : List.Forall₂ Argument.SameForm args args') :
    List.Forall₂ (Suits scope) ps args' := by
  induction h generalizing args' with
  | nil =>
    cases hargs
    exact .nil
  | cons hfirst _ ih =>
    cases hargs with
    | cons ha hrest => exact .cons ((suits_sameForm_iff ha).1 hfirst) (ih hrest)

/-- The same argument is the leftmost that does not suit. -/
theorem Misfits.sameForm {ps : List Parameter} {args args' : List Argument} {f : Fault}
    (h : Misfits scope ps args f) (hargs : List.Forall₂ Argument.SameForm args args') :
    ∃ f', Misfits scope ps args' f' ∧ f.SameVariant f' := by
  obtain ⟨hbefore, hmisfit⟩ := h
  induction hbefore generalizing args' with
  | nil =>
    cases hargs with
    | cons ha hrest =>
      have hmisfit' := mt (suits_sameForm_iff ha).2 hmisfit
      exact ⟨_, misfits_cons_iff.2 (.inl ⟨hmisfit', rfl⟩), complaint_sameForm _ ha⟩
  | cons hfirst _ ih =>
    cases hargs with
    | cons ha hrest =>
      have hfirst' := (suits_sameForm_iff ha).1 hfirst
      obtain ⟨f', hf', hvariant⟩ := ih hrest
      exact ⟨f', misfits_cons_iff.2 (.inr ⟨hfirst', hf'⟩), hvariant⟩

variable {st st' : Statement}

theorem WellTyped.sameForm (h : WellTyped scope st) (hst : st.SameForm st') :
    WellTyped scope st' := by
  cases h with
  | operation m hname hsuits =>
    exact .operation m (hst.name_eq.trans hname) (forall₂_suits_sameForm hsuits hst.arguments)
  | label name hname hargs hfree =>
    rw [hst.eq_of_text hargs]
    exact .label name hname hargs hfree

theorem IllTyped.sameForm {f : Fault} (h : IllTyped scope st f) (hst : st.SameForm st') :
    ∃ f', IllTyped scope st' f' ∧ f.SameVariant f' := by
  have hlength : st'.arguments.length = st.arguments.length := hst.arguments.length_eq.symm
  cases h with
  | undefined hname =>
    rw [← hst.name_eq] at hname
    exact ⟨_, .undefined hname, rfl⟩
  | notCallable hname =>
    rw [← hst.name_eq] at hname
    exact ⟨_, .notCallable hname, rfl⟩
  | operationCount m hname hlen =>
    rw [← hlength] at hlen
    exact ⟨_, .operationCount m (hst.name_eq.trans hname) hlen, rfl⟩
  | operand m hname hlen hmisfits =>
    obtain ⟨f', hmisfits', hvariant⟩ := hmisfits.sameForm hst.arguments
    rw [← hlength] at hlen
    exact ⟨f', .operand m (hst.name_eq.trans hname) hlen hmisfits', hvariant⟩
  | labelCount hname hlen =>
    rw [← hlength] at hlen
    exact ⟨_, .labelCount (hst.name_eq.trans hname) hlen, rfl⟩
  | labelText a hname hargs htext =>
    have hform := hst.arguments
    rw [hargs] at hform
    -- A literal stays a literal, and anything else stays as it is.
    obtain ⟨a', hargs', htext'⟩ : ∃ a', st'.arguments = [a'] ∧ ∀ name, a' ≠ .text name := by
      match hargs' : st'.arguments, hform with
      | [_], .cons (.same _) .nil => exact ⟨a, rfl, htext⟩
      | [_], .cons (.literal _ n') .nil => exact ⟨.number n', rfl, fun _ h => by cases h⟩
    exact ⟨_, .labelText a' (hst.name_eq.trans hname) hargs' htext', rfl⟩
  | labelTaken name hname hargs htaken =>
    rw [hst.eq_of_text hargs]
    exact ⟨_, .labelTaken name hname hargs htaken, rfl⟩

end Typing

/-! ## Instructions -/

/-- The register fields of an instruction, in source order. -/
def Instruction.registers : Instruction → List Register
  | lri dest _         => [dest]
  | move src dest      => [src, dest]
  | load reg _         => [reg]
  | add src1 src2 dest => [src1, src2, dest]
  | jmp _              => []

/-- What the entries of one operation have in common in both runs: position,
    mnemonic and register fields, and all of the instruction if the operation
    is written without literals, so that its integer is given as a label. -/
structure SameFields (st : Statement) (e e' : Entry) : Prop where
  origin_eq : e'.origin = e.origin
  mnemonic_eq : e'.instruction.mnemonic = e.instruction.mnemonic
  registers_eq : e'.instruction.registers = e.instruction.registers
  instruction_eq : (∀ n, .number n ∉ st.arguments) → e'.instruction = e.instruction

theorem Argument.SameForm.register_eq {t : Symbols} {a a' : Argument} {r r' : Register}
    (ha : a.SameForm a') (h : t.register a = .ok r) (h' : t.register a' = .ok r') : r' = r := by
  cases ha with
  | literal n n' => cases h
  | same => exact Symbols.register_unique h h'

namespace Symbols

variable {t : Symbols} {m : Mnemonic} {args args' : List Argument} {i i' : Instruction}
  {lost lost' : Option Overflow}

theorem Built.mnemonic_eq (h : t.Built m args i lost) : i.mnemonic = m := by
  cases h <;> rfl

theorem Built.instruction_eq (h : t.Built m args i lost) (h' : t.Built m args i' lost') :
    i' = i := by
  have hsame := h.instruction.symm.trans h'.instruction
  cases hsame
  rfl

theorem Built.registers_eq (h : t.Built m args i lost) (h' : t.Built m args' i' lost')
    (hargs : List.Forall₂ Argument.SameForm args args') : i'.registers = i.registers := by
  cases h with
  | lri ha _ =>
    cases h' with
    | lri ha' _ =>
      obtain ⟨hfirst, _⟩ := List.forall₂_cons.1 hargs
      rw [Instruction.registers, hfirst.register_eq ha ha']
      rfl
  | move ha hb =>
    cases h' with
    | move ha' hb' =>
      obtain ⟨hfirst, hrest⟩ := List.forall₂_cons.1 hargs
      obtain ⟨hsecond, _⟩ := List.forall₂_cons.1 hrest
      rw [Instruction.registers, hfirst.register_eq ha ha', hsecond.register_eq hb hb']
      rfl
  | load ha _ =>
    cases h' with
    | load ha' _ =>
      obtain ⟨hfirst, _⟩ := List.forall₂_cons.1 hargs
      rw [Instruction.registers, hfirst.register_eq ha ha']
      rfl
  | add ha hb hc =>
    cases h' with
    | add ha' hb' hc' =>
      obtain ⟨hfirst, hrest⟩ := List.forall₂_cons.1 hargs
      obtain ⟨hsecond, hrest'⟩ := List.forall₂_cons.1 hrest
      obtain ⟨hthird, _⟩ := List.forall₂_cons.1 hrest'
      rw [Instruction.registers, hfirst.register_eq ha ha', hsecond.register_eq hb hb',
        hthird.register_eq hc hc']
      rfl
  | jmp _ =>
    cases h' with
    | jmp _ => rfl

/-- The instructions that two operations of the same form are built to. -/
theorem Built.sameFields {st st' : Statement} (hst : st.SameForm st')
    (h : t.Built m st.arguments i lost) (h' : t.Built m st'.arguments i' lost') :
    SameFields st ⟨st.position, i⟩ ⟨st'.position, i'⟩ where
  origin_eq := hst.position_eq
  mnemonic_eq := h'.mnemonic_eq.trans h.mnemonic_eq.symm
  registers_eq := h.registers_eq h' hst.arguments
  instruction_eq := by
    intro hnumber
    rw [eq_of_forall₂_sameForm hst.arguments hnumber] at h'
    exact h.instruction_eq h'

end Symbols

/-! ## Runs -/

/-- What two runs from `s₀` have in common after the statements `ss`: the
    labels, and the images up to the fields that literals fill. -/
structure SameCode (s₀ : Assembly) (ss : List Statement) (s s' : Assembly) : Prop where
  symbols_eq : s'.symbols = s.symbols
  grown : Grown SameFields s₀ s₀ ss s s'

theorem SameCode.here_eq {s₀ s s' : Assembly} {ss : List Statement} (h : SameCode s₀ ss s s') :
    s'.image.here = s.image.here := by
  obtain ⟨n, hsize, hsize'⟩ := h.grown.size_eq
  rw [Image.here, Image.here, hsize, hsize']

namespace Assembler

variable {s₀ s s' t t' : Assembly} {before : List Statement} {st st' : Statement}

/-- Two statements of the same form that both succeed keep what the runs have
    in common. -/
theorem sameCode_step (hst : st.SameForm st') (h : SameCode s₀ before s s')
    (hone : Executes s st t) (hone' : Executes s' st' t') :
    SameCode s₀ (before ++ [st]) t t' := by
  cases hone with
  | @operation pos m args i lost hbuilt =>
    obtain ⟨i', lost', hbuilt', rfl⟩ := hone'.of_operation hst.name_eq
    rw [h.symbols_eq] at hbuilt'
    have hop := Denotation.isOperation_mnemonic pos m args
    have hfields := Symbols.Built.sameFields hst hbuilt hbuilt'
    exact ⟨h.symbols_eq, h.grown.operation hop hfields rfl rfl⟩
  | @label pos name hfree =>
    -- A label declaration holds no literal, so it is the same on both sides.
    obtain rfl := hst.eq_of_text rfl
    have hop := Denotation.isOperation_label pos [.text name]
    rw [hone'.of_label]
    refine ⟨?_, h.grown.other hop rfl rfl⟩
    show s'.symbols.bind name s'.image.here = s.symbols.bind name s.image.here
    rw [h.symbols_eq, h.here_eq]

theorem lockstep_sameForm (hst : st.SameForm st') (h : SameCode s₀ before s s') :
    Lockstep SourceFault.Alike (SameCode s₀ (before ++ [st])) st st' s s' := by
  apply lockstep_of_typing
  · intro hwell
    rw [h.symbols_eq]
    exact hwell.sameForm hst
  · intro f hill
    obtain ⟨f', hill', hvariant⟩ := hill.sameForm hst
    rw [← h.symbols_eq] at hill'
    exact ⟨f', hill', hst.position_eq.symm, hvariant⟩
  · intro t t' hone hone'
    exact sameCode_step hst h hone hone'

/-- Run two statement lists that differ in the values of literals only, from
    the same assembly.  Either both run through, or both fail at the same
    statement, with the same position and for a reason of the same variant.  In
    both cases the labels are the same, and so are the images, entry by entry,
    up to the fields that literals fill. -/
theorem executeAll_ignores_values {ss ss' : List Statement}
    (hss : List.Forall₂ Statement.SameForm ss ss') (s : Assembly) :
    (∃ t t', executeAll ss s = .ok () t ∧ executeAll ss' s = .ok () t' ∧ SameCode s ss t t') ∨
    ∃ k e e' t t', executeAll ss s = .error e t ∧ executeAll ss' s = .error e' t' ∧
      BreaksOff ss s k e t ∧ BreaksOff ss' s k e' t' ∧
      e.position = e'.position ∧ e.fault.SameVariant e'.fault ∧ SameCode s (ss.take k) t t' := by
  have hstart : SameCode s [] s s := ⟨rfl, grown_start⟩
  rcases executeAll_lockstep lockstep_sameForm hss hstart with
    hok | ⟨k, e, e', t, t', hb, hb', ⟨hpos, hvariant⟩, hsame⟩
  · exact .inl hok
  · refine .inr ⟨k, e, e', t, t', ?_, ?_, hb, hb', hpos, hvariant, hsame⟩
    · exact executeAll_eq_error_iff.2 ⟨k, hb⟩
    · exact executeAll_eq_error_iff.2 ⟨k, hb'⟩

/-- A small and a huge literal, next to a label that was bound before and one
    that is bound on the way.  Then a literal where a register should stand. -/
theorem executeAll_ignores_values_huge :
    let s : Assembly := { symbols := ⟨[⟨"old", 300⟩]⟩ }
    let ss (n : Nat) : List Statement :=
      [⟨⟨"t.s", 1⟩, "load", [.name "r1", .number n]⟩,
       ⟨⟨"t.s", 2⟩, "label", [.text "next"]⟩,
       ⟨⟨"t.s", 3⟩, "jmp", [.name "next"]⟩,
       ⟨⟨"t.s", 4⟩, "lri", [.name "r2", .name "old"]⟩]
    let broken (n : Nat) : List Statement :=
      [⟨⟨"t.s", 1⟩, "lri", [.name "r1", .number n]⟩,
       ⟨⟨"t.s", 2⟩, "lri", [.number n, .number n]⟩]
    let huge := 0xFFFFFFFFFFFFFFFFFFFFFFFFFFFFFFFF
    (∃ t t', executeAll (ss 7) s = .ok () t ∧ executeAll (ss huge) s = .ok () t' ∧
      t'.symbols = t.symbols ∧ t'.image.size = t.image.size) ∧
    ∃ e e' t t', executeAll (broken 7) s = .error e t ∧
      executeAll (broken huge) s = .error e' t' ∧
      e.position = e'.position ∧ e.fault.SameVariant e'.fault ∧ t'.symbols = t.symbols := by
  intro s ss broken huge
  constructor
  · have hform : List.Forall₂ Statement.SameForm (ss 7) (ss huge) :=
      .cons ⟨rfl, rfl, .cons (.same _) (.cons (.literal _ _) .nil)⟩
        (.cons ⟨rfl, rfl, .cons (.same _) .nil⟩
          (.cons ⟨rfl, rfl, .cons (.same _) .nil⟩
            (.cons ⟨rfl, rfl, .cons (.same _) (.cons (.same _) .nil)⟩ .nil)))
    rcases executeAll_ignores_values hform s with
      ⟨t, t', hrun, hrun', hsame⟩ | ⟨_, _, _, _, _, herror, _⟩
    · obtain ⟨n, hsize, hsize'⟩ := hsame.grown.size_eq
      exact ⟨t, t', hrun, hrun', hsame.symbols_eq, hsize'.trans hsize.symm⟩
    · cases herror
  · have hform : List.Forall₂ Statement.SameForm (broken 7) (broken huge) :=
      .cons ⟨rfl, rfl, .cons (.same _) (.cons (.literal _ _) .nil)⟩
        (.cons ⟨rfl, rfl, .cons (.literal _ _) (.cons (.literal _ _) .nil)⟩ .nil)
    rcases executeAll_ignores_values hform s with
      ⟨_, _, hrun, _⟩ | ⟨_, e, e', t, t', herror, herror', _, _, hpos, hvariant, hsame⟩
    · cases hrun
    · exact ⟨e, e', t, t', herror, herror', hpos, hvariant, hsame.symbols_eq⟩

end Assembler

end OnePass
