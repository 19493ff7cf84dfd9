import Mathlib.Data.List.Forall2
import OnePass.Proofs.Steps

/-! # Which statements are accepted

    Whether a statement is accepted depends on its shape and on which names
    are bound, and on nothing else: no address, no literal and no instruction
    placed so far has a say.  The rules below know only the names of the
    labels, here called the scope.

    * `Typing.Suits` : what an argument has to be for its parameter.
    * `Typing.WellTyped` : the two forms of statement that are accepted.
    * `Typing.IllTyped` : why any other statement is refused.
    * `Typing.Misfits` : of several arguments that do not suit, the leftmost
      decides.
    * `Assembler.execute_eq_ok_iff_wellTyped`, `Assembler.execute_of_illTyped` :
      execution follows the rules. -/

namespace OnePass

/-! ## The rules -/

/-- The names of the labels that are bound. -/
def Symbols.scope (t : Symbols) : List String :=
  t.labels.map (·.name)

/-- The fault of finding something else where a parameter is asked for. -/
def Parameter.expected : Parameter → String → Fault
  | register  => .registerExpected
  | immediate => .integerExpected
  | address   => .integerExpected

namespace Typing

/-- A name that has a meaning: it is taken from the start, or a label. -/
def Declared (scope : List String) (name : String) : Prop :=
  name ∈ predeclaredNames ∨ name ∈ scope

/-- A name that stands for an address. -/
def IsLabel (scope : List String) (name : String) : Prop :=
  name ∉ predeclaredNames ∧ name ∈ scope

instance (scope : List String) (name : String) : Decidable (Declared scope name) :=
  inferInstanceAs (Decidable (_ ∨ _))

/-- `Suits scope p a`: the argument `a` is what the parameter `p` asks for. -/
inductive Suits (scope : List String) : Parameter → Argument → Prop
  /-- A register is given by its name. -/
  | register {name : String} : name ∈ Register.names → Suits scope .register (.name name)
  /-- An integer is written out. -/
  | literal {p : Parameter} {n : Nat} : p ≠ .register → Suits scope p (.number n)
  /-- An integer is given as a label. -/
  | label {p : Parameter} {name : String} :
      p ≠ .register → IsLabel scope name → Suits scope p (.name name)

/-- The fault of an argument that does not suit its parameter.  A name without
    a meaning is reported as such, whatever was asked for. -/
def complaint (scope : List String) (p : Parameter) : Argument → Fault
  | .name name => if Declared scope name then p.expected name else .undefined name
  | other      => p.expected other.render

/-- `Misfits scope ps args f`: some argument does not suit its parameter, and
    `f` is the fault of the leftmost of them. -/
inductive Misfits (scope : List String) : List Parameter → List Argument → Fault → Prop
  | leftmost {ps qs : List Parameter} {p : Parameter} {before after : List Argument}
      {a : Argument} :
      List.Forall₂ (Suits scope) ps before → ¬ Suits scope p a →
      Misfits scope (ps ++ p :: qs) (before ++ a :: after) (complaint scope p a)

/-- The statements that are accepted. -/
inductive WellTyped (scope : List String) (st : Statement) : Prop
  /-- A mnemonic with an argument for each parameter, all of which suit. -/
  | operation (m : Mnemonic) :
      st.name = m.name → List.Forall₂ (Suits scope) m.parameters st.arguments →
      WellTyped scope st
  /-- The declaration of a name that is not taken from the start. -/
  | label (name : String) :
      st.name = labelDirectiveName → st.arguments = [.text name] → name ∉ predeclaredNames →
      WellTyped scope st

/-- `IllTyped scope st f`: the statement `st` is refused, and `f` is why. -/
inductive IllTyped (scope : List String) (st : Statement) : Fault → Prop
  /-- It is headed by a name that nothing declares. -/
  | undefined : ¬ Declared scope st.name → IllTyped scope st (.undefined st.name)
  /-- It is headed by a register or a label. -/
  | notCallable :
      st.name ∈ Register.names ∨ IsLabel scope st.name →
      IllTyped scope st (.notCallable st.name)
  /-- A mnemonic with too few or too many arguments. -/
  | operationCount (m : Mnemonic) :
      st.name = m.name → st.arguments.length ≠ m.parameters.length →
      IllTyped scope st (.argumentCount m.name m.parameters.length st.arguments.length)
  /-- A mnemonic with the right number of arguments, not all of which suit. -/
  | operand (m : Mnemonic) {f : Fault} :
      st.name = m.name → st.arguments.length = m.parameters.length →
      Misfits scope m.parameters st.arguments f → IllTyped scope st f
  /-- A label declaration with too few or too many arguments. -/
  | labelCount :
      st.name = labelDirectiveName → st.arguments.length ≠ 1 →
      IllTyped scope st (.argumentCount labelDirectiveName 1 st.arguments.length)
  /-- A label declaration whose argument is no text. -/
  | labelText (a : Argument) :
      st.name = labelDirectiveName → st.arguments = [a] → (∀ name, a ≠ .text name) →
      IllTyped scope st (.labelNameExpected a.render)
  /-- A label declaration for a name that is taken from the start. -/
  | labelTaken (name : String) :
      st.name = labelDirectiveName → st.arguments = [.text name] → name ∈ predeclaredNames →
      IllTyped scope st (.predeclared name)

/-! ## Reading the rules from the left -/

/-- The first argument decides, unless it suits. -/
theorem misfits_cons_iff {scope : List String} {p : Parameter} {ps : List Parameter}
    {a : Argument} {args : List Argument} {f : Fault} :
    Misfits scope (p :: ps) (a :: args) f ↔
      (¬ Suits scope p a ∧ f = complaint scope p a) ∨
        (Suits scope p a ∧ Misfits scope ps args f) := by
  constructor
  · intro h
    -- Both lists are named first: as indices they do not match `before ++ a :: after`.
    generalize hps : p :: ps = qs at h
    generalize hargs : a :: args = bs at h
    obtain ⟨hbefore, hmisfit⟩ := h
    -- Is there a suitable argument in front of the leftmost misfit?
    cases hbefore with
    | nil =>
      cases hps
      cases hargs
      exact .inl ⟨hmisfit, rfl⟩
    | cons hfirst hrest =>
      cases hps
      cases hargs
      exact .inr ⟨hfirst, .leftmost hrest hmisfit⟩
  · rintro (⟨hmisfit, rfl⟩ | ⟨hfirst, hrest⟩)
    · exact @Misfits.leftmost scope [] ps p [] args a .nil hmisfit
    · obtain ⟨hbefore, hmisfit⟩ := hrest
      exact @Misfits.leftmost scope (p :: _) _ _ (a :: _) _ _ (.cons hfirst hbefore) hmisfit

theorem not_misfits_nil {scope : List String} {args : List Argument} {f : Fault} :
    ¬ Misfits scope [] args f := by
  intro h
  generalize hps : ([] : List Parameter) = ps at h
  obtain ⟨_, _⟩ := h
  simp at hps

end Typing

open Typing

/-! ## Names -/

namespace Symbols

variable {t : Symbols}

theorem exists_address?_iff {name : String} :
    (∃ n, t.address? name = some n) ↔ name ∈ t.scope := by
  rw [← Option.isSome_iff_exists, address?, Option.isSome_map, List.find?_isSome, scope,
    List.mem_map]
  simp only [beq_iff_eq]

theorem meaning?_eq_none_iff {name : String} :
    t.meaning? name = none ↔ ¬ Declared t.scope name := by
  unfold Declared
  rw [not_or, ← predeclared?_eq_none_iff, ← exists_address?_iff, meaning?]
  cases hname : predeclared? name with
  | some m => simp
  | none => cases t.address? name <;> simp

theorem exists_meaning?_address_iff {name : String} :
    (∃ n, t.meaning? name = some (.address n)) ↔ IsLabel t.scope name := by
  simp only [meaning?_eq_address_iff, exists_and_left, exists_address?_iff,
    predeclared?_eq_none_iff]
  rfl

theorem exists_meaning?_register_iff {name : String} :
    (∃ r, t.meaning? name = some (.register r)) ↔ name ∈ Register.names := by
  simp only [meaning?_eq_register_iff, Register.exists_ofName?_iff]

theorem declared_of_meaning? {name : String} {m : Meaning} (h : t.meaning? name = some m) :
    Declared t.scope name := by
  by_contra hname
  rw [meaning?_eq_none_iff.2 hname] at h
  cases h

/-! ## Single arguments -/

theorem exists_register_iff {a : Argument} :
    (∃ r, t.register a = .ok r) ↔ Suits t.scope .register a := by
  simp only [register_eq_ok_iff]
  constructor
  · rintro ⟨r, name, rfl, hr⟩
    exact .register (Register.exists_ofName?_iff.1 ⟨r, hr⟩)
  · intro h
    cases h with
    | register hname =>
      obtain ⟨r, hr⟩ := Register.exists_ofName?_iff.2 hname
      exact ⟨r, _, rfl, hr⟩
    | literal hp => exact absurd rfl hp
    | label hp _ => exact absurd rfl hp

theorem exists_integer_iff {p : Parameter} (hp : p ≠ .register) {a : Argument} :
    (∃ n, t.integer a = .ok n) ↔ Suits t.scope p a := by
  simp only [integer_eq_ok_iff]
  constructor
  · rintro ⟨n, rfl | ⟨name, rfl, hfree, hn⟩⟩
    · exact .literal hp
    · exact .label hp ⟨predeclared?_eq_none_iff.1 hfree, exists_address?_iff.1 ⟨n, hn⟩⟩
  · intro h
    cases h with
    | register _ => exact absurd rfl hp
    | literal _ => exact ⟨_, .inl rfl⟩
    | label _ hname =>
      obtain ⟨n, hn⟩ := exists_address?_iff.2 hname.2
      exact ⟨n, .inr ⟨_, rfl, predeclared?_eq_none_iff.2 hname.1, hn⟩⟩

theorem register_fault {a : Argument} {f : Fault} (h : t.register a = .error f) :
    f = complaint t.scope .register a := by
  cases a with
  | number n =>
    cases h
    rfl
  | text s =>
    cases h
    rfl
  | name s =>
    simp only [register] at h
    split at h
    · cases h
    · next hm =>
      cases h
      exact (if_pos (declared_of_meaning? hm)).symm
    · next hm =>
      cases h
      exact (if_neg (meaning?_eq_none_iff.1 hm)).symm

theorem integer_fault {p : Parameter} (hp : p ≠ .register) {a : Argument} {f : Fault}
    (h : t.integer a = .error f) : f = complaint t.scope p a := by
  have hexpected : p.expected = Fault.integerExpected := by
    cases p with
    | register => exact absurd rfl hp
    | immediate => rfl
    | address => rfl
  cases a with
  | number n => cases h
  | text s =>
    cases h
    rw [← hexpected]
    rfl
  | name s =>
    simp only [integer] at h
    rw [← hexpected] at h
    split at h
    · cases h
    · next hm =>
      cases h
      exact (if_pos (declared_of_meaning? hm)).symm
    · next hm =>
      cases h
      exact (if_neg (meaning?_eq_none_iff.1 hm)).symm

theorem map_eq_error_iff {α β : Type} {r : Except Fault α} {g : α → β} {f : Fault} :
    r.map g = .error f ↔ r = .error f := by
  cases r <;> simp [Except.map]

theorem operand_of_integer {p : Parameter} (hp : p ≠ .register) (a : Argument) :
    t.operand p a = (t.integer a).map .integer := by
  cases p with
  | register => exact absurd rfl hp
  | immediate => rfl
  | address => rfl

/-- An argument is taken exactly if it suits, whatever kind of operand its
    parameter asks for. -/
theorem exists_operand_iff {p : Parameter} {a : Argument} :
    (∃ o, t.operand p a = .ok o) ↔ Suits t.scope p a := by
  by_cases hp : p = .register
  · subst hp
    rw [← exists_register_iff, operand]
    cases t.register a <;> simp [Except.map]
  · rw [← exists_integer_iff hp, operand_of_integer hp]
    cases t.integer a <;> simp [Except.map]

theorem operand_fault {p : Parameter} {a : Argument} {f : Fault}
    (h : t.operand p a = .error f) : f = complaint t.scope p a := by
  by_cases hp : p = .register
  · subst hp
    exact register_fault (map_eq_error_iff.1 h)
  · rw [operand_of_integer hp] at h
    exact integer_fault hp (map_eq_error_iff.1 h)

theorem operand_eq_error_iff {p : Parameter} {a : Argument} {f : Fault} :
    t.operand p a = .error f ↔ ¬ Suits t.scope p a ∧ f = complaint t.scope p a := by
  rw [← exists_operand_iff]
  constructor
  · intro h
    refine ⟨?_, operand_fault h⟩
    rintro ⟨o, ho⟩
    rw [h] at ho
    cases ho
  · rintro ⟨hnone, rfl⟩
    cases h : t.operand p a with
    | ok o => exact absurd ⟨o, h⟩ hnone
    | error g => rw [operand_fault h]

/-! ## Argument lists -/

theorem exists_operands_iff {ps : List Parameter} {args : List Argument}
    (hlen : args.length = ps.length) :
    (∃ os, t.operands ps args = .ok os) ↔ List.Forall₂ (Suits t.scope) ps args := by
  induction ps generalizing args with
  | nil =>
    obtain rfl := List.eq_nil_of_length_eq_zero hlen
    exact ⟨fun _ => .nil, fun _ => ⟨[], rfl⟩⟩
  | cons p ps ih =>
    match args, hlen with
    | a :: args, hlen =>
      have hrest := ih (Nat.succ.inj hlen)
      rw [List.forall₂_cons, ← hrest, ← exists_operand_iff]
      simp only [operands_cons_eq_ok_iff]
      constructor
      · rintro ⟨_, o, os, ho, hos, rfl⟩
        exact ⟨⟨o, ho⟩, os, hos⟩
      · rintro ⟨⟨o, ho⟩, os, hos⟩
        exact ⟨_, o, os, ho, hos, rfl⟩

theorem operands_eq_error_iff {ps : List Parameter} {args : List Argument} {f : Fault}
    (hlen : args.length = ps.length) :
    t.operands ps args = .error f ↔ Misfits t.scope ps args f := by
  induction ps generalizing args with
  | nil =>
    obtain rfl := List.eq_nil_of_length_eq_zero hlen
    constructor
    · intro h
      cases h
    · intro h
      exact absurd h not_misfits_nil
  | cons p ps ih =>
    match args, hlen with
    | a :: args, hlen =>
      have hrest := ih (Nat.succ.inj hlen)
      rw [misfits_cons_iff, ← hrest, ← operand_eq_error_iff, ← exists_operand_iff, operands]
      cases t.operand p a with
      | error g => simp
      | ok o => simp [map_eq_error_iff]

/-- A mnemonic's arguments give an instruction exactly if there is one for
    each parameter and all of them suit. -/
theorem exists_built_iff {m : Mnemonic} {args : List Argument} :
    (∃ i lost, t.Built m args i lost) ↔ List.Forall₂ (Suits t.scope) m.parameters args := by
  constructor
  · rintro ⟨i, lost, hbuilt⟩
    obtain ⟨hlen, os, hos, _⟩ := instruction_eq_ok_iff_stages.1 hbuilt.instruction
    exact (exists_operands_iff hlen).1 ⟨os, hos⟩
  · intro hsuits
    have hlen : args.length = m.parameters.length := hsuits.length_eq.symm
    obtain ⟨os, hos⟩ := (exists_operands_iff hlen).2 hsuits
    obtain ⟨i, lost, _, hbuilt⟩ := exists_built hlen hos
    exact ⟨i, lost, hbuilt⟩

end Symbols

/-! ## Statements -/

/-- Every statement is well-typed or ill-typed. -/
theorem Typing.wellTyped_or_illTyped (t : Symbols) (st : Statement) :
    WellTyped t.scope st ∨ ∃ f, IllTyped t.scope st f := by
  -- What the name means comes first, then the number of arguments, then they themselves.
  cases hm : t.meaning? st.name with
  | none => exact .inr ⟨_, .undefined (Symbols.meaning?_eq_none_iff.1 hm)⟩
  | some m =>
    cases m with
    | register r =>
      exact .inr ⟨_, .notCallable (.inl (Symbols.exists_meaning?_register_iff.1 ⟨r, hm⟩))⟩
    | address n =>
      exact .inr ⟨_, .notCallable (.inr (Symbols.exists_meaning?_address_iff.1 ⟨n, hm⟩))⟩
    | operation m =>
      have hname := Symbols.meaning?_eq_operation_iff.1 hm
      by_cases hlen : st.arguments.length = m.parameters.length
      · cases hos : t.operands m.parameters st.arguments with
        | ok os => exact .inl (.operation m hname ((Symbols.exists_operands_iff hlen).1 ⟨os, hos⟩))
        | error f =>
          exact .inr ⟨f, .operand m hname hlen ((Symbols.operands_eq_error_iff hlen).1 hos)⟩
      · exact .inr ⟨_, .operationCount m hname hlen⟩
    | labelDirective =>
      have hname := Symbols.meaning?_eq_labelDirective_iff.1 hm
      by_cases hlen : st.arguments.length = 1
      · obtain ⟨a, hargs⟩ := List.length_eq_one_iff.1 hlen
        by_cases htext : ∃ name, a = .text name
        · obtain ⟨name, rfl⟩ := htext
          by_cases htaken : name ∈ predeclaredNames
          · exact .inr ⟨_, .labelTaken name hname hargs htaken⟩
          · exact .inl (.label name hname hargs htaken)
        · rw [not_exists] at htext
          exact .inr ⟨_, .labelText a hname hargs htext⟩
      · exact .inr ⟨_, .labelCount hname hlen⟩

namespace Assembler

variable {s s' : Assembly} {st : Statement}

theorem execute_eq_ok_iff_wellTyped :
    (∃ s', execute st s = .ok () s') ↔ WellTyped s.symbols.scope st := by
  simp only [execute_eq_ok_iff]
  constructor
  · rintro ⟨s', hstep⟩
    cases hstep with
    | operation hbuilt => exact .operation _ rfl (Symbols.exists_built_iff.1 ⟨_, _, hbuilt⟩)
    | label hfree => exact .label _ rfl rfl (predeclared?_eq_none_iff.1 hfree)
  · intro h
    obtain ⟨pos, name, args⟩ := st
    cases h with
    | operation m hname hsuits =>
      obtain ⟨i, lost, hbuilt⟩ := Symbols.exists_built_iff.2 hsuits
      cases hname
      exact ⟨_, .operation hbuilt⟩
    | label label hname hargs hfree =>
      cases hname
      cases hargs
      exact ⟨_, .label (predeclared?_eq_none_iff.2 hfree)⟩

theorem place_of_fault {pos : Position} {m : Mnemonic} {args : List Argument} {f : Fault}
    (h : s.symbols.instruction m args = .error f) : place pos m args s = .error ⟨pos, f⟩ s := by
  simp only [place, h]

theorem define_of_taken {pos : Position} {name : String} (h : name ∈ predeclaredNames) :
    define pos name s = .error ⟨pos, .predeclared name⟩ s := by
  simp only [define, Symbols.define_of_taken h]

theorem executeLabel_of_count {pos : Position} {args : List Argument} (h : args.length ≠ 1) :
    executeLabel pos args s =
      .error ⟨pos, .argumentCount labelDirectiveName 1 args.length⟩ s := by
  match args, h with
  | [], _ => rfl
  | [_], h => exact absurd rfl h
  | .number _ :: _ :: _, _ => rfl
  | .name _ :: _ :: _, _ => rfl
  | .text _ :: _ :: _, _ => rfl

theorem executeLabel_of_other {pos : Position} {a : Argument} (h : ∀ name, a ≠ .text name) :
    executeLabel pos [a] s = .error ⟨pos, .labelNameExpected a.render⟩ s := by
  cases a with
  | text name => exact absurd rfl (h name)
  | number n => rfl
  | name x => rfl

theorem executeLabel_of_taken {pos : Position} {name : String} (h : name ∈ predeclaredNames) :
    executeLabel pos [.text name] s = .error ⟨pos, .predeclared name⟩ s := by
  show (discard (define pos name) : Assembler Unit) s = _
  rw [discard_apply, define_of_taken h]

/-- An ill-typed statement fails, for the reason that the rules give. -/
theorem execute_of_illTyped {f : Fault} (h : IllTyped s.symbols.scope st f) :
    execute st s = .error ⟨st.position, f⟩ s := by
  cases h with
  | undefined hname =>
    have hm := Symbols.meaning?_eq_none_iff.2 hname
    simp only [execute, hm]
  | notCallable hname =>
    rcases hname with hregister | hlabel
    · obtain ⟨r, hr⟩ := (@Symbols.exists_meaning?_register_iff s.symbols _).2 hregister
      simp only [execute, hr]
    · obtain ⟨n, hn⟩ := Symbols.exists_meaning?_address_iff.2 hlabel
      simp only [execute, hn]
  | operationCount m hname hlen =>
    have hfault : s.symbols.instruction m st.arguments = .error (.argumentCount ..) :=
      Symbols.instruction_eq_error_iff.2 (.inl ⟨hlen, rfl⟩)
    rw [execute_operation hname, discard_apply, place_of_fault hfault]
  | operand m hname hlen hmisfits =>
    have hoperands := (Symbols.operands_eq_error_iff hlen).2 hmisfits
    have hfault := Symbols.instruction_eq_error_iff.2 (.inr ⟨hlen, hoperands⟩)
    rw [execute_operation hname, discard_apply, place_of_fault hfault]
  | labelCount hname hlen =>
    rw [execute_labelDirective hname, executeLabel_of_count hlen]
  | labelText a hname hargs htext =>
    rw [execute_labelDirective hname, hargs, executeLabel_of_other htext]
  | labelTaken name hname hargs htaken =>
    rw [execute_labelDirective hname, hargs, executeLabel_of_taken htaken]

/-- A statement that fails is ill-typed, for the reason it fails with. -/
theorem illTyped_of_execute {f : SourceFault} (h : execute st s = .error f s') :
    IllTyped s.symbols.scope st f.fault := by
  -- Some reason there is, and execution fails with no other.
  rcases wellTyped_or_illTyped s.symbols st with hwell | ⟨g, hill⟩
  · obtain ⟨s₁, hok⟩ := execute_eq_ok_iff_wellTyped.2 hwell
    rw [h] at hok
    cases hok
  · have herror := execute_of_illTyped hill
    rw [h] at herror
    cases herror
    exact hill

/-- A statement is accepted exactly if its name is a mnemonic that gets an
    argument for each parameter, registers for registers, literals or bound
    labels for integers, or if it declares a label under a name that is not
    taken from the start.  Any other statement is refused at its own position,
    without any change, with the fault that its name decides, then the number
    of its arguments, then the leftmost argument that does not suit. -/
theorem execute_follows_typing (s : Assembly) (st : Statement) :
    ((∃ s', execute st s = .ok () s') ↔ WellTyped s.symbols.scope st) ∧
      ∀ (f : SourceFault) (s' : Assembly), execute st s = .error f s' ↔
        IllTyped s.symbols.scope st f.fault ∧ f.position = st.position ∧ s' = s := by
  refine ⟨execute_eq_ok_iff_wellTyped, fun f s' => ⟨fun h => ?_, ?_⟩⟩
  · obtain ⟨hstate, hpos⟩ := execute_error h
    exact ⟨illTyped_of_execute h, hpos, hstate⟩
  · rintro ⟨hill, hpos, rfl⟩
    rw [execute_of_illTyped hill, ← hpos]

/-- Two arguments do not suit, and the left one is reported. -/
example : execute ⟨⟨"t.s", 1⟩, "add", [.name "r1", .name "nowhere", .number 3]⟩ {} =
    .error ⟨⟨"t.s", 1⟩, .undefined "nowhere"⟩ {} := rfl

end Assembler

end OnePass
