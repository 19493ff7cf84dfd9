import Mathlib.Logic.Equiv.Basic
import OnePass.Proofs.Lockstep
import OnePass.Proofs.Warnings

/-! # Labels may be renamed

    Names that are not taken from the start mean nothing of their own: they
    are only ever compared.  So a renaming that keeps different names
    different changes what is quoted in a fault and how the labels are
    spelled, and nothing else.

    This is a simulation between two runs.  The second starts from the renamed
    assembly and executes the renamed statements.

    * `Renaming` : the maps in question.
    * `Renamed` : how the two assemblies correspond.
    * `Symbols.instruction_rename` : both look-ups answer alike.
    * `Assembler.execute_rename`, `Assembler.executeAll_alike` : one statement,
      and a run.
    * `Assembler.executeAll_rename` : both runs succeed, or both fail at the
      same statement. -/

namespace OnePass

/-! ## Renamings -/

/-- A map on names that keeps different names different and leaves alone those
    that are taken from the start. -/
structure Renaming where
  map : String → String
  injective : Function.Injective map
  fixes : ∀ name ∈ predeclaredNames, map name = name

instance : CoeFun Renaming fun _ => String → String :=
  ⟨Renaming.map⟩

def Argument.rename (f : Renaming) : Argument → Argument
  | number n => number n
  | name s   => name (f s)
  | text s   => text (f s)

def Statement.rename (f : Renaming) (st : Statement) : Statement :=
  ⟨st.position, f st.name, st.arguments.map (·.rename f)⟩

def Label.rename (f : Renaming) (l : Label) : Label :=
  { l with name := f l.name }

def Symbols.rename (f : Renaming) (t : Symbols) : Symbols :=
  ⟨t.labels.map (Label.rename f)⟩

variable (f : Renaming)

/-- A name is taken from the start if and only if its new name is, and then
    they are the same. -/
theorem predeclared?_rename (name : String) : predeclared? (f name) = predeclared? name := by
  by_cases hname : name ∈ predeclaredNames
  · rw [f.fixes name hname]
  · have hnew : f name ∉ predeclaredNames := by
      intro hmem
      have hsame : f name = name := f.injective (f.fixes (f name) hmem)
      rw [hsame] at hmem
      exact hname hmem
    rw [predeclared?_eq_none_iff.2 hname, predeclared?_eq_none_iff.2 hnew]

/-! ## Symbols -/

namespace Symbols

variable (t : Symbols)

theorem beq_rename (l : Label) (name : String) :
    ((l.rename f).name == f name) = (l.name == name) := by
  rw [Bool.eq_iff_iff, beq_iff_eq, beq_iff_eq]
  exact f.injective.eq_iff

theorem address?_rename (name : String) : (t.rename f).address? (f name) = t.address? name :=
  address?_map (fun l => beq_rename f l name) t

theorem meaning?_rename (name : String) : (t.rename f).meaning? (f name) = t.meaning? name := by
  unfold meaning?
  rw [predeclared?_rename, address?_rename]

/-- Binding the new name is binding the old one and renaming. -/
theorem bind_rename (name : String) (n : Nat) :
    (t.rename f).bind (f name) n = (t.bind name n).rename f :=
  bind_map (fun l => beq_rename f l name) t (fun _ => rfl) rfl

end Symbols

/-! ## Arguments -/

/-- Two answers that are equal, or faults of one variant. -/
inductive SameAnswer {α : Type} : Except Fault α → Except Fault α → Prop
  | ok (a : α) : SameAnswer (.ok a) (.ok a)
  | error {f g : Fault} : f.SameVariant g → SameAnswer (.error f) (.error g)

theorem SameAnswer.map {α β : Type} {r r' : Except Fault α} (h : SameAnswer r r') (g : α → β) :
    SameAnswer (r.map g) (r'.map g) := by
  cases h with
  | ok a => exact .ok (g a)
  | error hf => exact .error hf

namespace Symbols

variable (t : Symbols)

theorem register_rename (a : Argument) :
    SameAnswer (t.register a) ((t.rename f).register (a.rename f)) := by
  cases a with
  | number n => exact .error rfl
  | text s => exact .error rfl
  | name s =>
    simp only [register, Argument.rename, meaning?_rename]
    cases t.meaning? s with
    | none => exact .error rfl
    | some m =>
      cases m with
      | register r => exact .ok r
      | _ => exact .error rfl

theorem integer_rename (a : Argument) :
    SameAnswer (t.integer a) ((t.rename f).integer (a.rename f)) := by
  cases a with
  | number n => exact .ok n
  | text s => exact .error rfl
  | name s =>
    simp only [integer, Argument.rename, meaning?_rename]
    cases t.meaning? s with
    | none => exact .error rfl
    | some m =>
      cases m with
      | address n => exact .ok n
      | _ => exact .error rfl

theorem operand_rename (p : Parameter) (a : Argument) :
    SameAnswer (t.operand p a) ((t.rename f).operand p (a.rename f)) := by
  cases p with
  | register => exact (t.register_rename f a).map _
  | immediate => exact (t.integer_rename f a).map _
  | address => exact (t.integer_rename f a).map _

theorem operands_rename (ps : List Parameter) (args : List Argument) :
    SameAnswer (t.operands ps args) ((t.rename f).operands ps (args.map (·.rename f))) := by
  induction ps generalizing args with
  | nil => exact .ok []
  | cons p ps ih =>
    cases args with
    | nil => exact .ok []
    | cons a args =>
      -- The leftmost fault decides on both sides.
      have hfirst := t.operand_rename f p a
      simp only [operands, List.map_cons]
      generalize t.operand p a = r at hfirst
      generalize (t.rename f).operand p (a.rename f) = r' at hfirst
      cases hfirst with
      | ok o => exact (ih args).map _
      | error hf => exact .error hf

/-- Arguments and renamed arguments give the same instruction, or are refused
    for the same reason. -/
theorem instruction_rename (m : Mnemonic) (args : List Argument) :
    SameAnswer (t.instruction m args) ((t.rename f).instruction m (args.map (·.rename f))) := by
  unfold instruction
  rw [List.length_map]
  by_cases hlength : args.length ≠ m.parameters.length
  · rw [if_pos hlength, if_pos hlength]
    exact .error rfl
  · rw [if_neg hlength, if_neg hlength]
    have hoperands := t.operands_rename f m.parameters args
    generalize t.operands m.parameters args = r at hoperands
    generalize (t.rename f).operands m.parameters (args.map (·.rename f)) = r' at hoperands
    cases hoperands with
    | error hf => exact .error hf
    | ok os =>
      dsimp only
      cases Instruction.build m os with
      | none => exact .error rfl
      | some built => exact .ok built

end Symbols

/-! ## Assemblies -/

/-- `s'` is `s` with its labels renamed.  The logs of the two may differ. -/
structure Renamed (f : Renaming) (s s' : Assembly) : Prop where
  image_eq : s'.image = s.image
  symbols_eq : s'.symbols = s.symbols.rename f
  diagnostics_eq : s'.journal.diagnostics = s.journal.diagnostics

theorem renamed_start : Renamed f {} {} :=
  ⟨rfl, rfl, rfl⟩

variable {f} {s s' : Assembly}

theorem Renamed.withInstruction (h : Renamed f s s') (pos : Position) (i : Instruction)
    (lost : Option Overflow) :
    Renamed f (s.withInstruction pos i lost) (s'.withInstruction pos i lost) := by
  refine ⟨?_, h.symbols_eq, ?_⟩
  · show s'.image.push ⟨pos, i⟩ = s.image.push ⟨pos, i⟩
    rw [h.image_eq]
  · rw [Assembly.diagnostics_withInstruction, Assembly.diagnostics_withInstruction,
      h.diagnostics_eq]

theorem Renamed.withLabel (h : Renamed f s s') (pos : Position) (name name' : String)
    (before before' : Option Nat) (t : Symbols) :
    Renamed f (s.withLabel pos name before t) (s'.withLabel pos name' before' (t.rename f)) := by
  refine ⟨h.image_eq, rfl, ?_⟩
  show (s'.journal.log _).diagnostics = (s.journal.log _).diagnostics
  rw [Journal.diagnostics_log, Journal.diagnostics_log, h.diagnostics_eq]

namespace Assembler

/-- Two computations that end alike: both succeed, or both fail at the same
    position for reasons of one variant. -/
inductive EndAlike {α : Type} (f : Renaming) :
    EStateM.Result SourceFault Assembly α → EStateM.Result SourceFault Assembly α → Prop
  | ok {a : α} {s s' : Assembly} : Renamed f s s' → EndAlike f (.ok a s) (.ok a s')
  | error {e e' : SourceFault} {s s' : Assembly} :
      e.position = e'.position → e.fault.SameVariant e'.fault → Renamed f s s' →
      EndAlike f (.error e s) (.error e' s')

theorem EndAlike.discard {α : Type} {x x' : Assembler α} (h : EndAlike f (x s) (x' s')) :
    EndAlike f ((discard x : Assembler Unit) s) ((discard x' : Assembler Unit) s') := by
  rw [discard_apply, discard_apply]
  generalize x s = r at h
  generalize x' s' = r' at h
  cases h with
  | ok hs => exact .ok hs
  | error hpos hfault hs => exact .error hpos hfault hs

theorem place_rename (h : Renamed f s s') (pos : Position) (m : Mnemonic)
    (args : List Argument) :
    EndAlike f (place pos m args s) (place pos m (args.map (·.rename f)) s') := by
  have hanswer := s.symbols.instruction_rename f m args
  have hhere : s'.image.here = s.image.here := by rw [h.image_eq]
  unfold place
  rw [h.symbols_eq]
  generalize s.symbols.instruction m args = r at hanswer
  generalize (s.symbols.rename f).instruction m (args.map (·.rename f)) = r' at hanswer
  cases hanswer with
  | error hf => exact .error rfl hf h
  | ok built =>
    obtain ⟨i, lost⟩ := built
    dsimp only
    rw [hhere]
    exact .ok (h.withInstruction pos i lost)

theorem define_rename (h : Renamed f s s') (pos : Position) (name : String) :
    EndAlike f (define pos name s) (define pos (f name) s') := by
  have hhere : s'.image.here = s.image.here := by rw [h.image_eq]
  unfold define Symbols.define
  rw [predeclared?_rename]
  cases predeclared? name with
  | some m => exact .error rfl rfl h
  | none =>
    dsimp only
    rw [h.symbols_eq, hhere, Symbols.bind_rename]
    exact .ok (h.withLabel pos name (f name) _ _ _)

theorem executeLabel_rename (h : Renamed f s s') (pos : Position) (args : List Argument) :
    EndAlike f (executeLabel pos args s) (executeLabel pos (args.map (·.rename f)) s') := by
  match args with
  | [] => exact .error rfl rfl h
  | [.text name] => exact (define_rename h pos name).discard
  | [.name _] => exact .error rfl rfl h
  | [.number _] => exact .error rfl rfl h
  | first :: _ :: _ =>
    cases first with
    | _ => exact .error rfl rfl h

/-- The step of the simulation. -/
theorem execute_rename (h : Renamed f s s') (st : Statement) :
    EndAlike f (execute st s) (execute (st.rename f) s') := by
  have hmeaning : s'.symbols.meaning? (st.rename f).name = s.symbols.meaning? st.name := by
    rw [h.symbols_eq]
    exact s.symbols.meaning?_rename f st.name
  unfold execute
  rw [hmeaning]
  cases s.symbols.meaning? st.name with
  | none => exact .error rfl rfl h
  | some m =>
    cases m with
    | operation m => exact (place_rename h st.position m st.arguments).discard
    | labelDirective => exact executeLabel_rename h st.position st.arguments
    | register r => exact .error rfl rfl h
    | address n => exact .error rfl rfl h

theorem lockstep_rename {st st' : Statement} (hst : st' = st.rename f) (h : Renamed f s s') :
    Lockstep SourceFault.Alike (Renamed f) st st' s s' := by
  subst hst
  have hends := execute_rename h st
  cases hone : execute st s with
  | ok u t =>
    rw [hone] at hends
    generalize hone' : execute (st.rename f) s' = r at hends
    cases hends with
    | ok ht => exact .ok (execute_eq_ok_iff.1 hone) (execute_eq_ok_iff.1 hone') ht
  | error e t =>
    rw [hone] at hends
    generalize hone' : execute (st.rename f) s' = r at hends
    cases hends with
    | error hpos hvariant _ =>
      -- A statement that fails leaves its assembly alone.
      obtain ⟨rfl, _⟩ := execute_error hone
      obtain ⟨rfl, _⟩ := execute_error hone'
      exact .error hone hone' ⟨hpos, hvariant⟩

/-! ## Runs -/

/-- The simulation: renamed statements do from a renamed assembly what the
    statements do, and if they fail, they get equally far. -/
theorem executeAll_alike (h : Renamed f s s') (ss : List Statement) :
    (∃ s₁ s₁', executeAll ss s = .ok () s₁ ∧ executeAll (ss.map (·.rename f)) s' = .ok () s₁' ∧
      Renamed f s₁ s₁') ∨
    ∃ k e e' s₁ s₁', BreaksOff ss s k e s₁ ∧ BreaksOff (ss.map (·.rename f)) s' k e' s₁' ∧
      e.position = e'.position ∧ e.fault.SameVariant e'.fault ∧ Renamed f s₁ s₁' := by
  have hss : List.Forall₂ (fun st st' => st' = st.rename f) ss (ss.map (·.rename f)) := by
    rw [List.forall₂_map_right_iff, List.forall₂_same]
    intro st _
    rfl
  have hrun := @executeAll_lockstep _ SourceFault.Alike (fun _ => Renamed f) lockstep_rename
    [] _ _ _ _ hss h
  rcases hrun with hok | ⟨k, e, e', s₁, s₁', hb, hb', ⟨hpos, hvariant⟩, hs⟩
  · exact .inl hok
  · exact .inr ⟨k, e, e', s₁, s₁', hb, hb', hpos, hvariant, hs⟩

/-- Rename the labels of a statement list.  Either both lists run through, to
    the same image and the same diagnostics; or both fail at the same
    statement, with the same position and for a reason of the same variant,
    and have the same image and diagnostics up to there.  In both cases the
    labels of the second are those of the first under their new names, in the
    same order and with the same addresses. -/
theorem executeAll_rename (f : Renaming) (ss : List Statement) :
    (∃ s s', executeAll ss {} = .ok () s ∧ executeAll (ss.map (·.rename f)) {} = .ok () s' ∧
      Renamed f s s') ∨
    ∃ k e e' s s', executeAll ss {} = .error e s ∧
      executeAll (ss.map (·.rename f)) {} = .error e' s' ∧
      BreaksOff ss {} k e s ∧ BreaksOff (ss.map (·.rename f)) {} k e' s' ∧
      e.position = e'.position ∧ e.fault.SameVariant e'.fault ∧ Renamed f s s' := by
  rcases executeAll_alike (renamed_start f) ss with hok | ⟨k, e, e', s, s', hb, hb', hrest⟩
  · exact .inl hok
  · refine .inr ⟨k, e, e', s, s', ?_, ?_, hb, hb', hrest⟩
    · exact executeAll_eq_error_iff.2 ⟨k, hb⟩
    · exact executeAll_eq_error_iff.2 ⟨k, hb'⟩

/-- The renaming that exchanges `top` and `end`. -/
def exchange : Renaming where
  map := Equiv.swap "top" "end"
  injective := (Equiv.swap "top" "end").injective
  fixes := by decide

/-- A program that runs through, and one that breaks off at a label which is
    declared under neither name. -/
theorem executeAll_rename_exchanged :
    let ss : List Statement :=
      [⟨⟨"t.s", 1⟩, "label", [.text "top"]⟩,
       ⟨⟨"t.s", 2⟩, "lri", [.name "r1", .number 300]⟩,
       ⟨⟨"t.s", 3⟩, "label", [.text "end"]⟩,
       ⟨⟨"t.s", 4⟩, "jmp", [.name "end"]⟩]
    let broken : List Statement :=
      [⟨⟨"t.s", 1⟩, "label", [.text "top"]⟩,
       ⟨⟨"t.s", 2⟩, "jmp", [.name "end"]⟩]
    (∃ s s', executeAll ss {} = .ok () s ∧
      executeAll (ss.map (·.rename exchange)) {} = .ok () s' ∧
      s'.image = s.image ∧ s'.symbols.labels = [⟨"end", 0⟩, ⟨"top", 1⟩]) ∧
    ∃ e' s', executeAll (broken.map (·.rename exchange)) {} = .error e' s' ∧
      e'.position = ⟨"t.s", 2⟩ ∧ s'.symbols.labels = [⟨"end", 0⟩] := by
  intro ss broken
  constructor
  · rcases executeAll_rename exchange ss with ⟨s, s', hrun, hrun', hs⟩ | ⟨_, _, _, _, _, herror, _⟩
    · refine ⟨s, s', hrun, hrun', hs.image_eq, ?_⟩
      rw [hs.symbols_eq]
      cases hrun
      decide
    · cases herror
  · rcases executeAll_rename exchange broken with
      ⟨_, _, hrun, _⟩ | ⟨k, e, e', s, s', herror, herror', _, _, hpos, _, hs⟩
    · cases hrun
    · refine ⟨e', s', herror', ?_, ?_⟩
      · rw [← hpos]
        cases herror
        rfl
      · rw [hs.symbols_eq]
        cases herror
        decide

end Assembler

end OnePass
