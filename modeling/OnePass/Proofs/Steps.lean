import OnePass.Assembly.Execution
import OnePass.Proofs.Resolution

/-! # Steps and runs

    What one statement can do to an assembly, said once.

    * `Executes` : the two ways in which a statement succeeds.
    * `execute_eq_ok_iff` : execution succeeds in these ways and no other.
    * `execute_error` : a statement that fails changes nothing, and its own
      line is blamed.
    * `executeAll_append` : a run goes on from where the one before it ended.
    * `executeAll_invariant` : what every successful step preserves holds
      after a run.
    * `executeAll_eq_error_iff` : a run that fails stops at one statement, in
      the state that those before it lead to (`BreaksOff`).
    * `assemble_eq_ok_iff`, `assemble_eq_error_iff` : a source text is read
      first, then run. -/

namespace OnePass

namespace Assembler

/-! ## Computations applied to a state -/

theorem discard_apply {α : Type} (x : Assembler α) (s : Assembly) :
    (discard x : Assembler Unit) s = match x s with
      | .ok _ s'    => .ok () s'
      | .error f s' => .error f s' := by
  show EStateM.map _ x s = _
  unfold EStateM.map
  cases x s <;> rfl

theorem executeAll_cons (st : Statement) (ss : List Statement) (s : Assembly) :
    executeAll (st :: ss) s = match execute st s with
      | .ok _ s'    => executeAll ss s'
      | .error f s' => .error f s' := by
  show EStateM.bind (execute st) (fun _ => executeAll ss) s = _
  unfold EStateM.bind
  cases execute st s <;> rfl

/-- The value of a computation that succeeded. -/
def value? {α : Type} : EStateM.Result SourceFault Assembly α → Option α
  | .ok a _    => some a
  | .error _ _ => none

/-- A long run is computed up to its value, which says that it succeeds. -/
theorem exists_of_value? {α : Type} {r : EStateM.Result SourceFault Assembly α} {a : α}
    (h : value? r = some a) : ∃ s, r = .ok a s := by
  cases r with
  | error f s => cases h
  | ok b s =>
    cases h
    exact ⟨s, rfl⟩

/-! ## One operation -/

variable {pos : Position} {s s' : Assembly}

/-- An instruction is placed exactly if its arguments give one. -/
theorem place_eq_ok_iff {m : Mnemonic} {args : List Argument} {address : Nat} :
    place pos m args s = .ok address s' ↔
      address = s.image.here ∧
        ∃ i lost, s.symbols.Built m args i lost ∧ s' = s.withInstruction pos i lost := by
  simp only [← Symbols.instruction_eq_ok_iff]
  unfold place
  cases h : s.symbols.instruction m args with
  | error f => simp
  | ok built =>
    obtain ⟨i, lost⟩ := built
    constructor
    · intro hok
      cases hok
      exact ⟨rfl, i, lost, rfl, rfl⟩
    · rintro ⟨rfl, _, _, hbuilt, rfl⟩
      cases hbuilt
      rfl

theorem place_error {m : Mnemonic} {args : List Argument} {f : SourceFault}
    (h : place pos m args s = .error f s') : s' = s ∧ f.position = pos := by
  unfold place at h
  split at h
  · cases h
    exact ⟨rfl, rfl⟩
  · cases h

/-- A label is bound exactly if its name is not taken from the start. -/
theorem define_eq_ok_iff {name : String} {address : Nat} :
    define pos name s = .ok address s' ↔
      address = s.image.here ∧ predeclared? name = none ∧
        s' = s.withLabel pos name (s.symbols.address? name)
          (s.symbols.bind name s.image.here) := by
  unfold define Symbols.define
  cases predeclared? name with
  | some m => simp
  | none =>
    constructor
    · intro hok
      cases hok
      exact ⟨rfl, rfl, rfl⟩
    · rintro ⟨rfl, _, rfl⟩
      rfl

theorem define_error {name : String} {f : SourceFault}
    (h : define pos name s = .error f s') : s' = s ∧ f.position = pos := by
  unfold define at h
  split at h
  · cases h
    exact ⟨rfl, rfl⟩
  · cases h

/-! ## One statement -/

/-- `Executes s st s'`: the statement `st` succeeds and takes `s` to `s'`. -/
inductive Executes (s : Assembly) : Statement → Assembly → Prop
  /-- An operation appends its instruction. -/
  | operation {pos : Position} {m : Mnemonic} {args : List Argument} {i : Instruction}
      {lost : Option Overflow} :
      s.symbols.Built m args i lost →
      Executes s ⟨pos, m.name, args⟩ (s.withInstruction pos i lost)
  /-- A label declaration binds its name to the current address. -/
  | label {pos : Position} {name : String} :
      predeclared? name = none →
      Executes s ⟨pos, labelDirectiveName, [.text name]⟩
        (s.withLabel pos name (s.symbols.address? name) (s.symbols.bind name s.image.here))

theorem discard_eq_ok_iff {α : Type} {x : Assembler α} :
    (discard x : Assembler Unit) s = .ok () s' ↔ ∃ a, x s = .ok a s' := by
  rw [discard_apply]
  cases x s <;> simp

theorem executeLabel_eq_ok_iff {args : List Argument} :
    executeLabel pos args s = .ok () s' ↔
      ∃ name, args = [.text name] ∧ ∃ address, define pos name s = .ok address s' := by
  unfold executeLabel
  split
  · next name => simp [discard_eq_ok_iff]
  · next other hother =>
    constructor
    · intro h
      cases h
    · rintro ⟨name, hargs, _⟩
      cases hargs
      exact absurd rfl (hother name)
  · next args htext _ =>
    constructor
    · intro h
      cases h
    · rintro ⟨name, rfl, _⟩
      exact absurd rfl (htext name)

theorem execute_operation {st : Statement} {m : Mnemonic} (h : st.name = m.name) :
    execute st s = (discard (place st.position m st.arguments) : Assembler Unit) s := by
  have hm : s.symbols.meaning? st.name = some (.operation m) :=
    Symbols.meaning?_eq_operation_iff.2 h
  simp only [execute, hm]

theorem execute_labelDirective {st : Statement} (h : st.name = labelDirectiveName) :
    execute st s = executeLabel st.position st.arguments s := by
  have hm : s.symbols.meaning? st.name = some .labelDirective :=
    Symbols.meaning?_eq_labelDirective_iff.2 h
  simp only [execute, hm]

/-- A statement succeeds in the two ways that `Executes` lists and no other. -/
theorem execute_eq_ok_iff {st : Statement} :
    execute st s = .ok () s' ↔ Executes s st s' := by
  constructor
  · intro h
    obtain ⟨pos, name, args⟩ := st
    unfold execute at h
    split at h
    · next m hm =>
      obtain rfl := Symbols.meaning?_eq_operation_iff.1 hm
      obtain ⟨_, hplace⟩ := discard_eq_ok_iff.1 h
      obtain ⟨_, i, lost, hbuilt, rfl⟩ := place_eq_ok_iff.1 hplace
      exact .operation hbuilt
    · next hm =>
      obtain rfl := Symbols.meaning?_eq_labelDirective_iff.1 hm
      obtain ⟨label, rfl, _, hdefine⟩ := executeLabel_eq_ok_iff.1 h
      obtain ⟨_, hfree, rfl⟩ := define_eq_ok_iff.1 hdefine
      exact .label hfree
    · cases h
    · cases h
  · intro h
    cases h with
    | @operation pos m args i lost hbuilt =>
      rw [execute_operation rfl]
      exact discard_eq_ok_iff.2 ⟨_, place_eq_ok_iff.2 ⟨rfl, i, lost, hbuilt, rfl⟩⟩
    | @label pos name hfree =>
      rw [execute_labelDirective rfl]
      exact executeLabel_eq_ok_iff.2
        ⟨name, rfl, _, define_eq_ok_iff.2 ⟨rfl, hfree, rfl⟩⟩

/-- A statement headed by a mnemonic can only append an instruction. -/
theorem Executes.of_operation {st : Statement} {m : Mnemonic} (h : Executes s st s')
    (hname : st.name = m.name) :
    ∃ i lost, s.symbols.Built m st.arguments i lost ∧
      s' = s.withInstruction st.position i lost := by
  have hexecute := execute_eq_ok_iff.2 h
  rw [execute_operation hname] at hexecute
  obtain ⟨_, hplace⟩ := discard_eq_ok_iff.1 hexecute
  obtain ⟨_, hbuilt⟩ := place_eq_ok_iff.1 hplace
  exact hbuilt

/-- A label declaration can only bind its label. -/
theorem Executes.of_label {pos : Position} {name : String}
    (h : Executes s ⟨pos, labelDirectiveName, [.text name]⟩ s') :
    s' = s.withLabel pos name (s.symbols.address? name)
      (s.symbols.bind name s.image.here) := by
  have hexecute := execute_eq_ok_iff.2 h
  rw [execute_labelDirective rfl] at hexecute
  obtain ⟨label, hlabel, _, hdefine⟩ := executeLabel_eq_ok_iff.1 hexecute
  cases hlabel
  obtain ⟨_, _, hs⟩ := define_eq_ok_iff.1 hdefine
  exact hs

theorem discard_error {α : Type} {x : Assembler α} {f : SourceFault}
    (h : (discard x : Assembler Unit) s = .error f s') : x s = .error f s' := by
  rw [discard_apply] at h
  cases hx : x s with
  | ok a s₁ => simp [hx] at h
  | error f₁ s₁ => simpa [hx] using h

theorem executeLabel_error {args : List Argument} {f : SourceFault}
    (h : executeLabel pos args s = .error f s') : s' = s ∧ f.position = pos := by
  unfold executeLabel at h
  split at h
  · exact define_error (discard_error h)
  · cases h
    exact ⟨rfl, rfl⟩
  · cases h
    exact ⟨rfl, rfl⟩

/-- A statement that fails leaves the assembly as it was, and the fault is
    charged to the statement's own line. -/
theorem execute_error {st : Statement} {f : SourceFault}
    (h : execute st s = .error f s') : s' = s ∧ f.position = st.position := by
  unfold execute at h
  split at h
  · exact place_error (discard_error h)
  · exact executeLabel_error h
  · cases h
    exact ⟨rfl, rfl⟩
  · cases h
    exact ⟨rfl, rfl⟩

/-! ## Runs -/

theorem executeAll_cons_eq_ok_iff {st : Statement} {ss : List Statement} :
    executeAll (st :: ss) s = .ok () s' ↔
      ∃ s₁, Executes s st s₁ ∧ executeAll ss s₁ = .ok () s' := by
  rw [executeAll_cons]
  simp only [← execute_eq_ok_iff]
  cases execute st s <;> simp

/-- A run goes on from where the statements before it lead to. -/
theorem executeAll_append {ss rest : List Statement} (h : executeAll ss s = .ok () s') :
    executeAll (ss ++ rest) s = executeAll rest s' := by
  induction ss generalizing s with
  | nil =>
    cases h
    rfl
  | cons st ss ih =>
    obtain ⟨s₁, hstep, hrest⟩ := executeAll_cons_eq_ok_iff.1 h
    rw [List.cons_append, executeAll_cons, execute_eq_ok_iff.2 hstep]
    exact ih hrest

/-- The run lemma: a relation between the statements executed so far and the
    state, preserved by every successful step, holds after a run. -/
theorem executeAll_invariant {P : List Statement → Assembly → Prop}
    (step : ∀ {before : List Statement} {st : Statement} {s s' : Assembly},
      P before s → Executes s st s' → P (before ++ [st]) s')
    {before ss : List Statement} {s s' : Assembly} (h₀ : P before s)
    (hrun : executeAll ss s = .ok () s') : P (before ++ ss) s' := by
  induction ss generalizing before s with
  | nil =>
    cases hrun
    simpa using h₀
  | cons st ss ih =>
    obtain ⟨s₁, hstep, hrest⟩ := executeAll_cons_eq_ok_iff.1 hrun
    have h := ih (step h₀ hstep) hrest
    rwa [List.append_assoc, List.singleton_append] at h

/-- `BreaksOff ss s k f s'`: from `s`, the first `k` statements of `ss` succeed
    and lead to `s'`, where the next one fails with `f`. -/
structure BreaksOff (ss : List Statement) (s : Assembly) (k : Nat) (f : SourceFault)
    (s' : Assembly) : Prop where
  before : executeAll (ss.take k) s = .ok () s'
  next : ∃ st, ss[k]? = some st ∧ execute st s' = .error f s'

theorem breaksOff_zero_iff {st : Statement} {ss : List Statement} {f : SourceFault} :
    BreaksOff (st :: ss) s 0 f s' ↔ execute st s = .error f s' := by
  constructor
  · rintro ⟨hbefore, next, hnext, hfails⟩
    cases hbefore
    cases hnext
    exact hfails
  · intro hfails
    obtain ⟨rfl, _⟩ := execute_error hfails
    exact ⟨rfl, st, rfl, hfails⟩

/-- One more statement in front of a run that breaks off. -/
theorem breaksOff_succ_iff {st : Statement} {ss : List Statement} {k : Nat} {f : SourceFault} :
    BreaksOff (st :: ss) s (k + 1) f s' ↔ ∃ s₁, Executes s st s₁ ∧ BreaksOff ss s₁ k f s' := by
  constructor
  · rintro ⟨hbefore, next, hnext, hfails⟩
    rw [List.take_succ_cons] at hbefore
    rw [List.getElem?_cons_succ] at hnext
    obtain ⟨s₁, hstep, hrest⟩ := executeAll_cons_eq_ok_iff.1 hbefore
    exact ⟨s₁, hstep, hrest, next, hnext, hfails⟩
  · rintro ⟨s₁, hstep, hrest, next, hnext, hfails⟩
    refine ⟨?_, next, ?_, hfails⟩
    · rw [List.take_succ_cons]
      exact executeAll_cons_eq_ok_iff.2 ⟨s₁, hstep, hrest⟩
    · rw [List.getElem?_cons_succ]
      exact hnext

/-- A run fails exactly if it breaks off at one of its statements; it then
    stays in the state that the statements before that one lead to. -/
theorem executeAll_eq_error_iff {ss : List Statement} {f : SourceFault} :
    executeAll ss s = .error f s' ↔ ∃ k, BreaksOff ss s k f s' := by
  induction ss generalizing s with
  | nil =>
    constructor
    · intro h
      cases h
    · rintro ⟨k, _, st, hst, _⟩
      simp at hst
  | cons st ss ih =>
    -- Either the first statement is the one that fails, or a later one is.
    have hsplit : (∃ k, BreaksOff (st :: ss) s k f s') ↔
        execute st s = .error f s' ∨
          ∃ s₁, Executes s st s₁ ∧ executeAll ss s₁ = .error f s' := by
      constructor
      · rintro ⟨k, hbreak⟩
        cases k with
        | zero => exact .inl (breaksOff_zero_iff.1 hbreak)
        | succ k =>
          obtain ⟨s₁, hstep, hrest⟩ := breaksOff_succ_iff.1 hbreak
          exact .inr ⟨s₁, hstep, ih.2 ⟨k, hrest⟩⟩
      · rintro (hfails | ⟨s₁, hstep, hrest⟩)
        · exact ⟨0, breaksOff_zero_iff.2 hfails⟩
        · obtain ⟨k, hbreak⟩ := ih.1 hrest
          exact ⟨k + 1, breaksOff_succ_iff.2 ⟨s₁, hstep, hbreak⟩⟩
    rw [hsplit, executeAll_cons]
    simp only [← execute_eq_ok_iff]
    cases execute st s <;> simp

/-- Statements that succeed do not change where those after them break off. -/
theorem BreaksOff.append {ss rest : List Statement} {k : Nat} {f : SourceFault}
    {t : Assembly} (h : executeAll ss s = .ok () t) (hrest : BreaksOff rest t k f s') :
    BreaksOff (ss ++ rest) s (ss.length + k) f s' := by
  obtain ⟨hbefore, st, hst, hfails⟩ := hrest
  refine ⟨?_, st, ?_, hfails⟩
  · rw [List.take_length_add_append, executeAll_append h]
    exact hbefore
  · rw [List.getElem?_append_right (Nat.le_add_right ..), Nat.add_sub_cancel_left]
    exact hst

/-! ## Sources -/

theorem assemble_eq_ok_iff {file source : String} :
    assemble file source s = .ok () s' ↔
      ∃ ss, readSource file source = .ok ss ∧ executeAll ss s = .ok () s' := by
  unfold assemble
  cases readSource file source with
  | error f =>
    constructor
    · intro h
      cases h
    · rintro ⟨ss, hread, _⟩
      cases hread
  | ok ss => simp

/-- A source that is refused by the reader is not run at all. -/
theorem assemble_eq_error_iff {file source : String} {f : SourceFault} :
    assemble file source s = .error f s' ↔
      (readSource file source = .error f ∧ s' = s) ∨
        ∃ ss, readSource file source = .ok ss ∧ executeAll ss s = .error f s' := by
  unfold assemble
  cases readSource file source with
  | error g =>
    constructor
    · intro h
      cases h
      exact .inl ⟨rfl, rfl⟩
    · rintro (⟨hread, rfl⟩ | ⟨ss, hread, _⟩)
      · cases hread
        rfl
      · cases hread
  | ok ss => simp

end Assembler

end OnePass
