import Mathlib.Data.List.Forall2
import OnePass.Proofs.Denotation
import OnePass.Proofs.Typing

/-! # Two runs side by side

    Two statement lists of the same length are executed, each from an assembly
    of its own.  What is proved about one statement on each side carries over
    to the runs, whether they succeed or fail.

    * `Lockstep` : one statement on each side.
    * `lockstep_of_typing` : two statements go in lockstep if the rules accept
      both or refuse both.
    * `executeAll_lockstep` : the run lemma.  If every two statements go in
      lockstep, both runs succeed, or both break off at the same statement.
    * `Grown` : both images grow by one entry for each operation. -/

namespace OnePass

/-- Faults of one variant; what they quote may differ. -/
def Fault.SameVariant (f g : Fault) : Prop :=
  f.ctorIdx = g.ctorIdx

/-- Faults of one variant that are charged to the same position. -/
def SourceFault.Alike (e e' : SourceFault) : Prop :=
  e.position = e'.position ∧ e.fault.SameVariant e'.fault

namespace Assembler

/-- One statement on each side: either both succeed and lead to assemblies in
    the relation `R`, or both fail with faults in the relation `F`, and then
    nothing changes. -/
inductive Lockstep (F : SourceFault → SourceFault → Prop) (R : Assembly → Assembly → Prop)
    (st st' : Statement) (s s' : Assembly) : Prop
  | ok {t t' : Assembly} :
      Executes s st t → Executes s' st' t' → R t t' → Lockstep F R st st' s s'
  | error {e e' : SourceFault} :
      execute st s = .error e s → execute st' s' = .error e' s' → F e e' →
      Lockstep F R st st' s s'

/-- The rules decide whether a statement succeeds and why it fails, so what is
    left to prove of two statements is what they do if both succeed. -/
theorem lockstep_of_typing {F : SourceFault → SourceFault → Prop}
    {R : Assembly → Assembly → Prop} {st st' : Statement} {s s' : Assembly}
    (hwell : Typing.WellTyped s.symbols.scope st → Typing.WellTyped s'.symbols.scope st')
    (hill : ∀ f, Typing.IllTyped s.symbols.scope st f →
      ∃ f', Typing.IllTyped s'.symbols.scope st' f' ∧ F ⟨st.position, f⟩ ⟨st'.position, f'⟩)
    (step : ∀ {t t' : Assembly}, Executes s st t → Executes s' st' t' → R t t') :
    Lockstep F R st st' s s' := by
  rcases Typing.wellTyped_or_illTyped s.symbols st with hone | ⟨f, hf⟩
  · obtain ⟨t, ht⟩ := execute_eq_ok_iff_wellTyped.2 hone
    obtain ⟨t', ht'⟩ := execute_eq_ok_iff_wellTyped.2 (hwell hone)
    have hexecutes := execute_eq_ok_iff.1 ht
    have hexecutes' := execute_eq_ok_iff.1 ht'
    exact .ok hexecutes hexecutes' (step hexecutes hexecutes')
  · obtain ⟨f', hf', hfaults⟩ := hill f hf
    exact .error (execute_of_illTyped hf) (execute_of_illTyped hf') hfaults

/-- The run lemma for two runs.  `P` relates the statements that the first run
    has executed so far to the two assemblies, and every two statements that
    correspond by `S` go in lockstep and preserve it. -/
theorem executeAll_lockstep {S : Statement → Statement → Prop}
    {F : SourceFault → SourceFault → Prop} {P : List Statement → Assembly → Assembly → Prop}
    (step : ∀ {before : List Statement} {st st' : Statement} {s s' : Assembly},
      S st st' → P before s s' → Lockstep F (P (before ++ [st])) st st' s s')
    {before ss ss' : List Statement} {s s' : Assembly} (hss : List.Forall₂ S ss ss')
    (h : P before s s') :
    (∃ t t', executeAll ss s = .ok () t ∧ executeAll ss' s' = .ok () t' ∧
      P (before ++ ss) t t') ∨
    ∃ k e e' t t', BreaksOff ss s k e t ∧ BreaksOff ss' s' k e' t' ∧ F e e' ∧
      P (before ++ ss.take k) t t' := by
  -- The induction is on the statements ahead; those behind are collected in `before`.
  induction hss generalizing before s s' with
  | nil =>
    refine .inl ⟨s, s', rfl, rfl, ?_⟩
    rwa [List.append_nil]
  | @cons st st' ss ss' hst hss ih =>
    rcases step hst h with ⟨hone, hone', ht⟩ | ⟨hfails, hfails', he⟩
    · rcases ih ht with ⟨u, u', hrun, hrun', hu⟩ | ⟨k, e, e', u, u', hb, hb', he, hu⟩
      · refine .inl ⟨u, u', ?_, ?_, ?_⟩
        · exact executeAll_cons_eq_ok_iff.2 ⟨_, hone, hrun⟩
        · exact executeAll_cons_eq_ok_iff.2 ⟨_, hone', hrun'⟩
        · rwa [List.append_assoc, List.singleton_append] at hu
      · refine .inr ⟨k + 1, e, e', u, u', ?_, ?_, he, ?_⟩
        · exact breaksOff_succ_iff.2 ⟨_, hone, hb⟩
        · exact breaksOff_succ_iff.2 ⟨_, hone', hb'⟩
        · rwa [List.append_assoc, List.singleton_append] at hu
    · -- Both fail here, in the assemblies they started from.
      refine .inr ⟨0, _, _, s, s', ?_, ?_, he, ?_⟩
      · exact breaksOff_zero_iff.2 hfails
      · exact breaksOff_zero_iff.2 hfails'
      · rwa [List.take_zero, List.append_nil]

end Assembler

/-! ## Two images -/

/-- An operation with the entries that it gave in two runs. -/
structure Twin where
  operation : Statement
  first : Entry
  second : Entry

/-- `Grown L s₀ s₀' ss s s'`: the images of `s` and `s'` are those of `s₀` and
    `s₀'`, each followed by one entry for every operation of `ss`, in order.
    The two entries of an operation are related by `L`. -/
def Grown (L : Statement → Entry → Entry → Prop) (s₀ s₀' : Assembly) (ss : List Statement)
    (s s' : Assembly) : Prop :=
  ∃ twins : List Twin,
    twins.map (·.operation) = ss.filter Statement.isOperation ∧
    s.image.entries.toList = s₀.image.entries.toList ++ twins.map (·.first) ∧
    s'.image.entries.toList = s₀'.image.entries.toList ++ twins.map (·.second) ∧
    ∀ twin ∈ twins, L twin.operation twin.first twin.second

variable {L : Statement → Entry → Entry → Prop} {s₀ s₀' s s' t t' : Assembly}
  {ss : List Statement} {st : Statement}

theorem grown_start : Grown L s₀ s₀' [] s₀ s₀' := by
  refine ⟨[], rfl, ?_, ?_, ?_⟩
  · exact (List.append_nil _).symm
  · exact (List.append_nil _).symm
  · intro twin htwin
    cases htwin

/-- One operation more on both sides. -/
theorem Grown.operation (h : Grown L s₀ s₀' ss s s') (hop : st.isOperation = true)
    {e e' : Entry} (he : L st e e') (ht : t.image = s.image.push e)
    (ht' : t'.image = s'.image.push e') : Grown L s₀ s₀' (ss ++ [st]) t t' := by
  obtain ⟨twins, hops, hfirst, hsecond, hall⟩ := h
  refine ⟨twins ++ [⟨st, e, e'⟩], ?_, ?_, ?_, ?_⟩
  · rw [List.map_append, hops, List.filter_append, List.filter_singleton, hop]
    rfl
  · rw [ht, Image.toList_push, hfirst, List.map_append, List.append_assoc]
    rfl
  · rw [ht', Image.toList_push, hsecond, List.map_append, List.append_assoc]
    rfl
  · intro twin htwin
    rcases List.mem_append.1 htwin with hold | hnew
    · exact hall twin hold
    · rw [List.mem_singleton.1 hnew]
      exact he

/-- A statement that places nothing leaves both images as they are. -/
theorem Grown.other (h : Grown L s₀ s₀' ss s s') (hop : st.isOperation = false)
    (ht : t.image = s.image) (ht' : t'.image = s'.image) :
    Grown L s₀ s₀' (ss ++ [st]) t t' := by
  obtain ⟨twins, hops, hfirst, hsecond, hall⟩ := h
  refine ⟨twins, ?_, ?_, ?_, hall⟩
  · rw [hops, List.filter_append, List.filter_singleton, hop]
    exact (List.append_nil _).symm
  · rw [ht, hfirst]
  · rw [ht', hsecond]

/-- Both images grow by the same number of entries. -/
theorem Grown.size_eq (h : Grown L s₀ s₀' ss s s') :
    ∃ n, s.image.size = s₀.image.size + n ∧ s'.image.size = s₀'.image.size + n := by
  obtain ⟨twins, _, hfirst, hsecond, _⟩ := h
  refine ⟨twins.length, ?_, ?_⟩
  · have hlength := congrArg List.length hfirst
    rwa [List.length_append, List.length_map, Array.length_toList, Array.length_toList] at hlength
  · have hlength := congrArg List.length hsecond
    rwa [List.length_append, List.length_map, Array.length_toList, Array.length_toList] at hlength

/-- If the first run starts with an empty image, the second image is ahead by
    what it started with. -/
theorem Grown.size_add {q : Assembly} (h : Grown L {} q ss s s') :
    s'.image.size = s.image.size + q.image.size := by
  obtain ⟨n, hsize, hsize'⟩ := h.size_eq
  have hzero : ({} : Assembly).image.size = 0 := rfl
  omega

end OnePass
