import OnePass.Proofs.Warnings

/-! # All or nothing

    A statement that fails leaves no trace: everything is checked before
    anything is written.  So a run that fails has done exactly what the
    statements before the failing one do, and whatever a run has written stays
    in front of what it writes later.

    * `Passes` : statements that succeed one after the other.
    * `Extends` : nothing written before is taken back.
    * `executeAll_all_or_nothing` : where a run stops, and in which state. -/

namespace OnePass

/-- `Extends s s'`: the image and the diagnostics of `s'` begin with those of
    `s`. -/
structure Extends (s s' : Assembly) : Prop where
  entries : s.image.entries.toList <+: s'.image.entries.toList
  diagnostics : s.journal.diagnostics <+: s'.journal.diagnostics

theorem Extends.refl (s : Assembly) : Extends s s :=
  ⟨List.prefix_rfl, List.prefix_rfl⟩

theorem Extends.trans {s s' s'' : Assembly} (h : Extends s s') (h' : Extends s' s'') :
    Extends s s'' :=
  ⟨h.entries.trans h'.entries, h.diagnostics.trans h'.diagnostics⟩

namespace Assembler

variable {s s' : Assembly} {ss : List Statement}

/-- `Passes s ss s'`: from `s`, the statements of `ss` succeed one after the
    other and lead to `s'`. -/
inductive Passes : Assembly → List Statement → Assembly → Prop
  | nil {s : Assembly} : Passes s [] s
  | cons {s t s' : Assembly} {st : Statement} {ss : List Statement} :
      execute st s = .ok () t → Passes t ss s' → Passes s (st :: ss) s'

theorem passes_iff : Passes s ss s' ↔ executeAll ss s = .ok () s' := by
  constructor
  · intro h
    induction h with
    | nil => rfl
    | cons hone _ ih => exact executeAll_cons_eq_ok_iff.2 ⟨_, execute_eq_ok_iff.1 hone, ih⟩
  · intro h
    induction ss generalizing s with
    | nil =>
      cases h
      exact .nil
    | cons st ss ih =>
      obtain ⟨t, hone, hrest⟩ := executeAll_cons_eq_ok_iff.1 h
      exact .cons (execute_eq_ok_iff.2 hone) (ih hrest)

/-! ## What is written stays -/

theorem extends_step {st : Statement} (h : Executes s st s') : Extends s s' := by
  cases h with
  | @operation pos m args i lost hbuilt =>
    constructor
    · show s.image.entries.toList <+: (s.image.push ⟨pos, i⟩).entries.toList
      rw [Image.toList_push]
      exact List.prefix_append ..
    · rw [Assembly.diagnostics_withInstruction]
      exact List.prefix_append ..
  | @label pos name hfree =>
    constructor
    · exact List.prefix_rfl
    · exact ⟨[], (List.append_nil _).trans (Journal.diagnostics_log ..).symm⟩

/-- A run, finished or broken off, extends the assembly it starts from. -/
theorem extends_finalState (s : Assembly) (ss : List Statement) :
    Extends s ((executeAll ss).finalState s) :=
  Session.executeAll_preserves (fun h hone => h.trans (extends_step hone)) ss (Extends.refl s)

/-- A run of more statements goes on from where the run of fewer ended, unless
    that broke off. -/
theorem finalState_append (s : Assembly) (ss rest : List Statement) :
    (executeAll (ss ++ rest)).finalState s = (executeAll ss).finalState s ∨
      (executeAll (ss ++ rest)).finalState s =
        (executeAll rest).finalState ((executeAll ss).finalState s) := by
  cases hrun : executeAll ss s with
  | ok u t =>
    right
    have hstate : (executeAll ss).finalState s = t := by simp only [finalState, hrun]
    rw [hstate, finalState, executeAll_append hrun]
    rfl
  | error e t =>
    left
    -- The first part breaks off, so the rest is never reached.
    obtain ⟨k, hbefore, st, hst, hfails⟩ := executeAll_eq_error_iff.1 hrun
    have hk : k < ss.length := (List.getElem?_eq_some_iff.1 hst).1
    have hbreak : BreaksOff (ss ++ rest) s k e t := by
      refine ⟨?_, st, ?_, hfails⟩
      · rwa [List.take_append_of_le_length (Nat.le_of_lt hk)]
      · rwa [List.getElem?_append_left hk]
    simp only [finalState, hrun, executeAll_eq_error_iff.2 ⟨k, hbreak⟩]

/-- The longer a run goes on, the more it extends what it has written. -/
theorem extends_take (s : Assembly) (ss : List Statement) {j k : Nat} (h : j ≤ k) :
    Extends ((executeAll (ss.take j)).finalState s) ((executeAll (ss.take k)).finalState s) := by
  have hsplit : ss.take k = ss.take j ++ (ss.take k).drop j := by
    have htake : (ss.take k).take j = ss.take j := by
      rw [List.take_take, Nat.min_eq_left h]
    rw [← htake, List.take_append_drop]
  rw [hsplit]
  rcases finalState_append s (ss.take j) ((ss.take k).drop j) with hsame | hlater
  · rw [hsame]
    exact Extends.refl _
  · rw [hlater]
    exact extends_finalState ..

/-- A statement that fails changes nothing and is charged to its own position.
    So a run fails exactly if some statement fails in the assembly that all
    those before it lead to, one after the other, and then it ends in that
    assembly.  At any point of a run, whether it succeeds or fails, the
    entries and the diagnostics so far are the first ones of what comes later. -/
theorem executeAll_all_or_nothing (s : Assembly) (ss : List Statement) :
    (∀ (st : Statement) (f : SourceFault) (s' : Assembly),
      execute st s = .error f s' → s' = s ∧ f.position = st.position) ∧
    (∀ (f : SourceFault) (s' : Assembly), executeAll ss s = .error f s' ↔
      ∃ k st, ss[k]? = some st ∧ Passes s (ss.take k) s' ∧ execute st s' = .error f s') ∧
    ∀ j k : Nat, j ≤ k →
      Extends ((executeAll (ss.take j)).finalState s)
        ((executeAll (ss.take k)).finalState s) := by
  refine ⟨fun st f s' => execute_error, fun f s' => ?_, fun j k => extends_take s ss⟩
  rw [executeAll_eq_error_iff]
  constructor
  · rintro ⟨k, hbefore, st, hst, hfails⟩
    exact ⟨k, st, hst, passes_iff.2 hbefore, hfails⟩
  · rintro ⟨k, st, hst, hbefore, hfails⟩
    exact ⟨k, passes_iff.1 hbefore, st, hst, hfails⟩

/-- A label that is used before it is declared.  The warning and the entry of
    the statement before stay, and the declaration after it is not reached. -/
theorem executeAll_all_or_nothing_forward :
    let ss : List Statement :=
      [⟨⟨"t.s", 1⟩, "lri", [.name "r4", .number 0x1FF]⟩,
       ⟨⟨"t.s", 2⟩, "jmp", [.name "end"]⟩,
       ⟨⟨"t.s", 3⟩, "label", [.text "end"]⟩]
    ∃ s : Assembly, executeAll ss {} = .error ⟨⟨"t.s", 2⟩, .undefined "end"⟩ s ∧
      s.image.entries.toList = [⟨⟨"t.s", 1⟩, .lri ⟨4⟩ 255⟩] ∧
      s.journal.diagnostics = [⟨.warning, ⟨"t.s", 1⟩, "0x1FF too big, will truncate"⟩] ∧
      s.symbols.labels = [] ∧
      (∀ f s', execute ⟨⟨"t.s", 2⟩, "jmp", [.name "end"]⟩ s = .error f s' → s' = s) ∧
      Extends ((executeAll (ss.take 1)).finalState {}) ((executeAll ss).finalState {}) := by
  intro ss
  obtain ⟨s, hbefore⟩ : ∃ s, execute ⟨⟨"t.s", 1⟩, "lri", [.name "r4", .number 0x1FF]⟩ {} =
      .ok () s := ⟨_, rfl⟩
  have hfails : execute ⟨⟨"t.s", 2⟩, "jmp", [.name "end"]⟩ s =
      .error ⟨⟨"t.s", 2⟩, .undefined "end"⟩ s := by
    cases hbefore
    rfl
  obtain ⟨_, hstops, hextends⟩ := executeAll_all_or_nothing {} ss
  have hrun := (hstops _ s).2 ⟨1, _, rfl, .cons hbefore .nil, hfails⟩
  refine ⟨s, hrun, ?_, ?_, ?_, ?_, hextends 1 3 (by decide)⟩
  · cases hbefore
    rfl
  · have hwarnings := Denotation.diagnostics_of_run (passes_iff.1 (.cons hbefore .nil))
    exact hwarnings.trans (by decide +kernel)
  · cases hbefore
    rfl
  · intro f s' h
    exact ((executeAll_all_or_nothing s ss).1 _ f s' h).1

end Assembler

end OnePass
